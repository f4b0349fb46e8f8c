-- SUMMARY: A pager over any book at all: what its calls ask for and hand out, whatever the fetches answer.
import LoanArrears.Proofs.Book.Writes
import LoanArrears.Proofs.Job.Pager
import Mathlib.Data.List.Sort

/-!
# A pager over any book

A `ScriptedBook` answers fetches from a script that sees all fetches so far, and notes them. The
script may answer anything: ids out of order, repeated, up to the cursor or more than were asked
for, and errors. `Pager.Turn` is what one call does then, and `Pager.HasAnswered` is what any
number of calls of a new pager keep: the cursor is the last id that was handed out, and the ids of
all pages together ascend.
-/

namespace LoanArrears

/-! ## Scripted books -/

/-- What a fetch asks for. -/
structure FetchRequest where
  after : LoanId
  pageSize : Nat
  today : Date
deriving DecidableEq

structure ScriptedBook where
  /-- The answer to the last one of the fetches. -/
  script : List FetchRequest → Except Error (List LoanId)
  asked : List FetchRequest

namespace ScriptedBook

/-- The book after one more fetch. -/
def note (s : ScriptedBook) (r : FetchRequest) : ScriptedBook :=
  { s with asked := s.asked ++ [r] }

/-- The answer to one more fetch. -/
def reply (s : ScriptedBook) (r : FetchRequest) : Except Error (List LoanId) :=
  s.script (s.asked ++ [r])

/-- Only candidates are ever fetched. -/
instance : BookAccess ScriptedBook where
  candidates after pageSize today := Act.ofExec fun s =>
    ((s.reply ⟨after, pageSize, today⟩).mapError .error, s.note ⟨after, pageSize, today⟩)
  plannedInstallments _ := pure []
  liveInstallments _ := pure []
  consumption loan := Act.fail (.loanNotFound loan)
  terms loan := Act.fail (.loanNotFound loan)

end ScriptedBook

/-! ## Calls -/

/-- A page, the end or an error. -/
abbrev PageAnswer : Type := Except Error (Option (List LoanId))

/-- The pages among the answers. -/
def handedOut (answers : List PageAnswer) : List (List LoanId) :=
  answers.filterMap fun answer => answer.toOption.join

theorem handedOut_concat (answers : List PageAnswer) (answer : PageAnswer) :
    handedOut (answers ++ [answer]) = handedOut answers ++ answer.toOption.join.toList := by
  cases h : answer.toOption.join <;> simp [handedOut, h]

namespace Pager

variable {p p' : Pager} {s s' : ScriptedBook} {answer : PageAnswer}

/-- One call of the pager; if it fails, the pager is the one that was called. -/
def call [BookAccess σ] (p : Pager) : Act σ (PageAnswer × Pager) := do
  match ← p.next.attempt with
  | .ok (page?, p') => return (.ok page?, p')
  | .error e => return (.error e, p)

/-- Calls one after the other, whatever they answer. -/
def calls [BookAccess σ] (p : Pager) : Nat → Act σ (List PageAnswer × Pager)
  | 0 => return ([], p)
  | n + 1 => do
    let (answers, p) ← p.calls n
    let (answer, p) ← p.call
    return (answers ++ [answer], p)

/-- The fetch that the pager makes next. -/
def request (p : Pager) : FetchRequest :=
  ⟨p.cursor, p.pageSize, p.today⟩

/-- What one call over a scripted book does. -/
inductive Turn (p : Pager) (s : ScriptedBook) : PageAnswer → Pager → ScriptedBook → Prop where
  | exhausted (h : p.exhausted = true) : Turn p s (.ok none) p s
  | failed {e : Error} (h : p.exhausted = false) (hreply : s.reply p.request = .error e) :
    Turn p s (.error e) p (s.note p.request)
  | last {ids : List LoanId} (h : p.exhausted = false) (hreply : s.reply p.request = .ok ids)
    (hids : ∀ id ∈ ids, ¬ p.cursor < id) :
    Turn p s (.ok none) { p with exhausted := true } (s.note p.request)
  | page {ids page : List LoanId} {last : LoanId} (h : p.exhausted = false)
    (hreply : s.reply p.request = .ok ids) (hascending : page.Pairwise (· < ·))
    (hmem : ∀ id, id ∈ page ↔ id ∈ ids ∧ p.cursor < id) (hlast : page.getLast? = some last) :
    Turn p s (.ok (some page))
      { p with
        cursor := last
        exhausted := page.length < p.pageSize
        pages := p.pages + 1
        ids := p.ids + page.length }
      (s.note p.request)

theorem exec_call_ok {page? : Option (List LoanId)} (h : p.next.exec s = (.ok (page?, p'), s')) :
    p.call.exec s = (.ok (.ok page?, p'), s') := by
  rw [call, Act.exec_bind_ok (Act.exec_attempt_ok h)]
  rfl

theorem exec_call_error {e : Error} (h : p.next.exec s = (.error (.error e), s')) :
    p.call.exec s = (.ok (.error e, p), s') := by
  rw [call, Act.exec_bind_ok (Act.exec_attempt_error h)]
  rfl

theorem exists_turn (p : Pager) (hsize : 1 ≤ p.pageSize) (s : ScriptedBook) :
    ∃ answer p' s', p.call.exec s = (.ok (answer, p'), s') ∧ p.Turn s answer p' s' := by
  cases h : p.exhausted with
  | true =>
    refine ⟨.ok none, p, s, exec_call_ok ?_, .exhausted h⟩
    rw [next, if_pos h]
    rfl
  | false =>
    have hfetch : (BookAccess.candidates p.cursor p.pageSize p.today).exec s =
        ((s.reply p.request).mapError .error, s.note p.request) := rfl
    cases hreply : s.reply p.request with
    | error e =>
      rw [hreply] at hfetch
      exact ⟨_, _, _, exec_call_error (exec_next_error h hfetch), .failed h hreply⟩
    | ok ids =>
      rw [hreply] at hfetch
      have hcall := exec_call_ok (exec_next_ok h hfetch)
      have hmem (id : LoanId) : id ∈ ascendingBehind p.cursor ids ↔ id ∈ ids ∧ p.cursor < id :=
        mem_ascendingBehind
      have hascending := ascending_ascendingBehind p.cursor ids
      generalize ascendingBehind p.cursor ids = page at hcall hmem hascending
      cases hlast : page.getLast? with
      | none =>
        obtain rfl := List.getLast?_eq_none_iff.1 hlast
        have hadvance : p.advance [] = { p with exhausted := true } := by
          have hshort : 0 < p.pageSize := hsize
          simp [advance, hshort]
        rw [hadvance] at hcall
        exact ⟨_, _, _, hcall, .last h hreply fun id hid hlt => by simpa [hid, hlt] using hmem id⟩
      | some last =>
        have hadvance : p.advance page = { p with
            cursor := last
            exhausted := page.length < p.pageSize
            pages := p.pages + 1
            ids := p.ids + page.length } := by
          simp [advance, hlast]
        rw [isEmpty_of_last hlast, hadvance] at hcall
        exact ⟨_, _, _, hcall, .page h hreply hascending hmem hlast⟩

namespace Turn

/-- A call makes one fetch behind the cursor, and none when the pager is exhausted. -/
theorem book_eq (h : p.Turn s answer p' s') :
    s' = if p.exhausted then s else s.note p.request := by
  cases h <;> simp [*]

theorem eq_of_exhausted (h : p.Turn s answer p' s') (hexhausted : p.exhausted = true) :
    answer = .ok none ∧ p' = p ∧ s' = s := by
  cases h <;> simp_all

theorem eq_of_error {e : Error} (h : p.Turn s (.error e) p' s') :
    p' = p ∧ p.exhausted = false := by
  cases h with
  | failed hexhausted => exact ⟨rfl, hexhausted⟩

theorem script (h : p.Turn s answer p' s') : s'.script = s.script := by
  cases h <;> rfl

theorem exhausted_of_exhausted (h : p.Turn s answer p' s') (hexhausted : p.exhausted = true) :
    p'.exhausted = true := by
  rw [(h.eq_of_exhausted hexhausted).2.1, hexhausted]

theorem exhausted_of_none (h : p.Turn s (.ok none) p' s') : p'.exhausted = true := by
  cases h with
  | exhausted hexhausted => exact hexhausted
  | last => rfl

end Turn

/-! ## Runs of calls -/

/-- Where a new pager is after it handed out some pages. -/
structure HasHanded (p : Pager) (today : Date) (pageSize : Nat) (handed : List (List LoanId)) :
    Prop where
  today : p.today = today
  pageSize : p.pageSize = max pageSize 1
  nonempty : ∀ page ∈ handed, page ≠ []
  ascending : handed.flatten.Pairwise (· < ·)
  positive : ∀ id ∈ handed.flatten, 0 < id
  cursor : p.cursor = handed.flatten.getLast?.getD 0
  pages : p.pages = handed.length
  ids : p.ids = handed.flatten.length

namespace HasHanded

variable {today : Date} {pageSize : Nat} {handed : List (List LoanId)}

theorem nothing (today : Date) (pageSize : Nat) :
    (new today pageSize).HasHanded today pageSize [] where
  today := rfl
  pageSize := rfl
  nonempty := by simp
  ascending := by simp
  positive := by simp
  cursor := rfl
  pages := rfl
  ids := rfl

/-- What was handed out is positive and at most the cursor. -/
theorem le_cursor (h : p.HasHanded today pageSize handed) :
    0 ≤ p.cursor ∧ ∀ id ∈ handed.flatten, id ≤ p.cursor := by
  have hascending := h.ascending
  have hpositive := h.positive
  rw [h.cursor]
  rcases List.eq_nil_or_concat handed.flatten with hnil | ⟨init, last, hconcat⟩
  · simp [hnil]
  · simp only [hconcat, List.concat_eq_append, List.getLast?_concat, Option.getD_some] at *
    have hlast := hpositive last (List.mem_append_right _ List.mem_cons_self)
    refine ⟨Int.le_of_lt hlast, fun id hid => ?_⟩
    rcases List.mem_append.1 hid with hid | hid
    · exact Int.le_of_lt ((List.pairwise_append.1 hascending).2.2 id hid last List.mem_cons_self)
    · exact Int.le_of_eq (List.mem_singleton.1 hid)

theorem exhaust (h : p.HasHanded today pageSize handed) :
    ({ p with exhausted := true } : Pager).HasHanded today pageSize handed :=
  { h with }

/-- A page of ids above the cursor comes behind what was handed out. -/
theorem concat (h : p.HasHanded today pageSize handed) {page : List LoanId} {last : LoanId}
    {exhausted : Bool} (hascending : page.Pairwise (· < ·)) (hcursor : ∀ id ∈ page, p.cursor < id)
    (hlast : page.getLast? = some last) :
    ({ p with
      cursor := last
      exhausted := exhausted
      pages := p.pages + 1
      ids := p.ids + page.length } : Pager).HasHanded today pageSize (handed ++ [page]) where
  today := h.today
  pageSize := h.pageSize
  nonempty := by
    intro page' hpage'
    rcases List.mem_append.1 hpage' with hpage' | hpage'
    · exact h.nonempty page' hpage'
    · rintro rfl
      cases List.mem_singleton.1 hpage'
      cases hlast
  ascending := by
    obtain ⟨-, hle⟩ := h.le_cursor
    rw [List.flatten_append, List.flatten_singleton]
    refine List.pairwise_append.2 ⟨h.ascending, hascending, fun id hid id' hid' => ?_⟩
    exact Int.lt_of_le_of_lt (hle id hid) (hcursor id' hid')
  positive := by
    obtain ⟨hnonneg, -⟩ := h.le_cursor
    intro id hid
    rw [List.flatten_append, List.flatten_singleton] at hid
    rcases List.mem_append.1 hid with hid | hid
    · exact h.positive id hid
    · exact Int.lt_of_le_of_lt hnonneg (hcursor id hid)
  cursor := by simp [List.getLast?_append, hlast]
  pages := by simp [h.pages]
  ids := by simp [h.ids]

theorem turn {answers : List PageAnswer} (h : p.HasHanded today pageSize (handedOut answers))
    (hturn : p.Turn s answer p' s') :
    p'.HasHanded today pageSize (handedOut (answers ++ [answer])) := by
  rw [handedOut_concat]
  cases hturn with
  | exhausted => simpa [Except.toOption] using h
  | failed => simpa [Except.toOption] using h
  | last => simpa [Except.toOption] using h.exhaust
  | page hexhausted hreply hascending hmem hlast =>
    exact h.concat hascending (fun id hid => ((hmem id).1 hid).2) hlast

end HasHanded

/-- The calls of a new pager over a scripted book: what holds of the pager and the book that they
    leave. -/
theorem exists_calls (script : List FetchRequest → Except Error (List LoanId)) (today : Date)
    (pageSize n : Nat) :
    ∃ (answers : List PageAnswer) (p : Pager) (s : ScriptedBook),
      ((new today pageSize).calls n).exec ⟨script, []⟩ = (.ok (answers, p), s) ∧
      answers.length = n ∧ s.script = script ∧ p.HasHanded today pageSize (handedOut answers) ∧
      (.ok none ∈ answers → p.exhausted = true) := by
  induction n with
  | zero => exact ⟨[], _, _, rfl, rfl, rfl, .nothing today pageSize, by simp⟩
  | succ n ih =>
    obtain ⟨answers, p, s, hexec, hlength, hscript, hhanded, hended⟩ := ih
    have hsize : 1 ≤ p.pageSize := by
      rw [hhanded.pageSize]
      exact Nat.le_max_right pageSize 1
    obtain ⟨answer, p', s', hcall, hturn⟩ := p.exists_turn hsize s
    refine ⟨answers ++ [answer], p', s', ?_, by simp [hlength], hturn.script.trans hscript,
      hhanded.turn hturn, fun hmem => ?_⟩
    · rw [calls, Act.exec_bind_ok hexec]
      dsimp only
      rw [Act.exec_bind_ok hcall]
      rfl
    · rcases List.mem_append.1 hmem with hmem | hmem
      · exact hturn.exhausted_of_exhausted (hended hmem)
      · obtain rfl := List.mem_singleton.1 hmem
        exact hturn.exhausted_of_none

end Pager

/-- Over any book, and for any number of calls of a new pager: every page is non-empty, all that was
    handed out is positive and ascends across the pages, the cursor is the last id of it and the
    counters count it. The next call makes at most one fetch, behind the cursor, and answers what
    `Pager.Turn` says. If it fails the pager stays as it is, and the call after it asks for the
    same; after the end the pager ends every call without a fetch. -/
theorem pager_over_any_book (script : List FetchRequest → Except Error (List LoanId))
    (today : Date) (pageSize n : Nat) :
    ∃ (answers : List PageAnswer) (p : Pager) (s : ScriptedBook),
      ((Pager.new today pageSize).calls n).exec ⟨script, []⟩ = (.ok (answers, p), s) ∧
      answers.length = n ∧ s.script = script ∧ p.HasHanded today pageSize (handedOut answers) ∧
      ∃ answer p' s', p.call.exec s = (.ok (answer, p'), s') ∧ p.Turn s answer p' s' ∧
        (s'.asked = s.asked ∨ s'.asked = s.asked ++ [⟨p.cursor, max pageSize 1, today⟩]) ∧
        (∀ e, answer = .error e → p' = p ∧ ∃ answer' p'' s'',
          p'.call.exec s' = (.ok (answer', p''), s'') ∧
            s'.asked = s.asked ++ [⟨p.cursor, max pageSize 1, today⟩] ∧
            s''.asked = s'.asked ++ [⟨p.cursor, max pageSize 1, today⟩]) ∧
        (.ok none ∈ answers → answer = .ok none ∧ p' = p ∧ s' = s) := by
  obtain ⟨answers, p, s, hexec, hlength, hscript, hhanded, hended⟩ :=
    Pager.exists_calls script today pageSize n
  have hsize : 1 ≤ p.pageSize := by
    rw [hhanded.pageSize]
    exact Nat.le_max_right pageSize 1
  have hrequest : p.request = ⟨p.cursor, max pageSize 1, today⟩ := by
    rw [Pager.request, hhanded.pageSize, hhanded.today]
  obtain ⟨answer, p', s', hcall, hturn⟩ := p.exists_turn hsize s
  have hbook := hturn.book_eq
  refine ⟨answers, p, s, hexec, hlength, hscript, hhanded, answer, p', s', hcall, hturn, ?_, ?_,
    fun hmem => hturn.eq_of_exhausted (hended hmem)⟩
  · rw [hbook, ← hrequest]
    split
    · exact .inl rfl
    · exact .inr rfl
  · rintro e rfl
    obtain ⟨rfl, hexhausted⟩ := hturn.eq_of_error
    obtain ⟨answer', p'', s'', hcall', hturn'⟩ := p'.exists_turn hsize s'
    have hbook' := hturn'.book_eq
    simp only [hexhausted, Bool.false_eq_true, if_false] at hbook hbook'
    refine ⟨rfl, answer', p'', s'', hcall', ?_, ?_⟩
    · rw [hbook, ← hrequest]
      rfl
    · rw [hbook', ← hrequest]
      rfl

namespace Sample

/-- Answers with ids out of order, repeated and up to the cursor, an error, and the end. -/
def unruly : List FetchRequest → Except Error (List LoanId)
  | [_] => .ok [5, 3, -1, 3, 0]
  | [_, _] => .error (.loanNotFound 5)
  | [_, _, _] => .ok [9, 4, 7, 9, 5]
  | _ => .ok []

end Sample

/-- Two pages with an error between them, and the end, which lasts. -/
theorem pager_over_unruly_book :
    ∃ (p : Pager) (s : ScriptedBook),
      ((Pager.new Sample.today 2).calls 4).exec ⟨Sample.unruly, []⟩ =
        (.ok ([.ok (some [3, 5]), .error (.loanNotFound 5), .ok (some [7, 9]), .ok none], p), s) ∧
      p.cursor = 9 ∧ p.pages = 2 ∧ p.ids = 4 ∧ p.call.exec s = (.ok (.ok none, p), s) := by
  obtain ⟨answers, p, s, hexec, -, -, hhanded, answer, p', s', hcall, -, -, -, hend⟩ :=
    pager_over_any_book Sample.unruly Sample.today 2 4
  have hanswers : answers =
      [.ok (some [3, 5]), .error (.loanNotFound 5), .ok (some [7, 9]), .ok none] := by
    have hrun : (((Pager.new Sample.today 2).calls 4 : Act ScriptedBook _).exec
        ⟨Sample.unruly, []⟩).1 =
          .ok ([.ok (some [3, 5]), .error (.loanNotFound 5), .ok (some [7, 9]), .ok none],
            ⟨Sample.today, 2, 9, true, 2, 4⟩) := by
      -- Insertion, other than merging, can be evaluated.
      have hsort : ascendingBehind = fun after ids =>
          (ids.insertionSort (· ≤ ·)).eraseReps.filter (after < ·) := by
        funext after ids
        rw [ascendingBehind, List.mergeSort_eq_insertionSort]
      simp only [Pager.calls, Pager.call, Pager.next, Pager.fetch, hsort]
      rfl
    rw [hexec] at hrun
    cases hrun
    rfl
  subst hanswers
  obtain ⟨rfl, rfl, rfl⟩ := hend (by simp)
  exact ⟨p', s', hexec, hhanded.cursor, hhanded.pages, hhanded.ids, hcall⟩

end LoanArrears
