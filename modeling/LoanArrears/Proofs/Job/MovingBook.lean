-- SUMMARY: Paging through a book that is another one at every fetch: no id is handed out twice, and none that is a candidate all the time is missed.
import LoanArrears.Proofs.Book.Writes
import LoanArrears.Proofs.Job.Pager

/-!
# Paging through a moving book

Nothing ties the books together that a pager meets at its fetches. The cursor alone keeps the pages
apart: it only moves up, and a page leaves no candidate behind between its old and its new place.
So a loan that is a candidate at every fetch waits ahead of the cursor until it is handed out.
-/

namespace LoanArrears

/-- A loan book that is another one at every fetch. -/
structure MovingBook where
  books : Nat → Book
  /-- Fetches made so far. -/
  fetches : Nat

namespace MovingBook

def current (m : MovingBook) : Book :=
  m.books m.fetches

instance : BookAccess MovingBook where
  candidates after pageSize today := Act.ofExec fun m =>
    (.ok (m.current.candidates after pageSize today), { m with fetches := m.fetches + 1 })
  plannedInstallments loan := do return (← get).current.plannedInstallments loan
  liveInstallments loan := do (← get).current.liveInstallments loan
  consumption loan := do (← get).current.consumption loan
  terms loan := do (← get).current.terms loan

theorem exec_candidates (m : MovingBook) (after : LoanId) (pageSize : Nat) (today : Date) :
    (BookAccess.candidates after pageSize today : Act MovingBook (List LoanId)).exec m =
      (.ok (m.current.candidates after pageSize today), { m with fetches := m.fetches + 1 }) := rfl

end MovingBook

namespace Pager

variable {m : MovingBook} {p : Pager}

/-! ## One page -/

theorem exec_next_moving (h : p.exhausted = false) (m : MovingBook) :
    (p.next : Act MovingBook (Option (List LoanId) × Pager)).exec m =
      (.ok (if (m.current.candidates p.cursor p.pageSize p.today).isEmpty then none
        else some (m.current.candidates p.cursor p.pageSize p.today),
        p.advance (m.current.candidates p.cursor p.pageSize p.today)),
        { m with fetches := m.fetches + 1 }) :=
  exec_next_of_candidates h (m.exec_candidates p.cursor p.pageSize p.today)

/-- A candidate ahead of the cursor is in the page, or ahead of the cursor still. -/
theorem mem_or_ahead (hsize : 1 ≤ p.pageSize) (h : p.exhausted = false) {b : Book} {id : LoanId}
    (hid : id ∈ b.candidateIds p.today) (hahead : p.cursor < id) :
    id ∈ b.candidates p.cursor p.pageSize p.today ∨
      (p.advance (b.candidates p.cursor p.pageSize p.today)).exhausted = false ∧
        (p.advance (b.candidates p.cursor p.pageSize p.today)).cursor < id := by
  obtain ⟨others, hsplit, hshort⟩ := exists_remainder h b
  generalize b.candidates p.cursor p.pageSize p.today = page at hsplit hshort ⊢
  have hrest : id ∈ p.rest b := by
    rw [rest_of_not_exhausted h]
    exact List.mem_filter.2 ⟨hid, decide_eq_true hahead⟩
  rw [hsplit] at hrest
  refine (List.mem_append.1 hrest).imp_right fun hothers => ?_
  have hfull : p.pageSize ≤ page.length :=
    Nat.not_lt.1 fun hlt => List.ne_nil_of_mem hothers (hshort hlt)
  cases hlast : page.getLast? with
  | none =>
    rw [List.getLast?_eq_none_iff.1 hlast] at hfull
    exact absurd (Nat.le_trans hsize hfull) (Nat.not_succ_le_zero 0)
  | some last =>
    rw [← rest_advance h hsplit hshort hlast] at hothers
    have hgoes : (p.advance page).exhausted = false := by
      simp only [advance, hlast]
      exact decide_eq_false (Nat.not_lt.2 hfull)
    rw [rest_of_not_exhausted hgoes] at hothers
    exact ⟨hgoes, of_decide_eq_true (List.mem_filter.1 hothers).2⟩

/-! ## All pages -/

/-- What draining a pager over a moving book hands out, from the fetch `first` to the fetch `n`. -/
structure Drains (p : Pager) (books : Nat → Book) (first n : Nat) (ids : List LoanId) : Prop where
  ascending : ids.Pairwise (· < ·)
  ahead : ∀ id ∈ ids, p.cursor < id
  candidate : ∀ id ∈ ids, ∃ k, first ≤ k ∧ k < n ∧ id ∈ (books k).candidateIds p.today
  complete : p.exhausted = false → ∀ id, p.cursor < id →
    (∀ k, first ≤ k → k < n → id ∈ (books k).candidateIds p.today) → id ∈ ids

theorem Drains.nil_of_exhausted (h : p.exhausted = true) (books : Nat → Book) (n : Nat) :
    p.Drains books n n [] where
  ascending := .nil
  ahead _ hid := (List.not_mem_nil hid).elim
  candidate _ hid := (List.not_mem_nil hid).elim
  complete hgoes := by
    rw [h] at hgoes
    cases hgoes

/-- With an empty page there was no candidate left. -/
theorem Drains.nil_of_empty (hsize : 1 ≤ p.pageSize) (h : p.exhausted = false)
    {books : Nat → Book} {first : Nat}
    (hempty : (books first).candidates p.cursor p.pageSize p.today = []) :
    p.Drains books first (first + 1) [] where
  ascending := .nil
  ahead _ hid := (List.not_mem_nil hid).elim
  candidate _ hid := (List.not_mem_nil hid).elim
  complete _ id hahead hall := by
    have hid := hall first (Nat.le_refl first) (Nat.lt_succ_self first)
    rcases mem_or_ahead hsize h hid hahead with hmem | ⟨hgoes, -⟩
    · rw [hempty] at hmem
      exact hmem
    · rw [hempty] at hgoes
      simp only [advance, List.getLast?_nil, List.length_nil, decide_eq_false_iff_not] at hgoes
      exact absurd hsize hgoes

/-- A page, and then what is drained behind it. -/
theorem Drains.append (hsize : 1 ≤ p.pageSize) (h : p.exhausted = false) {books : Nat → Book}
    {first n : Nat} {page ids : List LoanId} {last : LoanId} (hlast : page.getLast? = some last)
    (hpage : (books first).candidates p.cursor p.pageSize p.today = page) (hn : first + 1 ≤ n)
    (hrest : (p.advance page).Drains books (first + 1) n ids) :
    p.Drains books first n (page ++ ids) := by
  have hcursor : (p.advance page).cursor = last := by simp only [advance, hlast]
  have htoday : (p.advance page).today = p.today := by simp only [advance, hlast]
  have hmem (id : LoanId) (hid : id ∈ page) :
      id ∈ (books first).candidateIds p.today ∧ p.cursor < id :=
    Book.mem_of_mem_candidates (hpage ▸ hid)
  have hascending : page.Pairwise (· < ·) := hpage ▸ Book.ascending_candidates ..
  have hbehind : ∀ id ∈ ids, last < id := fun id hid => hcursor ▸ hrest.ahead id hid
  refine ⟨?_, ?_, ?_, ?_⟩
  · refine List.pairwise_append.2 ⟨hascending, hrest.ascending, fun id hid id' hid' => ?_⟩
    obtain ⟨init, rfl⟩ := List.getLast?_eq_some_iff.1 hlast
    have hle : id ≤ last := by
      rcases List.mem_append.1 hid with hid | hid
      · exact Int.le_of_lt ((List.pairwise_append.1 hascending).2.2 id hid last
          (List.mem_singleton_self last))
      · exact Int.le_of_eq (List.mem_singleton.1 hid)
    exact Int.lt_of_le_of_lt hle (hbehind id' hid')
  · intro id hid
    rcases List.mem_append.1 hid with hid | hid
    · exact (hmem id hid).2
    · exact Int.lt_trans (hmem last (List.mem_of_getLast? hlast)).2 (hbehind id hid)
  · intro id hid
    rcases List.mem_append.1 hid with hid | hid
    · exact ⟨first, Nat.le_refl first, hn, (hmem id hid).1⟩
    · obtain ⟨k, hfirst, hk, hcandidate⟩ := hrest.candidate id hid
      exact ⟨k, Nat.le_of_succ_le hfirst, hk, htoday ▸ hcandidate⟩
  · intro _ id hahead hall
    have hid := hall first (Nat.le_refl first) hn
    have hcases := mem_or_ahead hsize h hid hahead
    rw [hpage] at hcases
    rcases hcases with hid | ⟨hgoes, hstill⟩
    · exact List.mem_append_left ids hid
    · refine List.mem_append_right page (hrest.complete hgoes id hstill fun k hk hkn => ?_)
      exact htoday ▸ hall k (Nat.le_of_succ_le hk) hkn

/-- The cursor moves up with every page, so a pager comes to its end within the ids that are
    ahead of it. -/
theorem exists_drainUpTo_moving {books : Nat → Book}
    (hids : ∀ k id l, (books k).loans.find? id = some l → id < Bound.int64)
    (hsize : 1 ≤ p.pageSize) {limit : Nat} (hlimit : ((Bound.int64 : Int) - p.cursor).toNat ≤ limit)
    (hpos : 1 ≤ limit) (first : Nat) :
    ∃ pages p' n, (p.drainUpTo limit : Act MovingBook (List (List LoanId) × Pager)).exec
        ⟨books, first⟩ = (.ok (pages, p'), ⟨books, n⟩) ∧
      p'.exhausted = true ∧ first ≤ n ∧ p.Drains books first n pages.flatten := by
  induction limit generalizing p first with
  | zero => exact absurd hpos (Nat.not_succ_le_zero 0)
  | succ limit ih =>
    cases hexhausted : p.exhausted with
    | true =>
      exact ⟨[], p, first, exec_drainUpTo_exhausted hexhausted _ _, hexhausted, Nat.le_refl first,
        .nil_of_exhausted hexhausted books first⟩
    | false =>
      have hnext := exec_next_moving hexhausted ⟨books, first⟩
      have hbook : (⟨books, first⟩ : MovingBook).current = books first := rfl
      rw [hbook] at hnext
      cases hlast : ((books first).candidates p.cursor p.pageSize p.today).getLast? with
      | none =>
        have hempty := List.getLast?_eq_none_iff.1 hlast
        rw [hempty] at hnext
        refine ⟨[], p.advance [], first + 1, exec_drainUpTo_end hnext limit, ?_, Nat.le_succ first,
          .nil_of_empty hsize hexhausted hempty⟩
        simp only [advance, List.getLast?_nil, List.length_nil]
        exact decide_eq_true hsize
      | some last =>
        generalize hpage : (books first).candidates p.cursor p.pageSize p.today = page
          at hlast hnext
        rw [isEmpty_of_last hlast] at hnext
        have hmem := Book.mem_of_mem_candidates (hpage ▸ List.mem_of_getLast? hlast)
        obtain ⟨l, hl, -⟩ := Book.mem_candidateIds_iff.1 hmem.1
        have hup : @LT.lt Int _ p.cursor last := hmem.2
        have hlt : @LT.lt Int _ last Bound.int64 := hids first last l hl
        obtain ⟨pages, p', n, hdrain, hends, hn, hdrains⟩ := @ih (p.advance page)
          ((p.pageSize_advance page).symm ▸ hsize) (by rw [p.cursor_advance hlast]; omega)
          (by omega) (first + 1)
        exact ⟨page :: pages, p', n, exec_drainUpTo_page hnext hdrain, hends, Nat.le_of_succ_le hn,
          .append hsize hexhausted hlast hpage hn hdrains⟩

end Pager

/-- Draining a new pager over a moving book comes to an end. The ids that are handed out ascend over
    all pages, each of them was a candidate at one of the fetches, and a loan with a positive id
    that is a candidate at all of them is handed out once. -/
theorem drain_moving_book {books : Nat → Book}
    (hids : ∀ k id l, (books k).loans.find? id = some l → id < Bound.int64) (today : Date)
    (pageSize : Nat) :
    ∃ pages p n,
      ((Pager.new today pageSize).drain : Act MovingBook (List (List LoanId) × Pager)).exec
        ⟨books, 0⟩ = (.ok (pages, p), ⟨books, n⟩) ∧
      p.exhausted = true ∧ pages.flatten.Pairwise (· < ·) ∧
      (∀ id ∈ pages.flatten, 0 < id ∧ ∃ k < n, id ∈ (books k).candidateIds today) ∧
      ∀ id, 0 < id → (∀ k < n, id ∈ (books k).candidateIds today) →
        pages.flatten.count id = 1 := by
  have hlimit : ((Bound.int64 : Int) - 0).toNat ≤ Pager.pageLimit := by decide
  obtain ⟨pages, p, n, hdrain, hends, -, hdrains⟩ := @Pager.exists_drainUpTo_moving
    (.new today pageSize) books hids (Nat.le_max_right pageSize 1) Pager.pageLimit hlimit
    (by decide) 0
  refine ⟨pages, p, n, hdrain, hends, hdrains.ascending, fun id hid => ?_, fun id hpos hall => ?_⟩
  · obtain ⟨k, -, hk, hcandidate⟩ := hdrains.candidate id hid
    exact ⟨hdrains.ahead id hid, k, hk, hcandidate⟩
  · have hnodup : pages.flatten.Nodup := hdrains.ascending.imp fun hlt => Int.ne_of_lt hlt
    rw [hnodup.count, if_pos]
    exact hdrains.complete rfl id hpos fun k _ hk => hall k hk

namespace Sample

/-- Loan 3 is there from the second fetch on. -/
def growing : Nat → Book
  | 0 => book 2
  | _ + 1 => twoReplaying

theorem isBuilt_growing (k : Nat) : (growing k).IsBuilt := by
  cases k with
  | zero => exact isBuilt_book (by decide)
  | succ k => exact isBuilt_twoReplaying

theorem candidateIds_growing (k : Nat) :
    (growing k).candidateIds today = if k = 0 then [2] else [2, 3] := by
  cases k with
  | zero => rfl
  | succ k => rfl

end Sample

/-- Loan 2 is a candidate all the time and is handed out once, also when another loan comes in. -/
theorem drain_growing_sample :
    (∀ k id l, (Sample.growing k).loans.find? id = some l → id < Bound.int64) ∧
    ∃ pages p n, ((Pager.new Sample.today 1).drain :
        Act MovingBook (List (List LoanId) × Pager)).exec ⟨Sample.growing, 0⟩ =
        (.ok (pages, p), ⟨Sample.growing, n⟩) ∧
      (∀ k < n, 2 ∈ (Sample.growing k).candidateIds Sample.today) ∧
      pages.flatten.Pairwise (· < ·) ∧ pages.flatten.count 2 = 1 := by
  have hids : ∀ k id l, (Sample.growing k).loans.find? id = some l → id < Bound.int64 :=
    fun k id l hl => ((Sample.isBuilt_growing k).sound.ids id l hl).2
  have hall (k : Nat) : 2 ∈ (Sample.growing k).candidateIds Sample.today := by
    rw [Sample.candidateIds_growing]
    split <;> simp
  obtain ⟨pages, p, n, hdrain, -, hascending, -, hcomplete⟩ :=
    drain_moving_book hids Sample.today 1
  exact ⟨hids, pages, p, n, hdrain, fun k _ => hall k, hascending,
    hcomplete 2 (by decide) fun k _ => hall k⟩

end LoanArrears
