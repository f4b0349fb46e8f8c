-- SUMMARY: Pages of candidates: every page is a piece from the front of what is left, and draining a pager hands out all of it.
import LoanArrears.Job.Pager
import LoanArrears.Proofs.Book.Compute
import LoanArrears.Proofs.Book.Table
import Mathlib.Data.List.Destutter

/-!
# Draining a pager

`Pager.rest` is what a pager has still to hand out over a book: the candidates behind its
cursor. Each page is taken from the front of it and leaves the remainder, so the pages of a
drained pager put together are the candidates behind the cursor it started from.
-/

namespace LoanArrears

/-! ## Ascending ids -/

theorem eraseReps_eq_destutter (ids : List LoanId) : ids.eraseReps = ids.destutter (· ≠ ·) := by
  have hloop (rest : List LoanId) (id : LoanId) (acc : List LoanId) :
      List.eraseRepsBy.loop (· == ·) id rest acc = acc.reverse ++ rest.destutter' (· ≠ ·) id := by
    induction rest generalizing id acc with
    | nil => simp [List.eraseRepsBy.loop]
    | cons id' rest ih =>
      by_cases h : id = id'
      · simp [List.eraseRepsBy.loop, h, ih]
      · have hne : (id == id') = false := beq_eq_false_iff_ne.2 h
        simp [List.eraseRepsBy.loop, h, hne, ih]
  cases ids with
  | nil => rfl
  | cons id rest => exact hloop rest id []

/-- Where equal ids stand together, erasing repetitions leaves every id once. -/
theorem eraseReps_eq_dedup {ids : List LoanId} (h : ids.Pairwise (· ≤ ·)) :
    ids.eraseReps = ids.dedup := by
  rw [eraseReps_eq_destutter]
  exact h.destutter_eq_dedup

theorem ascending_dedup {ids : List LoanId} (h : ids.Pairwise (· ≤ ·)) :
    ids.dedup.Pairwise (· < ·) := by
  have hsorted := h.sublist (List.dedup_sublist ids)
  exact hsorted.imp₂ (fun _ _ hle hne => Int.lt_iff_le_and_ne.2 ⟨hle, hne⟩) (List.nodup_dedup ids)

theorem sorted_mergeSort (ids : List LoanId) : (ids.mergeSort (· ≤ ·)).Pairwise (· ≤ ·) := by
  have htrans (a b c : LoanId) (hab : decide (a ≤ b)) (hbc : decide (b ≤ c)) : decide (a ≤ c) := by
    simpa using Int.le_trans (of_decide_eq_true hab) (of_decide_eq_true hbc)
  have htotal (a b : LoanId) : decide (a ≤ b) || decide (b ≤ a) := by
    simpa using Int.le_total a b
  exact (List.pairwise_mergeSort htrans htotal ids).imp of_decide_eq_true

/-- Whatever is taken behind an id comes in ascending order. -/
theorem ascending_ascendingBehind (after : LoanId) (ids : List LoanId) :
    (ascendingBehind after ids).Pairwise (· < ·) := by
  rw [ascendingBehind, eraseReps_eq_dedup (sorted_mergeSort ids)]
  exact (ascending_dedup (sorted_mergeSort ids)).filter _

theorem mem_ascendingBehind {after id : LoanId} {ids : List LoanId} :
    id ∈ ascendingBehind after ids ↔ id ∈ ids ∧ after < id := by
  rw [ascendingBehind, eraseReps_eq_dedup (sorted_mergeSort ids)]
  simp

theorem ascendingBehind_of_sorted {ids : List LoanId} {after : LoanId} (h : ids.Pairwise (· ≤ ·))
    (hafter : ∀ id ∈ ids, after < id) : ascendingBehind after ids = ids.dedup := by
  have hsorted : ids.mergeSort (· ≤ ·) = ids :=
    List.mergeSort_of_pairwise (h.imp fun hle => by simpa using hle)
  rw [ascendingBehind, hsorted, eraseReps_eq_dedup h, List.filter_eq_self]
  intro id hid
  exact decide_eq_true (hafter id (List.mem_dedup.1 hid))

theorem ascendingBehind_of_ascending {ids : List LoanId} {after : LoanId}
    (h : ids.Pairwise (· < ·)) (hafter : ∀ id ∈ ids, after < id) :
    ascendingBehind after ids = ids := by
  rw [ascendingBehind_of_sorted (h.imp Int.le_of_lt) hafter]
  exact List.dedup_eq_self.2 (h.imp Int.ne_of_lt)

theorem le_last_of_ascending {ids : List LoanId} (h : ids.Pairwise (· < ·)) {last : LoanId}
    (hlast : ids.getLast? = some last) {id : LoanId} (hid : id ∈ ids) : id ≤ last := by
  obtain ⟨init, rfl⟩ := List.getLast?_eq_some_iff.1 hlast
  rcases List.mem_append.1 hid with hid | hid
  · exact Int.le_of_lt ((List.pairwise_append.1 h).2.2 id hid last List.mem_cons_self)
  · exact Int.le_of_eq (List.mem_singleton.1 hid)

theorem isEmpty_of_last {ids : List LoanId} {last : LoanId} (h : ids.getLast? = some last) :
    ids.isEmpty = false := by
  cases ids with
  | nil => cases h
  | cons id rest => rfl

/-- Behind the last id of a piece comes the remainder. -/
theorem filter_behind_last {page others : List LoanId} {last : LoanId}
    (h : (page ++ others).Pairwise (· < ·)) (hlast : page.getLast? = some last) :
    (page ++ others).filter (last < ·) = others := by
  obtain ⟨hpage, -, hothers⟩ := List.pairwise_append.1 h
  have hnone : page.filter (last < ·) = [] := by
    rw [List.filter_eq_nil_iff]
    intro id hid
    simpa using le_last_of_ascending hpage hlast hid
  have hall : others.filter (last < ·) = others := by
    rw [List.filter_eq_self]
    intro id hid
    exact decide_eq_true (hothers last (List.mem_of_getLast? hlast) id hid)
  rw [List.filter_append, hnone, hall, List.nil_append]

/-- What is behind a later id is behind an earlier one as well. -/
theorem filter_behind_filter (ids : List LoanId) {earlier later : LoanId} (h : earlier < later) :
    (ids.filter (earlier < ·)).filter (later < ·) = ids.filter (later < ·) := by
  rw [List.filter_filter]
  refine List.filter_congr fun id _ => ?_
  by_cases hid : later < id
  · simp [hid, Int.lt_trans h hid]
  · simp [hid]

/-- Ascending ids between two bounds are no more than the numbers between them. -/
theorem length_le_of_ascending {ids : List Int} (h : ids.Pairwise (· < ·)) {lo hi : Int}
    (hbounds : ∀ id ∈ ids, lo < id ∧ id < hi) : ids.length ≤ (hi - lo - 1).toNat := by
  induction ids generalizing lo with
  | nil => exact Nat.zero_le _
  | cons id rest ih =>
    obtain ⟨hid, hrest⟩ := List.pairwise_cons.1 h
    obtain ⟨hlo, hhi⟩ := hbounds id List.mem_cons_self
    have hlength := ih hrest fun id' hid' =>
      ⟨hid id' hid', (hbounds id' (List.mem_cons_of_mem _ hid')).2⟩
    rw [List.length_cons]
    omega

/-! ## Candidates -/

namespace Book

variable {b : Book} {today : Date}

/-- All candidates, in ascending order. -/
def candidateIds (b : Book) (today : Date) : List LoanId :=
  (b.loans.rows.filter fun row => b.isCandidate today row.2).map (·.1)

theorem ascending_candidateIds (b : Book) (today : Date) :
    (b.candidateIds today).Pairwise (· < ·) :=
  List.pairwise_map.2 (b.loans.ascending.filter _)

theorem mem_candidateIds_iff {id : LoanId} :
    id ∈ b.candidateIds today ↔ ∃ l, b.loans.find? id = some l ∧ b.isCandidate today l := by
  unfold candidateIds
  rw [List.mem_map]
  constructor
  · rintro ⟨⟨id', l⟩, hrow, rfl⟩
    obtain ⟨hmem, hcandidate⟩ := List.mem_filter.1 hrow
    exact ⟨l, Table.find?_eq_some_iff.2 hmem, hcandidate⟩
  · rintro ⟨l, hl, hcandidate⟩
    exact ⟨(id, l), List.mem_filter.2 ⟨Table.find?_eq_some_iff.1 hl, hcandidate⟩, rfl⟩

/-- A fetch answers a piece from the front of the candidates behind an id. -/
theorem candidates_eq (b : Book) (after : LoanId) (pageSize : Nat) (today : Date) :
    b.candidates after pageSize today =
      if pageSize < unlimitedPage then ((b.candidateIds today).filter (after < ·)).take pageSize
      else (b.candidateIds today).filter (after < ·) := by
  have hids :
      (b.loans.rows.filter fun row => after < row.1 && b.isCandidate today row.2).map (·.1) =
        (b.candidateIds today).filter (after < ·) := by
    rw [candidateIds, List.filter_map, List.filter_filter]
    rfl
  rw [← hids]
  rfl

theorem candidates_sublist (b : Book) (after : LoanId) (pageSize : Nat) (today : Date) :
    (b.candidates after pageSize today).Sublist
      ((b.candidateIds today).filter (after < ·)) := by
  rw [candidates_eq]
  split
  · exact List.take_sublist ..
  · exact List.Sublist.refl _

theorem ascending_candidates (b : Book) (after : LoanId) (pageSize : Nat) (today : Date) :
    (b.candidates after pageSize today).Pairwise (· < ·) :=
  ((b.ascending_candidateIds today).filter (after < ·)).sublist
    (b.candidates_sublist after pageSize today)

theorem mem_of_mem_candidates {after : LoanId} {pageSize : Nat} {id : LoanId}
    (h : id ∈ b.candidates after pageSize today) : id ∈ b.candidateIds today ∧ after < id := by
  have hmem := List.mem_filter.1 ((b.candidates_sublist after pageSize today).subset h)
  exact ⟨hmem.1, of_decide_eq_true hmem.2⟩

/-- A pager takes what a fetch answers as it is. -/
theorem ascendingBehind_candidates (b : Book) (after : LoanId) (pageSize : Nat) (today : Date) :
    ascendingBehind after (b.candidates after pageSize today) =
      b.candidates after pageSize today :=
  ascendingBehind_of_ascending (b.ascending_candidates after pageSize today)
    fun _ hid => (mem_of_mem_candidates hid).2

end Book

/-! ## Pages -/

namespace Pager

/-- The candidates that are still to be handed out. -/
def rest (p : Pager) (b : Book) : List LoanId :=
  if p.exhausted then [] else (b.candidateIds p.today).filter (p.cursor < ·)

variable {s : Store} {b : Book}

theorem rest_of_not_exhausted {p : Pager} (h : p.exhausted = false) (b : Book) :
    p.rest b = (b.candidateIds p.today).filter (p.cursor < ·) := by
  rw [rest, if_neg (by rw [h]; exact Bool.false_ne_true)]

/-- A fetched page is a piece from the front of the rest, and a short one is all of it. -/
theorem exists_remainder {p : Pager} (h : p.exhausted = false) (b : Book) :
    ∃ others, p.rest b = b.candidates p.cursor p.pageSize p.today ++ others ∧
      ((b.candidates p.cursor p.pageSize p.today).length < p.pageSize → others = []) := by
  rw [rest_of_not_exhausted h, Book.candidates_eq]
  split
  · refine ⟨_, (List.take_append_drop p.pageSize _).symm, fun hshort => ?_⟩
    rw [List.length_take] at hshort
    exact List.drop_eq_nil_iff.2 (by omega)
  · exact ⟨[], (List.append_nil _).symm, fun _ => rfl⟩

/-- Behind a page from the front of the rest there are the others. -/
theorem rest_advance {p : Pager} (h : p.exhausted = false) {page others : List LoanId}
    {last : LoanId} (hsplit : p.rest b = page ++ others)
    (hshort : page.length < p.pageSize → others = []) (hlast : page.getLast? = some last) :
    (p.advance page).rest b = others := by
  simp only [rest, advance, hlast]
  split
  · next hexhausted => exact (hshort (of_decide_eq_true hexhausted)).symm
  · -- The candidates behind the last id of the page are the rest without the page.
    have hrest := rest_of_not_exhausted h b
    have hascending : (page ++ others).Pairwise (· < ·) := by
      rw [← hsplit, hrest]
      exact (b.ascending_candidateIds p.today).filter _
    have hmem : last ∈ p.rest b := by
      rw [hsplit]
      exact List.mem_append_left _ (List.mem_of_getLast? hlast)
    have hcursor : p.cursor < last := by
      rw [hrest] at hmem
      simpa using (List.mem_filter.1 hmem).2
    have hbehind := filter_behind_last hascending hlast
    rw [← hsplit, hrest, filter_behind_filter _ hcursor] at hbehind
    exact hbehind

/-- A pager that is not exhausted hands out what it fetches in ascending order, unless nothing of
    it is behind the cursor. -/
theorem exec_next_ok [BookAccess σ] {p : Pager} (h : p.exhausted = false) {s s' : σ}
    {ids : List LoanId}
    (hfetch : (BookAccess.candidates p.cursor p.pageSize p.today).exec s = (.ok ids, s')) :
    (p.next).exec s =
      (.ok (if (ascendingBehind p.cursor ids).isEmpty then none
        else some (ascendingBehind p.cursor ids),
        p.advance (ascendingBehind p.cursor ids)), s') := by
  have hpage : (p.fetch p.cursor p.pageSize).exec s = (.ok (ascendingBehind p.cursor ids), s') := by
    rw [fetch, Act.exec_map, hfetch]
    rfl
  rw [next, if_neg (by rw [h]; exact Bool.false_ne_true)]
  exact Act.exec_bind_ok hpage

theorem exec_next_of_candidates [BookAccess σ] {p : Pager} (h : p.exhausted = false) {s s' : σ}
    (hfetch : (BookAccess.candidates p.cursor p.pageSize p.today).exec s =
      (.ok (b.candidates p.cursor p.pageSize p.today), s')) :
    (p.next).exec s =
      (.ok (if (b.candidates p.cursor p.pageSize p.today).isEmpty then none
        else some (b.candidates p.cursor p.pageSize p.today),
        p.advance (b.candidates p.cursor p.pageSize p.today)), s') := by
  have hnext := exec_next_ok h hfetch
  rwa [b.ascendingBehind_candidates] at hnext

/-- A fetch that fails leaves the pager without a page. -/
theorem exec_next_error [BookAccess σ] {p : Pager} (h : p.exhausted = false) {s s' : σ} {f : Fault}
    (hfetch : (BookAccess.candidates p.cursor p.pageSize p.today).exec s = (.error f, s')) :
    (p.next).exec s = (.error f, s') := by
  rw [next, if_neg (by rw [h]; exact Bool.false_ne_true), fetch]
  refine Act.exec_bind_error ?_
  rw [Act.exec_map, hfetch]
  rfl

theorem exec_next (hs : s.HasBook b) {p : Pager} (h : p.exhausted = false) :
    (p.next : Act Store (Option (List LoanId) × Pager)).exec s =
      (.ok (if (b.candidates p.cursor p.pageSize p.today).isEmpty then none
        else some (b.candidates p.cursor p.pageSize p.today),
        p.advance (b.candidates p.cursor p.pageSize p.today)), s) :=
  exec_next_of_candidates h (hs.reads_candidates p.cursor p.pageSize p.today)

theorem cursor_advance (p : Pager) {page : List LoanId} {last : LoanId}
    (h : page.getLast? = some last) : (p.advance page).cursor = last := by
  simp only [advance, h]

theorem exhausted_advance (p : Pager) (page : List LoanId) :
    (p.advance page).exhausted = decide (page.length < p.pageSize) := by
  unfold advance
  dsimp only
  split <;> rfl

theorem today_advance (p : Pager) (page : List LoanId) : (p.advance page).today = p.today := by
  unfold advance
  dsimp only
  split <;> rfl

theorem pageSize_advance (p : Pager) (page : List LoanId) :
    (p.advance page).pageSize = p.pageSize := by
  unfold advance
  dsimp only
  split <;> rfl

/-- A pager that hands out a page advances behind it. -/
theorem eq_advance_of_next (hs : s.HasBook b) {p p' : Pager} {page : List LoanId} {s' : Store}
    (h : (p.next : Act Store (Option (List LoanId) × Pager)).exec s = (.ok (some page, p'), s')) :
    p' = p.advance page ∧ s' = s := by
  cases hexhausted : p.exhausted with
  | true =>
    rw [next, if_pos hexhausted] at h
    cases h
  | false =>
    rw [exec_next hs hexhausted] at h
    obtain ⟨hanswer, rfl⟩ := Prod.mk.inj h
    obtain ⟨hpage, rfl⟩ := Prod.mk.inj (Except.ok.inj hanswer)
    split at hpage
    · cases hpage
    · obtain rfl := Option.some.inj hpage
      exact ⟨rfl, rfl⟩

/-- What a pager does next: it hands out a page from the front of the rest, or the rest is
    empty. -/
theorem exists_next (hs : s.HasBook b) {p : Pager} (hsize : 1 ≤ p.pageSize) :
    ∃ page? p', (p.next : Act Store (Option (List LoanId) × Pager)).exec s = (.ok (page?, p'), s) ∧
      p'.today = p.today ∧ p'.pageSize = p.pageSize ∧
      match page? with
      | some page => page ≠ [] ∧ p.rest b = page ++ p'.rest b
      | none => p.rest b = [] := by
  cases hexhausted : p.exhausted with
  | true =>
    refine ⟨none, p, ?_, rfl, rfl, ?_⟩
    · rw [next, if_pos hexhausted]
      rfl
    · rw [rest, if_pos hexhausted]
  | false =>
    have hexec := exec_next hs hexhausted
    obtain ⟨others, hsplit, hshort⟩ := exists_remainder hexhausted b
    generalize b.candidates p.cursor p.pageSize p.today = page at hexec hsplit hshort
    cases hlast : page.getLast? with
    | none =>
      have hnil : page = [] := List.getLast?_eq_none_iff.1 hlast
      subst hnil
      refine ⟨none, p.advance [], hexec, rfl, rfl, ?_⟩
      rw [hsplit, hshort hsize, List.append_nil]
    | some last =>
      have hempty := isEmpty_of_last hlast
      have hne : page ≠ [] := by simpa using hempty
      rw [hempty] at hexec
      refine ⟨some page, p.advance page, hexec, p.today_advance page, p.pageSize_advance page,
        hne, ?_⟩
      rw [rest_advance hexhausted hsplit hshort hlast]
      exact hsplit

/-! ## Draining -/

theorem length_rest_lt (hids : ∀ id l, b.loans.find? id = some l → id < Bound.int64) {p : Pager}
    (hcursor : 0 ≤ p.cursor) : (p.rest b).length < pageLimit := by
  unfold rest
  split
  · exact Nat.zero_lt_of_ne_zero (by unfold pageLimit Bound.int64; omega)
  have hbounds : ∀ id ∈ (b.candidateIds p.today).filter (p.cursor < ·),
      p.cursor < id ∧ id < Bound.int64 := by
    intro id hid
    obtain ⟨hmem, hbehind⟩ := List.mem_filter.1 hid
    obtain ⟨l, hl, -⟩ := Book.mem_candidateIds_iff.1 hmem
    exact ⟨of_decide_eq_true hbehind, hids id l hl⟩
  have hlength := length_le_of_ascending
    ((b.ascending_candidateIds p.today).filter (p.cursor < ·)) hbounds
  have hnonneg : @LE.le Int _ 0 p.cursor := hcursor
  unfold pageLimit
  unfold Bound.int64 at hlength ⊢
  omega

theorem exec_drainUpTo_end [BookAccess σ] {p p' : Pager} {s s' : σ}
    (h : p.next.exec s = (.ok (none, p'), s')) (limit : Nat) :
    (p.drainUpTo (limit + 1)).exec s = (.ok ([], p'), s') := by
  rw [drainUpTo, Act.exec_bind_ok h]
  rfl

theorem exec_drainUpTo_page [BookAccess σ] {p p₁ p' : Pager} {s s₁ s' : σ} {page : List LoanId}
    {pages : List (List LoanId)} {limit : Nat} (h : p.next.exec s = (.ok (some page, p₁), s₁))
    (hdrain : (p₁.drainUpTo limit).exec s₁ = (.ok (pages, p'), s')) :
    (p.drainUpTo (limit + 1)).exec s = (.ok (page :: pages, p'), s') := by
  rw [drainUpTo, Act.exec_bind_ok h]
  dsimp only
  rw [Act.exec_bind_ok hdrain]
  rfl

theorem exec_drainUpTo_exhausted [BookAccess σ] {p : Pager} (h : p.exhausted = true) (limit : Nat)
    (s : σ) : (p.drainUpTo limit).exec s = (.ok ([], p), s) := by
  cases limit with
  | zero => rfl
  | succ limit =>
    refine exec_drainUpTo_end ?_ limit
    rw [next, if_pos h]
    rfl

/-- With enough steps, the pages of a pager put together are all that it has to hand out. -/
theorem exists_drainUpTo (hs : s.HasBook b) {p : Pager} (hsize : 1 ≤ p.pageSize) {limit : Nat}
    (hlimit : (p.rest b).length ≤ limit) :
    ∃ pages p', (p.drainUpTo limit : Act Store (List (List LoanId) × Pager)).exec s =
      (.ok (pages, p'), s) ∧ pages.flatten = p.rest b := by
  induction limit generalizing p with
  | zero => exact ⟨[], p, rfl, (List.length_eq_zero_iff.1 (Nat.le_zero.1 hlimit)).symm⟩
  | succ limit ih =>
    obtain ⟨page?, p₁, hnext, -, hsize₁, hpage⟩ := exists_next hs hsize
    cases page? with
    | none => exact ⟨[], p₁, exec_drainUpTo_end hnext limit, hpage.symm⟩
    | some page =>
      obtain ⟨hne, hsplit⟩ := hpage
      have hlimit₁ : (p₁.rest b).length ≤ limit := by
        have hpos : 0 < page.length := List.length_pos_iff.2 hne
        rw [hsplit, List.length_append] at hlimit
        omega
      obtain ⟨pages, p', hdrain, hflatten⟩ := ih (hsize₁ ▸ hsize) hlimit₁
      refine ⟨page :: pages, p', exec_drainUpTo_page hnext hdrain, ?_⟩
      rw [List.flatten_cons, hflatten, hsplit]

/-- Whatever the number of steps, the pages come from the front of what the pager has to hand
    out. -/
theorem flatten_drainUpTo_isPrefix (hs : s.HasBook b) {p p' : Pager} (hsize : 1 ≤ p.pageSize)
    {limit : Nat} {pages : List (List LoanId)} {s' : Store}
    (h : (p.drainUpTo limit : Act Store (List (List LoanId) × Pager)).exec s =
      (.ok (pages, p'), s')) : pages.flatten <+: p.rest b := by
  induction limit generalizing p pages with
  | zero =>
    cases h
    exact List.nil_prefix
  | succ limit ih =>
    obtain ⟨page?, p₁, hnext, -, hsize₁, hpage⟩ := exists_next hs hsize
    rw [drainUpTo, Act.exec_bind_ok hnext] at h
    cases page? with
    | none =>
      cases h
      exact List.nil_prefix
    | some page =>
      obtain ⟨⟨pages', p₂⟩, s₁, hdrain, hend⟩ := Act.exists_of_exec_bind_ok h
      cases hend
      rw [List.flatten_cons, hpage.2]
      exact List.prefix_append_right_inj page |>.2 (ih (hsize₁ ▸ hsize) hdrain)

/-- Draining a new pager hands out the candidates with positive ids. -/
theorem exists_drain (hs : s.HasBook b)
    (hids : ∀ id l, b.loans.find? id = some l → id < Bound.int64) (today : Date) (pageSize : Nat) :
    ∃ pages p, ((Pager.new today pageSize).drain :
        Act Store (List (List LoanId) × Pager)).exec s = (.ok (pages, p), s) ∧
      pages.flatten = (b.candidateIds today).filter (0 < ·) :=
  exists_drainUpTo hs (Nat.le_max_right pageSize 1)
    (Nat.le_of_lt (length_rest_lt hids (Int.le_refl 0)))

end Pager

/-- Pages without repeated ids have an id once or not at all. -/
theorem countP_pages {pages : List (List LoanId)} (h : pages.flatten.Nodup) (id : LoanId) :
    pages.countP (id ∈ ·) = if id ∈ pages.flatten then 1 else 0 := by
  induction pages with
  | nil => rfl
  | cons page pages ih =>
    rw [List.flatten_cons] at h
    obtain ⟨-, hpages, hdisjoint⟩ := List.nodup_append.1 h
    rw [List.countP_cons, ih hpages, List.flatten_cons]
    by_cases hpage : id ∈ page
    · have hout : id ∉ pages.flatten := fun hmem => hdisjoint id hpage id hmem rfl
      simp [hpage, hout]
    · simp [hpage]

end LoanArrears
