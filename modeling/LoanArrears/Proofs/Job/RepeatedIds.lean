-- SUMMARY: Draining a pager over a book that lists ids repeatedly: which loans are handed out, and when the drain stops short.
import LoanArrears.Proofs.Job.ScriptedBook
import Mathlib.Data.List.Infix
import Mathlib.Data.List.Sort

/-!
# Repeated ids

A book may list ids in ascending order and repeat some of them. A page has every id once, so a
fetch of full length can give a page that is shorter, and the pager takes a short page for the
last one. So all ids are handed out exactly if this never happens in front of ids that are still
to come: cut into blocks of the page size, the distinct ids of a block but its last one must have
fewer entries than a page has room for.
-/

namespace LoanArrears

/-! ## Pieces of ascending lists -/

/-- An id is among the first entries if fewer entries than that are below it. -/
theorem mem_take_iff_countP_lt {ids : List LoanId} (h : ids.Pairwise (· ≤ ·)) {id : LoanId}
    (hid : id ∈ ids) (n : Nat) : id ∈ ids.take n ↔ ids.countP (· < id) < n := by
  induction ids generalizing n with
  | nil => cases hid
  | cons a ids ih =>
    obtain ⟨ha, hids⟩ := List.pairwise_cons.1 h
    cases n with
    | zero => simp
    | succ n =>
      rw [List.take_succ_cons, List.mem_cons, List.countP_cons]
      by_cases hlt : a < id
      · have hne : id ≠ a := (Int.ne_of_lt hlt).symm
        have hmem : id ∈ ids := (List.mem_cons.1 hid).resolve_left hne
        simp [hlt, hne, ih hids hmem n]
      · obtain rfl : id = a := by
          rcases List.mem_cons.1 hid with heq | hmem
          · exact heq
          · exact Int.le_antisymm (Int.not_lt.1 hlt) (ha id hmem)
        have hnone : ids.countP (· < id) = 0 := by
          rw [List.countP_eq_zero]
          intro id' hid'
          simpa using ha id' hid'
        simp [hnone]

/-- The distinct ids are those of the first entries and those behind the last of these. -/
theorem dedup_eq_append {ids : List LoanId} (h : ids.Pairwise (· ≤ ·)) {n : Nat} {last : LoanId}
    (hlast : (ids.take n).dedup.getLast? = some last) :
    ids.dedup = (ids.take n).dedup ++ (ids.filter (last < ·)).dedup := by
  have htake : (ids.take n).Pairwise (· ≤ ·) := h.sublist (List.take_sublist n ids)
  have hpage := ascending_dedup htake
  have hmem : last ∈ ids.take n := List.mem_dedup.1 (List.mem_of_getLast? hlast)
  have hsplit : ((ids.take n).dedup ++ (ids.filter (last < ·)).dedup).Pairwise (· < ·) := by
    refine List.pairwise_append.2 ⟨hpage, ascending_dedup (h.filter _), fun id hid id' hid' => ?_⟩
    have hbehind := (List.mem_filter.1 (List.mem_dedup.1 hid')).2
    exact Int.lt_of_le_of_lt (le_last_of_ascending hpage hlast hid) (of_decide_eq_true hbehind)
  refine (ascending_dedup h).eq_of_mem_iff hsplit fun id => ?_
  simp only [List.mem_append, List.mem_dedup, List.mem_filter, decide_eq_true_eq]
  constructor
  · intro hid
    by_cases hbehind : last < id
    · exact .inr ⟨hid, hbehind⟩
    · -- An entry up to the last one that was taken is not behind all of these.
      left
      rw [mem_take_iff_countP_lt h hid]
      have hcount := (mem_take_iff_countP_lt h (List.mem_of_mem_take hmem) n).1 hmem
      refine Nat.lt_of_le_of_lt (List.countP_mono_left fun id' _ hid' => ?_) hcount
      simp only [decide_eq_true_eq] at hid' ⊢
      exact Int.lt_of_lt_of_le hid' (Int.not_lt.1 hbehind)
  · rintro (hid | ⟨hid, -⟩)
    · exact List.mem_of_mem_take hid
    · exact hid

/-- The distinct ids among the first entries are the first distinct ids. -/
theorem dedup_take_isPrefix {ids : List LoanId} (h : ids.Pairwise (· ≤ ·)) (n : Nat) :
    (ids.take n).dedup <+: ids.dedup := by
  cases hlast : (ids.take n).dedup.getLast? with
  | none =>
    rw [List.getLast?_eq_none_iff.1 hlast]
    exact List.nil_prefix
  | some last => exact ⟨_, (dedup_eq_append h hlast).symm⟩

theorem length_dedup_take_le (ids : List LoanId) (n : Nat) : (ids.take n).dedup.length ≤ n :=
  (List.dedup_sublist _).length_le.trans (List.length_take_le n ids)

/-- The entries below the last one of the first distinct ids are those of the others. -/
theorem countP_dropLast {ids : List LoanId} (h : ids.Pairwise (· ≤ ·)) {n : Nat}
    {init : List LoanId} {last : LoanId} (hblock : ids.dedup.take n = init ++ [last]) :
    ids.countP (· ∈ (ids.dedup.take n).dropLast) = ids.countP (· < last) := by
  have hdistinct := ascending_dedup h
  rw [← List.take_append_drop n ids.dedup, hblock] at hdistinct
  obtain ⟨hascending, -, hothers⟩ := List.pairwise_append.1 hdistinct
  rw [hblock, List.dropLast_concat]
  refine List.countP_congr fun id hid => ?_
  simp only [decide_eq_true_eq]
  constructor
  · intro hinit
    exact (List.pairwise_append.1 hascending).2.2 id hinit last List.mem_cons_self
  · intro hlt
    have hmem := List.mem_dedup.2 hid
    rw [← List.take_append_drop n ids.dedup, hblock] at hmem
    rcases List.mem_append.1 hmem with hmem | hmem
    · exact (List.mem_append.1 hmem).resolve_right fun heq =>
        Int.ne_of_lt hlt (List.mem_singleton.1 heq)
    · have hgt := hothers last (List.mem_append_right _ List.mem_cons_self) id hmem
      exact absurd hlt (Int.not_lt.2 (Int.le_of_lt hgt))

/-- The first entries have all of the first distinct ids if there is room for the entries of all
    of these but the last one. -/
theorem dedup_take_eq_iff {ids : List LoanId} (h : ids.Pairwise (· ≤ ·)) {n : Nat} (hn : 1 ≤ n) :
    (ids.take n).dedup = ids.dedup.take n ↔
      ids.countP (· ∈ (ids.dedup.take n).dropLast) < n := by
  rcases List.eq_nil_or_concat (ids.dedup.take n) with hnil | ⟨init, last, hblock⟩
  · have hids : ids = [] := by
      rcases List.take_eq_nil_iff.1 hnil with hzero | hdedup
      · omega
      · exact (List.dedup_eq_nil ids).1 hdedup
    subst hids
    simpa using Nat.lt_of_succ_le hn
  rw [List.concat_eq_append] at hblock
  have hlast : last ∈ ids.dedup.take n := by
    rw [hblock]
    exact List.mem_append_right _ List.mem_cons_self
  have hid : last ∈ ids := List.mem_dedup.1 (List.mem_of_mem_take hlast)
  rw [countP_dropLast h hblock, ← mem_take_iff_countP_lt h hid n]
  constructor
  · intro heq
    rw [← heq] at hlast
    exact List.mem_dedup.1 hlast
  · intro hmem
    have hprefix : (ids.take n).dedup <+: ids.dedup.take n := by
      rw [List.prefix_take_iff]
      exact ⟨dedup_take_isPrefix h n, length_dedup_take_le ids n⟩
    obtain ⟨others, hothers⟩ := hprefix
    -- The last id is in the page, so nothing can come behind the page.
    have hascending : ((ids.take n).dedup ++ others).Pairwise (· < ·) := by
      rw [hothers]
      exact (ascending_dedup h).sublist (List.take_sublist n _)
    rcases List.eq_nil_or_concat others with rfl | ⟨rest, last', rfl⟩
    · simpa using hothers
    · rw [hblock, List.concat_eq_append, ← List.append_assoc] at hothers
      obtain ⟨-, heq⟩ := List.append_inj' hothers rfl
      obtain rfl := List.singleton_inj.1 heq
      have hlt := (List.pairwise_append.1 hascending).2.2 _ (List.mem_dedup.2 hmem) last' (by simp)
      exact absurd hlt (Int.lt_irrefl _)

/-! ## Blocks -/

/-- Cut into blocks of the page size, no block of the distinct ids has so many entries in front of
    its last id that a page has no room for it. -/
def FitsPages (ids distinct : List LoanId) (size : Nat) : Prop :=
  ∀ i, ids.countP (· ∈ ((distinct.drop (i * size)).take size).dropLast) < size

theorem fitsPages_iff {ids distinct : List LoanId} {size : Nat} :
    FitsPages ids distinct size ↔
      ids.countP (· ∈ (distinct.take size).dropLast) < size ∧
        FitsPages ids (distinct.drop size) size := by
  constructor
  · intro h
    refine ⟨by simpa using h 0, fun i => ?_⟩
    have hnext := h (i + 1)
    rwa [Nat.succ_mul, Nat.add_comm, ← List.drop_drop] at hnext
  · rintro ⟨hfirst, hrest⟩ i
    cases i with
    | zero => simpa using hfirst
    | succ i =>
      rw [Nat.succ_mul, Nat.add_comm, ← List.drop_drop]
      exact hrest i

theorem fitsPages_nil {ids : List LoanId} {size : Nat} (hsize : 1 ≤ size) :
    FitsPages ids [] size := by
  intro i
  simpa using Nat.lt_of_succ_le hsize

/-! ## Draining -/

/-- A fetch answers the first of the ids behind the one that it asks for. -/
def listing (ids : List LoanId) (asked : List FetchRequest) : Except Error (List LoanId) :=
  .ok <| match asked.getLast? with
    | some r => (ids.filter (r.after < ·)).take r.pageSize
    | none => []

theorem reply_listing {ids : List LoanId} {s : ScriptedBook} (h : s.script = listing ids)
    (r : FetchRequest) : s.reply r = .ok ((ids.filter (r.after < ·)).take r.pageSize) := by
  simp [ScriptedBook.reply, h, listing]

namespace Pager

variable {ids : List LoanId} {p : Pager} {s : ScriptedBook}

/-- The distinct ids behind the cursor. -/
def ahead (p : Pager) (ids : List LoanId) : List LoanId :=
  (ids.filter (p.cursor < ·)).dedup

/-- The ids of the next page. -/
def pageOf (p : Pager) (ids : List LoanId) : List LoanId :=
  ((ids.filter (p.cursor < ·)).take p.pageSize).dedup

theorem exec_next_listing (hids : ids.Pairwise (· ≤ ·)) (hs : s.script = listing ids)
    (hopen : p.exhausted = false) :
    p.next.exec s =
      (.ok (if (p.pageOf ids).isEmpty then none else some (p.pageOf ids), p.advance (p.pageOf ids)),
        s.note p.request) := by
  have hfetch : (BookAccess.candidates p.cursor p.pageSize p.today).exec s =
      (.ok ((ids.filter (p.cursor < ·)).take p.pageSize), s.note p.request) := by
    have hreply := reply_listing hs p.request
    have hexec : (BookAccess.candidates p.cursor p.pageSize p.today).exec s =
        ((s.reply p.request).mapError .error, s.note p.request) := rfl
    rw [hexec, hreply]
    rfl
  have hsorted : ((ids.filter (p.cursor < ·)).take p.pageSize).Pairwise (· ≤ ·) :=
    (hids.filter _).sublist (List.take_sublist _ _)
  have hpage : ascendingBehind p.cursor ((ids.filter (p.cursor < ·)).take p.pageSize) =
      p.pageOf ids := by
    refine ascendingBehind_of_sorted hsorted fun id hid => ?_
    exact of_decide_eq_true (List.mem_filter.1 (List.mem_of_mem_take hid)).2
  have hnext := exec_next_ok hopen hfetch
  rwa [hpage] at hnext

/-- A page takes the block at the front of the distinct ids as a whole or is short. -/
theorem pageOf_eq_iff (hids : ids.Pairwise (· ≤ ·)) (hsize : 1 ≤ p.pageSize) :
    p.pageOf ids = (p.ahead ids).take p.pageSize ↔
      ids.countP (· ∈ ((p.ahead ids).take p.pageSize).dropLast) < p.pageSize := by
  have hblock := dedup_take_eq_iff (hids.filter (p.cursor < ·)) hsize
  rw [pageOf, ahead, hblock, List.countP_filter]
  have hcount : ids.countP (fun id => decide (id ∈
      (((ids.filter (p.cursor < ·)).dedup).take p.pageSize).dropLast) && decide (p.cursor < id)) =
      ids.countP (· ∈ ((ids.filter (p.cursor < ·)).dedup.take p.pageSize).dropLast) := by
    refine List.countP_congr fun id _ => ?_
    simp only [Bool.and_eq_true, decide_eq_true_eq, and_iff_left_iff_imp]
    intro hid
    have hmem := List.mem_dedup.1 (List.mem_of_mem_take (List.mem_of_mem_dropLast hid))
    exact of_decide_eq_true (List.mem_filter.1 hmem).2
  rw [hcount]

/-- Behind a page there are the distinct ids that it has not taken. -/
theorem ahead_eq_append (hids : ids.Pairwise (· ≤ ·)) {last : LoanId}
    (hlast : (p.pageOf ids).getLast? = some last) :
    p.ahead ids = p.pageOf ids ++ (p.advance (p.pageOf ids)).ahead ids := by
  have hsplit := dedup_eq_append (hids.filter (p.cursor < ·)) hlast
  have hmem := List.mem_of_mem_take (List.mem_dedup.1 (List.mem_of_getLast? hlast))
  have hlt : p.cursor < last := of_decide_eq_true (List.mem_filter.1 hmem).2
  rw [filter_behind_filter ids hlt] at hsplit
  simp only [ahead, p.cursor_advance hlast]
  exact hsplit

/-- Only when no id is ahead the next page is empty. -/
theorem ahead_eq_nil_of_pageOf (hsize : 1 ≤ p.pageSize) (h : p.pageOf ids = []) :
    p.ahead ids = [] := by
  rw [pageOf, List.dedup_eq_nil, List.take_eq_nil_iff] at h
  rw [ahead, List.dedup_eq_nil]
  exact h.resolve_left (by omega)

/-- A short page is all that is ahead if this fits a page. -/
theorem pageOf_eq_ahead_iff (hids : ids.Pairwise (· ≤ ·)) (hsize : 1 ≤ p.pageSize)
    (hshort : (p.pageOf ids).length < p.pageSize) :
    p.pageOf ids = p.ahead ids ↔ FitsPages ids (p.ahead ids) p.pageSize := by
  rw [fitsPages_iff, ← pageOf_eq_iff hids hsize]
  constructor
  · intro heq
    have hlength : (p.ahead ids).length ≤ p.pageSize := heq ▸ Nat.le_of_lt hshort
    rw [List.take_of_length_le hlength, List.drop_eq_nil_of_le hlength]
    exact ⟨heq, fitsPages_nil hsize⟩
  · rintro ⟨heq, -⟩
    have hlength := congrArg List.length heq
    rw [List.length_take] at hlength
    rw [heq]
    exact List.take_of_length_le (by omega)

/-- A page of full length is the block at the front, and the next page starts behind it. -/
theorem fitsPages_ahead_of_full (hids : ids.Pairwise (· ≤ ·)) (hsize : 1 ≤ p.pageSize)
    (hfull : (p.pageOf ids).length = p.pageSize)
    (hsplit : p.ahead ids = p.pageOf ids ++ (p.advance (p.pageOf ids)).ahead ids) :
    FitsPages ids (p.ahead ids) p.pageSize ↔
      FitsPages ids ((p.advance (p.pageOf ids)).ahead ids) p.pageSize := by
  have hfirst : p.pageOf ids = (p.ahead ids).take p.pageSize := by
    rw [hsplit, List.take_left' hfull]
  have hrest : (p.ahead ids).drop p.pageSize = (p.advance (p.pageOf ids)).ahead ids := by
    rw [hsplit, List.drop_left' hfull]
  rw [fitsPages_iff, hrest, ← pageOf_eq_iff hids hsize]
  exact and_iff_right hfirst

/-- With enough steps a pager drains a listing to its end. The pages come from the front of the
    distinct ids, and are all of these if the ids fit pages. -/
theorem exists_drainUpTo_listing (hids : ids.Pairwise (· ≤ ·)) (hs : s.script = listing ids)
    (hsize : 1 ≤ p.pageSize) (hopen : p.exhausted = false) {limit : Nat}
    (hlimit : (p.ahead ids).length < limit) :
    ∃ pages p' s', (p.drainUpTo limit).exec s = (.ok (pages, p'), s') ∧ p'.exhausted = true ∧
      pages.flatten <+: p.ahead ids ∧
      (pages.flatten = p.ahead ids ↔ FitsPages ids (p.ahead ids) p.pageSize) := by
  induction limit generalizing p s with
  | zero => exact absurd hlimit (Nat.not_lt_zero _)
  | succ limit ih =>
    have hnext := exec_next_listing hids hs hopen
    have hexhausted := p.exhausted_advance (p.pageOf ids)
    cases hlast : (p.pageOf ids).getLast? with
    | none =>
      have hpage := List.getLast?_eq_none_iff.1 hlast
      have hahead := ahead_eq_nil_of_pageOf hsize hpage
      rw [hpage] at hnext hexhausted
      refine ⟨[], p.advance [], s.note p.request, exec_drainUpTo_end hnext limit, ?_,
        List.nil_prefix, ?_⟩
      · simpa [hexhausted] using Nat.lt_of_succ_le hsize
      · simpa [hahead] using fitsPages_nil hsize
    | some last =>
      have hsplit := ahead_eq_append hids hlast
      simp only [isEmpty_of_last hlast, Bool.false_eq_true, if_false] at hnext
      by_cases hshort : (p.pageOf ids).length < p.pageSize
      · rw [decide_eq_true hshort] at hexhausted
        have hrest := exec_drainUpTo_exhausted hexhausted limit (s.note p.request)
        refine ⟨[p.pageOf ids], p.advance (p.pageOf ids), s.note p.request,
          exec_drainUpTo_page hnext hrest, hexhausted, ?_, ?_⟩
        · rw [List.flatten_singleton, hsplit]
          exact List.prefix_append _ _
        · rw [List.flatten_singleton]
          exact pageOf_eq_ahead_iff hids hsize hshort
      · have hfull : (p.pageOf ids).length = p.pageSize :=
          Nat.le_antisymm (length_dedup_take_le _ _) (Nat.not_lt.1 hshort)
        rw [decide_eq_false hshort] at hexhausted
        have hlimit' : ((p.advance (p.pageOf ids)).ahead ids).length < limit := by
          rw [hsplit, List.length_append] at hlimit
          omega
        obtain ⟨pages, p', s', hdrain, hend, hprefix, hiff⟩ :=
          ih (s := s.note p.request) hs ((p.pageSize_advance _).symm ▸ hsize) hexhausted hlimit'
        rw [p.pageSize_advance, ← fitsPages_ahead_of_full hids hsize hfull hsplit] at hiff
        refine ⟨p.pageOf ids :: pages, p', s', exec_drainUpTo_page hnext hdrain, hend, ?_, ?_⟩
        · rw [List.flatten_cons, hsplit]
          exact (List.prefix_append_right_inj _).2 hprefix
        · rw [← hiff, List.flatten_cons, hsplit, List.append_cancel_left_eq]

/-- Draining a new pager over a listing of positive ids. -/
theorem exists_drain_listing (hids : ids.Pairwise (· ≤ ·))
    (hrange : ∀ id ∈ ids, 0 < id ∧ id < Bound.int64) (today : Date) (pageSize : Nat) :
    ∃ (pages : List (List LoanId)) (p : Pager) (s : ScriptedBook),
      (new today pageSize).drain.exec ⟨listing ids, []⟩ = (.ok (pages, p), s) ∧
      p.exhausted = true ∧ pages.flatten <+: ids.dedup ∧
      (pages.flatten = ids.dedup ↔ FitsPages ids ids.dedup (max pageSize 1)) := by
  have hahead : (new today pageSize).ahead ids = ids.dedup := by
    have hall : ids.filter (0 < ·) = ids := by
      rw [List.filter_eq_self]
      intro id hid
      exact decide_eq_true (hrange id hid).1
    exact congrArg List.dedup hall
  have hlength : ids.dedup.length < pageLimit := by
    have hbound := length_le_of_ascending (ascending_dedup hids) fun id hid =>
      hrange id (List.mem_dedup.1 hid)
    unfold pageLimit
    unfold Bound.int64 at hbound ⊢
    omega
  have hdrain := @exists_drainUpTo_listing ids (new today pageSize) ⟨listing ids, []⟩ hids rfl
    (Nat.le_max_right pageSize 1) rfl pageLimit (hahead.symm ▸ hlength)
  rw [hahead] at hdrain
  exact hdrain

end Pager

/-- A piece from the front of the distinct ids has every id once if it is all of these. -/
theorem forall_count_eq_one_iff {ids piece : List LoanId} (h : piece <+: ids.dedup) :
    (∀ id ∈ ids, piece.count id = 1) ↔ piece = ids.dedup := by
  constructor
  · intro hcount
    refine h.eq_of_length (Nat.le_antisymm h.length_le ?_)
    refine (List.subperm_of_subset (List.nodup_dedup ids) fun id hid => ?_).length_le
    have hone := hcount id (List.mem_dedup.1 hid)
    exact List.count_pos_iff.1 (by omega)
  · rintro rfl id hid
    exact List.count_eq_one_of_mem (List.nodup_dedup ids) (List.mem_dedup.2 hid)

/-- Draining a pager over ascending ids, each listed any number of times, comes to its end with
    distinct ids from the front. It hands out every id exactly once if the ids fit pages, and only
    then: a page that repeated entries make short ends the drain whatever is behind it. -/
theorem drain_hands_out_listing_iff {ids : List LoanId} (hids : ids.Pairwise (· ≤ ·))
    (hrange : ∀ id ∈ ids, 0 < id ∧ id < Bound.int64) (today : Date) (pageSize : Nat) :
    ∃ (pages : List (List LoanId)) (p : Pager) (s : ScriptedBook),
      (Pager.new today pageSize).drain.exec ⟨listing ids, []⟩ = (.ok (pages, p), s) ∧
      p.exhausted = true ∧ pages.flatten <+: ids.dedup ∧
      ((∀ id ∈ ids, pages.flatten.count id = 1) ↔
        ∀ i, ids.countP (· ∈ ((ids.dedup.drop (i * max pageSize 1)).take
          (max pageSize 1)).dropLast) < max pageSize 1) := by
  obtain ⟨pages, p, s, hexec, hend, hprefix, hiff⟩ :=
    Pager.exists_drain_listing hids hrange today pageSize
  exact ⟨pages, p, s, hexec, hend, hprefix, (forall_count_eq_one_iff hprefix).trans hiff⟩

namespace Sample

/-- For pages of two the repeated ids are the last ones of a page. -/
def repeatedLast : List LoanId := [1, 2, 2, 2, 3, 4, 4]

/-- For pages of two the repeated id is the first one of a page. -/
def repeatedFirst : List LoanId := [1, 1, 2]

end Sample

/-- Ids that are repeated at the end of a page only are all handed out. -/
theorem drain_hands_out_repeated_last :
    ∃ (pages : List (List LoanId)) (p : Pager) (s : ScriptedBook),
      (Pager.new Sample.today 2).drain.exec ⟨listing Sample.repeatedLast, []⟩ =
        (.ok (pages, p), s) ∧
      ∀ id ∈ Sample.repeatedLast, pages.flatten.count id = 1 := by
  obtain ⟨pages, p, s, hexec, -, -, hiff⟩ := drain_hands_out_listing_iff
    (by decide : Sample.repeatedLast.Pairwise (· ≤ ·)) (by decide) Sample.today 2
  refine ⟨pages, p, s, hexec, hiff.2 fun i => ?_⟩
  rcases i with _ | _ | i
  · decide
  · decide
  · have hlength : Sample.repeatedLast.dedup.length ≤ (i + 2) * max 2 1 := calc
      Sample.repeatedLast.dedup.length = 2 * max 2 1 := by decide
      _ ≤ (i + 2) * max 2 1 := Nat.mul_le_mul_right _ (Nat.le_add_left 2 i)
    rw [List.drop_eq_nil_of_le hlength]
    decide

/-- An id that is listed twice makes the first page short, and the id behind it is lost. -/
theorem drain_loses_id_behind_repeated :
    ∃ (p : Pager) (s : ScriptedBook),
      (Pager.new Sample.today 2).drain.exec ⟨listing Sample.repeatedFirst, []⟩ =
        (.ok ([[1]], p), s) ∧
      p.exhausted = true ∧ 2 ∈ Sample.repeatedFirst ∧ [[1]].flatten.count 2 = 0 ∧
      ¬ ∀ id ∈ Sample.repeatedFirst, [[1]].flatten.count id = 1 := by
  have hpage : (Pager.new Sample.today 2).pageOf Sample.repeatedFirst = [1] := by decide
  have hnext := Pager.exec_next_listing (by decide : Sample.repeatedFirst.Pairwise (· ≤ ·))
    (rfl : ScriptedBook.script ⟨listing Sample.repeatedFirst, []⟩ = listing Sample.repeatedFirst)
    (rfl : (Pager.new Sample.today 2).exhausted = false)
  rw [hpage] at hnext
  have hrest := Pager.exec_drainUpTo_exhausted
    (rfl : ((Pager.new Sample.today 2).advance [1]).exhausted = true) (Pager.pageLimit - 1)
    (ScriptedBook.note ⟨listing Sample.repeatedFirst, []⟩ (Pager.new Sample.today 2).request)
  have hlimit : Pager.pageLimit - 1 + 1 = Pager.pageLimit := by decide
  have hdrain := Pager.exec_drainUpTo_page hnext hrest
  rw [hlimit] at hdrain
  exact ⟨_, _, hdrain, rfl, by decide, rfl, by decide⟩

end LoanArrears
