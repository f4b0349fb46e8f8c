-- SUMMARY: How a page is cut: what holds of the sub-batches, and a cut by machine indices that stays within the page and gives the same ones.
import LoanArrears.Proofs.Job.SubBatch
import Mathlib.Algebra.Order.Floor.Div
import Mathlib.Data.List.Chain
import Mathlib.Data.Nat.PSub

/-!
# Cutting a page

All sub-batches but the last one have the size that is aimed for, or more where a border moved
behind a run of equal ids. As that size is at least the even share of a worker, there are no more
sub-batches than workers (`SubBatch.Partitions`).

A worker machine cuts a page by indices: `SubBatch.ofPageIndexed?` has no answer if one of them
leaves 64 bits or the page, or if a loop has no end. None of that happens, and the sub-batches are
the same.
-/

namespace LoanArrears

/-! ## Pieces -/

/-- The first piece starts with the first id. -/
theorem head?_pieces (size : Nat) (ids : List LoanId) :
    (pieces size ids).head?.bind List.head? = ids.head? := by
  cases ids with
  | nil => simp [pieces]
  | cons id ids => simp [pieces]

/-- Behind the first ids of a piece only ids that equal the last of them are added. -/
theorem getLast?_append_takeWhile {ids rest : List LoanId} {last : LoanId}
    (h : ids.getLast? = some last) :
    (ids ++ rest.takeWhile (· = last)).getLast? = some last := by
  rw [List.getLast?_append]
  cases hadded : (rest.takeWhile (· = last)).getLast? with
  | none => simpa using h
  | some id =>
    have hid := List.all_eq_true.1 List.all_takeWhile id (List.mem_of_getLast? hadded)
    simpa using hid

/-- No border is between equal ids. -/
theorem pieces_keep_runs (size : Nat) (ids : List LoanId) :
    (pieces size ids).IsChain fun piece piece' => piece.getLast? ≠ piece'.head? := by
  fun_induction pieces size ids with
  | case1 => exact .nil
  | case2 id ids last rest ih =>
    refine List.isChain_cons.2 ⟨fun piece hpiece heq => ?_, ih⟩
    have hlast : (id :: ids.take size ++ rest.takeWhile (· = last)).getLast? = some last :=
      getLast?_append_takeWhile List.getLast?_cons
    have hfirst := head?_pieces size (rest.dropWhile (· = last))
    rw [Option.mem_def.1 hpiece, Option.bind_some, ← heq, hlast] at hfirst
    have hstops := List.head?_dropWhile_not (fun x => decide (x = last)) rest
    rw [← hfirst] at hstops
    simp at hstops

/-- Every piece but the last one has its size. -/
theorem size_lt_length_of_mem_dropLast {size : Nat} {ids piece : List LoanId}
    (h : piece ∈ (pieces size ids).dropLast) : size < piece.length := by
  fun_induction pieces size ids with
  | case1 => cases h
  | case2 id ids last rest ih =>
    by_cases hend : pieces size (rest.dropWhile (· = last)) = []
    · simp [hend] at h
    rw [List.dropLast_cons_of_ne_nil hend] at h
    rcases List.mem_cons.1 h with rfl | h
    · -- Ids are left behind the piece, so it was not cut short.
      have hrest : rest ≠ [] := by
        rintro hnil
        rw [hnil] at hend
        simp [pieces] at hend
      have hlength : size < ids.length := by
        simpa [rest] using hrest
      simp
      omega
    · exact ih h

/-- Pieces of a size are no more than it takes to cover the ids. -/
theorem length_pieces_le (size : Nat) (ids : List LoanId) :
    ∀ count, ids.length ≤ count * (size + 1) → (pieces size ids).length ≤ count := by
  fun_induction pieces size ids with
  | case1 => exact fun _ _ => Nat.zero_le _
  | case2 id ids last rest ih =>
    intro count h
    cases count with
    | zero => simp at h
    | succ count =>
      have hrest : (rest.dropWhile (· = last)).length ≤ ids.length - size := by
        have hsublist := (List.dropWhile_sublist (· = last) (l := rest)).length_le
        simpa [rest] using hsublist
      have hleft : (rest.dropWhile (· = last)).length ≤ count * (size + 1) := by
        rw [Nat.succ_mul, List.length_cons] at h
        omega
      exact Nat.succ_le_succ (ih count hleft)

/-! ## Sub-batches -/

namespace SubBatch

/-- The sub-batches are a sound partition of the page. -/
structure Partitions (page : List LoanId) (workers batchSize : Nat) (batches : List SubBatch) :
    Prop where
  /-- Put together in order, they are the page. -/
  flatten : batches.flatMap (·.loans) = page
  indexes : batches.map (·.index) = List.range batches.length
  ne_nil : ∀ b ∈ batches, b.loans ≠ []
  count : batches.length ≤ max workers 1
  /-- Equal ids that stand together stay together. -/
  runs : batches.IsChain fun b b' => b.last? ≠ b'.first?
  sizes : ∀ b ∈ batches.dropLast,
    max (max batchSize 1) (page.length ⌈/⌉ max workers 1) ≤ b.loans.length
  ascending : page.Pairwise (· ≤ ·) → batches.IsChain fun b b' =>
    ∃ last first, b.last? = some last ∧ b'.first? = some first ∧ last < first

theorem map_index_ofPage (page : List LoanId) (workers batchSize : Nat) :
    (ofPage page workers batchSize).map (·.index) =
      List.range (ofPage page workers batchSize).length := by
  unfold ofPage
  apply List.ext_getElem <;> simp

theorem pieceSize_eq (length workers batchSize : Nat) :
    pieceSize length workers batchSize =
      max (max batchSize 1) (length ⌈/⌉ max workers 1) := by
  rw [Nat.ceilDiv_eq_add_pred_div]
  rfl

theorem pieceSize_pos (length workers batchSize : Nat) :
    0 < pieceSize length workers batchSize := by
  rw [pieceSize_eq]
  omega

/-- As many pieces as there are workers cover the page. -/
theorem length_le_mul_pieceSize (length workers batchSize : Nat) :
    length ≤ max workers 1 * pieceSize length workers batchSize := by
  have hpos : 0 < max workers 1 := by omega
  have hshare : length ≤ max workers 1 * (length ⌈/⌉ max workers 1) := by
    simpa using le_smul_ceilDiv (b := length) hpos
  rw [pieceSize_eq]
  exact Nat.le_trans hshare (Nat.mul_le_mul_left _ (Nat.le_max_right ..))

theorem mem_pieces_of_mem_ofPage {page : List LoanId} {workers batchSize : Nat} {b : SubBatch}
    (h : b ∈ ofPage page workers batchSize) :
    b.loans ∈ pieces (pieceSize page.length workers batchSize - 1) page := by
  rw [← map_loans_ofPage]
  exact List.mem_map_of_mem h

theorem partitions_ofPage (page : List LoanId) (workers batchSize : Nat) :
    Partitions page workers batchSize (ofPage page workers batchSize) where
  flatten := flatMap_ofPage page workers batchSize
  indexes := map_index_ofPage page workers batchSize
  ne_nil b hb := ne_nil_of_mem_pieces (mem_pieces_of_mem_ofPage hb)
  count := by
    have hcount := length_le_mul_pieceSize page.length workers batchSize
    have hpos := pieceSize_pos page.length workers batchSize
    have hlength := congrArg List.length (map_loans_ofPage page workers batchSize)
    rw [List.length_map] at hlength
    rw [hlength]
    refine length_pieces_le _ _ _ ?_
    rwa [Nat.sub_add_cancel hpos]
  runs := by
    have hruns := pieces_keep_runs (pieceSize page.length workers batchSize - 1) page
    rw [← map_loans_ofPage, List.isChain_map] at hruns
    exact hruns
  sizes b hb := by
    have hmem : b.loans ∈
        (pieces (pieceSize page.length workers batchSize - 1) page).dropLast := by
      rw [← map_loans_ofPage, ← List.map_dropLast]
      exact List.mem_map_of_mem hb
    have hsize := size_lt_length_of_mem_dropLast hmem
    rw [← pieceSize_eq]
    omega
  ascending h := by
    have hchain := (ofPage_ascending h workers batchSize).isChain
    refine hchain.imp_of_mem_imp fun b b' hb hb' hlt => ?_
    have hne := ne_nil_of_mem_pieces (mem_pieces_of_mem_ofPage hb)
    have hne' := ne_nil_of_mem_pieces (mem_pieces_of_mem_ofPage hb')
    exact ⟨_, _, List.getLast?_eq_some_getLast hne, List.head?_eq_some_head hne',
      hlt _ (List.getLast_mem hne) _ (List.head_mem hne')⟩

/-! ## Machine indices

There is no answer where a number leaves 64 bits, an index lies outside of the page or a loop has
no end. -/

/-- A number that fits into 64 bits. -/
def word? (n : Nat) : Option Nat :=
  if n < Bound.nat64 then some n else none

/-- The quotient, with one more for a remainder. -/
def ceilDiv? (n d : Nat) : Option Nat :=
  if d = 0 then none
  else if n % d = 0 then some (n / d)
  else word? (n / d + 1)

/-- The ids from one index to another. -/
def slice? (page : List LoanId) (start stop : Nat) : Option (List LoanId) :=
  if start ≤ stop ∧ stop ≤ page.length then some ((page.take stop).drop start) else none

/-- Moves a border behind the ids that are equal to the one before it. -/
def pushBorder? (page : List LoanId) (stop : Nat) : Option Nat :=
  if stop < page.length then do
    let id ← page[stop]?
    let before ← stop.ppred
    let last ← page[before]?
    if id = last then
      if stop + 1 < Bound.nat64 then pushBorder? page (stop + 1) else none
    else some stop
  else some stop
termination_by page.length - stop

/-- Cuts what is left of the page from an index on. -/
def cutFrom? (page : List LoanId) (chunk start : Nat) (batches : List SubBatch) :
    Option (List SubBatch) :=
  if start < page.length then do
    let reach ← word? (start + chunk)
    let stop ← pushBorder? page (min reach page.length)
    let loans ← slice? page start stop
    -- A round that stays where it is would be followed by the same one forever.
    if start < stop then cutFrom? page chunk stop (batches ++ [⟨batches.length, loans⟩]) else none
  else some batches
termination_by page.length - start

def ofPageIndexed? (page : List LoanId) (workers batchSize : Nat) : Option (List SubBatch) :=
  if page = [] then some []
  else do
    let share ← ceilDiv? page.length (max workers 1)
    cutFrom? page (max (max batchSize 1) share) 0 []

theorem word?_of_lt {n : Nat} (h : n < Bound.nat64) : word? n = some n :=
  if_pos h

theorem ceilDiv?_eq {n d : Nat} (hd : 0 < d) (hn : n < Bound.nat64) :
    ceilDiv? n d = some (n ⌈/⌉ d) := by
  have hsplit := Nat.div_add_mod n d
  have hmod := Nat.mod_lt n hd
  rw [ceilDiv?, if_neg (Nat.pos_iff_ne_zero.1 hd), Nat.ceilDiv_eq_add_pred_div]
  by_cases hrest : n % d = 0
  · have hceil : n + d - 1 = d * (n / d) + (d - 1) := by omega
    have hshort : (d - 1) / d = 0 := Nat.div_eq_of_lt (by omega)
    rw [if_pos hrest, hceil, Nat.mul_add_div hd, hshort, Nat.add_zero]
  · have hceil : n + d - 1 = d * (n / d + 1) + (n % d - 1) := by
      rw [Nat.mul_succ]
      omega
    have hshort : (n % d - 1) / d = 0 := Nat.div_eq_of_lt (by omega)
    have hlt : n / d < n := by
      refine Nat.div_lt_self ?_ ?_
      · exact Nat.pos_of_ne_zero fun hzero => hrest (by rw [hzero, Nat.zero_mod])
      · by_contra hone
        exact hrest (by rw [show d = 1 by omega, Nat.mod_one])
    rw [if_neg hrest, word?_of_lt (Nat.lt_of_le_of_lt hlt hn), hceil, Nat.mul_add_div hd, hshort,
      Nat.add_zero]

theorem slice?_append (done piece rest : List LoanId) :
    slice? (done ++ (piece ++ rest)) done.length (done.length + piece.length) = some piece := by
  rw [slice?, if_pos (by simp), List.take_length_add_append, List.drop_left,
    List.take_left]

/-- A border moves behind the run of ids that it would cut through. -/
theorem pushBorder?_append {front rest : List LoanId} {last : LoanId}
    (h : (front ++ last :: rest).length < Bound.nat64) :
    pushBorder? (front ++ last :: rest) (front.length + 1) =
      some (front.length + 1 + (rest.takeWhile (· = last)).length) := by
  induction rest generalizing front with
  | nil =>
    rw [pushBorder?, if_neg (by simp)]
    rfl
  | cons id rest ih =>
    have hid : (front ++ last :: id :: rest)[front.length + 1]? = some id := by simp
    have hlast : (front ++ last :: id :: rest)[front.length]? = some last := by simp
    rw [pushBorder?, if_pos (by simp), hid, Nat.ppred_succ]
    simp only [Option.bind_eq_bind, Option.bind_some, hlast]
    by_cases heq : id = last
    · have hnext : front.length + 1 + 1 < Bound.nat64 := by
        simp at h
        omega
      have hmoved : front ++ last :: id :: rest = (front ++ [last]) ++ last :: rest := by
        simp [heq]
      rw [if_pos heq, if_pos hnext, hmoved, List.takeWhile_cons_of_pos (by simpa using heq)]
      rw [hmoved] at h
      have hpushed := ih h
      rw [List.length_append, List.length_singleton] at hpushed
      rw [hpushed, List.length_cons]
      congr 1
      omega
    · rw [if_neg heq, List.takeWhile_cons_of_neg (by simpa using heq)]
      rfl

/-- One round of the cut takes the ids up to a border, and the run that the border is in. -/
theorem cutFrom?_step {done front rest piece : List LoanId} {last : LoanId} {chunk : Nat}
    (batches : List SubBatch) (hlength : (done ++ (front ++ last :: rest)).length < Bound.nat64)
    (hreach : done.length + chunk < Bound.nat64)
    (hborder : min chunk (front ++ last :: rest).length = front.length + 1)
    (hpiece : piece = front ++ last :: rest.takeWhile (· = last)) :
    cutFrom? (done ++ (front ++ last :: rest)) chunk done.length batches =
      cutFrom? (done ++ piece ++ rest.dropWhile (· = last)) chunk (done ++ piece).length
        (batches ++ [⟨batches.length, piece⟩]) := by
  have hpage : front ++ last :: rest = piece ++ rest.dropWhile (· = last) := by
    simp [hpiece]
  have hmin : min (done.length + chunk) (done ++ (front ++ last :: rest)).length =
      (done ++ front).length + 1 := by
    simp only [List.length_append] at hborder ⊢
    omega
  have hpushed : pushBorder? (done ++ (front ++ last :: rest)) ((done ++ front).length + 1) =
      some (done.length + piece.length) := by
    rw [← List.append_assoc] at hlength ⊢
    rw [pushBorder?_append hlength, hpiece]
    simp only [List.length_append, List.length_cons]
    congr 1
    omega
  have hmoves : done.length < done.length + piece.length := by
    simp [hpiece]
  rw [cutFrom?, if_pos (by simp), word?_of_lt hreach]
  simp only [Option.bind_eq_bind, Option.bind_some, hmin, hpushed]
  rw [hpage, slice?_append, Option.bind_some, if_pos hmoves, List.append_assoc,
    List.length_append]

/-- The cut by indices goes through the pieces of the ids that are left. -/
theorem cutFrom?_append (size : Nat) (ids : List LoanId) :
    ∀ (done : List LoanId) (batches : List SubBatch), (done ++ ids).length ≤ Bound.int64 →
      (ids ≠ [] → done.length + (size + 1) < Bound.nat64) →
      cutFrom? (done ++ ids) (size + 1) done.length batches =
        some (batches ++ (pieces size ids).mapIdx fun i loans => ⟨batches.length + i, loans⟩) := by
  fun_induction pieces size ids with
  | case1 =>
    intro done batches _ _
    rw [cutFrom?, if_neg (by simp)]
    simp
  | case2 id ids last rest ih =>
    intro done batches hlength hreach
    obtain ⟨front, hfront⟩ : ∃ front, id :: ids.take size = front ++ [last] :=
      List.getLast?_eq_some_iff.1 List.getLast?_cons
    have hids : id :: ids = front ++ last :: rest := by
      rw [List.append_cons, ← hfront]
      simp [rest]
    have hborder : min (size + 1) (front ++ last :: rest).length = front.length + 1 := by
      have hcount := congrArg List.length hfront
      rw [← hids]
      simp at hcount ⊢
      omega
    have hpiece : id :: ids.take size ++ rest.takeWhile (· = last) =
        front ++ last :: rest.takeWhile (· = last) := by
      rw [hfront, List.append_assoc, List.singleton_append]
    have hfits : (done ++ (front ++ last :: rest)).length < Bound.nat64 := by
      rw [← hids]
      exact Nat.lt_of_le_of_lt hlength (by decide)
    have hpage : done ++ (id :: ids.take size ++ rest.takeWhile (· = last)) ++
        rest.dropWhile (· = last) = done ++ id :: ids := by
      simp [rest]
    rw [← hpage] at hlength
    rw [hids, cutFrom?_step batches hfits (hreach (List.cons_ne_nil _ _)) hborder hpiece,
      ih _ _ hlength]
    · simp [Nat.add_assoc, Nat.add_comm 1]
    · -- Ids are left behind the piece, so it has its full size and lies within the page.
      intro hleft
      have hrest : rest ≠ [] := fun hnil => hleft (by rw [hnil, List.dropWhile_nil])
      have hfull : size < ids.length := by
        simpa [rest] using hrest
      have hwords : Bound.nat64 = 2 * Bound.int64 := by decide
      have hpos := List.length_pos_iff.2 hleft
      simp only [List.length_append, List.length_cons, List.length_take] at hlength ⊢
      omega

/-- Cutting by indices ends, stays within the page and 64 bits, and gives the sub-batches. -/
theorem ofPageIndexed?_eq {page : List LoanId} {workers batchSize : Nat}
    (hpage : page.length ≤ Bound.int64) (hsize : batchSize < Bound.nat64) :
    ofPageIndexed? page workers batchSize = some (ofPage page workers batchSize) := by
  by_cases hempty : page = []
  · simp [ofPageIndexed?, ofPage, hempty, pieces]
  have hshare : ceilDiv? page.length (max workers 1) = some (page.length ⌈/⌉ max workers 1) :=
    ceilDiv?_eq (by omega) (Nat.lt_of_le_of_lt hpage (by decide))
  have hle : page.length ⌈/⌉ max workers 1 ≤ page.length :=
    (ceilDiv_le_iff_le_smul (by omega)).2 (Nat.le_mul_of_pos_left _ (by omega))
  have hpos := pieceSize_pos page.length workers batchSize
  have hcut := cutFrom?_append (pieceSize page.length workers batchSize - 1) page [] [] hpage
  rw [Nat.sub_add_cancel hpos] at hcut
  rw [ofPageIndexed?, if_neg hempty, hshare, Option.bind_eq_bind, Option.bind_some, ← pieceSize_eq]
  refine (hcut fun _ => ?_).trans ?_
  · have hwords : 0 < Bound.int64 ∧ Bound.int64 < Bound.nat64 := by decide
    rw [pieceSize_eq, List.length_nil]
    omega
  · simp [ofPage]

/-- Every page is cut soundly. As a page has less than half of all machine numbers as its length,
no batch size lets an index overflow. -/
theorem page_is_cut_soundly (page : List LoanId) (workers batchSize : Nat) :
    Partitions page workers batchSize (ofPage page workers batchSize) ∧
      (page.length ≤ Bound.int64 → batchSize < Bound.nat64 →
        ofPageIndexed? page workers batchSize = some (ofPage page workers batchSize)) :=
  ⟨partitions_ofPage page workers batchSize, ofPageIndexed?_eq⟩

/-- Two workers would get three ids and two; the border moves behind the last one of the equal
    ids. -/
theorem page_is_cut_soundly_sample :
    let page : List LoanId := [1, 2, 2, 2, 3]
    page.length ≤ Bound.int64 ∧ 2 < Bound.nat64 ∧
      Partitions page 2 2 [⟨0, [1, 2, 2, 2]⟩, ⟨1, [3]⟩] ∧
      ofPageIndexed? page 2 2 = some [⟨0, [1, 2, 2, 2]⟩, ⟨1, [3]⟩] := by
  intro page
  have hlength : page.length ≤ Bound.int64 := by decide
  have hsize : 2 < Bound.nat64 := by decide
  have hcut : ofPage page 2 2 = [⟨0, [1, 2, 2, 2]⟩, ⟨1, [3]⟩] := by decide +kernel
  obtain ⟨hsound, hindexed⟩ := page_is_cut_soundly page 2 2
  rw [hcut] at hsound hindexed
  exact ⟨hlength, hsize, hsound, hindexed hlength hsize⟩

end SubBatch

end LoanArrears
