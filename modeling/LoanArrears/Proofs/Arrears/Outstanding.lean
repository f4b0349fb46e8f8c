-- SUMMARY: What installments leave outstanding, in cents, and totals that count it: sums by bucket and the oldest date with principal.
import LoanArrears.Arrears.Totals
import LoanArrears.Proofs.Buckets
import LoanArrears.Proofs.Decimal.Cents
import Mathlib.Algebra.BigOperators.Group.List.Basic
import Mathlib.Algebra.GroupWithZero.Nat

/-!
# Counting what is outstanding

An `Outstanding` is what one installment leaves unpaid, by bucket and in whole cents. Totals
`Counts` a list of them if its buckets are the sums over the list and its date is the oldest
one with principal. Neither depends on the order of the list, so it does not matter in which
order installments are read.
-/

namespace LoanArrears

/-! ## Oldest dates -/

/-- The oldest of the dates; none if there are no dates. -/
def Date.IsOldest (dates : List Date) : Option Date → Prop
  | some d => d ∈ dates ∧ ∀ d' ∈ dates, d.number ≤ d'.number
  | none => dates = []

namespace Date

theorem min_number (a b : Date) : (a.min b).number = Min.min a.number b.number := by
  unfold Date.min before
  by_cases h : b.number < a.number
  · rw [if_pos (decide_eq_true h), Int.min_eq_right (Int.le_of_lt h)]
  · rw [if_neg (by simpa using h), Int.min_eq_left (Int.not_lt.1 h)]

theorem min_eq_or (a b : Date) : a.min b = a ∨ a.min b = b := by
  unfold Date.min
  split
  · exact .inr rfl
  · exact .inl rfl

/-- Adding a date keeps the older one. -/
theorem IsOldest.push {dates : List Date} {since : Option Date} (h : IsOldest dates since)
    (d : Date) : IsOldest (dates ++ [d]) (some ((since.map (·.min d)).getD d)) := by
  cases since with
  | none =>
    have hnil : dates = [] := h
    rw [hnil]
    exact ⟨List.mem_singleton_self d, fun d' hd' => List.mem_singleton.1 hd' ▸ Int.le_refl _⟩
  | some s =>
    obtain ⟨hs, hle⟩ := h
    show s.min d ∈ dates ++ [d] ∧ ∀ d' ∈ dates ++ [d], (s.min d).number ≤ d'.number
    constructor
    · rcases min_eq_or s d with h | h <;> rw [h]
      · exact List.mem_append_left _ hs
      · exact List.mem_append_right _ (List.mem_singleton_self d)
    · intro d' hd'
      rw [min_number]
      rcases List.mem_append.1 hd' with hd' | hd'
      · exact Int.le_trans (Int.min_le_left ..) (hle d' hd')
      · rw [List.mem_singleton.1 hd']
        exact Int.min_le_right ..

/-- There is one oldest date, whatever the order of the dates. -/
theorem IsOldest.unique {dates dates' : List Date} {since since' : Option Date}
    (h : IsOldest dates since) (h' : IsOldest dates' since') (hmem : ∀ d, d ∈ dates ↔ d ∈ dates') :
    since = since' := by
  cases since with
  | none =>
    cases since' with
    | none => rfl
    | some d' =>
      have hd' : d' ∈ dates := (hmem d').2 h'.1
      rw [show dates = [] from h] at hd'
      cases hd'
  | some d =>
    cases since' with
    | none =>
      have hd : d ∈ dates' := (hmem d).1 h.1
      rw [show dates' = [] from h'] at hd
      cases hd
    | some d' =>
      have hle : d.number ≤ d'.number := h.2 d' ((hmem d').2 h'.1)
      have hge : d'.number ≤ d.number := h'.2 d ((hmem d).1 h.1)
      rw [eq_of_number (Int.le_antisymm hle hge)]

theorem IsOldest.perm {dates dates' : List Date} {since : Option Date} (h : IsOldest dates since)
    (p : dates.Perm dates') : IsOldest dates' since := by
  cases since with
  | none =>
    have hnil : dates = [] := h
    rw [hnil] at p
    exact p.nil_eq.symm
  | some d => exact ⟨p.mem_iff.1 h.1, fun d' hd' => h.2 d' (p.mem_iff.2 hd')⟩

end Date

/-! ## Outstanding installments -/

/-- What an installment leaves unpaid, in cents. -/
structure Outstanding where
  dueDate : Date
  cents : Buckets Nat

namespace Outstanding

/-- The sum of a bucket. -/
def sum (os : List Outstanding) (i : Bucket) : Nat :=
  (os.map fun o => o.cents.get i).sum

/-- The sum of all buckets. -/
def total (os : List Outstanding) : Nat :=
  sum os .principal + sum os .interest + sum os .fee + sum os .penalty

/-- The due dates with principal outstanding. -/
def principalDates (os : List Outstanding) : List Date :=
  (os.filter (0 < ·.cents.principal)).map (·.dueDate)

@[simp] theorem sum_nil (i : Bucket) : sum [] i = 0 := rfl

@[simp] theorem sum_cons (o : Outstanding) (os : List Outstanding) (i : Bucket) :
    sum (o :: os) i = o.cents.get i + sum os i :=
  List.sum_cons

theorem sum_append (os os' : List Outstanding) (i : Bucket) :
    sum (os ++ os') i = sum os i + sum os' i := by
  rw [sum, List.map_append, List.sum_append]
  rfl

theorem sum_perm {os os' : List Outstanding} (p : os.Perm os') (i : Bucket) :
    sum os i = sum os' i :=
  (p.map _).sum_eq

theorem sum_le_total (os : List Outstanding) (i : Bucket) : sum os i ≤ total os := by
  unfold total
  cases i <;> omega

theorem sum_le_of_forall_le {os : List Outstanding} {i : Bucket} {bound : Nat}
    (h : ∀ o ∈ os, o.cents.get i ≤ bound) : sum os i ≤ os.length * bound := by
  induction os with
  | nil => simp
  | cons o os ih =>
    have ho : o.cents.get i ≤ bound := h o List.mem_cons_self
    have hos : sum os i ≤ os.length * bound := ih fun o' ho' => h o' (List.mem_cons_of_mem _ ho')
    rw [sum_cons, List.length_cons, Nat.succ_mul]
    omega

theorem principalDates_perm {os os' : List Outstanding} (p : os.Perm os') :
    (principalDates os).Perm (principalDates os') :=
  (p.filter _).map _

/-- There is principal outstanding when some installment has a date for it. -/
theorem sum_principal_pos_iff (os : List Outstanding) :
    0 < sum os .principal ↔ principalDates os ≠ [] := by
  induction os with
  | nil => simp [principalDates]
  | cons o os ih =>
    have hget : o.cents.get .principal = o.cents.principal := rfl
    by_cases ho : 0 < o.cents.principal
    · have hsum : 0 < sum (o :: os) .principal := by
        rw [sum_cons, hget]
        exact Nat.add_pos_left ho _
      exact iff_of_true hsum (by simp [principalDates, ho])
    · have hzero : o.cents.principal = 0 := Nat.eq_zero_of_not_pos ho
      rw [sum_cons, hget, hzero, Nat.zero_add, ih]
      simp [principalDates, hzero]

end Outstanding

/-! ## Totals -/

namespace Totals

/-- The totals add up what is outstanding, and have its oldest date. -/
structure Counts (t : Totals) (os : List Outstanding) : Prop where
  isCents : ∀ i, (t.overdue.get i).IsCents (Outstanding.sum os i)
  isOldest : Date.IsOldest (Outstanding.principalDates os) t.since

theorem zero_counts : zero.Counts [] where
  isCents i := by
    rw [show zero.overdue = Buckets.all Decimal.zero from rfl, Buckets.get_all]
    exact Decimal.isCents_zero
  isOldest := rfl

theorem Counts.perm {t : Totals} {os os' : List Outstanding} (h : t.Counts os)
    (p : os.Perm os') : t.Counts os' where
  isCents i := Outstanding.sum_perm p i ▸ h.isCents i
  isOldest := h.isOldest.perm (Outstanding.principalDates_perm p)

theorem Counts.addOutstanding {t : Totals} {os : List Outstanding} (h : t.Counts os)
    {o : Outstanding} {amounts : Amounts} (ha : ∀ i, (amounts.get i).IsCents (o.cents.get i))
    (hlimit : ∀ i, Outstanding.sum (os ++ [o]) i < Decimal.coeffLimit) :
    ∃ t', t.addOutstanding o.dueDate amounts = .ok t' ∧ t'.Counts (os ++ [o]) := by
  have hadd (i : Bucket) : ∃ c, (t.overdue.get i).add (amounts.get i) = .ok c ∧
      c.IsCents (Outstanding.sum (os ++ [o]) i) := by
    have hsum : Outstanding.sum (os ++ [o]) i = Outstanding.sum os i + o.cents.get i := by
      rw [Outstanding.sum_append, Outstanding.sum_cons, Outstanding.sum_nil, Nat.add_zero]
    have hlt := hlimit i
    rw [hsum] at hlt ⊢
    exact (h.isCents i).exists_add (ha i) hlt
  obtain ⟨overdue, hoverdue, hcents⟩ := Buckets.exists_zipWithM_eq_ok hadd
  let since :=
    if amounts.principal.isPositive then some ((t.since.map (·.min o.dueDate)).getD o.dueDate)
    else t.since
  refine ⟨⟨overdue, since⟩, ?_, hcents, ?_⟩
  · rw [Totals.addOutstanding, Amounts.add, hoverdue]
    rfl
  · have hpos : amounts.principal.isPositive ↔ 0 < o.cents.principal :=
      (ha .principal).isPositive_iff.trans Int.natCast_pos
    by_cases ho : 0 < o.cents.principal
    · have hdates : Outstanding.principalDates (os ++ [o]) =
          Outstanding.principalDates os ++ [o.dueDate] := by
        simp [Outstanding.principalDates, ho]
      rw [hdates]
      simp only [since, hpos.2 ho, if_true]
      exact h.isOldest.push o.dueDate
    · have hdates : Outstanding.principalDates (os ++ [o]) = Outstanding.principalDates os := by
        simp [Outstanding.principalDates, ho]
      simp only [hdates, since, if_neg (mt hpos.1 ho)]
      exact h.isOldest

/-- Adding up items one by one counts what they leave outstanding, in any order. -/
theorem Counts.foldlM {items : List α} {dueDate : α → Date}
    {amounts : α → Except Crash Amounts} {left : α → Outstanding}
    (hdue : ∀ a ∈ items, (left a).dueDate = dueDate a)
    (hleft : ∀ a ∈ items, ∃ b, amounts a = .ok b ∧ ∀ i, (b.get i).IsCents ((left a).cents.get i))
    {t : Totals} {os : List Outstanding} (h : t.Counts os)
    (hlimit : ∀ i, Outstanding.sum (os ++ items.map left) i < Decimal.coeffLimit) :
    ∃ t', items.foldlM (fun t a => do t.addOutstanding (dueDate a) (← amounts a)) t = .ok t' ∧
      t'.Counts (os ++ items.map left) := by
  induction items generalizing t os with
  | nil => exact ⟨t, rfl, by simpa using h⟩
  | cons a items ih =>
    have happend : os ++ (a :: items).map left = os ++ [left a] ++ items.map left := by simp
    rw [happend] at hlimit ⊢
    obtain ⟨b, hb, hcents⟩ := hleft a List.mem_cons_self
    have hlimit' (i : Bucket) : Outstanding.sum (os ++ [left a]) i < Decimal.coeffLimit := by
      have hsum := Outstanding.sum_append (os ++ [left a]) (items.map left) i
      have hlt := hlimit i
      omega
    obtain ⟨t', ht', hcounts⟩ := h.addOutstanding hcents hlimit'
    obtain ⟨t'', ht'', hcounts'⟩ := ih (fun x hx => hdue x (List.mem_cons_of_mem _ hx))
      (fun x hx => hleft x (List.mem_cons_of_mem _ hx)) hcounts hlimit
    refine ⟨t'', ?_, hcounts'⟩
    rw [hdue a List.mem_cons_self] at ht'
    rw [List.foldlM_cons]
    simp only [hb, bind, Except.bind, ht']
    exact ht''

/-- A loan is in arrears when its totals have a date. -/
theorem Counts.inArrears_eq {t : Totals} {os : List Outstanding} (h : t.Counts os) :
    t.inArrears = t.since.isSome := by
  unfold inArrears
  cases hsince : t.since with
  | none => simp
  | some since =>
    have hmem : since ∈ Outstanding.principalDates os := by
      have hold := h.isOldest
      rw [hsince] at hold
      exact hold.1
    have hpos : 0 < Outstanding.sum os .principal :=
      (Outstanding.sum_principal_pos_iff os).2 (List.ne_nil_of_mem hmem)
    have hpositive : t.overdue.principal.isPositive :=
      (h.isCents .principal).isPositive_iff.2 (Int.natCast_pos.2 hpos)
    rw [hpositive]
    rfl

end Totals

end LoanArrears
