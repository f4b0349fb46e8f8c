-- SUMMARY: Looking up keys in tables: the rows are what can be looked up.
import LoanArrears.Book.Table

/-!
# Rows and look-ups

Keys ascend, so a row is what its key is looked up to.
-/

namespace LoanArrears.Table

theorem lookup_eq_some_iff {rows : List (Int × α)} (h : rows.Pairwise fun a b => a.1 < b.1)
    {key : Int} {a : α} : rows.lookup key = some a ↔ (key, a) ∈ rows := by
  induction rows with
  | nil => simp
  | cons r rest ih =>
    obtain ⟨hr, hrest⟩ := List.pairwise_cons.1 h
    rw [lookup_cons_eq_ite]
    split
    · next hkey =>
      subst hkey
      constructor
      · intro hval
        cases hval
        exact List.mem_cons_self
      · intro hmem
        rcases List.mem_cons.1 hmem with heq | hmem
        · rw [← heq]
        · exact absurd (hr _ hmem) (Int.lt_irrefl _)
    · next hkey =>
      rw [ih hrest]
      constructor
      · exact List.mem_cons_of_mem r
      · intro hmem
        rcases List.mem_cons.1 hmem with heq | hmem
        · rw [← heq] at hkey
          exact absurd rfl hkey
        · exact hmem

theorem find?_eq_some_iff {t : Table α} {key : Int} {a : α} :
    t.find? key = some a ↔ (key, a) ∈ t.rows :=
  lookup_eq_some_iff t.ascending

theorem contains_eq_false_iff {t : Table α} {key : Int} :
    t.contains key = false ↔ t.find? key = none := by
  rw [contains, Option.isSome_eq_false_iff, Option.isNone_iff_eq_none]

/-- Tables are what can be looked up in them. -/
theorem ext_find? {t t' : Table α} (h : ∀ key, t.find? key = t'.find? key) : t = t' := by
  have hnodup (t : Table α) : t.rows.Nodup :=
    t.ascending.imp fun hlt heq => Int.ne_of_lt hlt (congrArg Prod.fst heq)
  have hperm : t.rows.Perm t'.rows := by
    refine (List.perm_ext_iff_of_nodup (hnodup t) (hnodup t')).2 fun r => ?_
    have hmem (t : Table α) : r ∈ t.rows ↔ t.find? r.1 = some r.2 := find?_eq_some_iff.symm
    rw [hmem, hmem, h]
  have hrows : t.rows = t'.rows :=
    hperm.eq_of_pairwise (fun r r' _ _ hlt hlt' => absurd hlt (Int.lt_asymm hlt')) t.ascending
      t'.ascending
  cases t
  cases t'
  cases hrows
  rfl

/-! ## Sizes -/

theorem length_putRow {key : Int} {a : α} {rows : List (Int × α)} (h : rows.lookup key = none) :
    (putRow key a rows).length = rows.length + 1 := by
  induction rows with
  | nil => rfl
  | cons r rest ih =>
    rw [lookup_cons_eq_ite] at h
    split at h
    · cases h
    · next hne =>
      rw [putRow, if_neg hne]
      split
      · rfl
      · rw [List.length_cons, ih h, List.length_cons]

/-- A row under a new key is one more. -/
theorem size_put {t : Table α} {key : Int} (h : t.find? key = none) (a : α) :
    (t.put key a).size = t.size + 1 :=
  length_putRow h

theorem erase_of_find?_eq_none {t : Table α} {key : Int} (h : t.find? key = none) :
    t.erase key = t := by
  apply ext_find?
  intro k
  rw [find?_erase]
  split
  · next hk => rw [hk, h]
  · rfl

/-! ## Parts -/

/-- The rows under some of the keys. -/
def filter (t : Table α) (keep : Int → Bool) : Table α :=
  ⟨t.rows.filter fun r => keep r.1, t.ascending.filter _⟩

theorem find?_filter (t : Table α) (keep : Int → Bool) (key : Int) :
    (t.filter keep).find? key = if keep key then t.find? key else none := by
  apply Option.ext
  intro a
  rw [find?_eq_some_iff, filter, List.mem_filter]
  by_cases hkeep : keep key
  · simp only [hkeep, and_true, if_true, find?_eq_some_iff]
  · simp [hkeep]

end LoanArrears.Table
