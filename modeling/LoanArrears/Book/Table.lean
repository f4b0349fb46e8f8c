-- SUMMARY: Tables of rows under integer keys, kept in ascending order of the keys.

/-!
# Tables

A `Table` holds at most one row for each key. Rows are listed in ascending
order of their keys, so two tables with the same rows are equal.
-/

namespace LoanArrears

structure Table (α : Type) where
  rows : List (Int × α)
  ascending : rows.Pairwise fun a b => a.1 < b.1
deriving DecidableEq

namespace Table

/-! ## Rows -/

/-- Put a row in its place; a row under the same key is replaced. -/
def putRow (key : Int) (a : α) : List (Int × α) → List (Int × α)
  | [] => [(key, a)]
  | row :: rest =>
    if key < row.1 then (key, a) :: row :: rest
    else if key = row.1 then (key, a) :: rest
    else row :: putRow key a rest

theorem mem_putRow {key : Int} {a : α} {rows : List (Int × α)} {row : Int × α}
    (h : row ∈ putRow key a rows) : row = (key, a) ∨ row ∈ rows := by
  induction rows with
  | nil => simpa [putRow] using h
  | cons r rest ih =>
    simp only [putRow] at h
    split at h
    · simpa using h
    · split at h
      · rcases List.mem_cons.1 h with h | h
        · exact .inl h
        · exact .inr (List.mem_cons_of_mem _ h)
      · rcases List.mem_cons.1 h with h | h
        · exact .inr (h ▸ List.mem_cons_self)
        · exact (ih h).imp_right (List.mem_cons_of_mem _)

theorem pairwise_putRow {key : Int} {a : α} {rows : List (Int × α)}
    (h : rows.Pairwise fun a b => a.1 < b.1) :
    (putRow key a rows).Pairwise fun a b => a.1 < b.1 := by
  induction rows with
  | nil => simp [putRow]
  | cons r rest ih =>
    obtain ⟨hr, hrest⟩ := List.pairwise_cons.1 h
    simp only [putRow]
    split
    · next hlt =>
      refine List.pairwise_cons.2 ⟨fun s hs => ?_, h⟩
      rcases List.mem_cons.1 hs with rfl | hs
      · exact hlt
      · exact Int.lt_trans hlt (hr s hs)
    · split
      · next heq => exact List.pairwise_cons.2 ⟨fun s hs => heq ▸ hr s hs, hrest⟩
      · next hge hne =>
        refine List.pairwise_cons.2 ⟨fun s hs => ?_, ih hrest⟩
        rcases mem_putRow hs with rfl | hs
        · simp only; omega
        · exact hr s hs

/-! ## Tables -/

def empty : Table α :=
  ⟨[], .nil⟩

instance : Inhabited (Table α) := ⟨empty⟩

def find? (t : Table α) (key : Int) : Option α :=
  t.rows.lookup key

def contains (t : Table α) (key : Int) : Bool :=
  (t.find? key).isSome

def put (t : Table α) (key : Int) (a : α) : Table α :=
  ⟨putRow key a t.rows, pairwise_putRow t.ascending⟩

def erase (t : Table α) (key : Int) : Table α :=
  ⟨t.rows.filter (·.1 ≠ key), t.ascending.filter _⟩

def size (t : Table α) : Nat :=
  t.rows.length

theorem lookup_cons_eq_ite (k : Int) (r : Int × α) (rest : List (Int × α)) :
    (r :: rest).lookup k = if k = r.1 then some r.2 else rest.lookup k := by
  rw [List.lookup_cons]
  by_cases h : k = r.1
  · simp [h]
  · rw [beq_eq_false_iff_ne.2 h, if_neg h]

theorem lookup_putRow (key k : Int) (a : α) (rows : List (Int × α)) :
    (putRow key a rows).lookup k = if k = key then some a else rows.lookup k := by
  induction rows with
  | nil => simp [putRow, lookup_cons_eq_ite]
  | cons r rest ih =>
    simp only [putRow]
    split
    · simp [lookup_cons_eq_ite]
    · split
      · next heq => by_cases hk : k = key <;> simp [lookup_cons_eq_ite, hk, ← heq]
      · next hne => by_cases hk : k = r.1 <;> by_cases hkey : k = key <;> simp_all [lookup_cons_eq_ite]

theorem find?_put (t : Table α) (key k : Int) (a : α) :
    (t.put key a).find? k = if k = key then some a else t.find? k :=
  lookup_putRow key k a t.rows

theorem lookup_filter_ne (key k : Int) (rows : List (Int × α)) :
    (rows.filter (·.1 ≠ key)).lookup k = if k = key then none else rows.lookup k := by
  induction rows with
  | nil => simp
  | cons r rest ih =>
    by_cases hr : r.1 = key
    · rw [List.filter_cons_of_neg (by simpa using hr), ih, lookup_cons_eq_ite, hr]
      by_cases hk : k = key <;> simp [hk]
    · rw [List.filter_cons_of_pos (by simpa using hr), lookup_cons_eq_ite, lookup_cons_eq_ite, ih]
      by_cases hk : k = key
      · simp [hk, Ne.symm hr]
      · simp [hk]

theorem find?_erase (t : Table α) (key k : Int) :
    (t.erase key).find? k = if k = key then none else t.find? k :=
  lookup_filter_ne key k t.rows

end Table

end LoanArrears
