-- SUMMARY: Records and tagged unions decoded from an object that has each of their fields once, in the order of declaration.
import LoanArrears.Proofs.Json.Reading

/-!
# Filling records

`Fields.Gives` says that some fields of an object, in the order in which they are declared,
make a value. It follows the way in which records are put together: the parts of a record take
their own fields as long as no part in front of them has a field of the same name.

All values are plain, so what is said of a value also holds of its text.
-/

namespace LoanArrears

theorem Json.IsPlain.ne_unnamed {v : Json} (h : v.IsPlain) (w : Json) : v ≠ .unnamed w := by
  rintro rfl
  cases h

/-- The decoder makes the value of a plain JSON value. -/
structure Decoder.Reads (d : Decoder α) (v : Json) (a : α) : Prop where
  isPlain : v.IsPlain
  eq_ok : d v = .ok a

/-- What is read from a value is also read from its text. -/
theorem Decoder.Reads.ofText {d : Decoder α} {v : Json} {a : α} (h : d.Reads v a) :
    d.ofText v.render = .ok a := by
  rw [h.isPlain.ofText_render, h.eq_ok]

namespace Fields

variable {α β : Type} {f : Fields α} {g : Fields (α → β)} {name n : String} {v : Json}
  {d : Decoder α} {kvs kvs' : List (String × Json)} {a : α} {h : α → β}

/-- The record has no field of that name. -/
def Ignores (f : Fields α) (name : String) : Prop :=
  ∀ v slots, f.put name v slots = none

@[simp] theorem ignores_one {absent short : Except DecodeError α} :
    (one n d absent short).Ignores name ↔ name ≠ n := by
  constructor
  · rintro hnone rfl
    have := hnone .null none
    simp [one] at this
  · intro hne v slots
    simp [one, hne]

@[simp] theorem ignores_required : (required n d).Ignores name ↔ name ≠ n :=
  ignores_one

@[simp] theorem ignores_map (h : α → β) : (h <$> f).Ignores name ↔ f.Ignores name :=
  Iff.rfl

theorem put_seq (name : String) (v : Json) (slots : g.Slots) (others : f.Slots) :
    (g <*> f).put name v (slots, others) = match g.put name v slots with
      | some r => some ((·, others) <$> r)
      | none => (f.put name v others).map fun r => (slots, ·) <$> r := rfl

@[simp] theorem ignores_seq : (g <*> f).Ignores name ↔ g.Ignores name ∧ f.Ignores name := by
  constructor
  · intro h
    have hg : g.Ignores name := by
      intro v slots
      have hput := h v (slots, f.empty)
      rw [put_seq] at hput
      cases hslots : g.put name v slots with
      | none => rfl
      | some r =>
        rw [hslots] at hput
        cases hput
    refine ⟨hg, fun v others => ?_⟩
    have hput := h v (g.empty, others)
    rw [put_seq, hg] at hput
    exact Option.map_eq_none_iff.1 hput
  · rintro ⟨hg, hf⟩ v ⟨slots, others⟩
    rw [put_seq, hg, hf]
    rfl

/-- The fields of an object are all taken, in order, and lead from some slots to others. -/
inductive Fills (f : Fields α) : f.Slots → List (String × Json) → f.Slots → Prop
  | nil (slots : f.Slots) : Fills f slots [] slots
  | cons {slots slots₁ slots₂ : f.Slots} {name : String} {v : Json} {kvs : List (String × Json)} :
      v.IsPlain → f.put name v slots = some (.ok slots₁) → Fills f slots₁ kvs slots₂ →
      Fills f slots ((name, v) :: kvs) slots₂

/-- The fields of an object make the value. -/
def Gives (f : Fields α) (kvs : List (String × Json)) (a : α) : Prop :=
  ∃ slots, f.Fills f.empty kvs slots ∧ f.finish slots = .ok a

theorem Fills.append {slots slots₁ slots₂ : f.Slots} (h₁ : f.Fills slots kvs slots₁)
    (h₂ : f.Fills slots₁ kvs' slots₂) : f.Fills slots (kvs ++ kvs') slots₂ := by
  induction h₁ with
  | nil => exact h₂
  | cons hplain hput _ ih => exact .cons hplain hput (ih h₂)

theorem Fills.ofObject {slots slots' : f.Slots} (h : f.Fills slots kvs slots') :
    f.ofObject slots kvs = f.finish slots' := by
  induction h with
  | nil => rfl
  | cons hplain hput _ ih =>
    rw [Fields.ofObject, hput]
    · exact ih
    · exact hplain.ne_unnamed

theorem Fills.map {slots slots' : f.Slots} (h : f.Fills slots kvs slots') (k : α → β) :
    (k <$> f).Fills slots kvs slots' := by
  induction h with
  | nil => exact .nil (f := k <$> f) _
  | cons hplain hput _ ih => exact .cons (f := k <$> f) hplain hput ih

/-- What the first part of a record takes leaves the slots of the second part alone. -/
theorem Fills.seq_left {slots slots' : g.Slots} (h : g.Fills slots kvs slots')
    (others : f.Slots) : (g <*> f).Fills (slots, others) kvs (slots', others) := by
  induction h with
  | nil => exact .nil _
  | @cons slots slots₁ slots₂ name v kvs hplain hput _ ih =>
    refine .cons hplain ?_ ih
    rw [put_seq, hput]
    rfl

/-- The second part takes what the first one ignores. -/
theorem Fills.seq_right {slots slots' : f.Slots} (h : f.Fills slots kvs slots')
    (hg : ∀ kv ∈ kvs, g.Ignores kv.1) (others : g.Slots) :
    (g <*> f).Fills (others, slots) kvs (others, slots') := by
  induction h with
  | nil => exact .nil _
  | @cons slots slots₁ slots₂ name v kvs hplain hput _ ih =>
    refine .cons hplain ?_ (ih fun kv hkv => hg kv (List.mem_cons_of_mem _ hkv))
    rw [put_seq, hg (name, v) List.mem_cons_self, hput]
    rfl

theorem gives_one {absent short : Except DecodeError α} (hd : d.Reads v a) :
    (one name d absent short).Gives [(name, v)] a := by
  refine ⟨some a, .cons hd.isPlain ?_ (.nil _), rfl⟩
  simp only [one, if_true, Option.isSome_none, Bool.false_eq_true, if_false, hd.eq_ok]
  rfl

theorem gives_required (name : String) (hd : d.Reads v a) :
    (required name d).Gives [(name, v)] a :=
  gives_one hd

theorem Gives.map (hf : f.Gives kvs a) (h : α → β) : (h <$> f).Gives kvs (h a) := by
  obtain ⟨slots, hfills, hfinish⟩ := hf
  refine ⟨slots, hfills.map h, ?_⟩
  show h <$> f.finish slots = _
  rw [hfinish]
  rfl

theorem Gives.seq (hg : g.Gives kvs h) (hf : f.Gives kvs' a)
    (hnames : ∀ kv ∈ kvs', g.Ignores kv.1) : (g <*> f).Gives (kvs ++ kvs') (h a) := by
  obtain ⟨slots, hfills, hfinish⟩ := hg
  obtain ⟨slots', hfills', hfinish'⟩ := hf
  refine ⟨(slots, slots'), (hfills.seq_left _).append (hfills'.seq_right hnames _), ?_⟩
  show (do
    let h ← g.finish slots
    h <$> f.finish slots') = _
  rw [hfinish, hfinish']
  rfl

/-- A further field of a record. -/
theorem Gives.field (hg : g.Gives kvs h) (name : String) (hname : g.Ignores name)
    (hd : d.Reads v a) : (g <*> required name d).Gives (kvs ++ [(name, v)]) (h a) :=
  hg.seq (gives_required name hd) (by simpa using hname)

theorem Fills.isPlain {slots slots' : f.Slots} (h : f.Fills slots kvs slots') :
    ∀ kv ∈ kvs, kv.2.IsPlain := by
  induction h with
  | nil => exact List.forall_mem_nil _
  | cons hplain _ _ ih => exact List.forall_mem_cons.2 ⟨hplain, ih⟩

theorem Gives.isPlain (h : f.Gives kvs a) : ∀ kv ∈ kvs, kv.2.IsPlain := by
  obtain ⟨slots, hfills, -⟩ := h
  exact hfills.isPlain

theorem Gives.ofObject (h : f.Gives kvs a) : f.ofObject f.empty kvs = .ok a := by
  obtain ⟨slots, hfills, hfinish⟩ := h
  exact hfills.ofObject.trans hfinish

theorem Gives.record (h : f.Gives kvs a) : (Decoder.record f).Reads (.obj kvs) a :=
  ⟨.obj h.isPlain, h.ofObject⟩

end Fields

/-! ## Tagged unions -/

namespace Decoder

variable {tag name : String} {known : List String} {kvs : List (String × Json)}

theorem takeTag_of_found (h : ∀ kv ∈ kvs, kv.1 ≠ tag ∧ kv.2.sound (Json.maxDepth - 1)) :
    takeTag tag known (some name) kvs = .ok (some name, kvs) := by
  induction kvs with
  | nil => rfl
  | cons kv kvs ih =>
    obtain ⟨hname, hsound⟩ := h kv List.mem_cons_self
    rw [takeTag, if_neg hname, if_pos hsound,
      ih fun kv' hkv' => h kv' (List.mem_cons_of_mem _ hkv')]
    rfl

/-- A tagged object in the form in which it is written: the tag, and then the fields of the
    variant. -/
theorem reads_tagged {α : Type} {variants : List (String × Fields α)} {f : Fields α} {a : α}
    (hname : variants.lookup name = some f)
    (h : ∀ kv ∈ kvs, kv.1 ≠ tag ∧ kv.2.sound (Json.maxDepth - 1)) (hf : f.Gives kvs a) :
    (tagged tag variants).Reads (.obj ((tag, .str name) :: kvs)) a := by
  refine ⟨.obj (List.forall_mem_cons.2 ⟨.str name, hf.isPlain⟩), ?_⟩
  have hknown : name ∈ variants.map (·.1) := by
    obtain ⟨before, after, rfl, -⟩ := List.lookup_eq_some_iff.1 hname
    simp
  have hrest : takeTag tag (variants.map (·.1)) (some name) kvs = .ok (some name, kvs) :=
    takeTag_of_found h
  have htag : takeTag tag (variants.map (·.1)) none ((tag, .str name) :: kvs) =
      .ok (some name, kvs) := by
    rw [takeTag, if_pos rfl, if_neg (by decide), variantName, if_pos hknown]
    exact hrest
  rw [tagged, htag]
  simp only [bind, Except.bind, hname]
  exact hf.ofObject

end Decoder

end LoanArrears
