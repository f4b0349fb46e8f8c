-- SUMMARY: What is drawn at random, whatever the generator: numbers lie in their ranges, and draws compose by what they yield.
import LoanArrears.Proofs.Act
import LoanArrears.Synthetic.Loan
import Mathlib.Data.List.Forall2

/-!
# Draws

A draw `Yields` a property if every generator gives it a value, one with the property. A draw is
computed with the generator that the draw before it leaves, so sequences of draws yield what their
parts do, and nothing else about the numbers is known than the ranges that they are drawn from.
-/

namespace LoanArrears

/-! ## Ranges -/

namespace Generator

theorem nextBits_lt (bits : Nat) (g : Generator) : (g.nextBits bits).1 < twoTo bits :=
  Nat.mod_lt _ (twoTo_pos bits)

/-- A product with less than a unit of `bits` bits has an upper part below the other factor. -/
theorem shiftRight_mul_lt {bits v range : Nat} (hv : v < twoTo bits) (hrange : 0 < range) :
    (v * range) >>> bits < range := by
  rw [Nat.shiftRight_eq_div_pow]
  refine Nat.div_lt_of_lt_mul ?_
  exact Nat.mul_lt_mul_of_pos_right hv hrange

theorem search_lt (bits : Nat) {range : Nat} (hrange : 0 < range) (zone tries : Nat)
    (g : Generator) : (below.search bits range zone tries g).1 < range := by
  induction tries generalizing g with
  | zero => exact hrange
  | succ tries ih =>
    unfold below.search
    dsimp only
    split
    · exact shiftRight_mul_lt (g.nextBits_lt bits) hrange
    · exact ih _

theorem below_lt (bits : Nat) {range : Nat} (hrange : 0 < range) (g : Generator) :
    (g.below bits range).1 < range :=
  search_lt bits hrange _ _ g

theorem between_eq (bits lo hi : Nat) (g : Generator) :
    g.between bits lo hi =
      (lo + (g.below bits (hi - lo + 1)).1, (g.below bits (hi - lo + 1)).2) := rfl

theorem between_range (bits : Nat) {lo hi : Nat} (hle : lo ≤ hi) (g : Generator) :
    lo ≤ (g.between bits lo hi).1 ∧ (g.between bits lo hi).1 ≤ hi := by
  have hlt : (g.below bits (hi - lo + 1)).1 < hi - lo + 1 := g.below_lt bits (Nat.succ_pos _)
  rw [between_eq]
  generalize g.below bits (hi - lo + 1) = drawn at hlt ⊢
  dsimp only
  omega

end Generator

/-! ## Draws -/

namespace Synthetic

/-- Every generator gives a value, one with the property. -/
def Draw.Yields (d : Draw α) (p : α → Prop) : Prop :=
  ∀ g, ∃ a g', d.run g = .ok (a, g') ∧ p a

namespace Draw.Yields

variable {d : Draw α} {p p' : α → Prop} {q : β → Prop}

/-- A draw with a run that is known; the numbers of the generator are not computed. -/
theorem of_run (drawn : Generator → α × Generator) (hd : ∀ g, d.run g = .ok (drawn g))
    (h : ∀ g, p (drawn g).1) : Draw.Yields d p :=
  fun g => ⟨(drawn g).1, (drawn g).2, hd g, h g⟩

theorem pure {a : α} (h : p a) : Draw.Yields (Pure.pure a) p :=
  fun g => ⟨a, g, rfl, h⟩

theorem imp (h : Draw.Yields d p) (hp : ∀ a, p a → p' a) : Draw.Yields d p' := by
  intro g
  obtain ⟨a, g', hrun, ha⟩ := h g
  exact ⟨a, g', hrun, hp a ha⟩

theorem bind {f : α → Draw β} (h : Draw.Yields d p) (hf : ∀ a, p a → Draw.Yields (f a) q) :
    Draw.Yields (d >>= f) q := by
  intro g
  obtain ⟨a, g', hrun, ha⟩ := h g
  obtain ⟨b, g'', hrun', hb⟩ := hf a ha g'
  refine ⟨b, g'', ?_, hb⟩
  rw [StateT.run_bind, hrun]
  exact hrun'

theorem map {f : α → β} (h : Draw.Yields d p) (hf : ∀ a, p a → q (f a)) :
    Draw.Yields (f <$> d) q := by
  rw [← bind_pure_comp]
  exact h.bind fun a ha => .pure (hf a ha)

/-- A computation without a generator that has its value. -/
theorem lift {x : Except Crash α} (h : ∃ a, x = .ok a ∧ p a) : Draw.Yields (liftM x) p := by
  obtain ⟨a, rfl, ha⟩ := h
  exact .pure ha

theorem mapM {f : α → Draw β} {r : α → β → Prop} {xs : List α}
    (h : ∀ x ∈ xs, Draw.Yields (f x) (r x)) : Draw.Yields (xs.mapM f) (List.Forall₂ r xs) := by
  induction xs with
  | nil => exact .pure .nil
  | cons x xs ih =>
    rw [List.forall_mem_cons] at h
    rw [List.mapM_cons]
    refine h.1.bind fun y hy => ?_
    refine (ih h.2).bind fun ys hys => ?_
    exact .pure (.cons hy hys)

end Draw.Yields

theorem yields_between (bits : Nat) {lo hi : Nat} (hle : lo ≤ hi) :
    (between bits lo hi).Yields fun n => lo ≤ n ∧ n ≤ hi :=
  .of_run (Generator.between bits lo hi) (fun _ => rfl) fun g => g.between_range bits hle

theorem yields_chance (n d : Nat) : (chance n d).Yields fun _ => True :=
  .of_run (Generator.chance n d) (fun _ => rfl) fun _ => trivial

end Synthetic

end LoanArrears
