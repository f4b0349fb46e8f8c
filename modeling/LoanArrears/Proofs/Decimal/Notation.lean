-- SUMMARY: Decimals in plain notation are read back, but for the minus sign of a zero.
import LoanArrears.Decimal.Text
import LoanArrears.Proofs.Calendar.TextOrder

/-!
# Reading decimals back

A decimal is written with all its digits, and these fit again when they are read: the digits in
front of each other are those of smaller numbers. The reader puts a sign in front of the number
and not of its digits, so a zero loses the minus sign that it was written with.
-/

namespace LoanArrears

open Text

namespace Text

theorem le_ofDigitChars (ds : List Char) (i : Nat) : i ≤ Nat.ofDigitChars 10 ds i := by
  induction ds generalizing i with
  | nil => simp
  | cons d ds ih =>
    rw [Nat.ofDigitChars_cons]
    have := ih (10 * i + (d.toNat - '0'.toNat))
    omega

theorem digit?_of_isDigit {c : Char} (h : c.isDigit) : digit? c = some (c.toNat - '0'.toNat) := by
  rw [digit?, if_pos h]

theorem le_length_padded (width n : Nat) : width ≤ (padded width n).length := by
  rw [padded, List.length_append, List.length_replicate]
  omega

end Text

namespace Decimal

/-- The decimal that is read from the text of one: a zero is read without its minus sign, all
    others are as they were. -/
def asRead (a : Decimal) : Decimal :=
  { a with minusZero := false, coeff_eq := nofun }

theorem asRead_eq_self {a : Decimal} (h : a.minusZero = false) : a.asRead = a := by
  obtain ⟨coeff, scale, minusZero, hlt, hle, hzero⟩ := a
  cases h
  rfl

/-- The decimal that is read is the same number. -/
theorem asRead_eqv (a : Decimal) : a.asRead.eqv a :=
  decide_eq_true rfl

/-- Digits in front of the point are read one after the other. -/
theorem readWhole?_append {ds : List Char} (hds : ∀ c ∈ ds, c.isDigit) {coeff : Nat} {seen : Bool}
    {rest : List Char} (hlt : Nat.ofDigitChars 10 ds coeff < coeffLimit) :
    readWhole? coeff seen (ds ++ rest) =
      readWhole? (Nat.ofDigitChars 10 ds coeff) (seen || !ds.isEmpty) rest := by
  induction ds generalizing coeff seen with
  | nil => simp
  | cons d ds ih =>
    rw [Nat.ofDigitChars_cons] at hlt ⊢
    have hlonger := Nat.lt_of_le_of_lt (le_ofDigitChars ds _) hlt
    rw [List.cons_append, readWhole?, digit?_of_isDigit (hds d List.mem_cons_self)]
    dsimp only
    rw [Nat.mul_comm coeff, if_pos hlonger, ih (fun c hc => hds c (List.mem_cons_of_mem _ hc)) hlt]
    simp

/-- Places are read one after the other as long as there are not too many. -/
theorem readPlaces?_of_digits {ds : List Char} (hds : ∀ c ∈ ds, c.isDigit) {coeff scale : Nat}
    (hlt : Nat.ofDigitChars 10 ds coeff < coeffLimit) (hle : scale + ds.length ≤ maxScale) :
    readPlaces? ⟨coeff, scale⟩ true ds =
      some ⟨Nat.ofDigitChars 10 ds coeff, scale + ds.length⟩ := by
  induction ds generalizing coeff scale with
  | nil => simp [readPlaces?]
  | cons d ds ih =>
    rw [Nat.ofDigitChars_cons] at hlt ⊢
    rw [List.length_cons] at hle ⊢
    have hlonger := Nat.lt_of_le_of_lt (le_ofDigitChars ds _) hlt
    rw [readPlaces?, digit?_of_isDigit (hds d List.mem_cons_self)]
    dsimp only
    rw [Nat.mul_comm coeff, if_pos ⟨by omega, hlonger⟩,
      ih (fun c hc => hds c (List.mem_cons_of_mem _ hc)) hlt (by omega)]
    simp only [Option.some.injEq, Magnitude.mk.injEq, true_and]
    omega

/-- The digits of a decimal without its sign. -/
def unsignedChars (a : Decimal) : List Char :=
  let digits := padded (a.scale + 1) a.coeff.natAbs
  digits.take (digits.length - a.scale) ++
    if a.scale = 0 then [] else '.' :: digits.drop (digits.length - a.scale)

theorem toChars_eq (a : Decimal) :
    a.toChars = (if a.coeff < 0 ∨ a.minusZero then ['-'] else []) ++ a.unsignedChars := by
  rw [toChars, unsignedChars, List.append_assoc]

theorem readWhole?_unsignedChars (a : Decimal) :
    readWhole? 0 false a.unsignedChars = some ⟨a.coeff.natAbs, a.scale⟩ := by
  let digits := padded (a.scale + 1) a.coeff.natAbs
  let whole := digits.take (digits.length - a.scale)
  let places := digits.drop (digits.length - a.scale)
  have hlen : a.scale + 1 ≤ digits.length := le_length_padded _ _
  have hdigits : ∀ c ∈ digits, c.isDigit := fun _ => isDigit_of_mem_padded
  have hvalue : Nat.ofDigitChars 10 places (Nat.ofDigitChars 10 whole 0) = a.coeff.natAbs := by
    rw [← Nat.ofDigitChars_append, List.take_append_drop]
    exact value_padded _ _
  have hwhole : Nat.ofDigitChars 10 whole 0 < coeffLimit :=
    Nat.lt_of_le_of_lt (le_ofDigitChars places _) (hvalue ▸ a.coeff_lt)
  have hseen : (false || !whole.isEmpty) = true := by
    have : whole.length ≠ 0 := by
      rw [List.length_take]
      omega
    simpa using List.ne_nil_of_length_pos (Nat.pos_of_ne_zero this)
  have hplaces : places.length = a.scale := by
    rw [List.length_drop]
    omega
  show readWhole? 0 false (whole ++ if a.scale = 0 then [] else '.' :: places) = _
  rw [readWhole?_append (fun c hc => hdigits c (List.mem_of_mem_take hc)) hwhole, hseen]
  by_cases hscale : a.scale = 0
  · have hnil : places = [] := List.eq_nil_of_length_eq_zero (hplaces.trans hscale)
    rw [hnil, Nat.ofDigitChars_nil] at hvalue
    rw [if_pos hscale, readWhole?, if_pos rfl, hvalue, hscale]
  · rw [if_neg hscale, readWhole?, show digit? '.' = none from rfl]
    dsimp only
    have hfit : 0 + places.length ≤ maxScale := by
      rw [hplaces, Nat.zero_add]
      exact a.scale_le
    rw [if_pos rfl, readPlaces?_of_digits (fun c hc => hdigits c (List.mem_of_mem_drop hc))
      (hvalue ▸ a.coeff_lt) hfit, hvalue, hplaces, Nat.zero_add]

theorem exists_cons_unsignedChars (a : Decimal) :
    ∃ d ds, a.unsignedChars = d :: ds ∧ d.isDigit := by
  have hlen := le_length_padded (a.scale + 1) a.coeff.natAbs
  obtain ⟨d, ds, hcons⟩ := List.exists_cons_of_length_pos
    (show 0 < ((padded (a.scale + 1) a.coeff.natAbs).take
      ((padded (a.scale + 1) a.coeff.natAbs).length - a.scale)).length by
        rw [List.length_take]
        omega)
  refine ⟨d, ds ++ _, by rw [unsignedChars, hcons, List.cons_append], ?_⟩
  exact isDigit_of_mem_padded (List.mem_of_mem_take (hcons ▸ List.mem_cons_self))

/-- The text of a decimal is read as the decimal without the minus sign of a zero. -/
theorem read?_toText (a : Decimal) : read? a.toText = some a.asRead := by
  have hmk : mk? a.coeff a.scale = some a.asRead := mk?_eq_some a.coeff_lt a.scale_le
  have hplain : readPlain? a.toChars = some a.asRead := by
    rw [toChars_eq]
    by_cases hsign : a.coeff < 0 ∨ a.minusZero
    · rw [if_pos hsign, List.singleton_append, readPlain?.eq_def]
      simp only [readWhole?_unsignedChars, Option.bind_eq_bind, Option.bind_some, if_true]
      have hneg : -(a.coeff.natAbs : Int) = a.coeff := by
        rcases hsign with h | h
        · omega
        · rw [a.coeff_eq h]
          rfl
      rw [hneg, hmk]
    · have hcoeff : ((a.coeff.natAbs : Nat) : Int) = a.coeff := by
        have := mt Or.inl hsign
        omega
      obtain ⟨d, ds, hcons, hd⟩ := a.exists_cons_unsignedChars
      have hne {sign : Char} (hsign : sign.isDigit = false) (rest : List Char) :
          a.unsignedChars ≠ sign :: rest := by
        intro heq
        rw [hcons] at heq
        rw [(List.cons.inj heq).1, hsign] at hd
        cases hd
      rw [if_neg hsign, List.nil_append, readPlain?]
      · simp only [readWhole?_unsignedChars, Option.bind_eq_bind, Option.bind_some,
          Bool.false_eq_true, if_false, hcoeff, hmk]
      · exact hne (by decide)
      · exact hne (by decide)
  rw [read?, toText, String.toList_ofList, hplain]
  rfl

end Decimal

end LoanArrears
