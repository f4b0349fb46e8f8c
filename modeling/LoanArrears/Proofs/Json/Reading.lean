-- SUMMARY: Reading a JSON text that was written on one line gives the value that was written.
import LoanArrears.Json.Writer
import LoanArrears.Json.Decode

/-!
# Reading what is written

A value made of integers, strings, arrays and objects is read back from its text. Strings are
read piece by piece, as the writer escapes them character by character. A number ends where a
separator or the end of the text follows, so this is asked of what stands behind a value.
-/

namespace LoanArrears

/-! ## Numerals -/

namespace Text

/-- Only zero has a numeral that starts with a zero. -/
theorem head?_numeral {n : Nat} (h : 0 < n) : (numeral n).head? ≠ some '0' := by
  induction n using Nat.strongRecOn with
  | ind n ih =>
    rw [numeral, Nat.toDigits_eq_if (by decide)]
    split
    · simpa using Nat.pos_iff_ne_zero.1 h
    · next hge =>
      rw [List.head?_append, List.head?_eq_some_head Nat.toDigits_ne_nil, Option.some_or,
        ← List.head?_eq_some_head]
      exact ih (n / 10) (Nat.div_lt_self h (by decide)) (by omega)

theorem exists_cons_numeral (n : Nat) : ∃ d ds, numeral n = d :: ds ∧ d.isDigit := by
  obtain ⟨d, ds, hcons⟩ := List.exists_cons_of_ne_nil (numeral_ne_nil n)
  exact ⟨d, ds, hcons, isDigit_of_mem_numeral (hcons ▸ List.mem_cons_self)⟩

theorem exists_cons_signed (v : Int) : ∃ c cs, signed v = c :: cs ∧ (c = '-' ∨ c.isDigit) := by
  by_cases hneg : v < 0
  · exact ⟨'-', numeral v.natAbs, by rw [signed, if_pos hneg], .inl rfl⟩
  · obtain ⟨d, ds, hcons, hd⟩ := exists_cons_numeral v.natAbs
    exact ⟨d, ds, by rw [signed, if_neg hneg, hcons], .inr hd⟩

end Text

open Text

namespace Json

/-! ## Strings -/

/-- The piece that the escape of a character is read as. -/
def pieceOf (c : Char) : Piece :=
  if c ∈ ['"', '\\', '\x08', '\x0c', '\n', '\r', '\t'] then .char c
  else if c.toNat < 0x20 then .unit c.toNat
  else .char c

theorem hexUnit?_of_lt {n : Nat} (h : n < 0x20) :
    hexUnit? '0' '0' (hexDigit (n / 16)) (hexDigit (n % 16)) = some n := by
  revert n
  decide

/-- A character without an escape is read as itself. -/
theorem readPieces_cons {c : Char} (hquote : c ≠ '"') (hslash : c ≠ '\\') (hc : ¬ c.toNat < 0x20)
    (cs : List Char) : readPieces (c :: cs) =
      (readPieces cs).map fun (pieces, rest) => (.char c :: pieces, rest) := by
  rw [readPieces.eq_def]
  split
  · next h => cases h
  · next h => exact absurd (List.cons.inj h).1 hquote
  · next h => exact absurd (List.cons.inj h).1 hslash
  · next h => exact absurd (List.cons.inj h).1 hslash
  · next h =>
    obtain ⟨rfl, rfl⟩ := List.cons.inj h
    rw [if_neg hc]
    cases readPieces cs <;> rfl

/-- The escape of a character is read as one piece. -/
theorem readPieces_escape (c : Char) (cs : List Char) :
    readPieces (escape c ++ cs) =
      (readPieces cs).map fun (pieces, rest) => (pieceOf c :: pieces, rest) := by
  by_cases hnamed : c ∈ ['"', '\\', '\x08', '\x0c', '\n', '\r', '\t']
  · simp only [List.mem_cons, List.not_mem_nil, or_false] at hnamed
    rcases hnamed with rfl | rfl | rfl | rfl | rfl | rfl | rfl <;>
      cases hcs : readPieces cs <;> simp [escape, readPieces, escaped?, pieceOf, hcs]
  · have hpiece : pieceOf c = if c.toNat < 0x20 then .unit c.toNat else .char c := by
      rw [pieceOf, if_neg hnamed]
    simp only [List.mem_cons, List.not_mem_nil, or_false, not_or] at hnamed
    obtain ⟨hquote, hslash, hb, hf, hn, hr, ht⟩ := hnamed
    rw [escape, if_neg hquote, if_neg hslash, if_neg hb, if_neg hf, if_neg hn, if_neg hr,
      if_neg ht, hpiece]
    by_cases hc : c.toNat < 0x20
    · rw [if_pos hc, if_pos hc]
      simp only [List.cons_append, List.nil_append, readPieces, hexUnit?_of_lt hc]
      cases readPieces cs <;> rfl
    · rw [if_neg hc, if_neg hc]
      exact readPieces_cons hquote hslash hc cs

theorem readPieces_flatMap (cs rest : List Char) :
    readPieces (cs.flatMap escape ++ '"' :: rest) = some (cs.map pieceOf, rest) := by
  induction cs with
  | nil => rfl
  | cons c cs ih =>
    rw [List.flatMap_cons, List.append_assoc, readPieces_escape, ih]
    rfl

theorem joinPieces_map (cs : List Char) : joinPieces none (cs.map pieceOf) = some cs := by
  induction cs with
  | nil => rfl
  | cons c cs ih =>
    rw [List.map_cons]
    by_cases hunit : c ∉ ['"', '\\', '\x08', '\x0c', '\n', '\r', '\t'] ∧ c.toNat < 0x20
    · obtain ⟨hnamed, hc⟩ := hunit
      have hhigh : isHighSurrogate c.toNat = false := by
        simp only [isHighSurrogate, Bool.and_eq_false_iff, decide_eq_false_iff_not]
        omega
      have hlow : isLowSurrogate c.toNat = false := by
        simp only [isLowSurrogate, Bool.and_eq_false_iff, decide_eq_false_iff_not]
        omega
      rw [pieceOf, if_neg hnamed, if_pos hc]
      simp [joinPieces, hhigh, hlow, ih]
    · have hchar : pieceOf c = .char c := by
        grind [pieceOf]
      rw [hchar]
      simp [joinPieces, ih]

/-- A quoted string is read behind its opening quote. -/
theorem readString_quote (s : String) (rest : List Char) :
    readString (s.toList.flatMap escape ++ '"' :: rest) = some (some s, rest) := by
  rw [readString, readPieces_flatMap]
  simp [joinPieces_map]

/-! ## Numbers -/

/-- What may stand behind a value: nothing, or what separates or closes. -/
def Ends : List Char → Prop
  | [] => True
  | c :: _ => c = ',' ∨ c = ']' ∨ c = '}'

theorem Ends.takeWhile_isDigit {rest : List Char} (h : Ends rest) :
    rest.takeWhile Char.isDigit = [] ∧ rest.dropWhile Char.isDigit = rest := by
  cases rest with
  | nil => exact ⟨rfl, rfl⟩
  | cons c rest =>
    rcases h with rfl | rfl | rfl <;> exact ⟨rfl, rfl⟩

theorem Ends.readPlaces? {rest : List Char} (h : Ends rest) :
    readPlaces? rest = some ([], rest) := by
  cases rest with
  | nil => rfl
  | cons c rest => rcases h with rfl | rfl | rfl <;> rfl

theorem Ends.readExponent? {rest : List Char} (h : Ends rest) :
    readExponent? rest = some (none, rest) := by
  cases rest with
  | nil => rfl
  | cons c rest => rcases h with rfl | rfl | rfl <;> rfl

/-- The integers that are kept exactly. -/
def IsExact (v : Int) : Prop :=
  -Bound.int64 ≤ v ∧ v < Bound.nat64

theorem readNumber?_signed {v : Int} {rest : List Char} (hrest : Ends rest) :
    readNumber? (signed v ++ rest) =
      some (⟨decide (v < 0), numeral v.natAbs, [], none⟩, rest) := by
  obtain ⟨d, ds, hcons, hd⟩ := exists_cons_numeral v.natAbs
  have hdigits : ∀ c ∈ numeral v.natAbs, c.isDigit := fun _ => isDigit_of_mem_numeral
  have htake : (numeral v.natAbs ++ rest).takeWhile Char.isDigit = numeral v.natAbs := by
    rw [List.takeWhile_append_of_pos hdigits, hrest.takeWhile_isDigit.1, List.append_nil]
  have hdrop : (numeral v.natAbs ++ rest).dropWhile Char.isDigit = rest := by
    rw [List.dropWhile_append_of_pos hdigits, hrest.takeWhile_isDigit.2]
  have hzeros : ¬ (numeral v.natAbs = [] ∨
      ((numeral v.natAbs).head? = some '0' ∧ numeral v.natAbs ≠ ['0'])) := by
    rintro (hnil | ⟨hzero, hlong⟩)
    · exact numeral_ne_nil _ hnil
    · rcases Nat.eq_zero_or_pos v.natAbs with h | h
      · rw [h] at hlong
        exact hlong rfl
      · exact head?_numeral h hzero
  by_cases hneg : v < 0
  · rw [signed, if_pos hneg, List.cons_append, readNumber?.eq_def]
    simp only [htake, hdrop, if_neg hzeros, hrest.readPlaces?, hneg, decide_true,
      Option.bind_eq_bind, Option.bind_some, hrest.readExponent?]
    rfl
  · rw [signed, if_neg hneg, readNumber?.eq_def]
    have hminus : ∀ tail, numeral v.natAbs ++ rest ≠ '-' :: tail := by
      rintro tail heq
      rw [hcons] at heq
      rw [(List.cons.inj heq).1] at hd
      exact absurd hd (by decide)
    split
    next negative cs hsign =>
    split at hsign
    · next h => exact absurd h (hminus _)
    · cases hsign
      simp only [htake, hdrop, if_neg hzeros, hrest.readPlaces?, hneg, decide_false,
        Option.bind_eq_bind, Option.bind_some, hrest.readExponent?]
      rfl

theorem number?_numeral {v : Int} (hv : IsExact v) :
    (⟨decide (v < 0), numeral v.natAbs, [], none⟩ : Number.Parts).number? = some (.integer v) := by
  obtain ⟨hlo, hhi⟩ := hv
  simp only [Number.Parts.number?, value_numeral]
  by_cases hneg : v < 0
  · rw [if_neg (by simp [hneg]), if_pos (by simp [hneg]; omega)]
    congr 2
    omega
  · rw [if_pos (by simp [hneg]; omega)]
    congr 2
    omega

/-- No number starts with a character that something else starts or closes with. -/
theorem ne_of_startsNumber {c d : Char} (hc : c = '-' ∨ c.isDigit)
    (hd : d ∈ ['n', 't', 'f', '"', '[', '{', ']', ' ', '\n', '\t', '\r']) : c ≠ d := by
  rcases hc with rfl | hc
  · rintro rfl
    exact absurd hd (by decide)
  · rintro rfl
    simp only [List.mem_cons, List.not_mem_nil, or_false] at hd
    rcases hd with rfl | rfl | rfl | rfl | rfl | rfl | rfl | rfl | rfl | rfl | rfl <;>
      exact absurd hc (by decide)

theorem isSpace_of_startsNumber {c : Char} (hc : c = '-' ∨ c.isDigit) : isSpace c = false := by
  have hne {d : Char} := @ne_of_startsNumber c d hc
  rw [isSpace, decide_eq_false (hne (by decide)), decide_eq_false (hne (by decide)),
    decide_eq_false (hne (by decide)), decide_eq_false (hne (by decide))]
  rfl

/-! ## Values -/

/-- A value of which the text says everything. -/
inductive IsPlain : Json → Prop
  | null : IsPlain .null
  | bool (b : Bool) : IsPlain (.bool b)
  | int {v : Int} : IsExact v → IsPlain (.num (.integer v))
  | str (s : String) : IsPlain (.str s)
  | arr {items : List Json} : (∀ v ∈ items, IsPlain v) → IsPlain (.arr items)
  | obj {fields : List (String × Json)} :
      (∀ field ∈ fields, IsPlain field.2) → IsPlain (.obj fields)

/-- The value is read in front of whatever may stand behind it, in two steps a character. -/
def IsReadBack (v : Json) : Prop :=
  ∀ steps rest, 2 * (chars v).length ≤ steps → Ends rest →
    readValue steps (chars v ++ rest) = (v, rest)

theorem skipSpace_cons {c : Char} {cs : List Char} (h : isSpace c = false) :
    skipSpace (c :: cs) = c :: cs := by
  simp [skipSpace, h]

/-- A value starts with a character that neither is skipped nor closes anything. -/
theorem IsPlain.exists_cons_chars {v : Json} (h : v.IsPlain) :
    ∃ c cs, chars v = c :: cs ∧ isSpace c = false ∧ c ≠ ']' := by
  cases h with
  | null => exact ⟨'n', _, by rw [chars], by decide, by decide⟩
  | bool b =>
    cases b with
    | true => exact ⟨'t', _, by rw [chars], by decide, by decide⟩
    | false => exact ⟨'f', _, by rw [chars], by decide, by decide⟩
  | @int v hv =>
    obtain ⟨c, cs, hcons, hc⟩ := exists_cons_signed v
    exact ⟨c, cs, by rw [chars, Number.render, hcons], isSpace_of_startsNumber hc,
      ne_of_startsNumber hc (by decide)⟩
  | str s => exact ⟨'"', _, by rw [chars, quote, List.cons_append], by decide, by decide⟩
  | @arr items _ =>
    cases items with
    | nil => exact ⟨'[', _, by rw [chars], by decide, by decide⟩
    | cons => exact ⟨'[', _, by rw [chars, List.cons_append], by decide, by decide⟩
  | @obj fields _ =>
    cases fields with
    | nil => exact ⟨'{', _, by rw [chars], by decide, by decide⟩
    | cons =>
      exact ⟨'{', _, by rw [chars, List.cons_append, List.cons_append], by decide, by decide⟩

theorem ends_itemChars (items : List Json) (rest : List Char) : Ends (itemChars items ++ rest) := by
  cases items with
  | nil => exact .inr (.inl rfl)
  | cons => exact .inl rfl

theorem ends_fieldChars (fields : List (String × Json)) (rest : List Char) :
    Ends (fieldChars fields ++ rest) := by
  cases fields with
  | nil => exact .inr (.inr rfl)
  | cons => exact .inl rfl

theorem isReadBack_int {v : Int} (hv : IsExact v) : IsReadBack (.num (.integer v)) := by
  intro steps rest hsteps hrest
  obtain ⟨c, cs, hcons, hc⟩ := exists_cons_signed v
  have hne {d : Char} := @ne_of_startsNumber c d hc
  have hnumber := readNumber?_signed (v := v) hrest
  rw [hcons, List.cons_append] at hnumber
  rw [chars, Number.render, hcons] at hsteps ⊢
  cases steps with
  | zero => simp at hsteps
  | succ steps =>
    rw [List.cons_append, readValue, skipSpace_cons (isSpace_of_startsNumber hc)]
    split
    · next h => exact absurd (List.cons.inj h).1 (hne (by decide))
    · next h => exact absurd (List.cons.inj h).1 (hne (by decide))
    · next h => exact absurd (List.cons.inj h).1 (hne (by decide))
    · next h => exact absurd (List.cons.inj h).1 (hne (by decide))
    · next h => exact absurd (List.cons.inj h).1 (hne (by decide))
    · next h => exact absurd (List.cons.inj h).1 (hne (by decide))
    · rw [hnumber]
      dsimp only
      rw [number?_numeral hv]

/-- Items are read up to their closing bracket. -/
theorem readItems_chars {v : Json} {items : List Json} (h : ∀ w ∈ v :: items, w.IsReadBack)
    (steps : Nat) (rest : List Char) (hsteps : 2 * (chars v ++ itemChars items).length ≤ steps) :
    readItems steps (chars v ++ (itemChars items ++ rest)) = (v :: items, rest) := by
  induction items generalizing v steps with
  | nil =>
    cases steps with
    | zero => simp [itemChars] at hsteps
    | succ steps =>
      have hv := h v List.mem_cons_self steps (itemChars [] ++ rest)
        (by simp [itemChars] at hsteps; omega) (ends_itemChars [] rest)
      rw [readItems, hv]
      rfl
  | cons w items ih =>
    cases steps with
    | zero => simp [itemChars] at hsteps
    | succ steps =>
      have hlen : (chars v ++ itemChars (w :: items)).length =
          (chars v).length + (chars w ++ itemChars items).length + 1 := by
        simp [itemChars]
        omega
      have hv := h v List.mem_cons_self steps (itemChars (w :: items) ++ rest) (by omega)
        (ends_itemChars _ rest)
      have hitems := ih (fun u hu => h u (List.mem_cons_of_mem _ hu)) steps (by omega)
      rw [readItems, hv]
      simp (disch := decide) only [itemChars, List.cons_append, List.append_assoc,
        skipSpace_cons, hitems]

/-- Fields are read up to their closing brace. -/
theorem readFields_chars {name : String} {v : Json} {fields : List (String × Json)}
    (h : ∀ field ∈ (name, v) :: fields, field.2.IsReadBack) (steps : Nat) (rest : List Char)
    (hsteps : 2 * (quote name ++ ':' :: chars v ++ fieldChars fields).length ≤ steps) :
    readFields steps (quote name ++ ':' :: (chars v ++ (fieldChars fields ++ rest))) =
      ((name, v) :: fields, rest) := by
  induction fields generalizing name v steps with
  | nil =>
    cases steps with
    | zero => simp [fieldChars] at hsteps
    | succ steps =>
      have hv := h (name, v) List.mem_cons_self steps (fieldChars [] ++ rest)
        (by simp [fieldChars] at hsteps ⊢; omega) (ends_fieldChars [] rest)
      rw [readFields]
      simp (disch := decide) only [quote, List.cons_append, List.append_assoc, List.nil_append,
        skipSpace_cons, readString_quote, hv]
      rfl
  | cons field fields ih =>
    obtain ⟨name', w⟩ := field
    cases steps with
    | zero => simp [fieldChars] at hsteps
    | succ steps =>
      have hlen : (quote name ++ ':' :: chars v ++ fieldChars ((name', w) :: fields)).length =
          (quote name).length + (chars v).length +
            (quote name' ++ ':' :: chars w ++ fieldChars fields).length + 2 := by
        simp [fieldChars]
        omega
      have hv := h (name, v) List.mem_cons_self steps (fieldChars ((name', w) :: fields) ++ rest)
        (by simp only; omega) (ends_fieldChars _ rest)
      have hfields := ih (fun f hf => h f (List.mem_cons_of_mem _ hf)) steps (by omega)
      rw [readFields]
      simp only [fieldChars, quote, List.cons_append, List.append_assoc, List.nil_append]
        at hv hfields
      simp (disch := decide) only [fieldChars, quote, List.cons_append, List.append_assoc,
        List.nil_append, skipSpace_cons, readString_quote, hv, hfields]

theorem IsPlain.isReadBack {v : Json} (h : v.IsPlain) : v.IsReadBack := by
  induction h with
  | int hv => exact isReadBack_int hv
  | null =>
    rintro (_ | steps) rest hsteps -
    · simp [chars] at hsteps
    · simp (disch := decide) [chars, readValue, skipSpace_cons]
  | bool b =>
    rintro (_ | steps) rest hsteps -
    · cases b <;> simp [chars] at hsteps
    · cases b
      · simp (disch := decide) [chars, readValue, skipSpace_cons]
      · simp (disch := decide) [chars, readValue, skipSpace_cons]
  | str s =>
    rintro (_ | steps) rest hsteps -
    · simp [chars, quote] at hsteps
    · simp (disch := decide) [chars, quote, readValue, skipSpace_cons, readString_quote]
  | @arr items hitems ih =>
    rintro (_ | steps) rest hsteps -
    · cases items <;> simp [chars] at hsteps
    cases items with
    | nil =>
      simp (disch := decide) [chars, readValue, skipSpace_cons]
    | cons v items =>
      have hread := readItems_chars ih steps rest (by simp [chars] at hsteps ⊢; omega)
      obtain ⟨c, cs, hcons, hspace, hbracket⟩ := (hitems v List.mem_cons_self).exists_cons_chars
      rw [hcons, List.cons_append] at hread
      simp (disch := decide) only [chars, List.cons_append, List.append_assoc, readValue, hcons,
        skipSpace_cons, skipSpace_cons hspace]
      split
      · next h => exact absurd (List.cons.inj h).1 hbracket
      · rw [hread]
  | @obj fields hfields ih =>
    rintro (_ | steps) rest hsteps -
    · cases fields <;> simp [chars] at hsteps
    cases fields with
    | nil =>
      simp (disch := decide) [chars, readValue, skipSpace_cons]
    | cons field fields =>
      obtain ⟨name, v⟩ := field
      have hread := readFields_chars ih steps rest (by simp [chars] at hsteps ⊢; omega)
      simp only [quote, List.cons_append, List.append_assoc, List.nil_append] at hread
      simp (disch := decide) only [chars, quote, List.cons_append, List.append_assoc,
        List.nil_append, readValue, skipSpace_cons, hread]
      rfl

/-- A value is read back from its text, and nothing follows it. -/
theorem IsPlain.read_render {v : Json} (h : v.IsPlain) : read v.render = ⟨v, false⟩ := by
  have hread := h.isReadBack (2 * (chars v).length + 1) [] (Nat.le_succ _) trivial
  rw [List.append_nil] at hread
  rw [read, render, String.toList_ofList, hread]
  rfl

/-- Decoding the text of a value decodes the value. -/
theorem IsPlain.ofText_render {v : Json} (h : v.IsPlain) (d : Decoder α) :
    d.ofText v.render = d v := by
  rw [Decoder.ofText, h.read_render]
  cases d v <;> rfl

end Json

end LoanArrears
