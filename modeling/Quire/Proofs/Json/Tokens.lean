import Mathlib.Data.List.Basic
import Quire.Json.Reader
import Quire.Proofs.Text.Cut

/-!
# Strings and numbers in JSON texts

What is written for a string or a natural number is read back, whatever stands behind a string,
and whatever cannot go on with a number stands behind that.
-/

namespace Quire

/-! ### Numbers -/

theorem digitsValue_decimal (n : Nat) : digitsValue (decimal n).toList = n := by
  rw [decimal, String.toList_ofList]
  exact Nat.ofDigitChars_ten_toDigits

theorem decimal_eq_cons (n : Nat) : ∃ c cs, (decimal n).toList = c :: cs ∧ isDigit c = true := by
  cases front : (decimal n).toList with
  | nil =>
    rw [decimal, String.toList_ofList] at front
    exact absurd front Nat.toDigits_ne_nil
  | cons c cs =>
    refine ⟨c, cs, rfl, ?_⟩
    apply isDigit_of_mem_decimal
    rw [front]
    exact List.mem_cons_self

/-- The first digit of a positive number is not zero. -/
theorem head_toDigits_ne_zero {n : Nat} (positive : 0 < n) :
    (Nat.toDigits 10 n).head? ≠ some '0' := by
  induction n using Nat.strongRecOn with
  | _ n ih =>
    by_cases small : n < 10
    · rw [Nat.toDigits_of_lt_base small]
      intro zero
      have each : ∀ d < 10, 0 < d → [Nat.digitChar d].head? ≠ some '0' := by decide
      exact each n small positive zero
    · rw [Nat.toDigits_of_base_le (by decide) (by omega),
        List.head?_append_of_ne_nil _ Nat.toDigits_ne_nil]
      apply ih
      · omega
      · omega

namespace Json

/-- What stands behind a number and is not read as part of it. -/
def EndsNumber (rest : List Char) : Prop :=
  ∀ c ∈ rest.head?, isDigit c = false ∧ c ≠ '.' ∧ c ≠ 'e' ∧ c ≠ 'E'

theorem endsNumber_nil : EndsNumber [] := by
  intro c mem
  simp at mem

theorem readDigits?_decimal (n : Nat) {rest : List Char} (ends : EndsNumber rest) :
    readDigits? ((decimal n).toList ++ rest) = some ((decimal n).toList, rest) := by
  have digits : ∀ c ∈ (decimal n).toList, isDigit c = true := fun c => isDigit_of_mem_decimal
  have stop : ∀ c ∈ rest.head?, isDigit c = false := fun c first => (ends c first).1
  obtain ⟨c, cs, front, -⟩ := decimal_eq_cons n
  unfold readDigits?
  rw [takeWhile_of_stop digits stop, dropWhile_of_stop digits stop]
  simp [front]

theorem readWhole?_decimal (n : Nat) {rest : List Char} (ends : EndsNumber rest) :
    readWhole? ((decimal n).toList ++ rest) = some ((decimal n).toList, rest) := by
  have noZero : ¬ ((decimal n).toList.head? = some '0' ∧ 1 < (decimal n).toList.length) := by
    rintro ⟨zero, long⟩
    rw [decimal, String.toList_ofList] at zero long
    rcases Nat.eq_zero_or_pos n with rfl | positive
    · simp at long
    · exact head_toDigits_ne_zero positive zero
  unfold readWhole?
  rw [readDigits?_decimal n ends]
  simpa using noZero

theorem readNumber?_decimal (n : Nat) {rest : List Char} (ends : EndsNumber rest) :
    readNumber? ((decimal n).toList ++ rest) = some (.ofNat n, rest) := by
  have fraction : readFraction? rest = some ([], rest) := by
    cases rest with
    | nil => rfl
    | cons c tail =>
      have noPoint := (ends c rfl).2.1
      unfold readFraction?
      split
      · rename_i same
        exact absurd (List.cons.inj same).1 noPoint
      · rfl
  have power : readPower? rest = some ([], rest) := by
    cases rest with
    | nil => rfl
    | cons c tail =>
      obtain ⟨-, -, lower, upper⟩ := ends c rfl
      simp [readPower?, lower, upper]
  obtain ⟨c, cs, front, digit⟩ := decimal_eq_cons n
  unfold readNumber?
  split
  rename_i sign unsigned same
  split at same
  · rename_i tail negative
    rw [front, List.cons_append] at negative
    rw [(List.cons.inj negative).1] at digit
    exact absurd digit (by decide)
  · cases same
    simp [readWhole?_decimal n ends, fraction, power, ofNat]

/-! ### Strings -/

/-- A character has a short escape, is a control character written with its number, or stands for
itself. -/
theorem escapeChar_cases (c : Char) :
    (∃ e, escapeChar c = ['\\', e] ∧ e ≠ 'u' ∧ escaped? e = some c) ∨
    (c.toNat < 32 ∧
      escapeChar c = ['\\', 'u', '0', '0', hexDigit (c.toNat / 16), hexDigit (c.toNat % 16)]) ∨
    (escapeChar c = [c] ∧ c ≠ '"' ∧ c ≠ '\\' ∧ ¬ c.toNat < 32) := by
  unfold escapeChar
  split
  case h_8 noQuote noSlash _ _ _ _ _ =>
    by_cases control : c.toNat < 32
    · rw [if_pos control]
      exact .inr (.inl ⟨control, rfl⟩)
    · rw [if_neg control]
      exact .inr (.inr ⟨rfl, noQuote, noSlash, control⟩)
  all_goals exact .inl ⟨_, rfl, by decide, rfl⟩

/-- What a character of a text is read as: its number, where it is written with it. -/
def partOf (c : Char) : StringPart :=
  match escapeChar c with
  | '\\' :: 'u' :: _ => .code c.toNat
  | _ => .char c

/-- Below 32 a number of two hexadecimal digits gives the unit back. -/
theorem unit?_hexDigit :
    ∀ n < 32, unit? '0' '0' (hexDigit (n / 16)) (hexDigit (n % 16)) = some n := by
  decide

theorem readParts_escapeChar (c : Char) (parts : List StringPart) (rest : List Char) :
    readParts parts (escapeChar c ++ rest) = readParts (partOf c :: parts) rest := by
  unfold partOf
  rcases escapeChar_cases c with ⟨e, escape, notUnit, back⟩ | ⟨control, escape⟩ |
    ⟨escape, noQuote, noSlash, printable⟩
  · rw [escape]
    simp [readParts, notUnit, back]
  · rw [escape]
    simp [readParts, unit?_hexDigit _ control]
  · rw [escape]
    simp [readParts, noSlash, printable]

theorem joinParts_partOf (c : Char) (chars : List Char) (parts : List StringPart) :
    joinParts none chars (partOf c :: parts) = joinParts none (c :: chars) parts := by
  unfold partOf
  rcases escapeChar_cases c with ⟨e, escape, notUnit, -⟩ | ⟨control, escape⟩ |
    ⟨escape, -⟩
  · rw [escape]
    simp [joinParts, notUnit]
  · have low : isHighSurrogate c.toNat = false ∧ isLowSurrogate c.toNat = false := by
      simp only [isHighSurrogate, isLowSurrogate, Bool.and_eq_false_iff, decide_eq_false_iff_not]
      omega
    rw [escape]
    simp [joinParts, low]
  · rw [escape]
    simp [joinParts]

theorem readParts_escaped (cs : List Char) (parts : List StringPart) (rest : List Char) :
    readParts parts (cs.flatMap escapeChar ++ '"' :: rest) =
      some (parts.reverse ++ cs.map partOf, rest) := by
  induction cs generalizing parts with
  | nil => simp [readParts]
  | cons c cs ih =>
    rw [List.flatMap_cons, List.append_assoc, readParts_escapeChar, ih]
    simp

theorem joinParts_map_partOf (cs chars : List Char) :
    joinParts none chars (cs.map partOf) = some (chars.reverse ++ cs) := by
  induction cs generalizing chars with
  | nil => simp [joinParts]
  | cons c cs ih =>
    rw [List.map_cons, joinParts_partOf, ih]
    simp

theorem readString_escaped (text : String) (rest : List Char) :
    readString (text.toList.flatMap escapeChar ++ '"' :: rest) = some (some text, rest) := by
  simp [readString, readParts_escaped, joinParts_map_partOf]

end Json
end Quire
