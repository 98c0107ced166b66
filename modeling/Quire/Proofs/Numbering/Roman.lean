import Mathlib.Tactic.IntervalCases
import Mathlib.Tactic.Tauto
import Quire.Numbering.Counter

/-!
# Roman numerals by places

Behind its thousands, a roman numeral writes each decimal digit by itself, in three symbols of its
place. What holds of a numeral follows from what holds of the digits and where they meet.
-/

namespace Quire

def romanDigit : Char → Nat
  | 'I' => 1
  | 'V' => 5
  | 'X' => 10
  | 'L' => 50
  | 'C' => 100
  | 'D' => 500
  | 'M' => 1000
  | _ => 0

/-- The value of a roman numeral. A digit in front of a larger one is taken from it. -/
def romanValue : List Char → Nat
  | [] => 0
  | [c] => romanDigit c
  | c :: d :: rest =>
    if romanDigit c < romanDigit d then romanDigit d - romanDigit c + romanValue rest
    else romanDigit c + romanValue (d :: rest)

theorem romanDigit_le (c : Char) : romanDigit c ≤ 1000 := by
  unfold romanDigit
  split <;> decide

/-- A decimal digit in the symbols for one, five and ten of its place. -/
def romanPlace (one five ten : Char) : Nat → List Char
  | 1 => [one]
  | 2 => [one, one]
  | 3 => [one, one, one]
  | 4 => [one, five]
  | 5 => [five]
  | 6 => [five, one]
  | 7 => [five, one, one]
  | 8 => [five, one, one, one]
  | 9 => [one, ten]
  | _ => []

/-- Three decimal digits. -/
def romanDigits (hundreds tens ones : Nat) : List Char :=
  romanPlace 'C' 'D' 'M' hundreds ++ (romanPlace 'X' 'L' 'C' tens ++ romanPlace 'I' 'V' 'X' ones)

section Places

variable {c one five ten : Char} {digit : Nat}

theorem mem_romanPlace (h : c ∈ romanPlace one five ten digit) : c = one ∨ c = five ∨ c = ten := by
  unfold romanPlace at h
  split at h <;> simp at h <;> tauto

theorem head_romanPlace (h : (romanPlace one five ten digit).head? = some c) :
    c = one ∨ c = five := by
  unfold romanPlace at h
  split at h <;> simp_all

end Places

/-- Two parts count by themselves when no symbol of the first is smaller than one of the second. -/
theorem romanValue_append {a b : List Char}
    (descends : ∀ c ∈ a, ∀ d ∈ b, romanDigit d ≤ romanDigit c) :
    romanValue (a ++ b) = romanValue a + romanValue b := by
  induction a using romanValue.induct with
  | case1 => simp [romanValue]
  | case2 c =>
    cases b with
    | nil => rfl
    | cons d rest =>
      have first := descends c List.mem_cons_self d List.mem_cons_self
      change romanValue (c :: d :: rest) = romanDigit c + romanValue (d :: rest)
      rw [romanValue, if_neg (Nat.not_lt.mpr first)]
  | case3 c d rest taken ih =>
    have inside := ih fun e mem => descends e (by simp [mem])
    rw [List.cons_append, List.cons_append, romanValue, romanValue, if_pos taken, if_pos taken,
      inside, Nat.add_assoc]
  | case4 c d rest kept ih =>
    have inside := ih fun e mem => descends e (List.mem_cons_of_mem c mem)
    rw [List.cons_append, List.cons_append, romanValue, romanValue, if_neg kept, if_neg kept,
      ← List.cons_append, inside, Nat.add_assoc]

theorem romanValue_thousands (k : Nat) (rest : List Char) :
    romanValue (List.replicate k 'M' ++ rest) = 1000 * k + romanValue rest := by
  induction k with
  | zero => simp
  | succ k ih =>
    have largest : ∀ c ∈ ['M'], ∀ d ∈ List.replicate k 'M' ++ rest,
        romanDigit d ≤ romanDigit c := by
      intro c first d _
      rw [List.mem_singleton.mp first]
      exact romanDigit_le d
    rw [List.replicate_succ, List.cons_append, ← List.singleton_append, romanValue_append largest,
      ih]
    change 1000 + (1000 * k + romanValue rest) = 1000 * (k + 1) + romanValue rest
    omega

/-- A place is worth its digit, in units of the place. -/
theorem romanValue_romanPlace {one five ten : Char} {unit digit : Nat} (positive : 0 < unit)
    (symbols : romanDigit one = unit ∧ romanDigit five = 5 * unit ∧ romanDigit ten = 10 * unit)
    (small : digit < 10) : romanValue (romanPlace one five ten digit) = unit * digit := by
  obtain ⟨ones, fives, tens⟩ := symbols
  have below_five : unit < 5 * unit := by omega
  have above_five : ¬ 5 * unit < unit := by omega
  have below_ten : unit < 10 * unit := by omega
  interval_cases digit <;>
    simp [romanPlace, romanValue, ones, fives, tens, below_five, above_five, below_ten] <;> omega

theorem romanValue_romanDigits {hundreds tens ones : Nat} (h : hundreds < 10) (t : tens < 10)
    (o : ones < 10) :
    romanValue (romanDigits hundreds tens ones) = 100 * hundreds + (10 * tens + 1 * ones) := by
  have above_ones : ∀ c ∈ romanPlace 'X' 'L' 'C' tens, ∀ d ∈ romanPlace 'I' 'V' 'X' ones,
      romanDigit d ≤ romanDigit c := by
    intro c upper d lower
    rcases mem_romanPlace upper with rfl | rfl | rfl <;>
      rcases mem_romanPlace lower with rfl | rfl | rfl <;> decide
  have above_tens : ∀ c ∈ romanPlace 'C' 'D' 'M' hundreds,
      ∀ d ∈ romanPlace 'X' 'L' 'C' tens ++ romanPlace 'I' 'V' 'X' ones,
        romanDigit d ≤ romanDigit c := by
    intro c upper d lower
    rw [List.mem_append] at lower
    rcases mem_romanPlace upper with rfl | rfl | rfl <;> rcases lower with lower | lower <;>
      rcases mem_romanPlace lower with rfl | rfl | rfl <;> decide
  rw [romanDigits, romanValue_append above_tens, romanValue_append above_ones,
    romanValue_romanPlace (by decide : 0 < 100) ⟨rfl, rfl, rfl⟩ h,
    romanValue_romanPlace (by decide : 0 < 10) ⟨rfl, rfl, rfl⟩ t,
    romanValue_romanPlace (by decide : 0 < 1) ⟨rfl, rfl, rfl⟩ o]

namespace CounterStyle

theorem mem_romanText {n : Nat} {c : Char} (h : c ∈ romanText n) :
    ∃ numeral ∈ romanNumerals, c ∈ numeral.2 := by
  have written : ∀ numerals n, c ∈ romanWith numerals n → ∃ numeral ∈ numerals, c ∈ numeral.2 := by
    intro numerals
    induction numerals with
    | nil =>
      intro n none
      contradiction
    | cons numeral rest ih =>
      intro n mem
      rw [romanWith, List.mem_append] at mem
      rcases mem with first | later
      · obtain ⟨copy, copies, inside⟩ := List.mem_flatten.mp first
        obtain rfl := List.eq_of_mem_replicate copies
        exact ⟨numeral, List.mem_cons_self, inside⟩
      · obtain ⟨other, mem, inside⟩ := ih _ later
        exact ⟨other, List.mem_cons_of_mem _ mem, inside⟩
  exact written romanNumerals n h

/-- Numerals for multiples of a unit. -/
def scaled (unit : Nat) (numerals : List (Nat × List Char)) : List (Nat × List Char) :=
  numerals.map fun (amount, numeral) => (unit * amount, numeral)

/-- What the numerals leave of a number. -/
def leftover : List (Nat × List Char) → Nat → Nat
  | [], n => n
  | (amount, _) :: rest, n => leftover rest (n % amount)

/-- Numerals for multiples of a unit write the number of units. -/
theorem romanWith_scaled (unit : Nat) (numerals rest : List (Nat × List Char)) (n : Nat) :
    romanWith (scaled unit numerals ++ rest) n =
      romanWith numerals (n / unit) ++
        romanWith rest (unit * leftover numerals (n / unit) + n % unit) := by
  induction numerals generalizing n with
  | nil => exact congrArg (romanWith rest) (Nat.div_add_mod n unit).symm
  | cons numeral others ih =>
    obtain ⟨amount, sign⟩ := numeral
    change _ ++ romanWith (scaled unit others ++ rest) (n % (unit * amount)) = _
    rw [ih, Nat.mod_mul_right_div_self, Nat.mod_mul_right_mod, ← Nat.div_div_eq_div_mul, romanWith,
      leftover, List.append_assoc]

def placeNumerals (one five ten : Char) : List (Nat × List Char) :=
  [(9, [one, ten]), (5, [five]), (4, [one, five]), (1, [one])]

theorem leftover_placeNumerals (one five ten : Char) (n : Nat) :
    leftover (placeNumerals one five ten) n = 0 :=
  Nat.mod_one _

theorem romanWith_placeNumerals (one five ten : Char) :
    ∀ digit < 10, romanWith (placeNumerals one five ten) digit = romanPlace one five ten digit := by
  intro digit small
  interval_cases digit <;> rfl

theorem romanWith_place (unit : Nat) (one five ten : Char) (rest : List (Nat × List Char))
    {n : Nat} (small : n / unit < 10) :
    romanWith (scaled unit (placeNumerals one five ten) ++ rest) n =
      romanPlace one five ten (n / unit) ++ romanWith rest (n % unit) := by
  rw [romanWith_scaled, romanWith_placeNumerals one five ten _ small, leftover_placeNumerals,
    Nat.mul_zero, Nat.zero_add]

/-- A number is written place by place. -/
theorem romanText_places (n : Nat) :
    romanText n = List.replicate (n / 1000) 'M' ++
      romanDigits (n % 1000 / 100) (n % 1000 % 100 / 10) (n % 1000 % 100 % 10 / 1) := by
  have numerals : romanNumerals = (1000, ['M']) :: (scaled 100 (placeNumerals 'C' 'D' 'M') ++
      (scaled 10 (placeNumerals 'X' 'L' 'C') ++ (scaled 1 (placeNumerals 'I' 'V' 'X') ++ []))) :=
    rfl
  rw [romanText, numerals, romanWith, romanWith_place 100 _ _ _ _ (by omega),
    romanWith_place 10 _ _ _ _ (by omega), romanWith_place 1 _ _ _ _ (by omega),
    List.flatten_replicate_singleton, romanWith, List.append_nil, romanDigits]

theorem romanValue_romanText (n : Nat) : romanValue (romanText n) = n := by
  rw [romanText_places, romanValue_thousands,
    romanValue_romanDigits (by omega) (by omega) (by omega)]
  omega

end CounterStyle
end Quire
