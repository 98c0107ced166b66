import Mathlib.Algebra.Order.Floor.Semifield
import Mathlib.Data.Rat.Floor
import Quire.Number.Shortest
import Quire.Proofs.Number.Rounding

/-!
# Shortest decimals read back

The decimal that is found for a positive double lies in the rounding interval of the double.
Seventeen digits are always enough: their grid is finer than the interval.
-/

namespace Quire.Binary64

variable {m : Nat} {e : Int}

/-! ### The interval as rationals -/

theorem den_roundingInterval_pos (m : Nat) (e : Int) : 0 < (roundingInterval m e).den :=
  Nat.pow_pos (by decide)

/-- The common scale of the numerators is a quarter of the last place. -/
theorem cast_scale (e : Int) : ((Nat.pow 2 (e - 2).toNat : Nat) : ℚ) =
    2 ^ e / 4 * (Nat.pow 2 (2 - e).toNat : Nat) := by
  have quarter : (2 : ℚ) ^ e / 4 = 2 ^ (e - 2) := by
    rw [zpow_sub₀ two_ne_zero]
    norm_num
  rw [quarter]
  by_cases sign : 0 ≤ e - 2
  · have none : (2 - e).toNat = 0 := by omega
    rw [cast_pow_toNat 2 sign, none, Nat.cast_ofNat]
    exact (mul_one _).symm
  · have none : (e - 2).toNat = 0 := by omega
    rw [none, ← neg_sub e 2, cast_pow_neg_toNat 2 sign, Nat.cast_ofNat,
      mul_inv_cancel₀ (two_zpow_pos _).ne']
    exact Nat.cast_one

theorem cast_low (e : Int) (positive : 0 < m) : ((roundingInterval m e).low : ℚ) =
    (m - halfGapBelow m e) * 2 ^ e * (roundingInterval m e).den := by
  dsimp only [roundingInterval]
  by_cases least : m = 2 ^ 52 ∧ e ≠ leastExponent
  · have below : (m == Nat.pow 2 52 && e != leastExponent) = true := by
      rw [Bool.and_eq_true, beq_iff_eq, bne_iff_ne]
      exact least
    rw [halfGapBelow, if_pos least, if_pos below, Nat.cast_mul, cast_scale,
      Nat.cast_sub (by omega)]
    push_cast
    ring
  · have below : ¬ (m == Nat.pow 2 52 && e != leastExponent) = true := by
      rw [Bool.and_eq_true, beq_iff_eq, bne_iff_ne]
      exact least
    rw [halfGapBelow, if_neg least, if_neg below, Nat.cast_mul, cast_scale,
      Nat.cast_sub (by omega)]
    push_cast
    ring

theorem cast_value (m : Nat) (e : Int) : ((roundingInterval m e).value : ℚ) =
    m * 2 ^ e * (roundingInterval m e).den := by
  dsimp only [roundingInterval]
  rw [Nat.cast_mul, cast_scale, Nat.cast_mul]
  push_cast
  ring

theorem cast_high (m : Nat) (e : Int) : ((roundingInterval m e).high : ℚ) =
    (m + 1 / 2) * 2 ^ e * (roundingInterval m e).den := by
  dsimp only [roundingInterval]
  rw [Nat.cast_mul, cast_scale]
  push_cast
  ring

theorem gridPoint_factor_pos (i : RoundingInterval) (digits : Nat) (power : Int) :
    0 < (gridPoint i digits power).2 := by
  unfold gridPoint
  split
  · exact Nat.one_pos
  · exact Nat.pow_pos (by decide)

theorem cast_gridPoint (i : RoundingInterval) (digits : Nat) (power : Int) :
    ((gridPoint i digits power).1 : ℚ) =
      digits * 10 ^ power * i.den * (gridPoint i digits power).2 := by
  unfold gridPoint
  by_cases sign : 0 ≤ power
  · rw [if_pos sign, Nat.cast_mul, Nat.cast_mul, cast_pow_toNat 10 sign, Nat.cast_ofNat,
      Nat.cast_one, mul_one]
  · have power_pos : (0 : ℚ) < 10 ^ power := zpow_pos (by norm_num) _
    rw [if_neg sign, Nat.cast_mul, cast_pow_neg_toNat 10 sign, Nat.cast_ofNat, mul_right_comm _ _
      (i.den : ℚ), mul_assoc _ (10 ^ power : ℚ), mul_inv_cancel₀ power_pos.ne', mul_one]

/-- To compare the end of an interval with a grid point is to compare the rationals. -/
theorem compare_gridPoint {i : RoundingInterval} (digits : Nat) (power : Int) {num : Nat} {a : ℚ}
    (den_pos : 0 < i.den) (same : (num : ℚ) = a * i.den) :
    (num * (gridPoint i digits power).2 ≤ (gridPoint i digits power).1 ↔
      a ≤ (digits : ℚ) * 10 ^ power) ∧
    ((gridPoint i digits power).1 ≤ num * (gridPoint i digits power).2 ↔
      (digits : ℚ) * 10 ^ power ≤ a) := by
  have factor_pos : (0 : ℚ) < (gridPoint i digits power).2 :=
    Nat.cast_pos.mpr (gridPoint_factor_pos i digits power)
  have den_pos : (0 : ℚ) < i.den := Nat.cast_pos.mpr den_pos
  constructor
  · rw [← Nat.cast_le (α := ℚ), Nat.cast_mul, cast_gridPoint, same,
      mul_le_mul_iff_left₀ factor_pos, mul_le_mul_iff_left₀ den_pos]
  · rw [← Nat.cast_le (α := ℚ), Nat.cast_mul, cast_gridPoint, same,
      mul_le_mul_iff_left₀ factor_pos, mul_le_mul_iff_left₀ den_pos]

theorem contains_iff (positive : 0 < m) (digits : Nat) (power : Int) :
    (roundingInterval m e).contains digits power = true ↔
      InInterval ((digits : ℚ) * 10 ^ power) m e := by
  obtain ⟨low_le, le_low⟩ := compare_gridPoint digits power
    (den_roundingInterval_pos m e) (cast_low e positive)
  obtain ⟨high_le, le_high⟩ := compare_gridPoint digits power
    (den_roundingInterval_pos m e) (cast_high m e)
  have closed : (roundingInterval m e).closed = true ↔ m % 2 = 0 := beq_iff_eq
  dsimp only [RoundingInterval.contains]
  by_cases even : m % 2 = 0
  · rw [if_pos (closed.mpr even), Bool.and_eq_true, decide_eq_true_iff, decide_eq_true_iff,
      low_le, le_high]
    exact ⟨fun ⟨low, high⟩ => ⟨low, high, fun _ => even⟩, fun inside => ⟨inside.low, inside.high⟩⟩
  · rw [if_neg (mt closed.mp even), Bool.and_eq_true, decide_eq_true_iff, decide_eq_true_iff,
      ← not_le, ← not_le, le_low, high_le, not_le, not_le]
    constructor
    · rintro ⟨low, high⟩
      exact .of_lt low high
    · intro inside
      have open_ends := mt inside.even even
      rw [not_or] at open_ends
      exact ⟨lt_of_le_of_ne inside.low (Ne.symm open_ends.1),
        lt_of_le_of_ne inside.high open_ends.2⟩

theorem contains_of_onGrid? {i : RoundingInterval} {power : Int} {digits : Nat}
    (found : i.onGrid? power = some digits) : i.contains digits power = true := by
  dsimp only [RoundingInterval.onGrid?] at found
  split at found
  case h_1 lower upper =>
    cases found
    split <;> assumption
  case h_2 lower upper =>
    cases found
    exact lower
  case h_3 lower upper =>
    cases found
    exact upper
  case h_4 => cases found

theorem onGrid?_ne_none {i : RoundingInterval} {power : Int}
    (some : i.contains (i.floorAt power) power = true ∨
      i.contains (i.floorAt power + 1) power = true) : i.onGrid? power ≠ none := by
  dsimp only [RoundingInterval.onGrid?]
  split
  case h_4 lower upper => simp [lower, upper] at some
  all_goals exact Option.some_ne_none _

/-- The search ends at the last of the grids it looks at, if not before. -/
theorem contains_firstGrid {i : RoundingInterval} {steps : Nat} {power : Int} {k : Nat}
    (within : k < steps) (some : i.onGrid? (power - k) ≠ none) :
    i.contains (firstGrid i steps power).1 (firstGrid i steps power).2 = true := by
  induction steps generalizing power k with
  | zero => omega
  | succ steps ih =>
    unfold firstGrid
    split
    case h_1 digits found => exact contains_of_onGrid? found
    case h_2 missed =>
      cases k with
      | zero =>
        rw [Nat.cast_zero, sub_zero] at some
        exact absurd missed some
      | succ k =>
        apply ih (Nat.lt_of_succ_lt_succ within)
        have same : power - (k + 1 : Nat) = power - 1 - k := by push_cast; ring
        rw [← same]
        exact some

/-! ### The leading digit -/

theorem floorAt_eq (m : Nat) (e power : Int) :
    (roundingInterval m e).floorAt power = ⌊(m : ℚ) * 2 ^ e / 10 ^ power⌋₊ := by
  have den_ne : ((roundingInterval m e).den : ℚ) ≠ 0 :=
    Nat.cast_ne_zero.mpr (den_roundingInterval_pos m e).ne'
  unfold RoundingInterval.floorAt
  by_cases sign : 0 ≤ power
  · rw [if_pos sign, ← Nat.floor_div_eq_div (K := ℚ), cast_value, Nat.cast_mul,
      cast_pow_toNat 10 sign, Nat.cast_ofNat, mul_comm _ (10 ^ power : ℚ),
      mul_div_mul_right _ _ den_ne]
  · rw [if_neg sign, ← Nat.floor_div_eq_div (K := ℚ), Nat.cast_mul, cast_value,
      cast_pow_neg_toNat 10 sign, Nat.cast_ofNat, mul_right_comm, mul_div_assoc,
      div_self den_ne, mul_one, ← div_eq_mul_inv]

theorem pow_leadingPower_le {steps : Nat} {power : Int}
    (low : (10 : ℚ) ^ (power - steps) ≤ m * 2 ^ e) :
    (10 : ℚ) ^ leadingPower (roundingInterval m e) steps power ≤ m * 2 ^ e := by
  induction steps generalizing power with
  | zero =>
    rw [Nat.cast_zero, sub_zero] at low
    exact low
  | succ steps ih =>
    unfold leadingPower
    split
    case isTrue leads =>
      rw [floorAt_eq, Nat.floor_pos, one_le_div (zpow_pos (by norm_num) _)] at leads
      exact leads
    case isFalse =>
      apply ih
      have same : power - (steps + 1 : Nat) = power - 1 - steps := by push_cast; ring
      rw [← same]
      exact low

/-! ### Seventeen digits -/

/-- A grid of steps below `2 ^ 53` parts of the double has a point in its interval, next to the
double below it or above it. -/
theorem neighbour_inside {step lower : ℚ} (canonical : Canonical m e)
    (fine : 10 ^ 16 * step ≤ m * 2 ^ e) (below : lower ≤ m * 2 ^ e)
    (above : m * 2 ^ e < lower + step) :
    InInterval lower m e ∨ InInterval (lower + step) m e := by
  have unit_pos := two_zpow_pos e
  by_cases least : m = 2 ^ 52 ∧ e ≠ leastExponent
  · have gap : halfGapBelow m e = 1 / 4 := if_pos least
    have value : (m : ℚ) = 2 ^ 52 := by rw [least.1]; norm_num
    right
    rw [value] at fine below above
    apply InInterval.of_lt
    · rw [gap, value]
      linarith
    · rw [value]
      linarith
  · have gap : halfGapBelow m e = 1 / 2 := if_neg least
    have bounded : (m : ℚ) * 2 ^ e < 2 ^ 53 * 2 ^ e := by
      apply mul_lt_mul_of_pos_right _ unit_pos
      exact_mod_cast canonical.bounded
    by_cases near : (m - 1 / 2) * 2 ^ e < lower
    · left
      apply InInterval.of_lt
      · rw [gap]
        exact near
      · linarith
    · right
      apply InInterval.of_lt
      · rw [gap]
        linarith
      · linarith

theorem shortest_inside (canonical : Canonical m e) (positive : 0 < m) :
    InInterval (((shortest m e).1 : ℚ) * 10 ^ (shortest m e).2) m e := by
  have one_le : (1 : ℚ) ≤ m := by exact_mod_cast positive
  have start : (10 : ℚ) ^ ((309 : ℤ) - (640 : ℕ)) ≤ m * 2 ^ e :=
    calc (10 : ℚ) ^ ((309 : ℤ) - (640 : ℕ)) ≤ 2 ^ (-1075 : ℤ) := ten_pow_lt.le
      _ ≤ 2 ^ e := by
        have := canonical.least
        unfold leastExponent at this
        exact zpow_le_zpow_right₀ one_le_two (by omega)
      _ ≤ m * 2 ^ e := le_mul_of_one_le_left (two_zpow_pos e).le one_le
  have leads := pow_leadingPower_le start
  rw [← contains_iff positive]
  dsimp only [shortest]
  generalize leadingPower (roundingInterval m e) 640 309 = lead at leads
  apply contains_firstGrid (k := 16) (by decide)
  have fine : (10 : ℚ) ^ 16 * 10 ^ (lead - (16 : ℕ)) ≤ m * 2 ^ e := by
    rw [← zpow_natCast, ← zpow_add₀ (by norm_num), add_sub_cancel]
    exact leads
  generalize lead - (16 : ℕ) = power at *
  have step_pos : (0 : ℚ) < 10 ^ power := zpow_pos (by norm_num) _
  have value_nonneg : 0 ≤ (m : ℚ) * 2 ^ e := mul_nonneg (by linarith) (two_zpow_pos e).le
  have next : (((roundingInterval m e).floorAt power + 1 : Nat) : ℚ) * 10 ^ power =
      ((roundingInterval m e).floorAt power : ℚ) * 10 ^ power + 10 ^ power := by
    rw [Nat.cast_succ, add_one_mul]
  apply onGrid?_ne_none
  rw [contains_iff positive, contains_iff positive, next]
  apply neighbour_inside canonical fine
  · rw [floorAt_eq, ← le_div_iff₀ step_pos]
    exact Nat.floor_le (div_nonneg value_nonneg step_pos.le)
  · rw [← next, floorAt_eq, ← div_lt_iff₀ step_pos, Nat.cast_succ]
    exact Nat.lt_floor_add_one _

theorem shortest_pos (canonical : Canonical m e) (positive : 0 < m) : 0 < (shortest m e).1 := by
  have one_le : (1 : ℚ) ≤ m := by exact_mod_cast positive
  have inside := (shortest_inside canonical positive).low
  apply Nat.pos_of_ne_zero
  intro none
  rw [none, Nat.cast_zero, zero_mul] at inside
  have low_pos : 0 < (m - halfGapBelow m e) * 2 ^ e :=
    mul_pos (by linarith [halfGapBelow_le m e]) (two_zpow_pos e)
  linarith

end Quire.Binary64
