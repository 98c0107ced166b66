import Mathlib.Data.Int.Log
import Mathlib.Data.Nat.Cast.Order.Field
import Mathlib.Data.Rat.Floor
import Mathlib.Tactic.Linarith
import Mathlib.Tactic.NormNum
import Mathlib.Tactic.Positivity
import Mathlib.Tactic.Ring
import Quire.Number.Binary64

/-!
# Rounding to the nearest double

Every nonnegative rational below the overflow threshold lies in the rounding interval of exactly
one double, and rounding finds it. The definitions compute on natural numbers; here their results
are read as rationals.
-/

namespace Quire.Binary64

/-! ### Powers of two -/

theorem cast_pow_toNat (b : Nat) {p : Int} (h : 0 ≤ p) :
    ((Nat.pow b p.toNat : Nat) : ℚ) = (b : ℚ) ^ p := by
  lift p to ℕ using h
  rw [Int.toNat_natCast, zpow_natCast]
  exact Nat.cast_pow b p

theorem cast_pow_neg_toNat (b : Nat) {p : Int} (h : ¬ 0 ≤ p) :
    ((Nat.pow b (-p).toNat : Nat) : ℚ) = ((b : ℚ) ^ p)⁻¹ := by
  rw [cast_pow_toNat b (by omega), zpow_neg]

theorem reachesPower_iff {num den : Nat} (positive : 0 < den) (power : Int) :
    reachesPower num den power = true ↔ (2 : ℚ) ^ power ≤ (num : ℚ) / den := by
  have den_pos : (0 : ℚ) < den := Nat.cast_pos.mpr positive
  have pow_pos : (0 : ℚ) < (2 : ℚ) ^ power := zpow_pos two_pos power
  unfold reachesPower
  by_cases sign : 0 ≤ power
  · rw [if_pos sign, decide_eq_true_iff, le_div_iff₀ den_pos, ← Nat.cast_le (α := ℚ),
      Nat.cast_mul, cast_pow_toNat 2 sign, mul_comm, Nat.cast_ofNat]
  · rw [if_neg sign, decide_eq_true_iff, le_div_iff₀ den_pos, ← Nat.cast_le (α := ℚ),
      Nat.cast_mul, cast_pow_neg_toNat 2 sign, Nat.cast_ofNat, ← div_eq_mul_inv,
      le_div_iff₀ pow_pos, mul_comm]

theorem log2_bounds {n : Nat} (positive : 0 < n) :
    (2 : ℚ) ^ (n.log2 : ℤ) ≤ n ∧ (n : ℚ) < 2 ^ (n.log2 + 1 : ℤ) := by
  rw [← Nat.cast_succ, zpow_natCast, zpow_natCast]
  constructor
  · exact_mod_cast Nat.log2_self_le positive.ne'
  · exact_mod_cast Nat.lt_log2_self

theorem floorLog2_bounds {num den : Nat} (num_pos : 0 < num) (den_pos : 0 < den) :
    (2 : ℚ) ^ floorLog2 num den ≤ (num : ℚ) / den ∧
      (num : ℚ) / den < (2 : ℚ) ^ (floorLog2 num den + 1) := by
  have cast_den_pos : (0 : ℚ) < den := Nat.cast_pos.mpr den_pos
  obtain ⟨num_low, num_high⟩ := log2_bounds num_pos
  obtain ⟨den_low, den_high⟩ := log2_bounds den_pos
  -- The quotient of the powers misses the quotient by a factor of two at most.
  have low : (2 : ℚ) ^ ((num.log2 : ℤ) - den.log2 - 1) ≤ (num : ℚ) / den := by
    rw [le_div_iff₀ cast_den_pos]
    calc (2 : ℚ) ^ ((num.log2 : ℤ) - den.log2 - 1) * den
        ≤ (2 : ℚ) ^ ((num.log2 : ℤ) - den.log2 - 1) * (2 : ℚ) ^ (den.log2 + 1 : ℤ) :=
          mul_le_mul_of_nonneg_left den_high.le (zpow_nonneg zero_le_two _)
      _ = (2 : ℚ) ^ (num.log2 : ℤ) := by
          rw [← zpow_add₀ two_ne_zero]
          congr 1
          omega
      _ ≤ num := num_low
  have high : (num : ℚ) / den < (2 : ℚ) ^ ((num.log2 : ℤ) - den.log2 + 1) := by
    rw [div_lt_iff₀ cast_den_pos]
    calc (num : ℚ) < (2 : ℚ) ^ (num.log2 + 1 : ℤ) := num_high
      _ = (2 : ℚ) ^ ((num.log2 : ℤ) - den.log2 + 1) * (2 : ℚ) ^ (den.log2 : ℤ) := by
          rw [← zpow_add₀ two_ne_zero]
          congr 1
          omega
      _ ≤ (2 : ℚ) ^ ((num.log2 : ℤ) - den.log2 + 1) * den :=
          mul_le_mul_of_nonneg_left den_low (zpow_nonneg zero_le_two _)
  dsimp only [floorLog2]
  split
  case isTrue reached => exact ⟨(reachesPower_iff den_pos _).mp reached, high⟩
  case isFalse missed =>
    rw [reachesPower_iff den_pos, not_le] at missed
    rw [sub_add_cancel]
    exact ⟨low, missed⟩

/-! ### Nearest integers -/

/-- A whole number nearest to `x`, and the even one of two. -/
structure NearestEven (x : ℚ) (n : Nat) : Prop where
  low : n - 1 / 2 ≤ x
  high : x ≤ n + 1 / 2
  even : x = n - 1 / 2 ∨ x = n + 1 / 2 → n % 2 = 0

theorem NearestEven.unique {x : ℚ} {m n : Nat} (hm : NearestEven x m) (hn : NearestEven x n) :
    m = n := by
  wlog order : m ≤ n generalizing m n
  · exact (this hn hm (by omega)).symm
  by_contra different
  have next : n = m + 1 := by
    have close : (n : ℚ) ≤ m + 1 := by linarith [hm.high, hn.low]
    have : n ≤ m + 1 := by exact_mod_cast close
    omega
  subst next
  -- Halfway between two neighbours, both would have to be even.
  have tie : x = m + 1 / 2 := by
    have := hn.low
    push_cast at this
    linarith [hm.high]
  have even : m % 2 = 0 := hm.even (.inr tie)
  have even_next : (m + 1) % 2 = 0 := hn.even (.inl (by rw [tie]; push_cast; ring))
  omega

theorem nearestEven_roundedQuotient (num : Nat) {den : Nat} (positive : 0 < den) :
    NearestEven ((num : ℚ) / den) (roundedQuotient num den) := by
  have cast_pos : (0 : ℚ) < den := Nat.cast_pos.mpr positive
  have split_quotient : (num : ℚ) / den = (num / den : Nat) + ((num % den : Nat) : ℚ) / den := by
    have parts : (num : ℚ) = den * (num / den : Nat) + (num % den : Nat) := by
      exact_mod_cast (Nat.div_add_mod num den).symm
    rw [div_eq_iff cast_pos.ne', add_mul, div_mul_cancel₀ _ cast_pos.ne', mul_comm]
    exact parts
  have rest_nonneg : 0 ≤ ((num % den : Nat) : ℚ) / den := by positivity
  have rest_lt : ((num % den : Nat) : ℚ) / den < 1 := by
    rw [div_lt_one cast_pos]
    exact_mod_cast Nat.mod_lt num positive
  have rest_below : 2 * (num % den) < den ↔ ((num % den : Nat) : ℚ) / den < 1 / 2 := by
    rw [div_lt_div_iff₀ cast_pos two_pos, one_mul, mul_comm]
    exact_mod_cast Iff.rfl
  have rest_half : 2 * (num % den) = den ↔ ((num % den : Nat) : ℚ) / den = 1 / 2 := by
    rw [div_eq_div_iff cast_pos.ne' two_ne_zero, one_mul, mul_comm]
    exact_mod_cast Iff.rfl
  rw [split_quotient]
  generalize ((num % den : Nat) : ℚ) / den = rest at *
  dsimp only [roundedQuotient]
  split
  case isTrue down =>
    rw [Bool.or_eq_true, Bool.and_eq_true, decide_eq_true_iff, beq_iff_eq, beq_iff_eq,
      rest_below, rest_half] at down
    constructor
    · linarith
    · rcases down with below | ⟨half, -⟩ <;> linarith
    · rintro (tie | tie)
      · linarith
      · rcases down with below | ⟨-, even⟩
        · linarith
        · exact even
  case isFalse up =>
    rw [Bool.or_eq_true, Bool.and_eq_true, decide_eq_true_iff, beq_iff_eq, beq_iff_eq,
      rest_below, rest_half, not_or, not_lt] at up
    obtain ⟨half_le, odd⟩ := up
    have next : ((num / den + 1 : Nat) : ℚ) = (num / den : Nat) + 1 := Nat.cast_succ _
    constructor
    · linarith
    · linarith
    · rintro (tie | tie)
      · have half : rest = 1 / 2 := by linarith
        have : ¬ num / den % 2 = 0 := fun even => odd ⟨half, even⟩
        omega
      · exfalso
        linarith

theorem nearestEven_roundedAt (num : Nat) {den : Nat} (positive : 0 < den) (exponent : Int) :
    NearestEven ((num : ℚ) / den / 2 ^ exponent) (roundedAt num den exponent) := by
  have power_pos : ∀ n : Nat, 0 < Nat.pow 2 n := fun n => Nat.pow_pos (by decide)
  unfold roundedAt
  by_cases sign : 0 ≤ exponent
  · have scaled := nearestEven_roundedQuotient num (Nat.mul_pos positive (power_pos exponent.toNat))
    rw [Nat.cast_mul, cast_pow_toNat 2 sign, Nat.cast_ofNat, ← div_div] at scaled
    rw [if_pos sign]
    exact scaled
  · have scaled := nearestEven_roundedQuotient (num * Nat.pow 2 (-exponent).toNat) positive
    rw [Nat.cast_mul, cast_pow_neg_toNat 2 sign, Nat.cast_ofNat, mul_div_right_comm,
      ← div_eq_mul_inv] at scaled
    rw [if_neg sign]
    exact scaled

/-! ### The intervals of the doubles -/

/-- The finite values of the format: only those with the least exponent may have a significand of
fewer than 53 bits. -/
structure Canonical (significand : Nat) (exponent : Int) : Prop where
  bounded : significand < 2 ^ 53
  least : leastExponent ≤ exponent
  greatest : exponent ≤ greatestExponent
  full : exponent ≠ leastExponent → 2 ^ 52 ≤ significand

/-- Half the way to the next double below, in units of the last place. Below a power of two the
doubles are twice as dense. -/
def halfGapBelow (significand : Nat) (exponent : Int) : ℚ :=
  if significand = 2 ^ 52 ∧ exponent ≠ leastExponent then 1 / 4 else 1 / 2

/-- The numbers that round to a double. The ends belong to an even significand. -/
structure InInterval (x : ℚ) (significand : Nat) (exponent : Int) : Prop where
  low : (significand - halfGapBelow significand exponent) * 2 ^ exponent ≤ x
  high : x ≤ (significand + 1 / 2) * 2 ^ exponent
  even : x = (significand - halfGapBelow significand exponent) * 2 ^ exponent ∨
    x = (significand + 1 / 2) * 2 ^ exponent → significand % 2 = 0

/-- The least number that rounds to infinity. -/
def overflow : ℚ := 2 ^ 1024 - 2 ^ 970

/-- `value` is the double that `x` rounds to, `x` taken with a sign. -/
inductive RoundsTo (negative : Bool) (x : ℚ) : Binary64 → Prop where
  | finite {significand : Nat} {exponent : Int} (canonical : Canonical significand exponent)
      (inside : InInterval x significand exponent) :
      RoundsTo negative x (.finite negative significand exponent)
  | infinite (large : overflow ≤ x) : RoundsTo negative x (.infinite negative)

variable {x : ℚ} {m n : Nat} {e f : Int}

theorem two_zpow_pos (p : Int) : (0 : ℚ) < 2 ^ p := zpow_pos two_pos p

theorem two_zpow_succ (p : Int) : (2 : ℚ) ^ (p + 1) = 2 * 2 ^ p := by
  rw [zpow_add_one₀ two_ne_zero, mul_comm]

theorem halfGapBelow_le (m : Nat) (e : Int) : halfGapBelow m e ≤ 1 / 2 := by
  unfold halfGapBelow
  split <;> norm_num

theorem overflow_eq : overflow = (2 ^ 53 - 1 / 2) * 2 ^ greatestExponent := by
  have top : (2 : ℚ) ^ greatestExponent = 2 ^ 971 := zpow_natCast 2 971
  have power : (2 : ℚ) ^ 1024 = 2 ^ 53 * 2 ^ 971 := by rw [← pow_add]
  have half : (2 : ℚ) ^ 971 = 2 ^ 970 * 2 := pow_succ 2 970
  unfold overflow
  rw [top, power, half]
  generalize (2 : ℚ) ^ 970 = unit
  ring

theorem InInterval.of_lt (low : (m - halfGapBelow m e) * 2 ^ e < x)
    (high : x < (m + 1 / 2) * 2 ^ e) : InInterval x m e := by
  refine ⟨low.le, high.le, ?_⟩
  rintro (tie | tie)
  · exact absurd tie low.ne'
  · exact absurd tie high.ne

/-- Every number of the interval has the significand as its nearest integer in the last place. -/
theorem InInterval.nearestEven (h : InInterval x m e) : NearestEven (x / 2 ^ e) m := by
  have pow_pos := two_zpow_pos e
  have low : m - halfGapBelow m e ≤ x / 2 ^ e := (le_div_iff₀ pow_pos).mpr h.low
  constructor
  · linarith [halfGapBelow_le m e]
  · exact (div_le_iff₀ pow_pos).mpr h.high
  · rintro (tie | tie)
    · have half : halfGapBelow m e = 1 / 2 := by linarith [halfGapBelow_le m e]
      apply h.even
      left
      rw [half, ← tie, div_mul_cancel₀ _ pow_pos.ne']
    · apply h.even
      right
      rw [← tie, div_mul_cancel₀ _ pow_pos.ne']

/-- The interval of a full significand starts no lower than that of the least one. -/
theorem InInterval.le_of_full (h : InInterval x m e) (full : 2 ^ 52 ≤ m)
    (above : e ≠ leastExponent) : (2 ^ 52 - 1 / 4) * 2 ^ e ≤ x := by
  apply le_trans _ h.low
  apply mul_le_mul_of_nonneg_right _ (two_zpow_pos e).le
  rcases full.eq_or_lt with least | greater
  · rw [← least, halfGapBelow, if_pos ⟨rfl, above⟩]
    push_cast
    linarith
  · have : ((2 ^ 52 : Nat) : ℚ) + 1 ≤ m := by exact_mod_cast greater
    push_cast at this
    linarith [halfGapBelow_le m e]

/-- The greatest significand is odd, so its interval is open. -/
theorem InInterval.lt_of_bounded (h : InInterval x m e) (bounded : m < 2 ^ 53) :
    x < (2 ^ 53 - 1 / 2) * 2 ^ e := by
  have cast_bounded : (m : ℚ) ≤ 2 ^ 53 - 1 := by
    have : (m : ℚ) + 1 ≤ (2 ^ 53 : Nat) := by exact_mod_cast bounded
    push_cast at this
    linarith
  have high_le : ((m : ℚ) + 1 / 2) * 2 ^ e ≤ (2 ^ 53 - 1 / 2) * 2 ^ e :=
    mul_le_mul_of_nonneg_right (by linarith) (two_zpow_pos e).le
  apply lt_of_le_of_ne (h.high.trans high_le)
  intro tie
  have at_high : x = (m + 1 / 2) * 2 ^ e := le_antisymm h.high (tie ▸ high_le)
  have even : m % 2 = 0 := h.even (.inr at_high)
  have greatest : (m : ℚ) = (2 ^ 53 - 1 : Nat) := by
    have := mul_right_cancel₀ (two_zpow_pos e).ne' (at_high.symm.trans tie)
    push_cast
    linarith
  have : m = 2 ^ 53 - 1 := by exact_mod_cast greatest
  omega

theorem InInterval.lt_overflow (h : InInterval x m e) (canonical : Canonical m e) :
    x < overflow := by
  have scale : (2 : ℚ) ^ e ≤ 2 ^ greatestExponent :=
    zpow_le_zpow_right₀ one_le_two canonical.greatest
  calc x < (2 ^ 53 - 1 / 2) * 2 ^ e := h.lt_of_bounded canonical.bounded
    _ ≤ (2 ^ 53 - 1 / 2) * 2 ^ greatestExponent :=
      mul_le_mul_of_nonneg_left scale (by norm_num)
    _ = overflow := overflow_eq.symm

/-- The intervals of two doubles are disjoint. -/
theorem InInterval.unique (hm : Canonical m e) (hn : Canonical n f) (inside_m : InInterval x m e)
    (inside_n : InInterval x n f) : m = n ∧ e = f := by
  wlog order : e ≤ f generalizing m n e f
  · exact (this hn hm inside_n inside_m (by omega)).imp Eq.symm Eq.symm
  rcases order.eq_or_lt with rfl | lower
  · exact ⟨inside_m.nearestEven.unique inside_n.nearestEven, rfl⟩
  · exfalso
    -- The last interval of an exponent ends where the first full one of the next starts.
    have above : f ≠ leastExponent := by
      have := hm.least
      omega
    have scale : 2 * (2 : ℚ) ^ e ≤ 2 ^ f := by
      rw [← two_zpow_succ]
      exact zpow_le_zpow_right₀ one_le_two (by omega)
    have high := inside_m.lt_of_bounded hm.bounded
    have low := inside_n.le_of_full (hn.full above) above
    linarith

theorem RoundsTo.unique {negative : Bool} {a b : Binary64} (ha : RoundsTo negative x a)
    (hb : RoundsTo negative x b) : a = b := by
  cases ha with
  | finite canonical inside =>
    cases hb with
    | finite canonical' inside' =>
      obtain ⟨rfl, rfl⟩ := InInterval.unique canonical canonical' inside inside'
      rfl
    | infinite large => exact absurd (inside.lt_overflow canonical) large.not_gt
  | infinite large =>
    cases hb with
    | finite canonical inside => exact absurd (inside.lt_overflow canonical) large.not_gt
    | infinite => rfl

/-! ### Rounding -/

theorem InInterval.of_nearestEven (nearest : NearestEven (x / 2 ^ e) n)
    (full : e = leastExponent ∨ 2 ^ 52 * 2 ^ e ≤ x) : InInterval x n e := by
  have pow_pos := two_zpow_pos e
  have low : (n - 1 / 2) * 2 ^ e ≤ x := (le_div_iff₀ pow_pos).mp nearest.low
  have high : x ≤ (n + 1 / 2) * 2 ^ e := (div_le_iff₀ pow_pos).mp nearest.high
  have even : ∀ a : ℚ, x = a * 2 ^ e → x / 2 ^ e = a := fun a same => by
    rw [same, mul_div_cancel_right₀ _ pow_pos.ne']
  by_cases least : n = 2 ^ 52 ∧ e ≠ leastExponent
  · -- The quarter below a power of two is out of reach, since the number has a full significand.
    have above : n * 2 ^ e ≤ x := by
      rw [least.1]
      push_cast
      exact full.resolve_left least.2
    have gap : halfGapBelow n e = 1 / 4 := if_pos least
    constructor
    · rw [gap]
      linarith
    · exact high
    · intro _
      rw [least.1]
      rfl
  · have gap : halfGapBelow n e = 1 / 2 := if_neg least
    constructor
    · rw [gap]
      exact low
    · exact high
    · rw [gap]
      rintro (tie | tie)
      · exact nearest.even (.inl (even _ tie))
      · exact nearest.even (.inr (even _ tie))

/-- A significand that is rounded up to 54 bits is the least one of the next exponent. -/
theorem InInterval.of_carry (nearest : NearestEven (x / 2 ^ e) (2 ^ 53)) (least : leastExponent ≤ e)
    (bound : x < 2 ^ 53 * 2 ^ e) : InInterval x (2 ^ 52) (e + 1) := by
  have low : ((2 ^ 53 : Nat) - 1 / 2) * 2 ^ e ≤ x := (le_div_iff₀ (two_zpow_pos e)).mp nearest.low
  have gap : halfGapBelow (2 ^ 52) (e + 1) = 1 / 4 := if_pos ⟨rfl, by omega⟩
  push_cast at low
  constructor
  · rw [gap, two_zpow_succ]
    push_cast
    linarith
  · rw [two_zpow_succ]
    push_cast
    linarith [two_zpow_pos e]
  · intro _
    rfl

theorem roundsTo_zero (negative : Bool) (nonneg : 0 ≤ x) (tiny : x < 2 ^ (-1075 : ℤ)) :
    RoundsTo negative x (zero negative) := by
  have half : (2 : ℚ) ^ leastExponent = 2 * 2 ^ (-1075 : ℤ) := by
    rw [← two_zpow_succ]
    rfl
  have unit_pos := two_zpow_pos (-1075)
  generalize (2 : ℚ) ^ (-1075 : ℤ) = unit at *
  apply RoundsTo.finite
  · exact ⟨by decide, le_rfl, by decide, fun different => absurd rfl different⟩
  · constructor
    · rw [halfGapBelow, if_neg (by decide), half]
      push_cast
      linarith
    · rw [half]
      push_cast
      linarith
    · intro _
      rfl

/-- Past the greatest exponent an interval is past the overflow threshold. -/
theorem roundsTo_of_inInterval (negative : Bool) (inside : InInterval x n e) (bounded : n < 2 ^ 53)
    (least : leastExponent ≤ e) (full : e ≠ leastExponent → 2 ^ 52 ≤ n) :
    RoundsTo negative x
      (if greatestExponent < e then .infinite negative else .finite negative n e) := by
  split
  case isTrue above =>
    apply RoundsTo.infinite
    have normal : e ≠ leastExponent := by
      rintro rfl
      exact absurd above (by decide)
    have scale : 2 * (2 : ℚ) ^ greatestExponent ≤ 2 ^ e := by
      rw [← two_zpow_succ]
      exact zpow_le_zpow_right₀ one_le_two above
    rw [overflow_eq]
    linarith [inside.le_of_full (full normal) normal]
  case isFalse within => exact .finite ⟨bounded, least, not_lt.mp within, full⟩ inside

theorem NearestEven.bounds (nearest : NearestEven (x / 2 ^ e) n) (bound : x < 2 ^ 53 * 2 ^ e) :
    n ≤ 2 ^ 53 ∧ (2 ^ 52 * 2 ^ e ≤ x → 2 ^ 52 ≤ n) := by
  have pow_pos := two_zpow_pos e
  constructor
  · have below : x / 2 ^ e < 2 ^ 53 := (div_lt_iff₀ pow_pos).mpr bound
    have : (n : ℚ) < (2 ^ 53 + 1 : Nat) := by
      push_cast
      linarith [nearest.low]
    have : n < 2 ^ 53 + 1 := by exact_mod_cast this
    omega
  · intro full
    have above : 2 ^ 52 ≤ x / 2 ^ e := (le_div_iff₀ pow_pos).mpr full
    have : ((2 ^ 52 : Nat) : ℚ) < (n + 1 : Nat) := by
      push_cast
      linarith [nearest.high]
    have : 2 ^ 52 < n + 1 := by exact_mod_cast this
    omega

/-- The exponent that rounding chooses leaves at most 53 bits before the point, and fewer only
where it is the least one. -/
theorem exponent_bounds {power : Int} (reached : 2 ^ power ≤ x) (missed : x < 2 ^ (power + 1)) :
    x < 2 ^ 53 * 2 ^ max leastExponent (power - 52) ∧
      (max leastExponent (power - 52) = leastExponent ∨
        2 ^ 52 * 2 ^ max leastExponent (power - 52) ≤ x) := by
  have shift : ∀ bits : ℕ, (2 : ℚ) ^ bits * 2 ^ (power - 52) = 2 ^ (power - 52 + bits) := by
    intro bits
    rw [← zpow_natCast, mul_comm, ← zpow_add₀ two_ne_zero]
  constructor
  · calc x < 2 ^ (power + 1) := missed
      _ = 2 ^ 53 * 2 ^ (power - 52) := by
        rw [shift]
        congr 1
        omega
      _ ≤ 2 ^ 53 * 2 ^ max leastExponent (power - 52) :=
        mul_le_mul_of_nonneg_left (zpow_le_zpow_right₀ one_le_two (le_max_right _ _))
          (by norm_num)
  · rcases max_choice leastExponent (power - 52) with least | same
    · exact .inl least
    · right
      rw [same, shift]
      exact (congrArg ((2 : ℚ) ^ ·) (by omega : power - 52 + (52 : ℕ) = power)).trans_le reached

theorem roundsTo_ofRatio (negative : Bool) (num : Nat) {den : Nat} (den_pos : 0 < den) :
    RoundsTo negative ((num : ℚ) / den) (ofRatio negative num den) := by
  dsimp only [ofRatio]
  by_cases none : num = 0
  · rw [if_pos none, none, Nat.cast_zero, zero_div]
    exact roundsTo_zero negative le_rfl (two_zpow_pos _)
  rw [if_neg none]
  obtain ⟨reached, missed⟩ := floorLog2_bounds (Nat.pos_of_ne_zero none) den_pos
  obtain ⟨bound, full⟩ := exponent_bounds reached missed
  have nearest := nearestEven_roundedAt num den_pos (max leastExponent (floorLog2 num den - 52))
  have least : leastExponent ≤ max leastExponent (floorLog2 num den - 52) := le_max_left _ _
  generalize max leastExponent (floorLog2 num den - 52) = e at *
  generalize roundedAt num den e = n at *
  by_cases carried : n = Nat.pow 2 53
  · rw [if_pos (beq_iff_eq.mpr carried), if_pos (beq_iff_eq.mpr carried)]
    subst carried
    exact roundsTo_of_inInterval negative (.of_carry nearest least bound) (by decide) (by omega)
      (fun _ => le_rfl)
  · rw [if_neg (mt beq_iff_eq.mp carried), if_neg (mt beq_iff_eq.mp carried)]
    obtain ⟨bounded, kept⟩ := nearest.bounds bound
    exact roundsTo_of_inInterval negative (.of_nearestEven nearest full)
      (lt_of_le_of_ne bounded carried) least (fun above => kept (full.resolve_left above))

/-! ### Decimals -/

theorem lt_pow_digitCount (n : Nat) : (n : ℚ) < 10 ^ digitCount n := by
  have count := (Nat.length_toDigits_le_iff (b := 10) (n := n) (by decide)
    Nat.length_toDigits_pos).mp le_rfl
  exact_mod_cast count

theorem pow_digitCount_le {n : Nat} (positive : 0 < n) : (10 : ℚ) ^ (digitCount n - 1) ≤ n := by
  by_contra small
  have small : n < 10 ^ (digitCount n - 1) := by exact_mod_cast not_le.mp small
  rcases Nat.eq_zero_or_pos (digitCount n - 1) with none | some
  · rw [none, pow_zero] at small
    omega
  · have := (Nat.length_toDigits_le_iff (by decide) some).mpr small
    unfold digitCount at *
    omega

/-- Decimals of this magnitude are less than half the least positive double. -/
theorem ten_pow_lt : (10 : ℚ) ^ (-331 : ℤ) < 2 ^ (-1075 : ℤ) := by
  have whole : 2 ^ 1075 < 10 ^ 331 := by decide +kernel
  have cast_whole : ((2 : ℕ) : ℚ) ^ 1075 < ((10 : ℕ) : ℚ) ^ 331 := by
    rw [← Nat.cast_pow, ← Nat.cast_pow]
    exact Nat.cast_lt.mpr whole
  rw [zpow_neg, zpow_neg, inv_lt_inv₀ (zpow_pos (by norm_num) _) (two_zpow_pos _)]
  exact cast_whole

/-- Decimals of this magnitude are past the greatest double. -/
theorem overflow_le_ten_pow : overflow ≤ 10 ^ 320 := by
  have whole : 2 ^ 1024 ≤ 10 ^ 320 := by decide +kernel
  have cast_whole : ((2 : ℕ) : ℚ) ^ 1024 ≤ ((10 : ℕ) : ℚ) ^ 320 := by
    rw [← Nat.cast_pow, ← Nat.cast_pow]
    exact Nat.cast_le.mpr whole
  exact (sub_le_self _ (pow_nonneg zero_le_two _)).trans cast_whole

theorem roundsTo_ofDecimal (negative : Bool) (digits : Nat) (power : Int) :
    RoundsTo negative ((digits : ℚ) * 10 ^ power) (ofDecimal negative digits power) := by
  have power_pos : (0 : ℚ) < 10 ^ power := zpow_pos (by norm_num) _
  have magnitude : ∀ n : ℕ, (10 : ℚ) ^ n * 10 ^ power = 10 ^ (power + n) := by
    intro n
    rw [← zpow_natCast, mul_comm, ← zpow_add₀ (by norm_num)]
  dsimp only [ofDecimal]
  by_cases none : digits = 0
  · rw [none, Nat.cast_zero, zero_mul]
    exact roundsTo_zero negative le_rfl (two_zpow_pos _)
  have positive : 0 < digits := Nat.pos_of_ne_zero none
  by_cases tiny : power + digitCount digits < -330
  · rw [if_pos (by simp [tiny])]
    apply roundsTo_zero negative (by positivity)
    calc (digits : ℚ) * 10 ^ power
        < 10 ^ digitCount digits * 10 ^ power :=
          mul_lt_mul_of_pos_right (lt_pow_digitCount digits) power_pos
      _ = 10 ^ (power + digitCount digits) := magnitude _
      _ ≤ 10 ^ (-331 : ℤ) := zpow_le_zpow_right₀ (by norm_num) (by omega)
      _ < 2 ^ (-1075 : ℤ) := ten_pow_lt
  rw [if_neg (by simp [tiny, none])]
  by_cases huge : 320 < power + digitCount digits
  · rw [if_pos huge]
    apply RoundsTo.infinite
    calc overflow ≤ 10 ^ 320 := overflow_le_ten_pow
      _ ≤ 10 ^ (power + (digitCount digits - 1 : Nat)) := by
        rw [← zpow_natCast]
        exact zpow_le_zpow_right₀ (by norm_num) (by push_cast; omega)
      _ = 10 ^ (digitCount digits - 1) * 10 ^ power := (magnitude _).symm
      _ ≤ digits * 10 ^ power :=
        mul_le_mul_of_nonneg_right (pow_digitCount_le positive) power_pos.le
  rw [if_neg huge]
  have pow_pos : ∀ n : Nat, 0 < Nat.pow 10 n := fun n => Nat.pow_pos (by decide)
  by_cases sign : 0 ≤ power
  · have rounded := roundsTo_ofRatio negative (digits * Nat.pow 10 power.toNat) Nat.one_pos
    rw [Nat.cast_mul, cast_pow_toNat 10 sign, Nat.cast_one, div_one, Nat.cast_ofNat] at rounded
    rw [if_pos sign]
    exact rounded
  · have rounded := roundsTo_ofRatio negative digits (pow_pos (-power).toNat)
    rw [cast_pow_neg_toNat 10 sign, div_inv_eq_mul, Nat.cast_ofNat] at rounded
    rw [if_neg sign]
    exact rounded

end Quire.Binary64
