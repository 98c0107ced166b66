import Mathlib.Data.List.TakeWhile
import Quire.Number.Text
import Quire.Proofs.Number.Shortest
import Quire.Proofs.Text.Cut

/-!
# Plain decimal numbers

Every finite double is written as a plain decimal number, digits with an optional fraction, which
rounds to the double again.
-/

namespace Quire

/-! ### Rows of digits -/

structure IsDigits (cs : List Char) : Prop where
  ne_nil : cs ≠ []
  digits : ∀ c ∈ cs, isDigit c = true

/-- `number` is a plain decimal number, and `digits * 10 ^ power` is what it denotes. -/
inductive PlainNumber : List Char → Nat → Int → Prop where
  | whole {whole : List Char} (digits : IsDigits whole) :
      PlainNumber whole (digitsValue whole) 0
  | fraction {whole fraction : List Char} (digits : IsDigits whole) (decimals : IsDigits fraction) :
      PlainNumber (whole ++ '.' :: fraction) (digitsValue (whole ++ fraction)) (-fraction.length)

theorem IsDigits.head_append {cs : List Char} (h : IsDigits cs) (rest : List Char) :
    ∀ c ∈ (cs ++ rest).head?, isDigit c = true := by
  rw [List.head?_append_of_ne_nil _ h.ne_nil]
  exact fun c first => h.digits c (List.mem_of_mem_head? first)

theorem IsDigits.isEmpty {cs : List Char} (h : IsDigits cs) : cs.isEmpty = false :=
  List.isEmpty_eq_false_iff.mpr h.ne_nil

/-- A row of digits ends at a point. -/
theorem not_isDigit_point (rest : List Char) : ∀ c ∈ ('.' :: rest).head?, isDigit c = false := by
  rintro c ⟨⟩
  rfl

theorem isDigits_zero : IsDigits ['0'] := ⟨List.cons_ne_nil _ _, List.all_eq_true.mp rfl⟩

theorem isDigit_zeros {count : Nat} : ∀ c ∈ List.replicate count '0', isDigit c = true := by
  intro c mem
  rw [(List.mem_replicate.mp mem).2]
  rfl

theorem IsDigits.append_zeros {cs : List Char} (h : IsDigits cs) (count : Nat) :
    IsDigits (cs ++ List.replicate count '0') := by
  refine ⟨List.append_ne_nil_of_left_ne_nil h.ne_nil _, fun c mem => ?_⟩
  exact (List.mem_append.mp mem).elim (h.digits c) (isDigit_zeros c)

theorem IsDigits.zeros_append {cs : List Char} (h : IsDigits cs) (count : Nat) :
    IsDigits (List.replicate count '0' ++ cs) := by
  refine ⟨List.append_ne_nil_of_right_ne_nil _ h.ne_nil, fun c mem => ?_⟩
  exact (List.mem_append.mp mem).elim (isDigit_zeros c) (h.digits c)

theorem IsDigits.take {cs : List Char} {count : Nat} (h : IsDigits cs) (positive : 0 < count) :
    IsDigits (cs.take count) := by
  refine ⟨?_, fun c mem => h.digits c (List.mem_of_mem_take mem)⟩
  rw [Ne, List.take_eq_nil_iff, not_or]
  exact ⟨positive.ne', h.ne_nil⟩

theorem IsDigits.drop {cs : List Char} {count : Nat} (h : IsDigits cs)
    (within : count < cs.length) : IsDigits (cs.drop count) := by
  refine ⟨?_, fun c mem => h.digits c (List.mem_of_mem_drop mem)⟩
  rw [Ne, List.drop_eq_nil_iff, not_le]
  exact within

theorem digitsValue_append_zeros (cs : List Char) (count : Nat) :
    digitsValue (cs ++ List.replicate count '0') = digitsValue cs * 10 ^ count := by
  unfold digitsValue
  rw [List.foldl_append]
  generalize cs.foldl _ 0 = n
  induction count generalizing n with
  | zero => exact (Nat.mul_one n).symm
  | succ count ih =>
    rw [List.replicate_succ, List.foldl_cons, ih, Nat.pow_succ']
    change (10 * n + 0) * 10 ^ count = n * (10 * 10 ^ count)
    ring

theorem digitsValue_zeros_append (count : Nat) (cs : List Char) :
    digitsValue (List.replicate count '0' ++ cs) = digitsValue cs := by
  have zeros := digitsValue_append_zeros [] count
  unfold digitsValue at *
  rw [List.nil_append, List.foldl_nil, Nat.zero_mul] at zeros
  rw [List.foldl_append, zeros]

namespace Binary64

/-! ### Reading -/

theorem splitSign_signText (negative : Bool) {body : List Char}
    (first : ∀ c ∈ body.head?, isDigit c = true) :
    splitSign (signText negative ++ body) = (negative, body) := by
  cases negative with
  | true => rfl
  | false =>
    change splitSign body = (false, body)
    unfold splitSign
    split
    case h_1 => exact absurd (first '-' rfl) (by decide)
    case h_2 => exact absurd (first '+' rfl) (by decide)
    case h_3 => rfl

theorem read?_plainNumber (negative : Bool) {number : List Char} {digits : Nat} {power : Int}
    (plain : PlainNumber number digits power) :
    read? (signText negative ++ number) = some (ofDecimal negative digits power) := by
  cases plain with
  | whole digits =>
    have first := digits.head_append []
    rw [List.append_nil] at first
    have inside : number.takeWhile isDigit = number := List.takeWhile_eq_self_iff.mpr digits.digits
    have behind : number.dropWhile isDigit = [] := List.dropWhile_eq_nil_iff.mpr digits.digits
    unfold read?
    rw [splitSign_signText negative first]
    simp [inside, behind, digits.isEmpty, readExponent]
  | @fraction whole fraction digits decimals =>
    have inside := takeWhile_of_stop digits.digits (not_isDigit_point fraction)
    have behind := dropWhile_of_stop digits.digits (not_isDigit_point fraction)
    have inside' : fraction.takeWhile isDigit = fraction :=
      List.takeWhile_eq_self_iff.mpr decimals.digits
    have behind' : fraction.dropWhile isDigit = [] := List.dropWhile_eq_nil_iff.mpr decimals.digits
    unfold read?
    rw [splitSign_signText negative (digits.head_append _)]
    simp [inside, behind, inside', behind', digits.isEmpty, readExponent]

/-! ### Writing -/

theorem plainNumber_positional {shown : List Char} (h : IsDigits shown) (power : Int) :
    ∃ digits scale, PlainNumber (positional shown power) digits scale ∧
      (digits : ℚ) * 10 ^ scale = digitsValue shown * 10 ^ power := by
  have places_eq : ¬ 0 ≤ power → -((-power).toNat : Int) = power := by omega
  unfold positional
  split
  case isTrue whole =>
    refine ⟨_, _, .whole (h.append_zeros power.toNat), ?_⟩
    rw [digitsValue_append_zeros, zpow_zero, mul_one, Nat.cast_mul]
    exact congrArg _ (cast_pow_toNat 10 whole)
  case isFalse small =>
    dsimp only
    generalize (-power).toNat = places at *
    split
    case isTrue inside =>
      have whole : IsDigits (shown.take (shown.length - places)) := h.take (by omega)
      have some : 0 < places := by omega
      have fraction : IsDigits (shown.drop (shown.length - places)) := h.drop (by omega)
      refine ⟨_, _, .fraction whole fraction, ?_⟩
      rw [List.take_append_drop, List.length_drop, Nat.sub_sub_self inside.le, places_eq small]
    case isFalse outside =>
      have fraction := h.zeros_append (places - shown.length)
      have plain := PlainNumber.fraction isDigits_zero fraction
      refine ⟨_, _, plain, ?_⟩
      have value : digitsValue (['0'] ++ (List.replicate (places - shown.length) '0' ++ shown)) =
          digitsValue shown := by
        rw [← List.append_assoc]
        exact digitsValue_zeros_append (places - shown.length + 1) shown
      rw [value, List.length_append, List.length_replicate, Nat.sub_add_cancel (not_lt.mp outside),
        places_eq small]

theorem significantDigits_spec {n : Nat} (positive : 0 < n) :
    IsDigits (significantDigits n).1 ∧
      digitsValue (significantDigits n).1 * 10 ^ (significantDigits n).2 = n := by
  have parts : Nat.toDigits 10 n =
      (significantDigits n).1 ++ List.replicate (significantDigits n).2 '0' := by
    have zeros : (Nat.toDigits 10 n).reverse.takeWhile (· == '0') =
        List.replicate (significantDigits n).2 '0' :=
      List.eq_replicate_iff.mpr ⟨rfl, fun c mem =>
        beq_iff_eq.mp (List.mem_takeWhile_imp (p := (· == '0')) mem)⟩
    rw [← List.reverse_reverse (Nat.toDigits 10 n),
      ← List.takeWhile_append_dropWhile (p := (· == '0')) (l := (Nat.toDigits 10 n).reverse),
      List.reverse_append, zeros, List.reverse_replicate]
    rfl
  have value : digitsValue (significantDigits n).1 * 10 ^ (significantDigits n).2 = n := by
    rw [← digitsValue_append_zeros, ← parts]
    exact Nat.ofDigitChars_ten_toDigits
  refine ⟨⟨?_, ?_⟩, value⟩
  · intro none
    rw [none] at value
    change 0 * _ = n at value
    omega
  · intro c mem
    have : c ∈ Nat.toDigits 10 n := by
      rw [parts]
      exact List.mem_append_left _ mem
    exact Nat.isDigit_of_mem_toDigits (by decide) (by decide) this

theorem plainNumber_magnitudeText {m : Nat} {e : Int} (canonical : Canonical m e) :
    ∃ digits power, PlainNumber (magnitudeText m e) digits power ∧
      ∀ negative, RoundsTo negative ((digits : ℚ) * 10 ^ power) (.finite negative m e) := by
  unfold magnitudeText
  split
  case isTrue none =>
    have least : e = leastExponent := by
      by_contra above
      have := canonical.full above
      omega
    refine ⟨_, _, .whole isDigits_zero, fun negative => ?_⟩
    rw [none, least]
    change RoundsTo negative (((0 : Nat) : ℚ) * 10 ^ (0 : ℤ)) (zero negative)
    rw [Nat.cast_zero, zero_mul]
    exact roundsTo_zero negative le_rfl (two_zpow_pos _)
  case isFalse some =>
    have positive : 0 < m := Nat.pos_of_ne_zero some
    have found_pos := shortest_pos canonical positive
    have inside := shortest_inside canonical positive
    generalize shortest m e = found at *
    obtain ⟨found, scale⟩ := found
    obtain ⟨shown, value⟩ := significantDigits_spec found_pos
    obtain ⟨digits, power, plain, same⟩ := plainNumber_positional shown
      (scale + (significantDigits found).2)
    refine ⟨digits, power, plain, fun negative => .finite canonical ?_⟩
    rw [same, add_comm, zpow_add₀ (by norm_num), zpow_natCast, ← mul_assoc]
    have cast_value := congrArg (Nat.cast (R := ℚ)) value
    push_cast at cast_value
    rw [cast_value]
    exact inside

end Binary64
end Quire
