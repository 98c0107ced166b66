import Mathlib.Data.List.Forall2
import Quire.Css.Size
import Quire.Proofs.Number.Text
import Quire.Proofs.Outcome
import Quire.Proofs.Text.Blank

/-!
# Lengths are read back

A length that was read is written as a length again, and read back as the same one. The exception
are numbers past the greatest double: they are accepted, but have no plain text.
-/

namespace Quire

/-! ### The accepted form -/

/-- `cs` is the plain number `digits * 10 ^ power` and a unit. -/
def SpellsLength (cs : List Char) (digits : Nat) (power : Int) (unit : SizeUnit) : Prop :=
  ∃ number, PlainNumber number digits power ∧ cs = number ++ unit.css.toList

def IsLength (cs : List Char) (unit : SizeUnit) : Prop :=
  ∃ digits power, SpellsLength cs digits power unit

/-- One to four lengths with single spaces between them. -/
def IsShorthand (cs : List Char) (units : List SizeUnit) : Prop :=
  ∃ parts, List.Forall₂ IsLength parts units ∧ 1 ≤ parts.length ∧ parts.length ≤ 4 ∧
    cs = [' '].intercalate parts

/-- The text is a length, white space around it aside, with a number past the greatest double. -/
def Overflows (cs : List Char) : Prop :=
  ∃ digits power unit, SpellsLength (Text.trim cs) digits power unit ∧
    Binary64.overflow ≤ (digits : ℚ) * 10 ^ power

theorem PlainNumber.digit_or_point {number : List Char} {digits : Nat} {power : Int} {c : Char}
    (plain : PlainNumber number digits power) (mem : c ∈ number) : isDigit c = true ∨ c = '.' := by
  cases plain with
  | whole whole => exact .inl (whole.digits c mem)
  | fraction whole decimals =>
    rcases List.mem_append.mp mem with inWhole | behind
    · exact .inl (whole.digits c inWhole)
    · rcases List.mem_cons.mp behind with point | inFraction
      · exact .inr point
      · exact .inl (decimals.digits c inFraction)

namespace SizeUnit

theorem head_css (unit : SizeUnit) : ∀ c ∈ unit.css.toList.head?, isDigit c = false ∧ c ≠ '.' := by
  have first : ∃ c rest, unit.css.toList = c :: rest ∧ isDigit c = false ∧ c ≠ '.' := by
    cases unit <;> exact ⟨_, _, String.toList_ofList, by decide, by decide⟩
  obtain ⟨c, rest, text, start⟩ := first
  rw [text]
  rintro d ⟨⟩
  exact start

theorem notBlank_css (unit : SizeUnit) : ∀ c ∈ unit.css.toList, Text.isBlank c = false := by
  have each : (unit.css.toList.all fun c => !Text.isBlank c) = true := by
    cases unit <;> decide +kernel
  exact fun c mem => by simpa using List.all_eq_true.mp each c mem

theorem ofCss?_css (unit : SizeUnit) : ofCss? unit.css.toList = some unit := by
  cases unit <;> decide +kernel

theorem ofCss?_eq_some {cs : List Char} {unit : SizeUnit} (h : ofCss? cs = some unit) :
    cs = unit.css.toList :=
  (beq_iff_eq.mp (List.find?_some (p := fun u : SizeUnit => u.css.toList == cs) h)).symm

end SizeUnit

theorem isBlank_of_isDigit {c : Char} (digit : isDigit c = true) : Text.isBlank c = false := by
  have each : ∀ code < 58, 48 ≤ code → Text.blankRanges.contains code = false := by decide
  obtain ⟨low, high⟩ := Bool.and_eq_true_iff.mp digit
  have low : 48 ≤ c.toNat := of_decide_eq_true low
  have high : c.toNat ≤ 57 := of_decide_eq_true high
  exact each c.toNat (by omega) low

theorem SpellsLength.notBlank {cs : List Char} {digits : Nat} {power : Int} {unit : SizeUnit}
    (h : SpellsLength cs digits power unit) : ∀ c ∈ cs, Text.isBlank c = false := by
  obtain ⟨number, plain, rfl⟩ := h
  intro c mem
  rcases List.mem_append.mp mem with inNumber | inUnit
  · rcases plain.digit_or_point inNumber with digit | rfl
    · exact isBlank_of_isDigit digit
    · decide
  · exact unit.notBlank_css c inUnit

theorem SpellsLength.ne_nil {cs : List Char} {digits : Nat} {power : Int} {unit : SizeUnit}
    (h : SpellsLength cs digits power unit) : cs ≠ [] := by
  obtain ⟨number, plain, rfl⟩ := h
  apply List.append_ne_nil_of_left_ne_nil
  cases plain with
  | whole whole => exact whole.ne_nil
  | fraction => exact List.append_ne_nil_of_right_ne_nil _ (List.cons_ne_nil _ _)

/-! ### Reading one length -/

namespace Size

theorem splitNumber?_append {number rest : List Char} {digits : Nat} {power : Int}
    (plain : PlainNumber number digits power)
    (stop : ∀ c ∈ rest.head?, isDigit c = false ∧ c ≠ '.') :
    splitNumber? (number ++ rest) = some (number, rest) := by
  have noDigit : ∀ c ∈ rest.head?, isDigit c = false := fun c mem => (stop c mem).1
  dsimp only [splitNumber?]
  cases plain with
  | whole whole =>
    rw [takeWhile_of_stop whole.digits noDigit, dropWhile_of_stop whole.digits noDigit,
      whole.isEmpty, if_neg Bool.false_ne_true]
    split
    case h_1 tail => exact absurd rfl (stop '.' rfl).2
    case h_2 => rfl
  | @fraction whole fraction digits decimals =>
    have point := not_isDigit_point (fraction ++ rest)
    rw [List.append_assoc, List.cons_append, takeWhile_of_stop digits.digits point,
      dropWhile_of_stop digits.digits point, digits.isEmpty, if_neg Bool.false_ne_true]
    change (if (List.takeWhile isDigit (fraction ++ rest)).isEmpty = true then _ else _) = _
    rw [takeWhile_of_stop decimals.digits noDigit, dropWhile_of_stop decimals.digits noDigit,
      decimals.isEmpty, if_neg Bool.false_ne_true]

theorem isDigits_takeWhile {cs : List Char} (some : ¬ (cs.takeWhile isDigit).isEmpty = true) :
    IsDigits (cs.takeWhile isDigit) :=
  ⟨mt List.isEmpty_iff.mpr some, fun _ mem => List.mem_takeWhile_imp mem⟩

theorem plainNumber_of_splitNumber? {cs number rest : List Char}
    (h : splitNumber? cs = some (number, rest)) :
    cs = number ++ rest ∧ ∃ digits power, PlainNumber number digits power := by
  have parts := List.takeWhile_append_dropWhile (p := isDigit) (l := cs)
  dsimp only [splitNumber?] at h
  split at h
  case isTrue => cases h
  case isFalse some =>
    have whole := isDigits_takeWhile some
    split at h
    case h_1 tail behind =>
      split at h
      case isTrue =>
        cases h
        exact ⟨parts.symm, _, _, .whole whole⟩
      case isFalse some' =>
        cases h
        refine ⟨?_, _, _, .fraction whole (isDigits_takeWhile some')⟩
        rw [List.append_assoc, List.cons_append, List.takeWhile_append_dropWhile, ← behind, parts]
    case h_2 =>
      cases h
      exact ⟨parts.symm, _, _, .whole whole⟩

/-- What is accepted, and the value it is given. -/
theorem readChars?_eq_some_iff {cs : List Char} {size : Size} : readChars? cs = some size ↔
    ∃ digits power, SpellsLength (Text.trim cs) digits power size.unit ∧
      size.value = .ofDecimal false digits power := by
  have value : ∀ {number : List Char} {digits : Nat} {power : Int},
      PlainNumber number digits power →
        Binary64.read? number = some (.ofDecimal false digits power) :=
    fun plain => Binary64.read?_plainNumber false plain
  unfold readChars?
  constructor
  · intro h
    obtain ⟨⟨number, unitText⟩, parts, h⟩ := Option.bind_eq_some_iff.mp h
    obtain ⟨unit, known, h⟩ := Option.bind_eq_some_iff.mp h
    obtain ⟨read, found, h⟩ := Option.bind_eq_some_iff.mp h
    obtain ⟨text, digits, power, plain⟩ := plainNumber_of_splitNumber? parts
    cases h
    rw [value plain] at found
    exact ⟨digits, power, ⟨number, plain, SizeUnit.ofCss?_eq_some known ▸ text⟩,
      (Option.some.inj found).symm⟩
  · rintro ⟨digits, power, ⟨number, plain, text⟩, same⟩
    rw [text, splitNumber?_append plain size.unit.head_css]
    change (do
      let unit ← SizeUnit.ofCss? size.unit.css.toList
      let value ← Binary64.read? number
      pure (⟨value, unit⟩ : Size)) = some size
    rw [SizeUnit.ofCss?_css, value plain, ← same]
    rfl

theorem read_eq_ok_iff {text : String} {size : Size} : read text = .ok size ↔
    readChars? text.toList = some size := by
  unfold read
  cases readChars? text.toList with
  | none => exact ⟨nofun, nofun⟩
  | some found =>
    exact ⟨fun h => congrArg some (Except.ok.inj h), fun h => congrArg _ (Option.some.inj h)⟩

/-- An accepted length is infinite exactly for a number past the greatest double. -/
theorem value_eq_infinite_iff {text : String} {size : Size} (accepted : read text = .ok size) :
    size.value = .infinite false ↔ Overflows text.toList := by
  rw [read_eq_ok_iff] at accepted
  constructor
  · intro infinite
    obtain ⟨digits, power, spelled, value⟩ := readChars?_eq_some_iff.mp accepted
    have rounds := Binary64.roundsTo_ofDecimal false digits power
    rw [← value, infinite] at rounds
    cases rounds with
    | infinite large => exact ⟨digits, power, size.unit, spelled, large⟩
  · rintro ⟨digits, power, unit, spelled, large⟩
    have same : readChars? text.toList = some ⟨.ofDecimal false digits power, unit⟩ :=
      readChars?_eq_some_iff.mpr ⟨digits, power, spelled, rfl⟩
    rw [accepted] at same
    rw [Option.some.inj same]
    exact (Binary64.roundsTo_ofDecimal false digits power).unique (.infinite large)

/-- Any other accepted length has a double of the format. -/
theorem finite_of_not_overflows {text : String} {size : Size} (accepted : read text = .ok size)
    (within : ¬ Overflows text.toList) :
    ∃ m e, Binary64.Canonical m e ∧ size.value = .finite false m e := by
  obtain ⟨digits, power, spelled, value⟩ := readChars?_eq_some_iff.mp (read_eq_ok_iff.mp accepted)
  have rounds := Binary64.roundsTo_ofDecimal false digits power
  rw [← value] at rounds
  generalize final : size.value = double at rounds
  cases rounds with
  | finite canonical inside => exact ⟨_, _, canonical, rfl⟩
  | infinite large => exact absurd ((value_eq_infinite_iff accepted).mp final) within

/-! ### Writing one length -/

/-- The text of a finite length is its number and its unit, and nothing is lost in it. -/
theorem spellsLength_css {size : Size} {m : Nat} {e : Int} (canonical : Binary64.Canonical m e)
    (finite : size.value = .finite false m e) :
    ∃ digits power, SpellsLength size.css.toList digits power size.unit ∧
      size.value = .ofDecimal false digits power := by
  obtain ⟨digits, power, plain, rounds⟩ := Binary64.plainNumber_magnitudeText canonical
  refine ⟨digits, power, ⟨_, plain, ?_⟩, ?_⟩
  · rw [css, finite, String.toList_append, Binary64.toText, String.toList_ofList]
    rfl
  · rw [finite]
    exact (rounds false).unique (Binary64.roundsTo_ofDecimal false digits power)

theorem read_css {text : String} {size : Size} (accepted : read text = .ok size)
    (within : ¬ Overflows text.toList) :
    IsLength size.css.toList size.unit ∧ read size.css = .ok size := by
  obtain ⟨m, e, canonical, finite⟩ := finite_of_not_overflows accepted within
  obtain ⟨digits, power, spelled, value⟩ := spellsLength_css canonical finite
  refine ⟨⟨digits, power, spelled⟩, ?_⟩
  rw [read_eq_ok_iff, readChars?_eq_some_iff, Text.trim_of_notBlank spelled.notBlank]
  exact ⟨digits, power, spelled, value⟩

/-- Infinity is written as a word, and the word is refused. -/
theorem css_of_overflows {text : String} {size : Size} (accepted : read text = .ok size)
    (large : Overflows text.toList) :
    size.css = "inf" ++ size.unit.css ∧ read size.css = .error ⟨size.css⟩ := by
  have infinite := (value_eq_infinite_iff accepted).mpr large
  have written : size.css = "inf" ++ size.unit.css := by
    rw [css, infinite]
    rfl
  refine ⟨written, ?_⟩
  rw [written]
  cases size.unit <;> rfl

end Size

/-! ### Shorthands -/

namespace Sizes

theorem read_eq_ok_iff {text : String} {sizes : Sizes} : read text = .ok sizes ↔
    (Text.words text.toList).map (fun word => Size.read (String.ofList word)) =
      sizes.values.map .ok ∧ 1 ≤ sizes.values.length ∧ sizes.values.length ≤ 4 := by
  rw [← mapM_eq_ok_iff]
  unfold read
  constructor
  · intro h
    obtain ⟨values, each, h⟩ := bind_eq_ok h
    split at h
    case isTrue few =>
      cases h
      rw [Bool.and_eq_true, decide_eq_true_iff, decide_eq_true_iff] at few
      exact ⟨each, few⟩
    case isFalse => cases h
  · rintro ⟨each, some, few⟩
    rw [each]
    change (if _ then _ else _) = _
    rw [if_pos (by simp [some, few])]
    rfl

theorem exists_word {text : String} {sizes : Sizes} (accepted : read text = .ok sizes) {size : Size}
    (mem : size ∈ sizes.values) :
    ∃ word ∈ Text.words text.toList, Size.read (String.ofList word) = .ok size := by
  have inValues : (.ok size : Except RefusedSize Size) ∈ sizes.values.map .ok :=
    List.mem_map.mpr ⟨size, mem, rfl⟩
  rw [← (read_eq_ok_iff.mp accepted).1] at inValues
  exact List.mem_map.mp inValues

theorem css_toList (sizes : Sizes) :
    sizes.css.toList = [' '].intercalate (sizes.values.map (·.css.toList)) := by
  rw [css, String.toList_intercalate, List.map_map]
  rfl

theorem read_css {text : String} {sizes : Sizes} (accepted : read text = .ok sizes)
    (within : ∀ word ∈ Text.words text.toList, ¬ Overflows word) :
    IsShorthand sizes.css.toList (sizes.values.map Size.unit) ∧ read sizes.css = .ok sizes := by
  have each : ∀ size ∈ sizes.values,
      IsLength size.css.toList size.unit ∧ Size.read size.css = .ok size := by
    intro size mem
    obtain ⟨word, inWords, read⟩ := exists_word accepted mem
    exact Size.read_css read (by rw [String.toList_ofList]; exact within word inWords)
  obtain ⟨-, some, few⟩ := read_eq_ok_iff.mp accepted
  constructor
  · refine ⟨sizes.values.map (·.css.toList), ?_, ?_, ?_, css_toList sizes⟩
    · rw [List.forall₂_map_left_iff, List.forall₂_map_right_iff, List.forall₂_same]
      exact fun size mem => (each size mem).1
    · rw [List.length_map]
      exact some
    · rw [List.length_map]
      exact few
  · have solid : ∀ part ∈ sizes.values.map (·.css.toList),
        part ≠ [] ∧ ∀ c ∈ part, Text.isBlank c = false := by
      intro part mem
      obtain ⟨size, inValues, rfl⟩ := List.mem_map.mp mem
      obtain ⟨digits, power, spelled⟩ := (each size inValues).1
      exact ⟨spelled.ne_nil, spelled.notBlank⟩
    have words : Text.words sizes.css.toList = sizes.values.map (·.css.toList) := by
      rw [css_toList]
      exact Text.fields_intercalate (by decide) solid
    refine read_eq_ok_iff.mpr ⟨?_, some, few⟩
    rw [words, List.map_map]
    apply List.map_congr_left
    intro size mem
    rw [Function.comp_apply, String.ofList_toList]
    exact (each size mem).2

end Sizes

/-- Lengths and shorthands whose numbers are not past the greatest double are written as lengths
and shorthands again, with the same units, and read back as the same values. -/
theorem sizes_read_back (text : String) :
    (∀ size, Size.read text = .ok size → ¬ Overflows text.toList →
      IsLength size.css.toList size.unit ∧ Size.read size.css = .ok size) ∧
    (∀ sizes, Sizes.read text = .ok sizes → (∀ word ∈ Text.words text.toList, ¬ Overflows word) →
      IsShorthand sizes.css.toList (sizes.values.map Size.unit) ∧
        Sizes.read sizes.css = .ok sizes) :=
  ⟨fun _ => Size.read_css, fun _ => Sizes.read_css⟩

theorem sizes_read_back_margin :
    (∃ size, Size.read " 1.50em" = .ok size ∧ ¬ Overflows " 1.50em".toList ∧
      IsLength size.css.toList size.unit ∧ Size.read size.css = .ok size) ∧
    (∃ sizes, Sizes.read "2cm 01.50em" = .ok sizes ∧
      (∀ word ∈ Text.words "2cm 01.50em".toList, ¬ Overflows word) ∧
      IsShorthand sizes.css.toList (sizes.values.map Size.unit) ∧
        Sizes.read sizes.css = .ok sizes) := by
  have one : Size.read " 1.50em" = .ok ⟨.finite false 6755399441055744 (-52), .em⟩ :=
    Size.read_eq_ok_iff.mpr (by decide +kernel)
  have two : Size.read "2cm" = .ok ⟨.finite false 4503599627370496 (-51), .cm⟩ :=
    Size.read_eq_ok_iff.mpr (by decide +kernel)
  have three : Size.read "01.50em" = .ok ⟨.finite false 6755399441055744 (-52), .em⟩ :=
    Size.read_eq_ok_iff.mpr (by decide +kernel)
  have within : ∀ {text : String} {size : Size}, Size.read text = .ok size →
      size.value ≠ .infinite false → ¬ Overflows text.toList :=
    fun accepted finite => mt (Size.value_eq_infinite_iff accepted).mpr finite
  have words : Text.words "2cm 01.50em".toList = ["2cm".toList, "01.50em".toList] := by
    decide +kernel
  have both : Sizes.read "2cm 01.50em" =
      .ok ⟨[⟨.finite false 4503599627370496 (-51), .cm⟩,
        ⟨.finite false 6755399441055744 (-52), .em⟩]⟩ := by
    rw [Sizes.read_eq_ok_iff, words, List.map_cons, List.map_cons, String.ofList_toList,
      String.ofList_toList, two, three]
    exact ⟨rfl, by decide, by decide⟩
  have each : ∀ word ∈ Text.words "2cm 01.50em".toList, ¬ Overflows word := by
    rw [words]
    rintro word (_ | ⟨_, _ | ⟨_, ⟨⟩⟩⟩)
    · exact within two nofun
    · exact within three nofun
  exact ⟨⟨_, one, within one nofun, (sizes_read_back _).1 _ one (within one nofun)⟩,
    ⟨_, both, each, (sizes_read_back _).2 _ both each⟩⟩

/-- A number past the greatest double is accepted, but written as a word that is no number. -/
theorem infinite_size_refused :
    ∃ size, Size.read (String.ofList ('1' :: List.replicate 400 '0' ++ "px".toList)) = .ok size ∧
      size.css = "infpx" ∧ Size.read size.css = .error ⟨"infpx"⟩ := by
  have accepted : Size.readChars? ('1' :: List.replicate 400 '0' ++ "px".toList) =
      some ⟨.infinite false, .px⟩ := by decide +kernel
  refine ⟨⟨.infinite false, .px⟩, ?_, rfl, rfl⟩
  rw [Size.read_eq_ok_iff, String.toList_ofList]
  exact accepted

end Quire
