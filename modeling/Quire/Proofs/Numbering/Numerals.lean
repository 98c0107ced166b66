import Mathlib.Data.List.Infix
import Mathlib.Data.List.Shortlex
import Mathlib.Tactic.Ring
import Quire.Proofs.Numbering.Counter

/-!
# Letters and roman numerals

Counting by letters goes through all words, short ones first and words of one length in
alphabetical order. Counting in roman numerals goes through the canonical ones.
-/

namespace Quire

section Letters

/-- A word over the letters from `a` to `z`. -/
def AreLetters (word : List Char) : Prop := ∀ c ∈ word, 'a' ≤ c ∧ c ≤ 'z'

/-- Shorter words come before longer ones, and words of one length in alphabetical order. -/
def ComesBefore (u v : List Char) : Prop := List.Shortlex (· < ·) u v

/-- The second word comes after the first, and no word of letters comes between them. -/
structure ComesNext (u v : List Char) : Prop where
  after : ComesBefore u v
  none_between : ∀ word, AreLetters word → ¬ (ComesBefore u word ∧ ComesBefore word v)

/-- A letter as a digit from one to twenty-six. -/
def letterDigit (c : Char) : Nat := c.toNat - 96

variable {c d : Char} {u v : List Char}

theorem AreLetters.tail (h : AreLetters (c :: u)) : AreLetters u :=
  fun _ mem => h _ (List.mem_cons_of_mem c mem)

theorem letterDigit_bounds (h : 'a' ≤ c ∧ c ≤ 'z') : 1 ≤ letterDigit c ∧ letterDigit c ≤ 26 := by
  have lower : 97 ≤ c.toNat := h.1
  have upper : c.toNat ≤ 122 := h.2
  rw [letterDigit]
  omega

theorem letterDigit_lt (h : 'a' ≤ c) (less : c < d) : letterDigit c < letterDigit d := by
  have lower : 97 ≤ c.toNat := h
  have order : c.toNat < d.toNat := less
  rw [letterDigit, letterDigit]
  omega

theorem alphaValue_cons (c : Char) (word : List Char) :
    alphaValue (c :: word) = letterDigit c * 26 ^ word.length + alphaValue word := by
  have start : ∀ (word : List Char) (value : Nat),
      word.foldl (fun value c => 26 * value + (c.toNat - 96)) value =
        value * 26 ^ word.length + alphaValue word := by
    intro word
    induction word with
    | nil => intro value; simp [alphaValue]
    | cons d rest ih =>
      intro value
      rw [alphaValue, List.foldl_cons, List.foldl_cons, ih, ih, List.length_cons, pow_succ]
      ring
  rw [alphaValue, List.foldl_cons, start, letterDigit, Nat.mul_zero, Nat.zero_add]

/-- Words of one length have less than a power of twenty-six between them. -/
theorem alphaValue_spread (hu : AreLetters u) (hv : AreLetters v) (same : u.length = v.length) :
    alphaValue u < alphaValue v + 26 ^ v.length := by
  induction u generalizing v with
  | nil =>
    obtain rfl := List.length_eq_zero_iff.mp same.symm
    decide
  | cons c u ih =>
    obtain ⟨d, v, rfl⟩ := List.exists_of_length_succ v same.symm
    have lengths : u.length = v.length := Nat.succ.inj same
    have rest := ih hu.tail hv.tail lengths
    have upper := (letterDigit_bounds (hu c List.mem_cons_self)).2
    have lower := (letterDigit_bounds (hv d List.mem_cons_self)).1
    -- the first letters are twenty-five steps apart at most, the rest less than one
    have digits : letterDigit c * 26 ^ v.length ≤ (letterDigit d + 25) * 26 ^ v.length :=
      Nat.mul_le_mul_right _ (by omega)
    rw [alphaValue_cons, alphaValue_cons, lengths, List.length_cons, pow_succ]
    rw [Nat.add_mul] at digits
    omega

theorem alphaValue_lt_of_shorter (hu : AreLetters u) (hv : AreLetters v)
    (shorter : u.length < v.length) : alphaValue u < alphaValue v := by
  induction v with
  | nil => contradiction
  | cons d v ih =>
    have lower := (letterDigit_bounds (hv d List.mem_cons_self)).1
    have power : 26 ^ v.length ≤ letterDigit d * 26 ^ v.length := Nat.le_mul_of_pos_left _ lower
    rw [alphaValue_cons]
    rcases Nat.lt_or_eq_of_le (Nat.le_of_lt_succ shorter) with less | same
    · have rest := ih hv.tail less
      omega
    · have rest := alphaValue_spread hu hv.tail same
      omega

theorem alphaValue_lt_of_lex (hu : AreLetters u) (hv : AreLetters v) (same : u.length = v.length)
    (less : List.Lex (· < ·) u v) : alphaValue u < alphaValue v := by
  induction less with
  | nil => contradiction
  | @cons c u v _ ih =>
    have lengths : u.length = v.length := Nat.succ.inj same
    have rest := ih hu.tail hv.tail lengths
    rw [alphaValue_cons, alphaValue_cons, lengths]
    omega
  | @rel c u d v less =>
    have lengths : u.length = v.length := Nat.succ.inj same
    have rest := alphaValue_spread hu.tail hv.tail lengths
    have digits := letterDigit_lt (hu c List.mem_cons_self).1 less
    have power : (letterDigit c + 1) * 26 ^ v.length ≤ letterDigit d * 26 ^ v.length :=
      Nat.mul_le_mul_right _ digits
    rw [alphaValue_cons, alphaValue_cons, lengths]
    rw [Nat.add_mul] at power
    omega

/-- Words come in the order of their values. -/
theorem comesBefore_iff (hu : AreLetters u) (hv : AreLetters v) :
    ComesBefore u v ↔ alphaValue u < alphaValue v := by
  have increases : ∀ {u v : List Char}, AreLetters u → AreLetters v → ComesBefore u v →
      alphaValue u < alphaValue v := by
    intro u v hu hv before
    rcases List.shortlex_def.mp before with shorter | ⟨same, less⟩
    · exact alphaValue_lt_of_shorter hu hv shorter
    · exact alphaValue_lt_of_lex hu hv same less
  refine ⟨increases hu hv, fun less => ?_⟩
  by_contra not_before
  have other : u ≠ v := by
    rintro rfl
    exact lt_irrefl _ less
  have after : ComesBefore v u := by
    by_contra not_after
    exact other (List.Shortlex.trichotomous.trichotomous u v not_before not_after)
  exact lt_asymm less (increases hv hu after)

theorem areLetters_alphaText (n : Nat) : AreLetters (CounterStyle.alphaText n) := by
  intro c mem
  obtain ⟨i, small, rfl⟩ := CounterStyle.mem_alphaText mem
  have code := CounterStyle.toNat_letter small
  constructor
  · change 97 ≤ (Char.ofNat (97 + i)).toNat
    omega
  · change (Char.ofNat (97 + i)).toNat ≤ 122
    omega

theorem comesNext_alphaText (n : Nat) :
    ComesNext (CounterStyle.alphaText n) (CounterStyle.alphaText (n + 1)) := by
  have here := areLetters_alphaText n
  have next := areLetters_alphaText (n + 1)
  constructor
  · rw [comesBefore_iff here next, CounterStyle.alphaValue_alphaText,
      CounterStyle.alphaValue_alphaText]
    exact Nat.lt_succ_self n
  · intro word letters
    rw [comesBefore_iff here letters, comesBefore_iff letters next,
      CounterStyle.alphaValue_alphaText, CounterStyle.alphaValue_alphaText]
    omega

end Letters

section Roman

/-- The pairs of symbols of which the first is taken from the second. -/
def subtractivePairs : List (Char × Char) :=
  [('C', 'M'), ('C', 'D'), ('X', 'C'), ('X', 'L'), ('I', 'X'), ('I', 'V')]

def romanSigns : List (List Char) :=
  ['M', 'D', 'C', 'L', 'X', 'V', 'I'].map ([·]) ++ subtractivePairs.map fun pair =>
    [pair.1, pair.2]

def neighbours (word : List Char) : List (Char × Char) := word.zip word.tail

/-- The standard form of a roman numeral. -/
structure IsCanonicalRoman (word : List Char) : Prop where
  /-- Symbols and subtractive pairs descend. -/
  ordered : ∃ signs : List (List Char), (∀ sign ∈ signs, sign ∈ romanSigns) ∧
    signs.Pairwise (fun a b => romanValue b ≤ romanValue a) ∧ word = signs.flatten
  /-- No symbol but `M` stands more than three times in a row. -/
  runs : ∀ c, c ≠ 'M' → ¬ List.replicate 4 c <:+: word
  /-- No subtractive pair stands twice. -/
  pairs : ∀ pair ∈ subtractivePairs, (neighbours word).count pair ≤ 1
  /-- Behind the thousands, each decimal digit is written by itself. -/
  places : ∃ thousands hundreds tens ones, hundreds < 10 ∧ tens < 10 ∧ ones < 10 ∧
    word = List.replicate thousands 'M' ++ romanDigits hundreds tens ones

namespace CounterStyle

def numeralsOf : List (Nat × List Char) → Nat → List (List Char)
  | [], _ => []
  | (amount, numeral) :: rest, n =>
    List.replicate (n / amount) numeral ++ numeralsOf rest (n % amount)

theorem flatten_numeralsOf (numerals : List (Nat × List Char)) (n : Nat) :
    (numeralsOf numerals n).flatten = romanWith numerals n := by
  induction numerals generalizing n with
  | nil => rfl
  | cons numeral rest ih => rw [numeralsOf, romanWith, List.flatten_append, ih]

theorem mem_numeralsOf {numerals : List (Nat × List Char)} {n : Nat} {sign : List Char}
    (h : sign ∈ numeralsOf numerals n) : ∃ numeral ∈ numerals, numeral.2 = sign := by
  induction numerals generalizing n with
  | nil => contradiction
  | cons numeral rest ih =>
    rw [numeralsOf, List.mem_append] at h
    rcases h with first | later
    · exact ⟨numeral, List.mem_cons_self, (List.eq_of_mem_replicate first).symm⟩
    · obtain ⟨other, mem, same⟩ := ih later
      exact ⟨other, List.mem_cons_of_mem _ mem, same⟩

/-- Numerals are written in the order in which they are listed. -/
theorem pairwise_numeralsOf {r : List Char → List Char → Prop} (refl : ∀ sign, r sign sign)
    {numerals : List (Nat × List Char)} (h : numerals.Pairwise fun a b => r a.2 b.2) (n : Nat) :
    (numeralsOf numerals n).Pairwise r := by
  induction numerals generalizing n with
  | nil => exact .nil
  | cons numeral rest ih =>
    rw [List.pairwise_cons] at h
    rw [numeralsOf, List.pairwise_append]
    refine ⟨List.pairwise_replicate.mpr (.inr (refl _)), ih h.2 _, fun a first b later => ?_⟩
    obtain ⟨other, mem, rfl⟩ := mem_numeralsOf later
    rw [List.eq_of_mem_replicate first]
    exact h.1 other mem

theorem ordered_romanText (n : Nat) :
    ∃ signs : List (List Char), (∀ sign ∈ signs, sign ∈ romanSigns) ∧
      signs.Pairwise (fun a b => romanValue b ≤ romanValue a) ∧ romanText n = signs.flatten := by
  have listed : ∀ numeral ∈ romanNumerals, numeral.2 ∈ romanSigns := by decide
  have descending : romanNumerals.Pairwise fun a b => romanValue b.2 ≤ romanValue a.2 := by
    decide
  refine ⟨numeralsOf romanNumerals n, fun sign written => ?_,
    pairwise_numeralsOf (fun _ => Nat.le_refl _) descending n, (flatten_numeralsOf ..).symm⟩
  obtain ⟨numeral, mem, rfl⟩ := mem_numeralsOf written
  exact listed numeral mem

section Runs

variable {c one five ten : Char} {digit : Nat}

theorem no_run_romanPlace (other : one ≠ five) :
    ¬ List.replicate 4 c <:+: romanPlace one five ten digit := by
  intro run
  have long := run.length_le
  unfold romanPlace at run long
  split at run
  case h_8 =>
    have whole : List.replicate 4 c = [five, one, one, one] := run.eq_of_length rfl
    simp only [List.replicate, List.cons.injEq] at whole
    exact other (whole.2.1.symm.trans whole.1)
  all_goals simp at long

/-- A run within two parts is within one of them, if the second part does not start with a character
of the first. -/
theorem infix_of_infix_append {k : Nat} {a b : List Char} (h : List.replicate k c <:+: a ++ b)
    (apart : c ∈ a → b.head? ≠ some c) : List.replicate k c <:+: a ∨ List.replicate k c <:+: b := by
  induction a with
  | nil => exact .inr h
  | cons x a ih =>
    rw [List.cons_append] at h
    rcases List.infix_cons_iff.mp h with first | later
    · -- the run ends in the first part, or it goes on at the start of the second
      obtain inside | ⟨rest, same⟩ := List.prefix_or_prefix_of_prefix first
        (List.prefix_append (x :: a) b)
      · exact .inl inside.isInfix
      · have all : ∀ d ∈ (x :: a) ++ rest, d = c := fun d mem => List.eq_of_mem_replicate (same ▸ mem)
        cases rest with
        | nil => exact .inl (by rw [← same, List.append_nil])
        | cons y rest =>
          obtain ⟨later, whole⟩ := first
          rw [← same, ← List.cons_append, List.append_assoc, List.append_cancel_left_eq] at whole
          have start : x = c := all x (by simp)
          have next : y = c := all y (by simp)
          refine absurd ?_ (apart (start ▸ List.mem_cons_self))
          rw [← whole, next]
          rfl
    · rcases ih later fun mem => apart (List.mem_cons_of_mem x mem) with left | right
      · exact .inl (List.infix_cons left)
      · exact .inr right

theorem no_run_romanDigits (hundreds tens ones : Nat) :
    ¬ List.replicate 4 c <:+: romanDigits hundreds tens ones := by
  intro run
  have before_ones : c ∈ romanPlace 'X' 'L' 'C' tens →
      (romanPlace 'I' 'V' 'X' ones).head? ≠ some c := by
    intro mem first
    rcases mem_romanPlace mem with rfl | rfl | rfl <;> simpa using head_romanPlace first
  have before_tens : c ∈ romanPlace 'C' 'D' 'M' hundreds →
      (romanPlace 'X' 'L' 'C' tens ++ romanPlace 'I' 'V' 'X' ones).head? ≠ some c := by
    intro mem first
    rw [List.head?_append, Option.or_eq_some_iff] at first
    rcases mem_romanPlace mem with rfl | rfl | rfl <;> rcases first with first | ⟨-, first⟩ <;>
      simpa using head_romanPlace first
  rcases infix_of_infix_append run before_tens with inside | behind
  · exact no_run_romanPlace (by decide) inside
  · rcases infix_of_infix_append behind before_ones with inside | inside
    · exact no_run_romanPlace (by decide) inside
    · exact no_run_romanPlace (by decide) inside

end Runs

section Pairs

variable {pair : Char × Char} {a b : List Char} {one five ten : Char} {digit : Nat}

theorem fst_mem_of_mem_neighbours (h : pair ∈ neighbours a) : pair.1 ∈ a :=
  (List.of_mem_zip h).1

/-- Pairs within two parts are within one of them, if the parts do not meet in such a pair. -/
theorem count_neighbours_append (apart : pair.1 ∈ a → b.head? ≠ some pair.2) :
    (neighbours (a ++ b)).count pair = (neighbours a).count pair + (neighbours b).count pair := by
  induction a with
  | nil => simp [neighbours]
  | cons x a ih =>
    have inside := ih fun mem => apart (List.mem_cons_of_mem x mem)
    cases a with
    | nil =>
      cases b with
      | nil => rfl
      | cons y b =>
        have meet : (x, y) ≠ pair := by
          rintro rfl
          exact apart List.mem_cons_self rfl
        change ((x, y) :: neighbours (y :: b)).count pair = _
        rw [List.count_cons_of_ne meet]
        exact (Nat.zero_add _).symm
    | cons z a =>
      change ((x, z) :: neighbours (z :: a ++ b)).count pair =
        ((x, z) :: neighbours (z :: a)).count pair + _
      rw [List.count_cons, List.count_cons, inside]
      omega

/-- Only the symbols for one and five stand in front of another one of their place. -/
theorem count_romanPlace_eq_zero (other : pair.1 ≠ one ∧ pair.1 ≠ five) :
    (neighbours (romanPlace one five ten digit)).count pair = 0 := by
  rw [List.count_eq_zero]
  intro mem
  unfold romanPlace neighbours at mem
  split at mem <;> simp at mem <;> grind

theorem count_romanPlace_le (other : pair.1 ≠ pair.2) :
    (neighbours (romanPlace one five ten digit)).count pair ≤ 1 := by
  have twice : (one, one) ≠ pair := by
    rintro rfl
    exact other rfl
  unfold romanPlace neighbours
  split <;> simp [List.count_cons, twice] <;> split <;> simp

/-- Tens and ones meet in no subtractive pair. -/
theorem head_ones_ne (h : pair ∈ subtractivePairs) {tens ones : Nat}
    (mem : pair.1 ∈ romanPlace 'X' 'L' 'C' tens) :
    (romanPlace 'I' 'V' 'X' ones).head? ≠ some pair.2 := by
  have starts : ∀ pair ∈ subtractivePairs, pair.2 = 'I' ∨ pair.2 = 'V' → pair.1 = 'I' := by decide
  intro first
  rw [starts pair h (head_romanPlace first)] at mem
  simpa using mem_romanPlace mem

/-- Hundreds meet in no subtractive pair with what stands behind them. -/
theorem head_tens_ones_ne (h : pair ∈ subtractivePairs) {hundreds tens ones : Nat}
    (mem : pair.1 ∈ romanPlace 'C' 'D' 'M' hundreds) :
    (romanPlace 'X' 'L' 'C' tens ++ romanPlace 'I' 'V' 'X' ones).head? ≠ some pair.2 := by
  have starts : ∀ pair ∈ subtractivePairs,
      (pair.2 = 'X' ∨ pair.2 = 'L') ∨ pair.2 = 'I' ∨ pair.2 = 'V' →
        pair.1 = 'I' ∨ pair.1 = 'X' := by
    decide
  intro first
  rw [List.head?_append, Option.or_eq_some_iff] at first
  have below := starts pair h (first.imp head_romanPlace fun first => head_romanPlace first.2)
  rcases below with below | below <;> rw [below] at mem <;> simpa using mem_romanPlace mem

/-- The digits of a numeral meet in no subtractive pair, and no pair is one of two places. -/
theorem pairs_romanDigits (h : pair ∈ subtractivePairs) (hundreds tens ones : Nat) :
    (neighbours (romanDigits hundreds tens ones)).count pair ≤ 1 := by
  have facts : ∀ pair ∈ subtractivePairs, pair.1 ≠ pair.2 ∧
      (pair.1 = 'C' ∨ pair.1 = 'X' ∨ pair.1 = 'I') := by
    decide
  obtain ⟨other, starts⟩ := facts pair h
  rw [romanDigits, count_neighbours_append (head_tens_ones_ne h),
    count_neighbours_append (head_ones_ne h)]
  rcases starts with first | first | first
  · rw [count_romanPlace_eq_zero (by simp [first] : pair.1 ≠ 'X' ∧ pair.1 ≠ 'L'),
      count_romanPlace_eq_zero (by simp [first] : pair.1 ≠ 'I' ∧ pair.1 ≠ 'V')]
    exact count_romanPlace_le other
  · rw [count_romanPlace_eq_zero (by simp [first] : pair.1 ≠ 'C' ∧ pair.1 ≠ 'D'),
      count_romanPlace_eq_zero (by simp [first] : pair.1 ≠ 'I' ∧ pair.1 ≠ 'V'), Nat.zero_add]
    exact count_romanPlace_le other
  · rw [count_romanPlace_eq_zero (by simp [first] : pair.1 ≠ 'C' ∧ pair.1 ≠ 'D'),
      count_romanPlace_eq_zero (by simp [first] : pair.1 ≠ 'X' ∧ pair.1 ≠ 'L'), Nat.zero_add,
      Nat.zero_add]
    exact count_romanPlace_le other

end Pairs

/-- Thousands do not start a run of another symbol. -/
theorem infix_behind_thousands {c : Char} (other : c ≠ 'M') {thousands : Nat} {word : List Char}
    (h : List.replicate 4 c <:+: List.replicate thousands 'M' ++ word) :
    List.replicate 4 c <:+: word := by
  induction thousands with
  | zero => simpa using h
  | succ k ih =>
    change List.replicate 4 c <:+: 'M' :: (List.replicate k 'M' ++ word) at h
    rcases List.infix_cons_iff.mp h with first | later
    · exact absurd (List.cons_prefix_cons.mp first).1 other
    · exact ih later

/-- Thousands do not start a subtractive pair. -/
theorem count_neighbours_thousands {pair : Char × Char} (h : pair ∈ subtractivePairs)
    (thousands : Nat) (word : List Char) :
    (neighbours (List.replicate thousands 'M' ++ word)).count pair =
      (neighbours word).count pair := by
  have other : ∀ pair ∈ subtractivePairs, pair.1 ≠ 'M' := by decide
  have absent : pair.1 ∉ List.replicate thousands 'M' :=
    fun mem => other pair h (List.eq_of_mem_replicate mem)
  have none : (neighbours (List.replicate thousands 'M')).count pair = 0 :=
    List.count_eq_zero.mpr fun mem => absent (fst_mem_of_mem_neighbours mem)
  rw [count_neighbours_append fun mem => absurd mem absent, none, Nat.zero_add]

theorem isCanonicalRoman_romanText (n : Nat) : IsCanonicalRoman (romanText n) := by
  have hundreds : n % 1000 / 100 < 10 := by omega
  have tens : n % 1000 % 100 / 10 < 10 := by omega
  have ones : n % 1000 % 100 % 10 / 1 < 10 := by omega
  -- what is not settled by the order is settled by the digits, and the thousands change nothing
  refine ⟨ordered_romanText n, fun c other run => ?_, fun pair mem => ?_, ?_⟩
  · rw [romanText_places] at run
    exact no_run_romanDigits _ _ _ (infix_behind_thousands other run)
  · rw [romanText_places, count_neighbours_thousands mem]
    exact pairs_romanDigits mem _ _ _
  · exact ⟨n / 1000, _, _, _, hundreds, tens, ones, romanText_places n⟩

/-- In letters, a number from one on is a word that has it as its value, and the next number is the
next word. In roman numerals it is a canonical numeral that has it as its value. -/
theorem counters_denote (n : Nat) (positive : 0 < n) :
    alphaText n ≠ [] ∧ AreLetters (alphaText n) ∧ alphaValue (alphaText n) = n ∧
      ComesNext (alphaText n) (alphaText (n + 1)) ∧
      IsCanonicalRoman (romanText n) ∧ romanValue (romanText n) = n := by
  refine ⟨?_, areLetters_alphaText n, alphaValue_alphaText n, comesNext_alphaText n,
    isCanonicalRoman_romanText n, romanValue_romanText n⟩
  rw [alphaText_positive (Nat.ne_of_gt positive)]
  simp

/-- Behind `zz` comes `aaa`. -/
theorem counters_denote_carry :
    0 < 702 ∧ alphaText 702 = ['z', 'z'] ∧ alphaText 703 = ['a', 'a', 'a'] ∧
      romanText 702 = ['D', 'C', 'C', 'I', 'I'] ∧ ComesNext ['z', 'z'] ['a', 'a', 'a'] ∧
      alphaValue ['z', 'z'] = 702 ∧ IsCanonicalRoman ['D', 'C', 'C', 'I', 'I'] ∧
      romanValue ['D', 'C', 'C', 'I', 'I'] = 702 := by
  have here : alphaText 702 = ['z', 'z'] := by simp [alphaText]
  have next : alphaText 703 = ['a', 'a', 'a'] := by simp [alphaText]
  have roman : romanText 702 = ['D', 'C', 'C', 'I', 'I'] := by decide
  obtain ⟨-, -, value, follows, canonical, denotes⟩ := counters_denote 702 (by decide)
  rw [here] at value
  rw [here, next] at follows
  rw [roman] at canonical denotes
  exact ⟨by decide, here, next, roman, follows, value, canonical, denotes⟩

end CounterStyle

end Roman

end Quire
