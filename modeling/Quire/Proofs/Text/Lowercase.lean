import Mathlib.Data.List.Basic
import Quire.Text.Alphanumeric
import Quire.Text.Lowercase

/-!
# Lowercase of alphanumeric characters

But for `İ`, an alphanumeric character has one lowercase, which is alphanumeric and its own
lowercase. This takes a comparison of the runs with each other and with the ranges, not a look at
every code point.
-/

namespace Quire.Text

namespace CodeRanges

variable {range : Nat × Nat} {rest : CodeRanges}

theorem first_le_last (h : ascending (range :: rest) = true) : range.1 ≤ range.2 := by
  cases rest with
  | nil => simpa [ascending] using h
  | cons next rest =>
    simp only [ascending, Bool.and_eq_true, decide_eq_true_eq] at h
    exact h.1.1

theorem ascending_tail (h : ascending (range :: rest) = true) :
    ascending rest = true ∧ ∀ later ∈ rest, range.2 < later.1 := by
  induction rest generalizing range with
  | nil => exact ⟨rfl, nofun⟩
  | cons next rest ih =>
    simp only [ascending, Bool.and_eq_true, decide_eq_true_eq] at h
    obtain ⟨⟨-, gap⟩, ordered⟩ := h
    refine ⟨ordered, fun later mem => ?_⟩
    rcases List.mem_cons.mp mem with rfl | mem
    · exact gap
    · have nonempty := first_le_last ordered
      have further := (ih ordered).2 later mem
      omega

/-- Where the ranges ascend, the search does not end too early. -/
theorem contains_of_mem {ranges : CodeRanges} (h : ranges.ascending = true) (mem : range ∈ ranges)
    {code : Nat} (lower : range.1 ≤ code) (upper : code ≤ range.2) :
    ranges.contains code = true := by
  induction ranges with
  | nil => contradiction
  | cons first rest ih =>
    obtain ⟨ordered, gap⟩ := ascending_tail h
    rw [contains]
    rcases List.mem_cons.mp mem with rfl | later
    · rw [if_neg (Nat.not_lt.mpr lower), if_pos upper]
    · have nonempty := first_le_last h
      have before := gap range later
      rw [if_neg (by omega), if_neg (by omega)]
      exact ih ordered later

theorem exists_range_of_contains {ranges : CodeRanges} {code : Nat}
    (h : ranges.contains code = true) : ∃ range ∈ ranges, range.1 ≤ code ∧ code ≤ range.2 := by
  induction ranges with
  | nil => contradiction
  | cons first rest ih =>
    rw [contains] at h
    split at h
    · contradiction
    · split at h
      · exact ⟨first, List.mem_cons_self, by omega, by assumption⟩
      · obtain ⟨range, mem, inside⟩ := ih h
        exact ⟨range, List.mem_cons_of_mem _ mem, inside⟩

end CodeRanges

namespace CaseRun

def Moves (run : CaseRun) (code : Nat) : Prop :=
  run.first ≤ code ∧ code ≤ run.last ∧ (code - run.first) % run.step = 0

def lowest (run : CaseRun) : Nat := (run.first + run.offset).toNat

/-- The last code point that the run may move to. -/
def highest (run : CaseRun) : Nat := (run.last + run.offset).toNat

-- The checks below run over all pairs of runs, so they compare by the functions that the kernel
-- computes by itself.

def avoids (run : CaseRun) (first last : Nat) : Bool :=
  Nat.blt run.highest first || Nat.blt last run.lowest

/-- Whether two runs by two code points each, of which the first may be a single one, lie beside
each other like the odd and the even numbers. -/
def interleaves (run other : CaseRun) : Bool :=
  (Nat.beq run.first run.last || Nat.beq run.step 2) && Nat.beq other.step 2 &&
    !Nat.beq (run.lowest % 2) (other.first % 2)

/-- Whether all that the run moves to lies in one range. -/
def isCovered (run : CaseRun) (ranges : CodeRanges) : Bool :=
  ranges.any fun range => Nat.ble range.1 run.lowest && Nat.ble run.highest range.2

end CaseRun

theorem moves_of_findRun {runs : List CaseRun} {code : Nat} {run : CaseRun}
    (h : findRun runs code = some run) : run ∈ runs ∧ run.Moves code := by
  induction runs with
  | nil => contradiction
  | cons first rest ih =>
    rw [findRun] at h
    split at h
    · contradiction
    · split at h
      · rename_i lower inside
        obtain rfl := Option.some.inj h
        rw [Bool.and_eq_true, decide_eq_true_eq, beq_iff_eq] at inside
        exact ⟨List.mem_cons_self, Nat.not_lt.mp lower, inside⟩
      · obtain ⟨mem, moves⟩ := ih h
        exact ⟨List.mem_cons_of_mem _ mem, moves⟩

theorem findRun_eq_none {runs : List CaseRun} {code : Nat} (h : ∀ run ∈ runs, ¬ run.Moves code) :
    findRun runs code = none := by
  cases found : findRun runs code with
  | none => rfl
  | some run =>
    obtain ⟨mem, moves⟩ := moves_of_findRun found
    exact absurd moves (h run mem)

namespace CaseRun

variable {run other : CaseRun} {code : Nat}

theorem target_bounds (h : run.Moves code) :
    run.lowest ≤ (code + run.offset).toNat ∧ (code + run.offset).toNat ≤ run.highest := by
  obtain ⟨lower, upper, -⟩ := h
  rw [lowest, highest]
  omega

theorem ne_of_avoids {first last target : Nat} (h : run.avoids first last = true)
    (lower : run.lowest ≤ target) (upper : target ≤ run.highest) :
    ¬ (first ≤ target ∧ target ≤ last) := by
  rw [avoids, Bool.or_eq_true, Nat.blt_eq, Nat.blt_eq] at h
  omega

theorem not_moves_of_interleaves (h : run.interleaves other = true) (valid : 0 < run.lowest)
    (moves : run.Moves code) : ¬ other.Moves (code + run.offset).toNat := by
  rintro ⟨lower, upper, step⟩
  obtain ⟨first, last, own⟩ := moves
  simp only [interleaves, Bool.and_eq_true, Bool.or_eq_true, Bool.not_eq_true', Nat.beq_eq,
    ← Bool.not_eq_true] at h
  obtain ⟨⟨single, even⟩, parity⟩ := h
  rw [lowest] at valid parity
  rw [even] at step
  rcases single with single | even
  · omega
  · rw [even] at own
    omega

/-- What a run moves to is alphanumeric, is not `İ`, and stays where it is. -/
structure Settles (run : CaseRun) : Prop where
  valid : 0 < run.lowest
  covered : run.isCovered alphanumericRanges = true
  undotted : run.avoids 304 304 = true
  apart : ∀ other ∈ lowercaseRuns,
    (run.avoids other.first other.last || run.interleaves other) = true

theorem Settles.of_mem (mem : run ∈ lowercaseRuns) : run.Settles := by
  have places : (lowercaseRuns.all fun run => Nat.blt 0 run.lowest &&
      run.isCovered alphanumericRanges && run.avoids 304 304) = true := by
    decide +kernel
  have runs : (lowercaseRuns.all fun run => lowercaseRuns.all fun other =>
      run.avoids other.first other.last || run.interleaves other) = true := by
    decide +kernel
  have own := List.all_eq_true.mp places run mem
  rw [Bool.and_eq_true, Bool.and_eq_true, Nat.blt_eq] at own
  exact ⟨own.1.1, own.1.2, own.2, List.all_eq_true.mp (List.all_eq_true.mp runs run mem)⟩

theorem Settles.not_moves (h : run.Settles) (moves : run.Moves code)
    (mem : other ∈ lowercaseRuns) : ¬ other.Moves (code + run.offset).toNat := by
  obtain ⟨lower, upper⟩ := target_bounds moves
  rcases Bool.or_eq_true _ _ ▸ h.apart other mem with avoids | interleaves
  · exact fun again => ne_of_avoids avoids lower upper ⟨again.1, again.2.1⟩
  · exact not_moves_of_interleaves interleaves h.valid moves

theorem Settles.isAlphanumeric (h : run.Settles) (moves : run.Moves code) :
    alphanumericRanges.contains (code + run.offset).toNat = true := by
  have ascending : alphanumericRanges.ascending = true := by decide +kernel
  obtain ⟨lower, upper⟩ := target_bounds moves
  obtain ⟨range, mem, inside⟩ := List.any_eq_true.mp h.covered
  rw [Bool.and_eq_true, Nat.ble_eq, Nat.ble_eq] at inside
  exact CodeRanges.contains_of_mem ascending mem (Nat.le_trans inside.1 lower)
    (Nat.le_trans upper inside.2)

end CaseRun

/-- The lowercase of a character is one, too: no run reaches into the codes that stand for none. -/
theorem isValidChar_lowercaseCode {code : Nat} (h : code.isValidChar) :
    (lowercaseCode code).isValidChar := by
  have runs : (lowercaseRuns.all fun run => decide (run.last + run.offset < 0xD800) ||
      decide (0xDFFF < run.first + run.offset) && decide (run.last + run.offset < 0x110000)) =
        true := by
    decide +kernel
  rw [lowercaseCode]
  split
  · rename_i run found
    obtain ⟨mem, lower, upper, -⟩ := moves_of_findRun found
    have bounds := List.all_eq_true.mp runs run mem
    simp only [Bool.or_eq_true, Bool.and_eq_true, decide_eq_true_eq] at bounds
    rw [Nat.isValidChar]
    omega
  · exact h

/-- An alphanumeric character that is its own lowercase. -/
def IsSettled (c : Char) : Prop := isAlphanumeric c = true ∧ lowercase c = [c]

instance (c : Char) : Decidable (IsSettled c) := inferInstanceAs (Decidable (_ ∧ _))

theorem lowercase_settled {c : Char} (h : isAlphanumeric c = true) (other : c ≠ 'İ') :
    ∃ d, IsSettled d ∧ lowercase c = [d] := by
  rw [lowercase, if_neg other]
  refine ⟨_, ?_, rfl⟩
  have code : (Char.ofNat (lowercaseCode c.toNat)).toNat = lowercaseCode c.toNat := by
    have valid : (lowercaseCode c.toNat).isValidChar := isValidChar_lowercaseCode c.valid
    rw [Char.ofNat, dif_pos valid]
    rfl
  cases found : findRun lowercaseRuns c.toNat with
  | none =>
    have same : lowercaseCode c.toNat = c.toNat := by rw [lowercaseCode, found]
    rw [same, Char.ofNat_toNat]
    exact ⟨h, by rw [lowercase, if_neg other, same, Char.ofNat_toNat]⟩
  | some run =>
    obtain ⟨mem, moves⟩ := moves_of_findRun found
    have settles := CaseRun.Settles.of_mem mem
    have moved : lowercaseCode c.toNat = (c.toNat + run.offset).toNat := by rw [lowercaseCode, found]
    have stays : lowercaseCode (lowercaseCode c.toNat) = lowercaseCode c.toNat := by
      rw [moved, lowercaseCode, findRun_eq_none fun next => settles.not_moves moves]
    obtain ⟨lower, upper⟩ := CaseRun.target_bounds moves
    have undotted : Char.ofNat (lowercaseCode c.toNat) ≠ 'İ' := by
      intro same
      rw [same, moved] at code
      have dotted : 'İ'.toNat = 304 := rfl
      exact CaseRun.ne_of_avoids settles.undotted lower upper (by omega)
    constructor
    · rw [isAlphanumeric, code, moved]
      exact settles.isAlphanumeric moves
    · rw [lowercase, if_neg undotted, code, stays]

end Quire.Text
