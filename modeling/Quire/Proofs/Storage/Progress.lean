import Mathlib.Data.List.Nodup
import Quire.Proofs.Storage.Changes
import Quire.Proofs.Text.Cut

/-!
# Progress

Operations on ordinary names in a directory that is there. Where nothing is in the way, only a name
or a path that is too long keeps them from succeeding.
-/

namespace Quire

/-- Something has a certain result, unless a name or a path is too long. -/
def Fits {α : Type} (result : Except FileFault α) (expected : α) : Prop :=
  result = .ok expected ∨ result = .error .nameTooLong

namespace Path

theorem mem_stepText {c : Char} {step : PathStep} (h : c ∈ (ofSteps.stepText step).toList) :
    c = '/' ∨ c = '.' ∨ ∃ name, step = .segment name ∧ c ∈ name.toList := by
  cases step with
  | root => exact .inl (by simpa [ofSteps.stepText] using h)
  | here => exact .inr (.inl (by simpa [ofSteps.stepText] using h))
  | parent => exact .inr (.inl (by simpa [ofSteps.stepText] using h))
  | segment name => exact .inr (.inr ⟨name, rfl, h⟩)

/-- The text of steps is made of slashes, stops and the names among them. -/
theorem mem_ofSteps {c : Char} {steps : List PathStep} (h : c ∈ (ofSteps steps).toList) :
    c = '/' ∨ c = '.' ∨ ∃ name, .segment name ∈ steps ∧ c ∈ name.toList := by
  induction steps with
  | nil => exact absurd h List.not_mem_nil
  | cons step rest ih =>
    have parts : c ∈ (ofSteps.stepText step).toList ∨ c = '/' ∨ c ∈ (ofSteps rest).toList := by
      by_cases last : rest = []
      · subst last
        exact .inl (by cases step <;> exact h)
      · obtain ⟨next, rest, rfl⟩ := List.exists_cons_of_ne_nil last
        cases step <;> simpa [ofSteps, ofSteps.stepText, or_assoc] using h
    rcases parts with own | slash | later
    · refine (mem_stepText own).imp_right (Or.imp_right ?_)
      rintro ⟨name, rfl, inside⟩
      exact ⟨name, List.mem_cons_self, inside⟩
    · exact .inl slash
    · refine (ih later).imp_right (Or.imp_right ?_)
      rintro ⟨name, listed, inside⟩
      exact ⟨name, List.mem_cons_of_mem _ listed, inside⟩

theorem mem_of_mem_pieces {c : Char} {cs piece : List Char} (h : piece ∈ pieces cs)
    (mem : c ∈ piece) : c ∈ cs := by
  induction cs generalizing piece with
  | nil =>
    obtain rfl := List.mem_singleton.mp h
    exact mem
  | cons d rest ih =>
    obtain ⟨first, others, found⟩ := List.exists_cons_of_ne_nil (pieces_ne_nil rest)
    rw [pieces, found] at h
    rw [found] at ih
    split at h
    · rcases List.mem_cons.mp h with rfl | later
      · contradiction
      · exact List.mem_cons_of_mem _ (ih later mem)
    · rcases List.mem_cons.mp h with rfl | later
      · rcases List.mem_cons.mp mem with rfl | mem
        · exact List.mem_cons_self
        · exact List.mem_cons_of_mem _ (ih List.mem_cons_self mem)
      · exact List.mem_cons_of_mem _ (ih (List.mem_cons_of_mem _ later) mem)

/-- A name on the way of a path is a piece of its text. -/
theorem mem_of_mem_walk {path name : String} {c : Char} (h : .segment name ∈ walk path)
    (mem : c ∈ name.toList) : c ∈ path.toList := by
  have spelled : .segment name ∈ spell path.toList := by
    rw [walk_eq] at h
    split at h
    · exact (List.mem_cons.mp h).resolve_left nofun
    · exact h
  obtain ⟨text, listed, same⟩ := List.mem_map.mp spelled
  rw [stepOf] at same
  split at same
  · contradiction
  · split at same
    · contradiction
    · obtain rfl := PathStep.segment.inj same
      rw [String.toList_ofList] at mem
      exact mem_of_mem_pieces (List.mem_filter.mp listed).1 mem

theorem hasTrailingSlash_join {directory name : String} (hd : directory ≠ "")
    (hn : IsOrdinary name) : hasTrailingSlash (join directory name) = false := by
  obtain ⟨front, chars, -⟩ := toList_join hd (isAbsolute_of_isOrdinary hn)
  by_contra slash
  have last : name.toList.getLast? = some '/' := by
    obtain ⟨c, rest, own⟩ := List.exists_cons_of_ne_nil (ne_empty_of_isOrdinary hn)
    rw [hasTrailingSlash, chars, own] at slash
    rw [own]
    simpa using slash
  obtain ⟨before, whole⟩ := List.getLast?_eq_some_iff.mp last
  -- the piece behind a slash at the end is empty
  have empty : [] ∈ pieces name.toList := by
    rw [whole, pieces_append_slash]
    exact List.mem_append_right _ List.mem_cons_self
  exact (hn [] empty).1 rfl

theorem namesEntry_join {directory name : String} (hd : directory ≠ "") (hn : IsOrdinary name) :
    Storage.namesEntry (join directory name) = true := by
  have last := List.getLast?_eq_some_getLast (segments_ne_nil name)
  rw [Storage.namesEntry, walk_join hd hn, List.getLast?_append, List.getLast?_map, last]
  rfl

/-- The root is the first step of an absolute path and no other step. -/
theorem root_notMem_drop_walk {path : String} {n : Nat} (h : n ≠ 0 ∨ isAbsolute path = false) :
    .root ∉ (walk path).drop n := by
  intro mem
  cases n with
  | succ n =>
    rw [← List.drop_tail] at mem
    exact root_notMem_tail_walk path (List.mem_of_mem_drop mem)
  | zero =>
    have relative := h.resolve_left fun other => other rfl
    rw [List.drop_zero, walk_eq, relative, if_neg Bool.false_ne_true] at mem
    exact (isProper_of_mem_spell mem).2 rfl

end Path

namespace Storage

variable {storage : Storage} {directory name : String} {place : Address}

theorem follow_cons_of_directory {at_ : Address} {step : PathStep} {rest : List PathStep}
    (there : storage.node? at_ = some .directory) (short : fits step) :
    storage.follow at_ (step :: rest) = storage.follow (step.leads at_) rest := by
  rw [follow.eq_def, there]
  cases step with
  | segment name => exact if_neg (Nat.not_lt.mpr short)
  | _ => rfl

/-- Names below a directory, all but the last of which are directories. -/
theorem fits_follow_segments {names : Address}
    (passes : ∀ front, front <+: names → front ≠ names →
      storage.node? (place ++ front) = some .directory) :
    Fits (storage.follow place (names.map .segment)) (place ++ names) := by
  induction names generalizing place with
  | nil => exact .inl (congrArg _ (List.append_nil place).symm)
  | cons name rest ih =>
    have here := passes [] List.nil_prefix (List.cons_ne_nil _ _).symm
    rw [List.append_nil] at here
    rw [List.map_cons]
    by_cases short : fits (.segment name)
    · rw [follow_cons_of_directory here short, ← List.singleton_append, ← List.append_assoc]
      refine ih fun front less other => ?_
      rw [PathStep.leads, List.append_assoc]
      exact passes (name :: front) (List.cons_prefix_cons.mpr ⟨rfl, less⟩)
        fun same => other (List.cons.inj same).2
    · refine .inr ?_
      rw [follow.eq_def, here]
      exact if_pos (Nat.not_le.mp short)

/-- A path that starts like the one of a directory and goes on below it. -/
theorem fits_locate {path : String} {way : List PathStep} {names : Address}
    (noNul : '\x00' ∉ path.toList) (nonempty : path ≠ "")
    (walk : Path.walk path = way ++ names.map .segment)
    (found : storage.follow (storage.origin path) way = .ok place)
    (passes : ∀ front, front <+: names → front ≠ names →
      storage.node? (place ++ front) = some .directory) :
    Fits (storage.locate path) (place ++ names) := by
  by_cases long : path.utf8ByteSize ≤ longestPath
  · rcases fits_follow_segments passes with ends | ends
    · refine .inl (locate_eq_ok_iff.mpr ⟨⟨noNul, nonempty, long⟩, ?_⟩)
      rw [walk, follow_append, found]
      exact ends
    · refine .inr ?_
      rw [locate_of_isUsable ⟨noNul, nonempty, long⟩, walk, follow_append, found]
      exact ends
  · refine .inr ?_
    rw [locate, if_neg (by simpa using noNul), if_neg (by simpa using nonempty),
      if_pos (Nat.not_le.mp long)]

section Changes

variable {path : String} {at_ : Address}

theorem fits_makeDirectory (located : Fits (storage.locate path) at_)
    (free : storage.node? at_ = none) :
    Fits (storage.makeDirectory path) (storage.put at_ .directory) := by
  rw [makeDirectory]
  rcases located with found | long
  · refine .inl ?_
    rw [found]
    dsimp only [bind, Except.bind]
    rw [free]
    rfl
  · exact .inr (by rw [long]; rfl)

theorem fits_writeBytes (located : Fits (storage.locate path) at_)
    (free : storage.node? at_ = none) (plain : Path.hasTrailingSlash path = false)
    (bytes : ByteArray) :
    Fits (storage.writeBytes path bytes) (storage.put at_ (.file bytes)) := by
  rw [writeBytes]
  rcases located with found | long
  · refine .inl ?_
    rw [found]
    dsimp only [bind, Except.bind]
    rw [free, plain]
    rfl
  · exact .inr (by rw [long]; rfl)

/-- Where there is nothing or a directory, there is a directory afterwards. -/
theorem fits_makeDirectories (nonempty : path ≠ "") (located : Fits (storage.locate path) at_)
    (free : storage.node? at_ = none ∨ storage.node? at_ = some .directory) :
    Fits ((Disk.makeDirectories path : Attempt Unit).run storage).1 () ∧
      ∀ after, (Disk.makeDirectories path : Attempt Unit).run storage = (.ok (), after) →
        after.node? at_ = some .directory := by
  have ensured :
      (∃ after, (Disk.ensureDirectory path : Attempt Unit).run storage = (.ok (), after) ∧
        after.node? at_ = some .directory) ∨
      (Disk.ensureDirectory path : Attempt Unit).run storage =
        (.error .nameTooLong, storage) := by
    rcases located with found | long
    · left
      rcases free with absent | there
      · have proper : at_ ≠ [] := by
          rintro rfl
          contradiction
        refine ⟨storage.put at_ .directory, ?_, by rw [node?_put proper, if_pos rfl]⟩
        rw [run_ensureDirectory, makeDirectory, found]
        dsimp only [bind, Except.bind]
        rw [absent]
        rfl
      · have already := isDirectory_iff.mpr ⟨at_, found, there⟩
        exact ⟨storage, ensureDirectory_of_isDirectory already, there⟩
    · right
      have refused : storage.makeDirectory path = .error .nameTooLong := by
        rw [makeDirectory, long]
        rfl
      have absent : storage.isDirectory path = false := by
        rw [← Bool.not_eq_true, isDirectory_iff]
        rintro ⟨other, found, -⟩
        rw [long] at found
        contradiction
      rw [run_ensureDirectory, refused, absent]
      rfl
  rw [makeDirectories_of_ensureDirectory nonempty]
  · rcases ensured with ⟨opened, ran, there⟩ | long
    · rw [ran]
      refine ⟨.inl rfl, fun after same => ?_⟩
      rw [← (Prod.mk.inj same).2, there]
    · rw [long]
      refine ⟨.inr rfl, fun after same => ?_⟩
      have done := (Prod.mk.inj same).1
      contradiction
  · intro missing
    rcases ensured with ⟨opened, ran, -⟩ | long
    · rw [ran] at missing
      contradiction
    · rw [long] at missing
      exact absurd (Except.error.inj missing) (by decide)

/-- An entry moves to where there is nothing. -/
theorem move_of_vacant (tree : storage.IsTree) {above below old new : String}
    {source target : Address} (named : above ≠ "" ∧ below ≠ "")
    (ordinary : Path.IsOrdinary old ∧ Path.IsOrdinary new)
    (start : storage.locate (Path.join above old) = .ok source)
    (end_ : storage.locate (Path.join below new) = .ok target)
    (there : (storage.node? source).isSome) (free : storage.node? target = none)
    (apart : isWithin source target = false) :
    storage.move (Path.join above old) (Path.join below new) =
      .ok ((storage.removeAt target).relocate source target) := by
  have other : source ≠ target := by
    rintro rfl
    rw [free] at there
    contradiction
  have empty : storage.isOccupied target = false :=
    isOccupied_eq_false_iff.mpr fun at_ inside _ => tree.vacant_within free inside
  obtain ⟨node, found⟩ := Option.isSome_iff_exists.mp there
  rw [move, start, end_]
  dsimp only [bind, Except.bind]
  rw [Path.namesEntry_join named.1 ordinary.1, Path.namesEntry_join named.2 ordinary.2, found, free]
  cases node with
  | file bytes =>
    dsimp only
    rw [Path.hasTrailingSlash_join named.1 ordinary.1,
      Path.hasTrailingSlash_join named.2 ordinary.2]
    simp [other]
    rfl
  | directory =>
    dsimp only
    rw [apart, empty]
    simp [other]
    rfl

theorem move_of_nameTooLong {old new : String} {source : Address}
    (start : storage.locate old = .ok source) (long : storage.locate new = .error .nameTooLong) :
    storage.move old new = .error .nameTooLong := by
  rw [move, start, long]
  rfl

/-- Something is at a path where its way ends at an entry. -/
theorem contains_eq_isSome (located : storage.locate path = .ok at_)
    (plain : Path.hasTrailingSlash path = false) :
    storage.contains path = (storage.node? at_).isSome := by
  rw [contains, find, located]
  dsimp only [bind, Except.bind]
  cases storage.node? at_ with
  | none => rfl
  | some node =>
    cases node with
    | directory => rfl
    | file bytes =>
      rw [plain]
      rfl

end Changes

/-- The way of a path never enters an address. -/
def Avoids (storage : Storage) (path : String) (at_ : Address) : Prop :=
  ∀ front, front <+: Path.walk path →
    isWithin at_ (Path.leads (storage.origin path) front) = false

/-- A way that never goes up enters no address but those that its end lies in. -/
theorem avoids_of_down {path : String} {at_ : Address} (down : .parent ∉ Path.walk path)
    (outside : isWithin at_ (storage.target path) = false) : storage.Avoids path at_ := by
  intro front less
  by_contra inside
  rw [Bool.not_eq_false] at inside
  by_cases later : front.length ≠ 0 ∨ Path.isAbsolute path = false
  · have above := Path.leads_isWithin (storage.origin path) less down
      (Path.root_notMem_drop_walk later)
    rw [← target] at above
    rw [isWithin_trans inside above] at outside
    contradiction
  · -- an absolute path starts at the root, which lies in no other address
    rw [not_or, not_not, Bool.not_eq_false] at later
    obtain rfl := List.length_eq_zero_iff.mp later.1
    rw [origin, if_pos later.2, isWithin_iff] at inside
    rw [List.prefix_nil.mp inside] at outside
    contradiction

section Below

variable (found : storage.locate directory = .ok place) (ordinary : Path.IsOrdinary name)
  (noNul : '\x00' ∉ name.toList)

include found ordinary noNul

theorem nul_notMem_join : '\x00' ∉ (Path.join directory name).toList := by
  have usable := (locate_eq_ok_iff.mp found).1
  obtain ⟨front, chars, whole⟩ :=
    Path.toList_join usable.2.1 (Path.isAbsolute_of_isOrdinary ordinary)
  rw [chars, List.mem_append, List.mem_cons]
  rintro (mem | mem | mem)
  · rcases whole with same | same
    · exact usable.1 (same ▸ mem)
    · exact usable.1 (same ▸ List.mem_append_left _ mem)
  · contradiction
  · exact noNul mem

/-- The way to an ordinary name below a directory. -/
theorem fits_locate_join
    (passes : ∀ front, front <+: Path.segments name → front ≠ Path.segments name →
      storage.node? (place ++ front) = some .directory) :
    Fits (storage.locate (Path.join directory name)) (place ++ Path.segments name) := by
  obtain ⟨usable, way⟩ := locate_eq_ok_iff.mp found
  have whole := Path.walk_join usable.2.1 ordinary
  have nonempty : Path.join directory name ≠ "" := by
    intro empty
    rw [empty] at whole
    have names : [] = (Path.segments name).map PathStep.segment :=
      (List.append_eq_nil_iff.mp whole.symm).2.symm
    simp [Path.segments_ne_nil] at names
  have clean := nul_notMem_join found ordinary noNul
  refine fits_locate clean nonempty whole ?_ passes
  rw [origin_join found ordinary]
  exact way

theorem fits_locate_single (there : storage.node? place = some .directory)
    (single : Path.segments name = [name]) :
    Fits (storage.locate (Path.join directory name)) (place ++ [name]) := by
  have located := fits_locate_join found ordinary noNul fun front less other => by
    rw [single] at less other
    rcases List.prefix_cons_iff.mp less with rfl | ⟨later, rfl, none⟩
    · rw [List.append_nil, there]
    · obtain rfl := List.prefix_nil.mp none
      exact absurd rfl other
  rwa [single] at located

/-- The way to the directory that an ordinary name below a directory asks for. -/
theorem fits_locate_parent
    (passes : ∀ front, front <+: (Path.segments name).dropLast →
      front ≠ (Path.segments name).dropLast → storage.node? (place ++ front) = some .directory) :
    (Path.parent? (Path.join directory name)).getD "" ≠ "" ∧
      Fits (storage.locate ((Path.parent? (Path.join directory name)).getD ""))
        (place ++ (Path.segments name).dropLast) := by
  obtain ⟨usable, way⟩ := locate_eq_ok_iff.mp found
  have less : Path.steps directory ++ (Path.segments name).dropLast.map .segment <+:
      Path.steps (Path.join directory name) := by
    rw [Path.steps_join usable.2.1 ordinary, List.prefix_append_right_inj]
    exact (List.dropLast_prefix _).map _
  have begins : Path.steps directory ++ (Path.segments name).dropLast.map .segment ≠ [] :=
    List.append_ne_nil_of_left_ne_nil (Path.steps_ne_nil usable.2.1) _
  rw [Path.parent?_join usable.2.1 ordinary, Option.getD_some]
  have back := Path.walk_ofSteps_of_prefix less
  have nonempty : Path.ofSteps (Path.steps directory ++
      (Path.segments name).dropLast.map .segment) ≠ "" := by
    intro empty
    rw [empty] at back
    exact begins back.symm
  refine ⟨nonempty, fits_locate (fun mem => ?_) nonempty back ?_ passes⟩
  · rcases Path.mem_ofSteps mem with slash | stop | ⟨segment, listed, inside⟩
    · contradiction
    · contradiction
    · exact nul_notMem_join found ordinary noNul
        (Path.mem_of_mem_walk (Path.mem_walk_of_mem_steps (less.subset listed)) inside)
  · rw [origin, Path.isAbsolute_ofSteps_of_prefix less begins, ← origin,
      origin_join found ordinary]
    exact follow_steps way

end Below

/-- The number of a fresh name is that of a name which is free: there are more numbers to try than
entries. -/
theorem node?_freshNumber (parent : Address) (stem : String) :
    storage.node? (parent ++
      [stem ++ decimal (storage.freshNumber parent stem storage.entries.length 0)]) = none := by
  by_contra taken
  let candidate (n : Nat) : Address := parent ++ [stem ++ decimal n]
  have all : ∀ steps n i, n ≤ i → i ≤ n + steps →
      storage.node? (candidate (storage.freshNumber parent stem steps n)) ≠ none →
      storage.node? (candidate i) ≠ none := by
    intro steps
    induction steps with
    | zero =>
      intro n i lower upper taken
      obtain rfl : i = n := by omega
      exact taken
    | succ steps ih =>
      intro n i lower upper taken
      rw [freshNumber] at taken
      split at taken
      · rename_i first
        by_cases here : i = n
        · rw [here]
          exact Option.isSome_iff_ne_none.mp first
        · exact ih (n + 1) i (by omega) (by omega) taken
      · rename_i free
        exact absurd (Option.isSome_iff_ne_none.mpr taken) free
  have different : ∀ m n, candidate m = candidate n → m = n := by
    intro m n same
    have names := congrArg String.toList (List.singleton_inj.mp (List.append_cancel_left same))
    rw [String.toList_append, String.toList_append] at names
    exact decimal_injective (String.toList_inj.mp (List.append_cancel_left names))
  have nodup : ((List.range (storage.entries.length + 1)).map candidate).Nodup :=
    List.nodup_range.map different
  have subset : (List.range (storage.entries.length + 1)).map candidate ⊆
      storage.entries.map Prod.fst := by
    intro at_ among
    obtain ⟨i, small, rfl⟩ := List.mem_map.mp among
    rw [List.mem_range] at small
    have found := all _ 0 i (Nat.zero_le i) (by omega) taken
    rw [Ne, node?_eq_none_iff (by simp [candidate])] at found
    by_contra absent
    refine found fun e mem same => absent ?_
    rw [← same]
    exact List.mem_map_of_mem mem
  have bound := nodup.length_le_of_subset subset
  rw [List.length_map, List.length_range, List.length_map] at bound
  omega

section Fresh

variable (storage) (parent : Address) (stem : String)

/-- A fresh name is free. -/
theorem node?_freshSuffix :
    storage.node? (parent ++ [stem ++ storage.freshSuffix parent stem]) = none := by
  rw [freshSuffix]
  split
  · rename_i suffix found
    simpa using List.find?_some found
  · exact node?_freshNumber parent stem

/-- Every free name with the stem can come up. -/
theorem freshSuffix_of_free {suffix : Suffix}
    (free : storage.node? (parent ++ [stem ++ suffix.text]) = none) :
    { storage with drawn := [suffix] }.freshSuffix parent stem = suffix.text := by
  have same : { storage with drawn := [suffix] }.node? (parent ++ [stem ++ suffix.text]) = none :=
    free
  rw [freshSuffix, List.find?_cons, same]
  rfl

end Fresh

end Storage
end Quire
