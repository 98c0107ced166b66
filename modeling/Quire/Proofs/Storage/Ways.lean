import Mathlib.Data.List.Basic
import Quire.Proofs.Outcome
import Quire.Proofs.Storage.Nodes

/-!
# Ways

The text of a path is read as steps, and where the steps lead depends on nothing but where they
start. What a storage decides is only whether every step but the last ends in a directory.
-/

namespace Quire

def PathStep.leads (at_ : Storage.Address) : PathStep → Storage.Address
  | root => []
  | here => at_
  | parent => at_.dropLast
  | segment name => at_ ++ [name]

/-- A step that is read back from its text. -/
def PathStep.IsProper : PathStep → Prop
  | segment name =>
    name.toList ≠ [] ∧ '/' ∉ name.toList ∧ name.toList ≠ ['.'] ∧ name.toList ≠ ['.', '.']
  | _ => True

namespace Path

section Pieces

theorem pieces_ne_nil (cs : List Char) : pieces cs ≠ [] := by
  cases cs with
  | nil => nofun
  | cons c rest =>
    rw [pieces]
    split
    · nofun
    · split <;> nofun

theorem pieces_append_slash (a b : List Char) :
    pieces (a ++ '/' :: b) = pieces a ++ pieces b := by
  induction a with
  | nil => rfl
  | cons c rest ih =>
    rw [List.cons_append, pieces, pieces, ih]
    split
    · rfl
    · obtain ⟨first, others, found⟩ := List.exists_cons_of_ne_nil (pieces_ne_nil rest)
      rw [found]
      rfl

theorem pieces_of_no_slash {cs : List Char} (h : '/' ∉ cs) : pieces cs = [cs] := by
  induction cs with
  | nil => rfl
  | cons c rest ih =>
    rw [List.mem_cons, not_or] at h
    rw [pieces, if_neg (Ne.symm h.1), ih h.2]

theorem slash_notMem_of_mem_pieces {cs piece : List Char} (h : piece ∈ pieces cs) :
    '/' ∉ piece := by
  induction cs generalizing piece with
  | nil =>
    obtain rfl := List.mem_singleton.mp h
    exact List.not_mem_nil
  | cons c rest ih =>
    rw [pieces] at h
    split at h
    · rcases List.mem_cons.mp h with rfl | later
      · exact List.not_mem_nil
      · exact ih later
    · rename_i other
      obtain ⟨first, others, found⟩ := List.exists_cons_of_ne_nil (pieces_ne_nil rest)
      rw [found] at h ih
      rcases List.mem_cons.mp h with rfl | later
      · rw [List.mem_cons, not_or]
        exact ⟨Ne.symm other, ih List.mem_cons_self⟩
      · exact ih (List.mem_cons_of_mem _ later)

end Pieces

section Spelling

/-- The steps that a text spells, apart from a slash at its start. -/
def spell (cs : List Char) : List PathStep := ((pieces cs).filter (!·.isEmpty)).map stepOf

theorem walk_eq (path : String) :
    walk path = if isAbsolute path then .root :: spell path.toList else spell path.toList := rfl

theorem spell_append_slash (a b : List Char) : spell (a ++ '/' :: b) = spell a ++ spell b := by
  rw [spell, pieces_append_slash, List.filter_append, List.map_append, spell, spell]

theorem spell_piece {piece : List Char} (noSlash : '/' ∉ piece) (nonempty : piece ≠ []) :
    spell piece = [stepOf piece] := by
  rw [spell, pieces_of_no_slash noSlash]
  simp [nonempty]

theorem isProper_stepOf {piece : List Char} (noSlash : '/' ∉ piece) (nonempty : piece ≠ []) :
    (stepOf piece).IsProper ∧ stepOf piece ≠ .root := by
  rw [stepOf]
  split
  · exact ⟨trivial, nofun⟩
  · split
    · exact ⟨trivial, nofun⟩
    · rename_i here parent
      refine ⟨?_, nofun⟩
      rw [PathStep.IsProper, String.toList_ofList]
      exact ⟨nonempty, noSlash, here, parent⟩

theorem isProper_of_mem_spell {cs : List Char} {step : PathStep} (h : step ∈ spell cs) :
    step.IsProper ∧ step ≠ .root := by
  obtain ⟨piece, mem, rfl⟩ := List.mem_map.mp h
  rw [List.mem_filter] at mem
  exact isProper_stepOf (slash_notMem_of_mem_pieces mem.1) (by simpa using mem.2)

theorem isProper_of_mem_walk {path : String} {step : PathStep} (h : step ∈ walk path) :
    step.IsProper := by
  rw [walk_eq] at h
  split at h
  · rcases List.mem_cons.mp h with rfl | later
    · trivial
    · exact (isProper_of_mem_spell later).1
  · exact (isProper_of_mem_spell h).1

theorem root_notMem_tail_walk (path : String) : .root ∉ (walk path).tail := by
  rw [walk_eq]
  split
  · exact fun mem => (isProper_of_mem_spell mem).2 rfl
  · exact fun mem => (isProper_of_mem_spell (List.mem_of_mem_tail mem)).2 rfl

theorem isAbsolute_iff_head?_walk {path : String} :
    isAbsolute path = true ↔ (walk path).head? = some .root := by
  rw [walk_eq]
  split
  · rename_i absolute
    simp [absolute]
  · rename_i relative
    refine ⟨fun absolute => absurd absolute relative, fun first => ?_⟩
    exact absurd rfl (isProper_of_mem_spell (List.mem_of_mem_head? first)).2

/-- A path that is not empty has a step. -/
theorem walk_ne_nil {path : String} (h : path ≠ "") : walk path ≠ [] := by
  rw [walk_eq]
  split
  · exact List.cons_ne_nil _ _
  · rename_i relative
    cases chars : path.toList with
    | nil => exact absurd (String.toList_inj.mp chars) h
    | cons c rest =>
      rw [isAbsolute, chars] at relative
      have other : c ≠ '/' := by simpa using relative
      obtain ⟨first, others, found⟩ := List.exists_cons_of_ne_nil (pieces_ne_nil rest)
      rw [spell, pieces, if_neg other, found]
      simp

end Spelling

section Names

/-- The names that slashes part in a text. -/
def segments (name : String) : Storage.Address := (pieces name.toList).map String.ofList

/-- A name made of ordinary segments: nothing between slashes is empty or stands for a directory by
its place. -/
def IsOrdinary (name : String) : Prop :=
  ∀ piece ∈ pieces name.toList, piece ≠ [] ∧ piece ≠ ['.'] ∧ piece ≠ ['.', '.']

instance (name : String) : Decidable (IsOrdinary name) :=
  inferInstanceAs (Decidable (∀ piece ∈ _, _))

theorem segments_ne_nil (name : String) : segments name ≠ [] := by
  simpa [segments] using pieces_ne_nil name.toList

theorem spell_of_isOrdinary {name : String} (h : IsOrdinary name) :
    spell name.toList = (segments name).map .segment := by
  rw [spell, segments, List.map_map, List.filter_eq_self.mpr]
  · refine List.map_congr_left fun piece mem => ?_
    obtain ⟨-, here, parent⟩ := h piece mem
    rw [stepOf, if_neg here, if_neg parent]
    rfl
  · intro piece mem
    simpa using (h piece mem).1

theorem isAbsolute_of_isOrdinary {name : String} (h : IsOrdinary name) :
    isAbsolute name = false := by
  rw [isAbsolute]
  cases chars : name.toList with
  | nil => rfl
  | cons c rest =>
    have first : c ≠ '/' := by
      rintro rfl
      have start := h [] (by rw [chars, pieces, if_pos rfl]; exact List.mem_cons_self)
      exact start.1 rfl
    simpa using first

theorem segments_append_slash (a b : String) :
    segments (a ++ "/" ++ b) = segments a ++ segments b := by
  have chars : (a ++ "/" ++ b).toList = a.toList ++ '/' :: b.toList := by simp
  rw [segments, chars, pieces_append_slash, List.map_append, segments, segments]

theorem IsOrdinary.append_slash {a b : String} (ha : IsOrdinary a) (hb : IsOrdinary b) :
    IsOrdinary (a ++ "/" ++ b) := by
  have chars : (a ++ "/" ++ b).toList = a.toList ++ '/' :: b.toList := by simp
  intro piece mem
  rw [chars, pieces_append_slash] at mem
  exact (List.mem_append.mp mem).elim (ha piece) (hb piece)

/-- A text without stops and slashes is one ordinary segment. -/
theorem isOrdinary_of_no_stop {name : String} (nonempty : name.toList ≠ [])
    (noSlash : '/' ∉ name.toList) (noStop : '.' ∉ name.toList) : IsOrdinary name := by
  intro piece mem
  rw [pieces_of_no_slash noSlash, List.mem_singleton] at mem
  subst mem
  refine ⟨nonempty, ?_, ?_⟩ <;> (intro same; rw [same] at noStop; exact noStop List.mem_cons_self)

theorem segments_of_no_slash {name : String} (h : '/' ∉ name.toList) : segments name = [name] := by
  rw [segments, pieces_of_no_slash h, List.map_singleton, String.ofList_toList]

theorem ne_empty_of_isOrdinary {name : String} (h : IsOrdinary name) : name.toList ≠ [] := by
  intro chars
  have only := h [] (by rw [chars]; exact List.mem_singleton.mpr rfl)
  exact only.1 rfl

/-- A relative path behind a directory and one slash. -/
theorem toList_join {directory name : String} (hd : directory ≠ "")
    (relative : isAbsolute name = false) :
    ∃ front, (join directory name).toList = front ++ '/' :: name.toList ∧
      (directory.toList = front ∨ directory.toList = front ++ ['/']) := by
  have inside : (isAbsolute name || directory.isEmpty) = false := by
    rw [relative, Bool.false_or]
    simpa using hd
  rw [join, inside, if_neg Bool.false_ne_true]
  split
  · rename_i slash
    rw [hasTrailingSlash, beq_iff_eq] at slash
    obtain ⟨front, chars⟩ := List.getLast?_eq_some_iff.mp slash
    exact ⟨front, by rw [String.toList_append, chars]; simp, .inr chars⟩
  · exact ⟨directory.toList, by simp, .inl rfl⟩

theorem isAbsolute_join {directory name : String} (hd : directory ≠ "")
    (hn : isAbsolute name = false) : isAbsolute (join directory name) = isAbsolute directory := by
  obtain ⟨front, chars, whole⟩ := toList_join hd hn
  rw [isAbsolute, isAbsolute, chars]
  cases front with
  | nil =>
    rcases whole with same | slash
    · exact absurd (String.toList_inj.mp same) hd
    · rw [slash]
      rfl
  | cons c rest =>
    rcases whole with same | slash
    · rw [same]
      rfl
    · rw [slash]
      rfl

/-- A relative path below a directory takes the way to the directory, then its own. -/
theorem walk_join_of_relative {directory name : String} (hd : directory ≠ "")
    (relative : isAbsolute name = false) :
    walk (join directory name) = walk directory ++ walk name := by
  obtain ⟨front, chars, whole⟩ := toList_join hd relative
  have spelled : spell directory.toList = spell front := by
    rcases whole with same | slash
    · rw [same]
    · rw [slash, spell_append_slash]
      exact List.append_nil _
  rw [walk_eq, walk_eq directory, walk_eq name, isAbsolute_join hd relative, relative, chars,
    spell_append_slash, spelled, if_neg Bool.false_ne_true]
  split <;> rfl

/-- An ordinary name below a directory takes the way to the directory and one step for each of its
segments. -/
theorem walk_join {directory name : String} (hd : directory ≠ "") (hn : IsOrdinary name) :
    walk (join directory name) = walk directory ++ (segments name).map .segment := by
  have relative := isAbsolute_of_isOrdinary hn
  rw [walk_join_of_relative hd relative, walk_eq name, relative, if_neg Bool.false_ne_true,
    spell_of_isOrdinary hn]

end Names

section Texts

theorem isProper_text {step : PathStep} (proper : step.IsProper) (inner : step ≠ .root) :
    (ofSteps.stepText step).toList ≠ [] ∧ '/' ∉ (ofSteps.stepText step).toList ∧
      stepOf (ofSteps.stepText step).toList = step := by
  cases step with
  | root => contradiction
  | here => exact ⟨by decide, by decide, by decide⟩
  | parent => exact ⟨by decide, by decide, by decide⟩
  | segment name =>
    obtain ⟨nonempty, noSlash, here, parent⟩ := proper
    refine ⟨nonempty, noSlash, ?_⟩
    rw [ofSteps.stepText, stepOf, if_neg here, if_neg parent, String.ofList_toList]

theorem spell_ofSteps {steps : List PathStep}
    (proper : ∀ step ∈ steps, step.IsProper ∧ step ≠ .root) :
    spell (ofSteps steps).toList = steps ∧ isAbsolute (ofSteps steps) = false := by
  induction steps with
  | nil => exact ⟨by decide, by decide⟩
  | cons step rest ih =>
    obtain ⟨own, inner⟩ := proper step List.mem_cons_self
    obtain ⟨nonempty, noSlash, back⟩ := isProper_text own inner
    obtain ⟨c, cs, chars⟩ := List.exists_cons_of_ne_nil nonempty
    have relative : c ≠ '/' := by
      rintro rfl
      exact noSlash (chars ▸ List.mem_cons_self)
    obtain ⟨later, -⟩ := ih fun other mem => proper other (List.mem_cons_of_mem _ mem)
    cases rest with
    | nil =>
      have alone : ofSteps [step] = ofSteps.stepText step := by
        cases step <;> rfl
      rw [alone, spell_piece noSlash nonempty, back, isAbsolute, chars]
      exact ⟨rfl, by simpa using relative⟩
    | cons next rest =>
      have text : (ofSteps (step :: next :: rest)).toList =
          (ofSteps.stepText step).toList ++ '/' :: (ofSteps (next :: rest)).toList := by
        cases step with
        | root => contradiction
        | _ => simp [ofSteps]
      rw [isAbsolute, text, spell_append_slash, spell_piece noSlash nonempty, back, later, chars]
      exact ⟨rfl, by simpa using relative⟩

/-- The text of steps is read back as these steps. -/
theorem walk_ofSteps {steps : List PathStep} (proper : ∀ step ∈ steps, step.IsProper)
    (roots : .root ∉ steps.tail) : walk (ofSteps steps) = steps := by
  cases steps with
  | nil => decide
  | cons first rest =>
    have inner : ∀ step ∈ rest, step.IsProper ∧ step ≠ .root := fun step mem =>
      ⟨proper step (List.mem_cons_of_mem _ mem), fun same => roots (same ▸ mem)⟩
    by_cases top : first = .root
    · subst top
      obtain ⟨later, -⟩ := spell_ofSteps inner
      have text : (ofSteps (.root :: rest)).toList = '/' :: (ofSteps rest).toList := by
        simp [ofSteps]
      have absolute : isAbsolute (ofSteps (.root :: rest)) = true := by
        rw [isAbsolute, text]
        rfl
      rw [walk_eq, absolute, if_pos rfl, text, ← List.nil_append ('/' :: _), spell_append_slash,
        later]
      rfl
    · have plain : ∀ step ∈ first :: rest, step.IsProper ∧ step ≠ .root := by
        intro step mem
        rcases List.mem_cons.mp mem with rfl | later
        · exact ⟨proper _ List.mem_cons_self, top⟩
        · exact inner step later
      obtain ⟨whole, relative⟩ := spell_ofSteps plain
      rw [walk_eq, relative, if_neg Bool.false_ne_true, whole]

end Texts

section Steps

theorem steps_eq {path : String} {first : PathStep} {rest : List PathStep}
    (h : walk path = first :: rest) : steps path = first :: rest.filter (· != .here) := by
  rw [steps, h]

theorem steps_ne_nil {path : String} (h : path ≠ "") : steps path ≠ [] := by
  obtain ⟨first, rest, found⟩ := List.exists_cons_of_ne_nil (walk_ne_nil h)
  rw [steps_eq found]
  exact List.cons_ne_nil _ _

theorem mem_walk_of_mem_steps {path : String} {step : PathStep} (h : step ∈ steps path) :
    step ∈ walk path := by
  rw [steps] at h
  split at h
  · contradiction
  · rename_i first rest found
    rw [found]
    rcases List.mem_cons.mp h with rfl | later
    · exact List.mem_cons_self
    · exact List.mem_cons_of_mem _ (List.mem_filter.mp later).1

theorem isProper_of_mem_steps {path : String} {step : PathStep} (h : step ∈ steps path) :
    step.IsProper :=
  isProper_of_mem_walk (mem_walk_of_mem_steps h)

theorem root_notMem_tail_steps (path : String) : .root ∉ (steps path).tail := by
  have roots := root_notMem_tail_walk path
  cases found : walk path with
  | nil => simp [steps, found]
  | cons first rest =>
    rw [found] at roots
    rw [steps_eq found]
    exact fun mem => roots (List.mem_filter.mp mem).1

theorem head?_steps (path : String) : (steps path).head? = (walk path).head? := by
  rw [steps]
  split
  · rename_i found
    rw [found]
  · rename_i found
    rw [found]
    rfl

theorem steps_join {directory name : String} (hd : directory ≠ "") (hn : IsOrdinary name) :
    steps (join directory name) = steps directory ++ (segments name).map .segment := by
  have whole := walk_join hd hn
  obtain ⟨first, rest, found⟩ := List.exists_cons_of_ne_nil (walk_ne_nil hd)
  rw [found, List.cons_append] at whole
  rw [steps_eq whole, steps_eq found, List.filter_append, List.cons_append]
  congr 2
  rw [List.filter_eq_self]
  intro step mem
  obtain ⟨segment, -, rfl⟩ := List.mem_map.mp mem
  rfl

/-- The path of the directory that an ordinary name below a directory asks for. -/
theorem parent?_join {directory name : String} (hd : directory ≠ "") (hn : IsOrdinary name) :
    parent? (join directory name) =
      some (ofSteps (steps directory ++ (segments name).dropLast.map .segment)) := by
  have whole := steps_join hd hn
  obtain ⟨segment, others, names⟩ := List.exists_cons_of_ne_nil (segments_ne_nil name)
  obtain ⟨first, rest, begins⟩ := List.exists_cons_of_ne_nil (steps_ne_nil hd)
  have above : (steps (join directory name)).dropLast =
      steps directory ++ (segments name).dropLast.map .segment := by
    rw [whole, List.dropLast_append_of_ne_nil (by simpa using segments_ne_nil name),
      List.map_dropLast]
  rw [parent?]
  split
  · rename_i none
    rw [none, begins] at whole
    contradiction
  · rename_i root
    rw [root, begins, names] at whole
    simp at whole
  · rw [above]

theorem here_notMem_tail_steps (path : String) : .here ∉ (steps path).tail := by
  cases found : walk path with
  | nil => simp [steps, found]
  | cons first rest =>
    rw [steps_eq found]
    simp

/-- The first steps of a path, written as a path of their own. -/
theorem walk_ofSteps_of_prefix {path : String} {front : List PathStep}
    (h : front <+: steps path) : walk (ofSteps front) = front := by
  refine walk_ofSteps (fun step mem => isProper_of_mem_steps (h.subset mem)) fun mem => ?_
  obtain ⟨later, whole⟩ := h
  have roots := root_notMem_tail_steps path
  cases front with
  | nil => contradiction
  | cons first rest =>
    rw [← whole] at roots
    exact roots (List.mem_append_left _ mem)

theorem steps_ofSteps_of_prefix {path : String} {front : List PathStep}
    (h : front <+: steps path) : steps (ofSteps front) = front := by
  have back := walk_ofSteps_of_prefix h
  obtain ⟨later, whole⟩ := h
  have plain := here_notMem_tail_steps path
  cases front with
  | nil => rw [steps, back]
  | cons first rest =>
    rw [← whole] at plain
    rw [steps_eq back, List.filter_eq_self.mpr]
    intro step mem
    have other : step ≠ .here := fun same => plain (List.mem_append_left _ (same ▸ mem))
    simpa using other

theorem isAbsolute_ofSteps_of_prefix {path : String} {front : List PathStep}
    (h : front <+: steps path) (nonempty : front ≠ []) :
    isAbsolute (ofSteps front) = isAbsolute path := by
  obtain ⟨later, whole⟩ := h
  have back := walk_ofSteps_of_prefix ⟨later, whole⟩
  have first : (walk path).head? = front.head? := by
    rw [← head?_steps, ← whole]
    cases front with
    | nil => contradiction
    | cons first rest => rfl
  rw [Bool.eq_iff_iff, isAbsolute_iff_head?_walk, isAbsolute_iff_head?_walk, back, first]

end Steps

def leads (at_ : Storage.Address) (steps : List PathStep) : Storage.Address :=
  steps.foldl PathStep.leads at_

theorem leads_append (at_ : Storage.Address) (a b : List PathStep) :
    leads at_ (a ++ b) = leads (leads at_ a) b := List.foldl_append

theorem leads_segments (at_ names : Storage.Address) :
    leads at_ (names.map .segment) = at_ ++ names := by
  induction names generalizing at_ with
  | nil => exact (List.append_nil at_).symm
  | cons name rest ih =>
    rw [List.map_cons, leads, List.foldl_cons]
    refine (ih (at_ ++ [name])).trans ?_
    rw [List.append_assoc, List.singleton_append]

theorem leads_steps (at_ : Storage.Address) (path : String) :
    leads at_ (steps path) = leads at_ (walk path) := by
  have skip : ∀ (rest : List PathStep) (at_ : Storage.Address),
      leads at_ (rest.filter (· != .here)) = leads at_ rest := by
    intro rest
    induction rest with
    | nil => exact fun _ => rfl
    | cons step rest ih =>
      intro at_
      cases step <;> exact ih _
  cases found : walk path with
  | nil => rw [steps, found]
  | cons first rest =>
    rw [steps_eq found]
    exact skip rest _

/-- Steps that never go up lead further and further down. -/
theorem leads_isWithin (at_ : Storage.Address) {front steps : List PathStep}
    (h : front <+: steps) (down : .parent ∉ steps) (roots : .root ∉ steps.drop front.length) :
    Storage.isWithin (leads at_ front) (leads at_ steps) = true := by
  obtain ⟨later, rfl⟩ := h
  rw [List.drop_left] at roots
  rw [leads_append]
  have further : ∀ (later : List PathStep) (top : Storage.Address), .parent ∉ later →
      .root ∉ later → Storage.isWithin top (leads top later) = true := by
    intro later
    induction later with
    | nil => exact fun top _ _ => Storage.isWithin_iff.mpr (List.prefix_refl top)
    | cons step rest ih =>
      intro top down roots
      rw [List.mem_cons, not_or] at down roots
      have below := ih (step.leads top) down.2 roots.2
      refine Storage.isWithin_trans ?_ below
      cases step with
      | root => exact absurd rfl roots.1
      | parent => exact absurd rfl down.1
      | here => exact Storage.isWithin_iff.mpr (List.prefix_refl top)
      | segment name => exact Storage.isWithin_append top [name]
  exact further later _ (fun mem => down (List.mem_append_right _ mem)) roots

def IsUsable (path : String) : Prop :=
  '\x00' ∉ path.toList ∧ path ≠ "" ∧ path.utf8ByteSize ≤ Storage.longestPath

end Path

namespace Storage

variable {storage : Storage}

/-- Where the way of a path starts. -/
def origin (storage : Storage) (path : String) : Address :=
  if Path.isAbsolute path then [] else storage.current

/-- Where a path leads, if nothing is in the way. -/
def target (storage : Storage) (path : String) : Address :=
  Path.leads (storage.origin path) (Path.walk path)

def fits : PathStep → Prop
  | .segment name => name.utf8ByteSize ≤ longestName
  | _ => True

theorem follow_cons_eq_ok_iff {at_ end_ : Address} {step : PathStep} {rest : List PathStep} :
    storage.follow at_ (step :: rest) = .ok end_ ↔
      storage.node? at_ = some .directory ∧ fits step ∧
        storage.follow (step.leads at_) rest = .ok end_ := by
  rw [follow.eq_def]
  cases found : storage.node? at_ with
  | none => simp
  | some node =>
    cases node with
    | file bytes => simp
    | directory =>
      cases step with
      | segment name =>
        by_cases long : longestName < name.utf8ByteSize
        · simp [long, fits]
        · simp [long, fits, Nat.le_of_not_lt long, PathStep.leads]
      | _ => simp [fits, PathStep.leads]

/-- A way can be followed when every step but the last ends in a directory and no name is too
long. -/
theorem follow_eq_ok_iff {at_ end_ : Address} {steps : List PathStep} :
    storage.follow at_ steps = .ok end_ ↔
      (∀ front, front <+: steps → front ≠ steps →
        storage.node? (Path.leads at_ front) = some .directory) ∧
      (∀ step ∈ steps, fits step) ∧ end_ = Path.leads at_ steps := by
  induction steps generalizing at_ with
  | nil =>
    rw [follow, Except.ok.injEq]
    refine ⟨fun same => ⟨fun front short other => ?_, nofun, same.symm⟩, fun h => h.2.2.symm⟩
    exact absurd (List.prefix_nil.mp short) other
  | cons step rest ih =>
    rw [follow_cons_eq_ok_iff, ih]
    constructor
    · rintro ⟨here, short, passes, fit, rfl⟩
      refine ⟨fun front less other => ?_, List.forall_mem_cons.mpr ⟨short, fit⟩, rfl⟩
      rcases List.prefix_cons_iff.mp less with rfl | ⟨later, rfl, less⟩
      · exact here
      · exact passes later (List.cons_prefix_cons.mp less).2 fun same => other (by rw [same])
    · rintro ⟨passes, fit, rfl⟩
      rw [List.forall_mem_cons] at fit
      refine ⟨passes [] (List.nil_prefix) nofun, fit.1, fun front less other => ?_, fit.2, rfl⟩
      exact passes (step :: front) (List.cons_prefix_cons.mpr ⟨rfl, less⟩)
        fun same => other (List.cons.inj same).2

/-- A way is followed part by part. -/
theorem follow_append (at_ : Address) (front rest : List PathStep) :
    storage.follow at_ (front ++ rest) =
      storage.follow at_ front >>= fun end_ => storage.follow end_ rest := by
  induction front generalizing at_ with
  | nil => rfl
  | cons step front ih =>
    rw [List.cons_append, follow.eq_def, follow.eq_def storage at_ (step :: front)]
    rcases storage.node? at_ with _ | _ | _
    · rfl
    · rfl
    · cases step with
      | segment name =>
        simp only [ih]
        split <;> rfl
      | _ => exact ih _

theorem locate_of_isUsable {path : String} (usable : Path.IsUsable path) :
    storage.locate path = storage.follow (storage.origin path) (Path.walk path) := by
  obtain ⟨noNul, nonempty, long⟩ := usable
  rw [locate, if_neg (by simpa using noNul), if_neg (by simpa using nonempty),
    if_neg (Nat.not_lt.mpr long), origin]
  split <;> rfl

/-- A text that is no path is refused by every storage in the same way. -/
theorem locate_of_not_isUsable {path : String} (h : ¬ Path.IsUsable path) :
    ∃ fault, ∀ storage : Storage, storage.locate path = .error fault := by
  by_cases nul : '\x00' ∈ path.toList
  · exact ⟨.badName, fun storage => by rw [locate, if_pos (by simpa using nul)]⟩
  by_cases empty : path = ""
  · refine ⟨.notFound, fun storage => ?_⟩
    rw [locate, if_neg (by simpa using nul), if_pos (by simpa using empty)]
  · refine ⟨.nameTooLong, fun storage => ?_⟩
    have long : longestPath < path.utf8ByteSize :=
      Nat.not_le.mp fun short => h ⟨nul, empty, short⟩
    rw [locate, if_neg (by simpa using nul), if_neg (by simpa using empty), if_pos long]

theorem locate_eq_ok_iff {path : String} {at_ : Address} :
    storage.locate path = .ok at_ ↔
      Path.IsUsable path ∧ storage.follow (storage.origin path) (Path.walk path) = .ok at_ := by
  by_cases usable : Path.IsUsable path
  · rw [locate_of_isUsable usable, and_iff_right usable]
  · obtain ⟨fault, refused⟩ := locate_of_not_isUsable usable
    rw [refused storage]
    exact ⟨nofun, fun found => absurd found.1 usable⟩

/-- What a path passes are directories. -/
theorem directory_of_way {path : String} {at_ : Address} (found : storage.locate path = .ok at_)
    {front : List PathStep} (less : front <+: Path.walk path) (other : front ≠ Path.walk path) :
    storage.node? (Path.leads (storage.origin path) front) = some .directory :=
  (follow_eq_ok_iff.mp (locate_eq_ok_iff.mp found).2).1 front less other

/-- The way to a directory passes nothing else. -/
theorem directory_to {path : String} {place : Address} (found : storage.locate path = .ok place)
    (there : storage.node? place = some .directory) {front : List PathStep}
    (less : front <+: Path.walk path) :
    storage.node? (Path.leads (storage.origin path) front) = some .directory := by
  by_cases whole : front = Path.walk path
  · rw [whole, ← (follow_eq_ok_iff.mp (locate_eq_ok_iff.mp found).2).2.2, there]
  · exact directory_of_way found less whole

/-- A path leads to the same place in another storage where all that it passes are directories. -/
theorem locate_of_way {other : Storage} {path : String} {at_ : Address}
    (found : storage.locate path = .ok at_) (current : other.current = storage.current)
    (way : ∀ front, front <+: Path.walk path → front ≠ Path.walk path →
      other.node? (Path.leads (storage.origin path) front) = some .directory) :
    other.locate path = .ok at_ := by
  rw [locate_eq_ok_iff, follow_eq_ok_iff] at found ⊢
  have origin : other.origin path = storage.origin path := by
    rw [Storage.origin, Storage.origin, current]
  rw [origin]
  exact ⟨found.1, way, found.2.2⟩

/-- A way can be followed without the steps that stay where they are. -/
theorem follow_steps {path : String} {at_ end_ : Address}
    (found : storage.follow at_ (Path.walk path) = .ok end_) :
    storage.follow at_ (Path.steps path) = .ok end_ := by
  have skip : ∀ (rest : List PathStep) (at_ : Address), storage.follow at_ rest = .ok end_ →
      storage.follow at_ (rest.filter (· != .here)) = .ok end_ := by
    intro rest
    induction rest with
    | nil => exact fun _ found => found
    | cons step rest ih =>
      intro at_ found
      obtain ⟨here, short, onward⟩ := follow_cons_eq_ok_iff.mp found
      have kept := ih _ onward
      cases step with
      | here => exact kept
      | _ => exact follow_cons_eq_ok_iff.mpr ⟨here, short, kept⟩
  cases walked : Path.walk path with
  | nil =>
    rw [walked] at found
    rwa [Path.steps, walked]
  | cons first rest =>
    rw [walked] at found
    obtain ⟨here, short, onward⟩ := follow_cons_eq_ok_iff.mp found
    rw [Path.steps_eq walked]
    exact follow_cons_eq_ok_iff.mpr ⟨here, short, skip rest _ onward⟩

/-- The places on the way to a directory are directories. -/
theorem directory_on_way {path : String} {place : Address}
    (found : storage.locate path = .ok place) (there : storage.node? place = some .directory)
    {front : List PathStep} (h : front <+: Path.steps path) :
    storage.node? (Path.leads (storage.origin path) front) = some .directory := by
  have way := follow_eq_ok_iff.mp (follow_steps (locate_eq_ok_iff.mp found).2)
  by_cases whole : front = Path.steps path
  · rw [whole, ← way.2.2, there]
  · exact way.1 front h whole

theorem eq_target_of_locate {path : String} {at_ : Address} (h : storage.locate path = .ok at_) :
    at_ = storage.target path :=
  (follow_eq_ok_iff.mp (locate_eq_ok_iff.mp h).2).2.2

theorem find_eq_directory_iff {path : String} :
    storage.find path = .ok .directory ↔
      ∃ at_, storage.locate path = .ok at_ ∧ storage.node? at_ = some .directory := by
  constructor
  · intro found
    obtain ⟨at_, located, found⟩ := bind_eq_ok found
    refine ⟨at_, located, ?_⟩
    split at found
    · contradiction
    · assumption
    · split at found
      · contradiction
      · have same := Except.ok.inj found
        contradiction
  · rintro ⟨at_, located, there⟩
    rw [find, located]
    dsimp only [bind, Except.bind]
    rw [there]
    rfl

theorem isDirectory_iff {path : String} :
    storage.isDirectory path = true ↔
      ∃ at_, storage.locate path = .ok at_ ∧ storage.node? at_ = some .directory := by
  rw [← find_eq_directory_iff, isDirectory]
  split
  · rename_i found
    simp [found]
  · rename_i other
    exact ⟨nofun, fun found => absurd found other⟩

/-- Where a path leads does not hang on what is stored. -/
theorem target_congr {other : Storage} (h : other.current = storage.current) (path : String) :
    other.target path = storage.target path := by
  rw [target, target, origin, origin, h]

section Below

variable {directory name : String} {place : Address}
  (found : storage.locate directory = .ok place) (ordinary : Path.IsOrdinary name)

include found

theorem ne_empty_of_locate : directory ≠ "" := (locate_eq_ok_iff.mp found).1.2.1

include ordinary

theorem origin_join : storage.origin (Path.join directory name) = storage.origin directory := by
  rw [origin, origin, Path.isAbsolute_join (ne_empty_of_locate found)
    (Path.isAbsolute_of_isOrdinary ordinary)]

/-- An ordinary name below a directory leads to its segments below the place of the directory. -/
theorem target_join :
    storage.target (Path.join directory name) = place ++ Path.segments name := by
  rw [target, Path.walk_join (ne_empty_of_locate found) ordinary, origin_join found ordinary,
    Path.leads_append, Path.leads_segments, eq_target_of_locate found, target]

/-- What an ordinary name below a directory passes are directories. -/
theorem directory_of_locate_join {at_ : Address}
    (below : storage.locate (Path.join directory name) = .ok at_) {front : Address}
    (less : front <+: Path.segments name) (other : front ≠ Path.segments name) :
    storage.node? (place ++ front) = some .directory := by
  have way := (follow_eq_ok_iff.mp (locate_eq_ok_iff.mp below).2).1
  rw [Path.walk_join (ne_empty_of_locate found) ordinary, origin_join found ordinary] at way
  have passed := way (Path.walk directory ++ front.map .segment) (by
    rw [List.prefix_append_right_inj]
    exact less.map _) (by
    intro same
    rw [List.append_cancel_left_eq] at same
    exact other (List.map_injective_iff.2 (fun _ _ h => PathStep.segment.inj h) same))
  rwa [Path.leads_append, Path.leads_segments, ← target, ← eq_target_of_locate found] at passed

end Below

end Storage
end Quire
