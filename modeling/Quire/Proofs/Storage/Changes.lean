import Quire.Proofs.Outcome
import Quire.Proofs.Storage.Ways
import Quire.Storage.Disk

/-!
# Changes of storage

What operations add to a storage: new entries at known addresses, where every directory stays one.
So a path that could be followed before leads to the same place afterwards.
-/

namespace Quire.Storage

variable {storage before after later : Storage} {P Q : Address → Prop}

/-- Entries are added or overwritten at some addresses only. Nothing vanishes, and directories
stay. -/
structure Fills (P : Address → Prop) (before after : Storage) : Prop where
  current : after.current = before.current
  tree : after.IsTree
  nodes : ∀ at_, after.node? at_ = before.node? at_ ∨
    P at_ ∧ before.node? at_ ≠ some .directory ∧ (after.node? at_).isSome

/-- Only directories are new. -/
structure Opens (P : Address → Prop) (before after : Storage) : Prop extends
    Fills P before after where
  files : after.file? = before.file?

namespace Fills

theorem refl (tree : storage.IsTree) : Fills P storage storage := ⟨rfl, tree, fun _ => .inl rfl⟩

theorem trans (h : Fills P before after) (k : Fills P after later) : Fills P before later := by
  refine ⟨k.current.trans h.current, k.tree, fun at_ => ?_⟩
  rcases h.nodes at_ with same | ⟨inside, free, filled⟩
  · rw [← same]
    exact k.nodes at_
  · refine .inr ⟨inside, free, ?_⟩
    rcases k.nodes at_ with same | ⟨-, -, filled⟩
    · rwa [same]
    · exact filled

theorem mono (h : Fills P before after) (wider : ∀ at_, P at_ → Q at_) : Fills Q before after :=
  ⟨h.current, h.tree, fun at_ => (h.nodes at_).imp_right fun new => ⟨wider at_ new.1, new.2⟩⟩

/-- Addresses that are directories before cannot be among those that are filled. -/
theorem sharpen (h : Fills P before after)
    (wider : ∀ at_, P at_ → before.node? at_ ≠ some .directory → Q at_) : Fills Q before after :=
  ⟨h.current, h.tree, fun at_ =>
    (h.nodes at_).imp_right fun new => ⟨wider at_ new.1 new.2.1, new.2⟩⟩

variable (h : Fills P before after)

include h

theorem outside {at_ : Address} (out : ¬ P at_) : after.node? at_ = before.node? at_ :=
  (h.nodes at_).resolve_right fun new => out new.1

theorem directory {at_ : Address} (there : before.node? at_ = some .directory) :
    after.node? at_ = some .directory := by
  rcases h.nodes at_ with same | new
  · rw [same, there]
  · exact absurd there new.2.1

theorem isSome {at_ : Address} (there : (before.node? at_).isSome) : (after.node? at_).isSome := by
  rcases h.nodes at_ with same | new
  · rwa [same]
  · exact new.2.2

theorem locate {path : String} {at_ : Address} (found : before.locate path = .ok at_) :
    after.locate path = .ok at_ :=
  locate_of_way found h.current fun _ less other => h.directory (directory_of_way found less other)

end Fills

namespace Opens

theorem refl (tree : storage.IsTree) : Opens P storage storage := ⟨.refl tree, rfl⟩

theorem trans (h : Opens P before after) (k : Opens P after later) : Opens P before later :=
  ⟨h.toFills.trans k.toFills, k.files.trans h.files⟩

theorem mono (h : Opens P before after) (wider : ∀ at_, P at_ → Q at_) : Opens Q before after :=
  ⟨h.toFills.mono wider, h.files⟩

theorem sharpen (h : Opens P before after)
    (wider : ∀ at_, P at_ → before.node? at_ ≠ some .directory → Q at_) : Opens Q before after :=
  ⟨h.toFills.sharpen wider, h.files⟩

end Opens

section Single

variable (tree : storage.IsTree)

include tree

theorem above_of_follow {at_ end_ : Address} {steps : List PathStep} (nonempty : steps ≠ [])
    (found : storage.follow at_ steps = .ok end_) :
    storage.node? end_.dropLast = some .directory := by
  induction steps generalizing at_ with
  | nil => contradiction
  | cons step rest ih =>
    obtain ⟨here, -, onward⟩ := follow_cons_eq_ok_iff.mp found
    have above : storage.node? at_.dropLast = some .directory :=
      tree.directory_dropLast (by rw [here]; rfl)
    by_cases last : rest = []
    · subst last
      obtain rfl := Except.ok.inj onward
      cases step with
      | root => rfl
      | here => exact above
      | parent => exact tree.directory_dropLast (by rw [PathStep.leads, above]; rfl)
      | segment name =>
        rw [PathStep.leads, List.dropLast_concat]
        exact here
    · exact ih last onward

/-- What a path leads to has a directory above it. -/
theorem above_of_locate {path : String} {at_ : Address} (found : storage.locate path = .ok at_) :
    storage.node? at_.dropLast = some .directory := by
  rw [locate_eq_ok_iff] at found
  exact above_of_follow tree (Path.walk_ne_nil found.1.2.1) found.2

theorem isTree_put {at_ : Address} {node : StorageNode} (proper : at_ ≠ [])
    (above : storage.node? at_.dropLast = some .directory)
    (free : storage.node? at_ ≠ some .directory) : (storage.put at_ node).IsTree := by
  intro top name there
  rw [node?_put proper] at there ⊢
  split at there
  · rename_i same
    rw [← same, List.dropLast_concat] at above
    have other : top ≠ at_ := fun eq => free (by rw [← eq, above])
    rw [if_neg other, above]
  · have directory := tree _ _ there
    have other : top ≠ at_ := fun eq => free (by rw [← eq, directory])
    rw [if_neg other, directory]

theorem fills_put {at_ : Address} {node : StorageNode} (proper : at_ ≠ [])
    (above : storage.node? at_.dropLast = some .directory)
    (free : storage.node? at_ ≠ some .directory) :
    Fills (· = at_) storage (storage.put at_ node) := by
  refine ⟨rfl, isTree_put tree proper above free, fun other => ?_⟩
  rw [node?_put proper]
  split
  · rename_i same
    subst same
    exact .inr ⟨rfl, free, rfl⟩
  · exact .inl rfl

end Single

section Operations

/-- A directory is created where there was nothing. -/
theorem of_makeDirectory (tree : storage.IsTree) {path : String}
    (made : storage.makeDirectory path = .ok after) :
    storage.locate path = .ok (storage.target path) ∧
      storage.node? (storage.target path) = none ∧
      after.node? (storage.target path) = some .directory ∧
      Opens (· = storage.target path) storage after := by
  obtain ⟨at_, found, rest⟩ := bind_eq_ok made
  split at rest
  · contradiction
  · rename_i free
    obtain rfl := Except.ok.inj rest
    obtain rfl := eq_target_of_locate found
    have proper : storage.target path ≠ [] := by
      intro root
      rw [root] at free
      contradiction
    refine ⟨found, free, by rw [node?_put proper, if_pos rfl], ?_, ?_⟩
    · exact fills_put tree proper (above_of_locate tree found) (by rw [free]; nofun)
    · rw [file?_put proper, StorageNode.bytes?, Function.update_eq_self_iff, file?, free]
      rfl

/-- A file is created or overwritten. -/
theorem of_writeBytes (tree : storage.IsTree) {path : String} {bytes : ByteArray}
    (written : storage.writeBytes path bytes = .ok after) :
    storage.locate path = .ok (storage.target path) ∧
      Fills (· = storage.target path) storage after ∧
      after.file? = Function.update storage.file? (storage.target path) (some bytes) := by
  obtain ⟨at_, found, rest⟩ := bind_eq_ok written
  split at rest
  · contradiction
  · rename_i free
    split at rest
    · contradiction
    · obtain rfl := Except.ok.inj rest
      obtain rfl := eq_target_of_locate found
      have proper : storage.target path ≠ [] := by
        intro root
        rw [root] at free
        exact free rfl
      exact ⟨found, fills_put tree proper (above_of_locate tree found) free, file?_put proper _⟩

end Operations

abbrev Attempt (α : Type) := StateM Storage (Except FileFault α)

section Directories

/-- Two actions in a row: the second starts from what the first leaves. -/
theorem run_bind {α β : Type} (first : StateM Storage α) (rest : α → StateM Storage β) :
    (first >>= rest).run storage =
      (rest (first.run storage).1).run (first.run storage).2 := rfl

theorem run_makeDirectory (path : String) :
    (Disk.makeDirectory path : Attempt Unit).run storage =
      attempt (·.makeDirectory path) storage := rfl

theorem run_isDirectory (path : String) :
    (Disk.isDirectory path : StateM Storage Bool).run storage =
      (storage.isDirectory path, storage) := rfl

theorem run_ensureDirectory (path : String) :
    (Disk.ensureDirectory path : Attempt Unit).run storage =
      match storage.makeDirectory path with
      | .ok changed => (.ok (), changed)
      | .error fault =>
        (if storage.isDirectory path then .ok () else .error fault, storage) := by
  rw [Disk.ensureDirectory, run_bind, run_makeDirectory, attempt]
  cases storage.makeDirectory path with
  | ok changed => rfl
  | error fault =>
    dsimp only
    rw [run_bind, run_isDirectory]
    cases storage.isDirectory path <;> rfl

theorem run_makeBelow_cons (path : String) (step : PathStep) (above : List PathStep) :
    (Disk.makeBelow path (step :: above) : Attempt Unit).run storage =
      match (Disk.ensureDirectory path : Attempt Unit).run storage with
      | (.error .notFound, opened) =>
        match (Disk.makeBelow (Path.ofSteps (step :: above).reverse) above :
            Attempt Unit).run opened with
        | (.error fault, opened) => (.error fault, opened)
        | (.ok (), opened) => (Disk.ensureDirectory path : Attempt Unit).run opened
      | result => result := by
  rw [Disk.makeBelow, run_bind]
  obtain ⟨result, opened⟩ := (Disk.ensureDirectory path : Attempt Unit).run storage
  cases result with
  | ok done => rfl
  | error fault =>
    cases fault with
    | notFound =>
      dsimp only
      rw [run_bind]
      obtain ⟨result, opened⟩ := (Disk.makeBelow (Path.ofSteps (step :: above).reverse) above :
        Attempt Unit).run opened
      cases result <;> rfl
    | _ => rfl

theorem opens_ensureDirectory (tree : storage.IsTree) (path : String) :
    Opens (· = storage.target path) storage
      ((Disk.ensureDirectory path : Attempt Unit).run storage).2 := by
  rw [run_ensureDirectory]
  cases made : storage.makeDirectory path with
  | ok changed => exact (of_makeDirectory tree made).2.2.2
  | error fault => exact .refl tree

theorem opens_makeBelow (tree : storage.IsTree) (path : String) (above : List PathStep) :
    Opens (fun at_ => at_ = storage.target path ∨ ∃ front, front <+: above.reverse ∧
        front ≠ [] ∧ at_ = storage.target (Path.ofSteps front))
      storage ((Disk.makeBelow path above : Attempt Unit).run storage).2 := by
  induction above generalizing storage path with
  | nil => exact (opens_ensureDirectory tree path).mono fun _ here => .inl here
  | cons step above ih =>
    have start := (opens_ensureDirectory tree path).mono (Q := fun at_ =>
      at_ = storage.target path ∨ ∃ front, front <+: (step :: above).reverse ∧ front ≠ [] ∧
        at_ = storage.target (Path.ofSteps front)) fun _ here => .inl here
    rw [run_makeBelow_cons]
    generalize (Disk.ensureDirectory path : Attempt Unit).run storage = ran at start ⊢
    split
    · rename_i opened
      have second := ih start.tree (Path.ofSteps (step :: above).reverse)
      generalize (Disk.makeBelow (Path.ofSteps (step :: above).reverse) above :
        Attempt Unit).run opened = ran at second ⊢
      have both := start.trans (second.mono (by
        intro at_ new
        simp only [target_congr start.current] at new
        rcases new with here | ⟨front, less, nonempty, here⟩
        · exact .inr ⟨_, List.prefix_refl _, by simp, here⟩
        · refine .inr ⟨front, less.trans ?_, nonempty, here⟩
          rw [List.reverse_cons]
          exact List.prefix_append _ _))
      split
      · exact both
      · refine both.trans ((opens_ensureDirectory both.tree path).mono fun at_ here => ?_)
        exact .inl (here.trans (target_congr both.current path))
    · exact start

/-- Where the directories of a path are, from its first step to all of them. -/
def OnWay (storage : Storage) (path : String) (at_ : Address) : Prop :=
  ∃ front, front <+: Path.steps path ∧ front ≠ [] ∧
    at_ = Path.leads (storage.origin path) front

/-- Creating a directory with all that it lies in makes directories on its way and nothing else. -/
theorem opens_makeDirectories (tree : storage.IsTree) (path : String) :
    Opens (storage.OnWay path) storage
      ((Disk.makeDirectories path : Attempt Unit).run storage).2 := by
  by_cases empty : path = ""
  · subst empty
    exact .refl tree
  · rw [Disk.makeDirectories, if_neg (by simpa using empty)]
    refine (opens_makeBelow tree path _).mono fun at_ new => ?_
    have nonempty := Path.steps_ne_nil empty
    rcases new with here | ⟨front, less, some, here⟩
    · exact ⟨_, List.prefix_refl _, nonempty, by rw [here, target, Path.leads_steps]⟩
    · have shorter : front <+: Path.steps path := by
        rw [List.tail_reverse, List.reverse_reverse] at less
        exact less.trans (List.dropLast_prefix _)
      refine ⟨front, shorter, some, ?_⟩
      rw [here, target, origin, origin, Path.walk_ofSteps_of_prefix shorter,
        Path.isAbsolute_ofSteps_of_prefix shorter some]

/-- A directory that is there is left alone. -/
theorem ensureDirectory_of_isDirectory {path : String} (h : storage.isDirectory path = true) :
    (Disk.ensureDirectory path : Attempt Unit).run storage = (.ok (), storage) := by
  obtain ⟨at_, located, there⟩ := isDirectory_iff.mp h
  have taken : storage.makeDirectory path = .error .alreadyExists := by
    rw [makeDirectory, located]
    dsimp only [bind, Except.bind]
    rw [there]
    rfl
  rw [run_ensureDirectory, taken, h]
  rfl

/-- The directories above are looked at only where there is nothing. -/
theorem makeDirectories_of_ensureDirectory {path : String} (nonempty : path ≠ "")
    (found : ((Disk.ensureDirectory path : Attempt Unit).run storage).1 ≠ .error .notFound) :
    (Disk.makeDirectories path : Attempt Unit).run storage =
      (Disk.ensureDirectory path : Attempt Unit).run storage := by
  rw [Disk.makeDirectories, if_neg (by simpa using nonempty)]
  cases (Path.steps path).reverse.tail with
  | nil => rfl
  | cons step above =>
    rw [run_makeBelow_cons]
    split
    · rename_i missing
      rw [missing] at found
      exact absurd rfl found
    · rfl

theorem makeDirectories_of_isDirectory {path : String} (h : storage.isDirectory path = true) :
    (Disk.makeDirectories path : Attempt Unit).run storage = (.ok (), storage) := by
  obtain ⟨at_, located, -⟩ := isDirectory_iff.mp h
  have ensured := ensureDirectory_of_isDirectory h
  rw [makeDirectories_of_ensureDirectory (ne_empty_of_locate located), ensured]
  intro missing
  rw [ensured] at missing
  contradiction

/-- The directories in which a name below a directory lies, apart from that directory itself. -/
theorem opens_parent (tree : storage.IsTree) {directory name : String} {place : Address}
    (found : storage.locate directory = .ok place)
    (there : storage.node? place = some .directory) (ordinary : Path.IsOrdinary name) :
    Opens (fun at_ => ∃ front, front <+: (Path.segments name).dropLast ∧ front ≠ [] ∧
        at_ = place ++ front)
      storage ((Disk.makeDirectories ((Path.parent? (Path.join directory name)).getD "") :
        Attempt Unit).run storage).2 := by
  have nonempty := ne_empty_of_locate found
  have less : Path.steps directory ++ (Path.segments name).dropLast.map .segment <+:
      Path.steps (Path.join directory name) := by
    rw [Path.steps_join nonempty ordinary, List.prefix_append_right_inj]
    exact (List.dropLast_prefix _).map _
  have begins : Path.steps directory ++ (Path.segments name).dropLast.map .segment ≠ [] :=
    List.append_ne_nil_of_left_ne_nil (Path.steps_ne_nil nonempty) _
  rw [Path.parent?_join nonempty ordinary, Option.getD_some]
  refine (opens_makeDirectories tree _).sharpen fun at_ new free => ?_
  obtain ⟨front, short, nonempty, here⟩ := new
  rw [Path.steps_ofSteps_of_prefix less] at short
  rw [origin, Path.isAbsolute_ofSteps_of_prefix less begins, ← origin,
    origin_join found ordinary] at here
  -- what the way to the directory itself passes is there already
  rcases List.prefix_or_prefix_of_prefix short (List.prefix_append (Path.steps directory) _) with
    on | ⟨names, rfl⟩
  · exact absurd (here ▸ directory_on_way found there on) free
  · rw [List.prefix_append_right_inj] at short
    obtain ⟨later, whole⟩ := short
    obtain ⟨front, back, parts, rfl, -⟩ := List.map_eq_append_iff.mp whole.symm
    rw [Path.leads_append, Path.leads_segments, Path.leads_steps, ← target,
      ← eq_target_of_locate found] at here
    refine ⟨front, ?_, ?_, here⟩
    · exact parts ▸ List.prefix_append front back
    · rintro rfl
      rw [List.append_nil] at here
      exact free (by rw [here, there])

end Directories

end Quire.Storage
