import Quire.Bundle.Writing
import Quire.Proofs.Storage.Changes

/-!
# The files of a resource

Where the files of a resource go, and what writing it does: entries come up below the directory it
is written into and nowhere else, and after a success every file holds what was last written there.
-/

namespace Quire

namespace Resource

mutual

def names : Resource → List String
  | file name _ _ => [name]
  | group name members => name :: namesOf members

def namesOf : List Resource → List String
  | [] => []
  | member :: rest => member.names ++ namesOf rest

end

def IsOrdinary (resource : Resource) : Prop := ∀ name ∈ resource.names, Path.IsOrdinary name

instance (resource : Resource) : Decidable resource.IsOrdinary :=
  inferInstanceAs (Decidable (∀ name ∈ _, _))

mutual

/-- The files of a resource in the order in which they are written: where each one is, seen from
the directory that the resource is written into, and what it holds. -/
def files : Resource → List (Storage.Address × FileContent)
  | file name type content => [(Path.segments (file name type content).fileName, content)]
  | group name members =>
    (filesOf members).map fun member => (Path.segments name ++ member.1, member.2)

def filesOf : List Resource → List (Storage.Address × FileContent)
  | [] => []
  | member :: rest => member.files ++ filesOf rest

end

/-- The addresses that writing a resource into a directory may touch. -/
def Reaches (resource : Resource) (place at_ : Storage.Address) : Prop :=
  Storage.isWithin (place ++ (Path.segments resource.fileName).take 1) at_ = true

end Resource

namespace Path

/-- A text without slashes goes to the last segment. -/
theorem pieces_append_of_no_slash (a : List Char) {b : List Char} (h : '/' ∉ b) :
    ∃ front last, pieces a = front ++ [last] ∧ pieces (a ++ b) = front ++ [last ++ b] := by
  induction a with
  | nil => exact ⟨[], [], rfl, pieces_of_no_slash h⟩
  | cons c rest ih =>
    obtain ⟨front, last, alone, longer⟩ := ih
    rw [List.cons_append, pieces, pieces, alone, longer]
    split
    · exact ⟨[] :: front, last, rfl, rfl⟩
    · cases front with
      | nil => exact ⟨[], c :: last, rfl, rfl⟩
      | cons first front => exact ⟨(c :: first) :: front, last, rfl, rfl⟩

end Path

namespace Resource

theorem isOrdinary_fileName {resource : Resource} (h : resource.IsOrdinary) :
    Path.IsOrdinary resource.fileName := by
  cases resource with
  | group name members => exact h name List.mem_cons_self
  | file name type content =>
    have plain : '/' ∉ ("." ++ type.ending).toList ∧ 2 < ("." ++ type.ending).toList.length := by
      cases type <;> decide
    obtain ⟨front, last, alone, longer⟩ := Path.pieces_append_of_no_slash name.toList plain.1
    have own := h name (List.mem_singleton.mpr rfl)
    intro piece mem
    rw [fileName, String.append_assoc, String.toList_append, longer] at mem
    rcases List.mem_append.mp mem with before | ending
    · exact own piece (alone ▸ List.mem_append_left _ before)
    · obtain rfl := List.mem_singleton.mp ending
      have long : 2 < (last ++ ("." ++ type.ending).toList).length := by
        rw [List.length_append]
        omega
      refine ⟨?_, ?_, ?_⟩ <;> (intro same; rw [same] at long; contradiction)

theorem namesOf_eq_flatMap (members : List Resource) :
    namesOf members = members.flatMap names := by
  induction members with
  | nil => rfl
  | cons member rest ih => rw [namesOf, ih, List.flatMap_cons]

theorem isOrdinary_group_iff {name : String} {members : List Resource} :
    (group name members).IsOrdinary ↔
      Path.IsOrdinary name ∧ ∀ member ∈ members, member.IsOrdinary := by
  rw [IsOrdinary, names, List.forall_mem_cons, namesOf_eq_flatMap, List.forall_mem_flatMap]
  rfl

theorem isOrdinary_member {name : String} {members : List Resource}
    (h : (group name members).IsOrdinary) {member : Resource} (mem : member ∈ members) :
    member.IsOrdinary := (isOrdinary_group_iff.mp h).2 member mem

theorem filesOf_eq_flatMap (members : List Resource) :
    filesOf members = members.flatMap files := by
  induction members with
  | nil => rfl
  | cons member rest ih => rw [filesOf, ih, List.flatMap_cons]

/-- All files of a resource are below its own name. -/
theorem exists_below_of_mem_files {resource : Resource}
    {file : Storage.Address × FileContent} (h : file ∈ resource.files) :
    ∃ below, file.1 = Path.segments resource.fileName ++ below := by
  cases resource with
  | file name type content =>
    obtain rfl := List.mem_singleton.mp h
    exact ⟨[], (List.append_nil _).symm⟩
  | group name members =>
    obtain ⟨member, -, rfl⟩ := List.mem_map.mp h
    exact ⟨member.1, rfl⟩

/-- What a group touches, its members touch below it. -/
theorem reaches_of_isWithin {resource : Resource} {place at_ : Storage.Address}
    (h : Storage.isWithin (place ++ Path.segments resource.fileName) at_ = true) :
    resource.Reaches place at_ := by
  refine Storage.isWithin_trans (Storage.isWithin_iff.mpr ?_) h
  rw [List.prefix_append_right_inj]
  exact List.take_prefix 1 _

theorem Reaches.isWithin {resource : Resource} {place at_ : Storage.Address}
    (h : resource.Reaches place at_) : Storage.isWithin place at_ = true ∧ at_ ≠ place := by
  refine ⟨Storage.isWithin_trans (Storage.isWithin_append place _) h, ?_⟩
  rintro rfl
  have length := (Storage.isWithin_iff.mp h).length_le
  have nonempty := List.length_pos_iff.mpr (Path.segments_ne_nil resource.fileName)
  rw [List.length_append, List.length_take] at length
  omega

end Resource

namespace Bundle

abbrev Writing (α : Type) := ExceptT WriteFailure (StateM Storage) α

/-- What a part of writing comes to, and the storage that it leaves. -/
def Writing.on {α : Type} (writing : Writing α) (storage : Storage) :
    Except WriteFailure α × Storage :=
  writing.run.run storage

section Runs

variable {α β : Type} {storage after : Storage}

theorem on_pure (a : α) : Writing.on (pure a) storage = (.ok a, storage) := rfl

theorem on_bind (first : Writing α) (rest : α → Writing β) :
    Writing.on (first >>= rest) storage =
      match Writing.on first storage with
      | (.ok a, after) => Writing.on (rest a) after
      | (.error failure, after) => (.error failure, after) := by
  rw [Writing.on, Writing.on, ExceptT.run_bind, Storage.run_bind]
  obtain ⟨result, after⟩ := first.run.run storage
  cases result <;> rfl

theorem on_perform (action : Storage.Attempt α) :
    Writing.on (perform action) storage =
      ((action.run storage).1.mapError .file, (action.run storage).2) := by
  rw [Writing.on, perform, ExceptT.run_mk, Storage.run_bind]
  obtain ⟨result, after⟩ := action.run storage
  cases result <;> rfl

/-- What succeeds is done, and what does not leaves the storage alone. -/
def outcome (storage : Storage) :
    Except FileFault Storage → Except WriteFailure Unit × Storage
  | .ok changed => (.ok (), changed)
  | .error fault => (.error (.file fault), storage)

theorem on_attempt (change : Storage → Except FileFault Storage) :
    Writing.on (perform (Storage.attempt change)) storage = outcome storage (change storage) := by
  rw [on_perform, StateT.run, Storage.attempt]
  cases change storage <;> rfl

theorem on_makeDirectory (path : String) :
    Writing.on (perform (Disk.makeDirectory path)) storage =
      outcome storage (storage.makeDirectory path) := on_attempt _

theorem on_writeText (path text : String) :
    Writing.on (perform (Disk.writeText path text)) storage =
      outcome storage (storage.writeBytes path text.toUTF8) := on_attempt _

theorem on_move (source target : String) :
    Writing.on (perform (Disk.move source target)) storage =
      outcome storage (storage.move source target) := on_attempt _

/-- What a success says about a change. -/
theorem outcome_eq_ok {result : Except FileFault Storage}
    (h : outcome storage result = (.ok (), after)) : result = .ok after := by
  cases result with
  | ok changed => exact congrArg _ (Prod.mk.inj h).2
  | error fault => exact absurd (Prod.mk.inj h).1 nofun

theorem on_perform_eq_ok {action : Storage.Attempt α} {a : α}
    (h : Writing.on (perform action) storage = (.ok a, after)) :
    action.run storage = (.ok a, after) := by
  rw [on_perform, Prod.mk.injEq] at h
  exact Prod.ext (mapError_eq_ok h.1) h.2

theorem on_liftExcept (result : Except WriteFailure α) :
    Writing.on (liftExcept result) storage = (result, storage) := by
  cases result <;> rfl

/-- What a success says about the parts of writing. -/
theorem on_bind_eq_ok {first : Writing α} {rest : α → Writing β} {b : β}
    (h : Writing.on (first >>= rest) storage = (.ok b, after)) :
    ∃ a between, Writing.on first storage = (.ok a, between) ∧
      Writing.on (rest a) between = (.ok b, after) := by
  rw [on_bind] at h
  cases ran : Writing.on first storage with
  | mk result between =>
    rw [ran] at h
    cases result with
    | error failure => exact absurd (Prod.mk.inj h).1 nofun
    | ok a => exact ⟨a, between, rfl, h⟩

end Runs

section Places

variable (catalogue : Catalogue) {storage after : Storage} {directory : String}
  {place : Storage.Address}

/-- Writing a file adds at most the directories that its name asks for and the file. -/
theorem fills_writeFile (tree : storage.IsTree) (found : storage.locate directory = .ok place)
    (there : storage.node? place = some .directory) {name : String}
    (ordinary : Path.IsOrdinary name) (text : String) :
    Storage.Fills
      (fun at_ => Storage.isWithin (place ++ (Path.segments name).take 1) at_ = true) storage
      (Writing.on (writeFile (Path.join directory name) text) storage).2 := by
  have opened := Storage.opens_parent tree found there ordinary
  rw [writeFile, on_bind, on_perform]
  generalize (Disk.makeDirectories ((Path.parent? (Path.join directory name)).getD "") :
    Storage.Attempt Unit).run storage = ran at opened ⊢
  obtain ⟨result, between⟩ := ran
  have parents := opened.toFills.mono (Q := fun at_ =>
    Storage.isWithin (place ++ (Path.segments name).take 1) at_ = true) (by
      rintro at_ ⟨front, less, nonempty, rfl⟩
      rw [Storage.isWithin_iff, List.prefix_append_right_inj]
      obtain ⟨first, rest, rfl⟩ := List.exists_cons_of_ne_nil nonempty
      obtain ⟨later, whole⟩ := less.trans (List.dropLast_prefix _)
      rw [← whole]
      exact List.cons_prefix_cons.mpr ⟨rfl, List.nil_prefix⟩)
  cases result with
  | error fault => exact parents
  | ok done =>
    refine parents.trans ?_
    change Storage.Fills _ between (Writing.on (perform (Disk.writeText _ text)) between).2
    rw [on_writeText]
    cases written : between.writeBytes (Path.join directory name) text.toUTF8 with
    | error fault => exact .refl parents.tree
    | ok final =>
      refine (Storage.of_writeBytes parents.tree written).2.1.mono fun at_ here => ?_
      rw [here, Storage.target_join (parents.locate found) ordinary, Storage.isWithin_iff,
        List.prefix_append_right_inj]
      exact List.take_prefix 1 _

/-- A group is a directory of its own before its members are written. -/
theorem opens_group (tree : storage.IsTree) (found : storage.locate directory = .ok place)
    {name : String} (ordinary : Path.IsOrdinary name)
    (made : storage.makeDirectory (Path.join directory name) = .ok after) :
    Storage.Opens (· = place ++ Path.segments name) storage after ∧
      after.locate (Path.join directory name) = .ok (place ++ Path.segments name) ∧
      after.node? (place ++ Path.segments name) = some .directory := by
  obtain ⟨located, -, opened, opens⟩ := Storage.of_makeDirectory tree made
  rw [Storage.target_join found ordinary] at located opened opens
  exact ⟨opens, opens.toFills.locate located, opened⟩

mutual

/-- Writing a resource adds entries below its first segment and nowhere else, whether or not it
succeeds. -/
theorem fills_writeResource {storage : Storage} {directory : String} {place : Storage.Address}
    (resource : Resource) (ordinary : resource.IsOrdinary)
    (tree : storage.IsTree) (found : storage.locate directory = .ok place)
    (there : storage.node? place = some .directory) :
    Storage.Fills (resource.Reaches place) storage
      (Writing.on (writeResource catalogue directory resource) storage).2 := by
  cases resource with
  | file name type content =>
    rw [writeResource, on_bind, on_liftExcept]
    cases contentText catalogue content with
    | error failure => exact .refl tree
    | ok text =>
      exact fills_writeFile tree found there (Resource.isOrdinary_fileName ordinary) text
  | group name members =>
    rw [writeResource, on_bind, on_makeDirectory]
    cases made : storage.makeDirectory (Path.join directory name) with
    | error fault => exact .refl tree
    | ok opened =>
      obtain ⟨opens, located, open_⟩ :=
        opens_group tree found (ordinary name List.mem_cons_self) made
      refine (opens.toFills.mono ?_).trans ((fills_writeMembers members
        (fun member mem => Resource.isOrdinary_member ordinary mem) opens.tree located
        open_).mono ?_)
      · rintro at_ rfl
        exact Resource.reaches_of_isWithin (Storage.isWithin_iff.mpr (List.prefix_refl _))
      · rintro at_ ⟨member, -, inside⟩
        exact Resource.reaches_of_isWithin inside.isWithin.1

theorem fills_writeMembers {storage : Storage} {directory : String} {place : Storage.Address}
    (members : List Resource) (ordinary : ∀ member ∈ members, member.IsOrdinary)
    (tree : storage.IsTree)
    (found : storage.locate directory = .ok place)
    (there : storage.node? place = some .directory) :
    Storage.Fills (fun at_ => ∃ member ∈ members, member.Reaches place at_) storage
      (Writing.on (writeMembers catalogue directory members) storage).2 := by
  cases members with
  | nil => exact .refl tree
  | cons member rest =>
    have first := (fills_writeResource member (ordinary member List.mem_cons_self) tree found
      there).mono (Q := fun at_ => ∃ other ∈ member :: rest, other.Reaches place at_)
      fun at_ inside => ⟨member, List.mem_cons_self, inside⟩
    rw [writeMembers, on_bind]
    generalize Writing.on (writeResource catalogue directory member) storage = ran at first ⊢
    obtain ⟨result, between⟩ := ran
    cases result with
    | error failure => exact first
    | ok done =>
      refine first.trans ((fills_writeMembers rest
        (fun other mem => ordinary other (List.mem_cons_of_mem _ mem)) first.tree
        (first.locate found) (first.directory there)).mono ?_)
      rintro at_ ⟨other, mem, inside⟩
      exact ⟨other, List.mem_cons_of_mem _ mem, inside⟩

end

end Places

section Contents

def bytes? (catalogue : Catalogue) (content : FileContent) : Option ByteArray :=
  (contentText catalogue content).toOption.map String.toUTF8

/-- What files hold after some more of them are written below a place, one after the other. -/
def overlay (catalogue : Catalogue) (place : Storage.Address)
    (files : List (Storage.Address × FileContent)) (held : Storage.Address → Option ByteArray) :
    Storage.Address → Option ByteArray :=
  files.foldl (fun held file =>
    Function.update held (place ++ file.1) (bytes? catalogue file.2)) held

variable {catalogue : Catalogue} {place at_ : Storage.Address}
  {files : List (Storage.Address × FileContent)} {held : Storage.Address → Option ByteArray}

theorem overlay_append (more : List (Storage.Address × FileContent)) :
    overlay catalogue place (files ++ more) held =
      overlay catalogue place more (overlay catalogue place files held) := List.foldl_append

/-- Files below a directory are files whose paths start with its segments. -/
theorem overlay_below (segments : Storage.Address) :
    overlay catalogue place (files.map fun file => (segments ++ file.1, file.2)) held =
      overlay catalogue (place ++ segments) files held := by
  rw [overlay, overlay, List.foldl_map]
  simp only [List.append_assoc]

theorem overlay_of_notMem (h : ∀ file ∈ files, place ++ file.1 ≠ at_) :
    overlay catalogue place files held at_ = held at_ := by
  induction files generalizing held with
  | nil => rfl
  | cons file rest ih =>
    rw [List.forall_mem_cons] at h
    refine (ih h.2).trans ?_
    exact Function.update_of_ne (Ne.symm h.1) _ _

/-- A file that is not written again holds its content. -/
theorem overlay_last {before after : List (Storage.Address × FileContent)}
    {path : Storage.Address} {content : FileContent} (last : path ∉ after.map Prod.fst) :
    overlay catalogue place (before ++ (path, content) :: after) held (place ++ path) =
      bytes? catalogue content := by
  rw [overlay_append, overlay, List.foldl_cons, ← overlay]
  refine (overlay_of_notMem fun file mem same => last ?_).trans (Function.update_self _ _ _)
  rw [List.append_cancel_left_eq] at same
  exact same ▸ List.mem_map_of_mem mem

/-- Seen from the place itself, files are written below nothing. -/
theorem overlay_shift (path : Storage.Address) :
    overlay catalogue place files held (place ++ path) =
      overlay catalogue [] files (fun path => held (place ++ path)) path := by
  induction files generalizing held with
  | nil => rfl
  | cons file rest ih =>
    rw [overlay, List.foldl_cons, ← overlay, ih, overlay, overlay, List.foldl_cons]
    refine congrArg (fun held => overlay catalogue [] rest held path) (funext fun other => ?_)
    simp only [Function.update_apply, List.append_cancel_left_eq, List.nil_append]

def contents (catalogue : Catalogue) (files : List (Storage.Address × FileContent)) :
    Storage.Address → Option ByteArray :=
  overlay catalogue [] files fun _ => none

theorem contents_last {before after : List (Storage.Address × FileContent)}
    {path : Storage.Address} {content : FileContent} (last : path ∉ after.map Prod.fst) :
    contents catalogue (before ++ (path, content) :: after) path = bytes? catalogue content :=
  (overlay_last last : overlay catalogue [] _ _ ([] ++ path) = _)

theorem contents_of_notMem {path : Storage.Address} (h : path ∉ files.map Prod.fst) :
    contents catalogue files path = none :=
  overlay_of_notMem fun _ mem same => h (List.mem_map.mpr ⟨_, mem, same⟩)

end Contents

section Successes

variable {catalogue : Catalogue} {after : Storage}

/-- What writing some files with success leaves: their contents were all to be had, and each file
holds the one that came last. -/
structure Holds (catalogue : Catalogue) (place : Storage.Address)
    (files : List (Storage.Address × FileContent)) (before after : Storage) : Prop where
  loads : ∀ file ∈ files, ∃ text, contentText catalogue file.2 = .ok text
  held : after.file? = overlay catalogue place files before.file?

theorem Holds.trans {place : Storage.Address} {files more : List (Storage.Address × FileContent)}
    {before between after : Storage} (h : Holds catalogue place files before between)
    (k : Holds catalogue place more between after) :
    Holds catalogue place (files ++ more) before after := by
  refine ⟨fun file mem => (List.mem_append.mp mem).elim (h.loads file) (k.loads file), ?_⟩
  rw [overlay_append, ← h.held, k.held]

/-- A file that is written comes up where its name says. -/
theorem of_writeFile {storage : Storage} {directory : String} {place : Storage.Address}
    (tree : storage.IsTree) (found : storage.locate directory = .ok place)
    (there : storage.node? place = some .directory) {name text : String}
    (ordinary : Path.IsOrdinary name)
    (written : Writing.on (writeFile (Path.join directory name) text) storage = (.ok (), after)) :
    after.file? = Function.update storage.file? (place ++ Path.segments name)
        (some text.toUTF8) ∧
      after.locate (Path.join directory name) = .ok (place ++ Path.segments name) := by
  have opened := Storage.opens_parent tree found there ordinary
  obtain ⟨done, between, parents, rest⟩ := on_bind_eq_ok written
  rw [on_perform_eq_ok parents] at opened
  rw [on_writeText] at rest
  obtain ⟨located, fills, result⟩ := Storage.of_writeBytes opened.toFills.tree (outcome_eq_ok rest)
  rw [Storage.target_join (opened.toFills.locate found) ordinary] at located result
  refine ⟨?_, fills.locate located⟩
  rw [result, opened.files]

/-- A group that is written with success is a directory before its members are. -/
theorem of_writeGroup {storage : Storage} {directory name : String} {place : Storage.Address}
    {members : List Resource} (tree : storage.IsTree) (found : storage.locate directory = .ok place)
    (ordinary : Path.IsOrdinary name)
    (written : Writing.on (writeResource catalogue directory (.group name members)) storage =
      (.ok (), after)) :
    ∃ opened, Storage.Opens (· = place ++ Path.segments name) storage opened ∧
      opened.locate (Path.join directory name) = .ok (place ++ Path.segments name) ∧
      opened.node? (place ++ Path.segments name) = some .directory ∧
      Writing.on (writeMembers catalogue (Path.join directory name) members) opened =
        (.ok (), after) := by
  rw [writeResource] at written
  obtain ⟨done, opened, made, written⟩ := on_bind_eq_ok written
  rw [on_makeDirectory] at made
  obtain ⟨opens, located, open_⟩ := opens_group tree found ordinary (outcome_eq_ok made)
  exact ⟨opened, opens, located, open_, written⟩

mutual

/-- Writing a resource with success. -/
theorem of_writeResource {storage after : Storage} {directory : String} {place : Storage.Address}
    (resource : Resource) (ordinary : resource.IsOrdinary)
    (tree : storage.IsTree) (found : storage.locate directory = .ok place)
    (there : storage.node? place = some .directory)
    (written : Writing.on (writeResource catalogue directory resource) storage =
      (.ok (), after)) :
    Holds catalogue place resource.files storage after ∧
      (after.node? (place ++ Path.segments resource.fileName)).isSome ∧
      after.locate (Path.join directory resource.fileName) =
        .ok (place ++ Path.segments resource.fileName) := by
  cases resource with
  | file name type content =>
    rw [writeResource] at written
    obtain ⟨text, between, load, written⟩ := on_bind_eq_ok written
    rw [on_liftExcept, Prod.mk.injEq] at load
    obtain ⟨loaded, rfl⟩ := load
    obtain ⟨held, located⟩ :=
      of_writeFile tree found there (Resource.isOrdinary_fileName ordinary) written
    refine ⟨⟨fun file mem => ?_, ?_⟩, ?_, located⟩
    · obtain rfl := List.mem_singleton.mp mem
      exact ⟨text, loaded⟩
    · rw [held, Resource.files, overlay, List.foldl_cons, List.foldl_nil, bytes?, loaded]
      rfl
    · have own := congrFun held (place ++ Path.segments (Resource.file name type content).fileName)
      rw [Function.update_self, Storage.file?_eq_some_iff] at own
      rw [own]
      rfl
  | group name members =>
    obtain ⟨opened, opens, located, open_, written⟩ :=
      of_writeGroup tree found (ordinary name List.mem_cons_self) written
    have inner : ∀ member ∈ members, member.IsOrdinary :=
      fun member mem => Resource.isOrdinary_member ordinary mem
    obtain ⟨below, -⟩ := of_writeMembers members inner opens.toFills.tree located open_ written
    have fills := fills_writeMembers catalogue members inner opens.toFills.tree located open_
    rw [written] at fills
    refine ⟨⟨?_, ?_⟩, ?_, fills.locate located⟩
    · intro file mem
      obtain ⟨member, inside, rfl⟩ := List.mem_map.mp mem
      exact below.loads member inside
    · rw [Resource.files, overlay_below, ← opens.files, below.held]
    · rw [Resource.fileName, fills.directory open_]
      rfl

theorem of_writeMembers {storage after : Storage} {directory : String} {place : Storage.Address}
    (members : List Resource) (ordinary : ∀ member ∈ members, member.IsOrdinary)
    (tree : storage.IsTree) (found : storage.locate directory = .ok place)
    (there : storage.node? place = some .directory)
    (written : Writing.on (writeMembers catalogue directory members) storage =
      (.ok (), after)) :
    Holds catalogue place (Resource.filesOf members) storage after ∧
      ∀ member ∈ members, (after.node? (place ++ Path.segments member.fileName)).isSome := by
  cases members with
  | nil =>
    obtain rfl := (Prod.mk.inj written).2
    exact ⟨⟨nofun, rfl⟩, nofun⟩
  | cons member rest =>
    rw [writeMembers] at written
    obtain ⟨done, between, first, written⟩ := on_bind_eq_ok written
    have own := ordinary member List.mem_cons_self
    have others : ∀ other ∈ rest, other.IsOrdinary :=
      fun other mem => ordinary other (List.mem_cons_of_mem _ mem)
    have fills := fills_writeResource catalogue member own tree found there
    rw [first] at fills
    obtain ⟨holds, placed, -⟩ := of_writeResource member own tree found there first
    obtain ⟨more, follow⟩ := of_writeMembers rest others fills.tree (fills.locate found)
      (fills.directory there) written
    have kept := fills_writeMembers catalogue rest others fills.tree
      (fills.locate found) (fills.directory there)
    rw [written] at kept
    exact ⟨holds.trans more, List.forall_mem_cons.mpr ⟨kept.isSome placed, follow⟩⟩

end

end Successes

end Bundle
end Quire
