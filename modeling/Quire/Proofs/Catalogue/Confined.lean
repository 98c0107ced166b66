import Quire.Catalogue.Builtin
import Quire.Catalogue.Directory
import Quire.Proofs.Storage.Ways

/-!
# What a directory catalogue sees

The paths that a directory catalogue follows never leave its root, so all that it finds depends on
what stands at the root and below it.
-/

namespace Quire

/-- A step that stays where it is or goes down. -/
def PathStep.StaysBelow : PathStep → Prop
  | here => True
  | segment _ => True
  | _ => False

namespace Path

/-- The steps that are checked and the way that is taken differ in nothing but stays. -/
theorem staysBelow_of_segments {path : String}
    (h : (steps path).all Catalogue.isSegment = true) {step : PathStep} (mem : step ∈ walk path) :
    step.StaysBelow := by
  have names : ∀ step ∈ steps path, step.StaysBelow := by
    intro step mem
    have segment := List.all_eq_true.mp h step mem
    cases step with
    | segment name => trivial
    | _ => contradiction
  cases found : walk path with
  | nil =>
    rw [found] at mem
    contradiction
  | cons first rest =>
    rw [steps_eq found] at names
    rw [found] at mem
    rcases List.mem_cons.mp mem with rfl | later
    · exact names _ List.mem_cons_self
    · -- a `.` in the middle is on the way, although the check does not see it
      by_cases here : step = .here
      · rw [here]
        trivial
      · exact names step (List.mem_cons_of_mem _ (List.mem_filter.mpr ⟨later, by simpa using here⟩))

theorem isAbsolute_of_segments {path : String}
    (h : (steps path).all Catalogue.isSegment = true) : isAbsolute path = false := by
  by_contra absolute
  rw [Bool.not_eq_false, isAbsolute_iff_head?_walk] at absolute
  exact staysBelow_of_segments h (List.mem_of_mem_head? absolute)

end Path

namespace Storage

variable {a b : Storage}

/-- What stands at an address and below it, by the way from there. -/
def view (storage : Storage) (top : Address) (below : Address) : Option StorageNode :=
  storage.node? (top ++ below)

/-- What stands where a root leads and below it, or why the root leads nowhere. -/
def contentOf (storage : Storage) (root : String) : Except FileFault (Address → Option StorageNode) :=
  (storage.follow (storage.origin root) (Path.walk root)).map storage.view

theorem node?_of_view {p q : Address} (h : a.view p = b.view q) : a.node? p = b.node? q := by
  have here := congrFun h []
  rwa [view, view, List.append_nil, List.append_nil] at here

theorem view_segment {p q : Address} (h : a.view p = b.view q) (name : String) :
    a.view (p ++ [name]) = b.view (q ++ [name]) := by
  funext below
  have further := congrFun h (name :: below)
  rwa [view, view, List.append_assoc, List.append_assoc]

/-- Two directories that a root leads to have one content if the same stands below them. -/
theorem contentOf_eq {root : String} {p q : Address}
    (ha : a.follow (a.origin root) (Path.walk root) = .ok p)
    (hb : b.follow (b.origin root) (Path.walk root) = .ok q)
    (here : a.node? p = some .directory ∧ b.node? q = some .directory)
    (below : ∀ name rest, a.node? (p ++ name :: rest) = b.node? (q ++ name :: rest)) :
    a.contentOf root = b.contentOf root := by
  rw [contentOf, contentOf, ha, hb]
  refine congrArg Except.ok (funext fun way => ?_)
  cases way with
  | nil => rw [view, view, List.append_nil, List.append_nil, here.1, here.2]
  | cons name rest => exact below name rest

/-- One step at a time, a way that stays below leads to the same things. -/
theorem view_follow {way : List PathStep} (stays : ∀ step ∈ way, step.StaysBelow) {p q : Address}
    (h : a.view p = b.view q) :
    (a.follow p way).map a.view = (b.follow q way).map b.view := by
  induction way generalizing p q with
  | nil => exact congrArg _ h
  | cons step rest ih =>
    rw [List.forall_mem_cons] at stays
    have same := node?_of_view h
    rw [follow.eq_def, follow.eq_def b, same]
    rcases b.node? q with _ | _ | _
    · rfl
    · rfl
    · cases step with
      | segment name =>
        dsimp only
        split
        · rfl
        · exact ih stays.2 (view_segment h name)
      | here => exact ih stays.2 h
      | root => exact stays.1.elim
      | parent => exact stays.1.elim

theorem find_of_view {path : String} (h : (a.locate path).map a.view = (b.locate path).map b.view) :
    a.find path = b.find path := by
  rw [find, find]
  rcases map_eq_map h with ⟨fault, left, right⟩ | ⟨p, q, left, right, same⟩
  · rw [left, right]
    rfl
  · rw [left, right]
    simp only [bind, Except.bind, node?_of_view same]

/-- Storages of one content below the root find the same under names that stay below it. -/
theorem find_below {root path : String} (h : a.contentOf root = b.contentOf root)
    (names : (Path.steps path).all Catalogue.isSegment = true) :
    a.find (Path.join root path) = b.find (Path.join root path) := by
  have relative := Path.isAbsolute_of_segments names
  have way : Path.walk (Path.join root path) = Path.walk root ++ Path.walk path ∧
      Path.isAbsolute (Path.join root path) = Path.isAbsolute root := by
    by_cases empty : root = ""
    · subst empty
      rw [Path.join, relative]
      exact ⟨rfl, relative⟩
    · exact ⟨Path.walk_join_of_relative empty relative, Path.isAbsolute_join empty relative⟩
  apply find_of_view
  by_cases usable : Path.IsUsable (Path.join root path)
  · rw [locate_of_isUsable usable, locate_of_isUsable usable, way.1, origin, origin, way.2,
      ← origin, ← origin, follow_append, follow_append]
    rcases map_eq_map h with ⟨fault, left, right⟩ | ⟨p, q, left, right, same⟩
    · rw [left, right]
      rfl
    · rw [left, right]
      exact view_follow (fun step => Path.staysBelow_of_segments names) same
  · obtain ⟨fault, refused⟩ := locate_of_not_isUsable usable
    rw [refused a, refused b]
    rfl

end Storage

namespace Catalogue

/-- A directory catalogue is made of what stands below its root. -/
theorem directory_congr {a b : Storage} {root : String} (h : a.contentOf root = b.contentOf root) :
    directory a root = directory b root := by
  have found {path file : String} (place : fileBelow? root path = some file) :
      a.find file = b.find file := by
    rw [fileBelow?] at place
    split at place
    · rename_i names
      obtain rfl := Option.some.inj place
      exact Storage.find_below h names
    · contradiction
  have contains : (directory a root).contains = (directory b root).contains := by
    funext path
    simp only [directory]
    cases place : fileBelow? root path with
    | none => rfl
    | some file => simp only [Storage.isFile, found place]
  have load : (directory a root).load = (directory b root).load := by
    funext path
    simp only [directory]
    cases place : fileBelow? root path with
    | none => rfl
    | some file => simp only [loadFile, Storage.readText, found place]
  calc
    directory a root = ⟨(directory a root).contains, (directory a root).load⟩ := rfl
    _ = ⟨(directory b root).contains, (directory b root).load⟩ := by rw [contains, load]

/-- A directory catalogue sees only its own directory, by itself and before the built-in entries: two
storages of the same content at the root and below it cannot be told apart through it, whatever the
path. -/
theorem directory_confined {a b : Storage} {root : String}
    (h : a.contentOf root = b.contentOf root) (path : String) :
    (directory a root).contains path = (directory b root).contains path ∧
      (directory a root).load path = (directory b root).load path ∧
      (withOverrides (directory a root)).contains path =
        (withOverrides (directory b root)).contains path ∧
      (withOverrides (directory a root)).load path =
        (withOverrides (directory b root)).load path := by
  rw [directory_congr h]
  exact ⟨rfl, rfl, rfl, rfl⟩

/-- A file beside the root makes no difference, although the root leads to different places. -/
theorem directory_confined_beside_secret :
    let a : Storage := { entries := [(["site"], .directory),
      (["site", "page.css"], .file ⟨#[0x61]⟩), (["secret.css"], .file ⟨#[0x62]⟩)] }
    let b : Storage := { current := ["home"], entries := [(["home"], .directory),
      (["home", "site"], .directory), (["home", "site", "page.css"], .file ⟨#[0x61]⟩)] }
    a.contentOf "site" = b.contentOf "site" ∧
      a.isFile "site/../secret.css" = true ∧ b.isFile "site/../secret.css" = false ∧
      (directory a "site").contains "../secret.css" =
        (directory b "site").contains "../secret.css" ∧
      (directory a "site").load "../secret.css" = (directory b "site").load "../secret.css" ∧
      (withOverrides (directory a "site")).contains "../secret.css" =
        (withOverrides (directory b "site")).contains "../secret.css" ∧
      (withOverrides (directory a "site")).load "../secret.css" =
        (withOverrides (directory b "site")).load "../secret.css" := by
  intro a b
  have same : a.contentOf "site" = b.contentOf "site" := by
    refine Storage.contentOf_eq (p := ["site"]) (q := ["home", "site"]) rfl rfl ⟨rfl, rfl⟩ ?_
    intro name rest
    cases rest with
    | nil => by_cases page : "page.css" = name <;> simp [a, b, Storage.node?, page]
    | cons => simp [a, b, Storage.node?]
  exact ⟨same, rfl, rfl, directory_confined same "../secret.css"⟩

end Catalogue

end Quire
