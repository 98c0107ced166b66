/-!
# Resources

What a bundle is made of: files and groups of resources. A group becomes a directory.
-/

namespace Quire

inductive FileType where
  | html | css | javascript
  deriving DecidableEq, Repr

namespace FileType

/-- The ending of a file name, without its dot. -/
def ending : FileType → String
  | html => "html"
  | css => "css"
  | javascript => "js"

def mime : FileType → String
  | html => "text/html"
  | css => "text/css"
  | javascript => "text/javascript"

def all : List FileType := [html, css, javascript]

end FileType

inductive FileContent where
  | text (content : String)
  /-- The text of a catalogue entry, which is loaded when the file is written. -/
  | entry (path : String)
  deriving DecidableEq, Repr

inductive Resource where
  | file (name : String) (type : FileType) (content : FileContent)
  | group (name : String) (members : List Resource)
  deriving Repr

structure DuplicateName where
  group : String
  name : String
  deriving DecidableEq, Repr

def DuplicateName.message (duplicate : DuplicateName) : String :=
  "Duplicate artifact name '" ++ duplicate.name ++ "' in group '" ++ duplicate.group ++ "'"

namespace Resource

def name : Resource → String
  | file name _ _ => name
  | group name _ => name

/-- The name in a directory. Files carry the ending of their type. -/
def fileName : Resource → String
  | file name type _ => name ++ "." ++ type.ending
  | group name _ => name

def type? : Resource → Option FileType
  | file _ type _ => some type
  | group _ _ => none

def members? : Resource → Option (List Resource)
  | file .. => none
  | group _ members => some members

/-- The first text that is in a list a second time, at its second place. -/
def repeated? (seen : List String) : List String → Option String
  | [] => none
  | name :: rest => if seen.contains name then some name else repeated? (name :: seen) rest

/-- A group of resources with different names. -/
def group? (name : String) (members : List Resource) : Except DuplicateName Resource :=
  match repeated? [] (members.map Resource.name) with
  | some twice => .error ⟨name, twice⟩
  | none => .ok (.group name members)

theorem repeated?_eq_none_iff {seen names : List String} :
    repeated? seen names = none ↔ names.Nodup ∧ ∀ name ∈ names, name ∉ seen := by
  induction names generalizing seen with
  | nil => simp [repeated?]
  | cons name rest ih =>
    rw [repeated?]
    split
    · rename_i again
      refine ⟨nofun, fun h => ?_⟩
      exact absurd (List.contains_iff_mem.mp again) (h.2 name List.mem_cons_self)
    · rename_i new
      rw [ih, List.nodup_cons, List.forall_mem_cons]
      simp only [List.mem_cons, not_or]
      have fresh : name ∉ seen := fun mem => new (List.contains_iff_mem.mpr mem)
      constructor
      · rintro ⟨nodup, apart⟩
        exact ⟨⟨fun mem => (apart name mem).1 rfl, nodup⟩, fresh, fun other mem =>
          (apart other mem).2⟩
      · rintro ⟨⟨once, nodup⟩, -, apart⟩
        exact ⟨nodup, fun other mem => ⟨fun same => once (same ▸ mem), apart other mem⟩⟩

/-- A group is accepted exactly when its members have different names. -/
theorem group?_eq_ok_iff {name : String} {members : List Resource} {resource : Resource} :
    group? name members = .ok resource ↔
      (members.map Resource.name).Nodup ∧ resource = .group name members := by
  have accepted : repeated? [] (members.map Resource.name) = none ↔ _ := repeated?_eq_none_iff
  rw [group?]
  split
  · rename_i twice found
    rw [found] at accepted
    refine ⟨nofun, fun h => ?_⟩
    have unseen := accepted.mpr ⟨h.1, fun _ _ => List.not_mem_nil⟩
    contradiction
  · rename_i none
    rw [Except.ok.injEq]
    exact ⟨fun same => ⟨(accepted.mp none).1, same.symm⟩, fun h => h.2.symm⟩

def member? (resource : Resource) (name : String) : Option Resource := do
  (← resource.members?).find? (·.name == name)

/-- The content of a file whose text is known. -/
def text? : Resource → Option String
  | file _ _ (.text content) => some content
  | _ => none

end Resource
end Quire
