import Quire.Bundle.Page
import Quire.Bundle.Resource

/-!
# Assembly

A page with everything that it ships with, as one resource. Entries that the catalogue does not
contain are reported here, before anything is written. Groups are made with a check that no name
comes twice. It always passes, so nothing has to be reported for it.
-/

namespace Quire

inductive RenderFailure where
  | numbering (refused : RefusedFormat)
  | theme (refused : RefusedTheme)
  | template (failure : TemplateFailure)
  | load (failure : LoadFailure)
  deriving DecidableEq, Repr

def RenderFailure.message : RenderFailure → String
  | numbering refused => refused.message
  | theme refused => refused.message
  | template failure => "Template error: " ++ failure.message
  | load failure => failure.message

namespace Bundle

/-- The first component that a catalogue does not contain is missing. -/
def checkAvailable (catalogue : Catalogue) (components : List Component) :
    Except LoadFailure Unit :=
  match components.find? fun component => !catalogue.contains component.path with
  | some component => .error (.missing component.path)
  | none => .ok ()

/-- A component as a file that is loaded when it is written. -/
def componentFile (component : Component) : Resource :=
  let type := match component.kind with
    | .stylesheet => FileType.css
    | .script => FileType.javascript
  .file component.name type (.entry component.path)

def themeImports (stylesheets : List Component) : String :=
  "\n".intercalate (stylesheets.map fun component => "@import url('" ++ component.name ++ ".css');")

def themeMembers (stylesheets : List Component) : List Resource :=
  stylesheets.map componentFile ++ [.file "theme" .css (.text (themeImports stylesheets))]

/-- A page with the groups that it ships with. -/
def resource? (context : Context) (page : String) : Except DuplicateName Resource := do
  let theme ← Resource.group? "theme" (themeMembers context.document.fullTheme.stylesheets)
  let script ← Resource.group? "script" (context.scripts.map componentFile)
  Resource.group? context.document.bundleName [.file "index" .html (.text page), theme, script]

theorem nodup_themeMembers (theme : Theme) :
    ((themeMembers theme.stylesheets).map Resource.name).Nodup := by
  -- the names start with different letters
  refine List.Pairwise.of_map (S := (· ≠ ·)) (fun name : String => name.toList.head?)
    (fun _ _ other same => other (congrArg (·.toList.head?) same)) ?_
  obtain ⟨color, layout⟩ := theme
  cases color <;> cases layout <;>
    simp [themeMembers, Theme.stylesheets, componentFile, Component.stylesheet, Resource.name]

theorem nodup_scripts (context : Context) :
    ((context.scripts.map componentFile).map Resource.name).Nodup := by
  have all : (PageScript.all.map PageScript.name).Nodup := by decide
  rw [Context.scripts, List.map_map, List.map_map]
  exact all.sublist (List.filter_sublist.map _)

/-- The groups of a page never meet with a name twice. -/
theorem resource?_eq (context : Context) (page : String) :
    resource? context page = .ok (.group context.document.bundleName
      [.file "index" .html (.text page),
        .group "theme" (themeMembers context.document.fullTheme.stylesheets),
        .group "script" (context.scripts.map componentFile)]) := by
  have names : ["index", "theme", "script"].Nodup := by decide
  rw [resource?, Resource.group?_eq_ok_iff.mpr ⟨nodup_themeMembers _, rfl⟩,
    Resource.group?_eq_ok_iff.mpr ⟨nodup_scripts context, rfl⟩]
  dsimp only [bind, Except.bind]
  rw [Resource.group?_eq_ok_iff]
  exact ⟨names, rfl⟩

/-- A page with the groups that it ships with, whose names always differ. -/
def resource (context : Context) (page : String) : Resource :=
  (resource? context page).toOption.get (by rw [resource?_eq]; rfl)

theorem resource?_eq_ok (context : Context) (page : String) :
    resource? context page = .ok (resource context page) := by
  unfold resource
  simp only [resource?_eq]
  rfl

theorem resource_eq (context : Context) (page : String) :
    resource context page = .group context.document.bundleName
      [.file "index" .html (.text page),
        .group "theme" (themeMembers context.document.fullTheme.stylesheets),
        .group "script" (context.scripts.map componentFile)] :=
  Except.ok.inj ((resource?_eq_ok context page).symm.trans (resource?_eq context page))

/-- The body wrapped in the page template of a catalogue. -/
def page (context : Context) (catalogue : Catalogue) (body : String) :
    Except RenderFailure String := do
  let text ← (catalogue.load Catalogue.Builtin.pagePath).mapError .load
  (Page.wrap context text body).mapError .template

def assemble (context : Context) (catalogue : Catalogue) (body : String) :
    Except RenderFailure Resource := do
  let page ← page context catalogue body
  let stylesheets ← context.document.fullTheme.components.mapError .theme
  (checkAvailable catalogue stylesheets).mapError .load
  (checkAvailable catalogue context.scripts).mapError .load
  pure (resource context page)

end Bundle
end Quire
