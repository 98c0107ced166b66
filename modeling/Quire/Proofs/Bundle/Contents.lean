import Mathlib.Data.List.Nodup
import Quire.Proofs.Bundle.Progress
import Quire.Proofs.Bundle.Shipping
import Quire.Proofs.Text.Name

/-!
# The contents of a bundle

Which files a bundle has on disk, whatever its document is called and whatever theme it asks for:
the page, the stylesheets of its theme with one that imports them, and the scripts that it needs.
-/

namespace Quire

namespace Resource

mutual

/-- No group holds two resources of one name. -/
def HasDistinctNames : Resource → Prop
  | file .. => True
  | group _ members => (members.map name).Nodup ∧ haveDistinctNames members

def haveDistinctNames : List Resource → Prop
  | [] => True
  | member :: rest => member.HasDistinctNames ∧ haveDistinctNames rest

end

theorem haveDistinctNames_iff {members : List Resource} :
    haveDistinctNames members ↔ ∀ member ∈ members, member.HasDistinctNames := by
  induction members with
  | nil => exact ⟨fun _ => List.forall_mem_nil _, fun _ => trivial⟩
  | cons member rest ih => rw [haveDistinctNames, ih, List.forall_mem_cons]

theorem hasDistinctNames_of_group? {name : String} {members : List Resource} {resource : Resource}
    (h : group? name members = .ok resource)
    (inner : ∀ member ∈ members, member.HasDistinctNames) : resource.HasDistinctNames := by
  obtain ⟨distinct, rfl⟩ := group?_eq_ok_iff.mp h
  exact ⟨distinct, haveDistinctNames_iff.mpr inner⟩

end Resource

namespace Path

/-- A name that is one segment on every system: without slashes, stops and NUL. -/
structure IsPlain (name : String) : Prop where
  nonempty : name.toList ≠ []
  noSlash : '/' ∉ name.toList
  noStop : '.' ∉ name.toList
  noNul : '\x00' ∉ name.toList

theorem IsPlain.isOrdinary {name : String} (h : IsPlain name) : IsOrdinary name :=
  isOrdinary_of_no_stop h.nonempty h.noSlash h.noStop

theorem IsPlain.ne_of_head {name other : String} (h : IsPlain name)
    (hidden : other.toList.head? = some '.') : name ≠ other := by
  rintro rfl
  exact h.noStop (List.mem_of_mem_head? hidden)

end Path

theorem DocumentSettings.isPlain_bundleName (settings : DocumentSettings) :
    Path.IsPlain settings.bundleName := by
  rw [bundleName]
  split
  · exact ⟨Text.identifier_ne_nil _, Text.slash_notMem_identifier _,
      Text.stop_notMem_identifier _, Text.nul_notMem_identifier _⟩
  · exact ⟨by decide, by decide, by decide, by decide⟩

namespace Theme

theorem isPlain_of_isName {name : String} (h : isName name = true) : Path.IsPlain name := by
  rw [isName, Bool.and_eq_true, List.all_eq_true] at h
  refine ⟨by simpa using h.1, fun mem => ?_, fun mem => ?_, fun mem => ?_⟩
  · exact absurd (h.2 _ mem) (by decide)
  · exact absurd (h.2 _ mem) (by decide)
  · exact absurd (h.2 _ mem) (by decide)

/-- The names of the stylesheets of a theme, in the order of their import. -/
def stylesheetNames (layout color : String) : List String :=
  ["global", "layout/" ++ layout, "color/" ++ color]

end Theme

/-- The layout of a document, which may be the built-in one. -/
def DocumentSettings.layoutName (settings : DocumentSettings) : String :=
  settings.theme.layout.getD "latex"

def DocumentSettings.colorName (settings : DocumentSettings) : String :=
  settings.theme.color.getD "paperwhite"

namespace DocumentSettings

variable (settings : DocumentSettings)

theorem layout_fullTheme : settings.fullTheme.layout = some settings.layoutName := by
  rw [layoutName, fullTheme, Theme.orElse, Theme.builtin]
  cases settings.theme.layout <;> rfl

theorem color_fullTheme : settings.fullTheme.color = some settings.colorName := by
  rw [colorName, fullTheme, Theme.orElse, Theme.builtin]
  cases settings.theme.color <;> rfl

theorem stylesheets_fullTheme : settings.fullTheme.stylesheets =
    (Theme.stylesheetNames settings.layoutName settings.colorName).map .stylesheet := by
  rw [Theme.stylesheets, layout_fullTheme, color_fullTheme]
  rfl

/-- Both parts of a theme that is accepted have accepted names. -/
theorem isName_of_check (h : settings.fullTheme.check = .ok ()) :
    Theme.isName settings.layoutName = true ∧ Theme.isName settings.colorName = true := by
  have accepted : ∀ {part name}, Theme.checkPart part (some name) = .ok () →
      Theme.isName name = true := by
    intro part name checked
    rw [Theme.checkPart] at checked
    split at checked
    · assumption
    · contradiction
  obtain ⟨_, first, second⟩ := bind_eq_ok h
  rw [layout_fullTheme] at first
  rw [color_fullTheme] at second
  exact ⟨accepted first, accepted second⟩

end DocumentSettings

namespace Bundle

/-- A stylesheet that imports those of a theme: the global one, the layout and the colours. -/
def imports (layout color : String) : String :=
  "\n".intercalate (["global", "layout/" ++ layout, "color/" ++ color].map fun name =>
    "@import url('" ++ name ++ ".css');")

/-- All files of a bundle: where they are below it, and what they hold. -/
def listing (page layout color : String) (scripts : List PageScript) :
    List (Storage.Address × FileContent) :=
  [(["index.html"], .text page),
    (["theme", "global.css"], .entry "theme/global.css"),
    (["theme", "layout", layout ++ ".css"], .entry ("theme/layout/" ++ layout ++ ".css")),
    (["theme", "color", color ++ ".css"], .entry ("theme/color/" ++ color ++ ".css")),
    (["theme", "theme.css"], .text (imports layout color))] ++
  scripts.map fun script =>
    (["script", script.name ++ ".js"], .entry ("script/" ++ script.name ++ ".js"))

def themeGroup (layout color : String) : Resource :=
  .group "theme" (themeMembers ((Theme.stylesheetNames layout color).map .stylesheet))

def scriptGroup (scripts : List PageScript) : Resource :=
  .group "script" ((scripts.map PageScript.component).map componentFile)

def shape (root page layout color : String) (scripts : List PageScript) : Resource :=
  .group root [.file "index" .html (.text page),
    themeGroup layout color, scriptGroup scripts]

theorem resource_eq_shape (context : Context) (page : String) :
    resource context page = shape context.document.bundleName page context.document.layoutName
      context.document.colorName (PageScript.all.filter context.needsScript) := by
  rw [resource_eq, DocumentSettings.stylesheets_fullTheme, shape, themeGroup, scriptGroup,
    Context.scripts]

section Shape

variable {root page layout color : String} {scripts : List PageScript}

/-- A stylesheet in a folder of its own. -/
theorem segments_in_folder {folder name : String} (hf : '/' ∉ folder.toList)
    (hn : '/' ∉ name.toList) : Path.segments (folder ++ "/" ++ name ++ ".css") =
      [folder, name ++ ".css"] := by
  have plain : '/' ∉ (name ++ ".css").toList := by
    rw [String.toList_append, List.mem_append]
    exact fun mem => mem.elim hn (by decide)
  rw [String.append_assoc, Path.segments_append_slash, Path.segments_of_no_slash hf,
    Path.segments_of_no_slash plain]
  rfl

/-- Where the stylesheets of a theme are in its folder. -/
theorem segments_stylesheets (hl : '/' ∉ layout.toList) (hc : '/' ∉ color.toList) :
    Path.segments ("global" ++ ".css") = ["global.css"] ∧
      Path.segments ("layout/" ++ layout ++ ".css") = ["layout", layout ++ ".css"] ∧
      Path.segments ("color/" ++ color ++ ".css") = ["color", color ++ ".css"] ∧
      Path.segments ("theme" ++ ".css") = ["theme.css"] := by
  have layouts : "layout/" = "layout" ++ "/" := rfl
  have colors : "color/" = "color" ++ "/" := rfl
  rw [layouts, colors, segments_in_folder (by decide) hl, segments_in_folder (by decide) hc]
  exact ⟨by decide +kernel, rfl, rfl, by decide +kernel⟩

theorem fileName_css (name : String) (content : FileContent) :
    (Resource.file name .css content).fileName = name ++ ".css" := by
  rw [Resource.fileName, String.append_assoc]
  rfl

theorem files_css (name : String) (content : FileContent) :
    (Resource.file name .css content).files = [(Path.segments (name ++ ".css"), content)] := by
  rw [← fileName_css name content]
  rfl

theorem files_stylesheet (name : String) : (componentFile (.stylesheet name)).files =
    [(Path.segments (name ++ ".css"), .entry ("theme/" ++ name ++ ".css"))] := files_css name _

theorem files_script (script : PageScript) : (componentFile script.component).files =
    [([script.name ++ ".js"], .entry ("script/" ++ script.name ++ ".js"))] := by
  cases script <;> decide +kernel

theorem files_themeGroup (hl : '/' ∉ layout.toList) (hc : '/' ∉ color.toList) :
    (themeGroup layout color).files =
      [(["theme", "global.css"], .entry "theme/global.css"),
        (["theme", "layout", layout ++ ".css"], .entry ("theme/layout/" ++ layout ++ ".css")),
        (["theme", "color", color ++ ".css"], .entry ("theme/color/" ++ color ++ ".css")),
        (["theme", "theme.css"], .text (imports layout color))] := by
  obtain ⟨global, layouts, colors, theme⟩ := segments_stylesheets hl hc
  have layoutPath : "theme/" ++ ("layout/" ++ layout) ++ ".css" =
      "theme/layout/" ++ layout ++ ".css" := by
    rw [← String.append_assoc]
    rfl
  have colorPath : "theme/" ++ ("color/" ++ color) ++ ".css" =
      "theme/color/" ++ color ++ ".css" := by
    rw [← String.append_assoc]
    rfl
  have folder : Path.segments "theme" = ["theme"] := Path.segments_of_no_slash (by decide)
  rw [themeGroup, themeMembers, Resource.files, Resource.filesOf_eq_flatMap, List.flatMap_append]
  simp only [Theme.stylesheetNames, List.map_cons, List.map_nil, List.flatMap_cons,
    List.flatMap_nil, files_stylesheet, files_css, global, layouts, colors, theme, layoutPath,
    colorPath, folder]
  rfl

theorem files_shape (hr : '/' ∉ root.toList) (hl : '/' ∉ layout.toList) (hc : '/' ∉ color.toList) :
    (shape root page layout color scripts).files =
      (listing page layout color scripts).map fun file => (root :: file.1, file.2) := by
  have index : (Resource.file "index" .html (.text page)).files =
      [(["index.html"], .text page)] := by
    have segments : Path.segments ("index" ++ "." ++ FileType.html.ending) = ["index.html"] := by
      decide +kernel
    exact congrArg (fun segments => [(segments, FileContent.text page)]) segments
  have scriptFiles : (scriptGroup scripts).files =
      scripts.map fun script => (["script", script.name ++ ".js"],
        .entry ("script/" ++ script.name ++ ".js")) := by
    have folder : Path.segments "script" = ["script"] := Path.segments_of_no_slash (by decide)
    rw [scriptGroup, Resource.files, Resource.filesOf_eq_flatMap, List.map_map, List.flatMap_map]
    simp only [Function.comp_apply, files_script, folder, ← List.map_eq_flatMap, List.map_map]
    rfl
  rw [shape, Resource.files, Resource.filesOf_eq_flatMap, Path.segments_of_no_slash hr]
  simp only [List.flatMap_cons, List.flatMap_nil, index, scriptFiles, files_themeGroup hl hc,
    List.append_nil]
  rfl

/-- The files of a bundle are at different paths, as their first two steps tell. -/
theorem nodup_listing (listed : scripts.Sublist PageScript.all) :
    ((listing page layout color scripts).map Prod.fst).Nodup := by
  let fixed : List Storage.Address := [["index.html"], ["theme", "global.css"],
    ["theme", "layout"], ["theme", "color"], ["theme", "theme.css"]]
  let stem (script : PageScript) : Storage.Address := ["script", script.name ++ ".js"]
  have all : (fixed ++ PageScript.all.map stem).Nodup := by decide +kernel
  refine List.Nodup.of_map (List.take 2) ?_
  rw [listing, List.map_append, List.map_append, List.map_map, List.map_map, List.map_map]
  exact all.sublist ((List.Sublist.refl fixed).append (listed.map stem))

/-- In no group of a bundle two names are the same. -/
theorem hasDistinctNames_resource (context : Context) (page : String) :
    (resource context page).HasDistinctNames := by
  obtain ⟨theme, themed, rest⟩ := bind_eq_ok (resource?_eq_ok context page)
  obtain ⟨script, scripted, whole⟩ := bind_eq_ok rest
  have components : ∀ {list : List Component}, ∀ member ∈ list.map componentFile,
      member.HasDistinctNames := by
    intro list
    rw [List.forall_mem_map]
    exact fun _ _ => trivial
  have first : theme.HasDistinctNames := by
    refine Resource.hasDistinctNames_of_group? themed ?_
    rw [themeMembers, List.forall_mem_append, List.forall_mem_singleton]
    exact ⟨components, trivial⟩
  have second := Resource.hasDistinctNames_of_group? scripted components
  refine Resource.hasDistinctNames_of_group? whole ?_
  rw [List.forall_mem_cons, List.forall_mem_cons, List.forall_mem_singleton]
  exact ⟨trivial, first, second⟩

theorem isOrdinary_componentFile {component : Component} (h : Path.IsOrdinary component.name) :
    (componentFile component).IsOrdinary := List.forall_mem_singleton.mpr h

theorem isOrdinary_shape (hr : Path.IsPlain root) (hl : Path.IsPlain layout)
    (hc : Path.IsPlain color) : (shape root page layout color scripts).IsOrdinary := by
  have layouts : Path.IsOrdinary ("layout/" ++ layout) := by
    have first : Path.IsOrdinary "layout" := by decide
    exact first.append_slash hl.isOrdinary
  have colors : Path.IsOrdinary ("color/" ++ color) := by
    have first : Path.IsOrdinary "color" := by decide
    exact first.append_slash hc.isOrdinary
  have index : (Resource.file "index" .html (.text page)).IsOrdinary :=
    List.forall_mem_singleton.mpr (by decide)
  have theme :
      (themeGroup layout color).IsOrdinary := by
    refine Resource.isOrdinary_group_iff.mpr ⟨by decide, ?_⟩
    rw [themeMembers, List.forall_mem_append, List.forall_mem_singleton, List.forall_mem_map]
    refine ⟨fun component mem => isOrdinary_componentFile ?_,
      List.forall_mem_singleton.mpr (by decide)⟩
    obtain ⟨name, listed, rfl⟩ := List.mem_map.mp mem
    have names : ∀ name ∈ Theme.stylesheetNames layout color, Path.IsOrdinary name := by
      simpa [Theme.stylesheetNames, layouts, colors] using (by decide : Path.IsOrdinary "global")
    exact names name listed
  have script : (scriptGroup scripts).IsOrdinary := by
    refine Resource.isOrdinary_group_iff.mpr ⟨by decide, ?_⟩
    rw [List.forall_mem_map, List.forall_mem_map]
    intro script _
    refine isOrdinary_componentFile ?_
    cases script <;> decide
  refine Resource.isOrdinary_group_iff.mpr ⟨hr.isOrdinary, ?_⟩
  exact List.forall_mem_cons.mpr
    ⟨index, List.forall_mem_cons.mpr ⟨theme, List.forall_mem_singleton.mpr script⟩⟩

theorem hasRoom_css {name : String} {content : FileContent}
    (short : (Path.segments (name ++ ".css")).length ≤ 2) (noNul : '\x00' ∉ name.toList) :
    (Resource.file name .css content).HasRoom := by
  rw [← fileName_css name content] at short
  exact ⟨short, noNul⟩

theorem hasRoom_themeGroup (hl : Path.IsPlain layout) (hc : Path.IsPlain color) :
    (themeGroup layout color).HasRoom := by
  obtain ⟨global, layouts, colors, theme⟩ := segments_stylesheets hl.noSlash hc.noSlash
  refine ⟨by decide, by decide, ?_, ?_⟩
  · have names (name : String) (content : FileContent) :
        Path.segments (Resource.file name .css content).fileName =
          Path.segments (name ++ ".css") := congrArg _ (fileName_css name content)
    have component (name : String) : componentFile (.stylesheet name) =
      .file name .css (.entry (Component.stylesheet name).path) := rfl
    simp only [themeMembers, Theme.stylesheetNames, List.map_cons, List.map_nil, List.cons_append,
      List.nil_append, component, names, global, layouts, colors, theme, List.take_succ_cons,
      List.take_zero]
    decide
  · refine Resource.haveRoom_iff.mpr ?_
    rw [themeMembers, List.forall_mem_append, List.forall_mem_singleton, List.forall_mem_map,
      List.forall_mem_map]
    refine ⟨?_, hasRoom_css (by rw [theme]; decide) (by decide)⟩
    have stylesheets : ∀ name ∈ Theme.stylesheetNames layout color,
        (Path.segments (name ++ ".css")).length ≤ 2 ∧ '\x00' ∉ name.toList := by
      rw [Theme.stylesheetNames, List.forall_mem_cons, List.forall_mem_cons,
        List.forall_mem_singleton, global, layouts, colors]
      exact ⟨⟨by decide, by decide⟩, ⟨Nat.le_refl 2, by simpa using hl.noNul⟩,
        ⟨Nat.le_refl 2, by simpa using hc.noNul⟩⟩
    exact fun name listed => hasRoom_css (stylesheets name listed).1 (stylesheets name listed).2

/-- The files and folders of a bundle leave room for each other. -/
theorem hasRoom_shape (hr : Path.IsPlain root) (hl : Path.IsPlain layout) (hc : Path.IsPlain color)
    (listed : scripts.Sublist PageScript.all) :
    (shape root page layout color scripts).HasRoom := by
  have index : (Path.segments ("index" ++ "." ++ FileType.html.ending)).length ≤ 2 := by
    decide +kernel
  have script : (scriptGroup scripts).HasRoom := by
    refine ⟨by decide, by decide, ?_, Resource.haveRoom_iff.mpr ?_⟩
    · have all : (PageScript.all.map fun script =>
          (Path.segments (componentFile script.component).fileName).take 1).Nodup := by
        decide +kernel
      rw [List.map_map, List.map_map]
      exact all.sublist (listed.map _)
    · rw [List.forall_mem_map, List.forall_mem_map]
      intro script _
      cases script <;> exact ⟨by decide +kernel, by decide⟩
  have names : [(Path.segments ("index" ++ "." ++ FileType.html.ending)).take 1,
      (Path.segments "theme").take 1, (Path.segments "script").take 1].Nodup := by
    decide +kernel
  exact ⟨hr.noSlash, hr.noNul, names, ⟨index, by decide⟩, hasRoom_themeGroup hl hc, script, trivial⟩

end Shape

/-- The files below a directory of a bundle are those of a list, each with its content. -/
structure Ships (catalogue : Catalogue) (files : List (Storage.Address × FileContent))
    (top : Storage.Address) (storage : Storage) : Prop where
  /-- No two files are in one place. -/
  distinct : (files.map Prod.fst).Nodup
  /-- Each file holds its text, which may come from the catalogue. -/
  held : ∀ file ∈ files, ∃ text, contentText catalogue file.2 = .ok text ∧
    storage.node? (top ++ file.1) = some (.file text.toUTF8)
  /-- There are no other files. -/
  only : ∀ below bytes, storage.node? (top ++ below) = some (.file bytes) →
    below ∈ files.map Prod.fst

/-- The files of a resource after it was written with success, seen from its own directory. -/
theorem ships_of_write {storage final : Storage} {catalogue : Catalogue} {resource : Resource}
    {out path : String} {files : List (Storage.Address × FileContent)} (tree : storage.IsTree)
    (ordinary : resource.IsOrdinary) (single : '/' ∉ resource.fileName.toList)
    (other : resource ≠ .group previousName [])
    (listed : resource.files = files.map fun file => (resource.fileName :: file.1, file.2))
    (distinct : (files.map Prod.fst).Nodup)
    (written : Writing.on (write catalogue resource out) storage = (.ok path, final)) :
    Ships catalogue files (storage.target out ++ [resource.fileName]) final := by
  obtain ⟨-, -, loads, held⟩ := of_write tree ordinary single other written
  have paths : resource.files.map Prod.fst =
      (files.map Prod.fst).map (resource.fileName :: ·) := by
    rw [listed, List.map_map, List.map_map]
    rfl
  refine ⟨distinct, fun file mem => ?_, fun below bytes found => ?_⟩
  · have inside : (resource.fileName :: file.1, file.2) ∈ resource.files := by
      rw [listed]
      exact List.mem_map_of_mem mem
    obtain ⟨text, loaded⟩ := loads _ inside
    obtain ⟨before, after, split⟩ := List.append_of_mem inside
    have last : resource.fileName :: file.1 ∉ after.map Prod.fst := by
      have apart : (resource.files.map Prod.fst).Nodup := by
        rw [paths]
        exact distinct.map fun _ _ same => (List.cons.inj same).2
      rw [split, List.map_append, List.map_cons] at apart
      exact (List.nodup_cons.mp apart.of_append_right).1
    refine ⟨text, loaded, Storage.file?_eq_some_iff.mp ?_⟩
    rw [List.append_assoc, List.singleton_append, held, split, contents_last last, bytes?, loaded]
    rfl
  · by_contra absent
    rw [List.append_assoc, List.singleton_append, ← Storage.file?_eq_some_iff, held,
      contents_of_notMem] at found
    · contradiction
    · rw [paths]
      intro mem
      obtain ⟨other, inside, same⟩ := List.mem_map.mp mem
      exact absent ((List.cons.inj same).2 ▸ inside)

end Bundle

/-- A bundle stays in its directory and holds what it should: the page, the stylesheets of the theme
with the one that imports them, and the scripts that the page needs. Where all of them can be had,
it is written unless a name or a path is too long. -/
theorem bundle_ships {document : Document} {config : Config} {catalogue : Catalogue}
    {output : Output} (done : document.bundle config catalogue = .ok output) :
    Path.IsOrdinary config.document.bundleName ∧ '/' ∉ config.document.bundleName.toList ∧
      output.bundle.fileName = config.document.bundleName ∧ output.bundle.HasDistinctNames ∧
      ∃ context page files, Context.ofConfig config = .ok context ∧
        Bundle.page (context.discover document) catalogue
          (document.render (context.discover document) {}).1.write = .ok page ∧
        files = Bundle.listing page config.document.layoutName config.document.colorName
          (PageScript.all.filter (context.discover document).needsScript) ∧
        ∀ (later : Catalogue) (storage : Storage) (out : String), storage.IsTree →
          (storage.isDirectory out = true →
            storage.Avoids out (storage.target out ++ [config.document.bundleName]) →
            (∀ file ∈ files, ∃ text, Bundle.contentText later file.2 = .ok text) →
            Bundle.Writing.Passes (Bundle.write later output.bundle out) storage) ∧
          ∀ final path,
            Bundle.Writing.on (Bundle.write later output.bundle out) storage = (.ok path, final) →
            path = Path.join out config.document.bundleName ∧
            Bundle.Ships later files (storage.target out ++ [config.document.bundleName]) final ∧
            Storage.Keeps (fun at_ => Storage.isWithin
              (storage.target out ++ [config.document.bundleName]) at_ = false)
              out storage final ∧
            (storage.isDirectory out = true ∨ .parent ∉ Path.walk out →
              Storage.KeepsInside (fun at_ => Storage.isWithin
                (storage.target out ++ [config.document.bundleName]) at_ = false)
                out storage final) := by
  obtain ⟨context, page, configured, wrapped, checked, made, -⟩ := Document.bundle_eq_resource done
  have bundle := made
  rw [Bundle.resource_eq_shape, show (context.discover document).document = config.document from
    (Context.eq_of_ofConfig configured).1] at bundle
  obtain ⟨layout, color⟩ := config.document.isName_of_check checked
  have root := config.document.isPlain_bundleName
  have layout := Theme.isPlain_of_isName layout
  have color := Theme.isPlain_of_isName color
  have needed : (PageScript.all.filter (context.discover document).needsScript).Sublist
    PageScript.all := List.filter_sublist
  have ordinary : output.bundle.IsOrdinary := by
    rw [bundle]
    exact Bundle.isOrdinary_shape root layout color
  have room : output.bundle.HasRoom := by
    rw [bundle]
    exact Bundle.hasRoom_shape root layout color needed
  have name : output.bundle.fileName = config.document.bundleName := by
    rw [bundle]
    rfl
  have single : '/' ∉ output.bundle.fileName.toList := by
    rw [name]
    exact root.noSlash
  have listed : output.bundle.files = (Bundle.listing page config.document.layoutName
      config.document.colorName
      (PageScript.all.filter (context.discover document).needsScript)).map
        fun file => (output.bundle.fileName :: file.1, file.2) := by
    rw [name, bundle]
    exact Bundle.files_shape root.noSlash layout.noSlash color.noSlash
  refine ⟨root.isOrdinary, root.noSlash, name, ?_, context, page, _, configured, wrapped, rfl, ?_⟩
  · rw [made]
    exact Bundle.hasDistinctNames_resource _ page
  · intro later storage out tree
    refine ⟨fun there avoids loads => ?_, fun final path written => ?_⟩
    · refine Bundle.passes_write tree ordinary room (Path.segments_of_no_slash single) there ?_ ?_ ?_
      · rw [name]
        exact ⟨root.ne_of_head (by rw [String.toList_append]; rfl), root.ne_of_head rfl⟩
      · rw [name]
        exact avoids
      · rw [listed, List.forall_mem_map]
        exact loads
    · have other : output.bundle ≠ .group Bundle.previousName [] := by
        rw [bundle]
        exact fun same => List.cons_ne_nil _ _ (Resource.group.inj same).2
      obtain ⟨whole, keeps, -⟩ := Bundle.of_write tree ordinary single other written
      have ships := Bundle.ships_of_write tree ordinary single other listed
        (Bundle.nodup_listing needed) written
      rw [name] at whole ships keeps
      exact ⟨whole, ships, keeps, keeps.inside⟩

/-- A name made to leave the directory, and colours of its own. -/
theorem bundle_ships_plain_name :
    let document : Document := ⟨[]⟩
    let config : Config :=
      { document := { name := some "../Up", theme := { color := some "mono" } } }
    let catalogue := Catalogue.ofRegistry ⟨[(Catalogue.Builtin.pagePath, "<html>"),
      ("theme/global.css", "g"), ("theme/layout/latex.css", "l"), ("theme/color/mono.css", "c")] ++
      PageScript.all.map fun script => ("script/" ++ script.name ++ ".js", "s")⟩
    let storage : Storage := { entries := [(["out"], .directory)] }
    ∃ output final, document.bundle config catalogue = .ok output ∧
      Bundle.Writing.on (Bundle.write catalogue output.bundle "out") storage =
        (.ok "out/up", final) ∧
      final.node? ["out", "up", "theme", "color", "mono.css"] = some (.file "c".toUTF8) := by
  intro document config catalogue storage
  have run : ((document.bundle config catalogue).toOption.map fun output =>
      (Bundle.Writing.on (Bundle.write catalogue output.bundle "out") storage).1) =
        some (.ok "out/up") := by decide +kernel
  cases done : document.bundle config catalogue with
  | error failure =>
    rw [done] at run
    contradiction
  | ok output =>
    rw [done] at run
    have result : (Bundle.Writing.on (Bundle.write catalogue output.bundle "out") storage).1 =
      .ok "out/up" := Option.some.inj run
    obtain ⟨-, -, -, -, context, page, files, -, -, listed, write⟩ := bundle_ships done
    have color : config.document.colorName = "mono" := rfl
    have layout : config.document.layoutName = "latex" := rfl
    rw [color, layout] at listed
    have tree : storage.IsTree := by decide
    have place : storage.target "out" ++ [config.document.bundleName] = ["out", "up"] := by
      decide +kernel
    obtain ⟨passes, holds⟩ := write catalogue storage "out" tree
    rw [place] at passes holds
    have avoids : storage.Avoids "out" ["out", "up"] :=
      Storage.avoids_of_down (by decide +kernel) (by decide +kernel)
    have loads : ∀ file ∈ files, ∃ text, Bundle.contentText catalogue file.2 = .ok text := by
      rw [listed, Bundle.listing, List.forall_mem_append, List.forall_mem_map]
      refine ⟨?_, fun script _ => ⟨"s", ?_⟩⟩
      · simp only [List.forall_mem_cons]
        exact ⟨⟨page, rfl⟩, ⟨"g", by decide +kernel⟩, ⟨"l", by decide +kernel⟩,
          ⟨"c", by decide +kernel⟩, ⟨_, rfl⟩, List.forall_mem_nil _⟩
      · cases script <;> decide +kernel
    rcases passes (by decide +kernel) avoids loads with ⟨path, final, written⟩ | long
    · obtain rfl : path = "out/up" := by
        rw [written] at result
        exact Except.ok.inj result
      obtain ⟨-, ships, -⟩ := holds final "out/up" written
      obtain ⟨text, loaded, found⟩ := ships.held
        (["theme", "color", "mono.css"], .entry "theme/color/mono.css")
        (by simp [listed, Bundle.listing])
      obtain rfl : "c" = text := Except.ok.inj loaded
      exact ⟨output, final, rfl, written, found⟩
    · rw [long] at result
      contradiction

end Quire
