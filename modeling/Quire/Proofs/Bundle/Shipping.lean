import Quire.Job
import Quire.Proofs.Bundle.Scripts
import Quire.Proofs.Discovery.Presence
import Quire.Proofs.Outcome

/-!
# What ships with a page

Discovery, the group of scripts and the page agree on the scripts that a document needs.
-/

namespace Quire

open Page (scriptTag)

theorem filter_map_eq_flatMap {α β : Type} (p : α → Bool) (f : α → β) (list : List α) :
    (list.filter p).map f = list.flatMap fun x => if p x then [f x] else [] := by
  induction list with
  | nil => rfl
  | cons x rest ih =>
    rw [List.flatMap_cons, ← ih, List.filter_cons]
    cases p x <;> rfl

namespace Context

theorem names_scripts (context : Context) :
    (context.scripts.map Bundle.componentFile).map Resource.name =
      (PageScript.all.filter context.needsScript).map PageScript.name := by
  rw [scripts, List.map_map, List.map_map]
  rfl

theorem mem_names_scripts {context : Context} {script : PageScript} :
    script.name ∈ (context.scripts.map Bundle.componentFile).map Resource.name ↔
      context.needsScript script = true := by
  have all : script ∈ PageScript.all := by cases script <;> decide
  rw [names_scripts, List.mem_map]
  constructor
  · rintro ⟨other, mem, same⟩
    rw [← Page.name_injective same]
    exact (List.mem_filter.mp mem).2
  · intro needed
    exact ⟨script, List.mem_filter.mpr ⟨all, needed⟩, rfl⟩

theorem eq_of_ofConfig {config : Config} {context : Context} (h : ofConfig config = .ok context) :
    context.document = config.document ∧ context.options = config.options := by
  obtain ⟨scheme, -, h⟩ := bind_eq_ok h
  obtain rfl := Except.ok.inj h
  exact ⟨rfl, rfl⟩

end Context

namespace Bundle

theorem find?_pagePath : Catalogue.Builtin.find? Catalogue.Builtin.pagePath =
    some (Catalogue.Builtin.unlines Catalogue.Builtin.pageTemplate) := by
  unfold Catalogue.Builtin.find? Catalogue.Builtin.entries
  rw [List.find?_cons, beq_self_eq_true]
  dsimp only
  rw [Option.map_some]

theorem load_pagePath : Catalogue.builtin.load Catalogue.Builtin.pagePath =
    .ok (Catalogue.Builtin.unlines Catalogue.Builtin.pageTemplate) := by
  unfold Catalogue.builtin
  dsimp only
  rw [find?_pagePath, Catalogue.found]

theorem page_of_load {context : Context} {catalogue : Catalogue} {text : String}
    (load : catalogue.load Catalogue.Builtin.pagePath = .ok text) (body : String) :
    page context catalogue body = (Page.wrap context text body).mapError .template := by
  rw [page, load]
  -- Nothing may try to compute the wrapped page.
  generalize Page.wrap context = wrap
  rfl

/-- The page around a body does not depend on the body. -/
theorem page_builtin (context : Context) : ∃ before after : List Char,
    Page.Carries (Page.loaded context) before ∧ Page.Carries [] after ∧
    ∀ body, page context Catalogue.builtin body =
      .ok (String.ofList (before ++ body.toList ++ after)) := by
  obtain ⟨before, after, first, last, wrapped⟩ := Page.wrap_builtin context
  refine ⟨before, after, first, last, fun body => ?_⟩
  rw [page_of_load load_pagePath, (wrapped body).2, Except.mapError]

/-- What a successful assembly consists of. -/
theorem assemble_eq_ok {context : Context} {catalogue : Catalogue} {body : String}
    {assembled : Resource} (h : assemble context catalogue body = .ok assembled) :
    ∃ text, page context catalogue body = .ok text ∧
      context.document.fullTheme.check = .ok () ∧ assembled = resource context text := by
  obtain ⟨text, wrapped, h⟩ := bind_eq_ok h
  obtain ⟨_, components, h⟩ := bind_eq_ok h
  obtain ⟨_, checked, -⟩ := bind_eq_ok (mapError_eq_ok components)
  obtain ⟨-, -, h⟩ := bind_eq_ok h
  obtain ⟨-, -, h⟩ := bind_eq_ok h
  exact ⟨text, wrapped, checked, (Except.ok.inj h).symm⟩

theorem contains_builtin {path : String} {lines : List String}
    (h : (path, lines) ∈ Catalogue.Builtin.entries) : Catalogue.builtin.contains path = true := by
  have found : (Catalogue.Builtin.find? path).isSome = true := by
    unfold Catalogue.Builtin.find?
    rw [Option.isSome_map, List.find?_isSome]
    exact ⟨_, h, beq_self_eq_true _⟩
  unfold Catalogue.builtin
  exact found

theorem contains_script (script : PageScript) :
    Catalogue.builtin.contains script.component.path = true := by
  have entry : ∃ lines, (script.component.path, lines) ∈ Catalogue.Builtin.entries := by
    unfold Catalogue.Builtin.entries
    cases script <;>
      simp [PageScript.component, PageScript.name, Component.script, Component.path,
        Catalogue.Builtin.pagePath]
  obtain ⟨lines, mem⟩ := entry
  exact contains_builtin mem

theorem checkAvailable_of_forall {catalogue : Catalogue} {components : List Component}
    (h : ∀ component ∈ components, catalogue.contains component.path = true) :
    checkAvailable catalogue components = .ok () := by
  have none : components.find? (fun component => !catalogue.contains component.path) = none := by
    rw [List.find?_eq_none]
    intro component mem
    simp [h component mem]
  rw [checkAvailable, none]

theorem available_scripts (context : Context) :
    checkAvailable Catalogue.builtin context.scripts = .ok () := by
  refine checkAvailable_of_forall fun component mem => ?_
  obtain ⟨script, -, rfl⟩ := List.mem_map.mp mem
  exact contains_script script

/-- In the built-in theme nothing is missing from the built-in catalogue. -/
theorem assemble_builtin {context : Context} (theme : context.document.fullTheme = .builtin)
    (body : String) : ∃ resource, assemble context Catalogue.builtin body = .ok resource := by
  let stylesheets : List Component :=
    [.stylesheet "global", .stylesheet "layout/latex", .stylesheet "color/paperwhite"]
  have components : Theme.builtin.components = .ok stylesheets := by
    simp [stylesheets, Theme.components, Theme.stylesheets, Theme.builtin, Theme.check,
      Theme.checkPart, Theme.isName, Theme.isNameChar, bind, Except.bind, pure, Except.pure]
  have entries : ∀ component ∈ stylesheets,
      ∃ lines, (component.path, lines) ∈ Catalogue.Builtin.entries := by
    unfold Catalogue.Builtin.entries
    simp [stylesheets, Component.stylesheet, Component.path, Catalogue.Builtin.pagePath]
  have available : checkAvailable Catalogue.builtin stylesheets = .ok () := by
    refine checkAvailable_of_forall fun component mem => ?_
    obtain ⟨lines, entry⟩ := entries component mem
    exact contains_builtin entry
  obtain ⟨before, after, -, -, pages⟩ := page_builtin context
  have wrapped := pages body
  generalize String.ofList (before ++ body.toList ++ after) = text at wrapped
  rw [assemble, wrapped, theme, components, available_scripts]
  simp only [Except.mapError, bind, Except.bind, available]
  exact ⟨_, rfl⟩

end Bundle

theorem Context.bundle_eq_ok {context : Context} {catalogue : Catalogue} {document : Document}
    {output : Output} (h : context.bundle catalogue document = .ok output) :
    Bundle.assemble context catalogue (document.render context {}).1.write = .ok output.bundle ∧
      output.index = context.index := by
  unfold Context.bundle at h
  generalize document.render context {} = rendered at h ⊢
  obtain ⟨fragment, cursor⟩ := rendered
  obtain ⟨resource, assembled, h⟩ := bind_eq_ok h
  obtain rfl := Except.ok.inj h
  exact ⟨assembled, rfl⟩

theorem Document.bundle_eq_ok {document : Document} {config : Config} {catalogue : Catalogue}
    {output : Output} (h : document.bundle config catalogue = .ok output) :
    ∃ context, Context.ofConfig config = .ok context ∧
      (context.discover document).bundle catalogue document = .ok output := by
  unfold Document.bundle at h
  obtain ⟨context, configured, h⟩ := bind_eq_ok h
  exact ⟨context, mapError_eq_ok configured, h⟩

/-- What a bundle is made from: a page that was wrapped, and a theme that was accepted. -/
theorem Document.bundle_eq_resource {document : Document} {config : Config} {catalogue : Catalogue}
    {output : Output} (done : document.bundle config catalogue = .ok output) :
    ∃ context page, Context.ofConfig config = .ok context ∧
      Bundle.page (context.discover document) catalogue
        (document.render (context.discover document) {}).1.write = .ok page ∧
      config.document.fullTheme.check = .ok () ∧
      output.bundle = Bundle.resource (context.discover document) page ∧
      output.index = document.index := by
  obtain ⟨context, configured, rendered⟩ := Document.bundle_eq_ok done
  obtain ⟨settings, -⟩ := Context.eq_of_ofConfig configured
  obtain ⟨assembled, index⟩ := Context.bundle_eq_ok rendered
  obtain ⟨page, wrapped, checked, bundle⟩ := Bundle.assemble_eq_ok assembled
  exact ⟨context, page, configured, wrapped, settings ▸ checked, bundle, index⟩

/-- Whether a capability is present, the scripts of the bundle and the tags of its page are told by
the nodes of the document and by its configuration. -/
theorem bundle_scripts {document : Document} {config : Config} {output : Output}
    (done : document.bundle config Catalogue.builtin = .ok output) :
    (∀ c, output.index.presence.has c = true ↔
      ∃ node, document.Contains node ∧ node.needs c = true) ∧
    ∃ context scripts before after,
      Context.ofConfig config = .ok context ∧
      output.bundle.member? "script" = some (.group "script" scripts) ∧
      scripts.map Resource.name =
        ["script"] ++ (if config.document.type = .slides then ["slides"] else []) ++
        (if config.document.type = .paged then ["paged"] else []) ++
        (if output.index.presence.math then ["math"] else []) ++
        (if output.index.presence.mermaidDiagram then ["mermaid"] else []) ++
        (if output.index.presence.tikzDiagram then ["tikz"] else []) ++
        (if output.index.presence.code then ["code"] else []) ++
        (if config.options.serverPort.isSome then ["websockets"] else []) ∧
      (∀ body, Bundle.page (context.discover document) Catalogue.builtin body =
        .ok (String.ofList (before ++ body.toList ++ after))) ∧
      output.page? = some (String.ofList (before ++
        (document.render (context.discover document) {}).1.write.toList ++ after)) ∧
      ∀ script : PageScript, script ≠ .websockets →
        ((scriptTag script).toList <:+: before ∨ (scriptTag script).toList <:+: after ↔
          script.name ∈ scripts.map Resource.name) := by
  obtain ⟨context, text, configured, wrapped, -, bundle, discovered⟩ :=
    Document.bundle_eq_resource done
  obtain ⟨settings, options⟩ := Context.eq_of_ofConfig configured
  rw [Bundle.resource_eq] at bundle
  obtain ⟨before, after, first, last, pages⟩ := Bundle.page_builtin (context.discover document)
  have page := Except.ok.inj (wrapped.symm.trans (pages _))
  have presence := document.presence_iff
  refine ⟨discovered ▸ presence, context, (context.discover document).scripts.map
    Bundle.componentFile, before, after, configured, ?_, ?_, pages, ?_, ?_⟩
  · simp [bundle, Resource.member?, Resource.members?, Resource.name]
  · rw [Context.names_scripts, filter_map_eq_flatMap, discovered, ← settings, ← options]
    simp [PageScript.all, Context.needsScript, PageScript.name, Context.discover]
    rfl
  · rw [← page]
    simp [bundle, Output.page?, Resource.member?, Resource.members?, Resource.name, Resource.text?]
  · intro script ne
    rw [first.infix_iff, last.infix_iff, Context.mem_names_scripts, Page.mem_loaded]
    simp [ne]

theorem Context.bundle_of_assemble {context : Context} {catalogue : Catalogue}
    (h : ∀ body, ∃ resource, Bundle.assemble context catalogue body = .ok resource)
    (document : Document) : ∃ output, context.bundle catalogue document = .ok output := by
  unfold Context.bundle
  generalize document.render context {} = rendered
  generalize Bundle.assemble context catalogue = assemble at h ⊢
  obtain ⟨fragment, cursor⟩ := rendered
  obtain ⟨resource, same⟩ := h fragment.write
  dsimp only
  rw [same]
  exact ⟨_, rfl⟩

theorem Document.bundle_of_ofConfig {config : Config} {context : Context}
    (configured : Context.ofConfig config = .ok context) (document : Document)
    (catalogue : Catalogue) : document.bundle config catalogue =
      (context.discover document).bundle catalogue document := by
  rw [Document.bundle, configured]
  rfl

/-- In the built-in theme every document has a bundle. -/
theorem Document.bundle_builtin {config : Config} {context : Context}
    (configured : Context.ofConfig config = .ok context)
    (theme : context.document.fullTheme = .builtin) (document : Document) :
    ∃ output, document.bundle config Catalogue.builtin = .ok output := by
  have discovered : (context.discover document).document.fullTheme = .builtin := theme
  rw [Document.bundle_of_ofConfig configured]
  exact Context.bundle_of_assemble (Bundle.assemble_builtin discovered) document

/-- A formula in a list item, in a document without numbering. -/
theorem bundle_scripts_nested_math :
    let document : Document := ⟨[.unorderedList [.mk [.math "x"] none]]⟩
    let config : Config := { document := { numbering := some {} } }
    ∃ output, document.bundle config Catalogue.builtin = .ok output ∧
      output.index.presence.has .math = true := by
  intro document config
  let context : Context := {
    document := config.document
    options := config.options
    labelling := ({} : NumberingScheme).label }
  have configured : Context.ofConfig config = .ok context := rfl
  obtain ⟨output, done⟩ := Document.bundle_builtin configured rfl document
  have list : document.Contains (.block (.unorderedList [.mk [.math "x"] none])) :=
    .top (List.mem_singleton.mpr rfl)
  have formula : document.Contains (.block (.math "x")) :=
    .field list (.unorderedItem (List.mem_singleton.mpr rfl) (List.mem_singleton.mpr rfl))
  exact ⟨output, done, ((bundle_scripts done).1 .math).mpr ⟨_, formula, rfl⟩⟩

end Quire
