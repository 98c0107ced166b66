import Quire.Proofs.Bundle.Contents
import Quire.Proofs.Template.Inert

/-!
# What can fail

A page takes its settings from a context and its body from a document, and only the settings can
make it fail. In the built-in catalogue the page always comes out, and what is left to fail are
numbering formats and the names of themes.
-/

namespace Quire

def Context.config (context : Context) : Config := ⟨context.document, context.options⟩

/-- Contexts of one configuration whose documents need the same capabilities. -/
structure Context.Agrees (a b : Context) : Prop where
  document : a.document = b.document
  options : a.options = b.options
  presence : a.index.presence = b.index.presence

namespace Context.Agrees

variable {a b : Context} (same : a.Agrees b)
include same

theorem template (text : String) : Page.template a text = Page.template b text := by
  unfold Page.template Page.supplyDocument
  rw [same.document, same.options, same.presence]

theorem scripts : a.scripts = b.scripts := by
  have needed : a.needsScript = b.needsScript := by
    funext script
    cases script <;> simp only [needsScript, same.document, same.options, same.presence]
  rw [Context.scripts, Context.scripts, needed]

end Context.Agrees

namespace Page

/-- The body stands between the two texts that the tree of the page gives before and behind it. They
know nothing of it, nor of what else a context holds besides its configuration and the presence of
capabilities. -/
theorem wrap_between : ∃ before after : Config → Presence → String, ∀ context body,
    let page := filled context (Catalogue.Builtin.unlines Catalogue.Builtin.pageTemplate) body
    let whole := before context.config context.index.presence ++ body ++
      after context.config context.index.presence
    Template.Part.valueAll page tree page.value? = .ok whole.toList ∧
      wrap context (Catalogue.Builtin.unlines Catalogue.Builtin.pageTemplate) body = .ok whole := by
  let plain (config : Config) (presence : Presence) : Context :=
    { document := config.document
      options := config.options
      index := { presence }
      labelling := fun _ _ => none }
  have pages (config : Config) (presence : Presence) := wrap_builtin (plain config presence)
  choose before after first last pages using pages
  refine ⟨fun config presence => String.ofList (before config presence),
    fun config presence => String.ofList (after config presence), fun context body => ?_⟩
  have same : context.Agrees (plain context.config context.index.presence) := ⟨rfl, rfl, rfl⟩
  obtain ⟨value, page⟩ := pages context.config context.index.presence body
  rw [filled, ← same.template, ← filled] at value
  rw [wrap, same.template]
  refine ⟨value.trans ?_, page.trans ?_⟩
  · simp
  · simp [String.ofList_append, String.append_assoc]

/-- Two bodies in one template come out together or fail in the same way. -/
theorem sameOutcome_wrap {a b : Context} (same : a.Agrees b) (text body body' : String) :
    SameOutcome (wrap a text body) (wrap b text body') := by
  rw [wrap, wrap, same.template]
  generalize template b text = page
  have rows (key : String) : Option.Rel (List.Forall₂ TemplateRow.SameShape)
      (page.iterables.find? key) (page.iterables.find? key) := by
    cases page.iterables.find? key with
    | none => exact .none
    | some rows =>
      refine .some (List.forall₂_same.mpr fun row _ => ?_)
      cases row with
      | single text => exact .single text text
      | named fields => exact .named fun _ => rfl
  have keys (key : String) : (page.supply "CONTENT" body).values.contains key =
      (page.supply "CONTENT" body').values.contains key := by
    rw [Template.values_supply, Template.values_supply, ← Registry.isSome_find?,
      ← Registry.isSome_find?, Registry.find?_insert, Registry.find?_insert]
    split <;> rfl
  exact Template.sameOutcome_process ⟨rfl, fun _ => rfl, keys, rows⟩

end Page

namespace Bundle

theorem checkAvailable_eq_error {catalogue : Catalogue} {components : List Component}
    {failure : LoadFailure} (h : checkAvailable catalogue components = .error failure) :
    ∃ component ∈ components, catalogue.contains component.path = false ∧
      failure = .missing component.path := by
  rw [checkAvailable] at h
  split at h
  · rename_i component found
    refine ⟨component, List.mem_of_find?_eq_some found, ?_, (Except.error.inj h).symm⟩
    simpa using List.find?_some found
  · contradiction

def layoutPath (settings : DocumentSettings) : String :=
  "theme/layout/" ++ settings.layoutName ++ ".css"

def colorPath (settings : DocumentSettings) : String :=
  "theme/color/" ++ settings.colorName ++ ".css"

theorem path_of_stylesheet {settings : DocumentSettings} {component : Component}
    (mem : component ∈
      (Theme.stylesheetNames settings.layoutName settings.colorName).map Component.stylesheet) :
    component.path = "theme/global.css" ∨ component.path = layoutPath settings ∨
      component.path = colorPath settings := by
  simp only [Theme.stylesheetNames, List.map_cons, List.map_nil, List.mem_cons, List.not_mem_nil,
    or_false] at mem
  rcases mem with rfl | rfl | rfl
  · exact .inl rfl
  · refine .inr (.inl ?_)
    rw [layoutPath, Component.stylesheet, Component.path, ← String.append_assoc]
    rfl
  · refine .inr (.inr ?_)
    rw [colorPath, Component.stylesheet, Component.path, ← String.append_assoc]
    rfl

theorem contains_global : Catalogue.builtin.contains "theme/global.css" = true := by
  have listed : ("theme/global.css", Catalogue.Builtin.globalStyle) ∈
      Catalogue.Builtin.entries := by
    unfold Catalogue.Builtin.entries
    exact List.mem_cons_of_mem _ List.mem_cons_self
  exact contains_builtin listed

/-- In the built-in catalogue nothing is missing but layouts and colour schemes of other names. -/
theorem assemble_builtin_eq_error {context : Context} {body : String} {failure : RenderFailure}
    (h : assemble context Catalogue.builtin body = .error failure) :
    (∃ refused, context.document.fullTheme.check = .error refused ∧ failure = .theme refused) ∨
      ∃ path, (path = layoutPath context.document ∨ path = colorPath context.document) ∧
        Catalogue.builtin.contains path = false ∧ failure = .load (.missing path) := by
  obtain ⟨before, after, -, -, pages⟩ := page_builtin context
  have wrapped := pages body
  generalize String.ofList (before ++ body.toList ++ after) = text at wrapped
  rw [assemble, wrapped] at h
  rcases bind_eq_error h with h | ⟨_, -, h⟩
  · contradiction
  rcases bind_eq_error h with h | ⟨stylesheets, components, h⟩
  · obtain ⟨refused, failed, rfl⟩ := mapError_eq_error h
    rcases bind_eq_error failed with failed | ⟨_, -, failed⟩
    · exact .inl ⟨refused, failed, rfl⟩
    · contradiction
  rcases bind_eq_error h with h | ⟨_, -, h⟩
  · obtain ⟨missing, failed, rfl⟩ := mapError_eq_error h
    obtain ⟨component, mem, absent, rfl⟩ := checkAvailable_eq_error failed
    obtain ⟨_, -, listed⟩ := bind_eq_ok (mapError_eq_ok components)
    rw [← Except.ok.inj listed, DocumentSettings.stylesheets_fullTheme] at mem
    rcases path_of_stylesheet mem with path | path
    · rw [path, contains_global] at absent
      contradiction
    · exact .inr ⟨component.path, path, absent, rfl⟩
  rcases bind_eq_error h with h | ⟨_, -, h⟩
  · obtain ⟨missing, failed, -⟩ := mapError_eq_error h
    rw [available_scripts] at failed
    contradiction
  · contradiction

/-- Assembly looks at the document through its body and the capabilities that it needs, and no body
makes it fail. -/
theorem sameOutcome_assemble {a b : Context} (same : a.Agrees b) (catalogue : Catalogue)
    (body body' : String) :
    SameOutcome (assemble a catalogue body) (assemble b catalogue body') := by
  have pages : SameOutcome (page a catalogue body) (page b catalogue body') :=
    .bind_same fun text => (Page.sameOutcome_wrap same text body body').mapError _
  rw [assemble, assemble, same.document, same.scripts]
  apply pages.bind
  intro text text'
  apply SameOutcome.bind_same
  intro stylesheets
  apply SameOutcome.bind_same
  intro _
  apply SameOutcome.bind_same
  intro _
  exact .ok _ _

end Bundle

theorem Context.bundle_eq_error {context : Context} {catalogue : Catalogue} {document : Document}
    {failure : RenderFailure} (h : context.bundle catalogue document = .error failure) :
    Bundle.assemble context catalogue (document.render context {}).1.write = .error failure := by
  unfold Context.bundle at h
  generalize document.render context {} = rendered at h ⊢
  obtain ⟨fragment, cursor⟩ := rendered
  rcases bind_eq_error h with h | ⟨_, -, h⟩
  · exact h
  · contradiction

/-- With the built-in catalogue the page of a document always comes out: its body stands between the
two texts that the tree of the page template gives before and behind it. They are told by the
configuration and the capabilities that are present, whatever the body is. So there is a bundle, in
no group of which two names are the same, unless a numbering format or the name of a theme is
refused or the catalogue has no such layout or colour scheme. -/
theorem bundle_builtin_outcome :
    (Catalogue.Builtin.unlines Catalogue.Builtin.pageTemplate).toList =
        Template.Part.writeAll Page.tree ∧
      ∃ before after : Config → Presence → String,
        (∀ context body,
          let page := Page.filled context (Catalogue.Builtin.unlines Catalogue.Builtin.pageTemplate)
            body
          let whole := before context.config context.index.presence ++ body ++
            after context.config context.index.presence
          Template.Part.valueAll page Page.tree page.value? = .ok whole.toList ∧
            Bundle.page context Catalogue.builtin body = .ok whole) ∧
        ∀ (document : Document) (config : Config),
          match document.bundle config Catalogue.builtin with
          | .ok output => output.bundle.HasDistinctNames ∧
            ∃ context, Context.ofConfig config = .ok context ∧
              output.page? = some (before config document.index.presence ++
                (document.render (context.discover document) {}).1.write ++
                after config document.index.presence)
          | .error (.numbering refused) => Context.ofConfig config = .error refused
          | .error (.theme refused) => config.document.fullTheme.check = .error refused
          | .error (.load (.missing path)) =>
            (path = Bundle.layoutPath config.document ∨ path = Bundle.colorPath config.document) ∧
              Catalogue.builtin.contains path = false
          | .error (.load (.unreadable _)) => False
          | .error (.template _) => False := by
  obtain ⟨before, after, wrapped⟩ := Page.wrap_between
  have pages (context : Context) (body : String) : Bundle.page context Catalogue.builtin body =
      .ok (before context.config context.index.presence ++ body ++
        after context.config context.index.presence) := by
    rw [Bundle.page_of_load Bundle.load_pagePath, (wrapped context body).2, Except.mapError]
  refine ⟨Page.text_tree, before, after,
    fun context body => ⟨(wrapped context body).1, pages context body⟩, fun document config => ?_⟩
  cases outcome : document.bundle config Catalogue.builtin with
  | ok output =>
    obtain ⟨context, page, configured, wrapped, -, bundle, -⟩ :=
      Document.bundle_eq_resource outcome
    obtain ⟨settings, options⟩ := Context.eq_of_ofConfig configured
    have whole : (context.discover document).config = config := by
      rw [Context.config]
      exact congrArg₂ Config.mk settings options
    have names : output.bundle.HasDistinctNames := by
      rw [bundle]
      exact Bundle.hasDistinctNames_resource _ page
    refine ⟨names, context, configured, ?_⟩
    rw [pages, whole] at wrapped
    rw [Output.page?, bundle, Bundle.resource_eq]
    exact congrArg some (Except.ok.inj wrapped).symm
  | error failure =>
    rcases bind_eq_error outcome with failed | ⟨context, configured, failed⟩
    · obtain ⟨refused, unread, rfl⟩ := mapError_eq_error failed
      exact unread
    · obtain ⟨settings, -⟩ := Context.eq_of_ofConfig (mapError_eq_ok configured)
      have assembled := Context.bundle_eq_error failed
      rw [← settings]
      rcases Bundle.assemble_builtin_eq_error assembled with ⟨refused, check, rfl⟩ |
        ⟨path, named, absent, rfl⟩
      · exact check
      · exact ⟨named, absent⟩

/-- Documents that need the same capabilities have both a bundle, or fail both in the same way,
whatever they say and whatever the catalogue holds. -/
theorem sameOutcome_bundle (config : Config) (catalogue : Catalogue) {a b : Document}
    (same : a.index.presence = b.index.presence) :
    SameOutcome (a.bundle config catalogue) (b.bundle config catalogue) := by
  apply SameOutcome.bind_same
  intro context
  have agree : (context.discover a).Agrees (context.discover b) := ⟨rfl, rfl, same⟩
  unfold Context.bundle
  generalize a.render (context.discover a) {} = first
  generalize b.render (context.discover b) {} = second
  exact (Bundle.sameOutcome_assemble agree catalogue first.1.write second.1.write).bind
    fun _ _ => .ok _ _

/-- A template that asks for too much, and texts that read as the end of its block and as what it
asks for. -/
theorem sameOutcome_bundle_markers :
    let catalogue := Catalogue.ofRegistry
      ⟨[(Catalogue.Builtin.pagePath, "[[if:IS_PAGED]][[CONTENT]][[endif:IS_PAGED]][[AUTHOR]]")]⟩
    let a : Document := ⟨[.paragraph [.text "[[endif:IS_PAGED]]"]]⟩
    let b : Document := ⟨[.heading 1 [.text "[[AUTHOR]]"] none, .horizontalRule]⟩
    let failure : RenderFailure := .template (.missingValue "AUTHOR")
    a.index.presence = b.index.presence ∧ a.bundle {} catalogue = .error failure ∧
      b.bundle {} catalogue = .error failure := by
  intro catalogue a b failure
  have same : a.index.presence = b.index.presence := by
    rw [Document.index_eq_foldl, Document.index_eq_foldl]
    decide
  have run : (a.bundle {} catalogue).map (fun _ => ()) = .error failure := by decide +kernel
  have failed : a.bundle {} catalogue = .error failure := by
    cases outcome : a.bundle {} catalogue with
    | ok output =>
      rw [outcome] at run
      contradiction
    | error other =>
      rw [outcome] at run
      exact congrArg _ (Except.error.inj run)
  have both := sameOutcome_bundle {} catalogue same
  rw [failed] at both
  refine ⟨same, failed, ?_⟩
  generalize b.bundle {} catalogue = outcome at both ⊢
  cases both
  rfl

end Quire
