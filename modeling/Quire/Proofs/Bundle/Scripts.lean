import Quire.Proofs.Bundle.Page
import Quire.Proofs.Bundle.Values
import Quire.Proofs.Template.Supply

/-!
# The scripts that a page loads

What stands around the body of a page depends on the context only, and it holds the tags of the
scripts that the page needs and of no others.
-/

namespace Quire.Page

open Template
open Text (Quiet)

/-- The tags of some scripts stand in a text, and those of no others start in it. -/
structure Carries (scripts : List PageScript) (cs : List Char) : Prop where
  shown : ∀ script ∈ scripts, (scriptTag script).toList <:+: cs
  quiet : ∀ script ∉ scripts, Quiet (scriptTag script).toList cs

theorem name_injective {a b : PageScript} (h : a.name = b.name) : a = b := by
  cases a <;> cases b <;> first | rfl | simp [PageScript.name] at h

theorem plain_name (script : PageScript) : '<' ∉ script.name.toList ∧ '.' ∉ script.name.toList := by
  cases script <;> simp [PageScript.name]

theorem quiet_scriptTag {script other : PageScript} (ne : script ≠ other) :
    Quiet (scriptTag script).toList (scriptTag other).toList := by
  have names (s : PageScript) : ∀ c ∈ s.name.toList, (c != '.') = true := by
    intro c mem
    rw [bne_iff_ne]
    rintro rfl
    exact (plain_name s).2 mem
  have start : tagStart.toList = '<' :: "script src=\"script/".toList := by
    unfold tagStart
    rw [String.toList_ofList, String.toList_ofList]
  have close : ".js\">".toList = '.' :: "js\">".toList := by
    rw [String.toList_ofList, String.toList_ofList]
  rw [toList_scriptTag, toList_scriptTag, start, close, List.cons_append, List.cons_append]
  refine .cons ?_ (Text.quiet_of_notMem ?_)
  · rintro rest ⟨later, k⟩
    simp only [List.cons_append, List.append_assoc, List.cons.injEq, true_and,
      List.append_cancel_left_eq] at k
    exact ne (name_injective (String.toList_inj.mp
      (Text.cut_unique (names script) (names other) (by decide) (by decide) k).1))
  · simp [(plain_name other).1]

namespace Carries

theorem append {a b : List PageScript} {cs ds : List Char} (h : Carries a cs) (k : Carries b ds) :
    Carries (a ++ b) (cs ++ ds) where
  shown script mem := by
    rcases List.mem_append.mp mem with mem | mem
    · exact (h.shown script mem).trans (List.prefix_append _ _).isInfix
    · exact (k.shown script mem).trans (List.suffix_append _ _).isInfix
  quiet script missing := by
    rw [List.mem_append, not_or] at missing
    exact (h.quiet script missing.1).append (k.quiet script missing.2)

theorem congr {a b : List PageScript} {cs : List Char} (h : Carries a cs)
    (same : ∀ script, script ∈ a ↔ script ∈ b) : Carries b cs where
  shown script mem := h.shown script ((same script).mpr mem)
  quiet script missing := h.quiet script fun mem => missing ((same script).mp mem)

theorem of_quiet {cs : List Char} (h : Quiet tagStart.toList cs) : Carries [] cs where
  shown script mem := absurd mem List.not_mem_nil
  quiet script _ := by
    rw [toList_scriptTag]
    exact h.of_longer _

theorem of_untagged {s : String} (h : Untagged s) : Carries [] s.toList := by
  refine of_quiet ?_
  unfold tagStart
  rw [String.toList_ofList]
  exact Text.quiet_of_notMem h

theorem scriptTag (script : PageScript) : Carries [script] (scriptTag script).toList where
  shown other mem := by
    obtain rfl := List.mem_singleton.mp mem
    exact List.infix_refl _
  quiet other missing := quiet_scriptTag fun same => missing (List.mem_singleton.mpr same)

theorem infix_iff {scripts : List PageScript} {cs : List Char} (h : Carries scripts cs)
    (script : PageScript) : (Page.scriptTag script).toList <:+: cs ↔ script ∈ scripts := by
  constructor
  · intro k
    by_contra missing
    refine (h.quiet script missing).absent ?_ k
    rw [toList_scriptTag]
    unfold tagStart
    rw [String.toList_ofList]
    exact List.cons_ne_nil _ _
  · exact h.shown script

end Carries

/-- The page template with all that a context knows and a body. -/
def filled (context : Context) (text body : String) : Template :=
  (template context text).supply "CONTENT" body

section Shows

variable {context : Context} {source : String}

/-- Parts have one value for all bodies, and it holds the tags of some scripts. -/
def Shows (context : Context) (source : String) (parts : List Part)
    (scripts : List PageScript) : Prop :=
  ∃ cs, (∀ body, Part.valueAll (filled context source body) parts
      (filled context source body).value? = .ok cs) ∧ Carries scripts cs

theorem Shows.append {a b : List Part} {first second : List PageScript}
    (h : Shows context source a first) (k : Shows context source b second) :
    Shows context source (a ++ b) (first ++ second) := by
  obtain ⟨cs, value, carries⟩ := h
  obtain ⟨ds, value', carries'⟩ := k
  refine ⟨cs ++ ds, fun body => ?_, carries.append carries'⟩
  rw [Part.valueAll_append, value, value']
  rfl

theorem shows_nil : Shows context source [] [] :=
  ⟨[], fun _ => rfl, .of_quiet .nil⟩

theorem shows_flatMap {α : Type} {parts : α → List Part} {scripts : α → List PageScript}
    {list : List α} (h : ∀ x ∈ list, Shows context source (parts x) (scripts x)) :
    Shows context source (list.flatMap parts) (list.flatMap scripts) := by
  induction list with
  | nil => exact shows_nil
  | cons x rest ih =>
    rw [List.forall_mem_cons] at h
    exact h.1.append (ih h.2)

theorem shows_of_value {part : Part} {cs : List Char} {scripts : List PageScript}
    (value : ∀ body, part.value (filled context source body)
      (filled context source body).value? = .ok cs)
    (carries : Carries scripts cs) : Shows context source [part] scripts := by
  refine ⟨cs, fun body => ?_, carries⟩
  rw [Part.valueAll, value, Part.valueAll]
  simp [bind, Except.bind, pure, Except.pure]

theorem shows_literal {text : Literal} (quiet : Quiet tagStart.toList text.chars) :
    Shows context source [.literal text] [] :=
  shows_of_value (fun _ => rfl) (.of_quiet quiet)

theorem shows_scalar {key : Key} (ne : "CONTENT" ≠ key.text)
    (there : ((template context source).values.find? key.text).isSome = true) :
    Shows context source [.scalar key] [] := by
  obtain ⟨value, found⟩ := Option.isSome_iff_exists.mp there
  have untagged := valuesUntagged_template context source key.text value found
  refine shows_of_value (fun body => ?_) (.of_untagged untagged)
  rw [Part.value, Template.value?, filled, values_supply, Registry.find?_insert, if_neg ne, found]

theorem shows_conditional {key : Key} {inverted holds : Bool} {parts : List Part}
    {scripts : List PageScript} (inner : Shows context source parts scripts)
    (found : ∀ body, (filled context source body).conditionals.find? key.text = some holds) :
    Shows context source [.conditional inverted key parts]
      (if holds != inverted then scripts else []) := by
  obtain ⟨cs, value, carries⟩ := inner
  cases shown : holds != inverted with
  | true =>
    refine shows_of_value (fun body => ?_) carries
    rw [Part.value, found]
    simp only [shown, if_true, value]
  | false =>
    have empty : Carries [] [] := .of_quiet .nil
    refine shows_of_value (fun body => ?_) empty
    rw [Part.value, found]
    simp [shown]

theorem chars_macroEnd : macroEnd.chars = ',' :: "\n            ".toList := by
  change ",\n            ".toList = _
  rw [String.toList_ofList, String.toList_ofList]

/-- A macro holds no bare slash, and a tag that starts in it cannot go on behind its comma. -/
theorem quiet_macroEntry (name expansion : String) :
    Quiet tagStart.toList ((macroEntry name expansion).toList ++ macroEnd.chars) := by
  have slash : ['t', '/'] <:+: tagStart.toList := by
    rw [toList_tagStart]
    decide
  have comma : ',' ∉ tagStart.toList := by
    rw [toList_tagStart]
    decide
  have free := (Text.SlashesEscaped.macroEntry name expansion).absent slash (by decide)
  have blank : Quiet tagStart.toList "\n            ".toList := by
    rw [toList_tagStart]
    exact Text.quiet_of_notMem (by simp)
  rw [chars_macroEnd, List.append_cons]
  exact (Text.quiet_of_separator free comma).append blank

theorem valueAll_rows (page : Template) (list : List (String × String)) :
    (list.map fun e => TemplateRow.single (macroEntry e.1 e.2)).mapM (fun row =>
      Part.valueAll page [.scalar macrosKey, .literal macroEnd]
        fun k => (row.find? macrosKey.text k).or (page.value? k)) =
      .ok (list.map fun e => (macroEntry e.1 e.2).toList ++ macroEnd.chars) := by
  induction list with
  | nil => rfl
  | cons e rest ih =>
    rw [List.map_cons, List.mapM_cons, ih]
    simp [Part.valueAll, Part.value, TemplateRow.find?, bind, Except.bind, pure, Except.pure]

/-- The macros as members of a script's object, with a comma behind each. -/
def macroRows (macros : Registry String) : List Char :=
  macros.entries.flatMap fun e => (macroEntry e.1 e.2).toList ++ macroEnd.chars

theorem value_macros (body : String) :
    Part.value (filled context source body) macros (filled context source body).value? =
      .ok (macroRows context.document.texMacros) := by
  have rows : (filled context source body).iterables.find? macrosKey.text =
      some (context.document.texMacros.entries.map fun e => .single (macroEntry e.1 e.2)) := by
    simp [filled, template, supplyMacros, macrosKey, Key.ofString, Key.text]
  rw [macros, Part.value, rows]
  dsimp only
  rw [valueAll_rows, macroRows, List.flatMap_def]
  rfl

theorem shows_macros : Shows context source [macros] [] := by
  refine shows_of_value value_macros (.of_quiet ?_)
  rw [macroRows]
  generalize context.document.texMacros.entries = list
  induction list with
  | nil => exact .nil
  | cons e rest ih => exact (quiet_macroEntry e.1 e.2).append ih

end Shows

section Page

variable (context : Context) (source : String)

theorem conditionals_filled (body : String) :
    (filled context source body).conditionals = (template context source).conditionals := by
  rw [filled, conditionals_supply]

/-- The values that a page gets in every context, besides the body. -/
def suppliedKeys : List String :=
  ["TITLE", "LANG", "DOCTYPE", "SERVER_PORT", "PAGE_WIDTH", "PAGE_HEIGHT", "PAGE_MARGIN",
   "COLUMN_COUNT", "HORIZONTAL_ALIGNMENT", "PARAGRAPH_SPACING", "PARAGRAPH_LINE_HEIGHT",
   "PARAGRAPH_LETTER_SPACING", "PARAGRAPH_INDENT"]

theorem isSome_supplied : ∀ key ∈ suppliedKeys,
    "CONTENT" ≠ key ∧ ((template context source).values.find? key).isSome = true := by
  simp [suppliedKeys, template, supplyDocument, supplyPresence, supplyFormat, supplyParagraphs,
    supplyMacros]

theorem find?_hasSize (body : String) :
    (filled context source body).conditionals.find? "HAS_PAGE_SIZE" =
      some context.document.layout.pageFormat.hasSize := by
  rw [conditionals_filled]
  simp [template, supplyDocument, supplyPresence, supplyFormat, supplyParagraphs, supplyMacros]

mutual

/-- No tag starts in the texts of a part, and all that it asks for is there. The macros are the one
loop of a page. -/
def Calm : Part → Prop
  | .literal text => Text.isQuiet tagStart.toList text.chars = true
  | .scalar key => key.text ∈ suppliedKeys
  | .conditional _ key parts => key.text = "HAS_PAGE_SIZE" ∧ AllCalm parts
  | .loop key parts => Part.loop key parts = macros

def AllCalm : List Part → Prop
  | [] => True
  | part :: rest => Calm part ∧ AllCalm rest

end

mutual

theorem shows_of_calm : ∀ part : Part, Calm part → Shows context source [part] []
  | .literal _, calm => shows_literal (Text.quiet_of_isQuiet calm)
  | .scalar key, calm => by
    obtain ⟨ne, there⟩ := isSome_supplied context source key.text calm
    exact shows_scalar ne there
  | .conditional inverted key parts, calm => by
    have found := find?_hasSize context source
    rw [← calm.1] at found
    -- Whether it shows or not, it loads nothing.
    have block : Shows context source [.conditional inverted key parts]
        (if context.document.layout.pageFormat.hasSize != inverted then [] else []) :=
      shows_conditional (shows_of_allCalm parts calm.2) found
    rwa [ite_self] at block
  | .loop _ _, calm => calm ▸ shows_macros

theorem shows_of_allCalm : ∀ parts : List Part, AllCalm parts → Shows context source parts []
  | [], _ => shows_nil
  | part :: rest, calm => (shows_of_calm part calm.1).append (shows_of_allCalm rest calm.2)

end

theorem shows_opening : Shows context source opening [] := by
  refine shows_of_allCalm context source _ ?_
  simp only [opening, AllCalm, Calm, text, Literal.ofString, Key.text, Key.ofString,
    String.ofList_toList, toList_tagStart, and_true]
  repeat rw [String.toList_ofList]
  decide

theorem shows_styles : Shows context source styles [] := by
  refine shows_of_allCalm context source _ ?_
  simp only [styles, sizeBlock, sizeRule, AllCalm, Calm, text, Literal.ofString, Key.text,
    Key.ofString, String.ofList_toList, toList_tagStart, and_true]
  repeat rw [String.toList_ofList]
  decide

theorem shows_loading (script : PageScript) :
    Shows context source (loading script) [script] := by
  have tag : Shows context source [text (scriptTag script) (isPlain_scriptTag script)] [script] :=
    shows_of_value (fun _ => rfl) (.scriptTag script)
  refine tag.append (shows_of_allCalm context source _ ?_)
  simp only [AllCalm, Calm, text, Literal.ofString, toList_tagStart, and_true]
  repeat rw [String.toList_ofList]
  decide

theorem shows_setup (script : PageScript) : Shows context source (setup script) [] := by
  refine shows_of_allCalm context source _ ?_
  cases script with
  | base | websockets => trivial
  | _ =>
    simp only [setup, macros, AllCalm, Calm, text, Literal.ofString, toList_tagStart, and_true,
      true_and]
    repeat rw [String.toList_ofList]
    decide

/-- The conditions of the page agree with the scripts of the bundle. -/
theorem find?_guarded (body : String) : ∀ entry ∈ guarded,
    (filled context source body).conditionals.find? entry.1.text =
      some (context.needsScript entry.2) := by
  rw [conditionals_filled]
  simp [guarded, slidesKey, Key.text, Key.ofString, template, supplyDocument, supplyPresence,
    supplyFormat, supplyParagraphs, supplyMacros, Context.needsScript]

theorem shows_gap : Shows context source [text "\n    "] [] := by
  refine shows_literal ?_
  rw [toList_tagStart]
  exact Text.quiet_of_notMem (by simp [Literal.ofString])

theorem shows_scriptBlock {entry : Key × PageScript} (mem : entry ∈ guarded) :
    Shows context source (scriptBlock entry.1 entry.2)
      (if context.needsScript entry.2 then [entry.2] else []) := by
  have inner := (shows_setup context source entry.2).append (shows_loading context source entry.2)
  have block : Shows context source
      [.conditional false entry.1 (setup entry.2 ++ loading entry.2)]
      (if context.needsScript entry.2 != false then [] ++ [entry.2] else []) :=
    shows_conditional inner fun body => find?_guarded context source body entry mem
  rw [Bool.bne_false, List.nil_append] at block
  have whole := block.append (shows_gap context source)
  rwa [List.append_nil] at whole

/-- The scripts that the page itself loads. The one that keeps up a connection is not among them. -/
def loaded : List PageScript :=
  PageScript.all.filter fun script => script != .websockets && context.needsScript script

theorem mem_loaded {script : PageScript} :
    script ∈ loaded context ↔ script ≠ .websockets ∧ context.needsScript script = true := by
  have all : script ∈ PageScript.all := by cases script <;> decide
  simp [loaded, all]

theorem shows_front : Shows context source front (loaded context) := by
  have blocks := shows_flatMap fun _ mem => shows_scriptBlock context source mem
  obtain ⟨cs, value, carries⟩ :=
    (((shows_opening context source).append (shows_loading context source .base)).append
      blocks).append (shows_styles context source)
  refine ⟨cs, value, carries.congr fun script => ?_⟩
  simp only [mem_loaded, List.mem_append, List.mem_flatMap, List.mem_ite_nil_right,
    List.mem_singleton, List.not_mem_nil, or_false, false_or]
  cases script <;> simp [guarded, Context.needsScript]

theorem firstUndecided?_tree (body : String) :
    Part.firstUndecided? (filled context source body) tree = none := by
  simp [tree, front, opening, loading, guarded, scriptBlock, setup, macros, styles, sizeBlock,
    sizeRule, Page.body, bodyBlocks, text, Part.firstUndecided?, Part.undecided?, slidesKey,
    Key.ofString, Key.text, conditionals_filled, template, supplyDocument, supplyPresence,
    supplyFormat, supplyParagraphs, supplyMacros]

theorem value_bodyBlocks {a b gap c d ending : Literal}
    (calm : AllCalm [.literal a, .literal b, .literal gap, .literal c, .literal d,
      .literal ending]) : ∃ before after, Carries [] before ∧ Carries [] after ∧
    ∀ body, Part.valueAll (filled context source body) (bodyBlocks a b gap c d ending)
      (filled context source body).value? = .ok (before ++ (body.toList ++ after)) := by
  obtain ⟨ha, hb, hgap, hc, hd, hending, -⟩ := calm
  have shown (body : String) : (filled context source body).conditionals.find? slidesKey.text =
      some (context.needsScript .slides) :=
    find?_guarded context source body (slidesKey, .slides) List.mem_cons_self
  have value (body : String) : (filled context source body).value? content.text = some body := by
    simp [filled, Template.value?, content, Key.ofString, Key.text]
  cases slides : context.needsScript .slides with
  | true =>
    have last := (Text.quiet_of_isQuiet hb).append
      ((Text.quiet_of_isQuiet hgap).append (Text.quiet_of_isQuiet hending))
    refine ⟨_, _, .of_quiet (Text.quiet_of_isQuiet ha), .of_quiet last, fun body => ?_⟩
    simp [bodyBlocks, Part.valueAll, Part.value, shown, value, slides, bind, Except.bind, pure,
      Except.pure]
  | false =>
    have first := (Text.quiet_of_isQuiet hgap).append (Text.quiet_of_isQuiet hc)
    have last := (Text.quiet_of_isQuiet hd).append (Text.quiet_of_isQuiet hending)
    refine ⟨_, _, .of_quiet first, .of_quiet last, fun body => ?_⟩
    simp [bodyBlocks, Part.valueAll, Part.value, shown, value, slides, bind, Except.bind, pure,
      Except.pure]

/-- The body stands between two texts, and no tag starts in what comes with it. -/
theorem value_body : ∃ before after, Carries [] before ∧ Carries [] after ∧
    ∀ body, Part.valueAll (filled context source body) Page.body
      (filled context source body).value? = .ok (before ++ (body.toList ++ after)) := by
  refine value_bodyBlocks context source ?_
  simp only [AllCalm, Calm, Literal.ofString, toList_tagStart, and_true]
  repeat rw [String.toList_ofList]
  decide

/-- A body is put between two texts, which are what the tree of the page gives before and behind it.
The first holds the tags of the scripts that the page loads. -/
theorem wrap_builtin : ∃ before after : List Char,
    Carries (loaded context) before ∧ Carries [] after ∧
    ∀ body,
      let page := filled context (Catalogue.Builtin.unlines Catalogue.Builtin.pageTemplate) body
      Part.valueAll page tree page.value? = .ok (before ++ body.toList ++ after) ∧
      wrap context (Catalogue.Builtin.unlines Catalogue.Builtin.pageTemplate) body =
        .ok (String.ofList (before ++ body.toList ++ after)) := by
  generalize same : Catalogue.Builtin.unlines Catalogue.Builtin.pageTemplate = source
  have written : source.toList = Part.writeAll tree := by
    rw [← same]
    exact text_tree
  obtain ⟨head, headValue, carries⟩ := shows_front context source
  obtain ⟨before, after, first, last, value⟩ := value_body context source
  have whole (body : String) : Part.valueAll (filled context source body) tree
      (filled context source body).value? = .ok (head ++ before ++ body.toList ++ after) := by
    rw [tree, Part.valueAll_append, headValue, value]
    simp [bind, Except.bind, pure, Except.pure]
  refine ⟨head ++ before, after, ?_, last, fun body => ⟨whole body, ?_⟩⟩
  · have all := carries.append first
    rwa [List.append_nil] at all
  · have process := process_writeAll (filled context source body) nested_tree written
      (firstUndecided?_tree context source body)
    rw [whole] at process
    exact process

end Page

end Quire.Page
