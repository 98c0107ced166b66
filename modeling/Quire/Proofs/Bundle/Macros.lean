import Quire.Proofs.Bundle.Shipping
import Quire.Proofs.Discovery.Presence
import Quire.Proofs.Text.Element

/-!
# The macros of a page

A page with formulas holds the macros of its configuration as an object in a script. The script
reads all of them back, nothing in it ends its element, and the end of the element is missed only
where the macros themselves have what hides it.
-/

namespace Quire

namespace Text

/-- What stands behind a sign, with white space in front of it. -/
def behind? (sign : Char) (cs : List Char) : Option (List Char) :=
  match Json.skipSpace cs with
  | [] => none
  | c :: rest => if c = sign then some rest else none

/-- A string in quotes of either kind, with white space in front of it. -/
def readQuoted (cs : List Char) : Option (String × List Char) :=
  match Json.skipSpace cs with
  | '"' :: rest => readLiteral .double rest
  | '\'' :: rest => readLiteral .single rest
  | _ => none

def readMember (cs : List Char) : Option ((String × String) × List Char) := do
  let (name, rest) ← readQuoted cs
  let rest ← behind? ':' rest
  let (text, rest) ← readQuoted rest
  pure ((name, text), rest)

/-- The members of an object of strings up to its closing brace, and what comes behind it. There may
be a comma behind the last one. The first argument bounds how many there are. -/
def readMembers : Nat → List Char → Option (List (String × String) × List Char)
  | 0, _ => none
  | steps + 1, cs =>
    match behind? '\x7d' cs with
    | some rest => some ([], rest)
    | none => do
      let (member, rest) ← readMember cs
      match behind? ',' rest with
      | some rest => do
        let (members, rest) ← readMembers steps rest
        pure (member :: members, rest)
      | none => do
        let rest ← behind? '\x7d' rest
        pure ([member], rest)

def readObject (cs : List Char) : Option (List (String × String) × List Char) :=
  readMembers (cs.length + 1) cs

end Text

namespace Page

open Template
open Text (HidesEnd EndsScript Spells signs readMember readMembers readObject)

/-- What stands behind the opening brace of the macros, up to the end of their script. -/
def macroTable (macros : Registry String) : List Char :=
  "\n            ".toList ++
    (macroRows macros ++ ("\n        ".toList ++ '\x7d' :: ";\n    ".toList))

def macroScript (macros : Registry String) : List Char :=
  "\n        const texMacros = \x7b".toList ++ macroTable macros

def macroElement (macros : Registry String) : List Char :=
  "<script>".toList ++ (macroScript macros ++ "</script>".toList)

/-- The names and texts of the macros in their order, with a quote behind each. -/
def macroTexts (macros : Registry String) : List Char :=
  macros.entries.flatMap fun e => e.1.toList ++ '"' :: (e.2.toList ++ ['"'])

/-- The definition as an equation, since the texts in it must not be computed. -/
theorem macroTable_eq (macros : Registry String) : macroTable macros =
    "\n            ".toList ++
      (macroRows macros ++ ("\n        ".toList ++ '\x7d' :: ";\n    ".toList)) := by
  delta macroTable
  with_reducible rfl

theorem macroScript_eq (macros : Registry String) : macroScript macros =
    "\n        const texMacros = \x7b".toList ++ macroTable macros := by
  delta macroScript
  with_reducible rfl

theorem toList_macroEntry (name expansion : String) (rest : List Char) :
    (macroEntry name expansion).toList ++ rest =
      '"' :: ((Text.escapeScript name).toList ++ '"' :: ':' :: ' ' :: '"' ::
        ((Text.escapeScript expansion).toList ++ '"' :: rest)) := by
  rw [macroEntry]
  simp [String.toList_append]

section Reading

def IsGap (gap : List Char) : Prop := ∀ c ∈ gap, Json.isSpace c = true

theorem skipSpace_gap {gap : List Char} (blank : IsGap gap) (cs : List Char) :
    Json.skipSpace (gap ++ cs) = Json.skipSpace cs :=
  List.dropWhile_append_of_pos blank

theorem behind?_gap {gap : List Char} (blank : IsGap gap) (sign : Char) (cs : List Char) :
    Text.behind? sign (gap ++ cs) = Text.behind? sign cs := by
  rw [Text.behind?, Text.behind?, skipSpace_gap blank]

theorem behind?_cons {c : Char} (visible : Json.isSpace c = false) (sign : Char)
    (rest : List Char) : Text.behind? sign (c :: rest) = if c = sign then some rest else none := by
  rw [Text.behind?, Json.skipSpace, List.dropWhile_cons_of_neg (by simp [visible])]

theorem readQuoted_double (text : String) {gap : List Char} (blank : IsGap gap)
    (rest : List Char) :
    Text.readQuoted (gap ++ '"' :: ((Text.escapeScript text).toList ++ '"' :: rest)) =
      some (text, rest) := by
  have quote : Json.isSpace '"' = false := by decide
  rw [Text.readQuoted, skipSpace_gap blank, Json.skipSpace,
    List.dropWhile_cons_of_neg (by simp [quote])]
  exact Text.readLiteral_escapeScript .double text rest

theorem readMember_macroEntry (name expansion : String) {gap : List Char} (blank : IsGap gap)
    (rest : List Char) :
    readMember (gap ++ ((macroEntry name expansion).toList ++ rest)) =
      some ((name, expansion), rest) := by
  have one : IsGap [' '] := by
    intro c mem
    rw [List.mem_singleton.mp mem]
    decide
  have second := readQuoted_double expansion one rest
  rw [List.singleton_append] at second
  rw [toList_macroEntry, readMember, readQuoted_double name blank]
  have colon : Json.isSpace ':' = false := by decide
  simp only [Option.bind_eq_bind, Option.bind_some, behind?_cons colon, if_true, second,
    Option.pure_def]

theorem isGap_macroEnd : IsGap "\n            ".toList := by
  rw [IsGap, String.toList_ofList]
  exact List.all_eq_true.mp rfl

theorem readMembers_rows (entries : List (String × String)) {steps : Nat}
    (enough : entries.length < steps) {gap last : List Char} (blank : IsGap gap)
    (blankLast : IsGap last) (rest : List Char) :
    readMembers steps (gap ++ (entries.flatMap (fun e => (macroEntry e.1 e.2).toList ++
      macroEnd.chars) ++ (last ++ '\x7d' :: rest))) = some (entries, rest) := by
  induction entries generalizing steps gap with
  | nil =>
    cases steps with
    | zero => contradiction
    | succ steps =>
      rw [List.flatMap_nil, List.nil_append, readMembers, behind?_gap blank,
        behind?_gap blankLast, behind?_cons (by decide), if_pos rfl]
  | cons e entries ih =>
    cases steps with
    | zero => contradiction
    | succ steps =>
      rw [List.flatMap_cons, List.append_assoc, List.append_assoc, chars_macroEnd,
        List.cons_append]
      generalize behind : "\n            ".toList ++ _ = others
      have later : readMembers steps others = some (entries, rest) := by
        rw [← behind, ← chars_macroEnd]
        exact ih (Nat.lt_of_succ_lt_succ enough) isGap_macroEnd
      have open_ : Text.behind? '\x7d' (gap ++ ((macroEntry e.1 e.2).toList ++ ',' :: others)) =
          none := by
        rw [behind?_gap blank, toList_macroEntry, behind?_cons (by decide), if_neg (by decide)]
      have comma : Text.behind? ',' (',' :: others) = some others := by
        rw [behind?_cons (by decide), if_pos rfl]
      rw [readMembers, open_]
      simp only [readMember_macroEntry e.1 e.2 blank, comma, later, Option.bind_eq_bind,
        Option.bind_some, Option.pure_def]

theorem length_entries_le (macros : Registry String) :
    macros.entries.length ≤ (macroRows macros).length := by
  rw [macroRows]
  generalize macros.entries = entries
  induction entries with
  | nil => exact Nat.le_refl _
  | cons e entries ih =>
    have comma : 1 ≤ macroEnd.chars.length := by
      rw [chars_macroEnd, List.length_cons]
      omega
    rw [List.flatMap_cons, List.length_append, List.length_append, List.length_cons]
    omega

/-- All macros are read back, in their order. -/
theorem readObject_macroTable (macros : Registry String) :
    readObject (macroTable macros) = some (macros.entries, ";\n    ".toList) := by
  have blank : IsGap "\n        ".toList := by
    rw [IsGap, String.toList_ofList]
    exact List.all_eq_true.mp rfl
  have enough : macros.entries.length < (macroTable macros).length + 1 := by
    have inside : macroRows macros <:+: macroTable macros :=
      ⟨_, _, (List.append_assoc _ _ _).trans (macroTable_eq macros).symm⟩
    exact Nat.lt_succ_of_le ((length_entries_le macros).trans inside.length_le)
  rw [readObject]
  generalize (macroTable macros).length + 1 = steps at enough ⊢
  rw [macroTable_eq, macroRows]
  exact readMembers_rows macros.entries enough isGap_macroEnd blank _

end Reading

section Signs

theorem signs_macroEntry (name expansion : String) (rest : List Char) :
    signs ((macroEntry name expansion).toList ++ (macroEnd.chars ++ rest)) =
      signs name.toList ++ (signs expansion.toList ++ signs rest) := by
  have comma : '<' ∉ macroEnd.chars := by
    rw [chars_macroEnd, String.toList_ofList]
    decide
  have first (more : List Char) : signs ('"' :: more) = signs more :=
    Text.signs_append_of_notMem (a := ['"']) (by decide) more
  have between (more : List Char) : signs (':' :: ' ' :: '"' :: more) = signs more :=
    Text.signs_append_of_notMem (a := [':', ' ', '"']) (by decide) more
  rw [toList_macroEntry, Text.escapeScript_toList, Text.escapeScript_toList, first,
    Text.signs_append_quote, Text.signs_escaped, between, Text.signs_append_quote,
    Text.signs_escaped, Text.signs_append_of_notMem comma]

/-- The script of the macros has the signs of their texts and no others. -/
theorem signs_macroScript (macros : Registry String) :
    signs (macroScript macros) = signs (macroTexts macros) := by
  have front : '<' ∉ "\n        const texMacros = \x7b".toList ++ "\n            ".toList := by
    rw [List.mem_append, not_or]
    constructor
    · rw [String.toList_ofList]
      decide
    · rw [String.toList_ofList]
      decide
  have back : signs ("\n        ".toList ++ '\x7d' :: ";\n    ".toList) = [] := by
    rw [String.toList_ofList, String.toList_ofList]
    decide
  rw [macroScript_eq, macroTable_eq, ← List.append_assoc, Text.signs_append_of_notMem front,
    macroRows, macroTexts]
  generalize macros.entries = entries
  induction entries with
  | nil => rw [List.flatMap_nil, List.nil_append, back, List.flatMap_nil, signs]
  | cons e entries ih =>
    rw [List.flatMap_cons, List.append_assoc, List.append_assoc, signs_macroEntry, ih,
      List.flatMap_cons]
    simp only [List.append_assoc, List.cons_append, List.nil_append, Text.signs_append_quote]

theorem hidesEnd_macroScript (macros : Registry String) :
    HidesEnd (macroScript macros) ↔ HidesEnd (macroTexts macros) := by
  rw [Text.hidesEnd_iff, Text.hidesEnd_iff, signs_macroScript]

/-- Every slash in the script of the macros comes behind a backslash. -/
theorem slashesEscaped_macroScript (macros : Registry String) :
    Text.SlashesEscaped (macroScript macros) := by
  have opening : '/' ∉ "\n        const texMacros = \x7b".toList := by
    rw [String.toList_ofList]
    decide
  have front : '/' ∉ "\n            ".toList := by
    rw [String.toList_ofList]
    decide
  have back : '/' ∉ "\n        ".toList ++ '\x7d' :: ";\n    ".toList := by
    rw [String.toList_ofList, String.toList_ofList]
    decide
  have comma : '/' ∉ macroEnd.chars := by
    rw [chars_macroEnd, String.toList_ofList]
    decide
  have rows : Text.SlashesEscaped (macroRows macros) := by
    rw [macroRows]
    generalize macros.entries = entries
    induction entries with
    | nil => exact .of_notMem List.not_mem_nil
    | cons e entries ih =>
      exact ((Text.SlashesEscaped.macroEntry e.1 e.2).append (.of_notMem comma)).append ih
  rw [macroScript_eq, macroTable_eq]
  exact (Text.SlashesEscaped.of_notMem opening).append
    ((Text.SlashesEscaped.of_notMem front).append (rows.append (.of_notMem back)))

end Signs

section Placed

/-- Parts have one value for all bodies, and a text stands in it. -/
def Holds (context : Context) (source : String) (parts : List Part) (cs : List Char) : Prop :=
  ∃ before after, ∀ body, Part.valueAll (filled context source body) parts
    (filled context source body).value? = .ok (before ++ (cs ++ after))

namespace Holds

variable {context : Context} {source : String} {parts more : List Part} {cs : List Char}
  {scripts : List PageScript}

theorem append (h : Holds context source parts cs) (k : Shows context source more scripts) :
    Holds context source (parts ++ more) cs := by
  obtain ⟨before, after, value⟩ := h
  obtain ⟨ds, value', -⟩ := k
  refine ⟨before, after ++ ds, fun body => ?_⟩
  rw [Part.valueAll_append, value, value']
  simp only [bind, Except.bind, pure, Except.pure, List.append_assoc]

theorem behind (h : Holds context source parts cs) (k : Shows context source more scripts) :
    Holds context source (more ++ parts) cs := by
  obtain ⟨before, after, value⟩ := h
  obtain ⟨ds, value', -⟩ := k
  refine ⟨ds ++ before, after, fun body => ?_⟩
  rw [Part.valueAll_append, value, value']
  simp only [bind, Except.bind, pure, Except.pure, List.append_assoc]

theorem conditional {key : Key} (h : Holds context source parts cs)
    (found : ∀ body, (filled context source body).conditionals.find? key.text = some true) :
    Holds context source [.conditional false key parts] cs := by
  obtain ⟨before, after, value⟩ := h
  refine ⟨before, after, fun body => ?_⟩
  rw [Part.valueAll, Part.value, found]
  dsimp only
  rw [Bool.bne_false, if_pos rfl, value, Part.valueAll]
  simp only [bind, Except.bind, pure, Except.pure, List.append_nil]

end Holds

variable (context : Context) (source : String)

/-- What a page loads for formulas, with the start and the end of the script of the macros. -/
theorem setup_math : ∃ first start stop,
    setup .math = first ++ [.literal start, macros, .literal stop] ∧
    Shows context source first [] ∧
    start.chars = "\n    <script>".toList ++
      ("\n        const texMacros = \x7b".toList ++ "\n            ".toList) ∧
    stop.chars = ("\n        ".toList ++ '\x7d' :: ";\n    ".toList) ++
      "</script>\n    ".toList := by
  refine ⟨(setup .math).take 3, _, _, rfl, ?_, ?_, ?_⟩
  · refine shows_of_allCalm context source _ ?_
    simp only [setup, List.take_succ_cons, List.take_zero, AllCalm, Calm, text, Literal.ofString,
      toList_tagStart, and_true]
    repeat rw [String.toList_ofList]
    decide
  · dsimp only [text, Literal.ofString]
    decide +kernel
  · dsimp only [text, Literal.ofString]
    decide +kernel

theorem holds_setup_math :
    Holds context source (setup .math) (macroElement context.document.texMacros) := by
  obtain ⟨first, start, stop, parts, shows, starts, stops⟩ := setup_math context source
  have opening : "\n    <script>".toList = "\n    ".toList ++ "<script>".toList := by
    decide +kernel
  have closing : "</script>\n    ".toList = "</script>".toList ++ "\n    ".toList := by
    decide +kernel
  rw [parts]
  refine Holds.behind ⟨"\n    ".toList, "\n    ".toList, fun body => ?_⟩ shows
  have value : Part.valueAll (filled context source body)
      [.literal start, macros, .literal stop] (filled context source body).value? =
      .ok (start.chars ++ (macroRows context.document.texMacros ++ stop.chars)) := by
    simp [Part.valueAll, value_macros, Part.value, bind, Except.bind, pure, Except.pure]
  rw [value, starts, stops, opening, closing]
  delta macroElement
  rw [macroScript_eq, macroTable_eq]
  simp only [List.append_assoc]

/-- The block for formulas is one of the blocks that load scripts. -/
theorem exists_guarded_split : ∃ before key after, guarded = before ++ (key, .math) :: after :=
  ⟨guarded.take 2, _, guarded.drop 3, rfl⟩

theorem holds_front (math : context.index.presence.math = true) :
    Holds context source front (macroElement context.document.texMacros) := by
  obtain ⟨others, key, more, split⟩ := exists_guarded_split
  have here : (key, PageScript.math) ∈ guarded := by simp [split]
  have blocks (entries : List (Key × PageScript)) (sub : entries ⊆ guarded) :=
    shows_flatMap fun _ mem => shows_scriptBlock context source (sub mem)
  have first := blocks others (by simp [split])
  have last := blocks more fun _ mem => by simp [split, mem]
  have shown (body : String) :
      (filled context source body).conditionals.find? key.text = some true := by
    rw [find?_guarded context source body _ here, Context.needsScript, math]
  have inner := (holds_setup_math context source).append (shows_loading context source .math)
  have block := (inner.conditional shown).append (shows_gap context source)
  have whole := ((block.behind first).behind
    ((shows_opening context source).append (shows_loading context source .base))).append
      (last.append (shows_styles context source))
  have parts : front = opening ++ loading .base ++
      (others.flatMap (fun entry => scriptBlock entry.1 entry.2) ++
        ([.conditional false key (setup .math ++ loading .math)] ++ [text "\n    "])) ++
      (more.flatMap (fun entry => scriptBlock entry.1 entry.2) ++ styles) := by
    rw [front, split, List.flatMap_append, List.flatMap_cons, scriptBlock]
    simp only [List.append_assoc, List.cons_append, List.nil_append]
  rwa [parts]

/-- The built-in page of a document with formulas holds the script of the macros, whatever the body
is. -/
theorem page_macros (math : context.index.presence.math = true) (body : String) :
    ∃ before after, Bundle.page context Catalogue.builtin body =
      .ok (String.ofList (before ++ (macroElement context.document.texMacros ++ after))) := by
  generalize same : Catalogue.Builtin.unlines Catalogue.Builtin.pageTemplate = source
  have written : source.toList = Part.writeAll tree := by
    rw [← same]
    exact text_tree
  obtain ⟨before, after, head⟩ := holds_front context source math
  obtain ⟨first, last, -, -, value⟩ := value_body context source
  have process := process_writeAll (filled context source body) nested_tree written
    (firstUndecided?_tree context source body)
  rw [tree, Part.valueAll_append, head, value] at process
  refine ⟨before, after ++ (first ++ (body.toList ++ last)), ?_⟩
  rw [Bundle.page_of_load Bundle.load_pagePath, same, wrap]
  rw [show (template context source).supply "CONTENT" body = filled context source body from rfl,
    process]
  simp [bind, Except.bind, pure, Except.pure, Except.map, Except.mapError]

end Placed

end Page

open Page Text

/-- The macros of a page with formulas stand in a script that reads all of them back in their order.
Nothing in it ends its element, and the end of the element is missed just where the names and texts
of the macros themselves have a `<!--` and a `<script` behind it. -/
theorem macros_confined {document : Document}
    (formula : ∃ node, document.Contains node ∧ node.needs .math = true) (context : Context) :
    (∀ body, ∃ before after, Bundle.page (context.discover document) Catalogue.builtin body =
      .ok (String.ofList
        (before ++ (macroElement context.document.texMacros ++ after)))) ∧
    ¬ EndsScript (macroScript context.document.texMacros) ∧
    (HidesEnd (macroScript context.document.texMacros) ↔
      HidesEnd (macroTexts context.document.texMacros)) ∧
    readObject (macroTable context.document.texMacros) =
      some (context.document.texMacros.entries, ";\n    ".toList) := by
  have math : (context.discover document).index.presence.math = true :=
    (document.presence_iff .math).mpr formula
  exact ⟨page_macros (context.discover document) math,
    (slashesEscaped_macroScript _).not_endsScript, hidesEnd_macroScript _,
    readObject_macroTable _⟩

/-- The words that hide the end, the other way around, and an end in capitals. -/
theorem macros_confined_reversed :
    let document : Document := ⟨[.math "x"]⟩
    let macros : Registry String := ⟨[("<SCRIPT", "</Script>"), ("\\q", "<!--\n")]⟩
    let context : Context :=
      { document := { texMacros := macros }, options := {}, labelling := fun _ _ => none }
    (∃ node, document.Contains node ∧ node.needs .math = true) ∧
      (∃ before after, Bundle.page (context.discover document) Catalogue.builtin "" =
        .ok (String.ofList (before ++ (macroElement macros ++ after)))) ∧
      ¬ EndsScript (macroScript macros) ∧ ¬ HidesEnd (macroScript macros) ∧
      readObject (macroTable macros) = some (macros.entries, ";\n    ".toList) := by
  intro document macros context
  have formula : ∃ node, document.Contains node ∧ node.needs .math = true :=
    ⟨_, .top (List.mem_singleton.mpr rfl), rfl⟩
  obtain ⟨pages, ends, hides, read⟩ := macros_confined formula context
  refine ⟨formula, pages "", ends, ?_, read⟩
  rw [hides, hidesEnd_iff]
  decide +kernel

/-- Two words that are harmless in a string hide the end of the script from markup. -/
theorem macros_hide_end :
    let document : Document := ⟨[.math "x"]⟩
    let macros : Registry String := ⟨[("<!--", "<script")]⟩
    let context : Context :=
      { document := { texMacros := macros }, options := {}, labelling := fun _ _ => none }
    (∃ before after, Bundle.page (context.discover document) Catalogue.builtin "" =
        .ok (String.ofList (before ++ (macroElement macros ++ after)))) ∧
      HidesEnd (macroScript macros) := by
  intro document macros context
  have formula : ∃ node, document.Contains node ∧ node.needs .math = true :=
    ⟨_, .top (List.mem_singleton.mpr rfl), rfl⟩
  refine ⟨page_macros _ ((document.presence_iff .math).mpr formula) "", ?_⟩
  rw [hidesEnd_macroScript, hidesEnd_iff]
  decide +kernel

end Quire
