import Quire.Bundle.Page
import Quire.Proofs.Template.Search
import Quire.Proofs.Template.Supply
import Quire.Proofs.Text.Cut
import Quire.Proofs.Text.Escape
import Quire.Proofs.Text.Literal

/-!
# What a page is given holds no tags

Escaped text, measures and numbers hold no `<` at all. Macros may hold one, but every slash in them
comes behind a backslash.
-/

namespace Quire

/-- The sign that starts every tag does not stand in a text. -/
def Untagged (s : String) : Prop := '<' ∉ s.toList

namespace Untagged

theorem append {a b : String} (ha : Untagged a) (hb : Untagged b) : Untagged (a ++ b) := by
  unfold Untagged
  rw [String.toList_append, List.mem_append]
  rintro (mem | mem)
  · exact ha mem
  · exact hb mem

theorem escapeMarkup (s : String) : Untagged (Text.escapeMarkup s) := fun mem =>
  (Text.mem_escapeMarkup mem).1 rfl

theorem decimal (n : Nat) : Untagged (decimal n) := fun mem =>
  absurd (isDigit_of_mem_decimal mem) (by decide)

theorem positional {digits : List Char} (h : '<' ∉ digits) (power : Int) :
    '<' ∉ Binary64.positional digits power := by
  have front (n : Nat) : '<' ∉ digits.take n := fun mem => h (List.mem_of_mem_take mem)
  have back (n : Nat) : '<' ∉ digits.drop n := fun mem => h (List.mem_of_mem_drop mem)
  rw [Binary64.positional]
  split
  · simp [h, List.mem_replicate]
  · dsimp only
    split
    · simp [front, back]
    · simp [h, List.mem_replicate]

theorem significantDigits (n : Nat) : '<' ∉ (Binary64.significantDigits n).1 := by
  intro mem
  have mem := (List.dropWhile_suffix _).subset (List.mem_reverse.mp mem)
  have digit := Nat.isDigit_of_mem_toDigits (by decide) (by decide) (List.mem_reverse.mp mem)
  simp at digit

theorem magnitudeText (significand : Nat) (exponent : Int) :
    '<' ∉ Binary64.magnitudeText significand exponent := by
  rw [Binary64.magnitudeText]
  split
  · simp
  · generalize Binary64.shortest significand exponent = found
    obtain ⟨digits, power⟩ := found
    exact positional (significantDigits digits) _

theorem toText (value : Binary64) : Untagged value.toText := by
  have sign (negative : Bool) : '<' ∉ Binary64.signText negative := by
    cases negative <;> decide
  unfold Untagged
  cases value with
  | finite negative significand exponent =>
    rw [Binary64.toText, String.toList_ofList, List.mem_append]
    rintro (mem | mem)
    · exact sign negative mem
    · exact magnitudeText significand exponent mem
  | infinite negative =>
    rw [Binary64.toText, String.toList_ofList, List.mem_append]
    rintro (mem | mem)
    · exact sign negative mem
    · simp at mem
  | notANumber => simp [Binary64.toText]

theorem em (value : Binary64) : Untagged (Page.em value) :=
  (toText value).append (by simp [Untagged])

theorem size (size : Size) : Untagged size.css := by
  refine (toText size.value).append ?_
  cases size.unit <;> simp [Untagged, SizeUnit.css]

theorem sizes (sizes : Sizes) : Untagged sizes.css := by
  unfold Untagged
  rw [Sizes.css, String.toList_intercalate]
  generalize sizes.values = values
  induction values with
  | nil => simp
  | cons first rest ih =>
    have here : '<' ∉ first.css.toList := size first
    cases rest with
    | nil => simpa using here
    | cons second rest =>
      rw [List.map_cons, List.map_cons] at ih ⊢
      rw [List.map_cons, List.map_cons, List.intercalate_cons_cons]
      simpa [here] using ih

theorem getD_map {α : Type} {f : α → String} (h : ∀ x, Untagged (f x)) (o : Option α) :
    Untagged ((o.map f).getD "") := by
  cases o with
  | none => simp [Untagged]
  | some x => exact h x

end Untagged

namespace Text.SlashesEscaped

theorem macroEntry (name expansion : String) :
    SlashesEscaped (Page.macroEntry name expansion).toList := by
  have quote : SlashesEscaped "\"".toList := by simp [SlashesEscaped]
  have colon : SlashesEscaped "\": \"".toList := by simp [SlashesEscaped]
  rw [Page.macroEntry]
  simp only [String.toList_append]
  exact (((quote.append (escapeScript name)).append colon).append (escapeScript expansion)).append
    quote

end Text.SlashesEscaped

namespace Page

def ValuesUntagged (template : Template) : Prop :=
  ∀ key value, template.values.find? key = some value → Untagged value

namespace ValuesUntagged

variable {template : Template}

theorem supply (h : ValuesUntagged template) (key : String) {value : String}
    (untagged : Untagged value) : ValuesUntagged (template.supply key value) := by
  intro other found eq
  rw [Template.values_supply, Registry.find?_insert] at eq
  split at eq
  · rwa [← Option.some.inj eq]
  · exact h other found eq

theorem supplyOptional {α : Type} {f : α → String} (h : ValuesUntagged template) (key : String)
    (untagged : ∀ x, Untagged (f x)) (o : Option α) :
    ValuesUntagged (template.supplyOptional key (o.map f)) :=
  h.supply key (.getD_map untagged o)

theorem document (h : ValuesUntagged template) (context : Context) :
    ValuesUntagged (supplyDocument context template) := by
  have port := h.supplyOptional "SERVER_PORT" (fun n : UInt16 => .decimal n.toNat)
    context.options.serverPort
  have title := port.supply "TITLE" (.escapeMarkup (context.document.name.getD defaultTitle))
  have lang := title.supplyOptional "LANG" .escapeMarkup context.document.locale
  refine lang.supply "DOCTYPE" ?_
  cases context.document.type <;> simp [Untagged, DocumentType.name]

theorem presence (h : ValuesUntagged template) (presence : Presence) :
    ValuesUntagged (supplyPresence presence template) := h

theorem format (h : ValuesUntagged template) (format : PageFormat) :
    ValuesUntagged (supplyFormat format template) := by
  have width := h.supplyOptional "PAGE_WIDTH" .size format.width
  have height := width.supplyOptional "PAGE_HEIGHT" .size format.height
  have margin := height.supplyOptional "PAGE_MARGIN" .sizes format.margin
  have columns := margin.supplyOptional "COLUMN_COUNT" (fun n : UInt32 => .decimal n.toNat)
    format.columns
  refine columns.supplyOptional "HORIZONTAL_ALIGNMENT" (fun alignment => ?_) format.alignment
  cases alignment <;> simp [Untagged, HorizontalAlignment.name]

theorem paragraphs (h : ValuesUntagged template) (style : ParagraphStyle) :
    ValuesUntagged (supplyParagraphs style template) := by
  have spacing := h.supplyOptional "PARAGRAPH_SPACING" .em style.spacing
  have height := spacing.supplyOptional "PARAGRAPH_LINE_HEIGHT" .toText style.lineHeight
  have letters := height.supplyOptional "PARAGRAPH_LETTER_SPACING" .em style.letterSpacing
  exact letters.supplyOptional "PARAGRAPH_INDENT" .em style.indent

theorem macros (h : ValuesUntagged template) (macros : Registry String) :
    ValuesUntagged (supplyMacros macros template) := h

end ValuesUntagged

theorem valuesUntagged_template (context : Context) (text : String) :
    ValuesUntagged (template context text) := by
  have start : ValuesUntagged (Template.ofText text) := by
    intro key value eq
    contradiction
  exact ((((start.document context).presence _).format _).paragraphs _).macros _

end Page

end Quire
