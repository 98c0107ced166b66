import Quire.Document.Decoding
import Quire.Document.Encoding
import Quire.Proofs.Document.Decoding
import Quire.Proofs.Json.Reading

/-!
# Documents and their texts

The JSON form of a document has nothing in it that a text could not say, so the document is read
back from its text where that nests no deeper than the reader goes.
-/

namespace Quire

open Json

theorem TextLook.readable_toJson (look : TextLook) : look.toJson.Readable := by
  simp [TextLook.toJson]

theorem SlideSettings.readable_toJson (settings : SlideSettings) : settings.toJson.Readable := by
  simp [SlideSettings.toJson, Transition.toJson]

theorem Json.readable_ofKind {kind : String} {members : List (String × Json)} :
    (Json.ofKind kind members).Readable ↔ ∀ member ∈ members, member.2.Readable := by
  rw [ofKind, readable_object, List.forall_mem_singleton, readable_object]

mutual

theorem Inline.readable_toJson : ∀ inline : Inline, inline.toJson.Readable
  | .lineBreak | .text _ | .codeSpan _ _ | .mathSpan _ | .whitespace _ _ | .pageCounter _ => by
    simp [Inline.toJson, readable_ofKind, or_imp, forall_and]
  | .emphasis content | .strong content | .strikethrough content | .link content _
  | .referenceLink content _ | .image _ content _ _ _ => by
    have content := Inline.readable_toJsons content
    simp [Inline.toJson, readable_ofKind, LinkTarget.members, or_imp, forall_and, content]
  | .textTransform look content => by
    have content := Inline.readable_toJsons content
    simp [Inline.toJson, readable_ofKind, look.readable_toJson, content]
  | .inlineCollapse full placeholder _ => by
    have full := Inline.readable_toJsons full
    have placeholder := Inline.readable_toJsons placeholder
    simp [Inline.toJson, readable_ofKind, full, placeholder]

theorem Inline.readable_toJsons :
    ∀ inlines : List Inline, (Json.array (Inline.toJsons inlines)).Readable
  | [] => by simp [Inline.toJsons, readable_array]
  | inline :: rest => by
    have others := readable_array.mp (Inline.readable_toJsons rest)
    rw [Inline.toJsons, readable_array, List.forall_mem_cons]
    exact ⟨inline.readable_toJson, others⟩

end

theorem Table.readable_rowToJson (cells : List (List Inline)) :
    (Table.rowToJson cells).Readable := by
  rw [Table.rowToJson, readable_object, List.forall_mem_singleton, readable_array,
    List.forall_mem_map]
  intro cell _
  simp [Inline.readable_toJsons]

theorem Table.readable_members (table : Table) :
    ∀ member ∈ table.members, member.2.Readable := by
  simp [Table.members, readable_array, or_imp, forall_and, Table.readable_rowToJson]

mutual

theorem Block.readable_toJson : ∀ block : Block, block.toJson.Readable
  | .horizontalRule | .pageBreak | .codeBlock _ _ _ | .html _ | .math _ | .mermaidDiagram _
  | .tikzDiagram _ => by
    simp [Block.toJson, readable_ofKind, or_imp, forall_and]
  | .linkDefinition definition => by
    simp [Block.toJson, LinkDefinition.toJson, LinkTarget.members, or_imp, forall_and]
  | .slides settings => by simp [Block.toJson, settings.readable_toJson]
  | .table table => by
    rw [Block.toJson, readable_ofKind]
    exact table.readable_members
  | .paragraph content | .heading _ content _ => by
    simp [Block.toJson, readable_ofKind, or_imp, forall_and, Inline.readable_toJsons]
  | .tableOfContents title _ => by
    simp [Block.toJson, readable_ofKind, or_imp, forall_and, Inline.optionalMember,
      Inline.readable_toJsons]
  | .figure child _ => by
    simp [Block.toJson, readable_ofKind, or_imp, forall_and, child.readable_toJson]
  | .orderedList _ items | .unorderedList items => by
    simp [Block.toJson, readable_ofKind, ListItem.readable_toJsons items]
  | .blockQuote _ _ content | .callout _ _ _ content | .collapse _ _ content
  | .fullColumnSpan content | .numbered _ content | .expanded content | .pageMargin _ content
  | .container content _ => by
    have content := Block.readable_toJsons content
    simp [Block.toJson, readable_ofKind, ContainerStyle.members, or_imp, forall_and,
      Inline.optionalMember, Inline.readable_toJsons, content]

theorem Block.readable_toJsons :
    ∀ blocks : List Block, (Json.array (Block.toJsons blocks)).Readable
  | [] => by simp [Block.toJsons, readable_array]
  | block :: rest => by
    have others := readable_array.mp (Block.readable_toJsons rest)
    rw [Block.toJsons, readable_array, List.forall_mem_cons]
    exact ⟨block.readable_toJson, others⟩

theorem ListItem.readable_toJsons :
    ∀ items : List ListItem, (Json.array (ListItem.toJsons items)).Readable
  | [] => by simp [ListItem.toJsons, readable_array]
  | .mk content checked :: rest => by
    have content := Block.readable_toJsons content
    have others := readable_array.mp (ListItem.readable_toJsons rest)
    rw [ListItem.toJsons, readable_array, List.forall_mem_cons]
    refine ⟨?_, others⟩
    simp [or_imp, forall_and, content]

end

theorem Document.readable_toJson (document : Document) : document.toJson.Readable := by
  simp [Document.toJson, Block.readable_toJsons]

/-- A document is what its text reads as. -/
theorem Document.read?_toJson (document : Document) (fits : document.toJson.nesting ≤ 127) :
    Document.read? document.toJson.compact = some document := by
  rw [Document.read?, Json.read?_compact document.readable_toJson]
  exact document.ofJson?_toJson fits

/-- Fields that are left out, defaults that are written, and characters that are escaped. -/
theorem Document.read?_toJson_callout :
    let item : ListItem := .mk [.paragraph [.text "\"\\\n\x01\x7fß", .lineBreak]] (some true)
    let style : ContainerStyle := { width := some "" }
    let document : Document :=
      ⟨[.callout .tip (some [.strong [.image "u" [] none (some "1px") none]]) none
        [.orderedList 1 [item], .tableOfContents none 3, .container [.pageBreak] style]]⟩
    document.toJson.nesting ≤ 127 ∧
      Document.read? document.toJson.compact = some document := by
  intro item style document
  have fits : document.toJson.nesting ≤ 127 := by decide
  exact ⟨fits, document.read?_toJson fits⟩

end Quire
