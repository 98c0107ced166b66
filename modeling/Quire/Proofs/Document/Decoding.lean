import Quire.Document.Decoding
import Quire.Document.Encoding
import Quire.Proofs.Json.Record

/-!
# Reading back the JSON form of a tree

Every node is what its JSON form reads as, where that form nests no deeper than there is room. The
induction follows the tree, and each array and object takes one from the room.
-/

namespace Quire

open Json

/-! ### Nesting -/

namespace Json

mutual

/-- How many arrays and objects stand inside each other. -/
def nesting : Json → Nat
  | .array items => itemsNesting items + 1
  | .object members => membersNesting members + 1
  | _ => 0

def itemsNesting : List Json → Nat
  | [] => 0
  | item :: rest => max item.nesting (itemsNesting rest)

def membersNesting : List (String × Json) → Nat
  | [] => 0
  | (_, value) :: rest => max value.nesting (membersNesting rest)

end

theorem itemsNesting_le {items : List Json} {room : Nat} :
    itemsNesting items ≤ room ↔ ∀ item ∈ items, item.nesting ≤ room := by
  induction items with
  | nil => simp [itemsNesting]
  | cons item items ih => rw [itemsNesting, Nat.max_le, ih, List.forall_mem_cons]

theorem membersNesting_le {members : List (String × Json)} {room : Nat} :
    membersNesting members ≤ room ↔ ∀ member ∈ members, member.2.nesting ≤ room := by
  induction members with
  | nil => simp [membersNesting]
  | cons member members ih => rw [membersNesting, Nat.max_le, ih, List.forall_mem_cons]

/-- What stands in a container has one place less. -/
theorem exists_room {depth room : Nat} :
    depth + 1 ≤ room ↔ ∃ inside, room = inside + 1 ∧ depth ≤ inside := by
  constructor
  · intro fits
    exact ⟨room - 1, by omega, by omega⟩
  · rintro ⟨inside, rfl, fits⟩
    omega

theorem nesting_array_le {items : List Json} {room : Nat} :
    (Json.array items).nesting ≤ room ↔
      ∃ inside, room = inside + 1 ∧ ∀ item ∈ items, item.nesting ≤ inside := by
  simp only [nesting, exists_room, itemsNesting_le]

theorem nesting_object_le {members : List (String × Json)} {room : Nat} :
    (Json.object members).nesting ≤ room ↔
      ∃ inside, room = inside + 1 ∧ ∀ member ∈ members, member.2.nesting ≤ inside := by
  simp only [nesting, exists_room, membersNesting_le]

/-- A node with fields is an object in an object. -/
theorem nesting_ofKind_le {kind : String} {members : List (String × Json)} {room : Nat} :
    (Json.ofKind kind members).nesting ≤ room ↔
      ∃ inside, room = inside + 2 ∧ ∀ member ∈ members, member.2.nesting ≤ inside := by
  rw [ofKind, nesting_object_le]
  simp only [List.forall_mem_singleton, nesting_object_le]
  constructor
  · rintro ⟨outside, rfl, inside, rfl, fits⟩
    exact ⟨inside, rfl, fits⟩
  · rintro ⟨inside, rfl, fits⟩
    exact ⟨inside + 1, rfl, inside, rfl, fits⟩

end Json

/-! ### Choices -/

instance : Spelled TextSize.all TextSize.name := ⟨fun x => by cases x <;> decide, by decide⟩
instance : Spelled TextWeight.all TextWeight.name := ⟨fun x => by cases x <;> decide, by decide⟩
instance : Spelled TextStyle.all TextStyle.name := ⟨fun x => by cases x <;> decide, by decide⟩
instance : Spelled TextVariant.all TextVariant.name := ⟨fun x => by cases x <;> decide, by decide⟩
instance : Spelled TextDecoration.choices TextDecoration.name :=
  ⟨fun x => by cases x <;> decide, by decide⟩
instance : Spelled TextCase.all TextCase.name := ⟨fun x => by cases x <;> decide, by decide⟩
instance : Spelled PageCounterTarget.all PageCounterTarget.name :=
  ⟨fun x => by cases x <;> decide, by decide⟩
instance : Spelled Alignment.all Alignment.name := ⟨fun x => by cases x <;> decide, by decide⟩
instance : Spelled QuoteKind.all QuoteKind.name := ⟨fun x => by cases x <;> decide, by decide⟩
instance : Spelled CalloutKind.all CalloutKind.name := ⟨fun x => by cases x <;> decide, by decide⟩
instance : Spelled MarginPosition.all MarginPosition.name :=
  ⟨fun x => by cases x <;> decide, by decide⟩
instance : Spelled TransitionStyle.all TransitionStyle.name :=
  ⟨fun x => by cases x <;> decide, by decide⟩
instance : Spelled TransitionSpeed.all TransitionSpeed.name :=
  ⟨fun x => by cases x <;> decide, by decide⟩

/-! ### Records -/

@[simp]
theorem Json.byte?_ofNat (n : UInt8) : Json.byte? (.ofNat n.toNat) = some n := by
  have small : n.toNat < UInt8.size := n.toNat_lt_size
  simp [Json.byte?, small]

@[simp]
theorem Json.word?_ofNat (n : UInt32) : Json.word? (.ofNat n.toNat) = some n := by
  have small : n.toNat < UInt32.size := n.toNat_lt_size
  simp [Json.word?, small]

theorem TextLook.ofJson?_toJson (look : TextLook) (room : Nat) :
    TextLook.ofJson? (room + 1) look.toJson = some look := by
  rw [TextLook.toJson, TextLook.ofJson?]
  simp

theorem Transition.ofJson?_toJson (transition : Transition) (room : Nat) :
    Transition.ofJson? (room + 1) transition.toJson = some transition := by
  rw [Transition.toJson, Transition.ofJson?]
  simp

theorem SlideSettings.ofJson?_toJson (settings : SlideSettings) {room : Nat}
    (fits : settings.toJson.nesting ≤ room) :
    SlideSettings.ofJson? room settings.toJson = some settings := by
  rw [SlideSettings.toJson] at fits ⊢
  obtain ⟨room, rfl, inner⟩ := nesting_object_le.mp fits
  have transition : ∀ t, settings.transition = some t →
      Transition.ofJson? room t.toJson = some t := by
    intro t held
    have deep : t.toJson.nesting ≤ room := by
      have last := inner ("transition", ofOption Transition.toJson settings.transition) (by simp)
      rwa [held] at last
    obtain ⟨room, rfl, -⟩ := nesting_object_le.mp deep
    exact t.ofJson?_toJson room
  have solid : ∀ t : Transition, t.toJson ≠ .null := by simp [Transition.toJson]
  rw [SlideSettings.ofJson?]
  simp [optionalField_ofOption transition solid]

/-! ### Lists -/

theorem Json.items?_cons {α : Type} {decode : Json → Option α} {item : Json} {a : α}
    {items : List Json} {as : List α} (first : decode item = some a)
    (others : items? decode (.array items) = some as) :
    items? decode (.array (item :: items)) = some (a :: as) := by
  rw [items?] at others ⊢
  rw [List.mapM_cons, first, others]
  rfl

theorem Json.items?_map {α : Type} {decode : Json → Option α} {f : α → Json} {as : List α}
    (back : ∀ a ∈ as, decode (f a) = some a) :
    items? decode (.array (as.map f)) = some as := by
  induction as with
  | nil => rfl
  | cons a rest ih =>
    obtain ⟨first, others⟩ := List.forall_mem_cons.mp back
    exact items?_cons first (ih others)

/-! ### Inline nodes -/

/-- The content of a node with fields is read with two places less. -/
theorem Inline.ofJson?_ofKind {kind : String} {members : List (String × Json)} {room : Nat}
    {inline : Inline} (fits : (Json.ofKind kind members).nesting ≤ room)
    (content : ∀ inside, (∀ member ∈ members, member.2.nesting ≤ inside) →
      Inline.ofContent? (inside + 1) kind (.object members) = some inline) :
    Inline.ofJson? room (Json.ofKind kind members) = some inline := by
  obtain ⟨inside, rfl, inner⟩ := nesting_ofKind_le.mp fits
  rw [Json.ofKind, Inline.ofJson?]
  · exact content inside inner
  · simp

-- Induction on the tree for every room at once: a list of nodes is read in less room than its node.
mutual

theorem Inline.ofJson?_toJson : ∀ (inline : Inline) (room : Nat), inline.toJson.nesting ≤ room →
    Inline.ofJson? room inline.toJson = some inline
  | .lineBreak, room, fits => by rw [Inline.toJson, Inline.ofJson?]
  | .text _, room, fits | .codeSpan _ _, room, fits | .mathSpan _, room, fits
  | .whitespace _ _, room, fits | .pageCounter _, room, fits => by
    rw [Inline.toJson] at fits ⊢
    apply Inline.ofJson?_ofKind fits
    intro room _
    rw [Inline.ofContent?]
    simp
  | .emphasis content, room, fits | .strong content, room, fits
  | .strikethrough content, room, fits | .link content _, room, fits
  | .referenceLink content _, room, fits => by
    rw [Inline.toJson] at fits ⊢
    apply Inline.ofJson?_ofKind fits
    intro room inner
    have content := Inline.ofJsons?_toJsons content room (inner _ List.mem_cons_self)
    rw [Inline.ofContent?]
    simp [LinkTarget.members, LinkTarget.ofRecord?, content]
  | .image url alt title width height, room, fits => by
    rw [Inline.toJson] at fits ⊢
    apply Inline.ofJson?_ofKind fits
    intro room inner
    have alt := Inline.ofJsons?_toJsons alt room (inner ("alt", _) (by simp))
    rw [Inline.ofContent?]
    simp [alt]
  | .textTransform look content, room, fits => by
    rw [Inline.toJson] at fits ⊢
    apply Inline.ofJson?_ofKind fits
    intro room inner
    have look : TextLook.ofJson? room look.toJson = some look := by
      obtain ⟨room, rfl, -⟩ := nesting_object_le.mp (inner ("data", look.toJson) (by simp))
      exact look.ofJson?_toJson room
    have content := Inline.ofJsons?_toJsons content room (inner ("content", _) (by simp))
    rw [Inline.ofContent?]
    simp [look, content]
  | .inlineCollapse full placeholder isOpen, room, fits => by
    rw [Inline.toJson] at fits ⊢
    apply Inline.ofJson?_ofKind fits
    intro room inner
    have full := Inline.ofJsons?_toJsons full room (inner ("text", _) (by simp))
    have placeholder :=
      Inline.ofJsons?_toJsons placeholder room (inner ("placeholder", _) (by simp))
    rw [Inline.ofContent?]
    simp [full, placeholder]

theorem Inline.ofJsons?_toJsons : ∀ (inlines : List Inline) (room : Nat),
    (Json.array (Inline.toJsons inlines)).nesting ≤ room →
    Inline.ofJsons? room (.array (Inline.toJsons inlines)) = some inlines
  | [], room, fits => by
    obtain ⟨room, rfl, -⟩ := nesting_array_le.mp fits
    rw [Inline.ofJsons?]
    rfl
  | inline :: rest, room, fits => by
    rw [Inline.toJsons] at fits ⊢
    obtain ⟨room, rfl, inner⟩ := nesting_array_le.mp fits
    obtain ⟨first, others⟩ := List.forall_mem_cons.mp inner
    have first := Inline.ofJson?_toJson inline room first
    have others := Inline.ofJsons?_toJsons rest (room + 1)
      (nesting_array_le.mpr ⟨room, rfl, others⟩)
    rw [Inline.ofJsons?] at others ⊢
    exact items?_cons first others

end

/-- A title or an attribution that may be missing. -/
theorem Inline.optionalField_ofJsons? (name : String) (content : Option (List Inline)) {room : Nat}
    (fits : ∀ member ∈ Inline.optionalMember name content, member.2.nesting ≤ room) :
    optionalField (Inline.ofJsons? room) (content.map fun c => .array (Inline.toJsons c)) =
      some content := by
  apply optionalField_map
  · rintro inlines rfl
    exact Inline.ofJsons?_toJsons inlines room (fits _ List.mem_cons_self)
  · intro inlines
    exact Json.noConfusion

/-! ### Tables -/

theorem Table.rowOfJson?_rowToJson (cells : List (List Inline)) (room : Nat)
    (fits : (Table.rowToJson cells).nesting ≤ room) :
    Table.rowOfJson? room (Table.rowToJson cells) = some cells := by
  rw [Table.rowToJson] at fits ⊢
  obtain ⟨room, rfl, inner⟩ := nesting_object_le.mp fits
  obtain ⟨room, rfl, each⟩ := nesting_array_le.mp (inner _ List.mem_cons_self)
  have back : ∀ cell ∈ cells, Table.cellOfJson? room
      (.object [("content", .array (Inline.toJsons cell))]) = some cell := by
    intro cell mem
    have deep := each _ (List.mem_map_of_mem mem)
    obtain ⟨room, rfl, content⟩ := nesting_object_le.mp deep
    have content := Inline.ofJsons?_toJsons cell room (content _ List.mem_cons_self)
    rw [Table.cellOfJson?]
    simp [content]
  rw [Table.rowOfJson?]
  simp [items?_map back]

theorem Table.ofRecord?_members (table : Table) {room : Nat}
    (inner : ∀ member ∈ table.members, member.2.nesting ≤ room) :
    Table.ofRecord? room ⟨table.members⟩ = some table := by
  simp only [Table.members, List.cons_append, List.nil_append, List.forall_mem_cons] at inner
  obtain ⟨alignments, header, rows, -⟩ := inner
  obtain ⟨room, rfl, -⟩ := nesting_array_le.mp alignments
  obtain ⟨_, same, rows⟩ := nesting_array_le.mp rows
  cases same
  have header := Table.rowOfJson?_rowToJson table.header (room + 1) header
  have rows : items? (Table.rowOfJson? room) (.array (table.rows.map Table.rowToJson)) =
      some table.rows :=
    items?_map fun row mem =>
      Table.rowOfJson?_rowToJson row room (rows _ (List.mem_map_of_mem mem))
  have alignments : items? (plainChoice? room Alignment.all Alignment.name)
      (.array (table.alignments.map fun a => .string a.name)) = some table.alignments :=
    items?_map fun a _ => plainChoice?_string room a
  rw [Table.ofRecord?, Table.members]
  simp [alignments, header, rows]

/-! ### Block nodes -/

theorem Block.ofJson?_ofKind {kind : String} {members : List (String × Json)} {room : Nat}
    {block : Block} (fits : (Json.ofKind kind members).nesting ≤ room)
    (content : ∀ inside, (∀ member ∈ members, member.2.nesting ≤ inside) →
      Block.ofContent? (inside + 1) kind (.object members) = some block) :
    Block.ofJson? room (Json.ofKind kind members) = some block := by
  obtain ⟨inside, rfl, inner⟩ := nesting_ofKind_le.mp fits
  rw [Json.ofKind, Block.ofJson?]
  · exact content inside inner
  · simp
  · simp

mutual

theorem Block.ofJson?_toJson : ∀ (block : Block) (room : Nat), block.toJson.nesting ≤ room →
    Block.ofJson? room block.toJson = some block
  | .horizontalRule, room, fits | .pageBreak, room, fits => by rw [Block.toJson, Block.ofJson?]
  | .codeBlock _ _ _, room, fits | .html _, room, fits | .math _, room, fits
  | .mermaidDiagram _, room, fits | .tikzDiagram _, room, fits => by
    rw [Block.toJson] at fits ⊢
    apply Block.ofJson?_ofKind fits
    intro room _
    rw [Block.ofContent?]
    simp
  | .linkDefinition definition, room, fits => by
    rw [Block.toJson, LinkDefinition.toJson, ← Json.ofKind] at fits ⊢
    apply Block.ofJson?_ofKind fits
    intro room _
    rw [Block.ofContent?]
    simp [LinkTarget.members, LinkTarget.ofRecord?]
  | .slides settings, room, fits => by
    rw [Block.toJson, SlideSettings.toJson, ← Json.ofKind] at fits ⊢
    apply Block.ofJson?_ofKind fits
    intro room inner
    have settings := settings.ofJson?_toJson (nesting_object_le.mpr ⟨room, rfl, inner⟩)
    rw [SlideSettings.toJson] at settings
    rw [Block.ofContent?]
    simp [settings]
  | .paragraph content, room, fits => by
    rw [Block.toJson] at fits ⊢
    apply Block.ofJson?_ofKind fits
    intro room inner
    have content := Inline.ofJsons?_toJsons content room (inner ("content", _) (by simp))
    rw [Block.ofContent?]
    simp [content]
  | .heading depth content customId, room, fits => by
    rw [Block.toJson] at fits ⊢
    apply Block.ofJson?_ofKind fits
    intro room inner
    have content := Inline.ofJsons?_toJsons content room (inner ("content", _) (by simp))
    rw [Block.ofContent?]
    simp [content]
  | .blockQuote kind attribution content, room, fits => by
    rw [Block.toJson] at fits ⊢
    apply Block.ofJson?_ofKind fits
    intro room inner
    have content := Block.ofJsons?_toJsons content room (inner ("content", _) (by simp))
    have attribution := Inline.optionalField_ofJsons? "attribution" attribution
      fun member mem => inner member (by simp [mem])
    rw [Block.ofContent?]
    simp [content, attribution, Inline.optionalMember]
  | .orderedList start items, room, fits => by
    rw [Block.toJson] at fits ⊢
    apply Block.ofJson?_ofKind fits
    intro room inner
    have items := ListItem.ofJsons?_toJsons items room (inner ("items", _) (by simp))
    rw [Block.ofContent?]
    simp [items]
  | .unorderedList items, room, fits => by
    rw [Block.toJson] at fits ⊢
    apply Block.ofJson?_ofKind fits
    intro room inner
    have items := ListItem.ofJsons?_toJsons items room (inner ("items", _) (by simp))
    rw [Block.ofContent?]
    simp [items]
  | .table table, room, fits => by
    rw [Block.toJson] at fits ⊢
    apply Block.ofJson?_ofKind fits
    intro room inner
    have declared : Declared ["alignments", "header", "rows", "caption"] table.members := by
      simp only [Table.members, List.cons_append, List.nil_append]
      infer_instance
    rw [Block.ofContent?]
    simp [table.ofRecord?_members inner]
  | .figure child caption, room, fits => by
    rw [Block.toJson] at fits ⊢
    apply Block.ofJson?_ofKind fits
    intro room inner
    have child := Block.ofJson?_toJson child room (inner ("child", child.toJson) (by simp))
    rw [Block.ofContent?]
    simp [child]
  | .container children style, room, fits => by
    rw [Block.toJson] at fits ⊢
    apply Block.ofJson?_ofKind fits
    intro room inner
    have children := Block.ofJsons?_toJsons children room (inner ("children", _) (by simp))
    rw [Block.ofContent?]
    simp [children, ContainerStyle.fieldNames, ContainerStyle.members, ContainerStyle.ofRecord?]
  | .callout kind title padding children, room, fits => by
    rw [Block.toJson] at fits ⊢
    apply Block.ofJson?_ofKind fits
    intro room inner
    have children := Block.ofJsons?_toJsons children room (inner ("children", _) (by simp))
    have title := Inline.optionalField_ofJsons? "title" title
      fun member mem => inner member (by simp [mem])
    rw [Block.ofContent?]
    simp [children, title, Inline.optionalMember]
  | .collapse title isOpen children, room, fits => by
    rw [Block.toJson] at fits ⊢
    apply Block.ofJson?_ofKind fits
    intro room inner
    have title := Inline.ofJsons?_toJsons title room (inner ("title", _) (by simp))
    have children := Block.ofJsons?_toJsons children room (inner ("children", _) (by simp))
    rw [Block.ofContent?]
    simp [title, children]
  | .fullColumnSpan children, room, fits | .expanded children, room, fits
  | .numbered _ children, room, fits | .pageMargin _ children, room, fits => by
    rw [Block.toJson] at fits ⊢
    apply Block.ofJson?_ofKind fits
    intro room inner
    have children := Block.ofJsons?_toJsons children room (inner ("children", _) (by simp))
    rw [Block.ofContent?]
    simp [children]
  | .tableOfContents title maxDepth, room, fits => by
    rw [Block.toJson] at fits ⊢
    apply Block.ofJson?_ofKind fits
    intro room inner
    have title := Inline.optionalField_ofJsons? "title" title
      fun member mem => inner member (by simp [mem])
    rw [Block.ofContent?]
    simp [title, Inline.optionalMember]

theorem Block.ofJsons?_toJsons : ∀ (blocks : List Block) (room : Nat),
    (Json.array (Block.toJsons blocks)).nesting ≤ room →
    Block.ofJsons? room (.array (Block.toJsons blocks)) = some blocks
  | [], room, fits => by
    obtain ⟨room, rfl, -⟩ := nesting_array_le.mp fits
    rw [Block.ofJsons?]
    rfl
  | block :: rest, room, fits => by
    rw [Block.toJsons] at fits ⊢
    obtain ⟨room, rfl, inner⟩ := nesting_array_le.mp fits
    obtain ⟨first, others⟩ := List.forall_mem_cons.mp inner
    have first := Block.ofJson?_toJson block room first
    have others := Block.ofJsons?_toJsons rest (room + 1)
      (nesting_array_le.mpr ⟨room, rfl, others⟩)
    rw [Block.ofJsons?] at others ⊢
    exact items?_cons first others

theorem ListItem.ofJsons?_toJsons : ∀ (items : List ListItem) (room : Nat),
    (Json.array (ListItem.toJsons items)).nesting ≤ room →
    ListItem.ofJsons? room (.array (ListItem.toJsons items)) = some items
  | [], room, fits => by
    obtain ⟨room, rfl, -⟩ := nesting_array_le.mp fits
    rw [ListItem.ofJsons?]
    rfl
  | .mk content checked :: rest, room, fits => by
    rw [ListItem.toJsons] at fits ⊢
    obtain ⟨room, rfl, inner⟩ := nesting_array_le.mp fits
    obtain ⟨first, others⟩ := List.forall_mem_cons.mp inner
    have others := ListItem.ofJsons?_toJsons rest (room + 1)
      (nesting_array_le.mpr ⟨room, rfl, others⟩)
    rw [ListItem.ofJsons?] at others ⊢
    refine items?_cons ?_ others
    obtain ⟨room, rfl, fields⟩ := nesting_object_le.mp first
    have content := Block.ofJsons?_toJsons content room (fields _ List.mem_cons_self)
    rw [ListItem.ofJson?]
    simp [content]

end

/-! ### Documents -/

theorem Document.ofJson?_toJson (document : Document)
    (fits : document.toJson.nesting ≤ Document.greatestNesting) :
    Document.ofJson? document.toJson = some document := by
  rw [Document.toJson] at fits ⊢
  obtain ⟨room, same, inner⟩ := nesting_object_le.mp fits
  have blocks := Block.ofJsons?_toJsons document.blocks room (inner _ List.mem_cons_self)
  rw [Document.ofJson?, same, Nat.add_sub_cancel]
  simp [blocks]

end Quire
