import Quire.Proofs.Document.Skeleton

/-!
# Discovery of a skeleton

A pass over the skeleton of a document finds what a pass over the document finds: as many
identifiers, at the same depths, the same labels, and the same locations. Only the spellings of
identifiers and the targets of links differ.
-/

namespace Quire

/-- What an index tells of a heading, whatever the heading says. -/
def IdentifierTarget.outline (target : IdentifierTarget) : UInt8 × Bool :=
  (target.depth, target.isExplicit)

/-- Two indices that differ in nothing but texts. -/
structure Index.Alike (a b : Index) : Prop where
  identifiers : a.identifiers.entries.map (·.2.outline) = b.identifiers.entries.map (·.2.outline)
  links : a.linkDefinitions.entries.map (fun e => (e.1, e.2.skeleton)) =
    b.linkDefinitions.entries.map (fun e => (e.1, e.2.skeleton))
  locations : a.locations = b.locations

namespace Index.Alike

variable {a b : Index}

theorem contains (h : a.Alike b) (key : String) :
    a.linkDefinitions.contains key = b.linkDefinitions.contains key := by
  have keys := congrArg (List.any · (·.1 == key)) h.links
  rw [List.any_map, List.any_map] at keys
  exact keys

theorem link? (h : a.Alike b) (label : String) :
    (a.link? label).map LinkDefinition.skeleton = (b.link? label).map LinkDefinition.skeleton := by
  have found := congrArg (List.find? (·.1 == Text.label label)) h.links
  rw [List.find?_map, List.find?_map] at found
  have targets := congrArg (Option.map (·.2)) found
  rw [Option.map_map, Option.map_map] at targets
  rw [Index.link?, Registry.find?, Option.map_map, Index.link?, Registry.find?, Option.map_map]
  exact targets

theorem isSome_identifierAt? (h : a.Alike b) (i : Nat) :
    (a.identifierAt? i).isSome = (b.identifierAt? i).isSome := by
  have found := congrArg (·[i]?.isSome) h.identifiers
  simp only [List.getElem?_map, Option.isSome_map] at found
  exact found

end Index.Alike

@[simp]
theorem emptied_emptied (text : Option String) : emptied (emptied text) = emptied text := by
  cases text <;> rfl

theorem LinkDefinition.skeleton_skeleton (definition : LinkDefinition) :
    definition.skeleton.skeleton = definition.skeleton := by
  simp [skeleton, LinkTarget.skeleton]

namespace Observer

variable {a b : Index}

theorem linkDefinitions_alike (h : a.Alike b) (node : Node) :
    (observeLinkDefinition a node).linkDefinitions.entries.map (fun e => (e.1, e.2.skeleton)) =
      (observeLinkDefinition b node.skeleton).linkDefinitions.entries.map
        (fun e => (e.1, e.2.skeleton)) := by
  have same := h.links
  cases node with
  | inline i => exact same
  | block block =>
    cases block with
    | linkDefinition definition =>
      have taken : a.linkDefinitions.contains (Text.label definition.label) =
          b.linkDefinitions.contains (Text.label definition.skeleton.label) := h.contains _
      simp only [observeLinkDefinition, Node.skeleton, Block.skeleton, Index.define, taken]
      split
      · exact same
      · simp only [Registry.push, List.map_append, List.map_cons, List.map_nil]
        rw [same, LinkDefinition.skeleton_skeleton]
        rfl
    | _ => exact same

theorem identifiers_alike (h : a.Alike b) (node : Node) :
    (observeIdentifier a node).identifiers.entries.map (·.2.outline) =
      (observeIdentifier b node.skeleton).identifiers.entries.map (·.2.outline) := by
  have same := h.identifiers
  cases node with
  | inline i => exact same
  | block block =>
    cases block with
    | heading depth content customId =>
      simp only [observeIdentifier, Node.skeleton, Block.skeleton, Index.identify, Registry.push,
        List.map_append, List.map_cons, List.map_nil]
      rw [same, IdentifierTarget.outline, IdentifierTarget.outline, isSome_emptied]
    | _ => exact same

theorem location_alike (place : Place) (h : a.Alike b) (node : Node) :
    (observeLocation place a node).1 = (observeLocation place b node.skeleton).1 ∧
      (observeLocation place a node).2.locations =
        (observeLocation place b node.skeleton).2.locations := by
  have same := h.locations
  cases node with
  | inline i => exact ⟨rfl, same⟩
  | block block =>
    cases block with
    | heading depth content customId =>
      by_cases marker : depth = 0
      · simp only [observeLocation, Node.skeleton, Block.skeleton, marker, if_true, same, and_self]
      · simp only [observeLocation, Node.skeleton, Block.skeleton, marker, if_false, Index.record,
          same, and_self]
    | figure | table =>
      simp only [observeLocation, Node.skeleton, Block.skeleton, Index.record, same, and_self]
    | _ => exact ⟨rfl, same⟩

end Observer

/-- Two ordinary passes that have come to the same place and found the same. -/
structure Discovery.Alike (d e : Discovery) (place : Place) : Prop where
  left : d.observers = Observer.standardAt place
  right : e.observers = Observer.standardAt place
  index : d.index.Alike e.index

theorem Discovery.Alike.visit {d e : Discovery} {place : Place} (h : d.Alike e place)
    (node : Node) : ∃ next, (d.visit node).Alike (e.visit node.skeleton) next := by
  obtain ⟨moved, locations⟩ := Observer.location_alike place h.index node
  refine ⟨_, Discovery.observers_visit h.left node, ?_, ?_⟩
  · rw [Discovery.observers_visit h.right, moved]
  · rw [Discovery.index_visit h.left, Discovery.index_visit h.right]
    exact ⟨Observer.identifiers_alike h.index node, Observer.linkDefinitions_alike h.index node,
      locations⟩

theorem Discovery.Alike.foldl {d e : Discovery} {place : Place} (h : d.Alike e place)
    (nodes : List Node) :
    ∃ last, (nodes.foldl Discovery.visit d).Alike
      ((nodes.map Node.skeleton).foldl Discovery.visit e) last := by
  induction nodes generalizing d e place with
  | nil => exact ⟨place, h⟩
  | cons node rest ih =>
    obtain ⟨next, visited⟩ := h.visit node
    exact ih visited

theorem Document.index_alike (document : Document) :
    document.index.Alike document.skeleton.index := by
  have initial : Discovery.Alike {} {} {} := ⟨rfl, rfl, rfl, rfl, rfl⟩
  obtain ⟨last, done⟩ := initial.foldl document.nodes
  rw [Document.index_eq_foldl, Document.index_eq_foldl, Document.nodes_skeleton]
  exact done.index

end Quire
