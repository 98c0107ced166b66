import Quire.Discovery
import Mathlib.Data.List.Basic

/-!
# What one pass does

The walk is a fold over the nodes in preorder. One visit of an ordinary pass is described field by
field of the index, and an index only ever grows.
-/

namespace Quire

namespace Node

variable {σ : Type} (visit : σ → Node → σ)

theorem walk_eq_foldl (state : σ) (pending : List Node) :
    walk visit state pending = (pending.flatMap nodes).foldl visit state := by
  induction state, pending using walk.induct visit with
  | case1 state => rw [walk]; rfl
  | case2 state node rest ih =>
    rw [walk, ih, List.flatMap_append, List.flatMap_cons, nodes_eq_cons node]
    rfl

theorem walk_append (state : σ) (first rest : List Node) :
    walk visit state (first ++ rest) = walk visit (walk visit state first) rest := by
  simp only [walk_eq_foldl, List.flatMap_append, List.foldl_append]

/-- A node is visited first, and what stands below it after it. -/
theorem walk_singleton (state : σ) (node : Node) :
    walk visit state [node] = walk visit (visit state node) node.children := by
  rw [walk, List.append_nil]

/-- What a visit preserves a whole walk preserves. -/
theorem walk_invariant {P : σ → Prop} {pending : List Node} {state : σ}
    (step : ∀ s n, P s → P (visit s n)) (h : P state) : P (walk visit state pending) := by
  rw [walk_eq_foldl]
  exact List.foldlRecOn _ _ h fun s hs n _ => step s n hs

end Node

theorem Document.nodes_eq_flatMap (document : Document) :
    document.nodes = document.roots.flatMap Node.nodes := by
  rw [Document.nodes, Document.roots, Node.block_nodesOf, List.flatMap_map]
  rfl

theorem Document.index_eq_foldl (document : Document) :
    document.index = (document.nodes.foldl Discovery.visit {}).index := by
  rw [index, Discovery.explore, Node.walk_eq_foldl, nodes_eq_flatMap]

/-- The observers of an ordinary pass when it has come to a place. -/
def Observer.standardAt (place : Place) : List Observer :=
  [linkDefinitions, identifiers, locations place, presence .code, presence .mermaidDiagram,
   presence .tikzDiagram, presence .math]

namespace Presence

def markNeeded (presence : Presence) (node : Node) : Presence :=
  { code := presence.code || node.needs .code
    math := presence.math || node.needs .math
    mermaidDiagram := presence.mermaidDiagram || node.needs .mermaidDiagram
    tikzDiagram := presence.tikzDiagram || node.needs .tikzDiagram }

theorem has_markNeeded (presence : Presence) (node : Node) (c : Capability) :
    (presence.markNeeded node).has c = (presence.has c || node.needs c) := by
  cases c <;> rfl

theorem has_mark (presence : Presence) (c other : Capability) :
    (presence.mark c).has other = (presence.has other || decide (c = other)) := by
  cases c <;> cases other <;> simp [mark, has]

end Presence

/-- Entries stay, at their positions. -/
structure Index.Grows (before after : Index) : Prop where
  identifiers : before.identifiers.entries <+: after.identifiers.entries
  locations : ∀ kind, before.locations.ofKind kind <+: after.locations.ofKind kind

namespace Index

theorem Grows.refl (index : Index) : index.Grows index :=
  ⟨List.prefix_refl _, fun _ => List.prefix_refl _⟩

theorem Grows.trans {a b c : Index} (h : a.Grows b) (k : b.Grows c) : a.Grows c :=
  ⟨h.identifiers.trans k.identifiers, fun kind => (h.locations kind).trans (k.locations kind)⟩

theorem Grows.identifierAt? {a b : Index} (h : a.Grows b) {i : Nat}
    (hi : i < a.identifiers.size) : b.identifierAt? i = a.identifierAt? i := by
  obtain ⟨later, eq⟩ := h.identifiers
  unfold Index.identifierAt? Registry.entryAt?
  rw [← eq, List.getElem?_append_left hi]

theorem Grows.locationAt? {a b : Index} (h : a.Grows b) {kind : LocationKind} {i : Nat}
    (hi : i < a.locationCount kind) : b.locationAt? kind i = a.locationAt? kind i := by
  obtain ⟨later, eq⟩ := h.locations kind
  unfold Index.locationAt?
  rw [← eq, List.getElem?_append_left hi]

end Index

theorem Locations.ofKind_record (locations : Locations) (kind other : LocationKind)
    (location : Location) :
    (locations.record kind location).ofKind other =
      locations.ofKind other ++ if kind = other then [location] else [] := by
  cases kind <;> cases other <;> simp [record, ofKind]

namespace Observer

theorem observeLocation_grows (place : Place) (index : Index) (node : Node) :
    index.Grows (observeLocation place index node).2 := by
  have record : ∀ kind location, index.Grows (index.record kind location) := by
    intro kind location
    refine ⟨List.prefix_refl _, fun other => ?_⟩
    rw [Index.record, Locations.ofKind_record]
    exact List.prefix_append _ _
  unfold observeLocation
  split
  · split
    · exact .refl index
    · exact record _ _
  · exact record _ _
  · exact record _ _
  · exact .refl index

theorem observeIdentifier_grows (index : Index) (node : Node) :
    index.Grows (observeIdentifier index node) := by
  unfold observeIdentifier
  split
  · exact ⟨List.prefix_append _ _, fun _ => List.prefix_refl _⟩
  · exact .refl index

theorem observeLinkDefinition_grows (index : Index) (node : Node) :
    index.Grows (observeLinkDefinition index node) := by
  unfold observeLinkDefinition
  split
  · dsimp only [Index.define]
    split <;> exact ⟨List.prefix_refl _, fun _ => List.prefix_refl _⟩
  · exact .refl index

theorem observe_grows (node : Node) (findings : Findings) (observer : Observer) :
    findings.index.Grows (observer.observe node findings).2.index := by
  cases observer with
  | linkDefinitions => exact observeLinkDefinition_grows _ node
  | identifiers => exact observeIdentifier_grows _ node
  | locations place => exact observeLocation_grows place _ node
  | presence capability =>
    simp only [observe]
    split <;> exact ⟨List.prefix_refl _, fun _ => List.prefix_refl _⟩
  | recorder name => exact .refl _

theorem observeAll_grows (node : Node) (observers : List Observer) (findings : Findings) :
    findings.index.Grows (observeAll node observers findings).2.index := by
  induction observers generalizing findings with
  | nil => exact .refl _
  | cons observer rest ih => exact (observe_grows node findings observer).trans (ih _)

end Observer

namespace Discovery

theorem visit_grows (discovery : Discovery) (node : Node) :
    discovery.index.Grows (discovery.visit node).index :=
  Observer.observeAll_grows node _ _

theorem walk_grows (discovery : Discovery) (pending : List Node) :
    discovery.index.Grows (Node.walk visit discovery pending).index :=
  Node.walk_invariant visit (P := fun d => discovery.index.Grows d.index)
    (fun d n h => h.trans (visit_grows d n)) (.refl _)

def IsStandard (discovery : Discovery) : Prop :=
  ∃ place, discovery.observers = Observer.standardAt place

theorem isStandard_initial : IsStandard {} := ⟨{}, rfl⟩

variable {discovery : Discovery} {place : Place}

theorem observers_visit (h : discovery.observers = Observer.standardAt place) (node : Node) :
    (discovery.visit node).observers =
      Observer.standardAt (Observer.observeLocation place discovery.index node).1 := by
  rcases discovery with ⟨observers, findings, visited⟩
  subst h
  simp only [visit, Observer.standardAt, Observer.observeAll, Observer.observe]
  unfold Observer.observeLocation
  split
  · split <;> rfl
  all_goals rfl

/-- A visit of an ordinary pass, field by field: no observer reads what another one writes. -/
theorem index_visit (h : discovery.observers = Observer.standardAt place) (node : Node) :
    (discovery.visit node).index =
      { presence := discovery.index.presence.markNeeded node
        linkDefinitions := (Observer.observeLinkDefinition discovery.index node).linkDefinitions
        identifiers := (Observer.observeIdentifier discovery.index node).identifiers
        locations := (Observer.observeLocation place discovery.index node).2.locations } := by
  rcases discovery with ⟨observers, ⟨⟨presence, links, identifiers, locations⟩, journal⟩, visited⟩
  subst h
  simp only [visit, index, Observer.standardAt, Observer.observeAll, Observer.observe]
  cases node with
  | inline i =>
    cases i <;>
      simp [Observer.observeLinkDefinition, Observer.observeIdentifier, Observer.observeLocation,
        Node.needs, Presence.markNeeded, Index.mark, Presence.mark]
  | block b =>
    cases b with
    | heading depth content customId =>
      by_cases marker : depth = 0 <;>
        simp [marker, Observer.observeLinkDefinition, Observer.observeIdentifier,
          Observer.observeLocation, Node.needs, Presence.markNeeded, Index.identify, Index.record]
    | linkDefinition definition =>
      by_cases taken : links.contains (Text.label definition.label) = true <;>
        simp [taken, Observer.observeLinkDefinition, Observer.observeIdentifier,
          Observer.observeLocation, Node.needs, Presence.markNeeded, Index.define]
    | _ =>
      simp [Observer.observeLinkDefinition, Observer.observeIdentifier, Observer.observeLocation,
        Node.needs, Presence.markNeeded, Index.mark, Presence.mark, Index.record]

theorem isStandard_visit (h : discovery.IsStandard) (node : Node) :
    (discovery.visit node).IsStandard := by
  obtain ⟨place, h⟩ := h
  exact ⟨_, observers_visit h node⟩

theorem isStandard_walk (h : discovery.IsStandard) (pending : List Node) :
    (Node.walk visit discovery pending).IsStandard :=
  Node.walk_invariant visit (fun _ n hs => isStandard_visit hs n) h

end Discovery

end Quire
