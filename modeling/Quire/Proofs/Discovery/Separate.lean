import Quire.Proofs.Discovery.Pass
import Mathlib.Data.List.Nodup

/-!
# One pass or many

Each observer reads and writes one part of the findings only. So the observers of a pass may as well
see the nodes one observer after the other, in any order, and what is found stays the same.
-/

namespace Quire

namespace Findings

/-- A part of the findings that one observer is responsible for. -/
inductive Part where
  | linkDefinitions
  | identifiers
  | locations
  | presence (capability : Capability)
  | journal
  deriving DecidableEq, Repr

def SameAt (f g : Findings) : Part → Prop
  | .linkDefinitions => f.index.linkDefinitions = g.index.linkDefinitions
  | .identifiers => f.index.identifiers = g.index.identifiers
  | .locations => f.index.locations = g.index.locations
  | .presence capability => f.index.presence.has capability = g.index.presence.has capability
  | .journal => f.journal = g.journal

theorem SameAt.refl (f : Findings) (part : Part) : f.SameAt f part := by
  cases part <;> exact Eq.refl _

theorem SameAt.symm {f g : Findings} {part : Part} (h : f.SameAt g part) : g.SameAt f part := by
  cases part <;> exact Eq.symm h

theorem SameAt.trans {f g k : Findings} {part : Part} (h : f.SameAt g part)
    (h' : g.SameAt k part) : f.SameAt k part := by
  cases part <;> exact Eq.trans h h'

/-- There is nothing in the findings besides their parts. -/
theorem eq_of_sameAt {f g : Findings} (same : ∀ part, f.SameAt g part) : f = g := by
  have code : f.index.presence.code = g.index.presence.code := same (.presence .code)
  have math : f.index.presence.math = g.index.presence.math := same (.presence .math)
  have mermaid : f.index.presence.mermaidDiagram = g.index.presence.mermaidDiagram :=
    same (.presence .mermaidDiagram)
  have tikz : f.index.presence.tikzDiagram = g.index.presence.tikzDiagram :=
    same (.presence .tikzDiagram)
  have links : f.index.linkDefinitions = g.index.linkDefinitions := same .linkDefinitions
  have identifiers : f.index.identifiers = g.index.identifiers := same .identifiers
  have locations : f.index.locations = g.index.locations := same .locations
  have journal : f.journal = g.journal := same .journal
  rcases f with ⟨⟨⟨_, _, _, _⟩, _, _, _⟩, _⟩
  rcases g with ⟨⟨⟨_, _, _, _⟩, _, _, _⟩, _⟩
  simp_all

/-- An action that reads and writes one part of the findings and nothing else. -/
structure ActsAt {α : Type} (part : Part) (act : Findings → α × Findings) : Prop where
  result : ∀ f g, SameAt f g part → (act f).1 = (act g).1
  inside : ∀ f g, SameAt f g part → SameAt (act f).2 (act g).2 part
  outside : ∀ f other, other ≠ part → SameAt (act f).2 f other

namespace ActsAt

variable {α β : Type} {p q : Part} {act : Findings → α × Findings} {act' : Findings → β × Findings}

/-- Actions on different parts do not see each other. -/
theorem result_eq (h : ActsAt p act) (h' : ActsAt q act') (apart : p ≠ q) (f : Findings) :
    (act (act' f).2).1 = (act f).1 := by
  apply h.result
  exact h'.outside f p apart

/-- Actions on different parts may change places. -/
theorem commute (h : ActsAt p act) (h' : ActsAt q act') (apart : p ≠ q) (f : Findings) :
    (act (act' f).2).2 = (act' (act f).2).2 := by
  apply eq_of_sameAt
  intro part
  by_cases first : part = p
  · subst first
    exact (h.inside _ _ (h'.outside f part apart)).trans (h'.outside _ part apart).symm
  · by_cases second : part = q
    · subst second
      exact (h.outside _ part first).trans (h'.inside _ _ (h.outside f part first)).symm
    · have left := (h.outside (act' f).2 part first).trans (h'.outside f part second)
      have right := (h'.outside (act f).2 part second).trans (h.outside f part first)
      exact left.trans right.symm

end ActsAt

end Findings

namespace Observer

open Findings (ActsAt)

def part : Observer → Findings.Part
  | linkDefinitions => .linkDefinitions
  | identifiers => .identifiers
  | locations _ => .locations
  | presence capability => .presence capability
  | recorder _ => .journal

@[simp]
theorem part_observe (node : Node) (findings : Findings) (observer : Observer) :
    (observer.observe node findings).1.part = observer.part := by
  cases observer <;> rfl

theorem actsAt_linkDefinitions (node : Node) :
    ActsAt .linkDefinitions (linkDefinitions.observe node) := by
  have eq (f : Findings) : linkDefinitions.observe node f =
      (linkDefinitions, { f with index := observeLinkDefinition f.index node }) := rfl
  constructor
  · intro f g _
    rfl
  · intro f g same
    change f.index.linkDefinitions = g.index.linkDefinitions at same
    change (observeLinkDefinition f.index node).linkDefinitions =
      (observeLinkDefinition g.index node).linkDefinitions
    unfold observeLinkDefinition
    split
    · simp only [Index.define, same]
      split <;> simp [same]
    · exact same
  · intro f other apart
    rw [eq]
    unfold observeLinkDefinition
    split
    · simp only [Index.define]
      split
      · exact .refl _ _
      · cases other with
        | linkDefinitions => exact absurd rfl apart
        | _ => exact Eq.refl _
    · exact .refl _ _

theorem actsAt_identifiers (node : Node) : ActsAt .identifiers (identifiers.observe node) := by
  have eq (f : Findings) : identifiers.observe node f =
      (identifiers, { f with index := observeIdentifier f.index node }) := rfl
  constructor
  · intro f g _
    rfl
  · intro f g same
    change f.index.identifiers = g.index.identifiers at same
    change (observeIdentifier f.index node).identifiers =
      (observeIdentifier g.index node).identifiers
    unfold observeIdentifier
    split
    · simp only [Index.identify, same]
    · exact same
  · intro f other apart
    rw [eq]
    unfold observeIdentifier
    split
    · cases other with
      | identifiers => exact absurd rfl apart
      | _ => exact Eq.refl _
    · exact .refl _ _

/-- The place does not depend on what was recorded, and every record goes to the end. -/
theorem observeLocation_eq (place : Place) (index : Index) (node : Node) :
    observeLocation place index node =
      ((observeLocation place {} node).1, { index with locations :=
        (observeLocation place { locations := index.locations } node).2.locations }) := by
  unfold observeLocation
  split
  · split <;> rfl
  all_goals rfl

theorem actsAt_locations (place : Place) (node : Node) :
    ActsAt .locations ((locations place).observe node) := by
  have eq (f : Findings) : (locations place).observe node f =
      (locations (observeLocation place {} node).1, { f with index := { f.index with
        locations :=
          (observeLocation place { locations := f.index.locations } node).2.locations } }) := by
    rw [observe, observeLocation_eq]
  constructor
  · intro f g _
    rw [eq, eq]
  · intro f g same
    change f.index.locations = g.index.locations at same
    rw [eq, eq, same]
    exact Eq.refl _
  · intro f other apart
    rw [eq]
    cases other with
    | locations => exact absurd rfl apart
    | _ => exact Eq.refl _

theorem actsAt_presence (capability : Capability) (node : Node) :
    ActsAt (.presence capability) ((presence capability).observe node) := by
  constructor
  · intro f g _
    rfl
  · intro f g same
    simp only [observe]
    split
    · change (f.index.presence.mark capability).has capability =
        (g.index.presence.mark capability).has capability
      rw [Presence.has_mark, Presence.has_mark, decide_eq_true rfl, Bool.or_true, Bool.or_true]
    · exact same
  · intro f other apart
    simp only [observe]
    split
    · cases other with
      | presence c =>
        change (f.index.presence.mark capability).has c = f.index.presence.has c
        have ne : capability ≠ c := fun same => apart (congrArg _ same.symm)
        rw [Presence.has_mark, decide_eq_false ne, Bool.or_false]
      | _ => exact Eq.refl _
    · exact .refl _ _

theorem actsAt_recorder (name : String) (node : Node) :
    ActsAt .journal ((recorder name).observe node) := by
  constructor
  · intro f g _
    rfl
  · intro f g same
    exact congrArg (_ :: ·) same
  · intro f other apart
    cases other with
    | journal => exact absurd rfl apart
    | _ => exact Eq.refl _

/-- No observer reads or writes what another one is responsible for. -/
theorem actsAt_observe (observer : Observer) (node : Node) :
    ActsAt observer.part (observer.observe node) := by
  cases observer with
  | linkDefinitions => exact actsAt_linkDefinitions node
  | identifiers => exact actsAt_identifiers node
  | locations place => exact actsAt_locations place node
  | presence capability => exact actsAt_presence capability node
  | recorder name => exact actsAt_recorder name node

/-- One observer sees nodes, with no other observer around. -/
def pass : Observer → List Node → Findings → Observer × Findings
  | observer, [], findings => (observer, findings)
  | observer, node :: rest, findings =>
    let (observer, findings) := observer.observe node findings
    observer.pass rest findings

/-- All nodes pass before each observer, one observer after the other. -/
def inTurn (nodes : List Node) (observers : List Observer) (findings : Findings) : Findings :=
  observers.foldl (fun findings observer => (observer.pass nodes findings).2) findings

theorem actsAt_pass (observer : Observer) (nodes : List Node) :
    ActsAt observer.part (observer.pass nodes) := by
  induction nodes generalizing observer with
  | nil =>
    refine ⟨fun _ _ _ => rfl, fun _ _ same => same, fun f other _ => .refl f other⟩
  | cons node rest ih =>
    have here := actsAt_observe observer node
    have later (findings : Findings) : ActsAt observer.part
        ((observer.observe node findings).1.pass rest) := by
      have acts := ih (observer.observe node findings).1
      rwa [part_observe] at acts
    constructor
    · intro f g same
      simp only [pass]
      rw [here.result f g same]
      exact (later g).result _ _ (here.inside f g same)
    · intro f g same
      simp only [pass]
      rw [here.result f g same]
      exact (later g).inside _ _ (here.inside f g same)
    · intro f other apart
      exact ((later f).outside _ other apart).trans (here.outside f other apart)

/-- No two observers are responsible for the same. -/
def Apart (observers : List Observer) : Prop := (observers.map part).Nodup

theorem parts_observeAll (node : Node) (observers : List Observer) (findings : Findings) :
    (observeAll node observers findings).1.map part = observers.map part := by
  induction observers generalizing findings with
  | nil => rfl
  | cons observer rest ih =>
    simp only [observeAll, List.map_cons, part_observe]
    rw [ih]

/-- An observer that sees its nodes early leaves those behind it nothing to notice. -/
theorem observeAll_pass (node : Node) (nodes : List Node) {observer : Observer}
    {others : List Observer} (apart : observer.part ∉ others.map part) (findings : Findings) :
    observeAll node others (observer.pass nodes findings).2 =
      ((observeAll node others findings).1,
        (observer.pass nodes (observeAll node others findings).2).2) := by
  induction others generalizing findings with
  | nil => rfl
  | cons other rest ih =>
    rw [List.map_cons, List.mem_cons, not_or] at apart
    have first := actsAt_observe other node
    have second := actsAt_pass observer nodes
    have ne := Ne.symm apart.1
    simp only [observeAll]
    rw [first.result_eq second ne, first.commute second ne, ih apart.2]

/-- Nodes that pass in turn may as well have the first of them shown to all at once. -/
theorem inTurn_cons (node : Node) (rest : List Node) {observers : List Observer}
    (apart : Apart observers) (findings : Findings) :
    inTurn (node :: rest) observers findings =
      inTurn rest (observeAll node observers findings).1
        (observeAll node observers findings).2 := by
  induction observers generalizing findings with
  | nil => rfl
  | cons observer others ih =>
    obtain ⟨alone, apart⟩ := List.nodup_cons.mp apart
    have first : (observer.observe node findings).1.part ∉ others.map part := by
      rwa [part_observe]
    have swap := observeAll_pass node rest first (observer.observe node findings).2
    have step := ih apart (observer.pass (node :: rest) findings).2
    simp only [inTurn, List.foldl_cons, observeAll] at step ⊢
    rw [step]
    simp only [pass]
    rw [swap]

/-- Whoever comes first finds the same. -/
theorem inTurn_perm (nodes : List Node) {observers order : List Observer}
    (apart : Apart observers) (any : order.Perm observers) (findings : Findings) :
    inTurn nodes order findings = inTurn nodes observers findings := by
  symm
  apply any.symm.foldl_eq'
  intro a memA b memB current
  by_cases same : a = b
  · rw [same]
  · have parts : a.part ≠ b.part := fun eq => same (List.inj_on_of_nodup_map apart memA memB eq)
    exact (actsAt_pass b nodes).commute (actsAt_pass a nodes) (Ne.symm parts) current

/-- The standard observers have a part each. -/
theorem apart_of_standard {observers : List Observer} (drawn : observers ⊆ standard)
    (once : observers.Nodup) : Apart observers := by
  have parts : Apart standard := by
    unfold Apart
    decide
  exact once.map_on fun a memA b memB eq =>
    List.inj_on_of_nodup_map parts (drawn memA) (drawn memB) eq

end Observer

namespace Discovery

/-- Observers that are shown each node together find what they find in turn. -/
theorem findings_foldl {discovery : Discovery} (apart : Observer.Apart discovery.observers)
    (nodes : List Node) : (nodes.foldl visit discovery).findings =
      Observer.inTurn nodes discovery.observers discovery.findings := by
  induction nodes generalizing discovery with
  | nil =>
    have none (observers : List Observer) (findings : Findings) :
        Observer.inTurn [] observers findings = findings := by
      induction observers with
      | nil => rfl
      | cons observer rest ih => exact ih
    rw [none, List.foldl_nil]
  | cons node rest ih =>
    have later : Observer.Apart (discovery.visit node).observers := by
      unfold Observer.Apart at apart ⊢
      rwa [← Observer.parts_observeAll node discovery.observers discovery.findings] at apart
    rw [List.foldl_cons, ih later, Observer.inTurn_cons node rest apart]
    rfl

theorem visited_foldl (discovery : Discovery) (nodes : List Node) :
    (nodes.foldl visit discovery).visited = discovery.visited + nodes.length := by
  induction nodes generalizing discovery with
  | nil => rfl
  | cons node rest ih =>
    have step : (discovery.visit node).visited = discovery.visited + 1 := rfl
    rw [List.foldl_cons, ih, step, List.length_cons]
    omega

end Discovery

/-- An observer with the nodes that it was shown so far. -/
structure Watched where
  observer : Observer
  shown : List Node := []

namespace Watched

def observe (node : Node) (findings : Findings) (watched : Watched) : Watched × Findings :=
  let (observer, findings) := watched.observer.observe node findings
  (⟨observer, watched.shown ++ [node]⟩, findings)

/-- All observers see a node, one after the other, and it is noted for each. -/
def observeAll (node : Node) : List Watched → Findings → List Watched × Findings
  | [], findings => ([], findings)
  | watched :: rest, findings =>
    let (watched, findings) := watched.observe node findings
    let (rest, findings) := observeAll node rest findings
    (watched :: rest, findings)

/-- Without the notes it is what the observers do by themselves. -/
theorem forget_observeAll (node : Node) (row : List Watched) (findings : Findings) :
    Observer.observeAll node (row.map observer) findings =
      ((observeAll node row findings).1.map observer, (observeAll node row findings).2) := by
  induction row generalizing findings with
  | nil => rfl
  | cons watched rest ih =>
    simp only [List.map_cons, Observer.observeAll, observeAll, observe]
    rw [ih]

theorem shown_observeAll (node : Node) (row : List Watched) (findings : Findings) :
    (observeAll node row findings).1.map shown = row.map fun watched => watched.shown ++ [node] := by
  induction row generalizing findings with
  | nil => rfl
  | cons watched rest ih =>
    simp only [observeAll, observe, List.map_cons]
    rw [ih]

/-- A pass over nodes that notes for each observer what it is shown. -/
def follow (row : List Watched) (findings : Findings) (nodes : List Node) :
    List Watched × Findings :=
  Node.walk (fun state node => observeAll node state.1 state.2) (row, findings) nodes

/-- The notes do not change the pass. -/
theorem forget_foldl (nodes : List Node) (row : List Watched) (findings : Findings)
    (visited : Nat) :
    let noted := nodes.foldl (fun state node => observeAll node state.1 state.2) (row, findings)
    let plain := nodes.foldl Discovery.visit ⟨row.map observer, findings, visited⟩
    noted.1.map observer = plain.observers ∧ noted.2 = plain.findings := by
  induction nodes generalizing row findings visited with
  | nil => exact ⟨rfl, rfl⟩
  | cons node rest ih =>
    have step : Discovery.visit ⟨row.map observer, findings, visited⟩ node =
        ⟨(observeAll node row findings).1.map observer, (observeAll node row findings).2,
          visited + 1⟩ := by
      simp only [Discovery.visit]
      rw [forget_observeAll]
    simp only [List.foldl_cons]
    rw [step]
    exact ih _ _ _

theorem shown_foldl (nodes : List Node) (row : List Watched) (findings : Findings) :
    (nodes.foldl (fun state node => observeAll node state.1 state.2) (row, findings)).1.map shown =
      row.map fun watched => watched.shown ++ nodes := by
  induction nodes generalizing row findings with
  | nil => simp
  | cons node rest ih =>
    have step := shown_observeAll node row findings
    rw [List.foldl_cons, ih]
    have append : (observeAll node row findings).1.map (fun watched => watched.shown ++ rest) =
        ((observeAll node row findings).1.map shown).map (· ++ rest) := by
      rw [List.map_map]
      rfl
    rw [append, step, List.map_map]
    simp

end Watched

/-- What standard observers find in one pass over a document is what they find when each of them
sees all nodes by itself, whichever comes first. Each is shown every node once, and as many visits
are counted as there are nodes. -/
theorem Document.explore_eq_inTurn (document : Document) {observers order : List Observer}
    (drawn : observers ⊆ Observer.standard) (once : observers.Nodup)
    (any : order.Perm observers) :
    let pass := Discovery.explore { observers } document
    let noted := Watched.follow (observers.map fun observer => { observer }) {} document.roots
    pass.findings = Observer.inTurn document.nodes order {} ∧
      pass.visited = document.nodes.length ∧
      noted.1.map Watched.observer = pass.observers ∧ noted.2 = pass.findings ∧
      noted.1.map Watched.shown = observers.map fun _ => document.nodes := by
  have apart := Observer.apart_of_standard drawn once
  have row : (observers.map fun observer => ({ observer } : Watched)).map Watched.observer =
      observers := by
    simp [List.map_map, Function.comp_def]
  obtain ⟨same, found⟩ := Watched.forget_foldl document.nodes
    (observers.map fun observer => { observer }) {} 0
  rw [row] at same found
  simp only [Discovery.explore, Watched.follow, Node.walk_eq_foldl, ← nodes_eq_flatMap]
  refine ⟨?_, ?_, same, found, ?_⟩
  · rw [Observer.inTurn_perm document.nodes apart any, Discovery.findings_foldl apart]
  · rw [Discovery.visited_foldl, Nat.zero_add]
  · rw [Watched.shown_foldl, List.map_map]
    simp [Function.comp_def]

/-- Three observers in two orders, and a formula in a figure behind a heading. -/
theorem explore_eq_inTurn_figure :
    let document : Document := ⟨[.heading 1 [.text "A"] none, .figure (.math "x") none]⟩
    let observers : List Observer := [.locations {}, .presence .math, .identifiers]
    let order : List Observer := [.identifiers, .locations {}, .presence .math]
    observers ⊆ Observer.standard ∧ observers.Nodup ∧ order.Perm observers ∧
      (Discovery.explore { observers } document).findings =
        Observer.inTurn document.nodes order {} ∧
      (Discovery.explore { observers } document).visited = 4 := by
  intro document observers order
  have drawn : observers ⊆ Observer.standard := by decide
  have once : observers.Nodup := by decide
  have any : order.Perm observers := by decide
  obtain ⟨same, visited, -⟩ := document.explore_eq_inTurn drawn once any
  exact ⟨drawn, once, any, same, visited⟩

end Quire
