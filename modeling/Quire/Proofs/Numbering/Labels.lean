import Quire.Proofs.Discovery.Locations
import Quire.Proofs.Html.Annotated
import Quire.Proofs.Numbering.Format

/-!
# Labels

The section numbers of headings grow like the counters of captions do. So under formats that keep
their counters apart no two headings share a label, and no two captions of a kind.
-/

namespace Quire

open NumberingScheme

/-- A new section comes behind all that were open or closed before it. -/
theorem Place.lt_openSection (sections : List Nat) {level : Nat} (positive : 0 < level) :
    sections < openSection sections level := by
  by_cases inside : level - 1 < sections.length
  · -- a section of the level is open, and its number goes up
    have short : level - 1 - (sections.take (level - 1)).length = 0 := by
      rw [List.length_take]
      omega
    have split : sections = sections.take (level - 1) ++
        sections[level - 1] :: sections.drop (level - 1 + 1) := by
      rw [← List.drop_eq_getElem_cons inside, List.take_append_drop]
    have raised : sections[level - 1] < sections[level - 1]?.getD 0 + 1 := by
      rw [List.getElem?_eq_getElem inside]
      exact Nat.lt_succ_self _
    rw [openSection, short, List.replicate_zero, List.append_nil]
    conv_lhs => rw [split]
    exact List.Lex.append_left (· < ·) (List.Lex.rel raised) _
  · -- the new section lies below those that are open
    have whole : sections.take (level - 1) = sections := List.take_of_length_le (by omega)
    rw [openSection, whole, List.append_assoc]
    conv_lhs => rw [← List.append_nil sections]
    refine List.Lex.append_left (· < ·) ?_ sections
    cases List.replicate (level - 1 - sections.length) 0 with
    | nil => exact List.Lex.nil
    | cons => exact List.Lex.nil

/-- The headings that are recorded when a pass has come to a place: their section numbers grow, and
none is ahead of the place. -/
structure Place.HeadingsOrdered (place : Place) (found : List Location) : Prop where
  increasing : found.Pairwise fun a b => a.sections < b.sections
  reached : ∀ location ∈ found, location.sections ≤ place.sections

theorem Observer.headingsOrdered_observeLocation {place : Place} {index : Index}
    (h : place.HeadingsOrdered (index.locations.ofKind .heading)) (node : Node) :
    (observeLocation place index node).1.HeadingsOrdered
      ((observeLocation place index node).2.locations.ofKind .heading) := by
  have unchanged : place.HeadingsOrdered (index.locations.ofKind .heading ++ []) := by
    rw [List.append_nil]
    exact h
  rw [ofKind_observeLocation]
  cases node with
  | inline i => exact unchanged
  | block b =>
    cases b with
    | heading depth content customId =>
      by_cases marker : depth = 0
      · simp only [observeLocation, Node.locationKind?, marker, if_true]
        exact unchanged
      · have positive := level_of_visible marker
        have later : place.sections <
            ((place.enter (min depth.toNat deepestLevel)).location .heading).sections :=
          Place.lt_openSection place.sections positive
        simp only [observeLocation, Node.locationKind?, marker, if_false, if_true]
        obtain ⟨increasing, reached⟩ := increasing_concat h.increasing h.reached later
        exact ⟨increasing, reached⟩
    | figure child caption => exact ⟨unchanged.increasing, unchanged.reached⟩
    | table t => exact ⟨unchanged.increasing, unchanged.reached⟩
    | _ => exact unchanged

/-- The section numbers of headings grow from each one to the next. -/
theorem Document.increasing_headings (document : Document) :
    (document.index.locations.ofKind .heading).Pairwise fun a b => a.sections < b.sections := by
  have explored : ∃ place : Place,
      (Discovery.explore {} document).observers = Observer.standardAt place ∧
      place.HeadingsOrdered (document.index.locations.ofKind .heading) := by
    refine Node.walk_invariant (P := fun discovery : Discovery => ∃ place : Place,
      discovery.observers = Observer.standardAt place ∧
        place.HeadingsOrdered (discovery.index.locations.ofKind .heading)) Discovery.visit ?_ ?_
    · rintro discovery node ⟨place, observers, ordered⟩
      refine ⟨_, Discovery.observers_visit observers node, ?_⟩
      rw [Discovery.index_visit observers]
      exact Observer.headingsOrdered_observeLocation ordered node
    · exact ⟨{}, rfl, List.Pairwise.nil, nofun⟩
  obtain ⟨place, -, ordered⟩ := explored
  exact ordered.increasing

namespace NumberingScheme

/-- The counters of a node grow in preorder. -/
theorem increasing_counters (document : Document) (depth : Nat) (kind : LocationKind) :
    (document.index.locations.ofKind kind).Pairwise fun x y =>
      ∀ a ∈ counters? depth x kind, ∀ b ∈ counters? depth y kind, a < b := by
  cases kind with
  | heading =>
    refine document.increasing_headings.imp fun before a ha b hb => ?_
    have sections : ∀ {location counters}, counters ∈ counters? depth location .heading →
        counters = location.sections := by
      intro location counters mem
      simp only [counters?, headingCounters?] at mem
      split at mem
      · contradiction
      · exact (Option.some.inj mem).symm
    rw [sections ha, sections hb]
    exact before
  | figure | table =>
    refine (document.increasing_captions (by decide) depth).imp fun before a ha b hb => ?_
    obtain rfl := Option.some.inj ha
    obtain rfl := Option.some.inj hb
    exact before

theorem length_counters {depth : Nat} (positive : 0 < depth) {location : Location}
    {kind : LocationKind} {counters : List Nat} (h : counters ∈ counters? depth location kind) :
    counters.length ≤ depth := by
  have caption : (captionCounters depth location).length ≤ depth := by
    simp only [captionCounters, List.length_append, List.length_map, List.length_range,
      List.length_singleton]
    omega
  cases kind with
  | heading =>
    simp only [counters?, headingCounters?] at h
    split at h
    · contradiction
    · rename_i numbered
      obtain rfl := Option.some.inj h
      simp only [Bool.or_eq_true, decide_eq_true_eq, not_or] at numbered
      omega
  | figure | table =>
    obtain rfl := Option.some.inj h
    exact caption

/-- The formats of a scheme keep their counters apart. -/
def IsSeparated (scheme : NumberingScheme) : Prop :=
  ∀ kind, ∀ format ∈ scheme.format? kind, format.IsSeparated

theorem label_eq_some {scheme : NumberingScheme} {kind : LocationKind} {location : Location}
    {label : String} : scheme.label kind location = some label ↔
      ∃ format ∈ scheme.format? kind, ∃ counters ∈ counters? format.depth location kind,
        format.write counters = label := by
  simp [NumberingScheme.label, Option.bind_eq_some_iff]

end NumberingScheme

/-- No two nodes of a kind take the same label. -/
theorem Document.pairwise_labels (document : Document) {scheme : NumberingScheme}
    (separated : scheme.IsSeparated) (kind : LocationKind) :
    (document.index.locations.ofKind kind).Pairwise fun x y =>
      ∀ a ∈ scheme.label kind x, ∀ b ∈ scheme.label kind y, a ≠ b := by
  rw [List.pairwise_iff_getElem]
  intro i j hi hj before a ha b hb same
  obtain ⟨format, chosen, m, countersA, rfl⟩ := label_eq_some.mp ha
  obtain ⟨other, chosen', n, countersB, rfl⟩ := label_eq_some.mp hb
  obtain rfl : other = format := Option.mem_unique chosen' chosen
  have ordered := List.pairwise_iff_getElem.mp (increasing_counters document other.depth kind)
  have apart : m < n := ordered i j hi hj before m countersA n countersB
  have equal : m = n :=
    NumberingFormat.write_injective (separated kind other chosen)
      (length_counters other.depth_positive countersA)
      (length_counters other.depth_positive countersB) same
  exact absurd equal (ne_of_lt apart)

namespace Index.Grows

variable {a b : Index} (h : a.Grows b) {kind : LocationKind}

include h

theorem locationCount_le : a.locationCount kind ≤ b.locationCount kind :=
  (h.locations kind).length_le

theorem locationAt?_some {i : Nat} {location : Location}
    (found : a.locationAt? kind i = some location) : b.locationAt? kind i = some location := by
  obtain ⟨small, -⟩ := List.getElem?_eq_some_iff.mp found
  rw [h.locationAt? small, found]

end Index.Grows

namespace Discovery

variable (discovery : Discovery) (nodes : List Node)

/-- A pass when it comes to a position in a row of nodes. -/
def upTo (i : Nat) : Discovery := Node.walk visit discovery (nodes.take i)

theorem upTo_grows {i j : Nat} (h : i ≤ j) :
    (discovery.upTo nodes i).index.Grows (discovery.upTo nodes j).index := by
  have split : nodes.take j = nodes.take i ++ (nodes.take j).drop i := by
    conv_lhs => rw [← List.take_append_drop i (nodes.take j), List.take_take, Nat.min_eq_left h]
  rw [upTo, upTo, split, Node.walk_append]
  exact walk_grows _ _

variable {discovery nodes} {node : Node} {i : Nat}

theorem upTo_succ (here : nodes[i]? = some node) :
    discovery.upTo nodes (i + 1) =
      Node.walk visit ((discovery.upTo nodes i).visit node) node.children := by
  obtain ⟨small, rfl⟩ := List.getElem?_eq_some_iff.mp here
  rw [upTo, List.take_succ_eq_append_getElem small, Node.walk_append, Node.walk_singleton]
  rfl

theorem upTo_children_grows (here : nodes[i]? = some node) (k : Nat) :
    (((discovery.upTo nodes i).visit node).upTo node.children k).index.Grows
      (discovery.upTo nodes (i + 1)).index := by
  rw [upTo_succ here]
  conv_rhs => rw [← List.take_append_drop k node.children, Node.walk_append]
  exact walk_grows _ _

theorem notes_at (here : nodes[i]? = some node) :
    discovery.notes nodes [i] =
      .between (discovery.upTo nodes i).index ((discovery.upTo nodes i).visit node).index := by
  rw [notes, here]
  rfl

theorem notes_under (here : nodes[i]? = some node) (k : Nat) (p : Address) :
    discovery.notes nodes (i :: k :: p) =
      ((discovery.upTo nodes i).visit node).notes node.children (k :: p) := by
  conv_lhs => rw [notes, here]
  rfl

variable {kind : LocationKind} {location : Location} {p q : Address}

theorem node_of_notes (found : (discovery.notes nodes (i :: p)).location kind = some location) :
    ∃ node, nodes[i]? = some node := by
  cases here : nodes[i]? with
  | none =>
    rw [notes, here] at found
    contradiction
  | some node => exact ⟨node, rfl⟩

/-- What is recorded at a position or below it is recorded while the pass goes from there to the
next position. -/
theorem recorded_of_notes
    (found : (discovery.notes nodes (i :: p)).location kind = some location) :
    ∃ n, (discovery.upTo nodes i).index.locationCount kind ≤ n ∧
      (discovery.upTo nodes (i + 1)).index.locationAt? kind n = some location := by
  obtain ⟨node, here⟩ := node_of_notes found
  induction p generalizing discovery nodes i node with
  | nil =>
    rw [notes_at here] at found
    have grows := walk_grows ((discovery.upTo nodes i).visit node) node.children
    rw [← upTo_succ here] at grows
    exact ⟨_, le_rfl, grows.locationAt?_some found⟩
  | cons k p ih =>
    rw [notes_under here] at found
    obtain ⟨child, below⟩ := node_of_notes found
    obtain ⟨n, behind, recorded⟩ := ih found child below
    have start := (visit_grows (discovery.upTo nodes i) node).trans
      (walk_grows ((discovery.upTo nodes i).visit node) (node.children.take k))
    exact ⟨n, start.locationCount_le.trans behind,
      (upTo_children_grows here (k + 1)).locationAt?_some recorded⟩

theorem walk_upTo_grows (k : Nat) :
    (discovery.upTo nodes k).index.Grows (Node.walk visit discovery nodes).index := by
  conv_rhs => rw [← List.take_append_drop k nodes, Node.walk_append]
  exact walk_grows _ _

/-- Entries come in the order of the addresses of their nodes, which is preorder. -/
theorem recorded_in_order (before : p < q) {first second : Location}
    (hp : (discovery.notes nodes p).location kind = some first)
    (hq : (discovery.notes nodes q).location kind = some second) :
    ∃ m n, m < n ∧ (Node.walk visit discovery nodes).index.locationAt? kind m = some first ∧
      (Node.walk visit discovery nodes).index.locationAt? kind n = some second := by
  induction before generalizing discovery nodes with
  | nil => contradiction
  | @rel i p j q left =>
    obtain ⟨m, -, recordedFirst⟩ := recorded_of_notes hp
    obtain ⟨n, behind, recordedSecond⟩ := recorded_of_notes hq
    obtain ⟨small, -⟩ := List.getElem?_eq_some_iff.mp recordedFirst
    have start := upTo_grows discovery nodes (Nat.succ_le_of_lt left)
    exact ⟨m, n, lt_of_lt_of_le small (start.locationCount_le.trans behind),
      (walk_upTo_grows _).locationAt?_some recordedFirst,
      (walk_upTo_grows _).locationAt?_some recordedSecond⟩
  | @cons i p q under ih =>
    obtain ⟨node, here⟩ := node_of_notes hp
    obtain ⟨k, q, rfl⟩ : ∃ k rest, q = k :: rest := by
      cases under <;> exact ⟨_, _, rfl⟩
    rw [notes_under here] at hq
    have inside : (discovery.upTo nodes (i + 1)).index.Grows
        (Node.walk visit discovery nodes).index := walk_upTo_grows (i + 1)
    rw [upTo_succ here] at inside
    cases p with
    | nil =>
      -- the upper node is visited before all that stands below it
      rw [notes_at here] at hp
      obtain ⟨n, behind, recordedSecond⟩ := recorded_of_notes hq
      obtain ⟨small, -⟩ := List.getElem?_eq_some_iff.mp hp
      have start := walk_grows ((discovery.upTo nodes i).visit node) (node.children.take k)
      have rest := walk_grows ((discovery.upTo nodes i).visit node) node.children
      exact ⟨_, n, lt_of_lt_of_le small (start.locationCount_le.trans behind),
        (rest.trans inside).locationAt?_some hp,
        ((walk_upTo_grows _).trans inside).locationAt?_some recordedSecond⟩
    | cons k' p =>
      rw [notes_under here] at hp
      obtain ⟨m, n, less, recordedFirst, recordedSecond⟩ := ih hp hq
      exact ⟨m, n, less, inside.locationAt?_some recordedFirst,
        inside.locationAt?_some recordedSecond⟩

end Discovery

/-- The label that a scheme gives the node at an address, by the location recorded for it. -/
def Document.labelAt? (document : Document) (scheme : NumberingScheme) (kind : LocationKind)
    (address : Address) : Option String :=
  ((Discovery.notes {} document.roots address).location kind).bind (scheme.label kind)

theorem Document.labels_in_order (document : Document) {scheme : NumberingScheme}
    (separated : scheme.IsSeparated) {kind : LocationKind} {p q : Address} (before : p < q)
    {a b : String} (ha : document.labelAt? scheme kind p = some a)
    (hb : document.labelAt? scheme kind q = some b) : a ≠ b := by
  obtain ⟨first, hp, labelA⟩ := Option.bind_eq_some_iff.mp ha
  obtain ⟨second, hq, labelB⟩ := Option.bind_eq_some_iff.mp hb
  obtain ⟨m, n, less, entryA, entryB⟩ := Discovery.recorded_in_order before hp hq
  obtain ⟨smallM, rfl⟩ := List.getElem?_eq_some_iff.mp entryA
  obtain ⟨smallN, rfl⟩ := List.getElem?_eq_some_iff.mp entryB
  have pairwise := List.pairwise_iff_getElem.mp (document.pairwise_labels separated kind)
  exact pairwise m n smallM smallN less a labelA b labelB

/-- Under formats that keep their counters apart different headings, figures or tables never have
the same label, however many counters the formats have. -/
theorem Document.labels_distinct (document : Document) (scheme : NumberingScheme)
    (separated : scheme.IsSeparated) (kind : LocationKind) {p q : Address} (different : p ≠ q)
    {a b : String} (ha : document.labelAt? scheme kind p = some a)
    (hb : document.labelAt? scheme kind q = some b) : a ≠ b := by
  rcases lt_or_gt_of_ne different with before | behind
  · exact document.labels_in_order separated before ha hb
  · exact (document.labels_in_order separated behind hb ha).symm

/-- Figures below a section that is too deep, under a format with more counters than levels. -/
theorem labels_distinct_eightCounters :
    let scheme : NumberingScheme :=
      { headings := NumberingFormat.read? "I.1"
        figures := NumberingFormat.read? "1.1.1.1.1.1.1-i" }
    let document : Document :=
      ⟨[.heading 1 [] none, .heading 9 [] none, .figure (.figure (.paragraph []) none) none]⟩
    (scheme.IsSeparated ∧ ([2] : Address) ≠ [2, 0]) ∧
      document.labelAt? scheme .figure [2] = some "1.0.0.0.0.1.0-i" ∧
      document.labelAt? scheme .figure [2, 0] = some "1.0.0.0.0.1.0-ii" ∧
      "1.0.0.0.0.1.0-i" ≠ "1.0.0.0.0.1.0-ii" := by
  intro scheme document
  have separated : scheme.IsSeparated := by
    have each : ∀ kind,
        (scheme.format? kind).all fun format => decide format.IsSeparated := by
      intro kind
      cases kind <;> decide +kernel
    intro kind format chosen
    exact of_decide_eq_true ((Option.all_eq_true _ _).mp (each kind) format chosen)
  have outer : document.labelAt? scheme .figure [2] = some "1.0.0.0.0.1.0-i" := by
    simp only [Document.labelAt?, Discovery.notes, Node.walk_eq_foldl]
    decide +kernel
  have inner : document.labelAt? scheme .figure [2, 0] = some "1.0.0.0.0.1.0-ii" := by
    simp only [Document.labelAt?, Discovery.notes, Node.walk_eq_foldl]
    decide +kernel
  exact ⟨⟨separated, by decide⟩, outer, inner,
    document.labels_distinct scheme separated .figure (by decide) outer inner⟩

end Quire
