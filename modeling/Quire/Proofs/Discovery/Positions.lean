import Mathlib.Data.List.DropRight
import Mathlib.Data.List.Infix
import Quire.Proofs.Discovery.Locations

/-!
# What locations count

A pass keeps counters that it raises and resets on its way. What it records says the same as a count
over all nodes that came before: the headings of a level since the last one above it, and the
captions of a kind since the last heading down to a level.
-/

namespace Quire

/-- The level of a heading, as far as levels count. Markers have none. -/
def Node.level? : Node → Option Nat
  | .block (.heading depth _ _) => if depth = 0 then none else some (min depth.toNat deepestLevel)
  | _ => none

namespace Preorder

/-- How many of the nodes behind the last stop are counted. -/
def countSince (stop counted : Node → Bool) (passed : List Node) : Nat :=
  (passed.rtakeWhile fun node => !stop node).countP counted

/-- The number of headings of a level since the last heading above that level. -/
def sectionNumber (level : Nat) (passed : List Node) : Nat :=
  countSince (fun node => node.level?.any (· < level)) (fun node => node.level? = some level) passed

/-- The number of nodes of a kind since the last heading down to a level. No heading has the level
zero, so there it counts from the start. -/
def captionNumber (kind : LocationKind) (level : Nat) (passed : List Node) : Nat :=
  countSince (fun node => node.level?.any (· ≤ level)) (fun node => node.locationKind? = some kind)
    passed

/-- The numbers of the last heading, from the first level down to its own. -/
def sectionNumbers (passed : List Node) : List Nat :=
  let upToHeading := passed.rdropWhile fun node => node.level?.isNone
  match upToHeading.getLast?.bind Node.level? with
  | none => []
  | some level => (List.range level).map fun i => sectionNumber (i + 1) upToHeading

/-- The location of the last node that was passed, by its kind. -/
def location (kind : LocationKind) (passed : List Node) : Location :=
  { sections := sectionNumbers passed
    ordinals := match kind with
      | .heading => []
      | .figure | .table =>
        (List.range (deepestLevel + 1)).map fun level => captionNumber kind level passed }

/-- The parts of a row of nodes from its start up to each node of a kind. -/
def upToEach (kind : LocationKind) (nodes : List Node) : List (List Node) :=
  nodes.inits.filter fun passed => passed.getLast?.any fun node => node.locationKind? = some kind

section Step

variable (passed : List Node) (node : Node)

theorem countSince_concat (stop counted : Node → Bool) :
    countSince stop counted (passed ++ [node]) =
      if stop node then 0 else countSince stop counted passed + if counted node then 1 else 0 := by
  by_cases here : stop node = true
  · rw [countSince, List.rtakeWhile_concat_neg _ _ _ (by simp [here]), if_pos here]
    rfl
  · rw [countSince, List.rtakeWhile_concat_pos _ _ _ (by simp [here]), if_neg here,
      List.countP_append, List.countP_singleton]
    rfl

variable {node}

theorem sectionNumber_heading {own : Nat} (h : node.level? = some own) (level : Nat) :
    sectionNumber level (passed ++ [node]) =
      if own < level then 0
      else sectionNumber level passed + if own = level then 1 else 0 := by
  rw [sectionNumber, countSince_concat, h]
  simp only [Option.any_some, decide_eq_true_eq, Option.some.injEq]
  rfl

theorem sectionNumber_other (h : node.level? = none) (level : Nat) :
    sectionNumber level (passed ++ [node]) = sectionNumber level passed := by
  rw [sectionNumber, countSince_concat, h]
  rfl

theorem captionNumber_heading {own : Nat} (h : node.level? = some own) {kind : LocationKind}
    (caption : node.locationKind? ≠ some kind) (level : Nat) :
    captionNumber kind level (passed ++ [node]) =
      if own ≤ level then 0 else captionNumber kind level passed := by
  rw [captionNumber, countSince_concat, h]
  simp only [Option.any_some, decide_eq_true_eq, if_neg caption, Nat.add_zero]
  rfl

theorem captionNumber_other (h : node.level? = none) (kind : LocationKind) (level : Nat) :
    captionNumber kind level (passed ++ [node]) =
      captionNumber kind level passed + if node.locationKind? = some kind then 1 else 0 := by
  rw [captionNumber, countSince_concat, h]
  simp only [Option.any_none, decide_eq_true_eq, Bool.false_eq_true, if_false]
  rfl

theorem sectionNumbers_heading {own : Nat} (h : node.level? = some own) :
    sectionNumbers (passed ++ [node]) =
      (List.range own).map fun i => sectionNumber (i + 1) (passed ++ [node]) := by
  rw [sectionNumbers, List.rdropWhile_concat_neg _ _ _ (by simp [h])]
  simp [h]

theorem sectionNumbers_other (h : node.level? = none) :
    sectionNumbers (passed ++ [node]) = sectionNumbers passed := by
  rw [sectionNumbers, List.rdropWhile_concat_pos _ _ _ (by simp [h])]
  rfl

end Step

theorem level_positive {node : Node} {level : Nat} (h : node.level? = some level) : 0 < level := by
  unfold Node.level? at h
  split at h
  · rename_i depth _ _
    split at h
    · contradiction
    · rename_i visible
      obtain rfl := Option.some.inj h
      exact level_of_visible visible
  · contradiction

end Preorder

namespace Place

theorem resetFrom_map_range (f : Nat → Nat) (level n : Nat) :
    resetFrom level ((List.range n).map f) =
      (List.range n).map fun i => if level ≤ i then 0 else f i := by
  apply List.ext_getElem?
  intro i
  by_cases above : i < level
  · rw [getElem?_resetFrom _ above, List.getElem?_map, List.getElem?_map]
    by_cases short : i < n
    · simp [short, Nat.not_le.mpr above]
    · simp [short]
  · have length : ((List.range n).map f).length = n := by simp
    rw [resetFrom, length, List.getElem?_append_right (by rw [List.length_take]; omega),
      List.length_take, length, List.getElem?_replicate, List.getElem?_map]
    by_cases short : i < n
    · rw [if_pos (by omega), List.getElem?_range short, Option.map_some, if_pos (by omega)]
    · rw [if_neg (by omega), List.getElem?_eq_none (by simp; omega)]
      rfl

theorem length_openSection (sections : List Nat) {level : Nat} (positive : 0 < level) :
    (openSection sections level).length = level := by
  rw [openSection, List.length_append, length_outer, List.length_singleton]
  omega

/-- The counters of a pass say what a count over the nodes before says. -/
structure Tells (place : Place) (passed : List Node) : Prop where
  sections : place.sections = Preorder.sectionNumbers passed
  numbers : ∀ i, place.sections[i]?.getD 0 = Preorder.sectionNumber (i + 1) passed
  captions : ∀ kind ≠ .heading, place.counts kind =
    (List.range (deepestLevel + 1)).map fun level => Preorder.captionNumber kind level passed

theorem tells_initial : Tells {} [] := by
  refine ⟨rfl, fun i => rfl, fun kind caption => ?_⟩
  cases kind with
  | heading => contradiction
  | figure | table => rfl

namespace Tells

variable {place : Place} {passed : List Node} (h : place.Tells passed) {node : Node}

include h

theorem location (kind : LocationKind) : place.location kind = Preorder.location kind passed := by
  cases kind with
  | heading => rw [Place.location, h.sections]; rfl
  | figure => rw [Place.location, h.sections, h.captions .figure (by decide)]; rfl
  | table => rw [Place.location, h.sections, h.captions .table (by decide)]; rfl

/-- The number of the new section goes up, those around it stay, and those below start afresh. -/
theorem numbers_enter {level : Nat} (heading : node.level? = some level) (i : Nat) :
    (place.enter level).sections[i]?.getD 0 =
      Preorder.sectionNumber (i + 1) (passed ++ [node]) := by
  have positive := Preorder.level_positive heading
  have length := length_openSection place.sections positive
  rw [Preorder.sectionNumber_heading passed heading, ← h.numbers, enter]
  by_cases outer : i < level - 1
  · rw [sectionAt_openSection_outer place.sections outer, if_neg (by omega), if_neg (by omega)]
    rfl
  · by_cases own : i = level - 1
    · subst own
      rw [sectionAt_openSection_self, if_neg (by omega), if_pos (by omega)]
    · rw [List.getElem?_eq_none (by rw [length]; omega), if_pos (by omega)]
      rfl

theorem enter {level : Nat} (heading : node.level? = some level)
    (uncounted : ∀ kind ≠ .heading, node.locationKind? ≠ some kind) :
    (place.enter level).Tells (passed ++ [node]) := by
  have numbers := h.numbers_enter heading
  refine ⟨?_, numbers, fun kind caption => ?_⟩
  · have length := length_openSection place.sections (Preorder.level_positive heading)
    rw [Preorder.sectionNumbers_heading passed heading]
    apply List.ext_getElem?
    intro i
    by_cases short : i < level
    · have number := numbers i
      have present : (place.enter level).sections[i]? =
          some ((place.enter level).sections[i]?.getD 0) := by
        rw [List.getElem?_eq_getElem (by rw [Place.enter, length]; exact short)]
        rfl
      rw [present, number, List.getElem?_map, List.getElem?_range short]
      rfl
    · rw [List.getElem?_eq_none (by rw [Place.enter, length]; omega),
        List.getElem?_eq_none (by simp; omega)]
  · rw [counts_enter, h.captions kind caption, resetFrom_map_range]
    refine List.map_congr_left fun i _ => ?_
    rw [Preorder.captionNumber_heading passed heading (uncounted kind caption)]

/-- Any node that is not a heading leaves the sections as they are. -/
theorem stay {next : Place} (other : node.level? = none) (sections : next.sections = place.sections)
    (counts : ∀ kind ≠ .heading, next.counts kind =
      if node.locationKind? = some kind then (place.counts kind).map (· + 1)
      else place.counts kind) :
    next.Tells (passed ++ [node]) := by
  refine ⟨?_, fun i => ?_, fun kind caption => ?_⟩
  · rw [sections, h.sections, Preorder.sectionNumbers_other passed other]
  · rw [sections, h.numbers, Preorder.sectionNumber_other passed other]
  · rw [counts kind caption, h.captions kind caption]
    simp only [Preorder.captionNumber_other passed other]
    by_cases counted : node.locationKind? = some kind
    · simp [counted]
    · simp [counted]

theorem observeLocation (index : Index) (node : Node) :
    (Observer.observeLocation place index node).1.Tells (passed ++ [node]) := by
  cases node with
  | inline i => exact h.stay rfl rfl fun kind _ => rfl
  | block b =>
    cases b with
    | heading depth content customId =>
      by_cases marker : depth = 0
      · simp only [Observer.observeLocation, marker, if_true]
        exact h.stay rfl rfl fun kind _ => rfl
      · simp only [Observer.observeLocation, marker, if_false]
        refine h.enter (by simp [Node.level?, marker]) fun kind caption => ?_
        simpa [Node.locationKind?, marker] using caption.symm
    | figure child caption =>
      refine h.stay rfl rfl fun kind caption => ?_
      cases kind with
      | heading => contradiction
      | figure | table => rfl
    | table t =>
      refine h.stay rfl rfl fun kind caption => ?_
      cases kind with
      | heading => contradiction
      | figure | table => rfl
    | _ => exact h.stay rfl rfl fun kind _ => rfl

end Tells
end Place

/-- A pass that has come behind some nodes has recorded one location for each of them that has a
kind, and stands where they tell. -/
theorem Discovery.tells_foldl (nodes : List Node) :
    ∃ place : Place, (nodes.foldl visit {}).observers = Observer.standardAt place ∧
      place.Tells nodes ∧
      ∀ kind, (nodes.foldl visit {}).index.locations.ofKind kind =
        (Preorder.upToEach kind nodes).map (Preorder.location kind) := by
  induction nodes using List.reverseRecOn with
  | nil =>
    refine ⟨{}, rfl, Place.tells_initial, fun kind => ?_⟩
    cases kind <;> rfl
  | append_singleton passed node ih =>
    obtain ⟨place, observers, tells, recorded⟩ := ih
    have next := tells.observeLocation (passed.foldl visit {}).index node
    rw [List.foldl_append, List.foldl_cons, List.foldl_nil]
    refine ⟨_, observers_visit observers node, next, fun kind => ?_⟩
    rw [index_visit observers, Observer.ofKind_observeLocation, recorded, next.location]
    have last : (passed ++ [node]).inits = passed.inits ++ [passed ++ [node]] := by
      simp [List.inits_append]
    rw [Preorder.upToEach, Preorder.upToEach, last, List.filter_append, List.map_append,
      List.filter_singleton]
    by_cases counted : node.locationKind? = some kind
    · simp [counted]
    · simp [counted]

/-- One location is recorded for each visible heading, each figure and each table, in preorder. The
numbers of a heading count, for each level down to its own, the headings of that level since the
last one above it. A caption has the numbers of the last heading before it, and for each level the
captions of its kind since the last heading down to that level. -/
theorem Document.recorded_locations (document : Document) (kind : LocationKind) :
    document.index.locations.ofKind kind =
      (Preorder.upToEach kind document.nodes).map (Preorder.location kind) := by
  obtain ⟨place, -, -, recorded⟩ := Discovery.tells_foldl document.nodes
  rw [index_eq_foldl]
  exact recorded kind

end Quire
