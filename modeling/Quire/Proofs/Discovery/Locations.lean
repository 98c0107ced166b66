import Mathlib.Data.List.Lex
import Quire.Proofs.Discovery.Pass
import Quire.Numbering.Scheme

/-!
# The order of captions

Figures are recorded in the order in which their counters grow, and so are tables. The order is
that of the first counter that differs, so the counters of two captions are never the same.
-/

namespace Quire

open NumberingScheme

namespace Place

def counts (place : Place) : LocationKind → List Nat
  | .heading => []
  | .figure => place.figures
  | .table => place.tables

def location (place : Place) (kind : LocationKind) : Location := ⟨place.sections, place.counts kind⟩

theorem length_outer (sections : List Nat) (level : Nat) :
    (sections.take (level - 1) ++
      List.replicate (level - 1 - (sections.take (level - 1)).length) 0).length = level - 1 := by
  rw [List.length_append, List.length_replicate, List.length_take]
  omega

/-- The sections around a new one keep their numbers. -/
theorem sectionAt_openSection_outer (sections : List Nat) {level i : Nat} (outer : i < level - 1) :
    (openSection sections level)[i]?.getD 0 = sections[i]?.getD 0 := by
  rw [openSection, List.getElem?_append_left (by rw [length_outer]; exact outer)]
  by_cases open_ : i < sections.length
  · rw [List.getElem?_append_left (by rw [List.length_take]; omega), List.getElem?_take_of_lt outer]
  · rw [List.getElem?_append_right (by rw [List.length_take]; omega), List.getElem?_replicate,
      List.getElem?_eq_none (by omega)]
    split <;> rfl

theorem sectionAt_openSection_self (sections : List Nat) (level : Nat) :
    (openSection sections level)[level - 1]?.getD 0 = sections[level - 1]?.getD 0 + 1 := by
  rw [openSection, List.getElem?_append_right (by rw [length_outer]), length_outer, Nat.sub_self]
  rfl

theorem length_resetFrom (counts : List Nat) (level : Nat) :
    (resetFrom level counts).length = counts.length := by
  rw [resetFrom, List.length_append, List.length_take, List.length_replicate]
  omega

theorem getElem?_resetFrom (counts : List Nat) {level i : Nat} (above : i < level) :
    (resetFrom level counts)[i]? = counts[i]? := by
  by_cases short : i < counts.length
  · rw [resetFrom, List.getElem?_append_left (by rw [List.length_take]; omega),
      List.getElem?_take_of_lt above]
  · have length := length_resetFrom counts level
    rw [List.getElem?_eq_none (by omega), List.getElem?_eq_none (by omega)]

theorem counts_enter (place : Place) (kind : LocationKind) (level : Nat) :
    (place.enter level).counts kind = resetFrom level (place.counts kind) := by
  cases kind with
  | heading => simp [counts, resetFrom]
  | figure | table => rfl

/-- Counts are started afresh from the level of a new section on, and no others. -/
theorem ordinalAt_resetFrom (sections sections' counts : List Nat) {level i : Nat}
    (above : i < level) :
    Location.ordinalAt ⟨sections', resetFrom level counts⟩ i =
      Location.ordinalAt ⟨sections, counts⟩ i := by
  simp only [Location.ordinalAt, getElem?_resetFrom counts above]
  by_cases short : i < counts.length
  · rw [List.getElem?_eq_getElem short]
    rfl
  · have same : resetFrom level counts = counts := by
      rw [resetFrom, List.take_of_length_le (by omega), Nat.sub_eq_zero_of_le (by omega)]
      exact List.append_nil counts
    rw [same]

theorem ordinalAt_enter (place : Place) (kind : LocationKind) {level i : Nat} (above : i < level) :
    ((place.enter level).location kind).ordinalAt i = (place.location kind).ordinalAt i := by
  cases kind with
  | heading => rfl
  | figure => exact ordinalAt_resetFrom _ _ _ above
  | table => exact ordinalAt_resetFrom _ _ _ above

/-- A new section does not lower the counters of what comes behind it. -/
theorem captionCounters_enter (place : Place) (kind : LocationKind) (depth : Nat) {level : Nat}
    (positive : 0 < level) :
    captionCounters depth (place.location kind) ≤
      captionCounters depth ((place.enter level).location kind) := by
  have outer : ∀ i < level - 1, (place.location kind).sectionAt i =
      ((place.enter level).location kind).sectionAt i := fun i small =>
    (sectionAt_openSection_outer place.sections small).symm
  by_cases inside : level < depth
  · -- the number of the new section is among the counters, and it is the first that changes
    obtain ⟨rest, parts⟩ : ∃ rest, List.range (depth - 1) =
        List.range (level - 1) ++ (level - 1) :: rest := by
      have length : depth - 1 = level - 1 + (depth - level - 1 + 1) := by omega
      rw [length, List.range_add, List.range_succ_eq_map, List.map_cons]
      exact ⟨_, rfl⟩
    have prefixes : (List.range (level - 1)).map (place.location kind).sectionAt =
        (List.range (level - 1)).map ((place.enter level).location kind).sectionAt :=
      List.map_congr_left fun i mem => outer i (List.mem_range.mp mem)
    have raised : (place.location kind).sectionAt (level - 1) <
        ((place.enter level).location kind).sectionAt (level - 1) := by
      have next := sectionAt_openSection_self place.sections level
      simp only [Location.sectionAt, location, enter]
      omega
    rw [captionCounters, captionCounters, parts, List.map_append, List.map_append, prefixes,
      List.append_assoc, List.append_assoc]
    exact le_of_lt (List.Lex.append_left (· < ·) (List.Lex.rel raised) _)
  · -- no counter tells of the new section
    have sections : (List.range (depth - 1)).map (place.location kind).sectionAt =
        (List.range (depth - 1)).map ((place.enter level).location kind).sectionAt :=
      List.map_congr_left fun i mem => outer i (by rw [List.mem_range] at mem; omega)
    rw [captionCounters, captionCounters, sections, ordinalAt_enter place kind (by omega)]

/-- A caption raises the last of its counters. -/
theorem captionCounters_count (sections : List Nat) {counts : List Nat} (h : counts ≠ [])
    (depth : Nat) :
    captionCounters depth ⟨sections, counts⟩ <
      captionCounters depth ⟨sections, counts.map (· + 1)⟩ := by
  have raised : Location.ordinalAt ⟨sections, counts⟩ (depth - 1) <
      Location.ordinalAt ⟨sections, counts.map (· + 1)⟩ (depth - 1) := by
    have last := List.getLast?_eq_some_getLast h
    simp only [Location.ordinalAt, List.getElem?_map, List.getLast?_map, ← Option.map_or]
    cases counts[depth - 1]? <;> simp [last]
  exact List.Lex.append_left (· < ·) (List.Lex.rel raised) _

end Place

def Node.locationKind? : Node → Option LocationKind
  | .block (.heading depth _ _) => if depth = 0 then none else some .heading
  | .block (.figure ..) => some .figure
  | .block (.table ..) => some .table
  | _ => none

namespace Observer

/-- What is recorded for a node is the place that the pass has come to with it. -/
theorem ofKind_observeLocation (place : Place) (index : Index) (node : Node) (kind : LocationKind) :
    (observeLocation place index node).2.locations.ofKind kind =
      index.locations.ofKind kind ++
        if node.locationKind? = some kind then
          [(observeLocation place index node).1.location kind]
        else [] := by
  cases node with
  | inline i => simp [observeLocation, Node.locationKind?]
  | block b =>
    cases b with
    | heading depth content customId =>
      by_cases marker : depth = 0
      · simp [observeLocation, Node.locationKind?, marker]
      · cases kind <;>
          simp [observeLocation, Node.locationKind?, marker, Index.record, Locations.ofKind_record,
            Place.location, Place.counts]
    | figure | table =>
      cases kind <;>
        simp [observeLocation, Node.locationKind?, Index.record, Locations.ofKind_record,
          Place.location, Place.counts]
    | _ => simp [observeLocation, Node.locationKind?]

end Observer

/-- A heading that is no marker opens a section of a level from one on. -/
theorem level_of_visible {depth : UInt8} (visible : depth ≠ 0) :
    0 < min depth.toNat deepestLevel := by
  have nonzero : depth.toNat ≠ 0 := fun zero => visible (UInt8.toNat_inj.mp zero)
  rw [deepestLevel]
  omega

/-- Entries that grow up to a bound still do with one more beyond it, which is the new bound. -/
theorem increasing_concat {key : Location → List Nat} {found : List Location} {bound : List Nat}
    {last : Location} (increasing : found.Pairwise fun a b => key a < key b)
    (reached : ∀ location ∈ found, key location ≤ bound) (later : bound < key last) :
    (found ++ [last]).Pairwise (fun a b => key a < key b) ∧
      ∀ location ∈ found ++ [last], key location ≤ key last := by
  constructor
  · rw [List.pairwise_append]
    refine ⟨increasing, List.pairwise_singleton _ _, fun a mem b new => ?_⟩
    obtain rfl := List.mem_singleton.mp new
    exact lt_of_le_of_lt (reached a mem) later
  · intro location mem
    rcases List.mem_append.mp mem with old | new
    · exact (reached location old).trans (le_of_lt later)
    · obtain rfl := List.mem_singleton.mp new
      exact le_rfl

/-- The captions of a kind that are recorded when a pass has come to a place: their counters grow,
and none is ahead of the place. -/
structure Place.Ordered (kind : LocationKind) (depth : Nat) (place : Place)
    (found : List Location) : Prop where
  counts : place.counts kind ≠ []
  increasing : found.Pairwise fun a b => captionCounters depth a < captionCounters depth b
  reached : ∀ location ∈ found,
    captionCounters depth location ≤ captionCounters depth (place.location kind)

namespace Place.Ordered

variable {kind : LocationKind} {depth : Nat} {place next : Place} {found : List Location}

theorem stay (h : place.Ordered kind depth found) (counts : next.counts kind ≠ [])
    (later : captionCounters depth (place.location kind) ≤
      captionCounters depth (next.location kind)) : next.Ordered kind depth found :=
  ⟨counts, h.increasing, fun location mem => (h.reached location mem).trans later⟩

theorem record (h : place.Ordered kind depth found) (counts : next.counts kind ≠ [])
    (later : captionCounters depth (place.location kind) <
      captionCounters depth (next.location kind)) :
    next.Ordered kind depth (found ++ [next.location kind]) := by
  obtain ⟨increasing, reached⟩ := increasing_concat h.increasing h.reached later
  exact ⟨counts, increasing, reached⟩

end Place.Ordered

namespace Observer

theorem ordered_observeLocation {kind : LocationKind} {depth : Nat} {place : Place} {index : Index}
    (h : place.Ordered kind depth (index.locations.ofKind kind)) (node : Node) :
    (observeLocation place index node).1.Ordered kind depth
      ((observeLocation place index node).2.locations.ofKind kind) := by
  have unchanged : place.Ordered kind depth (index.locations.ofKind kind ++ []) := by
    rw [List.append_nil]
    exact h
  rw [ofKind_observeLocation]
  cases node with
  | inline i => exact unchanged
  | block b =>
    cases b with
    | heading level content customId =>
      by_cases marker : level = 0
      · simp only [observeLocation, Node.locationKind?, marker, if_true]
        exact unchanged
      · have positive := level_of_visible marker
        have entered : (place.enter (min level.toNat deepestLevel)).counts kind ≠ [] := by
          intro none
          have length := congrArg List.length none
          rw [Place.counts_enter, Place.length_resetFrom] at length
          exact h.counts (List.length_eq_zero_iff.mp length)
        have caption : some LocationKind.heading ≠ some kind := by
          rintro ⟨⟩
          exact h.counts rfl
        simp only [observeLocation, Node.locationKind?, marker, if_false]
        rw [if_neg caption, List.append_nil]
        exact h.stay entered (Place.captionCounters_enter place kind depth positive)
    | figure child caption =>
      cases kind with
      | heading => exact absurd rfl h.counts
      | figure =>
        exact h.record (List.map_eq_nil_iff.not.mpr h.counts)
          (Place.captionCounters_count place.sections h.counts depth)
      | table => exact unchanged.stay h.counts le_rfl
    | table t =>
      cases kind with
      | heading => exact absurd rfl h.counts
      | figure => exact unchanged.stay h.counts le_rfl
      | table =>
        exact h.record (List.map_eq_nil_iff.not.mpr h.counts)
          (Place.captionCounters_count place.sections h.counts depth)
    | _ => exact unchanged

end Observer

namespace Discovery

/-- An ordinary pass that has recorded the captions of a kind in order. -/
def Ordered (kind : LocationKind) (depth : Nat) (discovery : Discovery) : Prop :=
  ∃ place : Place, discovery.observers = Observer.standardAt place ∧
    place.Ordered kind depth (discovery.index.locations.ofKind kind)

theorem ordered_initial {kind : LocationKind} (caption : kind ≠ .heading) (depth : Nat) :
    Ordered kind depth {} := by
  refine ⟨{}, rfl, ?_⟩
  cases kind with
  | heading => exact absurd rfl caption
  | figure => exact ⟨by decide, List.Pairwise.nil, fun _ mem => absurd mem List.not_mem_nil⟩
  | table => exact ⟨by decide, List.Pairwise.nil, fun _ mem => absurd mem List.not_mem_nil⟩

theorem ordered_visit {kind : LocationKind} {depth : Nat} {discovery : Discovery}
    (h : discovery.Ordered kind depth) (node : Node) :
    (discovery.visit node).Ordered kind depth := by
  obtain ⟨place, observers, ordered⟩ := h
  refine ⟨_, observers_visit observers node, ?_⟩
  rw [index_visit observers]
  exact Observer.ordered_observeLocation ordered node

end Discovery

/-- The counters of the captions of a kind grow from each one to the next. -/
theorem Document.increasing_captions (document : Document) {kind : LocationKind}
    (caption : kind ≠ .heading) (depth : Nat) :
    (document.index.locations.ofKind kind).Pairwise fun a b =>
      captionCounters depth a < captionCounters depth b := by
  have explored : (Discovery.explore {} document).Ordered kind depth :=
    Node.walk_invariant Discovery.visit (fun _ node h => Discovery.ordered_visit h node)
      (Discovery.ordered_initial caption depth)
  obtain ⟨place, -, ordered⟩ := explored
  exact ordered.increasing

end Quire
