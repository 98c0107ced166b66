import Quire.Proofs.Discovery.Identifiers
import Quire.Proofs.Registry

/-!
# The index is append-only

Whatever the order in which things are registered, an index keeps every entry at its position and
under its key. A name gets its first spelling that is free, and the first definition of a label is
the one that counts.
-/

namespace Quire

inductive Index.Operation where
  | mark (capability : Capability)
  | define (definition : LinkDefinition)
  | identify (name : String) (target : IdentifierTarget)
  | record (kind : LocationKind) (location : Location)
  deriving DecidableEq, Repr

inductive Index.Part where
  | presence | linkDefinitions | identifiers | locations
  deriving DecidableEq, Repr

namespace Index.Operation

def part : Operation → Part
  | mark _ => .presence
  | define _ => .linkDefinitions
  | identify .. => .identifiers
  | record .. => .locations

def definition? : Operation → Option LinkDefinition
  | define definition => some definition
  | _ => none

def target? : Operation → Option IdentifierTarget
  | identify _ target => some target
  | _ => none

def location? (kind : LocationKind) : Operation → Option Location
  | record other location => if other = kind then some location else none
  | _ => none

end Index.Operation

namespace Index

def perform (index : Index) : Operation → Index
  | .mark capability => index.mark capability
  | .define definition => (index.define definition).2
  | .identify name target => (index.identify name target).2
  | .record kind location => index.record kind location

def performAll (index : Index) (operations : List Operation) : Index :=
  operations.foldl perform index

/-- Two indices that agree on all parts but one. -/
structure SameBut (part : Part) (a b : Index) : Prop where
  presence : part ≠ .presence → a.presence = b.presence
  linkDefinitions : part ≠ .linkDefinitions → a.linkDefinitions = b.linkDefinitions
  identifiers : part ≠ .identifiers → a.identifiers = b.identifiers
  locations : part ≠ .locations → a.locations = b.locations

theorem sameBut_perform (index : Index) (operation : Operation) :
    (index.perform operation).SameBut operation.part index := by
  cases operation with
  | mark capability =>
    exact ⟨fun other => absurd rfl other, fun _ => rfl, fun _ => rfl, fun _ => rfl⟩
  | define definition =>
    have kept : ∀ {α : Type} (part : Index → α),
        (∀ links, part { index with linkDefinitions := links } = part index) →
        part (index.define definition).2 = part index := by
      intro α part other
      rw [define]
      split
      · rfl
      · exact other _
    exact ⟨fun _ => kept Index.presence fun _ => rfl, fun other => absurd rfl other,
      fun _ => kept Index.identifiers fun _ => rfl, fun _ => kept Index.locations fun _ => rfl⟩
  | identify name target =>
    exact ⟨fun _ => rfl, fun _ => rfl, fun other => absurd rfl other, fun _ => rfl⟩
  | record kind location =>
    exact ⟨fun _ => rfl, fun _ => rfl, fun _ => rfl, fun other => absurd rfl other⟩

theorem sameBut_define (index : Index) (definition : LinkDefinition) :
    (index.perform (.define definition)).SameBut .linkDefinitions index :=
  index.sameBut_perform (.define definition)

section Spelling

variable {α : Type} (taken : Registry α) (base : String)

theorem freeSuffix_le (steps suffix : Nat) :
    freeSuffix taken base steps suffix ≤ suffix + steps := by
  induction steps generalizing suffix with
  | zero => exact Nat.le_refl _
  | succ steps ih =>
    rw [freeSuffix]
    split
    · have later := ih (suffix + 1)
      omega
    · omega

/-- The search passes by no spelling that is free. -/
theorem contains_of_lt_freeSuffix (steps suffix : Nat) {i : Nat} (lower : suffix ≤ i)
    (upper : i < freeSuffix taken base steps suffix) :
    taken.contains (spelling base i) = true := by
  induction steps generalizing suffix with
  | zero =>
    rw [freeSuffix] at upper
    omega
  | succ steps ih =>
    rw [freeSuffix] at upper
    split at upper
    · rename_i first
      by_cases here : i = suffix
      · rw [here]
        exact first
      · exact ih (suffix + 1) (by omega) upper
    · omega

theorem freeSpelling_least : ∃ suffix ≤ taken.size,
    freeSpelling taken base = spelling base suffix ∧
    taken.find? (spelling base suffix) = none ∧
    ∀ i < suffix, taken.find? (spelling base i) ≠ none := by
  have found : ∀ key, taken.find? key ≠ none ↔ taken.contains key = true := by
    intro key
    rw [← taken.isSome_find?, Option.isSome_iff_ne_none]
  refine ⟨freeSuffix taken base taken.size 0, ?_, rfl, ?_, ?_⟩
  · have bound := freeSuffix_le taken base taken.size 0
    omega
  · by_contra there
    exact freeSpelling_notMem taken base ((taken.contains_iff _).mp ((found _).mp there))
  · intro i less
    exact (found _).mpr (contains_of_lt_freeSuffix taken base _ 0 (Nat.zero_le i) less)

end Spelling

/-- Nothing that was registered is lost or moved. -/
structure Extends (before after : Index) : Prop extends before.Grows after where
  presence : ∀ capability, before.presence.has capability = true →
    after.presence.has capability = true
  linkDefinitions : before.linkDefinitions.entries <+: after.linkDefinitions.entries

theorem Extends.refl (index : Index) : index.Extends index :=
  ⟨.refl index, fun _ marked => marked, List.prefix_refl _⟩

theorem Extends.trans {a b c : Index} (h : a.Extends b) (k : b.Extends c) : a.Extends c := by
  constructor
  · exact h.toGrows.trans k.toGrows
  · intro capability marked
    exact k.presence capability (h.presence capability marked)
  · exact h.linkDefinitions.trans k.linkDefinitions

section Step

variable (index : Index)

theorem entries_define (definition : LinkDefinition) :
    (index.define definition).2.linkDefinitions.entries = index.linkDefinitions.entries ++
      if (index.define definition).1 = true then [(Text.label definition.label, definition)]
      else [] := by
  rw [define]
  split
  · exact (List.append_nil _).symm
  · rfl

theorem define_fst (definition : LinkDefinition) :
    (index.define definition).1 = (index.link? definition.label).isNone := by
  rw [link?, ← Option.not_isSome, Registry.isSome_find?, define]
  split
  · rename_i taken
    rw [taken]
    rfl
  · rename_i free
    rw [Bool.not_eq_true] at free
    rw [free]
    rfl

/-- A definition is found under its label unless another one was before. -/
theorem link?_define (definition : LinkDefinition) (label : String) :
    (index.define definition).2.link? label = (index.link? label).or
      (if Text.label definition.label = Text.label label then some definition else none) := by
  rw [link?, link?, define]
  split
  · rename_i taken
    by_cases same : Text.label definition.label = Text.label label
    · rw [same, ← Registry.isSome_find?, Option.isSome_iff_exists] at taken
      obtain ⟨first, found⟩ := taken
      rw [found]
      rfl
    · rw [if_neg same, Option.or_none]
  · exact index.linkDefinitions.find?_push _ _ definition

theorem link?_perform (operation : Operation) (label : String) :
    (index.perform operation).link? label = (index.link? label).or
      (operation.definition?.filter fun definition =>
        Text.label definition.label = Text.label label) := by
  cases operation with
  | define definition =>
    rw [perform, link?_define, Operation.definition?, Option.filter_some]
    simp only [decide_eq_true_eq]
  | _ => exact (Option.or_none).symm

theorem targets_perform (operation : Operation) :
    (index.perform operation).identifiers.entries.map (·.2) =
      index.identifiers.entries.map (·.2) ++ operation.target?.toList := by
  cases operation with
  | identify name target => exact List.map_append
  | define definition =>
    rw [(index.sameBut_define definition).identifiers (by decide)]
    exact (List.append_nil _).symm
  | _ => exact (List.append_nil _).symm

theorem locations_perform (operation : Operation) (kind : LocationKind) :
    (index.perform operation).locations.ofKind kind =
      index.locations.ofKind kind ++ (operation.location? kind).toList := by
  cases operation with
  | record other location =>
    rw [perform, record, Locations.ofKind_record, Operation.location?]
    split <;> rfl
  | define definition =>
    rw [(index.sameBut_define definition).locations (by decide)]
    exact (List.append_nil _).symm
  | _ => exact (List.append_nil _).symm

theorem has_perform (operation : Operation) (capability : Capability) :
    (index.perform operation).presence.has capability = true ↔
      index.presence.has capability = true ∨ operation = .mark capability := by
  cases operation with
  | mark other =>
    rw [perform, mark, Presence.has_mark, Bool.or_eq_true, decide_eq_true_iff, Operation.mark.injEq]
  | define definition =>
    rw [(index.sameBut_define definition).presence (by decide)]
    simp
  | identify | record => simp [perform, identify, record]

theorem grows_perform (operation : Operation) : index.Grows (index.perform operation) := by
  constructor
  · cases operation with
    | identify name target => exact List.prefix_append _ _
    | define definition =>
      have kept := (index.sameBut_define definition).identifiers (by decide)
      exact ⟨[], (List.append_nil _).trans (congrArg Registry.entries kept).symm⟩
    | _ => exact List.prefix_refl _
  · intro kind
    rw [locations_perform]
    exact List.prefix_append _ _

theorem extends_perform (operation : Operation) : index.Extends (index.perform operation) := by
  refine ⟨index.grows_perform operation, ?_, ?_⟩
  · intro capability marked
    exact (index.has_perform operation capability).mpr (.inl marked)
  · cases operation with
    | define definition =>
      rw [perform, entries_define]
      exact List.prefix_append _ _
    | _ => exact List.prefix_refl _

/-- Registries keep their keys apart. -/
structure UniqueKeys (index : Index) : Prop where
  linkDefinitions : index.linkDefinitions.keys.Nodup
  identifiers : index.identifiers.keys.Nodup

theorem uniqueKeys_perform {index : Index} (h : index.UniqueKeys) (operation : Operation) :
    (index.perform operation).UniqueKeys := by
  have push : ∀ {α : Type} {r : Registry α} {key : String} (value : α), r.keys.Nodup →
      key ∉ r.keys → (r.push key value).keys.Nodup := by
    intro α r key value nodup free
    rw [Registry.keys_push, List.nodup_append_comm]
    exact List.nodup_cons.mpr ⟨free, nodup⟩
  cases operation with
  | define definition =>
    constructor
    · rw [perform, define]
      split
      · exact h.linkDefinitions
      · rename_i free
        rw [Registry.contains_iff] at free
        exact push definition h.linkDefinitions free
    · rw [(index.sameBut_define definition).identifiers (by decide)]
      exact h.identifiers
  | identify name target =>
    exact ⟨h.linkDefinitions, push target h.identifiers (freeSpelling_notMem _ _)⟩
  | mark | record => exact ⟨h.linkDefinitions, h.identifiers⟩

end Step

/-- The first hit among what the members of a list give is that of its head, if that is one. -/
theorem find?_filterMap_cons {α β : Type} (f : α → Option β) (p : β → Bool) (a : α)
    (rest : List α) :
    ((a :: rest).filterMap f).find? p =
      ((f a).filter p).or ((rest.filterMap f).find? p) := by
  rw [List.filterMap_cons]
  cases f a with
  | none => rfl
  | some b =>
    rw [List.find?_cons, Option.filter_some]
    cases p b <;> rfl

section Run

variable (index : Index) (operations : List Operation)

theorem performAll_cons (operation : Operation) :
    index.performAll (operation :: operations) = (index.perform operation).performAll operations :=
  rfl

theorem extends_performAll : index.Extends (index.performAll operations) := by
  induction operations generalizing index with
  | nil => exact .refl index
  | cons operation rest ih => exact (index.extends_perform operation).trans (ih _)

theorem uniqueKeys_performAll {index : Index} (h : index.UniqueKeys) :
    (index.performAll operations).UniqueKeys :=
  List.foldlRecOn _ _ h fun _ unique operation _ => uniqueKeys_perform unique operation

/-- The first definition of a label is the one that is found. -/
theorem link?_performAll (label : String) :
    (index.performAll operations).link? label = (index.link? label).or
      ((operations.filterMap Operation.definition?).find? fun definition =>
        Text.label definition.label = Text.label label) := by
  induction operations generalizing index with
  | nil => exact (Option.or_none).symm
  | cons operation rest ih =>
    rw [performAll_cons, ih, link?_perform, Option.or_assoc, find?_filterMap_cons]

/-- What each operation adds to the end of a list, a run adds in the order of its operations. -/
theorem read_performAll {α : Type} (read : Index → List α) (added : Operation → Option α)
    (step : ∀ index operation,
      read (index.perform operation) = read index ++ (added operation).toList) :
    read (index.performAll operations) = read index ++ operations.filterMap added := by
  induction operations generalizing index with
  | nil => exact (List.append_nil _).symm
  | cons operation rest ih =>
    rw [performAll_cons, ih, step, List.append_assoc, List.filterMap_cons]
    cases added operation <;> rfl

theorem targets_performAll :
    (index.performAll operations).identifiers.entries.map (·.2) =
      index.identifiers.entries.map (·.2) ++ operations.filterMap Operation.target? :=
  read_performAll index operations (fun i => i.identifiers.entries.map (·.2)) _ targets_perform

theorem locations_performAll (kind : LocationKind) :
    (index.performAll operations).locations.ofKind kind =
      index.locations.ofKind kind ++ operations.filterMap (Operation.location? kind) :=
  read_performAll index operations (·.locations.ofKind kind) _ fun index operation =>
    index.locations_perform operation kind

theorem has_performAll (capability : Capability) :
    (index.performAll operations).presence.has capability = true ↔
      index.presence.has capability = true ∨ .mark capability ∈ operations := by
  induction operations generalizing index with
  | nil => simp [performAll]
  | cons operation rest ih =>
    rw [performAll_cons, ih, has_perform, List.mem_cons, or_assoc, eq_comm (a := operation)]

theorem identifier?_identify (name : String) (target : IdentifierTarget) :
    index.identifier? (index.identify name target).1 = none := by
  obtain ⟨suffix, -, spelled, free, -⟩ :=
    freeSpelling_least index.identifiers (Text.identifier name)
  rw [identifier?, identify, spelled]
  exact free

/-- The entry of an identifier stays where it was put, under its key. -/
theorem identified_performAll (name : String) (target : IdentifierTarget) :
    let id := (index.identify name target).1
    let after := (index.perform (.identify name target)).performAll operations
    after.identifier? id = some target ∧
      after.identifierAt? index.identifiers.size = some (id, target) := by
  intro id after
  have grown : index.identifiers.entries ++ [(id, target)] <+: after.identifiers.entries :=
    ((index.perform (.identify name target)).extends_performAll operations).identifiers
  constructor
  · have pushed : (index.identifiers.push id target).find? id = some target := by
      rw [Registry.find?_push, if_pos rfl, ← identifier?, index.identifier?_identify name target]
      rfl
    exact Registry.find?_of_prefix grown pushed
  · obtain ⟨later, whole⟩ := grown
    rw [identifierAt?, Registry.entryAt?, ← whole, List.append_assoc, Registry.size,
      List.getElem?_append_right (Nat.le_refl _), Nat.sub_self]
    rfl

end Run

/-- A name gets its plain spelling if that is free, and otherwise the least suffix that is, which is
at most the number of entries. The entry comes last and stays where it is. -/
structure IdentifiesFirstFree (index : Index) (name : String) (target : IdentifierTarget) :
    Prop where
  free : index.identifier? (index.identify name target).1 = none
  plain : index.identifier? (Text.identifier name) = none →
    (index.identify name target).1 = Text.identifier name
  suffixed : index.identifier? (Text.identifier name) ≠ none →
    ∃ k, 1 ≤ k ∧ k ≤ index.identifiers.size ∧
      (index.identify name target).1 = Text.identifier name ++ "-" ++ decimal k ∧
      ∀ j, 1 ≤ j → j < k → index.identifier? (Text.identifier name ++ "-" ++ decimal j) ≠ none
  entry : (index.identify name target).2.identifiers.entries =
    index.identifiers.entries ++ [((index.identify name target).1, target)]
  stays : ∀ later,
    let id := (index.identify name target).1
    let after := (index.perform (.identify name target)).performAll later
    after.identifier? id = some target ∧
      after.identifierAt? index.identifiers.size = some (id, target)

theorem identifiesFirstFree (index : Index) (name : String) (target : IdentifierTarget) :
    index.IdentifiesFirstFree name target := by
  obtain ⟨suffix, bound, spelled, free, least⟩ :=
    freeSpelling_least index.identifiers (Text.identifier name)
  have same : (index.identify name target).1 = spelling (Text.identifier name) suffix := spelled
  refine ⟨index.identifier?_identify name target, ?_, ?_, rfl,
    fun later => index.identified_performAll later name target⟩
  · intro plain
    cases suffix with
    | zero => exact same
    | succ k => exact absurd plain (least 0 (Nat.zero_lt_succ k))
  · intro taken
    cases suffix with
    | zero => exact absurd free taken
    | succ k =>
      refine ⟨k + 1, Nat.le_add_left 1 k, bound, same, fun j positive less => ?_⟩
      obtain ⟨i, rfl⟩ : ∃ i, j = i + 1 := ⟨j - 1, by omega⟩
      exact least (i + 1) less

theorem define_fst_performAll (history : List Operation) (definition : LinkDefinition) :
    ((performAll {} history).define definition).1 = true ↔
      ∀ earlier, .define earlier ∈ history →
        Text.label earlier.label ≠ Text.label definition.label := by
  have links := link?_performAll {} history definition.label
  have start : ({} : Index).link? definition.label = none := rfl
  rw [start, Option.none_or] at links
  rw [define_fst, links, Option.isNone_iff_eq_none, List.find?_eq_none]
  simp only [List.mem_filterMap, decide_eq_true_eq]
  constructor
  · intro fresh earlier mem
    exact fresh earlier ⟨_, mem, rfl⟩
  · rintro fresh earlier ⟨operation, mem, found⟩
    cases operation with
    | define other =>
      obtain rfl := Option.some.inj found
      exact fresh other mem
    | _ => contradiction

/-- What an index says of the operations that made it, and what it does with the next one. -/
structure Records (index : Index) (history : List Operation) : Prop where
  keys : index.UniqueKeys
  identifies : ∀ name target, index.IdentifiesFirstFree name target
  /-- A definition is taken if its label is new. -/
  defines : ∀ definition, (index.define definition).1 = true ↔
    ∀ earlier, .define earlier ∈ history →
      Text.label earlier.label ≠ Text.label definition.label
  definitions : ∀ definition, (index.define definition).2.linkDefinitions.entries =
    index.linkDefinitions.entries ++
      if (index.define definition).1 = true then [(Text.label definition.label, definition)] else []
  /-- The first definition of a label is the one that is found. -/
  links : ∀ label, index.link? label =
    (history.filterMap Operation.definition?).find? fun definition =>
      Text.label definition.label = Text.label label
  targets : index.identifiers.entries.map (·.2) = history.filterMap Operation.target?
  locations : ∀ kind, index.locations.ofKind kind = history.filterMap (Operation.location? kind)
  presence : ∀ capability, index.presence.has capability = true ↔ .mark capability ∈ history
  grows : ∀ later, index.Extends (index.performAll later)
  others : ∀ operation, (index.perform operation).SameBut operation.part index

/-- Whatever came before, each registration adds at most one entry at the end of its own part under
a key that was free, and all entries stay and are found as they were. -/
theorem append_only (history : List Operation) : (performAll {} history).Records history where
  keys := uniqueKeys_performAll history ⟨List.nodup_nil, List.nodup_nil⟩
  identifies := identifiesFirstFree _
  defines := define_fst_performAll history
  definitions := entries_define _
  links := link?_performAll {} history
  targets := targets_performAll {} history
  locations kind := by
    have whole := locations_performAll {} history kind
    cases kind <;> exact whole
  presence capability := by
    have marked := has_performAll {} history capability
    have initial : ({} : Index).presence.has capability = false := by cases capability <;> rfl
    rw [initial] at marked
    simpa using marked
  grows := extends_performAll _
  others := sameBut_perform _

end Index
end Quire
