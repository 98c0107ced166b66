import Mathlib.Data.List.Nodup
import Quire.Proofs.Discovery.Presence
import Quire.Proofs.Text.Cut

/-!
# Identifiers

Every heading of a document registers once, in preorder, and all identifiers are different.
-/

namespace Quire

namespace Index

theorem spelling_injective (base : String) : Function.Injective (spelling base) := by
  have longer : ∀ suffix, base ≠ spelling base (suffix + 1) := by
    intro suffix same
    have lengths := congrArg String.length same
    simp only [spelling, String.length_append] at lengths
    have dash : "-".length = 1 := rfl
    omega
  intro m n same
  cases m with
  | zero =>
    cases n with
    | zero => rfl
    | succ n => exact absurd same (longer n)
  | succ m =>
    cases n with
    | zero => exact absurd same.symm (longer m)
    | succ n =>
      have digits : decimal (m + 1) = decimal (n + 1) := by
        simpa [spelling] using same
      exact decimal_injective digits

end Index

namespace Registry

variable {α : Type}

theorem contains_iff (r : Registry α) (key : String) : r.contains key = true ↔ key ∈ r.keys := by
  rw [contains, List.any_eq_true, keys, List.mem_map]
  simp

theorem keys_push (r : Registry α) (key : String) (value : α) :
    (r.push key value).keys = r.keys ++ [key] := by
  rw [keys, push, List.map_append]
  rfl

end Registry

namespace Index

variable {α : Type} (taken : Registry α) (base : String)

/-- If the search ends at a spelling that is taken, all that it came by are. -/
theorem contains_of_freeSuffix (steps suffix : Nat)
    (h : taken.contains (spelling base (freeSuffix taken base steps suffix)) = true) (i : Nat)
    (lower : suffix ≤ i) (upper : i ≤ suffix + steps) :
    taken.contains (spelling base i) = true := by
  induction steps generalizing suffix with
  | zero =>
    obtain rfl : i = suffix := by omega
    exact h
  | succ steps ih =>
    rw [freeSuffix] at h
    split at h
    · rename_i first
      by_cases here : i = suffix
      · subst here
        exact first
      · exact ih (suffix + 1) h (by omega) (by omega)
    · contradiction

theorem freeSpelling_notMem : freeSpelling taken base ∉ taken.keys := by
  intro mem
  -- the search looks at more spellings than there are entries, and they cannot all be taken
  have all := contains_of_freeSuffix taken base taken.size 0 ((taken.contains_iff _).mpr mem)
  have nodup : ((List.range (taken.size + 1)).map (spelling base)).Nodup :=
    List.nodup_range.map (spelling_injective base)
  have subset : (List.range (taken.size + 1)).map (spelling base) ⊆ taken.keys := by
    intro key among
    obtain ⟨i, small, rfl⟩ := List.mem_map.mp among
    rw [List.mem_range] at small
    exact (taken.contains_iff _).mp (all i (Nat.zero_le i) (by omega))
  have bound := nodup.length_le_of_subset subset
  rw [List.length_map, List.length_range, Registry.keys, List.length_map, ← Registry.size] at bound
  omega

end Index

def Node.identifierTarget? : Node → Option IdentifierTarget
  | .block (.heading depth content customId) =>
    some ⟨depth, Inline.plainTexts content, customId.isSome⟩
  | _ => none

namespace Observer

theorem targets_observeIdentifier (index : Index) (node : Node) :
    (observeIdentifier index node).identifiers.entries.map (·.2) =
      index.identifiers.entries.map (·.2) ++ node.identifierTarget?.toList := by
  cases node with
  | inline i => simp [observeIdentifier, Node.identifierTarget?]
  | block b =>
    cases b with
    | heading depth content customId =>
      simp [observeIdentifier, Node.identifierTarget?, Index.identify, Registry.push]
    | _ => simp [observeIdentifier, Node.identifierTarget?]

theorem nodup_observeIdentifier {index : Index} (h : index.identifiers.keys.Nodup) (node : Node) :
    (observeIdentifier index node).identifiers.keys.Nodup := by
  unfold observeIdentifier
  split
  · simp only [Index.identify, Registry.keys_push]
    rw [List.nodup_append_comm]
    exact List.nodup_cons.mpr ⟨Index.freeSpelling_notMem _ _, h⟩
  · exact h

theorem spelled_observeIdentifier {index : Index}
    (h : ∀ key ∈ index.identifiers.keys, ∃ name suffix,
      key = Index.spelling (Text.identifier name) suffix) (node : Node) :
    ∀ key ∈ (observeIdentifier index node).identifiers.keys, ∃ name suffix,
      key = Index.spelling (Text.identifier name) suffix := by
  unfold observeIdentifier
  split
  · intro key mem
    simp only [Index.identify, Registry.keys_push, List.mem_append, List.mem_singleton] at mem
    rcases mem with mem | rfl
    · exact h key mem
    · exact ⟨_, _, rfl⟩
  · exact h

end Observer

theorem Discovery.targets_foldl {discovery : Discovery} (h : discovery.IsStandard)
    (nodes : List Node) :
    (nodes.foldl visit discovery).index.identifiers.entries.map (·.2) =
      discovery.index.identifiers.entries.map (·.2) ++ nodes.filterMap Node.identifierTarget? := by
  induction nodes generalizing discovery with
  | nil => simp
  | cons node rest ih =>
    obtain ⟨place, observers⟩ := id h
    rw [List.foldl_cons, ih (isStandard_visit h node), index_visit observers,
      Observer.targets_observeIdentifier, List.append_assoc, List.filterMap_cons]
    cases node.identifierTarget? <;> rfl

/-- The headings register in preorder. -/
theorem Document.targets_index (document : Document) :
    document.index.identifiers.entries.map (·.2) =
      document.nodes.filterMap Node.identifierTarget? := by
  rw [index_eq_foldl, Discovery.targets_foldl Discovery.isStandard_initial]
  rfl

/-- What every heading keeps true of the identifiers is true of those of a document. -/
theorem Document.identifiers_invariant {P : Registry IdentifierTarget → Prop} (initial : P .empty)
    (step : ∀ index node,
      P index.identifiers → P (Observer.observeIdentifier index node).identifiers)
    (document : Document) : P document.index.identifiers := by
  have visit : ∀ (discovery : Discovery) (node : Node),
      discovery.IsStandard ∧ P discovery.index.identifiers →
      (discovery.visit node).IsStandard ∧ P (discovery.visit node).index.identifiers := by
    rintro discovery node ⟨standard, h⟩
    obtain ⟨place, observers⟩ := id standard
    refine ⟨Discovery.isStandard_visit standard node, ?_⟩
    rw [Discovery.index_visit observers]
    exact step discovery.index node h
  have start : ({} : Discovery).IsStandard ∧ P (Discovery.index {}).identifiers :=
    ⟨Discovery.isStandard_initial, initial⟩
  exact (Node.walk_invariant Discovery.visit visit start).2

theorem Document.nodup_identifiers (document : Document) :
    document.index.identifiers.keys.Nodup :=
  identifiers_invariant (P := fun registry => registry.keys.Nodup) List.nodup_nil
    (fun _ node h => Observer.nodup_observeIdentifier h node) document

theorem Document.spelled_identifiers (document : Document) :
    ∀ key ∈ document.index.identifiers.keys, ∃ name suffix,
      key = Index.spelling (Text.identifier name) suffix :=
  identifiers_invariant
    (P := fun registry => ∀ key ∈ registry.keys, ∃ name suffix,
      key = Index.spelling (Text.identifier name) suffix)
    (fun _ mem => absurd mem List.not_mem_nil)
    (fun _ node h => Observer.spelled_observeIdentifier h node) document

end Quire
