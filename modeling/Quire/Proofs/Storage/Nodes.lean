import Mathlib.Data.List.Find
import Mathlib.Data.List.Induction
import Mathlib.Tactic.ByContra
import Mathlib.Logic.Function.Basic
import Quire.Storage.Basic

/-!
# What stands where

A storage is seen through the node at every address. Each change of its entries is one equation for
that view, and in a tree everything stands in a directory.
-/

namespace Quire

def StorageNode.bytes? : StorageNode → Option ByteArray
  | .file bytes => some bytes
  | .directory => none

namespace Storage

variable {storage : Storage}

theorem isWithin_iff {top at_ : Address} : isWithin top at_ = true ↔ top <+: at_ :=
  List.isPrefixOf_iff_prefix

theorem isWithin_append (top below : Address) : isWithin top (top ++ below) = true :=
  isWithin_iff.mpr (List.prefix_append top below)

theorem append_drop_of_isWithin {top at_ : Address} (h : isWithin top at_ = true) :
    top ++ at_.drop top.length = at_ := by
  obtain ⟨below, rfl⟩ := isWithin_iff.mp h
  rw [List.drop_left]

theorem ne_nil_of_isWithin {top at_ : Address} (proper : top ≠ []) (h : isWithin top at_ = true) :
    at_ ≠ [] := by
  rintro rfl
  exact proper (List.prefix_nil.mp (isWithin_iff.mp h))

/-- Two addresses of one length lie within each other only when they are the same. -/
theorem eq_of_isWithin {top at_ : Address} (h : isWithin top at_ = true)
    (length : at_.length ≤ top.length) : top = at_ :=
  (isWithin_iff.mp h).eq_of_length_le length

theorem isWithin_trans {a b c : Address} (h : isWithin a b = true) (k : isWithin b c = true) :
    isWithin a c = true :=
  isWithin_iff.mpr ((isWithin_iff.mp h).trans (isWithin_iff.mp k))

/-- What is outside an address is outside all that lies in it. -/
theorem not_isWithin_of_isWithin {a b at_ : Address} (h : isWithin a b = true)
    (outside : isWithin a at_ = false) : isWithin b at_ = false := by
  by_contra inside
  rw [Bool.not_eq_false] at inside
  rw [isWithin_trans h inside] at outside
  contradiction

theorem not_isWithin_of_length {top at_ : Address} (shorter : at_.length < top.length) :
    isWithin top at_ = false := by
  by_contra inside
  rw [Bool.not_eq_false, isWithin_iff] at inside
  exact absurd inside.length_le (Nat.not_le.mpr shorter)

@[simp]
theorem node?_root : storage.node? [] = some .directory := rfl

theorem node?_of_ne_nil {at_ : Address} (proper : at_ ≠ []) :
    storage.node? at_ = (storage.entries.find? (·.1 == at_)).map (·.2) :=
  if_neg (by simpa using proper)

theorem node?_eq_none_iff {at_ : Address} (proper : at_ ≠ []) :
    storage.node? at_ = none ↔ ∀ e ∈ storage.entries, e.1 ≠ at_ := by
  simp [node?_of_ne_nil proper]

/-- What is found among the entries that are kept. -/
theorem find?_kept (kept : Address → Bool) (entries : List (Address × StorageNode))
    (at_ : Address) : (entries.filter fun e => kept e.1).find? (·.1 == at_) =
      if kept at_ then entries.find? (·.1 == at_) else none := by
  induction entries with
  | nil => simp
  | cons e rest ih =>
    by_cases here : e.1 = at_
    · subst here
      cases stays : kept e.1 <;> simp [stays, ih]
    · cases stays : kept e.1 <;> simp [stays, here, ih]

theorem node?_put {at_ : Address} (proper : at_ ≠ []) (node : StorageNode) (other : Address) :
    (storage.put at_ node).node? other =
      if other = at_ then some node else storage.node? other := by
  by_cases root : other = []
  · subst root
    simp [Ne.symm proper]
  · rw [node?_of_ne_nil root, node?_of_ne_nil root, put, List.find?_append,
      find?_kept (· != at_)]
    by_cases same : other = at_
    · simp [same]
    · simp [same, Ne.symm same]

theorem node?_removeAt {top : Address} (proper : top ≠ []) (other : Address) :
    (storage.removeAt top).node? other =
      if isWithin top other then none else storage.node? other := by
  by_cases root : other = []
  · subst root
    rw [if_neg fun inside => ne_nil_of_isWithin proper inside rfl]
    rfl
  · rw [node?_of_ne_nil root, node?_of_ne_nil root, removeAt, find?_kept (!isWithin top ·)]
    cases isWithin top other <;> simp

def carried (source target at_ : Address) : Address :=
  if isWithin source at_ then target ++ at_.drop source.length else at_

/-- What is found where exactly the entries of one address are carried. -/
theorem node?_relocate_of_iff {source target at_ other : Address} (hat : at_ ≠ [])
    (hother : other ≠ [])
    (same : ∀ e ∈ storage.entries, carried source target e.1 = other ↔ e.1 = at_) :
    (storage.relocate source target).node? other = storage.node? at_ := by
  have entries : (storage.relocate source target).entries =
      storage.entries.map fun e => (carried source target e.1, e.2) := rfl
  rw [node?_of_ne_nil hother, node?_of_ne_nil hat, entries, List.find?_map, Option.map_map]
  refine congrArg _ (List.find?_congr fun e mem => ?_)
  rw [Function.comp_apply, Bool.eq_iff_iff, beq_iff_eq, beq_iff_eq]
  exact same e mem

/-- Entries that are carried into a vacant place are found there, and no longer where they were. -/
theorem node?_relocate {source target : Address} (hs : source ≠ []) (ht : target ≠ [])
    (vacant : ∀ at_, isWithin target at_ = true → storage.node? at_ = none) (other : Address) :
    (storage.relocate source target).node? other =
      if isWithin target other then storage.node? (source ++ other.drop target.length)
      else if isWithin source other then none
      else storage.node? other := by
  have free : ∀ e ∈ storage.entries, isWithin target e.1 = false := by
    intro e mem
    by_contra inside
    rw [Bool.not_eq_false] at inside
    exact (node?_eq_none_iff (ne_nil_of_isWithin ht inside)).mp (vacant e.1 inside) e mem rfl
  have arrived : ∀ at_, isWithin source at_ = true →
      isWithin target (carried source target at_) = true := by
    intro at_ inside
    rw [carried, if_pos inside]
    exact isWithin_append ..
  by_cases root : other = []
  · subst root
    rw [if_neg fun inside => ne_nil_of_isWithin ht inside rfl,
      if_neg fun inside => ne_nil_of_isWithin hs inside rfl]
    rfl
  cases inside : isWithin target other with
  | true =>
    refine node?_relocate_of_iff (by simp [hs]) root fun e mem => ?_
    rw [carried]
    split
    · rename_i leaves
      rw [← append_drop_of_isWithin inside, List.append_cancel_left_eq,
        ← append_drop_of_isWithin leaves]
      simp
    · rename_i stays
      refine ⟨fun same => ?_, fun same => ?_⟩
      · rw [← same, free e mem] at inside
        contradiction
      · rw [same, isWithin_append] at stays
        contradiction
  | false =>
    cases leaves : isWithin source other with
    | true =>
      refine (node?_eq_none_iff root).mpr fun e mem same => ?_
      obtain ⟨old, -, rfl⟩ := List.mem_map.mp mem
      change carried source target old.1 = other at same
      by_cases moved : isWithin source old.1 = true
      · rw [← same, arrived _ moved] at inside
        contradiction
      · rw [carried, if_neg moved] at same
        rw [same] at moved
        contradiction
    | false =>
      refine node?_relocate_of_iff root root fun e mem => ?_
      by_cases moved : isWithin source e.1 = true
      · refine ⟨fun same => ?_, fun same => ?_⟩
        · rw [← same, arrived _ moved] at inside
          contradiction
        · rw [same, leaves] at moved
          contradiction
      · rw [carried, if_neg moved]

theorem isOccupied_eq_false_iff {top : Address} :
    storage.isOccupied top = false ↔
      ∀ at_, isWithin top at_ = true → at_ ≠ top → storage.node? at_ = none := by
  rw [isOccupied, List.any_eq_false]
  constructor
  · intro vacant at_ inside other
    have proper : at_ ≠ [] := by
      rintro rfl
      exact other (List.prefix_nil.mp (isWithin_iff.mp inside)).symm
    refine (node?_eq_none_iff proper).mpr fun e mem same => vacant e mem ?_
    subst same
    simp [inside, other]
  · intro vacant e mem occupied
    rw [Bool.and_eq_true, bne_iff_ne] at occupied
    have proper : e.1 ≠ [] := by
      intro root
      rw [root] at occupied
      exact occupied.2 (List.prefix_nil.mp (isWithin_iff.mp occupied.1)).symm
    exact (node?_eq_none_iff proper).mp (vacant e.1 occupied.1 occupied.2) e mem rfl

/-- Everything stands in a directory. -/
def IsTree (storage : Storage) : Prop :=
  ∀ (at_ : Address) (name : String), (storage.node? (at_ ++ [name])).isSome →
    storage.node? at_ = some .directory

namespace IsTree

variable (tree : storage.IsTree)

include tree

theorem directory_above {at_ below : Address} (h : (storage.node? (at_ ++ below)).isSome)
    (proper : below ≠ []) : storage.node? at_ = some .directory := by
  induction below using List.reverseRecOn with
  | nil => contradiction
  | append_singleton front name ih =>
    rw [← List.append_assoc] at h
    have above := tree _ _ h
    by_cases last : front = []
    · rwa [last, List.append_nil] at above
    · exact ih (by rw [above]; rfl) last

theorem directory_within {top at_ : Address} (h : (storage.node? at_).isSome)
    (inside : isWithin top at_ = true) (other : at_ ≠ top) :
    storage.node? top = some .directory := by
  rw [← append_drop_of_isWithin inside] at h other
  refine tree.directory_above h fun same => other ?_
  rw [same, List.append_nil]

theorem directory_dropLast {at_ : Address} (h : (storage.node? at_).isSome) :
    storage.node? at_.dropLast = some .directory := by
  by_cases root : at_ = []
  · rw [root]
    rfl
  · rw [← List.dropLast_concat_getLast root] at h
    exact tree _ _ h

/-- Nothing stands below what is no directory. -/
theorem vacant_below {top at_ : Address} (h : storage.node? top ≠ some .directory)
    (inside : isWithin top at_ = true) (other : at_ ≠ top) : storage.node? at_ = none := by
  by_contra some
  exact h (tree.directory_within (Option.isSome_iff_ne_none.mpr some) inside other)

/-- Directories stand only in directories. -/
theorem not_isWithin {top at_ : Address} (h : storage.node? top ≠ some .directory)
    (there : storage.node? at_ = some .directory) : isWithin top at_ = false := by
  by_contra inside
  by_cases same : at_ = top
  · exact h (same ▸ there)
  · rw [tree.vacant_below h (by simpa using inside) same] at there
    contradiction

theorem vacant_within {top at_ : Address} (h : storage.node? top = none)
    (inside : isWithin top at_ = true) : storage.node? at_ = none := by
  by_cases same : at_ = top
  · rw [same, h]
  · exact tree.vacant_below (by rw [h]; nofun) inside same

end IsTree

/-- It is enough that every entry stands in a directory. -/
theorem isTree_iff : storage.IsTree ↔
    ∀ e ∈ storage.entries, storage.node? e.1.dropLast = some .directory := by
  constructor
  · intro tree e mem
    by_cases root : e.1 = []
    · rw [root]
      rfl
    · refine tree.directory_dropLast ?_
      rw [Option.isSome_iff_ne_none, Ne, node?_eq_none_iff root]
      exact fun absent => absent e mem rfl
  · intro above at_ name there
    rw [node?_of_ne_nil (by simp), Option.isSome_map, List.find?_isSome] at there
    obtain ⟨e, mem, same⟩ := there
    have parent := above e mem
    rwa [eq_of_beq same, List.dropLast_concat] at parent

instance : Decidable storage.IsTree := decidable_of_iff _ isTree_iff.symm

def file? (storage : Storage) (at_ : Address) : Option ByteArray :=
  (storage.node? at_).bind StorageNode.bytes?

theorem file?_eq_some_iff {at_ : Address} {bytes : ByteArray} :
    storage.file? at_ = some bytes ↔ storage.node? at_ = some (.file bytes) := by
  rw [file?, Option.bind_eq_some_iff]
  constructor
  · rintro ⟨node, found, same⟩
    cases node with
    | file content =>
      obtain rfl := Option.some.inj same
      exact found
    | directory => contradiction
  · exact fun found => ⟨_, found, rfl⟩

theorem file?_put {at_ : Address} (proper : at_ ≠ []) (node : StorageNode) :
    (storage.put at_ node).file? = Function.update storage.file? at_ node.bytes? := by
  funext other
  rw [Function.update_apply, file?, node?_put proper]
  split
  · rfl
  · rfl

end Storage
end Quire
