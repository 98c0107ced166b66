import Quire.Proofs.Storage.Changes

/-!
# Moves

What moving an entry does: all that was below the one address is below the other one afterwards,
and nothing else changes.
-/

namespace Quire.Storage

variable {storage before after : Storage} {source target : Address}

/-- An entry is carried to a place of its own, with all below it. -/
structure Moves (source target : Address) (before after : Storage) : Prop where
  current : after.current = before.current
  there : (before.node? source).isSome
  above : before.node? target.dropLast = some .directory
  apart : isWithin source target = false ∧ isWithin target source = false
  vacant : ∀ at_, isWithin target at_ = true → at_ ≠ target → before.node? at_ = none
  nodes : ∀ at_, after.node? at_ =
    if isWithin target at_ then before.node? (source ++ at_.drop target.length)
    else if isWithin source at_ then none
    else before.node? at_

theorem isWithin_of_both {a b at_ : Address} (h : isWithin a at_ = true)
    (k : isWithin b at_ = true) : isWithin a b = true ∨ isWithin b a = true := by
  rw [isWithin_iff, isWithin_iff]
  exact List.prefix_or_prefix_of_prefix (isWithin_iff.mp h) (isWithin_iff.mp k)

/-- What lies below one of two separate addresses does not lie below the other one. -/
theorem not_isWithin_append {a b : Address}
    (apart : isWithin a b = false ∧ isWithin b a = false) (below : Address) :
    isWithin b (a ++ below) = false := by
  by_contra inside
  rw [Bool.not_eq_false] at inside
  rcases isWithin_of_both (isWithin_append a below) inside with h | h
  · rw [apart.1] at h
    contradiction
  · rw [apart.2] at h
    contradiction

/-- Two addresses of one length are the same or separate. -/
theorem apart_of_ne {a b : Address} (length : a.length = b.length) (other : a ≠ b) :
    isWithin a b = false ∧ isWithin b a = false := by
  constructor
  · by_contra inside
    exact other (eq_of_isWithin (by simpa using inside) length.ge)
  · by_contra inside
    exact other (eq_of_isWithin (by simpa using inside) length.le).symm

/-- Clearing a place for an entry and carrying it there. -/
theorem moves_relocate (there : (before.node? source).isSome)
    (above : before.node? target.dropLast = some .directory)
    (apart : isWithin source target = false)
    (vacant : ∀ at_, isWithin target at_ = true → at_ ≠ target → before.node? at_ = none) :
    Moves source target before ((before.removeAt target).relocate source target) := by
  have other : source ≠ target := by
    rintro rfl
    rw [isWithin_iff.mpr (List.prefix_refl _)] at apart
    contradiction
  have apart : isWithin source target = false ∧ isWithin target source = false := by
    refine ⟨apart, ?_⟩
    by_contra inside
    rw [Bool.not_eq_false] at inside
    rw [vacant source inside other] at there
    contradiction
  have hs : source ≠ [] := by
    rintro rfl
    exact absurd apart.1 (by simp [isWithin])
  have ht : target ≠ [] := by
    rintro rfl
    exact absurd apart.2 (by simp [isWithin])
  refine ⟨rfl, there, above, apart, vacant, fun at_ => ?_⟩
  rw [node?_relocate hs ht fun at_ inside => by rw [node?_removeAt ht, if_pos inside],
    node?_removeAt ht, node?_removeAt ht, not_isWithin_append apart, if_neg Bool.false_ne_true]
  split
  · rfl
  · rfl

/-- Nothing stands below a file, so no place below it can be filled. -/
theorem not_isWithin_of_file (tree : before.IsTree) {bytes : ByteArray}
    (file : before.node? source = some (.file bytes))
    (above : before.node? target.dropLast = some .directory) (other : source ≠ target) :
    isWithin source target = false := by
  have outside := tree.not_isWithin (by rw [file]; nofun) above
  by_contra inside
  rw [Bool.not_eq_false, isWithin_iff] at inside
  have proper : target ≠ [] := by
    rintro rfl
    exact other (List.prefix_nil.mp inside)
  rw [← List.dropLast_concat_getLast proper, List.prefix_concat_iff,
    List.dropLast_concat_getLast proper] at inside
  rw [isWithin_iff.mpr (inside.resolve_left other)] at outside
  contradiction

/-- What a move comes to when it succeeds. An entry that is moved to where it is stays there. -/
theorem of_move (tree : before.IsTree) {old new : String}
    (moved : before.move old new = .ok after) :
    before.locate old = .ok (before.target old) ∧ before.locate new = .ok (before.target new) ∧
      (before.target old = before.target new ∧ after = before ∨
        Moves (before.target old) (before.target new) before after) := by
  obtain ⟨source, start, rest⟩ := bind_eq_ok moved
  obtain ⟨target, end_, rest⟩ := bind_eq_ok rest
  obtain rfl := eq_target_of_locate start
  obtain rfl := eq_target_of_locate end_
  refine ⟨start, end_, ?_⟩
  have above := above_of_locate tree end_
  dsimp only at rest
  split at rest
  · contradiction
  · split at rest
    · contradiction
    · contradiction
    · rename_i bytes file free
      split at rest
      · contradiction
      · split at rest
        · rename_i same
          exact .inl ⟨eq_of_beq same, (Except.ok.inj rest).symm⟩
        · rename_i other
          obtain rfl := Except.ok.inj rest
          refine .inr (moves_relocate (by rw [file]; rfl) above ?_ fun at_ => ?_)
          · exact not_isWithin_of_file tree file above (by simpa using other)
          · exact tree.vacant_below free
    · contradiction
    · split at rest
      · rename_i same
        exact .inl ⟨eq_of_beq same, (Except.ok.inj rest).symm⟩
      · split at rest
        · contradiction
        · split at rest
          · contradiction
          · rename_i directory _ _ apart empty
            obtain rfl := Except.ok.inj rest
            refine .inr (moves_relocate (by rw [directory]; rfl) above ?_ ?_)
            · simpa using apart
            · exact isOccupied_eq_false_iff.mp (by simpa using empty)

namespace Moves

variable (h : Moves source target before after)

include h

/-- What is in the place of the source afterwards. -/
theorem gone {at_ : Address} (inside : isWithin source at_ = true) : after.node? at_ = none := by
  rw [h.nodes, if_pos inside, if_neg]
  intro both
  obtain ⟨below, rfl⟩ := isWithin_iff.mp inside
  rw [not_isWithin_append h.apart] at both
  contradiction

theorem arrived (below : Address) :
    after.node? (target ++ below) = before.node? (source ++ below) := by
  rw [h.nodes, if_pos (isWithin_append target below), List.drop_left]

theorem elsewhere {at_ : Address} (hs : isWithin source at_ = false)
    (ht : isWithin target at_ = false) : after.node? at_ = before.node? at_ := by
  rw [h.nodes, ht, hs, if_neg Bool.false_ne_true, if_neg Bool.false_ne_true]

/-- Everything stands in a directory after a move, too. -/
theorem tree (tree : before.IsTree) : after.IsTree := by
  intro top name there
  cases arrives : isWithin target top with
  | true =>
    obtain ⟨below, rfl⟩ := isWithin_iff.mp arrives
    rw [List.append_assoc, h.arrived, ← List.append_assoc] at there
    rw [h.arrived]
    exact tree _ _ there
  | false =>
    cases leaves : isWithin source top with
    | true =>
      rw [h.gone (isWithin_trans leaves (isWithin_append top [name]))] at there
      contradiction
    | false =>
      rw [h.elsewhere leaves arrives]
      by_cases new : top ++ [name] = target
      · have above := h.above
        rwa [← new, List.dropLast_concat] at above
      · refine tree top name ?_
        rw [h.nodes] at there
        have inner : isWithin target (top ++ [name]) = false := by
          by_contra inside
          rw [Bool.not_eq_false, isWithin_iff, List.prefix_concat_iff] at inside
          rcases inside with same | inside
          · exact new same.symm
          · rw [isWithin_iff.mpr inside] at arrives
            contradiction
        rw [inner, if_neg Bool.false_ne_true] at there
        split at there
        · contradiction
        · exact there

end Moves

end Quire.Storage
