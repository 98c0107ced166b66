import Quire.Registry

/-!
# Lookup in registries

What is found under a key, and what an insertion changes about it. What was found once is found in
every registry that goes on from there.
-/

namespace Quire.Registry

variable {α : Type}

theorem isSome_find? (r : Registry α) (key : String) : (r.find? key).isSome = r.contains key := by
  rw [find?, Option.isSome_map, contains, Bool.eq_iff_iff]
  simp [List.find?_isSome]

theorem find?_push (r : Registry α) (key other : String) (value : α) :
    (r.push key value).find? other =
      (r.find? other).or (if key = other then some value else none) := by
  rw [push, find?, find?, List.find?_append, Option.map_or]
  by_cases same : key = other
  · subst same
    simp
  · simp [same]

theorem find?_of_prefix {r s : Registry α} (h : r.entries <+: s.entries) {key : String} {value : α}
    (found : r.find? key = some value) : s.find? key = some value := by
  obtain ⟨later, whole⟩ := h
  rw [find?, Option.map_eq_some_iff] at found
  obtain ⟨entry, first, rfl⟩ := found
  rw [find?, ← whole, List.find?_append, first]
  rfl

theorem find?_replace (entries : List (String × α)) (key other : String) (value : α) :
    (⟨entries.map fun e => if e.1 == key then (key, value) else e⟩ : Registry α).find? other =
      if key = other then (find? ⟨entries⟩ other).map fun _ => value
      else find? ⟨entries⟩ other := by
  induction entries with
  | nil => simp [find?]
  | cons e rest ih =>
    obtain ⟨k, v⟩ := e
    simp only [find?, List.map_cons, List.find?_cons] at ih ⊢
    by_cases here : k = key
    · subst here
      rw [beq_self_eq_true, if_pos rfl]
      by_cases found : k = other
      · simp [found]
      · rw [beq_false_of_ne found]
        exact ih
    · rw [beq_false_of_ne here, if_neg Bool.false_ne_true]
      by_cases found : k = other
      · simp [← found, Ne.symm here]
      · rw [beq_false_of_ne found]
        exact ih

/-- The last value under a key is found, and other keys keep theirs. -/
@[simp]
theorem find?_insert (r : Registry α) (key other : String) (value : α) :
    (r.insert key value).find? other = if key = other then some value else r.find? other := by
  rw [insert]
  split
  · rename_i there
    rw [find?_replace]
    by_cases same : key = other
    · subst same
      rw [← isSome_find?] at there
      obtain ⟨old, found⟩ := Option.isSome_iff_exists.mp there
      simp [found]
    · rw [if_neg same, if_neg same]
  · rename_i absent
    rw [← isSome_find?, Option.not_isSome_iff_eq_none] at absent
    simp only [find?, Option.map_eq_none_iff] at absent ⊢
    by_cases same : key = other
    · subst same
      simp [push, List.find?_append, absent]
    · simp [push, List.find?_append, same]

end Quire.Registry
