/-!
# Search in a text

The first occurrence of a text in another one.
-/

namespace Quire.Text

/-- What comes before and after the first occurrence of a pattern. -/
def breakOn (pattern : List Char) : List Char → Option (List Char × List Char)
  | [] => if pattern.isEmpty then some ([], []) else none
  | c :: rest =>
    if pattern.isPrefixOf (c :: rest) then some ([], (c :: rest).drop pattern.length)
    else (breakOn pattern rest).map fun (before, after) => (c :: before, after)

theorem length_of_breakOn {pattern cs before after : List Char}
    (h : breakOn pattern cs = some (before, after)) :
    before.length + pattern.length + after.length = cs.length := by
  induction cs generalizing before with
  | nil =>
    cases pattern <;> simp_all [breakOn]
  | cons c rest ih =>
    rw [breakOn] at h
    split at h
    · rename_i front
      have := (List.isPrefixOf_iff_prefix.1 front).length_le
      simp only [Option.some.injEq, Prod.mk.injEq] at h
      obtain ⟨rfl, rfl⟩ := h
      simp only [List.length_drop, List.length_nil]
      omega
    · obtain ⟨⟨b, a⟩, found, eq⟩ := Option.map_eq_some_iff.1 h
      simp only [Prod.mk.injEq] at eq
      obtain ⟨rfl, rfl⟩ := eq
      have := ih found
      simp only [List.length_cons]
      omega

end Quire.Text
