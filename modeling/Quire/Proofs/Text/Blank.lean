import Mathlib.Data.List.Basic
import Quire.Text.Blank

/-!
# Words and the spaces between them

A text without white space is not trimmed, and words with single spaces between them are found
again.
-/

namespace Quire.Text

theorem trim_of_notBlank {cs : List Char} (h : ∀ c ∈ cs, isBlank c = false) : trim cs = cs := by
  have kept : ∀ ds : List Char, (∀ c ∈ ds, isBlank c = false) → ds.dropWhile isBlank = ds := by
    intro ds notBlank
    cases ds with
    | nil => rfl
    | cons c rest =>
      have first : isBlank c = false := notBlank c List.mem_cons_self
      exact List.dropWhile_cons_of_neg (by rw [first]; exact Bool.false_ne_true)
  unfold trim
  rw [kept cs h, kept cs.reverse (fun c mem => h c (List.mem_reverse.mp mem)), List.reverse_reverse]

variable {separates : Char → Bool}

theorem fieldsAfter_append {part : List Char} (solid : ∀ c ∈ part, separates c = false)
    (run rest : List Char) : fieldsAfter separates run (part ++ rest) =
      fieldsAfter separates (part.reverse ++ run) rest := by
  induction part generalizing run with
  | nil => rfl
  | cons c part ih =>
    have first : ¬ separates c = true := by
      rw [solid c List.mem_cons_self]
      exact Bool.false_ne_true
    rw [List.cons_append, fieldsAfter, if_neg first,
      ih (fun d mem => solid d (List.mem_cons_of_mem c mem)), List.reverse_cons, List.append_assoc]
    rfl

theorem closeRun_reverse {part : List Char} (some : part ≠ []) :
    closeRun part.reverse = [part] := by
  rw [closeRun, if_neg (by simpa using some), List.reverse_reverse]

theorem mem_closeRun_iff {run : List Char} {c : Char} :
    (∃ field ∈ closeRun run, c ∈ field) ↔ c ∈ run := by
  rw [closeRun]
  split
  · rename_i empty
    simp [List.isEmpty_iff.mp empty]
  · simp

/-- The fields hold the run before them and all characters that do not separate. -/
theorem mem_fieldsAfter_iff {run cs : List Char} {c : Char} :
    (∃ field ∈ fieldsAfter separates run cs, c ∈ field) ↔
      c ∈ run ∨ c ∈ cs ∧ separates c = false := by
  induction cs generalizing run with
  | nil => simp [fieldsAfter, mem_closeRun_iff]
  | cons d rest ih =>
    rw [fieldsAfter]
    split
    · rename_i parts
      simp only [List.mem_append, or_and_right, exists_or, mem_closeRun_iff, ih, List.not_mem_nil,
        false_or, List.mem_cons]
      refine or_congr_right ⟨.inr, fun either => either.resolve_left ?_⟩
      rintro ⟨rfl, solid⟩
      rw [parts] at solid
      contradiction
    · rename_i solid
      have own : c = d ↔ c = d ∧ separates c = false :=
        (and_iff_left_of_imp fun same => same ▸ Bool.not_eq_true _ ▸ solid).symm
      rw [ih, List.mem_cons, List.mem_cons, or_and_right, ← own, or_assoc, or_left_comm]

theorem mem_fields_iff {cs : List Char} {c : Char} :
    (∃ field ∈ fields separates cs, c ∈ field) ↔ c ∈ cs ∧ separates c = false := by
  rw [fields, mem_fieldsAfter_iff, or_iff_right List.not_mem_nil]

theorem ne_nil_of_mem_fields {cs field : List Char}
    (h : field ∈ fields separates cs) : field ≠ [] := by
  have closed : ∀ run : List Char, field ∈ closeRun run → field ≠ [] := by
    intro run inside
    rw [closeRun] at inside
    split at inside
    · contradiction
    · rename_i nonempty
      obtain rfl := List.mem_singleton.mp inside
      simpa using nonempty
  have after : ∀ run : List Char, field ∈ fieldsAfter separates run cs → field ≠ [] := by
    clear h
    induction cs with
    | nil => exact closed
    | cons c rest ih =>
      intro run inside
      rw [fieldsAfter] at inside
      split at inside
      · rcases List.mem_append.mp inside with first | later
        · exact closed run first
        · exact ih [] later
      · exact ih (c :: run) inside
  exact after [] h

/-- Cutting at single separators undoes putting them in. -/
theorem fields_intercalate {mark : Char} (h : separates mark = true) {parts : List (List Char)}
    (solid : ∀ part ∈ parts, part ≠ [] ∧ ∀ c ∈ part, separates c = false) :
    fields separates ([mark].intercalate parts) = parts := by
  unfold fields
  induction parts with
  | nil => rfl
  | cons part parts ih =>
    obtain ⟨some, inside⟩ := solid part List.mem_cons_self
    have later := ih fun p mem => solid p (List.mem_cons_of_mem part mem)
    cases parts with
    | nil =>
      rw [List.intercalate_singleton, ← List.append_nil part, fieldsAfter_append inside,
        List.append_nil, List.append_nil]
      exact closeRun_reverse some
    | cons next parts =>
      rw [List.intercalate_cons_cons, List.append_assoc, fieldsAfter_append inside,
        List.append_nil, List.singleton_append, fieldsAfter, if_pos h, closeRun_reverse some, later,
        List.singleton_append]

end Quire.Text
