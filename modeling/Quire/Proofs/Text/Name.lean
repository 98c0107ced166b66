import Quire.Proofs.Text.Blank
import Quire.Proofs.Text.Lowercase
import Quire.Text.Name

/-!
# The characters of names

An identifier is made of words with dashes between them, and a word of the lowercase of alphanumeric
characters. Among other things there is no full stop and no slash in it.
-/

namespace Quire.Text

theorem isDashLike_of_isAlphanumeric {c : Char} (h : isAlphanumeric c = true) :
    isDashLike c = false := by
  have blanks : (blankRanges.all fun range =>
      (List.range' range.1 (range.2 + 1 - range.1)).all fun code =>
        !alphanumericRanges.contains code) = true := by
    decide +kernel
  have dashes : isAlphanumeric '-' = false ∧ isAlphanumeric '_' = false := by decide +kernel
  rw [isDashLike, Bool.or_eq_false_iff, Bool.or_eq_false_iff]
  refine ⟨⟨?_, ?_⟩, ?_⟩
  · by_contra blank
    rw [Bool.not_eq_false] at blank
    obtain ⟨range, mem, lower, upper⟩ := CodeRanges.exists_range_of_contains blank
    have codes := List.all_eq_true.mp (List.all_eq_true.mp blanks range mem) c.toNat
      (List.mem_range'_1.mpr ⟨lower, by omega⟩)
    rw [isAlphanumeric] at h
    rw [h] at codes
    exact Bool.false_ne_true codes
  · rw [beq_eq_false_iff_ne]
    rintro rfl
    exact Bool.false_ne_true (dashes.1.symm.trans h)
  · rw [beq_eq_false_iff_ne]
    rintro rfl
    exact Bool.false_ne_true (dashes.2.symm.trans h)

/-- The dot that stays above the lowercase of `İ`. -/
def dotAbove : Char := '\u0307'

theorem IsSettled.ne_dotAbove {c : Char} (h : IsSettled c) : c ≠ dotAbove := by
  rintro rfl
  have vanishes : isAlphanumeric dotAbove = false := by decide +kernel
  rw [h.1] at vanishes
  contradiction

structure IsLowercaseWord (word : List Char) : Prop where
  chars : ∀ c ∈ word, IsSettled c ∨ c = dotAbove
  usable : ∃ c ∈ word, IsSettled c

/-- The words between the dashes of the identifier of a name. -/
def identifierParts (name : String) : List (List Char) :=
  match identifierWords name.toList with
  | [] => [unnamed.toList]
  | words => words.map (·.flatMap lowercase)

theorem toList_identifier (name : String) :
    (identifier name).toList = ['-'].intercalate (identifierParts name) := by
  rw [identifier, identifierParts]
  cases identifierWords name.toList with
  | nil => rw [List.intercalate_singleton]
  | cons => rw [String.toList_ofList]

theorem identifierParts_ne_nil (name : String) : identifierParts name ≠ [] := by
  rw [identifierParts]
  cases identifierWords name.toList <;> exact List.cons_ne_nil _ _

theorem mem_lowercase {c d : Char} (h : isAlphanumeric c = true) (mem : d ∈ lowercase c) :
    IsSettled d ∨ d = dotAbove ∧ c = 'İ' := by
  by_cases dotted : c = 'İ'
  · subst dotted
    rcases List.mem_cons.mp mem with rfl | last
    · exact .inl (by decide +kernel)
    · exact .inr ⟨List.mem_singleton.mp last, rfl⟩
  · obtain ⟨lower, settled, only⟩ := lowercase_settled h dotted
    rw [only, List.mem_singleton] at mem
    exact .inl (mem ▸ settled)

theorem exists_settled_lowercase {c : Char} (h : isAlphanumeric c = true) :
    ∃ d ∈ lowercase c, IsSettled d := by
  by_cases dotted : c = 'İ'
  · subst dotted
    exact ⟨'i', List.mem_cons_self, by decide +kernel⟩
  · obtain ⟨lower, settled, only⟩ := lowercase_settled h dotted
    exact ⟨lower, by rw [only]; exact List.mem_singleton.mpr rfl, settled⟩

theorem isLowercaseWord_flatMap {word : List Char} (nonempty : word ≠ [])
    (usable : ∀ c ∈ word, isAlphanumeric c = true) :
    IsLowercaseWord (word.flatMap lowercase) := by
  constructor
  · intro d mem
    obtain ⟨c, inWord, mem⟩ := List.mem_flatMap.mp mem
    exact (mem_lowercase (usable c inWord) mem).imp_right And.left
  · obtain ⟨c, rest, rfl⟩ := List.exists_cons_of_ne_nil nonempty
    obtain ⟨d, mem, settled⟩ := exists_settled_lowercase (usable c List.mem_cons_self)
    exact ⟨d, List.mem_flatMap.mpr ⟨c, List.mem_cons_self, mem⟩, settled⟩

/-- The words of a name hold its alphanumeric characters. -/
theorem mem_identifierWords {cs word : List Char} (h : word ∈ identifierWords cs) {c : Char}
    (mem : c ∈ word) : c ∈ cs ∧ isAlphanumeric c = true := by
  obtain ⟨kept, solid⟩ := mem_fields_iff.mp ⟨word, h, mem⟩
  rw [List.mem_filter, solid, Bool.or_false] at kept
  exact kept

theorem isLowercaseWord_of_mem_parts {name : String} {part : List Char}
    (h : part ∈ identifierParts name) : IsLowercaseWord part := by
  rw [identifierParts] at h
  split at h
  · have settled : (unnamed.toList.all fun c => decide (IsSettled c)) = true := by
      decide +kernel
    have chars : ∀ c ∈ unnamed.toList, IsSettled c := fun c mem =>
      of_decide_eq_true (List.all_eq_true.mp settled c mem)
    rw [List.mem_singleton.mp h]
    exact ⟨fun c mem => .inl (chars c mem), 's', by decide, chars 's' (by decide)⟩
  · obtain ⟨word, mem, rfl⟩ := List.mem_map.mp h
    exact isLowercaseWord_flatMap (ne_nil_of_mem_fields mem) fun c inside =>
      (mem_identifierWords mem inside).2

theorem mem_intercalate {sep : List Char} {parts : List (List Char)} {c : Char}
    (h : c ∈ sep.intercalate parts) : c ∈ sep ∨ ∃ part ∈ parts, c ∈ part := by
  induction parts with
  | nil => simp at h
  | cons first rest ih =>
    cases rest with
    | nil => exact .inr ⟨first, List.mem_cons_self, by simpa using h⟩
    | cons second rest =>
      rw [List.intercalate_cons_cons, List.mem_append, List.mem_append] at h
      rcases h with (mem | mem) | mem
      · exact .inr ⟨first, List.mem_cons_self, mem⟩
      · exact .inl mem
      · rcases ih mem with mem | ⟨part, inRest, mem⟩
        · exact .inl mem
        · exact .inr ⟨part, List.mem_cons_of_mem _ inRest, mem⟩

theorem mem_intercalate_of_mem {sep : List Char} {parts : List (List Char)} {part : List Char}
    {c : Char} (h : part ∈ parts) (mem : c ∈ part) : c ∈ sep.intercalate parts := by
  induction parts with
  | nil => contradiction
  | cons first rest ih =>
    cases rest with
    | nil =>
      rw [List.mem_singleton] at h
      simpa [h] using mem
    | cons second rest =>
      rw [List.intercalate_cons_cons, List.mem_append, List.mem_append]
      rcases List.mem_cons.mp h with rfl | later
      · exact .inl (.inl mem)
      · exact .inr (ih later)

theorem mem_identifier {name : String} {c : Char} (h : c ∈ (identifier name).toList) :
    c = '-' ∨ IsSettled c ∨ c = dotAbove := by
  rw [toList_identifier] at h
  rcases mem_intercalate h with dash | ⟨part, mem, inside⟩
  · exact .inl (List.mem_singleton.mp dash)
  · exact .inr ((isLowercaseWord_of_mem_parts mem).chars c inside)

theorem identifier_ne_nil (name : String) : (identifier name).toList ≠ [] := by
  obtain ⟨part, rest, found⟩ := List.exists_cons_of_ne_nil (identifierParts_ne_nil name)
  have mem : part ∈ identifierParts name := found ▸ List.mem_cons_self
  obtain ⟨c, inside, -⟩ := (isLowercaseWord_of_mem_parts mem).usable
  rw [toList_identifier]
  exact List.ne_nil_of_mem (mem_intercalate_of_mem mem inside)

/-- What is neither a dash nor settled nor a dot above is not in an identifier. -/
theorem notMem_identifier {mark : Char} (h : ¬ (mark = '-' ∨ IsSettled mark ∨ mark = dotAbove))
    (name : String) : mark ∉ (identifier name).toList :=
  fun mem => h (mem_identifier mem)

theorem stop_notMem_identifier (name : String) : '.' ∉ (identifier name).toList :=
  notMem_identifier (by decide +kernel) name

theorem slash_notMem_identifier (name : String) : '/' ∉ (identifier name).toList :=
  notMem_identifier (by decide +kernel) name

theorem nul_notMem_identifier (name : String) : '\x00' ∉ (identifier name).toList :=
  notMem_identifier (by decide +kernel) name

end Quire.Text
