import Mathlib.Data.List.Infix
import Quire.Proofs.Text.Name

/-!
# The normal form of identifiers

An identifier is one or more words with single dashes between them. Its words are lowercase and
alphanumeric but for the dots that the lowercase of `İ` brings along, and these are all that the
identifier of an identifier does without.
-/

namespace Quire.Text

/-- Dashes stand between other characters only. -/
structure SinglyDashed (cs : List Char) : Prop where
  nonempty : cs ≠ []
  not_leading : cs.head? ≠ some '-'
  not_trailing : cs.getLast? ≠ some '-'
  not_doubled : ¬ ['-', '-'] <:+: cs

section Dashes

variable {word : List Char}

theorem singlyDashed_word (nonempty : word ≠ []) (solid : '-' ∉ word) : SinglyDashed word where
  nonempty := nonempty
  not_leading := fun first => solid (List.mem_of_mem_head? first)
  not_trailing := fun last => solid (List.mem_of_getLast? last)
  not_doubled := fun inside => solid (inside.subset List.mem_cons_self)

theorem SinglyDashed.behind_word {rest : List Char} (h : SinglyDashed rest) (nonempty : word ≠ [])
    (solid : '-' ∉ word) : SinglyDashed (word ++ '-' :: rest) where
  nonempty := by simp
  not_leading := by
    rw [List.head?_append_of_ne_nil _ nonempty]
    exact (singlyDashed_word nonempty solid).not_leading
  not_trailing := by
    rw [List.getLast?_append_of_ne_nil _ (List.cons_ne_nil _ _),
      List.getLast?_cons_of_ne_nil h.nonempty]
    exact h.not_trailing
  not_doubled := by
    clear nonempty
    induction word with
    | nil =>
      intro inside
      rcases List.infix_cons_iff.mp inside with first | later
      · obtain ⟨cs, same⟩ := (List.cons_prefix_cons.mp first).2
        exact h.not_leading (by rw [← same]; rfl)
      · exact h.not_doubled later
    | cons c word ih =>
      rw [List.mem_cons, not_or] at solid
      intro inside
      rcases List.infix_cons_iff.mp inside with first | later
      · exact solid.1 (List.cons_prefix_cons.mp first).1
      · exact ih solid.2 later

theorem singlyDashed_intercalate {words : List (List Char)} (nonempty : words ≠ [])
    (solid : ∀ word ∈ words, word ≠ [] ∧ '-' ∉ word) : SinglyDashed (['-'].intercalate words) := by
  induction words with
  | nil => contradiction
  | cons word rest ih =>
    obtain ⟨some, plain⟩ := solid word List.mem_cons_self
    cases rest with
    | nil =>
      rw [List.intercalate_singleton]
      exact singlyDashed_word some plain
    | cons next rest =>
      have later := ih (List.cons_ne_nil _ _) fun w mem => solid w (List.mem_cons_of_mem _ mem)
      rw [List.intercalate_cons_cons, List.append_assoc, List.singleton_append]
      exact later.behind_word some plain

theorem filter_intercalate {p : Char → Bool} {mark : Char} (kept : p mark = true)
    (words : List (List Char)) :
    ([mark].intercalate words).filter p = [mark].intercalate (words.map (·.filter p)) := by
  induction words with
  | nil => rfl
  | cons word rest ih =>
    cases rest with
    | nil => simp
    | cons next rest =>
      rw [List.intercalate_cons_cons, List.filter_append, List.filter_append, ih,
        List.filter_cons_of_pos kept]
      simp [List.intercalate_cons_cons]

end Dashes

namespace IsLowercaseWord

variable {word : List Char}

theorem solid (h : IsLowercaseWord word) : word ≠ [] ∧ '-' ∉ word := by
  obtain ⟨c, mem, -⟩ := h.usable
  refine ⟨List.ne_nil_of_mem mem, fun dash => ?_⟩
  have settled : ¬ IsSettled '-' := by decide +kernel
  exact (h.chars '-' dash).elim settled (by decide)

/-- What an identifier keeps of a word is what is settled. -/
theorem filter_usable (h : IsLowercaseWord word) :
    word.filter (fun c => isAlphanumeric c || isDashLike c) = word.filter (· != dotAbove) := by
  have dropped : (isAlphanumeric dotAbove || isDashLike dotAbove) = false := by decide +kernel
  refine List.filter_congr fun c mem => ?_
  rcases h.chars c mem with settled | rfl
  · rw [settled.1, Bool.true_or, bne_iff_ne.mpr settled.ne_dotAbove]
  · rw [dropped, bne_self_eq_false]

theorem settled_of_mem_filter (h : IsLowercaseWord word) {c : Char}
    (mem : c ∈ word.filter (· != dotAbove)) : IsSettled c := by
  rw [List.mem_filter, bne_iff_ne] at mem
  exact (h.chars c mem.1).resolve_right mem.2

/-- What is kept is one word again, and its own lowercase. -/
theorem stays (h : IsLowercaseWord word) :
    (word.filter (· != dotAbove) ≠ [] ∧
      ∀ c ∈ word.filter (· != dotAbove), isDashLike c = false) ∧
    (word.filter (· != dotAbove)).flatMap lowercase = word.filter (· != dotAbove) := by
  obtain ⟨c, mem, settled⟩ := h.usable
  refine ⟨⟨?_, fun c mem => ?_⟩, ?_⟩
  · exact List.ne_nil_of_mem
      (List.mem_filter.mpr ⟨mem, bne_iff_ne.mpr settled.ne_dotAbove⟩)
  · exact isDashLike_of_isAlphanumeric (h.settled_of_mem_filter mem).1
  · have own : ∀ cs : List Char, (∀ c ∈ cs, IsSettled c) → cs.flatMap lowercase = cs := by
      intro cs settled
      induction cs with
      | nil => rfl
      | cons c rest ih =>
        rw [List.flatMap_cons, (settled c List.mem_cons_self).2,
          ih fun d mem => settled d (List.mem_cons_of_mem _ mem), List.singleton_append]
    exact own _ fun c => h.settled_of_mem_filter

end IsLowercaseWord

/-- The identifier of lowercase words drops the dots and nothing else. -/
theorem identifier_intercalate {parts : List (List Char)} (nonempty : parts ≠ [])
    (words : ∀ part ∈ parts, IsLowercaseWord part) :
    identifier (String.ofList (['-'].intercalate parts)) =
      String.ofList ((['-'].intercalate parts).filter (· != dotAbove)) := by
  have kept : parts.map (·.filter fun c => isAlphanumeric c || isDashLike c) =
      parts.map (·.filter (· != dotAbove)) :=
    List.map_congr_left fun part mem => (words part mem).filter_usable
  have found : identifierWords (['-'].intercalate parts) = parts.map (·.filter (· != dotAbove)) := by
    rw [identifierWords, filter_intercalate (by decide), kept]
    refine fields_intercalate (by decide) fun part mem => ?_
    obtain ⟨word, inParts, rfl⟩ := List.mem_map.mp mem
    exact (words word inParts).stays.1
  have lower : (parts.map (·.filter (· != dotAbove))).map (·.flatMap lowercase) =
      parts.map (·.filter (· != dotAbove)) := by
    rw [List.map_map]
    exact List.map_congr_left fun part mem => (words part mem).stays.2
  rw [identifier, String.toList_ofList, found, filter_intercalate (by decide)]
  split
  · rename_i none
    rw [List.map_eq_nil_iff] at none
    contradiction
  · rw [lower]

theorem identifier_identifier (name : String) :
    identifier (identifier name) =
      String.ofList ((identifier name).toList.filter (· != dotAbove)) := by
  have again := identifier_intercalate (identifierParts_ne_nil name) fun part =>
    isLowercaseWord_of_mem_parts
  rwa [← toList_identifier, String.ofList_toList] at again

/-- There is a dot in an identifier exactly if there is an `İ` in the name. -/
theorem dotAbove_mem_identifier_iff (name : String) :
    dotAbove ∈ (identifier name).toList ↔ 'İ' ∈ name.toList := by
  rw [toList_identifier]
  constructor
  · intro dot
    rcases mem_intercalate dot with dash | ⟨part, mem, inside⟩
    · exact absurd (List.mem_singleton.mp dash) (by decide)
    · rw [identifierParts] at mem
      split at mem
      · rw [List.mem_singleton.mp mem] at inside
        exact absurd inside (by decide)
      · obtain ⟨word, inWords, rfl⟩ := List.mem_map.mp mem
        obtain ⟨c, inWord, inside⟩ := List.mem_flatMap.mp inside
        obtain ⟨inName, usable⟩ := mem_identifierWords inWords inWord
        rcases mem_lowercase usable inside with settled | ⟨-, rfl⟩
        · exact absurd rfl settled.ne_dotAbove
        · exact inName
  · intro mem
    have usable : isAlphanumeric 'İ' = true := by decide +kernel
    have kept : 'İ' ∈ name.toList.filter fun c => isAlphanumeric c || isDashLike c :=
      List.mem_filter.mpr ⟨mem, by rw [usable, Bool.true_or]⟩
    obtain ⟨word, inWords, inWord⟩ :=
      mem_fields_iff.mpr ⟨kept, isDashLike_of_isAlphanumeric usable⟩
    have lower : word.flatMap lowercase ∈ identifierParts name := by
      rw [identifierParts]
      split
      · rename_i none
        rw [identifierWords] at none
        rw [none] at inWords
        contradiction
      · exact List.mem_map.mpr ⟨word, inWords, rfl⟩
    refine mem_intercalate_of_mem lower (List.mem_flatMap.mpr ⟨'İ', inWord, ?_⟩)
    exact List.mem_cons_of_mem _ List.mem_cons_self

/-- An identifier is not empty and has no dash at either end and no two in a row. All other
characters are alphanumeric, and the identifier is its own identifier, exactly if there is no `İ` in
the name: its lowercase `i` comes with a dot that is not alphanumeric, and that the identifier of
the identifier drops. It drops nothing else. -/
theorem identifier_normal (name : String) :
    SinglyDashed (identifier name).toList ∧
      ((∀ c ∈ (identifier name).toList, isAlphanumeric c = true ∨ c = '-') ↔ 'İ' ∉ name.toList) ∧
      (identifier (identifier name) = identifier name ↔ 'İ' ∉ name.toList) ∧
      identifier (identifier name) =
        String.ofList ((identifier name).toList.filter (· != dotAbove)) := by
  have undotted : (∀ c ∈ (identifier name).toList, isAlphanumeric c = true ∨ c = '-') ↔
      dotAbove ∉ (identifier name).toList := by
    constructor
    · intro usable dot
      exact absurd (usable dotAbove dot) (by decide +kernel)
    · intro noDot c mem
      rcases mem_identifier mem with dash | settled | rfl
      · exact .inr dash
      · exact .inl settled.1
      · contradiction
  have own : identifier (identifier name) = identifier name ↔
      dotAbove ∉ (identifier name).toList := by
    rw [identifier_identifier, ← String.toList_inj, String.toList_ofList, List.filter_eq_self]
    constructor
    · exact fun kept dot => absurd (kept dotAbove dot) (by decide)
    · intro noDot c mem
      rw [bne_iff_ne]
      rintro rfl
      exact noDot mem
  rw [undotted, own, dotAbove_mem_identifier_iff, toList_identifier]
  refine ⟨singlyDashed_intercalate (identifierParts_ne_nil name) fun part mem =>
    (isLowercaseWord_of_mem_parts mem).solid, .rfl, .rfl, ?_⟩
  rw [identifier_identifier, toList_identifier]

/-- The identifier of `İ` has a dot that is no part of its own identifier. -/
theorem dotted_capital_unsettled :
    identifier "İ" = "i\u0307" ∧ isAlphanumeric '\u0307' = false ∧
      identifier (identifier "İ") = "i" := by
  decide +kernel

end Quire.Text
