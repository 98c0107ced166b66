import Quire.Proofs.Template.Evaluation
import Quire.Template.Placeholder
import Mathlib.Logic.Basic

/-!
# Supplying what a template asks for

The placeholders of a text that is written from a syntax tree are those of the tree. So who supplies
them all has the template processed, but for one gap: a value under the key of a loop is never asked
for, not even where it stands outside of the loop.
-/

namespace Quire.Template

open Text (Quiet)

section Listing

variable (template : Template)

def scalarPlaceholder (key : String) : Placeholder :=
  ⟨key, if template.optionalKeys.contains key then .optionalValue else .value⟩

mutual

/-- What a part asks for, in text order. -/
def Part.placeholders : Part → List Placeholder
  | .literal _ => []
  | .scalar key => [template.scalarPlaceholder key.text]
  | .conditional _ key body => ⟨key.text, .conditional⟩ :: Part.allPlaceholders body
  | .loop key body => ⟨key.text, .iterable⟩ :: Part.allPlaceholders body

def Part.allPlaceholders : List Part → List Placeholder
  | [] => []
  | part :: rest => part.placeholders ++ Part.allPlaceholders rest

end

theorem placeholderAt?_eq_none {cs : List Char} (h : ¬ ['[', '['] <+: cs) :
    template.placeholderAt? cs = none := by
  have marker : markerAt? cs = none := by
    rw [markerAt?, List.findSome?_eq_none_iff]
    intro kind _
    rw [if_neg]
    intro front
    exact h (.trans ⟨_, rfl⟩ (List.isPrefixOf_iff_prefix.mp front))
  have scalar : scalarAt? cs = none := by
    unfold scalarAt?
    split
    · rename_i behind
      exact absurd ⟨behind, rfl⟩ h
    · rfl
  rw [placeholderAt?, marker, scalar]
  rfl

theorem placeholdersIn_quiet {cs : List Char} (quiet : Quiet ['[', '['] cs) (rest : List Char) :
    template.placeholdersIn (cs ++ rest) = template.placeholdersIn rest := by
  induction cs with
  | nil => rfl
  | cons c cs ih =>
    rw [List.cons_append, placeholdersIn, placeholderAt?_eq_none template (quiet.start rest),
      ih quiet.tail]
    rfl

/-- A bracketed text asks for something at its start and nowhere else. -/
theorem placeholdersIn_brackets (body : List Char) (ne : body ≠ []) (plain : '[' ∉ body)
    (rest : List Char) :
    template.placeholdersIn ('[' :: '[' :: body ++ rest) =
      (template.placeholderAt? ('[' :: '[' :: body ++ rest)).toList ++
        template.placeholdersIn rest := by
  have quiet : Quiet ['[', '['] ('[' :: body) := by
    refine .cons (fun rest k => ?_) (Text.quiet_of_notMem plain)
    obtain ⟨c, cs, rfl⟩ := List.exists_cons_of_ne_nil ne
    simp only [List.cons_append, List.cons_prefix_cons, true_and] at k
    exact plain (k.1 ▸ List.mem_cons_self)
  rw [← placeholdersIn_quiet template quiet rest]
  rfl

theorem placeholdersIn_scalar (key : Key) (rest : List Char) :
    template.placeholdersIn (scalarText key.chars ++ rest) =
      template.scalarPlaceholder key.text :: template.placeholdersIn rest := by
  have bracket : '[' ∉ key.chars := fun mem => isKeyChar_ne (key.valid _ mem) (by decide) rfl
  have marker : markerAt? (scalarText key.chars ++ rest) = none := by
    rw [markerAt?, List.findSome?_eq_none_iff]
    intro kind _
    rw [if_neg]
    intro front
    have quiet := quiet_scalarText key.valid kind []
    rw [List.append_nil] at quiet
    exact quiet.start rest (List.isPrefixOf_iff_prefix.mp front)
  have here : template.placeholderAt? (scalarText key.chars ++ rest) =
      some (template.scalarPlaceholder key.text) := by
    rw [placeholderAt?, marker, scalarAt?_scalarText]
    rfl
  have listed := placeholdersIn_brackets template (key.chars ++ [']', ']']) (by simp)
    (by simp [bracket]) rest
  rw [scalarText] at here ⊢
  rw [listed, here]
  rfl

theorem placeholdersIn_marker (kind : MarkerKind) (inverted : Bool) (key : Key)
    (rest : List Char) :
    template.placeholdersIn (kind.withKey (key.marked inverted) ++ rest) =
      (match kind with
        | .opening .conditional => [⟨key.text, .conditional⟩]
        | .opening .iterable => [⟨key.text, .iterable⟩]
        | .closing _ => []) ++ template.placeholdersIn rest := by
  have plain : plainKey (key.marked inverted) = key.chars := by
    cases inverted with
    | true => rfl
    | false =>
      rw [Key.marked_false]
      unfold plainKey
      split
      · rename_i behind eq
        exact absurd eq (key.head_ne behind)
      · rfl
  have here : template.placeholderAt? (kind.withKey (key.marked inverted) ++ rest) =
      (match kind with
        | .opening .conditional => some ⟨key.text, .conditional⟩
        | .opening .iterable => some ⟨key.text, .iterable⟩
        | .closing _ => none) := by
    rw [placeholderAt?, markerAt?_withKey]
    rcases kind with (_ | _) | _ <;> simp only [plain] <;> rfl
  have listed := placeholdersIn_brackets template _ (by simp)
    (bracket_notMem (key.marked_isMarkerKey inverted) kind) rest
  rw [withKey_eq] at here ⊢
  rw [listed, here]
  rcases kind with (_ | _) | _ <;> rfl

mutual

/-- The text of a part asks for what the part asks for. -/
theorem Part.placeholdersIn_write : (part : Part) → (rest : List Char) →
    template.placeholdersIn (part.write ++ rest) =
      part.placeholders template ++ template.placeholdersIn rest
  | .literal text, rest => placeholdersIn_quiet template (text.quiet []) rest
  | .scalar key, rest => placeholdersIn_scalar template key rest
  | .conditional inverted key body, rest => by
    rw [Part.write, blockText, List.append_assoc, List.append_assoc, placeholdersIn_marker,
      Part.placeholdersIn_writeAll body, placeholdersIn_marker, Part.placeholders]
    simp
  | .loop key body, rest => by
    have opening := placeholdersIn_marker template (.opening .iterable) false key
    have closing := placeholdersIn_marker template (.closing .iterable) false key
    rw [Key.marked_false] at opening closing
    rw [Part.write, blockText, List.append_assoc, List.append_assoc, opening,
      Part.placeholdersIn_writeAll body, closing, Part.placeholders]
    simp

theorem Part.placeholdersIn_writeAll : (parts : List Part) → (rest : List Char) →
    template.placeholdersIn (Part.writeAll parts ++ rest) =
      Part.allPlaceholders template parts ++ template.placeholdersIn rest
  | [], _ => rfl
  | part :: others, rest => by
    rw [Part.writeAll, List.append_assoc, Part.placeholdersIn_write part,
      Part.placeholdersIn_writeAll others, Part.allPlaceholders, List.append_assoc]

end

/-- What is asked for is what stands in the tree, but for values under the key of a loop. -/
theorem mem_placeholders {tree : Tree} (text : template.text = tree.text) {p : Placeholder} :
    p ∈ template.placeholders ↔ p ∈ Part.allPlaceholders template tree.parts ∧
      ¬ (p.kind = .value ∧ ⟨p.key, .iterable⟩ ∈ Part.allPlaceholders template tree.parts) := by
  have found := Part.placeholdersIn_writeAll template tree.parts []
  rw [List.append_nil, placeholdersIn, List.append_nil] at found
  have repeated (found : List Placeholder) (key : String) :
      ((found.filter (·.kind == .iterable)).map (·.key)).contains key = true ↔
        ⟨key, .iterable⟩ ∈ found := by
    rw [List.contains_iff_mem, List.mem_map]
    constructor
    · rintro ⟨⟨_, kind⟩, mem, rfl⟩
      obtain ⟨mem, iterable⟩ := List.mem_filter.mp mem
      obtain rfl : kind = .iterable := eq_of_beq iterable
      exact mem
    · intro mem
      exact ⟨_, List.mem_filter.mpr ⟨mem, beq_self_eq_true _⟩, rfl⟩
  rw [placeholders, text, Tree.text, String.toList_ofList, found, List.mem_eraseDups,
    List.mem_filter, Bool.not_eq_true', Bool.and_eq_false_iff, ← Bool.not_eq_true,
    ← Bool.not_eq_true, repeated, beq_iff_eq, not_and_or]

end Listing

mutual

/-- The keys of the scalars that stand outside of every loop over their key, given the loops that
the part stands in. -/
def Part.freeKeys (loops : List Key) : Part → List Key
  | .literal _ => []
  | .scalar key => if key ∈ loops then [] else [key]
  | .conditional _ _ body => Part.allFreeKeys loops body
  | .loop key body => Part.allFreeKeys (key :: loops) body

def Part.allFreeKeys (loops : List Key) : List Part → List Key
  | [] => []
  | part :: rest => part.freeKeys loops ++ Part.allFreeKeys loops rest

end

def Tree.freeKeys (tree : Tree) : List Key := Part.allFreeKeys [] tree.parts

section Supply

variable (template : Template)

/-- There is something for a placeholder. The rows of a repeated block are texts. -/
def Supplies (p : Placeholder) : Prop :=
  match p.kind with
  | .value | .optionalValue => (template.values.find? p.key).isSome = true
  | .conditional => (template.conditionals.find? p.key).isSome = true
  | .iterable => ∃ texts : List String,
      template.iterables.find? p.key = some (texts.map TemplateRow.single)

mutual

theorem Part.undecided?_of_supplied : (part : Part) →
    (∀ p ∈ part.placeholders template, p.kind ≠ .value → template.Supplies p) →
    part.undecided? template = none
  | .literal _, _ => rfl
  | .scalar _, _ => rfl
  | .conditional inverted key body, supplied => by
    rw [Part.placeholders, List.forall_mem_cons] at supplied
    obtain ⟨holds, found⟩ := Option.isSome_iff_exists.mp (supplied.1 (by simp))
    dsimp only at found
    rw [Part.undecided?, found]
    dsimp only
    split
    · exact Part.firstUndecided?_of_supplied body supplied.2
    · rfl
  | .loop key body, supplied => by
    rw [Part.placeholders, List.forall_mem_cons] at supplied
    exact Part.firstUndecided?_of_supplied body supplied.2

theorem Part.firstUndecided?_of_supplied : (parts : List Part) →
    (∀ p ∈ Part.allPlaceholders template parts, p.kind ≠ .value → template.Supplies p) →
    Part.firstUndecided? template parts = none
  | [], _ => rfl
  | part :: rest, supplied => by
    rw [Part.allPlaceholders, List.forall_mem_append] at supplied
    rw [Part.firstUndecided?, Part.undecided?_of_supplied part supplied.1,
      Part.firstUndecided?_of_supplied rest supplied.2]
    rfl

end

/-- A result, or the failure that a value for one of the keys is missing. -/
def FailsOnlyFor {α : Type} (keys : List Key) : Except TemplateFailure α → Prop
  | .ok _ => True
  | .error failure => ∃ key ∈ keys, template.value? key.text = none ∧
      failure = .missingValue key.text

namespace FailsOnlyFor

variable {template} {α β : Type} {keys more : List Key}

theorem mono {x : Except TemplateFailure α} (h : template.FailsOnlyFor keys x)
    (sub : keys ⊆ more) : template.FailsOnlyFor more x := by
  cases x with
  | ok a => trivial
  | error failure =>
    obtain ⟨key, mem, missing⟩ := h
    exact ⟨key, sub mem, missing⟩

theorem bind {x : Except TemplateFailure α} {f : α → Except TemplateFailure β}
    (first : template.FailsOnlyFor keys x) (rest : ∀ a, template.FailsOnlyFor keys (f a)) :
    template.FailsOnlyFor keys (x >>= f) := by
  cases x with
  | ok a => exact rest a
  | error failure => exact first

theorem mapM {f : α → Except TemplateFailure β} {rows : List α}
    (each : ∀ row ∈ rows, template.FailsOnlyFor keys (f row)) :
    template.FailsOnlyFor keys (rows.mapM f) := by
  induction rows with
  | nil => trivial
  | cons row rest ih =>
    rw [List.forall_mem_cons] at each
    rw [List.mapM_cons]
    exact each.1.bind fun _ => (ih each.2).bind fun _ => trivial

end FailsOnlyFor

mutual

/-- Parts have a value where all that they ask for is there: inside a loop its key has the row, and
outside it may lack a value. -/
theorem Part.value_of_supplied {loops : List Key} {value? : String → Option String} :
    (part : Part) →
    (∀ p ∈ part.placeholders template, p.kind ≠ .value → template.Supplies p) →
    (∀ key ∈ loops, value? key.text ≠ none) →
    (∀ k, value? k = none → template.value? k = none) →
    template.FailsOnlyFor (part.freeKeys loops) (part.value template value?)
  | .literal _, _, _, _ => trivial
  | .scalar key, _, bound, grows => by
    rw [Part.value]
    cases found : value? key.text with
    | some value => trivial
    | none =>
      have outside : key ∉ loops := fun inside => bound key inside found
      refine ⟨key, ?_, grows key.text found, rfl⟩
      rw [Part.freeKeys, if_neg outside]
      exact List.mem_singleton.mpr rfl
  | .conditional inverted key body, supplied, bound, grows => by
    rw [Part.placeholders, List.forall_mem_cons] at supplied
    obtain ⟨holds, found⟩ := Option.isSome_iff_exists.mp (supplied.1 (by simp))
    dsimp only at found
    rw [Part.value, found]
    dsimp only
    split
    · exact Part.valueAll_of_supplied body supplied.2 bound grows
    · trivial
  | .loop key body, supplied, bound, grows => by
    rw [Part.placeholders, List.forall_mem_cons] at supplied
    obtain ⟨texts, found⟩ := supplied.1 (by simp)
    dsimp only at found
    rw [Part.value, found]
    refine FailsOnlyFor.bind (FailsOnlyFor.mapM fun row mem => ?_) fun _ => trivial
    obtain ⟨text, -, rfl⟩ := List.mem_map.mp mem
    refine Part.valueAll_of_supplied body supplied.2 ?_ ?_
    · intro other inside
      rcases List.mem_cons.mp inside with rfl | inside
      · simp [TemplateRow.find?]
      · simp [bound other inside]
    · intro k none
      exact grows k (Option.or_eq_none_iff.mp none).2

theorem Part.valueAll_of_supplied {loops : List Key} {value? : String → Option String} :
    (parts : List Part) →
    (∀ p ∈ Part.allPlaceholders template parts, p.kind ≠ .value → template.Supplies p) →
    (∀ key ∈ loops, value? key.text ≠ none) →
    (∀ k, value? k = none → template.value? k = none) →
    template.FailsOnlyFor (Part.allFreeKeys loops parts) (Part.valueAll template parts value?)
  | [], _, _, _ => trivial
  | part :: rest, supplied, bound, grows => by
    rw [Part.allPlaceholders, List.forall_mem_append] at supplied
    have first := Part.value_of_supplied part supplied.1 bound grows
    have others := Part.valueAll_of_supplied rest supplied.2 bound grows
    rw [Part.valueAll, Part.allFreeKeys]
    exact (first.mono (List.subset_append_left _ _)).bind fun _ =>
      (others.mono (List.subset_append_right _ _)).bind fun _ => trivial

end

mutual

theorem Part.mem_placeholders_of_free {loops : List Key} {key : Key} : (part : Part) →
    key ∈ part.freeKeys loops →
    template.scalarPlaceholder key.text ∈ part.placeholders template
  | .literal _, free => absurd free List.not_mem_nil
  | .scalar other, free => by
    rw [Part.freeKeys] at free
    split at free
    · exact absurd free List.not_mem_nil
    · obtain rfl := List.mem_singleton.mp free
      exact List.mem_singleton.mpr rfl
  | .conditional _ _ body, free =>
    List.mem_cons_of_mem _ (Part.mem_allPlaceholders_of_free body free)
  | .loop _ body, free => List.mem_cons_of_mem _ (Part.mem_allPlaceholders_of_free body free)

theorem Part.mem_allPlaceholders_of_free {loops : List Key} {key : Key} : (parts : List Part) →
    key ∈ Part.allFreeKeys loops parts →
    template.scalarPlaceholder key.text ∈ Part.allPlaceholders template parts
  | [], free => absurd free List.not_mem_nil
  | part :: rest, free => by
    rw [Part.allPlaceholders]
    rcases List.mem_append.mp free with free | free
    · exact List.mem_append_left _ (Part.mem_placeholders_of_free part free)
    · exact List.mem_append_right _ (Part.mem_allPlaceholders_of_free rest free)

end

/-- A template that is supplied with all it asks for is processed. What can still be missing is a
value for a scalar outside of the loop over its key, for which the list of placeholders has the loop
and no value. -/
theorem process_of_supplied {tree : Tree} (text : template.text = tree.text)
    (supplied : ∀ p ∈ template.placeholders, template.Supplies p) :
    (∃ output, template.process = .ok output) ∨
      ∃ key ∈ tree.freeKeys, ⟨key.text, .iterable⟩ ∈ template.placeholders ∧
        ⟨key.text, .value⟩ ∉ template.placeholders ∧ template.values.find? key.text = none ∧
        template.process = .error (.missingValue key.text) := by
  have blocks : ∀ p ∈ Part.allPlaceholders template tree.parts, p.kind ≠ .value →
      template.Supplies p := by
    intro p mem ne
    exact supplied p ((mem_placeholders template text).mpr ⟨mem, fun both => ne both.1⟩)
  have decided := Part.firstUndecided?_of_supplied template tree.parts blocks
  have chars : template.text.toList = Part.writeAll tree.parts := by
    rw [text]
    exact String.toList_ofList
  have value : template.FailsOnlyFor tree.freeKeys
      (Part.valueAll template tree.parts template.value?) :=
    Part.valueAll_of_supplied template tree.parts blocks (by simp) fun _ none => none
  rw [process_writeAll template tree.nested chars decided]
  cases result : Part.valueAll template tree.parts template.value? with
  | ok output => exact .inl ⟨_, rfl⟩
  | error failure =>
    rw [result] at value
    obtain ⟨key, free, missing, rfl⟩ := value
    -- without a value, the key is on the list as no value of any kind
    have unlisted (kind : PlaceholderKind) (scalar : kind = .value ∨ kind = .optionalValue) :
        ⟨key.text, kind⟩ ∉ template.placeholders := by
      intro listed
      have some : (template.values.find? key.text).isSome = true := by
        rcases scalar with rfl | rfl <;> exact supplied _ listed
      rw [← value?, missing] at some
      contradiction
    have asked := Part.mem_allPlaceholders_of_free template tree.parts free
    have loop : ⟨key.text, .iterable⟩ ∈ Part.allPlaceholders template tree.parts := by
      refine Decidable.byContradiction fun absent => ?_
      have listed := (mem_placeholders template text).mpr ⟨asked, fun both => absent both.2⟩
      rw [scalarPlaceholder] at listed
      split at listed
      · exact unlisted _ (.inr rfl) listed
      · exact unlisted _ (.inl rfl) listed
    refine .inr ⟨key, free, (mem_placeholders template text).mpr ⟨loop, by simp⟩,
      unlisted _ (.inl rfl), missing, rfl⟩

/-- A letter with an inverted condition and a loop, in which the row goes before a value that was
supplied under the same key. -/
def letter : Tree :=
  let name := Key.ofString "NAME"
  { parts := [.conditional true (Key.ofString "DRAFT") [.scalar (Key.ofString "SUBJECT")],
      .literal (Literal.ofString ": "), .loop name [.scalar name, .literal (Literal.ofString ", ")],
      .scalar name]
    nested := by decide }

theorem process_of_supplied_letter :
    let template : Template := {
      text := letter.text
      values := ⟨[("SUBJECT", "[[if:X]]"), ("NAME", "all")]⟩
      conditionals := ⟨[("DRAFT", false)]⟩
      iterables := ⟨[("NAME", [.single "Ada", .single "Alan"])]⟩ }
    (∀ p ∈ template.placeholders, template.Supplies p) ∧
      ∃ output, template.process = .ok output := by
  intro template
  have listed : template.placeholders =
      [⟨"DRAFT", .conditional⟩, ⟨"SUBJECT", .value⟩, ⟨"NAME", .iterable⟩] := by
    decide +kernel
  have supplied : ∀ p ∈ template.placeholders, template.Supplies p := by
    rw [listed]
    simp only [List.forall_mem_cons, List.not_mem_nil, false_imp_iff, implies_true, and_true]
    exact ⟨rfl, rfl, ["Ada", "Alan"], rfl⟩
  refine ⟨supplied, ?_⟩
  rcases process_of_supplied template rfl supplied with done | ⟨key, -, loop, -, missing, -⟩
  · exact done
  · have name : key.text = "NAME" := by simpa [listed] using loop
    rw [name] at missing
    contradiction

/-- A value that is needed in front of the loop over its key is not on the list. -/
theorem value_before_loop_unlisted :
    let template : Template := {
      text := "[[K]][[for:K]][[K]][[endfor:K]]"
      iterables := ⟨[("K", [.single "row"])]⟩ }
    (∃ tree : Tree, template.text = tree.text) ∧
      (∀ p ∈ template.placeholders, template.Supplies p) ∧
      template.process = .error (.missingValue "K") := by
  intro template
  let key := Key.ofString "K"
  let tree : Tree := { parts := [.scalar key, .loop key [.scalar key]], nested := by decide }
  have text : template.text = tree.text := by decide +kernel
  have listed : template.placeholders = [⟨"K", .iterable⟩] := by decide +kernel
  refine ⟨⟨tree, text⟩, ?_, ?_⟩
  · rw [listed, List.forall_mem_singleton]
    exact ⟨["row"], rfl⟩
  · have chars : template.text.toList = Part.writeAll tree.parts := by decide +kernel
    exact (process_writeAll template tree.nested chars rfl).trans rfl

end Supply

end Quire.Template
