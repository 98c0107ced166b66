import Quire.Proofs.Template.Decision

/-!
# Processing evaluates the syntax tree

Behind the decision there are texts, scalars and loops of such. Writing them out gives their values
one after the other, so processing the text of a tree gives the value of the tree.
-/

namespace Quire.Template

open Text (Quiet)

variable (template : Template)

/-- One step of the repetition. -/
theorem repeatBlocks_eq (cs : List Char) :
    template.repeatBlocks cs =
      (match Text.breakOn (MarkerKind.opening .iterable).start cs with
      | none => substitute template.value? cs
      | some (before, after) => do
        let front ← substitute template.value? before
        match cutBlock .iterable after with
        | .error unclosed => .error (.unterminatedBlock .iterable (String.ofList unclosed.key))
        | .ok cut =>
          match template.iterables.find? (String.ofList cut.key) with
          | none => .error (.unresolvedBlock .iterable (String.ofList cut.key))
          | some rows =>
            let copies ← rows.mapM fun row =>
              substitute (template.rowValue? (String.ofList cut.key) row) cut.inner
            let rest ← template.repeatBlocks cut.rest
            pure (front ++ copies.flatten ++ rest)) := by
  rw [repeatBlocks]
  split
  · rename_i h
    rw [h]
  · rename_i before after h
    rw [h]
    dsimp only
    congr 1
    funext front
    split
    · rename_i h'
      rw [h']
    · rename_i cut h'
      cases found : template.iterables.find? (String.ofList cut.key) <;> simp only [h', found]

theorem Part.isFlat_quiet {part : Part} (flat : part.isFlat = true) (kind : MarkerKind)
    (pattern : List Char) : Quiet (kind.start ++ pattern) part.write := by
  cases part with
  | literal text =>
    rw [kind.start_append]
    exact text.quiet _
  | scalar key => exact quiet_scalarText key.valid kind pattern
  | conditional inverted key body => contradiction
  | loop key body => contradiction

theorem Part.allFlat_quiet {parts : List Part} (flat : ∀ p ∈ parts, p.isFlat = true)
    (kind : MarkerKind) (pattern : List Char) :
    Quiet (kind.start ++ pattern) (Part.writeAll parts) := by
  induction parts with
  | nil => exact .nil
  | cons part rest ih =>
    rw [List.forall_mem_cons] at flat
    exact (Part.isFlat_quiet flat.1 kind pattern).append (ih flat.2)

theorem Part.allFlat_quiet_start {parts : List Part} (flat : ∀ p ∈ parts, p.isFlat = true)
    (kind : MarkerKind) : Quiet kind.start (Part.writeAll parts) := by
  rw [← List.append_nil kind.start]
  exact Part.allFlat_quiet flat kind []

theorem firstMarker?_quiet {cs : List Char} (quiet : ∀ kind : MarkerKind, Quiet kind.start cs) :
    firstMarker? cs = none := by
  induction cs with
  | nil => rfl
  | cons c rest ih =>
    have none : markerAt? (c :: rest) = none := by
      rw [markerAt?, List.findSome?_eq_none_iff]
      intro kind _
      rw [if_neg]
      intro front
      have start := (quiet kind).start []
      rw [List.append_nil] at start
      exact start (List.isPrefixOf_iff_prefix.mp front)
    rw [firstMarker?, none]
    exact ih fun kind => (quiet kind).tail

theorem segments_literal {cs : List Char} (quiet : Quiet ['[', '['] cs) (rest : List Char) :
    segments (cs ++ rest) = cs.map .literal ++ segments rest := by
  induction cs with
  | nil => rfl
  | cons c cs ih =>
    have none : scalarAt? (c :: (cs ++ rest)) = none := by
      unfold scalarAt?
      split
      · rename_i behind eq
        exact absurd ⟨behind, eq.symm⟩ (quiet.start rest)
      · rfl
    rw [List.cons_append, segments, segmentsAfter, none]
    exact congrArg _ (ih quiet.tail)

theorem segmentsAfter_skip (skipped rest : List Char) :
    segmentsAfter skipped.length (skipped ++ rest) = segments rest := by
  induction skipped with
  | nil => rfl
  | cons c skipped ih => exact ih

theorem keyAt?_key (key : Key) (rest : List Char) :
    keyAt? (key.chars ++ ']' :: ']' :: rest) = some key.chars := by
  have ends : isKeyChar ']' = false := by decide
  have front : (key.chars ++ ']' :: ']' :: rest).takeWhile isKeyChar = key.chars := by
    rw [List.takeWhile_append_of_pos key.valid, List.takeWhile_cons, ends]
    simp
  have behind : (key.chars ++ ']' :: ']' :: rest).dropWhile isKeyChar = ']' :: ']' :: rest := by
    rw [List.dropWhile_append_of_pos key.valid, List.dropWhile_cons, ends]
    simp
  simp [keyAt?, front, behind, key.ne_nil]

theorem scalarAt?_scalarText (key : Key) (rest : List Char) :
    scalarAt? (scalarText key.chars ++ rest) = some key.chars := by
  simpa [scalarText, scalarAt?] using keyAt?_key key rest

theorem markerKeyAt?_marked (key : Key) (inverted : Bool) (rest : List Char) :
    markerKeyAt? (key.marked inverted ++ ']' :: ']' :: rest) = some (key.marked inverted) := by
  cases inverted with
  | true => simp [Key.marked, markerKeyAt?, keyAt?_key]
  | false =>
    rw [Key.marked, if_neg Bool.false_ne_true, markerKeyAt?, keyAt?_key]
    intro behind eq
    obtain ⟨c, cs, chars⟩ := List.exists_cons_of_ne_nil key.ne_nil
    rw [chars] at eq
    simp only [List.cons_append, List.cons.injEq] at eq
    exact key.head_ne cs (chars.trans (by rw [eq.1]))

theorem markerAt?_withKey (kind : MarkerKind) (key : Key) (inverted : Bool) (rest : List Char) :
    markerAt? (kind.withKey (key.marked inverted) ++ rest) = some (kind, key.marked inverted) := by
  have text : kind.withKey (key.marked inverted) ++ rest =
      kind.start ++ (key.marked inverted ++ ']' :: ']' :: rest) := by
    simp [MarkerKind.withKey]
  -- a marker starts like no marker of another kind
  have other {kind' : MarkerKind} (ne : kind' ≠ kind) :
      ¬ kind'.start <+: kind.withKey (key.marked inverted) ++ rest := by
    have quiet := quiet_withKey_of_kind_ne ne (key.marked_isMarkerKey inverted) []
    rw [List.append_nil, withKey_eq] at quiet
    rw [withKey_eq]
    exact quiet.start rest
  have here : kind.start <+: kind.withKey (key.marked inverted) ++ rest := by
    rw [text]
    exact List.prefix_append _ _
  have behind : (kind.withKey (key.marked inverted) ++ rest).drop kind.start.length =
      key.marked inverted ++ ']' :: ']' :: rest := by
    rw [text, List.drop_left]
  rcases kind with (_ | _) | (_ | _) <;>
    simp [markerAt?, MarkerKind.all, other, here, behind, markerKeyAt?_marked]

theorem segments_scalar (key : Key) (rest : List Char) :
    segments (scalarText key.chars ++ rest) = .scalar key.text :: segments rest := by
  have found := scalarAt?_scalarText key rest
  have skip := segmentsAfter_skip ('[' :: (key.chars ++ [']', ']'])) rest
  have length : ('[' :: (key.chars ++ [']', ']'])).length = key.chars.length + 3 := by simp
  rw [length] at skip
  rw [scalarText, List.cons_append] at found ⊢
  rw [segments, segmentsAfter, found]
  exact congrArg _ skip

section Fill

variable (value? : String → Option String)

theorem fill_literal (cs : List Char) (rest : List Segment) :
    fill value? (cs.map .literal ++ rest) = (fill value? rest).map (cs ++ ·) := by
  induction cs with
  | nil =>
    rw [List.map_nil, List.nil_append]
    cases fill value? rest <;> rfl
  | cons c cs ih =>
    rw [List.map_cons, List.cons_append, fill, ih]
    cases fill value? rest <;> rfl

/-- Replacing the scalars of flat parts gives the values of the parts. -/
theorem fill_flat {parts : List Part} (flat : ∀ p ∈ parts, p.isFlat = true) :
    fill value? (segments (Part.writeAll parts)) = Part.valueAll template parts value? := by
  induction parts with
  | nil => rfl
  | cons part rest ih =>
    rw [List.forall_mem_cons] at flat
    rw [Part.writeAll, Part.valueAll, ← ih flat.2]
    cases part with
    | literal text =>
      rw [Part.write, segments_literal (text.quiet []), fill_literal, Part.value]
      cases fill value? (segments (Part.writeAll rest)) <;> rfl
    | scalar key =>
      rw [Part.write, segments_scalar, fill, Part.value]
      cases value? key.text <;> rfl
    | conditional inverted key body => exact absurd flat.1 Bool.false_ne_true
    | loop key body => exact absurd flat.1 Bool.false_ne_true

theorem substitute_flat {parts : List Part} (flat : ∀ p ∈ parts, p.isFlat = true) :
    substitute value? (Part.writeAll parts) = Part.valueAll template parts value? := by
  rw [substitute, firstMarker?_quiet (Part.allFlat_quiet_start flat)]
  exact fill_flat template value? flat

end Fill

theorem Part.valueAll_append (value? : String → Option String) (a b : List Part) :
    Part.valueAll template (a ++ b) value? = (do
      let x ← Part.valueAll template a value?
      let y ← Part.valueAll template b value?
      pure (x ++ y)) := by
  induction a with
  | nil =>
    rw [List.nil_append, Part.valueAll]
    cases Part.valueAll template b value? <;> rfl
  | cons part rest ih =>
    rw [List.cons_append, Part.valueAll, ih, Part.valueAll]
    cases part.value template value? with
    | error failure => rfl
    | ok first =>
      cases Part.valueAll template rest value? with
      | error failure => rfl
      | ok others =>
        cases Part.valueAll template b value? with
        | error failure => rfl
        | ok y => simp [bind, Except.bind, pure, Except.pure]

/-- A loop behind flat parts gives its rows, once the text behind it is known. -/
theorem Part.repeatBlocks_loop {flats body rest : List Part} {key : Key}
    (flat : ∀ p ∈ flats, p.isFlat = true) (flatBody : ∀ p ∈ body, p.isFlat = true)
    (after : template.repeatBlocks (Part.writeAll rest) =
      Part.valueAll template rest template.value?) :
    template.repeatBlocks (Part.writeAll flats ++ Part.writeAll (.loop key body :: rest)) =
      Part.valueAll template (flats ++ .loop key body :: rest) template.value? := by
  have quietBody : Quiet ((MarkerKind.closing .iterable).withKey key.chars)
      (Part.writeAll body) := by
    rw [MarkerKind.withKey, List.append_assoc]
    exact Part.allFlat_quiet flatBody _ _
  have valid : IsMarkerKey key.chars := key.marked_isMarkerKey false
  have name : String.ofList key.chars = key.text := rfl
  have copy (row : TemplateRow) :
      substitute (template.rowValue? key.text row) (Part.writeAll body) =
        Part.valueAll template body fun k => (row.find? key.text k).or (template.value? k) :=
    substitute_flat template _ flatBody
  rw [repeatBlocks_eq, Part.writeAll, Part.write,
    breakOn_blockText (Part.allFlat_quiet_start flat _)]
  dsimp only
  rw [substitute_flat template _ flat, cutBlock_blockText valid quietBody, Part.valueAll_append,
    Part.valueAll, Part.value]
  dsimp only
  rw [after]
  simp only [name, copy]
  cases Part.valueAll template flats template.value? with
  | error failure => rfl
  | ok front =>
    cases template.iterables.find? key.text with
    | none => rfl
    | some rows =>
      dsimp only
      cases rows.mapM fun row =>
        Part.valueAll template body fun k => (row.find? key.text k).or (template.value? k) with
      | error failure => rfl
      | ok copies =>
        cases Part.valueAll template rest template.value? with
        | error failure => rfl
        | ok others => simp [bind, Except.bind, pure, Except.pure]

/-- Writing out the text of decided parts, behind flat ones, gives the values of all of them. -/
theorem Part.repeatBlocks_writeAll {flats parts : List Part}
    (flat : ∀ p ∈ flats, p.isFlat = true) (decided : ∀ p ∈ parts, p.isDecided = true) :
    template.repeatBlocks (Part.writeAll flats ++ Part.writeAll parts) =
      Part.valueAll template (flats ++ parts) template.value? := by
  induction parts generalizing flats with
  | nil =>
    rw [Part.writeAll, List.append_nil, List.append_nil, repeatBlocks_eq,
      Text.breakOn_quiet (Part.allFlat_quiet_start flat _) (by simp [MarkerKind.start])]
    exact substitute_flat template template.value? flat
  | cons part rest ih =>
    rw [List.forall_mem_cons] at decided
    -- A flat part joins the others in front of the next loop.
    have join (h : part.isFlat = true) :
        template.repeatBlocks (Part.writeAll flats ++ Part.writeAll (part :: rest)) =
          Part.valueAll template (flats ++ part :: rest) template.value? := by
      have flat' : ∀ p ∈ flats ++ [part], p.isFlat = true := by
        simpa [or_imp, forall_and] using And.intro flat h
      have eq := ih flat' decided.2
      have text : Part.writeAll [part] ++ Part.writeAll rest = Part.writeAll (part :: rest) := by
        rw [← Part.writeAll_append]
        rfl
      rwa [Part.writeAll_append, List.append_assoc, List.append_assoc, text] at eq
    cases part with
    | literal text => exact join rfl
    | scalar key => exact join rfl
    | conditional inverted key body => exact absurd decided.1 Bool.false_ne_true
    | loop key body =>
      have noFlats : ∀ p ∈ ([] : List Part), p.isFlat = true := by simp
      have after := ih noFlats decided.2
      rw [List.nil_append, Part.writeAll, List.nil_append] at after
      exact Part.repeatBlocks_loop template flat (List.all_eq_true.mp decided.1) after

section Kept

mutual

/-- A part and what is kept of it have the same value when all its conditions are set. -/
theorem Part.valueAll_kept : (part : Part) → part.undecided? template = none →
    (value? : String → Option String) →
    Part.valueAll template (part.kept template) value? = part.value template value?
  | .literal text, _, value? => by
    simp [Part.kept, Part.valueAll, Part.value, bind, Except.bind, pure, Except.pure]
  | .scalar key, _, value? => by
    rw [Part.kept, Part.valueAll, Part.valueAll]
    cases part : (Part.scalar key).value template value? with
    | error failure => rfl
    | ok value => simp [bind, Except.bind, pure, Except.pure]
  | .conditional inverted key body, decided, value? => by
    rw [Part.undecided?] at decided
    rw [Part.kept, Part.value]
    cases found : template.conditionals.find? key.text with
    | none => simp [found] at decided
    | some holds =>
      rw [found] at decided
      dsimp only at decided ⊢
      cases shown : holds != inverted with
      | false => rfl
      | true =>
        rw [shown] at decided
        exact Part.valueAll_keptAll body decided value?
  | .loop key body, decided, value? => by
    rw [Part.undecided?] at decided
    have inner (row : TemplateRow) := Part.valueAll_keptAll body decided
      fun k => (row.find? key.text k).or (value? k)
    rw [Part.kept, Part.valueAll, Part.valueAll, Part.value, Part.value]
    cases template.iterables.find? key.text with
    | none => rfl
    | some rows =>
      simp only [inner]
      cases rows.mapM fun row =>
        Part.valueAll template body fun k => (row.find? key.text k).or (value? k) with
      | error failure => rfl
      | ok copies => simp [bind, Except.bind, pure, Except.pure]

theorem Part.valueAll_keptAll : (parts : List Part) →
    Part.firstUndecided? template parts = none → (value? : String → Option String) →
    Part.valueAll template (Part.keptAll template parts) value? =
      Part.valueAll template parts value?
  | [], _, _ => rfl
  | part :: rest, decided, value? => by
    rw [Part.firstUndecided?, Option.or_eq_none_iff] at decided
    rw [Part.keptAll, Part.valueAll_append, Part.valueAll_kept part decided.1,
      Part.valueAll_keptAll rest decided.2]
    rfl

end

end Kept

/-- Processing the text of parts whose conditions are all set. -/
theorem process_writeAll {parts : List Part} (nested : Part.allFit {} parts = true)
    (text : template.text.toList = Part.writeAll parts)
    (decided : Part.firstUndecided? template parts = none) :
    template.process = (Part.valueAll template parts template.value?).map String.ofList := by
  have kept := Part.decideBlocks_writeAll template parts nested []
  rw [List.append_nil, decideBlocks_nil, decided] at kept
  have noFlats : ∀ p ∈ ([] : List Part), p.isFlat = true := by simp
  have repeated := Part.repeatBlocks_writeAll template noFlats
    (Part.isDecided_of_keptAll template parts nested)
  rw [Part.writeAll, List.nil_append, List.nil_append,
    Part.valueAll_keptAll template parts decided] at repeated
  rw [process, text, kept]
  dsimp only [Except.map, bind, Except.bind]
  rw [List.append_nil, repeated]
  cases Part.valueAll template parts template.value? <;> rfl

/-- The evaluation does not look at the text of the template. -/
theorem Tree.evaluate_text (tree : Tree) (text : String) :
    tree.evaluate { template with text := text } = tree.evaluate template := by
  delta Tree.evaluate Part.firstUndecided? Part.valueAll
  rfl

/-- Processing a template that is written from a syntax tree gives the value of the tree, or the
failure of its evaluation. -/
theorem process_eq_evaluate (tree : Tree) :
    ({ template with text := tree.text } : Template).process = tree.evaluate template := by
  obtain ⟨parts, nested⟩ := tree
  let filled : Template := { template with text := String.ofList (Part.writeAll parts) }
  have text : filled.text.toList = Part.writeAll parts := String.toList_ofList
  rw [← Tree.evaluate_text template _ filled.text]
  change filled.process = Tree.evaluate _ filled
  rw [Tree.evaluate]
  cases undecided : Part.firstUndecided? filled parts with
  | none =>
    rw [process_writeAll filled nested text undecided]
    cases Part.valueAll filled parts filled.value? <;> rfl
  | some key =>
    have stops := Part.decideBlocks_writeAll filled parts nested []
    rw [List.append_nil, undecided] at stops
    rw [process, text, stops]
    rfl

end Quire.Template
