import Quire.Proofs.Registry
import Quire.Proofs.Template.Evaluation
import Mathlib.Data.List.Basic

/-!
# Supplied texts are never template code

Processing factors through an outline: pieces of template text, and references to what is supplied.
The outline is computed from which keys are supplied, never from the texts supplied under them.
-/

namespace Quire

/-- Rows of one kind with texts under the same fields. -/
inductive TemplateRow.SameShape : TemplateRow → TemplateRow → Prop where
  | single (a b : String) : SameShape (.single a) (.single b)
  | named {a b : Registry String} (fields : ∀ key, a.contains key = b.contains key) :
    SameShape (.named a) (.named b)

namespace Template

/-- The same template text and conditions, and texts under the same keys. -/
structure SameShape (s t : Template) : Prop where
  text : s.text = t.text
  conditionals : ∀ key, s.conditionals.find? key = t.conditionals.find? key
  values : ∀ key, s.values.contains key = t.values.contains key
  iterables : ∀ key, Option.Rel (List.Forall₂ TemplateRow.SameShape)
    (s.iterables.find? key) (t.iterables.find? key)

/-- Where a supplied text comes from: a value, or a field of a row of a block. -/
inductive Source where
  | value (key : String)
  | row (block : String) (index : Nat) (key : String)
  deriving DecidableEq, Repr

/-- A piece of the output: template text, or a reference to a supplied text. -/
inductive Piece where
  | literal (text : List Char)
  | inserted (source : Source)
  deriving DecidableEq, Repr

def Piece.isLiteral : Piece → Bool
  | .literal _ => true
  | .inserted _ => false

def content? (template : Template) : Source → Option String
  | .value key => template.values.find? key
  | .row block index key => do
    let rows ← template.iterables.find? block
    let row ← rows[index]?
    row.find? block key

/-- Pieces one after the other, with the texts behind the references put in as they are. -/
def written? (template : Template) : List Piece → Option (List Char)
  | [] => some []
  | .literal text :: rest => do pure (text ++ (← template.written? rest))
  | .inserted source :: rest => do
    let text ← template.content? source
    pure (text.toList ++ (← template.written? rest))

section Outline

/-- What the outline may know of the supplied texts: the keys under which there are some. -/
structure Shape where
  supplied : String → Bool
  rows? : String → Option (List (String → Bool))

def shape (template : Template) : Shape where
  supplied := template.values.contains
  rows? block := (template.iterables.find? block).map fun rows =>
    rows.map fun row key => (row.find? block key).isSome

def withChar (c : Char) : List Piece → List Piece
  | .literal text :: rest => .literal (c :: text) :: rest
  | pieces => .literal [c] :: pieces

def outlineFill (source? : String → Option Source) :
    List Segment → Except TemplateFailure (List Piece)
  | [] => .ok []
  | .literal c :: rest => do pure (withChar c (← outlineFill source? rest))
  | .scalar key :: rest =>
    match source? key with
    | some source => do pure (.inserted source :: (← outlineFill source? rest))
    | none => .error (.missingValue key)

/-- The outline of a text that has no markers. -/
def outlineText (source? : String → Option Source) (cs : List Char) :
    Except TemplateFailure (List Piece) :=
  match firstMarker? cs with
  | some (marker, key) => .error (.strayMarker marker (String.ofList key))
  | none => outlineFill source? (segments cs)

namespace Shape

variable (shape : Shape)

def source? (key : String) : Option Source :=
  if shape.supplied key then some (.value key) else none

def rowSource? (block : String) (index : Nat) (row : String → Bool) (key : String) :
    Option Source :=
  if row key then some (.row block index key) else shape.source? key

/-- The outlines of the copies of a block, one for each row. -/
def outlineCopies (block : String) (inner : List Char) :
    Nat → List (String → Bool) → Except TemplateFailure (List (List Piece))
  | _, [] => .ok []
  | index, row :: rest => do
    let copy ← outlineText (shape.rowSource? block index row) inner
    let others ← outlineCopies block inner (index + 1) rest
    pure (copy :: others)

/-- The outlines of the stretches of a text: what stands between two blocks, or one copy of the
inside of a block. -/
def outlineBlocks (cs : List Char) : Except TemplateFailure (List (List Piece)) :=
  match _ : Text.breakOn (MarkerKind.opening .iterable).start cs with
  | none => do pure [← outlineText shape.source? cs]
  | some (before, after) => do
    let front ← outlineText shape.source? before
    match _ : cutBlock .iterable after with
    | .error unclosed => .error (.unterminatedBlock .iterable (String.ofList unclosed.key))
    | .ok cut =>
      let key := String.ofList cut.key
      match shape.rows? key with
      | none => .error (.unresolvedBlock .iterable key)
      | some rows =>
        let copies ← shape.outlineCopies key cut.inner 0 rows
        let rest ← outlineBlocks cut.rest
        pure (front :: copies ++ rest)
termination_by cs.length
decreasing_by
  all_goals
    have := Text.length_of_breakOn ‹Text.breakOn _ cs = some _›
    have := length_of_cutBlock ‹cutBlock _ _ = .ok _›
    simp [MarkerKind.start] at *
    omega

end Shape

/-- The outline of a template, stretch by stretch. -/
def outline (template : Template) : Except TemplateFailure (List (List Piece)) := do
  let decided ← template.decideBlocks template.text.toList
  template.shape.outlineBlocks decided

end Outline

section Agreement

variable {s t : Template}

theorem isSome_find?_of_sameShape {a b : TemplateRow} (same : a.SameShape b) (block key : String) :
    (a.find? block key).isSome = (b.find? block key).isSome := by
  cases same with
  | single a b =>
    simp only [TemplateRow.find?]
    split <;> rfl
  | named fields =>
    simp only [TemplateRow.find?, Registry.isSome_find?]
    exact fields key

/-- The shape is the same, so whatever is made from it is. -/
theorem shape_eq (same : SameShape s t) : s.shape = t.shape := by
  have values : s.values.contains = t.values.contains := funext same.values
  have rows (block : String) : (s.shape.rows? block) = t.shape.rows? block := by
    have rel := same.iterables block
    simp only [shape]
    generalize s.iterables.find? block = a at rel ⊢
    generalize t.iterables.find? block = b at rel ⊢
    cases rel with
    | none => rfl
    | some rows =>
      rw [Option.map_some, Option.map_some, Option.some.injEq]
      induction rows with
      | nil => rfl
      | cons row _ ih =>
        rw [List.map_cons, List.map_cons, ih]
        congr 1
        exact funext (isSome_find?_of_sameShape row block)
  simp only [shape, Shape.mk.injEq, values, true_and]
  exact funext rows

theorem shorter_of_cutBlock {kind : BlockKind} {cs before after : List Char} {cut : Cut}
    (found : Text.breakOn (MarkerKind.opening kind).start cs = some (before, after))
    (h : cutBlock kind after = .ok cut) :
    cut.inner.length < cs.length ∧ cut.rest.length < cs.length := by
  have whole := Text.length_of_breakOn found
  have parts := length_of_cutBlock h
  simp only [MarkerKind.start, List.length_append, List.length_cons] at whole
  omega

/-- The decision looks at the conditions only. -/
theorem decideBlocks_congr
    (same : ∀ key, s.conditionals.find? key = t.conditionals.find? key) (cs : List Char) :
    s.decideBlocks cs = t.decideBlocks cs := by
  induction n : cs.length using Nat.strongRecOn generalizing cs with
  | _ n ih =>
    subst n
    rw [decideBlocks_eq, decideBlocks_eq]
    cases found : Text.breakOn (MarkerKind.opening .conditional).start cs with
    | none => rfl
    | some parts =>
      obtain ⟨before, after⟩ := parts
      dsimp only
      cases h : cutBlock .conditional after with
      | error unclosed => rfl
      | ok cut =>
        obtain ⟨inner, rest⟩ := shorter_of_cutBlock found h
        have shown : s.shows? cut.key = t.shows? cut.key := by
          simp only [shows?, same]
        have decided : s.decideCut cut = t.decideCut cut := by
          simp only [decideCut, shown, ih _ inner cut.inner rfl]
        dsimp only
        rw [decided, ih _ rest cut.rest rfl]

theorem outline_eq (same : SameShape s t) : s.outline = t.outline := by
  simp only [outline, same.text, decideBlocks_congr same.conditionals, shape_eq same]

end Agreement

section Writing

variable (template : Template)

theorem written?_append (a b : List Piece) :
    template.written? (a ++ b) = (do
      let x ← template.written? a
      let y ← template.written? b
      pure (x ++ y)) := by
  induction a with
  | nil => simp [written?]
  | cons piece rest ih =>
    cases piece with
    | literal text =>
      rw [List.cons_append, written?, ih, written?]
      cases template.written? rest <;> cases template.written? b <;> simp
    | inserted source =>
      rw [List.cons_append, written?, ih, written?]
      cases template.content? source <;> cases template.written? rest <;>
        cases template.written? b <;> simp

theorem written?_withChar (c : Char) (pieces : List Piece) :
    template.written? (withChar c pieces) = (template.written? pieces).map (c :: ·) := by
  unfold withChar
  split
  · rw [written?, written?]
    cases template.written? _ <;> rfl
  · rw [written?]
    cases template.written? pieces <;> rfl

/-- An outline and an output that fail together, or of which one is written out as the other. -/
def Writes (outline : Except TemplateFailure (List Piece))
    (output : Except TemplateFailure (List Char)) : Prop :=
  (∃ failure, outline = .error failure ∧ output = .error failure) ∨
    ∃ pieces text, outline = .ok pieces ∧ output = .ok text ∧ template.written? pieces = some text

/-- References in place of texts: the same keys are bound, and to the texts of the references. -/
def Names (source? : String → Option Source) (value? : String → Option String) : Prop :=
  ∀ key, (source? key = none ∧ value? key = none) ∨
    ∃ source text, source? key = some source ∧ value? key = some text ∧
      template.content? source = some text

theorem names_source : template.Names template.shape.source? template.value? := by
  intro key
  have there : template.shape.supplied key = (template.value? key).isSome :=
    (Registry.isSome_find? _ _).symm
  cases value : template.value? key with
  | none =>
    rw [value] at there
    exact .inl ⟨by rw [Shape.source?, there]; rfl, rfl⟩
  | some text =>
    rw [value] at there
    exact .inr ⟨.value key, text, by rw [Shape.source?, there]; rfl, rfl, value⟩

theorem names_rowSource {block : String} {index : Nat} {rows : List TemplateRow}
    {row : TemplateRow} (found : template.iterables.find? block = some rows)
    (at_ : rows[index]? = some row) :
    template.Names (template.shape.rowSource? block index fun key => (row.find? block key).isSome)
      (template.rowValue? block row) := by
  intro key
  cases value : row.find? block key with
  | none =>
    rw [Shape.rowSource?, rowValue?, value]
    exact template.names_source key
  | some text =>
    refine .inr ⟨.row block index key, text, ?_, ?_, ?_⟩
    · rw [Shape.rowSource?, value]
      rfl
    · rw [rowValue?, value]
      rfl
    · simp [content?, found, at_, value]

section Text

variable {template}
variable {source? : String → Option Source} {value? : String → Option String}

theorem writes_fill (names : template.Names source? value?) (segments : List Segment) :
    template.Writes (outlineFill source? segments) (fill value? segments) := by
  induction segments with
  | nil => exact .inr ⟨[], [], rfl, rfl, rfl⟩
  | cons segment rest ih =>
    cases segment with
    | literal c =>
      rw [outlineFill, fill]
      rcases ih with ⟨failure, outline, output⟩ | ⟨pieces, text, outline, output, written⟩
      · rw [outline, output]
        exact .inl ⟨failure, rfl, rfl⟩
      · rw [outline, output]
        refine .inr ⟨withChar c pieces, c :: text, rfl, rfl, ?_⟩
        rw [written?_withChar, written]
        rfl
    | scalar key =>
      rw [outlineFill, fill]
      rcases names key with ⟨source, value⟩ | ⟨source, value, found, bound, content⟩
      · rw [source, value]
        exact .inl ⟨_, rfl, rfl⟩
      · rw [found, bound]
        rcases ih with ⟨failure, outline, output⟩ | ⟨pieces, text, outline, output, written⟩
        · rw [outline, output]
          exact .inl ⟨failure, rfl, rfl⟩
        · rw [outline, output]
          refine .inr ⟨.inserted source :: pieces, value.toList ++ text, rfl, rfl, ?_⟩
          rw [written?, content, written]
          rfl

theorem writes_text (names : template.Names source? value?) (cs : List Char) :
    template.Writes (outlineText source? cs) (substitute value? cs) := by
  rw [outlineText, substitute]
  cases firstMarker? cs with
  | some marker => exact .inl ⟨_, rfl, rfl⟩
  | none => exact writes_fill names _

end Text

theorem Writes.append {template : Template} {outline outline' : Except TemplateFailure (List Piece)}
    {output output' : Except TemplateFailure (List Char)} (h : template.Writes outline output)
    (h' : template.Writes outline' output') :
    template.Writes (do pure ((← outline) ++ (← outline')))
      (do pure ((← output) ++ (← output'))) := by
  rcases h with ⟨failure, rfl, rfl⟩ | ⟨pieces, text, rfl, rfl, written⟩
  · exact .inl ⟨failure, rfl, rfl⟩
  rcases h' with ⟨failure, rfl, rfl⟩ | ⟨pieces', text', rfl, rfl, written'⟩
  · exact .inl ⟨failure, rfl, rfl⟩
  refine .inr ⟨pieces ++ pieces', text ++ text', rfl, rfl, ?_⟩
  rw [written?_append, written, written']
  rfl

theorem flatten_pair {α : Type} (first : Except TemplateFailure (List α))
    (others : Except TemplateFailure (List (List α))) :
    (do pure ((← first) :: (← others)) : Except TemplateFailure (List (List α))).map
        List.flatten =
      (do pure ((← first) ++ (← others.map List.flatten))) := by
  cases first <;> cases others <;> rfl

theorem flatten_blocks {α : Type} (front : List α)
    (copies rest : Except TemplateFailure (List (List α))) :
    (do pure (front :: (← copies) ++ (← rest)) : Except TemplateFailure (List (List α))).map
        List.flatten =
      (do
        let inner ← (do pure ((← .ok front) ++ (← copies.map List.flatten)))
        pure (inner ++ (← rest.map List.flatten))) := by
  cases copies with
  | error failure => rfl
  | ok copies =>
    cases rest with
    | error failure => rfl
    | ok rest => simp [Except.map, bind, Except.bind, pure, Except.pure]

theorem flatten_texts {α : Type} (front : List α)
    (copies : Except TemplateFailure (List (List α))) (rest : Except TemplateFailure (List α)) :
    (do pure (front ++ (← copies).flatten ++ (← rest))) =
      (do
        let inner ← (do pure ((← .ok front) ++ (← copies.map List.flatten)))
        pure (inner ++ (← rest))) := by
  cases copies with
  | error failure => rfl
  | ok copies => cases rest <;> rfl

theorem writes_copies {block : String} {rows : List TemplateRow}
    (found : template.iterables.find? block = some rows) (inner : List Char) (index : Nat)
    (later : List TemplateRow) (here : ∀ i : Nat, later[i]? = rows[index + i]?) :
    template.Writes
      ((template.shape.outlineCopies block inner index
        (later.map fun row key => (row.find? block key).isSome)).map List.flatten)
      ((later.mapM fun row => substitute (template.rowValue? block row) inner).map
        List.flatten) := by
  induction later generalizing index with
  | nil => exact .inr ⟨[], [], rfl, rfl, rfl⟩
  | cons row later ih =>
    have at_ : rows[index]? = some row := by simpa using (here 0).symm
    have behind (i : Nat) : later[i]? = rows[index + 1 + i]? := by
      have next := here (i + 1)
      rwa [List.getElem?_cons_succ, Nat.add_comm i 1, ← Nat.add_assoc] at next
    have first := writes_text (template.names_rowSource found at_) inner
    have others := ih (index + 1) behind
    rw [List.map_cons, Shape.outlineCopies, List.mapM_cons, flatten_pair, flatten_pair]
    exact first.append others

theorem outlineBlocks_eq (shape : Shape) (cs : List Char) :
    shape.outlineBlocks cs =
      (match Text.breakOn (MarkerKind.opening .iterable).start cs with
      | none => do pure [← outlineText shape.source? cs]
      | some (before, after) => do
        let front ← outlineText shape.source? before
        match cutBlock .iterable after with
        | .error unclosed => .error (.unterminatedBlock .iterable (String.ofList unclosed.key))
        | .ok cut =>
          match shape.rows? (String.ofList cut.key) with
          | none => .error (.unresolvedBlock .iterable (String.ofList cut.key))
          | some rows =>
            let copies ← shape.outlineCopies (String.ofList cut.key) cut.inner 0 rows
            let rest ← shape.outlineBlocks cut.rest
            pure (front :: copies ++ rest)) := by
  rw [Shape.outlineBlocks]
  split
  · rename_i h
    rw [h]
  · rename_i before after h
    rw [h]
    dsimp only
    congr 1
    funext front
    split
    · rename_i h'
      rw [h']
    · rename_i h'
      rw [h']

/-- Writing out the outline of a text gives what writing out its blocks gives. -/
theorem writes_blocks (cs : List Char) :
    template.Writes ((template.shape.outlineBlocks cs).map List.flatten)
      (template.repeatBlocks cs) := by
  induction n : cs.length using Nat.strongRecOn generalizing cs with
  | _ n ih =>
    subst n
    have value := template.names_source
    rw [outlineBlocks_eq, repeatBlocks_eq]
    cases found : Text.breakOn (MarkerKind.opening .iterable).start cs with
    | none =>
      have whole := writes_text value cs
      dsimp only
      cases outline : outlineText template.shape.source? cs with
      | error failure => rwa [outline] at whole
      | ok pieces =>
        rw [outline] at whole
        simpa [Except.map, bind, Except.bind, pure, Except.pure] using whole
    | some parts =>
      obtain ⟨before, after⟩ := parts
      have front := writes_text value before
      dsimp only
      rcases front with ⟨failure, outline, output⟩ | ⟨pieces, text, outline, output, written⟩
      · rw [outline, output]
        exact .inl ⟨failure, rfl, rfl⟩
      rw [outline, output]
      cases h : cutBlock .iterable after with
      | error unclosed => exact .inl ⟨_, rfl, rfl⟩
      | ok cut =>
        have later := ih _ (shorter_of_cutBlock found h).2 cut.rest rfl
        cases block : template.iterables.find? (String.ofList cut.key) with
        | none =>
          have unknown : template.shape.rows? (String.ofList cut.key) = none := by
            simp [shape, block]
          dsimp only [bind, Except.bind]
          rw [unknown, block]
          exact .inl ⟨_, rfl, rfl⟩
        | some rows =>
          have known : template.shape.rows? (String.ofList cut.key) =
              some (rows.map fun row key => (row.find? (String.ofList cut.key) key).isSome) := by
            simp [shape, block]
          have front : template.Writes (.ok pieces) (.ok text) := .inr ⟨_, _, rfl, rfl, written⟩
          have copies := template.writes_copies block cut.inner 0 rows (by simp)
          have all := (front.append copies).append later
          rw [← flatten_blocks, ← flatten_texts] at all
          dsimp only [bind, Except.bind] at all ⊢
          rw [known, block]
          exact all

end Writing

end Template
end Quire
