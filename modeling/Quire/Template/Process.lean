import Quire.Template.Basic

/-!
# Processing a template

Conditional blocks are decided first, on the whole text. Then repeated blocks are written out and
scalars replaced. Supplied texts are never looked at again, so they may hold anything.
-/

namespace Quire.Template

/-- Replace scalars. The first one without a value is reported. -/
def fill (value? : String → Option String) : List Segment → Except TemplateFailure (List Char)
  | [] => .ok []
  | .literal c :: rest => do pure (c :: (← fill value? rest))
  | .scalar key :: rest =>
    match value? key with
    | some value => do pure (value.toList ++ (← fill value? rest))
    | none => .error (.missingValue key)

/-- Replace the scalars of a text that has no markers. -/
def substitute (value? : String → Option String) (cs : List Char) :
    Except TemplateFailure (List Char) :=
  match firstMarker? cs with
  | some (marker, key) => .error (.strayMarker marker (String.ofList key))
  | none => fill value? (segments cs)

def value? (template : Template) (key : String) : Option String := template.values.find? key

/-- The value of a scalar inside a repeated block, where the row comes first. -/
def rowValue? (template : Template) (block : String) (row : TemplateRow) (key : String) :
    Option String :=
  (row.find? block key).or (template.value? key)

/-- The condition behind the key of a block, and whether the block shows when it fails. -/
def conditionOf : List Char → List Char × Bool
  | '!' :: key => (key, true)
  | key => (key, false)

def shows? (template : Template) (key : List Char) : Except TemplateFailure Bool :=
  let (key, inverted) := conditionOf key
  match template.conditionals.find? (String.ofList key) with
  | some holds => .ok (holds != inverted)
  | none => .error (.unresolvedBlock .conditional (String.ofList key))

/-- Decide the conditional blocks of a text, and those inside the ones that show. -/
def decideBlocks (template : Template) (cs : List Char) : Except TemplateFailure (List Char) :=
  match _ : Text.breakOn (MarkerKind.opening .conditional).start cs with
  | none => .ok cs
  | some (before, after) =>
    match _ : cutBlock .conditional after with
    | .error unclosed => .error (.unterminatedBlock .conditional (String.ofList unclosed.key))
    | .ok cut => do
      let inner ←
        if ← template.shows? cut.key then template.decideBlocks cut.inner else pure []
      let rest ← template.decideBlocks cut.rest
      pure (before ++ inner ++ rest)
termination_by cs.length
decreasing_by
  all_goals
    have := Text.length_of_breakOn ‹Text.breakOn _ cs = some _›
    have := length_of_cutBlock ‹cutBlock _ _ = .ok _›
    simp [MarkerKind.start] at *
    omega

/-- Write the repeated blocks of a text out and replace its scalars. -/
def repeatBlocks (template : Template) (cs : List Char) : Except TemplateFailure (List Char) :=
  match _ : Text.breakOn (MarkerKind.opening .iterable).start cs with
  | none => substitute template.value? cs
  | some (before, after) => do
    let front ← substitute template.value? before
    match _ : cutBlock .iterable after with
    | .error unclosed => .error (.unterminatedBlock .iterable (String.ofList unclosed.key))
    | .ok cut =>
      let key := String.ofList cut.key
      match template.iterables.find? key with
      | none => .error (.unresolvedBlock .iterable key)
      | some rows =>
        let copies ← rows.mapM fun row => substitute (template.rowValue? key row) cut.inner
        let rest ← template.repeatBlocks cut.rest
        pure (front ++ copies.flatten ++ rest)
termination_by cs.length
decreasing_by
  all_goals
    have := Text.length_of_breakOn ‹Text.breakOn _ cs = some _›
    have := length_of_cutBlock ‹cutBlock _ _ = .ok _›
    simp [MarkerKind.start] at *
    omega

def process (template : Template) : Except TemplateFailure String := do
  let decided ← template.decideBlocks template.text.toList
  pure (String.ofList (← template.repeatBlocks decided))

end Quire.Template
