import Quire.Proofs.Template.Search

/-!
# Template syntax

Templates as trees of texts, scalars, conditional blocks and loops. A tree is written as template
text, and it has a value that says nothing of searches, passes or markers.
-/

namespace Quire.Template

open Text (Quiet)

/-- A row of letters, digits, `_` and `-`. -/
structure Key where
  chars : List Char
  ne_nil : chars ≠ []
  valid : ∀ c ∈ chars, isKeyChar c = true
  deriving DecidableEq

namespace Key

def ofString (s : String) (ne_nil : s.toList ≠ [] := by simp)
    (valid : s.toList.all isKeyChar = true := by rw [String.toList_ofList]; decide) : Key :=
  ⟨s.toList, ne_nil, List.all_eq_true.mp valid⟩

def text (key : Key) : String := String.ofList key.chars

/-- The key in a marker, with `!` in front when the condition is inverted. -/
def marked (key : Key) (inverted : Bool) : List Char :=
  if inverted then '!' :: key.chars else key.chars

theorem marked_false (key : Key) : key.marked false = key.chars := rfl

theorem marked_true (key : Key) : key.marked true = '!' :: key.chars := rfl

theorem marked_isMarkerKey (key : Key) (inverted : Bool) : IsMarkerKey (key.marked inverted) := by
  have plain : IsMarkerKey key.chars := fun c mem => .inl (key.valid c mem)
  cases inverted with
  | false => exact plain
  | true =>
    intro c mem
    rcases List.mem_cons.mp mem with rfl | mem
    · exact .inr rfl
    · exact plain c mem

theorem chars_injective {a b : Key} (h : a.chars = b.chars) : a = b := by
  cases a
  cases b
  simp_all

theorem head_ne (key : Key) (rest : List Char) : key.chars ≠ '!' :: rest := by
  intro h
  have inside : '!' ∈ key.chars := by simp [h]
  exact isKeyChar_ne (key.valid _ inside) (by decide) rfl

theorem marked_injective {a b : Key} {i j : Bool} (h : a.marked i = b.marked j) :
    (i, a) = (j, b) := by
  cases i <;> cases j <;> simp only [marked, if_true, Bool.false_eq_true, if_false] at h
  · rw [chars_injective h]
  · exact absurd h (a.head_ne _)
  · exact absurd h.symm (b.head_ne _)
  · rw [chars_injective (List.cons.inj h).2]

end Key

/-- A text that stands for itself: no double bracket starts in it, whatever comes behind. -/
structure Literal where
  chars : List Char
  no_brackets : ¬ ['[', '['] <:+: chars
  no_end : chars.getLast? ≠ some '['

def isPlain : List Char → Bool
  | '[' :: '[' :: _ => false
  | ['['] => false
  | _ :: rest => isPlain rest
  | [] => true

theorem plain_of_isPlain {cs : List Char} (h : isPlain cs = true) :
    ¬ ['[', '['] <:+: cs ∧ cs.getLast? ≠ some '[' := by
  fun_induction isPlain cs with
  | case1 => contradiction
  | case2 => contradiction
  | case3 c rest first last ih =>
    obtain ⟨inside, atEnd⟩ := ih h
    constructor
    · intro k
      rcases List.infix_cons_iff.mp k with ⟨behind, eq⟩ | k
      · simp only [List.cons_append, List.nil_append, List.cons.injEq] at eq
        exact first behind eq.1.symm eq.2.symm
      · exact inside k
    · cases rest with
      | nil =>
        intro eq
        exact last (Option.some.inj eq) rfl
      | cons d rest => rwa [List.getLast?_cons_cons]
  | case4 => simp

def Literal.ofString (s : String)
    (plain : isPlain s.toList = true := by rw [String.toList_ofList]; decide) : Literal :=
  ⟨s.toList, (plain_of_isPlain plain).1, (plain_of_isPlain plain).2⟩

inductive Part where
  | literal (text : Literal)
  | scalar (key : Key)
  | conditional (inverted : Bool) (key : Key) (body : List Part)
  | loop (key : Key) (body : List Part)

def blockText (kind : BlockKind) (key body : List Char) : List Char :=
  (MarkerKind.opening kind).withKey key ++ (body ++ (MarkerKind.closing kind).withKey key)

mutual

def Part.write : Part → List Char
  | .literal text => text.chars
  | .scalar key => scalarText key.chars
  | .conditional inverted key body =>
    blockText .conditional (key.marked inverted) (Part.writeAll body)
  | .loop key body => blockText .iterable key.chars (Part.writeAll body)

def Part.writeAll : List Part → List Char
  | [] => []
  | part :: rest => part.write ++ Part.writeAll rest

end

/-- The blocks that are open at some place: conditions with their inversions, and loops. -/
structure OpenBlocks where
  conditions : List (Bool × Key) := []
  inLoop : Bool := false

mutual

/-- No block stands in another one with the same marker and key, and no loop in a loop. -/
def Part.fits (blocks : OpenBlocks) : Part → Bool
  | .literal _ => true
  | .scalar _ => true
  | .conditional inverted key body =>
    decide ((inverted, key) ∉ blocks.conditions) &&
      Part.allFit { blocks with conditions := (inverted, key) :: blocks.conditions } body
  | .loop _ body => !blocks.inLoop && Part.allFit { blocks with inLoop := true } body

def Part.allFit (blocks : OpenBlocks) : List Part → Bool
  | [] => true
  | part :: rest => part.fits blocks && Part.allFit blocks rest

end

structure Tree where
  parts : List Part
  nested : Part.allFit {} parts = true

def Tree.text (tree : Tree) : String := String.ofList (Part.writeAll tree.parts)

mutual

/-- What a part contributes, given the values of its scalars. -/
def Part.value (template : Template) : Part → (value? : String → Option String) →
    Except TemplateFailure (List Char)
  | .literal text, _ => .ok text.chars
  | .scalar key, value? =>
    match value? key.text with
    | some value => .ok value.toList
    | none => .error (.missingValue key.text)
  | .conditional inverted key body, value? =>
    match template.conditionals.find? key.text with
    | some holds => if holds != inverted then Part.valueAll template body value? else .ok []
    | none => .error (.unresolvedBlock .conditional key.text)
  | .loop key body, value? =>
    match template.iterables.find? key.text with
    | some rows => do
      let copies ← rows.mapM fun row =>
        Part.valueAll template body fun k => (row.find? key.text k).or (value? k)
      pure copies.flatten
    | none => .error (.unresolvedBlock .iterable key.text)

def Part.valueAll (template : Template) : List Part → (value? : String → Option String) →
    Except TemplateFailure (List Char)
  | [], _ => .ok []
  | part :: rest, value? => do
    let first ← part.value template value?
    let others ← Part.valueAll template rest value?
    pure (first ++ others)

end

mutual

/-- The first condition that is not set, in text order and outside of blocks that do not show. -/
def Part.undecided? (template : Template) : Part → Option Key
  | .literal _ => none
  | .scalar _ => none
  | .conditional inverted key body =>
    match template.conditionals.find? key.text with
    | some holds => if holds != inverted then Part.firstUndecided? template body else none
    | none => some key
  | .loop _ body => Part.firstUndecided? template body

def Part.firstUndecided? (template : Template) : List Part → Option Key
  | [] => none
  | part :: rest => (part.undecided? template).or (Part.firstUndecided? template rest)

end

/-- The value of a whole template. Conditions that are not set are reported before all else. -/
def Tree.evaluate (tree : Tree) (template : Template) : Except TemplateFailure String :=
  match Part.firstUndecided? template tree.parts with
  | some key => .error (.unresolvedBlock .conditional key.text)
  | none => do
    let value ← Part.valueAll template tree.parts template.value?
    pure (String.ofList value)

end Quire.Template
