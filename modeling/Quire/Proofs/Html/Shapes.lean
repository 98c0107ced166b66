import Quire.Proofs.Html.Pieces

/-!
# The tags of a fragment

The tags of a fragment without the contents of their values, and what the ways to make and join
fragments do to them.
-/

namespace Quire.Html

namespace Attribute

/-- The names of attributes, and which of them have a value. -/
def shapes (attributes : List Attribute) : List WrittenAttribute :=
  attributes.map fun a => a.written.shape

@[simp]
theorem shapes_nil : shapes [] = [] := rfl

@[simp]
theorem shapes_cons_value (name value : String) (rest : List Attribute) :
    shapes (⟨name, some value⟩ :: rest) = ⟨name, some ""⟩ :: shapes rest := rfl

@[simp]
theorem shapes_cons_bare (name : String) (rest : List Attribute) :
    shapes (⟨name, none⟩ :: rest) = ⟨name, none⟩ :: shapes rest := rfl

@[simp]
theorem shapes_append (a b : List Attribute) : shapes (a ++ b) = shapes a ++ shapes b :=
  List.map_append

@[simp]
theorem shapes_optional (name : String) (value : Option String) :
    shapes (optional name value) = if value.isSome then [⟨name, some ""⟩] else [] := by
  cases value <;> rfl

@[simp]
theorem shapes_style (declarations : List (String × Option String)) :
    shapes (style declarations) =
      if declarations.any (·.2.isSome) then [⟨"style", some ""⟩] else [] := by
  have found : declarations.filterMap declaration? = [] ↔
      declarations.any (·.2.isSome) = false := by
    rw [List.filterMap_eq_nil_iff, List.any_eq_false]
    refine forall₂_congr fun declaration _ => ?_
    obtain ⟨property, _ | value⟩ := declaration <;> simp [declaration?]
  rw [style]
  split
  · rename_i none
    rw [found.mp none]
    rfl
  · rename_i some
    rw [(Bool.not_eq_false _).mp fun none => some (found.mpr none)]
    rfl

@[simp]
theorem shapes_classes (names : List (Option String)) :
    shapes (classes names) = if names.any Option.isSome then [⟨"class", some ""⟩] else [] := by
  have found : names.filterMap id = [] ↔ names.any Option.isSome = false := by
    rw [List.filterMap_eq_nil_iff, List.any_eq_false]
    refine forall₂_congr fun name _ => ?_
    cases name <;> simp
  rw [classes]
  split
  · rename_i none
    rw [found.mp none]
    rfl
  · rename_i some
    rw [(Bool.not_eq_false _).mp fun none => some (found.mpr none)]
    rfl

end Attribute

namespace Piece

/-- The tags of pieces without the contents of their values. -/
def shapes (pieces : List Piece) : List Tag := (tags pieces).map Tag.shape

@[simp]
theorem shapes_nil : shapes [] = [] := rfl

@[simp]
theorem shapes_cons_text (content : String) (rest : List Piece) :
    shapes (text content :: rest) = shapes rest := rfl

@[simp]
theorem shapes_cons_opening (name : String) (attributes : List Attribute) (rest : List Piece) :
    shapes (opening name attributes :: rest) =
      .opening name (Attribute.shapes attributes) :: shapes rest := by
  simp [shapes, tag?, Tag.shape, Attribute.shapes, Function.comp_def]

@[simp]
theorem shapes_cons_selfClosing (name : String) (attributes : List Attribute) (rest : List Piece) :
    shapes (selfClosing name attributes :: rest) =
      .selfClosing name (Attribute.shapes attributes) :: shapes rest := by
  simp [shapes, tag?, Tag.shape, Attribute.shapes, Function.comp_def]

@[simp]
theorem shapes_cons_closing (name : String) (rest : List Piece) :
    shapes (closing name :: rest) = .closing name :: shapes rest := rfl

@[simp]
theorem shapes_append (a b : List Piece) : shapes (a ++ b) = shapes a ++ shapes b := by
  rw [shapes, tags_append, List.map_append]
  rfl

end Piece

namespace Fragment

def shapes (fragment : Fragment) : List Tag := Piece.shapes fragment.pieces

variable (a b content : Fragment) (name : String) (attributes : List Attribute)

@[simp]
theorem shapes_append : (a ++ b).shapes = a.shapes ++ b.shapes := Piece.shapes_append _ _

@[simp]
theorem shapes_empty : empty.shapes = [] := rfl

@[simp]
theorem shapes_text (s : String) : (text s).shapes = [] := rfl

@[simp]
theorem shapes_lineBreak : lineBreak.shapes = [] := rfl

@[simp]
theorem shapes_warn (warning : Warning) : (warn warning).shapes = [] := rfl

@[simp]
theorem shapes_warnIf (condition : Bool) (warning : Warning) :
    (warnIf condition warning).shapes = [] := by
  cases condition <;> rfl

@[simp]
theorem shapes_selfClosing :
    (ofPiece (.selfClosing name attributes)).shapes =
      [.selfClosing name (Attribute.shapes attributes)] := by
  simp [shapes]

@[simp]
theorem shapes_element : (element name attributes content).shapes =
    .opening name (Attribute.shapes attributes) :: (content.shapes ++ [.closing name]) := by
  simp [shapes]

@[simp]
theorem shapes_lineElement : (lineElement name attributes content).shapes =
    .opening name (Attribute.shapes attributes) :: (content.shapes ++ [.closing name]) := by
  simp [shapes]

@[simp]
theorem shapes_blockElement : (blockElement name attributes content).shapes =
    .opening name (Attribute.shapes attributes) :: (content.shapes ++ [.closing name]) := by
  simp [shapes]

@[simp]
theorem shapes_concat (fragments : List Fragment) :
    (concat fragments).shapes = fragments.flatMap shapes := by
  induction fragments with
  | nil => rfl
  | cons first rest ih =>
    rw [List.flatMap_cons, ← ih, ← shapes_append]
    rfl

end Fragment

end Quire.Html
