import Quire.Template.Basic

/-!
# Placeholders

What a template asks for, in order of first appearance.
-/

namespace Quire.Template

inductive PlaceholderKind where
  | value | optionalValue | conditional | iterable
  deriving DecidableEq, Repr

structure Placeholder where
  key : String
  kind : PlaceholderKind
  deriving DecidableEq, Repr

/-- The key of a marker without the mark of inversion. -/
def plainKey : List Char → List Char
  | '!' :: key => key
  | key => key

/-- What a text asks for at its very start. -/
def placeholderAt? (template : Template) (cs : List Char) : Option Placeholder :=
  match markerAt? cs with
  | some (.opening .conditional, key) => some ⟨String.ofList (plainKey key), .conditional⟩
  | some (.opening .iterable, key) => some ⟨String.ofList (plainKey key), .iterable⟩
  | some (.closing _, _) => none
  | none =>
    (scalarAt? cs).map fun key =>
      let key := String.ofList key
      ⟨key, if template.optionalKeys.contains key then .optionalValue else .value⟩

def placeholdersIn (template : Template) : List Char → List Placeholder
  | [] => []
  | c :: rest => (template.placeholderAt? (c :: rest)).toList ++ template.placeholdersIn rest

/-- Each placeholder once. A value under the key of a repeated block stands for its rows and is not
asked for. -/
def placeholders (template : Template) : List Placeholder :=
  let found := template.placeholdersIn template.text.toList
  let repeated := found.filter (·.kind == .iterable) |>.map (·.key)
  (found.filter fun p => !(p.kind == .value && repeated.contains p.key)).eraseDups

end Quire.Template
