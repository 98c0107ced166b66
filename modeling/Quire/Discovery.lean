import Quire.Document.Node
import Quire.Document.PlainText
import Quire.Index.Basic

/-!
# Discovery

One pass over a document that fills its index. Observers see every node in preorder, in their
order of attachment, and each one is responsible for one kind of finding.
-/

namespace Quire

/-- The number of heading levels that count. Deeper headings are taken as the last level. -/
def deepestLevel : Nat := 6

/-- The sections that are open, and the counts of figures and tables since the last heading of
each level, level zero being the start of the document. -/
structure Place where
  sections : List Nat := []
  figures : List Nat := List.replicate (deepestLevel + 1) 0
  tables : List Nat := List.replicate (deepestLevel + 1) 0
  deriving DecidableEq, Repr

namespace Place

/-- Enter a section at a level. Levels that were left out have the number zero. -/
def openSection (sections : List Nat) (level : Nat) : List Nat :=
  let outer := sections.take (level - 1)
  outer ++ List.replicate (level - 1 - outer.length) 0 ++ [sections[level - 1]?.getD 0 + 1]

/-- Start the counts of a level and all below it afresh. -/
def resetFrom (level : Nat) (counts : List Nat) : List Nat :=
  counts.take level ++ List.replicate (counts.length - level) 0

/-- Pass a heading of a level from one on. -/
def enter (place : Place) (level : Nat) : Place :=
  { sections := openSection place.sections level
    figures := resetFrom level place.figures
    tables := resetFrom level place.tables }

def countFigure (place : Place) : Place :=
  { place with figures := place.figures.map (· + 1) }

def countTable (place : Place) : Place :=
  { place with tables := place.tables.map (· + 1) }

end Place

/-- One duty of the pass. Locations depend on what was passed before, and a recorder keeps a
journal of all nodes under its name. -/
inductive Observer where
  | linkDefinitions
  | identifiers
  | locations (place : Place)
  | presence (capability : Capability)
  | recorder (name : String)
  deriving DecidableEq, Repr

namespace Observer

def name : Observer → String
  | linkDefinitions => "link-definitions"
  | identifiers => "identifiers"
  | locations _ => "locations"
  | presence capability => capability.name ++ "-presence"
  | recorder name => name

def standard : List Observer :=
  [linkDefinitions, identifiers, locations {}, presence .code, presence .mermaidDiagram,
   presence .tikzDiagram, presence .math]

end Observer

def Node.needs : Node → Capability → Bool
  | .block (.codeBlock ..), .code => true
  | .inline (.codeSpan ..), .code => true
  | .block (.math ..), .math => true
  | .inline (.mathSpan ..), .math => true
  | .block (.mermaidDiagram ..), .mermaidDiagram => true
  | .block (.tikzDiagram ..), .tikzDiagram => true
  | _, _ => false

def Node.entry : Node → String
  | .block b => "block " ++ blockKind b
  | .inline i => "inline " ++ inlineKind i

/-- The index so far, and the journal of the recorders with the last entry first. -/
structure Findings where
  index : Index := {}
  journal : List String := []
  deriving DecidableEq, Repr

namespace Observer

def observeLocation (place : Place) (index : Index) : Node → Place × Index
  | .block (.heading depth _ _) =>
    if depth = 0 then (place, index)
    else
      let place := place.enter (min depth.toNat deepestLevel)
      (place, index.record .heading ⟨place.sections, []⟩)
  | .block (.figure ..) =>
    let place := place.countFigure
    (place, index.record .figure ⟨place.sections, place.figures⟩)
  | .block (.table ..) =>
    let place := place.countTable
    (place, index.record .table ⟨place.sections, place.tables⟩)
  | _ => (place, index)

/-- Every heading gets an identifier, by its own choice or from its text. -/
def observeIdentifier (index : Index) : Node → Index
  | .block (.heading depth content customId) =>
    let text := Inline.plainTexts content
    (index.identify (customId.getD text) ⟨depth, text, customId.isSome⟩).2
  | _ => index

def observeLinkDefinition (index : Index) : Node → Index
  | .block (.linkDefinition definition) => (index.define definition).2
  | _ => index

def observe (node : Node) (findings : Findings) : Observer → Observer × Findings
  | linkDefinitions =>
    (linkDefinitions, { findings with index := observeLinkDefinition findings.index node })
  | identifiers => (identifiers, { findings with index := observeIdentifier findings.index node })
  | locations place =>
    let (place, index) := observeLocation place findings.index node
    (locations place, { findings with index := index })
  | presence capability =>
    (presence capability,
      if node.needs capability then { findings with index := findings.index.mark capability }
      else findings)
  | recorder name =>
    (recorder name,
      { findings with journal := (name ++ " " ++ node.entry) :: findings.journal })

def observeAll (node : Node) : List Observer → Findings → List Observer × Findings
  | [], findings => ([], findings)
  | observer :: rest, findings =>
    let (observer, findings) := observer.observe node findings
    let (rest, findings) := observeAll node rest findings
    (observer :: rest, findings)

end Observer

/-- A pass under way. The observers keep what they know from one document to the next. -/
structure Discovery where
  observers : List Observer := Observer.standard
  findings : Findings := {}
  visited : Nat := 0
  deriving DecidableEq, Repr

namespace Discovery

def visit (discovery : Discovery) (node : Node) : Discovery :=
  let (observers, findings) :=
    Observer.observeAll node discovery.observers discovery.findings
  ⟨observers, findings, discovery.visited + 1⟩

def explore (discovery : Discovery) (document : Document) : Discovery :=
  Node.walk visit discovery document.roots

def index (discovery : Discovery) : Index := discovery.findings.index

end Discovery

/-- The index of a document that the standard observers fill. -/
def Document.index (document : Document) : Index := (Discovery.explore {} document).index

end Quire
