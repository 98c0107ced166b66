/-!
# Capabilities

Features of a page whose scripts ship only when the document needs them.
-/

namespace Quire

inductive Capability where
  | code | math | mermaidDiagram | tikzDiagram
  deriving DecidableEq, Repr

namespace Capability

def name : Capability → String
  | code => "code"
  | math => "math"
  | mermaidDiagram => "mermaid-diagram"
  | tikzDiagram => "tikz-diagram"

def all : List Capability := [code, math, mermaidDiagram, tikzDiagram]

def ofName? (name : String) : Option Capability := all.find? (·.name == name)

end Capability

structure Presence where
  code : Bool := false
  math : Bool := false
  mermaidDiagram : Bool := false
  tikzDiagram : Bool := false
  deriving DecidableEq, Repr

namespace Presence

def has (presence : Presence) : Capability → Bool
  | .code => presence.code
  | .math => presence.math
  | .mermaidDiagram => presence.mermaidDiagram
  | .tikzDiagram => presence.tikzDiagram

def mark (presence : Presence) : Capability → Presence
  | .code => { presence with code := true }
  | .math => { presence with math := true }
  | .mermaidDiagram => { presence with mermaidDiagram := true }
  | .tikzDiagram => { presence with tikzDiagram := true }

def toList (presence : Presence) : List Capability := Capability.all.filter presence.has

end Presence
end Quire
