import Quire.Yaml.Tokens

/-!
# YAML nodes

The tree that tokens spell, with tags resolved and every alias next to what it names. An alias
inside the very node that it names has no tree and is kept apart.
-/

namespace Quire.Yaml

inductive Node where
  | scalar (tag : Option String) (style : ScalarStyle) (text : String)
  | sequence (tag : Option String) (items : List Node)
  | mapping (tag : Option String) (entries : List (Node × Node))
  | alias (target : Node)
  | cycle
  deriving Repr, Inhabited

/-- A name for a node. The node is missing as long as it is being read. `jumps` counts the aliases
that are met on a walk through the node. -/
structure Anchor where
  name : String
  node : Option Node := none
  jumps : Nat := 0
  deriving Repr

structure Reading where
  tokens : List Token
  /-- Handles of the document and what they stand for. -/
  handles : List (String × String)
  anchors : Array Anchor := #[]
  /-- The number of scalars, aliases, and starts and ends of collections so far. -/
  events : Nat := 0
  /-- The number of aliases met so far on a walk through everything. -/
  jumps : Nat := 0
  deriving Repr

namespace Reading

def peek? (r : Reading) : Option Token := r.tokens.head?

def skip (r : Reading) : Reading := { r with tokens := r.tokens.tail }

def count (r : Reading) (events : Nat) : Reading := { r with events := r.events + events }

/-- The node that an alias stands for: the last one with its name. -/
def resolve (r : Reading) (name : String) : Option (Node × Reading) := do
  let anchor ← r.anchors.toList.reverse.find? (·.name == name)
  match anchor.node with
  | some node =>
    pure (.alias node, { r.count 1 with jumps := r.jumps + anchor.jumps + 1 })
  | none => pure (.cycle, r.count 1)

def openAnchor (r : Reading) : Option String → Reading
  | some name => { r with anchors := r.anchors.push { name } }
  | none => r

/-- Complete the name that was registered at a place, given the jumps before its node. -/
def closeAnchor (r : Reading) (place jumpsBefore : Nat) (name : Option String) (node : Node) :
    Reading :=
  match name with
  | some name =>
    { r with anchors := r.anchors.setIfInBounds place ⟨name, some node, r.jumps - jumpsBefore⟩ }
  | none => r

end Reading

/-- An anchor and a tag in front of a node. -/
structure Properties where
  anchor : Option String := none
  tag : Option (String × String) := none
  deriving DecidableEq, Repr

/-- Anchor and tag may come in either order, each at most once. -/
def readProperties (r : Reading) : Properties × Reading :=
  match r.tokens with
  | .anchor name :: .tag handle suffix :: rest =>
    ({ anchor := some name, tag := some (handle, suffix) }, { r with tokens := rest })
  | .tag handle suffix :: .anchor name :: rest =>
    ({ anchor := some name, tag := some (handle, suffix) }, { r with tokens := rest })
  | .anchor name :: rest => ({ anchor := some name }, { r with tokens := rest })
  | .tag handle suffix :: rest => ({ tag := some (handle, suffix) }, { r with tokens := rest })
  | _ => ({}, r)

/-- A tag in full. An empty handle leaves the suffix as it is. -/
def resolveTag (handles : List (String × String)) :
    Option (String × String) → Option (Option String)
  | none => some none
  | some (handle, suffix) =>
    if handle.isEmpty then some (some suffix)
    else (handles.lookup handle).map fun uri => some (uri ++ suffix)

/-- The single `!` leaves the meaning of a written scalar to its text. -/
def scalarOf (tag : Option String) (style : ScalarStyle) (text : String) : Node :=
  if tag == some "!" then .scalar none style text else .scalar tag style text

def emptyScalar : Node := .scalar none .plain ""

inductive NodePlace where
  | flow
  | block
  /-- An item or value of a block mapping, where a sequence needs no indentation of its own. -/
  | mappingEntry
  deriving DecidableEq, Repr

def endsMappingEntry : Option Token → Bool
  | some .key | some .value | some .blockEnd => true
  | _ => false

mutual

def readNode : Nat → NodePlace → Reading → Option (Node × Reading)
  | 0, _, _ => none
  | steps + 1, at_, r =>
    match r.peek? with
    | some (.alias name) => r.skip.resolve name
    | _ => do
      let (properties, r) := readProperties r
      let tag ← resolveTag r.handles properties.tag
      let place := r.anchors.size
      let before := r.jumps
      let r := r.openAnchor properties.anchor
      let (node, r) ← readContent steps at_ properties tag r
      pure (node, r.closeAnchor place before properties.anchor node)

def readContent :
    Nat → NodePlace → Properties → Option String → Reading → Option (Node × Reading)
  | 0, _, _, _, _ => none
  | steps + 1, at_, properties, tag, r =>
    let block := at_ != .flow
    match r.peek? with
    | some (.scalar style text) => some (scalarOf tag style text, r.skip.count 1)
    | some .flowSequenceStart => do
      let (items, r) ← readFlowItems steps true [] (r.skip.count 2)
      pure (.sequence tag items, r)
    | some .flowMappingStart => do
      let (entries, r) ← readFlowEntries steps true [] (r.skip.count 2)
      pure (.mapping tag entries, r)
    | some token =>
      if at_ == .mappingEntry && token == .blockEntry then do
        let (items, r) ← readLooseItems steps [] (r.count 2)
        pure (.sequence tag items, r)
      else if block && token == .blockSequenceStart then do
        let (items, r) ← readBlockItems steps [] (r.skip.count 2)
        pure (.sequence tag items, r)
      else if block && token == .blockMappingStart then do
        let (entries, r) ← readBlockEntries steps [] (r.skip.count 2)
        pure (.mapping tag entries, r)
      else if properties == {} then none
      else some (.scalar tag .plain "", r.count 1)
    | none => none

def readBlockItems : Nat → List Node → Reading → Option (List Node × Reading)
  | 0, _, _ => none
  | steps + 1, items, r =>
    match r.peek? with
    | some .blockEntry =>
      let r := r.skip
      match r.peek? with
      | some .blockEntry | some .blockEnd =>
        readBlockItems steps (emptyScalar :: items) (r.count 1)
      | _ =>
        match readNode steps .block r with
        | some (item, r) => readBlockItems steps (item :: items) r
        | none => none
    | some .blockEnd => some (items.reverse, r.skip)
    | _ => none

/-- Items of a sequence that is indented like the mapping around it. It ends with its dashes. -/
def readLooseItems : Nat → List Node → Reading → Option (List Node × Reading)
  | 0, _, _ => none
  | steps + 1, items, r =>
    match r.peek? with
    | some .blockEntry =>
      let r := r.skip
      if r.peek? == some .blockEntry || endsMappingEntry r.peek? then
        readLooseItems steps (emptyScalar :: items) (r.count 1)
      else
        match readNode steps .block r with
        | some (item, r) => readLooseItems steps (item :: items) r
        | none => none
    | some _ => some (items.reverse, r)
    | none => none

def readBlockEntries : Nat → List (Node × Node) → Reading → Option (List (Node × Node) × Reading)
  | 0, _, _ => none
  | steps + 1, entries, r =>
    match r.peek? with
    | some .key =>
      match readBlockPart steps r.skip with
      | none => none
      | some (key, r) =>
        match r.peek? with
        | some .value =>
          match readBlockPart steps r.skip with
          | some (value, r) => readBlockEntries steps ((key, value) :: entries) r
          | none => none
        | some _ => readBlockEntries steps ((key, emptyScalar) :: entries) (r.count 1)
        | none => none
    | some .blockEnd => some (entries.reverse, r.skip)
    | _ => none

/-- A key or a value of a block mapping, which may be left out. -/
def readBlockPart : Nat → Reading → Option (Node × Reading)
  | 0, _ => none
  | steps + 1, r =>
    if endsMappingEntry r.peek? then some (emptyScalar, r.count 1)
    else readNode steps .mappingEntry r

/-- Items of a flow sequence. All but the first one follow a comma. -/
def readFlowItems : Nat → Bool → List Node → Reading → Option (List Node × Reading)
  | 0, _, _, _ => none
  | steps + 1, first, items, r =>
    match r.peek? with
    | some .flowSequenceEnd => some (items.reverse, r.skip)
    | some token =>
      if !first && token != .flowEntry then none
      else
        let r := if first then r else r.skip
        match r.peek? with
        | some .flowSequenceEnd => some (items.reverse, r.skip)
        | some .key =>
          match readPair steps (r.skip.count 2) with
          | some (item, r) => readFlowItems steps false (item :: items) r
          | none => none
        | _ =>
          match readNode steps .flow r with
          | some (item, r) => readFlowItems steps false (item :: items) r
          | none => none
    | none => none

/-- A mapping of one entry inside a flow sequence, behind its key marker. Where the key is left out
the token in its place is passed over. -/
def readPair : Nat → Reading → Option (Node × Reading)
  | 0, _ => none
  | steps + 1, r => do
    let (key, r) ←
      match r.peek? with
      | some .value | some .flowEntry | some .flowSequenceEnd =>
        some (emptyScalar, r.skip.count 1)
      | _ => readNode steps .flow r
    let (value, r) ←
      match r.peek? with
      | some .value =>
        let r := r.skip
        match r.peek? with
        | some .flowEntry | some .flowSequenceEnd => some (emptyScalar, r.count 1)
        | _ => readNode steps .flow r
      | some _ => some (emptyScalar, r.count 1)
      | none => none
    pure (.mapping none [(key, value)], r)

def readFlowEntries :
    Nat → Bool → List (Node × Node) → Reading → Option (List (Node × Node) × Reading)
  | 0, _, _, _ => none
  | steps + 1, first, entries, r =>
    match r.peek? with
    | some .flowMappingEnd => some (entries.reverse, r.skip)
    | some token =>
      if !first && token != .flowEntry then none
      else
        let r := if first then r else r.skip
        match r.peek? with
        | some .flowMappingEnd => some (entries.reverse, r.skip)
        | some .key =>
          match readFlowEntry steps r.skip with
          | some (entry, r) => readFlowEntries steps false (entry :: entries) r
          | none => none
        | _ =>
          match readNode steps .flow r with
          | some (key, r) =>
            readFlowEntries steps false ((key, emptyScalar) :: entries) (r.count 1)
          | none => none
    | none => none

def readFlowEntry : Nat → Reading → Option ((Node × Node) × Reading)
  | 0, _ => none
  | steps + 1, r => do
    let (key, r) ← readFlowPart steps r
    match r.peek? with
    | some .value =>
      let (value, r) ← readFlowPart steps r.skip
      pure ((key, value), r)
    | some _ => pure ((key, emptyScalar), r.count 1)
    | none => none

def readFlowPart : Nat → Reading → Option (Node × Reading)
  | 0, _ => none
  | steps + 1, r =>
    match r.peek? with
    | some .value | some .flowEntry | some .flowMappingEnd => some (emptyScalar, r.count 1)
    | _ => readNode steps .flow r

end

end Quire.Yaml
