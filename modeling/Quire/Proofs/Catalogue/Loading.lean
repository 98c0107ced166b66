import Quire.Bundle.Assembly
import Quire.Bundle.Writing
import Quire.Catalogue.Builtin
import Quire.Catalogue.Directory
import Quire.Proofs.Registry

/-!
# Loading what a catalogue contains

What a catalogue holds under a path decides whether it contains the path and what loading it gives.
The two agree on texts and on what is missing. They part at a file that is no text, and at a path in
a single directory that ends at something other than a file.
-/

namespace Quire.Catalogue

/-- The ways to make a catalogue over a storage. -/
inductive Source where
  | memory (texts : Registry String)
  | builtin
  | directory (root : String)
  | layered (layers : List Source)

inductive Held where
  | text (content : String)
  /-- A file whose bytes are no text. -/
  | bytes
  deriving DecidableEq, Repr

def Held.ofBytes (bytes : ByteArray) : Held :=
  match String.fromUTF8? bytes with
  | some content => .text content
  | none => .bytes

/-- What loading a path gives, by what is held there and by what stands in the way. -/
def outcome (path : String) : Option Held → Option FileFault → Except LoadFailure String
  | some (.text content), _ => .ok content
  | some .bytes, _ => .error (.unreadable .notText)
  | none, some fault => .error (.unreadable fault)
  | none, none => .error (.missing path)

namespace Source

variable (storage : Storage)

mutual

def catalogue : Source → Catalogue
  | memory texts => .ofRegistry texts
  | builtin => .builtin
  | directory root => .directory storage root
  | layered layers => .layered (catalogues layers)

def catalogues : List Source → List Catalogue
  | [] => []
  | layer :: rest => layer.catalogue :: catalogues rest

end

variable (path : String)

mutual

/-- What is held under a path. Of layers it is what the first one holds that holds anything. -/
def held? : Source → Option Held
  | memory texts => (texts.find? path).map .text
  | builtin => (Builtin.find? path).map .text
  | directory root =>
    match (fileBelow? root path).map storage.find with
    | some (.ok (.file bytes)) => some (.ofBytes bytes)
    | _ => none
  | layered layers => firstHeld? layers

def firstHeld? : List Source → Option Held
  | [] => none
  | layer :: rest => layer.held?.or (firstHeld? rest)

end

/-- What stands at a path below a directory where no file is: a directory, or a step that the
storage cannot take for another reason than that nothing is there. -/
def obstruction? : Source → Option FileFault
  | directory root =>
    match (fileBelow? root path).map storage.find with
    | some (.ok .directory) => some .isADirectory
    | some (.error fault) => if fault = .notFound then none else some fault
    | _ => none
  | _ => none

/-- A catalogue contains what it holds, and loads it if nothing is wrong with it. -/
structure Tells (catalogue : Catalogue) (held : Option Held) (obstruction : Option FileFault) :
    Prop where
  contains : catalogue.contains path = held.isSome
  load : catalogue.load path = outcome path held obstruction

theorem tells_texts {catalogue : Catalogue} {text : Option String}
    (contains : catalogue.contains path = text.isSome)
    (load : catalogue.load path = found path text) :
    Tells path catalogue (text.map .text) none := by
  refine ⟨by rw [contains, Option.isSome_map], ?_⟩
  rw [load]
  cases text <;> rfl

theorem tells_directory (root : String) :
    Tells path (.directory storage root) ((directory root).held? storage path)
      ((directory root).obstruction? storage path) := by
  rw [held?, obstruction?]
  constructor
  · simp only [Catalogue.directory, Storage.isFile]
    cases fileBelow? root path with
    | none => rfl
    | some file =>
      simp only [Option.map_some]
      rcases storage.find file with _ | _ | _ <;> rfl
  · simp only [Catalogue.directory]
    cases fileBelow? root path with
    | none => rfl
    | some file =>
      simp only [Option.map_some, loadFile, Storage.readText]
      rcases storage.find file with fault | bytes | _
      · cases fault <;> rfl
      · simp only [Held.ofBytes, bind, Except.bind]
        cases String.fromUTF8? bytes <;> rfl
      · rfl

theorem tells_nil : Tells path (.layered []) none none := ⟨rfl, rfl⟩

theorem tells_cons {first : Catalogue} {rest : List Catalogue} {held others : Option Held}
    {obstruction : Option FileFault} (h : Tells path first held obstruction)
    (later : Tells path (.layered rest) others none) :
    Tells path (.layered (first :: rest)) (held.or others) none := by
  have contains : (Catalogue.layered (first :: rest)).contains path =
      (first.contains path || (Catalogue.layered rest).contains path) := rfl
  refine ⟨by rw [contains, h.contains, later.contains, Option.isSome_or], ?_⟩
  have here := h.contains
  cases held with
  | none =>
    have skipped : (Catalogue.layered (first :: rest)).load path =
        (Catalogue.layered rest).load path := by
      simp [Catalogue.layered, show first.contains path = false from here]
    rw [skipped, later.load, Option.none_or]
  | some held =>
    have taken : (Catalogue.layered (first :: rest)).load path = first.load path := by
      simp [Catalogue.layered, show first.contains path = true from here]
    rw [taken, h.load]
    cases held <;> rfl

mutual

theorem tells_catalogue : (source : Source) → Tells path (source.catalogue storage)
    (source.held? storage path) (source.obstruction? storage path)
  | memory texts => by
    rw [catalogue, held?]
    exact tells_texts path (texts.isSome_find? path).symm rfl
  | builtin => by
    rw [catalogue, held?]
    exact tells_texts path rfl rfl
  | directory root => by
    rw [catalogue]
    exact tells_directory storage path root
  | layered layers => by
    rw [catalogue, held?]
    exact tells_catalogues layers

theorem tells_catalogues : (layers : List Source) →
    Tells path (.layered (catalogues storage layers)) (firstHeld? storage path layers) none
  | [] => tells_nil path
  | layer :: rest => tells_cons path (tells_catalogue layer) (tells_catalogues rest)

end

end Source

theorem contains_of_checkAvailable {catalogue : Catalogue} {components : List Component}
    (h : Bundle.checkAvailable catalogue components = .ok ()) :
    ∀ component ∈ components, catalogue.contains component.path = true := by
  rw [Bundle.checkAvailable] at h
  split at h
  · contradiction
  · rename_i none
    simpa using none

/-- A catalogue loads what it contains, unless that is a file which is no text. What it does not
contain is reported missing, unless something else stands at its path in a single directory. So
components that were found available can be loaded when they are written, but for files that are no
text. -/
theorem loads_iff_contains (source : Source) (storage : Storage) :
    let catalogue := source.catalogue storage
    (∀ path, (catalogue.contains path = true ↔ ∃ text, catalogue.load path = .ok text) ↔
        source.held? storage path ≠ some .bytes) ∧
      (∀ path, catalogue.contains path = false →
        (catalogue.load path = .error (.missing path) ↔
          source.obstruction? storage path = none)) ∧
      ∀ components, Bundle.checkAvailable catalogue components = .ok () →
        ∀ component ∈ components, source.held? storage component.path ≠ some .bytes →
          ∃ text, Bundle.contentText catalogue (.entry component.path) = .ok text := by
  intro catalogue
  have tells (path : String) : Source.Tells path catalogue (source.held? storage path)
      (source.obstruction? storage path) := source.tells_catalogue storage path
  have agree (path : String) :
      (catalogue.contains path = true ↔ ∃ text, catalogue.load path = .ok text) ↔
        source.held? storage path ≠ some .bytes := by
    rw [(tells path).contains, (tells path).load]
    rcases source.held? storage path with _ | _ | _
    · cases source.obstruction? storage path <;> simp [outcome]
    · simp [outcome]
    · simp [outcome]
  refine ⟨agree, fun path absent => ?_, fun components available component mem readable => ?_⟩
  · rw [(tells path).contains, Option.isSome_eq_false_iff, Option.isNone_iff_eq_none] at absent
    rw [(tells path).load, absent]
    cases source.obstruction? storage path <;> simp [outcome]
  · have contained := contains_of_checkAvailable available component mem
    obtain ⟨text, loaded⟩ := ((agree component.path).mpr readable).mp contained
    exact ⟨text, by rw [Bundle.contentText, loaded]; rfl⟩

/-- A directory contains a file that does not load, and a directory in it is not reported as
missing. -/
theorem contained_without_loading :
    let storage : Storage := { entries := [(["styles"], .directory),
      (["styles", "theme"], .directory), (["styles", "global.css"], .file ⟨#[0xff]⟩)] }
    let catalogue := (Source.directory "styles").catalogue storage
    catalogue.contains "global.css" = true ∧
      catalogue.load "global.css" = .error (.unreadable .notText) ∧
      catalogue.contains "theme" = false ∧
      catalogue.load "theme" = .error (.unreadable .isADirectory) := by
  intro storage catalogue
  exact ⟨rfl, rfl, rfl, rfl⟩

end Quire.Catalogue
