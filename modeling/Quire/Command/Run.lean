import Quire.Bundle.Writing
import Quire.Catalogue.Directory
import Quire.Command.Help
import Quire.Config.File
import Quire.Document.Decoding
import Quire.Index.Encoding
import Quire.Job
import Quire.Json.Order

/-!
# Commands

What the program does for a command line: it renders a document into a directory, or prints what
discovery finds.
-/

namespace Quire.Command

/-- What is left of a run: its exit code and what it printed. -/
structure Outcome where
  exit : UInt8 := 0
  stdout : String := ""
  stderr : String := ""
  deriving DecidableEq, Repr

inductive Failure where
  | unreadableTree (path : String) (fault : FileFault)
  | invalidTree (path : String)
  | config (failure : ConfigFailure)
  /-- A report of a document failed. -/
  | report (failure : RenderFailure)
  | render (input : String) (failure : RenderFailure)
  | write (out : String) (failure : WriteFailure)
  deriving DecidableEq, Repr

namespace Failure

def message : Failure → String
  | unreadableTree path _ => "Failed to read document tree " ++ path
  | invalidTree path => "Invalid document tree " ++ path
  | config failure => failure.message
  | report failure => failure.message
  | render input _ => "Failed to render " ++ input
  | write out _ => "Failed to write output to " ++ out

/-- What the message does not tell. -/
def cause? : Failure → Option String
  | unreadableTree _ fault => some fault.message
  | invalidTree _ => none
  | config (.unreadable _ fault) => some fault.message
  | config (.invalid _) => none
  | report _ => none
  | render _ failure => some failure.message
  | write _ failure => some (failure.message)

def text (failure : Failure) : String :=
  let head := "Error: " ++ failure.message ++ "\n"
  match failure.cause? with
  | some cause => head ++ "\nCaused by:\n    " ++ cause ++ "\n"
  | none => head

end Failure

/-- The warnings of a render, one a line, under their number. -/
def warningText : List Warning → String
  | [] => ""
  | warnings =>
    decimal warnings.length ++ " warning(s):\n" ++
      String.join (warnings.map fun warning => "  " ++ warning.text ++ "\n")

/-- The report of discovery: what it found, and the names of what the page would ship with. -/
def reportOf (context : Context) (stylesheets : List Component) : Json :=
  .object
    [("attributes", context.index.toJson),
     ("scripts", .ofStrings (context.scripts.map (·.name))),
     ("theme", .ofStrings (stylesheets.map (·.name)))]

/-- The configuration with what the arguments say about it. -/
def RenderArguments.adjust (arguments : RenderArguments) (config : Config) : Config :=
  let options := config.options
  { config with
    options :=
      { serverPort := arguments.port.or options.serverPort
        locationAwareness := options.locationAwareness && arguments.locationAwareness
        automaticIdentifiers := options.automaticIdentifiers && arguments.automaticIdentifiers } }

def RenderArguments.output (arguments : RenderArguments) (document : Document) (config : Config)
    (catalogue : Catalogue) : Except Failure Output :=
  (document.bundle (arguments.adjust config) catalogue).mapError (Failure.render arguments.input)

def report (document : Document) (config : Config) : Except Failure Json := do
  let context ← (Context.ofConfig config).mapError fun refused => .report (.numbering refused)
  let stylesheets ← context.document.fullTheme.components.mapError fun refused =>
    .report (.theme refused)
  pure (reportOf (context.discover document) stylesheets)

def failed (failure : Failure) : Outcome := { exit := 1, stderr := failure.text }

def printed (lines : List String) : Outcome := { stdout := String.join (lines.map (· ++ "\n")) }

section

variable {m : Type → Type} [Monad m] [Disk m]

def readDocument (path : String) : ExceptT Failure m Document :=
  ExceptT.mk do
    match ← Disk.readText path with
    | .error fault => pure (.error (.unreadableTree path fault))
    | .ok text =>
      match Document.read? text with
      | some document => pure (.ok document)
      | none => pure (.error (.invalidTree path))

/-- The configuration in a file, or the default one without a file. -/
def readConfig : Option String → ExceptT Failure m Config
  | none => pure {}
  | some path =>
    ExceptT.mk do
      let config ← Config.load path
      pure (config.mapError .config)

/-- The built-in catalogue, behind the files of a directory if there is one. -/
def catalogueOf (theme : Theme) : Option String → m Catalogue
  | none => pure .builtin
  | some root => do
    let storage ← Disk.snapshot root (Catalogue.Builtin.pagePath :: theme.componentPaths)
    pure (.withOverrides (.directory storage root))

/-- Read what the arguments name and make the bundle. It comes with the catalogue that its files
are to be loaded from. -/
def RenderArguments.prepare (arguments : RenderArguments) :
    ExceptT Failure m (Catalogue × Output) := do
  let document ← readDocument arguments.input
  let config ← readConfig arguments.config
  let catalogue ← (catalogueOf config.document.fullTheme arguments.resources : m Catalogue)
  let output ← ExceptT.mk (pure (arguments.output document config catalogue))
  pure (catalogue, output)

/-- Write the bundle. Warnings are printed before, so they show in any case. -/
def publish (out : String) (catalogue : Catalogue) (output : Output) : m Outcome := do
  let warnings := warningText output.warnings
  match ← (Bundle.write catalogue output.bundle out : ExceptT WriteFailure m String).run with
  | .ok path => pure { stdout := path ++ "\n", stderr := warnings }
  | .error failure => pure { exit := 1, stderr := warnings ++ (Failure.write out failure).text }

def RenderArguments.run (arguments : RenderArguments) : m Outcome := do
  match ← (arguments.prepare : ExceptT Failure m (Catalogue × Output)).run with
  | .ok (catalogue, output) => publish arguments.out catalogue output
  | .error failure => pure (failed failure)

def InspectArguments.prepare (arguments : InspectArguments) : ExceptT Failure m Json := do
  let document ← readDocument arguments.input
  let config ← readConfig arguments.config
  ExceptT.mk (pure (report document config))

def InspectArguments.run (arguments : InspectArguments) : m Outcome := do
  match ← (arguments.prepare : ExceptT Failure m Json).run with
  | .ok report => pure (printed [report.sorted.pretty])
  | .error failure => pure (failed failure)

def Request.run : Request → m Outcome
  | .render arguments => arguments.run
  | .inspect arguments => arguments.run
  | .help topic => pure (printed topic.lines)
  | .version => pure (printed [versionLine])
  | .misuse => pure { exit := 2, stderr := (printed programHelp).stdout }

end

def run {m : Type → Type} [Monad m] [Disk m] (words : List String) : m Outcome :=
  (Request.read words).run

end Quire.Command
