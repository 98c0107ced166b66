import Quire.Number.Decimal

/-!
# Arguments

The words of a command line. They are read from left to right, and the first one that asks for
help or is at fault decides.
-/

namespace Quire.Command

structure RenderArguments where
  input : String
  config : Option String := none
  out : String := "."
  port : Option UInt16 := none
  /-- A directory whose files come before the built-in resources. -/
  resources : Option String := none
  locationAwareness : Bool := true
  automaticIdentifiers : Bool := true
  deriving DecidableEq, Repr

structure InspectArguments where
  input : String
  config : Option String := none
  deriving DecidableEq, Repr

inductive HelpTopic where
  | program | render | inspect | help
  deriving DecidableEq, Repr

inductive Request where
  | render (arguments : RenderArguments)
  | inspect (arguments : InspectArguments)
  | help (topic : HelpTopic)
  | version
  | misuse
  deriving DecidableEq, Repr

/-- What an option does to the settings: it just changes them, or it takes a value, which it may
refuse. -/
inductive Effect (σ : Type) where
  | flag (set : σ → σ)
  | value (set : σ → String → Option σ)

structure Switch (σ : Type) where
  short : Option Char := none
  long : String
  effect : Effect σ

/-- A command with options and one plain argument. -/
structure Grammar (σ : Type) where
  topic : HelpTopic
  switches : List (Switch σ)
  setInput : σ → String → Option σ

/-- What a word is by its dashes. -/
inductive Word where
  | plain
  /-- A double dash alone: all words after it are plain. -/
  | stop
  | long (name : String) (value : Option String)
  | short (letter : Char) (rest : List Char)
  deriving DecidableEq, Repr

namespace Word

/-- The name and the value around the first equals sign. -/
def splitValue (cs : List Char) : String × Option String :=
  (String.ofList (cs.takeWhile (· != '=')),
    match cs.dropWhile (· != '=') with
    | [] => none
    | _ :: value => some (String.ofList value))

def ofText (text : String) : Word :=
  match text.toList with
  | ['-', '-'] => .stop
  | '-' :: '-' :: rest => let (name, value) := splitValue rest; .long name value
  | '-' :: letter :: rest => .short letter rest
  | _ => .plain

end Word

/-- The value that is joined to the letter of an option, if any is. -/
def joinedValue : List Char → Option String
  | [] => none
  | '=' :: value => some (String.ofList value)
  | value => some (String.ofList value)

structure Progress (σ : Type) where
  settings : σ
  /-- The options that were given. -/
  given : List String := []
  hasInput : Bool := false
  /-- The option whose value is the next word. -/
  awaiting : Option (Switch σ) := none
  /-- Whether a double dash has come. -/
  onlyPlain : Bool := false

namespace Progress

variable {σ : Type}

def takeInput (progress : Progress σ) (grammar : Grammar σ) (text : String) :
    Except Request (Progress σ) :=
  match progress.hasInput, grammar.setInput progress.settings text with
  | false, some settings => .ok { progress with settings, hasInput := true }
  | _, _ => .error .misuse

/-- Take an option that has not been given before, with the settings that it leads to. -/
def finishSwitch (progress : Progress σ) (switch : Switch σ) (settings : Option σ) :
    Except Request (Progress σ) :=
  match progress.given.contains switch.long, settings with
  | false, some settings =>
    .ok { progress with settings, given := switch.long :: progress.given, awaiting := none }
  | _, _ => .error .misuse

/-- Take an option with the value that came in the same word, if one did. -/
def takeSwitch (progress : Progress σ) (switch : Option (Switch σ)) (joined : Option String) :
    Except Request (Progress σ) :=
  match switch with
  | none => .error .misuse
  | some switch =>
    match switch.effect, joined with
    | .flag set, none => progress.finishSwitch switch (some (set progress.settings))
    | .flag _, some _ => .error .misuse
    | .value set, some value => progress.finishSwitch switch (set progress.settings value)
    | .value _, none => .ok { progress with awaiting := some switch }

def takeValue (progress : Progress σ) (switch : Switch σ) (value : String) :
    Except Request (Progress σ) :=
  match switch.effect with
  | .flag _ => .error .misuse
  | .value set => progress.finishSwitch switch (set progress.settings value)

end Progress

namespace Grammar

variable {σ : Type}

def takeWord (grammar : Grammar σ) (progress : Progress σ) (text : String) :
    Except Request (Progress σ) :=
  match Word.ofText text with
  | .plain => progress.takeInput grammar text
  | .stop => .ok { progress with onlyPlain := true }
  | .long name joined =>
    if name == "help" && joined.isNone then .error (.help grammar.topic)
    else progress.takeSwitch (grammar.switches.find? (·.long == name)) joined
  | .short letter joined =>
    if letter == 'h' then .error (.help grammar.topic)
    else
      progress.takeSwitch (grammar.switches.find? (·.short == some letter)) (joinedValue joined)

def step (grammar : Grammar σ) (progress : Progress σ) (text : String) :
    Except Request (Progress σ) :=
  if progress.onlyPlain then progress.takeInput grammar text
  else match progress.awaiting with
    | none => grammar.takeWord progress text
    | some switch =>
      match Word.ofText text with
      | .plain => progress.takeValue switch text
      | _ => .error .misuse

/-- Read all words. The plain argument has to come, and the value of every option. -/
def read (grammar : Grammar σ) (start : σ) (words : List String) : Except Request σ := do
  let progress ← words.foldlM grammar.step { settings := start }
  if progress.hasInput && progress.awaiting.isNone then pure progress.settings
  else throw .misuse

end Grammar

/-- Paths are not empty. -/
def path? (text : String) : Option String := if text.isEmpty then none else some text

/-- A port in decimal, with an optional sign. -/
def port? (text : String) : Option UInt16 :=
  let (negative, digits) := match text.toList with
    | '-' :: rest => (true, rest)
    | '+' :: rest => (false, rest)
    | cs => (false, cs)
  let n := digitsValue digits
  if digits.isEmpty || !digits.all isDigit then none
  else if negative && n != 0 then none
  else if n < UInt16.size then some (UInt16.ofNat n)
  else none

def renderGrammar : Grammar RenderArguments where
  topic := .render
  setInput := fun a text => (path? text).map fun input => { a with input }
  switches :=
    [{ short := some 'c', long := "config",
       effect := .value fun a text => (path? text).map fun path => { a with config := some path } },
     { short := some 'o', long := "output-dir",
       effect := .value fun a text => (path? text).map fun out => { a with out } },
     { long := "port",
       effect := .value fun a text => (port? text).map fun port => { a with port := some port } },
     { long := "resources",
       effect := .value fun a text =>
         (path? text).map fun path => { a with resources := some path } },
     { long := "no-location-awareness",
       effect := .flag fun a => { a with locationAwareness := false } },
     { long := "no-auto-ids",
       effect := .flag fun a => { a with automaticIdentifiers := false } }]

def inspectGrammar : Grammar InspectArguments where
  topic := .inspect
  setInput := fun a text => (path? text).map fun input => { a with input }
  switches :=
    [{ short := some 'c', long := "config",
       effect := .value fun a text => (path? text).map fun path => { a with config := some path } }]

def requestOf {σ : Type} (command : σ → Request) : Except Request σ → Request
  | .ok settings => command settings
  | .error request => request

def helpRequest : List String → Request
  | [] => .help .program
  | ["render"] => .help .render
  | ["inspect"] => .help .inspect
  | ["help"] => .help .help
  | _ => .misuse

namespace Request

def read : List String → Request
  | [] => .misuse
  | "render" :: words => requestOf .render (renderGrammar.read { input := "" } words)
  | "inspect" :: words => requestOf .inspect (inspectGrammar.read { input := "" } words)
  | "help" :: words => helpRequest words
  | word :: _ =>
    match Word.ofText word with
    | .long "help" none => .help .program
    | .long "version" none => .version
    | .short 'h' _ => .help .program
    | .short 'V' _ => .version
    | _ => .misuse

end Request
end Quire.Command
