import Quire.Command.Arguments

/-!
# Help

The texts that explain the program and its commands.
-/

namespace Quire.Command

def programName : String := "folio"

def programVersion : String := "0.1.0"

def versionLine : String := programName ++ " " ++ programVersion

def programHelp : List String :=
  ["Render document trees to HTML bundles",
   "",
   "Usage: folio <COMMAND>",
   "",
   "Commands:",
   "  render   Render a document tree to an HTML bundle",
   "  inspect  Print what discovery finds in a document tree, as JSON",
   "  help     Print this message or the help of the given subcommand(s)",
   "",
   "Options:",
   "  -h, --help     Print help",
   "  -V, --version  Print version"]

def renderHelp : List String :=
  ["Render a document tree to an HTML bundle",
   "",
   "Usage: folio render [OPTIONS] <INPUT>",
   "",
   "Arguments:",
   "  <INPUT>  Document tree (JSON)",
   "",
   "Options:",
   "  -c, --config <CONFIG>          Document configuration (YAML)",
   "  -o, --output-dir <OUTPUT_DIR>  Directory the bundle is written into [default: .]",
   "      --port <PORT>              Port of a running preview server to connect to",
   "      --resources <RESOURCES>    Directory whose resources override the built-in ones",
   "      --no-location-awareness    Do not number headings, figures and tables",
   "      --no-auto-ids              Only give headings an id when they set one explicitly",
   "  -h, --help                     Print help"]

def inspectHelp : List String :=
  ["Print what discovery finds in a document tree, as JSON",
   "",
   "Usage: folio inspect [OPTIONS] <INPUT>",
   "",
   "Arguments:",
   "  <INPUT>  Document tree (JSON)",
   "",
   "Options:",
   "  -c, --config <CONFIG>  Document configuration (YAML)",
   "  -h, --help             Print help"]

def helpHelp : List String :=
  ["Print this message or the help of the given subcommand(s)",
   "",
   "Usage: folio help [COMMAND]...",
   "",
   "Arguments:",
   "  [COMMAND]...  Print help for the subcommand(s)"]

def HelpTopic.lines : HelpTopic → List String
  | program => programHelp
  | render => renderHelp
  | inspect => inspectHelp
  | help => helpHelp

end Quire.Command
