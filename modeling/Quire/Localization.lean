import Quire.Text.Blank
import Quire.Text.Lowercase

/-!
# Localization

The words that are put in front of captions, quotes and tables of contents, in the language of the
document.
-/

namespace Quire

/-- The word for a key in a locale such as `it-IT`, if there is one. -/
abbrev Localizer := (key locale : String) → Option String

namespace Localizer

def builtinWords : List (String × List String) :=
  [("en", ["Figure", "Table", "Table of Contents", "Tip", "Note", "Warning", "Important"]),
   ("it", ["Figura", "Tabella", "Indice", "Suggerimento", "Nota", "Attenzione", "Importante"]),
   ("de",
     ["Abbildung", "Tabelle", "Inhaltsverzeichnis", "Tipp", "Hinweis", "Warnung", "Wichtig"]),
   ("fr",
     ["Figure", "Tableau", "Table des matières", "Astuce", "Remarque", "Avertissement",
      "Important"]),
   ("es", ["Figura", "Tabla", "Índice", "Consejo", "Nota", "Advertencia", "Importante"])]

def builtinKeys : List String :=
  ["figure", "table", "tableofcontents", "tip", "note", "warning", "important"]

def word? (language key : String) : Option String := do
  (builtinKeys.zip (← builtinWords.lookup language)).lookup key

/-- A locale in lowercase, with dashes between its parts. -/
def tag (locale : String) : List Char :=
  (Text.lowercaseText (Text.trim locale.toList)).map fun c => if c = '_' then '-' else c

/-- Look under the whole tag first and then under its language alone. -/
def builtin : Localizer := fun key locale =>
  let tag := tag locale
  (word? (String.ofList tag) key).or (word? (String.ofList (tag.takeWhile (· != '-'))) key)

end Localizer
end Quire
