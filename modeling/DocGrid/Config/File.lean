import DocGrid.Config.Placeholder
import DocGrid.Query.Options
import DocGrid.Text.Utf8
import DocGrid.Yaml.Data

/-! Configuration files. -/

namespace DocGrid

/-- Ends every line with one line feed. -/
def plainLines : List Char → List Char
  | [] => []
  | '\r' :: '\n' :: rest => '\n' :: plainLines rest
  | c :: rest => (if c = '\r' then '\n' else c) :: plainLines rest

/-- What reads the text of a file as a value. -/
class MarkupReader where
  read : List Char → Result Value

instance : MarkupReader := ⟨Yaml.read⟩

variable [MarkupReader]

/-- A file: its octets if there is such a file. -/
abbrev ConfigFile := Option (List UInt8)

namespace ConfigFile

def text (file : ConfigFile) : Result (List Char) :=
  match file with
  | none => .error .missingFile
  | some octets =>
    match Text.utf8? octets with
    | some cs => .ok (plainLines cs)
    | none => .error .notUtf8

def value (env : Environment) (file : ConfigFile) : Result Value := do
  MarkupReader.read (← Placeholder.expand env (← file.text))

/-- The name under which the settings may stand, beside those of others. -/
def sectionName : String :=
  "datatable"

end ConfigFile

namespace TableConfig

/-- The settings in a value: those under their name, or else the value as a whole. -/
def ofSettings (v : Value) : Result TableConfig :=
  match v with
  | .null => .ok default
  | .mapping doc =>
    match (Document.get? ConfigFile.sectionName doc).getD (.mapping doc) with
    | .mapping settings =>
      match ofDocument settings with
      | .error (.invalid _) => .error (.config .invalid)
      | answer => answer
    | _ => .error (.config .sectionNotMapping)
  | _ => .error (.config .notMapping)

def ofFile (env : Environment) (file : ConfigFile) : Result TableConfig :=
  if file.isNone then .error (.config .missingFile)
  else
    match file.value env with
    | .error (.markup _) => .error (.config .unreadable)
    | .error e => .error e
    | .ok v => ofSettings v

end TableConfig

end DocGrid
