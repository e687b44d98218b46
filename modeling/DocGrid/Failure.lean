import DocGrid.Pattern.Grammar
import DocGrid.Value.Shown

/-! Why an operation gave no answer. -/

namespace DocGrid

/-- What is wrong with a configuration. The last two are reported with details of their own, of
which only the heading is kept. -/
inductive ConfigProblem where
  | missingFile
  | unsetVariable (name : String)
  | notMapping
  | sectionNotMapping
  | unreadable
  | invalid
  deriving DecidableEq, Repr

/-- The stage at which a configuration text fails to be read. -/
inductive MarkupProblem where
  | character
  | token
  | arrangement
  | document
  | value
  deriving DecidableEq, Repr

inductive Failure where
  | stageSize (stage : Document)
  | unsupportedStage (name : String)
  | unsupportedProjection (key : String) (expression : Value)
  | unsupportedAccumulator (name : String) (expression : Value)
  | unwindPath (path : String)
  | groupWithoutId
  | unsupportedOperator (name : String)
  | duplicateKey (key : Document)
  | unknownOrder (column model : String)
  | noAsyncDriver (url : String)
  /-- A value of the right kind that cannot be used. -/
  | badValue
  /-- A value of the wrong kind. -/
  | wrongKind
  | missingKey
  | missingMember
  | missingArgument
  | tooLarge
  /-- A decimal number is ordered or added where something is not a number. -/
  | notANumber
  | decimalTooLarge
  | badPattern
  /-- A model refuses these fields, or the value as a whole when there are none. -/
  | invalid (fields : List String)
  | config (problem : ConfigProblem)
  | markup (problem : MarkupProblem)
  | notUtf8
  | missingFile
  /-- A store refuses a document because of its keys or missing values. -/
  | integrity
  /-- A store does not know such a comparison. -/
  | storeArgument
  /-- A store cannot keep or compare such a value. -/
  | storeValue
  /-- A store fails to convert a value for a column. -/
  | storeConversion
  /-- A store fails while it works on a request. -/
  | storeOperation
  | httpStatus
  | notJson
  deriving Repr

namespace Failure

def asyncDrivers : List String :=
  ["+asyncpg", "+aiosqlite", "+aiomysql"]

def message? : Failure → Option String
  | stageSize stage =>
    some s!"Pipeline stage must have exactly one operator: {(Value.mapping stage).shown}"
  | unsupportedStage name => some s!"Unsupported pipeline stage: {name}"
  | unsupportedProjection key e => some s!"Unsupported $project expression for '{key}': {e.shown}"
  | unsupportedAccumulator name e =>
    some s!"Unsupported $group accumulator for '{name}': {e.shown}"
  | unwindPath path => some s!"$unwind path must start with '$': {path}"
  | groupWithoutId => some "$group requires an _id expression"
  | unsupportedOperator name => some s!"Unsupported operator for SQL backend: {name}"
  | duplicateKey key => some s!"Duplicate primary key: {(Value.mapping key).shown}"
  | unknownOrder column model => some s!"Cannot order by '{column}': no such column on {model}"
  | noAsyncDriver url =>
    some s!"URL must contain async driver ({commaList asyncDrivers}): {url}"
  | config .missingFile => some "Configuration file not found: <path>"
  | config (.unsetVariable name) => some s!"Environment variable '{name}' is not set"
  | config .notMapping => some "Invalid configuration file: <path>"
  | config .sectionNotMapping => some "'datatable' must be a mapping in <path>"
  | config .unreadable => some "YAML parsing error in <path>"
  | config .invalid => some "Invalid data-table configuration"
  | _ => none

def ofPattern : Pattern.Problem → Failure
  | .malformed => badPattern
  | .countTooLarge => tooLarge
  | .countUnreadable => badValue
  | .flagConflict => badValue

end Failure

/-- An answer, or why there is none. -/
abbrev Result := Except Failure

end DocGrid
