import DocGrid.Intake.Items
import DocGrid.Text.Split

/-! The settings with which a database is opened, as far as its URL decides them. -/

namespace DocGrid.SqlUrl

def mentions (url part : String) : Bool :=
  Text.occursIn part.toList url.toList

def hasAsyncDriver (url : String) : Bool :=
  Failure.asyncDrivers.any (mentions url)

def isSqlite (url : String) : Bool :=
  mentions url "sqlite"

/-- Adds an entry unless its key is taken. -/
def withDefault (settings : Document) (entry : String × Value) : Document :=
  if settings.has entry.1 then settings else settings.put entry.1 entry.2

/-- Statements may come from other threads, and a locked file is waited for half a minute. -/
def connectDefaults : Document :=
  [("check_same_thread", .bool false), ("timeout", .int 30)]

def poolDefaults : Document :=
  [("pool_size", .int 5), ("max_overflow", .int 10)]

def isPoolSetting (key : String) : Bool :=
  poolDefaults.has key

/-- Settings for SQLite: there is no pool, and the connection gets its defaults. -/
def sqliteSettings (settings : Document) : Result Document := do
  let given ← ((settings.get? "connect_args").getD (.mapping [])).toDocument
  let kept : Document := settings.filter fun e => !isPoolSetting e.1
  return kept.put "connect_args" (.mapping (connectDefaults.foldl withDefault given))

def settings (url : String) (options : Document) : Result Document :=
  if hasAsyncDriver url then
    let settings := withDefault options ("echo", .bool false)
    if isSqlite url then sqliteSettings settings
    else .ok (poolDefaults.foldl withDefault settings)
  else .error (.noAsyncDriver url)

end DocGrid.SqlUrl
