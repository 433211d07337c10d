import SelectorLang.Command.Run
import Std.Time.DateTime.Timestamp

set_option autoImplicit false

namespace SelectorLang

/-- The number of a failure; some operations report it with a minus sign. -/
def numberOf (code : UInt32) : UInt32 := min code (0 - code)

def fileErrorOf (error : IO.Error) : FileError :=
  match error with
  | .noFileOrDirectory _ _ _ | .noSuchThing _ _ _ => .notFound
  | .alreadyExists _ _ _ => .alreadyExists
  | .inappropriateType _ code _ => if numberOf code = 21 then .isADirectory else .notADirectory
  | .invalidArgument _ code _ =>
    if numberOf code = 36 then .nameTooLong else .other (toString error)
  | _ => .other (toString error)

def attempt {α : Type} (action : IO α) : IO (Except FileError α) := do
  try return .ok (← action)
  catch error => return .error (fileErrorOf error)

/-- Whether there is a directory: only then is there a dot in it, which cannot be made again. -/
def hasDot (path : String) : IO Bool := do
  match ← attempt (IO.FS.createDir (path ++ "/.")) with
  | .error .alreadyExists => return true
  | _ => return false

def systemFiles : FileAccess IO where
  read path := attempt (IO.FS.readFile path)
  write path content := attempt (IO.FS.writeFile path content)
  makeDirectory path := attempt (IO.FS.createDir path)
  isDirectory := hasDot

def readEnvironment : IO Config.Environment := do
  let keys := ["ENTITY_QUERY_DEFAULT_FIELDS", "ENTITY_QUERY_MAX_DEPTH",
    "ENTITY_QUERY_LOG_LEVEL", "ENTITY_QUERY_LOG_FORMAT"]
  let values ← keys.mapM (fun key => (IO.getEnv key : IO (Option String)))
  let found := keys.zip values
  return fun key => (found.lookup key).join

def usualPaths : IO (List String) := do
  let home ← IO.getEnv "HOME"
  let configured ← IO.getEnv "XDG_CONFIG_HOME"
  let absolute := configured.filter (fun directory => (Route.ofPath directory).fromRoot)
  let own := match absolute, home with
    | some directory, _ => [directory ++ "/entity-query/config.toml"]
    | none, some directory => [directory ++ "/.config/entity-query/config.toml"]
    | none, none => []
  return own ++ ["/etc/entity-query/config.toml", "./entity-query.toml"]

def readClock : IO Instant := do
  let shown ← Std.Time.Timestamp.now
  match Instant.ofUnix? shown.val.second.val shown.val.nano.val.toNat with
  | some instant => return instant
  | none => throw (IO.userError "the clock is out of range")

def runSystem (arguments : List String) : IO UInt32 := do
  let outcome ← Command.run systemFiles (← readEnvironment) (← usualPaths) (← readClock) arguments
  IO.print outcome.output
  match outcome.error with
  | some error => IO.eprintln error
  | none => pure ()
  return outcome.code.toUInt32

end SelectorLang

def main (arguments : List String) : IO UInt32 := SelectorLang.runSystem arguments
