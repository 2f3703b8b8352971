import SyntaxQuery.Disk.Basic
import SyntaxQuery.Journal.Basic
import SyntaxQuery.Json.Printer
import SyntaxQuery.Json.Reader
import SyntaxQuery.Settings.Basic
import SyntaxQuery.Text.Utf8

namespace SyntaxQuery.Settings

open SyntaxQuery.Disk SyntaxQuery.Journal

structure Store where
  path : String
  values : Section

inductive Unusable where
  | refused (e : Refused)
  | unreadable
  | noSection

def Unusable.message : Unusable → String
  | refused e => e.message
  | unreadable => "<unreadable>"
  | noSection => "top-level value must be an object"

def note (level : Level) (message : String) : Logged Unit :=
  Logged.write "tree_selector.utils.config" level message

def ofBytes (bytes : List UInt8) : Except Unusable Section :=
  match (Text.decode? bytes).bind Json.parse? with
  | none => .error .unreadable
  | some (.object fields) => .ok fields
  | some _ => .error .noSection

def readFile (disk : Disk) (path : String) : Except Unusable (Option Section) :=
  if disk.present path then
    match disk.read path with
    | .error e => .error (.refused e)
    | .ok bytes => (ofBytes bytes).map some
  else .ok none

/-- The settings of a file, laid over the defaults; the defaults alone if the file is missing or
unusable. -/
def load (disk : Disk) (path : String) : Logged Section :=
  match readFile disk path with
  | .ok (some fields) => do
    note .debug ("Configuration loaded from " ++ path)
    return overlay defaults fields
  | .ok none => do
    note .debug ("Configuration file not found at " ++ path ++ ", using defaults")
    note .debug "Default configuration set"
    return defaults
  | .error e => do
    note .error ("Error loading configuration: " ++ e.message)
    note .debug "Default configuration set"
    return defaults

def defaultPath (home : String) : String :=
  joinPath (joinPath home ".tree_selector") "config.json"

def pathFrom (disk : Disk) : Option String → String
  | none | some "" => defaultPath disk.home
  | some path => path

def openStore (disk : Disk) (path : Option String) : Logged Store := do
  let path := pathFrom disk path
  let values ← load disk path
  note .debug ("Configuration initialized (config_path: " ++ path ++ ")")
  return ⟨path, values⟩

inductive Unsaved where
  | refused (e : Refused)
  | tooLong

def Unsaved.message : Unsaved → String
  | refused e => e.message
  | tooLong => "Exceeds the limit (4300 digits) for integer string conversion; " ++
      "use sys.set_int_max_str_digits() to increase the limit"

def toBytes (values : Section) : List UInt8 :=
  Text.octets (Json.render 4 (.object values))

/-- The octets that are left in a file when settings cannot be written to the end. -/
def toBytesFront (values : Section) : List UInt8 :=
  Text.octets (Json.writeFront 4 0 (.object values))

/-- Writes the settings to their file, with the folders that it lies in. The file is opened before an
integer that is too long is found. -/
def Store.save (disk : Disk) (store : Store) : Logged (Except Unsaved Unit × Disk) :=
  let whole := (Json.object store.values).isShort
  match disk.makeRoom store.path with
  | (.error e, disk) => pure (.error (.refused e), disk)
  | (.ok (), disk) =>
    match disk.write store.path
        (if whole then toBytes store.values else toBytesFront store.values) with
    | .error e => pure (.error (.refused e), disk)
    | .ok disk =>
      if whole then do
        note .debug ("Configuration saved to " ++ store.path)
        return (.ok (), disk)
      else pure (.error .tooLong, disk)

end SyntaxQuery.Settings
