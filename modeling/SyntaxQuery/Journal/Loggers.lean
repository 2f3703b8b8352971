import SyntaxQuery.Disk.Basic
import SyntaxQuery.Journal.Basic
import SyntaxQuery.Journal.Layout
import SyntaxQuery.Json.Basic
import SyntaxQuery.Text.Utf8

namespace SyntaxQuery.Journal

open SyntaxQuery.Disk SyntaxQuery.Text

inductive Target where
  | console
  | file (path : String)
deriving DecidableEq

structure Handler where
  target : Target
  least : Level
  layout : Layout
deriving DecidableEq

structure Logger where
  least : Option Level
  handlers : List Handler
deriving Inhabited

abbrev Loggers := Table Logger

/-- What is set up, the files, and what is written to the terminal. -/
structure Outlets where
  loggers : Loggers
  disk : Disk
  terminal : String
deriving Inhabited

def topSource : String :=
  "tree_selector"

def upperChar (c : Char) : Char :=
  if c = 'ı' then 'I' else c.toUpper

def Level.ofName? (name : String) : Option Level :=
  let upper := String.ofList (name.toList.map upperChar)
  [Level.debug, .info, .warning, .error, .critical].find? (·.name = upper)

/-- What a journal is asked to be. Anything can be given for a level and for the file. -/
structure Setup where
  logFile : Json
  consoleLevel : Json
  fileLevel : Json
  component : Option String
  colored : Option Bool

def Setup.standard : Setup :=
  ⟨.null, .text "WARNING", .text "DEBUG", none, none⟩

inductive Unfit where
  | level (typeName : String)
  | file (typeName : String)
  | refused (e : Refused)

def Unfit.message : Unfit → String
  | level typeName => "'" ++ typeName ++ "' object has no attribute 'upper'"
  | file typeName => "expected str, bytes or os.PathLike object, not " ++ typeName
  | refused e => e.message

def Setup.source (setup : Setup) : String :=
  match setup.component with
  | none | some "" => topSource
  | some component => topSource ++ "." ++ component

def levelFrom (fallback : Level) : Json → Except Unfit Level
  | .text name => .ok ((Level.ofName? name).getD fallback)
  | value => .error (.level value.typeName)

def openFile (disk : Disk) (path : String) : Except Refused String × Disk :=
  match disk.makeRoom path with
  | (.error e, disk) => (.error e, disk)
  | (.ok (), disk) =>
    let path := absolutePath disk.here path
    match disk.change path id with
    | .error e => (.error e, disk)
    | .ok disk => (.ok path, disk)

namespace Outlets

def logger (outlets : Outlets) (source : String) : Logger :=
  (outlets.loggers.find? source).getD ⟨none, []⟩

def putLogger (outlets : Outlets) (source : String) (logger : Logger) : Outlets :=
  { outlets with loggers := outlets.loggers.put source logger }

def addFile (outlets : Outlets) (source : String) (path : String) (least : Level) :
    Except Unfit Unit × Outlets :=
  match openFile outlets.disk path with
  | (.error e, disk) => (.error (.refused e), { outlets with disk := disk })
  | (.ok path, disk) =>
    let logger := outlets.logger source
    let handler : Handler := ⟨.file path, least, .file⟩
    (.ok (), { outlets with disk := disk }.putLogger source
      { logger with handlers := logger.handlers ++ [handler] })

/-- Sets up a source that has no handlers yet: the terminal first, then the file. -/
def setUp (outlets : Outlets) (setup : Setup) : Except Unfit Unit × Outlets :=
  let source := setup.source
  if !(outlets.logger source).handlers.isEmpty then (.ok (), outlets)
  else
    match levelFrom .warning setup.consoleLevel, levelFrom .debug setup.fileLevel with
    | .error e, _ => (.error e, outlets)
    | _, .error e => (.error e, outlets)
    | .ok console, .ok file =>
      let least := if setup.logFile.isSet then console.lower file else console
      let handler : Handler := ⟨.console, console, .console (setup.colored.getD false)⟩
      let outlets := outlets.putLogger source ⟨some least, [handler]⟩
      if setup.logFile.isSet then
        match setup.logFile with
        | .text path => outlets.addFile source path file
        | value => (.error (.file value.typeName), outlets)
      else (.ok (), outlets)

def lineageFrom : List String → List String
  | [] => []
  | part :: above => String.intercalate "." (part :: above).reverse :: lineageFrom above

def lineage (source : String) : List String :=
  lineageFrom (splitPieces '.' source).reverse

def chain (outlets : Outlets) (source : String) : List Logger :=
  (lineage source).filterMap outlets.loggers.find?

def leastOf (outlets : Outlets) (source : String) : Level :=
  ((outlets.chain source).findSome? Logger.least).getD .warning

def writeLine (outlets : Outlets) (target : Target) (line : String) : Outlets :=
  match target with
  | .console => { outlets with terminal := outlets.terminal ++ line ++ "\n" }
  | .file path =>
    match outlets.disk.append path (octets (line ++ "\n")) with
    | .ok disk => { outlets with disk := disk }
    | .error _ => outlets

def handle (level : Level) (r : Record) (outlets : Outlets) (handler : Handler) : Outlets :=
  if level.reaches handler.least then outlets.writeLine handler.target (handler.layout.format r)
  else outlets

/-- Hands a record to all handlers of its source and of those above it. Where there are none, the
bare message of a warning, or anything graver, goes to the terminal. -/
def emit (outlets : Outlets) (level : Level) (r : Record) : Outlets :=
  if level.reaches (outlets.leastOf r.source) then
    match (outlets.chain r.source).flatMap Logger.handlers with
    | [] => if level.reaches .warning then outlets.writeLine .console r.message else outlets
    | handlers => handlers.foldl (handle level r) outlets
  else outlets

def emitAll (outlets : Outlets) (moment : Moment) (entries : List Entry) : Outlets :=
  entries.foldl (fun outlets entry =>
    outlets.emit entry.level
      ⟨moment, entry.level.name, entry.source, entry.source, 0, entry.message⟩) outlets

end Outlets

end SyntaxQuery.Journal
