import SyntaxQuery.CommandLine.Arguments
import SyntaxQuery.Grammar.Cache
import SyntaxQuery.Journal.Loggers
import SyntaxQuery.Journal.Timer
import SyntaxQuery.Query.Run
import SyntaxQuery.Settings.Store

namespace SyntaxQuery.CommandLine

open SyntaxQuery.Disk SyntaxQuery.Grammar SyntaxQuery.Journal SyntaxQuery.Query
open SyntaxQuery.Selector SyntaxQuery.Settings SyntaxQuery.Tree

def pointText (p : Point) : String :=
  toString (p.row + 1) ++ ":" ++ toString (p.column + 1)

def pointJson (p : Point) : Json :=
  .array [.integer p.row, .integer p.column]

def nodeJson (n : Located) : Json :=
  .object [("type", .text n.kind), ("start", pointJson n.label.start),
    ("end", pointJson n.label.stop),
    ("text", match n.label.text with
      | some s => .text s
      | none => .null)]

def resultText : Match → String
  | .value v => v.display
  | .node n =>
    n.kind ++ " [" ++ pointText n.label.start ++ "-" ++ pointText n.label.stop ++ "] " ++
      n.label.text.getD "None"

def resultJson : Match → Json
  | .value v => .ofScalar v
  | .node n => nodeJson n

/-- What the program finds around it: the installed grammars, the tree that each parser makes of a
source, and the nanoseconds at which the work on a file begins and ends. -/
structure Toolbox where
  packages : Packages
  parse : Language → List UInt8 → Subject
  clock : String → Nat × Nat

inductive Fault where
  | malformed (e : Malformed)
  | refused (e : Refusal)
  | grammar (e : Missing)
  | disk (e : Refused)
  | language (typeName : String)

structure Plan where
  tokens : List Token
  verbose : Bool
  language : String → Json

structure Progress where
  cache : Cache
  parsed : List String

def mainSource : String :=
  "tree_selector.main"

def queryTree (tools : Toolbox) (plan : Plan) (language : Language) (bytes : List UInt8) :
    Logged (Except Fault (List Match)) := do
  let found ← (Prepared.ofTokens plan.tokens).run plan.verbose (tools.parse language bytes)
  return found.mapError .refused

def queryFile (tools : Toolbox) (disk : Disk) (plan : Plan) (progress : Progress)
    (path : String) : Logged (Except Fault (List Match) × Progress) :=
  match disk.read path with
  | .error e => pure (.error (.disk e), progress)
  | .ok bytes =>
    match plan.language path with
    | .text name => do
      match ← progress.cache.load tools.packages name with
      | (.error e, cache) => return (.error (.grammar e), { progress with cache := cache })
      | (.ok language, cache) =>
        let found ← queryTree tools plan language bytes
        return (found, ⟨cache, progress.parsed ++ [language.pointer]⟩)
    | value => pure (.error (.language value.typeName), progress)

/-- The results of the files before the first one that fails, each with its path, and the failure. -/
structure Outcome where
  results : List (String × List Match)
  failure : Option Fault
  parsed : List String

def queryFiles (tools : Toolbox) (disk : Disk) (plan : Plan) (progress : Progress) :
    List String → Logged Outcome
  | [] => pure ⟨[], none, progress.parsed⟩
  | path :: rest => do
    let (began, ended) := tools.clock path
    let timer := Timer.start began path ⟨mainSource, "query", []⟩
    match ← queryFile tools disk plan progress path with
    | (.error e, progress) => return ⟨[], some e, progress.parsed⟩
    | (.ok found, progress) =>
      let _ ← (timer.finish ended path (.text "DEBUG")).1
      let outcome ← queryFiles tools disk plan progress rest
      return { outcome with results := (path, found) :: outcome.results }

def textOutput (several : Bool) (results : List (String × List Match)) : String :=
  let lines := results.flatMap fun (path, found) =>
    found.map fun result =>
      (if several then path ++ ": " else "") ++ resultText result ++ "\n"
  String.join lines

def jsonOutput (results : List (String × List Match)) : String :=
  let fields : Table Json := results.foldl
    (fun table (path, found) => table.put path (.array (found.map resultJson))) []
  Json.render 2 (.object fields) ++ "\n"

/-- What is printed. A document is printed only if no file fails. -/
def output (json several : Bool) (outcome : Outcome) : String :=
  if json then
    if outcome.failure.isSome then "" else jsonOutput outcome.results
  else textOutput several outcome.results

inductive Crash where
  | setup (e : Unfit)
  | path (e : Refused)
  | language (typeName : String)

def Crash.message : Crash → String
  | setup e => e.message
  | path e => e.message
  | language typeName => "'" ++ typeName ++ "' object has no attribute 'lower'"

def Fault.settle : Fault → Except Crash (Logged Unit)
  | .malformed e => .ok (Logged.write mainSource .error ("Invalid selector: " ++ e.message))
  | .refused e => .ok (Logged.write mainSource .error e.message)
  | .grammar e => .ok (Logged.write mainSource .error e.message)
  | .disk e =>
    if e.isPathless then .error (.path e)
    else .ok (writeFailure mainSource e.message "Could not read source file")
  | .language typeName => .error (.language typeName)

def queryAll (tools : Toolbox) (disk : Disk) (options : Options) (verbose : Bool)
    (language : String → Json) : Logged Outcome := do
  match ← tokenize options.selector with
  | .error e => return ⟨[], some (.malformed e), []⟩
  | .ok tokens => queryFiles tools disk ⟨tokens, verbose, language⟩ ⟨.empty, []⟩ options.files

/-- The language of a file: the one that is asked for, or that of its extension, or the usual one. -/
def languageOf (options : Options) (settings : Section) (path : String) : Json :=
  match options.language.filter (· ≠ ""), languageOfPath? path with
  | some name, _ => .text name
  | none, some name => .text name
  | none, none => get "parsing.default_language" (.text "javascript") settings

def wantsJson (options : Options) (settings : Section) : Bool :=
  let format := match options.format with
    | some name => Json.text name
    | none => get "output.format" (.text "text") settings
  format.text? = some "json"

def journalSetup (options : Options) (settings : Section) : Setup :=
  { logFile := get "logging.log_file" .null settings
    consoleLevel :=
      if options.debug || options.verbose then .text "DEBUG"
      else get "logging.console_level" (.text "WARNING") settings
    fileLevel := get "logging.file_level" (.text "DEBUG") settings
    component := none
    colored := none }

structure Trail where
  ending : Except Crash Nat
  printed : String
  outlets : Outlets
  parsed : List String

def versionText : String :=
  "tree-selector 1.0.0\n"

def usageText : String :=
  "usage: tree-selector [-h] [-l LANGUAGE] [-f \x7btext,json\x7d] [-v] [--debug]\n" ++
  "                     [--config CONFIG] [--version]\n" ++
  "                     selector files [files ...]\n"

/-- Runs the program with options that are in order: loads the settings, sets up the journal, and
runs the selector on all files. -/
def runWith (tools : Toolbox) (moment : Moment) (disk : Disk) (options : Options) : Trail :=
  let store := openStore disk options.config
  let settings := store.value.values
  let outlets := (Outlets.mk [] disk "").emitAll moment store.entries
  match outlets.setUp (journalSetup options settings) with
  | (.error e, outlets) => ⟨.error (.setup e), "", outlets, []⟩
  | (.ok (), outlets) =>
    let verbose := options.verbose || (get "query.verbose" (.truth false) settings).isSet
    let run := queryAll tools outlets.disk options verbose (languageOf options settings)
    let outcome := run.value
    let outlets := outlets.emitAll moment run.entries
    let printed := output (wantsJson options settings) (options.files.length > 1) outcome
    match outcome.failure.map Fault.settle with
    | none => ⟨.ok 0, printed, outlets, outcome.parsed⟩
    | some (.error crash) => ⟨.error crash, printed, outlets, outcome.parsed⟩
    | some (.ok noted) => ⟨.ok 1, printed, outlets.emitAll moment noted.entries, outcome.parsed⟩

def Halt.code : Halt → Nat
  | .usage => 2
  | .help => 0
  | .version => 0

def Halt.printed : Halt → String
  | .usage => ""
  | .help => usageText
  | .version => versionText

def Halt.terminal : Halt → String
  | .usage => usageText
  | .help | .version => ""

end SyntaxQuery.CommandLine
