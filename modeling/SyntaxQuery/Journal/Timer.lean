import SyntaxQuery.Journal.Basic
import SyntaxQuery.Journal.Layout
import SyntaxQuery.Json.Basic
import SyntaxQuery.Table
import SyntaxQuery.Text.Lowercase

namespace SyntaxQuery.Journal

open SyntaxQuery.Text

structure Timer where
  source : String
  component : String
  starts : Table Nat

/-- What a word names in a journal. -/
inductive Word where
  | level (l : Level)
  | filter
  | handle
  | log
  | part (typeName : String)

def Word.ofText? : String → Option Word
  | "debug" => some (.level .debug)
  | "info" => some (.level .info)
  | "warning" | "warn" => some (.level .warning)
  | "error" | "exception" => some (.level .error)
  | "critical" | "fatal" => some (.level .critical)
  | "filter" => some .filter
  | "handle" => some .handle
  | "log" => some .log
  | "name" => some (.part "str")
  | "level" => some (.part "int")
  | "handlers" | "filters" => some (.part "list")
  | "disabled" | "propagate" => some (.part "bool")
  | "parent" => some (.part "Logger")
  | "root" => some (.part "RootLogger")
  | "manager" => some (.part "Manager")
  | _ => none

inductive NoLevel where
  | notText (typeName : String)
  | unknown (word : String)
  | handle
  | log
  | part (typeName : String)

def NoLevel.message : NoLevel → String
  | notText typeName => "'" ++ typeName ++ "' object has no attribute 'lower'"
  | unknown word => "'Logger' object has no attribute " ++ "'" ++ word ++ "'"
  | handle => "'str' object has no attribute 'levelno'"
  | log => "Logger.log() missing 1 required positional argument: 'msg'"
  | part typeName => "'" ++ typeName ++ "' object is not callable"

def writeAt (source : String) (level : Json) (message : String) : Logged (Except NoLevel Unit) :=
  match level with
  | .text s =>
    let word := lowercase s
    match Word.ofText? word with
    | some (.level l) => do return .ok (← Logged.write source l message)
    | some .filter => pure (.ok ())
    | some .handle => pure (.error .handle)
    | some .log => pure (.error .log)
    | some (.part typeName) => pure (.error (.part typeName))
    | none => pure (.error (.unknown word))
  | value => pure (.error (.notText value.typeName))

def secondsText (nanoseconds : Nat) : String :=
  let units := (nanoseconds + 50000) / 100000
  toString (units / 10000) ++ "." ++ padded 4 (units % 10000)

namespace Timer

def start (now : Nat) (name : String) (timer : Timer) : Timer :=
  { timer with starts := timer.starts.put name now }

/-- Ends an operation: its time is written at a level and given back. An operation that has not
started has none. -/
def finish (now : Nat) (name : String) (level : Json) (timer : Timer) :
    Logged (Except NoLevel (Option Nat)) × Timer :=
  match timer.starts.find? name with
  | none =>
    (do
      Logged.write timer.source .warning ("No start time found for " ++ name)
      return .ok none, timer)
  | some began =>
    (do
      let written ← writeAt timer.source level
        (timer.component ++ " " ++ name ++ " took " ++ secondsText (now - began) ++ " seconds")
      return written.map fun _ => some (now - began),
      { timer with starts := timer.starts.drop name })

end Timer

def writeFailure (source reason : String) (message : String) : Logged Unit :=
  Logged.write source .error (message ++ ": " ++ reason)

end SyntaxQuery.Journal
