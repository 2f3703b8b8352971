import SyntaxQuery.Text.Basic

namespace SyntaxQuery.CommandLine

open SyntaxQuery.Text

structure Options where
  selector : String
  files : List String
  language : Option String
  format : Option String
  verbose : Bool
  debug : Bool
  config : Option String
deriving DecidableEq, Inhabited

inductive Switch where
  | help
  | verbose
  | debug
  | version
deriving DecidableEq

inductive Setting where
  | language
  | format
  | config
deriving DecidableEq

abbrev Choice := Switch ⊕ Setting

def optionNames : List (String × Choice) := [
  ("-h", .inl .help), ("--help", .inl .help),
  ("-l", .inr .language), ("--language", .inr .language),
  ("-f", .inr .format), ("--format", .inr .format),
  ("-v", .inl .verbose), ("--verbose", .inl .verbose),
  ("--debug", .inl .debug), ("--config", .inr .config), ("--version", .inl .version)]

def choiceOf? (name : String) : Option Choice :=
  (optionNames.find? (·.1 = name)).map (·.2)

inductive Kind where
  | operand
  | terminator
  | short (c : Choice) (attached : Option String)
  | long (c : Choice) (attached : Option String)
  | unknown

def splitEquals (arg : String) : String × Option String :=
  let cs := arg.toList
  let name := cs.takeWhile (· ≠ '=')
  match cs.drop name.length with
  | [] => (arg, none)
  | _ :: value => (String.ofList name, some (String.ofList value))

def isNegativeNumber (arg : String) : Bool :=
  let cs := arg.toList
  let core := if cs.getLast? = some '\n' then cs.dropLast else cs
  match core with
  | '-' :: ds =>
    let behind := ds.dropWhile isDigit
    !ds.isEmpty && behind.isEmpty ||
      (behind.head? = some '.' && behind.length > 1 && (behind.drop 1).all isDigit)
  | _ => false

def meanings (name : String) : List Choice :=
  match choiceOf? name with
  | some c => [c]
  | none => (optionNames.filter fun option => option.1.startsWith name).map (·.2)

def kindOfOther (arg : String) : Kind :=
  if isNegativeNumber arg || arg.contains ' ' then .operand else .unknown

def choiceOfLetter? (letter : Char) : Option Choice :=
  choiceOf? (String.ofList ['-', letter])

def attached? : List Char → Option String
  | [] => none
  | '=' :: value => some (String.ofList value)
  | value => some (String.ofList value)

def kindOf? (arg : String) : Option Kind :=
  match arg.toList with
  | '-' :: '-' :: _ =>
    let (name, value) := splitEquals arg
    match meanings name with
    | [c] => some (.long c value)
    | [] => some (kindOfOther arg)
    | _ => none
  | '-' :: letter :: rest =>
    match choiceOfLetter? letter with
    | some c => some (.short c (attached? rest))
    | none => some (kindOfOther arg)
  | _ => some .operand

inductive Halt where
  | usage
  | help
  | version
deriving DecidableEq

def classify : List String → Except Halt (List (Kind × String))
  | [] => .ok []
  | arg :: rest =>
    if arg = "--" then .ok ((.terminator, arg) :: rest.map (.operand, ·))
    else match kindOf? arg with
      | none => .error .usage
      | some kind => (classify rest).map ((kind, arg) :: ·)

structure Draft where
  selector : Option String
  files : Option (List String)
  extras : Bool
  language : Option String
  format : Option String
  verbose : Bool
  debug : Bool
  config : Option String

def Draft.blank : Draft :=
  ⟨none, none, false, none, none, false, false, none⟩

def isOperand : Kind × String → Bool
  | (.operand, _) => true
  | _ => false

def textsOf (args : List (Kind × String)) : List String :=
  (args.map (·.2)).erase "--"

/-- Takes the arguments between two options. The first operand is the selector, and those behind it
in the same run are the files; later ones are files if there are none yet. -/
def Draft.take (draft : Draft) (run : List (Kind × String)) : Draft :=
  let operands := (run.filter isOperand).length
  if run.isEmpty then draft
  else if operands = 0 then { draft with extras := true }
  else match draft.selector, draft.files with
    | none, _ =>
      let lead := run.takeWhile (!isOperand ·)
      let rest := run.drop lead.length
      let first := lead ++ rest.take 1 ++ (rest.drop 1).takeWhile (!isOperand ·)
      let draft := { draft with selector := (textsOf first).head? }
      if operands = 1 then draft
      else { draft with files := some (textsOf (run.drop first.length)) }
    | some _, none => { draft with files := some (textsOf run) }
    | some _, some _ => { draft with extras := true }

/-- Sets an option that takes a value. Two hyphens take back what was set before. -/
def Draft.assign (draft : Draft) (value : String) (setting : Setting) : Except Halt Draft :=
  let given := if value = "--" then none else some value
  match setting with
  | .language => .ok { draft with language := given }
  | .config => .ok { draft with config := given }
  | .format =>
    if given.all (["text", "json"].contains ·) then .ok { draft with format := given }
    else .error .usage

def Draft.flip (draft : Draft) : Switch → Except Halt Draft
  | .help => .error .help
  | .version => .error .version
  | .verbose => .ok { draft with verbose := true }
  | .debug => .ok { draft with debug := true }

def Draft.flipAll (draft : Draft) : List Switch → Except Halt Draft
  | [] => .ok draft
  | s :: rest => (draft.flip s).bind (·.flipAll rest)

structure Bundle where
  switches : List Switch
  setting : Option (Setting × Option String)

def Bundle.push (s : Switch) (bundle : Bundle) : Bundle :=
  { bundle with switches := s :: bundle.switches }

def ofLetters? : List Char → Option Bundle
  | [] => some ⟨[], none⟩
  | letter :: rest =>
    match choiceOfLetter? letter with
    | none => none
    | some (.inl s) => (ofLetters? rest).map (.push s)
    | some (.inr s) =>
      some ⟨[], some (s, if rest.isEmpty then none else some (String.ofList rest))⟩

/-- The options in an argument. To one that stands alone nothing may be attached, but more letters to
a short name. -/
def Kind.bundle? : Kind → Option Bundle
  | .short (.inl s) none | .long (.inl s) none => some ⟨[s], none⟩
  | .short (.inl s) (some more) =>
    if more = "" then none else (ofLetters? more.toList).map (.push s)
  | .short (.inr s) value | .long (.inr s) value => some ⟨[], some (s, value)⟩
  | _ => none

/-- How far the arguments are read: the operands since the last option, last first, and the option that
waits for its value, with those that stood alone before it in the same argument. -/
structure Reading where
  draft : Draft
  run : List (Kind × String)
  waiting : Option (List Switch × Setting)

def Reading.settled (reading : Reading) : Draft :=
  reading.draft.take reading.run.reverse

def Bundle.set (bundle : Bundle) (draft : Draft) : Except Halt Reading :=
  match bundle.setting with
  | some (setting, none) => .ok ⟨draft, [], some (bundle.switches, setting)⟩
  | some (setting, some value) => do
    return ⟨← (← draft.flipAll bundle.switches).assign value setting, [], none⟩
  | none => do return ⟨← draft.flipAll bundle.switches, [], none⟩

def Reading.step (reading : Reading) (arg : Kind × String) : Except Halt Reading :=
  match reading.waiting, arg with
  | some (switches, setting), (.operand, value) => do
    return ⟨← (← reading.draft.flipAll switches).assign value setting, [], none⟩
  | some _, _ => .error .usage
  | none, (.operand, _) | none, (.terminator, _) =>
    .ok { reading with run := arg :: reading.run }
  | none, (.unknown, _) => .ok ⟨{ reading.settled with extras := true }, [], none⟩
  | none, (kind, _) =>
    match kind.bundle? with
    | some bundle => bundle.set reading.settled
    | none => .error .usage

def Reading.finish (reading : Reading) : Except Halt Draft :=
  if reading.waiting.isSome then .error .usage else .ok reading.settled

/-- What a command line asks for. -/
def parseArguments (args : List String) : Except Halt Options := do
  let reading ← (← classify args).foldlM Reading.step ⟨.blank, [], none⟩
  let draft ← reading.finish
  match draft.selector, draft.files, draft.extras with
  | some selector, some files, false =>
    return ⟨selector, files, draft.language, draft.format, draft.verbose, draft.debug, draft.config⟩
  | _, _, _ => throw .usage

end SyntaxQuery.CommandLine
