import SyntaxQuery.Text.Basic

namespace SyntaxQuery.Journal

open SyntaxQuery.Text

structure Moment where
  year : Nat
  month : Nat
  day : Nat
  hour : Nat
  minute : Nat
  second : Nat
  millisecond : Nat
deriving DecidableEq, Inhabited

def padded (width n : Nat) : String :=
  let ds := Nat.toDigits 10 n
  String.ofList (List.replicate (width - ds.length) '0' ++ ds)

namespace Moment

def epoch : Moment :=
  ⟨1970, 1, 1, 0, 0, 0, 0⟩

def clockText (m : Moment) : String :=
  padded 2 m.hour ++ ":" ++ padded 2 m.minute ++ ":" ++ padded 2 m.second

def dateText (m : Moment) : String :=
  padded 4 m.year ++ "-" ++ padded 2 m.month ++ "-" ++ padded 2 m.day

end Moment

structure Record where
  moment : Moment
  level : String
  source : String
  file : String
  line : Nat
  message : String

inductive Field where
  | time
  | level
  | source
  | file
  | line
  | message
deriving DecidableEq

def Field.ofName? : String → Option Field
  | "asctime" => some time
  | "levelname" => some level
  | "name" => some source
  | "filename" => some file
  | "lineno" => some line
  | "message" => some message
  | _ => none

/-- How a field is fitted into a line: at which side, with what in front, its least width, and how
much of a text is shown at most or how many digits of a number at least. -/
structure Fit where
  left : Bool
  zeros : Bool
  width : Nat
  limit : Option Nat
deriving DecidableEq

def Fit.pad (fit : Fit) (filler : Char) (cs : List Char) : List Char :=
  if fit.left then cs ++ List.replicate (fit.width - cs.length) ' '
  else List.replicate (fit.width - cs.length) filler ++ cs

def Fit.text (fit : Fit) (cs : List Char) : List Char :=
  fit.pad ' ' (cs.take (fit.limit.getD cs.length))

def Fit.number (fit : Fit) (n : Nat) : List Char :=
  fit.pad (if fit.zeros then '0' else ' ') (padded (fit.limit.getD 0) n).toList

inductive Part where
  | char (c : Char)
  | text (field : Field) (fit : Fit)
  | number (fit : Fit)
deriving DecidableEq

def takeNumber (cs : List Char) : Option Nat × List Char :=
  let digits := cs.takeWhile Char.isDigit
  (if digits.isEmpty then none else some (Nat.ofDigitChars 10 digits 0), cs.drop digits.length)

def takeLimit : List Char → Option Nat × List Char
  | '.' :: cs =>
    let (n, rest) := takeNumber cs
    (some (n.getD 0), rest)
  | cs => (none, cs)

def directive? : List Char → Option (Part × Nat)
  | '%' :: _ => some (.char '%', 1)
  | '(' :: cs => do
    let name := cs.takeWhile (· ≠ ')')
    let field ← Field.ofName? (String.ofList name)
    let behind := cs.drop (name.length + 1)
    let flags := behind.takeWhile ("#0- +".toList.contains ·)
    let (width, rest) := takeNumber (behind.drop flags.length)
    let (limit, rest) := takeLimit rest
    let fit : Fit := ⟨flags.contains '-', flags.contains '0', width.getD 0, limit⟩
    let length := cs.length - rest.length + 2
    match rest.head?, field with
    | some 's', field => some (.text field fit, length)
    | some 'd', .line => some (.number fit, length)
    | _, _ => none
  | _ => none

/-- The parts of a template, `passed` characters of which belong to a part already. -/
def partsFrom : Nat → List Char → List Part
  | _, [] => []
  | passed + 1, _ :: cs => partsFrom passed cs
  | 0, c :: cs =>
    match if c = '%' then directive? cs else none with
    | some (part, length) => part :: partsFrom length cs
    | none => .char c :: partsFrom 0 cs

inductive Precision where
  | clock
  | second
  | millisecond
deriving DecidableEq

def Precision.display (precision : Precision) (m : Moment) : String :=
  match precision with
  | clock => m.clockText
  | second => m.dateText ++ " " ++ m.clockText
  | millisecond => m.dateText ++ " " ++ m.clockText ++ "," ++ padded 3 m.millisecond

structure Layout where
  template : String
  precision : Precision
  colored : Option Bool
deriving DecidableEq

def colorOf? : String → Option String
  | "DEBUG" => some "\x1b[34m"
  | "INFO" => some "\x1b[32m"
  | "WARNING" => some "\x1b[33m"
  | "ERROR" => some "\x1b[31m"
  | "CRITICAL" => some "\x1b[31m\x1b[1m"
  | _ => none

namespace Layout

def ofTemplate (template : Option String) (colored : Bool) : Layout :=
  match template with
  | none | some "" => ⟨"%(message)s", .millisecond, some colored⟩
  | some template => ⟨template, .millisecond, some colored⟩

def console (colored : Bool) : Layout :=
  ⟨"%(asctime)s [%(levelname)s] %(name)s: %(message)s", .clock, some colored⟩

def file : Layout :=
  ⟨"%(asctime)s [%(levelname)s] %(name)s (%(filename)s:%(lineno)d): %(message)s", .second, none⟩

def showField (layout : Layout) (r : Record) : Field → List Char
  | .time => (layout.precision.display r.moment).toList
  | .level => r.level.toList
  | .source => r.source.toList
  | .file => r.file.toList
  | .line => Nat.toDigits 10 r.line
  | .message => r.message.toList

def showPart (layout : Layout) (r : Record) : Part → List Char
  | .char c => [c]
  | .text field fit => fit.text (layout.showField r field)
  | .number fit => fit.number r.line

def plain (layout : Layout) (r : Record) : List Char :=
  (partsFrom 0 layout.template.toList).flatMap (layout.showPart r)

/-- A line; where colours are wanted, the first occurrence of the level's name has one. -/
def format (layout : Layout) (r : Record) : String :=
  let line := layout.plain r
  match layout.colored, colorOf? r.level with
  | some true, some color =>
    String.ofList (replaceFirst r.level.toList (color ++ r.level ++ "\x1b[0m").toList line)
  | _, _ => String.ofList line

end Layout

end SyntaxQuery.Journal
