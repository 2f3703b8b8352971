import SyntaxQuery.CommandLine.Run
import Std.Time.Zoned

namespace SyntaxQuery.CommandLine

open SyntaxQuery.Disk SyntaxQuery.Journal SyntaxQuery.Settings

def fileAt (path : String) : IO Item := do
  try
    return .file (← IO.FS.readBinFile path).toList
  catch _ =>
    return .locked

def itemAt (path : String) : IO (Option Item) := do
  try
    let real ← IO.FS.realPath path
    if ← real.isDir then return some .folder
    if ← real.pathExists then return some (← fileAt path) else return none
  catch _ =>
    return none

def observe (disk : Disk) (path : String) : IO Disk := do
  let joined := joinPath disk.here path
  (foldersAbove joined ++ [joined]).foldlM (fun disk path => do
    match ← itemAt path with
    | some item => return { disk with items := disk.items.put (absolutePath disk.here path) item }
    | none => return disk) disk

def userHome : IO String := do
  let home := (← IO.getEnv "HOME").getD ""
  return if home.all (· = '/') then "/" else String.ofList (trimSlashes home.toList)

def holds (disk : Disk) (path : String) (bytes : List UInt8) : Bool :=
  match disk.items.find? path with
  | some (.file old) => old == bytes
  | _ => false

/-- Makes the folders and writes the files that are new or have changed. -/
def realize (old new : Disk) : IO Unit :=
  new.items.forM fun (path, item) => do
    match item with
    | .folder => unless old.items.has path do IO.FS.createDirAll path
    | .file bytes => unless holds old path bytes do IO.FS.writeBinFile path bytes.toByteArray
    | .locked => pure ()

def currentMoment : IO Moment := do
  let now ← Std.Time.PlainDateTime.now
  return ⟨now.date.year.toInt.toNat, now.date.month.toNat, now.date.day.toNat, now.time.hour.toNat,
    now.time.minute.toNat, now.time.second.toNat, now.time.nanosecond.toNat / 1000000⟩

def observed (options : Options) : IO Disk := do
  let here := (← IO.currentDir).toString
  let disk := { Disk.bare here with home := ← userHome }
  let disk ← observe disk (pathFrom disk options.config)
  let disk ← options.files.foldlM observe disk
  let settings := (openStore disk options.config).value.values
  match (journalSetup options settings).logFile.text? with
  | some path => observe disk path
  | none => return disk

def bareTools : Toolbox :=
  ⟨fun _ => none, fun _ _ => .rootless "NoneType", fun _ => (0, 0)⟩

end SyntaxQuery.CommandLine

open SyntaxQuery.CommandLine in
/-- Runs the program on the arguments that it is called with. -/
def main (args : List String) : IO UInt32 := do
  match parseArguments args with
  | .error halt =>
    IO.print halt.printed
    IO.eprint halt.terminal
    return halt.code.toUInt32
  | .ok options =>
    let disk ← observed options
    let trail := runWith bareTools (← currentMoment) disk options
    realize disk trail.outlets.disk
    IO.print trail.printed
    IO.eprint trail.outlets.terminal
    match trail.ending with
    | .ok code => return code.toUInt32
    | .error crash =>
      IO.eprintln crash.message
      return 1
