import SyntaxQuery.Disk.Path
import SyntaxQuery.Table
import SyntaxQuery.Text.Quoted

namespace SyntaxQuery

inductive Disk.Item where
  | file (bytes : List UInt8)
  /-- A file that cannot be opened. -/
  | locked
  | folder
deriving Inhabited

/-- The files and folders, under their paths from the root, the folder that other paths start from,
and the folder of the user. Nothing can be changed or made at a path that is fixed, and nothing made
in a folder that is. -/
structure Disk where
  here : String
  home : String
  items : Table Disk.Item
  fixed : List String
deriving Inhabited

namespace Disk

inductive Cause where
  | missing
  | taken
  | noFolder
  | folder
  | denied
  | long
  | null
deriving DecidableEq

structure Refused where
  cause : Cause
  path : String
deriving DecidableEq

def Refused.isPathless (e : Refused) : Bool :=
  e.cause = .null

def Refused.message (e : Refused) : String :=
  match e.cause with
  | .missing => "[Errno 2] No such file or directory: " ++ Text.quoted e.path
  | .taken => "[Errno 17] File exists: " ++ Text.quoted e.path
  | .noFolder => "[Errno 20] Not a directory: " ++ Text.quoted e.path
  | .folder => "[Errno 21] Is a directory: " ++ Text.quoted e.path
  | .denied => "[Errno 13] Permission denied: " ++ Text.quoted e.path
  | .long => "[Errno 36] File name too long: " ++ Text.quoted e.path
  | .null => "embedded null byte"

def item? (disk : Disk) : Place → Option Item
  | [] => some .folder
  | place => disk.items.find? (pathOf place)

/-- How many octets a name may have. -/
def nameLimit : Nat := 255

def pathLimit : Nat := 4095

/-- The place that parts lead to. All that is passed on the way has to be a folder. -/
def follow (disk : Disk) : Place → List String → Except Cause Place
  | here, [] => .ok here
  | here, part :: rest =>
    match disk.item? here with
    | none => .error .missing
    | some (.file _) | some .locked => .error .noFolder
    | some .folder =>
      if part = "" || part = "." then disk.follow here rest
      else if part = ".." then disk.follow here.tail rest
      else if nameLimit < part.utf8ByteSize then .error .long
      else disk.follow (part :: here) rest

def locate (disk : Disk) (path : String) : Except Refused (Place × Option Item) :=
  if path = "" then .error ⟨.missing, path⟩
  else if path.contains '\x00' then .error ⟨.null, path⟩
  else if pathLimit < path.utf8ByteSize then .error ⟨.long, path⟩
  else
    match disk.follow [] (parts (joinPath disk.here path)) with
    | .error cause => .error ⟨cause, path⟩
    | .ok place => .ok (place, disk.item? place)

def put (disk : Disk) (place : Place) (item : Item) : Disk :=
  { disk with items := disk.items.put (pathOf place) item }

def isFixed (disk : Disk) (place : Place) : Bool :=
  disk.fixed.contains (pathOf place)

def alter (disk : Disk) (path : String) (touched : List Place) (place : Place) (item : Item) :
    Except Refused Disk :=
  if touched.any disk.isFixed then .error ⟨.denied, path⟩ else .ok (disk.put place item)

def present (disk : Disk) (path : String) : Bool :=
  match disk.locate path with
  | .ok (_, some _) => true
  | _ => false

def isFolder (disk : Disk) (path : String) : Bool :=
  match disk.locate path with
  | .ok (_, some .folder) => true
  | _ => false

def read (disk : Disk) (path : String) : Except Refused (List UInt8) := do
  match ← disk.locate path with
  | (_, some (.file bytes)) => return bytes
  | (_, some .locked) => throw ⟨.denied, path⟩
  | (_, some .folder) => throw ⟨.folder, path⟩
  | (_, none) => throw ⟨.missing, path⟩

def change (disk : Disk) (path : String) (f : List UInt8 → List UInt8) : Except Refused Disk := do
  match ← disk.locate path with
  | (place, some (.file bytes)) => disk.alter path [place] place (.file (f bytes))
  | (_, some .locked) => throw ⟨.denied, path⟩
  | (_, some .folder) => throw ⟨.folder, path⟩
  | (place, none) => disk.alter path [place, place.tail] place (.file (f []))

def write (disk : Disk) (path : String) (bytes : List UInt8) : Except Refused Disk :=
  disk.change path fun _ => bytes

def append (disk : Disk) (path : String) (bytes : List UInt8) : Except Refused Disk :=
  disk.change path (· ++ bytes)

def makeFolder (disk : Disk) (path : String) : Except Refused Disk := do
  match ← disk.locate path with
  | (_, some _) => throw ⟨.taken, path⟩
  | (place, none) => disk.alter path [place, place.tail] place .folder

def makeEach (disk : Disk) : List String → Except Refused Unit × Disk
  | [] => (.ok (), disk)
  | path :: rest =>
    match disk.makeFolder path with
    | .ok disk => disk.makeEach rest
    | .error e => if e.cause = .taken then disk.makeEach rest else (.error e, disk)

/-- Makes a folder with all that are missing above it; the folder itself may be there. -/
def makeFolders (disk : Disk) (path : String) : Except Refused Unit × Disk :=
  let missing := ((foldersAbove path).reverse.takeWhile fun folder => !disk.present folder).reverse
  match disk.makeEach missing with
  | (.error e, disk) => (.error e, disk)
  | (.ok (), disk) =>
    match disk.makeFolder path with
    | .ok disk => (.ok (), disk)
    | .error e => (if disk.isFolder path then .ok () else .error e, disk)

def makeRoom (disk : Disk) (path : String) : Except Refused Unit × Disk :=
  let folder := folderOf path
  if folder = "" then (.ok (), disk) else disk.makeFolders folder

def bare (here : String) : Disk :=
  let paths := foldersAbove here ++ [here]
  ⟨here, here, paths.map (·, .folder), []⟩

end Disk

end SyntaxQuery
