import SyntaxQuery.Text.Basic

namespace SyntaxQuery.Disk

open SyntaxQuery.Text

/-- A place below the root, its last part first. -/
abbrev Place := List String

def parts (path : String) : List String :=
  splitPieces '/' path

def isAbsolute (path : String) : Bool :=
  path.startsWith "/"

def trimSlashes (cs : List Char) : List Char :=
  if cs.all (· = '/') then cs else (cs.reverse.dropWhile (· = '/')).reverse

def folderOf (path : String) : String :=
  String.ofList (trimSlashes (path.toList.reverse.dropWhile (· ≠ '/')).reverse)

def joinPath (folder path : String) : String :=
  if isAbsolute path || folder = "" then path
  else if folder.endsWith "/" then folder ++ path
  else folder ++ "/" ++ path

/-- Takes the parts of a path away that lead nowhere, and every part that is left again. -/
def settle : Place → List String → Place
  | here, [] => here
  | here, part :: rest =>
    if part = "" || part = "." then settle here rest
    else if part = ".." then settle here.tail rest
    else settle (part :: here) rest

def pathOf (place : Place) : String :=
  "/" ++ String.intercalate "/" place.reverse

def absolutePath (folder path : String) : String :=
  pathOf (settle [] (parts (joinPath folder path)))

/-- The beginnings of a path that end before a slash, given what stands before the rest. -/
def beginnings (passed : List Char) : List Char → List String
  | [] => []
  | c :: cs =>
    let more := beginnings (c :: passed) cs
    if c = '/' && passed.head?.any (· ≠ '/') then String.ofList passed.reverse :: more else more

def foldersAbove (path : String) : List String :=
  beginnings [] path.toList

end SyntaxQuery.Disk
