import SyntaxQuery.Json.Basic
import SyntaxQuery.Text.Basic

namespace SyntaxQuery.Settings

abbrev Section := Table Json

def defaults : Section := [
  ("query", .object [("verbose", .truth false)]),
  ("parsing", .object [("default_language", .text "javascript")]),
  ("output", .object [("format", .text "text")]),
  ("logging", .object [
    ("console_level", .text "WARNING"),
    ("file_level", .text "DEBUG"),
    ("log_file", .null)])]

def keyParts (key : String) : List String :=
  Text.splitPieces '.' key

def sectionAt (name : String) (settings : Section) : Section :=
  ((settings.find? name).bind Json.fields?).getD []

def getAt : List String → Section → Option Json
  | [], _ => none
  | [name], settings => settings.find? name
  | name :: rest, settings =>
    match settings.find? name with
    | some (.object inner) => getAt rest inner
    | _ => none

/-- Puts a value where names lead to; what is no section on the way becomes one. -/
def setAt (value : Json) : List String → Section → Section
  | [], settings => settings
  | [name], settings => settings.put name value
  | name :: rest, settings =>
    settings.put name (.object (setAt value rest (sectionAt name settings)))

def removeAt : List String → Section → Option Section
  | [], _ => none
  | [name], settings => if settings.has name then some (settings.drop name) else none
  | name :: rest, settings =>
    match settings.find? name with
    | some (.object inner) =>
      (removeAt rest inner).map fun inner => settings.put name (.object inner)
    | _ => none

def get? (key : String) (settings : Section) : Option Json :=
  getAt (keyParts key) settings

def get (key : String) (fallback : Json) (settings : Section) : Json :=
  (get? key settings).getD fallback

def set (key : String) (value : Json) (settings : Section) : Section :=
  setAt value (keyParts key) settings

def remove (key : String) (settings : Section) : Bool × Section :=
  match removeAt (keyParts key) settings with
  | some rest => (true, rest)
  | none => (false, settings)

mutual

/-- Lays a value over what stands in its place: a section over a section entry by entry, all else as
it is. -/
def overlayValue (old : Option Json) : Json → Json
  | .object inner =>
    match old with
    | some (.object fields) => .object (overlay fields inner)
    | _ => .object inner
  | value => value

def overlay (base : Section) : List (String × Json) → Section
  | [] => base
  | (name, value) :: rest =>
    overlay (base.put name (overlayValue (base.find? name) value)) rest

end

end SyntaxQuery.Settings
