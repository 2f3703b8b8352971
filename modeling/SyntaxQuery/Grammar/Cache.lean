import SyntaxQuery.Grammar.Language
import SyntaxQuery.Journal.Basic
import SyntaxQuery.Text.Quoted
import SyntaxQuery.Text.Utf8

namespace SyntaxQuery.Grammar

open SyntaxQuery.Journal SyntaxQuery.Text

abbrev Packages := String → Option (String → Bool)

def Packages.install (packages : Packages) (package : String) (factories : List String) : Packages :=
  fun name => if name = package then some factories.contains else packages name

structure Language where
  serial : Nat
  pointer : String
deriving DecidableEq, Inhabited

inductive Missing where
  | noPackage (language package : String)
  | noFactory (location : Location)
deriving DecidableEq

def Missing.message : Missing → String
  | noPackage language package =>
    "No tree-sitter grammar for " ++ quoted language ++ ": install the " ++
      replaceChar '_' '-' package ++ " package"
  | noFactory location =>
    "Module " ++ location.package ++ " has no " ++ location.factory ++ "() function"

/-- The grammars that are loaded, under their keys, and the packages that were imported, in order. -/
structure Cache where
  loaded : Table Language
  imports : List String
deriving Inhabited

structure Parser where
  language : Language
deriving DecidableEq, Inhabited

inductive Code where
  | text (text : String)
  | octets (bytes : List UInt8)

def Code.bytes : Code → List UInt8
  | text s => Text.octets s
  | octets bytes => bytes

namespace Cache

def empty : Cache :=
  ⟨[], []⟩

def make (packages : Packages) (name : String) (cache : Cache) : Except Missing Language :=
  let location := locate (keyOf name)
  match packages location.package with
  | none => .error (.noPackage name location.package)
  | some has =>
    if has location.factory then
      .ok ⟨cache.loaded.length, location.package ++ "." ++ location.factory⟩
    else .error (.noFactory location)

/-- Loads the grammar of a language, unless it is loaded already. -/
def load (packages : Packages) (name : String) (cache : Cache) :
    Logged (Except Missing Language × Cache) :=
  match cache.loaded.find? (keyOf name) with
  | some language => pure (.ok language, cache)
  | none =>
    let imports := cache.imports ++ [(locate (keyOf name)).package]
    match cache.make packages name with
    | .error e => pure (.error e, ⟨cache.loaded, imports⟩)
    | .ok language => do
      Logged.write "tree_selector.languages" .debug
        ("Loaded tree-sitter grammar " ++ language.pointer)
      return (.ok language, ⟨cache.loaded.put (keyOf name) language, imports⟩)

def parser (packages : Packages) (name : String) (cache : Cache) :
    Logged (Except Missing Parser × Cache) := do
  let (found, cache) ← cache.load packages name
  return (found.map Parser.mk, cache)

/-- Parses code with a new parser for a language; `read` is the tree that a parser makes of what it
reads. -/
def parse {Tree : Type} (read : Parser → List UInt8 → Tree) (packages : Packages) (code : Code)
    (name : String) (cache : Cache) : Logged (Except Missing Tree × Cache) := do
  let (made, cache) ← cache.parser packages name
  return (made.map fun parser => read parser code.bytes, cache)

end Cache

end SyntaxQuery.Grammar
