import SyntaxQuery.Query.Comparison
import SyntaxQuery.Selector.Token
import SyntaxQuery.Tree.Property
import SyntaxQuery.Tree.Traversal

namespace SyntaxQuery.Query

open SyntaxQuery.Journal SyntaxQuery.Number SyntaxQuery.Selector SyntaxQuery.Tree

inductive Match where
  | node (n : Located)
  | value (v : Scalar)

def note (level : Level) (message : String) : Logged Unit :=
  Logged.write "tree_selector.selector.walker" level message

@[inline] def trace (verbose : Bool) (message : String) : Logged Unit :=
  Logged.writeIf verbose "tree_selector.selector.walker" .debug message

def known {α : Type} : Except Unknown (Option α) → Logged (Option α)
  | .ok found => pure found
  | .error e => do
    note .warning (e.message ++ "; aborting this branch")
    return none

def indexOf? : Option Scalar → Option Int
  | some (.text s) => wholeInteger? s.toList
  | some (.integer n) => some n
  | some (.real x) => if x.isNaN || x.isInfinite then none else some x.truncate
  | some (.truth b) => some (if b then 1 else 0)
  | none => none

def continueAt (go : Located → Logged (List Match)) : Option Located → Logged (List Match)
  | some n => go n
  | none => pure []

def test (verbose : Bool) (n : Located) (name : String) (operator : Option String)
    (value : Option Scalar) (flag : Option String) : Logged Bool :=
  match n.property name with
  | .error e => do
    note .warning (e.message ++ "; aborting this branch")
    return false
  | .ok found => do
    let accepted ← accepts found operator value flag
    trace verbose
      ("Attribute " ++ name ++ if accepted then " matches" else " does not match")
    return accepted

def combine (go : Located → Logged (List Match)) (content : String) (n : Located) :
    Logged (List Match) :=
  if content = descendant then gather go n
  else if content = child then joinEach go n.children
  else if content = nextSibling then continueAt go n.nextNamed
  else if content = previousSibling then continueAt go n.previousNamed
  else do
    note .warning ("Unsupported combinator: " ++ Text.quoted content)
    return []

def extract (verbose : Bool) (n : Located) (name : String) (more : Bool) : Logged (List Match) := do
  match ← known (n.property name) with
  | none => return []
  | some v =>
    if more then
      trace verbose ("Pseudo-element ::" ++ name ++
        " is followed by more tokens; a value cannot be matched further")
      return []
    else return [.value v]

/-- Takes one token at a node and goes on at the nodes that it leads to. `more` says whether other
tokens follow. -/
def step (verbose more : Bool) (go : Located → Logged (List Match)) (n : Located) :
    Token → Logged (List Match)
  | .className name => if n.kind = name then go n else pure []
  | .id name => do continueAt go (← known (n.linked name))
  | .property name operator value flag => do
    if ← test verbose n name operator value flag then go n else return []
  | .combinator content => combine go content n
  | .pseudoClass name argument =>
    match indexOf? argument with
    | some index => do continueAt go (← known (n.moved name index))
    | none => do
      note .warning ("Pseudo-class :" ++ name ++ " needs an integer argument, got " ++
        Scalar.quotedOption argument)
      return []
  | .pseudoElement name => extract verbose n name more
  | .foreign _ _ kind => do
    note .warning ("The token type " ++ Scalar.quotedOption kind ++
      " didn't match any known type; aborting this branch")
    return []

/-- Matches the rest of `total` tokens at a node. A branch that fails gives nothing. -/
def walk (verbose : Bool) (total : Nat) : List Token → Located → Logged (List Match)
  | [], n => do
    trace verbose
      ("All " ++ toString total ++ " tokens matched, returning " ++ n.kind)
    return [.node n]
  | token :: rest, n => do
    trace verbose ("Walking token " ++ String.ofList (decimal (total - (rest.length + 1))) ++ ": " ++
      token.describe ++ " on " ++ n.kind)
    step verbose (!rest.isEmpty) (walk verbose total rest) n token

/-- The tokens from an index on. An index below zero counts from the end, and all tokens follow. -/
def tokensFrom (tokens : List Token) : Int → List Token
  | .ofNat i => tokens.drop i
  | .negSucc i => tokens.drop (tokens.length - (i + 1)) ++ tokens

def walkFrom (verbose : Bool) (tokens : List Token) (index : Int) (n : Located) :
    Logged (List Match) :=
  walk verbose tokens.length (tokensFrom tokens index) n

end SyntaxQuery.Query
