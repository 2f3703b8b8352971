import SyntaxQuery.Query.Walk
import SyntaxQuery.Selector.Reader
import SyntaxQuery.Selector.Render

namespace SyntaxQuery.Query

open SyntaxQuery.Journal SyntaxQuery.Selector SyntaxQuery.Text SyntaxQuery.Tree

/-- What a query is asked of: a node with all that it holds, or something that has no node, with
the name of its type. -/
inductive Subject where
  | node (n : Located)
  | rootless (typeName : String)

inductive Refusal where
  | emptySelector (selector : String)
  | noRoot (typeName : String)
  | noLeadingClass (selector : String)
deriving DecidableEq

def Refusal.message : Refusal → String
  | emptySelector selector =>
    "Provided selector " ++ quoted selector ++ " was unable to be parsed"
  | noRoot typeName => "Invalid tree: expected a tree-sitter Tree or Node, got " ++ typeName
  | noLeadingClass selector =>
    "Provided selector " ++ quoted selector ++ " must begin with a class"

structure Prepared where
  selector : String
  tokens : List Token

def Prepared.ofTokens (tokens : List Token) : Prepared :=
  ⟨render tokens, tokens⟩

def Prepared.ofText (selector : String) : Logged (Except Malformed Prepared) := do
  return (← tokenize selector).map (⟨selector, ·⟩)

def report (message : String) : Logged Unit :=
  Logged.write "tree_selector.selector.query" .debug message

def candidates (kind : String) (n : Located) : List Located :=
  Id.run (descendAll (fun n => pure (n.kind = kind)) n)

def tryCandidate (verbose : Bool) (total : Nat) (rest : List Token) (n : Located) :
    Logged (List Match) := do
  let found ← walk verbose total rest n
  if verbose && !found.isEmpty then
    report ("Candidate matched with " ++ toString found.length ++ " results")
  return found

def seek (verbose : Bool) (selector kind : String) (rest : List Token) (n : Located) :
    Logged (List Match) := do
  let starts := candidates kind n
  if verbose then
    report ("Found " ++ toString starts.length ++ " candidates of type " ++ quoted kind)
  let found ← joinEach (tryCandidate verbose (rest.length + 1) rest) starts
  report ("Selector " ++ quoted selector ++ " produced " ++ toString found.length ++ " matches")
  return found

/-- Runs a selector. It has to have a token, the subject a node, and the first token to be a
class, in this order. -/
def Prepared.run (verbose : Bool) (subject : Subject) (q : Prepared) :
    Logged (Except Refusal (List Match)) :=
  match q.tokens, subject with
  | [], _ => pure (.error (.emptySelector q.selector))
  | _, .rootless typeName => pure (.error (.noRoot typeName))
  | .className kind :: rest, .node n => do return .ok (← seek verbose q.selector kind rest n)
  | _, _ => pure (.error (.noLeadingClass q.selector))

inductive Failure where
  | malformed (e : Malformed)
  | refused (e : Refusal)

def Failure.message : Failure → String
  | malformed e => e.message
  | refused e => e.message

def execute (verbose : Bool) (subject : Subject) (tokens : List Token) :
    Logged (Except Failure (List Match)) := do
  return (← (Prepared.ofTokens tokens).run verbose subject).mapError .refused

def select (verbose : Bool) (subject : Subject) (selector : String) :
    Logged (Except Failure (List Match)) := do
  match ← Prepared.ofText selector with
  | .error e => return .error (.malformed e)
  | .ok q => return (← q.run verbose subject).mapError .refused

end SyntaxQuery.Query
