import RouteMigration.Target.Qualified
import RouteMigration.Text.Blank

/-! Endpoint literals in a rule. The dispatcher compares spellings, not meanings, so a
qualified literal is expanded to a disjunction of both spellings, and collapsed to the
canonical one again. A rule is read as tokens whose texts make up the rule, so whatever is
not rewritten stays as it was. -/

namespace RouteMigration.Rule

open RouteMigration.Text RouteMigration.Target

inductive Token where
  | plain (c : Char)
  /-- `endpoint=="value"` -/
  | literal (value : List Char)
  /-- Two literals in parentheses, `||` between them with white space at its sides. -/
  | disjunction (first before after second : List Char)
  deriving DecidableEq, Repr

def literalStart : List Char := "endpoint==\"".toList

def literalText (value : List Char) : List Char := literalStart ++ (value ++ ['"'])

def orSign : List Char := ['|', '|']

namespace Token

def text : Token → List Char
  | plain c => [c]
  | literal value => literalText value
  | disjunction first before after second =>
    '(' :: (literalText first ++ (before ++ (orSign ++ (after ++ (literalText second ++ [')'])))))

end Token

/-- The value of the literal at the front, and what follows it. -/
def readLiteral? (s : List Char) : Option (List Char × List Char) :=
  match dropWord literalStart s with
  | some rest => cutFirst '"' rest
  | none => none

def literal? (s : List Char) : Option Token :=
  match readLiteral? s with
  | some (value, _) => some (.literal value)
  | none => none

def disjunction? (s : List Char) : Option Token :=
  match s with
  | '(' :: s =>
    match readLiteral? s with
    | some (first, s) =>
      match dropWord orSign (s.dropWhile isBlank) with
      | some t =>
        match readLiteral? (t.dropWhile isBlank) with
        | some (second, ')' :: _) =>
          some (.disjunction first (s.takeWhile isBlank) (t.takeWhile isBlank) second)
        | _ => none
      | none => none
    | none => none
  | _ => none

/-- The tokens of a text whose first `skip` characters are already spoken for. A character
at which `read?` finds nothing is a token by itself. -/
def scanFrom (read? : List Char → Option Token) : Nat → List Char → List Token
  | _, [] => []
  | skip + 1, _ :: cs => scanFrom read? skip cs
  | 0, c :: cs =>
    match read? (c :: cs) with
    | some t => t :: scanFrom read? (t.text.length - 1) cs
    | none => .plain c :: scanFrom read? 0 cs

def scan (read? : List Char → Option Token) (rule : List Char) : List Token := scanFrom read? 0 rule

/-- At an opening parenthesis the whole disjunction is read, so that its arms are judged
together. -/
def pattern? (s : List Char) : Option Token :=
  match disjunction? s with
  | some t => some t
  | none => literal? s

/-- The target two literals name in different spellings. -/
def bothSpellings? (first second : List Char) : Option Qualified :=
  match Qualified.parse? first, Qualified.parse? second with
  | some (p, s), some (q, t) => if p = q ∧ s ≠ t then some p else none
  | _, _ => none

/-- A literal as the disjunction of both spellings; without a qualifier, as it is. -/
def expandLiteral (value : List Char) : List Char :=
  match Qualified.parse? value with
  | some (q, _) =>
    (Token.disjunction (q.spell .qualifierFirst) [' '] [' '] (q.spell .environmentFirst)).text
  | none => literalText value

namespace Token

def expand : Token → List Char
  | plain c => [c]
  | literal value => expandLiteral value
  | disjunction first before after second =>
    if (bothSpellings? first second).isSome then (disjunction first before after second).text
    else '(' :: (expandLiteral first ++
      (before ++ (orSign ++ (after ++ (expandLiteral second ++ [')'])))))

def collapse : Token → List Char
  | disjunction first before after second =>
    match bothSpellings? first second with
    | some q => literalText q.canonical
    | none => (disjunction first before after second).text
  | t => t.text

end Token

def expand (rule : List Char) : List Char := (scan pattern? rule).flatMap Token.expand

def collapse (rule : List Char) : List Char := (scan disjunction? rule).flatMap Token.collapse

def expandEndpointPattern (rule : String) : String := String.ofList (expand rule.toList)

def collapseEndpointPattern (rule : String) : String := String.ofList (collapse rule.toList)

end RouteMigration.Rule
