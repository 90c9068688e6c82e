import RouteMigration.Document.Lexeme
import RouteMigration.Document.Number

/-! Passing over a value nobody asked for. The brackets still open are a list, so the
depth of a value has no limit. Numbers are read more leniently than where they are quoted,
and a number that is cut short counts as malformed. -/

namespace RouteMigration.Document

inductive Bracket where
  | square
  | curly
  deriving DecidableEq, Repr

def Bracket.closing : Bracket → Char
  | square => ']'
  | curly => '}'

/-- What follows a value: nothing that belongs to it, or a further member of the innermost
bracket still open. -/
inductive Remainder where
  | finished (rest : List Char)
  | member (inside : List Bracket) (rest : List Char)

/-! ## Numbers -/

def skipDigits (s : List Char) : Except Refusal (List Char) :=
  if s.head?.any isDigit then .ok (s.dropWhile isDigit) else .error .malformed

def skipSign (s : List Char) : List Char :=
  match s with
  | '+' :: rest | '-' :: rest => rest
  | _ => s

def skipExponent (s : List Char) : Except Refusal (List Char) :=
  match s with
  | 'e' :: s | 'E' :: s => skipDigits (skipSign s)
  | s => .ok s

def skipFraction (s : List Char) : Except Refusal (List Char) :=
  match s with
  | '.' :: s => do skipExponent (← skipDigits s)
  | s => skipExponent s

/-- A number after its sign. -/
def skipNumber (s : List Char) : Except Refusal (List Char) :=
  match s with
  | '0' :: s => if s.head?.any isDigit then .error .malformed else skipFraction s
  | s => do skipFraction (← skipDigits s)

/-! ## Values -/

/-- After a value: closes what closes here and stops at the comma before a further member. -/
def closeBrackets : List Bracket → List Char → Except Refusal Remainder
  | [], s => .ok (.finished s)
  | b :: inside, s =>
    match skipBlank s with
    | [] => .error .cutShort
    | c :: rest =>
      if c = ',' then .ok (.member (b :: inside) rest)
      else if c = b.closing then closeBrackets inside rest
      else .error .malformed

/-- After an opening bracket: an empty one closes at once. -/
def openBracket (b : Bracket) (inside : List Bracket) (s : List Char) : Except Refusal Remainder :=
  match skipBlank s with
  | [] => .error .cutShort
  | c :: rest => if c = b.closing then closeBrackets inside rest else .ok (.member (b :: inside) s)

/-- A value at the front: a scalar, or as much of a compound one as precedes its first
member. -/
def skipStart (inside : List Bracket) (s : List Char) : Except Refusal Remainder :=
  match skipBlank s with
  | [] => .error .cutShort
  | '[' :: s => openBracket .square inside s
  | '{' :: s => openBracket .curly inside s
  | '"' :: s => do closeBrackets inside (← skipTextFrom 0 s)
  | 'n' :: s => do closeBrackets inside (← expectWord "ull".toList s).2
  | 't' :: s => do closeBrackets inside (← expectWord "rue".toList s).2
  | 'f' :: s => do closeBrackets inside (← expectWord "alse".toList s).2
  | '-' :: s => do closeBrackets inside (← skipNumber s)
  | c :: s => do
    if isDigit c then closeBrackets inside (← skipNumber (c :: s)) else throw .malformed

/-- A member of an object begins with its key and a colon. -/
def skipKey (s : List Char) : Except Refusal (List Char) :=
  match skipBlank s with
  | [] => .error .cutShort
  | '"' :: s => do
    match skipBlank (← skipTextFrom 0 s) with
    | [] => throw .cutShort
    | ':' :: s => return s
    | _ => throw .malformed
  | _ => .error .malformed

def skipMemberStart (inside : List Bracket) (s : List Char) : Except Refusal (List Char) :=
  match inside with
  | .curly :: _ => skipKey s
  | _ => .ok s

/-- A value and everything up to the last bracket of `inside`. Each round takes up some
text. -/
def skipFrom (inside : List Bracket) (s : List Char) : Except Refusal (List Char) :=
  match skipStart inside s with
  | .error e => .error e
  | .ok (.finished rest) => .ok rest
  | .ok (.member inside rest) =>
    match skipMemberStart inside rest with
    | .error e => .error e
    | .ok rest => if rest.length < s.length then skipFrom inside rest else .error .malformed
termination_by s.length

def skipValue : Reader Unit := fun s =>
  match skipFrom [] s with
  | .ok rest => .ok ((), rest)
  | .error e => .error e

end RouteMigration.Document
