import RouteMigration.Settings.Value
import RouteMigration.Text.Cut
import RouteMigration.Text.Hex

/-! The lexemes of TOML: blanks, comments, ends of lines, texts and keys. A scanner gives
`none` where the text is not TOML; what is wrong with it is not kept. -/

namespace RouteMigration.Settings.Toml

open RouteMigration.Text

abbrev Scanner (α : Type) := StateT (List Char) Option α

def isBlank (c : Char) : Bool := c == ' ' || c == '\t'

def skipBlank (s : List Char) : List Char := s.dropWhile isBlank

/-- Characters a comment may hold. -/
def isLineChar (c : Char) : Bool := c == '\t' || (0x20 ≤ c.toNat && c.toNat ≠ 0x7F)

/-- The end of a line, as a line feed with or without a return before it. -/
def newline? (s : List Char) : Option (List Char) :=
  match s with
  | '\n' :: rest => some rest
  | '\r' :: '\n' :: rest => some rest
  | _ => none

def skipComment (s : List Char) : List Char :=
  match s with
  | '#' :: rest => rest.dropWhile isLineChar
  | _ => s

/-- What may stand between the end of a statement and the next line. -/
def endLine : Scanner Unit := fun s =>
  match skipComment (skipBlank s) with
  | [] => some ((), [])
  | s => (newline? s).map ((), ·)

/-- Passes over blanks, comments and ends of lines, as many as there are. A return without
a line feed is none of them. -/
def skipLinesFrom : Bool → List Char → List Char
  | _, [] => []
  | inComment, c :: s =>
    if inComment && isLineChar c then skipLinesFrom true s
    else if c = '\n' || (!inComment && isBlank c) then skipLinesFrom false s
    else if c = '\r' && s.head? = some '\n' then skipLinesFrom false s
    else if !inComment && c = '#' then skipLinesFrom true s
    else c :: s

def skipLines (s : List Char) : List Char := skipLinesFrom false s

/-! ## Texts -/

/-- The character a fixed number of hexadecimal digits names, and how many characters
follow the backslash. -/
def codeEscape (length : Nat) (s : List Char) : Option (Char × Nat) :=
  let digits := s.take length
  if digits.length < length then none
  else do
    let n ← hexNumber? digits
    if n.isValidChar then some (Char.ofNat n, length + 1) else none

def escape? (s : List Char) : Option (Char × Nat) :=
  match s with
  | 'u' :: s => codeEscape 4 s
  | 'U' :: s => codeEscape 8 s
  | c :: _ =>
    (([('"', '"'), ('\\', '\\'), ('b', '\x08'), ('f', '\x0c'), ('n', '\n'), ('r', '\r'),
      ('t', '\t')].lookup c).map (·, 1))
  | [] => none

abbrev TextResult := Option (List Char × List Char)

def TextResult.cons (c : Char) (r : TextResult) : TextResult :=
  r.map fun (text, rest) => (c :: text, rest)

/-- A text on one line, up to its closing quote. The first `skip` characters belong to an
escape already read. -/
def basicFrom : Nat → List Char → TextResult
  | _, [] => none
  | skip + 1, _ :: s => basicFrom skip s
  | 0, c :: s =>
    if c = '"' then some ([], s)
    else if c = '\\' then
      match escape? s with
      | some (d, taken) => (basicFrom taken s).cons d
      | none => none
    else if isLineChar c then (basicFrom 0 s).cons c
    else none

/-- A text on one line without escapes. -/
def literalFrom : List Char → TextResult
  | [] => none
  | c :: s =>
    if c = '\'' then some ([], s)
    else if isLineChar c then (literalFrom s).cons c
    else none

/-- At the quotes that may end a text of several lines: three of them do, and up to two
before those belong to the text. Gives the quotes of the text and what follows the end. -/
def closing? (q : Char) (s : List Char) : TextResult :=
  let run := s.takeWhile (· = q)
  if run.length < 3 then none
  else
    let own := min (run.length - 3) 2
    some (List.replicate own q, s.drop (own + 3))

/-- How many characters a backslash before the end of a line swallows after itself: the
blanks, the end of the line and all white space up to the next character. -/
def continuation? (s : List Char) : Option Nat :=
  match newline? (skipBlank s) with
  | some rest => some (s.length - (skipWhite rest).length)
  | none => none
where
  skipWhite : List Char → List Char
    | [] => []
    | c :: s =>
      if isBlank c || c = '\n' || (c = '\r' && s.head? = some '\n') then skipWhite s else c :: s

/-- A text that may go over several lines; every end of a line in it is a line feed. -/
def multilineFrom (q : Char) : Nat → List Char → TextResult
  | _, [] => none
  | skip + 1, _ :: s => multilineFrom q skip s
  | 0, c :: s =>
    match closing? q (c :: s) with
    | some result => some result
    | none =>
      if c = '\n' then (multilineFrom q 0 s).cons '\n'
      else if c = '\r' then
        if s.head? = some '\n' then multilineFrom q 0 s else none
      else if c = '\\' && q = '"' then
        match continuation? s with
        | some taken => multilineFrom q taken s
        | none =>
          match escape? s with
          | some (d, taken) => (multilineFrom q taken s).cons d
          | none => none
      else if isLineChar c then (multilineFrom q 0 s).cons c
      else none

/-- The end of a line right after the opening quotes does not count. -/
def skipNewline (s : List Char) : List Char := (newline? s).getD s

def text : Scanner String := fun s =>
  let result : TextResult := match s with
    | '"' :: '"' :: '"' :: s => multilineFrom '"' 0 (skipNewline s)
    | '"' :: s => basicFrom 0 s
    | '\'' :: '\'' :: '\'' :: s => multilineFrom '\'' 0 (skipNewline s)
    | '\'' :: s => literalFrom s
    | _ => none
  result.map fun (text, rest) => (String.ofList text, rest)

/-! ## Keys -/

def isBareChar (c : Char) : Bool := c.isAlphanum || c == '_' || c == '-'

/-- One part of a key: a word, or a text on one line. -/
def keyPart : Scanner String := fun s =>
  let result : TextResult := match s with
    | '"' :: s => basicFrom 0 s
    | '\'' :: s => literalFrom s
    | s =>
      let word := s.takeWhile isBareChar
      if word.isEmpty then none else some (word, s.dropWhile isBareChar)
  result.map fun (text, rest) => (String.ofList text, rest)

/-- A key has fewer parts than this, and brackets nest less deep. -/
def depthLimit : Nat := 80

/-- Parts joined by dots, with blanks around each; at most `fuel` of them. -/
def keyFrom : Nat → Scanner (List String)
  | 0 => fun _ => none
  | fuel + 1 => fun s => do
    let (part, rest) ← keyPart (skipBlank s)
    match skipBlank rest with
    | '.' :: rest =>
      let (parts, rest) ← keyFrom fuel rest
      return (part :: parts, rest)
    | rest => return ([part], rest)

def key : Scanner (List String) := keyFrom (depthLimit - 1)

end RouteMigration.Settings.Toml
