import RouteMigration.Exchange.Host
import RouteMigration.Text.Cut

/-! Addresses of a web service: how a text is read as one, and how it is written once it
has been read. -/

namespace RouteMigration

open RouteMigration.Text

inductive AddressFlaw where
  | noScheme
  | badHost (flaw : HostFlaw)
  | badPort
  deriving DecidableEq, Repr

def AddressFlaw.message : AddressFlaw → String
  | noScheme => "relative URL without a base"
  | badHost flaw => flaw.message
  | badPort => "invalid port number"

structure WebAddress where
  scheme : List Char
  /-- What stands between the two slashes and the path; `none` where there are no slashes. -/
  authority : Option (List Char)
  path : List Char
  /-- With its question mark, if there is one. -/
  query : List Char
  /-- With its number sign, if there is one. -/
  fragment : List Char
  deriving DecidableEq, Repr

namespace WebAddress

def text (a : WebAddress) : String :=
  let authority := match a.authority with
    | some authority => '/' :: '/' :: authority
    | none => []
  String.ofList (a.scheme ++ ':' :: (authority ++ a.path ++ a.query ++ a.fragment))

/-- What a server is asked for. -/
def target (a : WebAddress) : String := String.ofList (a.path ++ a.query)

def schemeIsAllowed (a : WebAddress) : Bool :=
  a.scheme == "http".toList || a.scheme == "https".toList

/-! ## Reading -/

/-- The schemes whose addresses always have a host, each with the port that goes without
saying. -/
def hostedSchemes : List (List Char × Nat) :=
  [("http".toList, 80), ("https".toList, 443), ("ws".toList, 80), ("wss".toList, 443),
   ("ftp".toList, 21)]

def isLetter (c : Char) : Bool := ('a' ≤ c && c ≤ 'z') || ('A' ≤ c && c ≤ 'Z')

def isDigit (c : Char) : Bool := '0' ≤ c && c ≤ '9'

def isSchemeChar (c : Char) : Bool :=
  isLetter c || isDigit c || c == '+' || c == '-' || c == '.'

/-- The scheme in lower case, and what follows its colon. -/
def cutScheme (s : List Char) : Option (List Char × List Char) :=
  match cutFirst ':' s with
  | some (scheme, rest) =>
    if scheme.head?.any isLetter && scheme.all isSchemeChar then
      some (scheme.map Char.toLower, rest)
    else none
  | none => none

/-- Characters that stand for themselves in a path. -/
def isPathChar (c : Char) : Bool :=
  0x21 ≤ c.toNat && c.toNat ≤ 0x7E && !("\"#<>?`\x7b\x7d^".toList.contains c)

/-- Characters that stand for themselves in a query. -/
def isQueryChar (c : Char) : Bool :=
  0x21 ≤ c.toNat && c.toNat ≤ 0x7E && !("\"#<>'".toList.contains c)

/-- Characters that stand for themselves in a fragment. -/
def isFragmentChar (c : Char) : Bool :=
  0x21 ≤ c.toNat && c.toNat ≤ 0x7E && !("\"<>`".toList.contains c)

/-- Characters that stand for themselves where there is neither host nor path. -/
def isOpaqueChar (c : Char) : Bool := 0x20 ≤ c.toNat && c.toNat ≤ 0x7E

def escapeByte (b : UInt8) : List Char :=
  ['%', Form.hexDigit (b.toNat / 16), Form.hexDigit (b.toNat % 16)]

/-- The text with an escape for every octet of a character outside a class. -/
def escapeUnless (p : Char → Bool) (s : List Char) : List Char :=
  s.flatMap fun c => if p c then [c] else (String.utf8EncodeChar c).flatMap escapeByte

/-- A segment with its escaped dots written plainly. -/
def plainDots : List Char → List Char
  | '%' :: '2' :: 'e' :: s => '.' :: plainDots s
  | '%' :: '2' :: 'E' :: s => '.' :: plainDots s
  | c :: s => c :: plainDots s
  | [] => []

/-- The segments of a path without the dots that move within it. -/
def resolveDots : List (List Char) → List (List Char) → List (List Char)
  | done, [] => done.reverse
  | done, [last] =>
    if plainDots last = ['.'] then (done.reverse ++ [[]])
    else if plainDots last = ['.', '.'] then (done.tail.reverse ++ [[]])
    else (last :: done).reverse
  | done, part :: parts =>
    if plainDots part = ['.'] then resolveDots done parts
    else if plainDots part = ['.', '.'] then resolveDots done.tail parts
    else resolveDots (part :: done) parts

/-- A path as it is written, with a slash in front. -/
def writePath (s : List Char) : List Char :=
  let parts := (match s with
    | '/' :: s => s
    | s => s).splitOn '/'
  (resolveDots [] parts).flatMap fun part => '/' :: escapeUnless isPathChar part

/-- The port as a number; `none` where it is left out or the one that goes without saying. -/
def readPort (usual : Option Nat) (digits : List Char) : Except AddressFlaw (Option Nat) :=
  if digits.isEmpty then .ok none
  else if !digits.all isDigit then .error .badPort
  else
    let n := digits.foldl (fun n c => 10 * n + (c.toNat - 0x30)) 0
    if n > 65535 then .error .badPort else .ok (if usual = some n then none else some n)

/-- What stands before and after the colon in front of the port, which is not one inside
brackets. -/
def cutPort (isInside : Bool) : List Char → List Char × List Char
  | [] => ([], [])
  | c :: s =>
    if c = ':' && !isInside then ([], s)
    else
      let (host, port) := cutPort (c = '[' || (isInside && c ≠ ']')) s
      (c :: host, port)

/-- Host and port as they are written. Who asks is no part of that: a name and a password before
an `@` are dropped, as every call brings its own. -/
def readAuthority (usual : Option Nat) (s : List Char) : Except AddressFlaw (List Char) := do
  let s := match cutLast '@' s with
    | some (_, s) => s
    | none => s
  let (host, port) := cutPort false s
  let host ← (if usual.isSome then Host.readNamed host
    else (Host.readOpaque host).map (escapeUnless isOpaqueChar)).mapError .badHost
  match ← readPort usual port with
  | some n => return host ++ ':' :: (toString n).toList
  | none => return host

/-- Text, query and fragment, each with the sign that starts it. -/
def cutTail (s : List Char) : List Char × List Char × List Char :=
  let (s, fragment) := match cutFirst '#' s with
    | some (s, fragment) => (s, '#' :: escapeUnless isFragmentChar fragment)
    | none => (s, [])
  match cutFirst '?' s with
  | some (s, query) => (s, '?' :: escapeUnless isQueryChar query, fragment)
  | none => (s, [], fragment)

/-- Reads the text of an address. -/
def parse (text : String) : Except AddressFlaw WebAddress := do
  let s := (trimBlank text.toList).filter fun c => c ≠ '\t' && c ≠ '\n' && c ≠ '\r'
  match cutScheme s with
  | none => throw .noScheme
  | some (scheme, rest) =>
    let (rest, query, fragment) := cutTail rest
    match hostedSchemes.lookup scheme with
    | some port =>
      let rest := (rest.map fun c => if c = '\\' then '/' else c).dropWhile (· = '/')
      let authority ← readAuthority (some port) (rest.takeWhile (· ≠ '/'))
      return ⟨scheme, some authority, writePath (rest.dropWhile (· ≠ '/')), query, fragment⟩
    | none =>
      match rest with
      | '/' :: '/' :: rest =>
        let authority ← readAuthority none (rest.takeWhile (· ≠ '/'))
        return ⟨scheme, some authority, writePath (rest.dropWhile (· ≠ '/')), query, fragment⟩
      | '/' :: rest => return ⟨scheme, none, writePath rest, query, fragment⟩
      | rest => return ⟨scheme, none, escapeUnless isOpaqueChar rest, query, fragment⟩
where
  trimBlank (s : List Char) : List Char :=
    let isBlank := fun (c : Char) => decide (c.toNat ≤ 0x20)
    (((s.dropWhile isBlank).reverse).dropWhile isBlank).reverse

end WebAddress

end RouteMigration
