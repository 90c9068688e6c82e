import RouteMigration.Document.Skip
import Mathlib.Data.List.Forall2

/-! How a document may be written, without a word on how it is read: texts and numbers, and
values in brackets, with blanks wherever they may stand. -/

namespace RouteMigration.Document

open RouteMigration.Text

def Blanks (b : List Char) : Prop := ∀ c ∈ b, isBlank c = true

/-! ## Texts -/

/-- The letters that may follow a backslash, and what they stand for. -/
def shortEscapes : List (Char × Char) :=
  [('"', '"'), ('\\', '\\'), ('/', '/'), ('b', '\x08'), ('f', '\x0c'), ('n', '\n'),
   ('r', '\r'), ('t', '\t')]

/-- Four hexadecimal digits that write a code unit. -/
def WritesUnit (digits : List Char) (unit : Nat) : Prop :=
  digits.length = 4 ∧ hexNumber? digits = some unit

/-- The ways to write a character of a text. -/
inductive CharText : Char → List Char → Prop
  | plain {c : Char} : c ≠ '"' → c ≠ '\\' → 0x20 ≤ c.toNat → CharText c [c]
  | short {c letter : Char} : (letter, c) ∈ shortEscapes → CharText c ['\\', letter]
  | unit {c : Char} {digits : List Char} : WritesUnit digits c.toNat →
      CharText c ('\\' :: 'u' :: digits)
  | pair {c : Char} {first second : List Char} {high low : Nat} :
      WritesUnit first (0xD800 + high) → WritesUnit second (0xDC00 + low) →
      high < 0x400 → low < 0x400 → c.toNat = 0x10000 + high * 0x400 + low →
      CharText c ('\\' :: 'u' :: (first ++ '\\' :: 'u' :: second))

/-- A text in quotes. -/
def StringText (s : String) (t : List Char) : Prop :=
  ∃ us : List (List Char), List.Forall₂ CharText s.toList us ∧ t = '"' :: (us.flatten ++ ['"'])

/-- What may stand in quotes where it is not asked for: a code unit need not be one of a
character. -/
inductive Piece : List Char → Prop
  | plain {c : Char} : c ≠ '"' → c ≠ '\\' → 0x20 ≤ c.toNat → Piece [c]
  | short {letter c : Char} : (letter, c) ∈ shortEscapes → Piece ['\\', letter]
  | unit {digits : List Char} {unit : Nat} : WritesUnit digits unit →
      Piece ('\\' :: 'u' :: digits)

def QuotedText (t : List Char) : Prop :=
  ∃ us : List (List Char), (∀ u ∈ us, Piece u) ∧ t = '"' :: (us.flatten ++ ['"'])

/-! ## Numbers -/

def Digits (t : List Char) : Prop := t ≠ [] ∧ ∀ c ∈ t, isDigit c = true

/-- A whole number has no zero in front. -/
def WholeText (t : List Char) : Prop := t = ['0'] ∨ (Digits t ∧ t.head? ≠ some '0')

def FractionText (t : List Char) : Prop := t = [] ∨ ∃ digits, Digits digits ∧ t = '.' :: digits

def ExponentText (t : List Char) : Prop :=
  t = [] ∨ ∃ e ∈ ['e', 'E'], ∃ sign ∈ [[], ['+'], ['-']], ∃ digits,
    Digits digits ∧ t = e :: (sign ++ digits)

def NumberText (t : List Char) : Prop :=
  ∃ sign ∈ [[], ['-']], ∃ whole fraction exponent, WholeText whole ∧ FractionText fraction ∧
    ExponentText exponent ∧ t = sign ++ (whole ++ (fraction ++ exponent))

/-! ## Brackets -/

/-- An element with blanks on both sides. -/
inductive Padded : List Char → List Char → Prop
  | mk {b u b' : List Char} : Blanks b → Blanks b' → Padded u (b ++ (u ++ b'))

/-- Elements, at least one, with a comma between any two. -/
inductive Commas : List (List Char) → List Char → Prop
  | one {u t : List Char} : Padded u t → Commas [u] t
  | more {u p t : List Char} {us : List (List Char)} : Padded u p → Commas us t →
      Commas (u :: us) (p ++ ',' :: t)

/-- Elements between two brackets. -/
inductive Enclosed ( opening closing : Char) : List (List Char) → List Char → Prop
  | empty {b : List Char} : Blanks b → Enclosed opening closing [] (opening :: (b ++ [closing]))
  | elements {us : List (List Char)} {t : List Char} : Commas us t →
      Enclosed opening closing us (opening :: (t ++ [closing]))

/-- A key, a colon and a value. -/
inductive MemberText (key value : List Char) : List Char → Prop
  | mk {b b' : List Char} : Blanks b → Blanks b' →
      MemberText key value (key ++ (b ++ ':' :: (b' ++ value)))

/-- A member whose key is asked for. -/
def KeyedText (m : String × List Char) (u : List Char) : Prop :=
  ∃ key, StringText m.1 key ∧ MemberText key m.2 u

/-! ## Values -/

def Bracket.opening : Bracket → Char
  | square => '['
  | curly => '{'

/-- What stands for a value between brackets: itself, or a member with some key. -/
inductive ElementText : Bracket → List Char → List Char → Prop
  | item {value : List Char} : ElementText .square value value
  | member {key value u : List Char} : QuotedText key → MemberText key value u →
      ElementText .curly value u

def nullText : List Char := "null".toList

def boolText (b : Bool) : List Char := (if b then "true" else "false").toList

/-- A value of whatever kind, however deep. -/
inductive ValueText : List Char → Prop
  | null : ValueText nullText
  | bool (b : Bool) : ValueText (boolText b)
  | quoted {t : List Char} : QuotedText t → ValueText t
  | number {t : List Char} : NumberText t → ValueText t
  | bracketed {bracket : Bracket} {values us : List (List Char)} {t : List Char} :
      (∀ v ∈ values, ValueText v) → List.Forall₂ (ElementText bracket) values us →
      Enclosed bracket.opening bracket.closing us t → ValueText t

end RouteMigration.Document
