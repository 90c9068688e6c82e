import RouteMigration.Settings.Variables

/-! How the text of a variable may be written, without a word on how it is read: `true` and
`false`, lists and tables in brackets, texts in quotes, and anything else that has no separator
in it, a number if it looks like one. -/

namespace RouteMigration.Settings.Variables

open RouteMigration.Text

def Blanks (s : List Char) : Prop := ∀ c ∈ s, isAsciiBlank c = true

/-! ## Texts -/

/-- The letters that may follow a backslash, and what they stand for. -/
def shortEscapes : List (Char × Char) :=
  [('"', '"'), ('\\', '\\'), ('b', '\x08'), ('f', '\x0c'), ('n', '\n'), ('r', '\r'), ('t', '\t')]

/-- What may follow a backslash, and the character that is meant. -/
inductive Escape : List Char → Char → Prop
  | short {letter c : Char} : (letter, c) ∈ shortEscapes → Escape [letter] c
  | code {letter : Char} {digits : List Char} {n : Nat} :
      (letter, digits.length) ∈ [('u', 4), ('U', 8)] → hexNumber? digits = some n →
      n.isValidChar → Escape (letter :: digits) (Char.ofNat n)

/-- The inside of a quoted text, and what it says. -/
inductive Letters : List Char → List Char → Prop
  | none : Letters [] []
  | plain {c : Char} {s t : List Char} : isTextChar c = true → c ≠ '"' → c ≠ '\\' →
      Letters s t → Letters (c :: s) (c :: t)
  | escape {e s t : List Char} {c : Char} : Escape e c → Letters s t →
      Letters ('\\' :: (e ++ s)) (c :: t)

inductive Quoted : List Char → String → Prop
  | mk {s t : List Char} : Letters s t → Quoted ('"' :: (s ++ ['"'])) (String.ofList t)

/-! ## Plain texts -/

/-- A text that could not be mistaken for the beginning of anything else. -/
structure IsPlain (s : List Char) : Prop where
  separator : ∀ c ∈ s, isSeparator c = false
  blank : ∀ c ∈ s.head?, isAsciiBlank c = false
  quote : '"' ∉ s.head?
  apostrophe : '\'' ∉ s.head?
  noTrue : ¬ "true".toList <+: s
  noFalse : ¬ "false".toList <+: s

/-- A plain text without the white space around it, or the number it looks like. -/
def plainValue (s : List Char) : Value :=
  (number? (trim s)).getD (.text (String.ofList (trim s)))

/-! ## Brackets -/

/-- Items up to the closing bracket and with it, a comma after each; the last one may do without
it. -/
inductive Items {α : Type} (Item : List Char → α → Prop) (close : Char) :
    List Char → List α → Prop
  | none : Items Item close [close] []
  | last {c : Char} {s : List Char} {x : α} : c ≠ close → Item (c :: s) x →
      Items Item close (c :: s ++ [close]) [x]
  | more {s t : List Char} {x : α} {xs : List α} : close ∉ s.head? → Item s x →
      Items Item close t xs → Items Item close (s ++ ',' :: t) (x :: xs)

/-- The key of an entry, with the blanks around it. -/
inductive Key : List Char → String → Prop
  | bare {before after k : List Char} : Blanks before → k ≠ [] →
      (∀ c ∈ k, isKeyChar c = true) → Blanks after →
      Key (before ++ (k ++ after)) (String.ofList k)
  | quoted {before after s : List Char} {k : String} : Blanks before → Quoted s k →
      Blanks after → Key (before ++ (s ++ after)) k

inductive Entry (Spelled : List Char → Value → Prop) : List Char → String × Value → Prop
  | mk {k s : List Char} {name : String} {v : Value} : Key k name → Spelled s v →
      Entry Spelled (k ++ '=' :: s) (name, v)

def tableOf (entries : List (String × Value)) : Table :=
  entries.foldl (fun t (k, v) => Table.put k v t) []

/-! ## Values -/

/-- A value without blanks around it, where `Spelled` says how the values in it are written. -/
inductive Unpadded (Spelled : List Char → Value → Prop) : List Char → Value → Prop
  | yes : Unpadded Spelled "true".toList (.bool true)
  | no : Unpadded Spelled "false".toList (.bool false)
  | list {s : List Char} {vs : List Value} : Items Spelled ']' s vs →
      Unpadded Spelled ('[' :: s) (.list vs)
  | table {s : List Char} {entries : List (String × Value)} :
      Items (Entry Spelled) '\x7d' s entries →
      Unpadded Spelled ('\x7b' :: s) (.table (tableOf entries))
  | text {s : List Char} {t : String} : Quoted s t → Unpadded Spelled s (.text t)
  | char (c : Char) : Unpadded Spelled ['\'', c, '\''] (.char c)
  | plain {s : List Char} : IsPlain s → Unpadded Spelled s (plainValue s)

/-- The ways to write a value. -/
inductive Spelling : List Char → Value → Prop
  | mk {before s after : List Char} {v : Value} : Blanks before → Unpadded Spelling s v →
      Blanks after → Spelling (before ++ (s ++ after)) v

end RouteMigration.Settings.Variables
