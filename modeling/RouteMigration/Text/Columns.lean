import RouteMigration.Text.Columns.Ligature

/-! How many columns of a terminal a text takes. Most characters take what they take alone,
but a few depend on how the text after them opens: a picture takes two columns whatever
selectors and skin tones it has, so do several pictures that are joined, and the letters of a
ligature share theirs. The text is therefore measured from its end. -/

namespace RouteMigration.Text

/-- How a text opens, as far as a character before it can be affected. -/
inductive Opening where
  | plain
  | picture
  | skinTone
  | flagLetter
  /-- Two flag letters or more. -/
  | flagLetters
  /-- The joiner, with a picture after it. -/
  | joined
  /-- A key to be drawn around something, the joiner and a picture. -/
  | joinedKey
  /-- Flag letters, an odd or an even number of them, the joiner and a picture. -/
  | joinedFlag (even : Bool)
  /-- The later letters and digits of the flag of a region, the joiner and a picture. -/
  | joinedRegion (letters digits : Nat)
  | ligature (l : Ligature)
  deriving DecidableEq, Repr

/-- What is said of the character right before. -/
inductive Selector where
  | letter
  | picture
  | fullWidth
  deriving DecidableEq, Repr

def Selector.ofChar? (c : Char) : Option Selector :=
  match c.toNat with
  | 0xFE01 => some .fullWidth
  | 0xFE0E => some .letter
  | 0xFE0F => some .picture
  | _ => none

/-- The quotation marks that can be told to take two columns. -/
def isCurlyQuote (c : Char) : Bool :=
  [0x2018, 0x2019, 0x201C, 0x201D].contains c.toNat

namespace Opening

/-- The opening that a character gives to a text by itself. -/
def ofChar (c : Char) : Opening :=
  if isPicture c then picture
  else if isSkinTone c then skinTone
  else if isFlagLetter c then flagLetter
  else match Ligature.ofChar? c with
    | some l => ligature l
    | none => plain

/-- What an idle selector leaves. -/
def pastIdle : Opening → Opening
  | ligature l => ligature l
  | _ => plain

/-- What a selector lets the character before it see. -/
def beyond : Selector → Opening → Opening
  | .picture, joined => joined
  | .picture, joinedKey => joinedKey
  | _, o => o.pastIdle

/-- The flag of a region, read from its end: its code is three to six letters, or three digits
with no more than four letters after them. -/
def regionBefore? (letters digits : Nat) (c : Char) : Option (Int × Opening) :=
  if isTagLetter c && digits = 0 && letters < 6 then some (0, joinedRegion (letters + 1) 0)
  else if isTagDigit c && (if digits = 0 then letters ≤ 4 else digits < 3) then
    some (0, joinedRegion letters (digits + 1))
  else if isBlackFlag c && (if digits = 0 then letters ≥ 3 else digits = 3) then some (0, picture)
  else none

/-- A character before a picture and its joiner. -/
def joinedBefore? (c : Char) : Option (Int × Opening) :=
  if c = keycap then some (0, joinedKey)
  else if isFlagLetter c then some (1, joinedFlag false)
  else if isSkinTone c then some (0, skinTone)
  else if isTagEnd c then some (0, joinedRegion 0 0)
  else if isPicture c then some (0, picture)
  else none

/-- What a character adds that goes with the opening of the text after it, and the opening
that the two have together. -/
def before? : Opening → Char → Option (Int × Opening)
  | plain, _ | joinedKey, _ => none
  | picture, c => if c = joiner then some (0, joined) else none
  | skinTone, c =>
    if takesTone c then some (0, picture)
    else if c = joiner then some (0, joined)
    else none
  | flagLetter, c => if isFlagLetter c then some (1, flagLetters) else none
  | flagLetters, c =>
    if isFlagLetter c then some (1, flagLetters)
    else if c = joiner then some (0, joined)
    else none
  | joinedFlag even, c =>
    if isFlagLetter c then some (if even then 3 else -1, joinedFlag !even)
    else if even && c = joiner then some (0, joined)
    else none
  | joined, c => joinedBefore? c
  | joinedRegion letters digits, c => regionBefore? letters digits c
  | ligature l, c => (l.before? c).map fun (n, rest) =>
    (n, match rest with
      | some l => ligature l
      | none => plain)

end Opening

/-- What a text tells the character before it. -/
structure Surroundings where
  opening : Opening := .plain
  selector : Option Selector := none
  deriving DecidableEq, Repr

/-- The columns of a character on which the selector after it has an effect. -/
def selected? (c : Char) (after : Surroundings) : Option (Int × Opening) :=
  match after.selector with
  | some .picture =>
    if isTwofold c then
      some (if after.opening = .joined || after.opening = .joinedKey then 0 else 2, .picture)
    else none
  | some .letter =>
    if isTwofold c && isPicture c && !isFramed c then some (1, .plain) else none
  | some .fullWidth => if isCurlyQuote c then some (2, .plain) else none
  | none => none

/-- The columns that a character adds to the text after it, and what the two tell the
character before them. -/
def place (c : Char) (after : Surroundings) : Int × Surroundings :=
  match selected? c after with
  | some (n, opening) => (n, { opening })
  | none =>
    let opening := if after.selector.isSome then after.opening.pastIdle else after.opening
    if c.toNat ≤ 0xA0 then (charColumns c, {})
    else match Selector.ofChar? c with
      | some selector => (0, { opening := opening.beyond selector, selector := some selector })
      | none => match opening.before? c with
        | some (n, opening) => (n, { opening })
        | none => (charColumns c, { opening := .ofChar c })

/-- The columns of a text and what it tells the character before it. -/
def measured (s : List Char) : Int × Surroundings :=
  s.foldr (fun c (n, after) =>
    let (m, before) := place c after
    (m + n, before)) (0, {})

def columns (s : List Char) : Nat := (measured s).1.toNat

@[simp] theorem columns_nil : columns [] = 0 := rfl

theorem measured_cons (c : Char) (s : List Char) :
    measured (c :: s) =
      ((place c (measured s).2).1 + (measured s).1, (place c (measured s).2).2) := rfl

end RouteMigration.Text
