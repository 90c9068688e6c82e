import RouteMigration.Text.Columns.Picture
import RouteMigration.Text.Columns.Width

/-! Letters of single scripts that share a column. A text is read from its end, so a
ligature starts at its last letter and grows towards the first. -/

namespace RouteMigration.Text

/-- The part of a ligature that has been read. Where a letter says whether it is `joined`,
it has the joiner before it. -/
inductive Ligature where
  /-- Arabic alef, for a lam. -/
  | alef
  /-- Hebrew lamed, for an alef that is joined to it. -/
  | lamed (joined : Bool)
  /-- Buginese ya, for a vowel sign i that is joined to it. -/
  | ya (joined : Bool)
  /-- Buginese ya after the vowel sign i, for an a. -/
  | yaWithVowel
  /-- A Tifinagh consonant, for another one. -/
  | tifinagh (joined : Bool)
  /-- A Tifinagh consonant after the joiner of that script, for another one. -/
  | tifinaghJoined
  /-- The second of two tone letters of Lisu, for the first. -/
  | lisuTone
  /-- Old Turkic orkhon i, for an ec that is joined to it. -/
  | orkhonI (joined : Bool)
  /-- A Khmer letter that the sign before it puts below another letter. -/
  | khmer
  /-- Kirat Rai vowel sign e, the later part of the signs ai, o and au. -/
  | kiratE
  /-- Kirat Rai vowel sign ai, the later part of the sign au. -/
  | kiratAi
  deriving DecidableEq, Repr

def alefRanges : Array (Nat × Nat) :=
  #[(0x622, 0x623), (0x625, 0x625), (0x627, 0x627), (0x671, 0x673), (0x675, 0x675),
   (0x773, 0x774), (0x870, 0x882)]

def lamRanges : Array (Nat × Nat) :=
  #[(0x644, 0x644), (0x6B5, 0x6B8), (0x76A, 0x76A), (0x8A6, 0x8A6), (0x8C7, 0x8C7)]

/-- Khmer letters that have a form below another letter. -/
def khmerRanges : Array (Nat × Nat) :=
  #[(0x1780, 0x1782), (0x1784, 0x1787), (0x1789, 0x178C), (0x178E, 0x1793), (0x1795, 0x1798),
   (0x179B, 0x179D), (0x17A0, 0x17A0), (0x17A2, 0x17A2), (0x17A7, 0x17A7), (0x17AB, 0x17AC),
   (0x17AF, 0x17AF)]

/-- Marks that are never seen and part no ligature. -/
def unseenMarkRanges : Array (Nat × Nat) :=
  #[(0x34F, 0x34F), (0x17B4, 0x17B5), (0x180B, 0x180D), (0x180F, 0x180F), (0xFE00, 0xFE0F),
   (0xE0100, 0xE01EF)]

/-- Characters without a column that part a lam and an alef all the same. -/
def partingRanges : Array (Nat × Nat) :=
  #[(0x605, 0x605), (0x890, 0x891), (0x8E2, 0x8E2), (0x9BE, 0x9BE), (0x9D7, 0x9D7), (0xB3E, 0xB3E),
   (0xB57, 0xB57), (0xBBE, 0xBBE), (0xBD7, 0xBD7), (0xCC0, 0xCC0), (0xCC2, 0xCC2), (0xCC7, 0xCC8),
   (0xCCA, 0xCCB), (0xCD5, 0xCD6), (0xD3E, 0xD3E), (0xD4E, 0xD4E), (0xD57, 0xD57), (0xDCF, 0xDCF),
   (0xDDF, 0xDDF), (0x1160, 0x11FF), (0x1715, 0x1715), (0x1734, 0x1734), (0x180E, 0x180E),
   (0x1B35, 0x1B35), (0x1B3B, 0x1B3B), (0x1B3D, 0x1B3D),
   (0x1B43, 0x1B44), (0x1BAA, 0x1BAA), (0x1BF2, 0x1BF3), (0x200C, 0x200D), (0x2065, 0x2069),
   (0x302E, 0x302F), (0x3164, 0x3164), (0xA8FA, 0xA8FA), (0xA953, 0xA953), (0xA9C0, 0xA9C0),
   (0xD7B0, 0xD7C6), (0xD7CB, 0xD7FB), (0xFFA0, 0xFFA0), (0xFFF0, 0xFFF8), (0x111C0, 0x111C0),
   (0x111C2, 0x111C3), (0x11235, 0x11235), (0x1133E, 0x1133E), (0x1134D, 0x1134D),
   (0x11357, 0x11357), (0x113B8, 0x113B8), (0x113C2, 0x113C2), (0x113C5, 0x113C5),
   (0x113C7, 0x113C9), (0x113CF, 0x113CF), (0x113D1, 0x113D1), (0x114B0, 0x114B0),
   (0x114BD, 0x114BD), (0x115AF, 0x115AF), (0x116B6, 0x116B6), (0x11930, 0x11930),
   (0x1193D, 0x1193D), (0x1193F, 0x1193F), (0x11941, 0x11941), (0x11A84, 0x11A89),
   (0x11D46, 0x11D46), (0x11F02, 0x11F02), (0x11F41, 0x11F41), (0x16FF0, 0x16FF1),
   (0x1D165, 0x1D166), (0x1D16D, 0x1D172), (0xE0000, 0xE0000), (0xE0002, 0xE001F),
   (0xE0080, 0xE00FF), (0xE01F0, 0xE0FFF)]

/-- Whether a lam and an alef join across a character. -/
def isTransparent (c : Char) : Bool := charColumns c = 0 && !inTable partingRanges c

def isTifinaghConsonant (c : Char) : Bool :=
  (0x2D31 ≤ c.toNat && c.toNat ≤ 0x2D65) || c.toNat = 0x2D6F

/-- The first of two tone letters of Lisu. -/
def isLisuFirstTone (c : Char) : Bool := 0xA4F8 ≤ c.toNat && c.toNat ≤ 0xA4FB

namespace Ligature

/-- The ligature of which a character is the last letter. -/
def ofChar? (c : Char) : Option Ligature :=
  match c.toNat with
  | 0x5DC => some (lamed false)
  | 0x1A10 => some (ya false)
  | 0xA4FC | 0xA4FD => some lisuTone
  | 0x10C03 => some (orkhonI false)
  | 0x16D67 => some kiratE
  | 0x16D68 => some kiratAi
  | _ =>
    if inTable alefRanges c then some alef
    else if inTable khmerRanges c then some khmer
    else if isTifinaghConsonant c then some (tifinagh false)
    else none

/-- With the joiner before it. -/
def join : Ligature → Ligature
  | lamed _ => lamed true
  | ya _ => ya true
  | tifinagh _ => tifinagh true
  | orkhonI _ => orkhonI true
  | l => l

/-- The next letter towards the first, where it goes with what has been read: the columns it
adds, and what can still grow. -/
def letter? : Ligature → Char → Option (Int × Option Ligature)
  | alef, c => if inTable lamRanges c then some (0, none) else none
  | lamed true, c => if c.toNat = 0x5D0 then some (0, none) else none
  | ya true, c => if c.toNat = 0x1A17 then some (0, some yaWithVowel) else none
  | yaWithVowel, c => if c.toNat = 0x1A15 then some (0, none) else none
  | tifinagh joined, c =>
    if c.toNat = 0x2D7F then some (1, some tifinaghJoined)
    else if joined && isTifinaghConsonant c then some (0, none)
    else none
  | tifinaghJoined, c => if isTifinaghConsonant c then some (-1, none) else none
  | lisuTone, c => if isLisuFirstTone c then some (0, none) else none
  | orkhonI true, c => if c.toNat = 0x10C32 then some (0, none) else none
  | khmer, c => if c.toNat = 0x17D2 then some (-1, none) else none
  | kiratE, c =>
    match c.toNat with
    | 0x16D63 | 0x16D69 => some (0, none)
    | 0x16D67 => some (0, some kiratAi)
    | 0x16D68 => some (1, some kiratE)
    | _ => none
  | kiratAi, c => if c.toNat = 0x16D63 then some (0, none) else none
  | _, _ => none

/-- What a mark between the letters makes of what has been read. -/
def mark? : Ligature → Char → Option Ligature
  | alef, c => if isTransparent c then some alef else none
  | l, c =>
    if c = joiner then some l.join
    else if inTable unseenMarkRanges c then some l
    else none

def before? (l : Ligature) (c : Char) : Option (Int × Option Ligature) :=
  match l.mark? c with
  | some grown => some (0, some grown)
  | none => l.letter? c

end Ligature

end RouteMigration.Text
