/-! White space. `isBlank` is the Unicode property `White_Space`; the format of a
document or of a shell variable has a smaller set of its own, defined where it is
read. -/

namespace RouteMigration.Text

/-- The code points with the Unicode property `White_Space`, as closed ranges. -/
def blankRanges : List (Nat × Nat) :=
  [(0x09, 0x0D), (0x20, 0x20), (0x85, 0x85), (0xA0, 0xA0), (0x1680, 0x1680),
   (0x2000, 0x200A), (0x2028, 0x2029), (0x202F, 0x202F), (0x205F, 0x205F), (0x3000, 0x3000)]

def inRanges (ranges : List (Nat × Nat)) (c : Char) : Bool :=
  ranges.any fun (lo, hi) => lo ≤ c.toNat && c.toNat ≤ hi

def isBlank (c : Char) : Bool := inRanges blankRanges c

theorem isBlank_of_isWhitespace {c : Char} (h : c.isWhitespace = true) : isBlank c = true := by
  simp only [Char.isWhitespace, Bool.or_eq_true, decide_eq_true_eq] at h
  rcases h with ((h | h) | h) | h <;> subst h <;> decide

/-- The ASCII white space of a terminal line: blank, tab, line feed, form feed, return. -/
def isAsciiBlank (c : Char) : Bool :=
  c == ' ' || c == '\t' || c == '\n' || c == '\x0c' || c == '\r'

/-- A text without the characters of a class at its two ends. -/
def trimBy (p : Char → Bool) (s : List Char) : List Char :=
  (((s.dropWhile p).reverse).dropWhile p).reverse

def trim (s : List Char) : List Char := trimBy isBlank s

@[simp] theorem trimBy_nil (p : Char → Bool) : trimBy p [] = [] := rfl

theorem trimBy_eq_self {p : Char → Bool} {s : List Char}
    (hfirst : ∀ c ∈ s.head?, p c = false) (hlast : ∀ c ∈ s.getLast?, p c = false) :
    trimBy p s = s := by
  have hd : s.dropWhile p = s := by
    cases s with
    | nil => rfl
    | cons c cs => simp [hfirst c (by simp)]
  have hr : s.reverse.dropWhile p = s.reverse := by
    cases h : s.reverse with
    | nil => rfl
    | cons c cs =>
      have : s.getLast? = some c := by rw [← List.head?_reverse, h]; rfl
      simp [hlast c (by simp [this])]
  simp [trimBy, hd, hr]

end RouteMigration.Text
