import RouteMigration.Text.Figures

/-! Counts as they are shown. The commas add nothing to the digits and cut them into groups of
three, so that no two numbers look the same. -/

namespace RouteMigration.Text

/-- Digits in groups: three in each of them but the first, which has one to three. -/
structure InThrees (digits first : List Char) (rest : List (List Char)) : Prop where
  digits_eq : digits = first ++ rest.flatten
  first : 1 ≤ first.length ∧ first.length ≤ 3
  rest : ∀ group ∈ rest, group.length = 3

namespace InThrees

variable {digits first : List Char} {rest : List (List Char)}

theorem singleton (c : Char) : InThrees [c] [c] [] :=
  ⟨rfl, by simp, fun _ h => absurd h List.not_mem_nil⟩

/-- Only the first group counts for what is left over when threes are taken away. -/
theorem length_mod (h : InThrees digits first rest) : digits.length % 3 = first.length % 3 := by
  have hthrees : rest.map List.length = List.replicate rest.length 3 :=
    List.map_eq_replicate_iff.mpr h.rest
  rw [h.digits_eq, List.length_append, List.length_flatten, hthrees, List.sum_replicate_nat]
  exact Nat.add_mul_mod_self_right first.length rest.length 3

/-- The length tells whether the first group is full. -/
theorem length_eq_three_iff (h : InThrees digits first rest) :
    first.length = 3 ↔ digits.length % 3 = 0 := by
  have hfirst := h.first
  rw [h.length_mod]
  omega

/-- A digit in front of a full group opens a group of its own. -/
theorem cons_of_full (c : Char) (h : InThrees digits first rest) (hfull : digits.length % 3 = 0) :
    InThrees (c :: digits) [c] (first :: rest) where
  digits_eq := by rw [h.digits_eq]; rfl
  first := by simp
  rest := List.forall_mem_cons.mpr ⟨h.length_eq_three_iff.mpr hfull, h.rest⟩

/-- A digit in front of any other group goes to it. -/
theorem cons_of_short (c : Char) (h : InThrees digits first rest)
    (hshort : digits.length % 3 ≠ 0) : InThrees (c :: digits) (c :: first) rest where
  digits_eq := by rw [h.digits_eq]; rfl
  first := by
    have hfirst := h.first
    have hroom := mt h.length_eq_three_iff.mp hshort
    rw [List.length_cons]
    omega
  rest := h.rest

theorem mem_digits {group : List Char} {c : Char} (h : InThrees digits first rest)
    (hgroup : group ∈ first :: rest) (hc : c ∈ group) : c ∈ digits := by
  rw [h.digits_eq, ← List.flatten_cons]
  exact List.mem_flatten.mpr ⟨group, hgroup, hc⟩

end InThrees

/-! ## Grouping -/

/-- The text is that of the groups with a comma between them. -/
theorem groupDigits_inThrees {digits : List Char} (hdigits : digits ≠ []) :
    ∃ first rest, InThrees digits first rest ∧
      groupDigits digits = [','].intercalate (first :: rest) := by
  -- what is grouped already stands behind `c`, and its length tells whether its first group is full
  fun_induction groupDigits digits with
  | case1 => exact absurd rfl hdigits
  | case2 c => exact ⟨[c], [], .singleton c, List.intercalate_singleton.symm⟩
  | case3 c d s hfull ih =>
    obtain ⟨first, rest, hin, htext⟩ := ih (List.cons_ne_nil d s)
    refine ⟨[c], first :: rest, hin.cons_of_full c hfull, ?_⟩
    rw [List.intercalate_cons_cons, htext]
    rfl
  | case4 c d s hshort ih =>
    obtain ⟨first, rest, hin, htext⟩ := ih (List.cons_ne_nil d s)
    refine ⟨c :: first, rest, hin.cons_of_short c hshort, ?_⟩
    rw [htext]
    cases rest with
    | nil => rw [List.intercalate_singleton, List.intercalate_singleton]
    | cons group rest => rw [List.intercalate_cons_cons, List.intercalate_cons_cons]; rfl

theorem splitOn_groupDigits {digits : List Char} (hdigits : digits ≠ []) (hcomma : ',' ∉ digits) :
    ∃ first rest, (groupDigits digits).splitOn ',' = first :: rest ∧
      InThrees digits first rest := by
  obtain ⟨first, rest, hin, htext⟩ := groupDigits_inThrees hdigits
  refine ⟨first, rest, ?_, hin⟩
  rw [htext]
  have hgroups : ∀ group ∈ first :: rest, ',' ∉ group := fun _ hgroup hmem =>
    hcomma (hin.mem_digits hgroup hmem)
  exact List.splitOn_intercalate ',' hgroups (List.cons_ne_nil first rest)

theorem filter_groupDigits (digits : List Char) :
    (groupDigits digits).filter (· ≠ ',') = digits.filter (· ≠ ',') := by
  fun_induction groupDigits digits with
  | case1 => rfl
  | case2 c => rfl
  | case3 c d s _ ih =>
    simp only [List.filter_cons, ih]
    simp
  | case4 c d s _ ih => simp only [List.filter_cons, ih]

/-! ## Numbers -/

theorem comma_not_mem_toDigits (n : Nat) : ',' ∉ Nat.toDigits 10 n := fun hmem =>
  absurd (Nat.isDigit_of_mem_toDigits (by decide) (by decide) hmem) (by decide)

theorem filter_formatNumber (n : Nat) :
    (formatNumber n).toList.filter (· ≠ ',') = Nat.toDigits 10 n := by
  rw [formatNumber, String.toList_ofList, filter_groupDigits, List.filter_eq_self]
  intro c hc
  exact decide_eq_true fun heq => comma_not_mem_toDigits n (heq ▸ hc)

/-- The digits are read back from what is left without the commas. -/
theorem formatNumber_inj {m n : Nat} : formatNumber m = formatNumber n ↔ m = n := by
  refine ⟨fun h => ?_, congrArg formatNumber⟩
  have hdigits : Nat.toDigits 10 m = Nat.toDigits 10 n := by
    rw [← filter_formatNumber, ← filter_formatNumber, h]
  calc
    m = Nat.ofDigitChars 10 (Nat.toDigits 10 m) 0 := Nat.ofDigitChars_ten_toDigits.symm
    _ = Nat.ofDigitChars 10 (Nat.toDigits 10 n) 0 := by rw [hdigits]
    _ = n := Nat.ofDigitChars_ten_toDigits

/-- Without its commas the text of a number is its decimal text, and between them there are
groups of three digits, behind a first one of one to three. Different numbers have different
texts. -/
theorem formatNumber_grouped (n : Nat) :
    String.ofList ((formatNumber n).toList.filter (· ≠ ',')) = toString n ∧
      (∃ first rest, (formatNumber n).toList.splitOn ',' = first :: rest ∧
        InThrees (toString n).toList first rest ∧
        ∀ group ∈ first :: rest, ∀ c ∈ group, c.isDigit = true) ∧
      ∀ m, formatNumber m = formatNumber n ↔ m = n := by
  refine ⟨?_, ?_, fun m => formatNumber_inj⟩
  · rw [filter_formatNumber, Nat.toString_eq_ofList_toDigits]
  · obtain ⟨first, rest, hsplit, hin⟩ :=
      splitOn_groupDigits Nat.toDigits_ne_nil (comma_not_mem_toDigits n)
    rw [Nat.toString_eq_ofList_toDigits, String.toList_ofList]
    refine ⟨first, rest, by rw [formatNumber, String.toList_ofList, hsplit], hin, ?_⟩
    intro group hgroup c hc
    exact Nat.isDigit_of_mem_toDigits (by decide) (by decide) (hin.mem_digits hgroup hc)

example : [999, 1000, 1234567].map formatNumber = ["999", "1,000", "1,234,567"] := by decide

end RouteMigration.Text
