import Mathlib.Algebra.Group.Nat.Defs
import RouteMigration.Backup
import RouteMigration.Proofs.Text.ByteOrder

/-! The names of backups are in the order of the times they are named after. -/

namespace RouteMigration

theorem digitChar_lt {n m : Nat} (h : n < m) (hm : m < 10) : n.digitChar < m.digitChar :=
  (by decide : ∀ m < 10, ∀ n < m, n.digitChar < m.digitChar) m hm n h

theorem padded_one {n : Nat} (h : n < 10) : padded 1 n = [n.digitChar] := by
  rw [padded, Nat.toDigits_of_lt_base h]
  rfl

/-- The last digit stands behind those of the tenth part. -/
theorem padded_succ (width n : Nat) :
    padded (width + 2) n = padded (width + 1) (n / 10) ++ [(n % 10).digitChar] := by
  unfold padded
  by_cases hn : n < 10
  · rw [Nat.toDigits_of_lt_base hn, Nat.div_eq_of_lt hn, Nat.mod_eq_of_lt hn, Nat.toDigits_zero]
    simp [List.replicate_succ']
  · rw [Nat.toDigits_of_base_le (by decide) (Nat.le_of_not_lt hn)]
    simp

/-- Numbers of one width are compared digit by digit, and what follows does not count where they
differ. -/
theorem padded_append_lt {width n m : Nat} (hm : m < 10 ^ (width + 1)) (h : n < m)
    (s t : List Char) : padded (width + 1) n ++ s < padded (width + 1) m ++ t := by
  induction width generalizing n m s t with
  | zero =>
    rw [padded_one (by omega), padded_one (by omega)]
    exact List.cons_lt_cons_iff.mpr (.inl (digitChar_lt h (by omega)))
  | succ width ih =>
    rw [padded_succ, padded_succ, List.append_assoc, List.append_assoc]
    rcases Nat.lt_or_eq_of_le (Nat.div_le_div_right (c := 10) (Nat.le_of_lt h)) with hlt | heq
    · exact ih (by rw [Nat.pow_succ] at hm; omega) hlt _ _
    · rw [heq]
      exact List.append_left_lt
        (List.cons_lt_cons_iff.mpr (.inl (digitChar_lt (by omega) (by omega))))

/-- Where a field is the same, what stands behind the sign after it decides. -/
theorem field_lt {width n m : Nat} (hm : m < 10 ^ (width + 1)) {sign : Char} {s t : List Char}
    {Later : Prop} (hlater : Later → s < t) (h : n < m ∨ n = m ∧ Later) :
    padded (width + 1) n ++ sign :: s < padded (width + 1) m ++ sign :: t := by
  rcases h with hlt | ⟨rfl, h⟩
  · exact padded_append_lt hm hlt _ _
  · exact List.append_left_lt (List.cons_lt_cons_iff.mpr (.inr ⟨rfl, hlater h⟩))

namespace LocalTime

/-- A point on the calendar, in the years 0000 to 9999. A minute may have a second more. -/
structure IsCalendar (t : LocalTime) : Prop where
  year : t.year ≤ 9999
  month : 1 ≤ t.month ∧ t.month ≤ 12
  day : 1 ≤ t.day ∧ t.day ≤ 31
  hour : t.hour ≤ 23
  minute : t.minute ≤ 59
  second : t.second ≤ 60
  microsecond : t.microsecond ≤ 999999

def fields (t : LocalTime) : List Nat :=
  [t.year, t.month, t.day, t.hour, t.minute, t.second, t.microsecond]

/-- The first field that differs decides. -/
def Before (t u : LocalTime) : Prop := t.fields < u.fields

end LocalTime

/-- A later time makes a greater name. -/
theorem Backup.fileName_lt {t u : LocalTime} (hu : u.IsCalendar) (h : t.Before u) :
    fileName t.stamp < fileName u.stamp := by
  rw [LocalTime.Before, LocalTime.fields, LocalTime.fields] at h
  simp only [List.cons_lt_cons_iff, List.not_lt_nil, and_false, or_false] at h
  rw [String.lt_iff]
  simp only [fileName, LocalTime.stamp, String.toList_append, String.toList_ofList,
    List.append_assoc, List.cons_append]
  have hyear : u.year < 10 ^ 4 := Nat.lt_succ_of_le hu.year
  have hmonth : u.month < 10 ^ 2 := Nat.lt_of_le_of_lt hu.month.2 (by decide)
  have hday : u.day < 10 ^ 2 := Nat.lt_of_le_of_lt hu.day.2 (by decide)
  have hhour : u.hour < 10 ^ 2 := Nat.lt_of_le_of_lt hu.hour (by decide)
  have hminute : u.minute < 10 ^ 2 := Nat.lt_of_le_of_lt hu.minute (by decide)
  have hsecond : u.second < 10 ^ 2 := Nat.lt_of_le_of_lt hu.second (by decide)
  have hmicrosecond : u.microsecond < 10 ^ 6 := Nat.lt_of_le_of_lt hu.microsecond (by decide)
  exact List.append_left_lt <|
    field_lt hyear (field_lt hmonth (field_lt hday (field_lt hhour (field_lt hminute
      (field_lt hsecond fun hlast => padded_append_lt hmicrosecond hlast _ _))))) h

end RouteMigration
