import Mathlib.Algebra.GroupWithZero.Nat
import Mathlib.Data.Nat.Notation
import Mathlib.Data.Int.Notation
import Mathlib.Data.List.Basic

/-!
# Timestamps

The `datetime` values of the program are timezone-aware and normalised to UTC. `isoformat` follows
`datetime.isoformat`: the fields are printed with fixed widths, and the microseconds only when they
are not zero. Distinct timestamps have distinct texts, which is what a digest over the text needs.
-/

namespace ApexChainx

/-- The decimal digits of `n`, the lowest `w` of them, with leading zeros. -/
def padded : ℕ → ℕ → List Char
  | 0, _ => []
  | w + 1, n => padded w (n / 10) ++ [Nat.digitChar (n % 10)]

@[simp] theorem length_padded (w n : ℕ) : (padded w n).length = w := by
  induction w generalizing n with
  | zero => rfl
  | succ w ih => simp [padded, ih]

theorem digitChar_injective {a b : ℕ} (ha : a < 10) (hb : b < 10)
    (h : Nat.digitChar a = Nat.digitChar b) : a = b := by
  have hall : ∀ a < 10, ∀ b < 10, Nat.digitChar a = Nat.digitChar b → a = b := by decide
  exact hall a ha b hb h

/-- A number that fits the width is determined by its padded digits. -/
theorem padded_injective {w a b : ℕ} (ha : a < 10 ^ w) (hb : b < 10 ^ w)
    (h : padded w a = padded w b) : a = b := by
  induction w generalizing a b with
  | zero =>
      rw [Nat.pow_zero] at ha hb
      omega
  | succ w ih =>
      simp only [padded] at h
      obtain ⟨hinit, hlast⟩ := List.append_inj h (by simp)
      have hlow : a % 10 = b % 10 :=
        digitChar_injective (by omega) (by omega) (List.singleton_inj.mp hlast)
      rw [Nat.pow_succ] at ha hb
      have hhigh : a / 10 = b / 10 := ih (by omega) (by omega) hinit
      omega

theorem toNat_lt_of_mem_padded {w n : ℕ} {c : Char} (h : c ∈ padded w n) : c.toNat < 128 := by
  induction w generalizing n with
  | zero => cases h
  | succ w ih =>
      rcases List.mem_append.mp h with hinit | hlast
      · exact ih hinit
      · have hdigits : ∀ d < 10, (Nat.digitChar d).toNat < 128 := by decide
        rw [List.mem_singleton.mp hlast]
        exact hdigits _ (by omega)

/-- Number of days in a month of the proleptic Gregorian calendar. -/
def daysInMonth (year month : ℕ) : ℕ :=
  if month = 2 then (if year % 4 = 0 ∧ (year % 100 ≠ 0 ∨ year % 400 = 0) then 29 else 28)
  else if month = 4 ∨ month = 6 ∨ month = 9 ∨ month = 11 then 30
  else 31

/-- A `datetime` in UTC, with the bounds its constructor enforces. -/
structure DateTime where
  year : ℕ
  month : ℕ
  day : ℕ
  hour : ℕ
  minute : ℕ
  second : ℕ
  microsecond : ℕ
  year_bounds : 1 ≤ year ∧ year ≤ 9999
  month_bounds : 1 ≤ month ∧ month ≤ 12
  day_bounds : 1 ≤ day ∧ day ≤ daysInMonth year month
  hour_lt : hour < 24
  minute_lt : minute < 60
  second_lt : second < 60
  microsecond_lt : microsecond < 1000000
deriving DecidableEq, Repr

namespace DateTime

/-- What the constructor enforces. -/
def Valid (year month day hour minute second microsecond : ℕ) : Prop :=
  (1 ≤ year ∧ year ≤ 9999) ∧ (1 ≤ month ∧ month ≤ 12) ∧ (1 ≤ day ∧ day ≤ daysInMonth year month) ∧
    hour < 24 ∧ minute < 60 ∧ second < 60 ∧ microsecond < 1000000

instance (year month day hour minute second microsecond : ℕ) :
    Decidable (Valid year month day hour minute second microsecond) := inferInstanceAs (Decidable (_ ∧ _))

/-- The time with these fields. -/
def ofValid {year month day hour minute second microsecond : ℕ}
    (h : Valid year month day hour minute second microsecond) : DateTime where
  year := year
  month := month
  day := day
  hour := hour
  minute := minute
  second := second
  microsecond := microsecond
  year_bounds := h.1
  month_bounds := h.2.1
  day_bounds := h.2.2.1
  hour_lt := h.2.2.2.1
  minute_lt := h.2.2.2.2.1
  second_lt := h.2.2.2.2.2.1
  microsecond_lt := h.2.2.2.2.2.2

theorem day_lt (d : DateTime) : d.day < 100 := by
  have h := d.day_bounds.2
  have hle : daysInMonth d.year d.month ≤ 31 := by
    unfold daysInMonth
    split_ifs <;> omega
  omega

/-- The fraction of `isoformat`, left out when it is zero. -/
def fraction (microsecond : ℕ) : List Char :=
  if microsecond = 0 then [] else '.' :: padded 6 microsecond

/-- The characters of `datetime.isoformat`. -/
def isoChars (d : DateTime) : List Char :=
  padded 4 d.year ++ '-' :: (padded 2 d.month ++ '-' :: (padded 2 d.day ++ 'T' ::
    (padded 2 d.hour ++ ':' :: (padded 2 d.minute ++ ':' :: (padded 2 d.second ++
      (fraction d.microsecond ++ "+00:00".toList))))))

/-- `datetime.isoformat`. -/
def isoformat (d : DateTime) : String := String.ofList d.isoChars

/-- The characters of `datetime.isoformat` with another separator than `T`. -/
def isoCharsSep (sep : Char) (d : DateTime) : List Char :=
  padded 4 d.year ++ '-' :: (padded 2 d.month ++ '-' :: (padded 2 d.day ++ sep ::
    (padded 2 d.hour ++ ':' :: (padded 2 d.minute ++ ':' :: (padded 2 d.second ++
      (fraction d.microsecond ++ "+00:00".toList))))))

/-- `str` of a `datetime`. -/
def str (d : DateTime) : String := String.ofList (d.isoCharsSep ' ')

theorem fraction_injective {a b : ℕ} (ha : a < 1000000) (hb : b < 1000000)
    (h : fraction a ++ "+00:00".toList = fraction b ++ "+00:00".toList) : a = b := by
  have hfrac := List.append_cancel_right h
  unfold fraction at hfrac
  split_ifs at hfrac with h₁ h₂ h₂
  · omega
  · exact padded_injective (by omega) (by omega) (List.cons.inj hfrac).2

/-- The text of a timestamp determines it. -/
theorem isoformat_injective {d e : DateTime} (h : d.isoformat = e.isoformat) : d = e := by
  have hchars : d.isoChars = e.isoChars := String.ofList_injective h
  unfold isoChars at hchars
  -- every field is printed with a fixed width, so the fields split off one after the other
  obtain ⟨hyear, h₁⟩ := List.append_inj hchars (by simp)
  obtain ⟨hmonth, h₂⟩ := List.append_inj (List.cons.inj h₁).2 (by simp)
  obtain ⟨hday, h₃⟩ := List.append_inj (List.cons.inj h₂).2 (by simp)
  obtain ⟨hhour, h₄⟩ := List.append_inj (List.cons.inj h₃).2 (by simp)
  obtain ⟨hminute, h₅⟩ := List.append_inj (List.cons.inj h₄).2 (by simp)
  obtain ⟨hsecond, hfraction⟩ := List.append_inj (List.cons.inj h₅).2 (by simp)
  have ey := d.year_bounds
  have ey' := e.year_bounds
  have em := d.month_bounds
  have em' := e.month_bounds
  have ed := d.day_lt
  have ed' := e.day_lt
  have eh := d.hour_lt
  have eh' := e.hour_lt
  have emin := d.minute_lt
  have emin' := e.minute_lt
  have es := d.second_lt
  have es' := e.second_lt
  have qy : d.year = e.year := padded_injective (by omega) (by omega) hyear
  have qm : d.month = e.month := padded_injective (by omega) (by omega) hmonth
  have qd : d.day = e.day := padded_injective (by omega) (by omega) hday
  have qh : d.hour = e.hour := padded_injective (by omega) (by omega) hhour
  have qmin : d.minute = e.minute := padded_injective (by omega) (by omega) hminute
  have qs : d.second = e.second := padded_injective (by omega) (by omega) hsecond
  have qf : d.microsecond = e.microsecond :=
    fraction_injective d.microsecond_lt e.microsecond_lt hfraction
  obtain ⟨y, m, dd, hh, mm, ss, us, _, _, _, _, _, _, _⟩ := d
  obtain ⟨y', m', dd', hh', mm', ss', us', _, _, _, _, _, _, _⟩ := e
  simp only at qy qm qd qh qmin qs qf
  subst qy qm qd qh qmin qs qf
  rfl

/-- Days before the first of January of the year. -/
def daysBeforeYear (year : ℕ) : ℕ :=
  (year - 1) * 365 + (year - 1) / 4 - (year - 1) / 100 + (year - 1) / 400

/-- Days of the year before the first of the month. -/
def daysBeforeMonth (year month : ℕ) : ℕ :=
  ((List.range (month - 1)).map fun m => daysInMonth year (m + 1)).sum

/-- Microseconds since the start of year 1: the order of `datetime` values. -/
def ticks (d : DateTime) : ℤ :=
  let days := daysBeforeYear d.year + daysBeforeMonth d.year d.month + d.day
  (((days * 24 + d.hour) * 60 + d.minute) * 60 + d.second) * 1000000 + d.microsecond

end DateTime

end ApexChainx
