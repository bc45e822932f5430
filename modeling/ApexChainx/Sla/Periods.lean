import Mathlib.Tactic.IntervalCases
import ApexChainx.Core.IsoFormat
import ApexChainx.Core.Timedelta
import ApexChainx.Lib.PyText
import ApexChainx.Sla.DeviceSla

/-!
# The months a period names

`SLAOrchestrator.parse_period` for every string. Months are numbered from the start of year 0, so that a
month or a quarter is a number of consecutive months, and the interval of a period goes from the first
instant of the first of them to the first instant of the month after the last.

The patterns take more than the two formats: `\d` stands for the decimal digits of every script, and `$`
also stands before a line feed at the end. Nor do they bound the year.
-/

namespace ApexChainx.Sla

/-- The decimal digits of Unicode, with the values `int` gives them. -/
structure DecimalDigits where
  value : Char → Option ℕ
  ascii : ∀ c, c.toNat < 128 → value c = if c.isDigit then some (c.toNat - '0'.toNat) else none
  lt_ten : ∀ c n, value c = some n → n < 10

def decimalValue (n : ℕ) : Option ℕ :=
  Lib.decimalZeros.findSome? fun base =>
    if base ≤ n ∧ n < base + 10 then some (n - base) else none

/-- The digits that Python 3.11 knows. -/
def unicodeDigits : DecimalDigits where
  value c := decimalValue c.toNat
  ascii c hc := by
    have hall : ∀ n < 128, decimalValue n = if 48 ≤ n ∧ n ≤ 57 then some (n - 48) else none := by
      decide +kernel
    have hdigit : c.isDigit ↔ 48 ≤ c.toNat ∧ c.toNat ≤ 57 := by
      simp [Char.isDigit, UInt32.le_iff_toNat_le]
    rw [hall c.toNat hc]
    simp only [hdigit]
    rfl
  lt_ten c n h := by
    obtain ⟨base, -, hvalue⟩ := List.exists_of_findSome?_eq_some h
    rw [Option.ite_none_right_eq_some, Option.some.injEq] at hvalue
    omega

/-! ## Months -/

/-- The days up to the first of a month. -/
def firstDay (month : ℕ) : ℕ :=
  DateTime.daysBeforeYear (month / 12) + DateTime.daysBeforeMonth (month / 12) (month % 12 + 1) + 1

/-- The number of the month that an instant lies in. -/
def monthIndex (t : DateTime) : ℕ := 12 * t.year + (t.month - 1)

/-- The month lies in a year that `datetime` represents. -/
def Representable (month : ℕ) : Prop := 1 ≤ month / 12 ∧ month / 12 ≤ 9999

instance (month : ℕ) : Decidable (Representable month) := inferInstanceAs (Decidable (_ ∧ _))

theorem le_daysInMonth (year month : ℕ) : 28 ≤ daysInMonth year month := by
  unfold daysInMonth
  split_ifs <;> omega

/-- Months follow each other without a gap. -/
theorem firstDay_succ {month : ℕ} (h : 12 ≤ month) :
    firstDay (month + 1) = firstDay month + daysInMonth (month / 12) (month % 12 + 1) := by
  unfold firstDay
  have hyear : 1 ≤ month / 12 := by omega
  by_cases hlast : month % 12 = 11
  · -- the year ends with the month
    have hdiv : (month + 1) / 12 = month / 12 + 1 := by omega
    have hmod : (month + 1) % 12 = 0 := by omega
    have hjanuary : DateTime.daysBeforeMonth (month / 12 + 1) 1 = 0 := rfl
    have hdecember : month % 12 + 1 = 12 := by omega
    rw [hdiv, hmod, hdecember, DateTime.daysBeforeYear_succ hyear, Nat.zero_add, hjanuary,
      DateTime.daysBeforeMonth_succ _ 12 (by omega)]
    omega
  · have hdiv : (month + 1) / 12 = month / 12 := by omega
    have hmod : (month + 1) % 12 = month % 12 + 1 := by omega
    rw [hdiv, hmod, DateTime.daysBeforeMonth_succ _ _ (by omega)]
    omega

theorem firstDay_lt_succ {month : ℕ} (h : 12 ≤ month) : firstDay month < firstDay (month + 1) := by
  have hdays := le_daysInMonth (month / 12) (month % 12 + 1)
  rw [firstDay_succ h]
  omega

/-- Later months begin later. -/
theorem firstDay_le {month month' : ℕ} (h : 12 ≤ month) (hle : month ≤ month') :
    firstDay month ≤ firstDay month' := by
  induction month', hle using Nat.le_induction with
  | base => exact le_rfl
  | succ month' hle ih => exact ih.trans (firstDay_lt_succ (h.trans hle)).le

/-- The month of an instant is the one that begins before it and ends after it. -/
theorem ticks_bounds (t : DateTime) : (firstDay (monthIndex t) : ℤ) * 86400000000 ≤ t.ticks ∧
    t.ticks < firstDay (monthIndex t + 1) * 86400000000 := by
  have hyear := t.year_bounds
  have hmonth := t.month_bounds
  have hday := t.day_bounds
  have hdiv : monthIndex t / 12 = t.year := by unfold monthIndex; omega
  have hmod : monthIndex t % 12 + 1 = t.month := by unfold monthIndex; omega
  have h12 : 12 ≤ monthIndex t := by unfold monthIndex; omega
  have hhour := t.hour_lt
  have hminute := t.minute_lt
  have hsecond := t.second_lt
  have hmicro := t.microsecond_lt
  rw [firstDay_succ h12]
  unfold firstDay DateTime.ticks
  rw [hdiv, hmod]
  push_cast
  constructor
  · nlinarith
  · nlinarith

/-- The instants from `start` to `finish` are those of `count` months from `first` on. -/
def Covers (start finish : DateTime) (first count : ℕ) : Prop :=
  ∀ t : DateTime, start.ticks ≤ t.ticks ∧ t.ticks < finish.ticks ↔
    first ≤ monthIndex t ∧ monthIndex t < first + count

/-- The first instant of a month. -/
def monthStart (month : ℕ) : Option DateTime :=
  if h : DateTime.Valid (month / 12) (month % 12 + 1) 1 0 0 0 0 then some (DateTime.ofValid h) else none

theorem valid_iff_representable (month : ℕ) :
    DateTime.Valid (month / 12) (month % 12 + 1) 1 0 0 0 0 ↔ Representable month := by
  have hdays := le_daysInMonth (month / 12) (month % 12 + 1)
  have hmod : month % 12 < 12 := Nat.mod_lt _ (by omega)
  unfold DateTime.Valid Representable
  omega

theorem isSome_monthStart (month : ℕ) : (monthStart month).isSome ↔ Representable month := by
  rw [← valid_iff_representable, monthStart]
  split <;> simp [*]

theorem ticks_monthStart {month : ℕ} {t : DateTime} (h : monthStart month = some t) :
    t.ticks = firstDay month * 86400000000 := by
  unfold monthStart at h
  split at h
  · rw [← Option.some.inj h]
    simp [DateTime.ticks, DateTime.ofValid, firstDay]
    ring
  · cases h

/-- The interval of consecutive months. -/
def monthsFrom (first count : ℕ) : Option (DateTime × DateTime) :=
  match monthStart first, monthStart (first + count) with
  | some start, some finish => some (start, finish)
  | _, _ => none

theorem monthsFrom_eq_some {first count : ℕ} {start finish : DateTime} :
    monthsFrom first count = some (start, finish) ↔
      monthStart first = some start ∧ monthStart (first + count) = some finish := by
  unfold monthsFrom
  split
  · rename_i hstart hfinish
    rw [hstart, hfinish]
    simp
  · rename_i hnone
    refine iff_of_false nofun ?_
    rintro ⟨hstart, hfinish⟩
    exact hnone start finish hstart hfinish

/-- The interval of consecutive months holds their instants. -/
theorem covers_monthsFrom {first count : ℕ} {start finish : DateTime}
    (h : monthsFrom first count = some (start, finish)) : Covers start finish first count := by
  obtain ⟨hstart, hfinish⟩ := monthsFrom_eq_some.mp h
  have hfirst : Representable first := (isSome_monthStart first).mp (by rw [hstart]; rfl)
  have h12 : 12 ≤ first := by unfold Representable at hfirst; omega
  intro t
  obtain ⟨hafter, hbefore⟩ := ticks_bounds t
  have hyear := t.year_bounds.1
  have ht12 : 12 ≤ monthIndex t := by unfold monthIndex; omega
  rw [ticks_monthStart hstart, ticks_monthStart hfinish]
  refine and_congr ⟨fun hle => ?_, fun hle => ?_⟩ ⟨fun hlt => ?_, fun hlt => ?_⟩
  · by_contra hearlier
    have hmono : firstDay (monthIndex t + 1) ≤ firstDay first := firstDay_le (by omega) (by omega)
    omega
  · have hmono := firstDay_le h12 hle
    omega
  · by_contra hlater
    have hmono : firstDay (first + count) ≤ firstDay (monthIndex t) := firstDay_le (by omega) (by omega)
    omega
  · have hmono : firstDay (monthIndex t + 1) ≤ firstDay (first + count) := firstDay_le (by omega) (by omega)
    omega

/-- A period is a positive number of days long. -/
theorem exists_days {first count : ℕ} {start finish : DateTime} (hcount : 0 < count)
    (h : monthsFrom first count = some (start, finish)) :
    ∃ days : ℕ, 0 < days ∧ finish.ticks - start.ticks = days * 86400000000 := by
  obtain ⟨hstart, hfinish⟩ := monthsFrom_eq_some.mp h
  have hfirst : Representable first := (isSome_monthStart first).mp (by rw [hstart]; rfl)
  have h12 : 12 ≤ first := by unfold Representable at hfirst; omega
  have hlt := firstDay_lt_succ h12
  have hle : firstDay (first + 1) ≤ firstDay (first + count) := firstDay_le (by omega) (by omega)
  refine ⟨firstDay (first + count) - firstDay first, by omega, ?_⟩
  rw [ticks_monthStart hstart, ticks_monthStart hfinish, Nat.cast_sub (by omega)]
  ring

/-! ## The two formats -/

/-- `YYYY-MM` and `YYYY-QN`, with the number of the first month and how many months they name. -/
inductive Names : List Char → ℕ → ℕ → Prop
  | month {year month : ℕ} (hyear : year < 10000) (hmonth : 1 ≤ month ∧ month ≤ 12) :
      Names (padded 4 year ++ '-' :: padded 2 month) (12 * year + (month - 1)) 1
  | quarter {year quarter : ℕ} (hyear : year < 10000) (hquarter : 1 ≤ quarter ∧ quarter ≤ 4) :
      Names (padded 4 year ++ ['-', 'Q', Nat.digitChar quarter]) (12 * year + (quarter - 1) * 3) 3

/-- The months that one of the patterns reads off a text. -/
def matched (digit : Char → Option ℕ) (cs : List Char) : Option (ℕ × ℕ) :=
  match monthly digit cs with
  | some (year, month) => some (12 * year + (month - 1), 1)
  | none => (quarterly digit cs).map fun (year, quarter) => (12 * year + (quarter - 1) * 3, 3)

/-- A character that the formats are written in. -/
def Plain (c : Char) : Prop := c.isDigit ∨ c = '-' ∨ c = 'Q'

instance (c : Char) : Decidable (Plain c) := inferInstanceAs (Decidable (_ ∨ _))

section Matching

variable (d : DecimalDigits) {cs : List Char}

theorem digitChar_rebuild {c : Char} (h : c.isDigit) : Nat.digitChar (c.toNat - '0'.toNat) = c := by
  have hrange : 48 ≤ c.toNat ∧ c.toNat ≤ 57 := by
    simpa [Char.isDigit, UInt32.le_iff_toNat_le] using h
  have hlt : c.toNat - '0'.toNat < 10 := by
    rw [show '0'.toNat = 48 from rfl]
    omega
  apply Char.toNat_inj.mp
  rw [Nat.toNat_digitChar_of_lt_ten hlt, show '0'.toNat = 48 from rfl]
  omega

theorem value_digitChar {n : ℕ} (h : n < 10) : d.value (Nat.digitChar n) = some n := by
  have hascii : (Nat.digitChar n).toNat < 128 := by
    rw [Nat.toNat_digitChar_of_lt_ten h]
    omega
  rw [d.ascii _ hascii, if_pos (digitChar_isDigit h), digitChar_value h]

/-- A decimal digit that the formats are written in is the character of its value. -/
theorem eq_digitChar_of_plain {c : Char} {n : ℕ} (hplain : Plain c) (hvalue : d.value c = some n) :
    n < 10 ∧ c = Nat.digitChar n := by
  refine ⟨d.lt_ten c n hvalue, ?_⟩
  rcases hplain with hdigit | rfl | rfl
  · have hascii : c.toNat < 128 := by
      have hrange : 48 ≤ c.toNat ∧ c.toNat ≤ 57 := by
        simpa [Char.isDigit, UInt32.le_iff_toNat_le] using hdigit
      omega
    rw [d.ascii c hascii, if_pos hdigit, Option.some.injEq] at hvalue
    rw [← hvalue, digitChar_rebuild hdigit]
  · rw [d.ascii _ (by decide)] at hvalue
    cases hvalue
  · rw [d.ascii _ (by decide)] at hvalue
    cases hvalue

theorem padded_four (n : ℕ) : padded 4 n = [Nat.digitChar (n / 1000 % 10), Nat.digitChar (n / 100 % 10),
    Nat.digitChar (n / 10 % 10), Nat.digitChar (n % 10)] := by
  simp [padded, Nat.div_div_eq_div_mul]

theorem fourDigits_eq_some {a b c e : Char} {year : ℕ} :
    fourDigits d.value a b c e = some year ↔ ∃ p q r s, d.value a = some p ∧ d.value b = some q ∧
      d.value c = some r ∧ d.value e = some s ∧ p * 1000 + q * 100 + r * 10 + s = year := by
  simp [fourDigits, Option.bind_eq_some_iff]

/-- Four plain digits are the year they stand for. -/
theorem padded_of_fourDigits {a b c e : Char} {year : ℕ} (ha : Plain a) (hb : Plain b) (hc : Plain c)
    (he : Plain e) (h : fourDigits d.value a b c e = some year) :
    year < 10000 ∧ padded 4 year = [a, b, c, e] := by
  obtain ⟨p, q, r, s, hp, hq, hr, hs, rfl⟩ := (fourDigits_eq_some d).mp h
  obtain ⟨hp, rfl⟩ := eq_digitChar_of_plain d ha hp
  obtain ⟨hq, rfl⟩ := eq_digitChar_of_plain d hb hq
  obtain ⟨hr, rfl⟩ := eq_digitChar_of_plain d hc hr
  obtain ⟨hs, rfl⟩ := eq_digitChar_of_plain d he hs
  have hthousands : (p * 1000 + q * 100 + r * 10 + s) / 1000 % 10 = p := by omega
  have hhundreds : (p * 1000 + q * 100 + r * 10 + s) / 100 % 10 = q := by omega
  have htens : (p * 1000 + q * 100 + r * 10 + s) / 10 % 10 = r := by omega
  have hones : (p * 1000 + q * 100 + r * 10 + s) % 10 = s := by omega
  refine ⟨by omega, ?_⟩
  rw [padded_four, hthousands, hhundreds, htens, hones]

theorem fourDigits_padded {year : ℕ} (h : year < 10000) {a b c e : Char} (hcs : padded 4 year = [a, b, c, e]) :
    fourDigits d.value a b c e = some year := by
  rw [padded_four] at hcs
  simp only [List.cons.injEq, and_true] at hcs
  obtain ⟨rfl, rfl, rfl, rfl⟩ := hcs
  refine (fourDigits_eq_some d).mpr ⟨_, _, _, _, value_digitChar d (Nat.mod_lt _ (by omega)),
    value_digitChar d (Nat.mod_lt _ (by omega)), value_digitChar d (Nat.mod_lt _ (by omega)),
    value_digitChar d (Nat.mod_lt _ (by omega)), ?_⟩
  omega

/-- A character between two digits is the digit of its value. -/
theorem digit_of_between {lo hi c : Char} (hlo : '0' ≤ lo) (hhi : hi ≤ '9') (h : lo ≤ c ∧ c ≤ hi) :
    lo.toNat - '0'.toNat ≤ c.toNat - '0'.toNat ∧ c.toNat - '0'.toNat ≤ hi.toNat - '0'.toNat
      ∧ Nat.digitChar (c.toNat - '0'.toNat) = c := by
  have hle : lo.toNat ≤ c.toNat ∧ c.toNat ≤ hi.toNat := h
  have hdigit : c.isDigit := by
    have hbounds : '0'.toNat ≤ lo.toNat ∧ hi.toNat ≤ '9'.toNat := ⟨hlo, hhi⟩
    have hrange : '0'.toNat ≤ c.toNat ∧ c.toNat ≤ '9'.toNat := by omega
    simpa [Char.isDigit, UInt32.le_iff_toNat_le] using hrange
  exact ⟨by omega, by omega, digitChar_rebuild hdigit⟩

/-- Two characters that stand for a month. -/
theorem monthOf_eq_some {a b : Char} {month : ℕ} :
    monthOf a b = some month ↔ (1 ≤ month ∧ month ≤ 12) ∧ padded 2 month = [a, b] := by
  have hpadded : padded 2 month = [Nat.digitChar (month / 10 % 10), Nat.digitChar (month % 10)] := rfl
  rw [hpadded]
  constructor
  · intro h
    unfold monthOf at h
    split_ifs at h with hlow hhigh
    · obtain ⟨rfl, hb⟩ := hlow
      obtain ⟨hlo, hhi, hchar⟩ := digit_of_between (by decide) (by decide) hb
      simp only [Char.reduceToNat] at h hlo hhi hchar
      rw [Option.some.inj h] at hlo hhi hchar
      have htens : month / 10 % 10 = 0 := by omega
      have hones : month % 10 = month := by omega
      rw [htens, hones, hchar]
      exact ⟨by omega, rfl⟩
    · obtain ⟨rfl, hb⟩ := hhigh
      obtain ⟨hlo, hhi, hchar⟩ := digit_of_between (by decide) (by decide) hb
      simp only [Char.reduceToNat] at h hlo hhi hchar
      have hmonth := Option.some.inj h
      have htens : month / 10 % 10 = 1 := by omega
      have hones : month % 10 = b.toNat - 48 := by omega
      rw [htens, hones, hchar]
      exact ⟨by omega, rfl⟩
  · rintro ⟨⟨hlo, hhi⟩, hcs⟩
    simp only [List.cons.injEq, and_true] at hcs
    obtain ⟨rfl, rfl⟩ := hcs
    interval_cases month <;> rfl

variable {d} in
theorem monthly_eq_some {year month : ℕ} : monthly d.value cs = some (year, month) ↔
    ∃ a b c e m₁ m₂ rest, cs = [a, b, c, e, '-', m₁, m₂] ++ rest ∧ fourDigits d.value a b c e = some year
      ∧ monthOf m₁ m₂ = some month ∧ atEnd rest := by
  constructor
  · intro h
    unfold monthly at h
    split at h
    · rename_i a b c e m₁ m₂ rest
      simp only [Option.bind_eq_bind, Option.bind_eq_some_iff, Option.ite_none_right_eq_some,
        Option.some.injEq, Prod.mk.injEq] at h
      obtain ⟨year', hyear, month', hmonth, hend, rfl, rfl⟩ := h
      exact ⟨a, b, c, e, m₁, m₂, rest, rfl, hyear, hmonth, hend⟩
    · cases h
  · rintro ⟨a, b, c, e, m₁, m₂, rest, rfl, hyear, hmonth, hend⟩
    simp [monthly, hyear, hmonth, hend]

variable {d} in
theorem quarterly_eq_some {year quarter : ℕ} : quarterly d.value cs = some (year, quarter) ↔
    ∃ a b c e rest, cs = [a, b, c, e, '-', 'Q', Nat.digitChar quarter] ++ rest
      ∧ fourDigits d.value a b c e = some year ∧ (1 ≤ quarter ∧ quarter ≤ 4) ∧ atEnd rest := by
  constructor
  · intro h
    unfold quarterly at h
    split at h
    · rename_i a b c e q rest
      simp only [Option.bind_eq_bind, Option.bind_eq_some_iff, Option.ite_none_right_eq_some,
        Option.some.injEq, Prod.mk.injEq] at h
      obtain ⟨year', hyear, ⟨hlo, hhi, hend⟩, rfl, rfl⟩ := h
      obtain ⟨hlo', hhi', hchar⟩ := digit_of_between (by decide) (by decide) ⟨hlo, hhi⟩
      exact ⟨a, b, c, e, rest, by rw [hchar]; rfl, hyear, ⟨hlo', hhi'⟩, hend⟩
    · cases h
  · rintro ⟨a, b, c, e, rest, rfl, hyear, ⟨hlo, hhi⟩, hend⟩
    have hdigit : ('1' ≤ Nat.digitChar quarter ∧ Nat.digitChar quarter ≤ '4')
        ∧ (Nat.digitChar quarter).toNat - '0'.toNat = quarter := by
      interval_cases quarter <;> decide
    simp [quarterly, hyear, hend, hdigit.1, -Char.reduceToNat, hdigit.2]

/-- What a text in one of the formats names is what the patterns read off it. -/
theorem matched_of_names {first count : ℕ} (h : Names cs first count) :
    matched d.value cs = some (first, count) := by
  cases h with
  | @month year month hyear hmonth =>
      obtain ⟨a, b, c, e, hyearChars⟩ : ∃ a b c e, padded 4 year = [a, b, c, e] := ⟨_, _, _, _, padded_four year⟩
      obtain ⟨m₁, m₂, hmonthChars⟩ : ∃ m₁ m₂, padded 2 month = [m₁, m₂] := ⟨_, _, rfl⟩
      have hread : monthly d.value (padded 4 year ++ '-' :: padded 2 month) = some (year, month) := by
        refine monthly_eq_some.mpr ⟨a, b, c, e, m₁, m₂, [], ?_, fourDigits_padded d hyear hyearChars,
          monthOf_eq_some.mpr ⟨hmonth, hmonthChars⟩, rfl⟩
        rw [hyearChars, hmonthChars]
        rfl
      simp [matched, hread]
  | @quarter year quarter hyear hquarter =>
      obtain ⟨a, b, c, e, hyearChars⟩ : ∃ a b c e, padded 4 year = [a, b, c, e] := ⟨_, _, _, _, padded_four year⟩
      have hread : quarterly d.value (padded 4 year ++ ['-', 'Q', Nat.digitChar quarter])
          = some (year, quarter) := by
        refine quarterly_eq_some.mpr ⟨a, b, c, e, [], ?_, fourDigits_padded d hyear hyearChars, hquarter, rfl⟩
        rw [hyearChars]
        rfl
      have hnone : monthly d.value (padded 4 year ++ ['-', 'Q', Nat.digitChar quarter]) = none := by
        rw [hyearChars]
        simp [monthly, monthOf]
      simp [matched, hread, hnone]

theorem plain_of_mem_padded {w n : ℕ} {c : Char} (h : c ∈ padded w n) : Plain c :=
  .inl (List.all_eq_true.mp (all_isDigit_padded w n) c h)

theorem plain_of_names {first count : ℕ} (h : Names cs first count) : ∀ c ∈ cs, Plain c := by
  cases h with
  | month hyear hmonth =>
      intro c hc
      rcases List.mem_append.mp hc with hc | hc
      · exact plain_of_mem_padded hc
      · rcases List.mem_cons.mp hc with rfl | hc
        · exact .inr (.inl rfl)
        · exact plain_of_mem_padded hc
  | quarter hyear hquarter =>
      intro c hc
      rcases List.mem_append.mp hc with hc | hc
      · exact plain_of_mem_padded hc
      · simp only [List.mem_cons, List.not_mem_nil, or_false] at hc
        rcases hc with rfl | rfl | rfl
        · exact .inr (.inl rfl)
        · exact .inr (.inr rfl)
        · exact .inl (digitChar_isDigit (by omega))

/-- Nothing follows a match of plain characters. -/
theorem eq_nil_of_atEnd {rest : List Char} (hplain : ∀ c ∈ rest, Plain c) (h : atEnd rest) : rest = [] := by
  unfold atEnd at h
  split at h
  · rfl
  · exact absurd (hplain '\n' List.mem_cons_self) (by decide)
  · cases h

/-- A text of plain characters that a pattern matches is in one of the formats. -/
theorem names_of_matched {first count : ℕ} (hplain : ∀ c ∈ cs, Plain c)
    (h : matched d.value cs = some (first, count)) : Names cs first count := by
  unfold matched at h
  split at h
  · rename_i year month hread
    obtain ⟨a, b, c, e, m₁, m₂, rest, rfl, hyear, hmonth, hend⟩ := monthly_eq_some.mp hread
    obtain rfl := eq_nil_of_atEnd (fun c hc => hplain c (List.mem_append_right _ hc)) hend
    obtain ⟨hlt, hyearChars⟩ := padded_of_fourDigits d (hplain a (by simp)) (hplain b (by simp))
      (hplain c (by simp)) (hplain e (by simp)) hyear
    obtain ⟨hbounds, hmonthChars⟩ := monthOf_eq_some.mp hmonth
    obtain ⟨rfl, rfl⟩ := Prod.mk.inj (Option.some.inj h)
    have hcs : [a, b, c, e, '-', m₁, m₂] ++ [] = padded 4 year ++ '-' :: padded 2 month := by
      rw [hyearChars, hmonthChars]
      rfl
    rw [hcs]
    exact .month hlt hbounds
  · obtain ⟨⟨year, quarter⟩, hread, hpair⟩ := Option.map_eq_some_iff.mp h
    obtain ⟨a, b, c, e, rest, rfl, hyear, hquarter, hend⟩ := quarterly_eq_some.mp hread
    obtain rfl := eq_nil_of_atEnd (fun c hc => hplain c (List.mem_append_right _ hc)) hend
    obtain ⟨hlt, hyearChars⟩ := padded_of_fourDigits d (hplain a (by simp)) (hplain b (by simp))
      (hplain c (by simp)) (hplain e (by simp)) hyear
    obtain ⟨rfl, rfl⟩ := Prod.mk.inj hpair
    have hcs : [a, b, c, e, '-', 'Q', Nat.digitChar quarter] ++ []
        = padded 4 year ++ ['-', 'Q', Nat.digitChar quarter] := by
      rw [hyearChars]
      rfl
    rw [hcs]
    exact .quarter hlt hquarter

end Matching

/-! ## The interval of a period -/

/-- The first instant of a month by its number. -/
theorem firstOfMonth_eq (index : ℕ) :
    firstOfMonth (index / 12) (index % 12 + 1) = match monthStart index with
      | some t => .ok t
      | none => .error (.valueError ("year " ++ toString (index / 12) ++ " is out of range")) := by
  unfold firstOfMonth monthStart
  split <;> rfl

theorem month_bounds_of_monthly {digit : Char → Option ℕ} {cs : List Char} {year month : ℕ}
    (h : monthly digit cs = some (year, month)) : 1 ≤ month ∧ month ≤ 12 := by
  unfold monthly at h
  split at h
  · simp only [Option.bind_eq_bind, Option.bind_eq_some_iff, Option.ite_none_right_eq_some,
      Option.some.injEq, Prod.mk.injEq] at h
    obtain ⟨year', -, month', hmonth, -, -, rfl⟩ := h
    exact (monthOf_eq_some.mp hmonth).1
  · cases h

theorem quarter_bounds_of_quarterly {digit : Char → Option ℕ} {cs : List Char} {year quarter : ℕ}
    (h : quarterly digit cs = some (year, quarter)) : 1 ≤ quarter ∧ quarter ≤ 4 := by
  unfold quarterly at h
  split at h
  · simp only [Option.bind_eq_bind, Option.bind_eq_some_iff, Option.ite_none_right_eq_some,
      Option.some.injEq, Prod.mk.injEq] at h
    obtain ⟨year', -, ⟨hlo, hhi, -⟩, -, rfl⟩ := h
    obtain ⟨hlo', hhi', -⟩ := digit_of_between (by decide) (by decide) ⟨hlo, hhi⟩
    exact ⟨hlo', hhi'⟩
  · cases h

/-- The start of the month after the last one, as the code finds it. -/
theorem firstOfMonth_next (year month count : ℕ) (hmonth : 1 ≤ month) (hfits : month + count ≤ 13)
    (hcount : 0 < count) :
    (if month + count = 13 then firstOfMonth (year + 1) 1 else firstOfMonth year (month + count))
      = firstOfMonth ((12 * year + (month - 1) + count) / 12) ((12 * year + (month - 1) + count) % 12 + 1) := by
  split
  · congr 1 <;> omega
  · congr 1 <;> omega

/-- The text of the exception for other formats. -/
def unsupportedPeriod (period : String) : String :=
  "Unsupported period format: '" ++ period ++ "'. Expected 'YYYY-MM' or 'YYYY-QN'."

/-- The two branches of the code are one: the first of the named months and the one after the last. -/
theorem parsePeriod_eq (digit : Char → Option ℕ) (period : String) :
    parsePeriod digit period = match matched digit period.toList with
      | none => .error (.validation (unsupportedPeriod period))
      | some (first, count) => do
          let start ← firstOfMonth (first / 12) (first % 12 + 1)
          let finish ← firstOfMonth ((first + count) / 12) ((first + count) % 12 + 1)
          return (start, finish) := by
  unfold parsePeriod matched
  cases hmonthly : monthly digit period.toList with
  | some read =>
      obtain ⟨year, month⟩ := read
      have hbounds := month_bounds_of_monthly hmonthly
      have hnext := firstOfMonth_next year month 1 hbounds.1 (by omega) (by omega)
      have hlast : month + 1 = 13 ↔ month = 12 := by omega
      have hyear : (12 * year + (month - 1)) / 12 = year := by omega
      have hmonth : (12 * year + (month - 1)) % 12 + 1 = month := by omega
      simp only [hlast] at hnext
      simp only [← hnext, hyear, hmonth]
      by_cases hdecember : month = 12
      · simp only [hdecember, if_true]
      · simp only [hdecember, if_false]
  | none =>
      cases hquarterly : quarterly digit period.toList with
      | some read =>
          obtain ⟨year, quarter⟩ := read
          have hbounds := quarter_bounds_of_quarterly hquarterly
          have hnext := firstOfMonth_next year ((quarter - 1) * 3 + 1) 3 (by omega) (by omega) (by omega)
          have hlast : (quarter - 1) * 3 + 1 + 3 = 13 ↔ (quarter - 1) * 3 + 1 = 10 := by omega
          have hyear : (12 * year + (quarter - 1) * 3) / 12 = year := by omega
          have hmonth : (12 * year + (quarter - 1) * 3) % 12 + 1 = (quarter - 1) * 3 + 1 := by omega
          simp only [hlast, Nat.add_sub_cancel] at hnext
          simp only [Option.map_some, ← hnext, hyear, hmonth]
          by_cases hfourth : (quarter - 1) * 3 + 1 = 10
          · simp only [hfourth, if_true]
          · simp only [hfourth, if_false]
      | none => rfl

variable {digit : Char → Option ℕ} {period : String}

/-- What is returned is the interval of the months that a pattern has read. -/
theorem parsePeriod_eq_ok {start finish : DateTime} : parsePeriod digit period = .ok (start, finish) ↔
    ∃ first count, matched digit period.toList = some (first, count)
      ∧ monthsFrom first count = some (start, finish) := by
  rw [parsePeriod_eq]
  cases matched digit period.toList with
  | none => simp
  | some read =>
      obtain ⟨first, count⟩ := read
      simp only [firstOfMonth_eq first, firstOfMonth_eq (first + count),
        Option.some.injEq, Prod.mk.injEq, monthsFrom_eq_some]
      cases hstart : monthStart first with
      | none => simp [bind, Except.bind, hstart]
      | some s =>
          cases hfinish : monthStart (first + count) with
          | none => simp [bind, Except.bind, hstart, hfinish]
          | some f => simp [bind, Except.bind, pure, Except.pure, hstart, hfinish]

theorem parsePeriod_unmatched (h : matched digit period.toList = none) :
    parsePeriod digit period = .error (.validation (unsupportedPeriod period)) := by
  rw [parsePeriod_eq, h]

/-- Months that `datetime` cannot represent raise another exception. -/
theorem parsePeriod_unrepresentable {first count : ℕ} (h : matched digit period.toList = some (first, count))
    (hnone : monthsFrom first count = none) : ∃ detail, parsePeriod digit period = .error (.valueError detail) := by
  rw [parsePeriod_eq, h]
  simp only [firstOfMonth_eq first, firstOfMonth_eq (first + count)]
  cases hstart : monthStart first with
  | none => exact ⟨_, rfl⟩
  | some s =>
      cases hfinish : monthStart (first + count) with
      | none => exact ⟨_, rfl⟩
      | some f => exact absurd (monthsFrom_eq_some.mpr ⟨hstart, hfinish⟩) (by simp [hnone])

/-- A period is a positive number of days long. -/
theorem parsePeriod_days {start finish : DateTime} (h : parsePeriod digit period = .ok (start, finish)) :
    ∃ days : ℕ, 0 < days ∧ finish.ticks - start.ticks = days * 86400000000 := by
  obtain ⟨first, count, hmatched, hmonths⟩ := parsePeriod_eq_ok.mp h
  refine exists_days ?_ hmonths
  unfold matched at hmatched
  split at hmatched
  · rw [← (Prod.mk.inj (Option.some.inj hmatched)).2]
    omega
  · obtain ⟨read, -, hpair⟩ := Option.map_eq_some_iff.mp hmatched
    rw [← (Prod.mk.inj hpair).2]
    omega

/-! ## The law -/

/-- The code answers with the interval of the months that the text names, or with a validation error where
it names none, or none that can be represented. -/
def Lawful (period : String) (answer : Except Failure (DateTime × DateTime)) : Prop :=
  (∃ first count start finish, Names period.toList first count ∧ monthsFrom first count = some (start, finish)
    ∧ answer = .ok (start, finish)) ∨
  ((∀ first count, Names period.toList first count → monthsFrom first count = none)
    ∧ ∃ detail, answer = .error (.validation detail))

/-- A text that a pattern matches is written in plain characters, and names months from year 1 to year 9999
with the end of the last one. -/
def Admissible (digit : Char → Option ℕ) (period : String) : Prop :=
  (monthly digit period.toList).isSome ∨ (quarterly digit period.toList).isSome →
    (∀ c ∈ period.toList, Plain c) ∧ period.toList.take 4 ≠ "0000".toList ∧ period ≠ "9999-12" ∧
      period ≠ "9999-Q4"

theorem monthsFrom_eq_none {first count : ℕ} :
    monthsFrom first count = none ↔ ¬ (Representable first ∧ Representable (first + count)) := by
  rw [← isSome_monthStart, ← isSome_monthStart, monthsFrom]
  cases monthStart first <;> cases monthStart (first + count) <;> simp

/-- The texts in one of the formats whose months cannot be represented. -/
theorem monthsFrom_eq_none_of_names {first count : ℕ} (h : Names period.toList first count) :
    monthsFrom first count = none ↔
      period.toList.take 4 = "0000".toList ∨ period = "9999-12" ∨ period = "9999-Q4" := by
  have hyearZero : ∀ year < 10000, padded 4 year = "0000".toList ↔ year = 0 := by
    intro year hyear
    rw [show "0000".toList = padded 4 0 from rfl]
    refine ⟨fun heq => padded_injective (by omega) (by omega) heq, ?_⟩
    rintro rfl
    rfl
  have hyearLast : ∀ year < 10000, padded 4 year = padded 4 9999 ↔ year = 9999 := by
    intro year hyear
    refine ⟨fun heq => padded_injective (by omega) (by omega) heq, ?_⟩
    rintro rfl
    rfl
  have htext : ∀ s s' : String, s = s' ↔ s.toList = s'.toList := fun _ _ => String.toList_inj.symm
  rw [monthsFrom_eq_none, htext period "9999-12", htext period "9999-Q4",
    show "9999-12".toList = padded 4 9999 ++ '-' :: padded 2 12 from rfl,
    show "9999-Q4".toList = padded 4 9999 ++ ['-', 'Q', '4'] from rfl]
  generalize period.toList = cs at h ⊢
  unfold Representable
  -- the texts of the years have one length, so the texts agree part by part
  have hsplit : ∀ year rest rest', padded 4 year ++ rest = padded 4 9999 ++ rest' ↔
      padded 4 year = padded 4 9999 ∧ rest = rest' := by
    intro year rest rest'
    refine ⟨fun heq => List.append_inj heq (by simp), ?_⟩
    rintro ⟨hyear, rfl⟩
    rw [hyear]
  cases h with
  | @month year month hyear hmonth =>
      have hmonthLast : '-' :: padded 2 month = '-' :: padded 2 12 ↔ month = 12 := by
        rw [List.cons.injEq, and_iff_right rfl]
        refine ⟨fun heq => padded_injective (by omega) (by omega) heq, ?_⟩
        rintro rfl
        rfl
      have hquarter : '-' :: padded 2 month = ['-', 'Q', '4'] ↔ False := by
        refine iff_of_false (fun heq => ?_) id
        have hdigit := List.all_eq_true.mp (all_isDigit_padded 2 month) 'Q' (by simp [(List.cons.inj heq).2])
        exact absurd hdigit (by decide)
      rw [List.take_left' (length_padded 4 year), hyearZero year hyear, hsplit, hsplit, hyearLast year hyear,
        hmonthLast, hquarter, and_false, or_false]
      omega
  | @quarter year quarter hyear hquarter =>
      have hmonth : ['-', 'Q', Nat.digitChar quarter] = '-' :: padded 2 12 ↔ False := by
        refine iff_of_false (fun heq => ?_) id
        have hdigit := List.all_eq_true.mp (all_isDigit_padded 2 12) 'Q' (by simp [← (List.cons.inj heq).2])
        exact absurd hdigit (by decide)
      have hlast : ['-', 'Q', Nat.digitChar quarter] = ['-', 'Q', '4'] ↔ quarter = 4 := by
        simp only [List.cons.injEq, and_true, true_and]
        exact ⟨fun heq => digitChar_injective (by omega) (by omega) heq, fun heq => by rw [heq]; rfl⟩
      rw [List.take_left' (length_padded 4 year), hyearZero year hyear, hsplit, hsplit, hyearLast year hyear,
        hmonth, hlast, and_false, false_or]
      omega

/-- A text in one of the formats whose months can be represented is answered with their interval. -/
theorem parsePeriod_of_names (d : DecimalDigits) {first count : ℕ} {start finish : DateTime}
    (h : Names period.toList first count) :
    parsePeriod d.value period = .ok (start, finish) ↔ monthsFrom first count = some (start, finish) := by
  rw [parsePeriod_eq_ok, matched_of_names d h]
  constructor
  · rintro ⟨_, _, hpair, hmonths⟩
    obtain ⟨rfl, rfl⟩ := Prod.mk.inj (Option.some.inj hpair)
    exact hmonths
  · exact fun hmonths => ⟨first, count, rfl, hmonths⟩

/-- The months of a quarter are the quarter. -/
theorem exists_quarter_months (d : DecimalDigits) {first : ℕ} {start finish : DateTime}
    (h : monthsFrom first 3 = some (start, finish)) :
    ∃ second third, ∀ p p' p'' : String, Names p.toList first 1 → Names p'.toList (first + 1) 1 →
      Names p''.toList (first + 2) 1 → parsePeriod d.value p = .ok (start, second)
        ∧ parsePeriod d.value p' = .ok (second, third) ∧ parsePeriod d.value p'' = .ok (third, finish) := by
  obtain ⟨hstart, hfinish⟩ := monthsFrom_eq_some.mp h
  have hfirst : Representable first := (isSome_monthStart first).mp (by rw [hstart]; rfl)
  have hlast : Representable (first + 3) := (isSome_monthStart _).mp (by rw [hfinish]; rfl)
  have hbetween : Representable (first + 1) ∧ Representable (first + 2) := by
    unfold Representable at hfirst hlast ⊢
    omega
  obtain ⟨second, hsecond⟩ := Option.isSome_iff_exists.mp ((isSome_monthStart _).mpr hbetween.1)
  obtain ⟨third, hthird⟩ := Option.isSome_iff_exists.mp ((isSome_monthStart _).mpr hbetween.2)
  refine ⟨second, third, fun p p' p'' hp hp' hp'' => ⟨?_, ?_, ?_⟩⟩
  · exact (parsePeriod_of_names d hp).mpr (monthsFrom_eq_some.mpr ⟨hstart, hsecond⟩)
  · exact (parsePeriod_of_names d hp').mpr (monthsFrom_eq_some.mpr ⟨hsecond, hthird⟩)
  · exact (parsePeriod_of_names d hp'').mpr (monthsFrom_eq_some.mpr ⟨hthird, hfinish⟩)

theorem matched_isSome (digit : Char → Option ℕ) (cs : List Char) :
    (matched digit cs).isSome ↔ (monthly digit cs).isSome ∨ (quarterly digit cs).isSome := by
  unfold matched
  cases monthly digit cs <;> simp

theorem lawful_parsePeriod_iff (d : DecimalDigits) (period : String) :
    Lawful period (parsePeriod d.value period) ↔ Admissible d.value period := by
  unfold Admissible
  rw [← matched_isSome]
  cases hmatched : matched d.value period.toList with
  | none =>
      rw [parsePeriod_unmatched hmatched]
      refine iff_of_true (.inr ⟨fun first count hnames => ?_, _, rfl⟩) nofun
      rw [matched_of_names d hnames] at hmatched
      cases hmatched
  | some read =>
      obtain ⟨first, count⟩ := read
      simp only [Option.isSome_some, forall_const]
      constructor
      · rintro (⟨first', count', start, finish, hnames, hmonths, -⟩ | ⟨-, detail, herror⟩)
        · refine ⟨plain_of_names hnames, ?_⟩
          have hsome := mt (monthsFrom_eq_none_of_names hnames).mpr (by simp [hmonths])
          simpa only [not_or] using hsome
        · -- a match is never answered with a validation error
          cases hmonths : monthsFrom first count with
          | none =>
              obtain ⟨detail', hvalue⟩ := parsePeriod_unrepresentable hmatched hmonths
              rw [hvalue] at herror
              cases herror
          | some span =>
              rw [parsePeriod_eq_ok.mpr ⟨first, count, hmatched, hmonths⟩] at herror
              cases herror
      · rintro ⟨hplain, hyears⟩
        have hnames := names_of_matched d hplain hmatched
        have hsome : monthsFrom first count ≠ none := by
          rw [ne_eq, monthsFrom_eq_none_of_names hnames, not_or, not_or]
          exact hyears
        obtain ⟨⟨start, finish⟩, hmonths⟩ := Option.ne_none_iff_exists'.mp hsome
        exact .inl ⟨first, count, start, finish, hnames, hmonths, (parsePeriod_of_names d hnames).mpr hmonths⟩

/-- The answer is lawful exactly for the texts that no pattern matches by a digit of another script or in
front of a line feed, and that name months which can be represented. Its intervals hold the instants of the
named months, and tile the calendar. -/
theorem parsePeriod_lawful_iff (d : DecimalDigits) (period : String) :
    (Lawful period (parsePeriod d.value period) ↔ Admissible d.value period) ∧
    ∀ first count start finish, Names period.toList first count →
      parsePeriod d.value period = .ok (start, finish) →
      Covers start finish first count ∧
      (∀ (next : String) count' start' finish', Names next.toList (first + count) count' →
        parsePeriod d.value next = .ok (start', finish') → start' = finish) ∧
      (count = 3 → ∃ second third, ∀ p p' p'' : String, Names p.toList first 1 →
        Names p'.toList (first + 1) 1 → Names p''.toList (first + 2) 1 →
          parsePeriod d.value p = .ok (start, second) ∧ parsePeriod d.value p' = .ok (second, third)
            ∧ parsePeriod d.value p'' = .ok (third, finish)) := by
  refine ⟨lawful_parsePeriod_iff d period, ?_⟩
  intro first count start finish hnames hok
  have hmonths := (parsePeriod_of_names d hnames).mp hok
  refine ⟨covers_monthsFrom hmonths, ?_, ?_⟩
  · intro next count' start' finish' hnext hok'
    have hmonths' := (parsePeriod_of_names d hnext).mp hok'
    have hfinish := (monthsFrom_eq_some.mp hmonths).2
    rw [(monthsFrom_eq_some.mp hmonths').1] at hfinish
    exact Option.some.inj hfinish
  · rintro rfl
    exact exists_quarter_months d hmonths

/-- A line feed at the end and digits of another script are not noticed, and December of 9999 and the year 0
raise another exception. -/
theorem unlawful_periods :
    ¬ Lawful "2025-03\n" (parsePeriod unicodeDigits.value "2025-03\n")
    ∧ ¬ Lawful "٢٠٢٥-03" (parsePeriod unicodeDigits.value "٢٠٢٥-03")
    ∧ ¬ Lawful "9999-12" (parsePeriod unicodeDigits.value "9999-12")
    ∧ ¬ Lawful "0000-Q1" (parsePeriod unicodeDigits.value "0000-Q1") := by
  simp only [lawful_parsePeriod_iff]
  refine ⟨?_, ?_, ?_, ?_⟩
  · intro h
    exact absurd ((h (.inl (by decide +kernel))).1 '\n' (by decide)) (by decide)
  · intro h
    exact absurd ((h (.inl (by decide +kernel))).1 '٢' (by decide)) (by decide)
  · intro h
    exact (h (.inl (by decide +kernel))).2.2.1 rfl
  · intro h
    exact (h (.inr (by decide +kernel))).2.1 (by decide)

end ApexChainx.Sla
