import ApexChainx.Core.DateTime

/-!
# Adding hours to a time

`datetime + timedelta(hours=...)`: the time with the ticks of the sum, as long as its year is at most 9999.
-/

namespace ApexChainx.DateTime

/-- The year that a day since the start of year 1 lies in. The guess by the length of a cycle of 400 years
is right or one too early. -/
def yearOf (days : ℕ) : ℕ :=
  let guess := (days - 1) * 400 / 146097 + 1
  if daysBeforeYear (guess + 1) < days then guess + 1 else guess

/-- The month and the day of a number of days since the start of a month. -/
def monthDay (year : ℕ) : ℕ → ℕ → ℕ → Option (ℕ × ℕ)
  | 0, _, _ => none
  | months + 1, month, day =>
      if day ≤ daysInMonth year month then some (month, day)
      else monthDay year months (month + 1) (day - daysInMonth year month)

/-- The time with a number of ticks. -/
def ofTicks (ticks : ℤ) : Option DateTime :=
  let days := ticks.toNat / 86400000000
  let clock := ticks.toNat % 86400000000
  let year := yearOf days
  (monthDay year 12 1 (days - daysBeforeYear year)).bind fun (month, day) =>
    if h : Valid year month day (clock / 3600000000) (clock / 60000000 % 60) (clock / 1000000 % 60)
        (clock % 1000000) then
      some (ofValid h)
    else none

/-- `d + timedelta(hours=hours)`; `none` for its `OverflowError`. -/
def addHours (d : DateTime) (hours : ℤ) : Option DateTime := ofTicks (d.ticks + hours * 3600000000)

theorem daysBeforeMonth_succ (year month : ℕ) (h : 1 ≤ month) :
    daysBeforeMonth year (month + 1) = daysBeforeMonth year month + daysInMonth year month := by
  obtain ⟨m, rfl⟩ : ∃ m, month = m + 1 := ⟨month - 1, by omega⟩
  simp [daysBeforeMonth, List.range_succ]

theorem monthDay_spec {year months month day m d : ℕ} (h : monthDay year months month day = some (m, d))
    (hmonth : 1 ≤ month) (hday : 1 ≤ day) : 1 ≤ m ∧ m < month + months ∧ 1 ≤ d ∧ d ≤ daysInMonth year m ∧
      daysBeforeMonth year m + d = daysBeforeMonth year month + day := by
  induction months generalizing month day with
  | zero => cases h
  | succ months ih =>
      rw [monthDay] at h
      split at h
      · rename_i hle
        rw [Option.some.injEq, Prod.mk.injEq] at h
        obtain ⟨rfl, rfl⟩ := h
        exact ⟨hmonth, by omega, hday, hle, rfl⟩
      · obtain ⟨hm, hlt, hd, hle, hsum⟩ := ih h (by omega) (by omega)
        have hsucc := daysBeforeMonth_succ year month hmonth
        exact ⟨hm, by omega, hd, hle, by omega⟩

/-- The months of a year are the year. -/
theorem daysBeforeYear_succ {year : ℕ} (h : 1 ≤ year) :
    daysBeforeYear (year + 1) = daysBeforeYear year + daysBeforeMonth year 13 := by
  have hmonths : daysBeforeMonth year 13 = 337 + daysInMonth year 2 := by
    simp [daysBeforeMonth, daysInMonth, List.range_succ]
    omega
  obtain ⟨m, rfl⟩ : ∃ m, year = m + 1 := ⟨year - 1, by omega⟩
  have hle : m / 100 ≤ m / 4 := Nat.div_le_div_left (by omega) (by omega)
  rw [hmonths]
  unfold daysBeforeYear daysInMonth
  simp only [Nat.add_sub_cancel, Nat.succ_div, Nat.dvd_iff_mod_eq_zero, if_true]
  split_ifs <;> omega

theorem ticks_ofTicks {t : ℤ} {d : DateTime} (h : ofTicks t = some d) : d.ticks = t := by
  obtain ⟨⟨m, day⟩, hmonth, h⟩ := Option.bind_eq_some_iff.mp h
  simp only at h
  split at h
  · rename_i hvalid
    obtain rfl := Option.some.inj h
    have hday : 1 ≤ day := hvalid.2.2.1.1
    -- a day before the first of January would be day 0
    have hfirst : 1 ≤ t.toNat / 86400000000 - daysBeforeYear (yearOf (t.toNat / 86400000000)) := by
      by_contra hzero
      rw [Nat.eq_zero_of_not_pos hzero] at hmonth
      obtain ⟨rfl, rfl⟩ : 1 = m ∧ 0 = day := by simpa [monthDay] using hmonth
      omega
    obtain ⟨-, -, -, -, hsum⟩ := monthDay_spec hmonth (Nat.le_refl 1) hfirst
    have hzero : daysBeforeMonth (yearOf (t.toNat / 86400000000)) 1 = 0 := rfl
    simp only [ticks, ofValid]
    omega
  · cases h

theorem ticks_addHours {d e : DateTime} {hours : ℤ} (h : d.addHours hours = some e) :
    e.ticks = d.ticks + hours * 3600000000 := ticks_ofTicks h

end ApexChainx.DateTime
