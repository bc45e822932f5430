import Mathlib.Tactic.Ring
import ApexChainx.Core.DateTime

/-!
# Reading timestamps

`datetime.fromisoformat`, for every form it takes: calendar dates and ISO week dates, with or without
separators, followed by any character and a time of day, with an optional offset from UTC. A value keeps
the printed local time and the offset, `none` for a naive one.
-/

namespace ApexChainx

/-- The value of the first `w` characters when they are digits, and what follows them. -/
def digits (w : ℕ) (cs : List Char) : Option (ℕ × List Char) :=
  if w ≤ cs.length ∧ (cs.take w).all Char.isDigit then
    some ((cs.take w).foldl (fun n c => n * 10 + (c.toNat - '0'.toNat)) 0, cs.drop w)
  else none

/-- What `datetime.fromisoformat` reads: the local time in microseconds since the start of year 1, and
the offset from UTC in microseconds. -/
structure IsoTime where
  wall : ℤ
  utcoffset : Option ℤ
deriving DecidableEq, Repr

namespace IsoTime

/-- The instant, a naive value being taken as UTC. -/
def ticks (t : IsoTime) : ℤ := t.wall - t.utcoffset.getD 0

end IsoTime

/-- `_find_isoformat_datetime_separator`. -/
def findSeparator (cs : List Char) : Option ℕ :=
  if cs.length = 7 then some 7
  else if cs[4]? = some '-' then
    if cs[5]? = some 'W' then
      if cs[8]? = some '-' then
        if cs.length = 9 then none
        else if (cs[10]?).any Char.isDigit then some 8 else some 10
      else some 8
    else some 10
  else if cs[4]? = some 'W' then
    let idx := 7 + ((cs.drop 7).takeWhile Char.isDigit).length
    if idx < 9 then some idx else if idx % 2 = 0 then some 7 else some 8
  else some 8

/-- `_isoweek_to_gregorian`, as the ordinal of the day. -/
def isoweekOrdinal (year week day : ℕ) : Option ℕ :=
  let first := DateTime.daysBeforeYear year + 1
  let leap := daysInMonth year 2 = 29
  let long := first % 7 = 4 ∨ (first % 7 = 3 ∧ leap)
  let weekday := (first + 6) % 7
  let monday := if 3 < weekday then first - weekday + 7 else first - weekday
  if 1 ≤ year ∧ year ≤ 9999 ∧ (0 < week ∧ week < 53 ∨ week = 53 ∧ long) ∧ 0 < day ∧ day < 8 then
    some (monday + (week - 1) * 7 + (day - 1))
  else none

/-- `_parse_isoformat_date`, as the ordinal of the day. -/
def parseIsoformatDate (cs : List Char) : Option ℕ := do
  let (year, rest) ← digits 4 cs
  let hasSep := rest.head? = some '-'
  let rest := if hasSep then rest.drop 1 else rest
  if rest.head? = some 'W' then
    let (week, rest) ← digits 2 (rest.drop 1)
    if rest = [] then isoweekOrdinal year week 1
    else if (rest.head? = some '-') ≠ hasSep then none
    else do
      let (day, _) ← digits 1 (if hasSep then rest.drop 1 else rest)
      let ordinal ← isoweekOrdinal year week day
      if ordinal ≤ DateTime.daysBeforeYear 10000 then some ordinal else none
  else do
    let (month, rest) ← digits 2 rest
    if (rest.head? = some '-') ≠ hasSep then none
    else do
      let (day, _) ← digits 2 (if hasSep then rest.drop 1 else rest)
      if 1 ≤ year ∧ 1 ≤ month ∧ month ≤ 12 ∧ 1 ≤ day ∧ day ≤ daysInMonth year month then
        some (DateTime.daysBeforeYear year + DateTime.daysBeforeMonth year month + day)
      else none

/-- The digits of a fraction of a second, in microseconds, and whether something that is no digit follows.
Digits after the sixth are skipped. -/
def parseFraction (cs : List Char) : Option (ℕ × Bool) :=
  (digits (min 6 cs.length) cs).map fun r =>
    (r.1 * 10 ^ (6 - min 6 cs.length), r.2.dropWhile Char.isDigit ≠ [])

/-- What stands after a two-digit component of a time. -/
inductive AfterComponent
  /-- At most one more character, and whether there is one. -/
  | stop (junk : Bool)
  | component (rest : List Char)
  | fraction (rest : List Char)

/-- What stands after a two-digit component; `none` for a wrong separator. -/
def afterComponent (hasSep : Bool) : List Char → Option AfterComponent
  | [] => some (.stop false)
  | [_] => some (.stop true)
  | c :: rest =>
      if hasSep ∧ c = ':' then some (.component rest)
      else if c = '.' ∨ c = ',' then some (.fraction rest)
      else if hasSep then none
      else some (.component (c :: rest))

/-- At most `n` two-digit components and a fraction: their values, the microseconds, and whether something
unread follows. -/
def parseComponents (hasSep : Bool) : ℕ → List Char → Option (List ℕ × ℕ × Bool)
  | 0, cs => (parseFraction cs).map fun r => ([], r)
  | n + 1, cs => do
      let (value, rest) ← digits 2 cs
      match ← afterComponent hasSep rest with
      | .stop junk => some ([value], 0, junk)
      | .fraction rest => (parseFraction rest).map fun r => ([value], r)
      | .component rest => (parseComponents hasSep n rest).map fun r => (value :: r.1, r.2)

/-- Hours, minutes, seconds and microseconds. -/
structure Clock where
  hour : ℕ
  minute : ℕ
  second : ℕ
  microsecond : ℕ
deriving DecidableEq, Repr

/-- The length of a clock reading in microseconds. -/
def Clock.ticks (c : Clock) : ℤ :=
  (((c.hour * 60 + c.minute) * 60 + c.second) * 1000000 + c.microsecond : ℕ)

/-- `parse_hh_mm_ss_ff`: `HH[:?MM[:?SS[{.,}f+]]]`, and whether something unread follows. -/
def parseHhMmSsFf (cs : List Char) : Option (Clock × Bool) :=
  (parseComponents (cs[2]? = some ':') 3 cs).map fun r =>
    (⟨r.1.getD 0 0, r.1.getD 1 0, r.1.getD 2 0, r.2.1⟩, r.2.2)

/-- The offset from UTC, after the character that starts it. An offset of a day or more is refused. -/
def parseOffset (sign : Char) (tz : List Char) : Option ℤ :=
  if sign = 'Z' then (if tz = [] then some 0 else none)
  else do
    let (clock, junk) ← parseHhMmSsFf tz
    if junk ∨ 86400 * 1000000 ≤ clock.ticks then none
    else some (if sign = '-' then - clock.ticks else clock.ticks)

/-- The characters that start an offset. -/
def isOffsetSign (c : Char) : Bool := c == '+' || c == '-' || c == 'Z'

/-- `parse_isoformat_time`: the time of day, and the offset. What stands unread before an offset is let
through. -/
def parseIsoformatTime (cs : List Char) : Option (Clock × Option ℤ) := do
  let (clock, junk) ← parseHhMmSsFf (cs.takeWhile (! isOffsetSign ·))
  let offset ← match cs.dropWhile (! isOffsetSign ·) with
    | [] => if junk then none else some none
    | sign :: tz => (parseOffset sign tz).map some
  if clock.hour < 24 ∧ clock.minute < 60 ∧ clock.second < 60 then some (clock, offset) else none

/-- `datetime.fromisoformat`; `none` when it raises `ValueError`. -/
def fromisoformat (text : String) : Option IsoTime := do
  let cs := text.toList
  if cs.length < 7 then none
  else do
    let n ← findSeparator cs
    let day ← parseIsoformatDate (cs.take n)
    let (clock, offset) ←
      if cs.length ≤ n then some (⟨0, 0, 0, 0⟩, none) else parseIsoformatTime (cs.drop (n + 1))
    some ⟨day * 86400 * 1000000 + clock.ticks, offset⟩

/-! ## Reading what `isoformat` prints -/

theorem digitChar_isDigit {n : ℕ} (h : n < 10) : (Nat.digitChar n).isDigit = true := by
  have hall : ∀ n < 10, (Nat.digitChar n).isDigit = true := by decide
  exact hall n h

theorem digitChar_value {n : ℕ} (h : n < 10) : (Nat.digitChar n).toNat - '0'.toNat = n := by
  have hall : ∀ n < 10, (Nat.digitChar n).toNat - '0'.toNat = n := by decide
  exact hall n h

theorem all_isDigit_padded (w n : ℕ) : (padded w n).all Char.isDigit = true := by
  induction w generalizing n with
  | zero => rfl
  | succ w ih =>
      rw [padded, List.all_append, ih, List.all_cons, digitChar_isDigit (by omega)]
      rfl

theorem foldl_padded {w n : ℕ} (h : n < 10 ^ w) :
    (padded w n).foldl (fun n c => n * 10 + (c.toNat - '0'.toNat)) 0 = n := by
  induction w generalizing n with
  | zero =>
      rw [Nat.pow_zero] at h
      exact (Nat.lt_one_iff.mp h).symm
  | succ w ih =>
      rw [Nat.pow_succ] at h
      rw [padded, List.foldl_append, ih (by omega), List.foldl_cons, List.foldl_nil,
        digitChar_value (by omega)]
      omega

/-- A printed number is read back, and what follows it is left. -/
theorem digits_padded {w n : ℕ} (h : n < 10 ^ w) (rest : List Char) :
    digits w (padded w n ++ rest) = some (n, rest) := by
  have htake : (padded w n ++ rest).take w = padded w n := by simp
  have hdrop : (padded w n ++ rest).drop w = rest := by simp
  unfold digits
  rw [htake, hdrop, if_pos ⟨by simp, all_isDigit_padded w n⟩, foldl_padded h]

/-- A printed number starts with no other character than a digit. -/
theorem head_padded_ne {w n : ℕ} {c : Char} (hw : 0 < w) (hc : c.isDigit = false) (rest : List Char) :
    (padded w n ++ rest).head? ≠ some c := by
  intro h
  have hmem : c ∈ padded w n := by
    rw [List.head?_append_of_ne_nil _ (List.ne_nil_of_length_pos (by simpa using hw))] at h
    exact List.mem_of_mem_head? h
  have hdigit := List.all_eq_true.mp (all_isDigit_padded w n) c hmem
  rw [hc] at hdigit
  cases hdigit

theorem parseIsoformatDate_isoformat (d : DateTime) :
    parseIsoformatDate (padded 4 d.year ++ '-' :: (padded 2 d.month ++ '-' :: padded 2 d.day))
      = some (DateTime.daysBeforeYear d.year + DateTime.daysBeforeMonth d.year d.month + d.day) := by
  have hyear := d.year_bounds
  have hmonth := d.month_bounds
  have hday := d.day_bounds
  have hlt := d.day_lt
  have hd : digits 2 (padded 2 d.day) = some (d.day, []) := by
    simpa using digits_padded (w := 2) (show d.day < 10 ^ 2 by omega) []
  have hweek := head_padded_ne (w := 2) (n := d.month) (c := 'W') (by decide) (by decide)
    ('-' :: padded 2 d.day)
  unfold parseIsoformatDate
  rw [digits_padded (show d.year < 10 ^ 4 by omega)]
  simp only [Option.bind_eq_bind, Option.bind_some, List.head?_cons, if_true, List.drop_succ_cons,
    List.drop_zero, hweek, if_false]
  rw [digits_padded (show d.month < 10 ^ 2 by omega)]
  simp only [Option.bind_some, List.head?_cons, ne_eq, not_true_eq_false, if_false,
    List.drop_succ_cons, List.drop_zero, hd]
  rw [if_pos ⟨hyear.1, hmonth.1, hmonth.2, hday.1, hday.2⟩]

theorem parseFraction_padded {n : ℕ} (h : n < 1000000) :
    parseFraction (padded 6 n) = some (n, false) := by
  have hd : digits 6 (padded 6 n) = some (n, []) := by
    simpa using digits_padded (w := 6) (show n < 10 ^ 6 by omega) []
  simp [parseFraction, hd]

theorem afterComponent_of_ne_nil {hasSep : Bool} {c : Char} {rest : List Char} (h : rest ≠ []) :
    afterComponent hasSep (c :: rest) =
      if hasSep ∧ c = ':' then some (.component rest)
      else if c = '.' ∨ c = ',' then some (.fraction rest)
      else if hasSep then none
      else some (.component (c :: rest)) := by
  cases rest with
  | nil => exact absurd rfl h
  | cons d ds => rfl

theorem padded_append_ne_nil {w n : ℕ} {rest : List Char} (hw : 0 < w) : padded w n ++ rest ≠ [] :=
  List.ne_nil_of_length_pos (by rw [List.length_append, length_padded]; omega)

/-- A component with a colon and another component after it. -/
theorem parseComponents_colon {n value next : ℕ} {rest : List Char} (h : value < 100) :
    parseComponents true (n + 1) (padded 2 value ++ ':' :: (padded 2 next ++ rest))
      = (parseComponents true n (padded 2 next ++ rest)).map fun r => (value :: r.1, r.2) := by
  rw [parseComponents, digits_padded (by omega)]
  simp [afterComponent_of_ne_nil (padded_append_ne_nil (w := 2) (by decide))]

/-- The last component, with the fraction that `isoformat` prints. -/
theorem parseComponents_fraction {n value microsecond : ℕ} (h : value < 100)
    (hmicro : microsecond < 1000000) :
    parseComponents true (n + 1) (padded 2 value ++ DateTime.fraction microsecond)
      = some ([value], microsecond, false) := by
  rw [parseComponents, digits_padded (by omega)]
  unfold DateTime.fraction
  split_ifs with hzero
  · simp [afterComponent, hzero]
  · have hne : padded 6 microsecond ≠ [] := List.ne_nil_of_length_pos (by simp)
    simp [afterComponent_of_ne_nil hne, parseFraction_padded hmicro]

theorem parseHhMmSsFf_isoformat {hour minute second microsecond : ℕ} (hhour : hour < 24)
    (hminute : minute < 60) (hsecond : second < 60) (hmicro : microsecond < 1000000) :
    parseHhMmSsFf (padded 2 hour ++ ':' :: (padded 2 minute ++ ':' :: (padded 2 second ++
      DateTime.fraction microsecond))) = some (⟨hour, minute, second, microsecond⟩, false) := by
  have hsep : (padded 2 hour ++ ':' :: (padded 2 minute ++ ':' :: (padded 2 second ++
      DateTime.fraction microsecond)))[2]? = some ':' := by
    rw [List.getElem?_append_right (by simp)]
    simp
  unfold parseHhMmSsFf
  rw [hsep]
  simp only [decide_true]
  rw [parseComponents_colon (by omega), parseComponents_colon (by omega),
    parseComponents_fraction (by omega) hmicro]
  rfl

theorem not_isOffsetSign_of_isDigit {c : Char} (h : c.isDigit = true) : isOffsetSign c = false := by
  by_contra hsign
  rw [Bool.not_eq_false] at hsign
  simp only [isOffsetSign, Bool.or_eq_true, beq_iff_eq] at hsign
  rcases hsign with (rfl | rfl) | rfl <;> exact absurd h (by decide)

theorem not_isOffsetSign_of_mem_clock {hour minute second microsecond : ℕ} {c : Char}
    (h : c ∈ padded 2 hour ++ ':' :: (padded 2 minute ++ ':' :: (padded 2 second ++
      DateTime.fraction microsecond))) : isOffsetSign c = false := by
  have hdigit : ∀ w n, c ∈ padded w n → isOffsetSign c = false := fun w n hc =>
    not_isOffsetSign_of_isDigit (List.all_eq_true.mp (all_isDigit_padded w n) c hc)
  simp only [List.mem_append, List.mem_cons] at h
  rcases h with h | rfl | h | rfl | h | h
  · exact hdigit _ _ h
  · decide
  · exact hdigit _ _ h
  · decide
  · exact hdigit _ _ h
  · unfold DateTime.fraction at h
    split_ifs at h
    · cases h
    · rcases List.mem_cons.mp h with rfl | h
      · decide
      · exact hdigit _ _ h

theorem parseOffset_utc : parseOffset '+' "00:00".toList = some 0 := by decide

theorem findSeparator_isoCharsSep (sep : Char) (d : DateTime) :
    findSeparator (d.isoCharsSep sep) = some 10 := by
  have hlength : (d.isoCharsSep sep).length ≠ 7 := by simp [DateTime.isoCharsSep]; omega
  have hdash : (d.isoCharsSep sep)[4]? = some '-' := by
    unfold DateTime.isoCharsSep
    rw [List.getElem?_append_right (by simp)]
    simp
  have hweek : (d.isoCharsSep sep)[5]? ≠ some 'W' := by
    have hhead := head_padded_ne (w := 2) (n := d.month) (c := 'W') (by decide) (by decide)
      ('-' :: (padded 2 d.day ++ sep :: (padded 2 d.hour ++ ':' :: (padded 2 d.minute ++ ':' ::
        (padded 2 d.second ++ (DateTime.fraction d.microsecond ++ "+00:00".toList))))))
    rw [List.head?_eq_getElem?] at hhead
    unfold DateTime.isoCharsSep
    rw [List.getElem?_append_right (by simp)]
    simpa using hhead
  unfold findSeparator
  rw [if_neg hlength, if_pos hdash, if_neg hweek]

theorem parseIsoformatTime_isoformat (d : DateTime) :
    parseIsoformatTime (padded 2 d.hour ++ ':' :: (padded 2 d.minute ++ ':' :: (padded 2 d.second ++
        DateTime.fraction d.microsecond)) ++ "+00:00".toList)
      = some (⟨d.hour, d.minute, d.second, d.microsecond⟩, some 0) := by
  set clock := padded 2 d.hour ++ ':' :: (padded 2 d.minute ++ ':' :: (padded 2 d.second ++
    DateTime.fraction d.microsecond)) with hclock
  have hall : ∀ c ∈ clock, (! isOffsetSign c) = true := fun c hc => by
    rw [not_isOffsetSign_of_mem_clock hc]
    rfl
  have htake : (clock ++ "+00:00".toList).takeWhile (! isOffsetSign ·) = clock := by
    rw [List.takeWhile_append_of_pos hall]
    simp [isOffsetSign]
  have hdrop : (clock ++ "+00:00".toList).dropWhile (! isOffsetSign ·) = "+00:00".toList := by
    rw [List.dropWhile_append_of_pos hall]
    rfl
  unfold parseIsoformatTime
  rw [htake, hdrop, hclock,
    parseHhMmSsFf_isoformat d.hour_lt d.minute_lt d.second_lt d.microsecond_lt]
  have hbounds : d.hour < 24 ∧ d.minute < 60 ∧ d.second < 60 := ⟨d.hour_lt, d.minute_lt, d.second_lt⟩
  have hoffset : parseOffset '+' ['0', '0', ':', '0', '0'] = some 0 := parseOffset_utc
  simp [hbounds, hoffset]

/-- `fromisoformat` reads back what `isoformat` prints, whatever separator it prints. -/
theorem fromisoformat_isoCharsSep (sep : Char) (d : DateTime) :
    fromisoformat (String.ofList (d.isoCharsSep sep)) = some ⟨d.ticks, some 0⟩ := by
  have hlength : 19 ≤ (d.isoCharsSep sep).length := by
    simp only [DateTime.isoCharsSep, List.length_append, List.length_cons, length_padded]
    omega
  have hsplit : d.isoCharsSep sep =
      (padded 4 d.year ++ '-' :: (padded 2 d.month ++ '-' :: padded 2 d.day)) ++
      sep :: (padded 2 d.hour ++ ':' :: (padded 2 d.minute ++ ':' :: (padded 2 d.second ++
        DateTime.fraction d.microsecond)) ++ "+00:00".toList) := by
    simp [DateTime.isoCharsSep]
  have hdate : (d.isoCharsSep sep).take 10 =
      padded 4 d.year ++ '-' :: (padded 2 d.month ++ '-' :: padded 2 d.day) := by
    rw [hsplit]
    exact List.take_left' (by simp)
  have htime : (d.isoCharsSep sep).drop 11 = padded 2 d.hour ++ ':' :: (padded 2 d.minute ++ ':' ::
      (padded 2 d.second ++ DateTime.fraction d.microsecond)) ++ "+00:00".toList := by
    rw [hsplit, ← List.drop_drop (i := 1) (j := 10), List.drop_left' (by simp), List.drop_one,
      List.tail_cons]
  unfold fromisoformat
  rw [String.toList_ofList, if_neg (by omega), findSeparator_isoCharsSep]
  simp only [Option.bind_eq_bind, Option.bind_some, hdate, htime, parseIsoformatDate_isoformat,
    parseIsoformatTime_isoformat, if_neg (show ¬ (d.isoCharsSep sep).length ≤ 10 by omega)]
  simp only [DateTime.ticks, Clock.ticks, Option.some.injEq, IsoTime.mk.injEq, and_true]
  push_cast
  ring

theorem fromisoformat_isoformat (d : DateTime) : fromisoformat d.isoformat = some ⟨d.ticks, some 0⟩ :=
  fromisoformat_isoCharsSep 'T' d

theorem fromisoformat_str (d : DateTime) : fromisoformat d.str = some ⟨d.ticks, some 0⟩ :=
  fromisoformat_isoCharsSep ' ' d

end ApexChainx
