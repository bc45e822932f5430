import ApexChainx.Core.IsoFormat
import ApexChainx.Import.Endpoint

/-!
# Reading an outage from a row of a file

`OutageCreate(**row)` (`app/models/outage_dto.py`) for a row of JSON values: every field is checked and the
errors of all of them are reported together. The cells of a CSV file are strings. How Pydantic reads a
timestamp, an integer or a float from a value is a parameter, of which only what is written in that form is
known to be read back.
-/

namespace ApexChainx.Import

open ApexChainx.Lib ApexChainx.Sla ApexChainx.Settlement

/-- What `json.loads` returns. A string with half a surrogate pair is no text, and stands as its code points. -/
inductive Value
  | null
  | bool (b : Bool)
  | num (n : Number)
  | str (s : String)
  | halfStr (codePoints : List ℕ)
  | arr (elems : List Value)
  | obj (members : List (String × Value))
deriving Repr

/-- A row of a file: the keyword arguments of `OutageCreate`. -/
abbrev Row := List (String × Value)

/-- A timestamp that Pydantic has read. One with a timezone is normalised by `astimezone(UTC)`, unless UTC has
no date for it. -/
inductive Timestamp
  | naive
  | utc (t : DateTime)
  | overflow
deriving DecidableEq, Repr

/-- How Pydantic writes timestamps (`mode="json"`), and how it reads scalars. -/
structure Codec where
  dumpDatetime : DateTime → String
  readDatetime : Value → Option Timestamp
  readInt : Value → Option ℤ
  readFloat : Value → Option FloatText
  readDatetime_dump : ∀ t, readDatetime (.str (dumpDatetime t)) = some (.utc t)
  readInt_int : ∀ n, readInt (.num (.int n)) = some n
  readFloat_float : ∀ f, readFloat (.num (.float f)) = some f

/-- One entry of `ValidationError.errors()`. -/
structure FieldError where
  field : String
  message : String
deriving DecidableEq, Repr

/-- A value, or the errors found in it. -/
inductive Checked (α : Type*)
  | ok (a : α)
  | error (errors : List FieldError)
deriving DecidableEq, Repr

def Checked.map {α β : Type*} (f : α → β) : Checked α → Checked β
  | .ok a => .ok (f a)
  | .error e => .error e

/-- The next argument of a constructor; errors add up. -/
def Checked.app {α β : Type*} : Checked (α → β) → Checked α → Checked β
  | .ok f, .ok a => .ok (f a)
  | .ok _, .error e => .error e
  | .error e, .ok _ => .error e
  | .error e, .error e' => .error (e ++ e')

/-! ## The fields -/

def required {α : Type*} (row : Row) (field : String) (check : Value → Checked α) : Checked α :=
  match row.lookup field with
  | none => .error [⟨field, "Field required"⟩]
  | some v => check v

/-- A field with the default `None`. -/
def optional {α : Type*} (row : Row) (field : String) (check : Value → Checked α) : Checked (Option α) :=
  match row.lookup field with
  | none => .ok none
  | some .null => .ok none
  | some v => (check v).map some

def text (field : String) : Value → Checked String
  | .str s => .ok s
  | .halfStr _ =>
      .error [⟨field, "Input should be a valid string, unable to parse raw data as a unicode string"⟩]
  | _ => .error [⟨field, "Input should be a valid string"⟩]

/-- `Field(..., min_length=1)`. -/
def nonemptyText (field : String) (v : Value) : Checked String :=
  match text field v with
  | .error e => .error e
  | .ok s => if s = "" then .error [⟨field, "String should have at least 1 character"⟩] else .ok s

/-- `validate_site_name_length` and `validate_description_length`. -/
def boundedText (max : ℕ) (field : String) (v : Value) : Checked String :=
  match nonemptyText field v with
  | .error e => .error e
  | .ok s =>
      if max < s.length then
        .error [⟨field, "Value error, " ++ field ++ " too long. Maximum length is " ++ toString max
          ++ " characters."⟩]
      else .ok s

def maxSiteNameLength : ℕ := 255
def maxDescriptionLength : ℕ := 5000
def maxAffectedServicesCount : ℕ := 100

/-- `Severity`. -/
def severity (field : String) : Value → Checked Severity
  | .str "critical" => .ok .critical
  | .str "high" => .ok .high
  | .str "medium" => .ok .medium
  | .str "low" => .ok .low
  | _ => .error [⟨field, "Input should be 'critical', 'high', 'medium' or 'low'"⟩]

/-- `OutageStatus`. -/
def status (field : String) : Value → Checked OutageStatus
  | .str "open" => .ok .open
  | .str "resolved" => .ok .resolved
  | _ => .error [⟨field, "Input should be 'open' or 'resolved'"⟩]

/-- The items of `list[str]`, from index `i` on. -/
def texts (field : String) : ℕ → List Value → Checked (List String)
  | _, [] => .ok []
  | i, v :: vs => ((Checked.ok List.cons).app (text (field ++ "." ++ toString i) v)).app
      (texts field (i + 1) vs)

/-- `affected_services`. -/
def affectedServices (field : String) : Value → Checked (List String)
  | .arr elems =>
      match texts field 0 elems with
      | .error e => .error e
      | .ok services =>
          if services = [] then
            .error [⟨field, "List should have at least 1 item after validation, not 0"⟩]
          else if maxAffectedServicesCount < services.length then
            .error [⟨field, "Value error, too many affected services. Maximum allowed is "
              ++ toString maxAffectedServicesCount ++ "."⟩]
          else .ok services
  | _ => .error [⟨field, "Input should be a valid list"⟩]

/-- `Field(default=None, ge=0)`. -/
def nonnegative (codec : Codec) (field : String) (v : Value) : Checked ℤ :=
  match codec.readInt v with
  | none => .error [⟨field, "Input should be a valid integer"⟩]
  | some n =>
      if n < 0 then .error [⟨field, "Input should be greater than or equal to 0"⟩] else .ok n

/-- `validate_detected_at_timezone`, for a timestamp in UTC. -/
def detectedAt (codec : Codec) (maxDetectedAt : DateTime) (field : String) (v : Value) : Checked DateTime :=
  match codec.readDatetime v with
  | some (.utc t) =>
      if maxDetectedAt.ticks < t.ticks then
        .error [⟨field, "Value error, detected_at cannot be in the future. Received " ++ t.isoformat
          ++ ", maximum allowed is approximately " ++ maxDetectedAt.isoformat⟩]
      else .ok t
  | _ => .error [⟨field, "Input should be a valid datetime"⟩]

def coordinate (codec : Codec) (field : String) (v : Value) : Checked FloatText :=
  match codec.readFloat v with
  | none => .error [⟨field, "Input should be a valid number"⟩]
  | some f => .ok f

/-- `Location`. -/
def location (codec : Codec) (field : String) : Value → Checked Location
  | .obj members =>
      ((Checked.ok Location.mk).app
        (required members "latitude" (coordinate codec (field ++ ".latitude")))).app
        (required members "longitude" (coordinate codec (field ++ ".longitude")))
  | _ => .error [⟨field, "Input should be a valid dictionary or instance of Location"⟩]

/-! ## The row -/

/-- The fields in the order of the model. -/
def checkFields (codec : Codec) (maxDetectedAt : DateTime) (row : Row) : Checked OutageCreate :=
  (((((((((((((Checked.ok OutageCreate.mk).app
    (required row "id" (nonemptyText "id"))).app
    (required row "site_name" (boundedText maxSiteNameLength "site_name"))).app
    (optional row "site_id" (text "site_id"))).app
    (required row "severity" (severity "severity"))).app
    (required row "status" (status "status"))).app
    (required row "detected_at" (detectedAt codec maxDetectedAt "detected_at"))).app
    (required row "description" (boundedText maxDescriptionLength "description"))).app
    (required row "affected_services" (affectedServices "affected_services"))).app
    (optional row "affected_subscribers" (nonnegative codec "affected_subscribers"))).app
    (optional row "assigned_to" (text "assigned_to"))).app
    (optional row "created_by" (text "created_by"))).app
    (optional row "location" (location codec "location")))

/-- `OutageCreate(**row)`; `maxDetectedAt` is the clock with its tolerance. The validator of `detected_at`
raises for a timestamp without a timezone, by a call that is itself a `TypeError`, and for one that overflows;
Pydantic lets both through. -/
def outageCreate (codec : Codec) (maxDetectedAt : DateTime) (row : Row) : Outcome OutageCreate :=
  match (row.lookup "detected_at").bind codec.readDatetime with
  | some .naive => .error (.typeError "No constructor defined")
  | some .overflow => .error (.overflowError "date value out of range")
  | _ =>
      match checkFields codec maxDetectedAt row with
      | .ok p => .ok p
      | .error errors =>
          .error (.valueError (", ".intercalate (errors.map fun e => e.field ++ ": " ++ e.message)))

/-- `row.get("id")` in a row result. -/
def rowId (row : Row) : Outcome (Option String) :=
  match row.lookup "id" with
  | none => .ok none
  | some .null => .ok none
  | some (.str id) => .ok (some id)
  | some _ => .error (.valueError "id: Input should be a valid string")

/-! ## What an accepted row is -/

variable {α β : Type*}

theorem app_eq_ok {f : Checked (α → β)} {x : Checked α} {b : β} :
    f.app x = .ok b ↔ ∃ g, f = .ok g ∧ ∃ a, x = .ok a ∧ g a = b := by
  cases f with
  | ok g =>
      cases x with
      | ok a => simp [Checked.app]
      | error e => simp [Checked.app]
  | error e =>
      cases x with
      | ok a => simp [Checked.app]
      | error e' => simp [Checked.app]

/-- A row is accepted when every field is, and the outage has what the fields were read as. -/
theorem checkFields_eq_ok {codec : Codec} {maxDetectedAt : DateTime} {row : Row} {p : OutageCreate} :
    checkFields codec maxDetectedAt row = .ok p ↔
      required row "id" (nonemptyText "id") = .ok p.id ∧
      required row "site_name" (boundedText maxSiteNameLength "site_name") = .ok p.siteName ∧
      optional row "site_id" (text "site_id") = .ok p.siteId ∧
      required row "severity" (severity "severity") = .ok p.severity ∧
      required row "status" (status "status") = .ok p.status ∧
      required row "detected_at" (detectedAt codec maxDetectedAt "detected_at") = .ok p.detectedAt ∧
      required row "description" (boundedText maxDescriptionLength "description") = .ok p.description ∧
      required row "affected_services" (affectedServices "affected_services") = .ok p.affectedServices ∧
      optional row "affected_subscribers" (nonnegative codec "affected_subscribers") =
        .ok p.affectedSubscribers ∧
      optional row "assigned_to" (text "assigned_to") = .ok p.assignedTo ∧
      optional row "created_by" (text "created_by") = .ok p.createdBy ∧
      optional row "location" (location codec "location") = .ok p.location := by
  constructor
  · intro h
    obtain ⟨_, h₁, _, hlocation, rfl⟩ := app_eq_ok.mp h
    obtain ⟨_, h₂, _, hcreatedBy, rfl⟩ := app_eq_ok.mp h₁
    obtain ⟨_, h₃, _, hassignedTo, rfl⟩ := app_eq_ok.mp h₂
    obtain ⟨_, h₄, _, hsubscribers, rfl⟩ := app_eq_ok.mp h₃
    obtain ⟨_, h₅, _, hservices, rfl⟩ := app_eq_ok.mp h₄
    obtain ⟨_, h₆, _, hdescription, rfl⟩ := app_eq_ok.mp h₅
    obtain ⟨_, h₇, _, hdetectedAt, rfl⟩ := app_eq_ok.mp h₆
    obtain ⟨_, h₈, _, hstatus, rfl⟩ := app_eq_ok.mp h₇
    obtain ⟨_, h₉, _, hseverity, rfl⟩ := app_eq_ok.mp h₈
    obtain ⟨_, h₁₀, _, hsiteId, rfl⟩ := app_eq_ok.mp h₉
    obtain ⟨_, h₁₁, _, hsiteName, rfl⟩ := app_eq_ok.mp h₁₀
    obtain ⟨_, h₁₂, _, hid, rfl⟩ := app_eq_ok.mp h₁₁
    obtain rfl := Checked.ok.inj h₁₂
    exact ⟨hid, hsiteName, hsiteId, hseverity, hstatus, hdetectedAt, hdescription, hservices, hsubscribers,
      hassignedTo, hcreatedBy, hlocation⟩
  · rintro ⟨hid, hsiteName, hsiteId, hseverity, hstatus, hdetectedAt, hdescription, hservices, hsubscribers,
      hassignedTo, hcreatedBy, hlocation⟩
    rw [checkFields, hid, hsiteName, hsiteId, hseverity, hstatus, hdetectedAt, hdescription, hservices,
      hsubscribers, hassignedTo, hcreatedBy, hlocation]
    rfl

theorem nonemptyText_eq_ok {field s : String} {v : Value} :
    nonemptyText field v = .ok s ↔ v = .str s ∧ s ≠ "" := by
  unfold nonemptyText text
  cases v with
  | str s' =>
      dsimp only
      split
      · rename_i h
        refine iff_of_false nofun ?_
        rintro ⟨heq, hne⟩
        exact hne ((Value.str.inj heq).symm.trans h)
      · rename_i h
        constructor
        · rintro heq
          obtain rfl := Checked.ok.inj heq
          exact ⟨rfl, h⟩
        · rintro ⟨heq, -⟩
          rw [Value.str.inj heq]
  | _ => exact iff_of_false nofun fun h => nomatch h.1

theorem boundedText_eq_ok {max : ℕ} {field s : String} {v : Value} :
    boundedText max field v = .ok s ↔ v = .str s ∧ s ≠ "" ∧ s.length ≤ max := by
  unfold boundedText
  cases htext : nonemptyText field v with
  | error e =>
      refine iff_of_false nofun ?_
      rintro ⟨hv, hne, -⟩
      rw [nonemptyText_eq_ok.mpr ⟨hv, hne⟩] at htext
      cases htext
  | ok s' =>
      obtain ⟨rfl, hne⟩ := nonemptyText_eq_ok.mp htext
      dsimp only
      split
      · rename_i hlong
        refine iff_of_false nofun ?_
        rintro ⟨heq, -, hle⟩
        obtain rfl := Value.str.inj heq
        omega
      · rename_i hle
        constructor
        · intro heq
          obtain rfl := Checked.ok.inj heq
          exact ⟨rfl, hne, by omega⟩
        · rintro ⟨heq, -, -⟩
          rw [Value.str.inj heq]

theorem required_eq_ok {row : Row} {field : String} {check : Value → Checked α} {a : α} :
    required row field check = .ok a ↔ ∃ v, row.lookup field = some v ∧ check v = .ok a := by
  unfold required
  cases row.lookup field with
  | none => exact iff_of_false nofun nofun
  | some v => simp

/-- An outage that passes the checks has a timestamp in UTC, so that its validator does not raise. -/
theorem readDatetime_of_checkFields {codec : Codec} {maxDetectedAt : DateTime} {row : Row} {p : OutageCreate}
    (h : checkFields codec maxDetectedAt row = .ok p) :
    (row.lookup "detected_at").bind codec.readDatetime = some (.utc p.detectedAt) := by
  obtain ⟨-, -, -, -, -, htime, -⟩ := checkFields_eq_ok.mp h
  obtain ⟨v, hlookup, hv⟩ := required_eq_ok.mp htime
  rw [hlookup, Option.bind_some]
  unfold detectedAt at hv
  split at hv
  · rename_i t hread
    split at hv
    · cases hv
    · rw [hread, Checked.ok.inj hv]
  · cases hv

theorem outageCreate_eq_ok {codec : Codec} {maxDetectedAt : DateTime} {row : Row} {p : OutageCreate} :
    outageCreate codec maxDetectedAt row = .ok p ↔ checkFields codec maxDetectedAt row = .ok p := by
  constructor
  · intro h
    unfold outageCreate at h
    split at h
    · cases h
    · cases h
    · split at h
      · rename_i hcheck
        rw [hcheck, Outcome.ok.inj h]
      · cases h
  · intro h
    rw [outageCreate, readDatetime_of_checkFields h, h]

/-- The reading of rows in an import. -/
def rowParser (codec : Codec) (maxDetectedAt : DateTime) : RowParser Row where
  outageCreate := outageCreate codec maxDetectedAt
  rowId := rowId
  rowId_of_valid row p h := by
    obtain ⟨hid, -⟩ := checkFields_eq_ok.mp (outageCreate_eq_ok.mp h)
    obtain ⟨v, hlookup, hv⟩ := required_eq_ok.mp hid
    obtain ⟨rfl, -⟩ := nonemptyText_eq_ok.mp hv
    rw [rowId, hlookup]

/-! ## The form that is written -/

/-- The timestamps that Pydantic writes. -/
def zuluChars (d : DateTime) : List Char :=
  padded 4 d.year ++ '-' :: (padded 2 d.month ++ '-' :: (padded 2 d.day ++ 'T' ::
    (padded 2 d.hour ++ ':' :: (padded 2 d.minute ++ ':' :: (padded 2 d.second ++
      (DateTime.fraction d.microsecond ++ ['Z']))))))

/-- The fraction of a second, if one follows. -/
def readFraction (cs : List Char) : Option ℕ :=
  if cs.head? = some '.' then (digits 6 (cs.drop 1)).map Prod.fst else some 0

def readZulu (cs : List Char) : Option DateTime := do
  let (year, cs) ← digits 4 cs
  let (month, cs) ← digits 2 (cs.drop 1)
  let (day, cs) ← digits 2 (cs.drop 1)
  let (hour, cs) ← digits 2 (cs.drop 1)
  let (minute, cs) ← digits 2 (cs.drop 1)
  let (second, cs) ← digits 2 (cs.drop 1)
  let microsecond ← readFraction cs
  if h : (1 ≤ year ∧ year ≤ 9999) ∧ (1 ≤ month ∧ month ≤ 12) ∧ (1 ≤ day ∧ day ≤ daysInMonth year month) ∧
      hour < 24 ∧ minute < 60 ∧ second < 60 ∧ microsecond < 1000000 then
    some ⟨year, month, day, hour, minute, second, microsecond, h.1, h.2.1, h.2.2.1, h.2.2.2.1, h.2.2.2.2.1,
      h.2.2.2.2.2.1, h.2.2.2.2.2.2⟩
  else none

theorem readFraction_fraction {n : ℕ} (h : n < 1000000) :
    readFraction (DateTime.fraction n ++ ['Z']) = some n := by
  unfold readFraction DateTime.fraction
  split_ifs with hzero hhead hhead
  · simp at hhead
  · rw [hzero]
  · rw [List.cons_append, List.drop_one, List.tail_cons, digits_padded h]
    rfl
  · simp at hhead

/-- A number behind its separator. -/
theorem digits_field {k n : ℕ} (h : n < 10 ^ k) (separator : Char) (cs : List Char) :
    digits k ((separator :: (padded k n ++ cs)).drop 1) = some (n, cs) := by
  rw [List.drop_succ_cons, List.drop_zero, digits_padded h]

theorem readZulu_zuluChars (d : DateTime) : readZulu (zuluChars d) = some d := by
  have hyear : d.year < 10 ^ 4 := Nat.lt_succ_of_le d.year_bounds.2
  have hmonth : d.month < 10 ^ 2 := by
    have hmonth := d.month_bounds
    omega
  have hday : d.day < 10 ^ 2 := by
    have hday := d.day_lt
    omega
  have hhour : d.hour < 10 ^ 2 := by
    have hhour := d.hour_lt
    omega
  have hminute : d.minute < 10 ^ 2 := by
    have hminute := d.minute_lt
    omega
  have hsecond : d.second < 10 ^ 2 := by
    have hsecond := d.second_lt
    omega
  unfold readZulu zuluChars
  simp only [digits_padded hyear, digits_field hmonth, digits_field hday, digits_field hhour,
    digits_field hminute, digits_field hsecond, readFraction_fraction d.microsecond_lt, Option.bind_eq_bind,
    Option.bind_some]
  exact dif_pos ⟨d.year_bounds, d.month_bounds, d.day_bounds, d.hour_lt, d.minute_lt, d.second_lt,
    d.microsecond_lt⟩

/-- A reader of what Pydantic writes, and of nothing else. -/
def zuluCodec : Codec where
  dumpDatetime d := String.ofList (zuluChars d)
  readDatetime
    | .str s => (readZulu s.toList).map .utc
    | _ => none
  readInt
    | .num (.int n) => some n
    | _ => none
  readFloat
    | .num (.float f) => some f
    | _ => none
  readDatetime_dump t := by
    dsimp only
    rw [String.toList_ofList, readZulu_zuluChars]
    rfl
  readInt_int _ := rfl
  readFloat_float _ := rfl

end ApexChainx.Import
