import ApexChainx.Import.Validate
import ApexChainx.Lib.JsonReader

/-!
# Exporting outages

`app/utils/exporter.py`, up to the rows that a reader of the file gets back: `json.loads` the dictionaries
that were dumped, `csv.DictReader` the cells that were written. What the outage accepts of its own export is
read off here, field by field.
-/

namespace ApexChainx.Import

open ApexChainx.Lib ApexChainx.Sla ApexChainx.Settlement

def optionJson {α : Type*} (f : α → Value) : Option α → Value
  | none => .null
  | some a => f a

def Location.json (l : Location) : Value :=
  .obj [("latitude", .num (.float l.latitude)), ("longitude", .num (.float l.longitude))]

def resultStatusText : ResultStatus → String
  | .met => "met"
  | .violated => "violated"

def slaStatusJson (s : SLAStatus) : Value :=
  .obj [("status", .str (resultStatusText s.status)), ("mttr_minutes", .num (.int s.mttrMinutes)),
    ("threshold_minutes", .num (.int s.thresholdMinutes)), ("time_remaining_minutes", .null)]

/-- `_serialize_outage`, on the `Outage` of a row. -/
def serializeOutage (codec : Codec) (o : OutageRow) : Row :=
  [("id", .str o.id), ("site_name", .str o.siteName), ("site_id", optionJson .str o.siteId),
    ("severity", .str o.severity), ("status", .str o.status),
    ("detected_at", .str (codec.dumpDatetime o.detectedAt)),
    ("resolved_at", optionJson (fun t => .str (codec.dumpDatetime t)) o.resolvedAt),
    ("description", .str o.description), ("affected_services", .arr (o.affectedServices.map .str)),
    ("affected_subscribers", optionJson (fun n => .num (.int n)) o.affectedSubscribers),
    ("assigned_to", optionJson .str o.assignedTo), ("created_by", optionJson .str o.createdBy),
    ("location", optionJson Location.json o.location), ("sla_status", optionJson slaStatusJson o.slaStatus)]

/-- How a code point is written inside a string. -/
def escapeCodePoint (n : ℕ) : List Char := if n.isValidChar then escapeAscii (.ofNat n) else unicodeEscape n

mutual

/-- `json.dumps` with its default separators. -/
def dumps : Value → List Char
  | .null => "null".toList
  | .bool true => "true".toList
  | .bool false => "false".toList
  | .num n => n.chars
  | .str s => quoteAscii s
  | .halfStr codePoints => '"' :: (codePoints.flatMap escapeCodePoint ++ ['"'])
  | .arr [] => "[]".toList
  | .arr (x :: xs) => '[' :: (dumps x ++ dumpsItems xs)
  | .obj [] => ['\x7b', '\x7d']
  | .obj ((k, v) :: ms) => '\x7b' :: (quoteAscii k ++ ": ".toList ++ dumps v ++ dumpsMembers ms)

/-- The items after the first one, with the closing bracket. -/
def dumpsItems : List Value → List Char
  | [] => [']']
  | x :: xs => ", ".toList ++ dumps x ++ dumpsItems xs

/-- The members after the first one, with the closing brace. -/
def dumpsMembers : List (String × Value) → List Char
  | [] => ['\x7d']
  | (k, v) :: ms => ", ".toList ++ quoteAscii k ++ ": ".toList ++ dumps v ++ dumpsMembers ms

end

/-- What `csv.DictWriter` writes for a value: nothing for `None`, a string as it is. -/
def csvCell : Value → String
  | .null => ""
  | .str s => s
  | v => String.ofList (dumps v)

/-- The row that `stream_export_csv` writes: three of the fields are dumped first. -/
def csvRow (codec : Codec) (o : OutageRow) : Row :=
  (serializeOutage codec o).map fun (field, v) =>
    if field ∈ ["affected_services", "location", "sla_status"] then (field, .str (String.ofList (dumps v)))
    else (field, .str (csvCell v))

inductive ExportFormat
  | json
  | csv
deriving DecidableEq, Repr

/-- The rows of an exported file, as the import reads them. -/
def exportedRows (codec : Codec) : ExportFormat → List OutageRow → List Row
  | .json, outages => outages.map (serializeOutage codec)
  | .csv, outages => outages.map (csvRow codec)

/-! ## What the import makes of an exported row -/

variable {codec : Codec} {maxDetectedAt : DateTime} {o : OutageRow} {p : OutageCreate}

/-- No row of a CSV file has a list of services. -/
theorem outageCreate_csvRow : outageCreate codec maxDetectedAt (csvRow codec o) ≠ .ok p := by
  intro h
  obtain ⟨-, -, -, -, -, -, -, hservices, -⟩ := checkFields_eq_ok.mp (outageCreate_eq_ok.mp h)
  obtain ⟨v, hlookup, hv⟩ := required_eq_ok.mp hservices
  simp [csvRow, serializeOutage, List.lookup] at hlookup
  rw [← hlookup] at hv
  cases hv

/-- The columns of the row that a payload has are those of the payload. -/
structure Carries (p : OutageCreate) (o : OutageRow) : Prop where
  id : p.id = o.id
  siteName : p.siteName = o.siteName
  siteId : p.siteId = o.siteId
  severity : p.severity.value = o.severity
  status : p.status.value = o.status
  detectedAt : p.detectedAt = o.detectedAt
  description : p.description = o.description
  affectedServices : p.affectedServices = o.affectedServices
  affectedSubscribers : p.affectedSubscribers = o.affectedSubscribers
  assignedTo : p.assignedTo = o.assignedTo
  createdBy : p.createdBy = o.createdBy
  location : p.location = o.location

/-- What `OutageCreate` asks of the fields that an update can write. -/
structure Creatable (o : OutageRow) : Prop where
  siteName : o.siteName ≠ "" ∧ o.siteName.length ≤ maxSiteNameLength
  description : o.description ≠ "" ∧ o.description.length ≤ maxDescriptionLength
  affectedServices : o.affectedServices ≠ [] ∧ o.affectedServices.length ≤ maxAffectedServicesCount
  affectedSubscribers : ∀ n, o.affectedSubscribers = some n → 0 ≤ n

theorem required_of_lookup {α : Type*} {row : Row} {field : String} {check : Value → Checked α} {v : Value}
    (h : row.lookup field = some v) : required row field check = check v := by
  rw [required, h]

/-- A nullable column is read back if its value is. -/
theorem optional_of_lookup {α : Type*} {row : Row} {field : String} {check : Value → Checked α}
    {f : α → Value} {x : Option α} (h : row.lookup field = some (optionJson f x))
    (hnull : ∀ a, f a ≠ .null) (hcheck : ∀ a, check (f a) = .ok a) : optional row field check = .ok x := by
  unfold optional
  rw [h]
  cases x with
  | none => rfl
  | some a =>
      have hread := hcheck a
      have hne := hnull a
      unfold optionJson
      dsimp only
      revert hread hne
      cases f a with
      | null => exact fun _ hne => absurd rfl hne
      | _ =>
          intro hread _
          dsimp only
          rw [hread]
          rfl

theorem severity_eq_ok {field t : String} {s : Severity} :
    severity field (.str t) = .ok s ↔ s.value = t := by
  constructor
  · intro h
    unfold severity at h
    split at h
    all_goals cases h
    all_goals
      rename_i heq
      exact (Value.str.inj heq).symm
  · rintro rfl
    cases s
    all_goals rfl

theorem status_eq_ok {field t : String} {s : OutageStatus} : status field (.str t) = .ok s ↔ s.value = t := by
  constructor
  · intro h
    unfold status at h
    split at h
    all_goals cases h
    all_goals
      rename_i heq
      exact (Value.str.inj heq).symm
  · rintro rfl
    cases s
    all_goals rfl

theorem texts_strings (field : String) (i : ℕ) (xs : List String) :
    texts field i (xs.map .str) = .ok xs := by
  induction xs generalizing i with
  | nil => rfl
  | cons x xs ih =>
      rw [List.map_cons, texts, ih]
      rfl

theorem affectedServices_eq_ok {field : String} {xs ys : List String} :
    affectedServices field (.arr (xs.map .str)) = .ok ys ↔
      ys = xs ∧ xs ≠ [] ∧ xs.length ≤ maxAffectedServicesCount := by
  rw [affectedServices, texts_strings]
  dsimp only
  split
  · rename_i h
    exact iff_of_false nofun fun hok => hok.2.1 h
  · rename_i hne
    split
    · rename_i hlong
      exact iff_of_false nofun fun hok => absurd hok.2.2 (by omega)
    · rename_i hle
      rw [Checked.ok.injEq, and_iff_left ⟨hne, by omega⟩, eq_comm]

theorem nonnegative_eq_ok {field : String} {n m : ℤ} :
    nonnegative codec field (.num (.int n)) = .ok m ↔ m = n ∧ 0 ≤ n := by
  rw [nonnegative, codec.readInt_int]
  dsimp only
  split
  · rename_i h
    exact iff_of_false nofun fun hok => absurd hok.2 (by omega)
  · rename_i h
    rw [Checked.ok.injEq, and_iff_left (by omega), eq_comm]

theorem optional_nonnegative_eq_ok {row : Row} {field : String} {x y : Option ℤ}
    (h : row.lookup field = some (optionJson (fun n => .num (.int n)) x)) :
    optional row field (nonnegative codec field) = .ok y ↔ y = x ∧ ∀ n, x = some n → 0 ≤ n := by
  unfold optional
  rw [h]
  cases x with
  | none => simp [optionJson, eq_comm]
  | some n =>
      dsimp only [optionJson]
      cases hread : nonnegative codec field (.num (.int n)) with
      | error e =>
          refine iff_of_false nofun ?_
          rintro ⟨-, hpos⟩
          rw [nonnegative_eq_ok.mpr ⟨rfl, hpos n rfl⟩] at hread
          cases hread
      | ok m =>
          obtain ⟨rfl, hpos⟩ := nonnegative_eq_ok.mp hread
          simp [Checked.map, hpos, eq_comm]

theorem detectedAt_eq_ok {field : String} {t t' : DateTime} :
    detectedAt codec maxDetectedAt field (.str (codec.dumpDatetime t)) = .ok t' ↔
      t' = t ∧ t.ticks ≤ maxDetectedAt.ticks := by
  rw [detectedAt, codec.readDatetime_dump]
  dsimp only
  split
  · rename_i h
    exact iff_of_false nofun fun hok => absurd hok.2 (by omega)
  · rename_i h
    rw [Checked.ok.injEq, and_iff_left (by omega), eq_comm]

theorem location_json (field : String) (l : Location) : location codec field l.json = .ok l := by
  rw [Location.json, location, required_of_lookup rfl, required_of_lookup rfl, coordinate, coordinate,
    codec.readFloat_float, codec.readFloat_float]
  rfl

/-- The import reads an exported row as an outage with the same content, if the row passes the checks. -/
theorem outageCreate_serializeOutage (hid : o.id ≠ "") (htime : o.detectedAt.ticks ≤ maxDetectedAt.ticks) :
    outageCreate codec maxDetectedAt (serializeOutage codec o) = .ok p ↔ Carries p o ∧ Creatable o := by
  have hsiteId : optional (serializeOutage codec o) "site_id" (text "site_id") = .ok o.siteId :=
    optional_of_lookup rfl nofun fun _ => rfl
  have hassignedTo : optional (serializeOutage codec o) "assigned_to" (text "assigned_to") =
      .ok o.assignedTo := optional_of_lookup rfl nofun fun _ => rfl
  have hcreatedBy : optional (serializeOutage codec o) "created_by" (text "created_by") = .ok o.createdBy :=
    optional_of_lookup rfl nofun fun _ => rfl
  have hlocation : optional (serializeOutage codec o) "location" (location codec "location") =
      .ok o.location := optional_of_lookup rfl nofun (location_json "location")
  rw [outageCreate_eq_ok, checkFields_eq_ok, required_of_lookup rfl,
    required_of_lookup rfl, required_of_lookup rfl, required_of_lookup rfl, required_of_lookup rfl,
    required_of_lookup rfl, required_of_lookup rfl, hsiteId, hassignedTo, hcreatedBy, hlocation,
    optional_nonnegative_eq_ok rfl, nonemptyText_eq_ok, boundedText_eq_ok, severity_eq_ok, status_eq_ok,
    detectedAt_eq_ok, boundedText_eq_ok, affectedServices_eq_ok]
  simp only [Value.str.injEq, Checked.ok.injEq]
  constructor
  · rintro ⟨⟨h₁, -⟩, ⟨h₂, hname⟩, h₃, h₄, h₅, ⟨h₆, -⟩, ⟨h₇, htext⟩, ⟨h₈, hservices⟩, ⟨h₉, hpos⟩, h₁₀, h₁₁, h₁₂⟩
    have hcarries : Carries p o := ⟨h₁.symm, h₂.symm, h₃.symm, h₄, h₅, h₆, h₇.symm, h₈, h₉, h₁₀.symm, h₁₁.symm,
      h₁₂.symm⟩
    exact ⟨hcarries, h₂ ▸ hname, h₇ ▸ htext, hservices, hpos⟩
  · rintro ⟨h, hname, htext, hservices, hpos⟩
    exact ⟨⟨h.id.symm, h.id ▸ hid⟩, ⟨h.siteName.symm, h.siteName ▸ hname⟩, h.siteId.symm, h.severity, h.status,
      ⟨h.detectedAt, htime⟩, ⟨h.description.symm, h.description ▸ htext⟩, ⟨h.affectedServices, hservices⟩,
      ⟨h.affectedSubscribers, hpos⟩, h.assignedTo.symm, h.createdBy.symm, h.location.symm⟩

end ApexChainx.Import
