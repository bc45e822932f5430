import ApexChainx.Core.DateTime
import ApexChainx.Lib.JsonDumps

/-!
# Streamed and buffered export of outages

`app/utils/exporter.py`, with the models of `app/models/outage.py`. `export_outages` writes all rows into one
buffer or hands them back as dictionaries; `stream_export_csv` and `stream_export_json` yield a chunk for each
row.

The chunks of the CSV stream make up the buffered text (`concat_streamExportCsv`). Those of the JSON stream make
up the array of the rows, when the rows can be written at all, and the array is a JSON document when no row has a
float in it that is not finite (`streamsAlike_iff`). Every row of the table is such a row
(`streamsAlike_of_table`).
-/

namespace ApexChainx.Outages.Export

open ApexChainx.Lib

/-! ## Outages -/

structure Location where
  latitude : FloatData
  longitude : FloatData

structure SLAStatus where
  status : String
  mttrMinutes : Option ℤ
  thresholdMinutes : ℤ
  timeRemainingMinutes : Option ℤ

/-- `Outage`; the times are in UTC. -/
structure Outage where
  id : String
  siteName : String
  siteId : Option String
  severity : String
  status : String
  detectedAt : DateTime
  resolvedAt : Option DateTime
  description : String
  affectedServices : List String
  affectedSubscribers : Option ℤ
  assignedTo : Option String
  createdBy : Option String
  location : Option Location
  slaStatus : Option SLAStatus

/-- What Pydantic makes of a float that is not finite (`ser_json_inf_nan`). -/
inductive InfNan
  /-- It hands the float on. -/
  | constants
  | null
  | strings
deriving DecidableEq, Repr

/-- What Pydantic's `model_dump(mode="json")` does with times and with floats that are not finite. -/
structure ModelDump where
  datetime : DateTime → String
  infNan : InfNan

def ModelDump.float (dump : ModelDump) : FloatData → JsonData
  | .finite x => .float (.finite x)
  | x =>
      match dump.infNan with
      | .constants => .float x
      | .null => .null
      | .strings => .str (String.ofList x.chars)

def optional {α : Type*} (f : α → JsonData) : Option α → JsonData
  | none => .null
  | some a => f a

/-- A dictionary with text keys, in the order of insertion. -/
abbrev Row : Type := List (String × JsonData)

/-- `row.get(key, default)`. -/
def Row.get (row : Row) (key : String) (default : JsonData) : JsonData := (row.lookup key).getD default

/-- `row[key] = value`, or an entry `key: value` of a display that starts with `**row`. -/
def Row.set (row : Row) (key : String) (value : JsonData) : Row :=
  if row.any fun entry => entry.1 = key then row.map fun entry => if entry.1 = key then (key, value) else entry
  else row ++ [(key, value)]

def Location.json (dump : ModelDump) (l : Location) : JsonData :=
  .dict [("latitude", dump.float l.latitude), ("longitude", dump.float l.longitude)]

def SLAStatus.json (s : SLAStatus) : JsonData :=
  .dict [("status", .str s.status), ("mttr_minutes", optional .int s.mttrMinutes),
    ("threshold_minutes", .int s.thresholdMinutes), ("time_remaining_minutes", optional .int s.timeRemainingMinutes)]

/-- `_serialize_outage`. -/
def serializeOutage (dump : ModelDump) (o : Outage) : Row :=
  [("id", .str o.id), ("site_name", .str o.siteName), ("site_id", optional .str o.siteId),
    ("severity", .str o.severity), ("status", .str o.status), ("detected_at", .str (dump.datetime o.detectedAt)),
    ("resolved_at", optional (fun t => .str (dump.datetime t)) o.resolvedAt), ("description", .str o.description),
    ("affected_services", .list (o.affectedServices.map .str)),
    ("affected_subscribers", optional .int o.affectedSubscribers), ("assigned_to", optional .str o.assignedTo),
    ("created_by", optional .str o.createdBy), ("location", optional (Location.json dump) o.location),
    ("sla_status", optional SLAStatus.json o.slaStatus)]

/-! ## Errors -/

inductive ExportError
  | valueError (message : String)
deriving DecidableEq, Repr

/-- The `ValueError` of `int.__repr__`. -/
def ExportError.tooManyDigits : ExportError :=
  .valueError ("Exceeds the limit (4300 digits) for integer string conversion; " ++
    "use sys.set_int_max_str_digits() to increase the limit")

/-- A text, if the integers in it have one. -/
def checkDigits {α : Type*} : Option α → Except ExportError α
  | some a => .ok a
  | none => .error .tooManyDigits

/-- `json.dumps`. -/
def dumps (d : JsonData) : Except ExportError String := (checkDigits d.dumps).map String.ofList

/-! ## CSV -/

/-- `CSV_FIELDNAMES`. -/
def csvFieldnames : List String :=
  ["id", "site_name", "site_id", "severity", "status", "detected_at", "resolved_at", "description",
    "affected_services", "affected_subscribers", "assigned_to", "created_by", "location", "sla_status"]

/-- A field of a record: in quotes when it has a comma, a quote or a part of a line end in it. -/
def csvField (field : String) : String :=
  if field.toList.any fun c => c = ',' || c = '"' || c = '\r' || c = '\n' then
    String.ofList ('"' :: ((field.toList.flatMap fun c => if c = '"' then ['"', '"'] else [c]) ++ ['"']))
  else field

/-- What `csv.writer` writes for the fields of a record. A record of one empty field is not left empty. -/
def csvRecord (fields : List String) : String :=
  (if fields = [""] then "\"\"" else ",".intercalate (fields.map csvField)) ++ "\r\n"

section Csv

-- `str` of a value that is neither `None` nor a text nor an integer
variable (str : JsonData → String)

/-- The field for a value. -/
def csvCell : JsonData → Except ExportError String
  | .null => .ok ""
  | .str s => .ok s
  | .int n => (checkDigits (intRepr n)).map String.ofList
  | d => .ok (str d)

/-- `DictWriter.writerow`, on what the buffer has so far. -/
def writerow (buffer : String) (row : Row) : Except ExportError String :=
  let wrongFields := (row.map Prod.fst).filter fun key => key ∉ csvFieldnames
  if wrongFields ≠ [] then
    .error (.valueError ("dict contains fields not in fieldnames: " ++
      ", ".intercalate (wrongFields.map fun key => "'" ++ key ++ "'")))
  else
    (csvFieldnames.mapM fun key => csvCell str (row.get key (.str ""))).map fun fields =>
      buffer ++ csvRecord fields

/-- `DictWriter.writeheader`. -/
def writeheader (buffer : String) : Except ExportError String :=
  writerow str buffer (csvFieldnames.map fun name => (name, .str name))

/-- The dictionary that is written for a row: three of its values are dumped. -/
def csvRow (row : Row) : Except ExportError Row := do
  let affectedServices ← dumps (row.get "affected_services" (.list []))
  let location ← dumps (row.get "location" .null)
  let slaStatus ← dumps (row.get "sla_status" .null)
  .ok (((row.set "affected_services" (.str affectedServices)).set "location" (.str location)).set "sla_status"
    (.str slaStatus))

/-- Write a row behind what the buffer has so far. -/
def writeRow (buffer : String) (row : Row) : Except ExportError String := do
  let row ← csvRow row
  writerow str buffer row

/-! ## Buffered -/

inductive Exported
  | rows (rows : List Row)
  | text (csv : String)

/-- `export_outages`. Of the letters outside ASCII none has a lower case that is in the name of a format. -/
def exportOutages (dump : ModelDump) (outages : List Outage) (format : String) : Except ExportError Exported :=
  let format := format.toLower
  let rows := outages.map (serializeOutage dump)
  if format = "json" then .ok (.rows rows)
  else if format ≠ "csv" then .error (.valueError "Unsupported export format. Use 'json' or 'csv'.")
  else do
    let buffer ← writeheader str ""
    let buffer ← rows.foldlM (writeRow str) buffer
    .ok (.text buffer)

/-! ## Streamed -/

/-- What a generator yields, and how it ends. -/
structure Chunks where
  chunks : List String
  ended : Except ExportError Unit

namespace Chunks

def done : Chunks := ⟨[], .ok ()⟩

def raise (e : ExportError) : Chunks := ⟨[], .error e⟩

/-- Yield a chunk and go on. -/
def yield (chunk : String) (later : Chunks) : Chunks := ⟨chunk :: later.chunks, later.ended⟩

/-- Yield what was computed, or stop with its error. -/
def yieldResult (result : Except ExportError String) (later : Chunks) : Chunks :=
  match result with
  | .ok chunk => yield chunk later
  | .error e => raise e

/-- The chunks in one text. -/
def concat (s : Chunks) : Except ExportError String := s.ended.map fun _ => String.join s.chunks

end Chunks

/-- The rows of `stream_export_csv`, each in a buffer of its own. -/
def streamCsvRows (dump : ModelDump) : List Outage → Chunks
  | [] => .done
  | o :: outages => .yieldResult (writeRow str "" (serializeOutage dump o)) (streamCsvRows dump outages)

/-- `stream_export_csv`. -/
def streamExportCsv (dump : ModelDump) (outages : List Outage) : Chunks :=
  .yieldResult (writeheader str "") (streamCsvRows str dump outages)

end Csv

/-- The rows of `stream_export_json`, and the closing bracket. -/
def streamJsonRows (dump : ModelDump) : Bool → List Outage → Chunks
  | _, [] => .yield "]" .done
  | first, o :: outages =>
      -- the comma is out before the row is dumped
      let row := Chunks.yieldResult (dumps (.dict (serializeOutage dump o))) (streamJsonRows dump false outages)
      if first then row else .yield "," row

/-- `stream_export_json`. -/
def streamExportJson (dump : ModelDump) (outages : List Outage) : Chunks :=
  .yield "[" (streamJsonRows dump true outages)

/-! ## Chunks -/

namespace Chunks

variable {chunk : String} {later : Chunks}

theorem concat_yield : (yield chunk later).concat = later.concat.map (chunk ++ ·) := by
  unfold concat yield
  cases later.ended with
  | error e => rfl
  | ok _ => exact congrArg Except.ok String.join_cons

theorem concat_yieldResult {result : Except ExportError String} :
    (yieldResult result later).concat = result >>= fun chunk => later.concat.map (chunk ++ ·) := by
  cases result with
  | error e => rfl
  | ok chunk => exact concat_yield

end Chunks

section Csv

variable {str : JsonData → String} {dump : ModelDump}

/-- What is written does not depend on what the buffer has. -/
theorem writerow_buffer (buffer : String) (row : Row) :
    writerow str buffer row = (writerow str "" row).map (buffer ++ ·) := by
  unfold writerow
  dsimp only
  split_ifs
  · rfl
  · cases csvFieldnames.mapM fun key => csvCell str (row.get key (.str "")) with
    | error e => rfl
    | ok fields => simp [Except.map]

theorem writeRow_buffer (buffer : String) (row : Row) :
    writeRow str buffer row = (writeRow str "" row).map (buffer ++ ·) := by
  unfold writeRow
  cases csvRow row with
  | error e => rfl
  | ok row => exact writerow_buffer buffer row

/-- The rows that are written into one buffer are the chunks, one behind the other. -/
theorem foldlM_writeRow (outages : List Outage) (buffer : String) :
    (outages.map (serializeOutage dump)).foldlM (writeRow str) buffer =
      (streamCsvRows str dump outages).concat.map (buffer ++ ·) := by
  induction outages generalizing buffer with
  | nil =>
      change Except.ok buffer = Except.ok (buffer ++ "")
      rw [String.append_empty]
  | cons o outages ih =>
      rw [List.map_cons, List.foldlM_cons, streamCsvRows, Chunks.concat_yieldResult, writeRow_buffer]
      cases writeRow str "" (serializeOutage dump o) with
      | error e => rfl
      | ok chunk =>
          -- the others find the chunk in the buffer, behind what was there
          change List.foldlM (writeRow str) (buffer ++ chunk) _ = ((streamCsvRows str dump outages).concat.map _).map _
          rw [ih]
          cases (streamCsvRows str dump outages).concat with
          | error e => rfl
          | ok text => exact congrArg Except.ok String.append_assoc

theorem toLower_csv : "csv".toLower = "csv" :=
  String.toList_injective (by rw [String.toLower, String.toList_map]; rfl)

/-- The chunks of the CSV stream make up the text of the buffered export, and it fails where that does. -/
theorem concat_streamExportCsv (outages : List Outage) :
    (streamExportCsv str dump outages).concat.map Exported.text = exportOutages str dump outages "csv" := by
  have hjson : "csv" ≠ "json" := by decide
  simp only [exportOutages, toLower_csv, if_neg hjson, ne_eq, not_true_eq_false, if_false]
  rw [streamExportCsv, Chunks.concat_yieldResult]
  cases writeheader str "" with
  | error e => rfl
  | ok header =>
      change ((streamCsvRows str dump outages).concat.map _).map _ = (List.foldlM (writeRow str) header _) >>= _
      rw [foldlM_writeRow]
      cases (streamCsvRows str dump outages).concat with
      | error e => rfl
      | ok text => rfl

end Csv

section Json

variable {dump : ModelDump}

/-- The dictionaries of the rows. -/
def rowData (dump : ModelDump) (outages : List Outage) : List JsonData :=
  outages.map fun o => .dict (serializeOutage dump o)

theorem rowData_cons (o : Outage) (outages : List Outage) :
    rowData dump (o :: outages) = .dict (serializeOutage dump o) :: rowData dump outages := rfl

/-- Behind the first row each of the others has its comma in front of it. -/
theorem concat_streamJsonRows (outages : List Outage) :
    (streamJsonRows dump false outages).concat =
      (checkDigits (JsonData.dumpsItems (rowData dump outages))).map fun texts =>
        String.ofList ((texts.flatMap fun text => ',' :: text) ++ [']']) := by
  induction outages with
  | nil => rfl
  | cons o outages ih =>
      rw [streamJsonRows, if_neg Bool.false_ne_true, Chunks.concat_yield, Chunks.concat_yieldResult, ih, dumps,
        rowData_cons, JsonData.dumpsItems]
      cases (JsonData.dict (serializeOutage dump o)).dumps with
      | none => rfl
      | some text =>
          cases JsonData.dumpsItems (rowData dump outages) with
          | none => rfl
          | some texts =>
              refine congrArg Except.ok (String.toList_injective ?_)
              simp

/-- The chunks of the JSON stream make up the array of the rows, if each of them has a text. -/
theorem concat_streamExportJson (outages : List Outage) :
    (streamExportJson dump outages).concat =
      (checkDigits (JsonData.dumpsItems (rowData dump outages))).map fun texts =>
        String.ofList ('[' :: (separated [] texts ++ [']'])) := by
  rw [streamExportJson, Chunks.concat_yield]
  cases outages with
  | nil => rfl
  | cons o outages =>
      rw [streamJsonRows, if_pos rfl, Chunks.concat_yieldResult, concat_streamJsonRows, dumps, rowData_cons,
        JsonData.dumpsItems]
      cases (JsonData.dict (serializeOutage dump o)).dumps with
      | none => rfl
      | some text =>
          cases JsonData.dumpsItems (rowData dump outages) with
          | none => rfl
          | some texts =>
              refine congrArg Except.ok (String.toList_injective ?_)
              simp [separated_cons]

/-! ## Rows that can be written -/

/-- The value of a row in a JSON document. -/
def Row.value (row : Row) : JsonValue := (JsonData.dict row).value

def SLAStatus.integers (s : SLAStatus) : List ℤ :=
  s.mttrMinutes.toList ++ s.thresholdMinutes :: s.timeRemainingMinutes.toList

def Outage.integers (o : Outage) : List ℤ :=
  o.affectedSubscribers.toList ++ o.slaStatus.toList.flatMap SLAStatus.integers

def Outage.coordinates (o : Outage) : List FloatData :=
  o.location.toList.flatMap fun l => [l.latitude, l.longitude]

/-- The integers of an outage have a text, and its coordinates are finite, if they are written as they are. -/
structure Exportable (dump : ModelDump) (o : Outage) : Prop where
  integers : ∀ n ∈ o.integers, HasText n
  coordinates : dump.infNan = .constants → ∀ x ∈ o.coordinates, x.isFinite = true

theorem forall_scalars_optional {α : Type*} {f : α → JsonData} {x : Option α} {P : JsonData → Prop} (hnull : P .null) :
    (∀ s ∈ (optional f x).scalars, P s) ↔ ∀ a ∈ x, ∀ s ∈ (f a).scalars, P s := by
  cases x with
  | none => simpa [optional, JsonData.scalars] using hnull
  | some a => simp [optional]

/-- A coordinate stands in the dictionary as it is, or else as null or as a text. -/
theorem forall_scalars_float {P : JsonData → Prop} (hnull : P .null) (hstr : ∀ s, P (.str s)) (x : FloatData) :
    (∀ s ∈ (dump.float x).scalars, P s) ↔ (x.isFinite = true ∨ dump.infNan = .constants → P (.float x)) := by
  cases x with
  | finite x => simp [ModelDump.float, JsonData.scalars, FloatData.isFinite]
  | nan => cases h : dump.infNan <;> simp [ModelDump.float, h, JsonData.scalars, FloatData.isFinite, hnull, hstr]
  | infinity negative =>
      cases h : dump.infNan <;> simp [ModelDump.float, h, JsonData.scalars, FloatData.isFinite, hnull, hstr]

theorem forall_scalars_texts {P : JsonData → Prop} (hstr : ∀ s, P (.str s)) (texts : List String) :
    ∀ s ∈ JsonData.itemScalars (texts.map .str), P s := by
  rw [JsonData.itemScalars_eq_flatMap, List.flatMap_map, List.forall_mem_flatMap]
  exact fun text _ => List.forall_mem_singleton.mpr (hstr text)

theorem forall_scalars_location {P : JsonData → Prop} (l : Location) :
    (∀ s ∈ (l.json dump).scalars, P s) ↔ ∀ x ∈ [l.latitude, l.longitude], ∀ s ∈ (dump.float x).scalars, P s := by
  simp only [Location.json, JsonData.scalars, JsonData.memberScalars, List.forall_mem_append, List.forall_mem_cons,
    List.not_mem_nil, false_imp_iff, implies_true]

theorem forall_scalars_slaStatus {P : JsonData → Prop} (hnull : P .null) (hstr : ∀ s, P (.str s)) (sla : SLAStatus) :
    (∀ s ∈ sla.json.scalars, P s) ↔ ∀ n ∈ sla.integers, P (.int n) := by
  simp only [SLAStatus.json, JsonData.scalars, JsonData.memberScalars, List.forall_mem_append,
    List.forall_mem_singleton, forall_scalars_optional hnull, hstr, SLAStatus.integers, List.forall_mem_cons,
    Option.mem_toList, Option.mem_def, List.not_mem_nil, false_imp_iff, implies_true, true_and, and_true]

/-- A row is made of its integers and coordinates, and of what is null or a text. -/
theorem forall_scalars_serializeOutage {P : JsonData → Prop} (hnull : P .null) (hstr : ∀ s, P (.str s)) (o : Outage) :
    (∀ s ∈ (JsonData.dict (serializeOutage dump o)).scalars, P s) ↔
      (∀ n ∈ o.integers, P (.int n)) ∧
        ∀ x ∈ o.coordinates, x.isFinite = true ∨ dump.infNan = .constants → P (.float x) := by
  have hservices := iff_true_intro (forall_scalars_texts hstr o.affectedServices)
  simp only [serializeOutage, JsonData.scalars, JsonData.memberScalars, List.forall_mem_append,
    List.forall_mem_singleton, forall_scalars_optional hnull, hstr, hservices, forall_scalars_location,
    forall_scalars_slaStatus hnull hstr, forall_scalars_float hnull hstr, Outage.integers, Outage.coordinates,
    List.forall_mem_flatMap, Option.mem_toList, Option.mem_def, List.not_mem_nil, false_imp_iff, implies_true,
    true_and, and_true]
  constructor
  · rintro ⟨hsubscribers, hlocation, hsla⟩
    exact ⟨⟨hsubscribers, hsla⟩, hlocation⟩
  · rintro ⟨⟨hsubscribers, hsla⟩, hlocation⟩
    exact ⟨hsubscribers, hlocation, hsla⟩

theorem fits_serializeOutage (o : Outage) :
    (∀ s ∈ (JsonData.dict (serializeOutage dump o)).scalars, s.Fits) ↔ ∀ n ∈ o.integers, HasText n := by
  rw [@forall_scalars_serializeOutage _ JsonData.Fits trivial (fun _ => trivial) o]
  exact and_iff_left fun _ _ _ => trivial

theorem finite_serializeOutage (o : Outage) :
    (∀ s ∈ (JsonData.dict (serializeOutage dump o)).scalars, s.Finite) ↔
      (dump.infNan = .constants → ∀ x ∈ o.coordinates, x.isFinite = true) := by
  rw [@forall_scalars_serializeOutage _ JsonData.Finite trivial (fun _ => trivial) o]
  constructor
  · rintro ⟨-, hfinite⟩ hconstants x hx
    exact hfinite x hx (.inr hconstants)
  · intro hfinite
    refine ⟨fun _ _ => trivial, fun x hx hwritten => ?_⟩
    rcases hwritten with hx' | hconstants
    · exact hx'
    · exact hfinite hconstants x hx

/-- The dictionaries of the rows can be written, and as JSON, exactly when the outages are exportable. -/
theorem exportable_iff (outages : List Outage) :
    ((JsonData.dumpsItems (rowData dump outages)).isSome = true ∧
      JsonValue.standardElements (JsonData.values (rowData dump outages)) = true) ↔
      ∀ o ∈ outages, Exportable dump o := by
  rw [JsonData.isSome_dumpsItems, JsonData.standard_values, JsonData.itemScalars_eq_flatMap, rowData,
    List.flatMap_map, List.forall_mem_flatMap, List.forall_mem_flatMap]
  simp only [fits_serializeOutage, finite_serializeOutage]
  constructor
  · rintro ⟨hintegers, hcoordinates⟩ o ho
    exact ⟨hintegers o ho, hcoordinates o ho⟩
  · intro h
    exact ⟨fun o ho => (h o ho).integers, fun o ho => (h o ho).coordinates⟩

theorem values_rowData (outages : List Outage) :
    JsonData.values (rowData dump outages) = (outages.map (serializeOutage dump)).map Row.value := by
  rw [JsonData.values_eq_map, rowData, List.map_map, List.map_map]
  rfl

end Json

/-- The streams say the same as the buffered export. -/
structure StreamsAlike (str : JsonData → String) (dump : ModelDump) (outages : List Outage) : Prop where
  csv : (streamExportCsv str dump outages).concat.map Exported.text = exportOutages str dump outages "csv"
  json : ∃ text rows, (streamExportJson dump outages).concat = .ok text ∧
    exportOutages str dump outages "json" = .ok (.rows rows) ∧ document text = some (.arr (rows.map Row.value))

theorem toLower_json : "json".toLower = "json" :=
  String.toList_injective (by rw [String.toLower, String.toList_map]; rfl)

/-- The buffered rows are not written, and there is nothing to fail. -/
theorem exportOutages_json (str : JsonData → String) (dump : ModelDump) (outages : List Outage) :
    exportOutages str dump outages "json" = .ok (.rows (outages.map (serializeOutage dump))) := by
  simp only [exportOutages, toLower_json, if_true]

/-- The chunks of the JSON stream are a document of the rows. -/
theorem streamedJson_iff {str : JsonData → String} {dump : ModelDump} {outages : List Outage} :
    (∃ text rows, (streamExportJson dump outages).concat = .ok text ∧
      exportOutages str dump outages "json" = .ok (.rows rows) ∧
      document text = some (.arr (rows.map Row.value))) ↔ ∀ o ∈ outages, Exportable dump o := by
  -- the text of the stream is that of the array of the rows
  have hdocument : ∀ texts, JsonData.dumpsItems (rowData dump outages) = some texts → ∀ v,
      document (String.ofList ('[' :: (separated [] texts ++ [']']))) = some v ↔
        JsonValue.arr ((outages.map (serializeOutage dump)).map Row.value) = v ∧
          JsonValue.standardElements (JsonData.values (rowData dump outages)) = true := by
    intro texts htexts v
    rw [(written_list (fun _ => rfl) (JsonData.written_dumpsItems htexts)).document, values_rowData, JsonValue.standard]
  rw [← exportable_iff, concat_streamExportJson]
  constructor
  · rintro ⟨text, rows, hconcat, -, hdoc⟩
    cases htexts : JsonData.dumpsItems (rowData dump outages) with
    | none =>
        rw [htexts] at hconcat
        cases hconcat
    | some texts =>
        rw [htexts] at hconcat
        obtain rfl := Except.ok.inj hconcat
        exact ⟨rfl, ((hdocument texts htexts _).mp hdoc).2⟩
  · rintro ⟨hsome, hstandard⟩
    obtain ⟨texts, htexts⟩ := Option.isSome_iff_exists.mp hsome
    have hdoc := (hdocument texts htexts _).mpr ⟨rfl, hstandard⟩
    exact ⟨_, _, by rw [htexts]; rfl, exportOutages_json str dump outages, hdoc⟩

/-- The streams say the same as the buffered export exactly of the outages that are exportable. -/
theorem streamsAlike_iff {str : JsonData → String} {dump : ModelDump} {outages : List Outage} :
    StreamsAlike str dump outages ↔ ∀ o ∈ outages, Exportable dump o :=
  ⟨fun h => streamedJson_iff.mp h.json, fun h => ⟨concat_streamExportCsv outages, streamedJson_iff.mpr h⟩⟩

/-! ## Rows of the table -/

/-- What a row of `outages` can hold. The column of the subscribers is an `Integer`. `location` and `sla_status` are
JSON columns: PostgreSQL takes no NaN and no infinity in them, and `json.loads` reads no longer integers back. -/
structure OfTable (o : Outage) : Prop where
  subscribers : ∀ n ∈ o.affectedSubscribers, -2 ^ 31 ≤ n ∧ n < 2 ^ 31
  slaStatus : ∀ s ∈ o.slaStatus, ∀ n ∈ s.integers, HasText n
  location : ∀ x ∈ o.coordinates, x.isFinite = true

/-- An `Integer` of PostgreSQL has a text. -/
theorem hasText_of_integer {n : ℤ} (hlow : -2 ^ 31 ≤ n) (hhigh : n < 2 ^ 31) : HasText n := by
  have habs : n.natAbs < 10 ^ 10 := by omega
  exact hasText_iff.mpr (habs.trans_le (Nat.pow_le_pow_right (by decide) (by decide)))

theorem OfTable.exportable {o : Outage} (dump : ModelDump) (h : OfTable o) : Exportable dump o := by
  refine ⟨fun n hn => ?_, fun _ => h.location⟩
  rw [Outage.integers, List.mem_append, List.mem_flatMap] at hn
  rcases hn with hsubscribers | ⟨s, hs, hn⟩
  · have hrange := h.subscribers n (Option.mem_toList.mp hsubscribers)
    exact hasText_of_integer hrange.1 hrange.2
  · exact h.slaStatus s (Option.mem_toList.mp hs) n hn

/-- The streams say the same as the buffered export of every sequence of rows of the table. -/
theorem streamsAlike_of_table {str : JsonData → String} {dump : ModelDump} {outages : List Outage}
    (h : ∀ o ∈ outages, OfTable o) : StreamsAlike str dump outages :=
  streamsAlike_iff.mpr fun o ho => (h o ho).exportable dump

/-- The outage of the schema's example, before it was resolved. -/
def exampleOutage : Outage where
  id := "outage-001"
  siteName := "Site A"
  siteId := some "site_1"
  severity := "high"
  status := "active"
  detectedAt := ⟨2023, 10, 1, 12, 0, 0, 0, by decide, by decide, by decide, by decide, by decide, by decide, by decide⟩
  resolvedAt := none
  description := "Fiber cut"
  affectedServices := ["4G"]
  affectedSubscribers := none
  assignedTo := none
  createdBy := some "user1"
  location := some
    { latitude := .finite ⟨⟨"40.7128".toList, by decide, by decide⟩, by decide⟩
      longitude := .finite ⟨⟨"-74.006".toList, by decide, by decide⟩, by decide⟩ }
  slaStatus := none

/-- Another one, with the column at its greatest value. -/
def countedOutage : Outage :=
  { exampleOutage with
    id := "outage-002", affectedSubscribers := some 2147483647, location := none,
    slaStatus := some ⟨"in_progress", none, 30, some 12⟩ }

theorem streamsAlike_of_table_two :
    StreamsAlike (fun _ => "") ⟨fun _ => "2023-10-01T12:00:00Z", .constants⟩ [exampleOutage, countedOutage] := by
  refine streamsAlike_of_table fun o ho => ?_
  rcases List.mem_pair.mp ho with rfl | rfl
  · exact ⟨by simp [exampleOutage], by simp [exampleOutage], by decide⟩
  · exact ⟨by simp [countedOutage], by simp [countedOutage, SLAStatus.integers]; decide, by decide⟩

end ApexChainx.Outages.Export
