import Mathlib.Data.Fin.Basic
import ApexChainx.Jobs.Status
import ApexChainx.Lib.Paging
import ApexChainx.Outages.Cursor
import ApexChainx.Sla.Snapshot

/-!
# The list of jobs

`list_jobs` (`app/api/v1/endpoints/jobs.py`): jobs ordered by their time of creation and then their id, both
descending, with a cursor that compares the same pair. How the database reads the two texts of a cursor is a
parameter.

`listJobs_complete`: when it reads them as the values they print, the pages that follow each other by their
cursors are the filtered table in that order.
-/

namespace ApexChainx.Listing

open ApexChainx.Lib

/-! ## Rows -/

/-- A `UUID`; the database compares it as a number. -/
abbrev Uuid := Fin (2 ^ 128)

/-- Hexadecimal digits of a number, the last `width` of them. -/
def hexChars : ℕ → ℕ → List Char
  | 0, _ => []
  | width + 1, n => hexChars width (n / 16) ++ [hexDigit (n % 16)]

/-- `str` of a `UUID`. -/
def uuidText (id : Uuid) : String :=
  String.ofList (hexChars 8 (id.val / 16 ^ 24) ++ '-' :: (hexChars 4 (id.val / 16 ^ 20) ++ '-' ::
    (hexChars 4 (id.val / 16 ^ 16) ++ '-' :: (hexChars 4 (id.val / 16 ^ 12) ++ '-' :: hexChars 12 id.val))))

/-- `datetime.isoformat` of a time without an offset. -/
def naiveText (d : DateTime) : String := String.ofList (Sla.naiveIsoChars d)

/-- `Job`; `updated_at` is not listed. In a column of JSON, null is `None`. -/
structure JobRow where
  id : Uuid
  celeryTaskId : String
  jobType : Jobs.JobType
  status : Jobs.JobStatus
  payload : JsonValue
  result : JsonValue
  error : Option String
  progress : ℚ
  progressDetails : JsonValue
  partialResults : JsonValue
  perItemErrors : JsonValue
  retryCount : ℕ
  maxRetries : ℕ
  lastRetriedAt : Option DateTime
  startedAt : Option DateTime
  finishedAt : Option DateTime
  createdAt : DateTime

/-- `JobResponse`. -/
structure JobResponse where
  id : Uuid
  celeryTaskId : String
  jobType : Jobs.JobType
  status : Jobs.JobStatus
  progress : ℚ
  progressDetails : Option (List (String × JsonValue))
  partialResults : Option (List (String × JsonValue))
  perItemErrors : Option (List (String × JsonValue))
  payload : Option (List (String × JsonValue))
  result : Option (List (String × JsonValue))
  error : Option String
  retryCount : ℕ
  maxRetries : ℕ
  lastRetriedAt : Option String
  startedAt : Option String
  finishedAt : Option String
  createdAt : String

/-- `_parse_job_json`: a text that is not JSON is `None`. -/
def parseJobJson : JsonValue → JsonValue
  | .str text => (loads text).getD .null
  | value => value

/-- A field `dict | None` of a response. -/
def dictOrNone (field : String) : JsonValue → Outcome (Option (List (String × JsonValue)))
  | .null => .ok none
  | .obj members => .ok (some members)
  | _ => .error (.valueError (field ++ ": Input should be a valid dictionary"))

/-- `_serialize_job`. -/
def serializeJob (job : JobRow) : Outcome JobResponse :=
  match dictOrNone "progress_details" job.progressDetails with
  | .error e => .error e
  | .ok progressDetails =>
  match dictOrNone "partial_results" job.partialResults with
  | .error e => .error e
  | .ok partialResults =>
  match dictOrNone "per_item_errors" job.perItemErrors with
  | .error e => .error e
  | .ok perItemErrors =>
  match dictOrNone "payload" (parseJobJson job.payload) with
  | .error e => .error e
  | .ok payload =>
  match dictOrNone "result" (parseJobJson job.result) with
  | .error e => .error e
  | .ok result =>
      .ok
        { id := job.id
          celeryTaskId := job.celeryTaskId
          jobType := job.jobType
          status := job.status
          progress := job.progress
          progressDetails := progressDetails
          partialResults := partialResults
          perItemErrors := perItemErrors
          payload := payload
          result := result
          error := job.error
          retryCount := job.retryCount
          maxRetries := job.maxRetries
          lastRetriedAt := job.lastRetriedAt.map naiveText
          startedAt := job.startedAt.map naiveText
          finishedAt := job.finishedAt.map naiveText
          createdAt := naiveText job.createdAt }

/-- A JSON object, or nothing. -/
def IsDict (value : JsonValue) : Prop := value = .null ∨ ∃ members, value = .obj members

/-- The table `jobs`. `id` is its primary key. -/
structure JobTable where
  rows : List JobRow
  primaryKey : rows.Pairwise (·.id ≠ ·.id)

/-- What the tasks and requests put into the columns of JSON are objects; only a text that does not parse can be
there instead, in `payload` and `result`. -/
def StoresObjects (table : JobTable) : Prop :=
  ∀ job ∈ table.rows, IsDict job.progressDetails ∧ IsDict job.partialResults ∧ IsDict job.perItemErrors ∧
    IsDict (parseJobJson job.payload) ∧ IsDict (parseJobJson job.result)

/-! ## The endpoint -/

/-- What the listing leaves to the database: which values it reads in texts that are compared with a
timestamp and with a `UUID`. -/
structure TextReading where
  readTimestamp : String → Option ℤ
  readUuid : String → Option Uuid

/-- `job_type` and `status`. -/
structure JobFilter where
  jobType : Option Jobs.JobType
  status : Option Jobs.JobStatus

def JobFilter.matches (filter : JobFilter) (job : JobRow) : Bool :=
  filter.jobType.all (job.jobType = ·) && filter.status.all (job.status = ·)

/-- `order_by(Job.created_at.desc(), Job.id.desc())`: `a` does not come after `b`. -/
def listedBefore (a b : JobRow) : Prop :=
  b.createdAt.ticks < a.createdAt.ticks ∨ a.createdAt.ticks = b.createdAt.ticks ∧ b.id ≤ a.id

instance : DecidableRel listedBefore := fun _ _ => inferInstanceAs (Decidable (_ ∨ _))

/-- The jobs that a filter selects, in the order of the query. -/
def orderedJobs (table : JobTable) (selects : JobRow → Bool) : List JobRow :=
  (table.rows.filter selects).insertionSort listedBefore

/-- The filter of a decoded cursor. The database refuses a value that is no text, or no text of the column's
type. -/
def jobCursorFilter (db : TextReading) : Option (JsonValue × JsonValue) → Outcome (JobRow → Bool)
  | none => .ok fun _ => true
  | some (.str cursorId, .str cursorCreatedAt) =>
      match db.readTimestamp cursorCreatedAt, db.readUuid cursorId with
      | some createdAt, some id =>
          .ok fun job => job.createdAt.ticks < createdAt || (job.createdAt.ticks = createdAt && job.id < id)
      | _, _ => .error (.dataError "cursor")
  | some _ => .error (.dataError "cursor")

/-- `[_serialize_job(j) for j in items]`. -/
def serializeJobs : List JobRow → Outcome (List JobResponse)
  | [] => .ok []
  | job :: jobs =>
      match serializeJob job with
      | .error e => .error e
      | .ok response =>
          match serializeJobs jobs with
          | .error e => .error e
          | .ok responses => .ok (response :: responses)

/-- `CursorPage`. -/
structure JobPage where
  items : List JobResponse
  nextCursor : Option String
  hasMore : Bool

/-- The cursor behind a job. -/
def jobCursor (job : JobRow) : String := Outages.encodeCursor (uuidText job.id) (naiveText job.createdAt)

/-- `list_jobs`. -/
def listJobs (db : TextReading) (table : JobTable) (filter : JobFilter) (limit : ℕ) (cursor : Option String) :
    Outcome JobPage :=
  match Outages.decodeCursor cursor with
  | .error e => .error e
  | .ok decoded =>
      match jobCursorFilter db decoded with
      | .error e => .error e
      | .ok selects =>
          let items := (orderedJobs table fun job => filter.matches job && selects job).take (limit + 1)
          let hasMore := limit < items.length
          let nextCursor := if hasMore then (items.take limit).getLast?.map jobCursor else none
          match serializeJobs (items.take limit) with
          | .error e => .error e
          | .ok responses => .ok ⟨responses, nextCursor, hasMore⟩

/-- The pages that follow each other by their cursors, up to the first without more; `none` when a request
fails or `fuel` requests are not enough. -/
def followJobs (db : TextReading) (table : JobTable) (filter : JobFilter) (limit : ℕ) :
    ℕ → Option String → Option (List (List JobResponse))
  | 0, _ => none
  | fuel + 1, cursor =>
      match listJobs db table filter limit cursor with
      | .error _ => none
      | .ok page =>
          if page.hasMore then
            (followJobs db table filter limit fuel page.nextCursor).map (page.items :: ·)
          else some [page.items]

/-! ## The order of the listing -/

/-- Strictly before: `(created_at, id)` is larger. -/
def Newer (a b : JobRow) : Prop :=
  b.createdAt.ticks < a.createdAt.ticks ∨ a.createdAt.ticks = b.createdAt.ticks ∧ b.id < a.id

instance : DecidableRel Newer := fun _ _ => inferInstanceAs (Decidable (_ ∨ _))

theorem listedBefore_total (a b : JobRow) : listedBefore a b ∨ listedBefore b a := by
  rcases lt_trichotomy a.createdAt.ticks b.createdAt.ticks with h | h | h
  · exact .inr (.inl h)
  · exact (le_total b.id a.id).imp (fun hid => .inr ⟨h, hid⟩) (fun hid => .inr ⟨h.symm, hid⟩)
  · exact .inl (.inl h)

theorem listedBefore_trans {a b c : JobRow} (hab : listedBefore a b) (hbc : listedBefore b c) :
    listedBefore a c := by
  unfold listedBefore at *
  rcases hab with hab | ⟨hab, hid⟩
  · exact .inl (by omega)
  · rw [hab]
    exact hbc.imp id fun h => ⟨h.1, h.2.trans hid⟩

instance : Std.Total listedBefore := ⟨listedBefore_total⟩

instance : IsTrans JobRow listedBefore := ⟨fun _ _ _ => listedBefore_trans⟩

theorem newer_irrefl (a : JobRow) : ¬ Newer a a := by
  rintro (h | ⟨-, h⟩)
  · exact lt_irrefl _ h
  · exact lt_irrefl _ h

theorem newer_trans {a b c : JobRow} (hab : Newer a b) (hbc : Newer b c) : Newer a c := by
  unfold Newer at *
  rcases hab with hab | ⟨hab, hid⟩
  · exact .inl (by omega)
  · rw [hab]
    exact hbc.imp id fun h => ⟨h.1, h.2.trans hid⟩

variable {table : JobTable}

theorem orderedJobs_perm (selects : JobRow → Bool) :
    (orderedJobs table selects).Perm (table.rows.filter selects) := List.perm_insertionSort _ _

/-- No two jobs are tied, since their ids differ. -/
theorem pairwise_orderedJobs (selects : JobRow → Bool) : (orderedJobs table selects).Pairwise Newer := by
  have hsorted : (orderedJobs table selects).Pairwise listedBefore := List.pairwise_insertionSort _ _
  have hids : (orderedJobs table selects).Pairwise (·.id ≠ ·.id) := by
    refine (List.Perm.pairwise_iff ?_ (orderedJobs_perm selects)).mpr (table.primaryKey.filter selects)
    exact fun {a b} hne => hne.symm
  refine hsorted.imp₂ ?_ hids
  intro a b hab hne
  exact hab.imp id fun h => ⟨h.1, lt_of_le_of_ne h.2 hne.symm⟩

/-- Filtering and ordering can be exchanged. -/
theorem orderedJobs_and (selects further : JobRow → Bool) :
    orderedJobs table (fun job => selects job && further job)
      = (orderedJobs table selects).filter further := by
  have hfilter : table.rows.filter (fun job => selects job && further job)
      = (table.rows.filter selects).filter further := by
    rw [List.filter_filter]
    exact List.filter_congr fun job _ => Bool.and_comm _ _
  have hperm : (orderedJobs table fun job => selects job && further job).Perm
      ((orderedJobs table selects).filter further) := by
    refine (orderedJobs_perm _).trans ?_
    rw [hfilter]
    exact ((orderedJobs_perm selects).filter further).symm
  refine hperm.eq_of_pairwise ?_ (pairwise_orderedJobs _) ((pairwise_orderedJobs _).filter further)
  intro a b _ _ hab hba
  exact absurd (newer_trans hab hba) (newer_irrefl a)

/-! ## One request -/

/-- What the cursor behind a job selects. -/
def afterJob (c job : JobRow) : Bool := decide (Newer c job)

/-- What a request with the cursor behind a job selects from. -/
def jobSelection (table : JobTable) (filter : JobFilter) : Option JobRow → List JobRow
  | none => orderedJobs table filter.matches
  | some c => (orderedJobs table filter.matches).filter (afterJob c)

/-- The database reads the texts of the jobs in a table as the values they print. -/
def ReadsCursors (db : TextReading) (table : JobTable) : Prop :=
  ∀ job ∈ table.rows, db.readTimestamp (naiveText job.createdAt) = some job.createdAt.ticks ∧
    db.readUuid (uuidText job.id) = some job.id

/-- The answer shows the job. -/
def Serializes (response : JobResponse) (job : JobRow) : Prop := serializeJob job = .ok response

theorem dictOrNone_of_isDict {value : JsonValue} (h : IsDict value) (field : String) :
    ∃ members, dictOrNone field value = .ok members := by
  rcases h with rfl | ⟨members, rfl⟩
  · exact ⟨none, rfl⟩
  · exact ⟨some members, rfl⟩

theorem StoresObjects.serializes (hstores : StoresObjects table) {job : JobRow} (hjob : job ∈ table.rows) :
    ∃ response, Serializes response job := by
  obtain ⟨hdetails, hpartial, herrors, hpayload, hresult⟩ := hstores job hjob
  obtain ⟨_, hdetails⟩ := dictOrNone_of_isDict hdetails "progress_details"
  obtain ⟨_, hpartial⟩ := dictOrNone_of_isDict hpartial "partial_results"
  obtain ⟨_, herrors⟩ := dictOrNone_of_isDict herrors "per_item_errors"
  obtain ⟨_, hpayload⟩ := dictOrNone_of_isDict hpayload "payload"
  obtain ⟨_, hresult⟩ := dictOrNone_of_isDict hresult "result"
  simp only [Serializes, serializeJob, hdetails, hpartial, herrors, hpayload, hresult, Outcome.ok.injEq,
    exists_eq']

theorem serializeJobs_of_mem (hstores : StoresObjects table) (jobs : List JobRow) (h : ∀ job ∈ jobs, job ∈ table.rows) :
    ∃ responses, serializeJobs jobs = .ok responses ∧ List.Forall₂ Serializes responses jobs := by
  induction jobs with
  | nil => exact ⟨[], rfl, .nil⟩
  | cons job jobs ih =>
      obtain ⟨responses, hresponses, hshows⟩ := ih fun j hj => h j (List.mem_cons_of_mem job hj)
      obtain ⟨response, hresponse⟩ := hstores.serializes (h job List.mem_cons_self)
      refine ⟨response :: responses, ?_, .cons hresponse hshows⟩
      rw [Serializes] at hresponse
      simp only [serializeJobs, hresponse, hresponses]

theorem jobCursorFilter_jobCursor {db : TextReading} (hreads : ReadsCursors db table) {c : JobRow}
    (hc : c ∈ table.rows) :
    jobCursorFilter db (some (.str (uuidText c.id), .str (naiveText c.createdAt))) = .ok (afterJob c) := by
  obtain ⟨htime, hid⟩ := hreads c hc
  simp only [jobCursorFilter, htime, hid]
  congr 1
  funext job
  rw [Bool.eq_iff_iff, afterJob, decide_eq_true_eq, Newer]
  simp only [Bool.or_eq_true, Bool.and_eq_true, decide_eq_true_eq, @eq_comm ℤ job.createdAt.ticks]

theorem mem_rows_of_mem_jobSelection {filter : JobFilter} {boundary : Option JobRow} {job : JobRow}
    (h : job ∈ jobSelection table filter boundary) : job ∈ table.rows := by
  have hordered : job ∈ orderedJobs table filter.matches := by
    cases boundary with
    | none => exact h
    | some c => exact List.mem_of_mem_filter h
  exact List.mem_of_mem_filter ((orderedJobs_perm _).mem_iff.mp hordered)

/-- A request shows the first jobs that it selects. -/
theorem listJobs_boundary {db : TextReading} (hstores : StoresObjects table) (hreads : ReadsCursors db table)
    (filter : JobFilter) (limit : ℕ) {boundary : Option JobRow} (hboundary : ∀ c ∈ boundary, c ∈ table.rows) :
    ∃ page, listJobs db table filter limit (boundary.map jobCursor) = .ok page ∧
      List.Forall₂ Serializes page.items ((jobSelection table filter boundary).take limit) ∧
      page.hasMore = decide (limit < (jobSelection table filter boundary).length) ∧
      page.nextCursor = if limit < (jobSelection table filter boundary).length then
        ((jobSelection table filter boundary).take limit).getLast?.map jobCursor else none := by
  obtain ⟨decoded, selects, hdecoded, hselects, hordered⟩ :
      ∃ decoded selects, Outages.decodeCursor (boundary.map jobCursor) = .ok decoded ∧
        jobCursorFilter db decoded = .ok selects ∧
        orderedJobs table (fun job => filter.matches job && selects job) = jobSelection table filter boundary := by
    cases boundary with
    | none =>
        refine ⟨none, _, rfl, rfl, ?_⟩
        simp only [Bool.and_true, jobSelection]
    | some c =>
        exact ⟨_, _, Outages.decodeCursor_encodeCursor _ _, jobCursorFilter_jobCursor hreads (hboundary c rfl),
          orderedJobs_and _ _⟩
  set W := jobSelection table filter boundary with hW
  have htake : (W.take (limit + 1)).take limit = W.take limit := by
    rw [List.take_take, Nat.min_eq_left (Nat.le_succ limit)]
  have hmore : limit < (W.take (limit + 1)).length ↔ limit < W.length := by
    rw [List.length_take]
    omega
  obtain ⟨responses, hresponses, hshows⟩ := serializeJobs_of_mem hstores (W.take limit)
    fun job hjob => mem_rows_of_mem_jobSelection (List.mem_of_mem_take hjob)
  unfold listJobs
  simp only [hdecoded, hselects, hordered, htake, hresponses, hmore]
  exact ⟨_, rfl, hshows, rfl, rfl⟩

/-! ## Following the cursors -/

/-- The requests read the list page by page. -/
theorem followJobs_of_collect {db : TextReading} (hstores : StoresObjects table) (hreads : ReadsCursors db table)
    (filter : JobFilter) {limit : ℕ} (hlimit : 1 ≤ limit) {fuel : ℕ} (boundary : Option JobRow)
    {pages : List (List JobRow)}
    (hboundary : ∀ c ∈ boundary, c ∈ table.rows)
    (h : Paging.collect (orderedJobs table filter.matches) afterJob limit fuel
      (jobSelection table filter boundary) = some pages) :
    ∃ answers, followJobs db table filter limit fuel (boundary.map jobCursor) = some answers ∧
      List.Forall₂ Serializes answers.flatten pages.flatten := by
  induction fuel generalizing boundary pages with
  | zero => cases h
  | succ fuel ih =>
      obtain ⟨page, hpage, hitems, hmore, hnext⟩ := listJobs_boundary hstores hreads filter limit hboundary
      set W := jobSelection table filter boundary with hW
      rcases Nat.lt_or_ge limit W.length with hlt | hle
      · obtain ⟨c, hc, hcollect⟩ :=
          Paging.collect_of_lt_length (orderedJobs table filter.matches) afterJob fuel hlimit hlt
        rw [hcollect, Option.map_eq_some_iff] at h
        obtain ⟨rest, hrest, rfl⟩ := h
        have hlast : (W.take limit).getLast? = some c := by
          rw [← hc, List.getLast?_eq_getElem?, List.length_take, Nat.min_eq_left (by omega), List.getElem?_take,
            if_pos (by omega)]
        have hrow : ∀ d ∈ some c, d ∈ table.rows := by
          intro d hd
          obtain rfl := Option.some.inj hd
          exact mem_rows_of_mem_jobSelection (List.mem_of_getElem? hc)
        obtain ⟨answers, hanswers, hshows⟩ := ih (some c) hrow hrest
        rw [if_pos hlt, hlast] at hnext
        refine ⟨page.items :: answers, ?_, ?_⟩
        · simp only [followJobs, hpage, hmore, decide_eq_true hlt, if_true, hnext]
          rw [hanswers, Option.map_some]
        · rw [List.flatten_cons, List.flatten_cons]
          exact List.rel_append hitems hshows
      · rw [Paging.collect_of_length_le hle, Option.some.injEq] at h
        subst h
        rw [List.take_of_length_le hle] at hitems
        refine ⟨[page.items], ?_, by simpa using hitems⟩
        simp only [followJobs, hpage, hmore, decide_eq_false (Nat.not_lt.mpr hle), Bool.false_eq_true, if_false]

/-- The pages that follow each other by their cursors come to an end, and show the jobs that the filter
selects, each exactly once and newest first. -/
theorem listJobs_complete {db : TextReading} (hstores : StoresObjects table) (hreads : ReadsCursors db table)
    (filter : JobFilter) {limit : ℕ} (hlimit : 1 ≤ limit) :
    ∃ fuel pages, followJobs db table filter limit fuel none = some pages ∧
      ∃ jobs, jobs.Perm (table.rows.filter filter.matches) ∧ jobs.Pairwise Newer ∧
        List.Forall₂ Serializes pages.flatten jobs := by
  have hpairs : (orderedJobs table filter.matches).Pairwise fun a b => afterJob a b = true :=
    (pairwise_orderedJobs _).imp fun h => decide_eq_true h
  have hirrefl : ∀ job, afterJob job job = false := fun job => decide_eq_false (newer_irrefl job)
  have htrans : ∀ a b c, afterJob a b = true → afterJob b c = true → afterJob a c = true := fun a b c hab hbc =>
    decide_eq_true (newer_trans (of_decide_eq_true hab) (of_decide_eq_true hbc))
  obtain ⟨pages, hpages, hflatten⟩ := Paging.exists_collect_flatten hlimit hirrefl htrans hpairs
  obtain ⟨answers, hanswers, hshows⟩ := followJobs_of_collect hstores hreads filter hlimit none
    (fun c hc => by cases hc) hpages
  rw [hflatten] at hshows
  exact ⟨_, answers, hanswers, _, orderedJobs_perm _, pairwise_orderedJobs _, hshows⟩

/-! ## Samples -/

/-- A database that reads a timestamp as UTC, and a `UUID` by its hexadecimal digits. -/
def plainReading : TextReading where
  readTimestamp text := (fromisoformat (text ++ "+00:00")).map IsoTime.ticks
  readUuid text :=
    ((text.toList.filter (· ≠ '-')).mapM readHexDigit).map fun digits =>
      Fin.ofNat (2 ^ 128) (digits.foldl (fun n digit => 16 * n + digit) 0)

theorem valid_submittedAt : DateTime.Valid 2026 1 2 3 4 5 0 := by decide

/-- A computation that is pending. -/
def pendingJob (n : ℕ) : JobRow where
  id := Fin.ofNat (2 ^ 128) n
  celeryTaskId := "task"
  jobType := .slaComputation
  status := .pending
  payload := .obj [("device_id", .str "dev-1"), ("period", .str "2026-01")]
  result := .null
  error := none
  progress := 0
  progressDetails := .null
  partialResults := .null
  perItemErrors := .null
  retryCount := 0
  maxRetries := 3
  lastRetriedAt := none
  startedAt := none
  finishedAt := none
  createdAt := .ofValid valid_submittedAt

/-- Three jobs made at one time. -/
def pendingJobs : JobTable where
  rows := [pendingJob 1, pendingJob (2 ^ 100), pendingJob 2]
  primaryKey := by decide

example : uuidText (pendingJob (2 ^ 100)).id = "00000010-0000-0000-0000-000000000000" := by decide

theorem storesObjects_pendingJobs : StoresObjects pendingJobs := by
  intro job hjob
  simp only [pendingJobs, List.mem_cons, List.not_mem_nil, or_false] at hjob
  rcases hjob with rfl | rfl | rfl <;> exact ⟨.inl rfl, .inl rfl, .inl rfl, .inr ⟨_, rfl⟩, .inl rfl⟩

theorem readsCursors_pendingJobs : ReadsCursors plainReading pendingJobs := by
  have htime : plainReading.readTimestamp (naiveText (.ofValid valid_submittedAt))
      = some (DateTime.ofValid valid_submittedAt).ticks := by
    decide
  intro job hjob
  simp only [pendingJobs, List.mem_cons, List.not_mem_nil, or_false] at hjob
  rcases hjob with rfl | rfl | rfl <;> exact ⟨htime, by decide⟩

/-- The jobs of one time in pages of one. -/
theorem pendingJobs_complete :
    ∃ fuel pages, followJobs plainReading pendingJobs ⟨some .slaComputation, none⟩ 1 fuel none = some pages ∧
      ∃ jobs, jobs.Perm (pendingJobs.rows.filter (JobFilter.matches ⟨some .slaComputation, none⟩)) ∧
        jobs.Pairwise Newer ∧ List.Forall₂ Serializes pages.flatten jobs :=
  listJobs_complete storesObjects_pendingJobs readsCursors_pendingJobs ⟨some .slaComputation, none⟩ (Nat.le_refl 1)

end ApexChainx.Listing
