import Mathlib.Data.List.GetD
import ApexChainx.Jobs.Status

/-!
# Retrying a job

`retry_job` (`app/api/v1/endpoints/jobs.py`) as one request that nobody disturbs, with what it sends to
Celery: Celery compares the arguments of a call with the signature of the task before it publishes it, by
their names, while their types are the worker's concern. The changes of the job wait in the session until
something commits it, and `enqueue_bulk_sla_computation` (`app/tasks/sla_tasks.py`) does.

The audit log's event, which is committed before, is left out.
-/

namespace ApexChainx.Jobs

/-! ## Calls of tasks -/

/-- A value of a stored payload. -/
inductive Value
  | text (s : String)
  | texts (l : List String)
deriving DecidableEq, Repr

/-- `Job.payload`, a dictionary. -/
abbrev PayloadDict := List (String × Value)

/-- An argument of a task. -/
inductive Arg
  | none
  | value (v : Value)
  | dict (d : PayloadDict)
deriving DecidableEq, Repr

/-- The annotation of a parameter: `str`, `str | None` or `list[str]`. -/
inductive ParamType
  | str
  | optionalStr
  | strList
deriving DecidableEq, Repr

/-- The argument has the annotated type. -/
def ParamType.admits : ParamType → Arg → Bool
  | .str, .value (.text _) => true
  | .optionalStr, .value (.text _) => true
  | .optionalStr, .none => true
  | .strList, .value (.texts _) => true
  | _, _ => false

structure Param where
  name : String
  type : ParamType
  required : Bool
deriving DecidableEq, Repr

/-- The tasks that `retry_job` publishes. -/
inductive TaskName
  | computeSlaForDevice
  | computeBulkSla
  | dispatchWebhookDelivery
deriving DecidableEq, Repr

/-- The parameters of a task, `self` apart. -/
def TaskName.signature : TaskName → List Param
  | .computeSlaForDevice =>
      [⟨"device_id", .str, true⟩, ⟨"period", .str, true⟩, ⟨"correlation_id", .optionalStr, false⟩]
  | .computeBulkSla => [⟨"device_ids", .strList, true⟩, ⟨"period", .str, true⟩]
  | .dispatchWebhookDelivery => [⟨"delivery_id", .str, true⟩]

/-- A published task, and its state in the result backend. -/
structure Message where
  task : TaskName
  args : List Arg
  kwargs : List (String × Arg)
  state : CeleryState
deriving DecidableEq, Repr

/-- The arguments under the names of the parameters. -/
def Message.bound (m : Message) : List (String × Arg) :=
  (m.task.signature.map Param.name).zip m.args ++ m.kwargs

/-- `check_arguments`: the arguments fit the signature, whatever their types are. -/
def Message.binds (m : Message) : Bool :=
  m.args.length ≤ m.task.signature.length && (m.bound.map Prod.fst).Nodup &&
    m.kwargs.all (fun a => m.task.signature.any (·.name = a.1)) &&
    m.task.signature.all fun p => !p.required || m.bound.any (·.1 = p.name)

/-- The task takes its arguments: they fit the signature, with the annotated types. -/
def Message.accepted (m : Message) : Bool :=
  m.binds && m.bound.all fun a => m.task.signature.any fun p => p.name = a.1 && p.type.admits a.2

/-! ## Rows -/

/-- A row of `jobs`, as far as a retry is concerned. -/
structure JobRow where
  celeryTaskId : ℕ
  jobType : JobType
  status : JobStatus
  payload : PayloadDict
  error : Option String
  progress : ℚ
  retryCount : ℕ
  maxRetries : ℕ
  lastRetriedAt : Option ℤ
  startedAt : Option ℤ
  finishedAt : Option ℤ
deriving DecidableEq, Repr

/-- The jobs in the order of `created_at`, and what was published; a task's number is its id. -/
structure Store where
  jobs : List JobRow
  tasks : List Message
deriving DecidableEq, Repr

/-- What surrounds a request: the time, `get_correlation_id()`, whether another session holds the lock for
five seconds, whether the broker refuses a message, and whether the database fails at the commit. -/
structure RetryEnv where
  now : ℤ
  correlationId : Option String
  lockHeld : Bool
  brokerDown : Bool
  commitFails : Bool
deriving DecidableEq, Repr

/-- `payload.get(key)`. -/
def PayloadDict.get? (d : PayloadDict) (key : String) : Option Value := (d.find? (·.1 = key)).map Prod.snd

/-- `payload.get(key, default)`. -/
def PayloadDict.get (d : PayloadDict) (key : String) (default : Value) : Value := (d.get? key).getD default

/-- `sorted(value)`: of a text, its characters. -/
def Value.sorted : Value → List String
  | .texts ids => ids.insertionSort (· ≤ ·)
  | .text s => (s.toList.map fun c => String.ofList [c]).insertionSort (· ≤ ·)

/-- The member `correlation_id`, if it is truthy. -/
def correlationMember (correlationId : Option String) : PayloadDict :=
  match correlationId with
  | none => []
  | some id => if id = "" then [] else [("correlation_id", .text id)]

/-- What `enqueue_sla_computation` stores. -/
def devicePayload (deviceId period : String) (correlationId : Option String) : PayloadDict :=
  [("device_id", .text deviceId), ("period", .text period)] ++ correlationMember correlationId

/-- What `enqueue_bulk_sla_computation` stores. -/
def bulkPayload (deviceIds : Value) (period : Value) (correlationId : Option String) : PayloadDict :=
  [("device_ids", deviceIds), ("period", period)] ++ correlationMember correlationId

def kwargsOf (d : PayloadDict) : List (String × Arg) := d.map fun member => (member.1, .value member.2)

namespace Store

/-- `delay` or `apply_async`: the id of the task. -/
def publish (env : RetryEnv) (s : Store) (task : TaskName) (args : List Arg) (kwargs : List (String × Arg)) :
    Outcome ℕ × Store :=
  let m : Message := ⟨task, args, kwargs, .pending⟩
  if !m.binds then (.error (.typeError "missing or unexpected argument"), s)
  else if env.brokerDown then (.error (.databaseError "broker"), s)
  else (.ok s.tasks.length, { s with tasks := s.tasks ++ [m] })

/-- Another row than `j` is bound to the task. -/
def bound (s : Store) (j t : ℕ) : Bool := s.jobs.zipIdx.any fun row => row.2 ≠ j && row.1.celeryTaskId = t

/-- The commit of row `j`. -/
def commitJob (env : RetryEnv) (s : Store) (j : ℕ) (row : JobRow) : Outcome Unit × Store :=
  if env.commitFails then (.error (.databaseError "commit"), s)
  else if s.bound j row.celeryTaskId then (.error (.integrityError "jobs_celery_task_id_key"), s)
  else (.ok (), { s with jobs := s.jobs.set j row })

/-- `_find_inflight_sla_job`, for a bulk computation. -/
def findInflight (s : Store) (deviceIds period : Value) : Option JobRow :=
  let candidates := s.jobs.reverse.filter fun row =>
    row.jobType = .bulkSlaComputation ∧ (row.status = .pending ∨ row.status = .started)
  (candidates.take 50).find? fun row =>
    (row.payload.get "device_ids" (.texts [])).sorted = deviceIds.sorted ∧
      row.payload.get? "period" = some period ∧
      ((s.tasks[row.celeryTaskId]?.map Message.state).getD .pending).inflight

end Store

/-- The row after the changes that wait in the session. -/
def JobRow.reset (row : JobRow) (now : ℤ) : JobRow :=
  { row with
    retryCount := row.retryCount + 1
    lastRetriedAt := some now
    error := none
    status := .pending
    progress := 0
    startedAt := none
    finishedAt := none }

/-- The row that a computation is stored as. -/
def JobRow.new (task : ℕ) (jobType : JobType) (payload : PayloadDict) : JobRow :=
  ⟨task, jobType, .pending, payload, none, 0, 0, 3, none, none, none⟩

/-- `enqueue_bulk_sla_computation` in a session that holds the changed row `j`: the id of the task, of a job
in flight or of a new one. The commit takes the row along. -/
def enqueueBulk (env : RetryEnv) (j : ℕ) (row : JobRow) (deviceIds period : Value) (s : Store) :
    Outcome ℕ × Store :=
  let payload := bulkPayload deviceIds period env.correlationId
  let body : Outcome ℕ × Store :=
    match s.findInflight deviceIds period with
    | some existing => (.ok existing.celeryTaskId, s)
    | none =>
        match s.publish env .computeBulkSla [] (kwargsOf payload) with
        | (.error e, s) => (.error e, s)
        | (.ok task, s) =>
            match s.commitJob env j row with
            | (.error e, s) => (.error e, s)
            | (.ok (), s) =>
                (.ok task, { s with jobs := s.jobs ++ [.new task .bulkSlaComputation payload] })
  if env.lockHeld then (.error (.transient "Could not acquire lock"), s) else (body.1.locked, body.2)

/-- What the `except` clauses answer, after the rollback. -/
def retryFailed : ApiError → ApiError
  | .valueError detail => .http 400 ("Failed to retry job due to invalid payload: " ++ detail)
  | .typeError detail => .http 400 ("Failed to retry job due to invalid payload: " ++ detail)
  | e => .http 500 ("Failed to retry job: " ++ e.detail)

/-- The tail of `retry_job`: the new task and the commit. -/
def rebind (env : RetryEnv) (j : ℕ) (row : JobRow) : Outcome ℕ × Store → Outcome Unit × Store
  | (.error e, s) => (.error (retryFailed e), s)
  | (.ok task, s) =>
      match s.commitJob env j { row with celeryTaskId := task } with
      | (.error e, s) => (.error (retryFailed e), s)
      | (.ok (), s) => (.ok (), s)

/-- `retry_job`. -/
def retryJob (env : RetryEnv) (j : ℕ) (s : Store) : Outcome Unit × Store :=
  match s.jobs[j]? with
  | none => (.error (.http 404 "Job not found."), s)
  | some row =>
      if row.status ≠ .failure ∧ row.status ≠ .revoked then
        (.error (.http 400 ("Cannot retry job with status '" ++ row.status.value ++
          "'. Only FAILED or REVOKED jobs can be retried.")), s)
      else if row.maxRetries ≤ row.retryCount then
        (.error (.http 400 ("Job has exceeded maximum retry limit (" ++ toString row.maxRetries ++
          "). Current retry count: " ++ toString row.retryCount)), s)
      else
        let changed := row.reset env.now
        match row.jobType with
        | .slaComputation =>
            rebind env j changed (s.publish env .computeSlaForDevice []
              [("device_id", .value (row.payload.get "device_id" (.text ""))),
                ("period", .value (row.payload.get "period" (.text ""))),
                ("correlation_id", (env.correlationId.map fun id => .value (.text id)).getD .none)])
        | .bulkSlaComputation =>
            rebind env j changed (enqueueBulk env j changed (row.payload.get "device_ids" (.texts []))
              (row.payload.get "period" (.text "")) s)
        | .webhookDispatch =>
            rebind env j changed (s.publish env .dispatchWebhookDelivery [.dict row.payload] [])

/-! ## All or nothing -/

/-- What the enqueue functions store under a job type; `enqueue_sla_computation` is given the type. -/
inductive StoredPayload : JobType → PayloadDict → Prop
  | device (jobType deviceId period correlationId) :
      StoredPayload jobType (devicePayload deviceId period correlationId)
  | bulk (deviceIds period correlationId) :
      StoredPayload .bulkSlaComputation (bulkPayload (.texts deviceIds) (.text period) correlationId)

theorem StoredPayload.of_slaComputation {payload : PayloadDict}
    (h : StoredPayload .slaComputation payload) :
    ∃ deviceId period correlationId, payload = devicePayload deviceId period correlationId := by
  cases h with
  | device _ deviceId period correlationId => exact ⟨deviceId, period, correlationId, rfl⟩

/-- `celery_task_id` is unique, and names what was published. -/
structure Store.Bound (s : Store) : Prop where
  unique : (s.jobs.map JobRow.celeryTaskId).Nodup
  published : ∀ row ∈ s.jobs, row.celeryTaskId < s.tasks.length

/-- The job is pending again, bound to a new task that takes its arguments and that is no other job's. -/
def Retried (before : JobRow) (j : ℕ) (s s' : Store) : Prop :=
  ∃ row m, s'.jobs[j]? = some row ∧ row.status = .pending ∧ row.retryCount = before.retryCount + 1 ∧
    s.tasks.length ≤ row.celeryTaskId ∧ s'.tasks[row.celeryTaskId]? = some m ∧ m.accepted = true ∧
    s'.bound j row.celeryTaskId = false

/-- The answer is 202 and the job was retried, or it is an error and nothing has changed. -/
structure AllOrNothing (before : JobRow) (j : ℕ) (s : Store) (answer : Outcome Unit × Store) : Prop where
  accepted : answer.1 = .ok () → Retried before j s answer.2
  refused : ∀ e, answer.1 = .error e → answer.2 = s

/-- A computation for one device whose commit succeeds, or a bulk computation that is refused before a task
is published: since the lock is held, since a job in flight is found, whose task the retried job cannot have as
well, or since the call names a correlation id, which the bulk task does not take. Webhook deliveries are given
the payload in place of an id. -/
def RetrySafe (env : RetryEnv) (s : Store) (row : JobRow) : Prop :=
  env.brokerDown = true ∨
    match row.jobType with
    | .slaComputation => env.commitFails = false
    | .bulkSlaComputation =>
        env.lockHeld = true ∨ correlationMember env.correlationId ≠ [] ∨
          (s.findInflight (row.payload.get "device_ids" (.texts []))
            (row.payload.get "period" (.text ""))).isSome = true
    | .webhookDispatch => False

section

variable {env : RetryEnv} {s : Store} {j : ℕ} {row : JobRow} {task : TaskName} {args : List Arg}
  {kwargs : List (String × Arg)}

theorem bound_eq_false_iff {t : ℕ} :
    s.bound j t = false ↔ ∀ i row, s.jobs[i]? = some row → row.celeryTaskId = t → i = j := by
  unfold Store.bound
  rw [List.any_eq_false]
  constructor
  · intro h i row hrow ht
    by_contra hne
    have hmem : (row, i) ∈ s.jobs.zipIdx := List.mem_zipIdx_iff_getElem?.mpr hrow
    exact h _ hmem (by simp [hne, ht])
  · rintro h ⟨row, i⟩ hmem hbound
    simp only [ne_eq, Bool.and_eq_true, decide_eq_true_eq] at hbound
    exact hbound.1 (h i row (List.mem_zipIdx_iff_getElem?.mp hmem) hbound.2)

/-- A task that has just been published is no job's. -/
theorem bound_published (h : s.Bound) (j : ℕ) : s.bound j s.tasks.length = false := by
  rw [bound_eq_false_iff]
  intro i row hrow ht
  have hlt := h.published row (List.mem_of_getElem? hrow)
  omega

/-- Two rows with one task are the same row. -/
theorem index_unique (h : s.Bound) {i k : ℕ} {a b : JobRow} (hi : s.jobs[i]? = some a)
    (hk : s.jobs[k]? = some b) (htask : a.celeryTaskId = b.celeryTaskId) : i = k := by
  have hlt : i < (s.jobs.map JobRow.celeryTaskId).length := by
    rw [List.length_map]
    exact (List.getElem?_eq_some_iff.mp hi).1
  refine (List.getElem?_inj hlt h.unique).mp ?_
  rw [List.getElem?_map, List.getElem?_map, hi, hk, Option.map_some, Option.map_some, htask]

/-- A row that was added is another row than `j`. -/
theorem bound_added {jobs : List JobRow} (hlt : j < jobs.length) (new : JobRow) (tasks : List Message) :
    Store.bound ⟨jobs ++ [new], tasks⟩ j new.celeryTaskId = true := by
  by_contra hnot
  have hlast := bound_eq_false_iff.mp (Bool.not_eq_true _ ▸ hnot) jobs.length new
    List.getElem?_concat_length rfl
  omega

theorem allOrNothing_error (row : JobRow) (j : ℕ) (s : Store) (e : ApiError) :
    AllOrNothing row j s (.error e, s) where
  accepted := nofun
  refused _ _ := rfl

/-- An error after a task was published. -/
theorem not_allOrNothing_error {s' : Store} (hlength : s.tasks.length < s'.tasks.length) (e : ApiError) :
    ¬ AllOrNothing row j s (.error e, s') := by
  intro h
  have hsame : s' = s := h.refused e rfl
  rw [hsame] at hlength
  exact Nat.lt_irrefl _ hlength

theorem allOrNothing_ok_iff {s' : Store} : AllOrNothing row j s (.ok (), s') ↔ Retried row j s s' :=
  ⟨fun h => h.accepted rfl, fun h => ⟨fun _ => h, nofun⟩⟩

/-- The job bound to the task that was just published. -/
theorem retried_published_iff (h : s.Bound) (hj : s.jobs[j]? = some row) (m : Message) (now : ℤ) :
    Retried row j s
        ⟨s.jobs.set j { row.reset now with celeryTaskId := s.tasks.length }, s.tasks ++ [m]⟩ ↔
      m.accepted = true := by
  have hlt : j < s.jobs.length := (List.getElem?_eq_some_iff.mp hj).1
  have hrow : (s.jobs.set j { row.reset now with celeryTaskId := s.tasks.length })[j]? =
      some { row.reset now with celeryTaskId := s.tasks.length } := List.getElem?_set_self hlt
  have htask : (s.tasks ++ [m])[s.tasks.length]? = some m := List.getElem?_concat_length
  constructor
  · rintro ⟨row', m', hrow', -, -, -, hm', haccepted, -⟩
    obtain rfl := Option.some.inj (hrow.symm.trans hrow')
    obtain rfl := Option.some.inj (htask.symm.trans hm')
    exact haccepted
  · intro haccepted
    refine ⟨_, m, hrow, rfl, rfl, Nat.le_refl _, htask, haccepted, ?_⟩
    rw [bound_eq_false_iff]
    intro i other hother ht
    by_contra hne
    rw [List.getElem?_set_ne (Ne.symm hne)] at hother
    exact hne (bound_eq_false_iff.mp (bound_published h j) i other hother ht)

/-- A retry with a task of its own: it is published, and the commit binds it. -/
theorem rebind_publish (h : s.Bound) (hj : s.jobs[j]? = some row)
    (hbinds : (Message.mk task args kwargs .pending).binds = true) (now : ℤ) :
    AllOrNothing row j s (rebind env j (row.reset now) (s.publish env task args kwargs)) ↔
      env.brokerDown = true ∨
        env.commitFails = false ∧ (Message.mk task args kwargs .pending).accepted = true := by
  unfold Store.publish
  simp only [hbinds, Bool.not_true, Bool.false_eq_true, if_false]
  by_cases hdown : env.brokerDown = true
  · rw [if_pos hdown]
    exact iff_of_true (allOrNothing_error row j s _) (.inl hdown)
  · rw [if_neg hdown]
    unfold rebind Store.commitJob
    by_cases hfails : env.commitFails = true
    · simp only [hfails, if_true]
      refine iff_of_false (not_allOrNothing_error (by simp) _) ?_
      simp [hdown]
    · have hfresh : Store.bound { s with tasks := s.tasks ++ [⟨task, args, kwargs, .pending⟩] } j
          s.tasks.length = false := bound_published h j
      simp only [hfails, Bool.false_eq_true, if_false, hfresh]
      rw [allOrNothing_ok_iff, retried_published_iff h hj]
      simp [hdown]

theorem mem_of_findInflight {deviceIds period : Value} {existing : JobRow}
    (h : s.findInflight deviceIds period = some existing) :
    existing ∈ s.jobs ∧ (existing.status = .pending ∨ existing.status = .started) := by
  have hmem := List.mem_of_mem_take (List.mem_of_find?_eq_some h)
  rw [List.mem_filter, List.mem_reverse] at hmem
  exact ⟨hmem.1, (of_decide_eq_true hmem.2).2⟩

/-- Celery refuses the call of the bulk task exactly when it names a correlation id. -/
theorem binds_bulkPayload (deviceIds period : Value) (correlationId : Option String) :
    (Message.mk .computeBulkSla [] (kwargsOf (bulkPayload deviceIds period correlationId)) .pending).binds =
      decide (correlationMember correlationId = []) := by
  unfold correlationMember bulkPayload
  rcases correlationId with _ | id
  · rfl
  · by_cases hid : id = ""
    · simp only [correlationMember, if_pos hid]
      rfl
    · simp only [correlationMember, if_neg hid]
      rfl

/-- A retry of a bulk computation that publishes a task binds a new row to it, and then cannot bind its own. -/
theorem rebind_enqueueBulk (h : s.Bound) (hj : s.jobs[j]? = some row)
    (hstatus : row.status = .failure ∨ row.status = .revoked) (now : ℤ) (deviceIds period : Value) :
    AllOrNothing row j s
        (rebind env j (row.reset now) (enqueueBulk env j (row.reset now) deviceIds period s)) ↔
      env.brokerDown = true ∨ env.lockHeld = true ∨ correlationMember env.correlationId ≠ [] ∨
        (s.findInflight deviceIds period).isSome = true := by
  unfold enqueueBulk
  by_cases hlock : env.lockHeld = true
  · rw [if_pos hlock]
    exact iff_of_true (allOrNothing_error row j s _) (.inr (.inl hlock))
  rw [if_neg hlock]
  cases hfind : s.findInflight deviceIds period with
  | some existing =>
      refine iff_of_true ?_ (.inr (.inr (.inr rfl)))
      obtain ⟨hmem, hactive⟩ := mem_of_findInflight hfind
      -- the job found is in flight, so it is not the one that is retried
      have hbound : s.bound j existing.celeryTaskId = true := by
        by_contra hnot
        obtain ⟨i, hi⟩ := List.getElem?_of_mem hmem
        obtain rfl := bound_eq_false_iff.mp (Bool.not_eq_true _ ▸ hnot) i existing hi rfl
        obtain rfl := Option.some.inj (hi.symm.trans hj)
        rcases hstatus with hs | hs
        · simp [hs] at hactive
        · simp [hs] at hactive
      unfold rebind Store.commitJob Outcome.locked
      by_cases hfails : env.commitFails = true
      · simp only [hfails, if_true]
        exact allOrNothing_error row j s _
      · simp only [hfails, Bool.false_eq_true, if_false, hbound, if_true]
        exact allOrNothing_error row j s _
  | none =>
      unfold Store.publish
      simp only [binds_bulkPayload, Option.isSome_none, Bool.false_eq_true, or_false]
      by_cases hid : correlationMember env.correlationId = []
      · simp only [hid, decide_true, Bool.not_true, Bool.false_eq_true, if_false]
        by_cases hdown : env.brokerDown = true
        · rw [if_pos hdown]
          exact iff_of_true (allOrNothing_error row j s _) (.inl hdown)
        -- the task is published; whatever happens now comes too late
        refine iff_of_false ?_ (by simp [hdown, hlock])
        rw [if_neg hdown]
        unfold rebind Store.commitJob
        by_cases hfails : env.commitFails = true
        · simp only [hfails, if_true, Outcome.locked]
          exact not_allOrNothing_error (by simp) _
        · have hown : Store.bound { s with tasks := s.tasks ++
              [⟨.computeBulkSla, [], kwargsOf (bulkPayload deviceIds period env.correlationId), .pending⟩] } j
              (row.reset now).celeryTaskId = false := by
            rw [bound_eq_false_iff]
            exact fun i other hother ht => index_unique h hother hj ht
          have hlt : j < (s.jobs.set j (row.reset now)).length := by
            rw [List.length_set]
            exact (List.getElem?_eq_some_iff.mp hj).1
          have hnew := fun tasks => bound_added hlt
            (.new s.tasks.length .bulkSlaComputation (bulkPayload deviceIds period env.correlationId)) tasks
          simp only [JobRow.new] at hnew
          simp only [hfails, Bool.false_eq_true, if_false, hown, Outcome.locked, JobRow.new, hnew,
            if_true]
          -- the new row has the task, and the commit of the retried one runs into the unique constraint
          exact not_allOrNothing_error (by simp) _
      · simp only [hid, decide_false, Bool.not_false, if_true, Outcome.locked]
        exact iff_of_true (allOrNothing_error row j s _) (.inr (.inr hid))

theorem get_device (deviceId period : String) (correlationId : Option String) (default : Value) :
    PayloadDict.get (devicePayload deviceId period correlationId) "device_id" default = .text deviceId := rfl

theorem get_period (deviceId period : String) (correlationId : Option String) (default : Value) :
    PayloadDict.get (devicePayload deviceId period correlationId) "period" default = .text period := rfl

/-- Retrying a job that failed or was revoked is all or nothing exactly when `RetrySafe` holds. -/
theorem retry_allOrNothing_iff (env : RetryEnv) (h : s.Bound) (hj : s.jobs[j]? = some row)
    (hstatus : row.status = .failure ∨ row.status = .revoked) (hleft : row.retryCount < row.maxRetries)
    (hstored : StoredPayload row.jobType row.payload) :
    AllOrNothing row j s (retryJob env j s) ↔ RetrySafe env s row := by
  have hallowed : ¬(row.status ≠ .failure ∧ row.status ≠ .revoked) := by
    rintro ⟨hfailure, hrevoked⟩
    exact hstatus.elim hfailure hrevoked
  unfold retryJob RetrySafe
  simp only [hj, if_neg hallowed, if_neg (Nat.not_le.mpr hleft)]
  cases htype : row.jobType with
  | slaComputation =>
      rw [htype] at hstored
      obtain ⟨deviceId, period, correlationId, hpayload⟩ := hstored.of_slaComputation
      dsimp only
      rw [hpayload, get_device, get_period, rebind_publish h hj rfl]
      have haccepted : (Message.mk .computeSlaForDevice [] [("device_id", .value (.text deviceId)),
          ("period", .value (.text period)),
          ("correlation_id", (env.correlationId.map fun id => Arg.value (.text id)).getD .none)]
          .pending).accepted = true := by
        cases env.correlationId with
        | none => rfl
        | some id => rfl
      rw [haccepted, eq_self, and_true]
  | bulkSlaComputation => exact rebind_enqueueBulk h hj hstatus env.now _ _
  | webhookDispatch =>
      dsimp only
      rw [rebind_publish h hj rfl]
      -- the one argument is a dictionary
      have haccepted : (Message.mk .dispatchWebhookDelivery [.dict row.payload] [] .pending).accepted =
          false := rfl
      simp [haccepted]

end

/-- A failed job, the first one, and its task. -/
def failedJob (jobType : JobType) (payload : PayloadDict) : Store where
  jobs := [{ JobRow.new 0 jobType payload with status := .failure, error := some "timeout", finishedAt := some 5 }]
  tasks := [⟨.computeSlaForDevice, [], [], .failure⟩]

def quietEnv (correlationId : Option String) : RetryEnv := ⟨10, correlationId, false, false, false⟩

/-- A computation for one device is retried. -/
theorem retry_device_allOrNothing :
    AllOrNothing { JobRow.new 0 .slaComputation (devicePayload "dev-1" "2026-01" none) with
        status := .failure, error := some "timeout", finishedAt := some 5 } 0
      (failedJob .slaComputation (devicePayload "dev-1" "2026-01" none))
      (retryJob (quietEnv none) 0 (failedJob .slaComputation (devicePayload "dev-1" "2026-01" none))) := by
  refine (retry_allOrNothing_iff (quietEnv none) ⟨?_, ?_⟩ rfl (.inl rfl) (by decide) (.device _ _ _ _)).mpr
    (.inr rfl)
  · exact List.nodup_singleton 0
  · intro row hrow
    rw [List.mem_singleton.mp hrow]
    exact Nat.zero_lt_one

/-- A webhook delivery is retried: the request is answered with 202, and the published task does not take the
dictionary it is given. A bulk computation is retried without a correlation id: the request fails, a task is
published, the job is pending, and a second job has the task. -/
theorem retry_not_allOrNothing :
    (let s := failedJob .webhookDispatch (devicePayload "dev-1" "2026-01" none)
      let answer := retryJob (quietEnv (some "req-1")) 0 s
      answer.1 = .ok () ∧ answer.2.tasks.map Message.accepted = [false, false] ∧
        ∀ row, ¬ AllOrNothing row 0 s answer) ∧
    (let s := failedJob .bulkSlaComputation (bulkPayload (.texts ["dev-1"]) (.text "2026-01") none)
      let answer := retryJob (quietEnv none) 0 s
      answer.1 = .error (.http 500 "Failed to retry job: jobs_celery_task_id_key") ∧
        answer.2.tasks.length = 2 ∧
        answer.2.jobs.map (fun row => (row.status, row.celeryTaskId)) = [(.pending, 0), (.pending, 1)] ∧
        ∀ row, ¬ AllOrNothing row 0 s answer) := by
  refine ⟨⟨by decide, by decide, fun row h => ?_⟩, by decide, by decide, by decide, fun row h => ?_⟩
  · obtain ⟨after, m, -, -, -, -, hm, haccepted, -⟩ := h.accepted (by decide)
    have hnone : ∀ m ∈ (retryJob (quietEnv (some "req-1")) 0 (failedJob .webhookDispatch
        (devicePayload "dev-1" "2026-01" none))).2.tasks, m.accepted = false := by decide
    exact Bool.false_ne_true ((hnone m (List.mem_of_getElem? hm)).symm.trans haccepted)
  · have hsame := h.refused (.http 500 "Failed to retry job: jobs_celery_task_id_key") (by decide)
    exact absurd (congrArg (fun s => s.tasks.length) hsame) (by decide)

end ApexChainx.Jobs
