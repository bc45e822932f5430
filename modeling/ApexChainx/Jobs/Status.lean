import Mathlib.Data.Rat.Defs
import Mathlib.Algebra.Order.Ring.Unbundled.Rat
import Mathlib.Data.List.Sort
import ApexChainx.Core.Error
import ApexChainx.Lib.Table
import ApexChainx.Lib.Transition

/-!
# Jobs and their status

The writers of a job's status: the worker callbacks of `DatabaseTask` (`app/tasks/sla_tasks.py`), the
status poll, `cancel_job` and `retry_job` (`app/api/v1/endpoints/jobs.py`), cut at the statements they
send to the database, to Celery and to the status cache of their process. Between two of them the others
may move.

A request keeps a loaded row until a commit expires it; an `UPDATE` names the columns whose loaded value
changes, so it leaves the others to whatever is committed. `audit_log.log_event` commits, and the row is
read again afterwards. Sessions do not flush before a query.

Jobs and tasks are numbered in the order in which they are made, which is as good as their ids. Celery
delivers a task to a worker any number of times: at first, for an automatic retry, and again when a
worker is lost before it acknowledged the task. The columns that no status depends on and nothing here
reads (progress details, partial results, item errors) are left out.
-/

namespace ApexChainx.Jobs

open ApexChainx.Lib

/-! ## Rows and tasks -/

/-- `JobStatus`. -/
inductive JobStatus
  | pending
  | started
  | success
  | failure
  | revoked
deriving DecidableEq, Repr

/-- `JobStatus.value`. -/
def JobStatus.value : JobStatus → String
  | .pending => "pending"
  | .started => "started"
  | .success => "success"
  | .failure => "failure"
  | .revoked => "revoked"

/-- A member as an f-string writes it. -/
def JobStatus.formatted : JobStatus → String
  | .pending => "JobStatus.PENDING"
  | .started => "JobStatus.STARTED"
  | .success => "JobStatus.SUCCESS"
  | .failure => "JobStatus.FAILURE"
  | .revoked => "JobStatus.REVOKED"

/-- The statuses that polls and `cancel_job` leave alone. -/
def JobStatus.terminal : JobStatus → Bool
  | .pending => false
  | .started => false
  | .success => true
  | .failure => true
  | .revoked => true

/-- `JobType`. -/
inductive JobType
  | slaComputation
  | webhookDispatch
  | bulkSlaComputation
deriving DecidableEq, Repr

/-- `AsyncResult.state`; an unknown task is pending. -/
inductive CeleryState
  | pending
  | started
  | retry
  | success
  | failure
  | revoked
  | other (name : String)
deriving DecidableEq, Repr

/-- `celery_state_to_job_status`. -/
def celeryStateToJobStatus (state : CeleryState) (fallback : JobStatus) : JobStatus :=
  match state with
  | .pending => .pending
  | .started => .started
  | .retry => .started
  | .success => .success
  | .failure => .failure
  | .revoked => .revoked
  | .other _ => fallback

/-- `_INFLIGHT_CELERY_STATES`. -/
def CeleryState.inflight : CeleryState → Bool
  | .pending => true
  | .started => true
  | .retry => true
  | _ => false

/-- The input of a computation: one device, or several. -/
structure Payload where
  deviceIds : List String
  period : String
deriving DecidableEq, Repr

/-- A row of `jobs`. `retriedTo` records the task that the last retry made; no code reads it. -/
structure Job where
  celeryTaskId : ℕ
  jobType : JobType
  status : JobStatus
  payload : Payload
  result : Option String
  error : Option String
  progress : ℚ
  retryCount : ℕ
  maxRetries : ℕ
  lastRetriedAt : Option ℤ
  startedAt : Option ℤ
  finishedAt : Option ℤ
  retriedTo : Option ℕ
deriving DecidableEq, Repr

/-- A job as it is inserted. -/
def Job.new (celeryTaskId : ℕ) (jobType : JobType) (payload : Payload) : Job :=
  ⟨celeryTaskId, jobType, .pending, payload, none, none, 0, 0, 3, none, none, none, none⟩

/-- A task: its state in the result backend, and whether it was revoked. `failed` and `succeeded` record
that an attempt at it has; no code reads them. -/
structure Task where
  jobType : JobType
  state : CeleryState
  revoked : Bool
  failed : Bool
  succeeded : Bool
deriving DecidableEq, Repr

def Task.new (jobType : JobType) : Task := ⟨jobType, .pending, false, false, false⟩

/-- An entry of `_job_status_cache`. `task` records the task it was made for; no code reads it. -/
structure CacheEntry where
  status : JobStatus
  expiresAt : ℤ
  task : ℕ
deriving DecidableEq, Repr

/-- What the processes share, and the status cache of each. -/
structure Data where
  now : ℤ
  jobs : List Job
  tasks : List Task
  /-- The entry of a process for a job. -/
  cache : ℕ → ℕ → Option CacheEntry

namespace Data

def setJob (d : Data) (j : ℕ) (g : Job → Job) : Data := { d with jobs := d.jobs.modify j g }

def setTask (d : Data) (t : ℕ) (g : Task → Task) : Data := { d with tasks := d.tasks.modify t g }

/-- `delay` or `apply_async`; the new task has the next number. -/
def enqueue (d : Data) (jobType : JobType) : Data := { d with tasks := d.tasks ++ [.new jobType] }

/-- `TTLCache.get`: an entry is there until its time is over. -/
def cacheGet (d : Data) (process j : ℕ) : Option CacheEntry :=
  match d.cache process j with
  | none => none
  | some entry => if entry.expiresAt < d.now then none else some entry

/-- `TTLCache.set`, five seconds. -/
def cacheSet (d : Data) (process j : ℕ) (status : JobStatus) (task : ℕ) : Data :=
  { d with
    cache := Function.update d.cache process
      (Function.update (d.cache process) j (some ⟨status, d.now + 5, task⟩)) }

/-- `AsyncResult(…).state`. -/
def celeryState (d : Data) (t : ℕ) : CeleryState :=
  match d.tasks[t]? with
  | none => .pending
  | some task => task.state

/-- `_get_job`. -/
def getJob (d : Data) (t : ℕ) : Option (ℕ × Job) :=
  match d.jobs.findIdx? (·.celeryTaskId = t) with
  | none => none
  | some j => d.jobs[j]?.map fun row => (j, row)

/-- Whether another row than `j` has the task: `celery_task_id` is unique. -/
def taken (d : Data) (j t : ℕ) : Bool :=
  d.jobs.zipIdx.any fun row => row.2 ≠ j ∧ row.1.celeryTaskId = t

/-- `_find_inflight_sla_job` for a bulk computation: the youngest of fifty jobs that are not finished,
have the same devices and period, and are in flight for Celery. -/
def findInflightBulk (d : Data) (payload : Payload) : Option Job :=
  let candidates := d.jobs.reverse.filter fun row =>
    row.jobType = .bulkSlaComputation ∧ (row.status = .pending ∨ row.status = .started)
  (candidates.take 50).find? fun row =>
    row.payload.deviceIds.insertionSort (· ≤ ·) = payload.deviceIds.insertionSort (· ≤ ·) ∧
      row.payload.period = payload.period ∧ (d.celeryState row.celeryTaskId).inflight

end Data

/-! ## Worker callbacks -/

/-- The callbacks of `DatabaseTask`; a failure knows what `self.retry` will make of it. -/
inductive Callback
  | started
  | progress (percent : ℚ)
  | success (result : String)
  | failure (error : String) (next : CeleryState)
deriving DecidableEq, Repr

/-- The committed `UPDATE` of a callback, from the row as it was loaded. -/
def Callback.update (now : ℤ) (seen : Job) : Callback → Job → Job
  | .started, row =>
      { row with
        status := writeColumn seen.status .started row.status
        startedAt := writeColumn seen.startedAt (some now) row.startedAt }
  | .progress percent, row =>
      { row with progress := writeColumn seen.progress (min percent 99) row.progress }
  | .success result, row =>
      { row with
        status := writeColumn seen.status .success row.status
        result := writeColumn seen.result (some result) row.result
        progress := writeColumn seen.progress 100 row.progress
        finishedAt := writeColumn seen.finishedAt (some now) row.finishedAt }
  | .failure error _, row =>
      { row with
        status := writeColumn seen.status .failure row.status
        error := writeColumn seen.error (some error) row.error
        finishedAt := writeColumn seen.finishedAt (some now) row.finishedAt }

/-- Where an attempt at a task stands. -/
inductive WorkerPc
  /-- The query of a callback. -/
  | loading (callback : Callback)
  /-- The commit of a callback, with the row it loaded. -/
  | committing (callback : Callback) (j : ℕ) (seen : Job)
  /-- The computation. -/
  | running
  /-- Celery stores the state the attempt ended with. -/
  | finishing (state : CeleryState)
  | ended
deriving DecidableEq, Repr

/-- What follows a callback. -/
def Callback.next : Callback → WorkerPc
  | .started => .running
  | .progress _ => .running
  | .success _ => .finishing .success
  | .failure _ next => .finishing next

/-- What a computation comes to: progress, a result, an exception that is marked and retried while
retries are left, or a transient error that is only raised. -/
inductive WorkEvent
  | goesOn
  | progress (percent : ℚ)
  | succeeds (result : String)
  | fails (error : String) (retriesLeft : Bool)
  | transient
deriving DecidableEq, Repr

/-- An attempt at a task. Webhook deliveries call none of the callbacks. -/
structure Attempt where
  task : ℕ
  callbacks : Bool
  pc : WorkerPc
deriving DecidableEq, Repr

/-- The state `self.retry` leaves. -/
def retryState (retriesLeft : Bool) : CeleryState := if retriesLeft then .retry else .failure

/-- One statement of an attempt. -/
def workStep (d : Data) (a : Attempt) (event : WorkEvent) : Option (Data × WorkerPc) :=
  match a.pc, event with
  | .loading callback, .goesOn =>
      match d.getJob a.task with
      | none => some (d, callback.next)
      | some (j, seen) => some (d, .committing callback j seen)
  | .committing callback j seen, .goesOn =>
      some (d.setJob j (callback.update d.now seen), callback.next)
  | .running, .progress percent =>
      if a.callbacks then some (d, .loading (.progress percent)) else none
  | .running, .succeeds result =>
      some (d.setTask a.task fun task => { task with succeeded := true },
        if a.callbacks then .loading (.success result) else .finishing .success)
  | .running, .fails error retriesLeft =>
      some (d.setTask a.task fun task => { task with failed := true },
        if a.callbacks then .loading (.failure error (retryState retriesLeft))
        else .finishing (retryState retriesLeft))
  | .running, .transient =>
      some (d.setTask a.task fun task => { task with failed := true }, .finishing .failure)
  | .finishing state, .goesOn =>
      some (d.setTask a.task fun task => { task with state := state }, .ended)
  | _, _ => none

/-! ## Requests -/

/-- The requests on a job: `get_job` and `get_job_progress` poll it. -/
inductive RequestKind
  | poll
  | cancel
  | retry
deriving DecidableEq, Repr

/-- Where a request stands. -/
inductive ApiPc
  /-- `_get_job_or_404`, and the checks on the row. -/
  | pollLoad
  | cancelLoad
  | retryLoad
  /-- `_sync_job_status_from_celery`: the cache, the result backend, the cache again, the commit. -/
  | pollCache (seen : Job)
  | pollState (seen : Job)
  | pollRemember (seen : Job) (new : JobStatus)
  | pollCommit (seen : Job) (new : JobStatus)
  /-- The row is read again after the audit log's commit, having been `checked` before it. -/
  | cancelReload (checked : Job)
  | cancelRevoke (seen : Job)
  | cancelCommit (seen : Job)
  | retryReload (checked : Job)
  | retryEnqueue (seen : Job)
  | retryCommit (seen : Job) (task : ℕ)
  /-- The commit of `enqueue_bulk_sla_computation`, which takes the changes of the retried row along. -/
  | bulkCommit (seen : Job) (task : ℕ)
  | bulkAttach (task : ℕ)
  | returned (out : Outcome Unit)
deriving DecidableEq, Repr

/-- The first statement of a request. -/
def RequestKind.start : RequestKind → ApiPc
  | .poll => .pollLoad
  | .cancel => .cancelLoad
  | .retry => .retryLoad

/-- A request on a job, in a process. -/
structure Call where
  process : ℕ
  job : ℕ
  pc : ApiPc
deriving DecidableEq, Repr

/-- The changes of `retry_job`, committed: `celery_task_id` apart. -/
def Job.retried (row : Job) (now : ℤ) (seen : Job) (task : ℕ) : Job :=
  { row with
    retryCount := seen.retryCount + 1
    lastRetriedAt := some now
    error := writeColumn seen.error none row.error
    status := writeColumn seen.status .pending row.status
    progress := writeColumn seen.progress 0 row.progress
    startedAt := writeColumn seen.startedAt none row.startedAt
    finishedAt := writeColumn seen.finishedAt none row.finishedAt
    retriedTo := some task }

/-- A failed commit of `retry_job` is rolled back and answered with 500. -/
def retryError : Outcome Unit := .error (.http 500 "Failed to retry job")

/-- One statement of a request; `fails` is for what can raise while a task is enqueued. -/
def apiStep (d : Data) (c : Call) (fails : Bool) : Option (Data × ApiPc) :=
  match c.pc with
  | .pollLoad =>
      match d.jobs[c.job]? with
      | none => some (d, .returned (.error (.http 404 "Job not found.")))
      | some row => if row.status.terminal then some (d, .returned (.ok ())) else some (d, .pollCache row)
  | .pollCache seen =>
      match d.cacheGet c.process c.job with
      | none => some (d, .pollState seen)
      | some entry =>
          if entry.status ≠ seen.status then some (d, .pollCommit seen entry.status)
          else some (d, .returned (.ok ()))
  | .pollState seen =>
      some (d, .pollRemember seen
        (celeryStateToJobStatus (d.celeryState seen.celeryTaskId) seen.status))
  | .pollRemember seen new =>
      some (d.cacheSet c.process c.job new seen.celeryTaskId,
        if new ≠ seen.status then .pollCommit seen new else .returned (.ok ()))
  | .pollCommit seen new =>
      some (d.setJob c.job fun row => { row with status := writeColumn seen.status new row.status },
        .returned (.ok ()))
  | .cancelLoad =>
      match d.jobs[c.job]? with
      | none => some (d, .returned (.error (.http 404 "Job not found.")))
      | some row =>
          if row.status.terminal then
            some (d, .returned (.error (.http 400
              ("Cannot cancel a job with status '" ++ row.status.formatted ++ "'."))))
          else some (d, .cancelReload row)
  | .cancelReload _ => d.jobs[c.job]?.map fun row => (d, .cancelRevoke row)
  | .cancelRevoke seen =>
      some (d.setTask seen.celeryTaskId fun task => { task with revoked := true }, .cancelCommit seen)
  | .cancelCommit seen =>
      some (d.setJob c.job fun row => { row with status := writeColumn seen.status .revoked row.status },
        .returned (.ok ()))
  | .retryLoad =>
      match d.jobs[c.job]? with
      | none => some (d, .returned (.error (.http 404 "Job not found.")))
      | some row =>
          if row.status ≠ .failure ∧ row.status ≠ .revoked then
            some (d, .returned (.error (.http 400 ("Cannot retry job with status '" ++ row.status.value ++
              "'. Only FAILED or REVOKED jobs can be retried."))))
          else if row.maxRetries ≤ row.retryCount then
            some (d, .returned (.error (.http 400 ("Job has exceeded maximum retry limit (" ++
              toString row.maxRetries ++ "). Current retry count: " ++ toString row.retryCount))))
          else some (d, .retryReload row)
  | .retryReload _ => d.jobs[c.job]?.map fun row => (d, .retryEnqueue row)
  | .retryEnqueue seen =>
      if fails then some (d, .returned retryError)
      else
        match seen.jobType with
        | .bulkSlaComputation =>
            match d.findInflightBulk seen.payload with
            | some existing => some (d, .retryCommit seen existing.celeryTaskId)
            | none => some (d.enqueue .bulkSlaComputation, .bulkCommit seen d.tasks.length)
        | jobType => some (d.enqueue jobType, .retryCommit seen d.tasks.length)
  | .retryCommit seen task =>
      if d.taken c.job task then some (d, .returned retryError)
      else
        some (d.setJob c.job fun row =>
            { row.retried d.now seen task with
              celeryTaskId := writeColumn seen.celeryTaskId task row.celeryTaskId },
          .returned (.ok ()))
  | .bulkCommit seen task =>
      let committed := d.setJob c.job fun row => row.retried d.now seen task
      some ({ committed with
          jobs := committed.jobs ++ [.new task .bulkSlaComputation seen.payload] }, .bulkAttach task)
  | .bulkAttach task =>
      if d.taken c.job task then some (d, .returned retryError)
      else some (d.setJob c.job fun row => { row with celeryTaskId := task }, .returned (.ok ()))
  | .returned _ => none

/-! ## Interleavings -/

/-- The data, the requests and the attempts, in the order in which they began. -/
structure Sys where
  data : Data
  calls : List Call
  attempts : List Attempt

/-- Jobs that were just submitted, each with its own task. -/
def Sys.init (submitted : List (JobType × Payload)) : Sys :=
  ⟨⟨0, submitted.mapIdx fun i job => .new i job.1 job.2, submitted.map fun job => .new job.1,
    fun _ _ => none⟩, [], []⟩

/-- Time passes, a request arrives, the `i`-th request moves, a task is delivered to a worker, the `w`-th
attempt moves, or the result backend forgets a task. -/
inductive Action
  | tick (seconds : ℕ)
  | request (process job : ℕ) (kind : RequestKind)
  | move (i : ℕ) (fails : Bool)
  | deliver (task : ℕ)
  | work (w : ℕ) (event : WorkEvent)
  | expire (task : ℕ)
deriving DecidableEq, Repr

/-- The interleaving semantics. -/
def step (s : Sys) : Action → Option Sys
  | .tick seconds => some { s with data := { s.data with now := s.data.now + seconds } }
  | .request process job kind => some { s with calls := s.calls ++ [⟨process, job, kind.start⟩] }
  | .move i fails =>
      match s.calls[i]? with
      | none => none
      | some c =>
          (apiStep s.data c fails).map fun next =>
            { s with data := next.1, calls := s.calls.set i { c with pc := next.2 } }
  | .deliver t =>
      match s.data.tasks[t]? with
      | none => none
      | some task =>
          -- a worker discards a task that was revoked
          if task.revoked then
            some { s with data := s.data.setTask t fun task => { task with state := .revoked } }
          else
            let callbacks : Bool := task.jobType ≠ .webhookDispatch
            some { s with
              data := s.data.setTask t fun task => { task with state := .started }
              attempts := s.attempts ++
                [⟨t, callbacks, if callbacks then .loading .started else .running⟩] }
  | .work w event =>
      match s.attempts[w]? with
      | none => none
      | some a =>
          (workStep s.data a event).map fun next =>
            { s with data := next.1, attempts := s.attempts.set w { a with pc := next.2 } }
  | .expire t => some { s with data := s.data.setTask t fun task => { task with state := .pending } }

end ApexChainx.Jobs
