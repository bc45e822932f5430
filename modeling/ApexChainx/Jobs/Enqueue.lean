import Mathlib.Data.Finset.Dedup
import ApexChainx.Jobs.Retry
import ApexChainx.Lib.Table

/-!
# Enqueuing SLA computations

`enqueue_sla_computation` and `enqueue_bulk_sla_computation` (`app/tasks/sla_tasks.py`), with the workers that
execute what they publish. A call publishes its task before it inserts the row that tracks it; the advisory
lock of `app/core/lock.py` is held from the query to the end of the transaction. The rows are in the order of
`created_at`, a time that the process of the call reads: a new row may come before older ones.

A task is executed by one worker at a time. What its computation comes to is the environment's choice, and
every callback may raise. Celery stores the state of a task when an attempt starts and when it ends;
a task whose worker is lost is delivered again, since it is acknowledged late. The columns that no status
depends on (progress details, partial results, item errors) are left out.
-/

namespace ApexChainx.Jobs

open Lib

/-! ## What is enqueued -/

/-- `JobType.value`. -/
def JobType.value : JobType → String
  | .slaComputation => "sla_computation"
  | .webhookDispatch => "webhook_dispatch"
  | .bulkSlaComputation => "bulk_sla_computation"

/-- The arguments of `enqueue_sla_computation`, or of `enqueue_bulk_sla_computation`. No caller gives the
former a job type. -/
inductive Computation
  | device (deviceId period : String)
  | bulk (deviceIds : List String) (period : String)
deriving DecidableEq, Repr

/-- `sorted` of a list of texts. -/
def sortedIds (ids : List String) : List String := ids.insertionSort (· ≤ ·)

/-- `Job.payload`: null, JSON text with the dictionary it is read as, or a dictionary. -/
inductive PayloadColumn
  | null
  | text (parsed : Option PayloadDict)
  | dict (d : PayloadDict)
deriving DecidableEq, Repr

/-- `_coerce_job_payload`. -/
def coerceJobPayload : PayloadColumn → PayloadDict
  | .null => []
  | .text parsed => parsed.getD []
  | .dict d => d

namespace Computation

def jobType : Computation → JobType
  | .device _ _ => .slaComputation
  | .bulk _ _ => .bulkSlaComputation

def task : Computation → TaskName
  | .device _ _ => .computeSlaForDevice
  | .bulk _ _ => .computeBulkSla

/-- `max_retries` of the task. -/
def maxRetries : Computation → ℕ
  | .device _ _ => 3
  | .bulk _ _ => 2

def payload (correlationId : Option String) : Computation → PayloadDict
  | .device deviceId period => devicePayload deviceId period correlationId
  | .bulk deviceIds period => bulkPayload (.texts deviceIds) (.text period) correlationId

/-- The key of the advisory lock. -/
def lockKey (c : Computation) : String :=
  match c with
  | .device deviceId period => "sla-enqueue:" ++ c.jobType.value ++ ":" ++ deviceId ++ ":" ++ period
  | .bulk deviceIds period =>
      "sla-enqueue:" ++ c.jobType.value ++ ":" ++ ",".intercalate (sortedIds deviceIds) ++ ":" ++ period

/-- `matches`: the payload of a candidate asks for the same. -/
def matchesPayload (c : Computation) (p : PayloadDict) : Bool :=
  match c with
  | .device deviceId period =>
      p.get? "device_id" = some (.text deviceId) && p.get? "period" = some (.text period)
  | .bulk deviceIds period =>
      (p.get "device_ids" (.texts [])).sorted = sortedIds deviceIds &&
        p.get? "period" = some (.text period)

/-- `apply_async` finds that the payload fits the signature of the task. -/
def binds (c : Computation) (correlationId : Option String) : Bool :=
  Message.binds ⟨c.task, [], kwargsOf (c.payload correlationId), .pending⟩

end Computation

/-! ## Rows and tasks -/

/-- A row of `jobs`: what these functions and the callbacks read and write. -/
structure JobRecord where
  celeryTaskId : ℕ
  jobType : JobType
  payload : PayloadColumn
  status : JobStatus
  result : Option String
  error : Option String
  progress : ℚ
  startedAt : Option ℤ
  finishedAt : Option ℤ
deriving DecidableEq, Repr

/-- A row as it is inserted. -/
def JobRecord.new (task : ℕ) (c : Computation) (correlationId : Option String) : JobRecord :=
  ⟨task, c.jobType, .dict (c.payload correlationId), .pending, none, none, 0, none, none⟩

/-- The committed `UPDATE` of a callback, from the row as it was loaded. -/
def Callback.record (now : ℤ) (seen : JobRecord) : Callback → JobRecord → JobRecord
  | .started, row =>
      { row with
        status := writeColumn seen.status .started row.status
        startedAt := writeColumn seen.startedAt (some now) row.startedAt }
  | .progress percent, row =>
      { row with progress := writeColumn seen.progress (min percent 99) row.progress }
  | .success result, row =>
      { row with
        status := writeColumn seen.status .success row.status
        result := writeColumn seen.result (some result) row.result
        progress := writeColumn seen.progress 100 row.progress
        finishedAt := writeColumn seen.finishedAt (some now) row.finishedAt }
  | .failure error _, row =>
      { row with
        status := writeColumn seen.status .failure row.status
        error := writeColumn seen.error (some error) row.error
        finishedAt := writeColumn seen.finishedAt (some now) row.finishedAt }

/-- How a task is over: with its return value, or with its error. -/
inductive Ended
  | returned (result : String)
  | raised (error : String)
deriving DecidableEq, Repr

/-- Where a task stands. -/
inductive TaskPc
  /-- With the broker, at first or for a retry. -/
  | waiting
  /-- The query of a callback. -/
  | loading (callback : Callback)
  /-- The commit of a callback, with the row it loaded. -/
  | committing (callback : Callback) (seen : JobRecord)
  | running
  /-- Celery stores that the task is retried. -/
  | retrying
  /-- Celery stores how the task is over. -/
  | storing (ended : Ended)
  | done (ended : Ended)
  /-- Over before the history began. -/
  | old
deriving DecidableEq, Repr

/-- A published task, its state in the result backend and the number of its retries. -/
structure SlaTask where
  computation : Computation
  state : CeleryState
  retries : ℕ
  pc : TaskPc
deriving DecidableEq, Repr

def SlaTask.new (c : Computation) : SlaTask := ⟨c, .pending, 0, .waiting⟩

/-- The task will not be executed again. -/
def SlaTask.finished (task : SlaTask) : Bool :=
  match task.pc with
  | .done _ => true
  | .old => true
  | _ => false

/-! ## Calls -/

/-- Where a call stands. -/
inductive EnqueuePc
  /-- `pg_try_advisory_xact_lock`. -/
  | locking
  /-- The query for candidates. -/
  | finding
  /-- The state of each candidate that matches, in turn. -/
  | checking (candidates : List JobRecord)
  /-- `apply_async`. -/
  | publishing
  /-- The commit of the new row. -/
  | inserting (task : ℕ)
  /-- The existing job is returned; the transaction is still open. -/
  | found (task : ℕ)
  /-- The transaction is over; `none` for an exception. -/
  | returned (task : Option ℕ)
deriving DecidableEq, Repr

/-- The transaction has the advisory lock. -/
def EnqueuePc.holding : EnqueuePc → Bool
  | .locking => false
  | .returned _ => false
  | _ => true

structure EnqueueCall where
  computation : Computation
  correlationId : Option String
  pc : EnqueuePc
deriving DecidableEq, Repr

/-- The tables, the tasks and the calls; a task's number is its id. -/
structure EnqueueSys where
  now : ℤ
  rows : List JobRecord
  tasks : List SlaTask
  calls : List EnqueueCall

/-- What a worker meets: the next statement, progress, a return value, an exception of the computation that is
marked, one that is only raised, an exception in a callback, the end of the process that executes the task, or
the end of the worker. -/
inductive TaskEvent
  | goesOn
  | progress (percent : ℚ)
  | succeeds (result : String)
  | fails (error : String)
  | transient (error : String)
  | raises (error : String)
  | killed (error : String)
  | lost
deriving DecidableEq, Repr

/-- Time passes, a call begins, the `i`-th call moves or raises, a worker moves, or the result backend forgets
a task. A new row is inserted at `position`. -/
inductive EnqueueAction
  | tick (seconds : ℕ)
  | call (computation : Computation) (correlationId : Option String)
  | move (i position : ℕ)
  | fail (i : ℕ)
  | work (t : ℕ) (event : TaskEvent)
  | expire (t : ℕ)
deriving DecidableEq, Repr

namespace EnqueueSys

/-- A history begins with jobs whose tasks are over. -/
def init (old : List (JobRecord × SlaTask)) : EnqueueSys :=
  ⟨0, old.mapIdx fun t job => { job.1 with celeryTaskId := t }, old.map fun job => { job.2 with pc := .old }, []⟩

def setCall (s : EnqueueSys) (i : ℕ) (c : EnqueueCall) (pc : EnqueuePc) : EnqueueSys :=
  { s with calls := s.calls.set i { c with pc } }

def setTask (s : EnqueueSys) (t : ℕ) (task : SlaTask) : EnqueueSys := { s with tasks := s.tasks.set t task }

/-- `_get_job`. -/
def getJob (s : EnqueueSys) (t : ℕ) : Option JobRecord := s.rows.find? fun row => row.celeryTaskId = t

/-- `AsyncResult(…).state`. -/
def celeryState (s : EnqueueSys) (t : ℕ) : CeleryState := (s.tasks[t]?.map SlaTask.state).getD .pending

/-- Another transaction has the lock. -/
def locked (lockId : String → ℤ) (s : EnqueueSys) (i : ℕ) (c : EnqueueCall) : Bool :=
  s.calls.zipIdx.any fun other =>
    other.2 ≠ i && other.1.pc.holding && lockId other.1.computation.lockKey = lockId c.computation.lockKey

/-- The query of `_find_inflight_sla_job`. -/
def candidates (s : EnqueueSys) (jobType : JobType) : List JobRecord :=
  (s.rows.reverse.filter fun row =>
    row.jobType = jobType ∧ (row.status = .pending ∨ row.status = .started)).take 50

/-- The candidate is returned in place of a new job. -/
def reuses (s : EnqueueSys) (c : Computation) (row : JobRecord) : Bool :=
  c.matchesPayload (coerceJobPayload row.payload) && (s.celeryState row.celeryTaskId).inflight

/-- One statement of a call. -/
def moveCall (lockId : String → ℤ) (s : EnqueueSys) (i : ℕ) (c : EnqueueCall) (position : ℕ) :
    Option EnqueueSys :=
  match c.pc with
  | .locking => if s.locked lockId i c then none else some (s.setCall i c .finding)
  | .finding => some (s.setCall i c (.checking (s.candidates c.computation.jobType)))
  | .checking [] => some (s.setCall i c .publishing)
  | .checking (row :: rest) =>
      if s.reuses c.computation row then some (s.setCall i c (.found row.celeryTaskId))
      else some (s.setCall i c (.checking rest))
  | .publishing =>
      if c.computation.binds c.correlationId then
        some ({ s with tasks := s.tasks ++ [SlaTask.new c.computation] }.setCall i c (.inserting s.tasks.length))
      else some (s.setCall i c (.returned none))
  | .inserting t =>
      some ({ s with
        rows := s.rows.take position ++ JobRecord.new t c.computation c.correlationId ::
          s.rows.drop position }.setCall i c (.returned (some t)))
  | .found t => some (s.setCall i c (.returned (some t)))
  | .returned _ => none

theorem getElem?_setCall {s : EnqueueSys} {i j : ℕ} {c c' : EnqueueCall} {pc : EnqueuePc}
    (h : (s.setCall i c pc).calls[j]? = some c') :
    (j = i ∧ c' = { c with pc }) ∨ (j ≠ i ∧ s.calls[j]? = some c') := by
  simp only [setCall, List.getElem?_set] at h
  by_cases hij : i = j
  · rw [if_pos hij] at h
    split at h
    · exact .inl ⟨hij.symm, (Option.some.inj h).symm⟩
    · cases h
  · rw [if_neg hij] at h
    exact .inr ⟨Ne.symm hij, h⟩

/-- What follows a callback. -/
def afterCallback : Callback → TaskPc
  | .started => .running
  | .progress _ => .running
  | .success result => .storing (.returned result)
  | .failure error next => if next = .retry then .retrying else .storing (.raised error)

/-- What the `except` clause makes of an exception: it is marked, and retried while retries are left; one that
is raised while it is marked is Celery's. -/
def handled (task : SlaTask) (callback : Callback) (error : String) : TaskPc :=
  match callback with
  | .failure _ _ => .storing (.raised error)
  | _ => .loading (.failure error (retryState (task.retries < task.computation.maxRetries)))

/-- The process that executes the task ends, or its worker does; other events are none of this place. -/
def interrupted (task : SlaTask) : TaskEvent → Option SlaTask
  | .killed error => some { task with pc := .storing (.raised error) }
  | .lost => some { task with pc := .waiting }
  | _ => none

/-- The task after a statement of its worker. -/
def nextTask (s : EnqueueSys) (t : ℕ) (task : SlaTask) (event : TaskEvent) : Option SlaTask :=
  match task.pc with
  | .waiting =>
      match event with
      | .goesOn => some { task with state := .started, pc := .loading .started }
      | _ => none
  | .loading callback =>
      match event with
      | .goesOn =>
          match s.getJob t with
          | none => some { task with pc := afterCallback callback }
          | some seen => some { task with pc := .committing callback seen }
      | .raises error => some { task with pc := handled task callback error }
      | event => interrupted task event
  | .committing callback _ =>
      match event with
      | .goesOn => some { task with pc := afterCallback callback }
      | .raises error => some { task with pc := handled task callback error }
      | event => interrupted task event
  | .running =>
      match event with
      | .progress percent => some { task with pc := .loading (.progress percent) }
      | .succeeds result => some { task with pc := .loading (.success result) }
      | .fails error => some { task with pc := handled task .started error }
      | .transient error => some { task with pc := .storing (.raised error) }
      | event => interrupted task event
  | .retrying =>
      match event with
      | .goesOn => some { task with state := .retry, retries := task.retries + 1, pc := .waiting }
      | event => interrupted task event
  | .storing ended =>
      match event with
      | .goesOn =>
          match ended with
          | .returned result => some { task with state := .success, pc := .done (.returned result) }
          | .raised error => some { task with state := .failure, pc := .done (.raised error) }
      | event => interrupted task event
  | .done _ => none
  | .old => none

/-- The rows after a statement of the worker of `t`: the commit of a callback updates the row. -/
def nextRows (s : EnqueueSys) (t : ℕ) (task : SlaTask) (event : TaskEvent) : List JobRecord :=
  match task.pc, event with
  | .committing callback seen, .goesOn =>
      updateKey JobRecord.celeryTaskId t (callback.record s.now seen) s.rows
  | _, _ => s.rows

/-- The interleaving semantics. `lockId` is what the key of a lock is hashed to. -/
def step (lockId : String → ℤ) (s : EnqueueSys) : EnqueueAction → Option EnqueueSys
  | .tick seconds => some { s with now := s.now + seconds }
  | .call computation correlationId =>
      some { s with calls := s.calls ++ [⟨computation, correlationId, .locking⟩] }
  | .move i position =>
      match s.calls[i]? with
      | none => none
      | some c => s.moveCall lockId i c position
  | .fail i =>
      match s.calls[i]? with
      | none => none
      | some c =>
          match c.pc with
          | .returned _ => none
          | _ => some (s.setCall i c (.returned none))
  | .work t event =>
      match s.tasks[t]? with
      | none => none
      | some task =>
          (s.nextTask t task event).map fun next =>
            { s with rows := s.nextRows t task event, tasks := s.tasks.set t next }
  | .expire t =>
      match s.tasks[t]? with
      | none => none
      | some task => some (s.setTask t { task with state := .pending })

/-! ## What a step does -/

/-- The state after a statement of a call, by the place of the call. -/
inductive CallMoves (lockId : String → ℤ) (s : EnqueueSys) (i : ℕ) (c : EnqueueCall) (position : ℕ) :
    EnqueueSys → Prop
  | lock (pc : c.pc = .locking) (free : s.locked lockId i c = false) :
      CallMoves lockId s i c position (s.setCall i c .finding)
  | find (pc : c.pc = .finding) :
      CallMoves lockId s i c position (s.setCall i c (.checking (s.candidates c.computation.jobType)))
  | noneLeft (pc : c.pc = .checking []) : CallMoves lockId s i c position (s.setCall i c .publishing)
  | reuse {row : JobRecord} {rest : List JobRecord} (pc : c.pc = .checking (row :: rest))
      (reuses : s.reuses c.computation row = true) :
      CallMoves lockId s i c position (s.setCall i c (.found row.celeryTaskId))
  | skip {row : JobRecord} {rest : List JobRecord} (pc : c.pc = .checking (row :: rest))
      (skips : ¬ s.reuses c.computation row = true) :
      CallMoves lockId s i c position (s.setCall i c (.checking rest))
  | publish (pc : c.pc = .publishing) :
      CallMoves lockId s i c position
        ({ s with tasks := s.tasks ++ [SlaTask.new c.computation] }.setCall i c (.inserting s.tasks.length))
  | refuse (pc : c.pc = .publishing) : CallMoves lockId s i c position (s.setCall i c (.returned none))
  | insert {t : ℕ} (pc : c.pc = .inserting t) :
      CallMoves lockId s i c position ({ s with
        rows := s.rows.take position ++ JobRecord.new t c.computation c.correlationId ::
          s.rows.drop position }.setCall i c (.returned (some t)))
  | answer {t : ℕ} (pc : c.pc = .found t) :
      CallMoves lockId s i c position (s.setCall i c (.returned (some t)))

/-- The state after a step. -/
inductive Steps (lockId : String → ℤ) (s : EnqueueSys) : EnqueueAction → EnqueueSys → Prop
  | tick (seconds : ℕ) : Steps lockId s (.tick seconds) { s with now := s.now + seconds }
  | call (computation : Computation) (correlationId : Option String) :
      Steps lockId s (.call computation correlationId)
        { s with calls := s.calls ++ [⟨computation, correlationId, .locking⟩] }
  | move {i position : ℕ} {c : EnqueueCall} {s' : EnqueueSys} (call : s.calls[i]? = some c)
      (moves : CallMoves lockId s i c position s') : Steps lockId s (.move i position) s'
  | fail {i : ℕ} {c : EnqueueCall} (call : s.calls[i]? = some c) :
      Steps lockId s (.fail i) (s.setCall i c (.returned none))
  | work {t : ℕ} {event : TaskEvent} {task next : SlaTask} (task_eq : s.tasks[t]? = some task)
      (next_eq : s.nextTask t task event = some next) :
      Steps lockId s (.work t event)
        { s with rows := s.nextRows t task event, tasks := s.tasks.set t next }
  | expire {t : ℕ} {task : SlaTask} (task_eq : s.tasks[t]? = some task) :
      Steps lockId s (.expire t) (s.setTask t { task with state := .pending })

section

variable {lockId : String → ℤ} {s s' : EnqueueSys}

theorem callMoves_of_moveCall {i position : ℕ} {c : EnqueueCall}
    (h : s.moveCall lockId i c position = some s') : CallMoves lockId s i c position s' := by
  cases hpc : c.pc with
  | locking =>
      simp only [moveCall, hpc, Option.ite_none_left_eq_some, Option.some.injEq] at h
      exact h.2 ▸ .lock hpc (Bool.eq_false_of_not_eq_true h.1)
  | finding =>
      simp only [moveCall, hpc, Option.some.injEq] at h
      exact h ▸ .find hpc
  | checking candidates =>
      cases candidates with
      | nil =>
          simp only [moveCall, hpc, Option.some.injEq] at h
          exact h ▸ .noneLeft hpc
      | cons row rest =>
          simp only [moveCall, hpc] at h
          split at h
          · rename_i hreuses
            exact Option.some.inj h ▸ .reuse hpc hreuses
          · rename_i hskips
            exact Option.some.inj h ▸ .skip hpc hskips
  | publishing =>
      simp only [moveCall, hpc] at h
      split at h
      · exact Option.some.inj h ▸ .publish hpc
      · exact Option.some.inj h ▸ .refuse hpc
  | inserting t =>
      simp only [moveCall, hpc, Option.some.injEq] at h
      exact h ▸ .insert hpc
  | found t =>
      simp only [moveCall, hpc, Option.some.injEq] at h
      exact h ▸ .answer hpc
  | returned t => simp [moveCall, hpc] at h

theorem steps_of_step {a : EnqueueAction} (h : step lockId s a = some s') : Steps lockId s a s' := by
  cases a with
  | tick seconds => exact Option.some.inj h ▸ .tick seconds
  | call computation correlationId => exact Option.some.inj h ▸ .call computation correlationId
  | move i position =>
      simp only [step] at h
      cases hi : s.calls[i]? with
      | none => simp [hi] at h
      | some c => exact .move hi (callMoves_of_moveCall (by simpa only [hi] using h))
  | fail i =>
      simp only [step] at h
      cases hi : s.calls[i]? with
      | none => simp [hi] at h
      | some c =>
          simp only [hi] at h
          split at h
          · cases h
          · exact Option.some.inj h ▸ .fail hi
  | work t event =>
      simp only [step] at h
      cases htask : s.tasks[t]? with
      | none => simp [htask] at h
      | some task =>
          simp only [htask] at h
          obtain ⟨next, hnext, rfl⟩ := Option.map_eq_some_iff.mp h
          exact .work htask hnext
  | expire t =>
      simp only [step] at h
      cases htask : s.tasks[t]? with
      | none => simp [htask] at h
      | some task =>
          simp only [htask, Option.some.injEq] at h
          exact h ▸ .expire htask

end

end EnqueueSys

end ApexChainx.Jobs
