import ApexChainx.Jobs.Status
import ApexChainx.Lib.Table

/-!
# Polls, cancellations, retries and callbacks on one job

What a job's status may do in an interleaving of its writers: `Lawful`, of every step. No writer looks at
the status it overwrites, so the law holds for the runs in which none has to (`Conforms`): a commit finds
the row as it was loaded and checked, no callback of a task commits once the task was revoked or has
succeeded, a poll finds no cached status of the task before a retry, and no bulk job is retried, whose
retry leaves the row with its old task. The invariant `Inv` says what a status stands for: the task of
a job that succeeded has succeeded, the task of a job that is revoked was revoked.
-/

namespace ApexChainx.Jobs

open ApexChainx.Lib

/-! ## The law -/

/-- The commits of `retry_job`. -/
def ApiPc.commitsRetry : ApiPc → Bool
  | .retryCommit _ _ => true
  | .bulkCommit _ _ => true
  | .bulkAttach _ => true
  | _ => false

/-- The action is a commit of `retry_job` for the job. -/
def CommitsRetry (s : Sys) (a : Action) (j : ℕ) : Prop :=
  ∃ i fails c, a = .move i fails ∧ s.calls[i]? = some c ∧ c.job = j ∧ c.pc.commitsRetry = true

/-- The task has failed in an attempt, or was cancelled. -/
def FailedOrCancelled (s : Sys) (t : ℕ) : Prop :=
  ∃ task, s.data.tasks[t]? = some task ∧ (task.failed = true ∨ task.revoked = true)

/-- What a step may do to the status of a job: success stays, a revoked job is left to `retry_job`, and a
job that was retried fails or is revoked again only when the task of the retry failed or was
cancelled. -/
structure LawfulFor (s : Sys) (a : Action) (j : ℕ) (row row' : Job) : Prop where
  success : row.status = .success → row'.status = .success
  revoked : row.status = .revoked → row'.status = .revoked ∨ CommitsRetry s a j
  retried : ∀ t, row.retriedTo = some t → row'.status ≠ row.status →
    row'.status = .failure ∨ row'.status = .revoked → FailedOrCancelled s t

/-- The law of a step, for every job. -/
def Lawful (s : Sys) (a : Action) : Prop :=
  ∀ s', step s a = some s' → ∀ j row, s.data.jobs[j]? = some row →
    ∃ row', s'.data.jobs[j]? = some row' ∧ LawfulFor s a j row row'

/-! ## The condition -/

/-- The row has the status and the task it was loaded with. -/
def Unchanged (s : Sys) (j : ℕ) (seen : Job) : Prop :=
  ∀ row, s.data.jobs[j]? = some row →
    row.status = seen.status ∧ row.celeryTaskId = seen.celeryTaskId

/-- What a callback may find: the row as it was loaded, and a task that was not revoked and, but for
another success, has not succeeded. -/
def Callback.Conforms (s : Sys) (t j : ℕ) (seen : Job) : Callback → Prop
  | .progress _ => True
  | .started => Unchanged s j seen ∧ ∀ task, s.data.tasks[t]? = some task →
      task.revoked = false ∧ task.succeeded = false
  | .success _ => Unchanged s j seen ∧ ∀ task, s.data.tasks[t]? = some task → task.revoked = false
  | .failure _ _ => Unchanged s j seen ∧ ∀ task, s.data.tasks[t]? = some task →
      task.revoked = false ∧ task.succeeded = false

/-- What a request may find. -/
def Call.Conforms (s : Sys) (c : Call) : Prop :=
  match c.pc with
  | .pollCache seen => ∀ entry, s.data.cacheGet c.process c.job = some entry →
      entry.task = seen.celeryTaskId
  | .pollCommit seen _ => Unchanged s c.job seen
  | .cancelReload checked => Unchanged s c.job checked
  | .cancelCommit seen => Unchanged s c.job seen
  | .retryReload checked => Unchanged s c.job checked
  | .retryEnqueue seen => seen.jobType ≠ .bulkSlaComputation
  | .retryCommit seen _ => Unchanged s c.job seen
  | _ => True

/-- What an attempt may find. -/
def Attempt.Conforms (s : Sys) (a : Attempt) : Prop :=
  match a.pc with
  | .committing callback j seen => callback.Conforms s a.task j seen
  | _ => True

/-- The action takes none of the writers by surprise. -/
def Conforms (s : Sys) : Action → Prop
  | .move i _ => ∀ c : Call, s.calls[i]? = some c → c.Conforms s
  | .work w _ => ∀ a : Attempt, s.attempts[w]? = some a → a.Conforms s
  | _ => True

instance decidableForallSome {α : Type} (o : Option α) (p : α → Prop) [DecidablePred p] :
    Decidable (∀ x, o = some x → p x) :=
  match o with
  | none => isTrue fun x hx => by cases hx
  | some x => decidable_of_iff (p x) (by simp)

instance (s : Sys) (j : ℕ) (seen : Job) : Decidable (Unchanged s j seen) :=
  inferInstanceAs (Decidable (∀ row, s.data.jobs[j]? = some row → _))

instance (s : Sys) (t j : ℕ) (seen : Job) : DecidablePred (Callback.Conforms s t j seen)
  | .progress _ => inferInstanceAs (Decidable True)
  | .started => inferInstanceAs (Decidable (_ ∧ ∀ task, s.data.tasks[t]? = some task → _))
  | .success _ => inferInstanceAs (Decidable (_ ∧ ∀ task, s.data.tasks[t]? = some task → _))
  | .failure _ _ => inferInstanceAs (Decidable (_ ∧ ∀ task, s.data.tasks[t]? = some task → _))

instance (s : Sys) (c : Call) : Decidable (c.Conforms s) :=
  match c with
  | ⟨process, j, .pollCache seen⟩ =>
      decidableForallSome (s.data.cacheGet process j) fun entry => entry.task = seen.celeryTaskId
  | ⟨_, j, .pollCommit seen _⟩ => inferInstanceAs (Decidable (Unchanged s j seen))
  | ⟨_, j, .cancelReload checked⟩ => inferInstanceAs (Decidable (Unchanged s j checked))
  | ⟨_, j, .cancelCommit seen⟩ => inferInstanceAs (Decidable (Unchanged s j seen))
  | ⟨_, j, .retryReload checked⟩ => inferInstanceAs (Decidable (Unchanged s j checked))
  | ⟨_, _, .retryEnqueue seen⟩ => inferInstanceAs (Decidable (seen.jobType ≠ .bulkSlaComputation))
  | ⟨_, j, .retryCommit seen _⟩ => inferInstanceAs (Decidable (Unchanged s j seen))
  | ⟨_, _, .pollLoad⟩ | ⟨_, _, .cancelLoad⟩ | ⟨_, _, .retryLoad⟩ | ⟨_, _, .pollState _⟩
  | ⟨_, _, .pollRemember _ _⟩ | ⟨_, _, .cancelRevoke _⟩ | ⟨_, _, .bulkCommit _ _⟩
  | ⟨_, _, .bulkAttach _⟩ | ⟨_, _, .returned _⟩ => isTrue trivial

instance (s : Sys) (a : Attempt) : Decidable (a.Conforms s) :=
  match a with
  | ⟨t, _, .committing callback j seen⟩ => inferInstanceAs (Decidable (callback.Conforms s t j seen))
  | ⟨_, _, .loading _⟩ | ⟨_, _, .running⟩ | ⟨_, _, .finishing _⟩ | ⟨_, _, .ended⟩ => isTrue trivial

instance (s : Sys) : DecidablePred (Conforms s)
  | .move i _ => inferInstanceAs (Decidable (∀ c, s.calls[i]? = some c → _))
  | .work w _ => inferInstanceAs (Decidable (∀ a, s.attempts[w]? = some a → _))
  | .tick _ | .request _ _ _ | .deliver _ | .expire _ => inferInstanceAs (Decidable True)

/-! ## The invariant -/

/-- What a status says of the task it is reported for. -/
def Evidence (tasks : List Task) (t : ℕ) : JobStatus → Prop
  | .success => ∃ task, tasks[t]? = some task ∧ task.succeeded = true
  | .failure => ∃ task, tasks[t]? = some task ∧ task.failed = true
  | .revoked => ∃ task, tasks[t]? = some task ∧ task.revoked = true
  | _ => True

/-- What a state in the result backend says of its task. -/
def StateEvidence (tasks : List Task) (t : ℕ) (state : CeleryState) : Prop :=
  Evidence tasks t (celeryStateToJobStatus state .pending)

/-- A job's status is about its task, which is the one of its last retry. -/
structure JobOk (tasks : List Task) (row : Job) : Prop where
  known : row.celeryTaskId < tasks.length
  status : Evidence tasks row.celeryTaskId row.status
  retried : ∀ t, row.retriedTo = some t → row.celeryTaskId = t

/-- Every status in the data has evidence in the tasks. -/
structure DataOk (d : Data) : Prop where
  jobs : ∀ (j : ℕ) (row : Job), d.jobs[j]? = some row → JobOk d.tasks row
  tasks : ∀ (t : ℕ) (task : Task), d.tasks[t]? = some task → StateEvidence d.tasks t task.state
  cache : ∀ p j entry, d.cache p j = some entry → Evidence d.tasks entry.task entry.status

/-- What a request knows of the row it has loaded. -/
def CallOk (tasks : List Task) (pc : ApiPc) : Prop :=
  match pc with
  | .pollCache seen => seen.status.terminal = false
  | .pollState seen => seen.status.terminal = false
  | .pollRemember seen new => seen.status.terminal = false ∧ Evidence tasks seen.celeryTaskId new
  | .pollCommit seen new => seen.status.terminal = false ∧ Evidence tasks seen.celeryTaskId new
  | .cancelReload checked => checked.status.terminal = false
  | .cancelRevoke seen => seen.status.terminal = false ∧ seen.celeryTaskId < tasks.length
  | .cancelCommit seen => seen.status.terminal = false ∧ Evidence tasks seen.celeryTaskId .revoked
  | .retryReload checked => checked.status = .failure ∨ checked.status = .revoked
  | .retryEnqueue seen => seen.status = .failure ∨ seen.status = .revoked
  | .retryCommit seen task =>
      (seen.status = .failure ∨ seen.status = .revoked) ∧ task < tasks.length
  | .bulkCommit _ _ => False
  | .bulkAttach _ => False
  | _ => True

/-- What a callback says of its task. -/
def CallbackOk (tasks : List Task) (t : ℕ) : Callback → Prop
  | .success _ => Evidence tasks t .success
  | .failure _ next => Evidence tasks t .failure ∧ StateEvidence tasks t next
  | _ => True

/-- What an attempt knows of its task. -/
def AttemptOk (tasks : List Task) (t : ℕ) (pc : WorkerPc) : Prop :=
  match pc with
  | .loading callback => CallbackOk tasks t callback
  | .committing callback _ seen => CallbackOk tasks t callback ∧ seen.celeryTaskId = t
  | .finishing state => StateEvidence tasks t state
  | _ => True

structure Inv (s : Sys) : Prop where
  data : DataOk s.data
  calls : ∀ (i : ℕ) (c : Call), s.calls[i]? = some c → CallOk s.data.tasks c.pc
  attempts : ∀ (w : ℕ) (a : Attempt), s.attempts[w]? = some a →
    a.task < s.data.tasks.length ∧ AttemptOk s.data.tasks a.task a.pc

/-! ## Tasks only gain evidence -/

/-- The records of a task are kept. -/
structure Grows (task task' : Task) : Prop where
  failed : task.failed = true → task'.failed = true
  succeeded : task.succeeded = true → task'.succeeded = true
  revoked : task.revoked = true → task'.revoked = true

/-- Tasks are not lost, and their records are kept. -/
def TasksGrow (tasks tasks' : List Task) : Prop :=
  ∀ (t : ℕ) (task : Task), tasks[t]? = some task → ∃ task', tasks'[t]? = some task' ∧ Grows task task'

variable {tasks tasks' : List Task} {t : ℕ}

theorem TasksGrow.refl (tasks : List Task) : TasksGrow tasks tasks :=
  fun _ task htask => ⟨task, htask, id, id, id⟩

theorem TasksGrow.lt (h : TasksGrow tasks tasks') (ht : t < tasks.length) : t < tasks'.length := by
  obtain ⟨task', htask', -⟩ := h t tasks[t] (List.getElem?_eq_getElem ht)
  exact (List.getElem?_eq_some_iff.mp htask').1

theorem Evidence.mono {status : JobStatus} (h : TasksGrow tasks tasks') (he : Evidence tasks t status) :
    Evidence tasks' t status := by
  cases status with
  | success =>
      obtain ⟨task, htask, hflag⟩ := he
      obtain ⟨task', htask', hgrows⟩ := h t task htask
      exact ⟨task', htask', hgrows.succeeded hflag⟩
  | failure =>
      obtain ⟨task, htask, hflag⟩ := he
      obtain ⟨task', htask', hgrows⟩ := h t task htask
      exact ⟨task', htask', hgrows.failed hflag⟩
  | revoked =>
      obtain ⟨task, htask, hflag⟩ := he
      obtain ⟨task', htask', hgrows⟩ := h t task htask
      exact ⟨task', htask', hgrows.revoked hflag⟩
  | pending => trivial
  | started => trivial

theorem JobOk.mono {row : Job} (h : TasksGrow tasks tasks') (hrow : JobOk tasks row) :
    JobOk tasks' row :=
  ⟨h.lt hrow.known, hrow.status.mono h, hrow.retried⟩

theorem CallOk.mono {pc : ApiPc} (h : TasksGrow tasks tasks') (hc : CallOk tasks pc) :
    CallOk tasks' pc := by
  cases pc with
  | pollRemember seen new => exact ⟨hc.1, hc.2.mono h⟩
  | pollCommit seen new => exact ⟨hc.1, hc.2.mono h⟩
  | cancelRevoke seen => exact ⟨hc.1, h.lt hc.2⟩
  | cancelCommit seen => exact ⟨hc.1, hc.2.mono h⟩
  | retryCommit seen task => exact ⟨hc.1, h.lt hc.2⟩
  | _ => exact hc

theorem CallbackOk.mono {callback : Callback} (h : TasksGrow tasks tasks')
    (hc : CallbackOk tasks t callback) : CallbackOk tasks' t callback := by
  cases callback with
  | success result =>
      have he : Evidence tasks t .success := hc
      exact he.mono h
  | failure error next => exact ⟨hc.1.mono h, Evidence.mono h hc.2⟩
  | started => trivial
  | progress percent => trivial

theorem AttemptOk.mono {pc : WorkerPc} (h : TasksGrow tasks tasks') (ha : AttemptOk tasks t pc) :
    AttemptOk tasks' t pc := by
  cases pc with
  | loading callback => exact CallbackOk.mono h ha
  | committing callback j seen => exact ⟨ha.1.mono h, ha.2⟩
  | finishing state => exact Evidence.mono h ha
  | running => trivial
  | ended => trivial

/-- A change of one task that keeps its records. -/
theorem tasksGrow_modify {g : Task → Task} (hg : ∀ task, Grows task (g task)) :
    TasksGrow tasks (tasks.modify t g) := by
  intro t' task htask
  by_cases heq : t = t'
  · subst heq
    exact ⟨g task, by rw [List.getElem?_modify_eq, htask]; rfl, hg task⟩
  · exact ⟨task, by rw [List.getElem?_modify_ne _ _ heq]; exact htask, id, id, id⟩

theorem tasksGrow_append (new : Task) : TasksGrow tasks (tasks ++ [new]) := by
  intro t task htask
  refine ⟨task, ?_, id, id, id⟩
  rw [List.getElem?_append_left (List.getElem?_eq_some_iff.mp htask).1]
  exact htask

/-! ## What a statement does to the data -/

/-- A statement that keeps the records of the tasks, leaves a status only with its evidence, and changes
statuses lawfully. -/
structure Progress (s : Sys) (a : Action) (d' : Data) : Prop where
  grow : TasksGrow s.data.tasks d'.tasks
  ok : DataOk d'
  lawful : ∀ (j : ℕ) (row : Job), s.data.jobs[j]? = some row →
    ∃ row', d'.jobs[j]? = some row' ∧ LawfulFor s a j row row'

variable {s s' : Sys} {a : Action} {j : ℕ} {row : Job}

theorem lawfulFor_of_status_eq {row' : Job} (h : row'.status = row.status) : LawfulFor s a j row row' where
  success hrow := by rw [h, hrow]
  revoked hrow := .inl (by rw [h, hrow])
  retried _ _ hne := absurd h hne

theorem Progress.of_tasks {d' : Data} (h : DataOk s.data) (hjobs : d'.jobs = s.data.jobs)
    (hcache : d'.cache = s.data.cache) (hgrow : TasksGrow s.data.tasks d'.tasks)
    (hok : ∀ (t : ℕ) (task : Task), d'.tasks[t]? = some task → StateEvidence d'.tasks t task.state) :
    Progress s a d' where
  grow := hgrow
  ok := by
    refine ⟨fun j row hrow => ?_, hok, fun p j entry hentry => ?_⟩
    · rw [hjobs] at hrow
      exact (h.jobs j row hrow).mono hgrow
    · rw [hcache] at hentry
      exact (h.cache p j entry hentry).mono hgrow
  lawful j row hrow := ⟨row, by rw [hjobs, hrow], lawfulFor_of_status_eq rfl⟩

theorem Progress.refl (h : DataOk s.data) : Progress s a s.data :=
  .of_tasks h rfl rfl (.refl _) h.tasks

/-- A change of one task that keeps its records and leaves a state with evidence. -/
theorem Progress.setTask {g : Task → Task} (h : DataOk s.data) (hg : ∀ task, Grows task (g task))
    (hstate : ∀ task, s.data.tasks[t]? = some task →
      StateEvidence (s.data.tasks.modify t g) t (g task).state) :
    Progress s a (s.data.setTask t g) := by
  have hgrow : TasksGrow s.data.tasks (s.data.tasks.modify t g) := tasksGrow_modify hg
  refine .of_tasks h rfl rfl hgrow ?_
  intro t' task htask
  have htask' : (s.data.tasks.modify t g)[t']? = some task := htask
  by_cases heq : t = t'
  · subst heq
    rw [List.getElem?_modify_eq] at htask'
    obtain ⟨old, hold, rfl⟩ := Option.map_eq_some_iff.mp htask'
    exact hstate old hold
  · rw [List.getElem?_modify_ne _ _ heq] at htask'
    exact Evidence.mono hgrow (h.tasks t' task htask')

/-- A new task. -/
theorem Progress.enqueue (h : DataOk s.data) (jobType : JobType) :
    Progress s a (s.data.enqueue jobType) := by
  have hgrow : TasksGrow s.data.tasks (s.data.tasks ++ [.new jobType]) := tasksGrow_append _
  refine .of_tasks h rfl rfl hgrow ?_
  intro t task htask
  rcases getElem?_insert htask with hold | ⟨-, rfl⟩
  · exact Evidence.mono hgrow (h.tasks t task hold)
  · trivial

/-- An `UPDATE` of one row. -/
theorem Progress.setJob {g : Job → Job} (h : DataOk s.data)
    (hg : ∀ row, s.data.jobs[j]? = some row →
      JobOk s.data.tasks (g row) ∧ LawfulFor s a j row (g row)) :
    Progress s a (s.data.setJob j g) where
  grow := .refl _
  ok := by
    refine ⟨fun j' row hrow => ?_, h.tasks, h.cache⟩
    have hrow' : (s.data.jobs.modify j g)[j']? = some row := hrow
    by_cases heq : j = j'
    · subst heq
      rw [List.getElem?_modify_eq] at hrow'
      obtain ⟨old, hold, rfl⟩ := Option.map_eq_some_iff.mp hrow'
      exact (hg old hold).1
    · rw [List.getElem?_modify_ne _ _ heq] at hrow'
      exact h.jobs j' row hrow'
  lawful j' row hrow := by
    by_cases heq : j = j'
    · subst heq
      refine ⟨g row, ?_, (hg row hrow).2⟩
      show (s.data.jobs.modify j g)[j]? = _
      rw [List.getElem?_modify_eq, hrow]
      rfl
    · refine ⟨row, ?_, lawfulFor_of_status_eq rfl⟩
      show (s.data.jobs.modify j g)[j']? = _
      rw [List.getElem?_modify_ne _ _ heq, hrow]

/-- A status is put into the cache. -/
theorem Progress.cacheSet {process : ℕ} {status : JobStatus} (h : DataOk s.data)
    (hstatus : Evidence s.data.tasks t status) :
    Progress s a (s.data.cacheSet process j status t) where
  grow := .refl _
  ok := by
    refine ⟨h.jobs, h.tasks, fun p j' entry hentry => ?_⟩
    have hentry' : Function.update s.data.cache process
        (Function.update (s.data.cache process) j (some ⟨status, s.data.now + 5, t⟩)) p j'
        = some entry := hentry
    by_cases hp : p = process
    · subst hp
      rw [Function.update_self] at hentry'
      by_cases hj : j' = j
      · subst hj
        rw [Function.update_self] at hentry'
        obtain rfl := Option.some.inj hentry'
        exact hstatus
      · rw [Function.update_of_ne hj] at hentry'
        exact h.cache p j' entry hentry'
    · rw [Function.update_of_ne hp] at hentry'
      exact h.cache p j' entry hentry'
  lawful j row hrow := ⟨row, hrow, lawfulFor_of_status_eq rfl⟩

/-! ## Status writes -/

/-- The evidence of a status is what the law asks for. -/
theorem failedOrCancelled_of_evidence {status : JobStatus} (h : Evidence s.data.tasks t status)
    (hstatus : status = .failure ∨ status = .revoked) : FailedOrCancelled s t := by
  rcases hstatus with rfl | rfl
  · obtain ⟨task, htask, hflag⟩ := h
    exact ⟨task, htask, .inl hflag⟩
  · obtain ⟨task, htask, hflag⟩ := h
    exact ⟨task, htask, .inr hflag⟩

/-- A row that is neither a success nor revoked takes any status that its task has evidence for. -/
theorem lawfulFor_of_evidence {row' : Job} (hrow : JobOk s.data.tasks row)
    (hsuccess : row.status = .success → row'.status = .success) (hrevoked : row.status ≠ .revoked)
    (hevidence : Evidence s.data.tasks row.celeryTaskId row'.status) : LawfulFor s a j row row' where
  success := hsuccess
  revoked h := absurd h hrevoked
  retried t ht _ hstatus := by
    rw [hrow.retried t ht] at hevidence
    exact failedOrCancelled_of_evidence hevidence hstatus

theorem ne_of_not_terminal {status : JobStatus} (h : status.terminal = false) :
    status ≠ .success ∧ status ≠ .failure ∧ status ≠ .revoked := by
  cases status with
  | pending => simp
  | started => simp
  | success => cases h
  | failure => cases h
  | revoked => cases h

/-- An `UPDATE` of the status of a row that is as it was loaded, and was not terminal then. -/
theorem Progress.writeStatus {seen : Job} {new : JobStatus} (h : DataOk s.data)
    (hunchanged : Unchanged s j seen) (hopen : seen.status.terminal = false)
    (hnew : Evidence s.data.tasks seen.celeryTaskId new) :
    Progress s a
      (s.data.setJob j fun row => { row with status := writeColumn seen.status new row.status }) := by
  refine .setJob h fun row hrow => ?_
  obtain ⟨hstatus, htask⟩ := hunchanged row hrow
  have hwritten : writeColumn seen.status new row.status = new := writeColumn_eq hstatus
  have hevidence : Evidence s.data.tasks row.celeryTaskId
      (writeColumn seen.status new row.status) := by
    rw [hwritten, htask]
    exact hnew
  obtain ⟨hsuccess, -, hrevoked⟩ := ne_of_not_terminal hopen
  refine ⟨⟨(h.jobs j row hrow).known, hevidence, (h.jobs j row hrow).retried⟩, ?_⟩
  refine lawfulFor_of_evidence (h.jobs j row hrow) (fun hrow' => ?_) ?_ hevidence
  · exact absurd (hstatus ▸ hrow') hsuccess
  · rw [hstatus]
    exact hrevoked

/-! ## Requests -/

variable {i : ℕ} {c : Call} {fails : Bool} {d' : Data} {pc' : ApiPc}

/-- The statuses the backend reports have evidence. -/
theorem evidence_celeryState (h : DataOk s.data) {fallback : JobStatus} (hopen : fallback.terminal = false) :
    Evidence s.data.tasks t (celeryStateToJobStatus (s.data.celeryState t) fallback) := by
  unfold Data.celeryState
  cases htask : s.data.tasks[t]? with
  | none => trivial
  | some task =>
      have hstate := h.tasks t task htask
      unfold StateEvidence at hstate
      show Evidence s.data.tasks t (celeryStateToJobStatus task.state fallback)
      cases hs : task.state <;> rw [hs] at hstate
      case other =>
          cases fallback with
          | pending => trivial
          | started => trivial
          | success => cases hopen
          | failure => cases hopen
          | revoked => cases hopen
      all_goals exact hstate

/-- The commit of a retry: the row goes back to pending, with the new task. -/
theorem progress_retryCommit {seen : Job} {task : ℕ} (h : DataOk s.data) (hc : s.calls[i]? = some c)
    (hpc : c.pc = .retryCommit seen task)
    (hseen : seen.status = .failure ∨ seen.status = .revoked) (htask : task < s.data.tasks.length)
    (hunchanged : Unchanged s c.job seen) :
    Progress s (.move i fails) (s.data.setJob c.job fun row =>
      { row.retried s.data.now seen task with
        celeryTaskId := writeColumn seen.celeryTaskId task row.celeryTaskId }) := by
  refine .setJob h fun row hrow => ?_
  obtain ⟨hstatus, hid⟩ := hunchanged row hrow
  have hwritten : writeColumn seen.status .pending row.status = .pending := writeColumn_eq hstatus
  have hnew : writeColumn seen.celeryTaskId task row.celeryTaskId = task := writeColumn_eq hid
  refine ⟨⟨?_, ?_, ?_⟩, ⟨?_, ?_, ?_⟩⟩
  · show writeColumn seen.celeryTaskId task row.celeryTaskId < _
    rw [hnew]
    exact htask
  · show Evidence _ _ (writeColumn seen.status .pending row.status)
    rw [hwritten]
    trivial
  · intro t ht
    show writeColumn seen.celeryTaskId task row.celeryTaskId = t
    rw [hnew]
    exact Option.some.inj ht
  · intro hsuccess
    rw [hstatus] at hsuccess
    rcases hseen with hseen | hseen <;> rw [hsuccess] at hseen <;> cases hseen
  · exact fun _ => .inr ⟨i, fails, c, rfl, hc, rfl, by rw [hpc]; rfl⟩
  · intro t _ _ hterminal
    have hpending : (row.retried s.data.now seen task).status = .pending := hwritten
    rcases hterminal with hfailure | hrevoked
    · exact absurd (hpending.symm.trans hfailure) (by decide)
    · exact absurd (hpending.symm.trans hrevoked) (by decide)

/-- A task records that it was revoked, or how an attempt ended. -/
theorem progress_record {g : Task → Task} (h : DataOk s.data) (ht : t < s.data.tasks.length)
    (hg : ∀ task, Grows task (g task)) (hstate : ∀ task, (g task).state = task.state) :
    Progress s a (s.data.setTask t g) ∧
      (s.data.setTask t g).tasks[t]? = some (g s.data.tasks[t]) := by
  refine ⟨.setTask h hg fun task htask => ?_, ?_⟩
  · rw [hstate]
    exact Evidence.mono (tasksGrow_modify hg) (h.tasks t task htask)
  · show (s.data.tasks.modify t g)[t]? = _
    rw [List.getElem?_modify_eq, List.getElem?_eq_getElem ht]
    rfl

/-- A statement that writes nothing. -/
theorem stays {pc : ApiPc} (h : DataOk s.data) (hstep : some (s.data, pc) = some (d', pc'))
    (hcall : CallOk s.data.tasks pc) :
    Progress s (.move i fails) d' ∧ CallOk d'.tasks pc' := by
  obtain ⟨rfl, rfl⟩ := Prod.mk.inj (Option.some.inj hstep)
  exact ⟨.refl h, hcall⟩

/-- An entry that has not expired is in the cache. -/
theorem cache_of_cacheGet {d : Data} {process : ℕ} {entry : CacheEntry}
    (hget : d.cacheGet process j = some entry) : d.cache process j = some entry := by
  unfold Data.cacheGet at hget
  split at hget
  · cases hget
  · rename_i entry' hentry'
    split_ifs at hget
    rw [hentry', hget]

/-- A statement of a request that conforms. -/
theorem apiStep_spec (h : DataOk s.data) (hc : s.calls[i]? = some c) (hcall : CallOk s.data.tasks c.pc)
    (hok : c.Conforms s) (hstep : apiStep s.data c fails = some (d', pc')) :
    Progress s (.move i fails) d' ∧ CallOk d'.tasks pc' := by
  unfold Call.Conforms at hok
  cases hpc : c.pc with
  | pollLoad =>
      simp only [apiStep, hpc] at hstep
      cases hrow : s.data.jobs[c.job]? with
      | none =>
          rw [hrow] at hstep
          exact stays h hstep trivial
      | some row =>
          simp only [hrow] at hstep
          split_ifs at hstep with hterminal
          · exact stays h hstep trivial
          · exact stays h hstep (by simpa [CallOk] using hterminal)
  | pollCache seen =>
      simp only [hpc, CallOk] at hcall hok
      simp only [apiStep, hpc] at hstep
      cases hget : s.data.cacheGet c.process c.job with
      | none =>
          rw [hget] at hstep
          exact stays h hstep hcall
      | some entry =>
          simp only [hget] at hstep
          split_ifs at hstep with hdiffers
          -- the entry is of the task that the row has, so what it says has the evidence of that task
          · refine stays h hstep ⟨hcall, ?_⟩
            rw [← hok entry hget]
            exact h.cache c.process c.job entry (cache_of_cacheGet hget)
          · exact stays h hstep trivial
  | pollState seen =>
      simp only [hpc, CallOk] at hcall
      simp only [apiStep, hpc] at hstep
      exact stays h hstep ⟨hcall, evidence_celeryState h hcall⟩
  | pollRemember seen new =>
      simp only [hpc, CallOk] at hcall
      simp only [apiStep, hpc] at hstep
      obtain ⟨rfl, rfl⟩ := Prod.mk.inj (Option.some.inj hstep)
      refine ⟨.cacheSet h hcall.2, ?_⟩
      split_ifs
      · exact hcall
      · trivial
  | pollCommit seen new =>
      simp only [hpc, CallOk] at hcall hok
      simp only [apiStep, hpc] at hstep
      obtain ⟨rfl, rfl⟩ := Prod.mk.inj (Option.some.inj hstep)
      exact ⟨.writeStatus h hok hcall.1 hcall.2, trivial⟩
  | cancelLoad =>
      simp only [apiStep, hpc] at hstep
      cases hrow : s.data.jobs[c.job]? with
      | none =>
          rw [hrow] at hstep
          exact stays h hstep trivial
      | some row =>
          simp only [hrow] at hstep
          split_ifs at hstep with hterminal
          · exact stays h hstep trivial
          · exact stays h hstep (by simpa [CallOk] using hterminal)
  | cancelReload checked =>
      simp only [hpc, CallOk] at hcall hok
      simp only [apiStep, hpc, Option.map_eq_some_iff] at hstep
      obtain ⟨row, hrow, hstep⟩ := hstep
      obtain ⟨rfl, rfl⟩ := Prod.mk.inj hstep
      -- the row is loaded a second time, and still has the status that was checked
      refine ⟨.refl h, ?_, (h.jobs c.job row hrow).known⟩
      rw [(hok row hrow).1]
      exact hcall
  | cancelRevoke seen =>
      simp only [hpc, CallOk] at hcall
      simp only [apiStep, hpc] at hstep
      obtain ⟨rfl, rfl⟩ := Prod.mk.inj (Option.some.inj hstep)
      have hgrows : ∀ task : Task, Grows task { task with revoked := true } :=
        fun task => ⟨id, id, fun _ => rfl⟩
      obtain ⟨hprogress, htask⟩ := progress_record h hcall.2 hgrows fun _ => rfl
      exact ⟨hprogress, hcall.1, _, htask, rfl⟩
  | cancelCommit seen =>
      simp only [hpc, CallOk] at hcall hok
      simp only [apiStep, hpc] at hstep
      obtain ⟨rfl, rfl⟩ := Prod.mk.inj (Option.some.inj hstep)
      exact ⟨.writeStatus h hok hcall.1 hcall.2, trivial⟩
  | retryLoad =>
      simp only [apiStep, hpc] at hstep
      cases hrow : s.data.jobs[c.job]? with
      | none =>
          rw [hrow] at hstep
          exact stays h hstep trivial
      | some row =>
          simp only [hrow] at hstep
          split_ifs at hstep with hstatus hretries
          · exact stays h hstep trivial
          · exact stays h hstep trivial
          · have hretried : row.status = .failure ∨ row.status = .revoked := by
              tauto
            exact stays h hstep hretried
  | retryReload checked =>
      simp only [hpc, CallOk] at hcall hok
      simp only [apiStep, hpc, Option.map_eq_some_iff] at hstep
      obtain ⟨row, hrow, hstep⟩ := hstep
      obtain ⟨rfl, rfl⟩ := Prod.mk.inj hstep
      refine ⟨.refl h, ?_⟩
      show row.status = .failure ∨ row.status = .revoked
      rw [(hok row hrow).1]
      exact hcall
  | retryEnqueue seen =>
      simp only [hpc, CallOk] at hcall hok
      simp only [apiStep, hpc] at hstep
      split_ifs at hstep
      · exact stays h hstep trivial
      · obtain ⟨rfl, rfl⟩ := Prod.mk.inj (Option.some.inj hstep)
        refine ⟨.enqueue h _, hcall, ?_⟩
        simp [Data.enqueue]
  | retryCommit seen task =>
      simp only [hpc, CallOk] at hcall hok
      simp only [apiStep, hpc] at hstep
      split_ifs at hstep
      · exact stays h hstep trivial
      · obtain ⟨rfl, rfl⟩ := Prod.mk.inj (Option.some.inj hstep)
        exact ⟨progress_retryCommit h hc hpc hcall.1 hcall.2 hok, trivial⟩
  | bulkCommit seen task => simp only [hpc, CallOk] at hcall
  | bulkAttach task => simp only [hpc, CallOk] at hcall
  | returned out => simp [apiStep, hpc] at hstep

/-! ## Attempts -/

variable {w : ℕ} {att : Attempt} {event : WorkEvent} {wpc : WorkerPc}

theorem getJob_eq_some {d : Data} (h : d.getJob t = some (j, row)) :
    d.jobs[j]? = some row ∧ row.celeryTaskId = t := by
  unfold Data.getJob at h
  split at h
  · cases h
  · rename_i j' hj'
    obtain ⟨row', hrow', heq⟩ := Option.map_eq_some_iff.mp h
    obtain ⟨rfl, rfl⟩ := Prod.mk.inj heq
    obtain ⟨hlt, htask, -⟩ := List.findIdx?_eq_some_iff_getElem.mp hj'
    rw [List.getElem?_eq_getElem hlt, Option.some.injEq] at hrow'
    rw [hrow'] at htask
    exact ⟨by rw [List.getElem?_eq_getElem hlt, hrow'], by simpa using htask⟩

theorem attemptOk_next {callback : Callback} (h : CallbackOk tasks t callback) :
    AttemptOk tasks t callback.next := by
  cases callback with
  | started => trivial
  | progress percent => trivial
  | success result => exact h
  | failure error next => exact h.2

/-- A callback that commits in time. -/
theorem progress_callback {callback : Callback} {seen : Job} (h : DataOk s.data)
    (hcallback : CallbackOk s.data.tasks t callback) (hseen : seen.celeryTaskId = t)
    (hok : callback.Conforms s t j seen) :
    Progress s a (s.data.setJob j (callback.update s.data.now seen)) := by
  refine .setJob h fun row hrow => ?_
  have hjob := h.jobs j row hrow
  -- a row that was as it was loaded is neither revoked nor, but for another success, a success
  have hflagged : ∀ flag : Task → Bool, Unchanged s j seen →
      (∀ task, s.data.tasks[t]? = some task → flag task = false) →
      ¬ ∃ task, s.data.tasks[row.celeryTaskId]? = some task ∧ flag task = true := by
    rintro flag hunchanged hnot ⟨task, htask, hflag⟩
    rw [(hunchanged row hrow).2, hseen] at htask
    rw [hnot task htask] at hflag
    cases hflag
  have hrevoked : Unchanged s j seen →
      (∀ task, s.data.tasks[t]? = some task → task.revoked = false) → row.status ≠ .revoked := by
    intro hunchanged hnot hstatus
    have hevidence := hjob.status
    rw [hstatus] at hevidence
    exact hflagged Task.revoked hunchanged hnot hevidence
  have hsuccess : Unchanged s j seen →
      (∀ task, s.data.tasks[t]? = some task → task.succeeded = false) → row.status ≠ .success := by
    intro hunchanged hnot hstatus
    have hevidence := hjob.status
    rw [hstatus] at hevidence
    exact hflagged Task.succeeded hunchanged hnot hevidence
  cases callback with
  | started =>
      obtain ⟨hunchanged, hnot⟩ := hok
      obtain ⟨hstatus, hid⟩ := hunchanged row hrow
      have hevidence : Evidence s.data.tasks row.celeryTaskId
          (writeColumn seen.status .started row.status) := by
        rw [writeColumn_eq hstatus]
        trivial
      refine ⟨⟨hjob.known, hevidence, hjob.retried⟩, lawfulFor_of_evidence hjob ?_ ?_ hevidence⟩
      · exact fun h' => absurd h' (hsuccess hunchanged fun task htask => (hnot task htask).2)
      · exact hrevoked hunchanged fun task htask => (hnot task htask).1
  | progress percent =>
      exact ⟨⟨hjob.known, hjob.status, hjob.retried⟩, lawfulFor_of_status_eq rfl⟩
  | success result =>
      obtain ⟨hunchanged, hnot⟩ := hok
      obtain ⟨hstatus, hid⟩ := hunchanged row hrow
      have hevidence : Evidence s.data.tasks row.celeryTaskId
          (writeColumn seen.status .success row.status) := by
        rw [writeColumn_eq hstatus, hid, hseen]
        exact hcallback
      refine ⟨⟨hjob.known, hevidence, hjob.retried⟩, lawfulFor_of_evidence hjob ?_ ?_ hevidence⟩
      · exact fun _ => writeColumn_eq hstatus
      · exact hrevoked hunchanged hnot
  | failure error next =>
      obtain ⟨hunchanged, hnot⟩ := hok
      obtain ⟨hstatus, hid⟩ := hunchanged row hrow
      have hevidence : Evidence s.data.tasks row.celeryTaskId
          (writeColumn seen.status .failure row.status) := by
        rw [writeColumn_eq hstatus, hid, hseen]
        exact hcallback.1
      refine ⟨⟨hjob.known, hevidence, hjob.retried⟩, lawfulFor_of_evidence hjob ?_ ?_ hevidence⟩
      · exact fun h' => absurd h' (hsuccess hunchanged fun task htask => (hnot task htask).2)
      · exact hrevoked hunchanged fun task htask => (hnot task htask).1

/-- A statement of an attempt that conforms. -/
theorem workStep_spec (h : DataOk s.data) (hknown : att.task < s.data.tasks.length)
    (hatt : AttemptOk s.data.tasks att.task att.pc) (hok : att.Conforms s)
    (hstep : workStep s.data att event = some (d', wpc)) :
    Progress s a d' ∧ AttemptOk d'.tasks att.task wpc := by
  unfold Attempt.Conforms at hok
  cases hpc : att.pc with
  | loading callback =>
      simp only [hpc, AttemptOk] at hatt
      cases event <;> simp only [workStep, hpc] at hstep <;> try cases hstep
      cases hjob : s.data.getJob att.task with
      | none =>
          rw [hjob] at hstep
          obtain ⟨rfl, rfl⟩ := Prod.mk.inj (Option.some.inj hstep)
          exact ⟨.refl h, attemptOk_next hatt⟩
      | some found =>
          obtain ⟨j, seen⟩ := found
          rw [hjob] at hstep
          obtain ⟨rfl, rfl⟩ := Prod.mk.inj (Option.some.inj hstep)
          exact ⟨.refl h, hatt, (getJob_eq_some hjob).2⟩
  | committing callback j seen =>
      simp only [hpc, AttemptOk] at hatt hok
      cases event <;> simp only [workStep, hpc] at hstep <;> try cases hstep
      exact ⟨progress_callback h hatt.1 hatt.2 hok, attemptOk_next hatt.1⟩
  | running =>
      -- how the attempt ends is recorded with its task, before any callback speaks of it
      have hsucceeds := progress_record (a := a) (g := fun task => { task with succeeded := true }) h hknown
        (fun task => ⟨id, fun _ => rfl, id⟩) fun _ => rfl
      have hfails := progress_record (a := a) (g := fun task => { task with failed := true }) h hknown
        (fun task => ⟨fun _ => rfl, id, id⟩) fun _ => rfl
      cases event with
      | goesOn => simp [workStep, hpc] at hstep
      | progress percent =>
          simp only [workStep, hpc] at hstep
          split_ifs at hstep
          obtain ⟨rfl, rfl⟩ := Prod.mk.inj (Option.some.inj hstep)
          exact ⟨.refl h, trivial⟩
      | succeeds result =>
          simp only [workStep, hpc] at hstep
          obtain ⟨rfl, rfl⟩ := Prod.mk.inj (Option.some.inj hstep)
          refine ⟨hsucceeds.1, ?_⟩
          split_ifs
          · exact ⟨_, hsucceeds.2, rfl⟩
          · exact ⟨_, hsucceeds.2, rfl⟩
      | fails error retriesLeft =>
          simp only [workStep, hpc] at hstep
          obtain ⟨rfl, rfl⟩ := Prod.mk.inj (Option.some.inj hstep)
          have hstate : StateEvidence (s.data.setTask att.task
              fun task => { task with failed := true }).tasks att.task (retryState retriesLeft) := by
            cases retriesLeft with
            | true => trivial
            | false => exact ⟨_, hfails.2, rfl⟩
          refine ⟨hfails.1, ?_⟩
          split_ifs
          · exact ⟨⟨_, hfails.2, rfl⟩, hstate⟩
          · exact hstate
      | transient =>
          simp only [workStep, hpc] at hstep
          obtain ⟨rfl, rfl⟩ := Prod.mk.inj (Option.some.inj hstep)
          exact ⟨hfails.1, ⟨_, hfails.2, rfl⟩⟩
  | finishing state =>
      simp only [hpc, AttemptOk] at hatt
      cases event <;> simp only [workStep, hpc] at hstep <;> try cases hstep
      have hgrows : ∀ task : Task, Grows task { task with state := state } := fun _ => ⟨id, id, id⟩
      exact ⟨.setTask h hgrows fun _ _ => Evidence.mono (tasksGrow_modify hgrows) hatt, trivial⟩
  | ended => cases event <;> simp [workStep, hpc] at hstep

/-! ## Runs -/

theorem inv_init (submitted : List (JobType × Payload)) : Inv (Sys.init submitted) where
  data := by
    refine ⟨fun j row hrow => ?_, fun t task htask => ?_, fun p j entry hentry => by cases hentry⟩
    · have hrow' : (submitted.mapIdx fun i job => Job.new i job.1 job.2)[j]? = some row := hrow
      rw [List.getElem?_mapIdx] at hrow'
      obtain ⟨job, hjob, rfl⟩ := Option.map_eq_some_iff.mp hrow'
      refine ⟨?_, trivial, fun t ht => by cases ht⟩
      simpa [Sys.init, Job.new] using (List.getElem?_eq_some_iff.mp hjob).1
    · have htask' : (submitted.map fun job => Task.new job.1)[t]? = some task := htask
      rw [List.getElem?_map] at htask'
      obtain ⟨job, hjob, rfl⟩ := Option.map_eq_some_iff.mp htask'
      trivial
  calls i c hc := by simp [Sys.init] at hc
  attempts w a ha := by simp [Sys.init] at ha

/-- What a statement leaves of the requests and attempts it does not move. -/
theorem Progress.inv (hprogress : Progress s a d') {calls : List Call} {attempts : List Attempt}
    (hcalls : ∀ (i : ℕ) (c : Call), calls[i]? = some c →
      CallOk s.data.tasks c.pc ∨ CallOk d'.tasks c.pc)
    (hattempts : ∀ (w : ℕ) (a : Attempt), attempts[w]? = some a → a.task < s.data.tasks.length ∧
      (AttemptOk s.data.tasks a.task a.pc ∨ AttemptOk d'.tasks a.task a.pc)) :
    Inv ⟨d', calls, attempts⟩ where
  data := hprogress.ok
  calls i c hc := by
    rcases hcalls i c hc with hold | hnew
    · exact hold.mono hprogress.grow
    · exact hnew
  attempts w a ha := by
    obtain ⟨hknown, hatt⟩ := hattempts w a ha
    refine ⟨hprogress.grow.lt hknown, ?_⟩
    rcases hatt with hold | hnew
    · exact hold.mono hprogress.grow
    · exact hnew

/-- A step that conforms keeps the invariant and the law. -/
theorem step_spec (h : Inv s) (hok : Conforms s a) (hstep : step s a = some s') :
    Inv s' ∧ Progress s a s'.data := by
  -- what does not move still knows what it knew: tasks only gain evidence
  have hcalls : ∀ (i : ℕ) (c : Call), s.calls[i]? = some c →
      CallOk s.data.tasks c.pc ∨ CallOk s'.data.tasks c.pc := fun i c hc => .inl (h.calls i c hc)
  have hattempts : ∀ (w : ℕ) (a : Attempt), s.attempts[w]? = some a → a.task < s.data.tasks.length ∧
      (AttemptOk s.data.tasks a.task a.pc ∨ AttemptOk s'.data.tasks a.task a.pc) :=
    fun w a ha => ⟨(h.attempts w a ha).1, .inl (h.attempts w a ha).2⟩
  cases a with
  | tick seconds =>
      obtain rfl := Option.some.inj hstep
      have hprogress : Progress s (.tick seconds) { s.data with now := s.data.now + seconds } :=
        .of_tasks h.data rfl rfl (.refl _) h.data.tasks
      exact ⟨hprogress.inv hcalls hattempts, hprogress⟩
  | request process job kind =>
      obtain rfl := Option.some.inj hstep
      refine ⟨Progress.inv (a := .request process job kind) (.refl h.data) ?_ hattempts, .refl h.data⟩
      intro i c hc
      rcases getElem?_insert hc with hold | ⟨-, rfl⟩
      · exact hcalls i c hold
      · cases kind <;> exact .inl trivial
  | move i fails =>
      cases hc : s.calls[i]? with
      | none => simp [step, hc] at hstep
      | some c =>
          simp only [step, hc, Option.map_eq_some_iff] at hstep
          obtain ⟨⟨d', pc'⟩, hmove, rfl⟩ := hstep
          obtain ⟨hprogress, hcall⟩ :=
            apiStep_spec h.data hc (h.calls i c hc) (hok c hc) hmove
          refine ⟨hprogress.inv ?_ hattempts, hprogress⟩
          intro j d hd
          rcases getElem?_replace hd with ⟨-, rfl⟩ | ⟨-, hold⟩
          · exact .inr hcall
          · exact hcalls j d hold
  | deliver t =>
      cases htask : s.data.tasks[t]? with
      | none => simp [step, htask] at hstep
      | some task =>
          simp only [step, htask] at hstep
          by_cases hrevoked : task.revoked = true
          · rw [if_pos hrevoked] at hstep
            obtain rfl := Option.some.inj hstep
            have hgrows : ∀ task : Task, Grows task { task with state := .revoked } :=
              fun _ => ⟨id, id, id⟩
            have hprogress : Progress s (.deliver t)
                (s.data.setTask t fun task => { task with state := .revoked }) := by
              refine .setTask h.data hgrows fun task' htask' => ?_
              obtain rfl := Option.some.inj (htask.symm.trans htask')
              exact Evidence.mono (tasksGrow_modify hgrows) ⟨task, htask, hrevoked⟩
            exact ⟨hprogress.inv hcalls hattempts, hprogress⟩
          · rw [if_neg hrevoked] at hstep
            obtain rfl := Option.some.inj hstep
            have hprogress : Progress s (.deliver t)
                (s.data.setTask t fun task => { task with state := .started }) :=
              .setTask h.data (fun _ => ⟨id, id, id⟩) fun _ _ => trivial
            refine ⟨hprogress.inv hcalls ?_, hprogress⟩
            intro w a ha
            rcases getElem?_insert ha with hold | ⟨-, rfl⟩
            · exact hattempts w a hold
            · refine ⟨(List.getElem?_eq_some_iff.mp htask).1, .inl ?_⟩
              split_ifs <;> trivial
  | work w event =>
      cases ha : s.attempts[w]? with
      | none => simp [step, ha] at hstep
      | some att =>
          simp only [step, ha, Option.map_eq_some_iff] at hstep
          obtain ⟨⟨d', pc'⟩, hmove, rfl⟩ := hstep
          obtain ⟨hknown, hatt⟩ := h.attempts w att ha
          obtain ⟨hprogress, hatt'⟩ :=
            workStep_spec (a := .work w event) h.data hknown hatt (hok att ha) hmove
          refine ⟨hprogress.inv hcalls ?_, hprogress⟩
          intro v b hb
          rcases getElem?_replace hb with ⟨-, rfl⟩ | ⟨-, hold⟩
          · exact ⟨hknown, .inr hatt'⟩
          · exact hattempts v b hold
  | expire t =>
      obtain rfl := Option.some.inj hstep
      have hprogress : Progress s (.expire t)
          (s.data.setTask t fun task => { task with state := .pending }) :=
        .setTask h.data (fun _ => ⟨id, id, id⟩) fun _ _ => trivial
      exact ⟨hprogress.inv hcalls hattempts, hprogress⟩

/-- In every run whose steps conform, every step is lawful. -/
theorem lawful_of_conforms (submitted : List (JobType × Payload)) {as : List Action}
    (hok : Guarded step Conforms (Sys.init submitted) as) :
    Guarded step Lawful (Sys.init submitted) as :=
  guarded_of_invariant (fun _ _ _ hinv hconforms hstep => (step_spec hinv hconforms hstep).1)
    (fun _ _ hinv hconforms _ hstep => (step_spec hinv hconforms hstep).2.lawful) (inv_init submitted) hok

/-- One device to compute. -/
def sampleJobs : List (JobType × Payload) := [(.slaComputation, ⟨["device-1"], "2024-01"⟩)]

/-- The attempt fails for good, the job is retried and the new task succeeds; a poll in between. -/
def retriedOnce : List Action :=
  [.deliver 0, .work 0 .goesOn, .work 0 .goesOn, .work 0 (.fails "no data" false), .work 0 .goesOn,
    .work 0 .goesOn, .work 0 .goesOn, .request 0 0 .retry, .move 0 false, .move 0 false, .move 0 false,
    .move 0 false, .request 0 0 .poll, .move 1 false, .move 1 false, .move 1 false, .move 1 false,
    .deliver 1, .work 1 .goesOn, .work 1 .goesOn, .work 1 (.succeeds "result"), .work 1 .goesOn,
    .work 1 .goesOn, .work 1 .goesOn]

theorem lawful_retriedOnce :
    Guarded step Conforms (Sys.init sampleJobs) retriedOnce ∧
      Guarded step Lawful (Sys.init sampleJobs) retriedOnce ∧
      (run step (Sys.init sampleJobs) retriedOnce).map (fun s => s.data.jobs.map Job.status)
        = some [.success] := by
  have hok : Guarded step Conforms (Sys.init sampleJobs) retriedOnce := by decide +kernel
  exact ⟨hok, lawful_of_conforms sampleJobs hok, by decide +kernel⟩

/-- The attempt ends with a transient error, a poll brings the failure into the cache and the job, the job
is retried, and another poll has found the cached failure. -/
def staleCache : List Action :=
  [.deliver 0, .work 0 .goesOn, .work 0 .goesOn, .work 0 .transient, .work 0 .goesOn,
    .request 0 0 .poll, .move 0 false, .move 0 false, .move 0 false, .move 0 false, .move 0 false,
    .request 0 0 .retry, .move 1 false, .move 1 false, .move 1 false, .move 1 false,
    .request 0 0 .poll, .move 2 false, .move 2 false]

/-- The retried job becomes a failure again although its new task has not even started. -/
theorem retried_job_fails_from_cache :
    ∃ s, run step (Sys.init sampleJobs) staleCache = some s ∧ ¬ Lawful s (.move 2 false) := by
  have hsummary : (run step (Sys.init sampleJobs) staleCache).map (fun s =>
      (s.data.jobs[0]?.map fun row => (row.status, row.retriedTo), s.data.tasks[1]?,
        (step s (.move 2 false)).map fun s' => s'.data.jobs.map Job.status))
      = some (some (.pending, some 1), some (.new .slaComputation), some [.failure]) := by
    decide +kernel
  obtain ⟨s, hs, hparts⟩ := Option.map_eq_some_iff.mp hsummary
  obtain ⟨hjob, hparts⟩ := Prod.mk.inj hparts
  obtain ⟨htask, hnext⟩ := Prod.mk.inj hparts
  obtain ⟨row, hrow, hpair⟩ := Option.map_eq_some_iff.mp hjob
  obtain ⟨hpending, hretried⟩ := Prod.mk.inj hpair
  obtain ⟨s', hs', hjobs⟩ := Option.map_eq_some_iff.mp hnext
  refine ⟨s, hs, fun h => ?_⟩
  obtain ⟨row', hrow', hlawful⟩ := h s' hs' 0 row hrow
  have hfailure : row'.status = .failure := by
    have hmap := congrArg (·[0]?) hjobs
    simpa [hrow'] using hmap
  have hne : row'.status ≠ row.status := by
    rw [hfailure, hpending]
    decide
  obtain ⟨task, htask', hflags⟩ := hlawful.retried 1 hretried hne (.inl hfailure)
  obtain rfl := Option.some.inj (htask.symm.trans htask')
  rcases hflags with hflag | hflag <;> cases hflag

end ApexChainx.Jobs
