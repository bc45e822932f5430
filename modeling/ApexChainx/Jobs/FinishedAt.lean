import ApexChainx.Jobs.Status

/-!
# When a job finished

`finished_at` is written by the two callbacks that end an attempt and cleared by `retry_job`; the status is
written by these and by three more: the poll, `cancel_job` and the callback that starts an attempt.
`keeps_step` says for each committed write when it leaves the two columns in step, from the row that it loaded
and the row that it overwrites, and `finishedAt_iff` takes it to every interleaving.
-/

namespace ApexChainx.Jobs

open ApexChainx.Lib

/-- `finished_at` is set exactly in the terminal statuses. -/
def Job.Finished (row : Job) : Prop := row.status.terminal = row.finishedAt.isSome

def AllFinished (s : Sys) : Prop := ∀ row ∈ s.data.jobs, row.Finished

/-! ## The condition on a write -/

/-- A start overwrites no terminal row. A success or a failure writes both columns, unless the row it loaded
had one of the values already; then it overwrites a terminal row. -/
def Callback.Keeps (now : ℤ) (seen row : Job) : Callback → Prop
  | .started => seen.status = .started ∨ row.status.terminal = false
  | .progress _ => True
  | .success _ => (seen.status = .success ↔ seen.finishedAt = some now) ∨ row.status.terminal = true
  | .failure _ _ => (seen.status = .failure ↔ seen.finishedAt = some now) ∨ row.status.terminal = true

/-- A retry resets both columns, unless one of them was loaded reset; then it overwrites a row that is not
terminal. -/
def RetryKeeps (seen row : Job) : Prop :=
  (seen.status = .pending ↔ seen.finishedAt = none) ∨ row.status.terminal = false

/-- A poll is not the first to see the end of a job, nor its revival; a cancellation overwrites a terminal
row. -/
def ApiPc.Keeps (d : Data) (j : ℕ) (row : Job) : ApiPc → Prop
  | .pollCommit seen new => seen.status = new ∨ new.terminal = row.status.terminal
  | .cancelCommit seen => seen.status = .revoked ∨ row.status.terminal = true
  | .retryCommit seen task => d.taken j task = true ∨ RetryKeeps seen row
  | .bulkCommit seen _ => RetryKeeps seen row
  | _ => True

def WorkerPc.Keeps (d : Data) : WorkerPc → Prop
  | .committing callback j seen => ∀ row ∈ d.jobs[j]?, callback.Keeps d.now seen row
  | _ => True

/-- The statement writes what keeps the columns of the row it writes to in step. -/
def Keeps (s : Sys) : Action → Prop
  | .move i _ => ∀ c ∈ s.calls[i]?, ∀ row ∈ s.data.jobs[c.job]?, c.pc.Keeps s.data c.job row
  | .work w _ => ∀ a ∈ s.attempts[w]?, a.pc.Keeps s.data
  | _ => True

instance (now : ℤ) (seen row : Job) : (callback : Callback) → Decidable (callback.Keeps now seen row)
  | .started => inferInstanceAs (Decidable (_ ∨ _))
  | .progress _ => inferInstanceAs (Decidable True)
  | .success _ => inferInstanceAs (Decidable ((_ ↔ _) ∨ _))
  | .failure _ _ => inferInstanceAs (Decidable ((_ ↔ _) ∨ _))

instance (seen row : Job) : Decidable (RetryKeeps seen row) := inferInstanceAs (Decidable ((_ ↔ _) ∨ _))

instance (d : Data) (j : ℕ) (row : Job) (pc : ApiPc) : Decidable (pc.Keeps d j row) := by
  cases pc <;> unfold ApiPc.Keeps <;> infer_instance

instance (d : Data) (pc : WorkerPc) : Decidable (pc.Keeps d) := by
  cases pc <;> unfold WorkerPc.Keeps <;> infer_instance

instance (s : Sys) : (action : Action) → Decidable (Keeps s action)
  | .move i _ =>
      inferInstanceAs (Decidable (∀ c ∈ s.calls[i]?, ∀ row ∈ s.data.jobs[c.job]?, c.pc.Keeps s.data c.job row))
  | .work w _ => inferInstanceAs (Decidable (∀ a ∈ s.attempts[w]?, a.pc.Keeps s.data))
  | .tick _ | .request _ _ _ | .deliver _ | .expire _ => inferInstanceAs (Decidable True)

/-! ## Single writes -/

section Writes

variable {row seen : Job} {now : ℤ}

/-- A status written without `finished_at`. -/
theorem finished_status_iff (h : row.Finished) (new : JobStatus) :
    Job.Finished { row with status := writeColumn seen.status new row.status } ↔
      seen.status = new ∨ new.terminal = row.status.terminal := by
  unfold Job.Finished at h ⊢
  unfold writeColumn
  by_cases hnew : new = seen.status
  · simp [hnew, h]
  · simp [hnew, Ne.symm hnew, h]

/-- A terminal status written together with the time. -/
theorem finished_end_iff (h : row.Finished) {new : JobStatus} (hnew : new.terminal = true) (row' : Job)
    (hstatus : row'.status = writeColumn seen.status new row.status)
    (htime : row'.finishedAt = writeColumn seen.finishedAt (some now) row.finishedAt) :
    row'.Finished ↔ (seen.status = new ↔ seen.finishedAt = some now) ∨ row.status.terminal = true := by
  unfold Job.Finished at h ⊢
  rw [hstatus, htime]
  unfold writeColumn
  by_cases hs : new = seen.status
  · by_cases ht : some now = seen.finishedAt
    · simp [hs, ht, h]
    · simp [hs, ht, Ne.symm ht]
  · by_cases ht : some now = seen.finishedAt
    · -- the status is written and the time, loaded with this value, is not
      have hne : ¬(seen.status = new ↔ seen.finishedAt = some now) := by simp [Ne.symm hs, ← ht]
      rw [if_neg hs, if_pos ht, hnew, ← h]
      exact ⟨fun e => .inr e.symm, fun e => (e.resolve_left hne).symm⟩
    · simp [hs, Ne.symm hs, ht, Ne.symm ht, hnew]

theorem finished_retried_iff (h : row.Finished) (task task' : ℕ) :
    Job.Finished { row.retried now seen task with celeryTaskId := task' } ↔ RetryKeeps seen row := by
  unfold Job.Finished at h ⊢
  unfold RetryKeeps Job.retried writeColumn
  by_cases hs : JobStatus.pending = seen.status
  · by_cases ht : none = seen.finishedAt
    · simp [hs, ht, h]
    · simp [hs, ht, Ne.symm ht]
  · by_cases ht : none = seen.finishedAt
    · -- the status is reset and the time was loaded null
      have hne : ¬(seen.status = .pending ↔ seen.finishedAt = none) := by simp [Ne.symm hs, ← ht]
      rw [if_neg hs, if_pos ht, ← h]
      exact ⟨fun e => .inr e.symm, fun e => (e.resolve_left hne).symm⟩
    · simp [hs, Ne.symm hs, ht, Ne.symm ht, JobStatus.terminal]

theorem finished_callback_iff (h : row.Finished) (callback : Callback) :
    (callback.update now seen row).Finished ↔ callback.Keeps now seen row := by
  cases callback with
  | started => exact (finished_status_iff h .started).trans (or_congr Iff.rfl eq_comm)
  | progress percent => exact iff_of_true h trivial
  | success result => exact finished_end_iff h rfl _ rfl rfl
  | failure error next => exact finished_end_iff h rfl _ rfl rfl

end Writes

/-! ## Steps -/

theorem forall_mem_modify_iff {l : List Job} (h : ∀ row ∈ l, row.Finished) (j : ℕ) (g : Job → Job) :
    (∀ row ∈ l.modify j g, row.Finished) ↔ ∀ row, l[j]? = some row → (g row).Finished := by
  constructor
  · intro hall row hrow
    refine hall (g row) (List.mem_of_getElem? (i := j) ?_)
    rw [List.getElem?_modify_eq, hrow]
    rfl
  · intro hg row hmem
    obtain ⟨i, hi⟩ := List.getElem?_of_mem hmem
    by_cases hij : j = i
    · subst hij
      rw [List.getElem?_modify_eq] at hi
      obtain ⟨old, hold, rfl⟩ := Option.map_eq_some_iff.mp hi
      exact hg old hold
    · rw [List.getElem?_modify_ne _ _ hij] at hi
      exact h row (List.mem_of_getElem? hi)

/-- What a statement of a request does to the jobs. -/
theorem apiStep_jobs {d d' : Data} {c : Call} {fails : Bool} {pc : ApiPc}
    (h : apiStep d c fails = some (d', pc)) :
    match c.pc with
    | .pollCommit seen new =>
        d'.jobs = d.jobs.modify c.job fun row => { row with status := writeColumn seen.status new row.status }
    | .cancelCommit seen =>
        d'.jobs = d.jobs.modify c.job fun row =>
          { row with status := writeColumn seen.status .revoked row.status }
    | .retryCommit seen task =>
        d.taken c.job task = true ∧ d'.jobs = d.jobs ∨ d.taken c.job task = false ∧
          d'.jobs = d.jobs.modify c.job fun row =>
            { row.retried d.now seen task with
              celeryTaskId := writeColumn seen.celeryTaskId task row.celeryTaskId }
    | .bulkCommit seen task =>
        d'.jobs = (d.jobs.modify c.job fun row => row.retried d.now seen task) ++
          [.new task .bulkSlaComputation seen.payload]
    | .bulkAttach task =>
        d'.jobs = d.jobs ∨ d'.jobs = d.jobs.modify c.job fun row => { row with celeryTaskId := task }
    | _ => d'.jobs = d.jobs := by
  unfold apiStep at h
  cases hpc : c.pc with
  | retryCommit seen task =>
      simp only [hpc] at h ⊢
      split at h
      · rename_i htaken
        obtain ⟨rfl, -⟩ := Prod.mk.inj (Option.some.inj h)
        exact .inl ⟨htaken, rfl⟩
      · rename_i htaken
        obtain ⟨rfl, -⟩ := Prod.mk.inj (Option.some.inj h)
        exact .inr ⟨Bool.eq_false_iff.mpr htaken, rfl⟩
  | bulkAttach task =>
      simp only [hpc] at h ⊢
      split at h
      · obtain ⟨rfl, -⟩ := Prod.mk.inj (Option.some.inj h)
        exact .inl rfl
      · obtain ⟨rfl, -⟩ := Prod.mk.inj (Option.some.inj h)
        exact .inr rfl
  | cancelReload checked | retryReload checked =>
      simp only [hpc] at h ⊢
      obtain ⟨row, -, heq⟩ := Option.map_eq_some_iff.mp h
      obtain ⟨rfl, -⟩ := Prod.mk.inj heq
      rfl
  | returned out => simp [hpc] at h
  | _ =>
      simp only [hpc] at h ⊢
      repeat' split at h
      all_goals
        obtain ⟨rfl, -⟩ := Prod.mk.inj (Option.some.inj h)
        rfl

/-- What a statement of an attempt does to the jobs. -/
theorem workStep_jobs {d d' : Data} {a : Attempt} {event : WorkEvent} {pc : WorkerPc}
    (h : workStep d a event = some (d', pc)) :
    match a.pc with
    | .committing callback j seen => d'.jobs = d.jobs.modify j (callback.update d.now seen)
    | _ => d'.jobs = d.jobs := by
  cases hpc : a.pc with
  | loading callback =>
      cases event <;> simp only [workStep, hpc] at h <;> try cases h
      split at h
      all_goals
        obtain ⟨rfl, -⟩ := Prod.mk.inj (Option.some.inj h)
        rfl
  | committing callback j seen =>
      cases event <;> simp only [workStep, hpc] at h <;> try cases h
      rfl
  | running =>
      cases event with
      | goesOn => simp [workStep, hpc] at h
      | progress percent =>
          simp only [workStep, hpc] at h
          split_ifs at h
          obtain ⟨rfl, -⟩ := Prod.mk.inj (Option.some.inj h)
          rfl
      | succeeds result | fails error retriesLeft | transient =>
          simp only [workStep, hpc] at h
          obtain ⟨rfl, -⟩ := Prod.mk.inj (Option.some.inj h)
          rfl
  | finishing state =>
      cases event <;> simp only [workStep, hpc] at h <;> try cases h
      rfl
  | ended => cases event <;> simp [workStep, hpc] at h

variable {s s' : Sys} {action : Action}

/-- A request's statement keeps the columns in step exactly when its write does. -/
theorem move_iff (h : AllFinished s) {i : ℕ} {fails : Bool} (hstep : step s (.move i fails) = some s') :
    AllFinished s' ↔ Keeps s (.move i fails) := by
  unfold step at hstep
  cases hc : s.calls[i]? with
  | none => simp [hc] at hstep
  | some c =>
      simp only [hc] at hstep
      obtain ⟨⟨d', pc⟩, hapi, rfl⟩ := Option.map_eq_some_iff.mp hstep
      have hkeeps : Keeps s (.move i fails) ↔
          ∀ row, s.data.jobs[c.job]? = some row → c.pc.Keeps s.data c.job row := by
        refine ⟨fun hall => hall c hc, fun hall c' hc' => ?_⟩
        obtain rfl := Option.some.inj (hc.symm.trans hc')
        exact hall
      have hjobs := apiStep_jobs hapi
      rw [hkeeps]
      unfold AllFinished
      dsimp only
      cases hpc : c.pc with
      | pollCommit seen new =>
          rw [hpc] at hjobs
          rw [hjobs, forall_mem_modify_iff h]
          exact forall₂_congr fun row hrow => finished_status_iff (h row (List.mem_of_getElem? hrow)) new
      | cancelCommit seen =>
          rw [hpc] at hjobs
          rw [hjobs, forall_mem_modify_iff h]
          exact forall₂_congr fun row hrow =>
            (finished_status_iff (h row (List.mem_of_getElem? hrow)) .revoked).trans (or_congr Iff.rfl eq_comm)
      | retryCommit seen task =>
          rw [hpc] at hjobs
          rcases hjobs with ⟨htaken, hjobs⟩ | ⟨htaken, hjobs⟩
          · rw [hjobs]
            exact iff_of_true h fun row _ => .inl htaken
          · rw [hjobs, forall_mem_modify_iff h]
            refine forall₂_congr fun row hrow => ?_
            rw [finished_retried_iff (h row (List.mem_of_getElem? hrow))]
            simp [ApiPc.Keeps, htaken]
      | bulkCommit seen task =>
          rw [hpc] at hjobs
          rw [hjobs, List.forall_mem_append, forall_mem_modify_iff h]
          -- the bulk task inserts a row of its own
          have hnew : ∀ row ∈ [Job.new task .bulkSlaComputation seen.payload], row.Finished := by
            intro row hrow
            rw [List.mem_singleton.mp hrow]
            rfl
          rw [and_iff_left hnew]
          exact forall₂_congr fun row hrow => finished_retried_iff (h row (List.mem_of_getElem? hrow)) task _
      | bulkAttach task =>
          rw [hpc] at hjobs
          refine iff_of_true ?_ fun row _ => trivial
          rcases hjobs with hjobs | hjobs
          · rwa [hjobs]
          · rw [hjobs, forall_mem_modify_iff h]
            exact fun row hrow => h row (List.mem_of_getElem? hrow)
      | _ =>
          rw [hpc] at hjobs
          rw [hjobs]
          exact iff_of_true h fun row _ => trivial

theorem work_iff (h : AllFinished s) {w : ℕ} {event : WorkEvent} (hstep : step s (.work w event) = some s') :
    AllFinished s' ↔ Keeps s (.work w event) := by
  unfold step at hstep
  cases ha : s.attempts[w]? with
  | none => simp [ha] at hstep
  | some a =>
      simp only [ha] at hstep
      obtain ⟨⟨d', pc⟩, hwork, rfl⟩ := Option.map_eq_some_iff.mp hstep
      have hjobs := workStep_jobs hwork
      have hkeeps : Keeps s (.work w event) ↔ a.pc.Keeps s.data := by
        refine ⟨fun hall => hall a ha, fun hall a' ha' => ?_⟩
        obtain rfl := Option.some.inj (ha.symm.trans ha')
        exact hall
      rw [hkeeps]
      unfold AllFinished
      dsimp only
      cases hpc : a.pc with
      | committing callback j seen =>
          rw [hpc] at hjobs
          rw [hjobs, forall_mem_modify_iff h]
          exact forall₂_congr fun row hrow =>
            finished_callback_iff (h row (List.mem_of_getElem? hrow)) callback
      | _ =>
          rw [hpc] at hjobs
          rw [hjobs]
          exact iff_of_true h trivial

/-- From a state in which the columns are in step, a step keeps them so exactly when its write does. -/
theorem keeps_step (h : AllFinished s) (hstep : step s action = some s') :
    AllFinished s' ↔ Keeps s action := by
  cases action with
  | move i fails => exact move_iff h hstep
  | work w event => exact work_iff h hstep
  | deliver t =>
      refine iff_of_true ?_ trivial
      unfold step at hstep
      cases ht : s.data.tasks[t]? with
      | none => simp [ht] at hstep
      | some task =>
          simp only [ht] at hstep
          split at hstep
          all_goals
            obtain rfl := Option.some.inj hstep
            exact h
  | tick | request | expire =>
      obtain rfl := Option.some.inj hstep
      exact iff_of_true h trivial

/-- Along a run from jobs that were just submitted, `finished_at` is set on the terminal jobs and on no others
exactly when every write meets its condition. -/
theorem finishedAt_iff (submitted : List (JobType × Payload)) {as : List Action}
    (hrun : run step (Sys.init submitted) as = some s) :
    (∀ bs t, bs <+: as → run step (Sys.init submitted) bs = some t → AllFinished t) ↔
      Guarded step Keeps (Sys.init submitted) as := by
  refine forall_prefix_iff_guarded (fun _ _ _ => keeps_step) ?_ hrun
  intro row hrow
  obtain ⟨i, hi, rfl⟩ := List.mem_mapIdx.mp hrow
  rfl

/-- A job that is computed in one attempt. -/
def computed : List Action :=
  [.deliver 0, .work 0 .goesOn, .work 0 .goesOn, .work 0 (.succeeds "result"), .work 0 .goesOn,
    .work 0 .goesOn, .work 0 .goesOn]

theorem finishedAt_computed : ∃ s,
    run step (Sys.init [(.slaComputation, ⟨["device-1"], "2024-01"⟩)]) computed = some s ∧
      ∀ bs t, bs <+: computed →
        run step (Sys.init [(.slaComputation, ⟨["device-1"], "2024-01"⟩)]) bs = some t → AllFinished t := by
  obtain ⟨s, hrun⟩ : ∃ s, run step (Sys.init [(.slaComputation, ⟨["device-1"], "2024-01"⟩)]) computed = some s :=
    Option.isSome_iff_exists.mp (by decide +kernel)
  exact ⟨s, hrun, (finishedAt_iff _ hrun).mpr (by decide +kernel)⟩

/-- A job that is cancelled: it is revoked and has no `finished_at`. -/
theorem cancelled_without_finishedAt : ∃ s,
    run step (Sys.init [(.slaComputation, ⟨["device-1"], "2024-01"⟩)])
        [.request 0 0 .cancel, .move 0 false, .move 0 false, .move 0 false, .move 0 false] = some s ∧
      s.data.jobs.map (fun row => (row.status, row.finishedAt)) = [(.revoked, none)] ∧ ¬ AllFinished s := by
  have hrows : (run step (Sys.init [(.slaComputation, ⟨["device-1"], "2024-01"⟩)])
      [.request 0 0 .cancel, .move 0 false, .move 0 false, .move 0 false, .move 0 false]).map
      (fun s => s.data.jobs.map fun row => (row.status, row.finishedAt)) = some [(.revoked, none)] := by
    decide +kernel
  obtain ⟨s, hrun, hjobs⟩ := Option.map_eq_some_iff.mp hrows
  refine ⟨s, hrun, hjobs, fun h => ?_⟩
  obtain ⟨row, hrow, hpair⟩ := List.mem_map.mp (hjobs ▸ List.mem_singleton_self (JobStatus.revoked, none))
  have hfinished := h row hrow
  obtain ⟨hstatus, htime⟩ := Prod.mk.inj hpair
  rw [Job.Finished, hstatus, htime] at hfinished
  cases hfinished

end ApexChainx.Jobs
