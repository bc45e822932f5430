import ApexChainx.Jobs.Enqueue

/-!
# One task for each computation

`_find_inflight_sla_job` decides from the rows and from Celery's states; the lock keeps two calls for the same
computation apart. At most one task for a computation is unfinished, and a call enqueues a new one exactly when
none is, in every run in which the query of a call finds a row for each unfinished task of its computation and
Celery still knows which of the candidates' tasks are over (`deduplicated_of_visible`).
-/

namespace ApexChainx.Jobs

open Lib EnqueueSys

/-! ## The same computation -/

namespace Computation

/-- The two are for one device, or for one set of devices, and for one period. -/
def Same : Computation → Computation → Prop
  | .device deviceId period, .device deviceId' period' => deviceId = deviceId' ∧ period = period'
  | .bulk deviceIds period, .bulk deviceIds' period' =>
      deviceIds.toFinset = deviceIds'.toFinset ∧ period = period'
  | _, _ => False

instance : ∀ c c', Decidable (Same c c')
  | .device _ _, .device _ _ => inferInstanceAs (Decidable (_ ∧ _))
  | .bulk _ _, .bulk _ _ => inferInstanceAs (Decidable (_ ∧ _))
  | .device _ _, .bulk _ _ => inferInstanceAs (Decidable False)
  | .bulk _ _, .device _ _ => inferInstanceAs (Decidable False)

/-- What the code compares: the devices sorted, each as often as it was named. -/
def normal : Computation → Computation
  | .device deviceId period => .device deviceId period
  | .bulk deviceIds period => .bulk (sortedIds deviceIds) period

variable {c c' d : Computation}

theorem Same.symm (h : c.Same c') : c'.Same c := by
  cases c <;> cases c' <;> first | exact h.elim | exact ⟨h.1.symm, h.2.symm⟩

theorem Same.trans (h : c.Same c') (h' : c'.Same d) : c.Same d := by
  cases c <;> cases c' <;> cases d <;>
    first | exact h.elim | exact h'.elim | exact ⟨h.1.trans h'.1, h.2.trans h'.2⟩

theorem Same.jobType_eq (h : c.Same c') : c.jobType = c'.jobType := by
  cases c <;> cases c' <;> first | exact h.elim | rfl

theorem same_of_normal_eq (h : c.normal = c'.normal) : c.Same c' := by
  cases c with
  | device deviceId period =>
      cases c' with
      | device deviceId' period' => exact ⟨(device.inj h).1, (device.inj h).2⟩
      | bulk deviceIds period' => cases h
  | bulk deviceIds period =>
      cases c' with
      | device deviceId period' => cases h
      | bulk deviceIds' period' =>
          obtain ⟨hsorted, hperiod⟩ := bulk.inj h
          have hperm : deviceIds.Perm deviceIds' :=
            (List.perm_insertionSort _ deviceIds).symm.trans
              ((List.Perm.of_eq hsorted).trans (List.perm_insertionSort _ deviceIds'))
          exact ⟨List.toFinset_eq_of_perm _ _ hperm, hperiod⟩

/-- Calls that the code takes for the same have the same lock. -/
theorem lockKey_eq_of_normal_eq (h : c.normal = c'.normal) : c.lockKey = c'.lockKey := by
  cases c with
  | device deviceId period =>
      cases c' with
      | device deviceId' period' =>
          obtain ⟨rfl, rfl⟩ := device.inj h
          rfl
      | bulk deviceIds period' => cases h
  | bulk deviceIds period =>
      cases c' with
      | device deviceId period' => cases h
      | bulk deviceIds' period' =>
          obtain ⟨hsorted, rfl⟩ := bulk.inj h
          unfold lockKey
          dsimp only
          rw [hsorted]
          rfl

/-- A stored payload matches when the code takes the two for the same. -/
theorem matchesPayload_payload_iff (htype : c.jobType = c'.jobType) (correlationId : Option String) :
    c.matchesPayload (c'.payload correlationId) = true ↔ c.normal = c'.normal := by
  cases c with
  | device deviceId period =>
      cases c' with
      | device deviceId' period' =>
          have hdevice : (devicePayload deviceId' period' correlationId).get? "device_id"
              = some (.text deviceId') := rfl
          have hperiod : (devicePayload deviceId' period' correlationId).get? "period"
              = some (.text period') := rfl
          simp only [matchesPayload, payload, hdevice, hperiod, Bool.and_eq_true, decide_eq_true_eq,
            Option.some.injEq, Value.text.injEq, normal, device.injEq]
          exact and_congr eq_comm eq_comm
      | bulk deviceIds period' => cases htype
  | bulk deviceIds period =>
      cases c' with
      | device deviceId period' => cases htype
      | bulk deviceIds' period' =>
          have hdevices : ((bulkPayload (.texts deviceIds') (.text period') correlationId).get "device_ids"
              (.texts [])).sorted = sortedIds deviceIds' := rfl
          have hperiod : (bulkPayload (.texts deviceIds') (.text period') correlationId).get? "period"
              = some (.text period') := rfl
          simp only [matchesPayload, payload, hdevices, hperiod, Bool.and_eq_true, decide_eq_true_eq,
            Option.some.injEq, Value.text.injEq, normal, bulk.injEq]
          exact and_congr eq_comm eq_comm

end Computation

/-! ## The property and its condition -/

/-- Task `t` is for the computation, and not over. -/
def Unfinished (tasks : List SlaTask) (c : Computation) (t : ℕ) : Prop :=
  ∃ task, tasks[t]? = some task ∧ task.finished = false ∧ task.computation.Same c

/-- No two unfinished tasks are for the same computation. -/
def EnqueueSys.AtMostOne (s : EnqueueSys) : Prop :=
  ∀ c t t', Unfinished s.tasks c t → Unfinished s.tasks c t' → t = t'

/-- A call returns an existing job only if its task is for the computation and unfinished; one that comes to
publish finds none unfinished, and publishes. -/
def Deduplicates (s : EnqueueSys) : EnqueueAction → Prop
  | .move i _ =>
      ∀ c ∈ s.calls[i]?,
        match c.pc with
        | .checking (row :: _) =>
            s.reuses c.computation row = true → Unfinished s.tasks c.computation row.celeryTaskId
        | .publishing =>
            (∀ t, ¬ Unfinished s.tasks c.computation t) ∧ c.computation.binds c.correlationId = true
        | _ => True
  | _ => True

/-- Each unfinished task for the computation has a row among the candidates. -/
def AllFound (s : EnqueueSys) (c : Computation) : Prop :=
  ∀ task ∈ s.tasks.zipIdx, task.1.finished = false → task.1.computation.Same c →
    ∃ row ∈ s.candidates c.jobType, row.celeryTaskId = task.2

instance (s : EnqueueSys) (c : Computation) : Decidable (AllFound s c) :=
  inferInstanceAs (Decidable (∀ task ∈ s.tasks.zipIdx, _))

/-- The task of a candidate that matches is not in flight for Celery when it is over. -/
def StateKnown (s : EnqueueSys) (c : Computation) (row : JobRecord) : Prop :=
  c.matchesPayload (coerceJobPayload row.payload) = true → ∀ task ∈ s.tasks[row.celeryTaskId]?,
    task.finished = true → task.state.inflight = false

instance (s : EnqueueSys) (c : Computation) (row : JobRecord) : Decidable (StateKnown s c row) :=
  inferInstanceAs (Decidable (_ → ∀ task ∈ s.tasks[row.celeryTaskId]?, _))

/-- What a call has to find where it stands. -/
def SeesAll (s : EnqueueSys) (c : Computation) : EnqueuePc → Prop
  | .finding => AllFound s c
  | .checking (row :: _) => StateKnown s c row
  | _ => True

instance (s : EnqueueSys) (c : Computation) : ∀ pc, Decidable (SeesAll s c pc)
  | .finding => inferInstanceAs (Decidable (AllFound s c))
  | .checking (row :: _) => inferInstanceAs (Decidable (StateKnown s c row))
  | .checking [] | .locking | .publishing | .inserting _ | .found _ | .returned _ => inferInstanceAs (Decidable True)

/-- The task takes the arguments of the call, and calls for one set of devices name each as often. When a call
queries, the unfinished tasks for its computation have rows that are pending or started and among the fifty
youngest; when it asks for a state, the result of a task that is over has not expired. -/
def Visible (s : EnqueueSys) : EnqueueAction → Prop
  | .call computation correlationId =>
      computation.binds correlationId = true ∧
        ∀ c ∈ s.calls, c.computation.Same computation → c.computation.normal = computation.normal
  | .move i _ => ∀ c ∈ s.calls[i]?, SeesAll s c.computation c.pc
  | _ => True

instance (s : EnqueueSys) : ∀ a, Decidable (Visible s a)
  | .call _ _ => inferInstanceAs (Decidable (_ ∧ ∀ c ∈ s.calls, _))
  | .move i _ => inferInstanceAs (Decidable (∀ c ∈ s.calls[i]?, _))
  | .tick _ | .fail _ | .work _ _ | .expire _ => inferInstanceAs (Decidable True)

/-! ## The invariant -/

/-- The row is that of its task, unless the task is over. -/
def RowOf (tasks : List SlaTask) (row : JobRecord) : Prop :=
  ∃ task, tasks[row.celeryTaskId]? = some task ∧ (task.finished = true ∨
    row.jobType = task.computation.jobType ∧
      ∃ correlationId, row.payload = .dict (task.computation.payload correlationId))

/-- What the place of a call says of the tasks. -/
def CallFits (tasks : List SlaTask) (c : EnqueueCall) : Prop :=
  match c.pc with
  | .checking candidates =>
      (∀ row ∈ candidates, row.jobType = c.computation.jobType ∧ RowOf tasks row) ∧
        ∀ t, Unfinished tasks c.computation t → ∃ row ∈ candidates, row.celeryTaskId = t
  | .publishing => ∀ t, ¬ Unfinished tasks c.computation t
  | .inserting t => ∃ task, tasks[t]? = some task ∧ task.computation = c.computation
  | _ => True

/-- Calls for the same computation have the same lock, which one of them holds. -/
structure LocksApart (lockId : String → ℤ) (calls : List EnqueueCall) : Prop where
  binds : ∀ c ∈ calls, c.computation.binds c.correlationId = true
  agree : ∀ c ∈ calls, ∀ c' ∈ calls, c.computation.Same c'.computation →
    c.computation.normal = c'.computation.normal
  locks : ∀ (i j : ℕ) (c c' : EnqueueCall), calls[i]? = some c → calls[j]? = some c' → i ≠ j →
    c.pc.holding = true → c'.pc.holding = true →
    lockId c.computation.lockKey ≠ lockId c'.computation.lockKey

/-- What a call knows of the unfinished tasks for its computation stays true while it holds the lock. -/
structure Exclusive (lockId : String → ℤ) (s : EnqueueSys) : Prop where
  apart : LocksApart lockId s.calls
  asked : ∀ task ∈ s.tasks, task.finished = false → ∃ c ∈ s.calls, c.computation = task.computation
  inflight : ∀ task ∈ s.tasks, task.finished = false → task.state.inflight = true
  rows : ∀ row ∈ s.rows, RowOf s.tasks row
  fits : ∀ c ∈ s.calls, CallFits s.tasks c
  unique : s.AtMostOne

section

variable {lockId : String → ℤ} {s s' : EnqueueSys} {i : ℕ} {c : EnqueueCall} {tasks tasks' : List SlaTask}

theorem mem_setCall {pc : EnqueuePc} {c' : EnqueueCall} (h : c' ∈ (s.setCall i c pc).calls) :
    c' = { c with pc } ∨ c' ∈ s.calls := (List.mem_or_eq_of_mem_set h).symm

/-- The computations of the calls stay what they are. -/
theorem exists_setCall (hi : s.calls[i]? = some c) (pc : EnqueuePc) {d : EnqueueCall} (hd : d ∈ s.calls) :
    ∃ d' ∈ (s.setCall i c pc).calls, d'.computation = d.computation := by
  obtain ⟨j, hj⟩ := List.mem_iff_getElem?.mp hd
  by_cases hij : i = j
  · subst hij
    obtain rfl : c = d := Option.some.inj (hi.symm.trans hj)
    exact ⟨_, List.mem_set (List.getElem?_eq_some_iff.mp hi).1 _, rfl⟩
  · refine ⟨d, List.mem_of_getElem? (i := j) ?_, rfl⟩
    simpa only [EnqueueSys.setCall, List.getElem?_set_ne hij] using hj

/-- A call goes on with the lock it has, or gets it. -/
theorem LocksApart.setCall (h : LocksApart lockId s.calls) (hi : s.calls[i]? = some c) {pc : EnqueuePc}
    (hlock : pc.holding = true → c.pc.holding = true ∨ s.locked lockId i c = false) :
    LocksApart lockId (s.setCall i c pc).calls := by
  have hmem : c ∈ s.calls := List.mem_of_getElem? hi
  have hcall : ∀ c' ∈ (s.setCall i c pc).calls, ∃ d ∈ s.calls,
      c'.computation = d.computation ∧ c'.correlationId = d.correlationId := by
    intro c' hc'
    rcases mem_setCall hc' with rfl | hold
    · exact ⟨c, hmem, rfl, rfl⟩
    · exact ⟨c', hold, rfl, rfl⟩
  have hfree : pc.holding = true → ∀ (j : ℕ) (c' : EnqueueCall), s.calls[j]? = some c' → j ≠ i →
      c'.pc.holding = true → lockId c'.computation.lockKey ≠ lockId c.computation.lockKey := by
    intro hholding j c' hj hne hholding'
    rcases hlock hholding with hheld | hunlocked
    · exact h.locks j i c' c hj hi hne hholding' hheld
    · have hnone := (List.any_eq_false.mp hunlocked) (c', j) (List.mem_zipIdx_iff_getElem?.mpr hj)
      simpa [hne, hholding'] using hnone
  refine ⟨?_, ?_, ?_⟩
  · intro c' hc'
    obtain ⟨d, hd, hcomputation, hcorrelation⟩ := hcall c' hc'
    rw [hcomputation, hcorrelation]
    exact h.binds d hd
  · intro c₁ hc₁ c₂ hc₂
    obtain ⟨d₁, hd₁, hcomputation₁, -⟩ := hcall c₁ hc₁
    obtain ⟨d₂, hd₂, hcomputation₂, -⟩ := hcall c₂ hc₂
    rw [hcomputation₁, hcomputation₂]
    exact h.agree d₁ hd₁ d₂ hd₂
  · intro j k c₁ c₂ hj hk hne hholding hholding'
    rcases getElem?_setCall hj with ⟨rfl, rfl⟩ | ⟨hji, hold⟩
    · rcases getElem?_setCall hk with ⟨rfl, -⟩ | ⟨hki, hold⟩
      · exact absurd rfl hne
      · exact (hfree hholding k c₂ hold hki hholding').symm
    · rcases getElem?_setCall hk with ⟨rfl, rfl⟩ | ⟨hki, hold'⟩
      · exact hfree hholding' j c₁ hold hji hholding
      · exact h.locks j k c₁ c₂ hold hold' hne hholding hholding'

/-- A call goes on, knowing what its new place says. -/
theorem Exclusive.setCall (h : Exclusive lockId s) (hi : s.calls[i]? = some c) {pc : EnqueuePc}
    (hlock : pc.holding = true → c.pc.holding = true ∨ s.locked lockId i c = false)
    (hfits : CallFits s.tasks { c with pc }) : Exclusive lockId (s.setCall i c pc) where
  apart := h.apart.setCall hi hlock
  asked task htask hopen := by
    obtain ⟨d, hd, heq⟩ := h.asked task htask hopen
    obtain ⟨d', hd', heq'⟩ := exists_setCall hi pc hd
    exact ⟨d', hd', heq'.trans heq⟩
  inflight := h.inflight
  rows := h.rows
  fits c' hc' := by
    rcases mem_setCall hc' with rfl | hold
    · exact hfits
    · exact h.fits c' hold
  unique := h.unique

/-! ### Workers -/

/-- A task goes on: for the same computation, over if it was, and in flight for Celery if it is not. -/
structure GoesOn (task next : SlaTask) : Prop where
  computation : next.computation = task.computation
  finished : task.finished = true → next.finished = true
  inflight : next.finished = false → next.state.inflight = true

variable {task next : SlaTask} {t u : ℕ}

/-- A statement that leaves the state of the task alone. -/
theorem goesOn_pc (hopen : task.finished = false) (hinflight : task.state.inflight = true) (pc : TaskPc) :
    GoesOn task { task with pc } := by
  refine ⟨rfl, ?_, fun _ => hinflight⟩
  intro hover
  rw [hopen] at hover
  cases hover

theorem goesOn_nextTask {event : TaskEvent}
    (hinflight : task.finished = false → task.state.inflight = true)
    (hnext : s.nextTask t task event = some next) : GoesOn task next := by
  cases hpc : task.pc with
  | waiting =>
      cases event <;> simp only [nextTask, hpc, reduceCtorEq, Option.some.injEq] at hnext
      subst hnext
      exact ⟨rfl, by simp [SlaTask.finished, hpc], fun _ => rfl⟩
  | loading callback =>
      have hopen : task.finished = false := by simp [SlaTask.finished, hpc]
      cases event <;> simp only [nextTask, interrupted, hpc, reduceCtorEq, Option.some.injEq] at hnext
      case goesOn =>
        split at hnext <;> obtain rfl := Option.some.inj hnext <;> exact goesOn_pc hopen (hinflight hopen) _
      all_goals exact hnext ▸ goesOn_pc hopen (hinflight hopen) _
  | committing callback seen =>
      have hopen : task.finished = false := by simp [SlaTask.finished, hpc]
      cases event <;> simp only [nextTask, interrupted, hpc, reduceCtorEq, Option.some.injEq] at hnext
      all_goals exact hnext ▸ goesOn_pc hopen (hinflight hopen) _
  | running =>
      have hopen : task.finished = false := by simp [SlaTask.finished, hpc]
      cases event <;> simp only [nextTask, interrupted, hpc, reduceCtorEq, Option.some.injEq] at hnext
      all_goals exact hnext ▸ goesOn_pc hopen (hinflight hopen) _
  | retrying =>
      have hopen : task.finished = false := by simp [SlaTask.finished, hpc]
      cases event <;> simp only [nextTask, interrupted, hpc, reduceCtorEq, Option.some.injEq] at hnext
      case goesOn =>
        subst hnext
        exact ⟨rfl, by simp [hopen], fun _ => rfl⟩
      all_goals exact hnext ▸ goesOn_pc hopen (hinflight hopen) _
  | storing ended =>
      have hopen : task.finished = false := by simp [SlaTask.finished, hpc]
      cases ended <;> cases event <;> simp only [nextTask, interrupted, hpc, reduceCtorEq, Option.some.injEq] at hnext
      case returned.goesOn => exact hnext ▸ ⟨rfl, fun _ => rfl, nofun⟩
      case raised.goesOn => exact hnext ▸ ⟨rfl, fun _ => rfl, nofun⟩
      all_goals exact hnext ▸ goesOn_pc hopen (hinflight hopen) _
  | done ended => cases event <;> simp [nextTask, hpc] at hnext
  | old => cases event <;> simp [nextTask, hpc] at hnext

theorem Unfinished.of_set (htask : tasks[t]? = some task) (hnext : GoesOn task next)
    {c : Computation} (h : Unfinished (tasks.set t next) c u) : Unfinished tasks c u := by
  obtain ⟨task', htask', hopen, hsame⟩ := h
  by_cases htu : t = u
  · subst htu
    rw [List.getElem?_set_self (List.getElem?_eq_some_iff.mp htask).1, Option.some.injEq] at htask'
    subst htask'
    refine ⟨task, htask, ?_, hnext.computation ▸ hsame⟩
    by_contra hover
    rw [hnext.finished (Bool.eq_true_of_not_eq_false hover)] at hopen
    cases hopen
  · rw [List.getElem?_set_ne htu] at htask'
    exact ⟨task', htask', hopen, hsame⟩

theorem RowOf.set (htask : tasks[t]? = some task) (hnext : GoesOn task next) {row : JobRecord}
    (h : RowOf tasks row) : RowOf (tasks.set t next) row := by
  obtain ⟨task', htask', hrow⟩ := h
  by_cases htu : t = row.celeryTaskId
  · subst htu
    obtain rfl : task = task' := Option.some.inj (htask.symm.trans htask')
    refine ⟨next, List.getElem?_set_self (List.getElem?_eq_some_iff.mp htask).1, ?_⟩
    rw [hnext.computation]
    exact hrow.imp_left hnext.finished
  · exact ⟨task', by rw [List.getElem?_set_ne htu]; exact htask', hrow⟩

theorem CallFits.set (htask : tasks[t]? = some task) (hnext : GoesOn task next) {c : EnqueueCall}
    (h : CallFits tasks c) : CallFits (tasks.set t next) c := by
  unfold CallFits at h ⊢
  cases hpc : c.pc with
  | checking candidates =>
      simp only [hpc] at h ⊢
      refine ⟨fun row hrow => ⟨(h.1 row hrow).1, (h.1 row hrow).2.set htask hnext⟩, ?_⟩
      exact fun u hu => h.2 u (hu.of_set htask hnext)
  | publishing =>
      simp only [hpc] at h ⊢
      exact fun u hu => h u (hu.of_set htask hnext)
  | inserting u =>
      simp only [hpc] at h ⊢
      obtain ⟨task', htask', hcomputation⟩ := h
      by_cases htu : t = u
      · subst htu
        obtain rfl : task = task' := Option.some.inj (htask.symm.trans htask')
        exact ⟨next, List.getElem?_set_self (List.getElem?_eq_some_iff.mp htask).1,
          hnext.computation.trans hcomputation⟩
      · exact ⟨task', by rw [List.getElem?_set_ne htu]; exact htask', hcomputation⟩
  | _ => trivial

/-- A task goes on, and a callback may write to its row. -/
theorem Exclusive.setTask (h : Exclusive lockId s) (htask : s.tasks[t]? = some task)
    (hnext : GoesOn task next) {rows : List JobRecord}
    (hrows : ∀ row ∈ rows, ∃ row' ∈ s.rows, row.celeryTaskId = row'.celeryTaskId ∧
      row.jobType = row'.jobType ∧ row.payload = row'.payload) :
    Exclusive lockId { s with rows, tasks := s.tasks.set t next } where
  apart := h.apart
  asked task' htask' hopen := by
    rcases List.mem_or_eq_of_mem_set htask' with hold | rfl
    · exact h.asked task' hold hopen
    · have hopen' : task.finished = false := by
        by_contra hover
        rw [hnext.finished (Bool.eq_true_of_not_eq_false hover)] at hopen
        cases hopen
      rw [hnext.computation]
      exact h.asked task (List.mem_of_getElem? htask) hopen'
  inflight task' htask' hopen := by
    rcases List.mem_or_eq_of_mem_set htask' with hold | rfl
    · exact h.inflight task' hold hopen
    · exact hnext.inflight hopen
  rows row hrow := by
    obtain ⟨row', hrow', hid, htype, hpayload⟩ := hrows row hrow
    have hold := (h.rows row' hrow').set htask hnext
    rwa [RowOf, ← hid, ← htype, ← hpayload] at hold
  fits c hc := (h.fits c hc).set htask hnext
  unique c u u' hu hu' := h.unique c u u' (hu.of_set htask hnext) (hu'.of_set htask hnext)

/-! ### Calls -/

theorem unfinished_concat {c d : Computation} (h : Unfinished (tasks ++ [SlaTask.new c]) d u) :
    Unfinished tasks d u ∨ (u = tasks.length ∧ c.Same d) := by
  obtain ⟨task, htask, hopen, hsame⟩ := h
  rcases getElem?_concat_eq_some htask with hold | ⟨hlast, rfl⟩
  · exact .inl ⟨task, hold, hopen, hsame⟩
  · exact .inr ⟨hlast, hsame⟩

theorem getElem?_concat_of_eq_some {new : SlaTask} (h : tasks[t]? = some task) :
    (tasks ++ [new])[t]? = some task := by
  rw [List.getElem?_append_left (List.getElem?_eq_some_iff.mp h).1]
  exact h

theorem RowOf.concat {row : JobRecord} (h : RowOf tasks row) (new : SlaTask) : RowOf (tasks ++ [new]) row := by
  obtain ⟨task, htask, hrow⟩ := h
  exact ⟨task, getElem?_concat_of_eq_some htask, hrow⟩

/-- A new task is not for the computation of a call that holds another lock. -/
theorem CallFits.concat {c d : EnqueueCall} (h : CallFits tasks d)
    (hother : d.pc.holding = true → ¬ c.computation.Same d.computation) :
    CallFits (tasks ++ [SlaTask.new c.computation]) d := by
  unfold CallFits at h ⊢
  cases hpc : d.pc with
  | checking candidates =>
      simp only [hpc] at h ⊢
      refine ⟨fun row hrow => ⟨(h.1 row hrow).1, (h.1 row hrow).2.concat _⟩, ?_⟩
      intro u hu
      rcases unfinished_concat hu with hold | ⟨-, hsame⟩
      · exact h.2 u hold
      · exact absurd hsame (hother (by rw [hpc]; rfl))
  | publishing =>
      simp only [hpc] at h ⊢
      intro u hu
      rcases unfinished_concat hu with hold | ⟨-, hsame⟩
      · exact h u hold
      · exact absurd hsame (hother (by rw [hpc]; rfl))
  | inserting u =>
      simp only [hpc] at h ⊢
      obtain ⟨task, htask, hcomputation⟩ := h
      exact ⟨task, getElem?_concat_of_eq_some htask, hcomputation⟩
  | _ => trivial

/-- A call that holds the lock, having found no unfinished task, publishes one. -/
theorem Exclusive.publish (h : Exclusive lockId s) (hi : s.calls[i]? = some c) (hpc : c.pc = .publishing) :
    Exclusive lockId ({ s with tasks := s.tasks ++ [SlaTask.new c.computation] }.setCall i c
      (.inserting s.tasks.length)) := by
  have hmem : c ∈ s.calls := List.mem_of_getElem? hi
  have hholding : c.pc.holding = true := by rw [hpc]; rfl
  have hnone : ∀ u, ¬ Unfinished s.tasks c.computation u := by
    have hfits := h.fits c hmem
    simpa only [CallFits, hpc] using hfits
  refine ⟨h.apart.setCall hi fun _ => .inl hholding, ?_, ?_, ?_, ?_, ?_⟩
  · intro task htask hopen
    have hasked : ∃ d ∈ s.calls, d.computation = task.computation := by
      rcases List.mem_append.mp htask with hold | hnew
      · exact h.asked task hold hopen
      · obtain rfl := List.mem_singleton.mp hnew
        exact ⟨c, hmem, rfl⟩
    obtain ⟨d, hd, heq⟩ := hasked
    obtain ⟨d', hd', heq'⟩ := exists_setCall hi (.inserting s.tasks.length) hd
    exact ⟨d', hd', heq'.trans heq⟩
  · intro task htask hopen
    rcases List.mem_append.mp htask with hold | hnew
    · exact h.inflight task hold hopen
    · obtain rfl := List.mem_singleton.mp hnew
      rfl
  · intro row hrow
    exact (h.rows row hrow).concat _
  · intro d hd
    obtain ⟨j, hj⟩ := List.mem_iff_getElem?.mp hd
    rcases getElem?_setCall hj with ⟨-, rfl⟩ | ⟨hji, hold⟩
    · exact ⟨.new c.computation, List.getElem?_concat_length, rfl⟩
    · refine (h.fits d (List.mem_of_getElem? hold)).concat ?_
      -- the two calls would hold one lock
      intro hholding' hsame
      have hagree := h.apart.agree c hmem d (List.mem_of_getElem? hold) hsame
      exact h.apart.locks i j c d hi hold (Ne.symm hji) hholding hholding'
        (congrArg lockId (Computation.lockKey_eq_of_normal_eq hagree))
  · intro d u u' hu hu'
    rcases unfinished_concat hu with hold | ⟨rfl, hsame⟩
    · rcases unfinished_concat hu' with hold' | ⟨rfl, hsame'⟩
      · exact h.unique d u u' hold hold'
      · obtain ⟨task, htask, hopen, hsame⟩ := hold
        exact absurd ⟨task, htask, hopen, hsame.trans hsame'.symm⟩ (hnone u)
    · rcases unfinished_concat hu' with hold' | ⟨rfl, -⟩
      · obtain ⟨task, htask, hopen, hsame'⟩ := hold'
        exact absurd ⟨task, htask, hopen, hsame'.trans hsame.symm⟩ (hnone u')
      · rfl

/-- The row of a new task. -/
theorem Exclusive.insert (h : Exclusive lockId s) (hi : s.calls[i]? = some c) (hpc : c.pc = .inserting t)
    (position : ℕ) : Exclusive lockId ({ s with
      rows := s.rows.take position ++ JobRecord.new t c.computation c.correlationId ::
        s.rows.drop position }.setCall i c (.returned (some t))) := by
  have hset : Exclusive lockId (s.setCall i c (.returned (some t))) := h.setCall hi nofun trivial
  refine ⟨hset.apart, hset.asked, hset.inflight, ?_, hset.fits, hset.unique⟩
  intro row hrow
  have hmem : row = JobRecord.new t c.computation c.correlationId ∨ row ∈ s.rows := by
    simp only [EnqueueSys.setCall] at hrow
    rwa [List.perm_middle.mem_iff, List.mem_cons, List.take_append_drop] at hrow
  rcases hmem with rfl | hold
  · have hfits := h.fits c (List.mem_of_getElem? hi)
    simp only [CallFits, hpc] at hfits
    obtain ⟨task, htask, hcomputation⟩ := hfits
    refine ⟨task, htask, .inr ⟨?_, c.correlationId, ?_⟩⟩
    · simp only [JobRecord.new, hcomputation]
    · simp only [JobRecord.new, hcomputation]
  · exact h.rows row hold

/-- A candidate whose task is unfinished and for the computation is returned. -/
theorem Exclusive.reuses (h : Exclusive lockId s) (hmem : c ∈ s.calls) {row : JobRecord}
    (hrow : RowOf s.tasks row) (hopen : Unfinished s.tasks c.computation row.celeryTaskId) :
    s.reuses c.computation row = true := by
  obtain ⟨task, htask, hunfinished, hsame⟩ := hopen
  obtain ⟨task', htask', hpayload⟩ := hrow
  obtain rfl : task = task' := Option.some.inj (htask.symm.trans htask')
  rw [hunfinished] at hpayload
  obtain hover | ⟨-, correlationId, hpayload⟩ := hpayload
  · cases hover
  · have hmemTask := List.mem_of_getElem? htask
    obtain ⟨d, hd, heq⟩ := h.asked task hmemTask hunfinished
    -- the matching is by the devices as they were named, not by the set
    have hnormal : c.computation.normal = task.computation.normal := by
      rw [← heq]
      exact h.apart.agree c hmem d hd (heq ▸ hsame.symm)
    simp only [EnqueueSys.reuses, hpayload, coerceJobPayload, Bool.and_eq_true]
    refine ⟨(Computation.matchesPayload_payload_iff hsame.jobType_eq.symm correlationId).mpr hnormal, ?_⟩
    simp only [celeryState, htask, Option.map_some, Option.getD_some]
    exact h.inflight task hmemTask hunfinished

/-- A candidate is returned only if its task is unfinished and for the computation. -/
theorem unfinished_of_reuses {row : JobRecord} (htype : row.jobType = c.computation.jobType)
    (hrow : RowOf s.tasks row) (hknown : StateKnown s c.computation row)
    (hreuses : s.reuses c.computation row = true) :
    Unfinished s.tasks c.computation row.celeryTaskId := by
  obtain ⟨task, htask, hpayload⟩ := hrow
  simp only [EnqueueSys.reuses, Bool.and_eq_true, celeryState, htask, Option.map_some,
    Option.getD_some] at hreuses
  obtain ⟨hmatches, hinflight⟩ := hreuses
  -- the result backend says pending of a task that is over and forgotten
  have hunfinished : task.finished = false := by
    by_contra hover
    have hstate := hknown hmatches task htask (Bool.eq_true_of_not_eq_false hover)
    rw [hstate] at hinflight
    cases hinflight
  rw [hunfinished] at hpayload
  obtain hover | ⟨htask', correlationId, hpayload⟩ := hpayload
  · cases hover
  · rw [hpayload, coerceJobPayload,
      Computation.matchesPayload_payload_iff (htype.symm.trans htask') correlationId] at hmatches
    exact ⟨task, htask, hunfinished, (Computation.same_of_normal_eq hmatches).symm⟩

theorem Exclusive.moveCall (h : Exclusive lockId s) {position : ℕ} (hi : s.calls[i]? = some c)
    (hvisible : Visible s (.move i position)) (hmoves : CallMoves lockId s i c position s') :
    Exclusive lockId s' := by
  have hmem : c ∈ s.calls := List.mem_of_getElem? hi
  have hvisible := hvisible c hi
  have hfits := h.fits c hmem
  cases hmoves with
  | lock hpc hfree => exact h.setCall hi (fun _ => .inr hfree) trivial
  | find hpc =>
      simp only [hpc] at hvisible
      refine h.setCall hi (fun _ => .inl (by rw [hpc]; rfl)) ⟨?_, ?_⟩
      · intro row hrow
        obtain ⟨hrow, hselected⟩ := List.mem_filter.mp (List.mem_of_mem_take hrow)
        exact ⟨(of_decide_eq_true hselected).1, h.rows row (List.mem_reverse.mp hrow)⟩
      · rintro u ⟨task, htask, hopen, hsame⟩
        -- that the query finds it is the condition
        exact hvisible (task, u) (List.mem_zipIdx_iff_getElem?.mpr htask) hopen hsame
  | noneLeft hpc =>
      refine h.setCall hi (fun _ => .inl (by rw [hpc]; rfl)) ?_
      simp only [CallFits, hpc] at hfits
      intro u hu
      obtain ⟨row, hrow, -⟩ := hfits.2 u hu
      cases hrow
  | reuse hpc _ => exact h.setCall hi (fun _ => .inl (by rw [hpc]; rfl)) trivial
  | @skip row rest hpc hskips =>
      simp only [CallFits, hpc] at hfits
      refine h.setCall hi (fun _ => .inl (by rw [hpc]; rfl)) ⟨?_, ?_⟩
      · exact fun row' hrow' => hfits.1 row' (List.mem_cons_of_mem row hrow')
      · intro u hu
        obtain ⟨row', hrow', rfl⟩ := hfits.2 u hu
        -- the row that is passed over is not that of an unfinished task
        rcases List.mem_cons.mp hrow' with rfl | hrest
        · exact absurd (h.reuses hmem (hfits.1 row' hrow').2 hu) hskips
        · exact ⟨row', hrest, rfl⟩
  | publish hpc => exact h.publish hi hpc
  | refuse _ => exact h.setCall hi nofun trivial
  | insert hpc => exact h.insert hi hpc position
  | answer _ => exact h.setCall hi nofun trivial

/-- A call begins. -/
theorem Exclusive.call (h : Exclusive lockId s) {computation : Computation} {correlationId : Option String}
    (hvisible : Visible s (.call computation correlationId)) :
    Exclusive lockId { s with calls := s.calls ++ [⟨computation, correlationId, .locking⟩] } := by
  obtain ⟨hbinds, hagree⟩ := hvisible
  have hmem : ∀ c ∈ s.calls ++ [⟨computation, correlationId, .locking⟩],
      c ∈ s.calls ∨ c = ⟨computation, correlationId, .locking⟩ := by
    intro c hc
    simpa using hc
  refine ⟨⟨?_, ?_, ?_⟩, ?_, h.inflight, h.rows, ?_, h.unique⟩
  · intro c hc
    rcases hmem c hc with hold | rfl
    · exact h.apart.binds c hold
    · exact hbinds
  · intro c hc c' hc' hsame
    rcases hmem c hc with hold | rfl
    · rcases hmem c' hc' with hold' | rfl
      · exact h.apart.agree c hold c' hold' hsame
      · exact hagree c hold hsame
    · rcases hmem c' hc' with hold' | rfl
      · exact (hagree c' hold' hsame.symm).symm
      · rfl
  · intro j k c c' hj hk hne hholding hholding'
    rcases getElem?_concat_eq_some hj with hold | ⟨-, rfl⟩
    · rcases getElem?_concat_eq_some hk with hold' | ⟨-, rfl⟩
      · exact h.apart.locks j k c c' hold hold' hne hholding hholding'
      · cases hholding'
    · cases hholding
  · intro task htask hopen
    obtain ⟨d, hd, heq⟩ := h.asked task htask hopen
    exact ⟨d, List.mem_append_left _ hd, heq⟩
  · intro c hc
    rcases hmem c hc with hold | rfl
    · exact h.fits c hold
    · trivial

/-- A callback leaves the columns alone by which a job is found. -/
theorem Callback.record_frame (callback : Callback) (now : ℤ) (seen row : JobRecord) :
    (callback.record now seen row).celeryTaskId = row.celeryTaskId ∧
      (callback.record now seen row).jobType = row.jobType ∧
      (callback.record now seen row).payload = row.payload := by
  cases callback <;> exact ⟨rfl, rfl, rfl⟩

/-- What finds a job is in the rows as it was. -/
theorem frame_nextRows {event : TaskEvent} {row : JobRecord} (hrow : row ∈ s.nextRows t task event) :
    ∃ row' ∈ s.rows, row.celeryTaskId = row'.celeryTaskId ∧ row.jobType = row'.jobType ∧
      row.payload = row'.payload := by
  unfold nextRows at hrow
  split at hrow
  · obtain ⟨row', hrow', rfl⟩ := List.mem_map.mp hrow
    refine ⟨row', hrow', ?_⟩
    split
    · exact Callback.record_frame _ _ _ _
    · exact ⟨rfl, rfl, rfl⟩
  · exact ⟨row, hrow, rfl, rfl, rfl⟩

theorem Exclusive.step (h : Exclusive lockId s) {a : EnqueueAction} (hvisible : Visible s a)
    (hstep : EnqueueSys.step lockId s a = some s') : Exclusive lockId s' := by
  cases steps_of_step hstep with
  | tick seconds => exact ⟨h.apart, h.asked, h.inflight, h.rows, h.fits, h.unique⟩
  | call computation correlationId => exact h.call hvisible
  | move hi hmoves => exact h.moveCall hi hvisible hmoves
  | fail hi => exact h.setCall hi nofun trivial
  | work htask hnext =>
      exact h.setTask htask (goesOn_nextTask (h.inflight _ (List.mem_of_getElem? htask)) hnext)
        fun row hrow => frame_nextRows hrow
  | @expire t task htask =>
      have hnext : GoesOn task { task with state := .pending } := ⟨rfl, id, fun _ => rfl⟩
      exact h.setTask htask hnext fun row hrow => ⟨row, hrow, rfl, rfl, rfl⟩

/-- What a call does in a state of the invariant. -/
theorem Exclusive.deduplicates (h : Exclusive lockId s) {a : EnqueueAction} (hvisible : Visible s a) :
    Deduplicates s a := by
  cases a with
  | move i position =>
      intro c hi
      have hmem : c ∈ s.calls := List.mem_of_getElem? hi
      have hfits := h.fits c hmem
      have hvisible := hvisible c hi
      cases hpc : c.pc with
      | checking candidates =>
          cases candidates with
          | nil => trivial
          | cons row rest =>
              simp only [CallFits, hpc] at hfits
              simp only [hpc] at hvisible
              obtain ⟨htype, hrow⟩ := hfits.1 row List.mem_cons_self
              exact unfinished_of_reuses htype hrow hvisible
      | publishing =>
          simp only [CallFits, hpc] at hfits
          exact ⟨hfits, h.apart.binds c hmem⟩
      | _ => trivial
  | _ => trivial

end

theorem exclusive_init (lockId : String → ℤ) (old : List (JobRecord × SlaTask)) :
    Exclusive lockId (.init old) := by
  have hover : ∀ task ∈ (EnqueueSys.init old).tasks, task.finished = true := by
    intro task htask
    obtain ⟨job, -, rfl⟩ := List.mem_map.mp htask
    rfl
  refine ⟨⟨nofun, nofun, ?_⟩, ?_, ?_, ?_, nofun, ?_⟩
  · intro i j c c' hi
    cases hi
  · intro task htask hopen
    rw [hover task htask] at hopen
    cases hopen
  · intro task htask hopen
    rw [hover task htask] at hopen
    cases hopen
  · intro row hrow
    obtain ⟨t, ht, rfl⟩ := List.mem_mapIdx.mp hrow
    have htask : (EnqueueSys.init old).tasks[t]? = some { old[t].2 with pc := .old } := by
      simp [EnqueueSys.init, ht]
    exact ⟨_, htask, .inl rfl⟩
  · rintro c t t' ⟨task, htask, hopen, -⟩
    rw [hover task (List.mem_of_getElem? htask)] at hopen
    cases hopen

/-- A job is retried by Celery, its row says that it failed, and another call comes. -/
def retriedAndCalled : List EnqueueAction :=
  [.call (.device "device-1" "2026-01") none, .move 0 0, .move 0 0, .move 0 0, .move 0 0, .move 0 0,
    .work 0 .goesOn, .work 0 .goesOn, .work 0 .goesOn, .work 0 (.fails "no data"), .work 0 .goesOn,
    .work 0 .goesOn, .work 0 .goesOn,
    .call (.device "device-1" "2026-01") none, .move 1 0, .move 1 0, .move 1 0, .move 1 0]

/-- A job finishes before its row is inserted, its result expires, and another call comes. -/
def expiredAndCalled : List EnqueueAction :=
  [.call (.device "device-1" "2026-01") none, .move 0 0, .move 0 0, .move 0 0, .move 0 0,
    .work 0 .goesOn, .work 0 .goesOn, .work 0 (.succeeds "result"), .work 0 .goesOn, .work 0 .goesOn,
    .move 0 0, .expire 0,
    .call (.device "device-1" "2026-01") none, .move 1 0, .move 1 0] ++ [.move 1 0]

/-- A second call while the task of the first is executed. -/
def calledTwice : List EnqueueAction :=
  [.call (.device "device-1" "2026-01") none, .move 0 0, .move 0 0, .move 0 0, .move 0 0, .move 0 0,
    .work 0 .goesOn, .work 0 .goesOn, .work 0 .goesOn,
    .call (.device "device-1" "2026-01") none, .move 1 0, .move 1 0, .move 1 0, .move 1 0]

theorem two_tasks_or_none :
    (¬ ∀ s, run (EnqueueSys.step fun _ => 0) (.init []) retriedAndCalled = some s → s.AtMostOne) ∧
      ¬ Guarded (EnqueueSys.step fun _ => 0) Deduplicates (.init []) expiredAndCalled := by
  constructor
  · intro h
    have hunique := h _ rfl (.device "device-1" "2026-01") 0 1
      ⟨_, rfl, rfl, rfl, rfl⟩ ⟨_, rfl, rfl, rfl, rfl⟩
    cases hunique
  · intro h
    obtain ⟨hreturned, -⟩ := (guarded_append_iff.mp h).2 _ rfl
    obtain ⟨task, htask, hopen, -⟩ := hreturned _ rfl (by decide +kernel)
    obtain rfl := Option.some.inj htask
    cases hopen

/-- In every run in which calls see the unfinished tasks for their computations, at most one task for a
computation is unfinished, and a call enqueues a new one exactly when none is. -/
theorem deduplicated_of_visible (lockId : String → ℤ) (old : List (JobRecord × SlaTask))
    (as : List EnqueueAction) {s : EnqueueSys}
    (hvisible : Guarded (EnqueueSys.step lockId) Visible (.init old) as)
    (hrun : run (EnqueueSys.step lockId) (.init old) as = some s) :
    s.AtMostOne ∧ Guarded (EnqueueSys.step lockId) Deduplicates (.init old) as := by
  have hstep : ∀ s a s', Exclusive lockId s → Visible s a → EnqueueSys.step lockId s a = some s' →
      Exclusive lockId s' := fun _ _ _ h hvisible hstep => h.step hvisible hstep
  have hinit := exclusive_init lockId old
  have hexclusive := run_invariant_of_guarded hstep hinit hvisible hrun
  exact ⟨hexclusive.unique,
    guarded_of_invariant hstep (fun _ _ h hvisible => h.deduplicates hvisible) hinit hvisible⟩

theorem called_twice_deduplicated :
    ∃ s, run (EnqueueSys.step fun _ => 0) (.init []) calledTwice = some s ∧ s.AtMostOne ∧
      Guarded (EnqueueSys.step fun _ => 0) Deduplicates (.init []) calledTwice :=
  ⟨_, rfl, deduplicated_of_visible (fun _ => 0) [] calledTwice (by decide +kernel) rfl⟩

end ApexChainx.Jobs
