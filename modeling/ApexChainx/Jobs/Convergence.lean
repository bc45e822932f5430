import ApexChainx.Jobs.Enqueue

/-!
# From a task to its job

A worker finds the row of its task only after the enqueuing transaction has committed, and a callback without
a row does nothing. A row shows how its task is over in every run in which the last callback of each task finds
the row, and no exception reaches Celery without having been marked (`converged_of_marked`).
-/

namespace ApexChainx.Jobs

open Lib EnqueueSys

/-- The row shows how its task is over. -/
def JobRecord.Shows (row : JobRecord) : Ended → Prop
  | .returned result =>
      row.status = .success ∧ row.progress = 100 ∧ row.finishedAt.isSome = true ∧ row.result = some result
  | .raised error => row.status = .failure ∧ row.error = some error

/-- Every committed row shows how its task is over, once it is. -/
def EnqueueSys.Converged (s : EnqueueSys) : Prop :=
  ∀ row ∈ s.rows, ∀ task ∈ s.tasks[row.celeryTaskId]?, ∀ ended, task.pc = .done ended → row.Shows ended

/-- A statement of a worker leaves no end of its task unmarked: the callback that marks it finds the row and
does not raise, and neither a transient error nor the end of its process ends the task. -/
def marksEnd (hasRow : Bool) : TaskPc → TaskEvent → Bool
  | .loading (.success _), .goesOn => hasRow
  | .loading (.failure _ next), .goesOn => next = .retry || hasRow
  | .loading (.failure _ _), .raises _ => false
  | .committing (.failure _ _) _, .raises _ => false
  | .running, .transient _ => false
  | _, .killed _ => false
  | _, _ => true

/-- The end of every task is marked in its row. -/
def Marked (s : EnqueueSys) : EnqueueAction → Prop
  | .work t event => ∀ task ∈ s.tasks[t]?, marksEnd (s.getJob t).isSome task.pc event = true
  | _ => True

instance (s : EnqueueSys) : ∀ a, Decidable (Marked s a)
  | .work t _ => inferInstanceAs (Decidable (∀ task ∈ s.tasks[t]?, _ = true))
  | .tick _ | .call _ _ | .move _ _ | .fail _ | .expire _ => inferInstanceAs (Decidable True)

/-! ## One task -/

/-- What the table says of a task that stands at `pc`. -/
def Shown (rows : List JobRecord) (t : ℕ) : TaskPc → Prop
  | .committing _ seen => seen ∈ rows ∧ seen.celeryTaskId = t
  | .storing ended => ∃ row ∈ rows, row.celeryTaskId = t ∧ row.Shows ended
  | .done ended => ∃ row ∈ rows, row.celeryTaskId = t ∧ row.Shows ended
  | _ => True

section

variable {s : EnqueueSys} {rows rows' : List JobRecord} {t : ℕ} {pc : TaskPc} {task next : SlaTask}
  {event : TaskEvent}

theorem Callback.celeryTaskId_record (callback : Callback) (now : ℤ) (seen row : JobRecord) :
    (callback.record now seen row).celeryTaskId = row.celeryTaskId := by
  cases callback <;> rfl

/-- The commit of the last callback of a task, from the row as it was loaded. -/
theorem shows_record {callback : Callback} {ended : Ended} (h : afterCallback callback = .storing ended)
    (now : ℤ) (seen : JobRecord) : (callback.record now seen seen).Shows ended := by
  cases callback with
  | started => cases h
  | progress percent => cases h
  | success result =>
      obtain rfl := TaskPc.storing.inj h
      refine ⟨writeColumn_eq rfl, writeColumn_eq rfl, ?_, writeColumn_eq rfl⟩
      simp [Callback.record, writeColumn_eq]
  | failure error next =>
      simp only [afterCallback] at h
      split at h
      · cases h
      · obtain rfl := TaskPc.storing.inj h
        exact ⟨writeColumn_eq rfl, writeColumn_eq rfl⟩

/-- What the table says of a task depends on the rows of the task. -/
theorem Shown.of_rows (h : Shown rows t pc) (hrows : ∀ row ∈ rows, row.celeryTaskId = t → row ∈ rows') :
    Shown rows' t pc := by
  cases pc with
  | committing callback seen => exact ⟨hrows seen h.1 h.2, h.2⟩
  | storing ended =>
      obtain ⟨row, hrow, htask, hshows⟩ := h
      exact ⟨row, hrows row hrow htask, htask, hshows⟩
  | done ended =>
      obtain ⟨row, hrow, htask, hshows⟩ := h
      exact ⟨row, hrows row hrow htask, htask, hshows⟩
  | _ => trivial

/-- How a task comes to `pc`: to a commit from the query that found the row, to its end by the commit of a
callback, and past it from there. -/
def Arrives (s : EnqueueSys) (t : ℕ) (task : SlaTask) (event : TaskEvent) : TaskPc → Prop
  | .committing _ seen => s.getJob t = some seen ∧ s.nextRows t task event = s.rows
  | .storing ended => ∃ callback seen, task.pc = .committing callback seen ∧ event = .goesOn ∧
      afterCallback callback = .storing ended
  | .done ended => task.pc = .storing ended ∧ s.nextRows t task event = s.rows
  | _ => True

theorem afterCallback_cases (callback : Callback) :
    afterCallback callback = .running ∨ afterCallback callback = .retrying ∨
      ∃ ended, afterCallback callback = .storing ended := by
  cases callback with
  | failure error next =>
      by_cases hretry : next = .retry
      · exact .inr (.inl (if_pos hretry))
      · exact .inr (.inr ⟨.raised error, if_neg hretry⟩)
  | success result => exact .inr (.inr ⟨.returned result, rfl⟩)
  | _ => exact .inl rfl

/-- A callback that does nothing leads to no end. -/
theorem arrives_of_no_row {callback : Callback} (h : marksEnd false (.loading callback) .goesOn = true) :
    Arrives s t task event (afterCallback callback) := by
  cases callback with
  | success result => cases h
  | failure error next =>
      have hretry : next = .retry := by simpa [marksEnd] using h
      simp only [afterCallback, hretry, if_true]
      trivial
  | _ => trivial

/-- An exception that is not raised while one is marked leads to no end. -/
theorem arrives_of_handled {callback : Callback} {pc : TaskPc} {error : String} {hasRow : Bool}
    (hpc : pc = .loading callback ∨ ∃ seen, pc = .committing callback seen)
    (h : marksEnd hasRow pc (.raises error) = true) :
    Arrives s t task event (handled task callback error) := by
  rcases hpc with rfl | ⟨seen, rfl⟩
  · cases callback <;> first | exact (Bool.false_ne_true h).elim | trivial
  · cases callback <;> first | exact (Bool.false_ne_true h).elim | trivial

/-- A task is interrupted by the loss of its worker only. -/
theorem arrives_of_interrupted {pc : TaskPc} {hasRow : Bool} {event' : TaskEvent}
    (h : marksEnd hasRow pc event' = true) (hnext : interrupted task event' = some next) :
    Arrives s t task event next.pc := by
  cases event' with
  | killed error =>
      -- the condition rules the end of the process out wherever the task stands
      have hkilled : marksEnd hasRow pc (.killed error) = false := by
        unfold marksEnd
        split <;> simp_all
      rw [hkilled] at h
      cases h
  | lost => exact Option.some.inj hnext ▸ trivial
  | _ => cases hnext

/-- A statement of a worker that marks the end of its task. -/
theorem arrives_nextTask (hmarked : Marked s (.work t event)) (htask : s.tasks[t]? = some task)
    (hnext : s.nextTask t task event = some next) : Arrives s t task event next.pc := by
  have hmarked := hmarked task htask
  cases hpc : task.pc with
  | waiting =>
      simp only [nextTask, hpc] at hnext
      split at hnext
      · exact Option.some.inj hnext ▸ trivial
      · cases hnext
  | loading callback =>
      rw [hpc] at hmarked
      simp only [nextTask, hpc] at hnext
      split at hnext
      · split at hnext
        · rename_i hjob
          rw [hjob] at hmarked
          exact Option.some.inj hnext ▸ arrives_of_no_row hmarked
        · rename_i seen hjob
          exact Option.some.inj hnext ▸ ⟨hjob, by simp only [nextRows, hpc]⟩
      · exact Option.some.inj hnext ▸ arrives_of_handled (.inl rfl) hmarked
      · exact arrives_of_interrupted hmarked hnext
  | committing callback seen =>
      rw [hpc] at hmarked
      simp only [nextTask, hpc] at hnext
      split at hnext
      · obtain rfl := Option.some.inj hnext
        obtain hafter | hafter | ⟨ended, hafter⟩ := afterCallback_cases callback
        · simp only [hafter]; trivial
        · simp only [hafter]; trivial
        · simp only [hafter]
          exact ⟨callback, seen, hpc, rfl, hafter⟩
      · exact Option.some.inj hnext ▸ arrives_of_handled (.inr ⟨seen, rfl⟩) hmarked
      · exact arrives_of_interrupted hmarked hnext
  | running =>
      rw [hpc] at hmarked
      simp only [nextTask, hpc] at hnext
      split at hnext
      · exact Option.some.inj hnext ▸ trivial
      · exact Option.some.inj hnext ▸ trivial
      · exact Option.some.inj hnext ▸ trivial
      · -- a transient error is raised without being marked
        cases hmarked
      · exact arrives_of_interrupted hmarked hnext
  | retrying =>
      rw [hpc] at hmarked
      simp only [nextTask, hpc] at hnext
      split at hnext
      · exact Option.some.inj hnext ▸ trivial
      · exact arrives_of_interrupted hmarked hnext
  | storing ended =>
      rw [hpc] at hmarked
      simp only [nextTask, hpc] at hnext
      split at hnext
      · have hrows : s.nextRows t task .goesOn = s.rows := by simp only [nextRows, hpc]
        split at hnext
        · exact Option.some.inj hnext ▸ ⟨hpc, hrows⟩
        · exact Option.some.inj hnext ▸ ⟨hpc, hrows⟩
      · exact arrives_of_interrupted hmarked hnext
  | done ended => simp [nextTask, hpc] at hnext
  | old => simp [nextTask, hpc] at hnext

end

/-! ## Runs -/

/-- Each task has one row at most, which only the call that published it inserts, and the table says of each
task what it should. -/
structure Tracked (s : EnqueueSys) : Prop where
  nodup : (s.rows.map JobRecord.celeryTaskId).Nodup
  published : ∀ row ∈ s.rows, row.celeryTaskId < s.tasks.length
  inserting : ∀ (i : ℕ) (c : EnqueueCall) (t : ℕ), s.calls[i]? = some c → c.pc = .inserting t →
    t < s.tasks.length ∧ ∀ row ∈ s.rows, row.celeryTaskId ≠ t
  own : ∀ (i j : ℕ) (c c' : EnqueueCall) (t : ℕ), s.calls[i]? = some c → s.calls[j]? = some c' →
    c.pc = .inserting t → c'.pc = .inserting t → i = j
  shown : ∀ t task, s.tasks[t]? = some task → Shown s.rows t task.pc

section

variable {s s' : EnqueueSys} {i position : ℕ} {c : EnqueueCall}

/-- Calls that are about to insert their rows were so before. -/
theorem Tracked.of_calls (h : Tracked s) {calls : List EnqueueCall}
    (hcalls : ∀ (j : ℕ) (c : EnqueueCall) (t : ℕ), calls[j]? = some c → c.pc = .inserting t →
      ∃ c', s.calls[j]? = some c' ∧ c'.pc = .inserting t) : Tracked { s with calls } where
  nodup := h.nodup
  published := h.published
  inserting j c t hj hpc := by
    obtain ⟨c', hj', hpc'⟩ := hcalls j c t hj hpc
    exact h.inserting j c' t hj' hpc'
  own j k c d t hj hk hpc hpc' := by
    obtain ⟨c', hj', hpcj⟩ := hcalls j c t hj hpc
    obtain ⟨d', hk', hpck⟩ := hcalls k d t hk hpc'
    exact h.own j k c' d' t hj' hk' hpcj hpck
  shown := h.shown

/-- A call that goes elsewhere than to its insert. -/
theorem Tracked.setCall (h : Tracked s) {pc : EnqueuePc} (hpc : ∀ t, pc ≠ .inserting t) :
    Tracked (s.setCall i c pc) := by
  refine h.of_calls ?_
  intro j c' t hj hinserting
  rcases getElem?_setCall hj with ⟨-, rfl⟩ | ⟨-, hold⟩
  · exact absurd hinserting (hpc t)
  · exact ⟨c', hold, hinserting⟩

/-- A task is published, and its call is about to insert the row. -/
theorem Tracked.publish (h : Tracked s) (i : ℕ) (c : EnqueueCall) :
    Tracked ({ s with tasks := s.tasks ++ [SlaTask.new c.computation] }.setCall i c
      (.inserting s.tasks.length)) where
  nodup := h.nodup
  published row hrow := by
    have hlt := h.published row hrow
    simp only [EnqueueSys.setCall, List.length_append]
    omega
  inserting j c' t hj hpc := by
    simp only [EnqueueSys.setCall, List.length_append, List.length_singleton]
    rcases getElem?_setCall hj with ⟨-, rfl⟩ | ⟨-, hold⟩
    · obtain rfl := EnqueuePc.inserting.inj hpc
      -- every row belongs to an older task
      exact ⟨Nat.lt_succ_self _, fun row hrow => Nat.ne_of_lt (h.published row hrow)⟩
    · obtain ⟨hlt, hrows⟩ := h.inserting j c' t hold hpc
      exact ⟨by omega, hrows⟩
  own j k c' d t hj hk hpc hpc' := by
    rcases getElem?_setCall hj with ⟨rfl, rfl⟩ | ⟨-, hold⟩
    · rcases getElem?_setCall hk with ⟨rfl, -⟩ | ⟨-, hold⟩
      · rfl
      · obtain rfl := EnqueuePc.inserting.inj hpc
        have hlt := (h.inserting k d _ hold hpc').1
        omega
    · rcases getElem?_setCall hk with ⟨rfl, rfl⟩ | ⟨-, hold'⟩
      · obtain rfl := EnqueuePc.inserting.inj hpc'
        have hlt := (h.inserting j c' _ hold hpc).1
        omega
      · exact h.own j k c' d t hold hold' hpc hpc'
  shown t task htask := by
    rcases getElem?_concat_eq_some htask with hold | ⟨-, rfl⟩
    · exact h.shown t task hold
    · trivial

/-- A call inserts the row of its task. -/
theorem Tracked.insert (h : Tracked s) {t : ℕ} (hi : s.calls[i]? = some c) (hpc : c.pc = .inserting t)
    (position : ℕ) : Tracked ({ s with
      rows := s.rows.take position ++ JobRecord.new t c.computation c.correlationId ::
        s.rows.drop position }.setCall i c (.returned (some t))) := by
  obtain ⟨hlt, hnew⟩ := h.inserting i c t hi hpc
  have hmem : ∀ row, row ∈ s.rows.take position ++ JobRecord.new t c.computation c.correlationId ::
      s.rows.drop position ↔ row = .new t c.computation c.correlationId ∨ row ∈ s.rows := by
    intro row
    rw [List.perm_middle.mem_iff, List.mem_cons, List.take_append_drop]
  refine ⟨?_, ?_, ?_, ?_, ?_⟩
  · -- where the row is inserted plays no part
    have hperm : (s.rows.take position ++ JobRecord.new t c.computation c.correlationId ::
        s.rows.drop position).Perm (_ :: (s.rows.take position ++ s.rows.drop position)) := List.perm_middle
    refine (hperm.map JobRecord.celeryTaskId).nodup_iff.mpr ?_
    rw [List.take_append_drop, List.map_cons, List.nodup_cons]
    refine ⟨?_, h.nodup⟩
    intro hmem
    obtain ⟨row, hrow, htask⟩ := List.mem_map.mp hmem
    exact hnew row hrow htask
  · intro row hrow
    rcases (hmem row).mp hrow with rfl | hold
    · exact hlt
    · exact h.published row hold
  · intro j c' t' hj hpc'
    rcases getElem?_setCall hj with ⟨-, rfl⟩ | ⟨hne, hold⟩
    · cases hpc'
    · obtain ⟨hlt', hrows⟩ := h.inserting j c' t' hold hpc'
      refine ⟨hlt', ?_⟩
      intro row hrow
      rcases (hmem row).mp hrow with rfl | hrow
      · -- two calls would insert a row for one task
        intro heq
        obtain rfl : t = t' := heq
        exact hne (h.own j i c' c t hold hi hpc' hpc)
      · exact hrows row hrow
  · intro j k c' d t' hj hk hpcj hpck
    rcases getElem?_setCall hj with ⟨-, rfl⟩ | ⟨-, hold⟩
    · cases hpcj
    · rcases getElem?_setCall hk with ⟨-, rfl⟩ | ⟨-, hold'⟩
      · cases hpck
      · exact h.own j k c' d t' hold hold' hpcj hpck
  · intro t' task htask
    exact (h.shown t' task htask).of_rows fun row hrow _ => (hmem row).mpr (.inr hrow)

/-- The rows after a statement of a worker: those of other tasks, and that of its own under the same key. -/
theorem mem_nextRows {t : ℕ} {task : SlaTask} {event : TaskEvent} {row : JobRecord} (hrow : row ∈ s.rows)
    (hother : row.celeryTaskId ≠ t) : row ∈ s.nextRows t task event := by
  unfold nextRows
  split
  · exact List.mem_map.mpr ⟨row, hrow, if_neg hother⟩
  · exact hrow

theorem map_celeryTaskId_nextRows (s : EnqueueSys) (t : ℕ) (task : SlaTask) (event : TaskEvent) :
    (s.nextRows t task event).map JobRecord.celeryTaskId = s.rows.map JobRecord.celeryTaskId := by
  unfold nextRows
  split
  · exact map_key_updateKey (Callback.celeryTaskId_record _ _ _) _
  · rfl

/-- A statement of a worker that marks how its task ends. -/
theorem Tracked.work (h : Tracked s) {t : ℕ} {task next : SlaTask} {event : TaskEvent}
    (hmarked : Marked s (.work t event)) (htask : s.tasks[t]? = some task)
    (hnext : s.nextTask t task event = some next) :
    Tracked { s with rows := s.nextRows t task event, tasks := s.tasks.set t next } := by
  have hkeys := map_celeryTaskId_nextRows s t task event
  have hkey : ∀ row ∈ s.nextRows t task event, ∃ row' ∈ s.rows, row'.celeryTaskId = row.celeryTaskId := by
    intro row hrow
    have hmem := List.mem_map_of_mem hrow (f := JobRecord.celeryTaskId)
    rw [hkeys] at hmem
    exact List.mem_map.mp hmem
  refine ⟨by rw [hkeys]; exact h.nodup, ?_, ?_, h.own, ?_⟩
  · intro row hrow
    obtain ⟨row', hrow', heq⟩ := hkey row hrow
    rw [List.length_set, ← heq]
    exact h.published row' hrow'
  · intro i c t' hi hpc
    obtain ⟨hlt, hrows⟩ := h.inserting i c t' hi hpc
    refine ⟨by rwa [List.length_set], ?_⟩
    intro row hrow
    obtain ⟨row', hrow', heq⟩ := hkey row hrow
    exact heq ▸ hrows row' hrow'
  · intro t' task' htask'
    by_cases hown : t = t'
    · subst hown
      obtain rfl : task' = next := by
        rw [List.getElem?_set_self (List.getElem?_eq_some_iff.mp htask).1] at htask'
        exact (Option.some.inj htask').symm
      have hcases := arrives_nextTask hmarked htask hnext
      have hshown := h.shown t task htask
      cases hpc : task'.pc with
      | committing callback seen =>
          rw [hpc] at hcases
          obtain ⟨hjob, hrows⟩ := hcases
          rw [hrows]
          exact ⟨List.mem_of_find?_eq_some hjob, by simpa using List.find?_some hjob⟩
      | storing ended =>
          rw [hpc] at hcases
          obtain ⟨callback, seen, hcommitting, rfl, hafter⟩ := hcases
          rw [hcommitting] at hshown
          obtain ⟨hseen, rfl⟩ := hshown
          -- no one else writes to the row, so it is as it was loaded
          refine ⟨callback.record s.now seen seen, ?_, Callback.celeryTaskId_record _ _ _ _,
            shows_record hafter s.now seen⟩
          simp only [nextRows, hcommitting]
          exact List.mem_map.mpr ⟨seen, hseen, if_pos rfl⟩
      | done ended =>
          rw [hpc] at hcases
          obtain ⟨hstoring, hrows⟩ := hcases
          rw [hstoring] at hshown
          rw [hrows]
          exact hshown
      | _ => trivial
    · rw [List.getElem?_set_ne hown] at htask'
      refine (h.shown t' task' htask').of_rows ?_
      intro row hrow hid
      exact mem_nextRows hrow (fun heq => hown (heq.symm.trans hid))

theorem Tracked.moveCall (h : Tracked s) {lockId : String → ℤ} (hi : s.calls[i]? = some c)
    (hmoves : CallMoves lockId s i c position s') : Tracked s' := by
  cases hmoves with
  | lock _ _ => exact h.setCall nofun
  | find _ => exact h.setCall nofun
  | noneLeft _ => exact h.setCall nofun
  | reuse _ _ => exact h.setCall nofun
  | skip _ _ => exact h.setCall nofun
  | publish _ => exact h.publish i c
  | refuse _ => exact h.setCall nofun
  | insert hpc => exact h.insert hi hpc position
  | answer _ => exact h.setCall nofun

/-- The result backend forgets a task. -/
theorem Tracked.expire (h : Tracked s) {t : ℕ} {task : SlaTask} (htask : s.tasks[t]? = some task) :
    Tracked (s.setTask t { task with state := .pending }) where
  nodup := h.nodup
  published := by simpa [EnqueueSys.setTask] using h.published
  inserting := by simpa [EnqueueSys.setTask] using h.inserting
  own := h.own
  shown t' task' htask' := by
    simp only [EnqueueSys.setTask] at htask' ⊢
    by_cases hown : t = t'
    · subst hown
      rw [List.getElem?_set_self (List.getElem?_eq_some_iff.mp htask).1, Option.some.injEq] at htask'
      subst htask'
      exact h.shown t task htask
    · rw [List.getElem?_set_ne hown] at htask'
      exact h.shown t' task' htask'

theorem Tracked.step (h : Tracked s) {lockId : String → ℤ} {a : EnqueueAction} (hmarked : Marked s a)
    (hstep : EnqueueSys.step lockId s a = some s') : Tracked s' := by
  cases steps_of_step hstep with
  | tick seconds => exact ⟨h.nodup, h.published, h.inserting, h.own, h.shown⟩
  | call computation correlationId =>
      refine h.of_calls ?_
      intro j c t hj hpc
      rcases getElem?_concat_eq_some hj with hold | ⟨-, rfl⟩
      · exact ⟨c, hold, hpc⟩
      · cases hpc
  | move hi hmoves => exact h.moveCall hi hmoves
  | fail hi => exact h.setCall nofun
  | work htask hnext => exact h.work hmarked htask hnext
  | expire htask => exact h.expire htask

end

theorem tracked_init (old : List (JobRecord × SlaTask)) : Tracked (.init old) where
  nodup := by
    have hids : (EnqueueSys.init old).rows.map JobRecord.celeryTaskId = List.range old.length := by
      rw [EnqueueSys.init, List.mapIdx_eq_zipIdx_map, List.map_map, List.range_eq_range', ← List.zipIdx_map_snd]
      rfl
    rw [hids]
    exact List.nodup_range
  published row hrow := by
    obtain ⟨t, ht, rfl⟩ := List.mem_mapIdx.mp hrow
    simpa [EnqueueSys.init] using ht
  inserting _ _ _ hi := by cases hi
  own _ _ _ _ _ hi := by cases hi
  shown t task htask := by
    obtain ⟨job, -, rfl⟩ := Option.map_eq_some_iff.mp (List.getElem?_map ▸ htask)
    trivial

/-! ## A task that is faster than its row -/

/-- A bulk computation is published and inserted before a worker takes it. -/
def insertedFirst : List EnqueueAction :=
  [.call (.bulk ["device-1"] "2026-01") none, .move 0 0, .move 0 0, .move 0 0, .move 0 0, .move 0 0,
    .work 0 .goesOn, .work 0 .goesOn, .work 0 .goesOn, .work 0 (.succeeds "summary"), .work 0 .goesOn,
    .work 0 .goesOn, .work 0 .goesOn]

/-- A worker takes the task before its row is inserted. -/
def finishedFirst : List EnqueueAction :=
  [.call (.bulk ["device-1"] "2026-01") none, .move 0 0, .move 0 0, .move 0 0, .move 0 0,
    .work 0 .goesOn, .work 0 .goesOn, .work 0 (.succeeds "summary"), .work 0 .goesOn, .work 0 .goesOn,
    .move 0 0]

theorem finished_first_not_converged :
    ¬ ∀ s, run (EnqueueSys.step fun _ => 0) (.init []) finishedFirst = some s → s.Converged := by
  intro h
  have hshows := h _ rfl _ List.mem_cons_self _ rfl _ rfl
  exact absurd hshows.1 (by decide)

/-- In every run in which the end of each task is marked in its row, a row shows how its task is over as soon
as it is. -/
theorem converged_of_marked (lockId : String → ℤ) (old : List (JobRecord × SlaTask))
    (as : List EnqueueAction) {s : EnqueueSys}
    (hmarked : Guarded (EnqueueSys.step lockId) Marked (.init old) as)
    (hrun : run (EnqueueSys.step lockId) (.init old) as = some s) : s.Converged := by
  have htracked : Tracked s := run_invariant_of_guarded (fun _ _ _ h hmarked hstep => h.step hmarked hstep)
    (tracked_init old) hmarked hrun
  intro row hrow task htask ended hdone
  have hshown := htracked.shown _ task htask
  rw [hdone] at hshown
  obtain ⟨row', hrow', hid, hshows⟩ := hshown
  rwa [List.inj_on_of_nodup_map htracked.nodup hrow' hrow hid] at hshows

theorem inserted_first_converged :
    ∃ s, run (EnqueueSys.step fun _ => 0) (.init []) insertedFirst = some s ∧ s.Converged :=
  ⟨_, rfl, converged_of_marked (fun _ => 0) [] insertedFirst (by decide +kernel) rfl⟩

end ApexChainx.Jobs
