import ApexChainx.Lib.Dict
import ApexChainx.Lib.Semaphore
import ApexChainx.Lib.Transition

/-!
# The limit on concurrent deliveries

`WebhookDispatchLimiter` (`app/services/webhook_service.py`): threads that deliver do so inside
`with limiter.acquire(webhook_id)`. A thread takes a permit of the one global semaphore, then finds or makes the
semaphore of its webhook under the lock, then takes a permit of that; in `finally` it gives both back, however its
delivery ended.

Any number of threads come at any time, and between two statements of one the others may move. A semaphore of a
webhook is an object, named by its place among all that were made.
-/

namespace ApexChainx.Webhooks.DispatchLimiter

open Lib

/-! ## Threads in `acquire` -/

/-- The next statement of a thread in `acquire`. -/
inductive Stage
  /-- `self._global_semaphore.acquire()`. -/
  | entering
  /-- `with self._lock`. -/
  | locking
  /-- `self._per_webhook_semaphores.get(webhook_id)`, in the lock. -/
  | looking
  /-- The semaphore is made and kept, in the lock. -/
  | creating
  /-- The semaphore is returned, and the lock with it. -/
  | returning (semaphore : ℕ)
  /-- `semaphore.acquire()`. -/
  | waiting (semaphore : ℕ)
  /-- `yield`, and at its end `semaphore.release()`. -/
  | inside (semaphore : ℕ)
  /-- `self._global_semaphore.release()`. -/
  | leaving
  | left
deriving DecidableEq, Repr

/-- A thread in `acquire(webhook_id)`. -/
structure Acquisition where
  webhookId : String
  stage : Stage
deriving DecidableEq, Repr

/-- `WebhookDispatchLimiter`: the counters of its semaphores, `_lock`, and the dictionary. -/
structure Limiter where
  globalSemaphore : ℕ
  perWebhookLimit : ℕ
  semaphores : List ℕ
  perWebhookSemaphores : Dict String ℕ
  locked : Bool

/-- `max(1, limit)`. -/
def atLeastOne (limit : ℤ) : ℕ := (max 1 limit).toNat

/-- `__init__`. -/
def Limiter.new (globalLimit perWebhookLimit : ℤ) : Limiter :=
  ⟨atLeastOne globalLimit, atLeastOne perWebhookLimit, [], .empty, false⟩

/-- The next statement of a thread: the limiter after it and where the thread is then; `none` while it blocks. -/
def Limiter.next (l : Limiter) (c : Acquisition) : Option (Limiter × Stage) :=
  match c.stage with
  | .entering =>
      match l.globalSemaphore with
      | 0 => none
      | n + 1 => some ({ l with globalSemaphore := n }, .locking)
  | .locking => if l.locked then none else some ({ l with locked := true }, .looking)
  | .looking =>
      match l.perWebhookSemaphores.get c.webhookId with
      | none => some (l, .creating)
      | some k => some (l, .returning k)
  | .creating =>
      some ({ l with
        semaphores := l.semaphores ++ [l.perWebhookLimit]
        perWebhookSemaphores := l.perWebhookSemaphores.set c.webhookId l.semaphores.length },
        .returning l.semaphores.length)
  | .returning k => some ({ l with locked := false }, .waiting k)
  | .waiting k =>
      match l.semaphores[k]? with
      | some (n + 1) => some ({ l with semaphores := l.semaphores.set k n }, .inside k)
      | _ => none
  | .inside k =>
      match l.semaphores[k]? with
      | some n => some ({ l with semaphores := l.semaphores.set k (n + 1) }, .leaving)
      | none => none
  | .leaving => some ({ l with globalSemaphore := l.globalSemaphore + 1 }, .left)
  | .left => none

/-- The limiter and all threads that have called `acquire`. -/
structure State where
  limiter : Limiter
  calls : List Acquisition

/-- A thread calls `acquire`, or executes its next statement. -/
inductive Action
  | call (webhookId : String)
  | advance (i : ℕ)
deriving DecidableEq, Repr

/-- Thread `i` executes its next statement. -/
def State.advance (s : State) (i : ℕ) : Option State :=
  match s.calls[i]? with
  | none => none
  | some c =>
      match s.limiter.next c with
      | none => none
      | some (l, stage) => some ⟨l, s.calls.set i { c with stage := stage }⟩

/-- The interleaving semantics. -/
def State.step (s : State) : Action → Option State
  | .call webhookId => some { s with calls := s.calls ++ [⟨webhookId, .entering⟩] }
  | .advance i => s.advance i

/-- A new limiter that no thread has called. -/
def State.init (globalLimit perWebhookLimit : ℤ) : State := ⟨.new globalLimit perWebhookLimit, []⟩

/-! ## What threads hold -/

/-- The thread has a permit of the global semaphore. -/
def Acquisition.admitted (c : Acquisition) : Bool :=
  match c.stage with
  | .entering | .left => false
  | _ => true

/-- The thread is in the lock. -/
def Acquisition.inLock (c : Acquisition) : Bool :=
  match c.stage with
  | .looking | .creating | .returning _ => true
  | _ => false

/-- The thread is in the block of its `with` statement. -/
def Acquisition.delivering (c : Acquisition) : Bool :=
  match c.stage with
  | .inside _ => true
  | _ => false

/-- The thread has a permit of the semaphore. -/
def Acquisition.holds (k : ℕ) (c : Acquisition) : Bool := decide (c.stage = .inside k)

/-- The thread delivers to the webhook. -/
def Acquisition.deliversTo (webhookId : String) (c : Acquisition) : Bool :=
  decide (c.webhookId = webhookId) && c.delivering

/-- The semaphore that was returned to the thread. -/
def Stage.semaphore : Stage → Option ℕ
  | .returning k | .waiting k | .inside k => some k
  | _ => none

/-- How many statements the thread still has at most. -/
def Stage.remaining : Stage → ℕ
  | .entering => 8
  | .locking => 7
  | .looking => 6
  | .creating => 5
  | .returning _ => 4
  | .waiting _ => 3
  | .inside _ => 2
  | .leaving => 1
  | .left => 0

/-- What one statement of a thread does. -/
inductive Limiter.Moves (l : Limiter) (webhookId : String) : Stage → Limiter → Stage → Prop
  | enter {n : ℕ} : l.globalSemaphore = n + 1 → Moves l webhookId .entering { l with globalSemaphore := n } .locking
  | lock : l.locked = false → Moves l webhookId .locking { l with locked := true } .looking
  | find {k : ℕ} : l.perWebhookSemaphores.get webhookId = some k → Moves l webhookId .looking l (.returning k)
  | miss : l.perWebhookSemaphores.get webhookId = none → Moves l webhookId .looking l .creating
  | create : Moves l webhookId .creating
      { l with
        semaphores := l.semaphores ++ [l.perWebhookLimit]
        perWebhookSemaphores := l.perWebhookSemaphores.set webhookId l.semaphores.length }
      (.returning l.semaphores.length)
  | unlock {k : ℕ} : Moves l webhookId (.returning k) { l with locked := false } (.waiting k)
  | take {k n : ℕ} : l.semaphores[k]? = some (n + 1) →
      Moves l webhookId (.waiting k) { l with semaphores := l.semaphores.set k n } (.inside k)
  | giveBack {k n : ℕ} : l.semaphores[k]? = some n →
      Moves l webhookId (.inside k) { l with semaphores := l.semaphores.set k (n + 1) } .leaving
  | leave : Moves l webhookId .leaving { l with globalSemaphore := l.globalSemaphore + 1 } .left

variable {l l' : Limiter} {c : Acquisition} {stage : Stage} {s s' : State} {i : ℕ}

theorem Limiter.moves_of_next (h : l.next c = some (l', stage)) : l.Moves c.webhookId c.stage l' stage := by
  obtain ⟨webhookId, now⟩ := c
  unfold Limiter.next at h
  cases now with
  | entering =>
      simp only at h
      split at h
      · cases h
      · rename_i n hn
        cases h
        exact .enter hn
  | locking =>
      simp only at h
      split at h
      · cases h
      · rename_i hfree
        cases h
        exact .lock (by simpa using hfree)
  | looking =>
      simp only at h
      split at h
      · rename_i hmissing
        cases h
        exact .miss hmissing
      · rename_i k hk
        cases h
        exact .find hk
  | creating =>
      cases h
      exact .create
  | returning k =>
      cases h
      exact .unlock
  | waiting k =>
      simp only at h
      split at h
      · rename_i n hn
        cases h
        exact .take hn
      · cases h
  | inside k =>
      simp only at h
      split at h
      · rename_i n hn
        cases h
        exact .giveBack hn
      · cases h
  | leaving =>
      cases h
      exact .leave
  | left => cases h

theorem advance_eq_some (h : s.advance i = some s') :
    ∃ c l' stage, s.calls[i]? = some c ∧ s.limiter.Moves c.webhookId c.stage l' stage ∧
      s' = ⟨l', s.calls.set i { c with stage := stage }⟩ := by
  unfold State.advance at h
  split at h
  · cases h
  · rename_i c hc
    split at h
    · cases h
    · rename_i l' stage hnext
      exact ⟨c, l', stage, hc, Limiter.moves_of_next hnext, (Option.some.inj h).symm⟩

/-! ## The invariant -/

/-- Every semaphore has the permits that are left, and that of a webhook is the one all its threads use. -/
structure Inv (globalLimit perWebhookLimit : ℕ) (s : State) : Prop where
  limit : s.limiter.perWebhookLimit = perWebhookLimit
  global : Permits globalLimit s.limiter.globalSemaphore Acquisition.admitted s.calls
  lock : Permits 1 (!s.limiter.locked).toNat Acquisition.inLock s.calls
  perWebhook : ∀ k n, s.limiter.semaphores[k]? = some n → Permits perWebhookLimit n (Acquisition.holds k) s.calls
  known : ∀ w k, s.limiter.perWebhookSemaphores.get w = some k → k < s.limiter.semaphores.length
  unshared : ∀ w w' k, s.limiter.perWebhookSemaphores.get w = some k →
    s.limiter.perWebhookSemaphores.get w' = some k → w = w'
  returned : ∀ c ∈ s.calls, ∀ k ∈ c.stage.semaphore, s.limiter.perWebhookSemaphores.get c.webhookId = some k
  creating : ∀ c ∈ s.calls, c.stage = .creating → s.limiter.perWebhookSemaphores.get c.webhookId = none

variable {globalLimit perWebhookLimit : ℕ}

/-- A statement that leaves the semaphores of webhooks alone. -/
theorem inv_frame (h : Inv globalLimit perWebhookLimit s) (hc : s.calls[i]? = some c) {n : ℕ} {locked : Bool}
    (hout : ∀ k, c.stage ≠ .inside k) (hout' : ∀ k, stage ≠ .inside k)
    (hglobal : Permits globalLimit n Acquisition.admitted (s.calls.set i { c with stage := stage }))
    (hlock : Permits 1 (!locked).toNat Acquisition.inLock (s.calls.set i { c with stage := stage }))
    (hreturned : ∀ k ∈ stage.semaphore, s.limiter.perWebhookSemaphores.get c.webhookId = some k)
    (hcreating : stage = .creating → s.limiter.perWebhookSemaphores.get c.webhookId = none) :
    Inv globalLimit perWebhookLimit
      ⟨{ s.limiter with globalSemaphore := n, locked := locked }, s.calls.set i { c with stage := stage }⟩ where
  limit := h.limit
  global := hglobal
  lock := hlock
  perWebhook k m hm := (h.perWebhook k m hm).keep hc <| by
    simp only [Acquisition.holds, decide_eq_false (hout k), decide_eq_false (hout' k)]
  known := h.known
  unshared := h.unshared
  returned := forall_mem_set h.returned hreturned
  creating := forall_mem_set h.creating hcreating

/-- A statement that takes a permit of the semaphore of a webhook or gives one back. -/
theorem inv_counter (h : Inv globalLimit perWebhookLimit s) (hc : s.calls[i]? = some c) {k n : ℕ}
    (hothers : ∀ k' ≠ k, Acquisition.holds k' { c with stage := stage } = c.holds k')
    (hcount : Permits perWebhookLimit n (Acquisition.holds k) (s.calls.set i { c with stage := stage }))
    (hadmitted : Acquisition.admitted { c with stage := stage } = c.admitted)
    (hlock : Acquisition.inLock { c with stage := stage } = c.inLock)
    (hreturned : ∀ k ∈ stage.semaphore, s.limiter.perWebhookSemaphores.get c.webhookId = some k)
    (hcreating : stage ≠ .creating) :
    Inv globalLimit perWebhookLimit
      ⟨{ s.limiter with semaphores := s.limiter.semaphores.set k n }, s.calls.set i { c with stage := stage }⟩ where
  limit := h.limit
  global := h.global.keep hc hadmitted
  lock := h.lock.keep hc hlock
  perWebhook k' m hm := by
    rcases getElem?_replace hm with ⟨rfl, rfl⟩ | ⟨hne, hold⟩
    · exact hcount
    · exact (h.perWebhook k' m hold).keep hc (hothers k' hne)
  known w k' hk' := by
    rw [List.length_set]
    exact h.known w k' hk'
  unshared := h.unshared
  returned := forall_mem_set h.returned hreturned
  creating := forall_mem_set h.creating fun heq => absurd heq hcreating

/-- A thread in the lock makes the semaphore that its webhook does not have yet. -/
theorem inv_create (h : Inv globalLimit perWebhookLimit s) (hc : s.calls[i]? = some c)
    (hstage : c.stage = .creating) :
    Inv globalLimit perWebhookLimit
      ⟨{ s.limiter with
          semaphores := s.limiter.semaphores ++ [s.limiter.perWebhookLimit]
          perWebhookSemaphores := s.limiter.perWebhookSemaphores.set c.webhookId s.limiter.semaphores.length },
        s.calls.set i { c with stage := .returning s.limiter.semaphores.length }⟩ := by
  have hmissing := h.creating c (List.mem_of_getElem? hc) hstage
  have hne : ∀ c' ∈ s.calls, ∀ k ∈ c'.stage.semaphore, c'.webhookId ≠ c.webhookId := by
    intro c' hc' k hk heq
    have hsome := h.returned c' hc' k hk
    rw [heq, hmissing] at hsome
    cases hsome
  refine {
    limit := h.limit
    global := h.global.keep hc (by simp only [Acquisition.admitted, hstage])
    lock := h.lock.keep hc (by simp only [Acquisition.inLock, hstage])
    perWebhook := ?_
    known := ?_
    unshared := ?_
    returned := ?_
    creating := ?_ }
  · intro k n hn
    have hkeep : Acquisition.holds k { c with stage := .returning s.limiter.semaphores.length } = c.holds k := by
      simp only [Acquisition.holds, hstage, reduceCtorEq]
    rcases getElem?_insert hn with hold | ⟨rfl, rfl⟩
    · exact (h.perWebhook k n hold).keep hc hkeep
    · -- nobody has been given the new semaphore
      refine Permits.keep ?_ hc hkeep
      rw [h.limit]
      refine Permits.of_none _ fun c' hc' => decide_eq_false fun hinside => ?_
      have hlt := h.known _ _ (h.returned c' hc' s.limiter.semaphores.length (by rw [hinside]; rfl))
      exact Nat.lt_irrefl _ hlt
  · intro w k hk
    rw [Dict.get_set] at hk
    rw [List.length_append, List.length_singleton]
    split at hk
    · rw [← Option.some.inj hk]
      exact Nat.lt_succ_self _
    · exact Nat.lt_succ_of_lt (h.known w k hk)
  · intro w w' k hk hk'
    rw [Dict.get_set] at hk hk'
    split at hk <;> split at hk'
    · rename_i hw hw'
      rw [hw, hw']
    · exact absurd (h.known w' k hk') (Option.some.inj hk ▸ Nat.lt_irrefl _)
    · exact absurd (h.known w k hk) (Option.some.inj hk' ▸ Nat.lt_irrefl _)
    · exact h.unshared w w' k hk hk'
  · refine forall_mem_set (fun c' hc' k hk => ?_) fun k hk => ?_
    · rw [Dict.get_set_ne _ (hne c' hc' k hk)]
      exact h.returned c' hc' k hk
    · rw [Dict.get_set_self, Option.mem_some.mp hk]
  · intro c' hc' hcreating
    obtain ⟨j, hj⟩ := List.mem_iff_getElem?.mp hc'
    rcases getElem?_replace hj with ⟨-, rfl⟩ | ⟨hne', hold⟩
    · cases hcreating
    · -- two threads that make a semaphore would both be in the lock
      have hin : c.inLock = true := by simp only [Acquisition.inLock, hstage]
      have hin' : c'.inLock = true := by simp only [Acquisition.inLock, hcreating]
      exact absurd (h.lock.eq_of_holds hold hin' hc hin) hne'

theorem inv_advance (h : Inv globalLimit perWebhookLimit s) (hs' : s.advance i = some s') :
    Inv globalLimit perWebhookLimit s' := by
  obtain ⟨⟨webhookId, now⟩, l', stage, hc, hmoves, rfl⟩ := advance_eq_some hs'
  have hmem := List.mem_of_getElem? hc
  simp only at hmoves
  cases hmoves with
  | enter hn => exact inv_frame h hc nofun nofun ((hn ▸ h.global).acquire hc rfl rfl) (h.lock.keep hc rfl) nofun nofun
  | lock hfree =>
      have hlock : Permits 1 (0 + 1) Acquisition.inLock s.calls := by
        have hlock := h.lock
        rw [hfree] at hlock
        exact hlock
      exact inv_frame h hc nofun nofun (h.global.keep hc rfl) (hlock.acquire hc rfl rfl) nofun nofun
  | find hk =>
      refine inv_frame h hc nofun nofun (h.global.keep hc rfl) (h.lock.keep hc rfl) ?_ nofun
      exact fun k' hk' => Option.mem_some.mp hk' ▸ hk
  | miss hnone =>
      exact inv_frame h hc nofun nofun (h.global.keep hc rfl) (h.lock.keep hc rfl) nofun fun _ => hnone
  | create => exact inv_create h hc rfl
  | unlock =>
      rename_i k
      have hunlocked := h.lock.release hc rfl (show Acquisition.inLock ⟨webhookId, .waiting k⟩ = false from rfl)
      cases hlocked : s.limiter.locked with
      | true =>
          rw [hlocked] at hunlocked
          exact inv_frame h hc nofun nofun (h.global.keep hc rfl) hunlocked (h.returned _ hmem) nofun
      | false =>
          -- the lock would have two permits
          rw [hlocked] at hunlocked
          exact absurd hunlocked.left_le (by decide)
  | take hn =>
      rename_i k n
      refine inv_counter h hc (fun k' hne => ?_) ((h.perWebhook k _ hn).acquire hc rfl (decide_eq_true rfl)) rfl rfl
        (h.returned _ hmem) nofun
      exact decide_eq_false fun heq => hne (Stage.inside.inj heq).symm
  | giveBack hn =>
      rename_i k n
      refine inv_counter h hc (fun k' hne => ?_) ((h.perWebhook k _ hn).release hc (decide_eq_true rfl) rfl) rfl rfl
        nofun nofun
      exact (decide_eq_false fun heq => hne (Stage.inside.inj heq).symm).symm
  | leave => exact inv_frame h hc nofun nofun (h.global.release hc rfl rfl) (h.lock.keep hc rfl) nofun nofun

theorem inv_call (h : Inv globalLimit perWebhookLimit s) (webhookId : String) :
    Inv globalLimit perWebhookLimit { s with calls := s.calls ++ [⟨webhookId, .entering⟩] } where
  limit := h.limit
  global := h.global.join rfl
  lock := h.lock.join rfl
  perWebhook k n hn := (h.perWebhook k n hn).join rfl
  known := h.known
  unshared := h.unshared
  returned c hc := by
    rcases List.mem_append.mp hc with hold | hnew
    · exact h.returned c hold
    · rw [List.mem_singleton.mp hnew]
      nofun
  creating c hc := by
    rcases List.mem_append.mp hc with hold | hnew
    · exact h.creating c hold
    · rw [List.mem_singleton.mp hnew]
      nofun

theorem inv_init (globalLimit perWebhookLimit : ℤ) :
    Inv (atLeastOne globalLimit) (atLeastOne perWebhookLimit) (.init globalLimit perWebhookLimit) where
  limit := rfl
  global := .of_none _ nofun
  lock := .of_none 1 nofun
  perWebhook _ _ hn := by cases hn
  known _ _ hk := by cases hk
  unshared _ _ _ hk := by cases hk
  returned := nofun
  creating := nofun

theorem inv_run {globalLimit perWebhookLimit : ℤ} {as : List Action}
    (hrun : run State.step (.init globalLimit perWebhookLimit) as = some s) :
    Inv (atLeastOne globalLimit) (atLeastOne perWebhookLimit) s := by
  refine run_invariant (fun s a s' h hs' => ?_) (inv_init globalLimit perWebhookLimit) hrun
  cases a with
  | call webhookId => exact Option.some.inj hs' ▸ inv_call h webhookId
  | advance i => exact inv_advance h hs'

/-! ## The limits -/

/-- The threads that deliver to a webhook are those that hold a permit of its semaphore. -/
theorem deliversTo_eq_holds (h : Inv globalLimit perWebhookLimit s) {webhookId : String} {k : ℕ}
    (hk : s.limiter.perWebhookSemaphores.get webhookId = some k) :
    ∀ c ∈ s.calls, c.deliversTo webhookId = c.holds k := by
  rintro ⟨w, now⟩ hc
  cases now with
  | inside k' =>
      have hk' : s.limiter.perWebhookSemaphores.get w = some k' := h.returned _ hc k' rfl
      by_cases hw : w = webhookId
      · subst hw
        rw [hk, Option.some.injEq] at hk'
        simp [Acquisition.deliversTo, Acquisition.delivering, Acquisition.holds, hk']
      · have hne : k' ≠ k := fun heq => hw (h.unshared _ _ k (heq ▸ hk') hk)
        simp [Acquisition.deliversTo, Acquisition.holds, hw, hne]
  | _ => simp [Acquisition.deliversTo, Acquisition.delivering, Acquisition.holds]

theorem countP_deliversTo (h : Inv globalLimit perWebhookLimit s) {webhookId : String} {k : ℕ}
    (hk : s.limiter.perWebhookSemaphores.get webhookId = some k) :
    s.calls.countP (Acquisition.deliversTo webhookId) = s.calls.countP (Acquisition.holds k) :=
  List.countP_congr fun c hc => by rw [deliversTo_eq_holds h hk c hc]

theorem countP_deliversTo_le (h : Inv globalLimit perWebhookLimit s) (webhookId : String) :
    s.calls.countP (Acquisition.deliversTo webhookId) ≤ perWebhookLimit := by
  cases hk : s.limiter.perWebhookSemaphores.get webhookId with
  | some k =>
      obtain ⟨n, hn⟩ : ∃ n, s.limiter.semaphores[k]? = some n :=
        ⟨_, List.getElem?_eq_getElem (h.known webhookId k hk)⟩
      rw [countP_deliversTo h hk]
      exact (h.perWebhook k n hn).countP_le
  | none =>
      have hzero : s.calls.countP (Acquisition.deliversTo webhookId) = 0 := by
        refine List.countP_eq_zero.mpr ?_
        rintro ⟨w, now⟩ hc hto
        cases now with
        | inside k =>
            simp only [Acquisition.deliversTo, Bool.and_eq_true, decide_eq_true_eq] at hto
            have hsome := h.returned _ hc k rfl
            rw [hto.1, hk] at hsome
            cases hsome
        | _ => simp [Acquisition.deliversTo, Acquisition.delivering] at hto
      rw [hzero]
      exact Nat.zero_le _

theorem advance_eq_none (hc : s.calls[i]? = some c) : s.advance i = none ↔ s.limiter.next c = none := by
  unfold State.advance
  simp only [hc]
  cases s.limiter.next c <;> simp

/-- A thread blocks at the global semaphore exactly when as many are past it as it lets in. -/
theorem next_entering (h : Inv globalLimit perWebhookLimit s) (webhookId : String) :
    s.limiter.next ⟨webhookId, .entering⟩ = none ↔ s.calls.countP Acquisition.admitted = globalLimit := by
  rw [← h.global.exhausted_iff]
  unfold Limiter.next
  cases s.limiter.globalSemaphore <;> simp

/-- A thread blocks at the lock exactly when another is in it. -/
theorem next_locking (h : Inv globalLimit perWebhookLimit s) (webhookId : String) :
    s.limiter.next ⟨webhookId, .locking⟩ = none ↔ ∃ d ∈ s.calls, d.inLock = true := by
  rw [← List.countP_pos_iff]
  have hlock := h.lock
  unfold Permits at hlock
  unfold Limiter.next
  cases hlocked : s.limiter.locked with
  | true =>
      rw [hlocked] at hlock
      simp only [Bool.not_true, Bool.toNat_false, zero_add] at hlock
      simp [hlock]
  | false =>
      rw [hlocked] at hlock
      simp only [Bool.not_false, Bool.toNat_true, Nat.add_eq_left] at hlock
      simp [hlock]

/-- A thread blocks at the semaphore of its webhook exactly when as many deliver to the webhook as it lets in. -/
theorem next_waiting (h : Inv globalLimit perWebhookLimit s) {webhookId : String} {k : ℕ}
    (hmem : ⟨webhookId, .waiting k⟩ ∈ s.calls) :
    s.limiter.next ⟨webhookId, .waiting k⟩ = none ↔
      s.calls.countP (Acquisition.deliversTo webhookId) = perWebhookLimit := by
  have hk : s.limiter.perWebhookSemaphores.get webhookId = some k := h.returned _ hmem k rfl
  obtain ⟨n, hn⟩ : ∃ n, s.limiter.semaphores[k]? = some n := ⟨_, List.getElem?_eq_getElem (h.known webhookId k hk)⟩
  rw [countP_deliversTo h hk, ← (h.perWebhook k n hn).exhausted_iff]
  simp only [Limiter.next, hn]
  cases n <;> simp

/-- When a thread cannot go on. -/
theorem advance_eq_none_iff (h : Inv globalLimit perWebhookLimit s) (hc : s.calls[i]? = some c) :
    s.advance i = none ↔ c.stage = .left ∨
      (c.stage = .entering ∧ s.calls.countP Acquisition.admitted = globalLimit) ∨
      (c.stage = .locking ∧ ∃ d ∈ s.calls, d.inLock = true) ∨
      ∃ k, c.stage = .waiting k ∧ s.calls.countP (Acquisition.deliversTo c.webhookId) = perWebhookLimit := by
  have hmem := List.mem_of_getElem? hc
  rw [advance_eq_none hc]
  obtain ⟨w, now⟩ := c
  cases now with
  | entering => simp [next_entering h w]
  | locking => simp only [next_locking h w, reduceCtorEq, false_and, false_or, true_and, exists_false, or_false]
  | waiting k =>
      rw [next_waiting h hmem]
      simp
  | looking =>
      have hgoes : s.limiter.next ⟨w, .looking⟩ ≠ none := by
        unfold Limiter.next
        cases s.limiter.perWebhookSemaphores.get w <;> simp
      simp [hgoes]
  | inside k =>
      have hk : s.limiter.perWebhookSemaphores.get w = some k := h.returned _ hmem k rfl
      simp [Limiter.next, List.getElem?_eq_getElem (h.known w k hk)]
  | _ => simp [Limiter.next]

theorem countP_delivering_le (h : Inv globalLimit perWebhookLimit s) :
    s.calls.countP Acquisition.delivering ≤ globalLimit := by
  have hadmitted : s.calls.countP Acquisition.delivering ≤ s.calls.countP Acquisition.admitted := by
    refine List.countP_mono_left fun c _ hdelivering => ?_
    obtain ⟨w, now⟩ := c
    cases now with
    | inside k => rfl
    | _ => cases hdelivering
  exact Nat.le_trans hadmitted h.global.countP_le

/-- Whenever threads call, and whatever the order of their statements: no more deliver at a time than the limits allow,
in all and to one webhook, and a thread on its way is held up only where one of the limits is used up or another
thread looks its semaphore up. -/
theorem limits_kept (globalLimit perWebhookLimit : ℤ) {as : List Action}
    (hrun : run State.step (.init globalLimit perWebhookLimit) as = some s) :
    s.calls.countP Acquisition.delivering ≤ atLeastOne globalLimit ∧
    (∀ webhookId, s.calls.countP (Acquisition.deliversTo webhookId) ≤ atLeastOne perWebhookLimit) ∧
    ∀ i c, s.calls[i]? = some c → (s.advance i = none ↔ c.stage = .left ∨
      (c.stage = .entering ∧ s.calls.countP Acquisition.admitted = atLeastOne globalLimit) ∨
      (c.stage = .locking ∧ ∃ d ∈ s.calls, d.inLock = true) ∨
      ∃ k, c.stage = .waiting k ∧
        s.calls.countP (Acquisition.deliversTo c.webhookId) = atLeastOne perWebhookLimit) :=
  have h := inv_run hrun
  ⟨countP_delivering_le h, countP_deliversTo_le h, fun _ _ hc => advance_eq_none_iff h hc⟩

/-- Two threads for one webhook, which lets one in, and a third, which the other two keep out of the limiter. -/
def sampleCalls : List Action :=
  [.call "wh_1", .call "wh_1", .call "wh_2", .advance 0, .advance 0, .advance 0, .advance 0, .advance 1, .advance 0,
    .advance 1, .advance 0, .advance 1, .advance 1]

/-- Where `sampleCalls` leaves a limiter of two threads, one for each webhook. -/
def sampleState : State := (run State.step (.init 2 1) sampleCalls).get (by decide +kernel)

theorem limits_kept_sample :
    sampleState.calls = [⟨"wh_1", .inside 0⟩, ⟨"wh_1", .waiting 0⟩, ⟨"wh_2", .entering⟩] ∧
      sampleState.calls.countP (Acquisition.deliversTo "wh_1") ≤ 1 ∧ sampleState.advance 1 = none ∧
      sampleState.advance 2 = none := by
  have hcalls : sampleState.calls = [⟨"wh_1", .inside 0⟩, ⟨"wh_1", .waiting 0⟩, ⟨"wh_2", .entering⟩] := by
    decide +kernel
  obtain ⟨-, hlimit, hblocked⟩ := limits_kept 2 1 (Option.some_get _).symm
  refine ⟨hcalls, hlimit "wh_1", (hblocked 1 ⟨"wh_1", .waiting 0⟩ ?_).mpr ?_,
    (hblocked 2 ⟨"wh_2", .entering⟩ ?_).mpr ?_⟩
  · decide +kernel
  · exact .inr (.inr (.inr ⟨0, rfl, by decide +kernel⟩))
  · decide +kernel
  · exact .inr (.inl ⟨rfl, by decide +kernel⟩)

/-! ## Every thread gets through -/

/-- Every thread has left. -/
def State.Quiet (s : State) : Prop := ∀ c ∈ s.calls, c.stage = .left

/-- How many statements all threads still have at most. -/
def State.remaining (s : State) : ℕ := (s.calls.map fun c => c.stage.remaining).sum

theorem remaining_advance (hs' : s.advance i = some s') : s'.remaining < s.remaining := by
  obtain ⟨c, l', stage, hc, hmoves, rfl⟩ := advance_eq_some hs'
  have hsum := sum_map_replace (fun c : Acquisition => c.stage.remaining) hc { c with stage := stage }
  have hlt : stage.remaining < c.stage.remaining := by
    generalize c.stage = now at hmoves
    cases hmoves <;> simp only [Stage.remaining] <;> omega
  unfold State.remaining
  simp only at hsum ⊢
  omega

/-- How far a thread is. -/
def State.rank (s : State) (i : ℕ) : ℕ := (s.calls[i]?.map fun c => 8 - c.stage.remaining).getD 0

theorem rank_of_getElem? (hc : s.calls[i]? = some c) : s.rank i = 8 - c.stage.remaining := by
  rw [State.rank, hc]
  rfl

/-- A thread that is held up waits for one that is further on. -/
theorem exists_ahead (h : Inv globalLimit perWebhookLimit s) (hglobal : 0 < globalLimit)
    (hperWebhook : 0 < perWebhookLimit) (hc : s.calls[i]? = some c) (hopen : c.stage ≠ .left)
    (hstopped : s.advance i = none) :
    ∃ j, (∃ d, s.calls[j]? = some d ∧ d.stage ≠ .left) ∧ s.rank i < s.rank j := by
  have hahead : ∃ d ∈ s.calls, d.stage ≠ .left ∧ d.stage.remaining < c.stage.remaining := by
    rcases (advance_eq_none_iff h hc).mp hstopped with
      hleft | ⟨hstage, hfull⟩ | ⟨hstage, d, hd, hin⟩ | ⟨k, hstage, hfull⟩
    · exact absurd hleft hopen
    · obtain ⟨d, hd, hadmitted⟩ := List.countP_pos_iff.mp (hfull ▸ hglobal)
      refine ⟨d, hd, ?_⟩
      rw [hstage]
      obtain ⟨w, now⟩ := d
      cases now <;> simp_all [Acquisition.admitted, Stage.remaining]
    · refine ⟨d, hd, ?_⟩
      rw [hstage]
      obtain ⟨w, now⟩ := d
      cases now <;> simp_all [Acquisition.inLock, Stage.remaining]
    · obtain ⟨d, hd, hto⟩ := List.countP_pos_iff.mp (hfull ▸ hperWebhook)
      refine ⟨d, hd, ?_⟩
      rw [hstage]
      obtain ⟨w, now⟩ := d
      cases now <;> simp_all [Acquisition.deliversTo, Acquisition.delivering, Stage.remaining]
  obtain ⟨d, hd, hdopen, hlt⟩ := hahead
  obtain ⟨j, hj⟩ := List.mem_iff_getElem?.mp hd
  refine ⟨j, ⟨d, hj, hdopen⟩, ?_⟩
  have hle : c.stage.remaining ≤ 8 := by cases c.stage <;> simp [Stage.remaining]
  rw [rank_of_getElem? hc, rank_of_getElem? hj]
  omega

theorem exists_advance (h : Inv globalLimit perWebhookLimit s) (hglobal : 0 < globalLimit)
    (hperWebhook : 0 < perWebhookLimit) (hopen : ¬ s.Quiet) : ∃ i s', s.advance i = some s' := by
  unfold State.Quiet at hopen
  push Not at hopen
  obtain ⟨c, hc, hstage⟩ := hopen
  obtain ⟨i, hi⟩ := List.mem_iff_getElem?.mp hc
  have hbound : ∀ i, (∃ c, s.calls[i]? = some c ∧ c.stage ≠ .left) → s.rank i ≤ 8 := by
    rintro i ⟨c, hc, -⟩
    rw [rank_of_getElem? hc]
    exact Nat.sub_le _ _
  have hwaits : ∀ i, (∃ c, s.calls[i]? = some c ∧ c.stage ≠ .left) → s.advance i = none →
      ∃ j, (∃ d, s.calls[j]? = some d ∧ d.stage ≠ .left) ∧ s.rank i < s.rank j := by
    rintro i ⟨c, hc, hopen⟩ hstopped
    exact exists_ahead h hglobal hperWebhook hc hopen hstopped
  obtain ⟨j, -, hgoes⟩ := exists_not_stopped hbound hwaits ⟨c, hi, hstage⟩
  exact ⟨j, Option.ne_none_iff_exists'.mp hgoes⟩

/-- When all have left, every permit is back. -/
theorem permits_back (h : Inv globalLimit perWebhookLimit s) (hquiet : s.Quiet) :
    s.limiter.globalSemaphore = globalLimit ∧ s.limiter.locked = false ∧
      ∀ n ∈ s.limiter.semaphores, n = perWebhookLimit := by
  refine ⟨?_, ?_, fun n hn => ?_⟩
  · exact h.global.eq_capacity fun c hc => by simp only [Acquisition.admitted, hquiet c hc]
  · have hlock := h.lock.eq_capacity fun c hc => by simp only [Acquisition.inLock, hquiet c hc]
    cases hlocked : s.limiter.locked with
    | true =>
        rw [hlocked] at hlock
        cases hlock
    | false => rfl
  · obtain ⟨k, hk⟩ := List.mem_iff_getElem?.mp hn
    refine (h.perWebhook k n hk).eq_capacity fun c hc => ?_
    simp only [Acquisition.holds, hquiet c hc, reduceCtorEq, decide_false]

/-- From whatever threads and statements have made of the limiter: if no more threads call, those that are there all
get through, in whatever order they go on, and every permit is back then. -/
theorem acquire_ends (globalLimit perWebhookLimit : ℤ) {as : List Action}
    (hrun : run State.step (.init globalLimit perWebhookLimit) as = some s) :
    Ends State.advance State.Quiet s fun s' =>
      s'.limiter.globalSemaphore = atLeastOne globalLimit ∧ s'.limiter.locked = false ∧
        ∀ n ∈ s'.limiter.semaphores, n = atLeastOne perWebhookLimit := by
  have hpos : ∀ limit, 0 < atLeastOne limit := fun limit => by
    unfold atLeastOne
    omega
  have hstep : ∀ s i s', Inv (atLeastOne globalLimit) (atLeastOne perWebhookLimit) s → State.advance s i = some s' →
      Inv (atLeastOne globalLimit) (atLeastOne perWebhookLimit) s' ∧ s'.remaining < s.remaining :=
    fun _ _ _ h hs' => ⟨inv_advance h hs', remaining_advance hs'⟩
  refine ends_of_invariant hstep (fun s h hopen => ?_) (fun s h hquiet => permits_back h hquiet) (inv_run hrun)
  exact exists_advance h (hpos globalLimit) (hpos perWebhookLimit) hopen

/-- From the state of the sample calls, in which threads wait, the calls go on to the end. -/
theorem acquire_ends_sample : ¬ sampleState.Quiet ∧ ∃ is s, run State.advance sampleState is = some s ∧ s.Quiet ∧
    s.limiter.globalSemaphore = 2 ∧ s.limiter.locked = false ∧ ∀ n ∈ s.limiter.semaphores, n = 1 := by
  refine ⟨by unfold State.Quiet; decide +kernel, ?_⟩
  obtain ⟨is, s, hrun, hquiet, hfinal⟩ :=
    (acquire_ends 2 1 (show run State.step (.init 2 1) sampleCalls = some sampleState from
      (Option.some_get _).symm)).exists_final
  exact ⟨is, s, hrun, hquiet, hfinal⟩

end ApexChainx.Webhooks.DispatchLimiter
