import ApexChainx.Lib.Transition
import ApexChainx.RateLimit.Limiters

/-!
# Workers on one Redis

`RedisRateLimiter.is_allowed` and `is_allowed_async` (`app/core/rate_limiter.py`) in any number of worker
processes. A call without a session runs the script, and after an exception trips the circuit of its
process and counts in the memory of the process, as do the calls that find the circuit tripped. A call with
a session asks the attempt ledger, and then calls a method that the class does not have.

Redis does not fail. The members that the workers draw at random never coincide.
-/

namespace ApexChainx.RateLimit

open ApexChainx.Lib

/-- The settings the limiter reads, and SHA-256 as hexadecimal text. -/
structure LimiterSettings where
  /-- `AUTH_RATE_LIMIT_WINDOW_SECONDS`. -/
  window : ℤ
  /-- `AUTH_RATE_LIMIT_REQUESTS`. -/
  requests : ℤ
  /-- `USE_REDIS_RATE_LIMITER`. -/
  useRedis : Bool
  /-- `CELERY_TASK_ALWAYS_EAGER`. -/
  alwaysEager : Bool
  /-- `CELERY_BROKER_URL` is not blank. -/
  brokerConfigured : Bool
  sha256 : String → String

/-- `CIRCUIT_RESET_SECONDS`, in microseconds. -/
def circuitReset : ℤ := 30000000

/-- `REDIS_MAX_ATTEMPTS`. -/
def redisMaxAttempts : ℕ := 3

/-- What a check of the limiter can raise. -/
inductive LimiterError
  | redisError (detail : String)
  | attributeError (name : String)
deriving DecidableEq, Repr

/-- `RETRYABLE_REDIS_ERRORS`. -/
def LimiterError.retryable : LimiterError → Bool
  | .redisError _ => true
  | .attributeError _ => false

/-- A worker process: its in-memory limiter, on a clock in microseconds, and `disabled_until`. -/
structure Worker where
  memory : Requests
  disabledUntil : Option ℤ
deriving DecidableEq, Repr

namespace Worker

/-- `_is_circuit_open`. -/
def isCircuitOpen (w : Worker) (clock : ℤ) : Bool := w.disabledUntil.any (clock < ·)

/-- `_trip_circuit`. -/
def tripCircuit (w : Worker) (clock : ℤ) : Worker := { w with disabledUntil := some (clock + circuitReset) }

end Worker

section Calls

variable (cfg : LimiterSettings) (clock : ℤ) (member : String)

/-- `_eval`, with the check of `_lua_args`. -/
def evalOnce (store : Store) (key : String) : Except LimiterError (Bool × Store) :=
  if cfg.brokerConfigured then .ok (eval cfg.sha256 cfg.window cfg.requests store key clock member)
  else .error (.redisError "CELERY_BROKER_URL is empty")

/-- `_eval_with_retry`, with so many attempts left. -/
def evalWithRetry (store : Store) (key : String) : ℕ → Except LimiterError (Bool × Store)
  | 0 => evalOnce cfg clock member store key
  | n + 1 =>
      match evalOnce cfg clock member store key with
      | .ok result => .ok result
      | .error e => if e.retryable then evalWithRetry store key n else .error e

/-- `self.fallback.is_allowed(key)`. -/
def fallback (w : Worker) (store : Store) (key : String) : Bool × Worker × Store :=
  let result := w.memory.isAllowed (cfg.window * 1000000) cfg.requests key clock
  (result.1, { w with memory := result.2 }, store)

/-- `is_allowed` without a session. -/
def isAllowed (w : Worker) (store : Store) (key : String) : Bool × Worker × Store :=
  if cfg.useRedis = false ∨ cfg.alwaysEager = true then fallback cfg clock w store key
  else if w.isCircuitOpen clock then fallback cfg clock w store key
  else
    match evalWithRetry cfg clock member store key (redisMaxAttempts - 1) with
    | .ok (allowed, store') => (allowed, w, store')
    | .error _ => fallback cfg clock (w.tripCircuit clock) store key

/-- `is_allowed_async`: the statements of `is_allowed` without a session, on the asynchronous client. -/
def isAllowedAsync (w : Worker) (store : Store) (key : String) : Bool × Worker × Store :=
  isAllowed cfg clock member w store key

/-- `self._run_coroutine(self._is_allowed_async(key))`: the class has no such method. -/
def runCoroutine : Except LimiterError Bool := .error (.attributeError "_run_coroutine")

/-- `is_allowed` with a session, after the attempt ledger recorded the attempt or refused it. -/
def isAllowedWithDb (recorded : Bool) (w : Worker) : Bool × Worker :=
  if recorded = false then (false, w)
  else if cfg.useRedis = false ∨ cfg.alwaysEager = true then (true, w)
  else if w.isCircuitOpen clock then (true, w)
  else
    match runCoroutine with
    | .ok allowed => (allowed, w)
    | .error _ => (true, w.tripCircuit clock)

end Calls

/-! ## Interleavings -/

/-- A call, with the answer of the attempt ledger where there is a session. -/
inductive Call
  | isAllowed (key : String)
  | isAllowedWithDb (key : String) (recorded : Bool)
  | isAllowedAsync (key : String)
deriving DecidableEq, Repr

/-- A call in a worker, at a time in microseconds, with the member it draws. -/
structure Action where
  worker : ℕ
  call : Call
  now : ℤ
  member : String
deriving DecidableEq, Repr

/-- The key that a call without a session checks. -/
def Call.plainKey : Call → Option String
  | .isAllowed key => some key
  | .isAllowedAsync key => some key
  | .isAllowedWithDb _ _ => none

/-- Redis and the workers. `granted` notes the calls without a session that were let through, `used` the
members drawn. -/
structure Sys where
  store : Store
  workers : ℕ → Worker
  clock : ℤ
  granted : List (String × ℤ)
  used : List String

def Sys.init : Sys := ⟨fun _ => .empty, fun _ => ⟨[], none⟩, 0, [], []⟩

/-- The state after a call that left `w` and `store` and let the key through, if it did. -/
def Sys.after (s : Sys) (a : Action) (w : Worker) (store : Store) (granted : List (String × ℤ)) : Sys :=
  { store := store
    workers := Function.update s.workers a.worker w
    clock := a.now
    granted := s.granted ++ granted
    used := s.used ++ [a.member] }

/-- A call of a worker: the clock never goes back, and the member is new. -/
def step (cfg : LimiterSettings) (s : Sys) (a : Action) : Option Sys :=
  if a.now < s.clock ∨ a.member ∈ s.used then none
  else
    let w := s.workers a.worker
    match a.call with
    | .isAllowed key =>
        let result := isAllowed cfg a.now a.member w s.store key
        some (s.after a result.2.1 result.2.2 (if result.1 then [(key, a.now)] else []))
    | .isAllowedAsync key =>
        let result := isAllowedAsync cfg a.now a.member w s.store key
        some (s.after a result.2.1 result.2.2 (if result.1 then [(key, a.now)] else []))
    | .isAllowedWithDb _ recorded =>
        some (s.after a (isAllowedWithDb cfg a.now recorded w).2 s.store [])

/-! ## The law -/

/-- Redis is on and there is one. -/
structure SharedRedis (cfg : LimiterSettings) : Prop where
  useRedis : cfg.useRedis = true
  notEager : cfg.alwaysEager = false
  broker : cfg.brokerConfigured = true

/-- A call without a session finds the circuit of its process closed. -/
def CircuitClosed (s : Sys) (a : Action) : Prop :=
  a.call.plainKey ≠ none → (s.workers a.worker).isCircuitOpen a.now = false

instance (s : Sys) (a : Action) : Decidable (CircuitClosed s a) :=
  inferInstanceAs (Decidable (_ → _))

/-- The calls of a key let through in the window that begins at `start`. -/
def grantedIn (cfg : LimiterSettings) (s : Sys) (key : String) (start : ℤ) : ℕ :=
  s.granted.countP fun c =>
    decide (c.1 = key) && decide (start ≤ c.2 ∧ c.2 < start + cfg.window * 1000000)

/-- The window begins on a whole second, or the calls of the key that were let through were made on whole
seconds: the script counts in seconds. -/
def OnSeconds (s : Sys) (key : String) (start : ℤ) : Prop :=
  start % 1000000 = 0 ∨ ∀ c ∈ s.granted, c.1 = key → c.2 % 1000000 = 0

/-- What was let through, by its key in Redis and in seconds. -/
def Sys.hits (cfg : LimiterSettings) (s : Sys) : List (String × ℤ) :=
  s.granted.map fun c => (keyNamespace cfg.sha256 c.1, seconds c.2)

/-- The sorted sets follow what was let through, and each call was let through against those before it. -/
structure Inv (cfg : LimiterSettings) (s : Sys) : Prop where
  clock : 0 ≤ s.clock
  sets : ∀ name, SetTracks cfg.window s.clock (timesOf name (s.hits cfg)) s.used (s.store name)
  admitted : Admitted cfg.window cfg.requests (s.hits cfg)

theorem inv_init (cfg : LimiterSettings) : Inv cfg Sys.init :=
  ⟨Int.le_refl _, fun _ => SetTracks.empty _ _ _, admitted_nil _ _⟩

theorem hits_after (cfg : LimiterSettings) (s : Sys) (a : Action) (w : Worker) (store : Store)
    (granted : List (String × ℤ)) :
    (s.after a w store granted).hits cfg
      = s.hits cfg ++ granted.map fun c => (keyNamespace cfg.sha256 c.1, seconds c.2) := by
  simp only [Sys.hits, Sys.after, List.map_append]

/-- A call with a session changes neither Redis nor what was let through. -/
theorem Inv.withDb {cfg : LimiterSettings} {s : Sys} {a : Action} (h : Inv cfg s) (hnow : s.clock ≤ a.now)
    (w : Worker) : Inv cfg (s.after a w s.store []) := by
  have hhits : (s.after a w s.store []).hits cfg = s.hits cfg := by
    rw [hits_after, List.map_nil, List.append_nil]
  refine ⟨Int.le_trans h.clock hnow, ?_, ?_⟩
  · intro name
    rw [hhits]
    exact ((h.sets name).later hnow).usedMore a.member
  · rw [hhits]
    exact h.admitted

/-- With Redis up, a call that finds the circuit closed runs the script. -/
theorem isAllowed_of_closed {cfg : LimiterSettings} (hcfg : SharedRedis cfg) {clock : ℤ} {w : Worker}
    (hclosed : w.isCircuitOpen clock = false) (member : String) (store : Store) (key : String) :
    isAllowed cfg clock member w store key =
      ((eval cfg.sha256 cfg.window cfg.requests store key clock member).1, w,
        (eval cfg.sha256 cfg.window cfg.requests store key clock member).2) := by
  have heval : evalWithRetry cfg clock member store key (redisMaxAttempts - 1)
      = .ok (eval cfg.sha256 cfg.window cfg.requests store key clock member) := by
    simp [redisMaxAttempts, evalWithRetry, evalOnce, hcfg.broker]
  unfold isAllowed
  rw [if_neg (by simp [hcfg.useRedis, hcfg.notEager]), hclosed, heval]
  rfl

/-- A check that ran the script keeps the invariant. -/
theorem Inv.plain {cfg : LimiterSettings} {s : Sys} {a : Action} (h : Inv cfg s)
    (hnow : s.clock ≤ a.now) (hfresh : a.member ∉ s.used) (w : Worker) (key : String) :
    let result := eval cfg.sha256 cfg.window cfg.requests s.store key a.now a.member
    Inv cfg (s.after a w result.2 (if result.1 then [(key, a.now)] else [])) := by
  have hclock : 0 ≤ a.now := Int.le_trans h.clock hnow
  obtain ⟨hdecision, htracks⟩ := ((h.sets (keyNamespace cfg.sha256 key)).later hnow).scriptStep
    hclock cfg.requests hfresh
  intro result
  -- the script writes the set of the key and no other one
  have hself : result.2 (keyNamespace cfg.sha256 key)
      = (scriptStep cfg.window cfg.requests a.now a.member
          (s.store (keyNamespace cfg.sha256 key))).2 := Function.update_self ..
  have hother : ∀ name, name ≠ keyNamespace cfg.sha256 key → result.2 name = s.store name :=
    fun name hne => Function.update_of_ne hne ..
  have hdecision' : result.1 = !decide (cfg.requests ≤ hitsAfter (seconds a.now - cfg.window)
      (keyNamespace cfg.sha256 key) (s.hits cfg)) := hdecision
  have hhits : (s.after a w result.2 (if result.1 then [(key, a.now)] else [])).hits cfg
      = s.hits cfg ++ if result.1 then [(keyNamespace cfg.sha256 key, seconds a.now)] else [] := by
    rw [hits_after]
    split <;> rfl
  refine ⟨hclock, ?_, ?_⟩
  · intro name
    rw [hhits]
    by_cases hname : name = keyNamespace cfg.sha256 key
    · subst hname
      have htimes : timesOf (keyNamespace cfg.sha256 key) (s.hits cfg ++
          if result.1 then [(keyNamespace cfg.sha256 key, seconds a.now)] else [])
            = if cfg.requests ≤ (timesOf (keyNamespace cfg.sha256 key) (s.hits cfg)).countP
                (seconds a.now - cfg.window < ·)
              then timesOf (keyNamespace cfg.sha256 key) (s.hits cfg)
              else timesOf (keyNamespace cfg.sha256 key) (s.hits cfg) ++ [seconds a.now] := by
        rw [hdecision']
        unfold hitsAfter
        by_cases hfull : cfg.requests ≤ (timesOf (keyNamespace cfg.sha256 key) (s.hits cfg)).countP
            (seconds a.now - cfg.window < ·)
        · rw [if_pos hfull, decide_eq_true hfull]
          show timesOf _ (s.hits cfg ++ []) = _
          rw [List.append_nil]
        · rw [if_neg hfull, decide_eq_false hfull]
          exact timesOf_append_self _ _ _
      rw [htimes]
      show SetTracks _ _ _ _ (result.2 (keyNamespace cfg.sha256 key))
      rw [hself]
      exact htracks
    · have htimes : timesOf name (s.hits cfg ++
          if result.1 then [(keyNamespace cfg.sha256 key, seconds a.now)] else [])
            = timesOf name (s.hits cfg) := by
        split
        · exact timesOf_append_ne _ _ (Ne.symm hname)
        · rw [List.append_nil]
      rw [htimes]
      show SetTracks _ _ _ _ (result.2 name)
      rw [hother name hname]
      exact ((h.sets name).later hnow).usedMore a.member
  · rw [hhits]
    split
    · rename_i hgranted
      apply h.admitted.append
      rw [hdecision', Bool.not_eq_true', decide_eq_false_iff_not] at hgranted
      exact Int.not_le.mp hgranted
    · rw [List.append_nil]
      exact h.admitted

theorem inv_step {cfg : LimiterSettings} (hcfg : SharedRedis cfg) {s s' : Sys} {a : Action} (h : Inv cfg s)
    (hclosed : CircuitClosed s a) (hstep : step cfg s a = some s') : Inv cfg s' := by
  unfold step at hstep
  split at hstep
  · cases hstep
  · rename_i hok
    obtain ⟨hnow, hfresh⟩ := not_or.mp hok
    replace hnow : s.clock ≤ a.now := Int.not_lt.mp hnow
    have hplain : ∀ key, a.call.plainKey = some key →
        some (s.after a (isAllowed cfg a.now a.member (s.workers a.worker) s.store key).2.1
          (isAllowed cfg a.now a.member (s.workers a.worker) s.store key).2.2
          (if (isAllowed cfg a.now a.member (s.workers a.worker) s.store key).1 then [(key, a.now)]
            else [])) = some s' → Inv cfg s' := by
      intro key hkey heq
      rw [isAllowed_of_closed hcfg (hclosed (by simp [hkey]))] at heq
      obtain rfl := Option.some.inj heq
      exact h.plain hnow hfresh _ key
    cases hcall : a.call with
    | isAllowed key =>
        simp only [hcall] at hstep
        exact hplain key (by rw [hcall]; rfl) hstep
    | isAllowedAsync key =>
        simp only [hcall] at hstep
        exact hplain key (by rw [hcall]; rfl) hstep
    | isAllowedWithDb key recorded =>
        simp only [hcall] at hstep
        obtain rfl := Option.some.inj hstep
        exact h.withDb hnow _

/-- The default limits, with ten requests in five minutes. -/
def defaultLimits : LimiterSettings := ⟨300, 10, true, false, true, id⟩

/-- The key of a login from one address. -/
def loginKey : String := "login_ip_203.0.113.7"

/-- Ten calls at one time, over two workers, with the members they draw. -/
def tenCalls (now : ℤ) (members : List String) : List Action :=
  members.mapIdx fun i member =>
    ⟨i % 2, if i % 3 = 0 then .isAllowedAsync loginKey else .isAllowed loginKey, now, member⟩

def firstMembers : List String := ["a0", "a1", "a2", "a3", "a4", "a5", "a6", "a7", "a8", "a9"]

def laterMembers : List String := ["b0", "b1", "b2", "b3", "b4", "b5", "b6", "b7", "b8", "b9"]

/-- Ten calls; one with a session, which opens the circuit of its worker; one in the other worker; and one in the
same worker when its circuit is closed again. -/
def thirteenCalls : List Action :=
  tenCalls 0 firstMembers ++
    [⟨0, .isAllowedWithDb loginKey true, 6000000, "c0"⟩, ⟨1, .isAllowedAsync loginKey, 7000000, "c1"⟩,
     ⟨0, .isAllowed loginKey, 120000000, "c2"⟩]

end ApexChainx.RateLimit
