import Mathlib.Data.Rat.Defs
import Mathlib.Tactic.Linarith
import ApexChainx.Lib.Keyed
import ApexChainx.Webhooks.NetworkValidation

/-!
# The circuit breaker

`CircuitBreaker` (`app/services/webhook_breaker.py`) without a shared Redis. Four dictionaries are keyed by the
host of a URL, and each call reads the clock once; the readings are exact numbers of seconds. The gauge that
the breaker sets is left out, since nothing reads it.

Under one host the dictionaries are a machine of its own (`HostBreaker`), of which the guarantees are proved.
-/

namespace ApexChainx.Webhooks

open ApexChainx.Lib

inductive BreakerState
  | closed
  | halfOpen
  | opened
deriving DecidableEq, Repr

/-- The settings, `WEBHOOK_BREAKER_*`. -/
structure BreakerSettings where
  failThreshold : ℤ
  windowSeconds : ℤ
  resetSeconds : ℤ
deriving DecidableEq, Repr

/-- The four dictionaries. -/
structure CircuitBreaker where
  state : List Char → Option BreakerState
  failures : List Char → Option (List ℚ)
  openSince : List Char → Option ℚ
  probeSent : List Char → Option Bool

/-- `_host_key`: the hostname, or the text itself where there is none or it cannot be parsed. -/
def hostKey (u : Unicode) (url : List Char) : List Char :=
  ((Url.urlsplit u url).bind (·.hostname u)).getD url

namespace CircuitBreaker

def new : CircuitBreaker := ⟨fun _ => none, fun _ => none, fun _ => none, fun _ => none⟩

def stateOf (b : CircuitBreaker) (host : List Char) : BreakerState := (b.state host).getD .closed

section

variable (cfg : BreakerSettings) (b : CircuitBreaker) (host : List Char) (now : ℚ)

/-- What puts the host in the state OPEN. -/
def openHost : CircuitBreaker :=
  { b with
    state := Function.update b.state host (some .opened)
    openSince := Function.update b.openSince host (some now)
    probeSent := Function.update b.probeSent host (some false) }

/-- `_record_failure`. -/
def recordFailure : CircuitBreaker :=
  let recent := ((b.failures host).getD []).filter (now - cfg.windowSeconds < ·) ++ [now]
  let recorded := { b with failures := Function.update b.failures host (some recent) }
  if cfg.failThreshold ≤ recent.length then recorded.openHost host now else recorded

/-- `_record_success`. -/
def recordSuccess : CircuitBreaker where
  state := Function.update b.state host (some .closed)
  failures := Function.update b.failures host none
  openSince := Function.update b.openSince host none
  probeSent := Function.update b.probeSent host none

/-- The one request of the state HALF_OPEN. -/
def probe : CircuitBreaker × Bool :=
  if (b.probeSent host).getD false then (b, false)
  else ({ b with probeSent := Function.update b.probeSent host (some true) }, true)

/-- `allow_request`, for the host of the URL. -/
def allowRequest : CircuitBreaker × Bool :=
  match b.stateOf host with
  | .closed => (b, true)
  | .halfOpen => b.probe host
  | .opened =>
      if cfg.resetSeconds ≤ now - (b.openSince host).getD 0 then
        ({ b with state := Function.update b.state host (some .halfOpen) } : CircuitBreaker).probe host
      else (b, false)

/-- `on_failure`, for the host of the URL. -/
def onFailure : CircuitBreaker :=
  if b.stateOf host = .halfOpen then b.openHost host now else b.recordFailure cfg host now

end

end CircuitBreaker

/-! ## Calls -/

inductive BreakerOp
  | allowRequest
  | onSuccess
  | onFailure
deriving DecidableEq, Repr

/-- A call of one of the three methods, with the clock's reading. -/
structure BreakerCall where
  op : BreakerOp
  url : List Char
  time : ℚ
deriving DecidableEq, Repr

variable (u : Unicode) (cfg : BreakerSettings)

def BreakerCall.host (call : BreakerCall) : List Char := hostKey u call.url

/-- A call, and what `allow_request` returns. -/
def CircuitBreaker.step (b : CircuitBreaker) (call : BreakerCall) : CircuitBreaker × Option Bool :=
  match call.op with
  | .allowRequest => (b.allowRequest cfg (call.host u) call.time).map id some
  | .onSuccess => (b.recordSuccess (call.host u), none)
  | .onFailure => (b.onFailure cfg (call.host u) call.time, none)

/-- The breaker after the calls. -/
def CircuitBreaker.after (calls : List BreakerCall) : CircuitBreaker :=
  finalState (CircuitBreaker.step u cfg) .new calls

/-! ## One host -/

/-- What the dictionaries hold for a host, with the values that the code takes for missing ones. -/
structure HostBreaker where
  state : BreakerState
  failures : List ℚ
  openSince : ℚ
  probeSent : Bool
deriving DecidableEq, Repr

def CircuitBreaker.view (b : CircuitBreaker) (host : List Char) : HostBreaker :=
  ⟨b.stateOf host, (b.failures host).getD [], (b.openSince host).getD 0, (b.probeSent host).getD false⟩

namespace HostBreaker

variable {u cfg}

def failed (cfg : BreakerSettings) (h : HostBreaker) (now : ℚ) : HostBreaker :=
  let recent := h.failures.filter (now - cfg.windowSeconds < ·) ++ [now]
  if h.state = .halfOpen then ⟨.opened, h.failures, now, false⟩
  else if cfg.failThreshold ≤ recent.length then ⟨.opened, recent, now, false⟩
  else { h with failures := recent }

/-- A request that is let through while the host is not closed. -/
def probed (h : HostBreaker) : HostBreaker := { h with state := .halfOpen, probeSent := true }

def asked (cfg : BreakerSettings) (h : HostBreaker) (now : ℚ) : HostBreaker × Bool :=
  match h.state with
  | .closed => (h, true)
  | .halfOpen => if h.probeSent then (h, false) else (h.probed, true)
  | .opened =>
      if cfg.resetSeconds ≤ now - h.openSince then
        if h.probeSent then ({ h with state := .halfOpen }, false) else (h.probed, true)
      else (h, false)

def step (cfg : BreakerSettings) (h : HostBreaker) (call : BreakerCall) : HostBreaker × Option Bool :=
  match call.op with
  | .allowRequest => (h.asked cfg call.time).map id some
  | .onSuccess => (⟨.closed, [], 0, false⟩, none)
  | .onFailure => (h.failed cfg call.time, none)

end HostBreaker

namespace CircuitBreaker

variable {cfg} {b : CircuitBreaker} {host k : List Char} {now : ℚ}

theorem view_openHost : (b.openHost host now).view host = ⟨.opened, (b.view host).failures, now, false⟩ := by
  simp [openHost, view, stateOf]

theorem view_onFailure : (b.onFailure cfg host now).view host = (b.view host).failed cfg now := by
  unfold onFailure HostBreaker.failed recordFailure
  have hstate : (b.view host).state = b.stateOf host := rfl
  have hfailures : (b.view host).failures = (b.failures host).getD [] := rfl
  rw [hstate, hfailures]
  dsimp only
  split
  · rw [view_openHost, hfailures]
  · split
    · rw [view_openHost]
      simp [view]
    · simp [view, stateOf]

theorem view_allowRequest : ((b.allowRequest cfg host now).1.view host, (b.allowRequest cfg host now).2)
    = (b.view host).asked cfg now := by
  unfold allowRequest HostBreaker.asked
  have hstate : (b.view host).state = b.stateOf host := rfl
  have hsince : (b.view host).openSince = (b.openSince host).getD 0 := rfl
  have hsent : (b.view host).probeSent = (b.probeSent host).getD false := rfl
  rw [hstate, hsince, hsent]
  unfold probe HostBreaker.probed
  cases h : b.stateOf host with
  | closed => rfl
  | halfOpen =>
      dsimp only
      split
      · rfl
      · simp [view, stateOf, ← h]
  | opened =>
      dsimp only
      split
      · split
        · simp [view, stateOf]
        · simp [view, stateOf]
      · rfl

/-- A dictionary keeps what it holds under the other keys. -/
theorem view_of_ne {b' : CircuitBreaker} (hstate : b'.state k = b.state k) (hfailures : b'.failures k = b.failures k)
    (hsince : b'.openSince k = b.openSince k) (hsent : b'.probeSent k = b.probeSent k) :
    b'.view k = b.view k := by
  simp only [view, stateOf, hstate, hfailures, hsince, hsent]

theorem view_onFailure_of_ne (hk : k ≠ host) : (b.onFailure cfg host now).view k = b.view k := by
  unfold onFailure recordFailure openHost
  dsimp only
  split_ifs <;> exact view_of_ne (by simp [hk]) (by simp [hk]) (by simp [hk]) (by simp [hk])

theorem view_allowRequest_of_ne (hk : k ≠ host) : (b.allowRequest cfg host now).1.view k = b.view k := by
  unfold allowRequest probe
  split
  · rfl
  all_goals split_ifs <;> exact view_of_ne (by simp [hk]) rfl rfl (by simp [hk])

end CircuitBreaker

/-- The four dictionaries are a machine for each host. -/
theorem keyed_step : Keyed (CircuitBreaker.step u cfg) (BreakerCall.host u) CircuitBreaker.view
    (HostBreaker.step cfg) where
  own b call := by
    unfold CircuitBreaker.step HostBreaker.step
    cases call.op with
    | allowRequest => exact congrArg Prod.fst CircuitBreaker.view_allowRequest
    | onSuccess => simp [CircuitBreaker.recordSuccess, CircuitBreaker.view, CircuitBreaker.stateOf]
    | onFailure => exact CircuitBreaker.view_onFailure
  answer b call := by
    unfold CircuitBreaker.step HostBreaker.step
    cases call.op with
    | allowRequest => exact congrArg (some ·.2) CircuitBreaker.view_allowRequest
    | onSuccess => rfl
    | onFailure => rfl
  other b call k hk := by
    unfold CircuitBreaker.step
    cases call.op with
    | allowRequest => exact CircuitBreaker.view_allowRequest_of_ne hk
    | onSuccess => simp [CircuitBreaker.recordSuccess, CircuitBreaker.view, CircuitBreaker.stateOf, hk]
    | onFailure => exact CircuitBreaker.view_onFailure_of_ne hk

/-! ## What a host's machine keeps -/

namespace HostBreaker

variable {cfg} {h : HostBreaker} {call : BreakerCall}

/-- The host is OPEN, and has been put there at `t` or later. -/
def CoolingDown (t : ℚ) (h : HostBreaker) : Prop := h.state = .opened ∧ t ≤ h.openSince

/-- A failure puts the host where a cool-down begins, or records it. -/
theorem failed_cases (cfg : BreakerSettings) (h : HostBreaker) (now : ℚ) :
    ((h.failed cfg now).state = .opened ∧ (h.failed cfg now).openSince = now) ∨
    h.state ≠ .halfOpen ∧ h.failed cfg now
        = { h with failures := h.failures.filter (now - cfg.windowSeconds < ·) ++ [now] }
      ∧ ((h.failures.filter (now - cfg.windowSeconds < ·) ++ [now]).length : ℤ) < cfg.failThreshold := by
  unfold failed
  dsimp only
  split
  · exact .inl ⟨rfl, rfl⟩
  · rename_i hstate
    split
    · exact .inl ⟨rfl, rfl⟩
    · rename_i hfew
      exact .inr ⟨hstate, rfl, not_le.mp hfew⟩

/-- A request changes the state only after the cool-down, and never from or to CLOSED. -/
theorem asked_cases (cfg : BreakerSettings) (h : HostBreaker) (now : ℚ) :
    h.state = .closed ∧ h.asked cfg now = (h, true) ∨
    h.state ≠ .closed ∧ h.asked cfg now = (h, false) ∨
    h.state ≠ .closed ∧ (h.state = .opened → cfg.resetSeconds ≤ now - h.openSince)
      ∧ (h.probeSent = true ∧ h.asked cfg now = ({ h with state := .halfOpen }, false)
        ∨ h.probeSent = false ∧ h.asked cfg now = (h.probed, true)) := by
  unfold asked
  cases hstate : h.state with
  | closed => exact .inl ⟨rfl, rfl⟩
  | halfOpen =>
      right
      cases hsent : h.probeSent with
      | true => exact .inl ⟨nofun, rfl⟩
      | false => exact .inr ⟨nofun, nofun, .inr ⟨rfl, rfl⟩⟩
  | opened =>
      right
      dsimp only
      split
      · rename_i hover
        refine .inr ⟨nofun, fun _ => hover, ?_⟩
        cases hsent : h.probeSent with
        | true => exact .inl ⟨rfl, rfl⟩
        | false => exact .inr ⟨rfl, rfl⟩
      · exact .inl ⟨nofun, rfl⟩

/-- During the cool-down nothing but a success changes the state, and no request is let through. -/
theorem CoolingDown.step {t : ℚ} (hcool : CoolingDown t h) (hop : call.op ≠ .onSuccess)
    (hafter : t ≤ call.time) (hbefore : call.time < t + cfg.resetSeconds) :
    CoolingDown t (h.step cfg call).1 ∧ (call.op = .allowRequest → (h.step cfg call).2 = some false) := by
  obtain ⟨hstate, hsince⟩ := hcool
  unfold HostBreaker.step
  cases hcall : call.op with
  | onSuccess => exact absurd hcall hop
  | onFailure =>
      refine ⟨?_, nofun⟩
      rcases failed_cases cfg h call.time with ⟨hopened, hnow⟩ | ⟨-, heq, -⟩
      · exact ⟨hopened, hafter.trans hnow.ge⟩
      · simp only [heq]
        exact ⟨hstate, hsince⟩
  | allowRequest =>
      rcases asked_cases cfg h call.time with ⟨hclosed, -⟩ | ⟨-, heq⟩ | ⟨-, hover, -⟩
      · rw [hstate] at hclosed
        cases hclosed
      · simp only [heq]
        exact ⟨⟨hstate, hsince⟩, fun _ => rfl⟩
      · have hreset := hover hstate
        linarith

theorem CoolingDown.finalState {t : ℚ} (hcool : CoolingDown t h) {calls : List BreakerCall}
    (hcalls : ∀ c ∈ calls, c.op ≠ .onSuccess ∧ t ≤ c.time ∧ c.time < t + cfg.resetSeconds) :
    CoolingDown t (finalState (HostBreaker.step cfg) h calls) :=
  finalState_invariant (fun _ _ hs hok => (hs.step hok.1 hok.2.1 hok.2.2).1) hcool hcalls

/-- Only a success closes the host. -/
theorem step_ne_closed (hstate : h.state ≠ .closed) (hop : call.op ≠ .onSuccess) :
    (h.step cfg call).1.state ≠ .closed := by
  unfold step
  cases hcall : call.op with
  | onSuccess => exact absurd hcall hop
  | onFailure =>
      rcases failed_cases cfg h call.time with ⟨hopened, -⟩ | ⟨-, heq, -⟩
      · simp [hopened]
      · simpa [heq] using hstate
  | allowRequest =>
      rcases asked_cases cfg h call.time with ⟨hclosed, -⟩ | ⟨-, heq⟩ | ⟨-, -, ⟨-, heq⟩ | ⟨-, heq⟩⟩
      · exact absurd hclosed hstate
      · simpa [heq] using hstate
      · simp [heq]
      · simp [heq, probed]

theorem finalState_ne_closed (hstate : h.state ≠ .closed) {calls : List BreakerCall}
    (hops : ∀ c ∈ calls, c.op ≠ .onSuccess) : (finalState (HostBreaker.step cfg) h calls).state ≠ .closed := by
  have hkeep : ∀ (h : HostBreaker) (c : BreakerCall), h.state ≠ .closed → c.op ≠ .onSuccess →
      (h.step cfg c).1.state ≠ .closed := fun _ _ => step_ne_closed
  exact finalState_invariant hkeep hstate hops

/-- After the probe no request is let through. -/
theorem countP_answers_of_probed (hstate : h.state = .halfOpen) (hsent : h.probeSent = true)
    {calls : List BreakerCall} (hcalls : ∀ c ∈ calls, c.op = .allowRequest) :
    (answers (HostBreaker.step cfg) h calls).countP (·.2 = some true) = 0 := by
  induction calls with
  | nil => rfl
  | cons c calls ih =>
      have hstep : h.step cfg c = (h, some false) := by
        simp [step, hcalls c List.mem_cons_self, asked, hstate, hsent]
      rw [answers, hstep, List.countP_cons_of_neg (by simp), ih fun c' hc' => hcalls c' (List.mem_cons_of_mem c hc')]

/-- While the host is not CLOSED, one request at most is let through before the next report. -/
theorem countP_answers_le_one (hstate : h.state ≠ .closed) {calls : List BreakerCall}
    (hcalls : ∀ c ∈ calls, c.op = .allowRequest) :
    (answers (HostBreaker.step cfg) h calls).countP (·.2 = some true) ≤ 1 := by
  induction calls generalizing h with
  | nil => exact Nat.zero_le 1
  | cons c calls ih =>
      have hop := hcalls c List.mem_cons_self
      have hcalls' : ∀ c' ∈ calls, c'.op = .allowRequest := fun c' hc' => hcalls c' (List.mem_cons_of_mem c hc')
      have hstep : h.step cfg c = (h.asked cfg c.time).map id some := by
        unfold step
        rw [hop]
      have hnext : (h.step cfg c).1.state ≠ .closed := step_ne_closed hstate (by simp [hop])
      rw [answers]
      rcases asked_cases cfg h c.time with ⟨hclosed, -⟩ | ⟨-, heq⟩ | ⟨-, -, ⟨-, heq⟩ | ⟨-, heq⟩⟩
      · exact absurd hclosed hstate
      · rw [List.countP_cons_of_neg (by simp [hstep, heq])]
        exact ih hnext hcalls'
      · rw [List.countP_cons_of_neg (by simp [hstep, heq])]
        exact ih hnext hcalls'
      · rw [List.countP_cons_of_pos (by simp [hstep, heq]), hstep, heq]
        have hnone : (answers (HostBreaker.step cfg) h.probed calls).countP (·.2 = some true) = 0 :=
          countP_answers_of_probed rfl rfl hcalls'
        exact Nat.add_le_add_right hnone.le 1

/-- The host is not CLOSED, or the recorded failures end in these, which are too few. -/
def Burst (cfg : BreakerSettings) (times : List ℚ) (h : HostBreaker) : Prop :=
  h.state ≠ .closed ∨ times <:+ h.failures ∧ (times ≠ [] → (times.length : ℤ) < cfg.failThreshold)

theorem Burst.failed {times : List ℚ} {now : ℚ} (hburst : Burst cfg times h)
    (hrecent : ∀ t ∈ times, now - t < cfg.windowSeconds) : Burst cfg (times ++ [now]) (h.failed cfg now) := by
  rcases failed_cases cfg h now with ⟨hopened, -⟩ | ⟨-, heq, hfew⟩
  · exact .inl (by simp [hopened])
  · rcases hburst with hstate | ⟨⟨older, hfailures⟩, -⟩
    · exact .inl (by simpa [heq] using hstate)
    · -- the failures of the burst are all in the window
      have hkept : times.filter (now - cfg.windowSeconds < ·) = times := by
        refine List.filter_eq_self.mpr fun t ht => ?_
        have hlt := hrecent t ht
        simp only [decide_eq_true_eq]
        linarith
      rw [← hfailures, List.filter_append, hkept] at heq hfew
      refine .inr ⟨?_, fun _ => ?_⟩
      · rw [heq]
        exact ⟨older.filter (now - cfg.windowSeconds < ·), by simp⟩
      · simp only [List.length_append, List.length_singleton] at hfew ⊢
        push_cast at hfew ⊢
        omega

theorem Burst.asked {times : List ℚ} {now : ℚ} (hburst : Burst cfg times h) :
    Burst cfg times (h.asked cfg now).1 := by
  rcases asked_cases cfg h now with ⟨-, heq⟩ | ⟨-, heq⟩ | ⟨-, -, ⟨-, heq⟩ | ⟨-, heq⟩⟩
  · rwa [heq]
  · rwa [heq]
  · exact .inl (by simp [heq])
  · exact .inl (by simp [heq, probed])

/-- The times of the failures among the calls. -/
def failureTimes (calls : List BreakerCall) : List ℚ :=
  (calls.filter fun c => c.op = .onFailure).map BreakerCall.time

/-- A burst without a success goes on as long as its failures lie in one window. -/
theorem Burst.finalState {times : List ℚ} (hburst : Burst cfg times h) {calls : List BreakerCall}
    (hops : ∀ c ∈ calls, c.op ≠ .onSuccess)
    (hwindow : (times ++ failureTimes calls).Pairwise fun t t' => t' - t < (cfg.windowSeconds : ℚ)) :
    Burst cfg (times ++ failureTimes calls) (finalState (HostBreaker.step cfg) h calls) := by
  induction calls generalizing h times with
  | nil => simpa [failureTimes, finalState] using hburst
  | cons c calls ih =>
      have hops' : ∀ c' ∈ calls, c'.op ≠ .onSuccess := fun c' hc' => hops c' (List.mem_cons_of_mem c hc')
      rw [finalState]
      unfold HostBreaker.step
      cases hcall : c.op with
      | onSuccess => exact absurd hcall (hops c List.mem_cons_self)
      | allowRequest =>
          have htimes : failureTimes (c :: calls) = failureTimes calls := by simp [failureTimes, hcall]
          rw [htimes] at hwindow ⊢
          exact ih hburst.asked hops' hwindow
      | onFailure =>
          have htimes : times ++ failureTimes (c :: calls) = (times ++ [c.time]) ++ failureTimes calls := by
            simp [failureTimes, hcall]
          rw [htimes] at hwindow ⊢
          refine ih (hburst.failed ?_) hops' hwindow
          have hlast := (List.pairwise_append.mp (List.pairwise_append.mp hwindow).1).2.2
          exact fun t ht => hlast t ht c.time (List.mem_singleton_self _)

end HostBreaker

/-! ## The guarantees -/

/-- The call is a failure that puts its host into the state OPEN, from another state or anew. -/
def MakesOpen (b : CircuitBreaker) (call : BreakerCall) : Prop :=
  call.op = .onFailure ∧ (b.step u cfg call).1.stateOf (call.host u) = .opened
    ∧ (b.stateOf (call.host u) ≠ .opened ∨ (b.step u cfg call).1.openSince (call.host u) = some call.time)

/-- What the breaker guarantees for a host in a run of calls for any hosts. -/
structure BreakerGuarantees (calls : List BreakerCall) (host : List Char) : Prop where
  /-- The cool-down after a failure that makes the state OPEN, until a success is reported. -/
  coolsDown : ∀ before call between later rest, calls = before ++ call :: between ++ later :: rest →
    call.host u = host → MakesOpen u cfg (CircuitBreaker.after u cfg before) call →
    (∀ c ∈ between, c.host u = host → c.op ≠ .onSuccess) →
    later.op = .allowRequest → later.host u = host → later.time < call.time + cfg.resetSeconds →
    ((CircuitBreaker.after u cfg (before ++ call :: between)).step u cfg later).2 = some false
  /-- One request at most between two reports while the state is not CLOSED. -/
  singleProbe : ∀ before between rest, calls = before ++ between ++ rest →
    (CircuitBreaker.after u cfg before).stateOf host ≠ .closed →
    (∀ c ∈ between, c.host u = host → c.op = .allowRequest) →
    ((answers (CircuitBreaker.step u cfg) (CircuitBreaker.after u cfg before) between).countP
      fun p => p.1.host u = host ∧ p.2 = some true) ≤ 1
  /-- Enough failures in one window, and no success since the first of them. -/
  staysOpen : ∀ before burst later rest, calls = before ++ burst ++ later ++ rest →
    (∀ c ∈ burst ++ later, c.host u = host → c.op ≠ .onSuccess) →
    let times := HostBreaker.failureTimes (burst.filter fun c => c.host u = host)
    times ≠ [] → cfg.failThreshold ≤ times.length →
    (∀ t ∈ times, ∀ t' ∈ times, t' - t < (cfg.windowSeconds : ℚ)) →
    (CircuitBreaker.after u cfg (before ++ burst ++ later)).stateOf host ≠ .closed
  /-- The decisions for the host are the same without the calls for other hosts. -/
  alone : (answers (CircuitBreaker.step u cfg) .new calls).filter (fun p => p.1.host u = host)
    = answers (CircuitBreaker.step u cfg) .new (calls.filter fun c => c.host u = host)

namespace CircuitBreaker

variable {u cfg} {b : CircuitBreaker}

theorem view_after_append (before calls : List BreakerCall) (host : List Char) :
    (after u cfg (before ++ calls)).view host = finalState (HostBreaker.step cfg) ((after u cfg before).view host)
      (calls.filter fun c => c.host u = host) := by
  rw [after, finalState_append]
  exact (keyed_step u cfg).finalState_view _ calls host

/-- A failure that makes the state OPEN begins a cool-down. -/
theorem coolingDown_of_makesOpen {call : BreakerCall} (h : MakesOpen u cfg b call) :
    HostBreaker.CoolingDown call.time ((b.step u cfg call).1.view (call.host u)) := by
  obtain ⟨hop, hopened, hfresh⟩ := h
  have hown := (keyed_step u cfg).own b call
  have hview : (b.step u cfg call).1.view (call.host u) = (b.view (call.host u)).failed cfg call.time := by
    rw [hown, HostBreaker.step, hop]
  refine ⟨hopened, ?_⟩
  rcases HostBreaker.failed_cases cfg (b.view (call.host u)) call.time with ⟨-, hnow⟩ | ⟨-, heq, -⟩
  · rw [hview, hnow]
  · -- a failure that is only recorded leaves the state
    rcases hfresh with hstate | hsince
    · have hsame : ((b.step u cfg call).1.view (call.host u)).state = (b.view (call.host u)).state := by
        rw [hview, heq]
      exact absurd (hsame.symm.trans hopened) hstate
    · simp [view, hsince]

theorem coolsDown_after {before between : List BreakerCall} {call later : BreakerCall}
    (hclock : (before ++ call :: between ++ [later]).Pairwise fun c c' => c.time ≤ c'.time)
    (hopen : MakesOpen u cfg (after u cfg before) call)
    (hnone : ∀ c ∈ between, c.host u = call.host u → c.op ≠ .onSuccess) (hop : later.op = .allowRequest)
    (hhost : later.host u = call.host u) (htime : later.time < call.time + cfg.resetSeconds) :
    ((after u cfg (before ++ call :: between)).step u cfg later).2 = some false := by
  rw [List.append_assoc, List.cons_append] at hclock
  obtain ⟨hfirst, hrest⟩ := List.pairwise_cons.mp (List.pairwise_append.mp hclock).2.1
  have hlast := (List.pairwise_append.mp hrest).2.2
  have hcool := coolingDown_of_makesOpen hopen
  have hview : (after u cfg (before ++ call :: between)).view (call.host u)
      = finalState (HostBreaker.step cfg) (((after u cfg before).step u cfg call).1.view (call.host u))
        (between.filter fun c => c.host u = call.host u) := by
    rw [view_after_append, List.filter_cons_of_pos (by simp), finalState, (keyed_step u cfg).own]
  have hcool' : HostBreaker.CoolingDown call.time
      ((after u cfg (before ++ call :: between)).view (call.host u)) := by
    rw [hview]
    refine hcool.finalState fun c hc => ?_
    obtain ⟨hmem, hsame⟩ := List.mem_filter.mp hc
    refine ⟨hnone c hmem (of_decide_eq_true hsame), hfirst c (List.mem_append_left _ hmem), ?_⟩
    exact (hlast c hmem later (List.mem_singleton_self _)).trans_lt htime
  have hafter := hfirst later (List.mem_append_right _ (List.mem_singleton_self _))
  rw [(keyed_step u cfg).answer, hhost]
  exact (hcool'.step (by simp [hop]) hafter htime).2 hop

theorem singleProbe_after {before between : List BreakerCall} {host : List Char}
    (hstate : (after u cfg before).stateOf host ≠ .closed)
    (hcalls : ∀ c ∈ between, c.host u = host → c.op = .allowRequest) :
    ((answers (CircuitBreaker.step u cfg) (after u cfg before) between).countP
      fun p => p.1.host u = host ∧ p.2 = some true) ≤ 1 := by
  have hcount : ((answers (CircuitBreaker.step u cfg) (after u cfg before) between).countP
      fun p => p.1.host u = host ∧ p.2 = some true)
      = (answers (HostBreaker.step cfg) ((after u cfg before).view host)
          (between.filter fun c => c.host u = host)).countP (·.2 = some true) := by
    rw [← (keyed_step u cfg).filter_answers, List.countP_filter]
    refine List.countP_congr fun p _ => ?_
    simp [and_comm]
  rw [hcount]
  refine HostBreaker.countP_answers_le_one hstate fun c hc => ?_
  obtain ⟨hmem, hsame⟩ := List.mem_filter.mp hc
  exact hcalls c hmem (of_decide_eq_true hsame)

theorem staysOpen_after {before burst later : List BreakerCall} {host : List Char}
    (hnone : ∀ c ∈ burst ++ later, c.host u = host → c.op ≠ .onSuccess)
    (hsome : HostBreaker.failureTimes (burst.filter fun c => c.host u = host) ≠ [])
    (hmany : cfg.failThreshold ≤ (HostBreaker.failureTimes (burst.filter fun c => c.host u = host)).length)
    (hwindow : ∀ t ∈ HostBreaker.failureTimes (burst.filter fun c => c.host u = host),
      ∀ t' ∈ HostBreaker.failureTimes (burst.filter fun c => c.host u = host),
        t' - t < (cfg.windowSeconds : ℚ)) :
    (after u cfg (before ++ burst ++ later)).stateOf host ≠ .closed := by
  have hops : ∀ calls : List BreakerCall, calls ⊆ burst ++ later →
      ∀ c ∈ calls.filter (fun c => c.host u = host), c.op ≠ .onSuccess := by
    intro calls hsub c hc
    obtain ⟨hmem, hsame⟩ := List.mem_filter.mp hc
    exact hnone c (hsub hmem) (of_decide_eq_true hsame)
  have hburst : HostBreaker.Burst cfg (HostBreaker.failureTimes (burst.filter fun c => c.host u = host))
      ((after u cfg (before ++ burst)).view host) := by
    have hstart : HostBreaker.Burst cfg [] ((after u cfg before).view host) :=
      .inr ⟨List.nil_suffix, nofun⟩
    rw [view_after_append]
    refine hstart.finalState (hops burst (List.subset_append_left _ _)) ?_
    exact List.pairwise_of_forall_mem_list hwindow
  have hopen : ((after u cfg (before ++ burst)).view host).state ≠ .closed := by
    rcases hburst with hstate | ⟨-, hfew⟩
    · exact hstate
    · exact absurd (hfew hsome) (not_lt.mpr hmany)
  change ((after u cfg (before ++ burst ++ later)).view host).state ≠ .closed
  rw [view_after_append]
  exact HostBreaker.finalState_ne_closed hopen (hops later (List.subset_append_right _ _))

end CircuitBreaker

variable {u cfg} in
/-- In every run with a nondecreasing clock the breaker guarantees a cool-down, a single probe, that a burst
of failures opens the host, and that hosts do not disturb each other. -/
theorem breaker_guarantees {calls : List BreakerCall}
    (hclock : calls.Pairwise fun c c' => c.time ≤ c'.time) (host : List Char) :
    BreakerGuarantees u cfg calls host where
  coolsDown := by
    rintro before call between later rest rfl rfl hopen hnone hop hhost htime
    have hsplit : before ++ call :: between ++ later :: rest
        = before ++ call :: between ++ [later] ++ rest := by simp
    rw [hsplit] at hclock
    exact CircuitBreaker.coolsDown_after (List.pairwise_append.mp hclock).1 hopen hnone hop hhost htime
  singleProbe := by
    rintro before between rest rfl hstate hcalls
    exact CircuitBreaker.singleProbe_after hstate hcalls
  staysOpen := by
    rintro before burst later rest rfl hnone times hsome hmany hwindow
    exact CircuitBreaker.staysOpen_after hnone hsome hmany hwindow
  alone := (keyed_step u cfg).filter_answers_alone .new calls host

/-- Two failures in ten seconds, requests in the cool-down and after it, and the outcome of the probe. -/
def breakerCycle : List BreakerCall :=
  let url := "https://example.com/hook".toList
  [⟨.onFailure, url, 0⟩, ⟨.onFailure, url, 10⟩, ⟨.allowRequest, url, 100⟩, ⟨.allowRequest, url, 610⟩,
    ⟨.allowRequest, url, 611⟩, ⟨.onSuccess, url, 612⟩, ⟨.allowRequest, url, 613⟩]

open NetworkValidation in
theorem breakerCycle_guaranteed :
    BreakerGuarantees asciiOnly ⟨2, 300, 600⟩ breakerCycle "example.com".toList ∧
    (answers (CircuitBreaker.step asciiOnly ⟨2, 300, 600⟩) .new breakerCycle).map Prod.snd
      = [none, none, some false, some true, some false, none, some true] := by
  refine ⟨breaker_guarantees ?_ _, ?_⟩
  · decide +kernel
  · decide +kernel

end ApexChainx.Webhooks
