import ApexChainx.Lib.Table
import ApexChainx.Webhooks.Delivery

/-!
# Attempts in progress

The deliveries of `Webhooks.Delivery` with the attempt taken apart into the checks before the request, the
request itself, during which the other threads move, and the commit of its result. Beside the deliveries
stands the table of webhooks, which `create_webhook`, `update_webhook` and `delete_webhook` change, and
which a trigger reads to resolve its subscribers. The cache of subscriber ids is written there and never
read, and is left out.

`attemptAndSchedule_eq` is the equation between the attempt in parts and the attempt as one function, and
`run_attempt` the one between the steps of the two models.
-/

namespace ApexChainx.Webhooks.Attempts

open ApexChainx.Lib

/-! ## The parts of a dispatch -/

/-- `_attempt_delivery` up to the request: whether the circuit breaker lets it through. -/
def beforeRequest (env : Env) (webhook : Webhook) (delivery : WebhookDelivery) : Except ApiError Bool :=
  match signatureError env.secret delivery.signatureVersion, env.resolve with
  | some e, _ => .error e
  | none, .error detail => .error (.valueError detail)
  | none, .ok currentIps =>
      if webhook.resolvedIps ≠ [] ∧ ∀ ip ∈ webhook.resolvedIps, ip ∉ currentIps then
        .error (.valueError "Webhook host resolution no longer matches the approved address.")
      else .ok env.breakerAllows

/-- The loaded delivery when the circuit breaker is open. -/
def deferred (delivery : WebhookDelivery) : WebhookDelivery :=
  { delivery with
    status := .breakerOpen
    errorMessage := some "Circuit breaker open, delivery deferred" }

/-- `_attempt_delivery` after the request: the loaded delivery and whether the receiver accepted it. -/
def afterRequest (http : HttpOutcome) (delivery : WebhookDelivery) : Except ApiError (WebhookDelivery × Bool) :=
  match http with
  | .response code text =>
      let delivery := { delivery with
        responseStatusCode := some code
        responseBody := some (scrubResponseBody text) }
      if 200 ≤ code ∧ code ≤ 299 then .ok (delivery, true)
      else .ok ({ delivery with errorMessage := some ("Non-success status: " ++ toString code) }, false)
  | .timeout text => .ok ({ delivery with errorMessage := some ("Request timed out: " ++ text) }, false)
  | .requestError text => .ok ({ delivery with errorMessage := some ("Request error: " ++ text) }, false)
  | .raised e => .error e

/-- `dispatch_delivery` after the attempt. -/
def settle (cfg : WebhookSettings) (env : Env) (webhook : Webhook) :
    WebhookDelivery × Bool → WebhookDelivery
  | (d, true) => { d with status := .success, deliveredAt := some env.now, nextRetryAt := none }
  | (d, false) =>
      if d.status = .breakerOpen then d
      else
        let retryIndex : ℤ := d.attemptCount - 1
        if retryIndex < maxRetries webhook ∧ retryIndex < cfg.retryDelays.length then
          { d with
            nextRetryAt := some (env.now + retryDelay cfg env retryIndex)
            status := .retrying }
        else { d with status := .deadLetter, deadLetteredAt := some env.now, nextRetryAt := none }

theorem attemptDelivery_eq (env : Env) (webhook : Webhook) (d : WebhookDelivery) :
    attemptDelivery env webhook d = (beforeRequest env webhook d).bind fun allowed =>
      if allowed then afterRequest env.http d else .ok (deferred d, false) := by
  unfold attemptDelivery beforeRequest
  cases signatureError env.secret d.signatureVersion with
  | some e => rfl
  | none =>
      cases env.resolve with
      | error detail => rfl
      | ok currentIps =>
          simp only
          split
          · rfl
          · cases env.breakerAllows with
            | false => rfl
            | true => cases env.http <;> rfl

theorem attemptAndSchedule_eq_settle (cfg : WebhookSettings) (env : Env) (d : WebhookDelivery) :
    attemptAndSchedule cfg env d =
      (attemptDelivery env (cfg.webhook d.webhookId) d).map (settle cfg env (cfg.webhook d.webhookId)) := by
  unfold attemptAndSchedule
  simp only
  cases attemptDelivery env (cfg.webhook d.webhookId) d with
  | error e => rfl
  | ok result =>
      obtain ⟨d', ok⟩ := result
      cases ok with
      | true => rfl
      | false =>
          simp only [Except.map, settle]
          split_ifs <;> rfl

/-- The attempt in parts. -/
theorem attemptAndSchedule_eq (cfg : WebhookSettings) (env : Env) (d : WebhookDelivery) :
    attemptAndSchedule cfg env d =
      (beforeRequest env (cfg.webhook d.webhookId) d).bind fun allowed =>
        if allowed then (afterRequest env.http d).map (settle cfg env (cfg.webhook d.webhookId))
        else .ok (deferred d) := by
  rw [attemptAndSchedule_eq_settle, attemptDelivery_eq]
  cases beforeRequest env (cfg.webhook d.webhookId) d with
  | error e => rfl
  | ok allowed =>
      cases allowed with
      | false => simp [Except.map, Except.bind, settle, deferred]
      | true => rfl

/-! ## Webhooks -/

/-- A row of `webhooks`. -/
structure Registration where
  isActive : Bool
  /-- `deleted_at` is set. -/
  isDeleted : Bool
  events : List WebhookEvent
  webhook : Webhook
deriving DecidableEq, Repr

/-- The fields of `WebhookUpdate`; a new URL is given by the addresses it resolves to. -/
structure WebhookChange where
  events : Option (List WebhookEvent)
  resolvedIps : Option (List String)
  maxRetries : Option ℕ
  isActive : Option Bool
deriving DecidableEq, Repr

/-- The loaded webhook after `update_webhook` has assigned the fields of the payload. -/
def WebhookChange.apply (change : WebhookChange) (r : Registration) : Registration where
  isActive := change.isActive.getD r.isActive
  isDeleted := r.isDeleted
  events := change.events.getD r.events
  webhook := ⟨change.resolvedIps.getD r.webhook.resolvedIps, change.maxRetries.getD r.webhook.maxRetries⟩

/-- The loaded webhook after `delete_webhook` has marked it. -/
def tombstone (r : Registration) : Registration := { r with isActive := false, isDeleted := true }

/-- The row after the commit of a webhook that was loaded as `seen` and is now `new`. -/
def flushWebhook (seen new row : Registration) : Registration where
  isActive := writeColumn seen.isActive new.isActive row.isActive
  isDeleted := writeColumn seen.isDeleted new.isDeleted row.isDeleted
  events := writeColumn seen.events new.events row.events
  webhook := ⟨writeColumn seen.webhook.resolvedIps new.webhook.resolvedIps row.webhook.resolvedIps,
    writeColumn seen.webhook.maxRetries new.webhook.maxRetries row.webhook.maxRetries⟩

/-- `subscribers_for_event`. -/
def subscribersForEvent (event : WebhookEvent) (webhooks : List Registration) : List ℕ :=
  (webhooks.zipIdx.filter fun p =>
    p.1.isActive && !p.1.isDeleted && decide (event ∈ p.1.events)).map Prod.snd

/-- The settings with the webhooks as they are in the table. -/
def reading (cfg : WebhookSettings) (webhooks : List Registration) : WebhookSettings :=
  { cfg with
    webhook := fun id => (webhooks[id]?.map Registration.webhook).getD (cfg.webhook id) }

/-! ## Statements -/

/-- What a step meets outside the database, with the subscribers that the fan-out policy and the event
budget let through. -/
structure StepEnv extends Env where
  allowed : ℕ → Bool

/-- A statement a thread has to execute. -/
inductive Stmt
  /-- A statement of `Webhooks.Delivery`; of an attempt, the part before the request. -/
  | work (w : Work)
  /-- `client.post`, with the delivery and its webhook as loaded. -/
  | send (id : ℕ) (seen : WebhookDelivery) (webhook : Webhook)
  /-- The last commit of `dispatch_delivery`. -/
  | commit (id : ℕ) (seen new : WebhookDelivery)
  /-- The queries of the endpoint `retry_delivery`. -/
  | retry (webhookId id : ℕ)
  /-- The query of `trigger_sla_violation_webhooks`. -/
  | trigger (event : WebhookEvent) (deviceId outageId : Option String) (signatureVersion : ℤ)
  | createWebhook (r : Registration)
  /-- The query of `update_webhook`. -/
  | update (webhookId : ℕ) (change : WebhookChange)
  | updateCommit (webhookId : ℕ) (seen : Registration) (change : WebhookChange)
  /-- The query of `delete_webhook`. -/
  | delete (webhookId : ℕ)
  | deleteCommit (webhookId : ℕ) (seen : Registration)
deriving DecidableEq, Repr

/-- A thread: what it has still to do, and for a Celery dispatch the delivery and the retries left. -/
structure Proc where
  work : List Stmt
  task : Option ℕ
  retries : ℕ
deriving DecidableEq, Repr

/-- The tables and the threads; beside them the deliveries that an attempt was committed for as a success,
and the webhooks that were deleted or last switched off. -/
structure State where
  deliveries : List WebhookDelivery
  webhooks : List Registration
  procs : List Proc
  delivered : List ℕ
  deleted : List ℕ
  switchedOff : List ℕ
deriving DecidableEq, Repr

def State.init : State := ⟨[], [], [], [], [], []⟩

/-- What a statement leaves: the state but for its thread, the statements that follow from it or the
exception it raised, and the threads it starts. -/
structure Result where
  state : State
  next : Except ApiError (List Stmt)
  started : List Proc

/-- The webhooks switched off after the commit of an update. -/
def switch (webhookId : ℕ) (isActive : Option Bool) (off : List ℕ) : List ℕ :=
  match isActive with
  | none => off
  | some true => off.filter (· ≠ webhookId)
  | some false => webhookId :: off

/-- A thread with statements of `Webhooks.Delivery`. -/
def liftThread (t : Thread) : Proc := ⟨t.work.map .work, t.task, t.retries⟩

def webhookDeleted : String := "Webhook has been deleted and can no longer be modified."

/-- One statement. -/
def exec (cfg : WebhookSettings) (env : StepEnv) (s : State) : Stmt → Result
  | .work (.attempt id seen) =>
      let webhook := (reading cfg s.webhooks).webhook seen.webhookId
      match beforeRequest env.toEnv webhook seen with
      | .error e => ⟨s, .error e, []⟩
      | .ok false => ⟨s, .ok [.commit id seen (deferred seen)], []⟩
      | .ok true => ⟨s, .ok [.send id seen webhook], []⟩
  | .work w =>
      let effect := workStep (reading cfg s.webhooks) env.toEnv s.deliveries w
      ⟨{ s with deliveries := effect.deliveries }, effect.next.map (List.map .work),
        effect.started.map liftThread⟩
  | .send id seen webhook =>
      match afterRequest env.http seen with
      | .error e => ⟨s, .error e, []⟩
      | .ok result => ⟨s, .ok [.commit id seen (settle cfg env.toEnv webhook result)], []⟩
  | .commit id seen new =>
      match commitError seen new, s.deliveries[id]? with
      | some e, _ => ⟨s, .error e, []⟩
      | none, none => ⟨s, .error (.staleRow "webhook_deliveries"), []⟩
      | none, some d =>
          ⟨{ s with
            deliveries := s.deliveries.set id (flush seen new d)
            delivered := if new.status = .success then id :: s.delivered else s.delivered }, .ok [], []⟩
  | .retry webhookId id =>
      match s.webhooks[webhookId]? with
      | none => ⟨s, .error (.http 404 "Webhook not found."), []⟩
      | some _ =>
          match s.deliveries[id]?.filter fun d => d.webhookId = webhookId with
          | none => ⟨s, .error (.http 404 "Delivery not found."), []⟩
          | some d =>
              if d.status = .success then
                ⟨s, .error (.http 400 "Delivery already succeeded; retry not needed."), []⟩
              else if d.status = .sending then
                ⟨s, .error (.http 409 "Delivery is already being sent."), []⟩
              else ⟨s, .ok [.work (.claim id)], []⟩
  | .trigger event deviceId outageId version =>
      ⟨s, .ok (((subscribersForEvent event s.webhooks).filter env.allowed).map fun webhookId =>
        .work (.create event deviceId outageId version webhookId)), []⟩
  | .createWebhook r => ⟨{ s with webhooks := s.webhooks ++ [{ r with isDeleted := false }] }, .ok [], []⟩
  | .update webhookId change =>
      match s.webhooks[webhookId]? with
      | none => ⟨s, .error (.http 404 "Webhook not found."), []⟩
      | some r =>
          if r.isDeleted then ⟨s, .error (.http 409 webhookDeleted), []⟩
          else ⟨s, .ok [.updateCommit webhookId r change], []⟩
  | .updateCommit webhookId seen change =>
      match s.webhooks[webhookId]? with
      | none => ⟨s, .error (.staleRow "webhooks"), []⟩
      | some r =>
          ⟨{ s with
            webhooks := s.webhooks.set webhookId (flushWebhook seen (change.apply seen) r)
            switchedOff := switch webhookId change.isActive s.switchedOff }, .ok [], []⟩
  | .delete webhookId =>
      match s.webhooks[webhookId]? with
      | none => ⟨s, .error (.http 404 "Webhook not found."), []⟩
      | some r => if r.isDeleted then ⟨s, .ok [], []⟩ else ⟨s, .ok [.deleteCommit webhookId r], []⟩
  | .deleteCommit webhookId seen =>
      match s.webhooks[webhookId]? with
      | none => ⟨s, .error (.staleRow "webhooks"), []⟩
      | some r =>
          ⟨{ s with
            webhooks := s.webhooks.set webhookId (flushWebhook seen (tombstone seen) r)
            deleted := webhookId :: s.deleted }, .ok [], []⟩

/-! ## Interleavings -/

/-- What starts a thread. -/
inductive Call
  | trigger (event : WebhookEvent) (deviceId outageId : Option String) (signatureVersion : ℤ)
  | dispatch (id : ℕ)
  | sweep (batchSize : ℕ)
  | retry (webhookId id : ℕ)
  | replay (id : ℕ)
  | replayByContext (event : WebhookEvent) (deviceId outageId : Option String) (limit : ℕ)
  | createWebhook (r : Registration)
  | update (webhookId : ℕ) (change : WebhookChange)
  | delete (webhookId : ℕ)
deriving DecidableEq, Repr

/-- The first statement of a call. -/
def Call.stmt : Call → Stmt
  | .trigger event deviceId outageId version => .trigger event deviceId outageId version
  | .dispatch id => .work (.claim id)
  | .sweep batchSize => .work (.sweep batchSize)
  | .retry webhookId id => .retry webhookId id
  | .replay id => .work (.replay id)
  | .replayByContext event deviceId outageId limit => .work (.replayQuery event deviceId outageId limit)
  | .createWebhook r => .createWebhook r
  | .update webhookId change => .update webhookId change
  | .delete webhookId => .delete webhookId

/-- The thread after a statement: with the statements that follow from it, or after an exception. -/
def Proc.after (p : Proc) (rest : List Stmt) : Except ApiError (List Stmt) → Proc
  | .ok next => { p with work := next ++ rest }
  | .error _ =>
      match p.task, p.retries with
      | some id, n + 1 => { p with work := [.work (.claim id)], retries := n }
      | _, _ => { p with work := [] }

/-- A call arrives, or the `i`-th thread executes its next statement. -/
inductive Move
  | start (c : Call)
  | move (i : ℕ) (env : StepEnv)

/-- The interleaving semantics. -/
def step (cfg : WebhookSettings) (s : State) : Move → Option State
  | .start c => some { s with procs := s.procs ++ [⟨[c.stmt], none, 0⟩] }
  | .move i env =>
      match s.procs[i]? with
      | none => none
      | some p =>
          match p.work with
          | [] => none
          | stmt :: rest =>
              let result := exec cfg env s stmt
              some { result.state with
                procs := s.procs.set i (p.after rest result.next) ++ result.started }

/-! ## What a step does to the statements

A step takes the first statement off one thread and puts the ones that follow in its place. What an
exception leaves, and what a new thread starts with, is the claim of a Celery dispatch.
-/

/-- The statements that all threads have still to execute. -/
def State.stmts (s : State) : List Stmt := s.procs.flatMap Proc.work

/-- The statements that follow, none after an exception. -/
def Result.following (r : Result) : List Stmt := (r.next.toOption).getD []

@[simp] theorem following_ok (s : State) (next : List Stmt) (started : List Proc) :
    Result.following ⟨s, .ok next, started⟩ = next := rfl

@[simp] theorem following_error (s : State) (e : ApiError) (started : List Proc) :
    Result.following ⟨s, .error e, started⟩ = [] := rfl

/-- The state after thread `i` has executed its first statement. -/
def State.moved (cfg : WebhookSettings) (env : StepEnv) (s : State) (i : ℕ) (p : Proc) (stmt : Stmt)
    (rest : List Stmt) : State :=
  { (exec cfg env s stmt).state with
    procs := s.procs.set i (p.after rest (exec cfg env s stmt).next) ++ (exec cfg env s stmt).started }

theorem step_move {cfg : WebhookSettings} (env : StepEnv) {s : State} {i : ℕ} {p : Proc} {stmt : Stmt}
    {rest : List Stmt} (hp : s.procs[i]? = some p) (hwork : p.work = stmt :: rest) :
    step cfg s (.move i env) = some (s.moved cfg env i p stmt rest) := by
  simp only [step, hp, hwork]
  rfl

/-- The steps of an attempt on a stored delivery, one after another, are the one statement of
`Webhooks.Delivery`. -/
theorem run_attempt (cfg : WebhookSettings) (env : StepEnv) {s : State} {i id : ℕ} {p : Proc}
    {rest : List Stmt} {seen d : WebhookDelivery} (hp : s.procs[i]? = some p)
    (hwork : p.work = .work (.attempt id seen) :: rest) (hd : s.deliveries[id]? = some d) :
    let effect := workStep (reading cfg s.webhooks) env.toEnv s.deliveries (.attempt id seen)
    ∃ n s', run (step cfg) s (List.replicate n (.move i env)) = some s' ∧
      s'.deliveries = effect.deliveries ∧ s'.webhooks = s.webhooks ∧
      s'.procs = s.procs.set i (p.after rest (effect.next.map (List.map .work))) := by
  intro effect
  have hi : i < s.procs.length := (List.getElem?_eq_some_iff.mp hp).1
  -- one step of the thread, after others that have changed nothing but the thread
  have hstep : ∀ {stmt : Stmt} {deliveries : List WebhookDelivery} {delivered : List ℕ}
      {next : Except ApiError (List Stmt)},
      (∀ procs, exec cfg env { s with procs := procs } stmt =
        ⟨{ s with procs := procs, deliveries := deliveries, delivered := delivered }, next, []⟩) →
      step cfg { s with procs := s.procs.set i { p with work := stmt :: rest } } (.move i env) =
        some { s with
          deliveries := deliveries, delivered := delivered, procs := s.procs.set i (p.after rest next) } := by
    intro stmt deliveries delivered next hexec
    rw [step_move env (List.getElem?_set_self hi) rfl]
    simp only [State.moved, hexec, List.append_nil, List.set_set]
    rfl
  -- the first step of the attempt, which changes nothing but the thread
  have hfirst : ∀ {next : Except ApiError (List Stmt)},
      exec cfg env s (.work (.attempt id seen)) = ⟨s, next, []⟩ →
      step cfg s (.move i env) = some { s with procs := s.procs.set i (p.after rest next) } := by
    intro next hexec
    rw [step_move env hp hwork]
    simp only [State.moved, hexec, List.append_nil]
  -- the commit, from whichever statement came before it
  have hcommit : ∀ {new}, attemptAndSchedule (reading cfg s.webhooks) env.toEnv seen = .ok new → ∃ s',
      step cfg { s with procs := s.procs.set i { p with work := .commit id seen new :: rest } } (.move i env) =
        some s' ∧ s'.deliveries = effect.deliveries ∧ s'.webhooks = s.webhooks ∧
      s'.procs = s.procs.set i (p.after rest (effect.next.map (List.map .work))) := by
    intro new hnew
    cases herror : commitError seen new with
    | some e =>
        have hexec : ∀ procs, exec cfg env { s with procs := procs } (.commit id seen new) =
            ⟨{ s with procs := procs }, .error e, []⟩ := fun procs => by simp only [exec, herror]
        refine ⟨_, hstep hexec, ?_⟩
        simp [effect, workStep, hnew, herror, Except.map]
    | none =>
        have hexec : ∀ procs, exec cfg env { s with procs := procs } (.commit id seen new) =
            ⟨{ s with
              procs := procs
              deliveries := s.deliveries.set id (flush seen new d)
              delivered := if new.status = .success then id :: s.delivered else s.delivered }, .ok [], []⟩ :=
          fun procs => by simp only [exec, herror, hd]
        refine ⟨_, hstep hexec, ?_⟩
        simp [effect, workStep, hnew, herror, hd, Except.map]
  have heq := attemptAndSchedule_eq (reading cfg s.webhooks) env.toEnv seen
  cases hbefore : beforeRequest env.toEnv ((reading cfg s.webhooks).webhook seen.webhookId) seen with
  | error e =>
      rw [hbefore] at heq
      have hexec : exec cfg env s (.work (.attempt id seen)) = ⟨s, .error e, []⟩ := by simp only [exec, hbefore]
      refine ⟨1, _, run_cons_eq_some.mpr ⟨_, hfirst hexec, rfl⟩, ?_⟩
      simp [effect, workStep, heq, Except.bind, Except.map]
  | ok allowed =>
      rw [hbefore] at heq
      cases allowed with
      | false =>
          obtain ⟨last, hlast, hresult⟩ := hcommit heq
          have hexec : exec cfg env s (.work (.attempt id seen)) =
              ⟨s, .ok [.commit id seen (deferred seen)], []⟩ := by simp only [exec, hbefore]
          refine ⟨2, last, ?_, hresult⟩
          exact run_cons_eq_some.mpr ⟨_, hfirst hexec, run_cons_eq_some.mpr ⟨last, hlast, rfl⟩⟩
      | true =>
          have hexec : exec cfg env s (.work (.attempt id seen)) =
              ⟨s, .ok [.send id seen ((reading cfg s.webhooks).webhook seen.webhookId)], []⟩ := by
            simp only [exec, hbefore]
          cases hafter : afterRequest env.http seen with
          | error e =>
              have hsend : ∀ procs, exec cfg env { s with procs := procs }
                  (.send id seen ((reading cfg s.webhooks).webhook seen.webhookId)) =
                    ⟨{ s with procs := procs }, .error e, []⟩ := fun procs => by simp only [exec, hafter]
              refine ⟨2, _, run_cons_eq_some.mpr ⟨_, hfirst hexec,
                run_cons_eq_some.mpr ⟨_, hstep hsend, rfl⟩⟩, ?_⟩
              simp [effect, workStep, heq, hafter, Except.bind, Except.map]
          | ok result =>
              rw [hafter] at heq
              obtain ⟨last, hlast, hresult⟩ := hcommit heq
              have hsend : ∀ procs, exec cfg env { s with procs := procs }
                  (.send id seen ((reading cfg s.webhooks).webhook seen.webhookId)) =
                    ⟨{ s with procs := procs }, .ok [.commit id seen (settle cfg env.toEnv
                      ((reading cfg s.webhooks).webhook seen.webhookId) result)], []⟩ :=
                fun procs => by simp only [exec, hafter]
              refine ⟨3, last, ?_, hresult⟩
              exact run_cons_eq_some.mpr ⟨_, hfirst hexec,
                run_cons_eq_some.mpr ⟨_, hstep hsend, run_cons_eq_some.mpr ⟨last, hlast, rfl⟩⟩⟩

/-- A step is the arrival of a call or a statement of a thread. -/
theorem step_cases {cfg : WebhookSettings} {s s' : State} {m : Move} (h : step cfg s m = some s') :
    (∃ c, m = .start c ∧ s' = { s with procs := s.procs ++ [⟨[c.stmt], none, 0⟩] }) ∨
      ∃ i env p stmt rest, m = .move i env ∧ s.procs[i]? = some p ∧ p.work = stmt :: rest ∧
        s' = s.moved cfg env i p stmt rest := by
  cases m with
  | start c => exact .inl ⟨c, rfl, (Option.some.inj h).symm⟩
  | move i env =>
      simp only [step] at h
      split at h
      · cases h
      · rename_i p hp
        split at h
        · cases h
        · rename_i stmt rest hwork
          exact .inr ⟨i, env, p, stmt, rest, rfl, hp, hwork, (Option.some.inj h).symm⟩

theorem exec_started {cfg : WebhookSettings} {env : StepEnv} {s : State} {stmt : Stmt} {q : Proc}
    (hq : q ∈ (exec cfg env s stmt).started) : ∃ id, q.work = [.work (.claim id)] := by
  cases stmt with
  | work w =>
      cases w with
      | enqueue id =>
          simp only [exec, workStep] at hq
          split at hq
          · obtain rfl : q = ⟨[.work (.claim id)], some id, 5⟩ := by simpa [liftThread] using hq
            exact ⟨id, rfl⟩
          · cases hq
      | attempt id seen =>
          simp only [exec] at hq
          split at hq <;> simp at hq
      | _ =>
          simp only [exec, workStep] at hq
          (repeat' split at hq) <;> simp at hq
  | _ =>
      simp only [exec] at hq
      (repeat' split at hq) <;> simp at hq

/-- Which statements follow from one, and what the step has read. -/
inductive Follows (cfg : WebhookSettings) (env : StepEnv) (s : State) : Stmt → Stmt → Prop
  | queued {event deviceId outageId version webhookId} :
      Follows cfg env s (.work (.create event deviceId outageId version webhookId))
        (.work (.enqueue s.deliveries.length))
  | created {event deviceId outageId version webhookId} :
      Follows cfg env s (.work (.create event deviceId outageId version webhookId))
        (.work (.claim s.deliveries.length))
  | swept {batchSize id} : Follows cfg env s (.work (.sweep batchSize)) (.work (.claim id))
  | matched {event deviceId outageId limit id} :
      Follows cfg env s (.work (.replayQuery event deviceId outageId limit)) (.work (.replay id))
  | replay {id d} (row : s.deliveries[id]? = some d) (dead : d.status = .deadLetter) :
      Follows cfg env s (.work (.replay id)) (.work (.replayCommit id d))
  | reset {id seen} : Follows cfg env s (.work (.replayCommit id seen)) (.work (.claim id))
  | claim {id d} (row : s.deliveries[id]? = some d) (free : claimable d.status = true) :
      Follows cfg env s (.work (.claim id)) (.work (.load id))
  | load {id d} (row : s.deliveries[id]? = some d) :
      Follows cfg env s (.work (.load id)) (.work (.attempt id d))
  | send {id seen} (sent : beforeRequest env.toEnv ((reading cfg s.webhooks).webhook seen.webhookId) seen =
      .ok true) : Follows cfg env s (.work (.attempt id seen))
        (.send id seen ((reading cfg s.webhooks).webhook seen.webhookId))
  | defer {id seen} :
      Follows cfg env s (.work (.attempt id seen)) (.commit id seen (deferred seen))
  | settle {id seen webhook result} (answer : afterRequest env.http seen = .ok result) :
      Follows cfg env s (.send id seen webhook) (.commit id seen (settle cfg env.toEnv webhook result))
  | retry {webhookId id} : Follows cfg env s (.retry webhookId id) (.work (.claim id))
  | trigger {event deviceId outageId version webhookId} (mem : webhookId ∈ subscribersForEvent event s.webhooks) :
      Follows cfg env s (.trigger event deviceId outageId version)
        (.work (.create event deviceId outageId version webhookId))
  | update {webhookId change r} (row : s.webhooks[webhookId]? = some r) (live : r.isDeleted = false) :
      Follows cfg env s (.update webhookId change) (.updateCommit webhookId r change)
  | delete {webhookId r} (row : s.webhooks[webhookId]? = some r) (live : r.isDeleted = false) :
      Follows cfg env s (.delete webhookId) (.deleteCommit webhookId r)

/-- What follows from a statement of the tasks and of the replay. -/
theorem follows_of_mem_work {cfg : WebhookSettings} {env : StepEnv} {s : State} {w : Work} {v : Stmt}
    (hv : v ∈ (exec cfg env s (.work w)).following) : Follows cfg env s (.work w) v := by
  cases w with
  | create event deviceId outageId version webhookId =>
      simp only [exec, workStep] at hv
      split at hv
      · obtain rfl := List.mem_singleton.mp hv
        exact .queued
      · obtain rfl := List.mem_singleton.mp hv
        exact .created
  | enqueue id =>
      simp only [exec, workStep] at hv
      split at hv <;> cases hv
  | sweep batchSize =>
      simp only [exec, workStep, Except.map, following_ok, List.map_map] at hv
      obtain ⟨id, -, rfl⟩ := List.mem_map.mp hv
      exact .swept
  | replayQuery event deviceId outageId limit =>
      simp only [exec, workStep, Except.map, following_ok, List.map_map] at hv
      obtain ⟨id, -, rfl⟩ := List.mem_map.mp hv
      exact .matched
  | replay id =>
      simp only [exec, workStep] at hv
      split at hv
      · cases hv
      · rename_i d hd
        split at hv
        · rename_i hdead
          obtain rfl := List.mem_singleton.mp hv
          exact .replay hd hdead
        · cases hv
  | replayCommit id seen =>
      simp only [exec, workStep] at hv
      split at hv
      · cases hv
      · obtain rfl := List.mem_singleton.mp hv
        exact .reset
  | claim id =>
      simp only [exec, workStep] at hv
      split at hv
      · cases hv
      · rename_i d hd
        split at hv
        · rename_i hfree
          obtain rfl := List.mem_singleton.mp hv
          exact .claim hd hfree
        · cases hv
  | load id =>
      simp only [exec, workStep] at hv
      split at hv
      · cases hv
      · rename_i d hd
        split at hv
        · cases hv
        · obtain rfl := List.mem_singleton.mp hv
          exact .load hd
  | attempt id seen =>
      simp only [exec] at hv
      split at hv
      · cases hv
      · obtain rfl := List.mem_singleton.mp hv
        exact .defer
      · rename_i hsent
        obtain rfl := List.mem_singleton.mp hv
        exact .send hsent

theorem follows_of_mem {cfg : WebhookSettings} {env : StepEnv} {s : State} {stmt v : Stmt}
    (hv : v ∈ (exec cfg env s stmt).following) : Follows cfg env s stmt v := by
  cases stmt with
  | work w => exact follows_of_mem_work hv
  | send id seen webhook =>
      simp only [exec] at hv
      split at hv
      · cases hv
      · rename_i hanswer
        obtain rfl := List.mem_singleton.mp hv
        exact .settle hanswer
  | commit id seen new =>
      simp only [exec] at hv
      split at hv <;> cases hv
  | retry webhookId id =>
      simp only [exec] at hv
      split at hv
      · cases hv
      · split at hv
        · cases hv
        · split_ifs at hv
          · cases hv
          · cases hv
          · obtain rfl := List.mem_singleton.mp hv
            exact .retry
  | trigger event deviceId outageId version =>
      obtain ⟨webhookId, hmem, rfl⟩ := List.mem_map.mp hv
      exact .trigger (List.mem_filter.mp hmem).1
  | createWebhook r => cases hv
  | update webhookId change =>
      simp only [exec] at hv
      split at hv
      · cases hv
      · rename_i r hr
        split at hv
        · cases hv
        · rename_i hlive
          obtain rfl := List.mem_singleton.mp hv
          exact .update hr (by simpa using hlive)
  | updateCommit webhookId seen change =>
      simp only [exec] at hv
      split at hv <;> cases hv
  | delete webhookId =>
      simp only [exec] at hv
      split at hv
      · cases hv
      · rename_i r hr
        split at hv
        · cases hv
        · rename_i hlive
          obtain rfl := List.mem_singleton.mp hv
          exact .delete hr (by simpa using hlive)
  | deleteCommit webhookId seen =>
      simp only [exec] at hv
      split at hv <;> cases hv

/-- What a statement makes of the deliveries, and of those that an attempt was committed for as a
success. -/
inductive Writes (s : State) : Stmt → List WebhookDelivery → List ℕ → Prop
  | nothing {stmt} (unclaimed : ∀ id, stmt = .work (.claim id) → ∀ d, s.deliveries[id]? = some d →
      claimable d.status = false) : Writes s stmt s.deliveries s.delivered
  | creates {event deviceId outageId version webhookId} :
      Writes s (.work (.create event deviceId outageId version webhookId))
        (s.deliveries ++ [createDelivery event deviceId outageId version webhookId]) s.delivered
  | claims {id d} (row : s.deliveries[id]? = some d) (free : claimable d.status = true) :
      Writes s (.work (.claim id)) (s.deliveries.set id (claimed d)) s.delivered
  | resets {id seen d} (row : s.deliveries[id]? = some d) :
      Writes s (.work (.replayCommit id seen))
        (s.deliveries.set id (flush seen (resetForReplay seen) d)) s.delivered
  | commits {id seen new d} (row : s.deliveries[id]? = some d) :
      Writes s (.commit id seen new) (s.deliveries.set id (flush seen new d))
        (if new.status = .success then id :: s.delivered else s.delivered)

theorem Writes.unchanged {s : State} {stmt : Stmt} (h : ∀ id, stmt ≠ .work (.claim id)) :
    Writes s stmt s.deliveries s.delivered :=
  .nothing fun id hid => absurd hid (h id)

/-- What a statement of the tasks and of the replay writes. -/
theorem exec_work_writes (cfg : WebhookSettings) (env : StepEnv) (s : State) (w : Work) :
    Writes s (.work w) (exec cfg env s (.work w)).state.deliveries (exec cfg env s (.work w)).state.delivered := by
  cases w with
  | create event deviceId outageId version webhookId => exact .creates
  | enqueue id =>
      simp only [exec, workStep]
      split <;> exact .unchanged (by simp)
  | sweep batchSize => exact .unchanged (by simp)
  | replayQuery event deviceId outageId limit => exact .unchanged (by simp)
  | replay id =>
      simp only [exec, workStep]
      split
      · exact .unchanged (by simp)
      · split <;> exact .unchanged (by simp)
  | replayCommit id seen =>
      simp only [exec, workStep]
      split
      · exact .unchanged (by simp)
      · rename_i d hd
        exact .resets hd
  | claim id =>
      simp only [exec, workStep]
      split
      · rename_i hnone
        refine .nothing ?_
        rintro i hi d hd
        obtain rfl : id = i := by simpa using hi
        simp [hnone] at hd
      · rename_i d hd
        split
        · rename_i hfree
          exact .claims hd hfree
        · rename_i hbusy
          refine .nothing ?_
          rintro i hi d' hd'
          obtain rfl : id = i := by simpa using hi
          rw [hd, Option.some.injEq] at hd'
          simpa [hd'] using hbusy
  | load id =>
      simp only [exec, workStep]
      split
      · exact .unchanged (by simp)
      · split <;> exact .unchanged (by simp)
  | attempt id seen =>
      simp only [exec]
      split <;> exact .unchanged (by simp)

theorem exec_writes (cfg : WebhookSettings) (env : StepEnv) (s : State) (stmt : Stmt) :
    Writes s stmt (exec cfg env s stmt).state.deliveries (exec cfg env s stmt).state.delivered := by
  cases stmt with
  | work w => exact exec_work_writes cfg env s w
  | send id seen webhook =>
      simp only [exec]
      split <;> exact .unchanged (by simp)
  | commit id seen new =>
      simp only [exec]
      split
      · exact .unchanged (by simp)
      · exact .unchanged (by simp)
      · rename_i d _ hd
        exact .commits hd
  | retry webhookId id =>
      simp only [exec]
      split
      · exact .unchanged (by simp)
      · split
        · exact .unchanged (by simp)
        · split_ifs <;> exact .unchanged (by simp)
  | trigger event deviceId outageId version => exact .unchanged (by simp)
  | createWebhook r => exact .unchanged (by simp)
  | update webhookId change =>
      simp only [exec]
      split
      · exact .unchanged (by simp)
      · split <;> exact .unchanged (by simp)
  | updateCommit webhookId seen change =>
      simp only [exec]
      split <;> exact .unchanged (by simp)
  | delete webhookId =>
      simp only [exec]
      split
      · exact .unchanged (by simp)
      · split <;> exact .unchanged (by simp)
  | deleteCommit webhookId seen =>
      simp only [exec]
      split <;> exact .unchanged (by simp)

section Moved

variable {cfg : WebhookSettings} {env : StepEnv} {s : State} {i : ℕ} {p : Proc} {stmt : Stmt}
  {rest : List Stmt}

/-- Where a statement after a step comes from. -/
theorem mem_stmts_moved (hp : s.procs[i]? = some p) (hwork : p.work = stmt :: rest) {v : Stmt}
    (hv : v ∈ (s.moved cfg env i p stmt rest).stmts) :
    v ∈ s.stmts ∨ v ∈ (exec cfg env s stmt).following ∨ ∃ id, v = .work (.claim id) := by
  have hrest : ∀ u ∈ rest, u ∈ s.stmts := by
    intro u hu
    refine List.mem_flatMap.mpr ⟨p, List.mem_of_getElem? hp, ?_⟩
    rw [hwork]
    exact List.mem_cons_of_mem _ hu
  unfold State.stmts State.moved at hv
  rw [List.flatMap_append, List.mem_append] at hv
  rcases hv with hv | hv
  · rcases mem_flatMap_replace hv with hold | hafter
    · exact .inl hold
    · unfold Proc.after at hafter
      split at hafter
      · rename_i next hnext
        rcases List.mem_append.mp hafter with hfollows | hlater
        · exact .inr (.inl (by simpa [Result.following, hnext, Except.toOption] using hfollows))
        · exact .inl (hrest v hlater)
      · split at hafter
        · exact .inr (.inr ⟨_, List.mem_singleton.mp hafter⟩)
        · cases hafter
  · obtain ⟨q, hq, hv⟩ := List.mem_flatMap.mp hv
    obtain ⟨id, hid⟩ := exec_started hq
    rw [hid] at hv
    exact .inr (.inr ⟨id, List.mem_singleton.mp hv⟩)

/-- What a step does to the number of statements of a kind that claims are not of. -/
theorem countP_stmts_moved_le (hp : s.procs[i]? = some p) (hwork : p.work = stmt :: rest)
    {kind : Stmt → Bool} (hclaim : ∀ id, kind (.work (.claim id)) = false) :
    (s.moved cfg env i p stmt rest).stmts.countP kind + (if kind stmt then 1 else 0) ≤
      s.stmts.countP kind + (exec cfg env s stmt).following.countP kind := by
  have hstarted : ((exec cfg env s stmt).started.flatMap Proc.work).countP kind = 0 := by
    rw [List.countP_eq_zero]
    intro v hv
    obtain ⟨q, hq, hv⟩ := List.mem_flatMap.mp hv
    obtain ⟨id, hid⟩ := exec_started hq
    rw [hid] at hv
    simp [List.mem_singleton.mp hv, hclaim id]
  have hafter : (p.after rest (exec cfg env s stmt).next).work.countP kind ≤
      (exec cfg env s stmt).following.countP kind + rest.countP kind := by
    unfold Proc.after
    split
    · rename_i next hnext
      simp [Result.following, hnext, Except.toOption]
    · split
      · simp [hclaim]
      · simp
  have hreplace := countP_flatMap_replace (r := p.after rest (exec cfg env s stmt).next) Proc.work kind hp
  have hhead : p.work.countP kind = rest.countP kind + if kind stmt then 1 else 0 := by
    rw [hwork, List.countP_cons]
  unfold State.stmts State.moved
  rw [List.flatMap_append, List.countP_append, hstarted]
  omega

end Moved

/-! ## A run -/

theorem oneDelay_ne_nil : [30] ≠ ([] : List ℕ) := by decide

/-- One retry, after 30 seconds; dispatches run in the thread that asks for them. -/
def oneRetry : WebhookSettings := ⟨fun _ => ⟨[], 3⟩, [30], oneDelay_ne_nil, 3600000000, false⟩

/-- A receiver that answers with this status, at this time. -/
def answering (code : ℕ) (now : ℤ) : StepEnv :=
  ⟨⟨now, .ok ["203.0.113.7"], true, .response code (codePoints "answered"), id, none, true⟩, fun _ => true⟩

def subscriber : Registration := ⟨true, false, [.slaViolation], ⟨["203.0.113.7"], 3⟩⟩

/-- A violation is delivered to one webhook, in the thread that reports it. -/
def triggered (code : ℕ) : List Move :=
  .start (.createWebhook subscriber) :: .move 0 (answering code 0) ::
    .start (.trigger .slaViolation none (some "OUT001") 2) :: List.replicate 7 (.move 1 (answering code 0))

end ApexChainx.Webhooks.Attempts
