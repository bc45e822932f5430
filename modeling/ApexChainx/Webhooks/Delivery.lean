import Mathlib.Algebra.Group.Int.Defs
import Mathlib.Data.List.Sort
import ApexChainx.Core.Error
import ApexChainx.Lib.Table
import ApexChainx.Lib.Transition
import ApexChainx.Webhooks.ResponseBody

/-!
# Webhook deliveries

The delivery side of `app/services/webhook_service.py`: `create_delivery`, `_attempt_delivery`,
`dispatch_delivery`, `trigger_sla_violation_webhooks`, `retry_pending_deliveries`,
`replay_dead_letter_delivery` and `replay_deliveries_by_event_context`, with the Celery task
`dispatch_webhook_delivery` (`app/tasks/webhook_tasks.py`) around `dispatch_delivery`.

A thread is the list of the statements it has still to execute; an exception drops them all, except that
the Celery task starts its dispatch again. Between two statements of a thread the others may move. A
delivery's id is its place in the table: no delivery is deleted here.

What the network does in an attempt is the environment of that step: what `validate_webhook_url`
resolves the webhook's URL to, whether the circuit breaker lets the request through, what the HTTP client
reports, and the random jitter. So are the webhook's secret, which a rotation may change, and the broker.

An exception may come before the request, out of it, or with the last commit, where the driver refuses a text of the
receiver (`commitError`).
-/

namespace ApexChainx.Webhooks

open ApexChainx.Lib

/-- `WebhookDeliveryStatus`. -/
inductive DeliveryStatus
  | pending
  | sending
  | success
  | failed
  | retrying
  | deadLetter
  | breakerOpen
deriving DecidableEq, Repr

/-- `WebhookEvent`. -/
inductive WebhookEvent
  | slaViolation
  | slaWarning
  | slaResolved
deriving DecidableEq, Repr

/-- A webhook, as far as a delivery uses it. -/
structure Webhook where
  /-- `resolved_ips`, decoded; empty when the column is null or does not decode. -/
  resolvedIps : List String
  maxRetries : ℕ
deriving DecidableEq, Repr

/-- A row of `webhook_deliveries`. Of the payload, what its `data` has under `device_id` and
`outage_id`. -/
structure WebhookDelivery where
  webhookId : ℕ
  event : WebhookEvent
  deviceId : Option String
  outageId : Option String
  status : DeliveryStatus
  attemptCount : ℕ
  nextRetryAt : Option ℤ
  responseStatusCode : Option ℕ
  responseBody : Option (List ℕ)
  errorMessage : Option String
  deliveredAt : Option ℤ
  deadLetteredAt : Option ℤ
  signatureVersion : ℤ
deriving DecidableEq, Repr

/-- The settings read at delivery. Startup refuses an empty list of delays. -/
structure WebhookSettings where
  webhook : ℕ → Webhook
  /-- `WEBHOOK_RETRY_BASE_DELAYS`, in seconds. -/
  retryDelays : List ℕ
  retryDelays_ne : retryDelays ≠ []
  /-- `WEBHOOK_RETRY_MAX_DELAY_SECONDS`, in the unit of the clock, microseconds. -/
  retryMaxDelay : ℤ
  /-- Celery runs dispatches in its workers (`task_always_eager` is off). -/
  celeryAvailable : Bool

/-- What `client.post` reports. -/
inductive HttpOutcome
  /-- A response, with `response.text`. -/
  | response (statusCode : ℕ) (text : List ℕ)
  /-- `httpx.TimeoutException`, with its text. -/
  | timeout (text : String)
  /-- `httpx.RequestError`, with its text. -/
  | requestError (text : String)
  /-- Another exception, such as `httpx.InvalidURL`. -/
  | raised (e : ApiError)
deriving DecidableEq, Repr

/-- What a step meets outside the database. -/
structure Env where
  now : ℤ
  /-- `validate_webhook_url`: the addresses, or the text of its `NetworkValidationError`. -/
  resolve : Except String (List String)
  /-- `breaker.allow_request`. -/
  breakerAllows : Bool
  http : HttpOutcome
  /-- `_apply_jitter`. -/
  jitter : ℤ → ℤ
  /-- `webhook.secret`, decrypted. -/
  secret : Option String
  /-- The broker takes a task. -/
  brokerUp : Bool

/-! ## One attempt -/

/-- The versions that `sign_payload` knows. -/
def signatureVersions : List ℤ := [1, 2]

/-- What `_build_headers` raises: a payload is signed if the webhook has a secret. -/
def signatureError (secret : Option String) (signatureVersion : ℤ) : Option ApiError :=
  if secret.any (· ≠ "") ∧ signatureVersion ∉ signatureVersions then
    some (.valueError ("Unsupported signature version: " ++ toString signatureVersion))
  else none

/-- `_attempt_delivery`: the loaded delivery afterwards and whether the receiver accepted it. -/
def attemptDelivery (env : Env) (webhook : Webhook) (delivery : WebhookDelivery) :
    Except ApiError (WebhookDelivery × Bool) :=
  match signatureError env.secret delivery.signatureVersion, env.resolve with
  | some e, _ => .error e
  | none, .error detail => .error (.valueError detail)
  | none, .ok currentIps =>
      if webhook.resolvedIps ≠ [] ∧ ∀ ip ∈ webhook.resolvedIps, ip ∉ currentIps then
        .error (.valueError "Webhook host resolution no longer matches the approved address.")
      else if env.breakerAllows = false then
        .ok ({ delivery with
          status := .breakerOpen
          errorMessage := some "Circuit breaker open, delivery deferred" }, false)
      else
        match env.http with
        | .response code text =>
            let delivery := { delivery with
              responseStatusCode := some code
              responseBody := some (scrubResponseBody text) }
            if 200 ≤ code ∧ code ≤ 299 then .ok (delivery, true)
            else .ok ({ delivery with errorMessage := some ("Non-success status: " ++ toString code) }, false)
        | .timeout text =>
            .ok ({ delivery with errorMessage := some ("Request timed out: " ++ text) }, false)
        | .requestError text =>
            .ok ({ delivery with errorMessage := some ("Request error: " ++ text) }, false)
        | .raised e => .error e

/-- `retry_delays[retry_index] * 2**retry_index`, in microseconds. An index of `-1`, of a delivery reset
by a replay while it was being sent, takes the last delay. -/
def nominalDelay (cfg : WebhookSettings) (retryIndex : ℤ) : ℤ :=
  if retryIndex < 0 then cfg.retryDelays.getLast cfg.retryDelays_ne * 500000
  else cfg.retryDelays.getD retryIndex.toNat 0 * 1000000 * 2 ^ retryIndex.toNat

/-- The delay before the next attempt, capped before and after the jitter. -/
def retryDelay (cfg : WebhookSettings) (env : Env) (retryIndex : ℤ) : ℤ :=
  min (env.jitter (min (nominalDelay cfg retryIndex) cfg.retryMaxDelay)) cfg.retryMaxDelay

/-- `webhook.max_retries or 3`. -/
def maxRetries (webhook : Webhook) : ℕ := if webhook.maxRetries = 0 then 3 else webhook.maxRetries

/-- The part of `dispatch_delivery` after the load: the attempt and what becomes of the loaded
delivery. -/
def attemptAndSchedule (cfg : WebhookSettings) (env : Env) (delivery : WebhookDelivery) :
    Except ApiError WebhookDelivery :=
  let webhook := cfg.webhook delivery.webhookId
  match attemptDelivery env webhook delivery with
  | .error e => .error e
  | .ok (d, true) =>
      .ok { d with status := .success, deliveredAt := some env.now, nextRetryAt := none }
  | .ok (d, false) =>
      if d.status = .breakerOpen then .ok d
      else
        let retryIndex : ℤ := d.attemptCount - 1
        if retryIndex < maxRetries webhook ∧ retryIndex < cfg.retryDelays.length then
          .ok { d with
            nextRetryAt := some (env.now + retryDelay cfg env retryIndex)
            status := .retrying }
        else
          .ok { d with status := .deadLetter, deadLetteredAt := some env.now, nextRetryAt := none }

/-! ## Statements -/

/-- The statuses `dispatch_delivery` claims. -/
def claimable : DeliveryStatus → Bool
  | .pending | .retrying => true
  | _ => false

/-- The statuses `retry_pending_deliveries` selects. -/
def sweepable : DeliveryStatus → Bool
  | .retrying | .breakerOpen => true
  | _ => false

/-- The row after the commit of a delivery that was loaded as `seen` and is now `new`. A retry time is
computed from the clock and never the one loaded. -/
def flush (seen new row : WebhookDelivery) : WebhookDelivery :=
  { row with
    status := writeColumn seen.status new.status row.status
    attemptCount := writeColumn seen.attemptCount new.attemptCount row.attemptCount
    nextRetryAt := match new.nextRetryAt with
      | some time => some time
      | none => writeColumn seen.nextRetryAt none row.nextRetryAt
    responseStatusCode := writeColumn seen.responseStatusCode new.responseStatusCode row.responseStatusCode
    responseBody := writeColumn seen.responseBody new.responseBody row.responseBody
    errorMessage := writeColumn seen.errorMessage new.errorMessage row.errorMessage
    deliveredAt := writeColumn seen.deliveredAt new.deliveredAt row.deliveredAt
    deadLetteredAt := writeColumn seen.deadLetteredAt new.deadLetteredAt row.deadLetteredAt }

/-- The code points of a text. -/
def codePoints (s : String) : List ℕ := s.toList.map Char.toNat

/-- The value of a column that an `UPDATE` writes. -/
def written {α : Type} [DecidableEq α] (seen new : Option α) : Option α := if new = seen then none else new

/-- What the commit of a delivery that was loaded as `seen` and is now `new` raises, if the driver refuses one of the
texts it writes. -/
def commitError (seen new : WebhookDelivery) : Option ApiError :=
  ((written seen.responseBody new.responseBody).bind storeError).or
    ((written seen.errorMessage new.errorMessage).bind fun message => storeError (codePoints message))

/-- The row after the claim of `dispatch_delivery`. -/
def claimed (row : WebhookDelivery) : WebhookDelivery :=
  { row with status := .sending, attemptCount := row.attemptCount + 1 }

/-- A delivery as `create_delivery` stores it. -/
def createDelivery (event : WebhookEvent) (deviceId outageId : Option String) (signatureVersion : ℤ)
    (webhookId : ℕ) : WebhookDelivery :=
  ⟨webhookId, event, deviceId, outageId, .pending, 0, none, none, none, none, none, none, signatureVersion⟩

/-- The delivery as `replay_dead_letter_delivery` resets it. -/
def resetForReplay (d : WebhookDelivery) : WebhookDelivery :=
  { d with
    status := .pending, attemptCount := 0, nextRetryAt := none, deadLetteredAt := none
    errorMessage := none, responseStatusCode := none, responseBody := none, deliveredAt := none }

/-- The query of `retry_pending_deliveries`: the due deliveries, oldest first. -/
def dueDeliveries (now : ℤ) (batchSize : ℕ) (deliveries : List WebhookDelivery) : List ℕ :=
  let due := deliveries.zipIdx.filter fun p =>
    sweepable p.1.status && p.1.nextRetryAt.any fun time => decide (time ≤ now)
  let ordered := due.insertionSort fun p q => p.1.nextRetryAt.getD 0 ≤ q.1.nextRetryAt.getD 0
  (ordered.take batchSize).map Prod.snd

/-- The filter of `replay_deliveries_by_event_context` on device and outage; an empty id is no filter. -/
def inContext (deviceId outageId : Option String) (d : WebhookDelivery) : Bool :=
  let given := fun id : Option String => id.isSome && id ≠ some ""
  (!given deviceId && !given outageId) ||
    (given deviceId && d.deviceId = deviceId) || (given outageId && d.outageId = outageId)

/-- The dead-lettered deliveries a replay by context selects. -/
def replayable (event : WebhookEvent) (deviceId outageId : Option String) (limit : ℕ)
    (deliveries : List WebhookDelivery) : List ℕ :=
  let matching := deliveries.zipIdx.filter fun p =>
    p.1.status = .deadLetter && p.1.event = event && inContext deviceId outageId p.1
  (matching.take limit).map Prod.snd

/-- A statement a thread has to execute. -/
inductive Work
  /-- `create_delivery` for the next subscriber of a trigger. -/
  | create (event : WebhookEvent) (deviceId outageId : Option String) (signatureVersion : ℤ) (webhookId : ℕ)
  /-- `dispatch_webhook_delivery.delay`. -/
  | enqueue (id : ℕ)
  /-- The query of `retry_pending_deliveries`. -/
  | sweep (batchSize : ℕ)
  /-- The query of `replay_deliveries_by_event_context`. -/
  | replayQuery (event : WebhookEvent) (deviceId outageId : Option String) (limit : ℕ)
  /-- The query of `replay_dead_letter_delivery`. -/
  | replay (id : ℕ)
  /-- Its commit, with the delivery as loaded. -/
  | replayCommit (id : ℕ) (seen : WebhookDelivery)
  /-- The claim of `dispatch_delivery`. -/
  | claim (id : ℕ)
  /-- Its query of the claimed delivery. -/
  | load (id : ℕ)
  /-- The attempt and the last commit, with the delivery as loaded; the attempt changes nothing but the
  loaded delivery. -/
  | attempt (id : ℕ) (seen : WebhookDelivery)
deriving DecidableEq, Repr

/-- A thread: what it has still to do, and for a Celery dispatch the delivery and the retries left. -/
structure Thread where
  work : List Work
  task : Option ℕ
  retries : ℕ
deriving DecidableEq, Repr

/-- What a statement leaves: the table, the statements that follow from it or the exception it raised,
and the threads it starts. -/
structure Effect where
  deliveries : List WebhookDelivery
  next : Except ApiError (List Work)
  started : List Thread

/-- One statement. -/
def workStep (cfg : WebhookSettings) (env : Env) (ds : List WebhookDelivery) : Work → Effect
  | .create event deviceId outageId signatureVersion webhookId =>
      ⟨ds ++ [createDelivery event deviceId outageId signatureVersion webhookId],
        .ok [if cfg.celeryAvailable then .enqueue ds.length else .claim ds.length], []⟩
  | .enqueue id =>
      if env.brokerUp then ⟨ds, .ok [], [⟨[.claim id], some id, 5⟩]⟩ else ⟨ds, .error (.databaseError "broker"), []⟩
  | .sweep batchSize => ⟨ds, .ok ((dueDeliveries env.now batchSize ds).map .claim), []⟩
  | .replayQuery event deviceId outageId limit =>
      ⟨ds, .ok ((replayable event deviceId outageId limit ds).map .replay), []⟩
  | .replay id =>
      match ds[id]? with
      | none => ⟨ds, .ok [], []⟩
      | some d =>
          if d.status = .deadLetter then ⟨ds, .ok [.replayCommit id d], []⟩ else ⟨ds, .ok [], []⟩
  | .replayCommit id seen =>
      match ds[id]? with
      | none => ⟨ds, .error (.staleRow "webhook_deliveries"), []⟩
      | some d => ⟨ds.set id (flush seen (resetForReplay seen) d), .ok [.claim id], []⟩
  | .claim id =>
      match ds[id]? with
      | none => ⟨ds, .ok [], []⟩
      | some d =>
          if claimable d.status then ⟨ds.set id (claimed d), .ok [.load id], []⟩ else ⟨ds, .ok [], []⟩
  | .load id =>
      match ds[id]? with
      | none => ⟨ds, .ok [], []⟩
      | some d =>
          if d.status = .success ∨ d.status = .deadLetter then ⟨ds, .ok [], []⟩
          else ⟨ds, .ok [.attempt id d], []⟩
  | .attempt id seen =>
      match attemptAndSchedule cfg env seen with
      | .error e => ⟨ds, .error e, []⟩
      | .ok new =>
          match commitError seen new, ds[id]? with
          | some e, _ => ⟨ds, .error e, []⟩
          | none, none => ⟨ds, .error (.staleRow "webhook_deliveries"), []⟩
          | none, some d => ⟨ds.set id (flush seen new d), .ok [], []⟩

/-! ## Interleavings -/

/-- What starts a thread. -/
inductive Request
  /-- `trigger_sla_violation_webhooks`, with the subscribers the listener allows. -/
  | trigger (event : WebhookEvent) (deviceId outageId : Option String) (signatureVersion : ℤ) (webhooks : List ℕ)
  | dispatch (id : ℕ)
  | sweep (batchSize : ℕ)
  | replay (id : ℕ)
  | replayByContext (event : WebhookEvent) (deviceId outageId : Option String) (limit : ℕ)
deriving DecidableEq, Repr

/-- The statements of a request. -/
def Request.work : Request → List Work
  | .trigger event deviceId outageId signatureVersion webhooks =>
      webhooks.map (.create event deviceId outageId signatureVersion)
  | .dispatch id => [.claim id]
  | .sweep batchSize => [.sweep batchSize]
  | .replay id => [.replay id]
  | .replayByContext event deviceId outageId limit => [.replayQuery event deviceId outageId limit]

/-- The thread after a statement: with the statements that follow from it, or after an exception. -/
def Thread.after (t : Thread) (rest : List Work) : Except ApiError (List Work) → Thread
  | .ok next => { t with work := next ++ rest }
  | .error _ =>
      match t.task, t.retries with
      | some id, n + 1 => { t with work := [.claim id], retries := n }
      | _, _ => { t with work := [] }

/-- The table and the threads. -/
structure Sys where
  deliveries : List WebhookDelivery
  threads : List Thread
deriving DecidableEq, Repr

def Sys.init : Sys := ⟨[], []⟩

/-- A request arrives, or the `i`-th thread executes its next statement. -/
inductive Action
  | start (r : Request)
  | move (i : ℕ) (env : Env)

/-- The interleaving semantics. -/
def step (cfg : WebhookSettings) (s : Sys) : Action → Option Sys
  | .start r => some { s with threads := s.threads ++ [⟨r.work, none, 0⟩] }
  | .move i env =>
      match s.threads[i]? with
      | none => none
      | some t =>
          match t.work with
          | [] => none
          | w :: rest =>
              let effect := workStep cfg env s.deliveries w
              some ⟨effect.deliveries, s.threads.set i (t.after rest effect.next) ++ effect.started⟩

/-! ## Texts that can be stored -/

/-- What the client reports can be stored. -/
def HttpOutcome.Kept : HttpOutcome → Prop
  | .response _ text => Storable (scrubResponseBody text)
  | .timeout text | .requestError text => Storable (codePoints text)
  | .raised _ => False

instance : (http : HttpOutcome) → Decidable http.Kept
  | .response _ text => inferInstanceAs (Decidable (Storable (scrubResponseBody text)))
  | .timeout text | .requestError text => inferInstanceAs (Decidable (Storable (codePoints text)))
  | .raised _ => inferInstanceAs (Decidable False)

theorem storable_codePoints {s : String} : Storable (codePoints s) ↔ '\x00' ∉ s.toList := by
  have hchar : ∀ c : Char, isSurrogate c.toNat = false := by
    intro c
    have hvalid : c.toNat < 0xd800 ∨ 0xdfff < c.toNat ∧ c.toNat < 0x110000 := c.valid
    simp only [isSurrogate, Bool.and_eq_false_iff, decide_eq_false_iff_not]
    omega
  have hnul : ∀ c : Char, c.toNat = 0 ↔ c = '\x00' := fun c => Char.toNat_inj (d := '\x00')
  simp only [Storable, codePoints, List.forall_mem_map, hchar, and_true, ne_eq, hnul]
  exact ⟨fun h hmem => h _ hmem rfl, fun h c hc heq => h (heq ▸ hc)⟩

theorem storable_append {front back : String} :
    Storable (codePoints (front ++ back)) ↔ Storable (codePoints front) ∧ Storable (codePoints back) := by
  simp only [storable_codePoints, String.toList_append, List.mem_append, not_or]

theorem storable_natText (n : ℕ) : Storable (codePoints (toString n)) := by
  rw [storable_codePoints]
  intro hmem
  have hdigit : Char.isDigit '\x00' = true :=
    Nat.isDigit_of_mem_toDigits (b := 10) (n := n) (by decide) le_rfl
      (by simpa [Nat.toString_eq_repr, Nat.repr] using hmem)
  exact absurd hdigit (by decide)

end ApexChainx.Webhooks
