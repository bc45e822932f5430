import Mathlib.Data.Nat.Cast.Order.Ring
import Mathlib.Tactic.Positivity
import ApexChainx.Webhooks.Attempts

/-!
# The retry budget of a delivery

`dispatch_delivery` and `replay_dead_letter_delivery` on one delivery, call after call: a dispatch claims the
delivery, attempts it and stores the result, and an exception leaves the claim as it was committed. Beside the
delivery stands what happened to it since it was created or replayed: how many requests were posted, how many
of them failed, and how far in the future its retries were scheduled. A request whose client raised counts as
posted and failed.

`run_dispatch` and `run_replay` connect the calls with the statements of `Webhooks.Delivery`.
-/

namespace ApexChainx.Webhooks.RetryBudget

open ApexChainx.Lib
open Attempts (beforeRequest afterRequest settle deferred attemptAndSchedule_eq)

/-! ## Calls -/

section Calls

variable (cfg : WebhookSettings) (env : Env) (d : WebhookDelivery)

/-- `dispatch_delivery`: the row afterwards. -/
def dispatchDelivery : WebhookDelivery :=
  if claimable d.status then
    match attemptAndSchedule cfg env (claimed d) with
    | .ok d' => if commitError (claimed d) d' = none then d' else claimed d
    | .error _ => claimed d
  else d

/-- `replay_dead_letter_delivery`: the row afterwards. -/
def replayDeadLetterDelivery : WebhookDelivery :=
  if d.status = .deadLetter then dispatchDelivery cfg env (resetForReplay d) else d

/-- The receiver answers with a success. -/
def accepts : HttpOutcome → Bool
  | .response code _ => 200 ≤ code ∧ code ≤ 299
  | _ => false

/-- The request that `dispatch_delivery` posts, if it posts one: whether the receiver accepted it. -/
def posted : Option Bool :=
  if claimable d.status then
    match beforeRequest env (cfg.webhook d.webhookId) (claimed d) with
    | .ok true => some (accepts env.http)
    | _ => none
  else none

end Calls

section Statements

variable {cfg : WebhookSettings} {env : Env} {ds : List WebhookDelivery} {id : ℕ} {d : WebhookDelivery}

/-- What identifies a delivery, and what it is about. -/
def SameDelivery (d d' : WebhookDelivery) : Prop :=
  d'.webhookId = d.webhookId ∧ d'.event = d.event ∧ d'.deviceId = d.deviceId ∧ d'.outageId = d.outageId ∧
    d'.signatureVersion = d.signatureVersion

/-- A result that is stored over the row it was computed from. -/
theorem flush_self {seen new : WebhookDelivery} (hsame : SameDelivery seen new) : flush seen new seen = new := by
  obtain ⟨webhookId, event, deviceId, outageId, status, attemptCount, nextRetryAt, _, _, _, _, _, version⟩ := new
  obtain ⟨hid, hevent, hdevice, houtage, hversion⟩ := hsame
  dsimp only at hid hevent hdevice houtage hversion
  subst hid hevent hdevice houtage hversion
  cases nextRetryAt <;> simp [flush, writeColumn_eq]

/-- The texts of the delivery can be stored. -/
structure Stored (d : WebhookDelivery) : Prop where
  body : ∀ body ∈ d.responseBody, Storable body
  message : ∀ message ∈ d.errorMessage, Storable (codePoints message)

/-- What is written beside a text that can be stored. -/
theorem written_storeError {α : Type} [DecidableEq α] {codes : α → List ℕ} {seen new : Option α}
    (hseen : ∀ a ∈ seen, Storable (codes a)) :
    ((written seen new).bind fun a => storeError (codes a)) = none ↔ ∀ a ∈ new, Storable (codes a) := by
  unfold written
  split_ifs with hsame
  · exact iff_of_true rfl (hsame ▸ hseen)
  · cases new with
    | none => exact iff_of_true rfl nofun
    | some a => simp [storeError_eq_none_iff]

theorem commitError_eq_none_iff {seen new : WebhookDelivery} (hseen : Stored seen) :
    commitError seen new = none ↔ Stored new := by
  have hbody : (written seen.responseBody new.responseBody).bind storeError = none ↔
      ∀ body ∈ new.responseBody, Storable body := @written_storeError _ _ id _ _ hseen.body
  rw [commitError, Option.or_eq_none_iff, hbody, written_storeError hseen.message]
  exact ⟨fun h => ⟨h.1, h.2⟩, fun h => ⟨h.body, h.message⟩⟩

/-- A request whose client raised has failed; another one leaves what the receiver said, which can be stored if it
is to be kept. -/
theorem afterRequest_cases (http : HttpOutcome) (d : WebhookDelivery) :
    ((∃ e, afterRequest http d = .error e) ∧ accepts http = false ∧ ¬ http.Kept) ∨
      ∃ sent, afterRequest http d = .ok (sent, accepts http) ∧ SameDelivery d sent ∧
        sent.attemptCount = d.attemptCount ∧ sent.status = d.status ∧ (Stored d → (Stored sent ↔ http.Kept)) := by
  cases http with
  | response code text =>
      have hkept : ∀ sent : WebhookDelivery, sent.responseBody = some (scrubResponseBody text) →
          (∀ message ∈ sent.errorMessage, Storable (codePoints message)) →
          (Stored sent ↔ (HttpOutcome.response code text).Kept) := by
        intro sent hbody hmessage
        refine ⟨fun h => h.body _ hbody, fun hkept => ⟨fun body heq => ?_, hmessage⟩⟩
        rw [hbody] at heq
        exact Option.some.inj heq ▸ hkept
      right
      by_cases haccepted : 200 ≤ code ∧ code ≤ 299
      · refine ⟨{ d with responseStatusCode := some code, responseBody := some (scrubResponseBody text) }, ?_,
          ⟨rfl, rfl, rfl, rfl, rfl⟩, rfl, rfl, fun hstored => hkept _ rfl hstored.message⟩
        simp [afterRequest, accepts, haccepted]
      · refine ⟨{ d with
            responseStatusCode := some code
            responseBody := some (scrubResponseBody text)
            errorMessage := some ("Non-success status: " ++ toString code) }, ?_,
          ⟨rfl, rfl, rfl, rfl, rfl⟩, rfl, rfl, fun _ => hkept _ rfl fun message heq => ?_⟩
        · simp [afterRequest, accepts, haccepted]
        · rw [← Option.some.inj heq]
          exact storable_append.mpr ⟨by decide, storable_natText code⟩
  | timeout text =>
      refine .inr ⟨_, rfl, ⟨rfl, rfl, rfl, rfl, rfl⟩, rfl, rfl, fun hstored => ?_⟩
      refine ⟨fun h => (storable_append.mp (h.message _ rfl)).2, fun hkept => ⟨hstored.body, fun message heq => ?_⟩⟩
      rw [← Option.some.inj heq]
      exact storable_append.mpr ⟨by decide, hkept⟩
  | requestError text =>
      refine .inr ⟨_, rfl, ⟨rfl, rfl, rfl, rfl, rfl⟩, rfl, rfl, fun hstored => ?_⟩
      refine ⟨fun h => (storable_append.mp (h.message _ rfl)).2, fun hkept => ⟨hstored.body, fun message heq => ?_⟩⟩
      rw [← Option.some.inj heq]
      exact storable_append.mpr ⟨by decide, hkept⟩
  | raised e => exact .inl ⟨⟨e, rfl⟩, rfl, fun hkept => hkept⟩

/-- The end of a dispatch leaves what the delivery is about, and its texts. -/
theorem settle_frame (cfg : WebhookSettings) (env : Env) (webhook : Webhook) (d : WebhookDelivery)
    (accepted : Bool) : SameDelivery d (settle cfg env webhook (d, accepted)) ∧
      (Stored (settle cfg env webhook (d, accepted)) ↔ Stored d) := by
  have hstored : ∀ d' : WebhookDelivery, d'.responseBody = d.responseBody → d'.errorMessage = d.errorMessage →
      (Stored d' ↔ Stored d) := by
    intro d' hbody hmessage
    exact ⟨fun h => ⟨hbody ▸ h.body, hmessage ▸ h.message⟩, fun h => ⟨hbody ▸ h.body, hmessage ▸ h.message⟩⟩
  unfold settle SameDelivery
  cases accepted with
  | true => exact ⟨⟨rfl, rfl, rfl, rfl, rfl⟩, hstored _ rfl rfl⟩
  | false =>
      dsimp only
      split_ifs <;> exact ⟨⟨rfl, rfl, rfl, rfl, rfl⟩, hstored _ rfl rfl⟩

theorem stored_deferred (hstored : Stored d) : Stored (deferred d) := by
  refine ⟨hstored.body, fun message heq => ?_⟩
  rw [← Option.some.inj heq]
  decide +kernel

/-- An attempt raises, is deferred, or posts a request and settles what it came to. -/
theorem attempt_cases (cfg : WebhookSettings) (env : Env) (d : WebhookDelivery) :
    (beforeRequest env (cfg.webhook d.webhookId) d ≠ .ok true ∧
      ((∃ e, attemptAndSchedule cfg env d = .error e) ∨ attemptAndSchedule cfg env d = .ok (deferred d))) ∨
    beforeRequest env (cfg.webhook d.webhookId) d = .ok true ∧ attemptAndSchedule cfg env d
      = (afterRequest env.http d).map (settle cfg env (cfg.webhook d.webhookId)) := by
  rw [attemptAndSchedule_eq]
  cases beforeRequest env (cfg.webhook d.webhookId) d with
  | error e => exact .inl ⟨nofun, .inl ⟨e, rfl⟩⟩
  | ok allowed =>
      cases allowed with
      | false => exact .inl ⟨nofun, .inr rfl⟩
      | true => exact .inr ⟨rfl, rfl⟩

/-- An attempt writes its result only. -/
theorem attempt_frame {new : WebhookDelivery} (h : attemptAndSchedule cfg env d = .ok new) :
    SameDelivery d new := by
  rcases attempt_cases cfg env d with ⟨-, ⟨e, herror⟩ | hdeferred⟩ | ⟨-, hsettled⟩
  · rw [herror] at h
    cases h
  · rw [hdeferred] at h
    rw [← Except.ok.inj h]
    exact ⟨rfl, rfl, rfl, rfl, rfl⟩
  · rw [hsettled] at h
    rcases afterRequest_cases env.http d with ⟨⟨e, herror⟩, -⟩ | ⟨sent, hsent, hsame, -⟩
    · rw [herror] at h
      cases h
    · rw [hsent] at h
      rw [← Except.ok.inj h]
      obtain ⟨hid, hevent, hdevice, houtage, hversion⟩ := hsame
      obtain ⟨⟨hid', hevent', hdevice', houtage', hversion'⟩, -⟩ :=
        settle_frame cfg env (cfg.webhook d.webhookId) sent (accepts env.http)
      exact ⟨hid'.trans hid, hevent'.trans hevent, hdevice'.trans hdevice, houtage'.trans houtage,
        hversion'.trans hversion⟩

/-- A thread by itself that executes the statements of a dispatch. -/
theorem run_dispatch (hd : ds[id]? = some d) :
    ∃ n, run (step cfg) ⟨ds, [⟨[.claim id], none, 0⟩]⟩ (List.replicate n (.move 0 env))
      = some ⟨ds.set id (dispatchDelivery cfg env d), [⟨[], none, 0⟩]⟩ := by
  have hlt : id < ds.length := (List.getElem?_eq_some_iff.mp hd).1
  unfold dispatchDelivery
  by_cases hclaim : claimable d.status
  · have hload : (claimed d).status ≠ .success ∧ (claimed d).status ≠ .deadLetter := ⟨nofun, nofun⟩
    have hset : (ds.set id (claimed d))[id]? = some (claimed d) := List.getElem?_set_self hlt
    refine ⟨3, ?_⟩
    simp only [List.replicate, run, step, workStep, List.getElem?_cons_zero, hd, if_pos hclaim, Option.bind_some,
      Thread.after, List.set_cons_zero, List.append_nil, List.cons_append, List.nil_append, hset, hload,
      or_self, if_false]
    cases hattempt : attemptAndSchedule cfg env (claimed d) with
    | error e => rfl
    | ok new =>
        cases herror : commitError (claimed d) new with
        | some e => simp [herror]
        | none => simp [herror, flush_self (attempt_frame hattempt), List.set_set]
  · refine ⟨1, ?_⟩
    have hsame : ds.set id d = ds := by
      rw [← (List.getElem?_eq_some_iff.mp hd).2, List.set_getElem_self]
    simp only [List.replicate, run, step, workStep, List.getElem?_cons_zero, hd, if_neg hclaim, Option.bind_some,
      Thread.after, List.set_cons_zero, List.append_nil, hsame]

/-- A thread by itself that executes the statements of a replay. -/
theorem run_replay (hd : ds[id]? = some d) :
    ∃ n, run (step cfg) ⟨ds, [⟨[.replay id], none, 0⟩]⟩ (List.replicate n (.move 0 env))
      = some ⟨ds.set id (replayDeadLetterDelivery cfg env d), [⟨[], none, 0⟩]⟩ := by
  have hlt : id < ds.length := (List.getElem?_eq_some_iff.mp hd).1
  unfold replayDeadLetterDelivery
  by_cases hdead : d.status = .deadLetter
  · have hflush : flush d (resetForReplay d) d = resetForReplay d := flush_self ⟨rfl, rfl, rfl, rfl, rfl⟩
    have hreset : run (step cfg) ⟨ds, [⟨[.replay id], none, 0⟩]⟩ (List.replicate 2 (.move 0 env))
        = some ⟨ds.set id (resetForReplay d), [⟨[.claim id], none, 0⟩]⟩ := by
      simp only [List.replicate, run, step, workStep, List.getElem?_cons_zero, hd, if_pos hdead, Option.bind_some,
        Thread.after, List.set_cons_zero, List.append_nil, hflush]
    have hrow : (ds.set id (resetForReplay d))[id]? = some (resetForReplay d) := List.getElem?_set_self hlt
    obtain ⟨n, hdispatch⟩ := run_dispatch hrow
    refine ⟨2 + n, ?_⟩
    rw [List.replicate_add, if_pos hdead, run_append_eq_some]
    rw [List.set_set] at hdispatch
    exact ⟨_, hreset, hdispatch⟩
  · refine ⟨1, ?_⟩
    have hsame : ds.set id d = ds := by
      rw [← (List.getElem?_eq_some_iff.mp hd).2, List.set_getElem_self]
    simp only [List.replicate, run, step, workStep, List.getElem?_cons_zero, hd, if_neg hdead, Option.bind_some,
      Thread.after, List.set_cons_zero, List.append_nil, hsame]

end Statements

/-! ## Histories -/

/-- `WEBHOOK_RETRY_JITTER`: `"none"`, `"equal"`, and `"full"` for any other text. -/
inductive JitterMode
  | unchanged
  | equal
  | full
deriving DecidableEq, Repr

/-- What `_apply_jitter` may make of a delay, in microseconds. -/
def Jittered (mode : JitterMode) (delay result : ℤ) : Prop :=
  match mode with
  | .unchanged => result = delay
  | .equal => delay ≤ 2 * result ∧ 2 * result ≤ 3 * delay
  | .full => 1000000 ≤ result ∧ result ≤ max 1000000 (2 * delay)

theorem Jittered.nonneg {mode : JitterMode} {delay result : ℤ} (h : Jittered mode delay result)
    (hdelay : 0 ≤ delay) : 0 ≤ result := by
  cases mode with
  | unchanged => exact hdelay.trans (le_of_eq h.symm)
  | equal =>
      have hlow := h.1
      omega
  | full =>
      have hlow := h.1
      omega

/-- The settings that startup accepts. -/
structure RetrySettings extends WebhookSettings where
  jitterMode : JitterMode
  retryMaxDelay_pos : 0 < retryMaxDelay

/-- What a dispatch meets, with a jitter of the mode. -/
structure DispatchEnv (mode : JitterMode) extends Env where
  jittered : ∀ delay, 0 ≤ delay → Jittered mode delay (jitter delay)

/-- A call on the delivery. -/
inductive DeliveryCall (mode : JitterMode)
  | dispatch (env : DispatchEnv mode)
  | replay (env : DispatchEnv mode)

/-- The delivery, the requests posted and failed since it was created or replayed, and how far in the future
its retries were scheduled. -/
structure History where
  delivery : WebhookDelivery
  posts : ℕ
  failures : ℕ
  scheduled : List ℤ
deriving DecidableEq, Repr

section Histories

variable (cfg : RetrySettings)

/-- The history after a dispatch that left the delivery `d` and posted a request or none. -/
def History.record (now : ℤ) (h : History) (d : WebhookDelivery) : Option Bool → History
  | none => { h with delivery := d }
  | some true => { h with delivery := d, posts := h.posts + 1 }
  | some false =>
      { delivery := d
        posts := h.posts + 1
        failures := h.failures + 1
        scheduled :=
          if d.status = .retrying then (d.nextRetryAt.map (· - now)).toList ++ h.scheduled else h.scheduled }

/-- A dispatch and what it adds to the history. -/
def History.dispatch (env : Env) (h : History) : History :=
  h.record env.now (dispatchDelivery cfg.toWebhookSettings env h.delivery)
    (posted cfg.toWebhookSettings env h.delivery)

def History.step (h : History) : DeliveryCall cfg.jitterMode → History
  | .dispatch env => h.dispatch cfg env.toEnv
  | .replay env =>
      if h.delivery.status = .deadLetter then
        History.dispatch cfg env.toEnv ⟨resetForReplay h.delivery, 0, 0, h.scheduled⟩
      else h

/-- The history of a new delivery after the calls. -/
def History.after (d : WebhookDelivery) (calls : List (DeliveryCall cfg.jitterMode)) : History :=
  calls.foldl (History.step cfg) ⟨d, 0, 0, []⟩

/-- The requests that a webhook's `max_retries` and the list of delays allow. -/
def allowedPosts (webhook : Webhook) : ℕ := 1 + min webhook.maxRetries cfg.retryDelays.length

/-- What the claim of a budget says of a history. -/
structure WithinBudget (webhook : Webhook) (h : History) : Prop where
  posts_le : h.posts ≤ allowedPosts cfg webhook
  dead_iff : h.delivery.status = .deadLetter ↔ h.failures = allowedPosts cfg webhook
  scheduled : ∀ delay ∈ h.scheduled, 0 ≤ delay ∧ delay ≤ cfg.retryMaxDelay

/-- The delivery of a history is the one the calls are made on. -/
theorem delivery_step (h : History) (env : DispatchEnv cfg.jitterMode) :
    (h.step cfg (.dispatch env)).delivery = dispatchDelivery cfg.toWebhookSettings env.toEnv h.delivery
      ∧ (h.step cfg (.replay env)).delivery
        = replayDeadLetterDelivery cfg.toWebhookSettings env.toEnv h.delivery := by
  have hdispatch : ∀ h : History, (h.dispatch cfg env.toEnv).delivery
      = dispatchDelivery cfg.toWebhookSettings env.toEnv h.delivery := by
    intro h
    unfold History.dispatch History.record
    split <;> rfl
  refine ⟨hdispatch h, ?_⟩
  unfold History.step replayDeadLetterDelivery
  dsimp only
  split
  · exact hdispatch _
  · rfl

/-! ## What a dispatch does -/

variable {cfg} in
/-- After the failure of a delivery's attempt number `k + 1`. -/
theorem settle_failed (env : Env) (webhook : Webhook) {d : WebhookDelivery} {k : ℕ}
    (hstatus : d.status ≠ .breakerOpen) (hcount : d.attemptCount = k + 1) :
    settle cfg.toWebhookSettings env webhook (d, false) =
      if k < min (maxRetries webhook) cfg.retryDelays.length then
        { d with
          nextRetryAt := some (env.now + retryDelay cfg.toWebhookSettings env k)
          status := .retrying }
      else { d with status := .deadLetter, deadLetteredAt := some env.now, nextRetryAt := none } := by
  have hindex : (d.attemptCount : ℤ) - 1 = k := by omega
  simp only [settle, if_neg hstatus, hindex, Nat.cast_lt, lt_min_iff]

/-- What a dispatch makes of a history, with the request it posts: nothing where the delivery cannot be claimed; a
claim without a request where the attempt raises or is deferred; and a request that is accepted, fails and is to be
retried, fails for the last time, or fails and is not recorded. -/
inductive Dispatched (env : Env) (h : History) : Option Bool → History → Prop
  | idle (hclaim : claimable h.delivery.status = false) : Dispatched env h none h
  | withheld {d : WebhookDelivery} (hclaim : claimable h.delivery.status = true)
      (howner : d.webhookId = h.delivery.webhookId) (hstored : Stored d)
      (hstatus : d.status = .sending ∨ d.status = .breakerOpen) :
      Dispatched env h none { h with delivery := d }
  | accepted {d : WebhookDelivery} (hclaim : claimable h.delivery.status = true)
      (howner : d.webhookId = h.delivery.webhookId) (hstored : Stored d)
      (hstatus : d.status = .success ∨ d.status = .sending) :
      Dispatched env h (some true) { h with delivery := d, posts := h.posts + 1 }
  | retried {d : WebhookDelivery} (hclaim : claimable h.delivery.status = true)
      (howner : d.webhookId = h.delivery.webhookId) (hstored : Stored d) (hkept : env.http.Kept)
      (hstatus : d.status = .retrying) (hcount : d.attemptCount = h.delivery.attemptCount + 1)
      (hmore : h.delivery.attemptCount
        < min (maxRetries (cfg.webhook h.delivery.webhookId)) cfg.retryDelays.length) :
      Dispatched env h (some false) ⟨d, h.posts + 1, h.failures + 1,
        retryDelay cfg.toWebhookSettings env h.delivery.attemptCount :: h.scheduled⟩
  | exhausted {d : WebhookDelivery} (hclaim : claimable h.delivery.status = true)
      (howner : d.webhookId = h.delivery.webhookId) (hstored : Stored d) (hkept : env.http.Kept)
      (hstatus : d.status = .deadLetter)
      (hmore : ¬ h.delivery.attemptCount
        < min (maxRetries (cfg.webhook h.delivery.webhookId)) cfg.retryDelays.length) :
      Dispatched env h (some false) ⟨d, h.posts + 1, h.failures + 1, h.scheduled⟩
  | unrecorded {d : WebhookDelivery} (hclaim : claimable h.delivery.status = true)
      (howner : d.webhookId = h.delivery.webhookId) (hstored : Stored d) (hlost : ¬ env.http.Kept)
      (hstatus : d.status = .sending) :
      Dispatched env h (some false) ⟨d, h.posts + 1, h.failures + 1, h.scheduled⟩

theorem dispatched (env : Env) (h : History) (hstored : Stored h.delivery) :
    Dispatched cfg env h (posted cfg.toWebhookSettings env h.delivery) (h.dispatch cfg env) := by
  unfold History.dispatch dispatchDelivery posted
  by_cases hclaim : claimable h.delivery.status = true
  swap
  · simp only [if_neg hclaim]
    exact .idle (Bool.eq_false_iff.mpr hclaim)
  have hclaimed : Stored (claimed h.delivery) := ⟨hstored.body, hstored.message⟩
  rw [if_pos hclaim, if_pos hclaim]
  rcases attempt_cases cfg.toWebhookSettings env (claimed h.delivery) with
    ⟨hbefore, hattempt⟩ | ⟨hbefore, hattempt⟩
  · -- no request was made
    have hnone : (match beforeRequest env (cfg.webhook h.delivery.webhookId) (claimed h.delivery) with
        | .ok true => some (accepts env.http)
        | _ => none) = none := by
      split
      · rename_i hallowed
        exact absurd hallowed hbefore
      · rfl
    rw [hnone]
    rcases hattempt with ⟨e, herror⟩ | hdeferred
    · rw [herror]
      exact .withheld hclaim rfl hclaimed (.inl rfl)
    · have hcommit := (commitError_eq_none_iff hclaimed).mpr (stored_deferred hclaimed)
      rw [hdeferred]
      dsimp only
      rw [if_pos hcommit]
      exact .withheld hclaim rfl (stored_deferred hclaimed) (.inr rfl)
  rw [show beforeRequest env (cfg.webhook h.delivery.webhookId) (claimed h.delivery) = .ok true from hbefore,
    hattempt]
  rcases afterRequest_cases env.http (claimed h.delivery) with
    ⟨⟨e, herror⟩, hrefused, hlost⟩ | ⟨sent, hsent, ⟨howner, -⟩, hcount, hstatus, hkept⟩
  · rw [herror, hrefused]
    exact .unrecorded hclaim rfl hclaimed hlost rfl
  obtain ⟨-, hsettled⟩ := settle_frame cfg.toWebhookSettings env (cfg.webhook (claimed h.delivery).webhookId) sent
    (accepts env.http)
  have hcommit := (commitError_eq_none_iff hclaimed).trans (hsettled.trans (hkept hclaimed))
  rw [hsent]
  dsimp only [Except.map]
  by_cases hk : env.http.Kept
  swap
  · -- the result is not stored
    rw [if_neg (mt hcommit.mp hk)]
    cases accepts env.http with
    | true => exact .accepted hclaim rfl hclaimed (.inr rfl)
    | false => exact .unrecorded hclaim rfl hclaimed hk rfl
  have hstored' := hsettled.mpr ((hkept hclaimed).mpr hk)
  rw [if_pos (hcommit.mpr hk)]
  revert hstored'
  cases accepts env.http with
  | true => exact fun hstored' => .accepted hclaim howner hstored' (.inl rfl)
  | false =>
      have hopen : sent.status ≠ .breakerOpen := by
        rw [hstatus]
        nofun
      rw [settle_failed env _ hopen hcount]
      intro hstored'
      split_ifs at hstored' ⊢ with hmore
      · have hfuture : ∀ delay : ℤ, env.now + delay - env.now = delay := by omega
        simp only [History.record, Option.map_some, Option.toList_some, List.cons_append, List.nil_append, hfuture,
          if_true]
        exact .retried hclaim howner hstored' hk rfl hcount hmore
      · exact .exhausted hclaim howner hstored' hk rfl hmore

/-! ## The condition -/

/-- The last request that the budget allows, if it fails, is recorded, and the code takes it for the last: the
webhook's `max_retries` is not 0. -/
def GivesUpInTime (webhook : Webhook) (env : Env) (d : WebhookDelivery) : Prop :=
  posted cfg.toWebhookSettings env d = some false →
    d.attemptCount = min webhook.maxRetries cfg.retryDelays.length → webhook.maxRetries ≠ 0 ∧ env.http.Kept

/-- The dispatch of the call gives up in time. -/
def InTime (webhook : Webhook) (h : History) : DeliveryCall cfg.jitterMode → Prop
  | .dispatch env => GivesUpInTime cfg webhook env.toEnv h.delivery
  | .replay env => h.delivery.status = .deadLetter → GivesUpInTime cfg webhook env.toEnv (resetForReplay h.delivery)

/-! ## The invariant -/

/-- What the attempt counter of a delivery of the webhook says of its history. -/
structure Counted (webhookId : ℕ) (h : History) : Prop where
  owner : h.delivery.webhookId = webhookId
  stored : Stored h.delivery
  ready : claimable h.delivery.status = true →
    h.posts = h.delivery.attemptCount ∧ h.failures = h.delivery.attemptCount
  scheduled : ∀ delay ∈ h.scheduled, 0 ≤ delay ∧ delay ≤ cfg.retryMaxDelay

variable {cfg} {webhookId : ℕ} {h : History}

/-- A delivery that was created, or reset by a replay. -/
theorem counted_created {d : WebhookDelivery} (howner : d.webhookId = webhookId) (hstatus : d.status = .pending)
    (hcount : d.attemptCount = 0) (hbody : d.responseBody = none) (hmessage : d.errorMessage = none)
    {scheduled : List ℤ} (hscheduled : ∀ delay ∈ scheduled, 0 ≤ delay ∧ delay ≤ cfg.retryMaxDelay) :
    Counted cfg webhookId ⟨d, 0, 0, scheduled⟩ ∧ WithinBudget cfg (cfg.webhook webhookId) ⟨d, 0, 0, scheduled⟩ := by
  have hpos : 0 < allowedPosts cfg (cfg.webhook webhookId) := Nat.add_pos_left Nat.one_pos _
  have hstored : Stored d := ⟨by simp [hbody], by simp [hmessage]⟩
  refine ⟨⟨howner, hstored, fun _ => ⟨hcount.symm, hcount.symm⟩, hscheduled⟩, hpos.le, ?_, hscheduled⟩
  exact iff_of_false (by simp [hstatus]) hpos.ne

/-- A retry is scheduled neither in the past nor later than the cap allows. -/
theorem retryDelay_bounds (env : DispatchEnv cfg.jitterMode) (k : ℕ) :
    0 ≤ retryDelay cfg.toWebhookSettings env.toEnv k
      ∧ retryDelay cfg.toWebhookSettings env.toEnv k ≤ cfg.retryMaxDelay := by
  have hcap := cfg.retryMaxDelay_pos
  have hnominal : 0 ≤ nominalDelay cfg.toWebhookSettings k := by
    unfold nominalDelay
    rw [if_neg (by omega)]
    positivity
  have hdelay : 0 ≤ min (nominalDelay cfg.toWebhookSettings k) cfg.retryMaxDelay := le_min hnominal hcap.le
  have hjittered := (env.jittered _ hdelay).nonneg hdelay
  exact ⟨le_min hjittered hcap.le, min_le_right _ _⟩

/-- A dispatch counts its request, and the attempt counter goes with it. -/
theorem Counted.dispatch (hcounted : Counted cfg webhookId h) (env : DispatchEnv cfg.jitterMode) :
    Counted cfg webhookId (h.dispatch cfg env.toEnv) := by
  obtain ⟨rfl, hstored, hready, hscheduled⟩ := hcounted
  have hdispatched := dispatched cfg env.toEnv h hstored
  revert hdispatched
  generalize h.dispatch cfg env.toEnv = h'
  generalize posted cfg.toWebhookSettings env.toEnv h.delivery = sent
  intro hdispatched
  cases hdispatched with
  | idle hclaim => exact ⟨rfl, hstored, hready, hscheduled⟩
  | withheld hclaim howner hstored' hstatus =>
      refine ⟨howner, hstored', fun hagain => ?_, hscheduled⟩
      rcases hstatus with hstatus | hstatus <;> simp [hstatus, claimable] at hagain
  | accepted hclaim howner hstored' hstatus =>
      refine ⟨howner, hstored', fun hagain => ?_, hscheduled⟩
      rcases hstatus with hstatus | hstatus <;> simp [hstatus, claimable] at hagain
  | retried hclaim howner hstored' hkept hstatus hcount hmore =>
      obtain ⟨hposts, hfailures⟩ := hready hclaim
      refine ⟨howner, hstored', fun _ => ?_, List.forall_mem_cons.mpr ⟨retryDelay_bounds env _, hscheduled⟩⟩
      dsimp only
      omega
  | exhausted hclaim howner hstored' hkept hstatus hmore =>
      exact ⟨howner, hstored', by simp [hstatus, claimable], hscheduled⟩
  | unrecorded hclaim howner hstored' hlost hstatus =>
      exact ⟨howner, hstored', by simp [hstatus, claimable], hscheduled⟩

/-- A dispatch keeps a history within the budget exactly when it gives up in time. -/
theorem withinBudget_dispatch_iff (hcounted : Counted cfg webhookId h)
    (hwithin : WithinBudget cfg (cfg.webhook webhookId) h) (env : DispatchEnv cfg.jitterMode) :
    WithinBudget cfg (cfg.webhook webhookId) (h.dispatch cfg env.toEnv) ↔
      GivesUpInTime cfg (cfg.webhook webhookId) env.toEnv h.delivery := by
  have hlater := (hcounted.dispatch env).scheduled
  obtain ⟨rfl, hstored, hready, hscheduled⟩ := hcounted
  have hdelays := List.length_pos_of_ne_nil cfg.retryDelays_ne
  -- a delivery that is claimed has a request left
  have hleft : claimable h.delivery.status = true → h.failures ≤ min
      (cfg.webhook h.delivery.webhookId).maxRetries cfg.retryDelays.length := by
    intro hclaim
    have halive : h.delivery.status ≠ .deadLetter := by
      intro hdead
      simp [hdead, claimable] at hclaim
    obtain ⟨hposts, hfailures⟩ := hready hclaim
    have hne := mt hwithin.dead_iff.mpr halive
    have hle := hwithin.posts_le
    unfold allowedPosts at hne hle
    omega
  have hdispatched := dispatched cfg env.toEnv h hstored
  unfold GivesUpInTime
  revert hdispatched hlater
  generalize h.dispatch cfg env.toEnv = h'
  generalize posted cfg.toWebhookSettings env.toEnv h.delivery = sent
  intro hlater hdispatched
  cases hdispatched with
  | idle hclaim => exact iff_of_true hwithin nofun
  | withheld hclaim howner hstored' hstatus =>
      refine iff_of_true ⟨hwithin.posts_le, iff_of_false ?_ ?_, hscheduled⟩ nofun
      · rcases hstatus with hstatus | hstatus <;> simp [hstatus]
      · have hle := hleft hclaim
        dsimp only [allowedPosts]
        omega
  | accepted hclaim howner hstored' hstatus =>
      have hle := hleft hclaim
      obtain ⟨hposts, hfailures⟩ := hready hclaim
      refine iff_of_true ⟨?_, iff_of_false ?_ ?_, hscheduled⟩ nofun
      · dsimp only [allowedPosts]
        omega
      · rcases hstatus with hstatus | hstatus <;> simp [hstatus]
      · dsimp only [allowedPosts]
        omega
  | retried hclaim howner hstored' hkept hstatus hcount hmore =>
      have hle := hleft hclaim
      obtain ⟨hposts, hfailures⟩ := hready hclaim
      have hnot : h.delivery.attemptCount = min (cfg.webhook h.delivery.webhookId).maxRetries cfg.retryDelays.length →
          (cfg.webhook h.delivery.webhookId).maxRetries = 0 := by
        intro hlast
        by_contra hretries
        rw [maxRetries, if_neg hretries] at hmore
        omega
      constructor
      · intro hwithin' _ hlast
        refine absurd (hwithin'.dead_iff.mpr ?_) (by simp [hstatus])
        dsimp only [allowedPosts]
        omega
      · intro hintime
        have hmoreLeft : h.delivery.attemptCount ≠
            min (cfg.webhook h.delivery.webhookId).maxRetries cfg.retryDelays.length :=
          fun hlast => (hintime rfl hlast).1 (hnot hlast)
        refine ⟨?_, iff_of_false (by simp [hstatus]) ?_, hlater⟩
        all_goals
          dsimp only [allowedPosts]
          omega
  | exhausted hclaim howner hstored' hkept hstatus hmore =>
      have hle := hleft hclaim
      obtain ⟨hposts, hfailures⟩ := hready hclaim
      have hretries : (cfg.webhook h.delivery.webhookId).maxRetries ≠ 0 := by
        intro hzero
        rw [maxRetries, if_pos hzero] at hmore
        omega
      rw [maxRetries, if_neg hretries] at hmore
      refine iff_of_true ⟨?_, iff_of_true hstatus ?_, hscheduled⟩ fun _ _ => ⟨hretries, hkept⟩
      all_goals
        dsimp only [allowedPosts]
        omega
  | unrecorded hclaim howner hstored' hlost hstatus =>
      have hle := hleft hclaim
      obtain ⟨hposts, hfailures⟩ := hready hclaim
      constructor
      · intro hwithin' _ hlast
        refine absurd (hwithin'.dead_iff.mpr ?_) (by simp [hstatus])
        dsimp only [allowedPosts]
        omega
      · intro hintime
        have hmoreLeft : h.delivery.attemptCount ≠
            min (cfg.webhook h.delivery.webhookId).maxRetries cfg.retryDelays.length :=
          fun hlast => hlost (hintime rfl hlast).2
        refine ⟨?_, iff_of_false (by simp [hstatus]) ?_, hscheduled⟩
        all_goals
          dsimp only [allowedPosts]
          omega

theorem Counted.step (hcounted : Counted cfg webhookId h) (call : DeliveryCall cfg.jitterMode) :
    Counted cfg webhookId (h.step cfg call) := by
  cases call with
  | dispatch env => exact hcounted.dispatch env
  | replay env =>
      unfold History.step
      dsimp only
      split_ifs
      · have howner : (resetForReplay h.delivery).webhookId = webhookId := hcounted.owner
        exact (counted_created howner rfl rfl rfl rfl hcounted.scheduled).1.dispatch env
      · exact hcounted

/-- A call keeps a history within the budget exactly when its dispatch gives up in time. -/
theorem withinBudget_step_iff (hcounted : Counted cfg webhookId h)
    (hwithin : WithinBudget cfg (cfg.webhook webhookId) h) (call : DeliveryCall cfg.jitterMode) :
    WithinBudget cfg (cfg.webhook webhookId) (h.step cfg call) ↔ InTime cfg (cfg.webhook webhookId) h call := by
  cases call with
  | dispatch env => exact withinBudget_dispatch_iff hcounted hwithin env
  | replay env =>
      unfold History.step InTime
      dsimp only
      split_ifs with hdead
      · have howner : (resetForReplay h.delivery).webhookId = webhookId := hcounted.owner
        obtain ⟨hreset, hstart⟩ := counted_created howner rfl rfl rfl rfl hcounted.scheduled
        rw [withinBudget_dispatch_iff hreset hstart env]
        exact ⟨fun h _ => h, fun h => h hdead⟩
      · exact iff_of_true hwithin fun h => absurd h hdead

/-! ## The budget -/

/-- A call as a step of a run. -/
def History.call (cfg : RetrySettings) (h : History) (call : DeliveryCall cfg.jitterMode) : Option History :=
  some (h.step cfg call)

theorem run_call (cfg : RetrySettings) (h : History) (calls : List (DeliveryCall cfg.jitterMode)) :
    run (History.call cfg) h calls = some (calls.foldl (History.step cfg) h) := by
  induction calls generalizing h with
  | nil => rfl
  | cons call calls ih => exact ih (h.step cfg call)

/-- The history of a new delivery keeps within the budget of its webhook, call after call, exactly when each call
gives up in time: where it posts the last request of the budget and the request fails, the webhook's `max_retries`
is not 0 and what the client reports can be stored. -/
theorem withinBudget_iff (cfg : RetrySettings) (event : WebhookEvent) (deviceId outageId : Option String)
    (signatureVersion : ℤ) (webhookId : ℕ) (calls : List (DeliveryCall cfg.jitterMode)) :
    (∀ before, before <+: calls → WithinBudget cfg (cfg.webhook webhookId)
      (History.after cfg (createDelivery event deviceId outageId signatureVersion webhookId) before)) ↔
      Guarded (History.call cfg) (InTime cfg (cfg.webhook webhookId))
        ⟨createDelivery event deviceId outageId signatureVersion webhookId, 0, 0, []⟩ calls := by
  have hcounted : ∀ h call h', Counted cfg webhookId h → History.call cfg h call = some h' →
      Counted cfg webhookId h' := by
    intro h call h' hcounted hcall
    exact Option.some.inj hcall ▸ hcounted.step call
  have hkeep : ∀ h call h', Counted cfg webhookId h ∧ WithinBudget cfg (cfg.webhook webhookId) h →
      History.call cfg h call = some h' →
      (Counted cfg webhookId h' ∧ WithinBudget cfg (cfg.webhook webhookId) h' ↔
        InTime cfg (cfg.webhook webhookId) h call) := by
    rintro h call h' ⟨hc, hwithin⟩ hcall
    rw [and_iff_right (hcounted h call h' hc hcall), ← Option.some.inj hcall]
    exact withinBudget_step_iff hc hwithin call
  have howner : (createDelivery event deviceId outageId signatureVersion webhookId).webhookId = webhookId := rfl
  have hcreated := @counted_created cfg webhookId _ howner rfl rfl rfl rfl [] (List.forall_mem_nil _)
  rw [← forall_prefix_iff_guarded hkeep hcreated (run_call cfg _ calls)]
  constructor
  · intro hwithin before h hbefore hrun
    refine ⟨run_invariant hcounted hcreated.1 hrun, ?_⟩
    rw [run_call, Option.some.injEq] at hrun
    exact hrun ▸ hwithin before hbefore
  · intro hboth before hbefore
    exact (hboth before _ hbefore (run_call cfg _ before)).2

end Histories

theorem threeDelays_ne : [30, 120, 600] ≠ [] := by decide

theorem oneHour_pos : (0 : ℤ) < 3600000000 := by decide

/-- A webhook registered with so many retries, three delays, and no jitter. -/
def retrying (maxRetries : ℕ) : RetrySettings where
  webhook _ := ⟨["203.0.113.7"], maxRetries⟩
  retryDelays := [30, 120, 600]
  retryDelays_ne := threeDelays_ne
  retryMaxDelay := 3600000000
  celeryAvailable := true
  jitterMode := .unchanged
  retryMaxDelay_pos := oneHour_pos

/-- A request to which the receiver answers with a server error. -/
def serverError (text : List ℕ) : DispatchEnv .unchanged where
  now := 0
  resolve := .ok ["203.0.113.7"]
  breakerAllows := true
  http := .response 500 text
  jitter := id
  secret := none
  brokerUp := true
  jittered _ _ := rfl

/-- Without retries, the delivery is not given up after its first failure, and a second request is posted. With one
retry it is not given up after its second failure, to which the receiver has answered a NUL. -/
theorem noRetries_retried :
    ¬ WithinBudget (retrying 0) ((retrying 0).webhook 0)
        (History.after (retrying 0) (createDelivery .slaViolation none none 2 0)
          [.dispatch (serverError (codePoints "down")), .dispatch (serverError (codePoints "down"))]) ∧
      ¬ WithinBudget (retrying 1) ((retrying 1).webhook 0)
        (History.after (retrying 1) (createDelivery .slaViolation none none 2 0)
          [.dispatch (serverError (codePoints "down")), .dispatch (serverError [0])]) := by
  constructor
  · intro h
    have hposts := h.posts_le
    revert hposts
    decide +kernel
  · intro h
    have hdead := h.dead_iff
    revert hdead
    decide +kernel

end ApexChainx.Webhooks.RetryBudget
