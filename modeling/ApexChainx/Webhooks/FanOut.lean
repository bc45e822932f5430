import ApexChainx.RateLimit.EventLocal
import ApexChainx.Webhooks.Delivery
import ApexChainx.Webhooks.Subscribers

/-!
# The fan-out of an event

`EventListener` (`app/services/event_listener.py`) over the table of webhooks and the event budget, and the
deliveries that `trigger_sla_violation_webhooks` (`app/services/webhook_service.py`) creates by its plan. The plan
lets the subscribers through first; then one delivery after another is created and dispatched, and an exception
out of a dispatch ends the loop. `fan_out_spec` says of whole runs who is let through, every active subscriber that
has been let through less often than the limit in the window, and who of them gets a delivery.

The listener is one without Redis and, as the service builds it, without a policy.
-/

namespace ApexChainx.Webhooks

open ApexChainx.Lib ApexChainx.RateLimit ApexChainx.RateLimit.EventLimiter

/-- The value of an event. -/
def WebhookEvent.value : WebhookEvent → String
  | .slaViolation => "sla.violation"
  | .slaWarning => "sla.warning"
  | .slaResolved => "sla.resolved"

/-- `SubscriberDecision`. -/
structure SubscriberDecision where
  webhook : WebhookRow
  allowed : Bool
  reason : Option String
deriving DecidableEq, Repr

/-- A policy of a listener. -/
abbrev FanOutPolicy := WebhookEvent → WebhookRow → SubscriberDecision

/-- `_decide`. -/
def decideSubscriber (policy : Option FanOutPolicy) (event : WebhookEvent) (webhook : WebhookRow) :
    SubscriberDecision :=
  match policy with
  | none => ⟨webhook, true, none⟩
  | some policy => policy event webhook

/-- `_check_rate_limit`, with the readings of the clock for the check and for the hint. -/
def checkRateLimit (cfg : EventSettings) (requests : Requests) (subscriberId : String) (now hintNow : ℤ) :
    (Bool × Option String) × Requests :=
  let (allowed, requests) := allowLocal cfg requests subscriberId now
  if allowed then ((true, none), requests)
  else
    let retryAfter := retryAfterSeconds cfg requests subscriberId hintNow
    ((false, some ("subscriber is over its event budget; retry in " ++ toString retryAfter ++ "s")), requests)

/-- The readings of the monotonic clock during an action: for each subscriber that is checked, and its hint. -/
structure Clock where
  check : ℕ → ℤ
  hint : ℕ → ℤ

section Plan

variable (cfg : EventSettings) (clock : Clock) (policy : Option FanOutPolicy) (event : WebhookEvent)

/-- The loop of `dispatch_plan`, from the subscriber number `k` on. -/
def planFrom (k : ℕ) (requests : Requests) : List WebhookRow → List SubscriberDecision × Requests
  | [] => ([], requests)
  | webhook :: webhooks =>
      let checked := checkRateLimit cfg requests (toString webhook.id) (clock.check k) (clock.hint k)
      let decision :=
        if checked.1.1 then decideSubscriber policy event webhook else ⟨webhook, false, checked.1.2⟩
      let rest := planFrom (k + 1) checked.2 webhooks
      (decision :: rest.1, rest.2)

end Plan

/-- The database's `LIKE`, and how Python shows a text. -/
structure FanOutEnv where
  mapping : CaseMapping
  repr : String → String

/-- `subscribers`. -/
def subscribers (env : FanOutEnv) (table : List WebhookRow) (event : WebhookEvent) :
    Except SubscriberError (List WebhookRow) :=
  subscribersForEvent env.mapping env.repr table event.value

/-- `dispatch_plan`. -/
def dispatchPlan (env : FanOutEnv) (cfg : EventSettings) (clock : Clock) (policy : Option FanOutPolicy)
    (table : List WebhookRow) (requests : Requests) (event : WebhookEvent) :
    Except SubscriberError (List SubscriberDecision × Requests) :=
  (subscribers env table event).map (planFrom cfg clock policy event 0 requests)

/-! ## Runs -/

/-- A subscriber that a plan let through, by the delivery that the trigger is to create for it, and the reading of
the clock at the check. -/
structure Admission where
  delivery : WebhookDelivery
  checkedAt : ℤ
deriving DecidableEq, Repr

/-- The table, the budget of the process, the subscribers that were let through and the deliveries that were created,
in order. -/
structure FanOutState where
  table : List WebhookRow
  requests : Requests
  admitted : List Admission
  created : List Admission

/-- What can happen: a write to the table, `trigger_sla_violation_webhooks` for an event with its data, and a sweep
of the budget. -/
inductive FanOutAction
  | write (w : WebhookWrite)
  | trigger (event : WebhookEvent) (deviceId outageId : Option String) (signatureVersion : ℤ)
  | cullExpired

/-- An action, with the readings of the clock during it, and what the dispatch of the delivery to a webhook raises. -/
structure FanOutStep where
  action : FanOutAction
  clock : Clock
  dispatchError : ℕ → Option ApiError

/-- The subscribers that a plan lets through, whose decisions are from the subscriber number `k` on. -/
def admittedFrom (event : WebhookEvent) (deviceId outageId : Option String) (signatureVersion : ℤ) (clock : Clock)
    (k : ℕ) (decisions : List SubscriberDecision) : List Admission :=
  (decisions.zipIdx k).filterMap fun d =>
    if d.1.allowed then
      some ⟨createDelivery event deviceId outageId signatureVersion d.1.webhook.id, clock.check d.2⟩
    else none

/-- The loop of `trigger_sla_violation_webhooks` over the decisions: the deliveries it creates. -/
def createFrom (event : WebhookEvent) (deviceId outageId : Option String) (signatureVersion : ℤ) (clock : Clock)
    (dispatchError : ℕ → Option ApiError) : ℕ → List SubscriberDecision → List Admission
  | _, [] => []
  | k, decision :: decisions =>
      if decision.allowed then
        ⟨createDelivery event deviceId outageId signatureVersion decision.webhook.id, clock.check k⟩ ::
          match dispatchError decision.webhook.id with
          | none => createFrom event deviceId outageId signatureVersion clock dispatchError (k + 1) decisions
          | some _ => []
      else createFrom event deviceId outageId signatureVersion clock dispatchError (k + 1) decisions

/-- One action. -/
def FanOutState.step (env : FanOutEnv) (cfg : EventSettings) (s : FanOutState) (t : FanOutStep) : FanOutState :=
  match t.action with
  | .write w => { s with table := w.apply s.table }
  | .trigger event deviceId outageId signatureVersion =>
      match dispatchPlan env cfg t.clock none s.table s.requests event with
      | .error _ => s
      | .ok (decisions, requests) =>
          { s with
            requests := requests
            admitted := s.admitted ++ admittedFrom event deviceId outageId signatureVersion t.clock 0 decisions
            created := s.created ++
              createFrom event deviceId outageId signatureVersion t.clock t.dispatchError 0 decisions }
  | .cullExpired => { s with requests := (s.requests.cullExpired cfg.window (t.clock.check 0)).1 }

/-- The state after a run from an empty table. -/
def fanOutAfter (env : FanOutEnv) (cfg : EventSettings) (steps : List FanOutStep) : FanOutState :=
  steps.foldl (FanOutState.step env cfg) ⟨[], [], [], []⟩

/-- The clock goes on from one check to the next. -/
def InOrder (steps : List FanOutStep) : Prop :=
  (∀ t ∈ steps, Monotone t.clock.check) ∧ steps.Pairwise fun t u => ∀ j k, t.clock.check j ≤ u.clock.check k

/-- The id that an action takes for a new webhook. -/
def FanOutStep.createdId (t : FanOutStep) : Option ℕ :=
  match t.action with
  | .write (.create id _ _) => some id
  | _ => none

/-- No two webhooks are created under one id. -/
def FreshIds (steps : List FanOutStep) : Prop := (steps.filterMap FanOutStep.createdId).Nodup

instance (steps : List FanOutStep) : Decidable (FreshIds steps) := inferInstanceAs (Decidable (List.Nodup _))

/-- How often a webhook has been let through after a time. -/
def admittedAfter (admitted : List Admission) (webhookId : ℕ) (start : ℤ) : ℕ :=
  admitted.countP fun c => decide (c.delivery.webhookId = webhookId) && decide (start < c.checkedAt)

/-- The webhooks that an event is meant for: active, not deleted, and with the event in their list. -/
def meantFor (table : List WebhookRow) (event : WebhookEvent) : List WebhookRow :=
  table.filter fun row => row.isActive && row.deletedAt.isNone && isSubscribed row event.value

/-- The webhooks that a trigger should let through, from the webhook number `k` on: each that has been let through less
often than `limit` in the window. -/
def dueFrom (cfg : EventSettings) (admitted : List Admission) (event : WebhookEvent)
    (deviceId outageId : Option String) (signatureVersion : ℤ) (clock : Clock) (k : ℕ) (webhooks : List WebhookRow) :
    List Admission :=
  (webhooks.zipIdx k).filterMap fun w =>
    if admittedAfter admitted w.1.id (clock.check w.2 - cfg.window) < cfg.limit then
      some ⟨createDelivery event deviceId outageId signatureVersion w.1.id, clock.check w.2⟩
    else none

/-- Those before whose delivery no dispatch has raised. -/
def untilRaised (dispatchError : ℕ → Option ApiError) : List Admission → List Admission
  | [] => []
  | a :: as => a :: if dispatchError a.delivery.webhookId = none then untilRaised dispatchError as else []

/-! ## The plan of one trigger -/

/-- The subscribers let through as the budget counts them. -/
def hitsOf (admitted : List Admission) : List (String × ℤ) :=
  admitted.map fun c => (toString c.delivery.webhookId, c.checkedAt)

theorem hitsAfter_hitsOf (admitted : List Admission) (webhookId : ℕ) (start : ℤ) :
    hitsAfter start (toString webhookId) (hitsOf admitted) = admittedAfter admitted webhookId start := by
  rw [hitsAfter_eq_countP, hitsOf, List.countP_map, admittedAfter]
  refine List.countP_congr fun c _ => ?_
  have hid : toString c.delivery.webhookId = toString webhookId ↔ c.delivery.webhookId = webhookId :=
    ⟨fun h => Nat.repr_injective h, fun h => by rw [h]⟩
  simp only [Function.comp_apply, hid]

variable {env : FanOutEnv} {cfg : EventSettings} {now : ℤ} {requests : Requests} {admitted admitted₀ : List Admission}
  {clock : Clock} {event : WebhookEvent} {deviceId outageId : Option String} {signatureVersion : ℤ}
  {dispatchError : ℕ → Option ApiError} {webhooks : List WebhookRow} {k : ℕ}

/-- The budget has counted the subscribers that were let through, and no others. -/
structure Budgeted (cfg : EventSettings) (now : ℤ) (admitted : List Admission) (requests : Requests) : Prop where
  tracks : SimpleTracks cfg.window now (hitsOf admitted) requests
  admitted : Admitted cfg.window cfg.limit (hitsOf admitted)

theorem Budgeted.later (h : Budgeted cfg now admitted requests) {now' : ℤ} (hle : now ≤ now') :
    Budgeted cfg now' admitted requests :=
  ⟨h.tracks.later hle, h.admitted⟩

theorem checkRateLimit_eq (cfg : EventSettings) (requests : Requests) (subscriberId : String) (now hintNow : ℤ) :
    let checked := checkRateLimit cfg requests subscriberId now hintNow
    checked.1.1 = (allowLocal cfg requests subscriberId now).1 ∧
      checked.2 = (allowLocal cfg requests subscriberId now).2 := by
  unfold checkRateLimit
  obtain ⟨allowed, requests'⟩ := allowLocal cfg requests subscriberId now
  cases allowed with
  | true => exact ⟨rfl, rfl⟩
  | false => exact ⟨rfl, rfl⟩

/-- A check lets a webhook through when it was let through less often than the limit, and counts this time too. -/
theorem Budgeted.check (h : Budgeted cfg now admitted requests) (hintNow : ℤ) (delivery : WebhookDelivery) :
    let checked := checkRateLimit cfg requests (toString delivery.webhookId) now hintNow
    checked.1.1 = decide (admittedAfter admitted delivery.webhookId (now - cfg.window) < cfg.limit) ∧
      Budgeted cfg now (admitted ++ if checked.1.1 then [⟨delivery, now⟩] else []) checked.2 := by
  obtain ⟨hallowed, hrequests⟩ := checkRateLimit_eq cfg requests (toString delivery.webhookId) now hintNow
  obtain ⟨hdecision, htracks⟩ := allowLocal_tracks h.tracks (toString delivery.webhookId)
  dsimp only at hallowed hrequests ⊢
  rw [hallowed, hrequests, hdecision]
  have hcount := hitsAfter_hitsOf admitted delivery.webhookId (now - cfg.window)
  by_cases hfull : cfg.limit ≤ hitsAfter (now - cfg.window) (toString delivery.webhookId) (hitsOf admitted)
  · have hstep : windowStep cfg.window cfg.limit (hitsOf admitted) (toString delivery.webhookId, now)
        = (false, hitsOf admitted) := if_pos hfull
    rw [hstep] at htracks ⊢
    rw [hcount] at hfull
    refine ⟨(decide_eq_false (not_lt.mpr hfull)).symm, ?_⟩
    rw [if_neg Bool.false_ne_true, List.append_nil]
    exact ⟨htracks, h.admitted⟩
  · have hstep : windowStep cfg.window cfg.limit (hitsOf admitted) (toString delivery.webhookId, now)
        = (true, hitsOf admitted ++ [(toString delivery.webhookId, now)]) := if_neg hfull
    have hfree := not_le.mp hfull
    have hlog : hitsOf (admitted ++ [⟨delivery, now⟩]) = hitsOf admitted ++ [(toString delivery.webhookId, now)] :=
      List.map_append
    rw [hstep] at htracks ⊢
    rw [hcount] at hfull
    refine ⟨(decide_eq_true (not_le.mp hfull)).symm, ?_⟩
    rw [if_pos rfl]
    refine ⟨?_, ?_⟩
    · rw [hlog]
      exact htracks
    · rw [hlog]
      exact h.admitted.append hfree

theorem admittedFrom_cons (decision : SubscriberDecision) (decisions : List SubscriberDecision) (k : ℕ) :
    admittedFrom event deviceId outageId signatureVersion clock k (decision :: decisions)
      = (if decision.allowed then
          [⟨createDelivery event deviceId outageId signatureVersion decision.webhook.id, clock.check k⟩] else [])
        ++ admittedFrom event deviceId outageId signatureVersion clock (k + 1) decisions := by
  rw [admittedFrom, admittedFrom, List.zipIdx_cons, List.filterMap_cons]
  dsimp only
  split_ifs <;> rfl

theorem dueFrom_cons (cfg : EventSettings) (admitted : List Admission) (webhook : WebhookRow)
    (webhooks : List WebhookRow) (k : ℕ) :
    dueFrom cfg admitted event deviceId outageId signatureVersion clock k (webhook :: webhooks)
      = (if admittedAfter admitted webhook.id (clock.check k - cfg.window) < cfg.limit then
          [⟨createDelivery event deviceId outageId signatureVersion webhook.id, clock.check k⟩] else [])
        ++ dueFrom cfg admitted event deviceId outageId signatureVersion clock (k + 1) webhooks := by
  rw [dueFrom, dueFrom, List.zipIdx_cons, List.filterMap_cons]
  dsimp only
  split_ifs <;> rfl

/-- That one webhook was let through does not count for another. -/
theorem admittedAfter_append_of_ne {c : Admission} {webhookId : ℕ} (hne : c.delivery.webhookId ≠ webhookId)
    (start : ℤ) : admittedAfter (admitted ++ [c]) webhookId start = admittedAfter admitted webhookId start := by
  rw [admittedAfter, List.countP_append, List.countP_singleton, admittedAfter]
  simp [hne]

/-- The plan lets the webhooks through that are due, and the budget has counted them. -/
theorem planFrom_admitted (event : WebhookEvent) (deviceId outageId : Option String) (signatureVersion : ℤ)
    (hclock : Monotone clock.check) (h : Budgeted cfg now admitted requests)
    (hnow : now ≤ clock.check k) (hnodup : (webhooks.map WebhookRow.id).Nodup)
    (hsame : ∀ w ∈ webhooks, ∀ start, admittedAfter admitted w.id start = admittedAfter admitted₀ w.id start) :
    let plan := planFrom cfg clock none event k requests webhooks
    admittedFrom event deviceId outageId signatureVersion clock k plan.1
        = dueFrom cfg admitted₀ event deviceId outageId signatureVersion clock k webhooks ∧
      Budgeted cfg (clock.check (k + webhooks.length))
        (admitted ++ dueFrom cfg admitted₀ event deviceId outageId signatureVersion clock k webhooks) plan.2 := by
  induction webhooks generalizing now admitted requests k with
  | nil => exact ⟨rfl, by simpa [dueFrom, planFrom] using h.later hnow⟩
  | cons webhook webhooks ih =>
      obtain ⟨hnotin, hnodup⟩ := List.nodup_cons.mp hnodup
      obtain ⟨hwebhook, hsame⟩ := List.forall_mem_cons.mp hsame
      let delivery := createDelivery event deviceId outageId signatureVersion webhook.id
      let checked := checkRateLimit cfg requests (toString webhook.id) (clock.check k) (clock.hint k)
      let first : List Admission := if checked.1.1 then [⟨delivery, clock.check k⟩] else []
      obtain ⟨hdecision, hbudgeted⟩ : checked.1.1 = decide (admittedAfter admitted webhook.id
          (clock.check k - cfg.window) < cfg.limit) ∧ Budgeted cfg (clock.check k) (admitted ++ first) checked.2 :=
        (h.later hnow).check (clock.hint k) delivery
      have hfirst : first = if admittedAfter admitted₀ webhook.id (clock.check k - cfg.window) < cfg.limit then
          [⟨delivery, clock.check k⟩] else [] := by
        simp only [first, hdecision, decide_eq_true_eq, hwebhook]
      have hrest : ∀ w ∈ webhooks, ∀ start,
          admittedAfter (admitted ++ first) w.id start = admittedAfter admitted₀ w.id start := by
        intro w hw start
        have hne : webhook.id ≠ w.id := fun heq => hnotin (heq ▸ List.mem_map_of_mem hw)
        rw [← hsame w hw start]
        simp only [first]
        split_ifs
        · exact admittedAfter_append_of_ne (c := ⟨delivery, clock.check k⟩) hne start
        · rw [List.append_nil]
      obtain ⟨hcreated, hlast⟩ := ih hbudgeted (hclock (Nat.le_succ k)) hnodup hrest
      have hplan : planFrom cfg clock none event k requests (webhook :: webhooks)
          = ((if checked.1.1 then ⟨webhook, true, none⟩ else ⟨webhook, false, checked.1.2⟩) ::
              (planFrom cfg clock none event (k + 1) checked.2 webhooks).1,
            (planFrom cfg clock none event (k + 1) checked.2 webhooks).2) := rfl
      have hdue : dueFrom cfg admitted₀ event deviceId outageId signatureVersion clock k (webhook :: webhooks)
          = first ++ dueFrom cfg admitted₀ event deviceId outageId signatureVersion clock (k + 1) webhooks := by
        rw [dueFrom_cons, hfirst]
      refine ⟨?_, ?_⟩
      · rw [hplan, hdue, admittedFrom_cons, hcreated]
        cases hallowed : checked.1.1 <;> simp only [first, hallowed] <;> rfl
      · rw [hplan, hdue, List.length_cons, ← List.append_assoc, Nat.add_comm webhooks.length, ← Nat.add_assoc]
        exact hlast

/-! ## The loop of one trigger -/

theorem createFrom_eq (event : WebhookEvent) (deviceId outageId : Option String) (signatureVersion : ℤ) (clock : Clock)
    (dispatchError : ℕ → Option ApiError) (k : ℕ) (decisions : List SubscriberDecision) :
    createFrom event deviceId outageId signatureVersion clock dispatchError k decisions
      = untilRaised dispatchError (admittedFrom event deviceId outageId signatureVersion clock k decisions) := by
  induction decisions generalizing k with
  | nil => rfl
  | cons decision decisions ih =>
      rw [admittedFrom_cons, createFrom]
      cases decision.allowed with
      | false => simpa using ih (k + 1)
      | true =>
          simp only [if_true, List.cons_append, List.nil_append, untilRaised]
          cases herror : dispatchError decision.webhook.id with
          | none => simp [createDelivery, herror, ih (k + 1)]
          | some e => simp [createDelivery, herror]

theorem untilRaised_sublist (dispatchError : ℕ → Option ApiError) (admitted : List Admission) :
    (untilRaised dispatchError admitted).Sublist admitted := by
  induction admitted with
  | nil => exact List.Sublist.slnil
  | cons a as ih =>
      unfold untilRaised
      split
      · exact ih.cons_cons a
      · exact (List.nil_sublist as).cons_cons a

/-! ## Whole runs -/

theorem fanOutAfter_concat (env : FanOutEnv) (cfg : EventSettings) (steps : List FanOutStep) (t : FanOutStep) :
    fanOutAfter env cfg (steps ++ [t]) = (fanOutAfter env cfg steps).step env cfg t := by
  rw [fanOutAfter, List.foldl_append]
  rfl

/-- An event of the enumeration has a value that the query accepts. -/
theorem matchesEventPattern_value (event : WebhookEvent) : matchesEventPattern event.value = true := by
  cases event <;> decide +kernel

theorem subscribers_eq (env : FanOutEnv) {table : List WebhookRow} (hwritten : EventsWritten table)
    (event : WebhookEvent) : subscribers env table event = .ok (meantFor table event) :=
  (subscribersForEvent_eq env.mapping env.repr hwritten (matchesEventPattern_value event)).1

/-- What a run leaves: a table of written rows with different ids, a budget that has counted the subscribers let
through, and no delivery to another one. -/
structure FanOutInv (cfg : EventSettings) (now : ℤ) (s : FanOutState) : Prop where
  written : EventsWritten s.table
  nodup : (s.table.map WebhookRow.id).Nodup
  budgeted : Budgeted cfg now s.admitted s.requests
  created : s.created.Sublist s.admitted

/-- A trigger lets the subscribers through that are due, and creates deliveries up to the first that raises. -/
theorem FanOutInv.trigger {s : FanOutState} (h : FanOutInv cfg now s) (env : FanOutEnv) (hclock : Monotone clock.check)
    (hnow : now ≤ clock.check 0) (event : WebhookEvent) (deviceId outageId : Option String) (signatureVersion : ℤ)
    (dispatchError : ℕ → Option ApiError) :
    let due := dueFrom cfg s.admitted event deviceId outageId signatureVersion clock 0 (meantFor s.table event)
    let s' := s.step env cfg ⟨.trigger event deviceId outageId signatureVersion, clock, dispatchError⟩
    s'.admitted = s.admitted ++ due ∧ s'.created = s.created ++ untilRaised dispatchError due ∧
      FanOutInv cfg (clock.check (meantFor s.table event).length) s' := by
  intro due s'
  have hnodup : ((meantFor s.table event).map WebhookRow.id).Nodup :=
    h.nodup.sublist (List.filter_sublist.map WebhookRow.id)
  obtain ⟨hadmitted, hbudgeted⟩ := planFrom_admitted event deviceId outageId signatureVersion hclock h.budgeted hnow
    hnodup fun _ _ _ => rfl
  have hstep : s' = { s with
      requests := (planFrom cfg clock none event 0 s.requests (meantFor s.table event)).2
      admitted := s.admitted ++ due
      created := s.created ++ untilRaised dispatchError due } := by
    simp only [s', due, FanOutState.step, dispatchPlan, subscribers_eq env h.written, Except.map, createFrom_eq,
      hadmitted]
  rw [hstep]
  rw [Nat.zero_add] at hbudgeted
  exact ⟨rfl, rfl, h.written, h.nodup, hbudgeted, h.created.append (untilRaised_sublist dispatchError due)⟩

theorem table_step (s : FanOutState) (t : FanOutStep) :
    (s.step env cfg t).table = match t.action with
      | .write w => w.apply s.table
      | _ => s.table := by
  obtain ⟨action, clock, dispatchError⟩ := t
  cases action with
  | write w => rfl
  | cullExpired => rfl
  | trigger event deviceId outageId signatureVersion =>
      simp only [FanOutState.step]
      cases dispatchPlan env cfg clock none s.table s.requests event <;> rfl

theorem map_id_apply (w : WebhookWrite) (table : List WebhookRow) :
    (w.apply table).map WebhookRow.id
      = table.map WebhookRow.id ++ (match w with | .create id _ _ => [id] | _ => []) := by
  cases w with
  | create id events isActive => exact List.map_append
  | update id events isActive =>
      rw [WebhookWrite.apply, List.map_map, List.append_nil]
      refine List.map_congr_left fun row _ => ?_
      simp only [Function.comp_apply]
      split <;> rfl
  | delete id now =>
      rw [WebhookWrite.apply, List.map_map, List.append_nil]
      refine List.map_congr_left fun row _ => ?_
      simp only [Function.comp_apply]
      split <;> rfl

/-- The ids of the table are those that were taken for new webhooks. -/
theorem map_id_table (env : FanOutEnv) (cfg : EventSettings) (steps : List FanOutStep) :
    (fanOutAfter env cfg steps).table.map WebhookRow.id = steps.filterMap FanOutStep.createdId := by
  induction steps using List.reverseRecOn with
  | nil => rfl
  | append_singleton steps t ih =>
      obtain ⟨action, clock, dispatchError⟩ := t
      rw [fanOutAfter_concat, table_step, List.filterMap_append, ← ih]
      cases action with
      | write w =>
          rw [map_id_apply]
          cases w <;> rfl
      | trigger event deviceId outageId signatureVersion => exact (List.append_nil _).symm
      | cullExpired => exact (List.append_nil _).symm

/-- Whatever happens, the budget has counted the subscribers let through and no others. -/
theorem fanOutInv_after (env : FanOutEnv) (cfg : EventSettings) {steps : List FanOutStep} (horder : InOrder steps)
    (hfresh : FreshIds steps) {now : ℤ} (hnow : ∀ t ∈ steps, ∀ j, t.clock.check j ≤ now) :
    FanOutInv cfg now (fanOutAfter env cfg steps) := by
  induction steps using List.reverseRecOn generalizing now with
  | nil =>
      exact ⟨List.forall_mem_nil _, List.nodup_nil, ⟨SimpleTracks.empty _ _, admitted_nil _ _⟩, List.Sublist.slnil⟩
  | append_singleton steps t ih =>
      obtain ⟨hmonotone, hpairwise⟩ := horder
      obtain ⟨hsteps, -, hlast⟩ := List.pairwise_append.mp hpairwise
      have hfresh' : FreshIds steps := by
        rw [FreshIds, List.filterMap_append] at hfresh
        exact (List.nodup_append.mp hfresh).1
      have hnodup : ((fanOutAfter env cfg (steps ++ [t])).table.map WebhookRow.id).Nodup := by
        rw [map_id_table]
        exact hfresh
      have hbefore : ∀ u ∈ steps, ∀ j, u.clock.check j ≤ t.clock.check 0 :=
        fun u hu j => hlast u hu t (List.mem_singleton_self t) j 0
      have hinv := ih ⟨fun u hu => hmonotone u (List.mem_append_left _ hu), hsteps⟩ hfresh' hbefore
      have hclock : Monotone t.clock.check := hmonotone t (by simp)
      have hend : ∀ j, t.clock.check j ≤ now := hnow t (by simp)
      rw [fanOutAfter_concat] at hnodup ⊢
      obtain ⟨action, clock, dispatchError⟩ := t
      cases action with
      | write w => exact ⟨hinv.written.apply w, hnodup, hinv.budgeted.later (hend 0), hinv.created⟩
      | trigger event deviceId outageId signatureVersion =>
          obtain ⟨-, -, hafter⟩ :=
            hinv.trigger env hclock le_rfl event deviceId outageId signatureVersion dispatchError
          exact ⟨hafter.written, hafter.nodup, hafter.budgeted.later (hend _), hafter.created⟩
      | cullExpired =>
          exact ⟨hinv.written, hnodup,
            (⟨hinv.budgeted.tracks.cullExpired, hinv.budgeted.admitted⟩ : Budgeted cfg _ _ _).later (hend 0),
            hinv.created⟩

/-- A clock that stands still. -/
def Clock.at (now : ℤ) : Clock := ⟨fun _ => now, fun _ => now⟩

/-- An action whose dispatches do not raise. -/
def FanOutStep.quiet (action : FanOutAction) (now : ℤ) : FanOutStep := ⟨action, .at now, fun _ => none⟩

/-- Three webhooks, one of which has used its budget of one delivery in ten ticks up. -/
def sampleFanOut : List FanOutStep :=
  [.quiet (.write (.create 1 ["sla.violation"] true)) 0, .quiet (.trigger .slaViolation none none 2) 1,
    .quiet (.write (.create 2 ["sla.violation"] true)) 2, .quiet (.write (.create 3 ["sla.violation"] true)) 3]

/-- The URL of webhook 2 does not resolve. -/
def unresolvedUrl (webhookId : ℕ) : Option ApiError :=
  if webhookId = 2 then some (.valueError "Could not resolve hostname: hooks.example.com") else none

end ApexChainx.Webhooks
