import ApexChainx.Lib.Table
import ApexChainx.Webhooks.Delivery

/-!
# Deliveries that can still move

A delivery that is neither delivered nor dead-lettered should be in the hands of a dispatch, or be one
that the next due sweep picks and its dispatch claims. The sweep selects `retrying` and `breaker_open`,
the claim accepts `pending` and `retrying`; a delivery deferred by the circuit breaker is `breaker_open`
with no retry time of its own, and one whose attempt or last commit raised stays `sending`. Neither is ever
claimed again, and a new delivery whose task the broker did not take stays `pending`. In the runs without the
three, no delivery is stuck.

A dispatch carries a delivery from its claim to its last commit. The invariant is that a `sending`
delivery is carried, and a `pending` one is carried or about to be claimed. An attempt that loaded its
delivery as `retrying`, which happens when a replay has put two dispatches on it, does not carry it: if
it ends in `retrying` again its commit leaves the status alone.
-/

namespace ApexChainx.Webhooks

open ApexChainx.Lib

variable {cfg : WebhookSettings} {env : Env}

/-! ## The law -/

/-- The delivery a statement is part of the dispatch of. -/
def Work.dispatches : Work → Option ℕ
  | .enqueue id | .claim id | .load id | .attempt id _ => some id
  | _ => none

/-- A dispatch of the delivery is running or queued. -/
def Sys.Dispatching (s : Sys) (id : ℕ) : Prop :=
  ∃ t ∈ s.threads, ∃ w ∈ t.work, w.dispatches = some id

instance (s : Sys) (id : ℕ) : Decidable (s.Dispatching id) :=
  inferInstanceAs (Decidable (∃ t ∈ s.threads, ∃ w ∈ t.work, w.dispatches = some id))

/-- A sweep will pick the delivery, and the dispatch it starts will claim it. -/
def Recoverable (d : WebhookDelivery) : Prop :=
  sweepable d.status = true ∧ claimable d.status = true ∧ d.nextRetryAt ≠ none

instance (d : WebhookDelivery) : Decidable (Recoverable d) := inferInstanceAs (Decidable (_ ∧ _ ∧ _))

/-- No delivery is stuck. -/
def Sys.NoneStuck (s : Sys) : Prop :=
  ∀ id d, s.deliveries[id]? = some d → d.status ≠ .success → d.status ≠ .deadLetter →
    ¬ s.Dispatching id → Recoverable d

/-- What `Recoverable` is for: from its retry time on, a sweep whose batch holds the table lists the
delivery, and a claim takes it. -/
theorem swept_of_recoverable {ds : List WebhookDelivery} {id : ℕ} {d : WebhookDelivery}
    (hd : ds[id]? = some d) (h : Recoverable d) : ∃ due, d.nextRetryAt = some due ∧
      ∀ now, due ≤ now → id ∈ dueDeliveries now ds.length ds ∧
        (workStep cfg env ds (.claim id)).deliveries = ds.set id (claimed d) := by
  obtain ⟨hsweep, hclaim, hnext⟩ := h
  obtain ⟨due, hdue⟩ := Option.ne_none_iff_exists'.mp hnext
  refine ⟨due, hdue, ?_⟩
  intro now hnow
  refine ⟨?_, by simp [workStep, hd, hclaim]⟩
  refine List.mem_map.mpr ⟨(d, id), ?_, rfl⟩
  rw [List.take_of_length_le]
  · rw [List.mem_insertionSort, List.mem_filter]
    exact ⟨List.mem_zipIdx_iff_getElem?.mpr hd, by simp [hsweep, hdue, hnow]⟩
  · rw [List.length_insertionSort]
    exact (List.length_filter_le _ _).trans (by simp)

/-! ## The condition -/

/-- The attempt goes out: the webhook's URL resolves, to an approved address if some are approved, and
the circuit breaker lets the request through. -/
def Unobstructed (env : Env) (webhook : Webhook) : Prop :=
  match env.resolve with
  | .error _ => False
  | .ok currentIps =>
      (webhook.resolvedIps = [] ∨ ∃ ip ∈ webhook.resolvedIps, ip ∈ currentIps) ∧
        env.breakerAllows = true

instance (env : Env) (webhook : Webhook) : Decidable (Unobstructed env webhook) :=
  match h : env.resolve with
  | .error _ => isFalse (by simp [Unobstructed, h])
  | .ok currentIps =>
      decidable_of_iff ((webhook.resolvedIps = [] ∨ ∃ ip ∈ webhook.resolvedIps, ip ∈ currentIps) ∧
        env.breakerAllows = true) (by simp only [Unobstructed, h])

/-- The attempt comes to a result and the result is stored: the payload can be signed, the attempt goes out, and what
the client reports can be stored. -/
structure Completes (env : Env) (webhook : Webhook) (delivery : WebhookDelivery) : Prop where
  signed : signatureError env.secret delivery.signatureVersion = none
  unobstructed : Unobstructed env webhook
  kept : env.http.Kept

instance (env : Env) (webhook : Webhook) (delivery : WebhookDelivery) :
    Decidable (Completes env webhook delivery) :=
  decidable_of_iff (signatureError env.secret delivery.signatureVersion = none ∧ Unobstructed env webhook ∧
    env.http.Kept) ⟨fun h => ⟨h.1, h.2.1, h.2.2⟩, fun h => ⟨h.signed, h.unobstructed, h.kept⟩⟩

/-- The statement is not an attempt, or one that completes, and the broker takes the task if it is an `enqueue`. -/
def Work.GoesThrough (cfg : WebhookSettings) (env : Env) : Work → Prop
  | .attempt _ seen => Completes env (cfg.webhook seen.webhookId) seen
  | .enqueue _ => env.brokerUp = true
  | _ => True

instance (cfg : WebhookSettings) (env : Env) : (w : Work) → Decidable (w.GoesThrough cfg env)
  | .attempt _ seen => inferInstanceAs (Decidable (Completes env (cfg.webhook seen.webhookId) seen))
  | .enqueue _ => inferInstanceAs (Decidable (env.brokerUp = true))
  | .create .. | .sweep _ | .replayQuery .. | .replay _ | .replayCommit .. | .claim _ | .load _ =>
      inferInstanceAs (Decidable True)

/-- The statement that the step executes goes through. -/
def GoesOut (cfg : WebhookSettings) (s : Sys) : Action → Prop
  | .start _ => True
  | .move i env => ∀ t ∈ s.threads[i]?, ∀ w ∈ t.work.head?, w.GoesThrough cfg env

instance (cfg : WebhookSettings) (s : Sys) : (a : Action) → Decidable (GoesOut cfg s a)
  | .start _ => inferInstanceAs (Decidable True)
  | .move i env =>
      inferInstanceAs (Decidable (∀ t ∈ s.threads[i]?, ∀ w ∈ t.work.head?, w.GoesThrough cfg env))

/-- A text that is written as it was, or can be stored, is no cause for the commit to fail. -/
theorem written_bind_storeError {α : Type} [DecidableEq α] {codes : α → List ℕ} {seen new : Option α}
    (h : new = seen ∨ ∀ a ∈ new, Storable (codes a)) :
    ((written seen new).bind fun a => storeError (codes a)) = none := by
  unfold written
  split_ifs with hsame
  · rfl
  · cases hnew : new with
    | none => rfl
    | some a => exact storeError_eq_none_iff.mpr (h.resolve_left hsame a hnew)

/-- An attempt that goes out, if what the client reports can be stored, leaves the status as loaded, and texts that
can be stored. -/
theorem attemptDelivery_spec {webhook : Webhook} {d : WebhookDelivery} (h : Completes env webhook d) :
    ∃ d' accepted, attemptDelivery env webhook d = .ok (d', accepted) ∧ d'.status = d.status ∧
      commitError d d' = none := by
  obtain ⟨hsigned, hgoes, hkept⟩ := h
  unfold Unobstructed at hgoes
  split at hgoes
  · cases hgoes
  rename_i ips hresolve
  obtain ⟨hips, hbreaker⟩ := hgoes
  have happroved : ¬ (webhook.resolvedIps ≠ [] ∧ ∀ ip ∈ webhook.resolvedIps, ip ∉ ips) := by
    rintro ⟨hne, hnone⟩
    rcases hips with hempty | ⟨ip, hip, hmem⟩
    · exact hne hempty
    · exact hnone ip hip hmem
  have hcommit : ∀ d' : WebhookDelivery,
      (d'.responseBody = d.responseBody ∨ ∀ body ∈ d'.responseBody, Storable body) →
      (d'.errorMessage = d.errorMessage ∨ ∀ message ∈ d'.errorMessage, Storable (codePoints message)) →
      commitError d d' = none := by
    intro d' hbody hmessage
    have hnone : (written d.responseBody d'.responseBody).bind storeError = none :=
      @written_bind_storeError _ _ id _ _ hbody
    rw [commitError, hnone, Option.none_or, written_bind_storeError hmessage]
  unfold attemptDelivery
  simp only [hsigned, hresolve, if_neg happroved, hbreaker, Bool.true_eq_false, if_false]
  cases hhttp : env.http with
  | response code text =>
      rw [hhttp] at hkept
      have hbody : ∀ body ∈ some (scrubResponseBody text), Storable body := fun _ heq => Option.some.inj heq ▸ hkept
      dsimp only
      split
      · exact ⟨_, _, rfl, rfl, hcommit _ (.inr hbody) (.inl rfl)⟩
      · refine ⟨_, _, rfl, rfl, hcommit _ (.inr hbody) (.inr fun message heq => ?_)⟩
        rw [← Option.some.inj heq]
        exact storable_append.mpr ⟨by decide, storable_natText code⟩
  | timeout text =>
      rw [hhttp] at hkept
      refine ⟨_, _, rfl, rfl, hcommit _ (.inl rfl) (.inr fun message heq => ?_)⟩
      rw [← Option.some.inj heq]
      exact storable_append.mpr ⟨by decide, hkept⟩
  | requestError text =>
      rw [hhttp] at hkept
      refine ⟨_, _, rfl, rfl, hcommit _ (.inl rfl) (.inr fun message heq => ?_)⟩
      rw [← Option.some.inj heq]
      exact storable_append.mpr ⟨by decide, hkept⟩
  | raised e =>
      rw [hhttp] at hkept
      cases hkept

/-- An attempt that completes settles the delivery or schedules a retry. -/
theorem attemptAndSchedule_spec {d : WebhookDelivery} (h : Completes env (cfg.webhook d.webhookId) d)
    (hd : d.status ≠ .breakerOpen) : ∃ new, attemptAndSchedule cfg env d = .ok new ∧ commitError d new = none ∧
      (new.status = .success ∨ new.status = .deadLetter ∨
        (new.status = .retrying ∧ new.nextRetryAt ≠ none)) := by
  obtain ⟨d', accepted, hattempt, hstatus, hcommit⟩ := attemptDelivery_spec h
  unfold attemptAndSchedule
  simp only [hattempt]
  cases accepted with
  | true => exact ⟨_, rfl, hcommit, .inl rfl⟩
  | false =>
      simp only [hstatus, if_neg hd]
      split
      · exact ⟨_, rfl, hcommit, .inr (.inr ⟨rfl, by simp⟩)⟩
      · exact ⟨_, rfl, hcommit, .inr (.inl rfl)⟩

/-! ## The invariant -/

/-- The statement is part of a dispatch that has claimed the delivery and will set its status. -/
def Work.Carries (id : ℕ) : Work → Prop
  | .load i => i = id
  | .attempt i seen => i = id ∧ seen.status ≠ .retrying
  | _ => False

/-- The statement belongs to a dispatch that carries the delivery or is about to claim it. -/
def Work.Owes (id : ℕ) (w : Work) : Prop := w = .enqueue id ∨ w = .claim id ∨ w.Carries id

/-- Some thread has a statement with the property before it. -/
def Sys.Has (s : Sys) (P : Work → Prop) : Prop := ∃ t ∈ s.threads, ∃ w ∈ t.work, P w

/-- What holds of a delivery in each status. -/
def RowOk (s : Sys) (id : ℕ) (d : WebhookDelivery) : Prop :=
  match d.status with
  | .pending => s.Has (Work.Owes id)
  | .sending => s.Has (Work.Carries id)
  | .retrying => d.nextRetryAt ≠ none
  | .success | .deadLetter => True
  | .failed | .breakerOpen => False

/-- What holds of the delivery a statement has loaded, in a table of `n` deliveries. -/
def Work.Ok (n : ℕ) : Work → Prop
  | .replayCommit id seen => id < n ∧ seen.status = .deadLetter
  | .attempt id seen =>
      id < n ∧ (seen.status = .pending ∨ seen.status = .sending ∨ seen.status = .retrying)
  | _ => True

structure Inv (s : Sys) : Prop where
  rows : ∀ id d, s.deliveries[id]? = some d → RowOk s id d
  work : ∀ t ∈ s.threads, ∀ w ∈ t.work, w.Ok s.deliveries.length

theorem inv_init : Inv Sys.init := by
  refine ⟨?_, ?_⟩
  · intro id d hd
    simp [Sys.init] at hd
  · intro t ht
    simp [Sys.init] at ht

theorem Work.Owes.dispatches {id : ℕ} {w : Work} (h : w.Owes id) : w.dispatches = some id := by
  rcases h with rfl | rfl | h
  · rfl
  · rfl
  · cases w with
    | load i => exact congrArg some h
    | attempt i seen => exact congrArg some h.1
    | _ => cases h

theorem Inv.noneStuck {s : Sys} (h : Inv s) : s.NoneStuck := by
  intro id d hd hsuccess hdead hfree
  have hfree' : ∀ {P : Work → Prop}, (∀ w, P w → w.Owes id) → ¬ s.Has P := by
    rintro P hP ⟨t, ht, w, hw, hPw⟩
    exact hfree ⟨t, ht, w, hw, (hP w hPw).dispatches⟩
  have hrow := h.rows id d hd
  unfold RowOk at hrow
  split at hrow
  · exact absurd hrow (hfree' fun _ hw => hw)
  · exact absurd hrow (hfree' fun _ hw => .inr (.inr hw))
  · rename_i hstatus
    exact ⟨by simp [sweepable, hstatus], by simp [claimable, hstatus], hrow⟩
  · rename_i hstatus
    exact absurd hstatus hsuccess
  · rename_i hstatus
    exact absurd hstatus hdead
  · cases hrow
  · cases hrow

/-- What holds of a delivery is kept while the dispatches it needs in its status are. -/
theorem RowOk.of_status {s s' : Sys} {id : ℕ} {d : WebhookDelivery} (h : RowOk s id d)
    (howes : d.status = .pending → s.Has (Work.Owes id) → s'.Has (Work.Owes id))
    (hcarries : s.Has (Work.Carries id) → s'.Has (Work.Carries id)) : RowOk s' id d := by
  unfold RowOk at h ⊢
  split
  · rename_i hstatus
    exact howes hstatus (by simpa only [*] using h)
  · exact hcarries (by simpa only [*] using h)
  · simpa only [*] using h
  · trivial
  · trivial
  · simp only [*] at h
  · simp only [*] at h

/-- What holds of a delivery does not depend on its other columns, if it has a retry time. -/
theorem RowOk.of_status_eq {s : Sys} {id : ℕ} {d d' : WebhookDelivery} (h : RowOk s id d)
    (hstatus : d'.status = d.status) (htime : d'.nextRetryAt ≠ none) : RowOk s id d' := by
  unfold RowOk at h ⊢
  rw [hstatus]
  by_cases hretry : d.status = .retrying
  · rw [hretry]
    exact htime
  · revert h
    cases hd : d.status with
    | retrying => exact absurd hd hretry
    | _ => exact fun h => h

theorem RowOk.live {s : Sys} {id : ℕ} {d : WebhookDelivery} (h : RowOk s id d)
    (hsuccess : d.status ≠ .success) (hdead : d.status ≠ .deadLetter) :
    d.status = .pending ∨ d.status = .sending ∨ d.status = .retrying := by
  unfold RowOk at h
  cases hstatus : d.status with
  | pending => exact .inl rfl
  | sending => exact .inr (.inl rfl)
  | retrying => exact .inr (.inr rfl)
  | success => exact absurd hstatus hsuccess
  | deadLetter => exact absurd hstatus hdead
  | failed => simp only [hstatus] at h
  | breakerOpen => simp only [hstatus] at h

theorem Work.Ok.mono {m n : ℕ} {w : Work} (hmn : m ≤ n) (h : w.Ok m) : w.Ok n := by
  cases w with
  | replayCommit id seen => exact ⟨Nat.lt_of_lt_of_le h.1 hmn, h.2⟩
  | attempt id seen => exact ⟨Nat.lt_of_lt_of_le h.1 hmn, h.2⟩
  | _ => trivial

/-! ## One statement -/

section Move

variable {s : Sys} {i : ℕ} {t : Thread} {w : Work} {rest : List Work}

/-- The system after thread `i` has executed its first statement. -/
def Sys.moved (s : Sys) (i : ℕ) (t : Thread) (rest : List Work) (ds : List WebhookDelivery)
    (next : List Work) (started : List Thread) : Sys :=
  ⟨ds, s.threads.set i { t with work := next ++ rest } ++ started⟩

/-- The other statements stay. -/
theorem has_moved {P : Work → Prop} (ht : s.threads[i]? = some t) (hwork : t.work = w :: rest)
    (ds : List WebhookDelivery) (next : List Work) (started : List Thread) (hw : ¬ P w)
    (h : s.Has P) : (s.moved i t rest ds next started).Has P := by
  obtain ⟨u, hu, v, hv, hPv⟩ := h
  obtain ⟨j, hj⟩ := List.mem_iff_getElem?.mp hu
  have hi : i < s.threads.length := (List.getElem?_eq_some_iff.mp ht).1
  by_cases hij : i = j
  · subst hij
    obtain rfl : t = u := Option.some.inj (ht.symm.trans hj)
    rw [hwork] at hv
    rcases List.mem_cons.mp hv with rfl | hrest
    · exact absurd hPv hw
    · refine ⟨{ t with work := next ++ rest }, ?_, v, List.mem_append_right _ hrest, hPv⟩
      exact List.mem_append_left _ (List.mem_set hi _)
  · refine ⟨u, List.mem_append_left _ (List.mem_of_getElem? (i := j) ?_), v, hv, hPv⟩
    rw [List.getElem?_set_ne hij]
    exact hj

/-- The statements that follow are there. -/
theorem has_next {P : Work → Prop} (ht : s.threads[i]? = some t) (ds : List WebhookDelivery)
    {next : List Work} (started : List Thread) {v : Work} (hv : v ∈ next) (hP : P v) :
    (s.moved i t rest ds next started).Has P := by
  have hi : i < s.threads.length := (List.getElem?_eq_some_iff.mp ht).1
  refine ⟨{ t with work := next ++ rest }, ?_, v, List.mem_append_left _ hv, hP⟩
  exact List.mem_append_left _ (List.mem_set hi _)

/-- A delivery that the statement neither carries nor is about to claim is as it was. -/
theorem rowOk_moved (h : Inv s) (ht : s.threads[i]? = some t) (hwork : t.work = w :: rest)
    (ds : List WebhookDelivery) (next : List Work) (started : List Thread) {id : ℕ}
    {d : WebhookDelivery} (hd : s.deliveries[id]? = some d) (hw : ¬ w.Owes id) :
    RowOk (s.moved i t rest ds next started) id d := by
  have hcarries : ¬ w.Carries id := fun hc => hw (.inr (.inr hc))
  exact (h.rows id d hd).of_status (fun _ => has_moved ht hwork ds next started hw)
    (has_moved ht hwork ds next started hcarries)

/-- A delivery of which the statement is no dispatch is as it was. -/
theorem rowOk_other (h : Inv s) (ht : s.threads[i]? = some t) (hwork : t.work = w :: rest)
    (ds : List WebhookDelivery) (next : List Work) (started : List Thread) {id : ℕ}
    {d : WebhookDelivery} (hd : s.deliveries[id]? = some d) (hw : w.dispatches ≠ some id) :
    RowOk (s.moved i t rest ds next started) id d :=
  rowOk_moved h ht hwork ds next started hd fun ho => hw ho.dispatches

/-- The statements after the step are sound if those that follow and those of new threads are. -/
theorem work_moved (h : Inv s) (ht : s.threads[i]? = some t) (hwork : t.work = w :: rest)
    {ds : List WebhookDelivery} {next : List Work} {started : List Thread}
    (hlen : s.deliveries.length ≤ ds.length) (hnext : ∀ v ∈ next, v.Ok ds.length)
    (hstarted : ∀ u ∈ started, ∀ v ∈ u.work, v.Ok ds.length) :
    ∀ u ∈ (s.moved i t rest ds next started).threads, ∀ v ∈ u.work, v.Ok ds.length := by
  intro u hu v hv
  rcases List.mem_append.mp hu with hset | hnew
  · rcases List.mem_or_eq_of_mem_set hset with hold | rfl
    · exact (h.work u hold v hv).mono hlen
    · rcases List.mem_append.mp hv with hvn | hvr
      · exact hnext v hvn
      · refine (h.work t (List.mem_of_getElem? ht) v ?_).mono hlen
        rw [hwork]
        exact List.mem_cons_of_mem _ hvr
  · exact hstarted u hnew v hv

/-- A statement that leaves the table alone and is part of no dispatch. -/
theorem inv_moved_of_free (h : Inv s) (ht : s.threads[i]? = some t) (hwork : t.work = w :: rest)
    {next : List Work} (hw : w.dispatches = none) (hnext : ∀ v ∈ next, v.Ok s.deliveries.length) :
    Inv (s.moved i t rest s.deliveries next []) := by
  refine ⟨?_, work_moved h ht hwork le_rfl hnext (by simp)⟩
  intro id d hd
  exact rowOk_other h ht hwork _ _ _ hd (by simp [hw])

/-- A statement that sets one row and is part of the dispatch of no other delivery. -/
theorem inv_moved_of_set (h : Inv s) (ht : s.threads[i]? = some t) (hwork : t.work = w :: rest)
    {next : List Work} {id₀ : ℕ} {d₀ : WebhookDelivery} (hw : ∀ id, w.dispatches = some id → id = id₀)
    (hrow : RowOk (s.moved i t rest (s.deliveries.set id₀ d₀) next []) id₀ d₀)
    (hnext : ∀ v ∈ next, v.Ok s.deliveries.length) :
    Inv (s.moved i t rest (s.deliveries.set id₀ d₀) next []) := by
  have hlen : (s.deliveries.set id₀ d₀).length = s.deliveries.length := List.length_set
  refine ⟨?_, work_moved h ht hwork hlen.ge (by rwa [hlen]) (by simp)⟩
  intro id d hd
  by_cases hid : id₀ = id
  · subst hid
    have heq : d = d₀ := by
      rw [show (s.moved i t rest (s.deliveries.set id₀ d₀) next []).deliveries
        = s.deliveries.set id₀ d₀ from rfl, List.getElem?_set_self'] at hd
      obtain ⟨-, -, rfl⟩ := Option.map_eq_some_iff.mp hd
      rfl
    rw [heq]
    exact hrow
  · have hold : s.deliveries[id]? = some d := by
      rw [← hd]
      exact (List.getElem?_set_ne hid).symm
    exact rowOk_other h ht hwork _ _ _ hold fun ho => hid (hw id ho).symm

theorem inv_create (h : Inv s) {event : WebhookEvent} {deviceId outageId : Option String} {version : ℤ}
    {webhookId : ℕ} (ht : s.threads[i]? = some t)
    (hwork : t.work = .create event deviceId outageId version webhookId :: rest) {next : Work}
    (hnext : next.Owes s.deliveries.length) (hok : ∀ n, next.Ok n) :
    Inv (s.moved i t rest (s.deliveries ++ [createDelivery event deviceId outageId version webhookId])
      [next] []) := by
  refine ⟨?_, work_moved h ht hwork (by simp) (by simpa using hok _) (by simp)⟩
  intro id d hd
  rcases getElem?_insert hd with hold | ⟨rfl, rfl⟩
  · exact rowOk_other h ht hwork _ _ _ hold (by simp [Work.dispatches])
  · exact has_next ht _ _ (List.mem_singleton_self _) hnext

theorem inv_enqueue (h : Inv s) {id₀ : ℕ} (ht : s.threads[i]? = some t)
    (hwork : t.work = .enqueue id₀ :: rest) (task : Option ℕ) (retries : ℕ) :
    Inv (s.moved i t rest s.deliveries [] [⟨[.claim id₀], task, retries⟩]) := by
  refine ⟨?_, work_moved h ht hwork le_rfl (by simp) (by simp [Work.Ok])⟩
  intro id d hd
  by_cases hid : id₀ = id
  · -- the queued task owes what the enqueuing statement owed
    subst hid
    refine (h.rows id₀ d hd).of_status ?_ (has_moved ht hwork _ _ _ (by simp [Work.Carries]))
    intro _ _
    refine ⟨⟨[.claim id₀], task, retries⟩, ?_, .claim id₀, List.mem_singleton_self _, .inr (.inl rfl)⟩
    exact List.mem_append_right _ (List.mem_singleton_self _)
  · exact rowOk_other h ht hwork _ _ _ hd (by simpa [Work.dispatches] using hid)

theorem inv_claim_refused (h : Inv s) {id₀ : ℕ} (ht : s.threads[i]? = some t)
    (hwork : t.work = .claim id₀ :: rest)
    (hclaim : ∀ d, s.deliveries[id₀]? = some d → claimable d.status = false) :
    Inv (s.moved i t rest s.deliveries [] []) := by
  refine ⟨?_, work_moved h ht hwork le_rfl (by simp) (by simp)⟩
  intro id d hd
  by_cases hid : id₀ = id
  · -- what cannot be claimed is not `pending`, so nobody owes it a claim
    subst hid
    have hrow := h.rows id₀ d hd
    have hnot := hclaim d hd
    refine hrow.of_status ?_ (has_moved ht hwork _ _ _ (by simp [Work.Carries]))
    intro hstatus
    simp [claimable, hstatus] at hnot
  · exact rowOk_other h ht hwork _ _ _ hd (by simpa [Work.dispatches] using hid)

theorem inv_claim (h : Inv s) {id₀ : ℕ} (ht : s.threads[i]? = some t)
    (hwork : t.work = .claim id₀ :: rest) (d : WebhookDelivery) :
    Inv (s.moved i t rest (s.deliveries.set id₀ (claimed d)) [.load id₀] []) := by
  refine inv_moved_of_set h ht hwork ?_ ?_ (by simp [Work.Ok])
  · intro id hid
    exact (Option.some.inj hid).symm
  · exact has_next (P := Work.Carries id₀) ht _ _ (List.mem_singleton_self _) rfl

theorem inv_replayCommit (h : Inv s) {id₀ : ℕ} {seen : WebhookDelivery} (ht : s.threads[i]? = some t)
    (hwork : t.work = .replayCommit id₀ seen :: rest) (hseen : seen.status = .deadLetter)
    (d : WebhookDelivery) :
    Inv (s.moved i t rest (s.deliveries.set id₀ (flush seen (resetForReplay seen) d))
      [.claim id₀] []) := by
  refine inv_moved_of_set h ht hwork ?_ ?_ (by simp [Work.Ok])
  · intro id hid
    cases hid
  · have hstatus : (flush seen (resetForReplay seen) d).status = .pending := by
      simp [flush, resetForReplay, writeColumn, hseen]
    unfold RowOk
    simp only [hstatus]
    exact has_next (P := Work.Owes id₀) ht _ _ (List.mem_singleton_self _) (.inr (.inl rfl))

theorem inv_load (h : Inv s) {id₀ : ℕ} {d₀ : WebhookDelivery} (ht : s.threads[i]? = some t)
    (hwork : t.work = .load id₀ :: rest) (hd₀ : s.deliveries[id₀]? = some d₀)
    (hsuccess : d₀.status ≠ .success) (hdead : d₀.status ≠ .deadLetter) :
    Inv (s.moved i t rest s.deliveries [.attempt id₀ d₀] []) := by
  have hrow := h.rows id₀ d₀ hd₀
  have hlive := hrow.live hsuccess hdead
  have hlt : id₀ < s.deliveries.length := (List.getElem?_eq_some_iff.mp hd₀).1
  refine ⟨?_, work_moved h ht hwork le_rfl ?_ (by simp)⟩
  · intro id d hd
    by_cases hid : id₀ = id
    · subst hid
      obtain rfl : d₀ = d := Option.some.inj (hd₀.symm.trans hd)
      -- the attempt carries the delivery if it was loaded as `pending` or `sending`
      have hcarries : d₀.status ≠ .retrying →
          (s.moved i t rest s.deliveries [.attempt id₀ d₀] []).Has (Work.Carries id₀) :=
        fun hne => has_next ht _ _ (List.mem_singleton_self _) ⟨rfl, hne⟩
      unfold RowOk at hrow ⊢
      rcases hlive with hstatus | hstatus | hstatus
      · simp only [hstatus]
        obtain ⟨u, hu, v, hv, hcv⟩ := hcarries (by simp [hstatus])
        exact ⟨u, hu, v, hv, .inr (.inr hcv)⟩
      · simp only [hstatus]
        exact hcarries (by simp [hstatus])
      · simpa only [hstatus] using hrow
    · exact rowOk_other h ht hwork _ _ _ hd (by simpa [Work.dispatches] using hid)
  · intro v hv
    rw [List.mem_singleton.mp hv]
    exact ⟨hlt, hlive⟩

theorem inv_load_settled (h : Inv s) {id₀ : ℕ} (ht : s.threads[i]? = some t)
    (hwork : t.work = .load id₀ :: rest)
    (hd₀ : ∀ d, s.deliveries[id₀]? = some d → d.status = .success ∨ d.status = .deadLetter) :
    Inv (s.moved i t rest s.deliveries [] []) := by
  refine ⟨?_, work_moved h ht hwork le_rfl (by simp) (by simp)⟩
  intro id d hd
  by_cases hid : id₀ = id
  · subst hid
    unfold RowOk
    rcases hd₀ d hd with hstatus | hstatus <;> simp only [hstatus]
  · exact rowOk_other h ht hwork _ _ _ hd (by simpa [Work.dispatches] using hid)

theorem inv_attempt (h : Inv s) {id₀ : ℕ} {seen new d : WebhookDelivery}
    (ht : s.threads[i]? = some t) (hwork : t.work = .attempt id₀ seen :: rest)
    (hd : s.deliveries[id₀]? = some d)
    (hseen : seen.status = .pending ∨ seen.status = .sending ∨ seen.status = .retrying)
    (hnew : new.status = .success ∨ new.status = .deadLetter ∨
      (new.status = .retrying ∧ new.nextRetryAt ≠ none)) :
    Inv (s.moved i t rest (s.deliveries.set id₀ (flush seen new d)) [] []) := by
  refine inv_moved_of_set h ht hwork ?_ ?_ (by simp)
  · intro id hid
    exact (Option.some.inj hid).symm
  · by_cases hsame : new.status = seen.status
    · -- loaded as `retrying` and scheduled again: the commit leaves the status to the other dispatch
      have hretry : seen.status = .retrying := by
        rcases hseen with hs | hs | hs
        · rcases hnew with hn | hn | ⟨hn, -⟩ <;> simp [hs, hn] at hsame
        · rcases hnew with hn | hn | ⟨hn, -⟩ <;> simp [hs, hn] at hsame
        · exact hs
      obtain ⟨-, hnext⟩ : new.status = .retrying ∧ new.nextRetryAt ≠ none := by
        rcases hnew with hn | hn | hn
        · simp [hn, hretry] at hsame
        · simp [hn, hretry] at hsame
        · exact hn
      have hw : ¬ (Work.attempt id₀ seen).Owes id₀ := by
        rintro (hc | hc | hc)
        · cases hc
        · cases hc
        · exact hc.2 hretry
      have hold := rowOk_moved h ht hwork (s.deliveries.set id₀ (flush seen new d)) [] [] hd hw
      have hstatus : (flush seen new d).status = d.status := by simp [flush, writeColumn, hsame]
      have htime : (flush seen new d).nextRetryAt ≠ none := by
        obtain ⟨time, htime⟩ := Option.ne_none_iff_exists'.mp hnext
        simp [flush, htime]
      exact hold.of_status_eq hstatus htime
    · -- the status changed, so the commit writes it
      have hstatus : (flush seen new d).status = new.status := by simp [flush, writeColumn, hsame]
      unfold RowOk
      rw [hstatus]
      rcases hnew with hn | hn | ⟨hn, hnext⟩
      · simp only [hn]
      · simp only [hn]
      · obtain ⟨time, htime⟩ := Option.ne_none_iff_exists'.mp hnext
        simp [hn, flush, htime]

/-- A statement that goes through raises nothing and keeps the invariant. -/
theorem inv_workStep (h : Inv s) (ht : s.threads[i]? = some t) (hwork : t.work = w :: rest)
    (hout : w.GoesThrough cfg env) :
    ∃ next, (workStep cfg env s.deliveries w).next = .ok next ∧
      Inv (s.moved i t rest (workStep cfg env s.deliveries w).deliveries next
        (workStep cfg env s.deliveries w).started) := by
  have hok : w.Ok s.deliveries.length := by
    refine h.work t (List.mem_of_getElem? ht) w ?_
    rw [hwork]
    exact List.mem_cons_self
  cases w with
  | create event deviceId outageId version webhookId =>
      refine ⟨_, rfl, inv_create h ht hwork ?_ ?_⟩
      · split
        · exact .inl rfl
        · exact .inr (.inl rfl)
      · intro n
        split <;> trivial
  | enqueue id =>
      simp only [workStep, if_pos (show env.brokerUp = true from hout)]
      exact ⟨_, rfl, inv_enqueue h ht hwork _ _⟩
  | sweep batchSize =>
      refine ⟨_, rfl, inv_moved_of_free h ht hwork rfl ?_⟩
      intro v hv
      obtain ⟨id, -, rfl⟩ := List.mem_map.mp hv
      trivial
  | replayQuery event deviceId outageId limit =>
      refine ⟨_, rfl, inv_moved_of_free h ht hwork rfl ?_⟩
      intro v hv
      obtain ⟨id, -, rfl⟩ := List.mem_map.mp hv
      trivial
  | replay id =>
      simp only [workStep]
      cases hd : s.deliveries[id]? with
      | none => exact ⟨_, rfl, inv_moved_of_free h ht hwork rfl (by simp)⟩
      | some d =>
          by_cases hdead : d.status = .deadLetter
          · simp only [if_pos hdead]
            refine ⟨_, rfl, inv_moved_of_free h ht hwork rfl ?_⟩
            intro v hv
            rw [List.mem_singleton.mp hv]
            exact ⟨(List.getElem?_eq_some_iff.mp hd).1, hdead⟩
          · simp only [if_neg hdead]
            exact ⟨_, rfl, inv_moved_of_free h ht hwork rfl (by simp)⟩
  | replayCommit id seen =>
      have hd := List.getElem?_eq_getElem hok.1
      simp only [workStep, hd]
      exact ⟨_, rfl, inv_replayCommit h ht hwork hok.2 _⟩
  | claim id =>
      simp only [workStep]
      cases hd : s.deliveries[id]? with
      | none => exact ⟨_, rfl, inv_claim_refused h ht hwork (by simp [hd])⟩
      | some d =>
          by_cases hclaim : claimable d.status = true
          · simp only [if_pos hclaim]
            exact ⟨_, rfl, inv_claim h ht hwork d⟩
          · -- another worker has it: the thread drops the delivery
            simp only [if_neg hclaim]
            refine ⟨_, rfl, inv_claim_refused h ht hwork ?_⟩
            intro d' hd'
            obtain rfl : d = d' := Option.some.inj (hd.symm.trans hd')
            simpa using hclaim
  | load id =>
      simp only [workStep]
      cases hd : s.deliveries[id]? with
      | none => exact ⟨_, rfl, inv_load_settled h ht hwork (by simp [hd])⟩
      | some d =>
          by_cases hsettled : d.status = .success ∨ d.status = .deadLetter
          · simp only [if_pos hsettled]
            refine ⟨_, rfl, inv_load_settled h ht hwork ?_⟩
            intro d' hd'
            obtain rfl : d = d' := Option.some.inj (hd.symm.trans hd')
            exact hsettled
          · simp only [if_neg hsettled]
            rw [not_or] at hsettled
            exact ⟨_, rfl, inv_load h ht hwork hd hsettled.1 hsettled.2⟩
  | attempt id seen =>
      have hd := List.getElem?_eq_getElem hok.1
      have hopen : seen.status ≠ .breakerOpen := by
        rcases hok.2 with hs | hs | hs <;> simp [hs]
      obtain ⟨new, hnew, hcommit, hstatus⟩ := attemptAndSchedule_spec hout hopen
      simp only [workStep, hnew, hcommit, hd]
      exact ⟨_, rfl, inv_attempt h ht hwork hd hok.2 hstatus⟩

end Move

/-! ## Runs -/

theorem Request.work_ok (r : Request) (n : ℕ) : ∀ w ∈ r.work, w.Ok n := by
  intro w hw
  cases r with
  | trigger event deviceId outageId version webhooks =>
      obtain ⟨id, -, rfl⟩ := List.mem_map.mp hw
      trivial
  | _ =>
      rw [List.mem_singleton.mp hw]
      trivial

theorem inv_start {s : Sys} (h : Inv s) (r : Request) :
    Inv { s with threads := s.threads ++ [⟨r.work, none, 0⟩] } := by
  have hkeep : ∀ P, s.Has P → Sys.Has { s with threads := s.threads ++ [⟨r.work, none, 0⟩] } P := by
    rintro P ⟨t, ht, hw⟩
    exact ⟨t, List.mem_append_left _ ht, hw⟩
  refine ⟨?_, ?_⟩
  · intro id d hd
    exact (h.rows id d hd).of_status (fun _ => hkeep _) (hkeep _)
  · intro t ht
    rcases List.mem_append.mp ht with hold | hnew
    · exact h.work t hold
    · rw [List.mem_singleton.mp hnew]
      exact r.work_ok _

theorem inv_step {s s' : Sys} {a : Action} (h : Inv s) (hout : GoesOut cfg s a)
    (hstep : step cfg s a = some s') : Inv s' := by
  cases a with
  | start r =>
      obtain rfl := Option.some.inj hstep
      exact inv_start h r
  | move i env =>
      simp only [step] at hstep
      split at hstep
      · cases hstep
      · rename_i t ht
        split at hstep
        · cases hstep
        · rename_i w rest hwork
          obtain rfl := Option.some.inj hstep
          have hgo : w.GoesThrough cfg env := hout t ht w (by rw [hwork]; rfl)
          obtain ⟨next, hnext, hinv⟩ := inv_workStep h ht hwork hgo
          simp only [hnext]
          exact hinv

/-- In every run whose attempts all complete, and in which the broker takes every task, no delivery is stuck in any
state reached. -/
theorem none_stuck_of_goesOut (cfg : WebhookSettings) {as : List Action} {s : Sys}
    (hout : Guarded (step cfg) (GoesOut cfg) Sys.init as) (hrun : run (step cfg) Sys.init as = some s) :
    s.NoneStuck := by
  have hkeep : ∀ s a s', Inv s → GoesOut cfg s a → step cfg s a = some s' → Inv s' :=
    fun _ _ _ h hgo hstep => inv_step h hgo hstep
  exact (run_invariant_of_guarded hkeep inv_init hout hrun).noneStuck

/-- Settings for the runs below: every webhook has one approved address. -/
def sampleSettings : WebhookSettings :=
  ⟨fun _ => ⟨["203.0.113.7"], 3⟩, [30, 120, 600], by decide, 3600000000, false⟩

/-- A receiver that answers with status 500. -/
def sampleEnv : Env :=
  ⟨0, .ok ["203.0.113.7"], true, .response 500 (codePoints "out of order"), id, some "whsec_1", true⟩

/-- A violation is delivered to one webhook, in the thread that reports it; the attempt meets `env`. -/
def oneDelivery (env : Env) : List Action :=
  .start (.trigger .slaViolation none (some "OUT001") 2 [0]) ::
    [.move 0 sampleEnv, .move 0 sampleEnv, .move 0 sampleEnv, .move 0 env]

theorem none_stuck_serverError : ∃ s d,
    Guarded (step sampleSettings) (GoesOut sampleSettings) Sys.init (oneDelivery sampleEnv) ∧
      run (step sampleSettings) Sys.init (oneDelivery sampleEnv) = some s ∧
      s.deliveries[0]? = some d ∧ d.status = .retrying ∧ ¬ s.Dispatching 0 ∧ s.NoneStuck := by
  obtain ⟨s, hout, hrun, d, hd, hstatus, hfree⟩ : ∃ s,
      Guarded (step sampleSettings) (GoesOut sampleSettings) Sys.init (oneDelivery sampleEnv) ∧
        run (step sampleSettings) Sys.init (oneDelivery sampleEnv) = some s ∧ ∃ d,
          s.deliveries[0]? = some d ∧ d.status = .retrying ∧ ¬ s.Dispatching 0 :=
    ⟨_, by decide, rfl, _, rfl, by decide, by decide⟩
  exact ⟨s, d, hout, hrun, hd, hstatus, hfree, none_stuck_of_goesOut sampleSettings hout hrun⟩

/-- The circuit breaker is open for the receiver's host. -/
def breakerOpenEnv : Env := { sampleEnv with breakerAllows := false }

/-- The receiver's host does not resolve. -/
def unresolvedEnv : Env :=
  { sampleEnv with resolve := .error "Could not resolve hostname: hooks.example" }

/-- The receiver accepts the delivery, and there is a NUL in the body of its answer. -/
def nulEnv : Env := { sampleEnv with http := .response 200 [0] }

/-- A deferred delivery, and one whose attempt or last commit raised, are left where no sweep and no claim takes
them. -/
theorem deferred_or_raised_delivery_stuck :
    (∃ s, run (step sampleSettings) Sys.init (oneDelivery breakerOpenEnv) = some s ∧ ¬ s.NoneStuck) ∧
      (∃ s, run (step sampleSettings) Sys.init (oneDelivery unresolvedEnv) = some s ∧ ¬ s.NoneStuck) ∧
      ∃ s, run (step sampleSettings) Sys.init (oneDelivery nulEnv) = some s ∧ ¬ s.NoneStuck := by
  refine ⟨⟨_, rfl, fun h => ?_⟩, ⟨_, rfl, fun h => ?_⟩, _, rfl, fun h => ?_⟩
  all_goals exact absurd (h 0 _ rfl (by decide) (by decide) (by decide)) (by decide)

end ApexChainx.Webhooks
