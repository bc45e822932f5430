import ApexChainx.Webhooks.Attempts

/-!
# No requests for a webhook that is off

`is_active` and `deleted_at` are read only where a trigger resolves its subscribers. A delivery that was
created before its webhook was deleted or switched off is dispatched again by a sweep, a retry or a replay,
and none of these reads the webhook's flags. Only when nothing is left to be dispatched does switching a
webhook off stop its requests (`Quiet`): no delivery of it is in a status that a dispatch or a replay takes,
and no thread is between its reads and its writes on one.

`no_request_after_off` is about the runs in which every webhook is quiet when it is deleted or switched off.
-/

namespace ApexChainx.Webhooks.Attempts

open ApexChainx.Lib

/-! ## The law -/

/-- The webhook was deleted, or switched off and not on again. -/
def State.Off (s : State) (webhookId : ℕ) : Prop := webhookId ∈ s.deleted ∨ webhookId ∈ s.switchedOff

instance (s : State) (webhookId : ℕ) : Decidable (s.Off webhookId) := inferInstanceAs (Decidable (_ ∨ _))

/-- The webhook that a statement starts a request for. -/
def Stmt.requests (cfg : WebhookSettings) (env : StepEnv) (s : State) : Stmt → Option ℕ
  | .work (.attempt _ seen) =>
      match beforeRequest env.toEnv ((reading cfg s.webhooks).webhook seen.webhookId) seen with
      | .ok true => some seen.webhookId
      | _ => none
  | _ => none

/-- A request that the step starts is for a webhook that is not off. -/
def SparesOff (cfg : WebhookSettings) (s : State) : Move → Prop
  | .start _ => True
  | .move i env =>
      ∀ p ∈ s.procs[i]?, ∀ stmt ∈ p.work.head?, ∀ webhookId ∈ stmt.requests cfg env s, ¬ s.Off webhookId

instance (cfg : WebhookSettings) (s : State) : (m : Move) → Decidable (SparesOff cfg s m)
  | .start _ => inferInstanceAs (Decidable True)
  | .move i env =>
      inferInstanceAs (Decidable (∀ p ∈ s.procs[i]?, ∀ stmt ∈ p.work.head?,
        ∀ webhookId ∈ stmt.requests cfg env s, ¬ s.Off webhookId))

/-! ## The condition -/

/-- The delivery is one of the webhook's. -/
def belongs (ds : List WebhookDelivery) (id webhookId : ℕ) : Bool :=
  ds[id]?.any fun d => d.webhookId = webhookId

/-- The statuses that a dispatch or a replay takes a delivery from. -/
def takeable : DeliveryStatus → Bool
  | .pending | .retrying | .deadLetter => true
  | _ => false

/-- The statement creates a delivery of the webhook, or is on the way to a request of one, or to a status
from which it can be taken. -/
def Stmt.pursues (ds : List WebhookDelivery) (webhookId : ℕ) : Stmt → Bool
  | .work (.create _ _ _ _ w) => w = webhookId
  | .work (.load id) | .work (.attempt id _) | .work (.replayCommit id _) | .send id _ _ =>
      belongs ds id webhookId
  | .commit id _ new => belongs ds id webhookId && takeable new.status
  | _ => false

/-- Nothing is left to be dispatched for the webhook. -/
structure State.Quiet (s : State) (webhookId : ℕ) : Prop where
  rows : ∀ d ∈ s.deliveries, d.webhookId = webhookId → takeable d.status = false
  stmts : ∀ v ∈ s.stmts, v.pursues s.deliveries webhookId = false

instance (s : State) (webhookId : ℕ) : Decidable (s.Quiet webhookId) :=
  decidable_of_iff ((∀ d ∈ s.deliveries, d.webhookId = webhookId → takeable d.status = false) ∧
    ∀ v ∈ s.stmts, v.pursues s.deliveries webhookId = false) ⟨fun h => ⟨h.1, h.2⟩, fun h => ⟨h.rows, h.stmts⟩⟩

/-- A webhook that the statement deletes or switches off is quiet; one that is switched off was loaded as
active, or is not. -/
def Stmt.OffQuiet (s : State) : Stmt → Prop
  | .deleteCommit webhookId _ => s.Quiet webhookId
  | .updateCommit webhookId seen change =>
      change.isActive = some false → s.Quiet webhookId ∧
        (seen.isActive = true ∨ ∀ r ∈ s.webhooks[webhookId]?, r.isActive = false)
  | _ => True

instance (s : State) : (stmt : Stmt) → Decidable (stmt.OffQuiet s)
  | .deleteCommit webhookId _ => inferInstanceAs (Decidable (s.Quiet webhookId))
  | .updateCommit webhookId seen change =>
      inferInstanceAs (Decidable (change.isActive = some false → s.Quiet webhookId ∧
        (seen.isActive = true ∨ ∀ r ∈ s.webhooks[webhookId]?, r.isActive = false)))
  | .work _ | .send .. | .commit .. | .retry .. | .trigger .. | .createWebhook _ | .update .. | .delete _ =>
      inferInstanceAs (Decidable True)

/-- A webhook that the step deletes or switches off has nothing left to be dispatched. -/
def OffWhenQuiet (s : State) : Move → Prop
  | .start _ => True
  | .move i _ => ∀ p ∈ s.procs[i]?, ∀ stmt ∈ p.work.head?, stmt.OffQuiet s

instance (s : State) : (m : Move) → Decidable (OffWhenQuiet s m)
  | .start _ => inferInstanceAs (Decidable True)
  | .move i _ =>
      inferInstanceAs (Decidable (∀ p ∈ s.procs[i]?, ∀ stmt ∈ p.work.head?, stmt.OffQuiet s))

/-! ## What a statement makes of the webhooks -/

/-- What a statement makes of the table of webhooks, and of those that are deleted or switched off. -/
inductive Registers (s : State) : Stmt → List Registration → List ℕ → List ℕ → Prop
  | nothing {stmt} : Registers s stmt s.webhooks s.deleted s.switchedOff
  | creates {r} : Registers s (.createWebhook r) (s.webhooks ++ [{ r with isDeleted := false }])
      s.deleted s.switchedOff
  | updates {webhookId seen change r} (row : s.webhooks[webhookId]? = some r) :
      Registers s (.updateCommit webhookId seen change)
        (s.webhooks.set webhookId (flushWebhook seen (change.apply seen) r)) s.deleted
        (switch webhookId change.isActive s.switchedOff)
  | deletes {webhookId seen r} (row : s.webhooks[webhookId]? = some r) :
      Registers s (.deleteCommit webhookId seen)
        (s.webhooks.set webhookId (flushWebhook seen (tombstone seen) r)) (webhookId :: s.deleted)
        s.switchedOff

theorem exec_registers (cfg : WebhookSettings) (env : StepEnv) (s : State) (stmt : Stmt) :
    Registers s stmt (exec cfg env s stmt).state.webhooks (exec cfg env s stmt).state.deleted
      (exec cfg env s stmt).state.switchedOff := by
  cases stmt with
  | work w =>
      cases w with
      | attempt id seen =>
          simp only [exec]
          split <;> exact .nothing
      | _ => exact .nothing
  | send id seen webhook =>
      simp only [exec]
      split <;> exact .nothing
  | commit id seen new =>
      simp only [exec]
      split <;> exact .nothing
  | retry webhookId id =>
      simp only [exec]
      split
      · exact .nothing
      · split
        · exact .nothing
        · split_ifs <;> exact .nothing
  | trigger event deviceId outageId version => exact .nothing
  | createWebhook r => exact .creates
  | update webhookId change =>
      simp only [exec]
      split
      · exact .nothing
      · split <;> exact .nothing
  | updateCommit webhookId seen change =>
      simp only [exec]
      split
      · exact .nothing
      · rename_i r hr
        exact .updates hr
  | delete webhookId =>
      simp only [exec]
      split
      · exact .nothing
      · split <;> exact .nothing
  | deleteCommit webhookId seen =>
      simp only [exec]
      split
      · exact .nothing
      · rename_i r hr
        exact .deletes hr

/-! ## The invariant -/

/-- What holds of what a statement has loaded. -/
def Stmt.Loaded (s : State) : Stmt → Prop
  | .work (.attempt id seen) => ∃ d, s.deliveries[id]? = some d ∧ d.webhookId = seen.webhookId
  | .deleteCommit _ seen => seen.isDeleted = false
  | _ => True

/-- A webhook that is off is so in the table, and quiet. -/
structure OffKept (s : State) : Prop where
  quiet : ∀ w, s.Off w → s.Quiet w
  deleted : ∀ w ∈ s.deleted, ∃ r, s.webhooks[w]? = some r ∧ r.isDeleted = true
  switchedOff : ∀ w ∈ s.switchedOff, ∃ r, s.webhooks[w]? = some r ∧ r.isActive = false
  loaded : ∀ v ∈ s.stmts, v.Loaded s

theorem offKept_init : OffKept State.init := by
  refine ⟨?_, ?_, ?_, ?_⟩ <;> simp [State.init, State.stmts, State.Off]

theorem OffKept.not_subscriber {s : State} (h : OffKept s) {w : ℕ} (hw : s.Off w) (event : WebhookEvent) :
    w ∉ subscribersForEvent event s.webhooks := by
  intro hmem
  obtain ⟨⟨r, j⟩, hr, rfl⟩ := List.mem_map.mp hmem
  obtain ⟨hrow, hlive⟩ := List.mem_filter.mp hr
  rw [List.mem_zipIdx_iff_getElem?] at hrow
  simp only [Bool.and_eq_true, Bool.not_eq_true'] at hlive
  obtain ⟨⟨hactive, hlive⟩, -⟩ := hlive
  rcases hw with hdeleted | hoff
  · obtain ⟨r', hr', hgone⟩ := h.deleted _ hdeleted
    obtain rfl : r = r' := Option.some.inj (hrow.symm.trans hr')
    rw [hlive] at hgone
    cases hgone
  · obtain ⟨r', hr', hinactive⟩ := h.switchedOff _ hoff
    obtain rfl : r = r' := Option.some.inj (hrow.symm.trans hr')
    rw [hactive] at hinactive
    cases hinactive

/-- A delivery keeps its webhook. -/
theorem Writes.webhookId {s : State} {stmt : Stmt} {ds : List WebhookDelivery} {done : List ℕ}
    (h : Writes s stmt ds done) {id : ℕ} {d : WebhookDelivery} (hd : s.deliveries[id]? = some d) :
    ∃ d', ds[id]? = some d' ∧ d'.webhookId = d.webhookId := by
  have hset (j : ℕ) (d₀ d₁ : WebhookDelivery) (hrow : s.deliveries[j]? = some d₀)
      (hsame : d₁.webhookId = d₀.webhookId) :
      ∃ d', (s.deliveries.set j d₁)[id]? = some d' ∧ d'.webhookId = d.webhookId := by
    by_cases hj : j = id
    · subst hj
      rw [hd, Option.some.injEq] at hrow
      exact ⟨d₁, List.getElem?_set_self (List.getElem?_eq_some_iff.mp hd).1, by rw [hsame, hrow]⟩
    · exact ⟨d, by rwa [List.getElem?_set_ne hj], rfl⟩
  cases h with
  | nothing unclaimed => exact ⟨d, hd, rfl⟩
  | creates =>
      refine ⟨d, ?_, rfl⟩
      rwa [List.getElem?_append_left (List.getElem?_eq_some_iff.mp hd).1]
  | claims row free => exact hset _ _ _ row rfl
  | resets row => exact hset _ _ _ row rfl
  | commits row => exact hset _ _ _ row rfl

/-- A delivery after a step is an old one of the same webhook, or the one created. -/
theorem Writes.origin {s : State} {stmt : Stmt} {ds : List WebhookDelivery} {done : List ℕ}
    (h : Writes s stmt ds done) {id : ℕ} {d' : WebhookDelivery} (hd' : ds[id]? = some d') :
    (∃ d, s.deliveries[id]? = some d ∧ d'.webhookId = d.webhookId) ∨
      stmt.pursues s.deliveries d'.webhookId = true := by
  cases hd : s.deliveries[id]? with
  | some d =>
      obtain ⟨d'', hd'', hsame⟩ := h.webhookId hd
      rw [hd', Option.some.injEq] at hd''
      exact .inl ⟨d, rfl, by rw [hd'', hsame]⟩
  | none =>
      have hset (j : ℕ) (d₁ : WebhookDelivery) : (s.deliveries.set j d₁)[id]? = none := by
        rw [List.getElem?_eq_none_iff, List.length_set]
        exact List.getElem?_eq_none_iff.mp hd
      cases h with
      | nothing unclaimed => simp [hd] at hd'
      | creates =>
          rcases getElem?_insert hd' with hold | ⟨-, rfl⟩
          · simp [hd] at hold
          · exact .inr (by simp [Stmt.pursues, createDelivery])
      | claims row free => simp [hset] at hd'
      | resets row => simp [hset] at hd'
      | commits row => simp [hset] at hd'

theorem Writes.belongs {s : State} {stmt : Stmt} {ds : List WebhookDelivery} {done : List ℕ} {w : ℕ}
    (h : Writes s stmt ds done) (hstmt : stmt.pursues s.deliveries w = false) (id : ℕ) :
    belongs ds id w = belongs s.deliveries id w := by
  rw [Bool.eq_iff_iff]
  simp only [Attempts.belongs, Option.any_eq_true, decide_eq_true_eq]
  constructor
  · rintro ⟨d', hd', rfl⟩
    rcases h.origin hd' with ⟨d, hd, hsame⟩ | hpursues
    · exact ⟨d, hd, hsame.symm⟩
    · rw [hstmt] at hpursues
      cases hpursues
  · rintro ⟨d, hd, rfl⟩
    exact h.webhookId hd

/-- What a quiet webhook's deliveries are changed to cannot be taken either. -/
theorem Writes.rows_quiet {s : State} {stmt : Stmt} {ds : List WebhookDelivery} {done : List ℕ} {w : ℕ}
    (h : Writes s stmt ds done) (hquiet : s.Quiet w) (hstmt : stmt.pursues s.deliveries w = false) :
    ∀ d ∈ ds, d.webhookId = w → takeable d.status = false := by
  have hbelongs {id : ℕ} {d : WebhookDelivery} (hd : s.deliveries[id]? = some d) (hw : d.webhookId = w) :
      Attempts.belongs s.deliveries id w = true := by simp [Attempts.belongs, hd, hw]
  intro d hd hw
  cases h with
  | nothing unclaimed => exact hquiet.rows d hd hw
  | creates =>
      rcases List.mem_append.mp hd with hold | hnew
      · exact hquiet.rows d hold hw
      · obtain rfl := List.mem_singleton.mp hnew
        simp only [Stmt.pursues, decide_eq_false_iff_not] at hstmt
        exact absurd hw hstmt
  | claims row free =>
      rcases List.mem_or_eq_of_mem_set hd with hold | rfl
      · exact hquiet.rows d hold hw
      · rfl
  | resets row =>
      rcases List.mem_or_eq_of_mem_set hd with hold | rfl
      · exact hquiet.rows d hold hw
      · have hpursued := hbelongs row hw
        simp only [Stmt.pursues] at hstmt
        rw [hpursued] at hstmt
        cases hstmt
  | @commits id seen new d₀ row =>
      rcases List.mem_or_eq_of_mem_set hd with hold | rfl
      · exact hquiet.rows d hold hw
      · have hpursued := hbelongs row hw
        simp only [Stmt.pursues, hpursued, Bool.true_and] at hstmt
        simp only [flush, writeColumn]
        split
        · exact hquiet.rows d₀ (List.mem_of_getElem? row) hw
        · exact hstmt

/-- The statements that follow do not pursue a quiet webhook either. -/
theorem Follows.not_pursues {cfg : WebhookSettings} {env : StepEnv} {s : State} {stmt v : Stmt} {w : ℕ}
    (h : Follows cfg env s stmt v) (hquiet : s.Quiet w) (hstmt : stmt.pursues s.deliveries w = false)
    (hsubscriber : ∀ event deviceId outageId version, stmt = .trigger event deviceId outageId version →
      w ∉ subscribersForEvent event s.webhooks) : v.pursues s.deliveries w = false := by
  -- a delivery that can be taken is not the webhook's
  have htaken {id : ℕ} {d : WebhookDelivery} (hd : s.deliveries[id]? = some d)
      (htakeable : takeable d.status = true) : belongs s.deliveries id w = false := by
    by_contra hbelongs
    have hw : d.webhookId = w := by simpa [belongs, hd] using hbelongs
    rw [hquiet.rows d (List.mem_of_getElem? hd) hw] at htakeable
    cases htakeable
  cases h with
  | replay row dead => exact htaken row (by simp [dead, takeable])
  | @claim id d row free =>
      refine htaken row ?_
      cases hstatus : d.status <;> simp [hstatus, claimable] at free <;> rfl
  | load row => exact hstmt
  | send sent => exact hstmt
  | defer => simp [Stmt.pursues, deferred, takeable]
  | settle =>
      simp only [Stmt.pursues] at hstmt ⊢
      rw [hstmt, Bool.false_and]
  | @trigger event deviceId outageId version webhookId mem =>
      simp only [Stmt.pursues, decide_eq_false_iff_not]
      rintro rfl
      exact hsubscriber event deviceId outageId version rfl mem
  | _ => rfl

section Moved

variable {cfg : WebhookSettings} {env : StepEnv} {s : State} {i : ℕ} {p : Proc} {stmt : Stmt}
  {rest : List Stmt}

theorem mem_stmts (hp : s.procs[i]? = some p) (hwork : p.work = stmt :: rest) : stmt ∈ s.stmts := by
  refine List.mem_flatMap.mpr ⟨p, List.mem_of_getElem? hp, ?_⟩
  rw [hwork]
  exact List.mem_cons_self

theorem quiet_moved {w : ℕ} (hquiet : s.Quiet w) (hp : s.procs[i]? = some p)
    (hwork : p.work = stmt :: rest)
    (hsubscriber : ∀ event deviceId outageId version, stmt = .trigger event deviceId outageId version →
      w ∉ subscribersForEvent event s.webhooks) : (s.moved cfg env i p stmt rest).Quiet w := by
  have hstmt := hquiet.stmts stmt (mem_stmts hp hwork)
  have hwrites : Writes s stmt (s.moved cfg env i p stmt rest).deliveries
      (s.moved cfg env i p stmt rest).delivered := exec_writes cfg env s stmt
  have hpursues (v : Stmt) :
      v.pursues (s.moved cfg env i p stmt rest).deliveries w = v.pursues s.deliveries w := by
    unfold Stmt.pursues
    simp only [hwrites.belongs hstmt]
  refine ⟨hwrites.rows_quiet hquiet hstmt, ?_⟩
  intro v hv
  rw [hpursues]
  rcases mem_stmts_moved hp hwork hv with hold | hfollows | ⟨id, rfl⟩
  · exact hquiet.stmts v hold
  · exact (follows_of_mem hfollows).not_pursues hquiet hstmt hsubscriber
  · rfl

theorem writeColumn_of_eq {α : Type} [DecidableEq α] {seen new current a : α} (hnew : new = a)
    (hcurrent : current = a) : writeColumn seen new current = a := by
  unfold writeColumn
  split
  · exact hcurrent
  · exact hnew

/-- What a step deletes stays deleted in the table. -/
theorem Registers.deleted {ws : List Registration} {deleted off : List ℕ}
    (h : Registers s stmt ws deleted off) (hkept : OffKept s) (hloaded : stmt.Loaded s) :
    ∀ w ∈ deleted, ∃ r, ws[w]? = some r ∧ r.isDeleted = true := by
  intro w hw
  cases h with
  | nothing => exact hkept.deleted w hw
  | creates =>
      obtain ⟨r, hr, hgone⟩ := hkept.deleted w hw
      exact ⟨r, by rwa [List.getElem?_append_left (List.getElem?_eq_some_iff.mp hr).1], hgone⟩
  | @updates j seen change r₀ row =>
      obtain ⟨r, hr, hgone⟩ := hkept.deleted w hw
      by_cases hj : j = w
      · subst hj
        obtain rfl : r₀ = r := Option.some.inj (row.symm.trans hr)
        refine ⟨_, List.getElem?_set_self (List.getElem?_eq_some_iff.mp row).1, ?_⟩
        simpa [flushWebhook, WebhookChange.apply, writeColumn] using hgone
      · exact ⟨r, by rwa [List.getElem?_set_ne hj], hgone⟩
  | @deletes j seen r₀ row =>
      by_cases hj : j = w
      · subst hj
        refine ⟨_, List.getElem?_set_self (List.getElem?_eq_some_iff.mp row).1, ?_⟩
        have hseen : seen.isDeleted = false := hloaded
        simp [flushWebhook, tombstone, writeColumn, hseen]
      · obtain ⟨r, hr, hgone⟩ := hkept.deleted w ((List.mem_cons.mp hw).resolve_left (Ne.symm hj))
        exact ⟨r, by rwa [List.getElem?_set_ne hj], hgone⟩

/-- What a step switches off is off in the table. -/
theorem Registers.switchedOff {ws : List Registration} {deleted off : List ℕ}
    (h : Registers s stmt ws deleted off) (hkept : OffKept s) (hquiet : stmt.OffQuiet s) :
    ∀ w ∈ off, ∃ r, ws[w]? = some r ∧ r.isActive = false := by
  intro w hw
  cases h with
  | nothing => exact hkept.switchedOff w hw
  | creates =>
      obtain ⟨r, hr, hinactive⟩ := hkept.switchedOff w hw
      exact ⟨r, by rwa [List.getElem?_append_left (List.getElem?_eq_some_iff.mp hr).1], hinactive⟩
  | @updates j seen change r₀ row =>
      by_cases hj : j = w
      · subst hj
        refine ⟨_, List.getElem?_set_self (List.getElem?_eq_some_iff.mp row).1, ?_⟩
        simp only [flushWebhook, WebhookChange.apply]
        cases hactive : change.isActive with
        | none =>
            obtain ⟨r, hr, hinactive⟩ := hkept.switchedOff j (by simpa [hactive, switch] using hw)
            obtain rfl : r₀ = r := Option.some.inj (row.symm.trans hr)
            simpa [writeColumn] using hinactive
        | some active =>
            cases active with
            | true => simp [hactive, switch] at hw
            | false =>
                obtain ⟨-, hseen⟩ := hquiet hactive
                simp only [writeColumn, Option.getD_some]
                split
                · rename_i hloaded
                  exact hseen.resolve_left (by simp [← hloaded]) r₀ row
                · rfl
      · have hold : w ∈ s.switchedOff := by
          unfold switch at hw
          split at hw
          · exact hw
          · exact (List.mem_filter.mp hw).1
          · exact (List.mem_cons.mp hw).resolve_left (Ne.symm hj)
        obtain ⟨r, hr, hinactive⟩ := hkept.switchedOff w hold
        exact ⟨r, by rwa [List.getElem?_set_ne hj], hinactive⟩
  | @deletes j seen r₀ row =>
      obtain ⟨r, hr, hinactive⟩ := hkept.switchedOff w hw
      by_cases hj : j = w
      · subst hj
        obtain rfl : r₀ = r := Option.some.inj (row.symm.trans hr)
        refine ⟨_, List.getElem?_set_self (List.getElem?_eq_some_iff.mp row).1, ?_⟩
        exact writeColumn_of_eq rfl hinactive
      · exact ⟨r, by rwa [List.getElem?_set_ne hj], hinactive⟩

/-- A webhook that is off after a step was so before, or the step deletes it or switches it off. -/
theorem Registers.off_cases {ws : List Registration} {deleted off : List ℕ} {w : ℕ}
    (h : Registers s stmt ws deleted off) (hquiet : stmt.OffQuiet s) (hw : w ∈ deleted ∨ w ∈ off) :
    s.Off w ∨ (s.Quiet w ∧ ∀ event deviceId outageId version, stmt ≠ .trigger event deviceId outageId version) := by
  cases h with
  | nothing => exact .inl hw
  | creates => exact .inl hw
  | @updates j seen change r₀ row =>
      rcases hw with hdeleted | hoff
      · exact .inl (.inl hdeleted)
      · unfold switch at hoff
        split at hoff
        · exact .inl (.inr hoff)
        · exact .inl (.inr (List.mem_filter.mp hoff).1)
        · rename_i hactive
          rcases List.mem_cons.mp hoff with rfl | hold
          · exact .inr ⟨(hquiet hactive).1, by simp⟩
          · exact .inl (.inr hold)
  | @deletes j seen r₀ row =>
      rcases hw with hdeleted | hoff
      · rcases List.mem_cons.mp hdeleted with rfl | hold
        · exact .inr ⟨hquiet, by simp⟩
        · exact .inl (.inl hold)
      · exact .inl (.inr hoff)

theorem Follows.loaded {v : Stmt} (h : Follows cfg env s stmt v) : v.Loaded s := by
  cases h with
  | load row => exact ⟨_, row, rfl⟩
  | delete row live => exact live
  | _ => trivial

theorem offKept_moved (h : OffKept s) (hp : s.procs[i]? = some p) (hwork : p.work = stmt :: rest)
    (hquiet : stmt.OffQuiet s) : OffKept (s.moved cfg env i p stmt rest) := by
  have hstmt := mem_stmts hp hwork
  have hregisters : Registers s stmt (s.moved cfg env i p stmt rest).webhooks
      (s.moved cfg env i p stmt rest).deleted (s.moved cfg env i p stmt rest).switchedOff :=
    exec_registers cfg env s stmt
  have hwrites : Writes s stmt (s.moved cfg env i p stmt rest).deliveries
      (s.moved cfg env i p stmt rest).delivered := exec_writes cfg env s stmt
  refine ⟨?_, hregisters.deleted h (h.loaded stmt hstmt), hregisters.switchedOff h hquiet, ?_⟩
  · intro w hw
    rcases hregisters.off_cases hquiet hw with hoff | ⟨hquiet', hno⟩
    · exact quiet_moved (h.quiet w hoff) hp hwork fun event _ _ _ _ => h.not_subscriber hoff event
    · refine quiet_moved hquiet' hp hwork ?_
      intro event deviceId outageId version htrigger
      exact absurd htrigger (hno event deviceId outageId version)
  · -- the deliveries keep their webhooks, so what is loaded stays right
    have hkeep {v : Stmt} (hv : v.Loaded s) : v.Loaded (s.moved cfg env i p stmt rest) := by
      cases v with
      | work work =>
          cases work with
          | attempt id seen =>
              obtain ⟨d, hd, hsame⟩ := hv
              obtain ⟨d', hd', hsame'⟩ := hwrites.webhookId hd
              exact ⟨d', hd', by rw [hsame', hsame]⟩
          | _ => trivial
      | deleteCommit w seen => exact hv
      | _ => trivial
    intro v hv
    rcases mem_stmts_moved hp hwork hv with hold | hfollows | ⟨id, rfl⟩
    · exact hkeep (h.loaded v hold)
    · exact hkeep (follows_of_mem hfollows).loaded
    · trivial

end Moved

/-! ## Runs -/

theorem offKept_step {cfg : WebhookSettings} {s s' : State} {m : Move} (h : OffKept s)
    (hquiet : OffWhenQuiet s m) (hstep : step cfg s m = some s') : OffKept s' := by
  obtain ⟨c, rfl, rfl⟩ | ⟨i, env, p, stmt, rest, rfl, hp, hwork, rfl⟩ := step_cases hstep
  · have hmem {v : Stmt} (hv : v ∈ State.stmts { s with procs := s.procs ++ [⟨[c.stmt], none, 0⟩] }) :
        v ∈ s.stmts ∨ v = c.stmt := by
      simpa [State.stmts] using hv
    refine ⟨?_, h.deleted, h.switchedOff, ?_⟩
    · intro w hw
      refine ⟨(h.quiet w hw).rows, ?_⟩
      intro v hv
      rcases hmem hv with hold | rfl
      · exact (h.quiet w hw).stmts v hold
      · cases c <;> rfl
    · intro v hv
      rcases hmem hv with hold | rfl
      · exact h.loaded v hold
      · cases c <;> trivial
  · exact offKept_moved h hp hwork (hquiet p hp stmt (by rw [hwork]; rfl))

theorem OffKept.sparesOff {cfg : WebhookSettings} {s : State} (h : OffKept s) (m : Move) :
    SparesOff cfg s m := by
  cases m with
  | start c => trivial
  | move i env =>
      intro p hp stmt hstmt w hw hoff
      have hmem : stmt ∈ s.stmts :=
        List.mem_flatMap.mpr ⟨p, List.mem_of_getElem? hp, List.mem_of_head? hstmt⟩
      have hquiet := (h.quiet w hoff).stmts stmt hmem
      have hloaded := h.loaded stmt hmem
      unfold Stmt.requests at hw
      split at hw
      · split at hw
        · obtain rfl := Option.some.inj hw
          obtain ⟨d, hd, hsame⟩ := hloaded
          simp [Stmt.pursues, belongs, hd, hsame] at hquiet
        · cases hw
      · cases hw

/-- In every run in which a webhook is deleted or switched off only while nothing is left to be dispatched
for it, no request is started for a webhook that is off. -/
theorem no_request_after_off (cfg : WebhookSettings) {ms : List Move}
    (hquiet : Guarded (step cfg) OffWhenQuiet State.init ms) :
    Guarded (step cfg) (SparesOff cfg) State.init ms :=
  guarded_of_invariant (fun _ _ _ h hm hstep => offKept_step h hm hstep) (fun _ m h _ => h.sparesOff m)
    offKept_init hquiet

/-- The webhook is deleted after its delivery succeeded; a sweep, a retry and a trigger come later. -/
def deletedWhenQuiet : List Move :=
  triggered 200 ++ .start (.delete 0) :: .move 2 (answering 200 0) :: .move 2 (answering 200 0) ::
    .start (.sweep 10) :: .move 3 (answering 200 60000000) ::
      .start (.retry 0 0) :: .move 4 (answering 200 60000000) ::
        [.start (.trigger .slaViolation none none 2), .move 5 (answering 200 60000000)]

theorem no_request_after_delete : ∃ s, run (step oneRetry) State.init deletedWhenQuiet = some s ∧
    s.Off 0 ∧ Guarded (step oneRetry) (SparesOff oneRetry) State.init deletedWhenQuiet := by
  have hquiet : Guarded (step oneRetry) OffWhenQuiet State.init deletedWhenQuiet := by decide +kernel
  obtain ⟨s, hs, hoff⟩ : ∃ s, run (step oneRetry) State.init deletedWhenQuiet = some s ∧ s.Off 0 :=
    ⟨_, rfl, by decide +kernel⟩
  exact ⟨s, hs, hoff, no_request_after_off oneRetry hquiet⟩

/-- The webhook is switched off in this way while its delivery waits for a retry, which a sweep then
makes. -/
def sweptWhenOff (call : Call) : List Move :=
  triggered 500 ++ .start call :: .move 2 (answering 500 0) :: .move 2 (answering 500 0) ::
    .start (.sweep 10) :: List.replicate 4 (.move 3 (answering 200 60000000))

/-- A sweep starts a request for a webhook that was deleted, and for one that was switched off. -/
theorem request_after_off :
    ¬ Guarded (step oneRetry) (SparesOff oneRetry) State.init (sweptWhenOff (.delete 0)) ∧
      ¬ Guarded (step oneRetry) (SparesOff oneRetry) State.init
        (sweptWhenOff (.update 0 ⟨none, none, none, some false⟩)) := by
  decide +kernel

end ApexChainx.Webhooks.Attempts
