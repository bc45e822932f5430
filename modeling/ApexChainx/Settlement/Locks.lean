import ApexChainx.Settlement.Payments

/-!
# Settlements that overlap

`resolve_outage` and `recompute_sla`, any number of them at once, cut at their commits. Each takes an
advisory lock that PostgreSQL gives back at the first commit of the transaction that took it, and a row
lock that goes the same way. The two endpoints lock different keys, and both commit before they are
through: the settlement that follows is not protected (`settlements_excluded`).

Every repository call is one statement up to its commit. A loaded outage keeps the values it was loaded
with. The audit log has a session of its own and is left out with the analytics cache.
-/

namespace ApexChainx.Settlement

open ApexChainx.Lib ApexChainx.Sla ApexChainx.Payment

/-! ## Requests on their way -/

/-- The two endpoints. -/
inductive Endpoint
  | resolve (mttr : ℤ)
  | recompute
deriving DecidableEq, Repr

/-- The next statement of a request; a loaded outage goes along. -/
inductive SettlePc
  /-- `recompute_sla` reads the outage before it locks. -/
  | getOutage
  /-- `advisory_lock_nowait`. -/
  | tryLock (outage : Option OutageRow)
  /-- `existing = repo.get(outage_id)` of `resolve_outage`. -/
  | getExisting
  /-- `get_orm_locked`: `SELECT … FOR UPDATE`. -/
  | lockRow (outage : Option OutageRow)
  /-- The `UPDATE` of `OutageRepository.resolve` and its commit. -/
  | commitResolved
  | recordResolved (outage : OutageRow)
  /-- `create_if_changed`. -/
  | storeResult (outage : OutageRow) (mttr : Option ℤ)
  | recordComputed (outage : OutageRow) (stored : SLAResult)
  /-- The copy of the status onto the outage. -/
  | copyStatus (outage : OutageRow) (stored : SLAResult)
  /-- `create_for_sla_result`. -/
  | createPayment (outage : OutageRow) (stored : SLAResult)
  | triggerWebhooks (stored : SLAResult) (payment : PaymentTransaction)
  | recordRecomputed (stored : SLAResult) (payment : PaymentTransaction)
  | returned (out : Outcome SettlementReply)
deriving DecidableEq, Repr

/-- The request is past its advisory lock and has not returned. -/
def SettlePc.isProtected : SettlePc → Bool
  | .getOutage | .tryLock _ | .returned _ => false
  | _ => true

/-- The next statement is the one that takes the advisory lock. -/
def SettlePc.isTryLock : SettlePc → Bool
  | .tryLock _ => true
  | _ => false

/-- The statements that write the SLA result, the copied status and the payment. -/
def SettlePc.inSection : SettlePc → Bool
  | .storeResult .. | .copyStatus .. | .createPayment .. => true
  | _ => false

/-- A request on its way, and the locks its transaction holds. -/
structure InFlight where
  endpoint : Endpoint
  outageId : String
  env : Env
  advisory : Bool
  row : Bool
  pc : SettlePc
deriving DecidableEq, Repr

/-- A request at its first statement. -/
def InFlight.start (endpoint : Endpoint) (outageId : String) (env : Env) : InFlight :=
  ⟨endpoint, outageId, env, false, false,
    match endpoint with
    | .resolve _ => .tryLock none
    | .recompute => .getOutage⟩

/-- The key of the advisory lock. -/
def InFlight.lockKey (c : InFlight) : String :=
  match c.endpoint with
  | .resolve _ => "resolve:" ++ c.outageId
  | .recompute => "sla_recompute:" ++ c.outageId

/-- What a request is refused with while the lock is held. -/
def InFlight.conflict (c : InFlight) : ApiError :=
  match c.endpoint with
  | .resolve _ => .http 409
      ("Operation for '" ++ c.lockKey ++ "' is already in progress. Please retry later.")
  | .recompute => .http 409 "SLA recomputation already in progress"

/-- The transaction goes on to `pc`. -/
def InFlight.goto (c : InFlight) (pc : SettlePc) : InFlight := { c with pc := pc }

/-- The transaction commits and gives its locks back; the next one goes on to `pc`. -/
def InFlight.commit (c : InFlight) (pc : SettlePc) : InFlight :=
  { c with advisory := false, row := false, pc := pc }

/-- The request returns, and its session is closed. -/
def InFlight.finish (c : InFlight) (out : Outcome SettlementReply) : InFlight := c.commit (.returned out)

/-- What is raised inside the lock leaves it as a transient error. -/
def InFlight.raise (c : InFlight) (e : ApiError) : InFlight := c.finish (Outcome.error e).locked

/-! ## Statements -/

section

variable (sha256 : String → String) (lockId : String → ℤ)

/-- One statement of a request beside the `others`; `none` while it waits for the row lock. -/
def InFlight.advance (s : Sys) (others : List InFlight) (c : InFlight) : Option (Sys × InFlight) :=
  match c.pc with
  | .getOutage =>
      match getOutage s.outages c.outageId with
      | none => some (s, c.finish (.error (.http 404 "Outage not found")))
      | some o =>
          if o.status ≠ .resolved then
            some (s, c.finish (.error (.http 400 "Outage must be resolved to recompute SLA")))
          else some (s, c.goto (.tryLock (some o)))
  | .tryLock outage =>
      if others.any fun d => d.advisory && lockId d.lockKey = lockId c.lockKey then
        some (s, c.finish (.error c.conflict))
      else
        match c.endpoint with
        | .resolve _ => some (s, { c with advisory := true, pc := .getExisting })
        | .recompute => some (s, { c with advisory := true, pc := .lockRow outage })
  | .getExisting =>
      match getOutage s.outages c.outageId with
      | some ⟨_, _, .resolved, _, _, _, _⟩ => some (s, c.raise (.attributeError "Outage" "mttr_minutes"))
      | existing => some (s, c.goto (.lockRow existing))
  | .lockRow outage =>
      if others.any fun d => d.row && d.outageId = c.outageId then none
      else
        match c.endpoint, outage with
        | .resolve _, none => some (s, c.raise (.http 404 "Outage not found"))
        | .resolve _, some _ => some (s, { c with row := true, pc := .commitResolved })
        | .recompute, none => some (s, c.raise (.attributeError "NoneType" "detected_at"))
        | .recompute, some o => some (s, { c with row := true, pc := .storeResult o o.mttrMinutes })
  | .commitResolved =>
      match c.endpoint with
      | .resolve mttr =>
          if !fitsInteger mttr then some (s, c.raise (.dataError "mttr_minutes"))
          else
            let outages := updateKey OutageRow.id c.outageId (resolvedRow c.env.now mttr) s.outages
            match getOutage outages c.outageId with
            | none => some ({ s with outages := outages }, c.raise (.staleRow "outages"))
            | some o => some ({ s with outages := outages }, c.commit (.recordResolved o))
      | .recompute => none
  | .recordResolved o =>
      match c.endpoint with
      | .resolve mttr => some (s, c.commit (.storeResult o (some mttr)))
      | .recompute => none
  | .storeResult o mttr =>
      match settlementResult sha256 (s.policies c.env.process) o mttr with
      | .error e => some (s, c.raise e)
      | .ok sla =>
          match createIfChanged (s.callEnv c.env) (.model sla) s.sla with
          | (.error e, _) => some (s, c.raise e)
          | (.ok stored, tables) =>
              let next : SettlePc :=
                match c.endpoint with
                | .resolve _ => .recordComputed o stored
                | .recompute => .copyStatus o stored
              -- a result that is there already is returned without a commit
              some ({ s with sla := tables },
                if tables.nextResultId = s.sla.nextResultId then c.goto next else c.commit next)
  | .recordComputed o stored => some (s, c.commit (.copyStatus o stored))
  | .copyStatus o stored =>
      some ({ s with outages := setSlaStatus o.id stored s.outages }, c.commit (.createPayment o stored))
  | .createPayment o stored =>
      match createForSlaResult c.env.now o.id stored s.payments with
      | (.error e, _) => some (s, c.raise e)
      | (.ok payment, payments) =>
          -- no lock is left by now, whether this commits or finds the payment
          some ({ s with payments := payments }, c.commit (.triggerWebhooks stored payment))
  | .triggerWebhooks stored payment =>
      match if stored.status = .violated then c.env.webhooks else none with
      | some e => some (s, c.raise e)
      | none =>
          match c.endpoint with
          | .resolve _ => some (s, c.finish (.ok (.settled stored payment)))
          | .recompute => some (s, c.goto (.recordRecomputed stored payment))
  | .recordRecomputed stored payment => some (s, c.finish (.ok (.settled stored payment)))
  | .returned _ => none

/-- The database and the requests on their way. -/
structure Overlap where
  sys : Sys
  calls : List InFlight

/-- A request arrives, or the `i`-th request executes its next statement. -/
inductive OverlapEvent
  | arrive (endpoint : Endpoint) (outageId : String) (env : Env)
  | move (i : ℕ)
deriving DecidableEq, Repr

/-- The interleaving semantics. -/
def Overlap.step (x : Overlap) : OverlapEvent → Option Overlap
  | .arrive endpoint outageId env =>
      some { x with calls := x.calls ++ [InFlight.start endpoint outageId env] }
  | .move i =>
      match x.calls[i]? with
      | none => none
      | some c =>
          (c.advance sha256 lockId x.sys (x.calls.eraseIdx i)).map fun next =>
            ⟨next.1, x.calls.set i next.2⟩

end

variable {sha256 : String → String} {lockId : String → ℤ}

/-! ## Exclusion -/

/-- A request that executes a statement of its section is the only one for its outage that is past its
advisory lock and has not returned. -/
def Excluded (x : Overlap) : OverlapEvent → Prop
  | .arrive .. => True
  | .move i => ∀ c ∈ x.calls[i]?, c.pc.inSection = true →
      ∀ d ∈ x.calls.eraseIdx i, d.outageId = c.outageId → d.pc.isProtected = false

instance (x : Overlap) : (e : OverlapEvent) → Decidable (Excluded x e)
  | .arrive .. => inferInstanceAs (Decidable True)
  | .move i => inferInstanceAs (Decidable (∀ c ∈ x.calls[i]?, c.pc.inSection = true →
      ∀ d ∈ x.calls.eraseIdx i, d.outageId = c.outageId → d.pc.isProtected = false))

/-- A request that tries its lock while another for the outage is protected finds that one in its first
transaction, with the same lock. -/
def LockStillHeld (lockId : String → ℤ) (x : Overlap) : OverlapEvent → Prop
  | .arrive .. => True
  | .move i => ∀ c ∈ x.calls[i]?, c.pc.isTryLock = true →
      ∀ d ∈ x.calls.eraseIdx i, d.outageId = c.outageId → d.pc.isProtected = true →
        d.advisory = true ∧ lockId d.lockKey = lockId c.lockKey

instance (x : Overlap) : (e : OverlapEvent) → Decidable (LockStillHeld lockId x e)
  | .arrive .. => inferInstanceAs (Decidable True)
  | .move i => inferInstanceAs (Decidable (∀ c ∈ x.calls[i]?, c.pc.isTryLock = true →
      ∀ d ∈ x.calls.eraseIdx i, d.outageId = c.outageId → d.pc.isProtected = true →
        d.advisory = true ∧ lockId d.lockKey = lockId c.lockKey))

theorem advance_outageId {s s' : Sys} {others : List InFlight} {c c' : InFlight}
    (h : c.advance sha256 lockId s others = some (s', c')) : c'.outageId = c.outageId := by
  unfold InFlight.advance at h
  dsimp only at h
  repeat' split at h
  all_goals first
    | (obtain ⟨-, rfl⟩ := Prod.mk.inj (Option.some.inj h); rfl)
    | cases h

/-- A request becomes protected only when it takes its lock, which no other request holds then. -/
theorem advance_protected {s s' : Sys} {others : List InFlight} {c c' : InFlight}
    (h : c.advance sha256 lockId s others = some (s', c')) (hprotected : c'.pc.isProtected = true) :
    c.pc.isProtected = true ∨ c.pc.isTryLock = true ∧
      ∀ d ∈ others, ¬(d.advisory = true ∧ lockId d.lockKey = lockId c.lockKey) := by
  unfold InFlight.advance at h
  cases hpc : c.pc with
  | getOutage =>
      rw [hpc] at h
      dsimp only at h
      split at h
      · obtain ⟨-, rfl⟩ := Prod.mk.inj (Option.some.inj h)
        cases hprotected
      · split at h
        · obtain ⟨-, rfl⟩ := Prod.mk.inj (Option.some.inj h)
          cases hprotected
        · obtain ⟨-, rfl⟩ := Prod.mk.inj (Option.some.inj h)
          cases hprotected
  | tryLock outage =>
      rw [hpc] at h
      dsimp only at h
      split at h
      · obtain ⟨-, rfl⟩ := Prod.mk.inj (Option.some.inj h)
        cases hprotected
      · rename_i hfree
        refine .inr ⟨rfl, ?_⟩
        intro d hd hheld
        refine hfree (List.any_eq_true.mpr ⟨d, hd, ?_⟩)
        rw [hheld.1, Bool.true_and]
        exact decide_eq_true hheld.2
  | returned out =>
      rw [hpc] at h
      cases h
  | _ => exact .inl rfl

/-- At most one request for an outage is past its advisory lock and has not returned. -/
def Exclusive (x : Overlap) : Prop :=
  ∀ (i j : ℕ) (c d : InFlight), x.calls[i]? = some c → x.calls[j]? = some d → j ≠ i → d.outageId = c.outageId →
    c.pc.isProtected = true → d.pc.isProtected = false

theorem step_move {x x' : Overlap} {i : ℕ} (h : x.step sha256 lockId (.move i) = some x') :
    ∃ c s' c', x.calls[i]? = some c ∧
      c.advance sha256 lockId x.sys (x.calls.eraseIdx i) = some (s', c') ∧
      x' = ⟨s', x.calls.set i c'⟩ := by
  simp only [Overlap.step] at h
  split at h
  · cases h
  · rename_i c hc
    obtain ⟨⟨s', c'⟩, hadvance, rfl⟩ := Option.map_eq_some_iff.mp h
    exact ⟨c, s', c', hc, hadvance, rfl⟩

/-- A request that arrives is not protected. -/
theorem start_not_protected (endpoint : Endpoint) (outageId : String) (env : Env) :
    (InFlight.start endpoint outageId env).pc.isProtected = false := by
  cases endpoint <;> rfl

/-- A request that has moved is protected with no other one of its outage. -/
theorem advance_exclusive {x : Overlap} {i : ℕ} {c c' : InFlight} {s' : Sys} (hx : Exclusive x)
    (hok : LockStillHeld lockId x (.move i)) (hc : x.calls[i]? = some c)
    (hadvance : c.advance sha256 lockId x.sys (x.calls.eraseIdx i) = some (s', c'))
    (hprotected : c'.pc.isProtected = true) {j : ℕ} {d : InFlight} (hd : x.calls[j]? = some d)
    (hne : j ≠ i) (hid : d.outageId = c.outageId) : d.pc.isProtected = false := by
  rcases advance_protected hadvance hprotected with hbefore | ⟨htry, hfree⟩
  · exact hx i j c d hc hd hne hid hbefore
  · have hmem : d ∈ x.calls.eraseIdx i := List.mem_eraseIdx_iff_getElem?.mpr ⟨j, hne, hd⟩
    by_contra hother
    have hheld := hok c hc htry d hmem hid (by simpa using hother)
    exact hfree d hmem hheld

theorem step_exclusive {x x' : Overlap} {e : OverlapEvent} (hx : Exclusive x)
    (hok : LockStillHeld lockId x e) (h : x.step sha256 lockId e = some x') : Exclusive x' := by
  cases e with
  | arrive endpoint outageId env =>
      obtain rfl := Option.some.inj h
      have hstart := start_not_protected endpoint outageId env
      -- what is protected was there before
      have hold : ∀ (k : ℕ) (b : InFlight), (x.calls ++ [InFlight.start endpoint outageId env])[k]? = some b →
          b.pc.isProtected = true → x.calls[k]? = some b := by
        intro k b hb hprotected
        rcases Nat.lt_or_ge k x.calls.length with hlt | hge
        · rwa [List.getElem?_append_left hlt] at hb
        · rw [List.getElem?_append_right hge] at hb
          rw [List.mem_singleton.mp (List.mem_of_getElem? hb), hstart] at hprotected
          cases hprotected
      intro i j c d hc hd hne hid hprotected
      by_contra hother
      have hd' := hold j d hd (by simpa using hother)
      exact hother (hx i j c d (hold i c hc hprotected) hd' hne hid hprotected)
  | move k =>
      obtain ⟨b, s', b', hb, hadvance, rfl⟩ := step_move h
      have hbid := advance_outageId hadvance
      obtain ⟨hlt, -⟩ := List.getElem?_eq_some_iff.mp hb
      intro i j c d hc hd hne hid hprotected
      by_cases hi : i = k
      · subst hi
        rw [List.getElem?_set_self hlt] at hc
        obtain rfl := Option.some.inj hc
        rw [List.getElem?_set_ne (Ne.symm hne)] at hd
        exact advance_exclusive hx hok hb hadvance hprotected hd hne (hid.trans hbid)
      · rw [List.getElem?_set_ne (Ne.symm hi)] at hc
        by_cases hj : j = k
        · subst hj
          rw [List.getElem?_set_self hlt] at hd
          obtain rfl := Option.some.inj hd
          by_contra hother
          have hcfree := advance_exclusive hx hok hb hadvance (by simpa using hother) hc hi
            (hid.symm.trans hbid)
          rw [hprotected] at hcfree
          cases hcfree
        · rw [List.getElem?_set_ne (Ne.symm hj)] at hd
          exact hx i j c d hc hd hne hid hprotected

theorem inSection_isProtected {pc : SettlePc} (h : pc.inSection = true) : pc.isProtected = true := by
  cases pc with
  | storeResult outage mttr => rfl
  | copyStatus outage stored => rfl
  | createPayment outage stored => rfl
  | _ => cases h

/-- In every interleaving in which a request that tries its lock finds the others for its outage still
holding theirs, and under the same key, every section is executed alone. -/
theorem settlements_excluded (sha256 : String → String) (lockId : String → ℤ) (s : Sys)
    (as : List OverlapEvent)
    (hok : Guarded (Overlap.step sha256 lockId) (LockStillHeld lockId) ⟨s, []⟩ as) :
    Guarded (Overlap.step sha256 lockId) Excluded ⟨s, []⟩ as := by
  have hstart : Exclusive ⟨s, []⟩ := by
    intro i j c d hc
    cases hc
  refine guarded_of_invariant (fun x e x' => step_exclusive) ?_ hstart hok
  rintro x (_ | i) hx -
  · trivial
  · intro c hc hsection d hd hid
    obtain ⟨j, hne, hj⟩ := List.mem_eraseIdx_iff_getElem?.mp hd
    exact hx i j c d hc hj hne hid (inSection_isProtected hsection)

/-- The advisory lock ids of one outage. -/
def sampleLockId (key : String) : ℤ :=
  if key = "sla_recompute:OUT002" then -8093833212299281094
  else if key = "resolve:OUT002" then 1645391534592277171 else 0

/-- The second recompute tries its lock while the first holds it. -/
def refusedRecompute : List OverlapEvent :=
  [.arrive .recompute "OUT002" sampleEnv, .arrive .recompute "OUT002" sampleEnv, .move 0, .move 1,
    .move 0, .move 0, .move 1, .move 0]

theorem settlements_excluded_refused :
    Guarded (Overlap.step sampleSha256 sampleLockId) Excluded ⟨Sys.init [sampleUndated], []⟩
      refusedRecompute :=
  settlements_excluded sampleSha256 sampleLockId (Sys.init [sampleUndated]) refusedRecompute (by decide)

/-- The first recompute has stored its result and goes on; the commit gave its lock back, and the second
one takes it and stores a result, too. -/
theorem recomputes_overlap :
    ¬Guarded (Overlap.step sampleSha256 sampleLockId) Excluded ⟨Sys.init [sampleUndated], []⟩
      [.arrive .recompute "OUT002" sampleEnv, .arrive .recompute "OUT002" sampleEnv,
        .move 0, .move 0, .move 0, .move 0, .move 1, .move 1, .move 1, .move 1] := by
  decide

end ApexChainx.Settlement
