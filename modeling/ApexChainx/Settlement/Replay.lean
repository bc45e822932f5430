import ApexChainx.Settlement.Recompute

/-!
# Resolving an outage again

`resolve_outage` has a short cut for the request that repeats a resolution: it is to return the stored
result and its payment. The comparison in front of the short cut reads `mttr_minutes` off the model
`Outage`, which has no such field, so the repeated request raises inside the lock, however often it is
sent, and changes nothing.
-/

namespace ApexChainx.Settlement

open ApexChainx.Lib ApexChainx.Sla ApexChainx.Payment

variable {sha256 : String → String}

/-- The request succeeds, returns the current result of the outage with the payment of that result, and
changes nothing. -/
def Replayed (sha256 : String → String) (env : Env) (id : String) (mttr : ℤ) (s : Sys) : Prop :=
  ∃ sla payment, resolveOutage sha256 env id mttr s = (.ok (.settled sla payment), s) ∧
    getByOutage s.sla id = some sla ∧ payment ∈ s.payments ∧ payment.slaResultId = sla.id

/-- The outage is there and resolved. -/
def IsResolved (s : Sys) (id : String) : Prop :=
  ∃ o, getOutage s.outages id = some o ∧ o.status = .resolved

theorem getOutage_id {outages : List OutageRow} {id : String} {o : OutageRow}
    (h : getOutage outages id = some o) : o.id = id := by
  have hid := List.find?_some h
  exact of_decide_eq_true hid

/-- The row that was written is found again. -/
theorem getOutage_updateKey {outages : List OutageRow} {id : String} {o o' : OutageRow}
    (ho : getOutage outages id = some o) (hid : o'.id = id) :
    getOutage (updateKey OutageRow.id id (fun _ => o') outages) id = some o' := by
  unfold getOutage at ho ⊢
  induction outages with
  | nil => cases ho
  | cons x outages ih =>
      rw [updateKey_cons]
      by_cases hx : x.id = id
      · rw [if_pos hx]
        exact List.find?_cons_of_pos (decide_eq_true hid)
      · rw [List.find?_cons_of_neg (by simpa using hx)] at ho
        rw [if_neg hx, List.find?_cons_of_neg (by simpa using hx)]
        exact ih ho

/-- `resolve` commits the outage as resolved. -/
theorem resolveRow_resolved {now : DateTime} {id : String} {mttr : ℤ} {outages outages' : List OutageRow}
    {o' : OutageRow} (h : resolveRow now id mttr outages = (.ok (some o'), outages')) :
    getOutage outages' id = some o' ∧ o'.status = .resolved := by
  unfold resolveRow at h
  split at h
  · cases h
  · rename_i o ho
    split at h
    · rename_i hsame
      simp only [Prod.mk.injEq, Outcome.ok.injEq, Option.some.injEq] at h
      obtain ⟨rfl, rfl⟩ := h
      exact ⟨ho, hsame.1⟩
    · split at h
      · cases h
      · split at h
        · cases h
        · simp only [Prod.mk.injEq, Outcome.ok.injEq, Option.some.injEq] at h
          obtain ⟨rfl, rfl⟩ := h
          have hid : o.id = id := getOutage_id ho
          exact ⟨getOutage_updateKey ho hid, rfl⟩

/-- A settlement leaves its outage resolved. -/
theorem settle_isResolved {env : Env} {o : OutageRow} {mttr : Option ℤ} {s : Sys} {id : String}
    (ho : getOutage s.outages id = some o) (hst : o.status = .resolved) :
    IsResolved (settle sha256 env o mttr s).2 id := by
  rcases hset : settle sha256 env o mttr s with ⟨out, s'⟩
  rcases settle_cases hset with ⟨rfl, -⟩ | ⟨r, stored, tables, -, -, rfl, -⟩
  · exact ⟨o, ho, hst⟩
  · obtain rfl := getOutage_id ho
    have hfind := @find?_updateKey _ _ _ OutageRow.id o.id
      (fun x => { x with slaStatus := some ⟨stored.status, stored.mttrMinutes, stored.thresholdMinutes⟩ })
      (fun _ => rfl) s.outages
    exact ⟨_, hfind.trans (congrArg _ ho), hst⟩

/-- After a resolution the outage is resolved. -/
theorem resolveOutage_isResolved {env : Env} {id : String} {mttr : ℤ} {s s' : Sys} {reply : SettlementReply}
    (h : resolveOutage sha256 env id mttr s = (.ok reply, s')) : IsResolved s' id := by
  unfold resolveOutage at h
  simp only at h
  split at h
  · cases (Prod.mk.inj h).1
  · split at h
    · cases (Prod.mk.inj h).1
    · cases (Prod.mk.inj h).1
    · rename_i o outages hres
      obtain ⟨ho, hst⟩ := resolveRow_resolved hres
      obtain ⟨-, rfl⟩ := Prod.mk.inj h
      rw [wrapSettled_snd]
      exact settle_isResolved (s := { s with outages := outages }) ho hst

/-- What the lock makes of the missing field. -/
def noMttrMinutes : ApiError :=
  .transient "Unexpected error in locked section: 'Outage' object has no attribute 'mttr_minutes'"

/-- On a resolved outage the request raises before anything else. -/
theorem resolveOutage_of_isResolved (sha256 : String → String) (env : Env) {id : String} (mttr : ℤ) {s : Sys}
    (h : IsResolved s id) : resolveOutage sha256 env id mttr s
      = (.error noMttrMinutes, s) := by
  obtain ⟨⟨oid, severity, status, detectedAt, resolvedAt, mttrMinutes, slaStatus⟩, ho, hst⟩ := h
  obtain rfl : status = .resolved := hst
  unfold resolveOutage
  rw [ho]
  rfl

/-- After a resolution every request that repeats it raises and changes nothing, however many there are:
no request replays the resolution. -/
theorem repeated_resolve_raises (sha256 : String → String) {env : Env} {id : String} {mttr : ℤ}
    {s s' s'' : Sys} {reply : SettlementReply}
    (h : resolveOutage sha256 env id mttr s = (.ok reply, s')) (replays : List Env)
    (hrun : run (step sha256) s' (replays.map fun e => (e, .resolveOutage id mttr)) = some s'') (env' : Env) :
    s'' = s' ∧ resolveOutage sha256 env' id mttr s''
      = (.error noMttrMinutes, s') ∧
      ¬Replayed sha256 env' id mttr s'' := by
  have hresolved := resolveOutage_isResolved h
  have hsame : s'' = s' := by
    induction replays with
    | nil => exact (Option.some.inj hrun).symm
    | cons e replays ih =>
        rw [List.map_cons, run_cons_eq_some] at hrun
        obtain ⟨t, ht, hrest⟩ := hrun
        have hstep : (serve sha256 s' e (.resolveOutage id mttr)).2 = s' := by
          show (resolveOutage sha256 e id mttr s').2 = s'
          rw [resolveOutage_of_isResolved sha256 e mttr hresolved]
        obtain rfl : s' = t := hstep.symm.trans (Option.some.inj ht)
        exact ih hrest
  subst hsame
  have hraises := resolveOutage_of_isResolved sha256 env' mttr hresolved
  refine ⟨rfl, hraises, ?_⟩
  rintro ⟨sla, payment, hreplayed, -⟩
  rw [hraises] at hreplayed
  cases (Prod.mk.inj hreplayed).1

/-- Three requests that repeat a resolution of the outage. -/
theorem repeated_resolve_raises_sample : ∃ reply s s',
    resolveOutage sampleSha256 sampleEnv "OUT001" 20 (Sys.init [sampleOutage]) = (.ok reply, s) ∧
      run (step sampleSha256) s [(sampleEnv, .resolveOutage "OUT001" 20), (sampleEnv, .resolveOutage "OUT001" 20)]
        = some s' ∧
      s' = s ∧ resolveOutage sampleSha256 sampleEnv "OUT001" 20 s' = (.error noMttrMinutes, s) := by
  obtain ⟨reply, s, hresolve⟩ : ∃ reply s, resolveOutage sampleSha256 sampleEnv "OUT001" 20 (Sys.init [sampleOutage])
      = (.ok reply, s) := ⟨_, _, rfl⟩
  obtain ⟨s', hrun⟩ : ∃ s', run (step sampleSha256) s
      [(sampleEnv, .resolveOutage "OUT001" 20), (sampleEnv, .resolveOutage "OUT001" 20)] = some s' := ⟨_, rfl⟩
  obtain ⟨hsame, hraises, -⟩ :=
    repeated_resolve_raises sampleSha256 hresolve [sampleEnv, sampleEnv] hrun sampleEnv
  exact ⟨reply, s, s', hresolve, hrun, hsame, hraises⟩

/-- The outage is resolved with an MTTR of 20 minutes, and resolved again with the same. -/
theorem repeated_resolve_not_replayed : ∃ reply s,
    resolveOutage sampleSha256 sampleEnv "OUT001" 20 (Sys.init [sampleOutage]) = (.ok reply, s) ∧
      ¬Replayed sampleSha256 sampleEnv "OUT001" 20 s := by
  refine ⟨_, _, rfl, ?_⟩
  rintro ⟨sla, payment, hreplayed, -⟩
  cases (Prod.mk.inj hreplayed).1

end ApexChainx.Settlement
