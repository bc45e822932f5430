import ApexChainx.Settlement.Requests
import ApexChainx.Sla.Rows

/-!
# Which decision a recompute returns

`recompute_sla` looks its result up under a compute hash of the outage's id and timestamps. The hash
covers neither the severity, nor the MTTR, nor the configuration, so a row that was stored before one
of these changed is found again and returned. The runs below carry, beside the system, what each stored
result was computed from; a recompute returns the decision of `SLACalculator.calculate` exactly when
the row it finds was computed from inputs that give the same decision.
-/

namespace ApexChainx.Settlement

open ApexChainx.Lib ApexChainx.Sla ApexChainx.Payment

variable {sha256 : String → String}

/-! ## The decision as a function of its inputs -/

/-- What the decision on an outage depends on. -/
structure Inputs where
  config : SLASeverityConfig
  mttr : ℤ
deriving DecidableEq, Repr

/-- Same MTTR, same threshold, and the same rate of the kind that is due: the penalty per minute when
the threshold is exceeded, the reward base otherwise. -/
def Inputs.Agree (i j : Inputs) : Prop :=
  i.mttr = j.mttr ∧ i.config.thresholdMinutes = j.config.thresholdMinutes ∧
    if i.mttr > i.config.thresholdMinutes then
      i.config.penaltyPerMinute = j.config.penaltyPerMinute
    else i.config.rewardBase = j.config.rewardBase

instance (i j : Inputs) : Decidable (i.Agree j) := by
  unfold Inputs.Agree
  infer_instance

/-- The multipliers of the reward tiers are at least 100, so no two reward bases give one amount. -/
theorem reward_injective {ratio : ℤ} {a b : ℕ}
    (h : ((a : ℤ) * (rewardTier ratio).1).fdiv 100 = ((b : ℤ) * (rewardTier ratio).1).fdiv 100) :
    a = b := by
  rw [Int.fdiv_eq_ediv_of_nonneg _ (by decide), Int.fdiv_eq_ediv_of_nonneg _ (by decide)] at h
  unfold rewardTier at h
  split_ifs at h <;> simp only at h <;> omega

theorem decisionFor_eq_iff (i j : Inputs) :
    decisionFor i.config i.mttr = decisionFor j.config j.mttr ↔ i.Agree j := by
  obtain ⟨⟨t, p, r⟩, m⟩ := i
  obtain ⟨⟨t', p', r'⟩, m'⟩ := j
  simp only [Inputs.Agree]
  constructor
  · intro h
    have hm : m = m' := by
      have := congrArg Decision.mttrMinutes h
      unfold decisionFor at this
      split_ifs at this <;> exact this
    have ht : t = t' := by
      have := congrArg Decision.thresholdMinutes h
      unfold decisionFor at this
      split_ifs at this <;> exact Int.ofNat_inj.mp this
    subst hm ht
    refine ⟨rfl, rfl, ?_⟩
    have hamount := congrArg Decision.amount h
    unfold decisionFor at hamount
    by_cases hgt : m > t
    · simp only [if_pos hgt] at hamount ⊢
      have hpos : m - (t : ℤ) ≠ 0 := by omega
      exact Int.ofNat_inj.mp (Int.eq_of_mul_eq_mul_left hpos (Int.neg_inj.mp hamount))
    · simp only [if_neg hgt] at hamount ⊢
      exact reward_injective hamount
  · rintro ⟨rfl, rfl, hrate⟩
    unfold decisionFor
    by_cases hgt : m > t
    · simp only [if_pos hgt] at hrate ⊢
      rw [hrate]
    · simp only [if_neg hgt] at hrate ⊢
      rw [hrate]

/-! ## What a settlement computes and stores -/

/-- A calculation that succeeds has an MTTR and a known severity, and decides from them. -/
theorem settlementResult_eq_ok {live : LivePolicy} {o : OutageRow} {mttr : Option ℤ} {r : SLAResult}
    (h : settlementResult sha256 live o mttr = .ok r) :
    ∃ m s, mttr = some m ∧ Severity.ofString o.severity = some s ∧ r.id = none ∧
      r.outageId = o.id ∧ r.decision = decisionFor (live s).config m := by
  unfold settlementResult at h
  cases mttr with
  | none =>
      simp only at h
      split at h <;> cases h
  | some m =>
      simp only [calculateSla, calculate] at h
      cases hs : Severity.ofString o.severity with
      | none => simp [hs] at h
      | some s =>
          simp only [hs, translateContractResult_toContract, Outcome.ok.injEq] at h
          refine ⟨m, s, rfl, rfl, ?_⟩
          rw [← h]
          exact ⟨rfl, rfl, rfl⟩

/-- What a settlement does: nothing, or the stored result with the outcome of its payment. -/
theorem settle_cases {env : Env} {o : OutageRow} {mttr : Option ℤ} {s s' : Sys}
    {out : Outcome (SLAResult × PaymentTransaction)} (h : settle sha256 env o mttr s = (out, s')) :
    (s' = s ∧ ∃ e, out = .error e) ∨
    ∃ r stored tables, settlementResult sha256 (s.policies env.process) o mttr = .ok r ∧
      createIfChanged (s.callEnv env) (.model r) s.sla = (.ok stored, tables) ∧
      s' = { s with
        sla := tables
        outages := setSlaStatus o.id stored s.outages
        payments := (createForSlaResult env.now o.id stored s.payments).2 } ∧
      ∀ sla payment, out = .ok (sla, payment) → sla = stored := by
  unfold settle at h
  split at h
  · rename_i e he
    simp only [Prod.mk.injEq] at h
    exact .inl ⟨h.2.symm, e, h.1.symm⟩
  · rename_i r hr
    split at h
    · rename_i e _ _
      simp only [Prod.mk.injEq] at h
      exact .inl ⟨h.2.symm, e, h.1.symm⟩
    · rename_i stored tables hstored
      refine .inr ⟨r, stored, tables, hr, hstored, ?_⟩
      simp only at h
      split at h
      · rename_i e payments hpay
        simp only [Prod.mk.injEq] at h
        obtain ⟨rfl, rfl⟩ := h
        refine ⟨?_, by intro sla payment hout; cases hout⟩
        have hsame := createForSlaResult_error hpay
        rw [hpay, hsame]
      · rename_i payment payments hpay
        rw [hpay]
        split at h
        · simp only [Prod.mk.injEq] at h
          obtain ⟨rfl, rfl⟩ := h
          exact ⟨rfl, by intro sla payment hout; cases hout⟩
        · simp only [Prod.mk.injEq] at h
          obtain ⟨rfl, rfl⟩ := h
          refine ⟨rfl, ?_⟩
          intro sla payment' hout
          rw [Outcome.ok.injEq, Prod.mk.injEq] at hout
          exact hout.1.symm

/-- The tables after a settlement: as they were, or with one new latest row that states the decision on
the settlement's inputs. -/
theorem settle_sla {env : Env} {o : OutageRow} {mttr : Option ℤ} {s s' : Sys}
    {out : Outcome (SLAResult × PaymentTransaction)} (h : settle sha256 env o mttr s = (out, s')) :
    s'.sla = s.sla ∨
    ∃ (r : SLAResult) (m : ℤ) (sev : Severity), mttr = some m ∧
      Severity.ofString o.severity = some sev ∧
      r.decision = decisionFor (s.policies env.process sev).config m ∧
      s'.sla = { s.sla with
        results := demoteLatest r.outageId s.sla.results
          ++ [newRow (s.callEnv env) s.sla.nextResultId r.modelDump]
        nextResultId := s.sla.nextResultId + 1 } := by
  rcases settle_cases h with ⟨hs, -⟩ | ⟨r, stored, tables, hr, hstored, hs, -⟩
  · exact .inl (by rw [hs])
  · obtain ⟨m, sev, hm, hsev, hid, -, hdec⟩ := settlementResult_eq_ok hr
    rcases createIfChanged_cases hid hstored with
      ⟨x, -, -, htables⟩ | ⟨-, ⟨e, he⟩, -⟩ | ⟨-, -, -, htables⟩
    · exact .inl (by rw [hs, htables])
    · cases he
    · exact .inr ⟨r, m, sev, hm, hsev, hdec, by rw [hs, htables]⟩

/-! ## Runs that remember what each result was computed from -/

/-- The inputs a request settles with. -/
def requestInputs (s : Sys) (env : Env) : Request → Option Inputs
  | .resolveOutage id mttr =>
      (getOutage s.outages id).bind fun o =>
        (Severity.ofString o.severity).map fun sev => ⟨(s.policies env.process sev).config, mttr⟩
  | .recomputeSla id =>
      (getOutage s.outages id).bind fun o => o.mttrMinutes.bind fun m =>
        (Severity.ofString o.severity).map fun sev => ⟨(s.policies env.process sev).config, m⟩
  | _ => none

/-- The system with the inputs each stored result was computed from. -/
structure Traced where
  sys : Sys
  computedFrom : ℕ → Option Inputs

/-- No result is stored yet. -/
def Traced.init (outages : List OutageRow) : Traced := ⟨Sys.init outages, fun _ => none⟩

/-- A request that takes a new result id records its inputs under it. -/
def Traced.step (sha256 : String → String) (t : Traced) (a : Env × Request) : Option Traced :=
  let s' := (serve sha256 t.sys a.1 a.2).2
  some ⟨s',
    if s'.sla.nextResultId = t.sys.sla.nextResultId then t.computedFrom
    else Function.update t.computedFrom t.sys.sla.nextResultId (requestInputs t.sys a.1 a.2)⟩

/-- What one request does to the rows, flags aside: nothing, or it appends one, and a row with a compute
hash states the decision on the inputs of the request. -/
def RowStep (s s' : Sys) (inputs : Option Inputs) : Prop :=
  (s'.sla.results.map SLAResultRow.unflag = s.sla.results.map SLAResultRow.unflag ∧
    s'.sla.nextResultId = s.sla.nextResultId) ∨
  ∃ x, s'.sla.results.map SLAResultRow.unflag
      = (s.sla.results ++ [x]).map SLAResultRow.unflag ∧
    x.id = s.sla.nextResultId ∧ s'.sla.nextResultId = s.sla.nextResultId + 1 ∧
    (x.computeHash ≠ none → ∃ i, inputs = some i ∧ x.toResult.decision = decisionFor i.config i.mttr)

theorem RowStep.of_sla_eq {s s' : Sys} {inputs : Option Inputs} (h : s'.sla = s.sla) :
    RowStep s s' inputs := .inl ⟨by rw [h], by rw [h]⟩

@[simp] theorem wrapSettled_snd (x : Outcome (SLAResult × PaymentTransaction) × Sys) :
    (wrapSettled x).2 = x.2 := by
  obtain ⟨out, s⟩ := x
  cases out <;> rfl

@[simp] theorem onDisputes_sla (s : Sys) (x : Outcome SLADispute × SlaTables) :
    (onDisputes s x).2.sla = x.2 := by
  obtain ⟨out, t⟩ := x
  cases out <;> rfl

theorem settle_rowStep (env : Env) (o : OutageRow) (mttr : Option ℤ) (s : Sys)
    {inputs : Option Inputs}
    (hinputs : ∀ m sev, mttr = some m → Severity.ofString o.severity = some sev →
      inputs = some ⟨(s.policies env.process sev).config, m⟩) :
    RowStep s (settle sha256 env o mttr s).2 inputs := by
  rcases hset : settle sha256 env o mttr s with ⟨out, s'⟩
  rcases settle_sla hset with hsame | ⟨r, m, sev, hm, hsev, hdec, hsla⟩
  · exact .of_sla_eq hsame
  · refine .inr ⟨newRow (s.callEnv env) s.sla.nextResultId r.modelDump, ?_, rfl, by rw [hsla], ?_⟩
    · rw [hsla]
      simp only [List.map_append, map_unflag_demoteLatest]
    · intro _
      exact ⟨_, hinputs m sev hm hsev, hdec⟩

/-- The row `resolve` commits is the outage under its id, with the same severity. -/
theorem resolveRow_severity {now : DateTime} {id : String} {mttr : ℤ}
    {outages outages' : List OutageRow} {o' : OutageRow}
    (h : resolveRow now id mttr outages = (.ok (some o'), outages')) :
    ∃ o, getOutage outages id = some o ∧ o'.severity = o.severity := by
  unfold resolveRow at h
  split at h
  · cases h
  · rename_i o ho
    refine ⟨o, ho, ?_⟩
    split at h
    · simp only [Prod.mk.injEq, Outcome.ok.injEq, Option.some.injEq] at h
      rw [h.1]
    · split at h
      · cases h
      · split at h
        · cases h
        · simp only [Prod.mk.injEq, Outcome.ok.injEq, Option.some.injEq] at h
          rw [← h.1]

/-- One request on the rows. -/
theorem serve_rowStep (sha256 : String → String) (s : Sys) (env : Env) (req : Request) :
    RowStep s (serve sha256 s env req).2 (requestInputs s env req) := by
  cases req with
  | updateOutage id u =>
      refine .of_sla_eq ?_
      simp only [serve]
      split <;> rfl
  | resolveOutage id mttr =>
      simp only [serve, resolveOutage]
      split
      · exact .of_sla_eq rfl
      · split
        · exact .of_sla_eq rfl
        · exact .of_sla_eq rfl
        · rename_i o outages hres
          obtain ⟨o₀, ho₀, hsev₀⟩ := resolveRow_severity hres
          rw [wrapSettled_snd]
          refine settle_rowStep env o (some mttr) { s with outages := outages } ?_
          intro m sev hm hsev
          rw [hsev₀] at hsev
          cases hm
          simp [requestInputs, ho₀, hsev]
  | recomputeSla id =>
      simp only [serve, recomputeSla]
      split
      · exact .of_sla_eq rfl
      · rename_i o ho
        split
        · exact .of_sla_eq rfl
        · rw [wrapSettled_snd]
          refine settle_rowStep env o o.mttrMinutes s ?_
          intro m sev hm hsev
          simp [requestInputs, ho, hm, hsev]
  | flagDispute r email reason =>
      obtain ⟨hrows, hnext⟩ := flagDispute_results (s.callEnv env) r email reason s.sla
      exact .inl ⟨by simp [serve, hrows], by simp [serve, hnext]⟩
  | createProposedSla r req =>
      rcases createProposedSla_results (s.callEnv env) r req s.sla with
        ⟨hrows, hnext⟩ | ⟨x, hrows, -, hhash, hid, hnext⟩
      · exact .inl ⟨by simp [serve, hrows], by simp [serve, hnext]⟩
      · -- a proposal has no compute hash, so no inputs are recorded for it
        refine .inr ⟨x, by simp [serve, hrows], hid, by simp [serve, hnext], ?_⟩
        intro hne
        exact absurd hhash hne
  | resolveDispute r email req =>
      obtain ⟨hrows, hnext⟩ := resolveDispute_unflag (s.callEnv env) r email req s.sla
      exact .inl ⟨by simp [serve, hrows], by simp [serve, hnext]⟩
  | publish severity policy => exact .of_sla_eq rfl
  | restart => exact .of_sla_eq rfl

/-- Every row with a compute hash states the decision on the inputs recorded for it. -/
structure Recorded (t : Traced) : Prop where
  ids_lt : ∀ r ∈ t.sys.sla.results, r.id < t.sys.sla.nextResultId
  hashed : ∀ r ∈ t.sys.sla.results, r.computeHash ≠ none →
    ∃ i, t.computedFrom r.id = some i ∧ r.toResult.decision = decisionFor i.config i.mttr

theorem recorded_init (outages : List OutageRow) : Recorded (Traced.init outages) := by
  constructor
  · intro r hr
    simp [Traced.init, Sys.init, SlaTables.empty] at hr
  · intro r hr
    simp [Traced.init, Sys.init, SlaTables.empty] at hr

/-- One request keeps the record. -/
theorem Recorded.step {t t' : Traced} {a : Env × Request} (h : Recorded t)
    (hstep : Traced.step sha256 t a = some t') : Recorded t' := by
  obtain ⟨env, req⟩ := a
  simp only [Traced.step, Option.some.injEq] at hstep
  subst hstep
  rcases serve_rowStep sha256 t.sys env req with
    ⟨hrows, hnext⟩ | ⟨x, hrows, hid, hnext, hx⟩
  · -- no row is added: every row has its counterpart in the table before
    constructor
    · intro r hr
      obtain ⟨y, hy, hidy, -, -⟩ := exists_counterpart hrows hr
      simp only [hnext, ← hidy]
      exact h.ids_lt y hy
    · intro r hr hne
      obtain ⟨y, hy, hidy, hhash, hres⟩ := exists_counterpart hrows hr
      simp only [hnext, if_true, ← hidy, ← hres]
      exact h.hashed y hy (hhash ▸ hne)
  · have hne' : t.sys.sla.nextResultId + 1 ≠ t.sys.sla.nextResultId := by omega
    constructor
    · intro r hr
      obtain ⟨y, hy, hidy, -, -⟩ := exists_counterpart hrows hr
      simp only [hnext, ← hidy]
      rcases List.mem_append.mp hy with hold | hnew
      · have := h.ids_lt y hold
        omega
      · rw [List.mem_singleton.mp hnew, hid]
        omega
    · intro r hr hne
      obtain ⟨y, hy, hidy, hhash, hres⟩ := exists_counterpart hrows hr
      simp only [hnext, if_neg hne', ← hidy, ← hres]
      rcases List.mem_append.mp hy with hold | hnew
      · -- an old row keeps its record: the new id is above it
        have hlt := h.ids_lt y hold
        rw [Function.update_of_ne (by omega)]
        exact h.hashed y hold (hhash ▸ hne)
      · have hyx := List.mem_singleton.mp hnew
        subst hyx
        rw [hid, Function.update_self]
        exact hx (hhash ▸ hne)

/-! ## The returned decision -/

/-- The row a recompute of the outage finds under its compute hash. -/
def storedUnder (sha256 : String → String) (s : Sys) (env : Env) (id : String) :
    Option SLAResultRow :=
  match getOutage s.outages id with
  | none => none
  | some o =>
      match settlementResult sha256 (s.policies env.process) o o.mttrMinutes with
      | .error _ => none
      | .ok r => existingByHash s.sla r.modelDump

/-- A recompute that succeeds has found a resolved outage and settled it. -/
theorem recomputeSla_eq_ok {env : Env} {id : String} {s : Sys} {sla : SLAResult}
    {payment : PaymentTransaction}
    (h : (recomputeSla sha256 env id s).1 = .ok (.settled sla payment)) :
    ∃ o, getOutage s.outages id = some o ∧ o.status = .resolved ∧
      (settle sha256 env o o.mttrMinutes s).1 = .ok (sla, payment) := by
  unfold recomputeSla at h
  cases ho : getOutage s.outages id with
  | none => simp [ho] at h
  | some o =>
      simp only [ho] at h
      split at h
      · cases h
      · rename_i hres
        refine ⟨o, rfl, by simpa using hres, ?_⟩
        rcases hset : settle sha256 env o o.mttrMinutes s with ⟨out, s'⟩
        cases out with
        | error e =>
            rw [hset] at h
            cases e <;> simp [wrapSettled, Outcome.locked] at h
        | ok p =>
            obtain ⟨r, q⟩ := p
            rw [hset] at h
            simp only [wrapSettled, Outcome.locked, Outcome.ok.injEq,
              SettlementReply.settled.injEq] at h
            rw [h.1, h.2]

/-- The row found under the compute hash has one. -/
theorem existingByHash_computeHash {t : SlaTables} {p : SLAPayload} {x : SLAResultRow}
    (h : existingByHash t p = some x) : x.computeHash ≠ none := by
  unfold existingByHash at h
  obtain ⟨hash, -, hfind⟩ := Option.bind_eq_some_iff.mp h
  have hp := List.find?_some hfind
  simp only [hashedAs, Bool.and_eq_true, decide_eq_true_eq] at hp
  rw [hp.2]
  exact Option.some_ne_none _

/-- In every run, a recompute that succeeds returns the decision of `SLACalculator.calculate` on the
outage's current severity and MTTR under the live configuration exactly when no result is stored under
its compute hash, or the stored one was computed from inputs that agree with the current ones. -/
theorem recompute_decision_iff (sha256 : String → String) (outages : List OutageRow)
    (as : List (Env × Request)) (t : Traced) (env : Env) (id : String) (sla : SLAResult)
    (payment : PaymentTransaction)
    (hrun : run (Traced.step sha256) (Traced.init outages) as = some t)
    (hok : (serve sha256 t.sys env (.recomputeSla id)).1 = .ok (.settled sla payment)) :
    ∃ o m c i, getOutage t.sys.outages id = some o ∧ o.mttrMinutes = some m ∧
      calculate sha256 (t.sys.policies env.process) o.id o.severity m "1.0" "config"
        o.detectedAt.isoformat (isoformatOrEmpty o.resolvedAt) = .ok c ∧
      requestInputs t.sys env (.recomputeSla id) = some i ∧
      (sla.decision = c.decision ↔
        ∀ x ∈ storedUnder sha256 t.sys env id, ∃ j, t.computedFrom x.id = some j ∧ j.Agree i) := by
  have hrec : Recorded t := run_invariant (fun _ _ _ h hs => h.step hs) (recorded_init outages) hrun
  obtain ⟨o, ho, -, hset⟩ := recomputeSla_eq_ok hok
  rcases hsettle : settle sha256 env o o.mttrMinutes t.sys with ⟨out, s'⟩
  rw [hsettle] at hset
  simp only at hset
  subst hset
  rcases settle_cases hsettle with ⟨-, e, he⟩ | ⟨r, stored, tables, hr, hstored, -, hout⟩
  · cases he
  · obtain ⟨m, sev, hm, hsev, hid, -, hdec⟩ := settlementResult_eq_ok hr
    have hsla : sla = stored := hout sla payment rfl
    have hunder : storedUnder sha256 t.sys env id = existingByHash t.sys.sla r.modelDump := by
      simp only [storedUnder, ho, hr]
    obtain ⟨c, hc, hcdec⟩ : ∃ c, calculate sha256 (t.sys.policies env.process) o.id o.severity m
        "1.0" "config" o.detectedAt.isoformat (isoformatOrEmpty o.resolvedAt) = .ok c ∧
        c.decision = decisionFor (t.sys.policies env.process sev).config m := by
      simp only [calculate, hsev, Outcome.ok.injEq]
      exact ⟨_, rfl, rfl⟩
    refine ⟨o, m, c, ⟨(t.sys.policies env.process sev).config, m⟩, ho, hm, hc, ?_, ?_⟩
    · simp [requestInputs, ho, hm, hsev]
    · rw [hcdec, hsla, hunder]
      rcases createIfChanged_cases hid hstored with
        ⟨x, hx, hxr, -⟩ | ⟨-, ⟨e, he⟩, -⟩ | ⟨hnone, hnew, -, -⟩
      · -- a stored row is returned: its decision is the one on the inputs recorded for it
        obtain ⟨j, hj, hjdec⟩ := hrec.hashed x (existingByHash_spec hx).1
          (existingByHash_computeHash hx)
        rw [Outcome.ok.injEq] at hxr
        rw [hxr, hjdec, hx, decisionFor_eq_iff j ⟨_, m⟩]
        constructor
        · intro hagree y hy
          rw [Option.mem_some_iff] at hy
          exact ⟨j, hy ▸ hj, hagree⟩
        · intro hall
          obtain ⟨j', hj', hagree⟩ := hall x rfl
          rw [hj, Option.some.injEq] at hj'
          rw [hj']
          exact hagree
      · cases he
      · -- a new row is stored: it is the calculation itself
        rw [Outcome.ok.injEq] at hnew
        have hnewdec : stored.decision = decisionFor (t.sys.policies env.process sev).config m := by
          rw [hnew, ← hdec]
          rfl
        rw [hnone]
        constructor
        · intro _ x hx
          cases hx
        · intro _
          exact hnewdec

theorem valid_sampleDetected : DateTime.Valid 2026 1 1 0 0 0 0 := by decide

/-- Midnight of the first of January 2026, the time the sample outage was detected. -/
def sampleDetected : DateTime := .ofValid valid_sampleDetected

/-- Twenty minutes later. -/
def sampleResolved : DateTime := { sampleDetected with minute := 20, minute_lt := by decide }

/-- An open critical outage. -/
def sampleOutage : OutageRow := ⟨"OUT001", "critical", .open, sampleDetected, none, none, none⟩

/-- Requests served by process 0 at the time of resolution. -/
def sampleEnv : Env := ⟨0, sampleResolved, sampleDetected, none⟩

/-- SHA-256 at the one text the sample runs hash:
`OUT001||2026-01-01T00:00:00+00:00||2026-01-01T00:20:00+00:00||1.0`. -/
def sampleSha256 (_ : String) : String :=
  "b76adc8d34e46c549f1565e97502374a33b08d62e79ed3ab9fd6426477dc0108"

/-- A recompute right after the resolution finds the row computed from the same inputs. -/
theorem recompute_decision_iff_unchanged :
    ∃ t sla payment, run (Traced.step sampleSha256) (Traced.init [sampleOutage])
        [(sampleEnv, .resolveOutage "OUT001" 20)] = some t ∧
      (serve sampleSha256 t.sys sampleEnv (.recomputeSla "OUT001")).1
        = .ok (.settled sla payment) ∧
      sla.decision = ⟨.violated, 20, 15, -500, .penalty, .poor⟩ ∧
      ∃ o m c i, getOutage t.sys.outages "OUT001" = some o ∧ o.mttrMinutes = some m ∧
        calculate sampleSha256 (t.sys.policies sampleEnv.process) o.id o.severity m "1.0" "config"
          o.detectedAt.isoformat (isoformatOrEmpty o.resolvedAt) = .ok c ∧
        requestInputs t.sys sampleEnv (.recomputeSla "OUT001") = some i ∧
        (sla.decision = c.decision ↔ ∀ x ∈ storedUnder sampleSha256 t.sys sampleEnv "OUT001",
          ∃ j, t.computedFrom x.id = some j ∧ j.Agree i) :=
  ⟨_, _, _, rfl, rfl, rfl, recompute_decision_iff sampleSha256 [sampleOutage]
    [(sampleEnv, .resolveOutage "OUT001" 20)] _ sampleEnv "OUT001" _ _ rfl rfl⟩

/-- The outage is resolved as critical and then edited to low: the recompute returns the penalty of the
critical severity, where the calculator gives the reward of the low one. -/
theorem recompute_returns_stale_decision :
    ¬ ∀ (sha256 : String → String) (outages : List OutageRow) (as : List (Env × Request)) (s : Sys)
        (env : Env) (id : String) (sla : SLAResult) (payment : PaymentTransaction) (o : OutageRow)
        (m : ℤ) (c : SLAResult),
      run (step sha256) (Sys.init outages) as = some s →
      (serve sha256 s env (.recomputeSla id)).1 = .ok (.settled sla payment) →
      getOutage s.outages id = some o → o.mttrMinutes = some m →
      calculate sha256 (s.policies env.process) o.id o.severity m "1.0" "config"
        o.detectedAt.isoformat (isoformatOrEmpty o.resolvedAt) = .ok c →
      sla.decision = c.decision := by
  intro h
  have hdec := h sampleSha256 [sampleOutage]
    [(sampleEnv, .resolveOutage "OUT001" 20),
      (sampleEnv, .updateOutage "OUT001" ⟨some (some .low), none, none⟩)]
    _ sampleEnv "OUT001" _ _ _ 20 _ rfl rfl rfl rfl rfl
  revert hdec
  decide

end ApexChainx.Settlement
