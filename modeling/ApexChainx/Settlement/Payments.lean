import ApexChainx.Settlement.Recompute

/-!
# Every current result has its payment

After each request the latest SLA result of an outage should have exactly one payment, of its type and
of the absolute value of its amount. The settlement commits the result before the payment, and the
table allows one payment per outage and type, so the payment can fail after its result is stored; and a
resolved dispute makes a result the latest one without paying it. `Payable` says of a request that
neither happens, and in the runs of such requests the law holds throughout.
-/

namespace ApexChainx.Settlement

open ApexChainx.Lib ApexChainx.Sla ApexChainx.Payment

variable {sha256 : String → String}

/-- The payment is the one the result calls for. -/
def PaidBy (r : SLAResultRow) (p : PaymentTransaction) : Prop :=
  p.slaResultId = some r.id ∧ p.type = r.paymentType ∧ p.amount = r.amount.natAbs

instance (r : SLAResultRow) (p : PaymentTransaction) : Decidable (PaidBy r p) :=
  inferInstanceAs (Decidable (_ ∧ _ ∧ _))

/-- The result has its payment. -/
def Paid (payments : List PaymentTransaction) (r : SLAResultRow) : Prop :=
  payments.countP (·.slaResultId = some r.id) = 1 ∧ ∃ p ∈ payments, PaidBy r p

instance (payments : List PaymentTransaction) (r : SLAResultRow) : Decidable (Paid payments r) :=
  inferInstanceAs (Decidable (_ ∧ _))

/-- Every outage's latest result has its payment. -/
def LatestPaid (s : Sys) : Prop := ∀ r ∈ s.sla.results, r.isLatest = true → Paid s.payments r

instance (s : Sys) : Decidable (LatestPaid s) :=
  inferInstanceAs (Decidable (∀ r ∈ s.sla.results, r.isLatest = true → Paid s.payments r))

/-- Every result of `s'` that `s` does not have has its payment. -/
def NewPaid (s s' : Sys) : Prop :=
  ∀ r ∈ s'.sla.results, r.id ∉ s.sla.results.map SLAResultRow.id → Paid s'.payments r

instance (s s' : Sys) : Decidable (NewPaid s s') :=
  inferInstanceAs (Decidable (∀ r ∈ s'.sla.results,
    r.id ∉ s.sla.results.map SLAResultRow.id → Paid s'.payments r))

/-! ## Requests whose payment can be stored -/

/-- If the settlement stores a new result, its payment can be stored with it: the outage has no payment
of that type yet, and the amount is not the one `bigint` whose absolute value is no `bigint`. -/
def ResultPayable (sha256 : String → String) (s : Sys) (env : Env) (o : OutageRow)
    (mttr : Option ℤ) : Prop :=
  ∀ r ∈ (settlementResult sha256 (s.policies env.process) o mttr).value?,
    existingByHash s.sla r.modelDump = none →
      (∀ p ∈ s.payments, p.outageId = o.id → p.type ≠ r.paymentType) ∧
        r.amount ≠ -9223372036854775808

instance (s : Sys) (env : Env) (o : OutageRow) (mttr : Option ℤ) :
    Decidable (ResultPayable sha256 s env o mttr) :=
  inferInstanceAs (Decidable (∀ r ∈ (settlementResult sha256 (s.policies env.process) o mttr).value?,
    existingByHash s.sla r.modelDump = none →
      (∀ p ∈ s.payments, p.outageId = o.id → p.type ≠ r.paymentType) ∧
        r.amount ≠ -9223372036854775808))

/-- The resolution does not make a proposed result the latest one: it applies none, or the one it would
apply is older than the latest result of its outage. -/
def AppliesNone (t : SlaTables) (slaResultId : ℕ) (req : ResolveDisputeRequest) : Prop :=
  req.status = .resolved ∧ req.applyProposed = true →
    ∀ d ∈ pendingDispute t slaResultId, ∀ pid ∈ d.proposedSlaResultId.filter (· ≠ 0),
      ∀ proposed ∈ t.results.find? (·.id = pid),
        ∃ latest ∈ t.results, latestOf proposed.outageId latest = true ∧ proposed.id < latest.id

instance (t : SlaTables) (slaResultId : ℕ) (req : ResolveDisputeRequest) :
    Decidable (AppliesNone t slaResultId req) :=
  inferInstanceAs (Decidable (req.status = .resolved ∧ req.applyProposed = true →
    ∀ d ∈ pendingDispute t slaResultId, ∀ pid ∈ d.proposedSlaResultId.filter (· ≠ 0),
      ∀ proposed ∈ t.results.find? (·.id = pid),
        ∃ latest ∈ t.results, latestOf proposed.outageId latest = true ∧ proposed.id < latest.id))

/-- The row `resolve` commits for an open outage. -/
def resolvedRow (now : DateTime) (mttr : ℤ) (o : OutageRow) : OutageRow :=
  { o with status := .resolved, mttrMinutes := some mttr, resolvedAt := some now }

/-- The condition on a request under which the law is kept. -/
def Payable (sha256 : String → String) (s : Sys) : Env × Request → Prop
  | (env, .resolveOutage id mttr) =>
      ∀ o ∈ getOutage s.outages id, o.status = .open → fitsInteger mttr = true →
        ResultPayable sha256 s env (resolvedRow env.now mttr o) (some mttr)
  | (env, .recomputeSla id) =>
      ∀ o ∈ getOutage s.outages id, o.status = .resolved →
        ResultPayable sha256 s env o o.mttrMinutes
  | (_, .resolveDispute r _ req) => AppliesNone s.sla r req
  | _ => True

instance (s : Sys) : (a : Env × Request) → Decidable (Payable sha256 s a)
  | (env, .resolveOutage id mttr) =>
      inferInstanceAs (Decidable (∀ o ∈ getOutage s.outages id, o.status = .open →
        fitsInteger mttr = true → ResultPayable sha256 s env (resolvedRow env.now mttr o) (some mttr)))
  | (env, .recomputeSla id) =>
      inferInstanceAs (Decidable (∀ o ∈ getOutage s.outages id, o.status = .resolved →
        ResultPayable sha256 s env o o.mttrMinutes))
  | (_, .resolveDispute r _ req) => inferInstanceAs (Decidable (AppliesNone s.sla r req))
  | (_, .updateOutage _ _) | (_, .flagDispute _ _ _) | (_, .createProposedSla _ _) | (_, .publish _ _)
  | (_, .restart) => isTrue trivial

/-! ## The invariant -/

/-- Every result that is the latest, or was stored under a compute hash, has a payment; every payment
is linked to a result id already handed out, and no two to the same one. -/
structure PaidInv (s : Sys) : Prop where
  latest : LatestInv s.sla
  paid : ∀ r ∈ s.sla.results, r.isLatest = true ∨ r.computeHash ≠ none →
    ∃ p ∈ s.payments, PaidBy r p
  linked : ∀ p ∈ s.payments, ∃ i, p.slaResultId = some i ∧ i < s.sla.nextResultId
  unique : (s.payments.map PaymentTransaction.slaResultId).Nodup

theorem paidInv_init (outages : List OutageRow) : PaidInv (Sys.init outages) := by
  refine ⟨latestInv_empty, ?_, ?_, List.nodup_nil⟩
  · intro r hr
    simp [Sys.init, SlaTables.empty] at hr
  · intro p hp
    simp [Sys.init] at hp

/-- With distinct links, a result that has a payment has exactly one. -/
theorem PaidInv.paid_of_exists {s : Sys} (h : PaidInv s) {r : SLAResultRow}
    (hr : ∃ p ∈ s.payments, PaidBy r p) : Paid s.payments r := by
  refine ⟨?_, hr⟩
  obtain ⟨p, hp, hlink, -⟩ := hr
  have hmem : some r.id ∈ s.payments.map PaymentTransaction.slaResultId := by
    rw [← hlink]
    exact List.mem_map_of_mem hp
  have hcount := List.count_eq_one_of_mem h.unique hmem
  rw [List.count, List.countP_map] at hcount
  rw [← hcount]
  exact List.countP_congr fun q _ => by simp

theorem PaidInv.latestPaid {s : Sys} (h : PaidInv s) : LatestPaid s := by
  intro r hr hflag
  exact h.paid_of_exists (h.paid r hr (.inl hflag))

/-- The law does not depend on the outages, the disputes or the policies. -/
theorem PaidInv.of_eq {s s' : Sys} (h : PaidInv s) (hlatest : LatestInv s'.sla)
    (hrows : s'.sla.results = s.sla.results) (hnext : s'.sla.nextResultId = s.sla.nextResultId)
    (hpay : s'.payments = s.payments) : PaidInv s' := by
  refine ⟨hlatest, ?_, ?_, ?_⟩
  · rw [hrows, hpay]
    exact h.paid
  · rw [hnext, hpay]
    exact h.linked
  · rw [hpay]
    exact h.unique

/-! ## What the payment of a result does -/

/-- A result that has a payment gets no second one. -/
theorem createForSlaResult_existing {now : DateTime} {outageId : String} {r : SLAResult} {i : ℕ}
    {payments : List PaymentTransaction} (hid : r.id = some i)
    (hex : ∃ p ∈ payments, p.slaResultId = some i) :
    (createForSlaResult now outageId r payments).2 = payments := by
  obtain ⟨p, hp, hlink⟩ := hex
  have hsome : (getBySlaResult payments i).isSome = true := by
    rw [getBySlaResult, List.find?_isSome]
    exact ⟨p, hp, by simp [hlink]⟩
  obtain ⟨q, hq⟩ := Option.isSome_iff_exists.mp hsome
  simp only [createForSlaResult, hid, hq]

/-- A result without a payment gets one, when the outage has none of its type and its amount can be
stored. -/
theorem createForSlaResult_new {now : DateTime} {outageId : String} {r : SLAResult} {i : ℕ}
    {payments : List PaymentTransaction} (hid : r.id = some i)
    (hfree : ∀ p ∈ payments, p.slaResultId ≠ some i)
    (htype : ∀ p ∈ payments, p.outageId = outageId → p.type ≠ r.paymentType)
    (hfits : fitsBigint r.amount.natAbs = true) :
    (createForSlaResult now outageId r payments).2
      = payments ++ [newPayment now payments.length outageId i r] := by
  have hget : getBySlaResult payments i = none := by
    rw [getBySlaResult, List.find?_eq_none]
    intro p hp
    simpa using hfree p hp
  have hins : insertPayment payments (newPayment now payments.length outageId i r)
      = .ok (payments ++ [newPayment now payments.length outageId i r]) := by
    unfold insertPayment
    rw [if_neg, if_neg, if_neg]
    · intro hany
      obtain ⟨q, hq, hlink⟩ := List.any_eq_true.mp hany
      simp only [newPayment, Option.isSome_some, Bool.true_and] at hlink
      exact hfree q hq (of_decide_eq_true hlink)
    · intro hany
      obtain ⟨q, hq, hsame⟩ := List.any_eq_true.mp hany
      simp only [newPayment, Bool.and_eq_true] at hsame
      exact htype q hq (of_decide_eq_true hsame.1) (of_decide_eq_true hsame.2)
    · simpa [newPayment] using hfits
  simp only [createForSlaResult, hid, hget, hins]

/-! ## Steps -/

/-- A demoted table has the rows of the table before, some with their flag cleared. -/
theorem mem_demoteLatest {o : String} {results : List SLAResultRow} {r : SLAResultRow}
    (hr : r ∈ demoteLatest o results) :
    ∃ x ∈ results, x.unflag = r.unflag ∧ (r.isLatest = true → x.isLatest = true) := by
  unfold demoteLatest at hr
  obtain ⟨x, hx, rfl⟩ := List.mem_map.mp hr
  refine ⟨x, hx, ?_, ?_⟩
  · split <;> rfl
  · split
    · intro hflag
      cases hflag
    · exact id

theorem PaidBy.of_unflag {x r : SLAResultRow} {p : PaymentTransaction} (h : PaidBy x p)
    (hxr : x.unflag = r.unflag) : PaidBy r p := by
  have hx : PaidBy x.unflag p := h
  rw [hxr] at hx
  exact hx

/-- The amount of a stored result can be negated unless it is the least `bigint`. -/
theorem fitsBigint_natAbs {n : ℤ} (h : fitsBigint n = true) (hne : n ≠ -9223372036854775808) :
    fitsBigint n.natAbs = true := by
  simp only [fitsBigint, Bool.and_eq_true, decide_eq_true_eq] at h ⊢
  omega

/-- A settlement whose payment can be stored keeps the law. -/
theorem settle_paidInv {s : Sys} {env : Env} {o : OutageRow} {mttr : Option ℤ} (h : PaidInv s)
    (hpay : ResultPayable sha256 s env o mttr) : PaidInv (settle sha256 env o mttr s).2 := by
  rcases hset : settle sha256 env o mttr s with ⟨out, s'⟩
  rcases settle_cases hset with ⟨rfl, -⟩ | ⟨r, stored, tables, hr, hstored, hs, -⟩
  · exact h
  · obtain ⟨m, sev, -, -, hid, ho, -⟩ := settlementResult_eq_ok hr
    rcases createIfChanged_cases hid hstored with
      ⟨x, hx, hxr, htables⟩ | ⟨-, ⟨e, he⟩, -⟩ | ⟨hnone, hnew, hfits, htables⟩
    · -- the stored row has its payment, which is returned
      rw [Outcome.ok.injEq] at hxr
      obtain ⟨p, hp, hby⟩ := h.paid x (existingByHash_spec hx).1
        (.inr (existingByHash_computeHash hx))
      have hpayments : (createForSlaResult env.now o.id stored s.payments).2 = s.payments := by
        rw [hxr]
        exact createForSlaResult_existing rfl ⟨p, hp, hby.1⟩
      rw [hs, htables, hpayments]
      exact h.of_eq h.latest rfl rfl rfl
    · cases he
    · -- the new row takes a fresh id, so nothing is linked to it yet
      rw [Outcome.ok.injEq] at hnew
      obtain ⟨htype, hamount⟩ := hpay r (by rw [hr]; rfl) hnone
      have hbig : fitsBigint r.amount = true := by
        simp only [SLAResultRow.fits, Bool.and_eq_true] at hfits
        exact hfits.1.1.1.1.2
      have hfree : ∀ p ∈ s.payments, p.slaResultId ≠ some s.sla.nextResultId := by
        intro p hp hlink
        obtain ⟨i, hi, hlt⟩ := h.linked p hp
        rw [hi, Option.some.injEq] at hlink
        omega
      have hpayments : (createForSlaResult env.now o.id stored s.payments).2 = s.payments
          ++ [newPayment env.now s.payments.length o.id s.sla.nextResultId stored] := by
        rw [hnew]
        exact createForSlaResult_new rfl hfree htype (fitsBigint_natAbs hbig hamount)
      rw [hs, htables, hpayments]
      refine ⟨h.latest.insertLatest (s.callEnv env) r.modelDump, ?_, ?_, ?_⟩
      · intro x hx hflag
        rcases List.mem_append.mp hx with hold | hlast
        · -- an old row, perhaps no longer the latest, keeps the payment it had
          obtain ⟨y, hy, hyx, hyflag⟩ := mem_demoteLatest hold
          have hhash : y.computeHash = x.computeHash :=
            congrArg (fun z => z.toResult.computeHash) hyx
          obtain ⟨p, hp, hby⟩ := h.paid y hy (hflag.imp hyflag fun hne => hhash ▸ hne)
          exact ⟨p, List.mem_append_left _ hp, hby.of_unflag hyx⟩
        · rw [List.mem_singleton.mp hlast]
          refine ⟨_, List.mem_append_right _ (List.mem_singleton.mpr rfl), ?_⟩
          rw [hnew]
          exact ⟨rfl, rfl, rfl⟩
      · intro p hp
        rcases List.mem_append.mp hp with hold | hlast
        · obtain ⟨i, hi, hlt⟩ := h.linked p hold
          exact ⟨i, hi, by simp only; omega⟩
        · rw [List.mem_singleton.mp hlast]
          exact ⟨s.sla.nextResultId, rfl, by simp only; omega⟩
      · rw [List.map_append, List.nodup_append]
        refine ⟨h.unique, List.nodup_singleton _, ?_⟩
        intro a ha b hb hab
        obtain ⟨p, hp, hpa⟩ := List.mem_map.mp ha
        rw [List.map_singleton, List.mem_singleton] at hb
        exact hfree p hp (hpa.trans (hab.trans hb))

/-- What `resolve` commits for an open outage. -/
theorem resolveRow_open {now : DateTime} {id : String} {mttr : ℤ} {outages outages' : List OutageRow}
    {o o' : OutageRow} (ho : getOutage outages id = some o) (hopen : o.status = .open)
    (h : resolveRow now id mttr outages = (.ok (some o'), outages')) :
    fitsInteger mttr = true ∧ o' = resolvedRow now mttr o ∧
      outages' = updateKey OutageRow.id id (fun _ => resolvedRow now mttr o) outages := by
  unfold resolveRow at h
  rw [ho] at h
  simp only [hopen, reduceCtorEq, false_and, if_false] at h
  rw [show validateStatusTransition .open .resolved = none from rfl] at h
  simp only at h
  split at h
  · cases (Prod.mk.inj h).1
  · rename_i hfits
    simp only [Prod.mk.injEq, Outcome.ok.injEq, Option.some.injEq] at h
    exact ⟨by simpa using hfits, h.1.symm, h.2.symm⟩

theorem resolveRow_missing {now : DateTime} {id : String} {mttr : ℤ} {outages : List OutageRow}
    (ho : getOutage outages id = none) : resolveRow now id mttr outages = (.ok none, outages) := by
  unfold resolveRow
  rw [ho]

/-- `resolve_outage` and `recompute_sla` leave the system alone or settle an outage. -/
theorem resolveOutage_cases (sha256 : String → String) (env : Env) (id : String) (mttr : ℤ)
    (s : Sys) :
    (resolveOutage sha256 env id mttr s).2 = s ∨
    ∃ o outages, getOutage s.outages id = some o ∧ o.status = .open ∧ fitsInteger mttr = true ∧
      outages = updateKey OutageRow.id id (fun _ => resolvedRow env.now mttr o) s.outages ∧
      (resolveOutage sha256 env id mttr s).2
        = (settle sha256 env (resolvedRow env.now mttr o) (some mttr)
            { s with outages := outages }).2 := by
  unfold resolveOutage
  simp only
  split
  · exact .inl rfl
  · rename_i hnot
    split
    · exact .inl rfl
    · exact .inl rfl
    · rename_i o' outages hres
      cases ho : getOutage s.outages id with
      | none =>
          rw [resolveRow_missing ho] at hres
          cases hres
      | some o =>
          have hopen : o.status = .open := by
            cases hst : o.status with
            | «open» => rfl
            | resolved =>
                obtain ⟨a, b, st, c, d, e, f⟩ := o
                cases hst
                exact absurd ho (hnot a b c d e f)
          obtain ⟨hfits, rfl, hrows⟩ := resolveRow_open ho hopen hres
          refine .inr ⟨o, outages, rfl, hopen, hfits, hrows, ?_⟩
          rw [wrapSettled_snd]

theorem recomputeSla_cases (sha256 : String → String) (env : Env) (id : String) (s : Sys) :
    (recomputeSla sha256 env id s).2 = s ∨
    ∃ o, getOutage s.outages id = some o ∧ o.status = .resolved ∧
      (recomputeSla sha256 env id s).2 = (settle sha256 env o o.mttrMinutes s).2 := by
  unfold recomputeSla
  split
  · exact .inl rfl
  · rename_i o ho
    split
    · exact .inl rfl
    · rename_i hst
      exact .inr ⟨o, ho, by simpa using hst, by rw [wrapSettled_snd]⟩

@[simp] theorem onDisputes_payments (s : Sys) (x : Outcome SLADispute × SlaTables) :
    (onDisputes s x).2.payments = s.payments := by
  obtain ⟨out, t⟩ := x
  cases out <;> rfl

/-- A resolution that applies nothing leaves the rows as they are. -/
theorem resolveDispute_results (env : CallEnv) {r : ℕ} (email : String)
    {req : ResolveDisputeRequest} {t : SlaTables} (h : LatestInv t) (hnone : AppliesNone t r req) :
    (resolveDispute env r email req t).2.results = t.results := by
  unfold resolveDispute
  split
  · rfl
  · split
    · rfl
    · rename_i d hd
      split
      · rfl
      · rename_i rows happ
        unfold applyResolution at happ
        split at happ
        · rename_i happly
          split at happ
          · cases happ
          · rename_i pid hpid
            split at happ
            · cases happ
            · rename_i proposed hfind
              obtain ⟨latest, hl, hlatest, hlt⟩ := hnone happly d hd pid hpid proposed hfind
              exact absurd happ
                (flushApply_older h (List.mem_of_find?_eq_some hfind) hl hlatest hlt)
        · rw [Outcome.ok.injEq] at happ
          exact happ.symm

/-- One request that meets the condition keeps the law. -/
theorem serve_paidInv {s : Sys} (h : PaidInv s) (env : Env) (req : Request)
    (hpay : Payable sha256 s (env, req)) : PaidInv (serve sha256 s env req).2 := by
  cases req with
  | updateOutage id u =>
      simp only [serve]
      split <;> exact h.of_eq h.latest rfl rfl rfl
  | resolveOutage id mttr =>
      rcases resolveOutage_cases sha256 env id mttr s with hs | ⟨o, outages, ho, hopen, hfits, -, hs⟩
      · exact hs.symm ▸ h
      · have hs' : PaidInv { s with outages := outages } := h.of_eq h.latest rfl rfl rfl
        have hres : ResultPayable sha256 { s with outages := outages } env
            (resolvedRow env.now mttr o) (some mttr) := hpay o ho hopen hfits
        exact hs.symm ▸ settle_paidInv hs' hres
  | recomputeSla id =>
      rcases recomputeSla_cases sha256 env id s with hs | ⟨o, ho, hst, hs⟩
      · exact hs.symm ▸ h
      · exact hs.symm ▸ settle_paidInv h (hpay o ho hst)
  | flagDispute r email reason =>
      obtain ⟨hrows, hnext⟩ := flagDispute_results (s.callEnv env) r email reason s.sla
      have hlatest := (flagDispute_keeps (s.callEnv env) r email reason s.sla).inv h.latest
      exact h.of_eq (by simpa [serve] using hlatest) (by simp [serve, hrows])
        (by simp [serve, hnext]) (by simp [serve])
  | createProposedSla r req =>
      have hlatest := (createProposedSla_keeps (s.callEnv env) r req s.sla).inv h.latest
      rcases createProposedSla_results (s.callEnv env) r req s.sla with
        ⟨hrows, hnext⟩ | ⟨x, hrows, hflag, hhash, hid, hnext⟩
      · exact h.of_eq (by simpa [serve] using hlatest)
          (by simp [serve, hrows]) (by simp [serve, hnext])
          (by simp [serve])
      · -- a proposal is neither the latest nor hashed, so the law asks no payment for it
        refine ⟨by simpa [serve] using hlatest, ?_, ?_, ?_⟩
        · simp only [serve, onDisputes_sla, onDisputes_payments, hrows]
          intro y hy hor
          rcases List.mem_append.mp hy with hold | hlast
          · exact h.paid y hold hor
          · rw [List.mem_singleton.mp hlast, hflag, hhash] at hor
            simp at hor
        · simp only [serve, onDisputes_sla, onDisputes_payments, hnext]
          intro p hp
          obtain ⟨i, hi, hlt⟩ := h.linked p hp
          exact ⟨i, hi, by omega⟩
        · simpa [serve] using h.unique
  | resolveDispute r email req =>
      have hlatest := (resolveDispute_keeps (s.callEnv env) r email req s.sla h.latest).inv h.latest
      have hrows := resolveDispute_results (s.callEnv env) email h.latest hpay
      have hnext := (resolveDispute_unflag (s.callEnv env) r email req s.sla).2
      exact h.of_eq (by simpa [serve] using hlatest) (by simp [serve, hrows])
        (by simp [serve, hnext]) (by simp [serve])
  | publish severity policy => exact h.of_eq h.latest rfl rfl rfl
  | restart => exact h.of_eq h.latest rfl rfl rfl

/-! ## Requests that fail -/

/-- Every row a settlement adds is the latest one. -/
theorem settle_new_latest (env : Env) (o : OutageRow) (mttr : Option ℤ) (s : Sys) :
    ∀ r ∈ (settle sha256 env o mttr s).2.sla.results, r.id ∉ s.sla.results.map SLAResultRow.id →
      r.isLatest = true := by
  rcases hset : settle sha256 env o mttr s with ⟨out, s'⟩
  intro r hr hnew
  rcases settle_sla hset with hsame | ⟨x, m, sev, -, -, -, hsla⟩
  · simp only [hsame] at hr
    exact absurd (List.mem_map_of_mem hr) hnew
  · simp only [hsla] at hr
    rcases List.mem_append.mp hr with hold | hlast
    · have hid := List.mem_map_of_mem (f := SLAResultRow.id) hold
      rw [map_id_demoteLatest] at hid
      exact absurd hid hnew
    · rw [List.mem_singleton.mp hlast]
      rfl

theorem onDisputes_error {s : Sys} {x : Outcome SLADispute × SlaTables} {e : ApiError}
    (h : (onDisputes s x).1 = .error e) : x = (.error e, x.2) := by
  obtain ⟨out, t⟩ := x
  cases out with
  | ok d => cases h
  | error e' =>
      simp only [onDisputes, Outcome.error.injEq] at h
      rw [h]

/-- The rows a failed request leaves behind are latest rows: only a settlement commits before it can
fail. -/
theorem serve_error_new {s : Sys} {env : Env} {req : Request} {e : ApiError}
    (herr : (serve sha256 s env req).1 = .error e) :
    ∀ r ∈ (serve sha256 s env req).2.sla.results, r.id ∉ s.sla.results.map SLAResultRow.id →
      r.isLatest = true := by
  -- nothing is new in a table that did not change
  have hsame : ∀ {s' : Sys}, s'.sla = s.sla → ∀ r ∈ s'.sla.results,
      r.id ∉ s.sla.results.map SLAResultRow.id → r.isLatest = true := by
    intro s' hs r hr hnew
    rw [hs] at hr
    exact absurd (List.mem_map_of_mem hr) hnew
  cases req with
  | updateOutage id u =>
      refine hsame ?_
      simp only [serve]
      split <;> rfl
  | resolveOutage id mttr =>
      simp only [serve]
      rcases resolveOutage_cases sha256 env id mttr s with hs | ⟨o, outages, -, -, -, -, hs⟩
      · exact hsame (by rw [hs])
      · rw [hs]
        exact settle_new_latest env _ _ { s with outages := outages }
  | recomputeSla id =>
      simp only [serve]
      rcases recomputeSla_cases sha256 env id s with hs | ⟨o, -, -, hs⟩
      · exact hsame (by rw [hs])
      · rw [hs]
        exact settle_new_latest env o o.mttrMinutes s
  | flagDispute r email reason =>
      refine hsame ?_
      simp only [serve, onDisputes_sla]
      exact flagDispute_error (onDisputes_error herr)
  | createProposedSla r req =>
      refine hsame ?_
      simp only [serve, onDisputes_sla]
      exact createProposedSla_error (onDisputes_error herr)
  | resolveDispute r email req =>
      refine hsame ?_
      simp only [serve, onDisputes_sla]
      exact resolveDispute_error (onDisputes_error herr)
  | publish severity policy => exact hsame rfl
  | restart => exact hsame rfl

/-- In every run of requests that meet the condition, the latest result of every outage has its payment
after each request, and a request that fails leaves no new result without one. -/
theorem latest_results_paid (sha256 : String → String) (outages : List OutageRow)
    (as : List (Env × Request)) (s : Sys)
    (hpay : Guarded (step sha256) (Payable sha256) (Sys.init outages) as)
    (hrun : run (step sha256) (Sys.init outages) as = some s) :
    LatestPaid s ∧ ∀ env req e, Payable sha256 s (env, req) →
      (serve sha256 s env req).1 = .error e → NewPaid s (serve sha256 s env req).2 := by
  have hinv : PaidInv s := by
    refine run_invariant_of_guarded ?_ (paidInv_init outages) hpay hrun
    intro s a s' h hok hstep
    obtain ⟨env, req⟩ := a
    rw [← Option.some.inj hstep]
    exact serve_paidInv h env req hok
  refine ⟨hinv.latestPaid, ?_⟩
  intro env req e hok herr r hr hnew
  have hinv' := serve_paidInv hinv env req hok
  exact hinv'.latestPaid r hr (serve_error_new herr r hr hnew)

/-- An outage is resolved, its result disputed with a proposal that is rejected, and recomputed. -/
def rejectedDispute : List (Env × Request) :=
  [(sampleEnv, .resolveOutage "OUT001" 20), (sampleEnv, .flagDispute 1 "noc@example.com" "MTTR"),
    (sampleEnv, .createProposedSla 1 ⟨"critical", 10, "1.0", "config"⟩),
    (sampleEnv, .resolveDispute 1 "admin@example.com" ⟨"kept", .rejected, true⟩),
    (sampleEnv, .recomputeSla "OUT001")]

theorem latest_results_paid_rejectedDispute :
    ∃ s, run (step sampleSha256) (Sys.init [sampleOutage]) rejectedDispute = some s ∧
      s.sla.results.length = 2 ∧ LatestPaid s ∧
      ∀ env req e, Payable sampleSha256 s (env, req) →
        (serve sampleSha256 s env req).1 = .error e → NewPaid s (serve sampleSha256 s env req).2 :=
  ⟨_, rfl, rfl, latest_results_paid sampleSha256 [sampleOutage] rejectedDispute _ (by decide) rfl⟩

/-- The same dispute, with the proposal applied. -/
def appliedDispute : List (Env × Request) :=
  [(sampleEnv, .resolveOutage "OUT001" 20), (sampleEnv, .flagDispute 1 "noc@example.com" "MTTR"),
    (sampleEnv, .createProposedSla 1 ⟨"critical", 10, "1.0", "config"⟩),
    (sampleEnv, .resolveDispute 1 "admin@example.com" ⟨"accepted", .resolved, true⟩)]

/-- A resolved outage whose `resolved_at` is null. -/
def sampleUndated : OutageRow :=
  ⟨"OUT002", "critical", .resolved, sampleDetected, none, some 20, none⟩

/-- An applied proposal becomes the latest result and has no payment. A second recompute of an outage
without `resolved_at` stores a second result of the same type, fails on the payment, and leaves the
result without one. -/
theorem latest_result_without_payment :
    (¬ ∀ (sha256 : String → String) (outages : List OutageRow) (as : List (Env × Request)) (s : Sys),
        run (step sha256) (Sys.init outages) as = some s → LatestPaid s) ∧
    ¬ ∀ (sha256 : String → String) (outages : List OutageRow) (as : List (Env × Request)) (s : Sys)
        (env : Env) (req : Request) (e : ApiError),
        run (step sha256) (Sys.init outages) as = some s →
        (serve sha256 s env req).1 = .error e → NewPaid s (serve sha256 s env req).2 := by
  constructor
  · intro h
    have hpaid := h sampleSha256 [sampleOutage] appliedDispute _ rfl
    revert hpaid
    decide
  · intro h
    have hpaid := h sampleSha256 [sampleUndated] [(sampleEnv, .recomputeSla "OUT002")] _ sampleEnv
      (.recomputeSla "OUT002") _ rfl rfl
    revert hpaid
    decide

end ApexChainx.Settlement
