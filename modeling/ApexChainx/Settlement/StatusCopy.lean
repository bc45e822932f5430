import ApexChainx.Settlement.Payments

/-!
# The status copied onto the outage

A settlement copies the result it stored onto its outage, as `sla_status`. The copy is that of the latest
result unless the result the settlement found under its compute hash has been superseded. A resolved
dispute makes a proposed result the latest one and copies nothing. `CopiesLatest` says of a request that
neither leaves the copy behind, and in the runs of such requests the two agree throughout.
-/

namespace ApexChainx.Settlement

open ApexChainx.Lib ApexChainx.Sla ApexChainx.Payment

variable {sha256 : String → String}

/-- What is copied of a result. -/
def copyOf (r : SLAResultRow) : SLAStatus := ⟨r.status, r.mttrMinutes, r.thresholdMinutes⟩

/-- Every outage with a latest result has the copy of it. -/
def Copied (s : Sys) : Prop :=
  ∀ r ∈ s.sla.results, r.isLatest = true → ∀ o ∈ s.outages, o.id = r.outageId →
    o.slaStatus = some (copyOf r)

instance (s : Sys) : Decidable (Copied s) :=
  inferInstanceAs (Decidable (∀ r ∈ s.sla.results, r.isLatest = true → ∀ o ∈ s.outages,
    o.id = r.outageId → o.slaStatus = some (copyOf r)))

/-! ## Requests that copy the latest result -/

/-- If the settlement finds its result under the compute hash, the latest result of the outage has the
same copy. -/
def FindsLatest (sha256 : String → String) (s : Sys) (env : Env) (o : OutageRow) (mttr : Option ℤ) : Prop :=
  ∀ r ∈ (settlementResult sha256 (s.policies env.process) o mttr).value?,
    ∀ x ∈ existingByHash s.sla r.modelDump, ∀ latest ∈ s.sla.results,
      latestOf o.id latest = true → copyOf x = copyOf latest

instance (s : Sys) (env : Env) (o : OutageRow) (mttr : Option ℤ) :
    Decidable (FindsLatest sha256 s env o mttr) :=
  inferInstanceAs (Decidable (∀ r ∈ (settlementResult sha256 (s.policies env.process) o mttr).value?,
    ∀ x ∈ existingByHash s.sla r.modelDump, ∀ latest ∈ s.sla.results,
      latestOf o.id latest = true → copyOf x = copyOf latest))

/-- A proposed result that the resolution makes the latest one has the copy of the one it replaces. -/
def AppliesSame (t : SlaTables) (slaResultId : ℕ) (req : ResolveDisputeRequest) : Prop :=
  req.status = .resolved ∧ req.applyProposed = true →
    ∀ d ∈ pendingDispute t slaResultId, ∀ pid ∈ d.proposedSlaResultId.filter (· ≠ 0),
      ∀ proposed ∈ t.results.find? (·.id = pid), ∀ latest ∈ t.results,
        latestOf proposed.outageId latest = true → latest.id ≤ proposed.id →
          copyOf latest = copyOf proposed

instance (t : SlaTables) (slaResultId : ℕ) (req : ResolveDisputeRequest) :
    Decidable (AppliesSame t slaResultId req) :=
  inferInstanceAs (Decidable (req.status = .resolved ∧ req.applyProposed = true →
    ∀ d ∈ pendingDispute t slaResultId, ∀ pid ∈ d.proposedSlaResultId.filter (· ≠ 0),
      ∀ proposed ∈ t.results.find? (·.id = pid), ∀ latest ∈ t.results,
        latestOf proposed.outageId latest = true → latest.id ≤ proposed.id →
          copyOf latest = copyOf proposed))

/-- The condition on a request under which the copies are kept. -/
def CopiesLatest (sha256 : String → String) (s : Sys) : Env × Request → Prop
  | (env, .resolveOutage id mttr) =>
      ∀ o ∈ getOutage s.outages id, o.status = .open → fitsInteger mttr = true →
        FindsLatest sha256 s env (resolvedRow env.now mttr o) (some mttr)
  | (env, .recomputeSla id) =>
      ∀ o ∈ getOutage s.outages id, o.status = .resolved → FindsLatest sha256 s env o o.mttrMinutes
  | (_, .resolveDispute r _ req) => AppliesSame s.sla r req
  | _ => True

instance (s : Sys) : (a : Env × Request) → Decidable (CopiesLatest sha256 s a)
  | (env, .resolveOutage id mttr) =>
      inferInstanceAs (Decidable (∀ o ∈ getOutage s.outages id, o.status = .open →
        fitsInteger mttr = true → FindsLatest sha256 s env (resolvedRow env.now mttr o) (some mttr)))
  | (env, .recomputeSla id) =>
      inferInstanceAs (Decidable (∀ o ∈ getOutage s.outages id, o.status = .resolved →
        FindsLatest sha256 s env o o.mttrMinutes))
  | (_, .resolveDispute r _ req) => inferInstanceAs (Decidable (AppliesSame s.sla r req))
  | (_, .updateOutage _ _) | (_, .flagDispute _ _ _) | (_, .createProposedSla _ _) | (_, .publish _ _)
  | (_, .restart) => isTrue trivial

/-! ## Steps that keep the copies -/

/-- Every latest row has a latest row of its outage with the same copy among the rows before. -/
def SameLatest (results results' : List SLAResultRow) : Prop :=
  ∀ r ∈ results', r.isLatest = true →
    ∃ x ∈ results, x.isLatest = true ∧ x.outageId = r.outageId ∧ copyOf x = copyOf r

/-- Every outage has an outage of the same id and copy before. -/
def SameCopies (outages outages' : List OutageRow) : Prop :=
  ∀ o' ∈ outages', ∃ o ∈ outages, o.id = o'.id ∧ o.slaStatus = o'.slaStatus

theorem SameLatest.refl (results : List SLAResultRow) : SameLatest results results :=
  fun r hr hflag => ⟨r, hr, hflag, rfl, rfl⟩

theorem SameCopies.refl (outages : List OutageRow) : SameCopies outages outages :=
  fun o ho => ⟨o, ho, rfl, rfl⟩

theorem Copied.of_same {s s' : Sys} (h : Copied s) (hlatest : SameLatest s.sla.results s'.sla.results)
    (hcopies : SameCopies s.outages s'.outages) : Copied s' := by
  intro r hr hflag o' ho' hid
  obtain ⟨x, hx, hxflag, hxo, hxr⟩ := hlatest r hr hflag
  obtain ⟨o, ho, hoid, hstatus⟩ := hcopies o' ho'
  have hcopied : o.slaStatus = some (copyOf x) := h x hx hxflag o ho (by rw [hoid, hid, hxo])
  rw [← hstatus, hcopied, hxr]

/-- Rewriting a row to one with its id and copy. -/
theorem sameCopies_updateKey {outages : List OutageRow} {id : String} {o o' : OutageRow}
    (ho : getOutage outages id = some o) (hid : o'.id = o.id) (hstatus : o'.slaStatus = o.slaStatus) :
    SameCopies outages (updateKey OutageRow.id id (fun _ => o') outages) := by
  intro x hx
  rcases mem_updateKey hx with hold | ⟨-, -, -, rfl⟩
  · exact ⟨x, hold, rfl, rfl⟩
  · exact ⟨o, List.mem_of_find?_eq_some ho, hid.symm, hstatus.symm⟩

theorem updateOutage_sameCopies (id : String) (u : OutageUpdate) (outages : List OutageRow) :
    SameCopies outages (updateOutage id u outages).2 := by
  unfold updateOutage
  split
  · exact .refl outages
  · rename_i o ho
    split
    · exact .refl outages
    · split
      · exact .refl outages
      · split
        · exact .refl outages
        · exact sameCopies_updateKey ho rfl rfl

/-- The latest rows after a demotion are those of the other outages. -/
theorem latest_of_mem_demoteLatest {outageId : String} {results : List SLAResultRow} {r : SLAResultRow}
    (hr : r ∈ demoteLatest outageId results) (hflag : r.isLatest = true) :
    r ∈ results ∧ r.outageId ≠ outageId := by
  unfold demoteLatest at hr
  obtain ⟨x, hx, rfl⟩ := List.mem_map.mp hr
  by_cases hlatest : latestOf outageId x = true
  · rw [if_pos hlatest] at hflag
    cases hflag
  · rw [if_neg hlatest] at hflag ⊢
    refine ⟨hx, fun heq => hlatest ?_⟩
    unfold latestOf
    rw [hflag, Bool.and_true]
    exact decide_eq_true heq

/-- A settlement that stores a new result, or finds one with the copy of the latest, keeps the copies. -/
theorem settle_copied {s : Sys} {env : Env} {o : OutageRow} {mttr : Option ℤ} (h : Copied s)
    (hfinds : FindsLatest sha256 s env o mttr) : Copied (settle sha256 env o mttr s).2 := by
  rcases hset : settle sha256 env o mttr s with ⟨out, s'⟩
  rcases settle_cases hset with ⟨rfl, -⟩ | ⟨r, stored, tables, hr, hstored, rfl, -⟩
  · exact h
  · obtain ⟨-, -, -, -, hid, houtage, -⟩ := settlementResult_eq_ok hr
    rcases createIfChanged_cases hid hstored with
      ⟨x, hx, hout, htables⟩ | ⟨-, ⟨e, he⟩, -⟩ | ⟨-, hout, -, htables⟩
    · obtain rfl := Outcome.ok.inj hout
      rw [htables]
      intro latest hlatest hflag o' ho' hoid
      rcases mem_updateKey_iff.mp ho' with ⟨hold, -⟩ | ⟨o₀, -, ho₀, rfl⟩
      · exact h latest hlatest hflag o' hold hoid
      · -- the outage of the settlement: what was found has the copy of its latest result
        have hlatestOf : latestOf o.id latest = true := by
          unfold latestOf
          rw [hflag, Bool.and_true]
          exact decide_eq_true (hoid.symm.trans ho₀)
        have hsame := hfinds r (by rw [hr]; rfl) x hx latest hlatest hlatestOf
        exact congrArg some hsame
    · cases he
    · obtain rfl := Outcome.ok.inj hout
      rw [htables]
      intro latest hlatest hflag o' ho' hoid
      rcases List.mem_append.mp hlatest with hdemoted | hnew
      · obtain ⟨hold, hother⟩ := latest_of_mem_demoteLatest hdemoted hflag
        rcases mem_updateKey_iff.mp ho' with ⟨ho'old, -⟩ | ⟨o₀, -, ho₀, rfl⟩
        · exact h latest hold hflag o' ho'old hoid
        · exact absurd (hoid.symm.trans (ho₀.trans houtage.symm)) hother
      · obtain rfl := List.mem_singleton.mp hnew
        rcases mem_updateKey_iff.mp ho' with ⟨-, hother⟩ | ⟨o₀, -, -, rfl⟩
        · exact absurd (hoid.trans houtage) hother
        · rfl

/-- A resolution that applies no proposal with another copy keeps the copies of the latest rows. -/
theorem flushApply_sameLatest {t : SlaTables} (h : LatestInv t) {proposed : SLAResultRow}
    (hmem : proposed ∈ t.results) {rows : List SLAResultRow} (hok : flushApply t.results proposed = .ok rows)
    (hsame : ∀ latest ∈ t.results, latestOf proposed.outageId latest = true → latest.id ≤ proposed.id →
      copyOf latest = copyOf proposed) : SameLatest t.results rows := by
  have hone := h.one_latest proposed hmem
  unfold flushApply at hok
  split at hok
  · rename_i hnone
    have hzero : t.results.countP (latestOf proposed.outageId) = 0 :=
      List.countP_eq_zero.mpr (List.find?_eq_none.mp hnone)
    omega
  · rename_i latest hfind
    have hl := List.mem_of_find?_eq_some hfind
    have hlatest : latestOf proposed.outageId latest = true := List.find?_some hfind
    split at hok
    · obtain rfl := Outcome.ok.inj hok
      exact .refl _
    · rename_i hne
      split at hok
      · rename_i hlt
        split at hok
        · cases hok
        · rename_i demoted hdemoted
          obtain ⟨rfl, -⟩ := setLatest_eq_ok hdemoted
          obtain ⟨rfl, -⟩ := setLatest_eq_ok hok
          have hcopy := hsame latest hl hlatest (Nat.le_of_lt hlt)
          intro r hr hflag
          rcases mem_updateKey_iff.mp hr with ⟨hdem, -⟩ | ⟨r₁, hr₁, hid, rfl⟩
          · rcases mem_updateKey_iff.mp hdem with ⟨hold, -⟩ | ⟨r₀, -, -, rfl⟩
            · exact ⟨r, hold, hflag, rfl, rfl⟩
            · cases hflag
          · -- the promoted row: the one it replaces has its copy
            have hr₁mem : r₁ ∈ t.results := by
              rcases mem_updateKey_iff.mp hr₁ with ⟨hold, -⟩ | ⟨r₀, hr₀, hr₀id, rfl⟩
              · exact hold
              · have hidr₀ : r₀.id = proposed.id := hid
                omega
            have heq : r₁ = proposed := List.inj_on_of_nodup_map h.ids_nodup hr₁mem hmem hid
            subst heq
            simp only [latestOf, Bool.and_eq_true, decide_eq_true_eq] at hlatest
            exact ⟨latest, hl, hlatest.2, hlatest.1, hcopy⟩
      · exfalso
        split at hok
        · cases hok
        · rename_i rows₁ hfirst
          exact setLatest_refused h hmem hfind hne hfirst

theorem resolveDispute_sameLatest (env : CallEnv) {slaResultId : ℕ} (email : String)
    {req : ResolveDisputeRequest} {t : SlaTables} (h : LatestInv t) (hsame : AppliesSame t slaResultId req) :
    SameLatest t.results (resolveDispute env slaResultId email req t).2.results := by
  unfold resolveDispute
  split
  · exact .refl _
  · split
    · exact .refl _
    · rename_i d hd
      split
      · exact .refl _
      · rename_i rows happ
        unfold applyResolution at happ
        split at happ
        · rename_i happly
          split at happ
          · cases happ
          · rename_i pid hpid
            split at happ
            · cases happ
            · rename_i proposed hfind
              exact flushApply_sameLatest h (List.mem_of_find?_eq_some hfind) happ
                (hsame happly d hd pid hpid proposed hfind)
        · obtain rfl := Outcome.ok.inj happ
          exact .refl _

@[simp] theorem onDisputes_outages (s : Sys) (x : Outcome SLADispute × SlaTables) :
    (onDisputes s x).2.outages = s.outages := by
  obtain ⟨out, t⟩ := x
  cases out <;> rfl

/-- A dispute request that keeps the copies of the latest rows keeps the copies. -/
theorem onDisputes_copied {s : Sys} (h : Copied s) {x : Outcome SLADispute × SlaTables}
    (hsame : SameLatest s.sla.results x.2.results) : Copied (onDisputes s x).2 := by
  refine h.of_same ?_ ?_
  · rw [onDisputes_sla]
    exact hsame
  · rw [onDisputes_outages]
    exact .refl _

/-- What holds in every state of a run. -/
structure CopyInv (s : Sys) : Prop where
  latest : LatestInv s.sla
  copied : Copied s

theorem copyInv_init (outages : List OutageRow) : CopyInv (Sys.init outages) := by
  refine ⟨latestInv_empty, ?_⟩
  intro r hr
  cases hr

theorem settle_latestInv {s : Sys} {env : Env} {o : OutageRow} {mttr : Option ℤ} (h : LatestInv s.sla) :
    LatestInv (settle sha256 env o mttr s).2.sla := by
  rcases hset : settle sha256 env o mttr s with ⟨out, s'⟩
  rcases settle_cases hset with ⟨rfl, -⟩ | ⟨r, stored, tables, -, hstored, rfl, -⟩
  · exact h
  · have hkeeps := (createIfChanged_keeps (s.callEnv env) (.model r) s.sla).inv h
    rw [hstored] at hkeeps
    exact hkeeps

/-- One request that meets the condition keeps the copies. -/
theorem serve_copyInv {s : Sys} (h : CopyInv s) (env : Env) (req : Request)
    (hok : CopiesLatest sha256 s (env, req)) : CopyInv (serve sha256 s env req).2 := by
  cases req with
  | updateOutage id u =>
      have hcopies := updateOutage_sameCopies id u s.outages
      unfold serve
      dsimp only
      split
      · rename_i o outages hup
        rw [hup] at hcopies
        exact ⟨h.latest, h.copied.of_same (.refl _) hcopies⟩
      · rename_i e outages hup
        rw [hup] at hcopies
        exact ⟨h.latest, h.copied.of_same (.refl _) hcopies⟩
  | resolveOutage id mttr =>
      unfold serve
      rcases resolveOutage_cases sha256 env id mttr s with hs | ⟨o, outages, ho, hopen, hfits, rfl, hs⟩
      · exact hs.symm ▸ h
      · rw [hs]
        refine ⟨settle_latestInv h.latest, settle_copied ?_ (hok o ho hopen hfits)⟩
        exact h.copied.of_same (.refl _) (sameCopies_updateKey ho rfl rfl)
  | recomputeSla id =>
      unfold serve
      rcases recomputeSla_cases sha256 env id s with hs | ⟨o, ho, hst, hs⟩
      · exact hs.symm ▸ h
      · rw [hs]
        exact ⟨settle_latestInv h.latest, settle_copied h.copied (hok o ho hst)⟩
  | flagDispute r email reason =>
      have hlatest := (flagDispute_keeps (s.callEnv env) r email reason s.sla).inv h.latest
      obtain ⟨hrows, -⟩ := flagDispute_results (s.callEnv env) r email reason s.sla
      unfold serve
      refine ⟨by simpa using hlatest, onDisputes_copied h.copied ?_⟩
      rw [hrows]
      exact .refl _
  | createProposedSla r req =>
      have hlatest := (createProposedSla_keeps (s.callEnv env) r req s.sla).inv h.latest
      unfold serve
      refine ⟨by simpa using hlatest, onDisputes_copied h.copied ?_⟩
      rcases createProposedSla_results (s.callEnv env) r req s.sla with
        ⟨hrows, -⟩ | ⟨x, hrows, hproposed, -⟩
      · rw [hrows]
        exact .refl _
      · rw [hrows]
        -- the row that was added is a proposal and not the latest result
        intro y hy hflag
        rcases List.mem_append.mp hy with hold | hnew
        · exact ⟨y, hold, hflag, rfl, rfl⟩
        · rw [List.mem_singleton.mp hnew, hproposed] at hflag
          cases hflag
  | resolveDispute r email req =>
      have hlatest := (resolveDispute_keeps (s.callEnv env) r email req s.sla h.latest).inv h.latest
      unfold serve
      exact ⟨by simpa using hlatest,
        onDisputes_copied h.copied (resolveDispute_sameLatest (s.callEnv env) email h.latest hok)⟩
  | publish severity policy => exact ⟨h.latest, h.copied⟩
  | restart => exact ⟨h.latest, h.copied⟩

/-- In every run of requests that meet the condition, every outage has the copy of its latest result after
each request. -/
theorem latest_results_copied (sha256 : String → String) (outages : List OutageRow)
    (as : List (Env × Request)) (s : Sys)
    (hok : Guarded (step sha256) (CopiesLatest sha256) (Sys.init outages) as)
    (hrun : run (step sha256) (Sys.init outages) as = some s) : Copied s := by
  have hinv : CopyInv s := by
    refine run_invariant_of_guarded ?_ (copyInv_init outages) hok hrun
    rintro s ⟨env, req⟩ s' h hok hstep
    rw [← Option.some.inj hstep]
    exact serve_copyInv h env req hok
  exact hinv.copied

theorem latest_results_copied_rejectedDispute :
    ∃ s, run (step sampleSha256) (Sys.init [sampleOutage]) rejectedDispute = some s ∧
      s.sla.results.length = 2 ∧ Copied s :=
  ⟨_, rfl, rfl, latest_results_copied sampleSha256 [sampleOutage] rejectedDispute _ (by decide) rfl⟩

/-- The applied proposal says `met` in 10 minutes, the copy on the outage `violated` in 20. -/
theorem applied_proposal_not_copied :
    ∃ s, run (step sampleSha256) (Sys.init [sampleOutage]) appliedDispute = some s ∧ ¬Copied s :=
  ⟨_, rfl, by decide⟩

end ApexChainx.Settlement
