import ApexChainx.Sla.Calculator
import ApexChainx.Sla.PublishOrder

/-!
# The dictionaries of a process against the ledger

`SLACalculator.calculate` and `get_config_with_hash` read the module-level dictionaries of their own
process. A publish refreshes only the dictionaries of the process it runs in, so another process, or
the same one after a restart, goes on with older values. What does hold: the values are built-in ones
or come from rows of the severity, and a process whose own publish inserted the latest row uses exactly
that row once the refresh of that publish is done, unless an older publish of the same process was
still refreshing when the row was committed.
-/

namespace ApexChainx.Sla

open ApexChainx.Lib

variable {sha256 : String → String}

/-- `SLAPolicyContent`. -/
structure SLAPolicyContent where
  severity : Severity
  policyVersion : ℕ
  config : SLASeverityConfig
  contentHash : String
deriving DecidableEq, Repr

/-- `get_config_with_hash` for a known severity. -/
def getConfigWithHash (sha256 : String → String) (live : LivePolicy) (sev : Severity) :
    SLAPolicyContent :=
  ⟨sev, (live sev).policyVersion, (live sev).config,
    computeContentHash sha256 sev (live sev).config (live sev).policyVersion⟩

/-- The content a history row states. -/
def HistoryRow.content (r : HistoryRow) : SLAPolicyContent :=
  ⟨r.severity, r.policyVersion, r.config, r.contentHash⟩

/-- A process decides by the row and reports it. -/
structure UsesRow (sha256 : String → String) (live : LivePolicy) (row : HistoryRow) : Prop where
  decides : ∀ outageId severity mttr policyVersion thresholdSource startedAt resolvedAt,
    Severity.ofString severity = some row.severity →
    ∃ r, calculate sha256 live outageId severity mttr policyVersion thresholdSource startedAt
      resolvedAt = .ok r ∧ r.decision = decisionFor row.config mttr
  content : getConfigWithHash sha256 live row.severity = row.content

/-- It is enough that the dictionaries hold the row's values and version. -/
theorem usesRow_of_cached {live : LivePolicy} {row : HistoryRow}
    (hconfig : (live row.severity).config = row.config)
    (hversion : (live row.severity).policyVersion = row.policyVersion)
    (hhash : row.contentHash
      = computeContentHash sha256 row.severity row.config row.policyVersion) :
    UsesRow sha256 live row := by
  constructor
  · intro outageId severity mttr policyVersion thresholdSource startedAt resolvedAt hsev
    simp only [calculate, hsev, Outcome.ok.injEq]
    exact ⟨_, rfl, by rw [← hconfig]; rfl⟩
  · simp only [getConfigWithHash, HistoryRow.content, hconfig, hversion, hhash]

/-! ## The newest row -/

/-- The row inserted last has the highest version of its severity. -/
theorem newestRow_append {history : List HistoryRow} {new : HistoryRow}
    (hruns : versionsOf (history ++ [new]) new.severity
      = List.range' 2 (rowsOf (history ++ [new]) new.severity).length) :
    newestRow (history ++ [new]) new.severity = some new := by
  have hrows : rowsOf (history ++ [new]) new.severity = rowsOf history new.severity ++ [new] := by
    rw [rowsOf_append, if_pos rfl]
  unfold versionsOf at hruns
  rw [hrows, List.map_append, List.length_append, List.length_singleton, List.range'_1_concat]
    at hruns
  obtain ⟨hold, hlast⟩ := List.append_inj hruns (by simp)
  have hversion : new.policyVersion = 2 + (rowsOf history new.severity).length :=
    List.singleton_inj.mp hlast
  have hlt : ∀ r ∈ rowsOf history new.severity, r.policyVersion < new.policyVersion := by
    intro r hr
    have hmem := List.mem_map_of_mem (f := HistoryRow.policyVersion) hr
    rw [hold, List.mem_range'_1] at hmem
    omega
  unfold newestRow
  rw [hrows]
  refine List.argmax_eq_some_iff.mpr ⟨List.mem_append_right _ (List.mem_singleton.mpr rfl), ?_, ?_⟩
  · intro r hr
    rcases List.mem_append.mp hr with hr | hr
    · exact (hlt r hr).le
    · rw [List.mem_singleton.mp hr]
  · intro r hr hle
    rcases List.mem_append.mp hr with hr | hr
    · exact absurd (hlt r hr) (by omega)
    · rw [List.mem_singleton.mp hr]

/-- As long as the row inserted last is the newest of its severity, no row was added to it. -/
theorem rowsOf_length_of_newest {s s₂ : PolicySys} {history : List HistoryRow} {new : HistoryRow}
    (hled : LedgerInv sha256 s) (hled₂ : LedgerInv sha256 s₂)
    (hlatest : newestRow s.history new.severity = some new)
    (hins : s₂.history = history ++ [new]) :
    (rowsOf s.history new.severity).length ≤ (rowsOf s₂.history new.severity).length := by
  -- the version of the newest row counts the rows, in both states
  have hcount : ∀ t, LedgerInv sha256 t → newestRow t.history new.severity = some new →
      new.policyVersion = (rowsOf t.history new.severity).length + 1 := by
    intro t ht hnew
    have hmem := mem_versionsOf.mpr ⟨new, newestRow_mem hnew, rfl⟩
    rw [ht.versions, List.mem_range'_1] at hmem
    have htop : (rowsOf t.history new.severity).length + 1 ∈ versionsOf t.history new.severity := by
      rw [ht.versions, List.mem_range'_1]
      omega
    obtain ⟨r, hr, hrv⟩ := mem_versionsOf.mp htop
    have hle := List.le_of_mem_argmax hr hnew
    omega
  have hnew₂ : newestRow s₂.history new.severity = some new := by
    have hversions := hled₂.versions new.severity
    rw [hins] at hversions ⊢
    exact newestRow_append hversions
  have h₁ := hcount s hled hlatest
  have h₂ := hcount s₂ hled₂ hnew₂
  omega

/-! ## One refresh -/

/-- The call is between its commit and its last assignment. -/
def PublishPc.refreshing : PublishPc → Bool
  | .refreshVersion _ => true
  | .refreshConfig _ => true
  | .refreshToken _ => true
  | _ => false

/-- How far the refresh of a row has come. -/
def RefreshedTo (new : HistoryRow) (p : CachedPolicy) (pc : PublishPc) : Prop :=
  pc = .refreshVersion new ∨
  (pc = .refreshConfig new ∧ p.policyVersion = new.policyVersion) ∨
  (pc = .refreshToken new ∧ p.policyVersion = new.policyVersion ∧ p.config = new.config) ∨
  (pc = .returned new ∧ p = ⟨new.config, new.policyVersion, new.publishToken⟩)

/-- Call `i` of a process is the only one of its severity that refreshes there, and nothing has
touched what it has refreshed. -/
structure Refresh (i process : ℕ) (new : HistoryRow) (s : PolicySys) : Prop where
  own : ∃ c, s.calls[i]? = some c ∧ c.process = process ∧ c.severity = new.severity ∧
    RefreshedTo new (s.caches process new.severity) c.pc
  others : ∀ j d, j ≠ i → s.calls[j]? = some d → d.process = process → d.severity = new.severity →
    d.pc.refreshing = false

/-- What a statement leaves alone: the rows and the dictionary entries of other severities; and before
its commit a call touches no dictionary. -/
theorem publishStep_local {s : PolicySys} {c : PublishCall} {token : String} {e : Effect}
    (h : publishStep sha256 s c token = some e) :
    (e.history = s.history ∨ ∃ new, new.severity = c.severity ∧ e.history = s.history ++ [new]) ∧
    (∀ sev, sev ≠ c.severity → e.cache sev = s.caches c.process sev) ∧
    (c.pc.refreshing = false → e.history = s.history →
      e.cache = s.caches c.process ∧ e.pc.refreshing = false) := by
  obtain ⟨process, sev, config, expected, pc⟩ := c
  cases publishStep_cases h with
  | inserted hfree =>
      refine ⟨.inr ⟨_, rfl, rfl⟩, fun _ _ => rfl, ?_⟩
      intro _ hsame
      simp at hsame
  | versionSet => exact ⟨.inl rfl, fun _ hne => Function.update_of_ne hne _ _, nofun⟩
  | configSet => exact ⟨.inl rfl, fun _ hne => Function.update_of_ne hne _ _, nofun⟩
  | tokenSet => exact ⟨.inl rfl, fun _ hne => Function.update_of_ne hne _ _, nofun⟩
  | _ => exact ⟨.inl rfl, fun _ _ => rfl, fun _ _ => ⟨rfl, rfl⟩⟩

/-- The refreshing call executes its next assignment. -/
theorem publishStep_refresh {s : PolicySys} {c : PublishCall} {token : String} {e : Effect}
    {new : HistoryRow} (hsev : c.severity = new.severity)
    (hto : RefreshedTo new (s.caches c.process new.severity) c.pc)
    (h : publishStep sha256 s c token = some e) :
    e.history = s.history ∧ RefreshedTo new (e.cache new.severity) e.pc := by
  obtain ⟨process, sev, config, expected, pc⟩ := c
  simp only at hsev hto
  subst hsev
  rcases hto with rfl | ⟨rfl, hv⟩ | ⟨rfl, hv, hc⟩ | ⟨rfl, -⟩
  · cases publishStep_cases h with
    | versionSet => exact ⟨rfl, .inr (.inl ⟨rfl, by simp only [Function.update_self]⟩)⟩
  · cases publishStep_cases h with
    | configSet =>
        refine ⟨rfl, .inr (.inr (.inl ⟨rfl, ?_, ?_⟩))⟩
        · simp only [Function.update_self]
          exact hv
        · simp only [Function.update_self]
  · cases publishStep_cases h with
    | tokenSet =>
        refine ⟨rfl, .inr (.inr (.inr ⟨rfl, ?_⟩))⟩
        simp only [Function.update_self, hv, hc]
  · cases publishStep_cases h

theorem rowsOf_length_append (history : List HistoryRow) (r : HistoryRow) (sev : Severity) :
    (rowsOf history sev).length ≤ (rowsOf (history ++ [r]) sev).length := by
  rw [rowsOf_append, List.length_append]
  omega

/-- A call that has just begun has not committed. -/
theorem Refresh.begin {i process : ℕ} {new : HistoryRow} {s : PolicySys} {d : PublishCall}
    (h : Refresh i process new s) (hd : d.pc.refreshing = false) :
    Refresh i process new { s with calls := s.calls ++ [d] } := by
  obtain ⟨c, hc, hproc, hsev, hto⟩ := h.own
  have hlt := (List.getElem?_eq_some_iff.mp hc).1
  refine ⟨⟨c, (List.getElem?_append_left hlt).trans hc, hproc, hsev, hto⟩, ?_⟩
  intro j x hj hx hxp hxs
  rcases Nat.lt_or_ge j s.calls.length with hjlt | hjge
  · rw [List.getElem?_append_left hjlt] at hx
    exact h.others j x hj hx hxp hxs
  · rw [List.getElem?_append_right hjge] at hx
    rw [List.mem_singleton.mp (List.mem_of_getElem? hx)]
    exact hd

/-- The restart of another process touches neither the calls nor the dictionaries of this one. -/
theorem Refresh.restart {i process p : ℕ} {new : HistoryRow} {s : PolicySys} (h : Refresh i process new s)
    (hpne : p ≠ process) :
    Refresh i process new { s with
      caches := Function.update s.caches p initialPolicy
      calls := s.calls.map (PublishCall.kill p) } := by
  obtain ⟨c, hc, hproc, hsev, hto⟩ := h.own
  have hkeep : ∀ d : PublishCall, d.process = process → d.kill p = d := by
    intro d hd
    unfold PublishCall.kill
    rw [if_neg]
    intro hkill
    exact hpne (hkill.1.symm.trans hd)
  refine ⟨⟨c, by simp [hc, hkeep c hproc], hproc, hsev, ?_⟩, ?_⟩
  · simp only [Function.update_of_ne (Ne.symm hpne)]
    exact hto
  · intro j d hj hd hdp hds
    rw [List.getElem?_map, Option.map_eq_some_iff] at hd
    obtain ⟨d₀, hd₀, rfl⟩ := hd
    have hproc₀ : d₀.process = process := by
      unfold PublishCall.kill at hdp
      split at hdp <;> exact hdp
    rw [hkeep d₀ hproc₀] at hds ⊢
    exact h.others j d₀ hj hd₀ hproc₀ hds

/-- The refreshing call itself moves. -/
theorem Refresh.move_own {i process : ℕ} {new : HistoryRow} {s : PolicySys} {c : PublishCall} {token : String}
    {e : Effect} (h : Refresh i process new s) (hcall : s.calls[i]? = some c)
    (heff : publishStep sha256 s c token = some e) :
    Refresh i process new ⟨e.history, Function.update s.caches c.process e.cache,
      s.calls.set i { c with pc := e.pc }⟩ := by
  obtain ⟨c', hc', hproc, hsev, hto⟩ := h.own
  obtain rfl : c' = c := Option.some.inj (hc'.symm.trans hcall)
  have hlt := (List.getElem?_eq_some_iff.mp hcall).1
  rw [← hproc] at hto
  obtain ⟨hhist, hto'⟩ := publishStep_refresh hsev hto heff
  refine ⟨⟨{ c' with pc := e.pc }, List.getElem?_set_self hlt, hproc, hsev, ?_⟩, ?_⟩
  · simp only [← hproc, Function.update_self]
    exact hto'
  · intro k d hk hd
    rw [List.getElem?_set_ne (Ne.symm hk)] at hd
    exact h.others k d hk hd

/-- Another call moves, elsewhere or without touching the dictionaries. -/
theorem Refresh.move_other {i j process : ℕ} {new : HistoryRow} {s : PolicySys} {d : PublishCall}
    {token : String} {e : Effect} (h : Refresh i process new s) (hij : j ≠ i) (hcall : s.calls[j]? = some d)
    (heff : publishStep sha256 s d token = some e)
    (hsame : d.process = process → d.severity = new.severity →
      e.cache = s.caches d.process ∧ e.pc.refreshing = false) :
    Refresh i process new ⟨e.history, Function.update s.caches d.process e.cache,
      s.calls.set j { d with pc := e.pc }⟩ := by
  obtain ⟨c, hc, hproc, hsev, hto⟩ := h.own
  have hjlt := (List.getElem?_eq_some_iff.mp hcall).1
  refine ⟨⟨c, (List.getElem?_set_ne hij).trans hc, hproc, hsev, ?_⟩, ?_⟩
  · by_cases hdp : d.process = process
    · have hcache : e.cache new.severity = s.caches process new.severity := by
        by_cases hds : d.severity = new.severity
        · rw [(hsame hdp hds).1, hdp]
        · rw [(publishStep_local heff).2.1 new.severity (Ne.symm hds), hdp]
      simp only [hdp, Function.update_self, hcache]
      exact hto
    · simp only [Function.update_of_ne (Ne.symm hdp)]
      exact hto
  · intro k x hk hx hxp hxs
    by_cases hkj : j = k
    · subst hkj
      simp only [List.getElem?_set_self hjlt, Option.some.injEq] at hx
      subst hx
      exact (hsame hxp hxs).2
    · simp only [List.getElem?_set_ne hkj] at hx
      exact h.others k x hk hx hxp hxs

/-- One action that does not restart the process: the refresh goes on undisturbed, or the severity has
a newer row. -/
theorem Refresh.step {i process : ℕ} {new : HistoryRow} {s s' : PolicySys} {a : PolicyAction}
    (h : Refresh i process new s) (hstep : policyStep sha256 s a = some s')
    (hnot : a ≠ .restart process) :
    Refresh i process new s' ∨
      (rowsOf s.history new.severity).length < (rowsOf s'.history new.severity).length := by
  rcases policyStep_cases hstep with
    rfl | ⟨p, sev, config, expected, rfl⟩ | ⟨p, hp, rfl⟩ | ⟨j, token, d, e, -, hcall, heff, rfl⟩
  · exact .inl h
  · exact .inl (h.begin rfl)
  · refine .inl (h.restart ?_)
    intro hpp
    exact hnot (by rw [hp, hpp])
  · by_cases hij : j = i
    · subst hij
      exact .inl (h.move_own hcall heff)
    · obtain ⟨hhist, -, hquiet⟩ := publishStep_local heff
      rcases hhist with hhist | ⟨r, hr, hhist⟩
      · refine .inl (h.move_other hij hcall heff ?_)
        intro hdp hds
        exact hquiet (h.others j d hij hcall hdp hds) hhist
      · by_cases hrs : r.severity = new.severity
        · refine .inr ?_
          simp only [hhist]
          rw [rowsOf_append, if_pos hrs, List.length_append, List.length_singleton]
          omega
        · refine .inl (h.move_other hij hcall heff ?_)
          intro _ hds
          exact absurd (hr.trans hds) hrs

/-- The rows of a severity only grow. -/
theorem rowsOf_length_step {s s' : PolicySys} {a : PolicyAction} (sev : Severity)
    (hstep : policyStep sha256 s a = some s') :
    (rowsOf s.history sev).length ≤ (rowsOf s'.history sev).length := by
  rcases policyStep_cases hstep with
    rfl | ⟨p, sev', config, expected, rfl⟩ | ⟨p, -, rfl⟩ | ⟨j, token, d, e, -, -, heff, rfl⟩
  · exact le_refl _
  · exact le_refl _
  · exact le_refl _
  · rcases (publishStep_local heff).1 with hhist | ⟨r, -, hhist⟩
    · simp only [hhist]
      exact le_refl _
    · simp only [hhist]
      exact rowsOf_length_append s.history r sev

/-- A run without a restart of the process keeps the refresh, up to the next row of the severity. -/
theorem Refresh.run {i process : ℕ} {new : HistoryRow} {s s' : PolicySys} {as : List PolicyAction}
    (h : Refresh i process new s) (hrun : run (policyStep sha256) s as = some s')
    (hnot : .restart process ∉ as)
    (hrows : (rowsOf s'.history new.severity).length ≤ (rowsOf s.history new.severity).length) :
    Refresh i process new s' := by
  induction as generalizing s with
  | nil =>
      rw [run_nil, Option.some.injEq] at hrun
      exact hrun ▸ h
  | cons a as ih =>
      obtain ⟨t, ht, hrest⟩ := run_cons_eq_some.mp hrun
      rw [List.mem_cons, not_or] at hnot
      have hkeep : ∀ u b u', (rowsOf t.history new.severity).length
            ≤ (rowsOf u.history new.severity).length →
          policyStep sha256 u b = some u' →
          (rowsOf t.history new.severity).length ≤ (rowsOf u'.history new.severity).length :=
        fun u b u' hle hs => hle.trans (rowsOf_length_step new.severity hs)
      have hgrow := run_invariant hkeep (le_refl _) hrest
      rcases h.step ht (Ne.symm hnot.1) with hnext | hnewer
      · have hmono := rowsOf_length_step new.severity ht
        exact ih hnext hrest hnot.2 (by omega)
      · omega

/-! ## What a process uses -/

/-- The action commits the row: it is the statement of call `i` that inserts it, while no other call of
the same process and severity is still refreshing. -/
structure QuietCommit (sha256 : String → String) (s s' : PolicySys) (i : ℕ) (token : String)
    (process : ℕ) (new : HistoryRow) : Prop where
  step : policyStep sha256 s (.move i token) = some s'
  own : ∃ c, s.calls[i]? = some c ∧ c.process = process
  inserted : s'.history = s.history ++ [new]
  others : ∀ j d, j ≠ i → s.calls[j]? = some d → d.process = process →
    d.severity = new.severity → d.pc.refreshing = false

/-- A commit without other refreshes starts a refresh. -/
theorem QuietCommit.refresh {s s' : PolicySys} {i process : ℕ} {token : String} {new : HistoryRow}
    (hled : LedgerInv sha256 s) (h : QuietCommit sha256 s s' i token process new) :
    Refresh i process new s' := by
  obtain ⟨c₀, hc₀, hproc⟩ := h.own
  have hstep := h.step
  simp only [policyStep, hc₀] at hstep
  cases heff : publishStep sha256 s c₀ token with
  | none => simp [heff] at hstep
  | some e =>
      simp only [heff, Option.some.injEq] at hstep
      subst hstep
      have hlt := (List.getElem?_eq_some_iff.mp hc₀).1
      have hins : e.history = s.history ++ [new] := h.inserted
      rcases publishStep_effect hled (hled.calls c₀ (List.mem_of_getElem? hc₀)) heff with
        ⟨hhist, -, -⟩ | ⟨l, v, -, -, -, rfl⟩
      · rw [hhist] at hins
        simp at hins
      · have hnew : newHistoryRow sha256 c₀ v token = new := by
          have := List.append_cancel_left hins
          exact List.singleton_inj.mp this
        subst hnew
        refine ⟨⟨_, List.getElem?_set_self hlt, hproc, rfl, .inl rfl⟩, ?_⟩
        intro j d hj hd
        rw [List.getElem?_set_ne (Ne.symm hj)] at hd
        exact h.others j d hj hd

/-- In every run of publishes, restarts and calculations: the values and the version a process holds for
a severity are the built-in ones or those of rows of that severity; and a process that inserted the
latest row of a severity, while none of its other publishes of that severity was refreshing, and that
was not restarted since, uses exactly that row as soon as its publish has returned. -/
theorem process_uses_own_latest (sha256 : String → String) (as : List PolicyAction) (s : PolicySys)
    (hrun : run (policyStep sha256) PolicySys.init as = some s) :
    (∀ p sev,
      ((s.caches p sev).config = defaultConfig sev ∨
        ∃ row ∈ rowsOf s.history sev, row.config = (s.caches p sev).config) ∧
      ((s.caches p sev).policyVersion = 1 ∨
        ∃ row ∈ rowsOf s.history sev, row.policyVersion = (s.caches p sev).policyVersion)) ∧
    ∀ bs cs i token process s₁ s₂ new c, as = bs ++ .move i token :: cs →
      run (policyStep sha256) PolicySys.init bs = some s₁ →
      QuietCommit sha256 s₁ s₂ i token process new → .restart process ∉ cs →
      newestRow s.history new.severity = some new →
      s.calls[i]? = some c → c.pc = .returned new → UsesRow sha256 (s.caches process) new := by
  have hkeep : ∀ s a s', LedgerInv sha256 s → policyStep sha256 s a = some s' →
      LedgerInv sha256 s' := fun _ _ _ h hs => h.step hs
  have hled := run_invariant hkeep ledgerInv_init hrun
  refine ⟨?_, ?_⟩
  · intro p sev
    refine ⟨(hled.cached p sev).config, ?_⟩
    rcases (hled.cached p sev).version with hone | hmem
    · exact .inl hone
    · exact .inr (mem_versionsOf.mp hmem)
  · intro bs cs i token process s₁ s₂ new c has hbs hquiet hnot hlatest hc hpc
    subst has
    obtain ⟨t, ht, hrest⟩ := run_append_eq_some.mp hrun
    rw [hbs, Option.some.injEq] at ht
    subst ht
    obtain ⟨u, hu, hrest⟩ := run_cons_eq_some.mp hrest
    rw [hquiet.step, Option.some.injEq] at hu
    subst hu
    have hled₁ := run_invariant hkeep ledgerInv_init hbs
    have hled₂ := hkeep _ _ _ hled₁ hquiet.step
    -- the row is still the newest, so nothing was inserted after it that could be refreshed instead
    have hrows : (rowsOf s.history new.severity).length
        ≤ (rowsOf s₂.history new.severity).length :=
      rowsOf_length_of_newest hled hled₂ hlatest hquiet.inserted
    obtain ⟨c', hc', -, -, hto⟩ := ((hquiet.refresh hled₁).run hrest hnot hrows).own
    rw [hc, Option.some.injEq] at hc'
    rw [← hc', hpc] at hto
    have hcached : s.caches process new.severity
        = ⟨new.config, new.policyVersion, new.publishToken⟩ := by
      rcases hto with h | ⟨h, -⟩ | ⟨h, -, -⟩ | ⟨-, h⟩
      · cases h
      · cases h
      · cases h
      · exact h
    have hmem : new ∈ s.history := (mem_rowsOf.mp (newestRow_mem hlatest)).1
    exact usesRow_of_cached (by rw [hcached]) (by rw [hcached]) (hled.hashes new hmem)

/-- The row of a first publish for the critical severity. -/
def sampleRow : HistoryRow :=
  newHistoryRow sampleDigest ⟨0, .critical, ⟨20, 100, 750⟩, none, .select⟩ 1 "t1"

/-- The statements of that publish before its commit, in process 0. -/
def beforeCommit : List PolicyAction :=
  [.begin 0 "critical" ⟨20, 100, 750⟩ none, .move 0 "", .move 0 "", .move 0 ""]

/-- Its commit and its three assignments. -/
def firstPublish : List PolicyAction :=
  beforeCommit ++ .move 0 "t1" :: [.move 0 "", .move 0 "", .move 0 ""]

theorem process_uses_own_latest_first :
    ∃ s, run (policyStep sampleDigest) PolicySys.init firstPublish = some s ∧
      newestRow s.history .critical = some sampleRow ∧
      UsesRow sampleDigest (s.caches 0) sampleRow := by
  have hcommit : ∃ s₁ s₂, run (policyStep sampleDigest) PolicySys.init beforeCommit = some s₁ ∧
      QuietCommit sampleDigest s₁ s₂ 0 "t1" 0 sampleRow := by
    refine ⟨_, _, rfl, rfl, ⟨_, rfl, rfl⟩, rfl, ?_⟩
    intro j d hj hd
    cases j with
    | zero => exact absurd rfl hj
    | succ j => cases hd
  obtain ⟨s₁, s₂, hbs, hquiet⟩ := hcommit
  exact ⟨_, rfl, rfl, (process_uses_own_latest sampleDigest firstPublish _ rfl).2 beforeCommit
    [.move 0 "", .move 0 "", .move 0 ""] 0 "t1" 0 s₁ s₂ sampleRow _ rfl hbs hquiet (by decide) rfl
    rfl rfl⟩

/-- After a publish by process 0, process 1 still reports the built-in policy. -/
theorem other_process_keeps_builtin_policy :
    ¬ ∀ (sha256 : String → String) (as : List PolicyAction) (s : PolicySys) (p : ℕ)
        (row : HistoryRow), Guarded (policyStep sha256) FreshToken PolicySys.init as →
      run (policyStep sha256) PolicySys.init as = some s →
      newestRow s.history row.severity = some row → UsesRow sha256 (s.caches p) row := by
  intro h
  have huses := h sampleDigest firstPublish _ 1 sampleRow (by decide) rfl rfl
  have hversion := congrArg SLAPolicyContent.policyVersion huses.content
  revert hversion
  decide

end ApexChainx.Sla
