import Mathlib.Data.List.Nodup
import Mathlib.Data.List.Range
import ApexChainx.Lib.Table
import ApexChainx.Sla.Publish

/-!
# Concurrent publishes are serialised

The versions of a severity form one contiguous run in commit order, a publish that names a token
inserts the successor of the row with that token, and a publish that loses leaves nothing behind. The
row lock plays no part in the argument: a call that selected a row which is no longer the newest one
computes a version that is already taken, and the unique index refuses it. What carries the proof is
that every version a call can read, from a row or from a dictionary, is 1 or a committed one.
-/

namespace ApexChainx.Sla

open ApexChainx.Lib

variable {sha256 : String → String}

/-! ## Rows of a severity -/

theorem mem_rowsOf {history : List HistoryRow} {sev : Severity} {r : HistoryRow} :
    r ∈ rowsOf history sev ↔ r ∈ history ∧ r.severity = sev := by
  simp [rowsOf]

theorem rowsOf_append (history : List HistoryRow) (new : HistoryRow) (sev : Severity) :
    rowsOf (history ++ [new]) sev
      = rowsOf history sev ++ (if new.severity = sev then [new] else []) := by
  unfold rowsOf
  rw [List.filter_append]
  by_cases h : new.severity = sev <;> simp [h]

theorem mem_rowsOf_append {history : List HistoryRow} {new : HistoryRow} {sev : Severity}
    {r : HistoryRow} (h : r ∈ rowsOf history sev) : r ∈ rowsOf (history ++ [new]) sev := by
  rw [rowsOf_append]
  exact List.mem_append_left _ h

theorem mem_versionsOf {history : List HistoryRow} {sev : Severity} {v : ℕ} :
    v ∈ versionsOf history sev ↔ ∃ r ∈ rowsOf history sev, r.policyVersion = v := by
  simp [versionsOf]

theorem newestRow_mem {history : List HistoryRow} {sev : Severity} {r : HistoryRow}
    (h : newestRow history sev = some r) : r ∈ rowsOf history sev :=
  List.argmax_mem h

/-- Without a newest row the severity has none. -/
theorem rowsOf_eq_nil_of_newestRow {history : List HistoryRow} {sev : Severity}
    (h : newestRow history sev = none) : rowsOf history sev = [] :=
  List.argmax_eq_none.mp h

/-! ## One statement -/

/-- What a call finds at its statement, and what the statement does; the first index is the statement. -/
inductive PublishCase (sha256 : String → String) (s : PolicySys) (c : PublishCall) (token : String) :
    PublishPc → Effect → Prop
  | selected {row : HistoryRow} (hnew : newestRow s.history c.severity = some row) :
      PublishCase sha256 s c token .select ⟨.lock row, s.history, s.caches c.process⟩
  | noRow (hnew : newestRow s.history c.severity = none) :
      PublishCase sha256 s c token .select ⟨.readVersion, s.history, s.caches c.process⟩
  | locked {row : HistoryRow} (hmatch : tokenMatches c.expectedToken row.publishToken = true) :
      PublishCase sha256 s c token (.lock row)
        ⟨.commit (some row) row.policyVersion, s.history, s.caches c.process⟩
  | lockedOther {row : HistoryRow} :
      PublishCase sha256 s c token (.lock row) ⟨.conflict, s.history, s.caches c.process⟩
  | versionRead :
      PublishCase sha256 s c token .readVersion
        ⟨.readToken (s.caches c.process c.severity).policyVersion, s.history, s.caches c.process⟩
  | tokenRead {v : ℕ}
      (hmatch : tokenMatches c.expectedToken (s.caches c.process c.severity).publishToken = true) :
      PublishCase sha256 s c token (.readToken v) ⟨.commit none v, s.history, s.caches c.process⟩
  | tokenOther {v : ℕ} :
      PublishCase sha256 s c token (.readToken v) ⟨.conflict, s.history, s.caches c.process⟩
  | tooLong {l : Option HistoryRow} {v : ℕ} :
      PublishCase sha256 s c token (.commit l v)
        ⟨.raised (.dataError "sla_config_history"), s.history, s.caches c.process⟩
  | taken {l : Option HistoryRow} {v : ℕ} :
      PublishCase sha256 s c token (.commit l v) ⟨.conflict, s.history, s.caches c.process⟩
  | inserted {l : Option HistoryRow} {v : ℕ} (hfree : v + 1 ∉ versionsOf s.history c.severity) :
      PublishCase sha256 s c token (.commit l v)
        ⟨.refreshVersion (newHistoryRow sha256 c v token), s.history ++ [newHistoryRow sha256 c v token],
          s.caches c.process⟩
  | versionSet {new : HistoryRow} :
      PublishCase sha256 s c token (.refreshVersion new)
        ⟨.refreshConfig new, s.history, Function.update (s.caches c.process) c.severity
          { s.caches c.process c.severity with policyVersion := new.policyVersion }⟩
  | configSet {new : HistoryRow} :
      PublishCase sha256 s c token (.refreshConfig new)
        ⟨.refreshToken new, s.history, Function.update (s.caches c.process) c.severity
          { s.caches c.process c.severity with config := new.config }⟩
  | tokenSet {new : HistoryRow} :
      PublishCase sha256 s c token (.refreshToken new)
        ⟨.returned new, s.history, Function.update (s.caches c.process) c.severity
          { s.caches c.process c.severity with publishToken := new.publishToken }⟩

theorem publishStep_cases {s : PolicySys} {c : PublishCall} {token : String} {e : Effect}
    (h : publishStep sha256 s c token = some e) : PublishCase sha256 s c token c.pc e := by
  cases hpc : c.pc with
  | select =>
      simp only [publishStep, hpc] at h
      cases hnew : newestRow s.history c.severity with
      | some row =>
          rw [hnew] at h
          exact Option.some.inj h ▸ .selected hnew
      | none =>
          rw [hnew] at h
          exact Option.some.inj h ▸ .noRow hnew
  | lock row =>
      simp only [publishStep, hpc] at h
      split_ifs at h with hheld hmatch
      · exact Option.some.inj h ▸ .locked hmatch
      · exact Option.some.inj h ▸ .lockedOther
  | readVersion =>
      simp only [publishStep, hpc] at h
      exact Option.some.inj h ▸ .versionRead
  | readToken v =>
      simp only [publishStep, hpc] at h
      split_ifs at h with hmatch
      · exact Option.some.inj h ▸ .tokenRead hmatch
      · exact Option.some.inj h ▸ .tokenOther
  | commit l v =>
      simp only [publishStep, hpc] at h
      split_ifs at h with hlong htaken
      · exact Option.some.inj h ▸ .tooLong
      · exact Option.some.inj h ▸ .taken
      · -- the unique index on severity and version let the insert through
        refine Option.some.inj h ▸ .inserted ?_
        intro hmem
        obtain ⟨r, hr, hrv⟩ := mem_versionsOf.mp hmem
        obtain ⟨hr, hsev⟩ := mem_rowsOf.mp hr
        apply htaken
        rw [List.any_eq_true]
        exact ⟨r, hr, by simp [newHistoryRow, hsev, hrv]⟩
  | refreshVersion new =>
      simp only [publishStep, hpc] at h
      exact Option.some.inj h ▸ .versionSet
  | refreshConfig new =>
      simp only [publishStep, hpc] at h
      exact Option.some.inj h ▸ .configSet
  | refreshToken new =>
      simp only [publishStep, hpc] at h
      exact Option.some.inj h ▸ .tokenSet
  | _ => simp [publishStep, hpc] at h

/-! ## The ledger -/

/-- A version a call may read: the initial one or a committed one. -/
def Known (history : List HistoryRow) (sev : Severity) (v : ℕ) : Prop :=
  v = 1 ∨ v ∈ versionsOf history sev

/-- The row is one of the call's severity, with the call's values. -/
def Stored (history : List HistoryRow) (c : PublishCall) (new : HistoryRow) : Prop :=
  new ∈ rowsOf history c.severity ∧ new.config = c.config

/-- What a call has read of the history between two of its statements. -/
def CallKnows (history : List HistoryRow) (c : PublishCall) : Prop :=
  match c.pc with
  | .lock row => row ∈ rowsOf history c.severity
  | .readToken v => Known history c.severity v
  | .commit _ v => Known history c.severity v
  | .refreshVersion new => Stored history c new
  | .refreshConfig new => Stored history c new
  | .refreshToken new => Stored history c new
  | .returned new => Stored history c new
  | _ => True

/-- What the dictionaries hold for a severity comes from the built-in values or from its rows. -/
structure CachedOk (history : List HistoryRow) (sev : Severity) (p : CachedPolicy) : Prop where
  version : Known history sev p.policyVersion
  config : p.config = defaultConfig sev ∨ ∃ row ∈ rowsOf history sev, row.config = p.config
  token : p.publishToken = "" ∨ ∃ row ∈ rowsOf history sev, row.publishToken = p.publishToken

/-- The invariant of the ledger and of what is read from it. -/
structure LedgerInv (sha256 : String → String) (s : PolicySys) : Prop where
  versions : ∀ sev, versionsOf s.history sev = List.range' 2 (rowsOf s.history sev).length
  hashes : ∀ r ∈ s.history,
    r.contentHash = computeContentHash sha256 r.severity r.config r.policyVersion
  cached : ∀ p sev, CachedOk s.history sev (s.caches p sev)
  calls : ∀ c ∈ s.calls, CallKnows s.history c

theorem ledgerInv_init : LedgerInv sha256 PolicySys.init := by
  refine ⟨fun _ => rfl, ?_, ?_, ?_⟩
  · intro r hr
    simp [PolicySys.init] at hr
  · intro p sev
    exact ⟨.inl rfl, .inl rfl, .inl rfl⟩
  · intro c hc
    simp [PolicySys.init] at hc

section

variable {history : List HistoryRow} {new : HistoryRow}

theorem Known.append {sev : Severity} {v : ℕ} (h : Known history sev v) :
    Known (history ++ [new]) sev v := by
  refine h.imp id fun hv => ?_
  obtain ⟨r, hr, hrv⟩ := mem_versionsOf.mp hv
  exact mem_versionsOf.mpr ⟨r, mem_rowsOf_append hr, hrv⟩

theorem Stored.append {c : PublishCall} {r : HistoryRow} (h : Stored history c r) :
    Stored (history ++ [new]) c r :=
  ⟨mem_rowsOf_append h.1, h.2⟩

theorem CachedOk.append {sev : Severity} {p : CachedPolicy} (h : CachedOk history sev p) :
    CachedOk (history ++ [new]) sev p := by
  refine ⟨h.version.append, h.config.imp id ?_, h.token.imp id ?_⟩
  · rintro ⟨row, hrow, hc⟩
    exact ⟨row, mem_rowsOf_append hrow, hc⟩
  · rintro ⟨row, hrow, ht⟩
    exact ⟨row, mem_rowsOf_append hrow, ht⟩

/-- A new row takes nothing from what a call has read. -/
theorem CallKnows.append {c : PublishCall} (h : CallKnows history c) :
    CallKnows (history ++ [new]) c := by
  unfold CallKnows at h ⊢
  split
  · exact mem_rowsOf_append (by simpa [*] using h)
  all_goals simp only [*] at h
  · exact h.append
  · exact h.append
  · exact h.append
  · exact h.append
  · exact h.append
  · exact h.append
  · trivial

end

/-- The dictionaries after one of their values was taken from a row of the severity. -/
theorem cachedOk_update {history : List HistoryRow} {cache : LivePolicy}
    (h : ∀ sev, CachedOk history sev (cache sev)) {sev : Severity} {p : CachedPolicy}
    (hp : CachedOk history sev p) :
    ∀ sev', CachedOk history sev' (Function.update cache sev p sev') := by
  intro sev'
  by_cases hs : sev' = sev
  · subst hs
    rw [Function.update_self]
    exact hp
  · rw [Function.update_of_ne hs]
    exact h sev'

/-- What a statement can do: keep the history, with the call and the dictionaries still in order; or
insert a row whose version no row of the severity has. -/
theorem publishStep_effect {s : PolicySys} {c : PublishCall} {token : String} {e : Effect}
    (hinv : LedgerInv sha256 s) (hc : CallKnows s.history c)
    (h : publishStep sha256 s c token = some e) :
    (e.history = s.history ∧ CallKnows s.history { c with pc := e.pc } ∧
      ∀ sev, CachedOk s.history sev (e.cache sev)) ∨
    ∃ l v, c.pc = .commit l v ∧ Known s.history c.severity v ∧
      v + 1 ∉ versionsOf s.history c.severity ∧
      e = ⟨.refreshVersion (newHistoryRow sha256 c v token),
        s.history ++ [newHistoryRow sha256 c v token], s.caches c.process⟩ := by
  have hcache := hinv.cached c.process
  have hown := hcache c.severity
  obtain ⟨process, sev, config, expected, pc⟩ := c
  cases publishStep_cases h with
  | selected hnew => exact .inl ⟨rfl, newestRow_mem hnew, hcache⟩
  | noRow hnew => exact .inl ⟨rfl, trivial, hcache⟩
  | locked hmatch =>
      -- the row read before the lock is compared by token, and its version is the one known
      exact .inl ⟨rfl, .inr (mem_versionsOf.mpr ⟨_, hc, rfl⟩), hcache⟩
  | lockedOther => exact .inl ⟨rfl, trivial, hcache⟩
  | versionRead => exact .inl ⟨rfl, hown.version, hcache⟩
  | tokenRead hmatch => exact .inl ⟨rfl, hc, hcache⟩
  | tokenOther => exact .inl ⟨rfl, trivial, hcache⟩
  | tooLong => exact .inl ⟨rfl, trivial, hcache⟩
  | taken => exact .inl ⟨rfl, trivial, hcache⟩
  | inserted hfree => exact .inr ⟨_, _, rfl, hc, hfree, rfl⟩
  | versionSet =>
      obtain ⟨hmem, hconf⟩ : Stored s.history _ _ := hc
      refine .inl ⟨rfl, ⟨hmem, hconf⟩, cachedOk_update hcache ?_⟩
      exact ⟨.inr (mem_versionsOf.mpr ⟨_, hmem, rfl⟩), hown.config, hown.token⟩
  | configSet =>
      obtain ⟨hmem, hconf⟩ : Stored s.history _ _ := hc
      refine .inl ⟨rfl, ⟨hmem, hconf⟩, cachedOk_update hcache ?_⟩
      exact ⟨hown.version, .inr ⟨_, hmem, rfl⟩, hown.token⟩
  | tokenSet =>
      obtain ⟨hmem, hconf⟩ : Stored s.history _ _ := hc
      refine .inl ⟨rfl, ⟨hmem, hconf⟩, cachedOk_update hcache ?_⟩
      exact ⟨hown.version, hown.config, .inr ⟨_, hmem, rfl⟩⟩

/-- A version that follows a known one and is not taken is the next of the run. -/
theorem next_version {history : List HistoryRow} {sev : Severity} {v : ℕ}
    (hrun : versionsOf history sev = List.range' 2 (rowsOf history sev).length)
    (hknown : Known history sev v) (hfree : v + 1 ∉ versionsOf history sev) :
    v + 1 = 2 + (rowsOf history sev).length := by
  unfold Known at hknown
  rw [hrun, List.mem_range'_1] at hfree
  rw [hrun, List.mem_range'_1] at hknown
  omega

/-- The versions of every severity after the next one of one severity was inserted. -/
theorem versionsOf_append {history : List HistoryRow} {new : HistoryRow}
    (hrun : ∀ sev, versionsOf history sev = List.range' 2 (rowsOf history sev).length)
    (hnew : new.policyVersion = 2 + (rowsOf history new.severity).length) (sev : Severity) :
    versionsOf (history ++ [new]) sev
      = List.range' 2 (rowsOf (history ++ [new]) sev).length := by
  have hold := hrun sev
  unfold versionsOf at hold ⊢
  rw [rowsOf_append]
  by_cases hs : new.severity = sev
  · subst hs
    rw [if_pos rfl, List.map_append, hold, List.length_append, List.length_singleton,
      List.range'_1_concat, List.map_singleton, hnew]
  · rw [if_neg hs, List.append_nil]
    exact hold

/-- The dictionaries of all processes after those of one were replaced. -/
theorem cached_update {history : List HistoryRow} {caches : ℕ → LivePolicy}
    (h : ∀ p sev, CachedOk history sev (caches p sev)) {process : ℕ} {cache : LivePolicy}
    (hcache : ∀ sev, CachedOk history sev (cache sev)) :
    ∀ p sev, CachedOk history sev (Function.update caches process cache p sev) := by
  intro p sev
  by_cases hp : p = process
  · subst hp
    rw [Function.update_self]
    exact hcache sev
  · rw [Function.update_of_ne hp]
    exact h p sev

/-! ## Actions -/

/-- The calls of a restarted process keep a property that lost calls have. -/
theorem kill_ok {P : PublishCall → Prop} {c : PublishCall} (process : ℕ)
    (hlost : P { c with pc := .lost }) (h : P c) : P (c.kill process) := by
  unfold PublishCall.kill
  split
  · exact hlost
  · exact h

/-- What an action can do: begin a call, restart a process, or execute one statement. -/
theorem policyStep_cases {s s' : PolicySys} {a : PolicyAction}
    (h : policyStep sha256 s a = some s') :
    s' = s ∨
    (∃ p sev config expected,
      s' = { s with calls := s.calls ++ [⟨p, sev, config, expected, .select⟩] }) ∨
    (∃ p, a = .restart p ∧ s' = { s with
        caches := Function.update s.caches p initialPolicy
        calls := s.calls.map (PublishCall.kill p) }) ∨
    ∃ i token c e, a = .move i token ∧ s.calls[i]? = some c ∧
      publishStep sha256 s c token = some e ∧
      s' = ⟨e.history, Function.update s.caches c.process e.cache,
        s.calls.set i { c with pc := e.pc }⟩ := by
  cases a with
  | begin p severity config expected =>
      simp only [policyStep] at h
      split at h
      · exact .inl (Option.some.inj h).symm
      · exact .inr (.inl ⟨p, _, config, expected, (Option.some.inj h).symm⟩)
  | restart p => exact .inr (.inr (.inl ⟨p, rfl, (Option.some.inj h).symm⟩))
  | move i token =>
      simp only [policyStep] at h
      cases hcall : s.calls[i]? with
      | none => simp [hcall] at h
      | some c =>
          cases heff : publishStep sha256 s c token with
          | none => simp [hcall, heff] at h
          | some e =>
              simp only [hcall, heff] at h
              exact .inr (.inr (.inr ⟨i, token, c, e, rfl, hcall, heff, (Option.some.inj h).symm⟩))

/-- Every action keeps the ledger in order. -/
theorem LedgerInv.step {s s' : PolicySys} {a : PolicyAction} (h : LedgerInv sha256 s)
    (hstep : policyStep sha256 s a = some s') : LedgerInv sha256 s' := by
  rcases policyStep_cases hstep with
    rfl | ⟨p, sev, config, expected, rfl⟩ | ⟨p, -, rfl⟩ | ⟨i, token, c, e, -, hcall, heff, rfl⟩
  · exact h
  · refine ⟨h.versions, h.hashes, h.cached, ?_⟩
    intro c hc
    rcases List.mem_append.mp hc with hold | hlast
    · exact h.calls c hold
    · rw [List.mem_singleton.mp hlast]
      trivial
  · refine ⟨h.versions, h.hashes, cached_update h.cached ?_, ?_⟩
    · intro sev
      exact ⟨.inl rfl, .inl rfl, .inl rfl⟩
    · intro c hc
      obtain ⟨d, hd, rfl⟩ := List.mem_map.mp hc
      exact kill_ok p trivial (h.calls d hd)
  · have hc := h.calls c (List.mem_of_getElem? hcall)
    rcases publishStep_effect h hc heff with ⟨hhist, hok, hcache⟩ | ⟨l, v, -, hknown, hfree, rfl⟩
    · rw [hhist]
      exact ⟨h.versions, h.hashes, cached_update h.cached hcache, forall_mem_set h.calls hok⟩
    · have hnext := next_version (h.versions c.severity) hknown hfree
      refine ⟨versionsOf_append h.versions hnext, ?_, ?_, ?_⟩
      · intro r hr
        rcases List.mem_append.mp hr with hold | hlast
        · exact h.hashes r hold
        · rw [List.mem_singleton.mp hlast]
          rfl
      · refine cached_update (fun p sev => (h.cached p sev).append) ?_
        intro sev
        exact (h.cached c.process sev).append
      · refine forall_mem_set (fun d hd => (h.calls d hd).append) ⟨?_, rfl⟩
        rw [mem_rowsOf]
        exact ⟨List.mem_append_right _ (List.mem_singleton.mpr rfl), rfl⟩

/-! ## Tokens -/

/-- The call's non-empty token is that of a row of its severity with version `v`. -/
def Follows (history : List HistoryRow) (c : PublishCall) (v : ℕ) : Prop :=
  ∀ t, c.expectedToken = some t → t ≠ "" →
    ∃ row ∈ rowsOf history c.severity, row.publishToken = t ∧ row.policyVersion = v

/-- The call does not name the token of any row of its severity. -/
def NamesNoRow (history : List HistoryRow) (c : PublishCall) : Prop :=
  ∀ row ∈ rowsOf history c.severity, c.expectedToken ≠ some row.publishToken

/-- The row is the successor of the one whose token the call names. -/
def Succeeds (history : List HistoryRow) (c : PublishCall) (new : HistoryRow) : Prop :=
  ∃ v, new.policyVersion = v + 1 ∧ Follows history c v

/-- What the token check of a call has established. -/
def CallNames (history : List HistoryRow) (c : PublishCall) : Prop :=
  match c.pc with
  | .readVersion => NamesNoRow history c
  | .readToken _ => NamesNoRow history c
  | .commit _ v => Follows history c v
  | .refreshVersion new => Succeeds history c new
  | .refreshConfig new => Succeeds history c new
  | .refreshToken new => Succeeds history c new
  | .returned new => Succeeds history c new
  | _ => True

/-- The invariant of the tokens. -/
structure TokenInv (s : PolicySys) : Prop where
  nodup : (s.history.map HistoryRow.publishToken).Nodup
  calls : ∀ c ∈ s.calls, CallNames s.history c

theorem tokenInv_init : TokenInv PolicySys.init := by
  refine ⟨List.nodup_nil, ?_⟩
  intro c hc
  simp [PolicySys.init] at hc

section

variable {history : List HistoryRow} {new : HistoryRow}

theorem Follows.append {c : PublishCall} {v : ℕ} (h : Follows history c v) :
    Follows (history ++ [new]) c v := by
  intro t ht hne
  obtain ⟨row, hrow, htok, hv⟩ := h t ht hne
  exact ⟨row, mem_rowsOf_append hrow, htok, hv⟩

theorem Succeeds.append {c : PublishCall} {r : HistoryRow} (h : Succeeds history c r) :
    Succeeds (history ++ [new]) c r := by
  obtain ⟨v, hv, hf⟩ := h
  exact ⟨v, hv, hf.append⟩

theorem NamesNoRow.append {c : PublishCall} (h : NamesNoRow history c)
    (hnew : c.expectedToken ≠ some new.publishToken) : NamesNoRow (history ++ [new]) c := by
  intro row hrow
  rw [rowsOf_append] at hrow
  rcases List.mem_append.mp hrow with hold | hlast
  · exact h row hold
  · split at hlast
    · rw [List.mem_singleton.mp hlast]
      exact hnew
    · cases hlast

/-- A row whose token the call does not name changes nothing for the call. -/
theorem CallNames.append {c : PublishCall} (h : CallNames history c)
    (hnew : c.expectedToken ≠ some new.publishToken) : CallNames (history ++ [new]) c := by
  unfold CallNames at h ⊢
  split
  all_goals simp only [*] at h
  · exact h.append hnew
  · exact h.append hnew
  · exact h.append
  · exact h.append
  · exact h.append
  · exact h.append
  · exact h.append
  · trivial

end

/-- The call is about to commit, and so draws a token. -/
def PublishCall.atCommit (c : PublishCall) : Bool :=
  match c.pc with
  | .commit _ _ => true
  | _ => false

/-- A token that is drawn was never seen before: it is not empty, no row has it, and no caller has
named it. -/
def FreshToken (s : PolicySys) : PolicyAction → Prop
  | .move call token => ∀ c ∈ s.calls[call]?, c.atCommit = true →
      token ≠ "" ∧ token ∉ s.history.map HistoryRow.publishToken ∧
        ∀ d ∈ s.calls, d.expectedToken ≠ some token
  | _ => True

instance (s : PolicySys) : (a : PolicyAction) → Decidable (FreshToken s a)
  | .begin _ _ _ _ => inferInstanceAs (Decidable True)
  | .move call token => inferInstanceAs (Decidable (∀ c ∈ s.calls[call]?, c.atCommit = true →
      token ≠ "" ∧ token ∉ s.history.map HistoryRow.publishToken ∧
        ∀ d ∈ s.calls, d.expectedToken ≠ some token))
  | .restart _ => inferInstanceAs (Decidable True)

theorem tokenMatches_eq_true {expected : Option String} {current t : String}
    (h : tokenMatches expected current = true) (ht : expected = some t) : t = current := by
  subst ht
  simpa [tokenMatches] using h

/-- What the token check of a call establishes, statement by statement. -/
theorem publishStep_names {s : PolicySys} {c : PublishCall} {token : String} {e : Effect}
    (hinv : LedgerInv sha256 s) (hk : CallKnows s.history c) (hc : CallNames s.history c)
    (h : publishStep sha256 s c token = some e) (hhist : e.history = s.history) :
    CallNames s.history { c with pc := e.pc } := by
  have hown := hinv.cached c.process c.severity
  obtain ⟨process, sev, config, expected, pc⟩ := c
  cases publishStep_cases h with
  | selected hnew => trivial
  | noRow hnew =>
      -- no row of the severity exists yet, so the call can name none of them
      intro row hrow
      rw [rowsOf_eq_nil_of_newestRow hnew] at hrow
      cases hrow
  | locked hmatch =>
      intro t ht _
      exact ⟨_, hk, (tokenMatches_eq_true hmatch ht).symm, rfl⟩
  | lockedOther => trivial
  | versionRead => exact hc
  | tokenRead hmatch =>
      have hnames : NamesNoRow s.history _ := hc
      -- the dictionary holds no token, or one of a row the call would have to name
      intro t ht hne
      have hcur := tokenMatches_eq_true hmatch ht
      rcases hown.token with hempty | ⟨row, hrow, htok⟩
      · exact absurd (hcur.trans hempty) hne
      · exact absurd (by rw [htok, ← hcur]; exact ht) (hnames row hrow)
  | tokenOther => trivial
  | tooLong => trivial
  | taken => trivial
  | inserted hfree => simp at hhist
  | versionSet => exact hc
  | configSet => exact hc
  | tokenSet => exact hc

/-- One action with a fresh token keeps the tokens in order. -/
theorem TokenInv.step {s s' : PolicySys} {a : PolicyAction} (hled : LedgerInv sha256 s)
    (h : TokenInv s) (hfresh : FreshToken s a) (hstep : policyStep sha256 s a = some s') :
    TokenInv s' := by
  rcases policyStep_cases hstep with
    rfl | ⟨p, sev, config, expected, rfl⟩ | ⟨p, -, rfl⟩ | ⟨i, token, c, e, rfl, hcall, heff, rfl⟩
  · exact h
  · refine ⟨h.nodup, ?_⟩
    intro c hc
    rcases List.mem_append.mp hc with hold | hlast
    · exact h.calls c hold
    · rw [List.mem_singleton.mp hlast]
      trivial
  · refine ⟨h.nodup, ?_⟩
    intro c hc
    obtain ⟨d, hd, rfl⟩ := List.mem_map.mp hc
    exact kill_ok p trivial (h.calls d hd)
  · have hmem := List.mem_of_getElem? hcall
    rcases publishStep_effect hled (hled.calls c hmem) heff with
      ⟨hhist, -, -⟩ | ⟨l, v, hpc, -, -, rfl⟩
    · have hnames := publishStep_names hled (hled.calls c hmem) (h.calls c hmem) heff hhist
      rw [hhist]
      exact ⟨h.nodup, forall_mem_set h.calls hnames⟩
    · obtain ⟨-, htok, hnamed⟩ := hfresh c hcall (by simp [PublishCall.atCommit, hpc])
      have hfollows : Follows s.history c v := by
        have hc := h.calls c hmem
        unfold CallNames at hc
        rw [hpc] at hc
        exact hc
      refine ⟨?_, forall_mem_set (fun d hd => (h.calls d hd).append (hnamed d hd)) ?_⟩
      · simp only [List.map_append, List.map_singleton]
        rw [List.nodup_append]
        refine ⟨h.nodup, List.nodup_singleton _, ?_⟩
        intro a ha b hb hab
        have hat : a = token := hab.trans (List.mem_singleton.mp hb)
        exact htok (hat ▸ ha)
      · exact ⟨v, rfl, hfollows.append⟩

/-! ## A publish that loses -/

/-- The call has committed its row, or was lost to a restart. -/
def PublishPc.Past : PublishPc → Prop
  | .refreshVersion _ => True
  | .refreshConfig _ => True
  | .refreshToken _ => True
  | .returned _ => True
  | .lost => True
  | _ => False

/-- The call at an index is past its commit. -/
def PastAt (s : PolicySys) (i : ℕ) : Prop := ∃ c, s.calls[i]? = some c ∧ c.pc.Past

/-- A statement that changes the history or the dictionaries belongs to a call past its commit. -/
theorem publishStep_past {s : PolicySys} {c : PublishCall} {token : String} {e : Effect}
    (h : publishStep sha256 s c token = some e) :
    (e.history = s.history ∧ e.cache = s.caches c.process ∧ ¬ c.pc.Past) ∨ e.pc.Past := by
  obtain ⟨process, sev, config, expected, pc⟩ := c
  cases publishStep_cases h with
  | inserted hfree =>
      -- from here on the call can only refresh the dictionaries and return
      exact .inr trivial
  | versionSet => exact .inr trivial
  | configSet => exact .inr trivial
  | tokenSet => exact .inr trivial
  | _ => exact .inl ⟨rfl, rfl, id⟩

/-- A call past its commit stays so. -/
theorem PastAt.step {s s' : PolicySys} {a : PolicyAction} {i : ℕ} (h : PastAt s i)
    (hstep : policyStep sha256 s a = some s') : PastAt s' i := by
  obtain ⟨c, hc, hpast⟩ := h
  have hlt := (List.getElem?_eq_some_iff.mp hc).1
  rcases policyStep_cases hstep with
    rfl | ⟨p, sev, config, expected, rfl⟩ | ⟨p, -, rfl⟩ | ⟨j, token, d, e, -, hcall, heff, rfl⟩
  · exact ⟨c, hc, hpast⟩
  · exact ⟨c, (List.getElem?_append_left hlt).trans hc, hpast⟩
  · have hkill : (c.kill p).pc.Past := by
      unfold PublishCall.kill
      split
      · trivial
      · exact hpast
    exact ⟨c.kill p, by simp [hc], hkill⟩
  · by_cases hi : j = i
    · subst hi
      rw [hc, Option.some.injEq] at hcall
      subst hcall
      refine ⟨{ c with pc := e.pc }, List.getElem?_set_self hlt, ?_⟩
      rcases publishStep_past heff with ⟨-, -, hnot⟩ | hpast'
      · exact absurd hpast hnot
      · exact hpast'
    · exact ⟨c, (List.getElem?_set_ne hi).trans hc, hpast⟩

/-- A statement after which its call is not past its commit changes neither the history nor any
dictionary. -/
theorem move_unchanged {s s' : PolicySys} {i : ℕ} {token : String}
    (hstep : policyStep sha256 s (.move i token) = some s') (hnot : ¬ PastAt s' i) :
    s'.history = s.history ∧ s'.caches = s.caches := by
  simp only [policyStep] at hstep
  cases hcall : s.calls[i]? with
  | none => simp [hcall] at hstep
  | some c =>
      simp only [hcall] at hstep
      cases heff : publishStep sha256 s c token with
      | none => simp [heff] at hstep
      | some e =>
          simp only [heff, Option.some.injEq] at hstep
          subst hstep
          rcases publishStep_past heff with ⟨hhist, hcache, -⟩ | hpast
          · refine ⟨hhist, ?_⟩
            simp only [hcache]
            exact Function.update_eq_self c.process s.caches
          · have hlt := (List.getElem?_eq_some_iff.mp hcall).1
            exact absurd ⟨{ c with pc := e.pc }, List.getElem?_set_self hlt, hpast⟩ hnot

/-- Every statement of a call that ends in `ConcurrencyError` left the history and the dictionaries of
every process as they were. -/
theorem unchanged_of_conflict {s₁ s₂ s₃ : PolicySys} {i : ℕ} {token : String}
    {bs : List PolicyAction} {c : PublishCall}
    (hstep : policyStep sha256 s₁ (.move i token) = some s₂)
    (hrest : run (policyStep sha256) s₂ bs = some s₃) (hc : s₃.calls[i]? = some c)
    (hconflict : c.pc = .conflict) : s₂.history = s₁.history ∧ s₂.caches = s₁.caches := by
  refine move_unchanged hstep ?_
  intro hpast
  have hkeep : ∀ s a s', PastAt s i → policyStep sha256 s a = some s' → PastAt s' i :=
    fun _ _ _ h hs => h.step hs
  obtain ⟨d, hd, hdpast⟩ := run_invariant hkeep hpast hrest
  rw [hc, Option.some.injEq] at hd
  rw [← hd, hconflict] at hdpast
  exact hdpast

/-! ## The law of publishing -/

/-- For every interleaving of publishes and restarts in which drawn tokens are fresh:
the versions of each severity are `2, 3, …` in commit order;
a call that named a non-empty token and returned inserted the successor of the one row with that token;
and every statement of a call that ended in `ConcurrencyError` changed nothing. -/
theorem publishes_serialised (sha256 : String → String) (as : List PolicyAction) (s : PolicySys)
    (hfresh : Guarded (policyStep sha256) FreshToken PolicySys.init as)
    (hrun : run (policyStep sha256) PolicySys.init as = some s) :
    (∀ sev, versionsOf s.history sev = List.range' 2 (versionsOf s.history sev).length) ∧
    (∀ c ∈ s.calls, ∀ new t, c.pc = .returned new → c.expectedToken = some t → t ≠ "" →
      new ∈ s.history ∧ new.severity = c.severity ∧ new.config = c.config ∧
      ∃ row ∈ s.history, row.severity = c.severity ∧ row.publishToken = t ∧
        new.policyVersion = row.policyVersion + 1 ∧
        ∀ row' ∈ s.history, row'.publishToken = t → row' = row) ∧
    ∀ bs cs i token s₁ s₂ c, as = bs ++ .move i token :: cs →
      run (policyStep sha256) PolicySys.init bs = some s₁ →
      policyStep sha256 s₁ (.move i token) = some s₂ → s.calls[i]? = some c → c.pc = .conflict →
      s₂.history = s₁.history ∧ s₂.caches = s₁.caches := by
  have hkeep : ∀ s a s', LedgerInv sha256 s ∧ TokenInv s → FreshToken s a →
      policyStep sha256 s a = some s' → LedgerInv sha256 s' ∧ TokenInv s' := by
    rintro s a s' ⟨hled, htok⟩ hok hs
    exact ⟨hled.step hs, TokenInv.step hled htok hok hs⟩
  have hinv := run_invariant_of_guarded hkeep ⟨ledgerInv_init, tokenInv_init⟩ hfresh hrun
  refine ⟨?_, ?_, ?_⟩
  · intro sev
    have hlen : (versionsOf s.history sev).length = (rowsOf s.history sev).length :=
      List.length_map _
    rw [hlen]
    exact hinv.1.versions sev
  · intro c hc new t hpc ht hne
    obtain ⟨hstored, hconfig⟩ : Stored s.history c new := by
      simpa [CallKnows, hpc] using hinv.1.calls c hc
    obtain ⟨v, hv, hfollows⟩ : Succeeds s.history c new := by
      simpa [CallNames, hpc] using hinv.2.calls c hc
    obtain ⟨hmem, hsev⟩ := mem_rowsOf.mp hstored
    obtain ⟨row, hrow, htok, hrv⟩ := hfollows t ht hne
    obtain ⟨hrow, hrsev⟩ := mem_rowsOf.mp hrow
    refine ⟨hmem, hsev, hconfig, row, hrow, hrsev, htok, by omega, ?_⟩
    intro row' hrow' htok'
    exact List.inj_on_of_nodup_map hinv.2.nodup hrow' hrow (htok'.trans htok.symm)
  · -- a call past its commit stays past it, so one that ends in a conflict never was
    intro bs cs i token s₁ s₂ c has hbs hstep hc hconflict
    subst has
    obtain ⟨t, ht, hrest⟩ := run_append_eq_some.mp hrun
    rw [hbs, Option.some.injEq] at ht
    subst ht
    obtain ⟨u, hu, hrest⟩ := run_cons_eq_some.mp hrest
    rw [hstep, Option.some.injEq] at hu
    subst hu
    exact unchanged_of_conflict hstep hrest hc hconflict

/-- SHA-256 at the three texts that the sample run hashes. -/
def sampleDigest (text : String) : String :=
  if text =
      "\x7b\"penalty_per_minute\": 100, \"policy_version\": 2"
        ++ ", \"reward_base\": 750, \"severity\": \"critical\", \"threshold_minutes\": 20\x7d" then
    "156be38459e3297e9afa564991ab9e2eec77d84e813d8766b6b736e69f6b2ff6"
  else if text =
      "\x7b\"penalty_per_minute\": 100, \"policy_version\": 3"
        ++ ", \"reward_base\": 750, \"severity\": \"critical\", \"threshold_minutes\": 25\x7d" then
    "f1f522ff3d41a7d21dd0a006ef831375ba833b249db0723d722b41c667610df9"
  else "9365fbc282dac8c2266cd1d47999eec8732ae99c2728c1967fb720de8694aeba"

/-- A first publish, and then two processes that both name its token: the second to commit loses. -/
def racingPublishes : List PolicyAction :=
  [.begin 0 "critical" ⟨20, 100, 750⟩ none, .move 0 "", .move 0 "", .move 0 "", .move 0 "t1",
    .move 0 "", .move 0 "", .move 0 "",
    .begin 1 "critical" ⟨25, 100, 750⟩ (some "t1"), .begin 0 "critical" ⟨30, 100, 750⟩ (some "t1"),
    .move 1 "", .move 2 "", .move 1 "", .move 1 "t2", .move 2 "", .move 2 "t3", .move 1 "",
    .move 1 "", .move 1 ""]

theorem publishes_serialised_racing :
    ∃ s, run (policyStep sampleDigest) PolicySys.init racingPublishes = some s ∧
      versionsOf s.history .critical = [2, 3] ∧ s.calls.map (·.pc.over) = [true, true, true] ∧
      (∀ sev, versionsOf s.history sev = List.range' 2 (versionsOf s.history sev).length) ∧
      (∀ c ∈ s.calls, ∀ new t, c.pc = .returned new → c.expectedToken = some t → t ≠ "" →
        new ∈ s.history ∧ new.severity = c.severity ∧ new.config = c.config ∧
        ∃ row ∈ s.history, row.severity = c.severity ∧ row.publishToken = t ∧
          new.policyVersion = row.policyVersion + 1 ∧
          ∀ row' ∈ s.history, row'.publishToken = t → row' = row) ∧
      ∀ bs cs i token s₁ s₂ c, racingPublishes = bs ++ .move i token :: cs →
        run (policyStep sampleDigest) PolicySys.init bs = some s₁ →
        policyStep sampleDigest s₁ (.move i token) = some s₂ → s.calls[i]? = some c →
        c.pc = .conflict → s₂.history = s₁.history ∧ s₂.caches = s₁.caches :=
  ⟨_, rfl, rfl, rfl, publishes_serialised sampleDigest racingPublishes _ (by decide) rfl⟩

end ApexChainx.Sla
