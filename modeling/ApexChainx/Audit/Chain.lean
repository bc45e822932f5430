import ApexChainx.Lib.Table
import ApexChainx.Audit.Log

/-!
# One chain

However many calls of `log_event` overlap, the table is one chain in the order of its ids. A call reads
the last entry only after it has the lock, and nobody else commits a row before it ends: every call
between the lock and its commit is the holder of the lock, so there is one such call at a time, and the
tail it read is still the tail when its row is stored.
-/

namespace ApexChainx.Audit

open ApexChainx.Lib

variable {sha256 : String → String} {sensitiveFields : List String}

/-- The row continues the chain of `rows`. -/
def Continues (sha256 : String → String) (rows : List AuditLogRow) (row : AuditLogRow) : Prop :=
  row.prevHash = (auditChain sha256).tip none rows ∧
    row.entryHash = (auditChain sha256).compute ((auditChain sha256).tip none rows) row

/-- What holds of a call: between the lock and the end of its transaction it is the holder, and the row
it is about to store continues the table. -/
def CallOk (sha256 : String → String) (s : Sys) (i : ℕ) (c : LogCall) : Prop :=
  match c.pc with
  | .begin | .lock _ | .ended _ => True
  | .readTail _ | .raised => s.holder = some i
  | .insert row => s.holder = some i ∧ Continues sha256 s.rows row
  | .commit row =>
      s.holder = some i ∧ Continues sha256 s.rows row ∧ row.id < s.nextId ∧
        ∀ r ∈ s.rows, r.id < row.id

/-- The table is a chain in the order in which its rows were stored, which is the order of their ids. -/
structure Inv (sha256 : String → String) (s : Sys) : Prop where
  linked : (auditChain sha256).Linked none s.rows
  ordered : s.rows.Pairwise fun a b => a.id < b.id
  drawn : ∀ r ∈ s.rows, r.id < s.nextId
  calls : ∀ i c, s.calls[i]? = some c → CallOk sha256 s i c

theorem inv_init : Inv sha256 Sys.init := by
  refine ⟨trivial, List.Pairwise.nil, ?_, ?_⟩
  · intro r hr
    cases hr
  · intro i c hc
    cases hc

theorem orderById_eq {rows : List AuditLogRow} (h : rows.Pairwise fun a b => a.id < b.id) :
    orderById rows = rows := by
  refine List.Pairwise.insertionSort_eq (h.imp ?_)
  intro a b hab
  exact Nat.le_of_lt hab

/-- The tail that `log_event` reads is the tip of the chain. -/
theorem tail_eq_tip {rows : List AuditLogRow} (h : rows.Pairwise fun a b => a.id < b.id) :
    (orderById rows).getLast?.map AuditLogRow.entryHash = (auditChain sha256).tip none rows := by
  rw [orderById_eq h, HashChain.tip_eq_getLast?]
  rfl

/-- The calls after call `i` has moved: the others as they were, for which only the holder matters if
the table is the same. -/
theorem calls_set {s : Sys} {s' : Sys} {i : ℕ} {c' : LogCall}
    (hcalls : s'.calls = s.calls.set i c') (hmoved : CallOk sha256 s' i c')
    (hothers : ∀ j c, j ≠ i → s.calls[j]? = some c → CallOk sha256 s' j c) :
    ∀ j c, s'.calls[j]? = some c → CallOk sha256 s' j c := by
  intro j c hc
  rw [hcalls] at hc
  rcases getElem?_replace hc with ⟨rfl, rfl⟩ | ⟨hne, hold⟩
  · exact hmoved
  · exact hothers j c hne hold

/-- A call keeps what it knows while the table and the holder stay and the sequence goes on. -/
theorem CallOk.of_same {s s' : Sys} {j : ℕ} {c : LogCall} (h : CallOk sha256 s j c)
    (hrows : s'.rows = s.rows) (hholder : s'.holder = s.holder) (hnext : s.nextId ≤ s'.nextId) :
    CallOk sha256 s' j c := by
  unfold CallOk at h ⊢
  rw [hrows, hholder]
  cases hpc : c.pc with
  | commit row =>
      rw [hpc] at h
      exact ⟨h.1, h.2.1, Nat.lt_of_lt_of_le h.2.2.1 hnext, h.2.2.2⟩
  | _ =>
      rw [hpc] at h
      exact h

/-- A call that is not the holder knows nothing of the table. -/
theorem CallOk.of_not_holder {s s' : Sys} {j : ℕ} {c : LogCall} (h : CallOk sha256 s j c)
    (hj : s.holder ≠ some j) : CallOk sha256 s' j c := by
  unfold CallOk at h ⊢
  cases hpc : c.pc with
  | begin => trivial
  | lock createdAt => trivial
  | ended stored => trivial
  | readTail createdAt =>
      rw [hpc] at h
      exact absurd h hj
  | raised =>
      rw [hpc] at h
      exact absurd h hj
  | insert row =>
      rw [hpc] at h
      exact absurd h.1 hj
  | commit row =>
      rw [hpc] at h
      exact absurd h.1 hj

/-- A statement that changes neither the table nor the lock. -/
theorem Inv.of_goto {s : Sys} {i : ℕ} {c : LogCall} {pc : LogPc} (h : Inv sha256 s) {nextId : ℕ}
    (hnext : s.nextId ≤ nextId)
    (hok : CallOk sha256 { s.goto i c pc with nextId := nextId } i { c with pc := pc }) :
    Inv sha256 { s.goto i c pc with nextId := nextId } := by
  refine ⟨h.linked, h.ordered, ?_, calls_set rfl hok ?_⟩
  · intro r hr
    exact Nat.lt_of_lt_of_le (h.drawn r hr) hnext
  · intro j d _ hd
    exact (h.calls j d hd).of_same rfl rfl hnext

/-- The row a call builds for the tail it has read continues the table. -/
theorem continues_row {s : Sys} (h : Inv sha256 s) (args : LogArgs) (createdAt : DateTime) :
    Continues sha256 s.rows (args.row sha256 sensitiveFields createdAt
      ((orderById s.rows).getLast?.map AuditLogRow.entryHash)) := by
  rw [tail_eq_tip h.ordered]
  exact ⟨rfl, rfl⟩

/-- A call takes the free lock. -/
theorem inv_lock {s : Sys} {i : ℕ} {c : LogCall} (h : Inv sha256 s) (hfree : s.holder = none)
    (createdAt : DateTime) :
    Inv sha256 { s.goto i c (.readTail createdAt) with holder := some i } := by
  refine ⟨h.linked, h.ordered, h.drawn, calls_set rfl rfl ?_⟩
  intro j d _ hd
  exact (h.calls j d hd).of_not_holder (by simp [hfree])

/-- The holder stores its row and releases the lock. -/
theorem inv_commit {s : Sys} {i : ℕ} {c : LogCall} {row : AuditLogRow} (h : Inv sha256 s)
    (hholder : s.holder = some i) (hrow : Continues sha256 s.rows row) (hid : row.id < s.nextId)
    (hlast : ∀ r ∈ s.rows, r.id < row.id) :
    Inv sha256 { s.goto i c (.ended true) with rows := s.rows ++ [row], holder := s.released i } := by
  refine ⟨h.linked.concat hrow.1 hrow.2, ?_, ?_, calls_set rfl trivial ?_⟩
  · rw [List.pairwise_append]
    refine ⟨h.ordered, List.pairwise_singleton _ _, ?_⟩
    intro a ha b hb
    rw [List.mem_singleton.mp hb]
    exact hlast a ha
  · intro r hr
    rcases List.mem_append.mp hr with hold | hnew
    · exact h.drawn r hold
    · rw [List.mem_singleton.mp hnew]
      exact hid
  · intro j d hj hd
    refine (h.calls j d hd).of_not_holder ?_
    rw [hholder]
    exact fun heq => hj (Option.some.inj heq).symm

/-- A transaction is rolled back, which frees the lock if it had it. -/
theorem inv_rollback {s : Sys} {i : ℕ} {c : LogCall} (h : Inv sha256 s) :
    Inv sha256 { s.goto i c (.ended false) with holder := s.released i } := by
  refine ⟨h.linked, h.ordered, h.drawn, calls_set rfl trivial ?_⟩
  intro j d hj hd
  unfold Sys.released
  by_cases hi : s.holder = some i
  · refine (h.calls j d hd).of_not_holder ?_
    rw [hi]
    exact fun heq => hj (Option.some.inj heq).symm
  · rw [if_neg hi]
    exact (h.calls j d hd).of_same rfl rfl le_rfl

theorem logStep_inv {s s' : Sys} {i : ℕ} {now : DateTime} {c : LogCall} (h : Inv sha256 s)
    (hc : s.calls[i]? = some c) (hstep : logStep sha256 sensitiveFields s i now c = some s') :
    Inv sha256 s' := by
  have hcall := h.calls i c hc
  unfold CallOk at hcall
  unfold logStep at hstep
  cases hpc : c.pc with
  | begin =>
      rw [hpc] at hstep
      obtain rfl := Option.some.inj hstep
      exact h.of_goto le_rfl trivial
  | lock createdAt =>
      rw [hpc] at hstep
      dsimp only at hstep
      split at hstep
      · cases hstep
      · rename_i hfree
        obtain rfl := Option.some.inj hstep
        exact inv_lock h hfree createdAt
  | readTail createdAt =>
      -- the holder reads the tail, and nobody else can append until it commits
      rw [hpc] at hstep hcall
      obtain rfl := Option.some.inj hstep
      exact h.of_goto le_rfl ⟨hcall, continues_row h c.args createdAt⟩
  | insert row =>
      rw [hpc] at hstep hcall
      obtain rfl := Option.some.inj hstep
      refine h.of_goto (Nat.le_succ _) ?_
      split
      · exact ⟨hcall.1, hcall.2, Nat.lt_succ_self _, h.drawn⟩
      · exact hcall.1
  | commit row =>
      rw [hpc] at hstep hcall
      obtain rfl := Option.some.inj hstep
      exact inv_commit h hcall.1 hcall.2.1 hcall.2.2.1 hcall.2.2.2
  | raised =>
      rw [hpc] at hstep
      cases hstep
  | ended stored =>
      rw [hpc] at hstep
      cases hstep

theorem inv_step {s s' : Sys} {a : Action} (h : Inv sha256 s)
    (hstep : step sha256 sensitiveFields s a = some s') : Inv sha256 s' := by
  cases a with
  | begin args =>
      obtain rfl := Option.some.inj hstep
      refine ⟨h.linked, h.ordered, h.drawn, ?_⟩
      intro i c hc
      rcases getElem?_insert hc with hold | ⟨-, rfl⟩
      · exact (h.calls i c hold).of_same rfl rfl le_rfl
      · trivial
  | move i now =>
      simp only [step] at hstep
      split at hstep
      · cases hstep
      · rename_i c hc
        exact logStep_inv h hc hstep
  | rollback i =>
      simp only [step] at hstep
      split at hstep
      · cases hstep
      · split at hstep
        · cases hstep
        · obtain rfl := Option.some.inj hstep
          exact inv_rollback h

/-! ## Runs -/

/-- The entries form one linear chain: the first has no predecessor, and each names the hash of the one
before it. -/
structure OneChain (entries : List AuditLogRow) : Prop where
  first : ∀ e ∈ entries.head?, e.prevHash = none
  next : entries.IsChain fun a b => b.prevHash = some a.entryHash

/-- After every interleaving of calls of `log_event`, finished or not, failed or rolled back at any
point, the stored entries have distinct ids, form one linear chain in the order of their ids, and
`verify_chain` reports them verified. -/
theorem entries_form_one_chain (sha256 : String → String) (sensitiveFields : List String)
    {as : List Action} {s : Sys} (hrun : run (step sha256 sensitiveFields) Sys.init as = some s) :
    (orderById s.rows).Pairwise (fun a b => a.id < b.id) ∧ OneChain (orderById s.rows) ∧
      (verifyChain sha256 s.rows).verified = true := by
  have hkeep : ∀ s a s', Inv sha256 s → step sha256 sensitiveFields s a = some s' → Inv sha256 s' :=
    fun _ _ _ h hstep => inv_step h hstep
  have hinv : Inv sha256 s := run_invariant hkeep inv_init hrun
  have hlinked : (auditChain sha256).Linked none (orderById s.rows) := by
    rw [orderById_eq hinv.ordered]
    exact hinv.linked
  refine ⟨?_, ⟨hlinked.link_head, hlinked.isChain⟩, verifyChain_verified_iff.mpr hlinked⟩
  rw [orderById_eq hinv.ordered]
  exact hinv.ordered

theorem valid_sampleTime : DateTime.Valid 2026 1 2 3 4 5 0 := by decide

/-- A time for the runs below. -/
def sampleTime : DateTime := .ofValid valid_sampleTime

/-- The call that logs a login. -/
def loginEvent (email : String) : LogArgs :=
  ⟨"login_success", some email, none, none, some "req-1", none⟩

/-- Two logins logged by two processes. The second waits while the first has the lock, and has read the
entry of the first when the run ends. -/
def overlappingCalls : List Action :=
  [.begin (loginEvent "ana@noc.example"), .begin (loginEvent "bo@noc.example"),
    .move 0 sampleTime, .move 0 sampleTime, .move 1 sampleTime,
    .move 0 sampleTime, .move 0 sampleTime, .move 0 sampleTime,
    .move 1 sampleTime, .move 1 sampleTime]

theorem entries_form_one_chain_overlapping : ∃ s,
    run (step id ["password"]) Sys.init overlappingCalls = some s ∧ s.rows.length = 1 ∧
      s.holder = some 1 ∧
      (orderById s.rows).Pairwise (fun a b => a.id < b.id) ∧ OneChain (orderById s.rows) ∧
      (verifyChain id s.rows).verified = true := by
  obtain ⟨s, hrun, hlen, hholder⟩ : ∃ s,
      run (step id ["password"]) Sys.init overlappingCalls = some s ∧ s.rows.length = 1 ∧
        s.holder = some 1 :=
    ⟨_, rfl, rfl, rfl⟩
  exact ⟨s, hrun, hlen, hholder, entries_form_one_chain id ["password"] hrun⟩

end ApexChainx.Audit
