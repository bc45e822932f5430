import ApexChainx.Webhooks.Attempts

/-!
# One attempt at a time

The claim of `dispatch_delivery` is a compare-and-set, so a delivery is in the hands of one dispatch at a
time, until its commit. Two writes do not look at the row again: that commit, and the reset of
`replay_dead_letter_delivery`, which was decided on an earlier read. The commit is harmless, since the
dispatch still holds the delivery; the reset puts a delivery back that another dispatch holds, or has
delivered.

Under the condition that each reset finds the delivery neither held nor delivered, `one_attempt` says that
at most one request of a delivery is in progress and that a delivered one stays so.
-/

namespace ApexChainx.Webhooks.Attempts

open ApexChainx.Lib

/-! ## The law -/

/-- The statement is a request of the delivery. -/
def Stmt.sends (id : ℕ) : Stmt → Bool
  | .send i _ _ => i = id
  | _ => false

/-- The number of requests of the delivery in progress. -/
def State.inProgress (s : State) (id : ℕ) : ℕ := s.procs.countP fun p => p.work.head?.any (Stmt.sends id)

/-- At most one request of the delivery is in progress, and once an attempt was committed as a success the
status stays so and no request is in progress. -/
structure State.OneAttempt (s : State) (id : ℕ) : Prop where
  one : s.inProgress id ≤ 1
  done : id ∈ s.delivered →
    (∃ d, s.deliveries[id]? = some d ∧ d.status = .success) ∧ s.inProgress id = 0

instance (s : State) (id : ℕ) : Decidable (s.OneAttempt id) :=
  decidable_of_iff (s.inProgress id ≤ 1 ∧ (id ∈ s.delivered →
      (s.deliveries[id]?.any fun d => d.status = .success) = true ∧ s.inProgress id = 0)) (by
    simp only [Option.any_eq_true, decide_eq_true_eq]
    exact ⟨fun h => ⟨h.1, h.2⟩, fun h => ⟨h.one, h.done⟩⟩)

/-! ## The condition -/

/-- The statement belongs to a dispatch that has claimed the delivery and not yet committed. -/
def Stmt.holds (id : ℕ) : Stmt → Bool
  | .work (.load i) | .work (.attempt i _) | .send i _ _ | .commit i _ _ => i = id
  | _ => false

/-- The delivery that the commit of a replay resets. -/
def Stmt.resets : Stmt → Option ℕ
  | .work (.replayCommit id _) => some id
  | _ => none

/-- The step does not reset the delivery, or it is neither held by a dispatch nor delivered. -/
def ResetsFree (id : ℕ) (s : State) : Move → Prop
  | .start _ => True
  | .move i _ =>
      ∀ p ∈ s.procs[i]?, ∀ stmt ∈ p.work.head?, stmt.resets = some id →
        s.stmts.countP (Stmt.holds id) = 0 ∧ ∀ d ∈ s.deliveries[id]?, d.status ≠ .success

instance (id : ℕ) (s : State) : (m : Move) → Decidable (ResetsFree id s m)
  | .start _ => inferInstanceAs (Decidable True)
  | .move i _ =>
      inferInstanceAs (Decidable (∀ p ∈ s.procs[i]?, ∀ stmt ∈ p.work.head?, stmt.resets = some id →
        s.stmts.countP (Stmt.holds id) = 0 ∧ ∀ d ∈ s.deliveries[id]?, d.status ≠ .success))

/-! ## The invariant -/

/-- What holds of the delivery as a statement has loaded it and is about to write it. -/
def Stmt.Ok (id : ℕ) : Stmt → Prop
  | .work (.attempt i seen) | .send i seen _ => i = id → seen.status = .sending
  | .commit i seen new => i = id → seen.status = .sending ∧ new.status ≠ .sending
  | .work (.replayCommit _ seen) => seen.status = .deadLetter
  | _ => True

/-- At most one dispatch holds the delivery, whose status is then `sending`. -/
structure Held (id : ℕ) (s : State) : Prop where
  ok : ∀ v ∈ s.stmts, v.Ok id
  one : s.stmts.countP (Stmt.holds id) ≤ 1
  sending : 0 < s.stmts.countP (Stmt.holds id) → ∃ d, s.deliveries[id]? = some d ∧ d.status = .sending
  delivered : id ∈ s.delivered → ∃ d, s.deliveries[id]? = some d ∧ d.status = .success

theorem held_init (id : ℕ) : Held id State.init := by
  refine ⟨?_, ?_, ?_, ?_⟩ <;> simp [State.init, State.stmts]

theorem Stmt.holds_of_sends {id : ℕ} {v : Stmt} (h : v.sends id = true) : v.holds id = true := by
  cases v with
  | send i seen webhook => exact h
  | _ => simp [Stmt.sends] at h

theorem Held.oneAttempt {id : ℕ} {s : State} (h : Held id s) : s.OneAttempt id := by
  have hle : s.inProgress id ≤ s.stmts.countP (Stmt.holds id) := by
    refine (countP_head_le Proc.work (Stmt.sends id) s.procs).trans ?_
    exact List.countP_mono_left fun v _ => Stmt.holds_of_sends
  refine ⟨hle.trans h.one, fun hdelivered => ⟨h.delivered hdelivered, ?_⟩⟩
  obtain ⟨d, hd, hstatus⟩ := h.delivered hdelivered
  by_contra hbusy
  obtain ⟨d', hd', hsending⟩ := h.sending (by omega)
  rw [hd, Option.some.injEq] at hd'
  rw [hd', hsending] at hstatus
  cases hstatus

/-- A dispatch that holds the delivery goes on in one statement, and begins in one after the claim. -/
theorem holds_of_follows {cfg : WebhookSettings} {env : StepEnv} {s : State} {stmt v : Stmt} {id : ℕ}
    (h : Follows cfg env s stmt v) (hv : v.holds id = true) :
    stmt.holds id = true ∨ (stmt = .work (.claim id) ∧ ∃ d, s.deliveries[id]? = some d ∧
      claimable d.status = true) := by
  cases h with
  | claim row free =>
      obtain rfl : _ = id := by simpa [Stmt.holds] using hv
      exact .inr ⟨rfl, _, row, free⟩
  | load row => exact .inl hv
  | send sent => exact .inl hv
  | defer => exact .inl hv
  | settle => exact .inl hv
  | _ => cases hv

theorem length_following_le {cfg : WebhookSettings} {env : StepEnv} {s : State} {stmt : Stmt} {id : ℕ}
    (h : stmt.holds id = true ∨ stmt = .work (.claim id)) :
    (exec cfg env s stmt).following.length ≤ 1 := by
  rcases h with h | rfl
  · cases stmt with
    | work w =>
        cases w with
        | load i =>
            simp only [exec, workStep]
            split
            · exact Nat.zero_le 1
            · split
              · exact Nat.zero_le 1
              · exact Nat.le_refl 1
        | attempt i seen =>
            simp only [exec]
            split
            · exact Nat.zero_le 1
            · exact Nat.le_refl 1
            · exact Nat.le_refl 1
        | _ => cases h
    | send i seen webhook =>
        simp only [exec]
        split
        · exact Nat.zero_le 1
        · exact Nat.le_refl 1
    | commit i seen new =>
        simp only [exec]
        split <;> exact Nat.zero_le 1
    | _ => cases h
  · simp only [exec, workStep]
    split
    · exact Nat.zero_le 1
    · split
      · exact Nat.le_refl 1
      · exact Nat.zero_le 1

/-- A step brings in no statement that holds the delivery, but for the one that follows a claim. -/
theorem countP_following_le {cfg : WebhookSettings} {env : StepEnv} {s : State} {stmt : Stmt} {id : ℕ}
    (h : stmt ≠ .work (.claim id) ∨ ∀ d, s.deliveries[id]? = some d → claimable d.status = false) :
    (exec cfg env s stmt).following.countP (Stmt.holds id) ≤ if stmt.holds id then 1 else 0 := by
  by_cases hholds : stmt.holds id = true
  · rw [if_pos hholds]
    exact List.countP_le_length.trans (length_following_le (.inl hholds))
  · rw [if_neg hholds, Nat.le_zero, List.countP_eq_zero]
    intro v hv hvholds
    rcases holds_of_follows (follows_of_mem hv) hvholds with hstmt | ⟨hstmt, d, hd, hfree⟩
    · exact hholds hstmt
    · rcases h with hne | hnot
      · exact hne hstmt
      · simp [hnot d hd] at hfree

theorem settle_status_ne (cfg : WebhookSettings) (env : Env) (webhook : Webhook)
    (result : WebhookDelivery × Bool) : (settle cfg env webhook result).status ≠ .sending := by
  obtain ⟨d, ok⟩ := result
  cases ok with
  | true => simp [settle]
  | false =>
      simp only [settle]
      split_ifs with hopen
      · simp [hopen]
      · simp
      · simp

/-- The statements that follow have loaded the delivery as it is and write another status than `sending`. -/
theorem Follows.ok {cfg : WebhookSettings} {env : StepEnv} {s : State} {stmt v : Stmt} {id : ℕ}
    (h : Follows cfg env s stmt v) (hok : stmt.Ok id)
    (hload : stmt = .work (.load id) → ∀ d, s.deliveries[id]? = some d → d.status = .sending) :
    v.Ok id := by
  cases h with
  | replay row dead => exact dead
  | load row =>
      rintro rfl
      exact hload rfl _ row
  | send sent => exact hok
  | defer => exact fun hi => ⟨hok hi, by simp [deferred]⟩
  | settle => exact fun hi => ⟨hok hi, settle_status_ne _ _ _ _⟩
  | _ => trivial

section Moved

variable {cfg : WebhookSettings} {env : StepEnv} {s : State} {i id : ℕ} {p : Proc} {stmt : Stmt}
  {rest : List Stmt}

theorem mem_stmts_of_work (hp : s.procs[i]? = some p) (hwork : p.work = stmt :: rest) : stmt ∈ s.stmts := by
  refine List.mem_flatMap.mpr ⟨p, List.mem_of_getElem? hp, ?_⟩
  rw [hwork]
  exact List.mem_cons_self

theorem Held.busy (hp : s.procs[i]? = some p) (hwork : p.work = stmt :: rest) (hholds : stmt.holds id = true) :
    0 < s.stmts.countP (Stmt.holds id) :=
  List.countP_pos_iff.mpr ⟨stmt, mem_stmts_of_work hp hwork, hholds⟩

/-- The statements after a step know what they should of the delivery. -/
theorem Held.ok_moved (h : Held id s) (hp : s.procs[i]? = some p) (hwork : p.work = stmt :: rest) :
    ∀ v ∈ (s.moved cfg env i p stmt rest).stmts, v.Ok id := by
  intro v hv
  rcases mem_stmts_moved hp hwork hv with hold | hfollows | ⟨j, rfl⟩
  · exact h.ok v hold
  · refine (follows_of_mem hfollows).ok (h.ok stmt (mem_stmts_of_work hp hwork)) ?_
    rintro rfl d hd
    obtain ⟨d', hd', hsending⟩ := h.sending (Held.busy hp hwork (by simp [Stmt.holds]))
    rw [hd, Option.some.injEq] at hd'
    exact hd' ▸ hsending
  · trivial

theorem count_moved_le (cfg : WebhookSettings) (env : StepEnv) (id : ℕ) (hp : s.procs[i]? = some p)
    (hwork : p.work = stmt :: rest) :
    (s.moved cfg env i p stmt rest).stmts.countP (Stmt.holds id) + (if stmt.holds id then 1 else 0) ≤
      s.stmts.countP (Stmt.holds id) + (exec cfg env s stmt).following.countP (Stmt.holds id) :=
  countP_stmts_moved_le hp hwork fun _ => rfl

/-- A step that leaves the delivery as it is, and brings in no statement that holds it. -/
theorem Held.moved_same (h : Held id s) (cfg : WebhookSettings) (env : StepEnv) (hp : s.procs[i]? = some p)
    (hwork : p.work = stmt :: rest)
    (hfollowing : (exec cfg env s stmt).following.countP (Stmt.holds id) ≤ if stmt.holds id then 1 else 0)
    (hrow : ∀ d, s.deliveries[id]? = some d → (s.moved cfg env i p stmt rest).deliveries[id]? = some d)
    (hdelivered : id ∈ (s.moved cfg env i p stmt rest).delivered → id ∈ s.delivered) :
    Held id (s.moved cfg env i p stmt rest) := by
  have hcount := count_moved_le cfg env id hp hwork
  have hone := h.one
  refine ⟨h.ok_moved hp hwork, by omega, ?_, ?_⟩
  · intro hpos
    obtain ⟨d, hd, hsending⟩ := h.sending (by omega)
    exact ⟨d, hrow d hd, hsending⟩
  · intro hmem
    obtain ⟨d, hd, hsuccess⟩ := h.delivered (hdelivered hmem)
    exact ⟨d, hrow d hd, hsuccess⟩

/-- The claim of a delivery, which nobody holds. -/
theorem Held.moved_claim (h : Held id s) (hp : s.procs[i]? = some p)
    (hwork : p.work = .work (.claim id) :: rest) {d : WebhookDelivery} (row : s.deliveries[id]? = some d)
    (free : claimable d.status = true)
    (hdeliveries : (s.moved cfg env i p (.work (.claim id)) rest).deliveries = s.deliveries.set id (claimed d))
    (hdelivered : (s.moved cfg env i p (.work (.claim id)) rest).delivered = s.delivered) :
    Held id (s.moved cfg env i p (.work (.claim id)) rest) := by
  have hcount := count_moved_le cfg env id hp hwork
  have hzero : s.stmts.countP (Stmt.holds id) = 0 := by
    by_contra hpos
    obtain ⟨d', hd', hsending⟩ := h.sending (by omega)
    rw [row, Option.some.injEq] at hd'
    simp [hd', hsending, claimable] at free
  have hload : (exec cfg env s (.work (.claim id))).following.countP (Stmt.holds id) ≤ 1 :=
    List.countP_le_length.trans (length_following_le (.inr rfl))
  refine ⟨h.ok_moved hp hwork, by omega, fun _ => ⟨claimed d, ?_, rfl⟩, ?_⟩
  · rw [hdeliveries, List.getElem?_set_self (List.getElem?_eq_some_iff.mp row).1]
  · intro hmem
    rw [hdelivered] at hmem
    obtain ⟨d', hd', hsuccess⟩ := h.delivered hmem
    rw [row, Option.some.injEq] at hd'
    simp [hd', hsuccess, claimable] at free

/-- The commit of an attempt: the dispatch that commits is the one that holds the delivery. -/
theorem Held.moved_commit (h : Held id s) (hp : s.procs[i]? = some p) {seen new d : WebhookDelivery}
    (hwork : p.work = .commit id seen new :: rest) (row : s.deliveries[id]? = some d)
    (hdeliveries : (s.moved cfg env i p (.commit id seen new) rest).deliveries =
      s.deliveries.set id (flush seen new d))
    (hdelivered : (s.moved cfg env i p (.commit id seen new) rest).delivered =
      if new.status = .success then id :: s.delivered else s.delivered) :
    Held id (s.moved cfg env i p (.commit id seen new) rest) := by
  have hcount := count_moved_le cfg env id hp hwork
  have hone := h.one
  obtain ⟨hseen, hnew⟩ := h.ok _ (mem_stmts_of_work hp hwork) rfl
  have hcommit : (Stmt.commit id seen new).holds id = true := by simp [Stmt.holds]
  have hpos := Held.busy hp hwork hcommit
  have hnone : (exec cfg env s (.commit id seen new)).following.countP (Stmt.holds id) = 0 := by
    rw [List.countP_eq_zero]
    intro v hv
    cases follows_of_mem hv
  rw [if_pos hcommit] at hcount
  refine ⟨h.ok_moved hp hwork, by omega, fun hmore => by omega, ?_⟩
  intro hmem
  rw [hdelivered] at hmem
  have hrow : (s.moved cfg env i p (.commit id seen new) rest).deliveries[id]? = some (flush seen new d) := by
    rw [hdeliveries, List.getElem?_set_self (List.getElem?_eq_some_iff.mp row).1]
  split at hmem
  · rename_i hsuccess
    refine ⟨flush seen new d, hrow, ?_⟩
    have hne : new.status ≠ seen.status := by rwa [hseen]
    simp only [flush, writeColumn, if_neg hne]
    exact hsuccess
  · obtain ⟨d', hd', hsuccess⟩ := h.delivered hmem
    obtain ⟨d'', hd'', hsending⟩ := h.sending hpos
    rw [hd', Option.some.injEq] at hd''
    rw [hd'', hsending] at hsuccess
    cases hsuccess

theorem held_moved (h : Held id s) (hp : s.procs[i]? = some p) (hwork : p.work = stmt :: rest)
    (hfree : stmt.resets = some id →
      s.stmts.countP (Stmt.holds id) = 0 ∧ ∀ d ∈ s.deliveries[id]?, d.status ≠ .success) :
    Held id (s.moved cfg env i p stmt rest) := by
  have hsame := h.moved_same cfg env hp hwork
  have hwrites : Writes s stmt (s.moved cfg env i p stmt rest).deliveries
      (s.moved cfg env i p stmt rest).delivered := exec_writes cfg env s stmt
  generalize hdeliveries : (s.moved cfg env i p stmt rest).deliveries = ds at hwrites hsame
  generalize hdelivered : (s.moved cfg env i p stmt rest).delivered = done at hwrites hsame
  cases hwrites with
  | nothing unclaimed =>
      refine hsame (countP_following_le ?_) (fun d hd => hd) (fun hmem => hmem)
      by_cases hclaim : stmt = .work (.claim id)
      · exact .inr (unclaimed id hclaim)
      · exact .inl hclaim
  | creates =>
      refine hsame (countP_following_le (.inl (by simp))) ?_ (fun hmem => hmem)
      intro d hd
      rw [List.getElem?_append_left (List.getElem?_eq_some_iff.mp hd).1]
      exact hd
  | @claims j d row free =>
      by_cases hj : j = id
      · subst hj
        exact h.moved_claim hp hwork row free hdeliveries hdelivered
      · refine hsame (countP_following_le (.inl (by simpa using hj))) ?_ (fun hmem => hmem)
        intro d' hd'
        rwa [List.getElem?_set_ne hj]
  | @resets j seen d row =>
      have hfollowing : (exec cfg env s (.work (.replayCommit j seen))).following.countP (Stmt.holds id) ≤
          if (Stmt.work (.replayCommit j seen)).holds id then 1 else 0 := countP_following_le (.inl (by simp))
      by_cases hj : j = id
      · subst hj
        -- a row is reset only while nobody holds it, and not after a success
        obtain ⟨hzero, hnot⟩ := hfree rfl
        have hcount := count_moved_le cfg env j hp hwork
        refine ⟨h.ok_moved hp hwork, by omega, fun hpos => by omega, ?_⟩
        intro hmem
        rw [hdelivered] at hmem
        obtain ⟨d', hd', hsuccess⟩ := h.delivered hmem
        exact absurd hsuccess (hnot d' hd')
      · refine hsame hfollowing ?_ (fun hmem => hmem)
        intro d' hd'
        rwa [List.getElem?_set_ne hj]
  | @commits j seen new d row =>
      by_cases hj : j = id
      · subst hj
        exact h.moved_commit hp hwork row hdeliveries hdelivered
      · refine hsame (countP_following_le (.inl (by simp))) ?_ ?_
        · intro d' hd'
          rwa [List.getElem?_set_ne hj]
        · intro hmem
          split at hmem
          · exact (List.mem_cons.mp hmem).resolve_left (Ne.symm hj)
          · exact hmem

end Moved

theorem held_step {cfg : WebhookSettings} {id : ℕ} {s s' : State} {m : Move} (h : Held id s)
    (hfree : ResetsFree id s m) (hstep : step cfg s m = some s') : Held id s' := by
  obtain ⟨c, rfl, rfl⟩ | ⟨i, env, p, stmt, rest, rfl, hp, hwork, rfl⟩ := step_cases hstep
  · have hstmts : State.stmts { s with procs := s.procs ++ [⟨[c.stmt], none, 0⟩] } = s.stmts ++ [c.stmt] := by
      simp [State.stmts]
    have hcount : (s.stmts ++ [c.stmt]).countP (Stmt.holds id) = s.stmts.countP (Stmt.holds id) := by
      cases c <;> simp [Call.stmt, Stmt.holds]
    refine ⟨?_, ?_, ?_, h.delivered⟩
    · rw [hstmts]
      intro v hv
      rcases List.mem_append.mp hv with hold | hnew
      · exact h.ok v hold
      · obtain rfl := List.mem_singleton.mp hnew
        cases c <;> trivial
    · rw [hstmts, hcount]
      exact h.one
    · rw [hstmts, hcount]
      exact h.sending
  · exact held_moved h hp hwork (hfree p hp stmt (by rw [hwork]; rfl))

/-- In every run whose replays reset the delivery only while no dispatch holds it and it is not delivered,
at most one request of it is in progress in every state reached, and once an attempt was committed as a
success no other request is made and the status stays so. -/
theorem one_attempt (cfg : WebhookSettings) (id : ℕ) {ms : List Move} {s : State}
    (hfree : Guarded (step cfg) (ResetsFree id) State.init ms)
    (hrun : run (step cfg) State.init ms = some s) : s.OneAttempt id := by
  have hkeep : ∀ s m s', Held id s → ResetsFree id s m → step cfg s m = some s' → Held id s' :=
    fun _ _ _ h hm hstep => held_step h hm hstep
  exact (run_invariant_of_guarded hkeep (held_init id) hfree hrun).oneAttempt

/-! ## Runs -/

/-- A delivery that failed twice: once when it was triggered and once in a sweep. -/
def deadLettered : List Move :=
  triggered 500 ++ .start (.sweep 10) :: List.replicate 6 (.move 2 (answering 500 60000000))

/-- A replay of it that is delivered. -/
def replayed : List Move :=
  deadLettered ++ .start (.replay 0) :: List.replicate 7 (.move 3 (answering 200 90000000))

/-- Two replays of it, which both read it before either resets it; then the first one runs for `n` steps,
and the second one for `m`. -/
def replayedTwice (n m : ℕ) : List Move :=
  deadLettered ++
    .start (.replay 0) :: .start (.replay 0) ::
      .move 3 (answering 200 90000000) :: .move 4 (answering 200 90000000) ::
        (List.replicate n (.move 3 (answering 200 90000000)) ++
          List.replicate m (.move 4 (answering 200 90000000)))

theorem one_attempt_replayed : ∃ s, run (step oneRetry) State.init replayed = some s ∧
    0 ∈ s.delivered ∧ s.OneAttempt 0 := by
  have hfree : Guarded (step oneRetry) (ResetsFree 0) State.init replayed := by decide +kernel
  obtain ⟨s, hs, hmem⟩ : ∃ s, run (step oneRetry) State.init replayed = some s ∧ 0 ∈ s.delivered :=
    ⟨_, rfl, by decide +kernel⟩
  exact ⟨s, hs, hmem, one_attempt oneRetry 0 hfree hs⟩

/-- The reset of the second replay comes while the first one's request is in progress, and a second request
is made beside it; or it comes after the first one was delivered, and the status does not stay so. -/
theorem two_attempts_and_success_undone :
    (∃ s, run (step oneRetry) State.init (replayedTwice 4 4) = some s ∧ s.inProgress 0 = 2 ∧
        ¬ s.OneAttempt 0) ∧
      ∃ s d, run (step oneRetry) State.init (replayedTwice 6 1) = some s ∧ 0 ∈ s.delivered ∧
        s.deliveries[0]? = some d ∧ d.status = .pending ∧ ¬ s.OneAttempt 0 := by
  constructor
  · exact ⟨_, rfl, by decide +kernel, by decide +kernel⟩
  · exact ⟨_, _, rfl, by decide +kernel, rfl, by decide +kernel, by decide +kernel⟩

end ApexChainx.Webhooks.Attempts
