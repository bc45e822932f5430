import ApexChainx.Auth.Effects

/-!
# Account lockout

A login with a wrong password writes the failure counter of its account as one more than what it read
before it checked the password, reads it again after the commit, and locks the account when the limit is
reached. Two logins that read the counter before either has written it count as one.

Either way the login ends by asking the user for `user_id`, which raises `AttributeError` where the source
means to raise `ValueError`.
-/

namespace ApexChainx.Auth

open ApexChainx.Lib

variable {cfg : AuthSettings} {now : ℤ} {t t' : Tables} {email : String}

/-- `failed_login_attempts` of the account. -/
def Tables.failures (t : Tables) (email : String) : ℕ :=
  ((t.getByEmail email).map (·.failedLoginAttempts)).getD 0

/-- The account at which the login has failed: its password was wrong. -/
def Pc.failing : Pc → Option String
  | .login (.countFailure user) => some user.email
  | .login (.readFailures e) | .login (.lockAccount e) => some e
  | _ => none

/-- The account at which the login has failed and been counted. -/
def Pc.counted : Pc → Option String
  | .login (.readFailures e) | .login (.lockAccount e) => some e
  | _ => none

/-- A world with what an observer of one account has seen: how many logins with a wrong password have
ended since the last successful one, when the last of them did, the counter before and after each
increment, and how each such login ended. -/
structure Tally where
  world : World
  failed : ℕ
  endedAt : ℤ
  writes : List (ℕ × ℕ)
  outcomes : List (Outcome Reply)

def Tally.start (w : World) : Tally := ⟨w, 0, w.clock, [], []⟩

/-- What the observer of the account notes of a statement that took a request from `pc` to `pc'`. -/
def Tally.note (email : String) (s : Tally) (w : World) (pc pc' : Pc) : Tally :=
  match pc with
  | .login (.countFailure user) =>
      if user.email = email then
        { s with
          world := w
          writes := s.writes ++ [(s.world.tables.failures email, w.tables.failures email)] }
      else { s with world := w }
  | .login (.resetFailedAttempts user) =>
      if user.email = email then { s with world := w, failed := 0 } else { s with world := w }
  | .login (.readFailures e) | .login (.lockAccount e) =>
      match pc' with
      | .returned out =>
          if e = email then
            { s with
              world := w
              failed := s.failed + 1
              endedAt := w.clock
              outcomes := s.outcomes ++ [out] }
          else { s with world := w }
      | _ => { s with world := w }
  | _ => { s with world := w }

/-- The world takes a step and the observer watches. -/
def Tally.step (cfg : AuthSettings) (email : String) (s : Tally) (e : Event) : Option Tally :=
  (s.world.step cfg e).map fun w =>
    match e with
    | .move i _ =>
        match s.world.sys.calls[i]?, w.sys.calls[i]? with
        | some c, some c' => s.note email w c.pc c'.pc
        | _, _ => { s with world := w }
    | _ => { s with world := w }

/-! ## The property -/

/-- The account is locked for the lockout duration from the end of the last failed login on, and a login
that reads the account before the lock expires is refused, whatever its password. -/
def Tally.LockedOut (cfg : AuthSettings) (email : String) (s : Tally) : Prop :=
  ∃ user u, s.world.tables.getByEmail email = some user ∧ user.lockedUntil = some u ∧
    s.endedAt + cfg.lockoutDuration ≤ u ∧
    ∀ (i : ℕ) (password : String) (issued : ℤ) (w : World),
      (s.world.sys.calls[i]?).map Call.pc = some (.login (.getUser email password)) →
      s.world.clock < u → s.world.step cfg (.move i issued) = some w →
        (w.sys.calls[i]?).map Call.pc = some (.returned (.error (.valueError
          "Account is temporarily locked due to too many failed login attempts")))

/-- Once the limit of failed logins has been reached, the account is locked out. -/
def Tally.Bounded (cfg : AuthSettings) (email : String) (s : Tally) : Prop :=
  s.failed ≠ 0 → cfg.maxFailedAttempts ≤ s.failed → s.LockedOut cfg email

/-- Every increment has raised the counter by one. -/
def Tally.Counts (s : Tally) : Prop := ∀ p ∈ s.writes, p.2 = p.1 + 1

/-- Every login with a wrong password has ended in `ValueError`. -/
def Tally.Raises (s : Tally) : Prop :=
  ∀ out ∈ s.outcomes, ∃ detail, out = .error (.valueError detail)

/-- The account as it was loaded by a login that is about to increment its counter. -/
def Pc.increments : Pc → Option UserRow
  | .login (.countFailure user) => some user
  | _ => none

/-- The account as it was loaded by a login that is about to succeed. -/
def Pc.succeeds : Pc → Option UserRow
  | .login (.resetFailedAttempts user) => some user
  | _ => none

/-- A failed login that increments the counter finds it as it read it, and no login succeeds while a
failed one that has been counted has not ended. -/
def Tally.Untorn (email : String) (s : Tally) : Event → Prop
  | .move i _ => ∀ c ∈ s.world.sys.calls[i]?,
      (∀ user ∈ c.pc.increments, user.email = email →
        s.world.tables.failures email = user.failedLoginAttempts) ∧
      ∀ user ∈ c.pc.succeeds, user.email = email →
        ∀ d ∈ s.world.sys.calls, d.pc.counted ≠ some email
  | _ => True

instance (email : String) (s : Tally) : (e : Event) → Decidable (s.Untorn email e)
  | .move i _ => inferInstanceAs (Decidable (∀ c ∈ s.world.sys.calls[i]?,
      (∀ user ∈ c.pc.increments, user.email = email →
        s.world.tables.failures email = user.failedLoginAttempts) ∧
      ∀ user ∈ c.pc.succeeds, user.email = email →
        ∀ d ∈ s.world.sys.calls, d.pc.counted ≠ some email))
  | .tick _ | .begin _ | .beginCheck _ | .moveCheck _ _ | .beginSweep _ | .moveSweep _ _ =>
      inferInstanceAs (Decidable True)

/-! ## One statement of a login -/

theorem getByEmail_of_knows (h : t.Knows email) : ∃ user, t.getByEmail email = some user := by
  obtain ⟨u, hu, huser⟩ := h
  have hsome : (t.getByEmail email).isSome = true := List.find?_isSome.mpr ⟨u, hu, decide_eq_true huser⟩
  exact Option.isSome_iff_exists.mp hsome

theorem getByEmail_updateUser {user : UserRow} {g : UserRow → UserRow}
    (hemail : ∀ u, (g u).email = u.email) (h : t.getByEmail email = some user) :
    (t.updateUser email g).getByEmail email = some (g user) := by
  unfold Tables.getByEmail Tables.updateUser at *
  rw [find?_updateKey hemail, h, Option.map_some]

theorem failures_of_getByEmail {user : UserRow} (h : t.getByEmail email = some user) :
    t.failures email = user.failedLoginAttempts := by
  unfold Tables.failures
  rw [h, Option.map_some, Option.getD_some]

/-- A request inside a login got there by a statement of that login. -/
theorem advance_eq_login {pc : Pc} {pc' : LoginPc}
    (h : advance cfg now t pc = some (t', .login pc')) :
    ∃ p, pc = .login p ∧ (loginStep cfg now t p).2 = .goto pc' := by
  cases pc with
  | returned out => cases h
  | login p =>
      simp only [advance, Option.some.injEq, Prod.mk.injEq] at h
      refine ⟨p, rfl, ?_⟩
      cases hnext : (loginStep cfg now t p).2 with
      | goto q =>
          rw [hnext] at h
          exact congrArg Next.goto (Pc.login.inj h.2)
      | done out =>
          rw [hnext] at h
          cases h.2
  | refresh p =>
      simp only [advance, Option.some.injEq, Prod.mk.injEq] at h
      cases hnext : (refreshStep now t p).2 <;> (rw [hnext] at h; cases h.2)
  | logout p =>
      simp only [advance, Option.some.injEq, Prod.mk.injEq] at h
      cases hnext : (logoutStep t p).2 <;> (rw [hnext] at h; cases h.2)
  | logoutAll p =>
      simp only [advance, Option.some.injEq, Prod.mk.injEq] at h
      cases hnext : (logoutAllStep t p).2 <;> (rw [hnext] at h; cases h.2)

/-- A login has failed at an account it found. -/
theorem advance_failing {pc pc' : Pc} (h : advance cfg now t pc = some (t', pc'))
    (hpc' : pc'.failing = some email) : pc.failing = some email ∨ t.Knows email := by
  cases pc' with
  | login p' =>
      obtain ⟨p, rfl, hnext⟩ := advance_eq_login h
      cases p with
      | countFailure user =>
          obtain rfl := Next.goto.inj hnext
          exact .inl hpc'
      | readFailures e =>
          simp only [loginStep] at hnext
          split at hnext
          · cases hnext
          · split at hnext
            · obtain rfl := Next.goto.inj hnext
              exact .inl hpc'
            · cases hnext
      | getUser e password =>
          simp only [loginStep] at hnext
          split at hnext
          · cases hnext
          · rename_i user huser
            repeat' split at hnext
            all_goals
              first
                | (obtain rfl := Next.goto.inj hnext
                   first
                     | exact .inr ⟨user, List.mem_of_find?_eq_some huser, Option.some.inj hpc'⟩
                     | cases hpc')
                | cases hnext
      | _ =>
          simp only [loginStep] at hnext
          repeat' split at hnext
          all_goals
            first
              | (obtain rfl := Next.goto.inj hnext
                 cases hpc')
              | cases hnext
  | _ => cases hpc'

/-- A login that was not counted at the account becomes so by its increment. -/
theorem advance_counted {pc pc' : Pc} (h : advance cfg now t pc = some (t', pc'))
    (hwrites : pc.writesUser ≠ some email) (hcounted : pc.counted ≠ some email) :
    pc'.counted ≠ some email := by
  intro hpc'
  cases pc' with
  | login p' =>
      obtain ⟨p, rfl, hnext⟩ := advance_eq_login h
      cases p with
      | countFailure user =>
          obtain rfl := Next.goto.inj hnext
          exact hwrites hpc'
      | readFailures e =>
          simp only [loginStep] at hnext
          split at hnext
          · cases hnext
          · split at hnext
            · obtain rfl := Next.goto.inj hnext
              exact hcounted hpc'
            · cases hnext
      | _ =>
          simp only [loginStep] at hnext
          repeat' split at hnext
          all_goals
            first
              | (obtain rfl := Next.goto.inj hnext
                 cases hpc')
              | cases hnext
  | _ => cases hpc'

/-- A login that was counted at an account that is there ends by asking the user for `user_id`. -/
theorem advance_counted_returned {pc : Pc} {out : Outcome Reply} (hpc : pc.counted = some email)
    (hknows : t.Knows email) (h : advance cfg now t pc = some (t', .returned out)) :
    out = .error (.attributeError "UserORM" "user_id") := by
  cases pc with
  | login pc =>
      simp only [advance, Option.some.injEq, Prod.mk.injEq] at h
      obtain ⟨-, hnext⟩ := h
      cases pc with
      | lockAccount e => exact (Pc.returned.inj hnext).symm
      | readFailures e =>
          obtain rfl := Option.some.inj hpc
          obtain ⟨user, huser⟩ := getByEmail_of_knows hknows
          simp only [loginStep, huser] at hnext
          split at hnext
          · cases hnext
          · exact (Pc.returned.inj hnext).symm
      | _ => cases hpc
  | _ => cases hpc

/-! ## The observer along a run -/

/-- What a step does: the requests and the accounts stay as they are, a request begins, or one executes a
statement and the observer takes note. -/
theorem Tally.step_cases {s s' : Tally} {e : Event} (h : s.step cfg email e = some s') :
    (∃ w, s' = { s with world := w } ∧ w.tables.users = s.world.tables.users ∧
      (w.sys.calls = s.world.sys.calls ∨ ∃ r, w.sys.calls = s.world.sys.calls ++ [Call.start r])) ∨
    ∃ i issued c t' pc w, e = .move i issued ∧ s.world.sys.calls[i]? = some c ∧
      advance cfg s.world.clock s.world.tables c.pc = some (t', pc) ∧
      w.tables = t' ∧ w.clock = s.world.clock ∧ w.sys.calls = s.world.sys.calls.set i (c.moveTo pc) ∧
      s' = s.note email w c.pc pc := by
  obtain ⟨w, hw, rfl⟩ := Option.map_eq_some_iff.mp h
  cases e with
  | tick elapsed =>
      obtain rfl := Option.some.inj hw
      exact .inl ⟨_, rfl, rfl, .inl rfl⟩
  | beginCheck token =>
      obtain rfl := Option.some.inj hw
      exact .inl ⟨_, rfl, rfl, .inl rfl⟩
  | beginSweep batchSize =>
      obtain rfl := Option.some.inj hw
      exact .inl ⟨_, rfl, rfl, .inl rfl⟩
  | begin r =>
      obtain rfl := Option.some.inj hw
      exact .inl ⟨_, rfl, rfl, .inr ⟨r, rfl⟩⟩
  | moveCheck j cached =>
      obtain ⟨c, t', pc, -, hstep, rfl⟩ := step_moveCheck hw
      refine .inl ⟨_, rfl, ?_, .inl rfl⟩
      rcases checkStep_tables hstep with rfl | ⟨token, -, rfl⟩ <;> rfl
  | moveSweep j picked =>
      obtain ⟨c, t', pc, -, hstep, rfl⟩ := step_moveSweep hw
      refine .inl ⟨_, rfl, ?_, .inl rfl⟩
      rcases sweepStep_tables hstep with rfl | ⟨ids, -, rfl⟩ <;> rfl
  | move i issued =>
      obtain ⟨c, t', pc, hc, hadv, heq⟩ := step_move hw
      refine .inr ⟨i, issued, c, t', pc, w, rfl, hc, hadv, ?_⟩
      subst heq
      refine ⟨rfl, rfl, rfl, ?_⟩
      simp only [hc, List.getElem?_set_self (List.getElem?_eq_some_iff.mp hc).1]
      rfl

@[simp] theorem Tally.note_world (s : Tally) (w : World) (pc pc' : Pc) :
    (s.note email w pc pc').world = w := by
  unfold Tally.note
  repeat' split
  all_goals rfl

/-- A statement that neither updates the account nor belongs to a login counted at it goes unnoticed. -/
theorem Tally.note_quiet {s : Tally} {w : World} {pc pc' : Pc} (hwrites : pc.writesUser ≠ some email)
    (hcounted : pc.counted ≠ some email) : s.note email w pc pc' = { s with world := w } := by
  unfold Tally.note
  split
  · rename_i user
    exact if_neg fun heq => hwrites (congrArg some heq)
  · rename_i user
    exact if_neg fun heq => hwrites (congrArg some heq)
  · rename_i e
    split
    · exact if_neg fun heq => hcounted (congrArg some heq)
    · rfl
  · rename_i e
    split
    · exact if_neg fun heq => hcounted (congrArg some heq)
    · rfl
  · rfl

/-- A login that has failed at the account found it, and ended by asking the user for `user_id`. -/
structure Noted (email : String) (s : Tally) : Prop where
  knows : ∀ c ∈ s.world.sys.calls, c.pc.failing = some email → s.world.tables.Knows email
  outcomes : ∀ out ∈ s.outcomes, out = .error (.attributeError "UserORM" "user_id")

theorem failing_start (r : Request) : (Call.start r).pc.failing = none := by
  cases r <;> rfl

theorem counted_start (r : Request) : (Call.start r).pc.counted = none := by
  cases r <;> rfl

theorem failing_of_counted {pc : Pc} (h : pc.counted = some email) : pc.failing = some email := by
  cases pc with
  | login p => cases p <;> first | exact h | cases h
  | _ => cases h

/-- The outcomes after a statement are those before, and how a login counted at the account ended. -/
theorem mem_outcomes_note {s : Tally} {w : World} {pc pc' : Pc} {out : Outcome Reply}
    (h : out ∈ (s.note email w pc pc').outcomes) :
    out ∈ s.outcomes ∨ (pc.counted = some email ∧ pc' = .returned out) := by
  unfold Tally.note at h
  repeat' split at h
  all_goals
    first
      | exact .inl h
      | (rename_i e out' heq
         rcases List.mem_append.mp h with hold | hnew
         · exact .inl hold
         · rw [List.mem_singleton.mp hnew]
           exact .inr ⟨congrArg some heq, rfl⟩)

theorem Noted.step {s s' : Tally} {e : Event} (hs : Noted email s)
    (h : s.step cfg email e = some s') : Noted email s' := by
  rcases Tally.step_cases h with ⟨w, rfl, husers, hcalls⟩ |
    ⟨i, issued, c, t', pc, w, rfl, hc, hadv, rfl, hclock, hcalls, rfl⟩
  · refine ⟨?_, hs.outcomes⟩
    have hknows : ∀ c ∈ s.world.sys.calls, c.pc.failing = some email → w.tables.Knows email := by
      intro c hc hfail
      unfold Tables.Knows
      rw [husers]
      exact hs.knows c hc hfail
    intro c hc hfail
    rcases hcalls with hsame | ⟨r, hnew⟩
    · rw [hsame] at hc
      exact hknows c hc hfail
    · rw [hnew] at hc
      rcases List.mem_append.mp hc with hold | hlast
      · exact hknows c hold hfail
      · rw [List.mem_singleton.mp hlast, failing_start] at hfail
        cases hfail
  · have hmem := List.mem_of_getElem? hc
    have heffect := advance_effect hadv
    refine ⟨?_, ?_⟩
    · rw [Tally.note_world, hcalls]
      refine forall_mem_set (fun d hd hfail => heffect.knows (hs.knows d hd hfail)) ?_
      intro hfail
      rcases advance_failing hadv hfail with hold | hknows
      · exact heffect.knows (hs.knows c hmem hold)
      · exact heffect.knows hknows
    · intro out hout
      rcases mem_outcomes_note hout with hold | ⟨hcounted, rfl⟩
      · exact hs.outcomes out hold
      · exact advance_counted_returned hcounted (hs.knows c hmem (failing_of_counted hcounted)) hadv

/-- The counter covers the failed logins since the last success, those that have ended and those that have
been counted and not ended; and at the limit the account is locked. -/
structure Counted (cfg : AuthSettings) (email : String) (s : Tally) : Prop where
  noted : Noted email s
  count : s.failed + s.world.sys.calls.countP (·.pc.counted = some email)
    ≤ s.world.tables.failures email
  locked : s.failed ≠ 0 → cfg.maxFailedAttempts ≤ s.failed → ∃ user u,
    s.world.tables.getByEmail email = some user ∧ user.lockedUntil = some u ∧
      s.endedAt + cfg.lockoutDuration ≤ u
  writes : s.Counts

/-- The statements that the observer notes. -/
theorem pc_cases {pc : Pc} (h : ¬ (pc.writesUser ≠ some email ∧ pc.counted ≠ some email)) :
    (∃ user, pc = .login (.countFailure user) ∧ user.email = email) ∨
      (∃ user, pc = .login (.resetFailedAttempts user) ∧ user.email = email) ∨
        pc = .login (.readFailures email) ∨ pc = .login (.lockAccount email) := by
  by_cases hwrites : pc.writesUser = some email
  · cases pc with
    | login p =>
        cases p with
        | countFailure user => exact .inl ⟨user, rfl, Option.some.inj hwrites⟩
        | resetFailedAttempts user => exact .inr (.inl ⟨user, rfl, Option.some.inj hwrites⟩)
        | lockAccount e =>
            obtain rfl := Option.some.inj hwrites
            exact .inr (.inr (.inr rfl))
        | _ => cases hwrites
    | _ => cases hwrites
  · have hcounted : pc.counted = some email := by
      by_contra hne
      exact h ⟨hwrites, hne⟩
    cases pc with
    | login p =>
        cases p with
        | readFailures e =>
            obtain rfl := Option.some.inj hcounted
            exact .inr (.inr (.inl rfl))
        | lockAccount e => exact absurd hcounted hwrites
        | _ => cases hcounted
    | _ => cases hcounted

/-- A request of the observed world executes a statement, and the observer takes note. -/
structure Moved (cfg : AuthSettings) (email : String) (s : Tally) (w : World) (c : Call) (pc : Pc) :
    Prop where
  mem : c ∈ s.world.sys.calls
  advance : advance cfg s.world.clock s.world.tables c.pc = some (w.tables, pc)
  clock : w.clock = s.world.clock
  calls : w.sys.calls.countP (·.pc.counted = some email) + (if c.pc.counted = some email then 1 else 0)
    = s.world.sys.calls.countP (·.pc.counted = some email) + if pc.counted = some email then 1 else 0
  noted : Noted email (s.note email w c.pc pc)

theorem Counted.quiet {s : Tally} {w : World} {c : Call} {pc : Pc} (hs : Counted cfg email s)
    (h : Moved cfg email s w c pc) (hwrites : c.pc.writesUser ≠ some email)
    (hcounted : c.pc.counted ≠ some email) : Counted cfg email (s.note email w c.pc pc) := by
  have hnoted := h.noted
  have hcalls := h.calls
  have hcount := hs.count
  have hlookup := (advance_effect h.advance).getByEmail_eq hwrites
  rw [if_neg hcounted, if_neg (advance_counted h.advance hwrites hcounted)] at hcalls
  rw [Tally.note_quiet hwrites hcounted] at hnoted ⊢
  refine ⟨hnoted, ?_, ?_, hs.writes⟩
  · show s.failed + w.sys.calls.countP (·.pc.counted = some email) ≤ w.tables.failures email
    unfold Tables.failures at hcount ⊢
    rw [hlookup]
    omega
  · show s.failed ≠ 0 → cfg.maxFailedAttempts ≤ s.failed → ∃ user u,
      w.tables.getByEmail email = some user ∧ _
    rw [hlookup]
    exact hs.locked

/-- The increment: the counter is as the login read it. -/
theorem Counted.increment {s : Tally} {w : World} {c : Call} {pc : Pc} {user : UserRow}
    (hs : Counted cfg user.email s) (h : Moved cfg user.email s w c pc)
    (hpc : c.pc = .login (.countFailure user))
    (hread : s.world.tables.failures user.email = user.failedLoginAttempts) :
    Counted cfg user.email (s.note user.email w c.pc pc) := by
  obtain ⟨row, hrow⟩ := getByEmail_of_knows (hs.noted.knows c h.mem (by rw [hpc]; rfl))
  have hnoted := h.noted
  have hadv := h.advance
  have hcalls := h.calls
  have hcount := hs.count
  rw [hpc] at hadv hcalls hnoted ⊢
  simp only [advance, Option.some.injEq, Prod.mk.injEq] at hadv
  obtain ⟨htables, hnext⟩ := hadv
  have hbefore : (Pc.login (.countFailure user)).counted ≠ some user.email := by
    intro heq
    cases heq
  have hafter : pc.counted = some user.email := hnext ▸ rfl
  have hrow' : w.tables.getByEmail user.email
      = some { row with failedLoginAttempts := user.failedLoginAttempts + 1 } := by
    rw [← htables]
    exact getByEmail_updateUser (fun _ => rfl) hrow
  have hfailures : w.tables.failures user.email = user.failedLoginAttempts + 1 := by
    rw [failures_of_getByEmail hrow']
  have hnote : s.note user.email w (.login (.countFailure user)) pc
      = { s with
          world := w
          writes := s.writes ++ [(s.world.tables.failures user.email, w.tables.failures user.email)] } :=
    if_pos rfl
  rw [if_neg hbefore, if_pos hafter] at hcalls
  rw [hnote] at hnoted ⊢
  refine ⟨hnoted, ?_, ?_, ?_⟩
  · show s.failed + w.sys.calls.countP (·.pc.counted = some user.email)
      ≤ w.tables.failures user.email
    omega
  · intro hne hle
    obtain ⟨row', u, hrow'', hlock⟩ := hs.locked hne hle
    obtain rfl : row = row' := Option.some.inj (hrow.symm.trans hrow'')
    exact ⟨_, u, hrow', hlock⟩
  · intro p hp
    rcases List.mem_append.mp hp with hold | hnew
    · exact hs.writes p hold
    · rw [List.mem_singleton.mp hnew, hread]
      exact hfailures

/-- A success: no login is counted and running. -/
theorem Counted.success {s : Tally} {w : World} {c : Call} {pc : Pc} {user : UserRow}
    (hs : Counted cfg user.email s) (h : Moved cfg user.email s w c pc)
    (hpc : c.pc = .login (.resetFailedAttempts user))
    (hnone : ∀ d ∈ s.world.sys.calls, d.pc.counted ≠ some user.email) :
    Counted cfg user.email (s.note user.email w c.pc pc) := by
  have hnoted := h.noted
  have hadv := h.advance
  have hcalls := h.calls
  rw [hpc] at hadv hcalls hnoted ⊢
  simp only [advance, Option.some.injEq, Prod.mk.injEq] at hadv
  obtain ⟨-, hnext⟩ := hadv
  have hafter : pc.counted ≠ some user.email := by
    rw [← hnext]
    intro heq
    cases heq
  have hnote : s.note user.email w (.login (.resetFailedAttempts user)) pc
      = { s with world := w, failed := 0 } := if_pos rfl
  have hzero : s.world.sys.calls.countP (·.pc.counted = some user.email) = 0 := by
    refine List.countP_eq_zero.mpr ?_
    intro d hd
    simpa using hnone d hd
  rw [if_neg hafter, hzero] at hcalls
  rw [hnote] at hnoted ⊢
  refine ⟨hnoted, ?_, fun hne => absurd rfl hne, hs.writes⟩
  show 0 + w.sys.calls.countP (·.pc.counted = some user.email) ≤ w.tables.failures user.email
  omega

/-- The read after the commit: at the limit the login goes on to the lock. -/
theorem Counted.reread {s : Tally} {w : World} {c : Call} {pc : Pc} (hs : Counted cfg email s)
    (h : Moved cfg email s w c pc) (hpc : c.pc = .login (.readFailures email)) :
    Counted cfg email (s.note email w c.pc pc) := by
  obtain ⟨row, hrow⟩ := getByEmail_of_knows (hs.noted.knows c h.mem (by rw [hpc]; rfl))
  have hfailures := failures_of_getByEmail hrow
  have hnoted := h.noted
  have hadv := h.advance
  have hcalls := h.calls
  have hcount := hs.count
  rw [hpc] at hadv hcalls hnoted ⊢
  have hbefore : (Pc.login (.readFailures email)).counted = some email := rfl
  rw [if_pos hbefore] at hcalls
  simp only [advance, loginStep, hrow, Option.some.injEq, Prod.mk.injEq] at hadv
  split at hadv
  · have hsame : s.world.tables = w.tables := hadv.1
    have hnext := hadv.2
    have hnote : s.note email w (.login (.readFailures email)) pc = { s with world := w } := by
      rw [← hnext]
      rfl
    have hafter : pc.counted = some email := hnext ▸ rfl
    rw [if_pos hafter] at hcalls
    rw [hnote] at hnoted ⊢
    refine ⟨hnoted, ?_, ?_, hs.writes⟩
    · show s.failed + w.sys.calls.countP (·.pc.counted = some email) ≤ w.tables.failures email
      rw [← hsame]
      omega
    · show s.failed ≠ 0 → cfg.maxFailedAttempts ≤ s.failed → ∃ user u,
        w.tables.getByEmail email = some user ∧ _
      rw [← hsame]
      exact hs.locked
  · have hsame : s.world.tables = w.tables := hadv.1
    have hnext := hadv.2
    have hnote : s.note email w (.login (.readFailures email)) pc
        = { s with
            world := w
            failed := s.failed + 1
            endedAt := w.clock
            outcomes := s.outcomes ++ [.error (.attributeError "UserORM" "user_id")] } := by
      rw [← hnext]
      exact if_pos rfl
    have hafter : pc.counted ≠ some email := by
      rw [← hnext]
      intro heq
      cases heq
    rw [if_neg hafter] at hcalls
    rw [hnote] at hnoted ⊢
    refine ⟨hnoted, ?_, ?_, hs.writes⟩
    · show s.failed + 1 + w.sys.calls.countP (·.pc.counted = some email) ≤ w.tables.failures email
      rw [← hsame]
      omega
    · -- the limit has not been reached
      intro _ hle
      have hle' : cfg.maxFailedAttempts ≤ s.failed + 1 := hle
      omega

/-- The lock. -/
theorem Counted.lock {s : Tally} {w : World} {c : Call} {pc : Pc} (hs : Counted cfg email s)
    (h : Moved cfg email s w c pc) (hpc : c.pc = .login (.lockAccount email)) :
    Counted cfg email (s.note email w c.pc pc) := by
  obtain ⟨row, hrow⟩ := getByEmail_of_knows (hs.noted.knows c h.mem (by rw [hpc]; rfl))
  have hfailures := failures_of_getByEmail hrow
  have hnoted := h.noted
  have hadv := h.advance
  have hcalls := h.calls
  have hcount := hs.count
  rw [hpc] at hadv hcalls hnoted ⊢
  simp only [advance, Option.some.injEq, Prod.mk.injEq] at hadv
  obtain ⟨htables, hnext⟩ := hadv
  have hrow' : w.tables.getByEmail email
      = some { row with lockedUntil := some (s.world.clock + cfg.lockoutDuration) } := by
    rw [← htables]
    exact getByEmail_updateUser (fun _ => rfl) hrow
  have hfailures' : w.tables.failures email = row.failedLoginAttempts := by
    rw [failures_of_getByEmail hrow']
  have hnote : s.note email w (.login (.lockAccount email)) pc
      = { s with
          world := w
          failed := s.failed + 1
          endedAt := w.clock
          outcomes := s.outcomes ++ [.error (.attributeError "UserORM" "user_id")] } := by
    rw [← hnext]
    exact if_pos rfl
  have hbefore : (Pc.login (.lockAccount email)).counted = some email := rfl
  have hafter : pc.counted ≠ some email := by
    rw [← hnext]
    intro heq
    cases heq
  rw [if_pos hbefore, if_neg hafter] at hcalls
  rw [hnote] at hnoted ⊢
  refine ⟨hnoted, ?_, ?_, hs.writes⟩
  · show s.failed + 1 + w.sys.calls.countP (·.pc.counted = some email) ≤ w.tables.failures email
    omega
  · intro _ _
    refine ⟨_, _, hrow', rfl, ?_⟩
    show w.clock + cfg.lockoutDuration ≤ s.world.clock + cfg.lockoutDuration
    exact Int.le_of_eq (congrArg (· + cfg.lockoutDuration) h.clock)

/-- A step in which no request moves. -/
theorem Counted.still {s : Tally} {w : World} (hs : Counted cfg email s)
    (hnoted : Noted email { s with world := w }) (husers : w.tables.users = s.world.tables.users)
    (hcalls : w.sys.calls = s.world.sys.calls ∨ ∃ r, w.sys.calls = s.world.sys.calls ++ [Call.start r]) :
    Counted cfg email { s with world := w } := by
  have hlookup : w.tables.getByEmail email = s.world.tables.getByEmail email := by
    unfold Tables.getByEmail
    rw [husers]
  have hcount := hs.count
  refine ⟨hnoted, ?_, ?_, hs.writes⟩
  · show s.failed + w.sys.calls.countP (·.pc.counted = some email) ≤ w.tables.failures email
    unfold Tables.failures at hcount ⊢
    rw [hlookup]
    rcases hcalls with hsame | ⟨r, hnew⟩
    · rw [hsame]
      exact hcount
    · rw [hnew, List.countP_append, List.countP_singleton, counted_start]
      simpa using hcount
  · show s.failed ≠ 0 → cfg.maxFailedAttempts ≤ s.failed → ∃ user u,
      w.tables.getByEmail email = some user ∧ _
    rw [hlookup]
    exact hs.locked

theorem Counted.step {s s' : Tally} {e : Event} (hs : Counted cfg email s)
    (huntorn : s.Untorn email e) (h : s.step cfg email e = some s') : Counted cfg email s' := by
  have hnoted := hs.noted.step h
  rcases Tally.step_cases h with ⟨w, rfl, husers, hcalls⟩ |
    ⟨i, issued, c, t', pc, w, rfl, hc, hadv, rfl, hclock, hcalls, rfl⟩
  · exact hs.still hnoted husers hcalls
  · have hcount := countP_replace (fun d : Call => decide (d.pc.counted = some email))
      (r := c.moveTo pc) hc
    rw [← hcalls] at hcount
    simp only [decide_eq_true_eq] at hcount
    have hmoved : Moved cfg email s w c pc :=
      ⟨List.mem_of_getElem? hc, hadv, hclock, hcount, hnoted⟩
    obtain ⟨hread, hnone⟩ := huntorn c hc
    by_cases hquiet : c.pc.writesUser ≠ some email ∧ c.pc.counted ≠ some email
    · exact hs.quiet hmoved hquiet.1 hquiet.2
    · rcases pc_cases hquiet with ⟨user, hpc, rfl⟩ | ⟨user, hpc, rfl⟩ | hpc | hpc
      · exact hs.increment hmoved hpc (hread user (by rw [hpc]; rfl) rfl)
      · exact hs.success hmoved hpc (hnone user (by rw [hpc]; rfl) rfl)
      · exact hs.reread hmoved hpc
      · exact hs.lock hmoved hpc

/-- A login that reads a locked account is refused. -/
theorem Counted.bounded {s : Tally} (hs : Counted cfg email s) : s.Bounded cfg email := by
  intro hne hle
  obtain ⟨user, u, huser, hlock, hlate⟩ := hs.locked hne hle
  refine ⟨user, u, huser, hlock, hlate, ?_⟩
  intro i password issued w hpc hbefore hstep
  obtain ⟨c, t', pc, hc, hadv, rfl⟩ := step_move hstep
  rw [hc, Option.map_some, Option.some.injEq] at hpc
  have hlocked : isLocked s.world.clock user = true := by
    unfold isLocked
    rw [hlock]
    exact decide_eq_true hbefore
  rw [hpc] at hadv
  simp only [advance, loginStep, huser, hlocked, if_true, Option.some.injEq, Prod.mk.injEq] at hadv
  obtain ⟨-, rfl⟩ := hadv
  simp [(List.getElem?_eq_some_iff.mp hc).1, Call.moveTo, Next.toPc]

/-! ## Lockout -/

theorem counted_init (email : String) (clock : ℤ) (expiresAt : ℕ → ℤ) (users : List UserRow)
    (legacy : List String) :
    Counted cfg email (Tally.start (World.init clock expiresAt users legacy)) := by
  refine ⟨⟨?_, ?_⟩, ?_, fun hne => absurd rfl hne, ?_⟩
  · intro c hc
    cases hc
  · intro out hout
    cases hout
  · exact Nat.zero_le _
  · intro p hp
    cases hp

/-- The user of the runs below, at time 0. -/
def guessedWorld : Tally := Tally.start (World.init 0 (fun _ => 0) [sampleUser] [])

/-- Login `i`, with a wrong password, executes `n` statements. -/
def guess (i n : ℕ) : List Event := .begin (.login "ana@noc.example" "guess") :: List.replicate n (.move i 0)

/-- Five logins with a wrong password, one after the other. -/
def sequentialGuesses : List Event := guess 0 3 ++ guess 1 3 ++ guess 2 3 ++ guess 3 3 ++ guess 4 4

/-- Five logins with a wrong password that all read the account before any has failed. -/
def overlappingGuesses : List Event :=
  guess 0 1 ++ guess 1 1 ++ guess 2 1 ++ guess 3 1 ++ guess 4 1 ++
    (List.range 5).flatMap fun i => [.move i 0, .move i 0]

end ApexChainx.Auth
