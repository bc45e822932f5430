import ApexChainx.Auth.Refresh

/-!
# Access checks and the sweep of families

The two remaining users of the tables `sessions` and `token_families`: `AuthStore.get_user_for_token`,
which every authenticated request goes through, and `TokenFamilyRepository.delete_orphaned_families`,
which a periodic task calls. `World` puts them beside the logins, refreshes and logouts of `Sys`, on the
same tables, under one clock, and adds the time at which each token expires.

The foreign key `sessions.family_id` is enforced: a `DELETE` of a family that a session refers to raises.
What a check writes to the audit log, and the retries of its first query, are left out.
-/

namespace ApexChainx.Auth

open ApexChainx.Lib

/-- `TOKEN_TTL_SECONDS`, in microseconds. -/
def tokenTtl : ℤ := 3600 * 1000000

/-! ## Checks -/

/-- The next statement of `_get_user_for_token_with_db`. -/
inductive CheckPc
  | getSession (token : ℕ)
  /-- `is_revoked`. -/
  | isRevoked (session : SessionRow) (familyId : ℕ)
  /-- `delete_session` of an expired or revoked session: `get_session`, then the delete. -/
  | findSession (token : ℕ)
  | deleteSession (token : ℕ)
  /-- The lookup of the user, in the cache and then in the table. -/
  | getUser (session : SessionRow)
  /-- The user of the session was returned. -/
  | accepted (session : SessionRow)
  /-- `None` was returned. -/
  | rejected
deriving DecidableEq, Repr

/-- One statement of `_get_user_for_token_with_db` at time `now`; `cached` says whether the cache has the
user of the session. -/
def checkStep (now : ℤ) (expiresAt : ℕ → ℤ) (cached : Bool) (t : Tables) :
    CheckPc → Option (Tables × CheckPc)
  | .getSession token =>
      match t.getSession token with
      | none => some (t, .rejected)
      | some session =>
          if expiresAt session.accessToken < now then some (t, .findSession token)
          else
            match session.familyId with
            -- a session without family is only gated by its row
            | none => some (t, .getUser session)
            | some familyId => some (t, .isRevoked session familyId)
  | .isRevoked session familyId =>
      match t.getFamily familyId with
      | none => some (t, .findSession session.accessToken)
      | some family =>
          if family.compromised then some (t, .findSession session.accessToken)
          else some (t, .getUser session)
  | .findSession token =>
      match t.getSession token with
      | none => some (t, .rejected)
      | some _ => some (t, .deleteSession token)
  | .deleteSession token => some (t.deleteSessions (·.accessToken = token), .rejected)
  | .getUser session =>
      if cached then some (t, .accepted session)
      else
        match t.getByEmail session.email with
        | none => some (t, .rejected)
        | some _ => some (t, .accepted session)
  | .accepted _ | .rejected => none

/-- A check on its way. -/
structure Check where
  token : ℕ
  pc : CheckPc
deriving DecidableEq, Repr

/-! ## Sweeps -/

/-- The ids of the families that no session refers to. -/
def Tables.orphaned (t : Tables) : List ℕ :=
  (t.families.filter fun g => !t.sessions.any (·.familyId = some g.familyId)).map FamilyRow.familyId

/-- The foreign key stops a delete of the families: a session refers to one of them. -/
def Tables.refersTo (t : Tables) (ids : List ℕ) : Bool :=
  t.sessions.any fun r => r.familyId.any ids.contains

/-- The next statement of `delete_orphaned_families`, with `total_deleted`. -/
inductive SweepPc
  | select (total : ℕ)
  | delete (ids : List ℕ) (total : ℕ)
  | returned (out : Outcome ℕ)
deriving DecidableEq, Repr

/-- One statement of `delete_orphaned_families`. The query has a limit and no order, so which of the
orphaned families it returns is up to the database: `picked`. -/
def sweepStep (batchSize : ℕ) (picked : List ℕ) (t : Tables) : SweepPc → Option (Tables × SweepPc)
  | .select total =>
      if picked.Nodup ∧ picked ⊆ t.orphaned ∧ picked.length = min batchSize t.orphaned.length then
        some (t, if picked = [] then .returned (.ok total) else .delete picked total)
      else none
  | .delete ids total =>
      if t.refersTo ids then
        some (t, .returned (.error (.integrityError "fk_sessions_token_families")))
      else
        some (t.deleteFamilies ids,
          if ids.length < batchSize then .returned (.ok (total + ids.length))
          else .select (total + ids.length))
  | .returned _ => none

/-- A sweep on its way. -/
structure Sweep where
  batchSize : ℕ
  pc : SweepPc
deriving DecidableEq, Repr

/-! ## Interleavings -/

/-- The requests with the checks and sweeps beside them. `expiresAt` is the column `expires_at` of the
session a token was stored with. -/
structure World where
  clock : ℤ
  expiresAt : ℕ → ℤ
  sys : Sys
  checks : List Check
  sweeps : List Sweep

/-- A database with some users, and with the sessions some of them had before there were families. -/
def World.init (clock : ℤ) (expiresAt : ℕ → ℤ) (users : List UserRow) (legacy : List String) : World :=
  ⟨clock, expiresAt, Sys.init users legacy, [], []⟩

/-- Time passes; or a request, a check or a sweep begins or executes its next statement. A request that
stores a session has computed `expires_at` some time before, at `issued`. -/
inductive Event
  | tick (elapsed : ℕ)
  | begin (r : Request)
  | move (i : ℕ) (issued : ℤ)
  | beginCheck (token : ℕ)
  | moveCheck (j : ℕ) (cached : Bool)
  | beginSweep (batchSize : ℕ)
  | moveSweep (j : ℕ) (picked : List ℕ)
deriving DecidableEq, Repr

namespace World

def tables (w : World) : Tables := w.sys.tables

/-- The same world with other tables. -/
def withTables (w : World) (t : Tables) : World := { w with sys := { w.sys with tables := t } }

/-- The interleaving semantics. -/
def step (cfg : AuthSettings) (w : World) : Event → Option World
  | .tick elapsed => some { w with clock := w.clock + elapsed }
  | .begin r => (Auth.step cfg w.sys (.begin r)).map fun s => { w with sys := s }
  | .move i issued =>
      if issued ≤ w.clock then
        (Auth.step cfg w.sys (.move i w.clock)).map fun s =>
          { w with
            sys := s
            -- the entry of the next token to be drawn; it stays once the token is stored
            expiresAt := fun token =>
              if token = w.tables.nextToken then issued + tokenTtl else w.expiresAt token }
      else none
  | .beginCheck token => some { w with checks := w.checks ++ [⟨token, .getSession token⟩] }
  | .moveCheck j cached =>
      match w.checks[j]? with
      | none => none
      | some c =>
          (checkStep w.clock w.expiresAt cached w.tables c.pc).map fun next =>
            { w.withTables next.1 with checks := w.checks.set j { c with pc := next.2 } }
  | .beginSweep batchSize => some { w with sweeps := w.sweeps ++ [⟨batchSize, .select 0⟩] }
  | .moveSweep j picked =>
      match w.sweeps[j]? with
      | none => none
      | some c =>
          (sweepStep c.batchSize picked w.tables c.pc).map fun next =>
            { w.withTables next.1 with sweeps := w.sweeps.set j { c with pc := next.2 } }

end World

variable {cfg : AuthSettings}

/-- A request executes a statement. -/
theorem step_move {w w' : World} {i : ℕ} {issued : ℤ} (h : w.step cfg (.move i issued) = some w') :
    ∃ c t' pc, w.sys.calls[i]? = some c ∧ advance cfg w.clock w.tables c.pc = some (t', pc) ∧
      w' = { w with
        sys := ⟨t', w.sys.calls.set i (c.moveTo pc)⟩
        expiresAt := fun token =>
          if token = w.tables.nextToken then issued + tokenTtl else w.expiresAt token } := by
  simp only [World.step] at h
  split at h
  · obtain ⟨s, hs, rfl⟩ := Option.map_eq_some_iff.mp h
    rcases step_cases hs with ⟨r, hr, -⟩ | ⟨i', now, c, t', pc, ha, hc, hadv, rfl⟩
    · cases hr
    · obtain ⟨rfl, rfl⟩ := Action.move.inj ha
      exact ⟨c, t', pc, hc, hadv, rfl⟩
  · cases h

theorem step_moveCheck {w w' : World} {j : ℕ} {cached : Bool}
    (h : w.step cfg (.moveCheck j cached) = some w') :
    ∃ c t' pc, w.checks[j]? = some c ∧
      checkStep w.clock w.expiresAt cached w.tables c.pc = some (t', pc) ∧
      w' = { w.withTables t' with checks := w.checks.set j { c with pc := pc } } := by
  simp only [World.step] at h
  split at h
  · cases h
  · rename_i c hc
    obtain ⟨⟨t', pc⟩, hstep, rfl⟩ := Option.map_eq_some_iff.mp h
    exact ⟨c, t', pc, hc, hstep, rfl⟩

theorem step_moveSweep {w w' : World} {j : ℕ} {picked : List ℕ}
    (h : w.step cfg (.moveSweep j picked) = some w') :
    ∃ c t' pc, w.sweeps[j]? = some c ∧ sweepStep c.batchSize picked w.tables c.pc = some (t', pc) ∧
      w' = { w.withTables t' with sweeps := w.sweeps.set j { c with pc := pc } } := by
  simp only [World.step] at h
  split at h
  · cases h
  · rename_i c hc
    obtain ⟨⟨t', pc⟩, hstep, rfl⟩ := Option.map_eq_some_iff.mp h
    exact ⟨c, t', pc, hc, hstep, rfl⟩

/-- A check is as it was, has just begun, or has executed a statement. -/
theorem step_check {w w' : World} {e : Event} (h : w.step cfg e = some w') {j : ℕ} {c' : Check}
    (hj : w'.checks[j]? = some c') :
    w.checks[j]? = some c' ∨ c'.pc = .getSession c'.token ∨
      ∃ c cached t', w.checks[j]? = some c ∧ c'.token = c.token ∧
        checkStep w.clock w.expiresAt cached w.tables c.pc = some (t', c'.pc) := by
  cases e with
  | move i issued =>
      obtain ⟨c, t', pc, -, -, rfl⟩ := step_move h
      exact .inl hj
  | moveSweep i picked =>
      obtain ⟨c, t', pc, -, -, rfl⟩ := step_moveSweep h
      exact .inl hj
  | beginCheck token =>
      obtain rfl := Option.some.inj h
      rcases getElem?_insert hj with hold | ⟨-, rfl⟩
      · exact .inl hold
      · exact .inr (.inl rfl)
  | moveCheck i cached =>
      obtain ⟨c, t', pc, hc, hstep, rfl⟩ := step_moveCheck h
      rcases getElem?_replace hj with ⟨rfl, rfl⟩ | ⟨-, hold⟩
      · exact .inr (.inr ⟨c, cached, t', hc, rfl, hstep⟩)
      · exact .inl hold
  | _ =>
      obtain rfl := Option.some.inj h
      exact .inl hj

end ApexChainx.Auth
