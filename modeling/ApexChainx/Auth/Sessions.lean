import Mathlib.Data.Int.Notation
import Mathlib.Data.List.Basic
import ApexChainx.Core.Error
import ApexChainx.Lib.Table
import ApexChainx.Lib.Transition

/-!
# Sessions and token families

The requests of `AuthStore` (`app/services/auth_store.py`) on the tables `users`, `sessions` and
`token_families`, cut at the statements they send to the database, with the three repositories they go
through. Between two statements of a request the others may move.

What a request keeps between statements is what the ORM session keeps: a loaded object holds the values
it was loaded with until a commit expires it, a query for a row that is already loaded checks that the
row is there and leaves the loaded values alone, and an expired object is read again at its next use.
An `UPDATE` that finds no row raises, a `DELETE` that finds none does not.

Tokens and family ids come from `uuid4`. They are numbered in the order they are drawn; the two tokens
of a session are drawn together and bear the same number. The tables hold token hashes, which are as
good as the tokens here. Users are never deleted.

`UserORM` declares `id` and no `user_id`, so every audit call that asks the loaded user for `user_id`
raises `AttributeError` instead of logging.
-/

namespace ApexChainx.Auth

open ApexChainx.Lib

/-! ## Tables -/

/-- A row of `users`, as far as the requests use it. -/
structure UserRow where
  email : String
  hashedPassword : String
  failedLoginAttempts : ℕ
  lockedUntil : Option ℤ
deriving DecidableEq, Repr

/-- A row of `sessions`. Sessions older than the token families have no family. -/
structure SessionRow where
  accessToken : ℕ
  refreshToken : ℕ
  email : String
  familyId : Option ℕ
  sequence : ℕ
deriving DecidableEq, Repr

/-- A row of `token_families`. -/
structure FamilyRow where
  familyId : ℕ
  email : String
  currentSequence : ℕ
  compromised : Bool
deriving DecidableEq, Repr

/-- The committed tables, and the numbers of the next token pair and family to be drawn. -/
structure Tables where
  users : List UserRow
  sessions : List SessionRow
  families : List FamilyRow
  nextToken : ℕ
  nextFamily : ℕ
deriving DecidableEq, Repr

/-- The settings the requests read, and the password check of `app/core/security.py`. -/
structure AuthSettings where
  maxFailedAttempts : ℕ
  /-- `AUTH_LOCKOUT_DURATION_MINUTES`, in the unit of the clock. -/
  lockoutDuration : ℤ
  verifyPassword : String → String → Bool

namespace Tables

/-- `UserRepository.get_by_email`. -/
def getByEmail (t : Tables) (email : String) : Option UserRow := t.users.find? (·.email = email)

/-- `SessionRepository.get_session`. -/
def getSession (t : Tables) (accessToken : ℕ) : Option SessionRow :=
  t.sessions.find? (·.accessToken = accessToken)

/-- `SessionRepository.get_session_by_refresh_token`. -/
def getSessionByRefreshToken (t : Tables) (refreshToken : ℕ) : Option SessionRow :=
  t.sessions.find? (·.refreshToken = refreshToken)

/-- `TokenFamilyRepository.get_family`. -/
def getFamily (t : Tables) (familyId : ℕ) : Option FamilyRow :=
  t.families.find? (·.familyId = familyId)

/-- `UPDATE users … WHERE email = email`. -/
def updateUser (t : Tables) (email : String) (g : UserRow → UserRow) : Tables :=
  { t with users := updateKey UserRow.email email g t.users }

/-- `UPDATE token_families … WHERE family_id = familyId`. -/
def updateFamily (t : Tables) (familyId : ℕ) (g : FamilyRow → FamilyRow) : Tables :=
  { t with families := updateKey FamilyRow.familyId familyId g t.families }

/-- `UPDATE sessions SET family_id = familyId, sequence = 0 WHERE access_token = accessToken`. -/
def migrateSession (t : Tables) (accessToken familyId : ℕ) : Tables :=
  { t with
    sessions := updateKey SessionRow.accessToken accessToken
      (fun r => { r with familyId := some familyId, sequence := 0 }) t.sessions }

/-- `INSERT` of `create_family`. -/
def insertFamily (t : Tables) (email : String) : Tables :=
  { t with families := t.families ++ [⟨t.nextFamily, email, 0, false⟩], nextFamily := t.nextFamily + 1 }

/-- `INSERT` of `create_session`. -/
def insertSession (t : Tables) (email : String) (familyId sequence : ℕ) : Tables :=
  { t with
    sessions := t.sessions ++ [⟨t.nextToken, t.nextToken, email, some familyId, sequence⟩]
    nextToken := t.nextToken + 1 }

/-- `DELETE FROM sessions` for the rows meeting `p`. -/
def deleteSessions (t : Tables) (p : SessionRow → Bool) : Tables :=
  { t with sessions := t.sessions.filter fun r => !p r }

/-- `DELETE FROM token_families` for the rows under `ids`. -/
def deleteFamilies (t : Tables) (ids : List ℕ) : Tables :=
  { t with families := t.families.filter fun g => !ids.contains g.familyId }

end Tables

/-- `is_account_locked` and `_is_locked`. -/
def isLocked (now : ℤ) (user : UserRow) : Bool :=
  match user.lockedUntil with
  | none => false
  | some lockedUntil => decide (now < lockedUntil)

/-! ## Requests -/

/-- What a request answers with. -/
inductive Reply
  /-- `AuthSessionResponse`, with the token pair. -/
  | session (token : ℕ)
  /-- `None`. -/
  | none
  /-- The number of sessions `logout_all_sessions` deleted. -/
  | count (n : ℕ)
deriving DecidableEq, Repr

/-- Where a request goes after a statement. -/
inductive Next (π : Type)
  | goto (pc : π)
  | done (out : Outcome Reply)
deriving DecidableEq, Repr

/-- The next statement of `_login_with_db`. -/
inductive LoginPc
  | getUser (email password : String)
  /-- `increment_failed_attempts`, with the user as loaded. -/
  | countFailure (user : UserRow)
  /-- The read of `stored_user.failed_login_attempts` after the commit. -/
  | readFailures (email : String)
  | lockAccount (email : String)
  /-- `reset_failed_attempts`, with the user as loaded. -/
  | resetFailedAttempts (user : UserRow)
  | createFamily (email : String)
  | refreshFamily (email : String) (familyId : ℕ)
  | createSession (email : String) (familyId : ℕ)
  | refreshSession (token : ℕ)
deriving DecidableEq, Repr

/-- One statement of `_login_with_db`. -/
def loginStep (cfg : AuthSettings) (now : ℤ) (t : Tables) : LoginPc → Tables × Next LoginPc
  | .getUser email password =>
      match t.getByEmail email with
      | none => (t, .done (.error (.valueError "Invalid credentials")))
      | some user =>
          if isLocked now user then
            (t, .done (.error (.valueError
              "Account is temporarily locked due to too many failed login attempts")))
          else if cfg.verifyPassword password user.hashedPassword then
            (t, .goto (.resetFailedAttempts user))
          else (t, .goto (.countFailure user))
  | .countFailure user =>
      (t.updateUser user.email fun u => { u with failedLoginAttempts := user.failedLoginAttempts + 1 },
        .goto (.readFailures user.email))
  | .readFailures email =>
      match t.getByEmail email with
      | none => (t, .done (.error (.staleRow "users")))
      | some user =>
          if cfg.maxFailedAttempts ≤ user.failedLoginAttempts then (t, .goto (.lockAccount email))
          else (t, .done (.error (.attributeError "UserORM" "user_id")))
  | .lockAccount email =>
      (t.updateUser email fun u => { u with lockedUntil := some (now + cfg.lockoutDuration) },
        .done (.error (.attributeError "UserORM" "user_id")))
  | .resetFailedAttempts user =>
      -- the `UPDATE` names the columns whose loaded value changes
      (t.updateUser user.email fun u =>
          { u with
            failedLoginAttempts := if user.failedLoginAttempts = 0 then u.failedLoginAttempts else 0
            lockedUntil := if user.lockedUntil = none then u.lockedUntil else none },
        .goto (.createFamily user.email))
  | .createFamily email => (t.insertFamily email, .goto (.refreshFamily email t.nextFamily))
  | .refreshFamily email familyId =>
      match t.getFamily familyId with
      | none => (t, .done (.error (.staleRow "token_families")))
      | some _ => (t, .goto (.createSession email familyId))
  | .createSession email familyId =>
      match t.getFamily familyId with
      | none => (t, .done (.error (.integrityError "fk_sessions_token_families")))
      | some _ => (t.insertSession email familyId 0, .goto (.refreshSession t.nextToken))
  | .refreshSession token =>
      match t.getSession token with
      | none => (t, .done (.error (.staleRow "sessions")))
      | some _ => (t, .done (.ok (.session token)))

/-- What a refresh has loaded: the session of the presented token, its family and its user. -/
structure Loaded where
  old : SessionRow
  family : FamilyRow
  user : Option UserRow
deriving DecidableEq, Repr

/-- The next statement of `_refresh_with_db`. -/
inductive RefreshPc
  | findSession (token : ℕ)
  /-- `is_account_locked`. -/
  | checkLock (old : SessionRow)
  /-- `create_family` for a session without family: `INSERT`, then `refresh`. -/
  | createFamily (old : SessionRow)
  | refreshNewFamily (old : SessionRow) (familyId : ℕ)
  | migrateSession (old : SessionRow) (familyId : ℕ)
  | getFamily (old : SessionRow) (familyId : ℕ) (migrated : Bool)
  | getUser (old : SessionRow) (family : FamilyRow) (migrated : Bool)
  /-- The read of `old_session.sequence` after the migration's commit. -/
  | reloadSequence (l : Loaded)
  /-- `compromise_family`: `get_family`, `UPDATE`, `refresh`. -/
  | findCompromised (l : Loaded)
  | compromise (l : Loaded)
  | refreshCompromised (l : Loaded)
  /-- `delete_sessions_by_family`: the query, then the deletes. -/
  | selectFamilySessions (l : Loaded)
  | deleteFamilySessions (l : Loaded) (accessTokens : List ℕ)
  /-- `increment_sequence`: `get_family`, `UPDATE`, `refresh`. -/
  | findIncremented (l : Loaded)
  | increment (l : Loaded)
  | refreshIncremented (l : Loaded)
  /-- The read of `old_session.access_token` after the increment's commit. -/
  | reloadAccessToken (l : Loaded)
  /-- `delete_session`: `get_session`, then the delete. -/
  | findOld (l : Loaded)
  | deleteOld (l : Loaded)
  /-- The read of `family.current_sequence` after the delete's commit. -/
  | reloadFamily (l : Loaded)
  /-- `create_session`: `INSERT`, then `refresh`. -/
  | createSession (l : Loaded)
  | refreshSession (l : Loaded) (token : ℕ)
deriving DecidableEq, Repr

/-- The reuse check: a sequence behind the family's is a replay, any other goes on to the rotation. -/
def reuseCheck (l : Loaded) : RefreshPc :=
  if l.old.sequence < l.family.currentSequence then .findCompromised l else .findIncremented l

/-- After `delete_session`: the check of the user, then `next`. -/
def withUser (l : Loaded) (next : RefreshPc) : Next RefreshPc :=
  match l.user with
  | none => .done (.error (.valueError "User not found"))
  | some _ => .goto next

/-- The end of a request that would log the user's `user_id` and raise `ValueError detail`. -/
def auditAndRaise (user : Option UserRow) (detail : String) : Outcome Reply :=
  match user with
  | some _ => .error (.attributeError "UserORM" "user_id")
  | none => .error (.valueError detail)

/-- One statement of `_refresh_with_db`. -/
def refreshStep (now : ℤ) (t : Tables) : RefreshPc → Tables × Next RefreshPc
  | .findSession token =>
      match t.getSessionByRefreshToken token with
      | none => (t, .done (.error (.valueError "Invalid or expired refresh token")))
      | some old => (t, .goto (.checkLock old))
  | .checkLock old =>
      if (t.getByEmail old.email).any (isLocked now) then
        (t, .done (.error (.valueError "Account is temporarily locked")))
      else
        match old.familyId with
        | none => (t, .goto (.createFamily old))
        | some familyId => (t, .goto (.getFamily old familyId false))
  | .createFamily old => (t.insertFamily old.email, .goto (.refreshNewFamily old t.nextFamily))
  | .refreshNewFamily old familyId =>
      match t.getFamily familyId with
      | none => (t, .done (.error (.staleRow "token_families")))
      | some _ => (t, .goto (.migrateSession old familyId))
  | .migrateSession old familyId =>
      match t.getSession old.accessToken, t.getFamily familyId with
      | none, _ => (t, .done (.error (.staleRow "sessions")))
      | some _, none => (t, .done (.error (.integrityError "fk_sessions_token_families")))
      | some _, some _ => (t.migrateSession old.accessToken familyId, .goto (.getFamily old familyId true))
  | .getFamily old familyId migrated =>
      match t.getFamily familyId with
      | none => (t, .done (.error (.valueError "Invalid token family")))
      | some family => (t, .goto (.getUser old family migrated))
  | .getUser old family migrated =>
      let user := t.getByEmail old.email
      if family.compromised then
        (t, .done (auditAndRaise user "Session family has been compromised"))
      else if migrated then (t, .goto (.reloadSequence ⟨old, family, user⟩))
      else (t, .goto (reuseCheck ⟨old, family, user⟩))
  | .reloadSequence l =>
      match t.getSession l.old.accessToken with
      | none => (t, .done (.error (.staleRow "sessions")))
      | some row => (t, .goto (reuseCheck { l with old := { l.old with sequence := row.sequence } }))
  | .findCompromised l =>
      match t.getFamily l.family.familyId with
      | none => (t, .goto (.selectFamilySessions l))
      | some _ => (t, .goto (.compromise l))
  | .compromise l =>
      match t.getFamily l.family.familyId with
      | none => (t, .done (.error (.staleRow "token_families")))
      | some _ =>
          (t.updateFamily l.family.familyId fun g => { g with compromised := true },
            .goto (.refreshCompromised l))
  | .refreshCompromised l =>
      match t.getFamily l.family.familyId with
      | none => (t, .done (.error (.staleRow "token_families")))
      | some _ => (t, .goto (.selectFamilySessions l))
  | .selectFamilySessions l =>
      let rows := t.sessions.filter (·.familyId = some l.family.familyId)
      (t, .goto (.deleteFamilySessions l (rows.map SessionRow.accessToken)))
  | .deleteFamilySessions l accessTokens =>
      (t.deleteSessions fun r => accessTokens.contains r.accessToken,
        .done (auditAndRaise l.user "Refresh token reuse detected. Session family invalidated."))
  | .findIncremented l =>
      -- without the family row nothing is committed, so the old session is not read again
      match t.getFamily l.family.familyId with
      | none => (t, .goto (.findOld l))
      | some _ => (t, .goto (.increment l))
  | .increment l =>
      match t.getFamily l.family.familyId with
      | none => (t, .done (.error (.staleRow "token_families")))
      | some _ =>
          (t.updateFamily l.family.familyId fun g =>
              { g with currentSequence := l.family.currentSequence + 1 },
            .goto (.refreshIncremented l))
  | .refreshIncremented l =>
      match t.getFamily l.family.familyId with
      | none => (t, .done (.error (.staleRow "token_families")))
      | some family => (t, .goto (.reloadAccessToken { l with family := family }))
  | .reloadAccessToken l =>
      match t.getSession l.old.accessToken with
      | none => (t, .done (.error (.staleRow "sessions")))
      | some _ => (t, .goto (.findOld l))
  | .findOld l =>
      match t.getSession l.old.accessToken with
      | none => (t, withUser l (.createSession l))
      | some _ => (t, .goto (.deleteOld l))
  | .deleteOld l =>
      (t.deleteSessions (·.accessToken = l.old.accessToken), withUser l (.reloadFamily l))
  | .reloadFamily l =>
      match t.getFamily l.family.familyId with
      | none => (t, .done (.error (.staleRow "token_families")))
      | some family => (t, .goto (.createSession { l with family := family }))
  | .createSession l =>
      match t.getFamily l.family.familyId with
      | none => (t, .done (.error (.integrityError "fk_sessions_token_families")))
      | some _ =>
          (t.insertSession l.old.email l.family.familyId (l.family.currentSequence + 1),
            .goto (.refreshSession l t.nextToken))
  | .refreshSession _ token =>
      match t.getSession token with
      | none => (t, .done (.error (.staleRow "sessions")))
      | some _ => (t, .done (.error (.attributeError "UserORM" "user_id")))

/-- The next statement of `_logout_with_db`. -/
inductive LogoutPc
  | getSession (token : ℕ)
  /-- `delete_session`: `get_session`, then the delete. -/
  | findSession (token : ℕ)
  | deleteSession (token : ℕ)
deriving DecidableEq, Repr

/-- One statement of `_logout_with_db`. -/
def logoutStep (t : Tables) : LogoutPc → Tables × Next LogoutPc
  | .getSession token =>
      match t.getSession token with
      | none => (t, .done (.ok .none))
      | some _ => (t, .goto (.findSession token))
  | .findSession token =>
      match t.getSession token with
      | none => (t, .done (.ok .none))
      | some _ => (t, .goto (.deleteSession token))
  | .deleteSession token => (t.deleteSessions (·.accessToken = token), .done (.ok .none))

/-- The next statement of `_logout_all_sessions_with_db`. -/
inductive LogoutAllPc
  | deleteSessions (email : String)
  /-- `delete_families_by_email`: the query, then the deletes. -/
  | selectFamilies (email : String) (count : ℕ)
  | deleteFamilies (ids : List ℕ) (count : ℕ)
deriving DecidableEq, Repr

/-- One statement of `_logout_all_sessions_with_db`. -/
def logoutAllStep (t : Tables) : LogoutAllPc → Tables × Next LogoutAllPc
  | .deleteSessions email =>
      (t.deleteSessions (·.email = email),
        .goto (.selectFamilies email (t.sessions.countP (·.email = email))))
  | .selectFamilies email count =>
      let rows := t.families.filter (·.email = email)
      (t, .goto (.deleteFamilies (rows.map FamilyRow.familyId) count))
  | .deleteFamilies ids count =>
      -- a session stored since the sessions were deleted still refers to its family
      if t.sessions.any fun r => r.familyId.any ids.contains then
        (t, .done (.error (.integrityError "fk_sessions_token_families")))
      else (t.deleteFamilies ids, .done (.ok (.count count)))

/-! ## Interleavings -/

/-- The four requests. -/
inductive Request
  | login (email password : String)
  | refresh (token : ℕ)
  | logout (token : ℕ)
  | logoutAll (email : String)
deriving DecidableEq, Repr

/-- Where a request stands. -/
inductive Pc
  | login (pc : LoginPc)
  | refresh (pc : RefreshPc)
  | logout (pc : LogoutPc)
  | logoutAll (pc : LogoutAllPc)
  | returned (out : Outcome Reply)
deriving DecidableEq, Repr

/-- The first statement of a request. -/
def Request.start : Request → Pc
  | .login email password => .login (.getUser email password)
  | .refresh token => .refresh (.findSession token)
  | .logout token => .logout (.getSession token)
  | .logoutAll email => .logoutAll (.deleteSessions email)

/-- The next statement, as a place in its request. -/
def Next.toPc {π : Type} (f : π → Pc) : Next π → Pc
  | .goto pc => f pc
  | .done out => .returned out

/-- One statement of a request. -/
def advance (cfg : AuthSettings) (now : ℤ) (t : Tables) : Pc → Option (Tables × Pc)
  | .login pc => some ((loginStep cfg now t pc).1, (loginStep cfg now t pc).2.toPc .login)
  | .refresh pc => some ((refreshStep now t pc).1, (refreshStep now t pc).2.toPc .refresh)
  | .logout pc => some ((logoutStep t pc).1, (logoutStep t pc).2.toPc .logout)
  | .logoutAll pc => some ((logoutAllStep t pc).1, (logoutAllStep t pc).2.toPc .logoutAll)
  | .returned _ => none

/-- The rotation a request has just committed: the presented token and its family. -/
def Pc.rotation : Pc → Option (ℕ × ℕ)
  | .refresh (.refreshSession l _) => some (l.old.refreshToken, l.family.familyId)
  | _ => none

/-- A request on its way. `rotated` records the rotation it has committed; no request reads it. -/
structure Call where
  request : Request
  pc : Pc
  rotated : Option (ℕ × ℕ)
deriving DecidableEq, Repr

def Call.start (r : Request) : Call := ⟨r, r.start, none⟩

/-- The request after a statement that took it to `pc`. -/
def Call.moveTo (c : Call) (pc : Pc) : Call :=
  { c with pc := pc, rotated := pc.rotation.or c.rotated }

/-- The tables with the requests on them, in the order in which they began. -/
structure Sys where
  tables : Tables
  calls : List Call
deriving DecidableEq, Repr

/-- A database with some users and the sessions some of them had before there were families. -/
def Sys.init (users : List UserRow) (legacy : List String) : Sys :=
  ⟨⟨users, legacy.mapIdx fun i email => ⟨i, i, email, none, 0⟩, [], legacy.length, 0⟩, []⟩

/-- A request begins, or the `i`-th request executes its next statement at time `now`. -/
inductive Action
  | begin (r : Request)
  | move (i : ℕ) (now : ℤ)
deriving DecidableEq, Repr

/-- The interleaving semantics. -/
def step (cfg : AuthSettings) (s : Sys) : Action → Option Sys
  | .begin r => some { s with calls := s.calls ++ [Call.start r] }
  | .move i now =>
      match s.calls[i]? with
      | none => none
      | some c =>
          (advance cfg now s.tables c.pc).map fun next =>
            ⟨next.1, s.calls.set i (c.moveTo next.2)⟩

end ApexChainx.Auth
