import Mathlib.Logic.Function.Basic
import ApexChainx.Auth.Access

/-!
# Bearer tokens and their revocation

`get_current_user` and `_verify_impersonation_token` (`app/core/security.py`), the revocation list
(`app/services/token_revocation.py`) and the endpoint `revoke_token`, statement by statement, beside the
requests, checks and sweeps of `World`. Redis is up, and its clock is the clock of the world.

A revoked access token is refused at the list, whose entry outlasts it. An impersonation token never gets
to the list: it is accepted before (`refused_iff_access`).
-/

namespace ApexChainx.Auth

open ApexChainx.Lib

/-! ## Tokens -/

/-- What a request carries after `Bearer`: the access token of a session, numbered as in `Tables`, or some
other text. -/
inductive Bearer
  | access (token : ℕ)
  | text (s : String)
deriving DecidableEq, Repr

/-- The claims of a JWT, as far as they are read; times are in seconds. -/
structure Claims where
  sub : String
  scope : String
  exp : ℤ
  iat : Option ℤ
deriving DecidableEq, Repr

/-- The settings, and what `jwt.decode` finds in a text whatever the time: the claims, if the text is
signed with the secret under HS256 and has the required ones. -/
structure GateSettings where
  auth : AuthSettings
  claims : String → Option Claims

/-- Seconds as the clock counts them. -/
def ofSeconds (n : ℤ) : ℤ := n * 1000000

/-- `jwt.decode`: it raises for a token that is expired or not issued yet. -/
def jwtDecode (cfg : GateSettings) (now : ℤ) (s : String) : Option Claims :=
  (cfg.claims s).filter fun c => c.iat.all (ofSeconds · ≤ now) && decide (now < ofSeconds c.exp)

/-- `_verify_impersonation_token`. -/
def verifyImpersonationToken (cfg : GateSettings) (now : ℤ) : Bearer → Option Claims
  -- `atk_` and hex digits: not the three segments of a JWT
  | .access _ => none
  | .text s => (jwtDecode cfg now s).filter (·.scope = "impersonate")

/-! ## Requests -/

/-- The next statement of `get_current_user`, and what `revoke_token` does after it. -/
inductive CurrentUserPc
  | verify
  | getById (userId : String)
  | isRevoked
  /-- `AuthStore.get_user_for_token`, from its start, and as the check `j` of the world. -/
  | getUserForToken
  | checking (j : ℕ)
  /-- The user was returned. -/
  | accepted
  /-- `revoke_token` has answered 200. -/
  | revoked
  /-- 401. -/
  | rejected (detail : String)
deriving DecidableEq, Repr

/-- An authenticated request on its way; `revokes` is for the endpoint `revoke_token`. -/
structure Caller where
  token : Bearer
  revokes : Bool
  pc : CurrentUserPc
deriving DecidableEq, Repr

/-- The world with the ids of its users, the revocation list, and the authenticated requests. The list has,
for a token, the time at which its key expires. -/
structure Gate where
  world : World
  userIds : List String
  revoked : Bearer → Option ℤ
  callers : List Caller

/-- The world moves, a user is registered, or an authenticated request begins or executes its next
statement. -/
inductive GateEvent
  | world (e : Event)
  | register (userId : String) (row : UserRow)
  | beginCaller (token : Bearer) (revokes : Bool)
  | moveCaller (i : ℕ)
deriving DecidableEq, Repr

namespace Gate

def clock (g : Gate) : ℤ := g.world.clock

/-- `is_revoked`: the key is there until it expires. -/
def isRevoked (g : Gate) (token : Bearer) : Bool := (g.revoked token).any (g.clock < ·)

/-- `revoke(hash_token(token), TOKEN_TTL_SECONDS)`. -/
def revoke (g : Gate) (token : Bearer) : Gate :=
  { g with revoked := Function.update g.revoked token (some (g.clock + tokenTtl)) }

/-- One statement of an authenticated request. -/
def callerStep (cfg : GateSettings) (g : Gate) (c : Caller) : Option (Gate × CurrentUserPc) :=
  match c.pc with
  | .verify =>
      match verifyImpersonationToken cfg g.clock c.token with
      | some claims => some (g, if claims.sub = "" then .isRevoked else .getById claims.sub)
      | none => some (g, .isRevoked)
  | .getById userId => some (g, if userId ∈ g.userIds then .accepted else .isRevoked)
  | .isRevoked =>
      some (g, if g.isRevoked c.token then .rejected "Token revoked" else .getUserForToken)
  | .getUserForToken =>
      match c.token with
      | .access token =>
          some ({ g with
            world := { g.world with checks := g.world.checks ++ [⟨token, .getSession token⟩] } },
            .checking g.world.checks.length)
      -- no session has this token
      | .text _ => some (g, .rejected "Invalid or expired token")
  | .checking j =>
      match g.world.checks[j]? with
      | some ⟨_, .accepted _⟩ => some (g, .accepted)
      | some ⟨_, .rejected⟩ => some (g, .rejected "Invalid or expired token")
      | _ => none
  | .accepted => if c.revokes then some (g.revoke c.token, .revoked) else none
  | .revoked | .rejected _ => none

/-- The interleaving semantics. -/
def step (cfg : GateSettings) (g : Gate) : GateEvent → Option Gate
  | .world e => (g.world.step cfg.auth e).map fun w => { g with world := w }
  | .register userId row =>
      some { g with
        world := g.world.withTables { g.world.tables with users := g.world.tables.users ++ [row] }
        userIds := g.userIds ++ [userId] }
  | .beginCaller token revokes => some { g with callers := g.callers ++ [⟨token, revokes, .verify⟩] }
  | .moveCaller i =>
      match g.callers[i]? with
      | none => none
      | some c =>
          (g.callerStep cfg c).map fun next =>
            { next.1 with callers := g.callers.set i { c with pc := next.2 } }

/-- No authenticated request is on its way, and every session was issued for `TOKEN_TTL_SECONDS`. -/
structure Start (g : Gate) : Prop where
  callers : g.callers = []
  expiry : ∀ token, g.world.expiresAt token ≤ g.clock + tokenTtl

/-- The token's own expiry. -/
def Expires (cfg : GateSettings) (g : Gate) (e : ℤ) : Bearer → Prop
  | .access token => g.world.expiresAt token = e
  | .text s => ∃ claims, cfg.claims s = some claims ∧ ofSeconds claims.exp = e

end Gate

/-- The request was let through. -/
def CurrentUserPc.isLetThrough : CurrentUserPc → Bool
  | .accepted | .revoked => true
  | _ => false

/-- The request was refused with 401. -/
def CurrentUserPc.isRefused : CurrentUserPc → Bool
  | .rejected _ => true
  | _ => false

/-- The token is the access token of a session. -/
def Bearer.isAccess : Bearer → Bool
  | .access _ => true
  | .text _ => false

namespace Gate

variable {cfg : GateSettings} {g g' : Gate}

/-! ## What a step can do -/

/-- Time passes, users are added, and the entries of the list are renewed. -/
structure Grows (g g' : Gate) : Prop where
  clock : g.clock ≤ g'.clock
  userIds : g.userIds ⊆ g'.userIds
  revoked : ∀ token, g'.revoked token = g.revoked token ∨ g'.revoked token = some (g.clock + tokenTtl)
  length : g.callers.length ≤ g'.callers.length

/-- A statement of a request leaves the clock, the users and the other requests alone. -/
theorem callerStep_grows {c : Caller} {g₁ : Gate} {pc : CurrentUserPc}
    (h : g.callerStep cfg c = some (g₁, pc)) :
    g₁.clock = g.clock ∧ g₁.userIds = g.userIds ∧ g₁.world.expiresAt = g.world.expiresAt ∧
      ∀ token, g₁.revoked token = g.revoked token ∨ g₁.revoked token = some (g.clock + tokenTtl) := by
  have hsame : g₁ = g → g₁.clock = g.clock ∧ g₁.userIds = g.userIds ∧
      g₁.world.expiresAt = g.world.expiresAt ∧
      ∀ token, g₁.revoked token = g.revoked token ∨ g₁.revoked token = some (g.clock + tokenTtl) := by
    rintro rfl
    exact ⟨rfl, rfl, rfl, fun _ => .inl rfl⟩
  unfold callerStep at h
  split at h
  · split at h
    · exact hsame (Prod.mk.inj (Option.some.inj h)).1.symm
    · exact hsame (Prod.mk.inj (Option.some.inj h)).1.symm
  · exact hsame (Prod.mk.inj (Option.some.inj h)).1.symm
  · exact hsame (Prod.mk.inj (Option.some.inj h)).1.symm
  · split at h
    · obtain ⟨rfl, -⟩ := Prod.mk.inj (Option.some.inj h)
      exact ⟨rfl, rfl, rfl, fun _ => .inl rfl⟩
    · exact hsame (Prod.mk.inj (Option.some.inj h)).1.symm
  · split at h
    · exact hsame (Prod.mk.inj (Option.some.inj h)).1.symm
    · exact hsame (Prod.mk.inj (Option.some.inj h)).1.symm
    · cases h
  · split at h
    · obtain ⟨rfl, -⟩ := Prod.mk.inj (Option.some.inj h)
      refine ⟨rfl, rfl, rfl, ?_⟩
      intro token
      by_cases htoken : token = c.token
      · subst htoken
        exact .inr (Function.update_self ..)
      · exact .inl (Function.update_of_ne htoken ..)
    · cases h
  · cases h
  · cases h

/-- The clock of the world never goes back, and sessions are issued for `TOKEN_TTL_SECONDS`. -/
theorem world_step_expiry {w w' : World} {e : Event} (h : w.step cfg.auth e = some w') :
    w.clock ≤ w'.clock ∧ ((∀ token, w.expiresAt token ≤ w.clock + tokenTtl) →
      ∀ token, w'.expiresAt token ≤ w'.clock + tokenTtl) := by
  cases e with
  | tick elapsed =>
      obtain rfl := Option.some.inj h
      have hle : w.clock ≤ w.clock + elapsed := by omega
      refine ⟨hle, fun hbound token => ?_⟩
      have hold := hbound token
      show w.expiresAt token ≤ w.clock + elapsed + tokenTtl
      omega
  | move i issued =>
      have hissued : issued ≤ w.clock := by
        simp only [World.step] at h
        split at h
        · assumption
        · cases h
      obtain ⟨c, t', pc, -, -, rfl⟩ := step_move h
      refine ⟨Int.le_refl _, fun hbound token => ?_⟩
      have hold := hbound token
      dsimp only
      split
      · omega
      · exact hold
  | begin r =>
      simp only [World.step] at h
      obtain ⟨s, -, rfl⟩ := Option.map_eq_some_iff.mp h
      exact ⟨Int.le_refl _, id⟩
  | moveCheck j cached =>
      obtain ⟨c, t', pc, -, -, rfl⟩ := step_moveCheck h
      exact ⟨Int.le_refl _, id⟩
  | moveSweep j picked =>
      obtain ⟨c, t', pc, -, -, rfl⟩ := step_moveSweep h
      exact ⟨Int.le_refl _, id⟩
  | beginCheck token =>
      obtain rfl := Option.some.inj h
      exact ⟨Int.le_refl _, id⟩
  | beginSweep batchSize =>
      obtain rfl := Option.some.inj h
      exact ⟨Int.le_refl _, id⟩

theorem step_moveCaller {i : ℕ} (h : g.step cfg (.moveCaller i) = some g') :
    ∃ c g₁ pc, g.callers[i]? = some c ∧ g.callerStep cfg c = some (g₁, pc) ∧
      g' = { g₁ with callers := g.callers.set i { c with pc := pc } } := by
  simp only [step] at h
  split at h
  · cases h
  · rename_i c hc
    obtain ⟨⟨g₁, pc⟩, hstep, rfl⟩ := Option.map_eq_some_iff.mp h
    exact ⟨c, g₁, pc, hc, hstep, rfl⟩

theorem step_grows {e : GateEvent} (h : g.step cfg e = some g') : Grows g g' := by
  cases e with
  | world e =>
      obtain ⟨w, hw, rfl⟩ := Option.map_eq_some_iff.mp h
      exact ⟨(world_step_expiry hw).1, List.Subset.refl _, fun _ => .inl rfl, Nat.le_refl _⟩
  | register userId row =>
      obtain rfl := Option.some.inj h
      exact ⟨Int.le_refl _, List.subset_append_left .., fun _ => .inl rfl, Nat.le_refl _⟩
  | beginCaller token revokes =>
      obtain rfl := Option.some.inj h
      refine ⟨Int.le_refl _, List.Subset.refl _, fun _ => .inl rfl, ?_⟩
      rw [List.length_append]
      omega
  | moveCaller i =>
      obtain ⟨c, g₁, pc, -, hstep, rfl⟩ := step_moveCaller h
      obtain ⟨hclock, huserIds, -, hrevoked⟩ := callerStep_grows hstep
      exact ⟨Int.le_of_eq hclock.symm, fun u hu => huserIds.symm ▸ hu, hrevoked,
        Nat.le_of_eq List.length_set.symm⟩

/-- A request is as it was, has just begun, or has executed a statement. -/
theorem step_caller {e : GateEvent} (h : g.step cfg e = some g') {j : ℕ} {c' : Caller}
    (hj : g'.callers[j]? = some c') :
    g.callers[j]? = some c' ∨ (g.callers.length ≤ j ∧ c'.pc = .verify) ∨
      ∃ c g₁, g.callers[j]? = some c ∧ c'.token = c.token ∧ g.callerStep cfg c = some (g₁, c'.pc) := by
  cases e with
  | world e =>
      obtain ⟨w, hw, rfl⟩ := Option.map_eq_some_iff.mp h
      exact .inl hj
  | register userId row =>
      obtain rfl := Option.some.inj h
      exact .inl hj
  | beginCaller token revokes =>
      obtain rfl := Option.some.inj h
      rcases Nat.lt_or_ge j g.callers.length with hlt | hge
      · rw [List.getElem?_append_left hlt] at hj
        exact .inl hj
      · rw [List.getElem?_append_right hge] at hj
        have hmem := List.mem_singleton.mp (List.mem_of_getElem? hj)
        exact .inr (.inl ⟨hge, by rw [hmem]⟩)
  | moveCaller i =>
      obtain ⟨c, g₁, pc, hc, hstep, rfl⟩ := step_moveCaller h
      by_cases hij : i = j
      · subst hij
        obtain ⟨hlt, -⟩ := List.getElem?_eq_some_iff.mp hc
        rw [List.getElem?_set_self hlt] at hj
        obtain rfl := Option.some.inj hj
        exact .inr (.inr ⟨c, g₁, hc, rfl, hstep⟩)
      · rw [List.getElem?_set_ne hij] at hj
        exact .inl hj

/-! ## Who was authenticated -/

/-- The text is an impersonation token for the user, and its time has begun. -/
def ActsFor (cfg : GateSettings) (now : ℤ) (s userId : String) : Prop :=
  ∃ claims, cfg.claims s = some claims ∧ claims.scope = "impersonate" ∧ claims.sub = userId ∧
    userId ≠ "" ∧ claims.iat.all (ofSeconds · ≤ now) = true

theorem ActsFor.later {now now' : ℤ} {s userId : String} (h : ActsFor cfg now s userId)
    (hle : now ≤ now') : ActsFor cfg now' s userId := by
  obtain ⟨claims, hclaims, hscope, hsub, hne, hiat⟩ := h
  refine ⟨claims, hclaims, hscope, hsub, hne, ?_⟩
  cases hi : claims.iat with
  | none => rfl
  | some iat =>
      rw [hi] at hiat
      have hstarted : ofSeconds iat ≤ now := of_decide_eq_true hiat
      exact decide_eq_true (Int.le_trans hstarted hle)

/-- What the requests with a text that is no access token have established. -/
def Established (cfg : GateSettings) (g : Gate) (s : String) : CurrentUserPc → Prop
  | .getById userId => ActsFor cfg g.clock s userId
  | .checking _ => False
  | .accepted | .revoked => ∃ userId ∈ g.userIds, ActsFor cfg g.clock s userId
  | .verify | .isRevoked | .getUserForToken | .rejected _ => True

theorem Established.grows {s : String} {pc : CurrentUserPc} (h : Established cfg g s pc)
    (hgrows : Grows g g') : Established cfg g' s pc := by
  cases pc with
  | getById userId => exact h.later hgrows.clock
  | checking j => exact h
  | accepted =>
      obtain ⟨userId, hmem, hacts⟩ := h
      exact ⟨userId, hgrows.userIds hmem, hacts.later hgrows.clock⟩
  | revoked =>
      obtain ⟨userId, hmem, hacts⟩ := h
      exact ⟨userId, hgrows.userIds hmem, hacts.later hgrows.clock⟩
  | _ => trivial

theorem verify_actsFor {now : ℤ} {s : String} {claims : Claims}
    (h : verifyImpersonationToken cfg now (.text s) = some claims) (hsub : claims.sub ≠ "") :
    ActsFor cfg now s claims.sub := by
  obtain ⟨hdecoded, hscope⟩ := Option.filter_eq_some_iff.mp h
  obtain ⟨hclaims, htime⟩ := Option.filter_eq_some_iff.mp hdecoded
  rw [Bool.and_eq_true] at htime
  exact ⟨claims, hclaims, of_decide_eq_true hscope, rfl, hsub, htime.1⟩

/-- A statement of a request with such a text keeps what it has established. -/
theorem callerStep_established {c : Caller} {s : String} {g₁ : Gate} {pc : CurrentUserPc}
    (htext : c.token = .text s) (hc : Established cfg g s c.pc)
    (h : g.callerStep cfg c = some (g₁, pc)) : Established cfg g s pc := by
  unfold callerStep at h
  rw [htext] at h
  split at h
  · split at h
    · rename_i claims hverified
      obtain ⟨-, rfl⟩ := Prod.mk.inj (Option.some.inj h)
      split
      · trivial
      · rename_i hsub
        exact verify_actsFor hverified hsub
    · obtain ⟨-, rfl⟩ := Prod.mk.inj (Option.some.inj h)
      trivial
  · rename_i userId hpc
    rw [hpc] at hc
    obtain ⟨-, rfl⟩ := Prod.mk.inj (Option.some.inj h)
    split
    · rename_i hmem
      exact ⟨userId, hmem, hc⟩
    · trivial
  · obtain ⟨-, rfl⟩ := Prod.mk.inj (Option.some.inj h)
    split <;> trivial
  · obtain ⟨-, rfl⟩ := Prod.mk.inj (Option.some.inj h)
    trivial
  · rename_i j hpc
    rw [hpc] at hc
    exact hc.elim
  · rename_i hpc
    rw [hpc] at hc
    split at h
    · obtain ⟨-, rfl⟩ := Prod.mk.inj (Option.some.inj h)
      exact hc
    · cases h
  · cases h
  · cases h

/-- What holds in every state of a run. -/
structure Sound (cfg : GateSettings) (g : Gate) : Prop where
  expiry : ∀ token, g.world.expiresAt token ≤ g.clock + tokenTtl
  established : ∀ (j : ℕ) (c : Caller) (s : String), g.callers[j]? = some c → c.token = .text s →
    Established cfg g s c.pc

theorem Start.sound (h : Start g) : Sound cfg g := by
  refine ⟨h.expiry, ?_⟩
  intro j c s hj
  rw [h.callers] at hj
  cases hj

theorem step_expiry {e : GateEvent} (h : g.step cfg e = some g')
    (hg : ∀ token, g.world.expiresAt token ≤ g.clock + tokenTtl) (token : ℕ) :
    g'.world.expiresAt token ≤ g'.clock + tokenTtl := by
  cases e with
  | world e =>
      obtain ⟨w, hw, rfl⟩ := Option.map_eq_some_iff.mp h
      exact (world_step_expiry hw).2 hg token
  | register userId row =>
      obtain rfl := Option.some.inj h
      exact hg token
  | beginCaller bearer revokes =>
      obtain rfl := Option.some.inj h
      exact hg token
  | moveCaller i =>
      obtain ⟨c, g₁, pc, -, hstep, rfl⟩ := step_moveCaller h
      obtain ⟨hclock, -, hexpiresAt, -⟩ := callerStep_grows hstep
      show g₁.world.expiresAt token ≤ g₁.clock + tokenTtl
      rw [hclock, hexpiresAt]
      exact hg token

theorem Sound.step {e : GateEvent} (hg : Sound cfg g) (h : g.step cfg e = some g') : Sound cfg g' := by
  refine ⟨step_expiry h hg.expiry, ?_⟩
  intro j c' s hj htext
  have hgrows := step_grows h
  rcases step_caller h hj with hold | ⟨-, hnew⟩ | ⟨c, g₁, hc, htoken, hstep⟩
  · exact (hg.established j c' s hold htext).grows hgrows
  · rw [hnew]
    trivial
  · have hbefore := hg.established j c s hc (htoken ▸ htext)
    exact (callerStep_established (htoken ▸ htext) hbefore hstep).grows hgrows

/-! ## After the revocation -/

/-- The list has the token until `e`, and of the requests from `n` on none has got past it before `e`. -/
structure Barred (n : ℕ) (token : ℕ) (e : ℤ) (g : Gate) : Prop where
  issued : e ≤ g.clock + tokenTtl
  listed : ∃ expiresAt, g.revoked (.access token) = some expiresAt ∧ e ≤ expiresAt
  stopped : ∀ (j : ℕ) (c : Caller), n ≤ j → g.callers[j]? = some c → c.token = .access token →
    e ≤ g.clock ∨ c.pc = .verify ∨ c.pc = .isRevoked ∨ c.pc.isRefused = true

theorem Barred.step {n token : ℕ} {e : ℤ} {ev : GateEvent} (hg : Barred n token e g)
    (h : g.step cfg ev = some g') : Barred n token e g' := by
  have hgrows := step_grows h
  have hclock := hgrows.clock
  have hissued := hg.issued
  refine ⟨by omega, ?_, ?_⟩
  · rcases hgrows.revoked (.access token) with hsame | hnew
    · rw [hsame]
      exact hg.listed
    · exact ⟨_, hnew, hissued⟩
  · intro j c' hj hc' htoken
    rcases step_caller h hc' with hold | ⟨-, hnew⟩ | ⟨c, g₁, hc, hsame, hstep⟩
    · rcases hg.stopped j c' hj hold htoken with hlate | hstopped
      · exact .inl (Int.le_trans hlate hclock)
      · exact .inr hstopped
    · exact .inr (.inl hnew)
    · rw [hsame] at htoken
      rcases hg.stopped j c hj hc htoken with hlate | hpc | hpc | hpc
      · exact .inl (Int.le_trans hlate hclock)
      · unfold callerStep at hstep
        rw [hpc, htoken] at hstep
        obtain ⟨-, hpc'⟩ := Prod.mk.inj (Option.some.inj hstep)
        exact .inr (.inr (.inl hpc'.symm))
      · obtain ⟨expiresAt, hlisted, hle⟩ := hg.listed
        rcases Int.lt_or_le g.clock expiresAt with hlive | hgone
        · have hrevoked : g.isRevoked (.access token) = true := by
            unfold isRevoked
            rw [hlisted]
            exact decide_eq_true hlive
          unfold callerStep at hstep
          rw [hpc, htoken] at hstep
          obtain ⟨-, hpc'⟩ := Prod.mk.inj (Option.some.inj hstep)
          rw [hrevoked, if_pos rfl] at hpc'
          exact .inr (.inr (.inr (by rw [← hpc']; rfl)))
        · exact .inl (by omega)
      · unfold callerStep at hstep
        cases hcpc : c.pc with
        | rejected detail =>
            rw [hcpc] at hstep
            cases hstep
        | _ =>
            rw [hcpc] at hpc
            cases hpc

/-- The text is an impersonation token of a user for as long as its claims say, and of the requests from
`n` on none has been refused before `e`. -/
structure Admitted (cfg : GateSettings) (n : ℕ) (s : String) (e : ℤ) (g : Gate) : Prop where
  acts : ∃ userId ∈ g.userIds, ActsFor cfg g.clock s userId ∧
    ∀ (j : ℕ) (c : Caller), n ≤ j → g.callers[j]? = some c → c.token = .text s →
      e ≤ g.clock ∨ c.pc = .verify ∨ c.pc = .getById userId ∨ c.pc.isLetThrough = true
  expires : ∃ claims, cfg.claims s = some claims ∧ ofSeconds claims.exp = e

/-- Inside its time the token is verified, for the user it acts for. -/
theorem verify_of_actsFor {s userId : String} {now e : ℤ} (hacts : ActsFor cfg now s userId)
    (hexpires : ∃ claims, cfg.claims s = some claims ∧ ofSeconds claims.exp = e) (hlt : now < e) :
    ∃ claims, verifyImpersonationToken cfg now (.text s) = some claims ∧ claims.sub = userId ∧
      userId ≠ "" := by
  obtain ⟨claims, hclaims, hscope, hsub, hne, hiat⟩ := hacts
  obtain ⟨claims', hclaims', rfl⟩ := hexpires
  obtain rfl := Option.some.inj (hclaims.symm.trans hclaims')
  refine ⟨claims, Option.filter_eq_some_iff.mpr ⟨Option.filter_eq_some_iff.mpr ⟨hclaims, ?_⟩, ?_⟩, hsub, hne⟩
  · rw [hiat, Bool.true_and]
    exact decide_eq_true hlt
  · exact decide_eq_true hscope

theorem Admitted.step {n : ℕ} {s : String} {e : ℤ} {ev : GateEvent} (hg : Admitted cfg n s e g)
    (h : g.step cfg ev = some g') : Admitted cfg n s e g' := by
  have hgrows := step_grows h
  have hclock := hgrows.clock
  obtain ⟨userId, hmem, hacts, hadmitted⟩ := hg.acts
  refine ⟨⟨userId, hgrows.userIds hmem, hacts.later hclock, ?_⟩, hg.expires⟩
  intro j c' hj hc' htoken
  rcases step_caller h hc' with hold | ⟨-, hnew⟩ | ⟨c, g₁, hc, hsame, hstep⟩
  · rcases hadmitted j c' hj hold htoken with hlate | hpc
    · exact .inl (Int.le_trans hlate hclock)
    · exact .inr hpc
  · exact .inr (.inl hnew)
  · rw [hsame] at htoken
    rcases hadmitted j c hj hc htoken with hlate | hpc | hpc | hpc
    · exact .inl (Int.le_trans hlate hclock)
    · rcases Int.lt_or_le g.clock e with hlt | hge
      · obtain ⟨claims, hverified, hsub, hne⟩ := verify_of_actsFor hacts hg.expires hlt
        unfold callerStep at hstep
        rw [hpc, htoken, hverified] at hstep
        obtain ⟨-, hpc'⟩ := Prod.mk.inj (Option.some.inj hstep)
        rw [hsub, if_neg hne] at hpc'
        exact .inr (.inr (.inl hpc'.symm))
      · exact .inl (Int.le_trans hge hclock)
    · unfold callerStep at hstep
      rw [hpc] at hstep
      obtain ⟨-, hpc'⟩ := Prod.mk.inj (Option.some.inj hstep)
      rw [if_pos hmem] at hpc'
      exact .inr (.inr (.inr (by rw [← hpc']; rfl)))
    · unfold callerStep at hstep
      cases hcpc : c.pc with
      | accepted =>
          rw [hcpc] at hstep
          simp only at hstep
          split at hstep
          · obtain ⟨-, hpc'⟩ := Prod.mk.inj (Option.some.inj hstep)
            exact .inr (.inr (.inr (by rw [← hpc']; rfl)))
          · cases hstep
      | revoked =>
          rw [hcpc] at hstep
          cases hstep
      | _ =>
          rw [hcpc] at hpc
          cases hpc

/-- What `revoke_token` does last. -/
theorem revoke_step {i : ℕ} {c : Caller} (hc : g.callers[i]? = some c) (hpc : c.pc = .accepted)
    (h : g.step cfg (.moveCaller i) = some g') :
    g' = { g.revoke c.token with callers := g.callers.set i { c with pc := .revoked } } := by
  obtain ⟨c', g₁, pc, hc', hstep, rfl⟩ := step_moveCaller h
  obtain rfl := Option.some.inj (hc.symm.trans hc')
  unfold callerStep at hstep
  rw [hpc] at hstep
  simp only at hstep
  split at hstep
  · obtain ⟨rfl, rfl⟩ := Prod.mk.inj (Option.some.inj hstep)
    rfl
  · cases hstep

theorem isRefused_of_isLetThrough {pc : CurrentUserPc} (h : pc.isLetThrough = true) :
    pc.isRefused = false := by
  cases pc with
  | rejected detail => cases h
  | _ => rfl

/-- No request begins with the revocation. -/
theorem getElem?_revoked_ne_some {i k : ℕ} {c d : Caller} (hk : g.callers.length ≤ k) :
    (g.callers.set i c)[k]? ≠ some d := by
  rw [List.getElem?_eq_none (by rw [List.length_set]; exact hk)]
  exact nofun

/-- The revocation bars an access token: its entry outlasts it. -/
theorem Barred.of_revoke {i : ℕ} {c : Caller} {token : ℕ} {e : ℤ} (hg : Sound cfg g)
    (htoken : c.token = .access token) (hexpires : g.world.expiresAt token = e) :
    Barred g.callers.length token e
      { g.revoke c.token with callers := g.callers.set i { c with pc := .revoked } } := by
  subst hexpires
  refine ⟨hg.expiry token, ⟨g.clock + tokenTtl, ?_, hg.expiry token⟩, ?_⟩
  · rw [htoken]
    exact Function.update_self ..
  · exact fun k d hk hd => absurd hd (getElem?_revoked_ne_some hk)

/-- The revocation of an impersonation token is the end of a request that was accepted with it. -/
theorem Admitted.of_revoke {i : ℕ} {c : Caller} {s : String} {e : ℤ} (hg : Sound cfg g)
    (hc : g.callers[i]? = some c) (hpc : c.pc = .accepted) (htoken : c.token = .text s)
    (hexpires : ∃ claims, cfg.claims s = some claims ∧ ofSeconds claims.exp = e) :
    Admitted cfg g.callers.length s e
      { g.revoke c.token with callers := g.callers.set i { c with pc := .revoked } } := by
  have hestablished := hg.established i c s hc htoken
  rw [hpc] at hestablished
  obtain ⟨userId, hmem, hacts⟩ := hestablished
  exact ⟨⟨userId, hmem, hacts, fun k d hk hd => absurd hd (getElem?_revoked_ne_some hk)⟩, hexpires⟩

/-- After `revoke_token` has answered for a token, and until the token expires, a request that begins later
with the token is refused if it is an access token, and let through if it is an impersonation token. -/
theorem refused_iff_access {g₀ g₁ g₂ : Gate} {before after : List GateEvent} {i j : ℕ} {c c' : Caller}
    {e : ℤ} (hstart : Start g₀) (hbefore : run (step cfg) g₀ before = some g)
    (hc : g.callers[i]? = some c) (hpc : c.pc = .accepted)
    (hrevoke : g.step cfg (.moveCaller i) = some g₁) (hafter : run (step cfg) g₁ after = some g₂)
    (hj : g₁.callers.length ≤ j) (hc' : g₂.callers[j]? = some c') (htoken : c'.token = c.token)
    (hexpires : Expires cfg g₁ e c.token) (hlt : g₂.clock < e)
    (hdone : c'.pc.isLetThrough = true ∨ c'.pc.isRefused = true) :
    c'.pc.isRefused = true ↔ c.token.isAccess = true := by
  have hsound : Sound cfg g := run_invariant (fun _ _ _ h hs => h.step hs) hstart.sound hbefore
  obtain rfl := revoke_step hc hpc hrevoke
  rw [List.length_set] at hj
  rcases htok : c.token with token | s
  · rw [htok] at htoken hexpires
    have hend : Barred g.callers.length token e g₂ :=
      run_invariant (fun _ _ _ h hs => h.step hs) (.of_revoke hsound htok hexpires) hafter
    refine ⟨fun _ => rfl, fun _ => ?_⟩
    rcases hend.stopped j c' hj hc' htoken with hlate | hverify | hlist | hrefused
    · omega
    · rw [hverify] at hdone
      rcases hdone with hdone | hdone <;> cases hdone
    · rw [hlist] at hdone
      rcases hdone with hdone | hdone <;> cases hdone
    · exact hrefused
  · rw [htok] at htoken hexpires
    have hend : Admitted cfg g.callers.length s e g₂ :=
      run_invariant (fun _ _ _ h hs => h.step hs) (.of_revoke hsound hc hpc htok hexpires) hafter
    obtain ⟨userId, -, -, hlet⟩ := hend.acts
    refine ⟨fun hrefused => ?_, fun haccess => by cases haccess⟩
    rcases hlet j c' hj hc' htoken with hlate | hverify | hget | hlet
    · omega
    · rw [hverify] at hrefused
      cases hrefused
    · rw [hget] at hrefused
      cases hrefused
    · rw [isRefused_of_isLetThrough hlet] at hrefused
      cases hrefused

end Gate

/-! ## A session and an impersonation revoked -/

def sampleGate : GateSettings where
  auth := ⟨5, 15 * 60 * 1000000, fun _ _ => false⟩
  claims := fun s => if s = "signed" then some ⟨"user_1", "impersonate", 900, some 0⟩ else none

/-- One user, who has a session. -/
def gateWorld : World :=
  World.init 0 (fun _ => tokenTtl) [⟨"noc@apexchain.io", "hash", 0, none⟩] ["noc@apexchain.io"]

def gateStart : Gate := ⟨gateWorld, ["user_1"], fun _ => none, []⟩

theorem start_gateStart : gateStart.Start := ⟨rfl, fun _ => Int.le_of_eq rfl⟩

/-- The session's token is presented to `revoke_token` and accepted. -/
def sessionAccepted : List GateEvent :=
  [.beginCaller (.access 0) true, .moveCaller 0, .moveCaller 0, .moveCaller 0,
    .world (.moveCheck 0 false), .world (.moveCheck 0 false), .moveCaller 0]

theorem refused_iff_access_session : ∃ g g₁ g₂ c',
    run (Gate.step sampleGate) gateStart sessionAccepted = some g ∧
      g.step sampleGate (.moveCaller 0) = some g₁ ∧
      run (Gate.step sampleGate) g₁
        [.beginCaller (.access 0) false, .moveCaller 1, .moveCaller 1] = some g₂ ∧
      g₂.callers[1]? = some c' ∧ (c'.pc.isRefused = true ↔ (Bearer.access 0).isAccess = true) := by
  refine ⟨_, _, _, _, rfl, rfl, rfl, rfl, ?_⟩
  exact Gate.refused_iff_access (c := ⟨.access 0, true, .accepted⟩) (e := tokenTtl) start_gateStart
    (show run (Gate.step sampleGate) gateStart sessionAccepted = some _ from rfl) rfl rfl
    (show Gate.step sampleGate _ (.moveCaller 0) = some _ from rfl)
    (show run (Gate.step sampleGate) _
      [.beginCaller (.access 0) false, .moveCaller 1, .moveCaller 1] = some _ from rfl)
    (show 1 ≤ 1 from le_rfl) rfl rfl rfl (by decide) (.inr rfl)

/-- An impersonation token is revoked, and the next request with it is let through. -/
theorem revoked_impersonation_let_through : ∃ g g₁ g₂ c c',
    run (Gate.step sampleGate) gateStart
      [.beginCaller (.text "signed") true, .moveCaller 0, .moveCaller 0] = some g ∧
      g.callers[0]? = some c ∧ c.pc = .accepted ∧ g.step sampleGate (.moveCaller 0) = some g₁ ∧
      g₁.isRevoked (.text "signed") = true ∧
      run (Gate.step sampleGate) g₁
        [.beginCaller (.text "signed") false, .moveCaller 1, .moveCaller 1] = some g₂ ∧
      g₁.Expires sampleGate (ofSeconds 900) (.text "signed") ∧ g₂.clock < ofSeconds 900 ∧
      g₂.callers[1]? = some c' ∧ c'.token = .text "signed" ∧ c'.pc = .accepted :=
  ⟨_, _, _, _, _, rfl, rfl, rfl, rfl, rfl, rfl, ⟨_, rfl, rfl⟩, by decide, rfl, rfl, rfl⟩

end ApexChainx.Auth
