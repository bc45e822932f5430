import Mathlib.Order.Nat
import ApexChainx.Auth.Sessions

/-!
# Presenting a refresh token again

A refresh deletes the session of the token it rotates, so a later request that presents the same token
finds no session and stops at its first statement: the reuse check, which compares the session's
sequence with the family's, is not reached, and the family stays as it was. Only a request that had
found the session before it was deleted gets as far as the check, and two that pass it and read the
session again before either deletes it both rotate the token.

The proofs rest on one description of what a statement can do to the tables, `Evolves`: a session is
deleted, migrated or new, and a family is deleted, incremented, compromised or new.
-/

namespace ApexChainx.Auth

open ApexChainx.Lib

variable {cfg : AuthSettings} {now : ℤ} {t t' : Tables}

/-! ## What a statement does to the tables -/

/-- Every token and family id was drawn, and a session's two tokens together. -/
structure Numbered (t : Tables) : Prop where
  sessions : ∀ r ∈ t.sessions, r.accessToken = r.refreshToken ∧ r.refreshToken < t.nextToken
  families : ∀ g ∈ t.families, g.familyId < t.nextFamily

/-- The session row is that of an old session, or bears newly drawn tokens. -/
def SessionFrom (t t' : Tables) (r : SessionRow) : Prop :=
  (∃ r₀ ∈ t.sessions, r₀.accessToken = r.accessToken ∧ r₀.refreshToken = r.refreshToken) ∨
    (r.accessToken = r.refreshToken ∧ t.nextToken ≤ r.refreshToken ∧ r.refreshToken < t'.nextToken)

/-- The family row is that of an old family, compromised if that was, or bears a newly drawn id. -/
def FamilyFrom (t t' : Tables) (g : FamilyRow) : Prop :=
  (∃ g₀ ∈ t.families, g₀.familyId = g.familyId ∧ (g₀.compromised = true → g.compromised = true)) ∨
    (t.nextFamily ≤ g.familyId ∧ g.familyId < t'.nextFamily)

/-- What a statement can do to the tables. -/
structure Evolves (t t' : Tables) : Prop where
  nextToken_le : t.nextToken ≤ t'.nextToken
  nextFamily_le : t.nextFamily ≤ t'.nextFamily
  sessions : ∀ r ∈ t'.sessions, SessionFrom t t' r
  families : ∀ g ∈ t'.families, FamilyFrom t t' g

theorem SessionFrom.of_mem {r : SessionRow} (hr : r ∈ t.sessions) : SessionFrom t t' r :=
  .inl ⟨r, hr, rfl, rfl⟩

theorem FamilyFrom.of_mem {g : FamilyRow} (hg : g ∈ t.families) : FamilyFrom t t' g :=
  .inl ⟨g, hg, rfl, id⟩

/-- A statement that only removes sessions and families. -/
theorem Evolves.of_subset (hs : ∀ r ∈ t'.sessions, r ∈ t.sessions)
    (hf : ∀ g ∈ t'.families, g ∈ t.families) (ht : t'.nextToken = t.nextToken)
    (hn : t'.nextFamily = t.nextFamily) : Evolves t t' :=
  ⟨ht.ge, hn.ge, fun r hr => .of_mem (hs r hr), fun g hg => .of_mem (hf g hg)⟩

theorem Evolves.refl (t : Tables) : Evolves t t :=
  .of_subset (fun _ => id) (fun _ => id) rfl rfl

theorem evolves_updateUser (t : Tables) (email : String) (g : UserRow → UserRow) :
    Evolves t (t.updateUser email g) :=
  .of_subset (fun _ => id) (fun _ => id) rfl rfl

theorem evolves_deleteSessions (t : Tables) (p : SessionRow → Bool) :
    Evolves t (t.deleteSessions p) :=
  .of_subset (fun _ hr => (List.mem_filter.mp hr).1) (fun _ => id) rfl rfl

theorem evolves_deleteFamilies (t : Tables) (ids : List ℕ) : Evolves t (t.deleteFamilies ids) :=
  .of_subset (fun _ => id) (fun _ hg => (List.mem_filter.mp hg).1) rfl rfl

theorem evolves_insertFamily (t : Tables) (email : String) : Evolves t (t.insertFamily email) := by
  refine ⟨le_rfl, Nat.le_succ _, fun r hr => .of_mem hr, ?_⟩
  intro g hg
  rcases List.mem_append.mp hg with hold | hnew
  · exact .of_mem hold
  · rw [List.mem_singleton.mp hnew]
    exact .inr ⟨le_rfl, Nat.lt_succ_self _⟩

theorem evolves_insertSession (t : Tables) (email : String) (familyId sequence : ℕ) :
    Evolves t (t.insertSession email familyId sequence) := by
  refine ⟨Nat.le_succ _, le_rfl, ?_, fun g hg => .of_mem hg⟩
  intro r hr
  rcases List.mem_append.mp hr with hold | hnew
  · exact .of_mem hold
  · rw [List.mem_singleton.mp hnew]
    exact .inr ⟨rfl, le_rfl, Nat.lt_succ_self _⟩

theorem evolves_migrateSession (t : Tables) (accessToken familyId : ℕ) :
    Evolves t (t.migrateSession accessToken familyId) := by
  refine ⟨le_rfl, le_rfl, ?_, fun g hg => .of_mem hg⟩
  intro r hr
  rcases mem_updateKey hr with hold | ⟨r₀, hr₀, -, rfl⟩
  · exact .of_mem hold
  · exact .inl ⟨r₀, hr₀, rfl, rfl⟩

theorem evolves_updateFamily (t : Tables) (familyId : ℕ) {g : FamilyRow → FamilyRow}
    (hid : ∀ f, (g f).familyId = f.familyId)
    (hcomp : ∀ f, f.compromised = true → (g f).compromised = true) :
    Evolves t (t.updateFamily familyId g) := by
  refine ⟨le_rfl, le_rfl, fun r hr => .of_mem hr, ?_⟩
  intro f hf
  rcases mem_updateKey hf with hold | ⟨f₀, hf₀, -, rfl⟩
  · exact .of_mem hold
  · exact .inl ⟨f₀, hf₀, (hid f₀).symm, hcomp f₀⟩

theorem loginStep_evolves (pc : LoginPc) : Evolves t (loginStep cfg now t pc).1 := by
  cases pc with
  | countFailure user => exact evolves_updateUser ..
  | lockAccount email => exact evolves_updateUser ..
  | resetFailedAttempts user => exact evolves_updateUser ..
  | createFamily email => exact evolves_insertFamily ..
  | createSession email familyId =>
      unfold loginStep
      dsimp only
      split
      · exact .refl t
      · exact evolves_insertSession ..
  | _ =>
      unfold loginStep
      dsimp only
      repeat' split
      all_goals exact .refl t

theorem refreshStep_evolves (pc : RefreshPc) : Evolves t (refreshStep now t pc).1 := by
  cases pc with
  | createFamily old => exact evolves_insertFamily ..
  | deleteFamilySessions l accessTokens => exact evolves_deleteSessions ..
  | deleteOld l => exact evolves_deleteSessions ..
  | migrateSession old familyId =>
      unfold refreshStep
      dsimp only
      split
      · exact .refl t
      · exact .refl t
      · exact evolves_migrateSession ..
  | compromise l =>
      unfold refreshStep
      dsimp only
      split
      · exact .refl t
      · exact evolves_updateFamily t _ (fun _ => rfl) (fun _ _ => rfl)
  | increment l =>
      unfold refreshStep
      dsimp only
      split
      · exact .refl t
      · exact evolves_updateFamily t _ (fun _ => rfl) (fun _ => id)
  | createSession l =>
      unfold refreshStep
      dsimp only
      split
      · exact .refl t
      · exact evolves_insertSession ..
  | _ =>
      unfold refreshStep
      dsimp only
      repeat' split
      all_goals exact .refl t

theorem logoutStep_evolves (pc : LogoutPc) : Evolves t (logoutStep t pc).1 := by
  cases pc with
  | deleteSession token => exact evolves_deleteSessions ..
  | _ =>
      unfold logoutStep
      dsimp only
      split <;> exact .refl t

theorem logoutAllStep_evolves (pc : LogoutAllPc) : Evolves t (logoutAllStep t pc).1 := by
  cases pc with
  | deleteSessions email => exact evolves_deleteSessions ..
  | selectFamilies email count => exact .refl t
  | deleteFamilies ids count =>
      unfold logoutAllStep
      dsimp only
      split
      · exact .refl t
      · exact evolves_deleteFamilies ..

theorem advance_evolves {pc pc' : Pc} (h : advance cfg now t pc = some (t', pc')) : Evolves t t' := by
  cases pc with
  | returned out => cases h
  | login pc =>
      simp only [advance, Option.some.injEq, Prod.mk.injEq] at h
      exact h.1 ▸ loginStep_evolves pc
  | refresh pc =>
      simp only [advance, Option.some.injEq, Prod.mk.injEq] at h
      exact h.1 ▸ refreshStep_evolves pc
  | logout pc =>
      simp only [advance, Option.some.injEq, Prod.mk.injEq] at h
      exact h.1 ▸ logoutStep_evolves pc
  | logoutAll pc =>
      simp only [advance, Option.some.injEq, Prod.mk.injEq] at h
      exact h.1 ▸ logoutAllStep_evolves pc

theorem Evolves.numbered (h : Evolves t t') (ht : Numbered t) : Numbered t' := by
  refine ⟨?_, ?_⟩
  · intro r hr
    rcases h.sessions r hr with ⟨r₀, hr₀, hacc, href⟩ | ⟨heq, -, hlt⟩
    · obtain ⟨heq, hlt⟩ := ht.sessions r₀ hr₀
      exact ⟨by rw [← hacc, ← href, heq], href ▸ lt_of_lt_of_le hlt h.nextToken_le⟩
    · exact ⟨heq, hlt⟩
  · intro g hg
    rcases h.families g hg with ⟨g₀, hg₀, hid, -⟩ | ⟨-, hlt⟩
    · exact hid ▸ lt_of_lt_of_le (ht.families g₀ hg₀) h.nextFamily_le
    · exact hlt

/-! ## Tokens whose session is gone -/

/-- The token was drawn and no session bears it any more. -/
def Gone (t : Tables) (token : ℕ) : Prop :=
  token < t.nextToken ∧ ∀ r ∈ t.sessions, r.refreshToken ≠ token

/-- A session that was in the table at some time. -/
def Held (t : Tables) (old : SessionRow) : Prop :=
  old.accessToken = old.refreshToken ∧ old.refreshToken < t.nextToken

theorem Evolves.gone (h : Evolves t t') {token : ℕ} (hg : Gone t token) : Gone t' token := by
  refine ⟨lt_of_lt_of_le hg.1 h.nextToken_le, ?_⟩
  intro r hr
  rcases h.sessions r hr with ⟨r₀, hr₀, -, href⟩ | ⟨-, hle, -⟩
  · exact href ▸ hg.2 r₀ hr₀
  · exact Nat.ne_of_gt (lt_of_lt_of_le hg.1 hle)

theorem Evolves.held (h : Evolves t t') {old : SessionRow} (ho : Held t old) : Held t' old :=
  ⟨ho.1, lt_of_lt_of_le ho.2 h.nextToken_le⟩

/-- Without a session under the access token there is none under the refresh token drawn with it. -/
theorem gone_of_getSession_none {old : SessionRow} (ht : Numbered t) (ho : Held t old)
    (h : t.getSession old.accessToken = none) : Gone t old.refreshToken := by
  refine ⟨ho.2, ?_⟩
  intro r hr href
  have hacc : r.accessToken = old.accessToken := by
    rw [(ht.sessions r hr).1, href, ho.1]
  exact List.find?_eq_none.mp h r hr (by simp [hacc])

theorem gone_deleteSessions {old : SessionRow} (ht : Numbered t) (ho : Held t old) :
    Gone (t.deleteSessions (·.accessToken = old.accessToken)) old.refreshToken := by
  refine ⟨ho.2, ?_⟩
  intro r hr href
  obtain ⟨hmem, hne⟩ := List.mem_filter.mp hr
  have hacc : r.accessToken = old.accessToken := by
    rw [(ht.sessions r hmem).1, href, ho.1]
  simp [hacc] at hne

/-- What a refresh knows of the session of its token: it was in the table, and from the delete on it is
gone. Until the increment it also knows that the family was in the table. -/
def RefreshPc.Ok (t : Tables) : RefreshPc → Prop
  | .findSession _ => True
  | .checkLock old | .createFamily old => Held t old
  | .refreshNewFamily old _ | .migrateSession old _ | .getFamily old _ _ => Held t old
  | .getUser old family _ => Held t old ∧ family.familyId < t.nextFamily
  | .reloadSequence l | .findIncremented l => Held t l.old ∧ l.family.familyId < t.nextFamily
  | .findCompromised l | .compromise l | .refreshCompromised l => Held t l.old
  | .selectFamilySessions l | .deleteFamilySessions l _ => Held t l.old
  | .increment l | .refreshIncremented l => Held t l.old
  | .reloadAccessToken l | .findOld l | .deleteOld l => Held t l.old
  | .reloadFamily l | .createSession l | .refreshSession l _ => Gone t l.old.refreshToken

theorem RefreshPc.Ok.evolves {pc : RefreshPc} (h : Evolves t t') (hpc : pc.Ok t) : pc.Ok t' := by
  cases pc with
  | findSession token => trivial
  | reloadFamily l => exact h.gone hpc
  | createSession l => exact h.gone hpc
  | refreshSession l token => exact h.gone hpc
  | getUser old family migrated => exact ⟨h.held hpc.1, lt_of_lt_of_le hpc.2 h.nextFamily_le⟩
  | reloadSequence l => exact ⟨h.held hpc.1, lt_of_lt_of_le hpc.2 h.nextFamily_le⟩
  | findIncremented l => exact ⟨h.held hpc.1, lt_of_lt_of_le hpc.2 h.nextFamily_le⟩
  | _ => exact h.held hpc

theorem reuseCheck_ok {l : Loaded} (h : Held t l.old) (hf : l.family.familyId < t.nextFamily) :
    (reuseCheck l).Ok t := by
  unfold reuseCheck
  split
  · exact h
  · exact ⟨h, hf⟩

theorem withUser_eq_goto {l : Loaded} {next pc : RefreshPc} (h : withUser l next = .goto pc) :
    pc = next := by
  unfold withUser at h
  split at h
  · cases h
  · exact (Next.goto.inj h).symm

/-- A statement of a refresh keeps what the refresh knows of its session. -/
theorem refreshStep_ok {pc pc' : RefreshPc} (ht : Numbered t) (hpc : pc.Ok t)
    (h : (refreshStep now t pc).2 = .goto pc') : pc'.Ok (refreshStep now t pc).1 := by
  have hev : Evolves t (refreshStep now t pc).1 := refreshStep_evolves pc
  cases pc with
  | deleteOld l =>
      rw [withUser_eq_goto h]
      exact gone_deleteSessions ht hpc
  | findSession token =>
      refine RefreshPc.Ok.evolves hev ?_
      simp only [refreshStep] at h
      split at h
      · cases h
      · rename_i old hold
        obtain rfl := Next.goto.inj h
        exact ht.sessions old (List.mem_of_find?_eq_some hold)
  | getUser old family migrated =>
      refine RefreshPc.Ok.evolves hev ?_
      simp only [refreshStep] at h
      split at h
      · cases h
      · split at h
        · obtain rfl := Next.goto.inj h
          exact hpc
        · obtain rfl := Next.goto.inj h
          exact reuseCheck_ok hpc.1 hpc.2
  | reloadSequence l =>
      refine RefreshPc.Ok.evolves hev ?_
      simp only [refreshStep] at h
      split at h
      · cases h
      · obtain rfl := Next.goto.inj h
        exact reuseCheck_ok hpc.1 hpc.2
  | getFamily old familyId migrated =>
      refine RefreshPc.Ok.evolves hev ?_
      simp only [refreshStep] at h
      split at h
      · cases h
      · rename_i family hfamily
        obtain rfl := Next.goto.inj h
        exact ⟨hpc, ht.families family (List.mem_of_find?_eq_some hfamily)⟩
  | findIncremented l =>
      refine RefreshPc.Ok.evolves hev ?_
      simp only [refreshStep] at h
      split at h
      · obtain rfl := Next.goto.inj h
        exact hpc.1
      · obtain rfl := Next.goto.inj h
        exact hpc.1
  | findOld l =>
      refine RefreshPc.Ok.evolves hev ?_
      simp only [refreshStep] at h
      split at h
      · rename_i hnone
        rw [withUser_eq_goto h]
        exact gone_of_getSession_none ht hpc hnone
      · obtain rfl := Next.goto.inj h
        exact hpc
  | _ =>
      -- the statement goes on with the same session, or the request ends
      refine RefreshPc.Ok.evolves hev ?_
      simp only [refreshStep] at h
      repeat' split at h
      all_goals
        first
          | (obtain rfl := Next.goto.inj h
             exact hpc)
          | cases h

/-- No refresh answers: its last statement asks the user for a `user_id`. -/
theorem refreshStep_done {pc : RefreshPc} {out : Outcome Reply}
    (h : (refreshStep now t pc).2 = .done out) : ∃ e, out = .error e := by
  have haudit : ∀ (user : Option UserRow) (detail : String),
      ∃ e, auditAndRaise user detail = .error e := by
    intro user detail
    unfold auditAndRaise
    split <;> exact ⟨_, rfl⟩
  have huser : ∀ (l : Loaded) (next : RefreshPc), withUser l next = .done out →
      ∃ e, out = .error e := by
    intro l next hl
    unfold withUser at hl
    split at hl
    · exact ⟨_, (Next.done.inj hl).symm⟩
    · cases hl
  cases pc with
  | deleteOld l => exact huser l _ h
  | _ =>
      simp only [refreshStep] at h
      repeat' split at h
      all_goals
        first
          | exact huser _ _ h
          | (obtain rfl := Next.done.inj h
             first
               | exact ⟨_, rfl⟩
               | exact haudit _ _)
          | cases h

/-- A request inside a refresh got there by a statement of that refresh. -/
theorem advance_eq_refresh {pc : Pc} {pc' : RefreshPc}
    (h : advance cfg now t pc = some (t', .refresh pc')) :
    ∃ p, pc = .refresh p ∧ t' = (refreshStep now t p).1 ∧ (refreshStep now t p).2 = .goto pc' := by
  cases pc with
  | returned out => cases h
  | refresh p =>
      simp only [advance, Option.some.injEq, Prod.mk.injEq] at h
      refine ⟨p, rfl, h.1.symm, ?_⟩
      cases hnext : (refreshStep now t p).2 with
      | goto q =>
          rw [hnext] at h
          exact congrArg Next.goto (Pc.refresh.inj h.2)
      | done out =>
          rw [hnext] at h
          cases h.2
  | login p =>
      simp only [advance, Option.some.injEq, Prod.mk.injEq] at h
      cases hnext : (loginStep cfg now t p).2 <;> (rw [hnext] at h; cases h.2)
  | logout p =>
      simp only [advance, Option.some.injEq, Prod.mk.injEq] at h
      cases hnext : (logoutStep t p).2 <;> (rw [hnext] at h; cases h.2)
  | logoutAll p =>
      simp only [advance, Option.some.injEq, Prod.mk.injEq] at h
      cases hnext : (logoutAllStep t p).2 <;> (rw [hnext] at h; cases h.2)

/-- The rotations a request has recorded are the one it has just committed and those before. -/
theorem mem_rotated_moveTo {c : Call} {pc : Pc} {p : ℕ × ℕ} (h : (c.moveTo pc).rotated = some p) :
    (∃ l token, pc = .refresh (.refreshSession l token) ∧
      p = (l.old.refreshToken, l.family.familyId)) ∨ c.rotated = some p := by
  simp only [Call.moveTo, Option.or_eq_some_iff] at h
  rcases h with hnew | ⟨-, hold⟩
  · unfold Pc.rotation at hnew
    split at hnew
    · rename_i l token
      exact .inl ⟨l, token, rfl, (Option.some.inj hnew).symm⟩
    · cases hnew
  · exact .inr hold

/-! ## The invariant -/

/-- The request is a refresh that is still running or has failed. -/
def Pc.Refreshing (pc : Pc) : Prop := (∃ p, pc = .refresh p) ∨ ∃ e, pc = .returned (.error e)

/-- What a request knows of its session, that the tokens it rotated are gone, and that it has not
answered if it is a refresh. -/
structure CallOk (t : Tables) (c : Call) : Prop where
  pc : ∀ p, c.pc = .refresh p → p.Ok t
  rotated : ∀ p, c.rotated = some p → Gone t p.1
  refreshing : ∀ token, c.request = .refresh token → c.pc.Refreshing

structure Inv (s : Sys) : Prop where
  numbered : Numbered s.tables
  calls : ∀ c ∈ s.calls, CallOk s.tables c

theorem inv_init (users : List UserRow) (legacy : List String) : Inv (Sys.init users legacy) := by
  refine ⟨⟨?_, ?_⟩, ?_⟩
  · intro r hr
    obtain ⟨i, hi, rfl⟩ := List.mem_mapIdx.mp hr
    exact ⟨rfl, hi⟩
  · intro g hg
    simp [Sys.init] at hg
  · intro c hc
    simp [Sys.init] at hc

theorem CallOk.evolves {c : Call} (h : Evolves t t') (hc : CallOk t c) : CallOk t' c :=
  ⟨fun p hp => (hc.pc p hp).evolves h, fun p hp => h.gone (hc.rotated p hp), hc.refreshing⟩

/-- The first statement of a refresh is its lookup. -/
theorem start_eq_refresh {r : Request} {p : RefreshPc} (h : r.start = .refresh p) :
    ∃ token, r = .refresh token ∧ p = .findSession token := by
  cases r with
  | refresh token => exact ⟨token, rfl, (Pc.refresh.inj h).symm⟩
  | login email password => cases h
  | logout token => cases h
  | logoutAll email => cases h

theorem callOk_start (t : Tables) (r : Request) : CallOk t (Call.start r) := by
  refine ⟨?_, ?_, ?_⟩
  · intro p hp
    obtain ⟨token, -, rfl⟩ := start_eq_refresh hp
    trivial
  · intro p hp
    cases hp
  · rintro token (rfl : r = .refresh token)
    exact .inl ⟨_, rfl⟩

theorem CallOk.advance {c : Call} {pc : Pc} (ht : Numbered t) (hc : CallOk t c)
    (h : advance cfg now t c.pc = some (t', pc)) : CallOk t' (c.moveTo pc) := by
  have hev := advance_evolves h
  have hpc : ∀ p, pc = .refresh p → p.Ok t' := by
    rintro p rfl
    obtain ⟨q, hq, rfl, hnext⟩ := advance_eq_refresh h
    exact refreshStep_ok ht (hc.pc q hq) hnext
  refine ⟨hpc, ?_, ?_⟩
  · intro p hp
    rcases mem_rotated_moveTo hp with ⟨l, token, hpc', rfl⟩ | hold
    · exact hpc _ hpc'
    · exact hev.gone (hc.rotated p hold)
  · intro token hr
    rcases hc.refreshing token hr with ⟨q, hq⟩ | ⟨e, he⟩
    · rw [hq] at h
      simp only [Auth.advance, Option.some.injEq, Prod.mk.injEq] at h
      cases hnext : (refreshStep now t q).2 with
      | goto p =>
          rw [hnext] at h
          exact .inl ⟨p, h.2.symm⟩
      | done out =>
          rw [hnext] at h
          obtain ⟨e, rfl⟩ := refreshStep_done hnext
          exact .inr ⟨e, h.2.symm⟩
    · rw [he] at h
      cases h

/-- What a step is: a request begins, or one executes a statement. -/
theorem step_cases {s s' : Sys} {a : Action} (h : step cfg s a = some s') :
    (∃ r, a = .begin r ∧ s' = { s with calls := s.calls ++ [Call.start r] }) ∨
      ∃ i now c t' pc, a = .move i now ∧ s.calls[i]? = some c ∧
        advance cfg now s.tables c.pc = some (t', pc) ∧ s' = ⟨t', s.calls.set i (c.moveTo pc)⟩ := by
  cases a with
  | begin r => exact .inl ⟨r, rfl, (Option.some.inj h).symm⟩
  | move i now =>
      simp only [step] at h
      split at h
      · cases h
      · rename_i c hc
        obtain ⟨⟨t', pc⟩, hadv, rfl⟩ := Option.map_eq_some_iff.mp h
        exact .inr ⟨i, now, c, t', pc, rfl, hc, hadv, rfl⟩

theorem Inv.step {s s' : Sys} {a : Action} (h : Inv s) (hstep : step cfg s a = some s') : Inv s' := by
  rcases step_cases hstep with ⟨r, -, rfl⟩ | ⟨i, now, c, t', pc, -, hc, hadv, rfl⟩
  · refine ⟨h.numbered, ?_⟩
    intro c hc
    rcases List.mem_append.mp hc with hold | hnew
    · exact h.calls c hold
    · rw [List.mem_singleton.mp hnew]
      exact callOk_start s.tables r
  · have hev := advance_evolves hadv
    have hcall := h.calls c (List.mem_of_getElem? hc)
    refine ⟨hev.numbered h.numbered, ?_⟩
    exact forall_mem_set (fun d hd => (h.calls d hd).evolves hev) (hcall.advance h.numbered hadv)

/-! ## Refreshes of one token -/

/-- The family was drawn and its row is no longer there. -/
def Lost (t : Tables) (f : ℕ) : Prop := f < t.nextFamily ∧ ∀ g ∈ t.families, g.familyId ≠ f

theorem Evolves.lost (h : Evolves t t') {f : ℕ} (hf : Lost t f) : Lost t' f := by
  refine ⟨lt_of_lt_of_le hf.1 h.nextFamily_le, ?_⟩
  intro g hg
  rcases h.families g hg with ⟨g₀, hg₀, hid, -⟩ | ⟨hle, -⟩
  · exact hid ▸ hf.2 g₀ hg₀
  · exact Nat.ne_of_gt (lt_of_lt_of_le hf.1 hle)

theorem getFamily_spec {f : ℕ} {g : FamilyRow} (h : t.getFamily f = some g) :
    g ∈ t.families ∧ g.familyId = f :=
  ⟨List.mem_of_find?_eq_some h, by simpa using List.find?_some h⟩

theorem lost_of_getFamily_none {f : ℕ} (hf : f < t.nextFamily) (h : t.getFamily f = none) :
    Lost t f := by
  refine ⟨hf, ?_⟩
  intro g hg hid
  exact List.find?_eq_none.mp h g hg (by simp [hid])

theorem not_lost_of_getFamily {f : ℕ} {g : FamilyRow} (h : t.getFamily f = some g) : ¬ Lost t f := by
  intro hlost
  obtain ⟨hmem, hid⟩ := getFamily_spec h
  exact hlost.2 g hmem hid

/-- The token and the family of a refresh that is past the increment and has not committed the new
session. -/
def RefreshPc.replacing : RefreshPc → Option (ℕ × ℕ)
  | .findOld l | .deleteOld l | .reloadFamily l | .createSession l =>
      some (l.old.refreshToken, l.family.familyId)
  | _ => none

/-- The token whose session a request is about to read again, after the increment. -/
def Pc.rereads : Pc → Option ℕ
  | .refresh (.reloadAccessToken l) => some l.old.refreshToken
  | _ => none

/-- The token whose session a request has yet to delete, after it has read it again. -/
def Pc.deletes : Pc → Option ℕ
  | .refresh (.findOld l) => some l.old.refreshToken
  | .refresh (.deleteOld l) => some l.old.refreshToken
  | _ => none

/-- The request has rotated the token, or is replacing its session in a family that is still there. -/
def Call.Has (t : Tables) (token : ℕ) (c : Call) : Prop :=
  (∃ p f, c.pc = .refresh p ∧ p.replacing = some (token, f) ∧ ¬ Lost t f) ∨
    ∃ f, c.rotated = some (token, f)

/-- A refresh that replaces a session was doing so before, or has just read it again. -/
theorem refreshStep_replacing {pc pc' : RefreshPc} {token f : ℕ} (ht : Numbered t) (hpc : pc.Ok t)
    (h : (refreshStep now t pc).2 = .goto pc') (hrep : pc'.replacing = some (token, f))
    (hf : ¬ Lost t f) :
    pc.replacing = some (token, f) ∨
      ((Pc.refresh pc).rereads = some token ∧ ∃ r ∈ t.sessions, r.refreshToken = token) := by
  cases pc with
  | findIncremented l =>
      simp only [refreshStep] at h
      split at h
      · -- without a family row the refresh skips the reread, but its insert will fail
        rename_i hnone
        obtain rfl := Next.goto.inj h
        obtain ⟨-, rfl⟩ := Prod.mk.inj (Option.some.inj hrep)
        exact absurd (lost_of_getFamily_none hpc.2 hnone) hf
      · obtain rfl := Next.goto.inj h
        cases hrep
  | reloadAccessToken l =>
      simp only [refreshStep] at h
      split at h
      · cases h
      · rename_i r hr
        obtain rfl := Next.goto.inj h
        obtain ⟨rfl, -⟩ := Prod.mk.inj (Option.some.inj hrep)
        have hmem := List.mem_of_find?_eq_some hr
        have hacc : r.accessToken = l.old.accessToken := by simpa using List.find?_some hr
        refine .inr ⟨rfl, r, hmem, ?_⟩
        rw [← (ht.sessions r hmem).1, hacc, hpc.1]
  | findOld l =>
      simp only [refreshStep] at h
      split at h
      · rw [withUser_eq_goto h] at hrep
        exact .inl hrep
      · obtain rfl := Next.goto.inj h
        exact .inl hrep
  | deleteOld l =>
      rw [withUser_eq_goto h] at hrep
      exact .inl hrep
  | reloadFamily l =>
      simp only [refreshStep] at h
      split at h
      · cases h
      · rename_i family hfamily
        obtain rfl := Next.goto.inj h
        rw [← hrep]
        exact .inl (by simp [RefreshPc.replacing, (getFamily_spec hfamily).2])
  | _ =>
      -- the request does not get to the delete
      simp only [refreshStep, reuseCheck] at h
      repeat' split at h
      all_goals
        first
          | (obtain rfl := Next.goto.inj h
             cases hrep)
          | cases h

/-- The statement that commits the new session is the insert, into a family that is there. -/
theorem refreshStep_refreshSession {pc : RefreshPc} {l : Loaded} {n : ℕ}
    (h : (refreshStep now t pc).2 = .goto (.refreshSession l n)) :
    pc = .createSession l ∧ ¬ Lost t l.family.familyId := by
  cases pc with
  | createSession l₀ =>
      simp only [refreshStep] at h
      split at h
      · cases h
      · rename_i family hfamily
        obtain ⟨rfl, -⟩ := RefreshPc.refreshSession.inj (Next.goto.inj h)
        exact ⟨rfl, not_lost_of_getFamily hfamily⟩
  | deleteOld l₀ => cases withUser_eq_goto h
  | findOld l₀ =>
      simp only [refreshStep] at h
      split at h
      · cases withUser_eq_goto h
      · cases h
  | _ =>
      simp only [refreshStep, reuseCheck] at h
      repeat' split at h
      all_goals cases h

/-- What a statement adds to the tokens a request has: the one whose session it has just read again. -/
theorem has_moveTo {c : Call} {pc : Pc} {token : ℕ} (ht : Numbered t) (hc : CallOk t c)
    (h : advance cfg now t c.pc = some (t', pc)) (hhas : (c.moveTo pc).Has t' token) :
    c.Has t token ∨ (c.pc.rereads = some token ∧ ∃ r ∈ t.sessions, r.refreshToken = token) := by
  rcases hhas with ⟨p, f, rfl, hrep, hf⟩ | ⟨f, hrot⟩
  · obtain ⟨q, hq, -, hnext⟩ := advance_eq_refresh h
    have hf' : ¬ Lost t f := fun hlost => hf ((advance_evolves h).lost hlost)
    rcases refreshStep_replacing ht (hc.pc q hq) hnext hrep hf' with hold | hnew
    · exact .inl (.inl ⟨q, f, hq, hold, hf'⟩)
    · rw [hq]
      exact .inr hnew
  · rcases mem_rotated_moveTo hrot with ⟨l, n, rfl, heq⟩ | hold
    · obtain ⟨q, hq, -, hnext⟩ := advance_eq_refresh h
      obtain ⟨rfl, hf⟩ := refreshStep_refreshSession hnext
      obtain ⟨rfl, -⟩ := Prod.mk.inj heq
      exact .inl (.inl ⟨_, _, hq, rfl, hf⟩)
    · exact .inl (.inr ⟨f, hold⟩)

theorem Call.Has.evolves {c : Call} {token : ℕ} (h : Evolves t t') (hc : c.Has t' token) :
    c.Has t token := by
  rcases hc with ⟨p, f, hp, hrep, hf⟩ | hrot
  · exact .inl ⟨p, f, hp, hrep, fun hlost => hf (h.lost hlost)⟩
  · exact .inr hrot

/-- While the session of a token that a request has is in the table, that request has yet to delete
it. -/
theorem Call.Has.deletes {c : Call} {token : ℕ} {r : SessionRow} (hok : CallOk t c)
    (hc : c.Has t token) (hr : r ∈ t.sessions) (htoken : r.refreshToken = token) :
    c.pc.deletes = some token := by
  rcases hc with ⟨p, f, hp, hrep, -⟩ | ⟨f, hrot⟩
  · have hpc := hok.pc p hp
    rw [hp]
    cases p with
    | findOld l =>
        obtain ⟨rfl, -⟩ := Prod.mk.inj (Option.some.inj hrep)
        rfl
    | deleteOld l =>
        obtain ⟨rfl, -⟩ := Prod.mk.inj (Option.some.inj hrep)
        rfl
    | reloadFamily l =>
        obtain ⟨rfl, -⟩ := Prod.mk.inj (Option.some.inj hrep)
        exact absurd htoken (hpc.2 r hr)
    | createSession l =>
        obtain ⟨rfl, -⟩ := Prod.mk.inj (Option.some.inj hrep)
        exact absurd htoken (hpc.2 r hr)
    | _ => cases hrep
  · exact absurd htoken ((hok.rotated _ hrot).2 r hr)

/-- A refresh that reads its session again does so while no other has yet to delete that session. -/
def RereadsAlone (s : Sys) : Action → Prop
  | .begin _ => True
  | .move i _ =>
      ∀ c ∈ s.calls[i]?, ∀ token ∈ c.pc.rereads, ∀ j < s.calls.length, j ≠ i →
        ∀ d ∈ s.calls[j]?, d.pc.deletes ≠ some token

instance (s : Sys) : (a : Action) → Decidable (RereadsAlone s a)
  | .begin _ => inferInstanceAs (Decidable True)
  | .move i _ =>
      inferInstanceAs (Decidable (∀ c ∈ s.calls[i]?, ∀ token ∈ c.pc.rereads,
        ∀ j < s.calls.length, j ≠ i → ∀ d ∈ s.calls[j]?, d.pc.deletes ≠ some token))

/-- No two requests have the same token. -/
def Sys.Apart (s : Sys) : Prop :=
  ∀ (i j : ℕ) (c d : Call) (token : ℕ), s.calls[i]? = some c → s.calls[j]? = some d →
    c.Has s.tables token → d.Has s.tables token → i = j

theorem not_has_start (t : Tables) (r : Request) (token : ℕ) : ¬ (Call.start r).Has t token := by
  rintro (⟨p, f, hp, hrep, -⟩ | ⟨f, h⟩)
  · obtain ⟨token', -, rfl⟩ := start_eq_refresh hp
    cases hrep
  · cases h

theorem Sys.Apart.step {s s' : Sys} {a : Action} (hs : Inv s) (h : s.Apart)
    (halone : RereadsAlone s a) (hstep : step cfg s a = some s') : s'.Apart := by
  rcases step_cases hstep with ⟨r, -, rfl⟩ | ⟨i, now, c, t', pc, rfl, hc, hadv, rfl⟩
  · intro i j c d token hi hj hci hdj
    rcases getElem?_insert hi with hi | ⟨-, rfl⟩
    · rcases getElem?_insert hj with hj | ⟨-, rfl⟩
      · exact h i j c d token hi hj hci hdj
      · exact absurd hdj (not_has_start s.tables r token)
    · exact absurd hci (not_has_start s.tables r token)
  · have hev := advance_evolves hadv
    have hcall := hs.calls c (List.mem_of_getElem? hc)
    -- no other request has a token that the one that moved has
    have hother : ∀ j d token, j ≠ i → s.calls[j]? = some d → (c.moveTo pc).Has t' token →
        ¬ d.Has t' token := by
      intro j d token hne hd hmoved hdtoken
      have hdtoken := hdtoken.evolves hev
      rcases has_moveTo hs.numbered hcall hadv hmoved with hold | ⟨hrereads, r, hr, hrtoken⟩
      · exact hne (h j i d c token hd hc hdtoken hold)
      · have hlt : j < s.calls.length := (List.getElem?_eq_some_iff.mp hd).1
        exact halone c hc token hrereads j hlt hne d hd
          (hdtoken.deletes (hs.calls d (List.mem_of_getElem? hd)) hr hrtoken)
    intro j k d e token hj hk hdtoken hetoken
    rcases getElem?_replace hj with ⟨hji, rfl⟩ | ⟨hji, hj'⟩
    · rcases getElem?_replace hk with ⟨hki, -⟩ | ⟨hki, hk'⟩
      · rw [hji, hki]
      · exact absurd hetoken (hother k e token hki hk' hdtoken)
    · rcases getElem?_replace hk with ⟨hki, rfl⟩ | ⟨hki, hk'⟩
      · exact absurd hdtoken (hother j d token hji hj' hetoken)
      · exact h j k d e token hj' hk' (hdtoken.evolves hev) (hetoken.evolves hev)

/-! ## Compromised families -/

/-- Where a refresh stands with regard to family `f`: it has not read it, has read it as compromised, or
is refreshing a session of another family. -/
def RefreshPc.Clear (f : ℕ) : RefreshPc → Prop
  | .findSession _ | .checkLock _ | .createFamily _ | .refreshNewFamily _ _ => True
  | .migrateSession _ _ | .getFamily _ _ _ => True
  | .getUser _ family _ => family.familyId = f → family.compromised = true
  | .reloadSequence l | .findCompromised l | .compromise l | .refreshCompromised l =>
      l.family.familyId ≠ f
  | .selectFamilySessions l | .deleteFamilySessions l _ => l.family.familyId ≠ f
  | .findIncremented l | .increment l | .refreshIncremented l => l.family.familyId ≠ f
  | .reloadAccessToken l | .findOld l | .deleteOld l => l.family.familyId ≠ f
  | .reloadFamily l | .createSession l | .refreshSession l _ => l.family.familyId ≠ f

/-- Family `f` was drawn, and its row, if it is still there, is marked. -/
def Marked (t : Tables) (f : ℕ) : Prop :=
  f < t.nextFamily ∧ ∀ g ∈ t.families, g.familyId = f → g.compromised = true

theorem Evolves.marked (h : Evolves t t') {f : ℕ} (hf : Marked t f) : Marked t' f := by
  refine ⟨lt_of_lt_of_le hf.1 h.nextFamily_le, ?_⟩
  intro g hg hid
  rcases h.families g hg with ⟨g₀, hg₀, hid₀, hcomp⟩ | ⟨hle, -⟩
  · exact hcomp (hf.2 g₀ hg₀ (hid₀.trans hid))
  · exact absurd hid (Nat.ne_of_gt (lt_of_lt_of_le hf.1 hle))

theorem reuseCheck_clear {f : ℕ} {l : Loaded} (h : l.family.familyId ≠ f) :
    (reuseCheck l).Clear f := by
  unfold reuseCheck
  split <;> exact h

/-- A refresh that has not passed the check of a compromised family does not pass it. -/
theorem refreshStep_clear {pc pc' : RefreshPc} {f : ℕ} (hf : Marked t f) (hpc : pc.Clear f)
    (h : (refreshStep now t pc).2 = .goto pc') : pc'.Clear f := by
  cases pc with
  | deleteOld l =>
      rw [withUser_eq_goto h]
      exact hpc
  | getFamily old familyId migrated =>
      simp only [refreshStep] at h
      split at h
      · cases h
      · rename_i family hfamily
        obtain rfl := Next.goto.inj h
        exact hf.2 family (getFamily_spec hfamily).1
  | getUser old family migrated =>
      simp only [refreshStep] at h
      split at h
      · cases h
      · rename_i hcomp
        -- the flag was read as false, so this is not the compromised family
        have hne : family.familyId ≠ f := fun hid => hcomp (hpc hid)
        split at h
        · obtain rfl := Next.goto.inj h
          exact hne
        · obtain rfl := Next.goto.inj h
          exact reuseCheck_clear hne
  | reloadSequence l =>
      simp only [refreshStep] at h
      split at h
      · cases h
      · obtain rfl := Next.goto.inj h
        exact reuseCheck_clear hpc
  | refreshIncremented l =>
      simp only [refreshStep] at h
      split at h
      · cases h
      · rename_i family hfamily
        obtain rfl := Next.goto.inj h
        show family.familyId ≠ f
        rw [(getFamily_spec hfamily).2]
        exact hpc
  | reloadFamily l =>
      simp only [refreshStep] at h
      split at h
      · cases h
      · rename_i family hfamily
        obtain rfl := Next.goto.inj h
        show family.familyId ≠ f
        rw [(getFamily_spec hfamily).2]
        exact hpc
  | findOld l =>
      simp only [refreshStep] at h
      split at h
      · rw [withUser_eq_goto h]
        exact hpc
      · obtain rfl := Next.goto.inj h
        exact hpc
  | _ =>
      simp only [refreshStep] at h
      repeat' split at h
      all_goals
        first
          | (obtain rfl := Next.goto.inj h
             exact hpc)
          | cases h

/-- The request neither is past the check of family `f` nor has rotated a token of it. -/
structure CallClear (f : ℕ) (c : Call) : Prop where
  pc : ∀ p, c.pc = .refresh p → p.Clear f
  rotated : ∀ p, c.rotated = some p → p.2 ≠ f

/-- Family `f` is marked, and the requests from the `n`-th on have nothing to do with it. -/
structure Dead (f n : ℕ) (s : Sys) : Prop where
  marked : Marked s.tables f
  calls : ∀ c ∈ s.calls.drop n, CallClear f c

theorem callClear_start (f : ℕ) (r : Request) : CallClear f (Call.start r) := by
  refine ⟨?_, ?_⟩
  · intro p hp
    obtain ⟨token, -, rfl⟩ := start_eq_refresh hp
    trivial
  · intro p hp
    cases hp

theorem CallClear.advance {f : ℕ} {c : Call} {pc : Pc} (hf : Marked t f) (hc : CallClear f c)
    (h : advance cfg now t c.pc = some (t', pc)) : CallClear f (c.moveTo pc) := by
  have hpc : ∀ p, pc = .refresh p → p.Clear f := by
    rintro p rfl
    obtain ⟨q, hq, -, hnext⟩ := advance_eq_refresh h
    exact refreshStep_clear hf (hc.pc q hq) hnext
  refine ⟨hpc, ?_⟩
  intro p hp
  rcases mem_rotated_moveTo hp with ⟨l, token, hpc', rfl⟩ | hold
  · exact hpc _ hpc'
  · exact hc.rotated p hold

theorem Dead.step {f n : ℕ} {s s' : Sys} {a : Action} (h : Dead f n s)
    (hstep : step cfg s a = some s') : Dead f n s' := by
  rcases step_cases hstep with ⟨r, -, rfl⟩ | ⟨i, now, c, t', pc, -, hc, hadv, rfl⟩
  · refine ⟨h.marked, ?_⟩
    intro c hc
    rw [List.drop_append, List.mem_append] at hc
    rcases hc with hold | hnew
    · exact h.calls c hold
    · rw [List.mem_singleton.mp (List.mem_of_mem_drop hnew)]
      exact callClear_start f r
  · refine ⟨(advance_evolves hadv).marked h.marked, ?_⟩
    show ∀ d ∈ (s.calls.set i (c.moveTo pc)).drop n, CallClear f d
    rw [List.drop_set]
    split
    · exact h.calls
    · -- the request that moved began at `n` or later
      rename_i hi
      have hmem : c ∈ s.calls.drop n := by
        refine List.mem_of_getElem? (i := i - n) ?_
        rw [List.getElem?_drop, Nat.add_sub_cancel' (Nat.le_of_not_lt hi)]
        exact hc
      exact forall_mem_set h.calls ((h.calls c hmem).advance h.marked hadv)

/-! ## Reuse -/

/-- The request has exchanged the token: it answered with a new session for it. -/
def Call.exchanged (token : ℕ) (c : Call) : Bool :=
  c.request = .refresh token && match c.pc with
    | .returned out => out.isOk
    | _ => false

/-- Some request has rotated the token, a token of family `f`. -/
def Sys.Rotated (s : Sys) (token f : ℕ) : Prop := ∃ c ∈ s.calls, c.rotated = some (token, f)

instance (s : Sys) (token f : ℕ) : Decidable (s.Rotated token f) :=
  inferInstanceAs (Decidable (∃ c ∈ s.calls, c.rotated = some (token, f)))

/-- The `i`-th request is a refresh about to look up the token presented to it. -/
def Sys.Presents (s : Sys) (i token : ℕ) : Prop :=
  (s.calls[i]?).map Call.pc = some (.refresh (.findSession token))

instance (s : Sys) (i token : ℕ) : Decidable (s.Presents i token) :=
  inferInstanceAs (Decidable (_ = _))

/-- The `i`-th request has failed. -/
def Sys.Failed (s : Sys) (i : ℕ) : Prop :=
  ∃ e, (s.calls[i]?).map Call.pc = some (.returned (.error e))

/-- The family is in the table, marked compromised. -/
def Sys.Compromised (s : Sys) (f : ℕ) : Prop :=
  (∃ g ∈ s.tables.families, g.familyId = f) ∧
    ∀ g ∈ s.tables.families, g.familyId = f → g.compromised = true

instance (s : Sys) (f : ℕ) : Decidable (s.Compromised f) :=
  inferInstanceAs (Decidable ((∃ g ∈ s.tables.families, g.familyId = f) ∧
    ∀ g ∈ s.tables.families, g.familyId = f → g.compromised = true))

/-- Whatever happens from here on, no refresh exchanges a token, and none that begins from here on
rotates a token of family `f`. -/
def Sys.Closed (cfg : AuthSettings) (s : Sys) (f : ℕ) : Prop :=
  ∀ as s', run (step cfg) s as = some s' →
    (∀ c ∈ s'.calls, ∀ token, c.exchanged token = false) ∧
      ∀ c ∈ s'.calls.drop s.calls.length, ∀ token, c.rotated ≠ some (token, f)

theorem Inv.exchanged {s : Sys} (h : Inv s) {c : Call} (hc : c ∈ s.calls) (token : ℕ) :
    c.exchanged token = false := by
  by_cases hr : c.request = .refresh token
  · rcases (h.calls c hc).refreshing token hr with ⟨p, hp⟩ | ⟨e, he⟩
    · simp [Call.exchanged, hp]
    · simp [Call.exchanged, he, Outcome.isOk]
  · simp [Call.exchanged, hr]

theorem Sys.Compromised.closed {s : Sys} {f : ℕ} (hs : Inv s) (h : s.Compromised f) :
    s.Closed cfg f := by
  intro as s' hrun
  obtain ⟨⟨g, hg, rfl⟩, hmarked⟩ := h
  have hinv : Inv s' := run_invariant (fun _ _ _ h hstep => Inv.step h hstep) hs hrun
  have hdead : Dead g.familyId s.calls.length s := by
    refine ⟨⟨hs.numbered.families g hg, hmarked⟩, ?_⟩
    intro c hc
    simp at hc
  have hdead' : Dead g.familyId s.calls.length s' :=
    run_invariant (fun _ _ _ h hstep => Dead.step h hstep) hdead hrun
  refine ⟨fun c hc token => hinv.exchanged hc token, ?_⟩
  intro c hc token hrot
  exact (hdead'.calls c hc).rotated _ hrot rfl

/-- The lookup of a rotated token finds no session: the request fails and changes nothing. -/
theorem failed_of_rotated {s s' : Sys} {i token f : ℕ} (h : Inv s) (hrot : s.Rotated token f)
    (hpres : s.Presents i token) (hstep : step cfg s (.move i now) = some s') :
    s'.tables = s.tables ∧ s'.Failed i := by
  obtain ⟨c, hc, hpc⟩ := Option.map_eq_some_iff.mp hpres
  obtain ⟨d, hd, hdrot⟩ := hrot
  have hgone : Gone s.tables token := (h.calls d hd).rotated _ hdrot
  have hnone : s.tables.getSessionByRefreshToken token = none := by
    refine List.find?_eq_none.mpr ?_
    intro r hr hr'
    exact hgone.2 r hr (by simpa using hr')
  simp only [step, hc, hpc, advance, refreshStep, hnone, Option.map_some, Option.some.injEq] at hstep
  have hi : i < s.calls.length := (List.getElem?_eq_some_iff.mp hc).1
  subst hstep
  refine ⟨rfl, .valueError "Invalid or expired refresh token", ?_⟩
  simp [hi, Call.moveTo, Next.toPc]

/-- No token has been rotated by two requests. -/
def Sys.RotatedOnce (s : Sys) : Prop :=
  ∀ (i j : ℕ) (c d : Call) (token f g : ℕ), s.calls[i]? = some c → s.calls[j]? = some d →
    c.rotated = some (token, f) → d.rotated = some (token, g) → i = j

/-- Where no refresh reads its session again while another has yet to delete it, no token is rotated
twice. -/
theorem rotatedOnce_of_guarded {users : List UserRow} {legacy : List String} {as : List Action}
    {s : Sys} (halone : Guarded (step cfg) RereadsAlone (Sys.init users legacy) as)
    (hrun : run (step cfg) (Sys.init users legacy) as = some s) : s.RotatedOnce := by
  have hinit : Inv (Sys.init users legacy) ∧ (Sys.init users legacy).Apart := by
    refine ⟨inv_init users legacy, ?_⟩
    intro i j c d token hi
    cases hi
  have hpreserved : ∀ (s : Sys) (a : Action) (s' : Sys), Inv s ∧ s.Apart → RereadsAlone s a →
      step cfg s a = some s' → Inv s' ∧ s'.Apart := by
    rintro s a s' ⟨hinv, hapart⟩ hok hstep
    exact ⟨hinv.step hstep, hapart.step hinv hok hstep⟩
  obtain ⟨-, hapart⟩ := run_invariant_of_guarded hpreserved hinit halone hrun
  intro i j c d token f g hi hj hc hd
  exact hapart i j c d token hi hj (.inr ⟨f, hc⟩) (.inr ⟨g, hd⟩)

/-- In every interleaving of logins, refreshes and logouts, no token is exchanged twice, and none is
rotated twice where no refresh reads its session again while another has yet to delete it; and a
request that presents a rotated token fails, leaves the token's family marked compromised and no session
of the family to be refreshed, if and only if the family was already marked when the token was
presented. -/
theorem refresh_reuse_iff (cfg : AuthSettings) (users : List UserRow) (legacy : List String)
    {as : List Action} {s : Sys} (hrun : run (step cfg) (Sys.init users legacy) as = some s) :
    (∀ token, s.calls.countP (·.exchanged token) ≤ 1) ∧
      (Guarded (step cfg) RereadsAlone (Sys.init users legacy) as → s.RotatedOnce) ∧
      ∀ i token f now s', s.Rotated token f → s.Presents i token →
        step cfg s (.move i now) = some s' →
          ((s'.Failed i ∧ s'.Compromised f ∧ s'.Closed cfg f) ↔ s.Compromised f) := by
  have hinv : Inv s :=
    run_invariant (fun _ _ _ h hstep => Inv.step h hstep) (inv_init users legacy) hrun
  refine ⟨?_, fun halone => rotatedOnce_of_guarded halone hrun, ?_⟩
  · intro token
    have hzero : s.calls.countP (·.exchanged token) = 0 := by
      refine List.countP_eq_zero.mpr ?_
      intro c hc
      simp [hinv.exchanged hc token]
    omega
  · intro i token f now s' hrot hpres hstep
    obtain ⟨htables, hfailed⟩ := failed_of_rotated hinv hrot hpres hstep
    have hcomp : s'.Compromised f ↔ s.Compromised f := by
      unfold Sys.Compromised
      rw [htables]
    constructor
    · rintro ⟨-, h, -⟩
      exact hcomp.mp h
    · intro h
      have h' := hcomp.mpr h
      exact ⟨hfailed, h', h'.closed (hinv.step hstep)⟩

/-- Settings and a user for the runs below. -/
def sampleSettings : AuthSettings := ⟨5, 900000000, fun password hashed => password = hashed⟩

def sampleUser : UserRow := ⟨"ana@noc.example", "secret", 0, none⟩

/-- Request `i` executes `n` statements. -/
def moves (i n : ℕ) : List Action := List.replicate n (.move i 0)

/-- A login, then two refreshes with its token: the second has found the session when the first rotates
the token, goes on to the reuse check and compromises the family. A third one begins. -/
def concurrentReuse : List Action :=
  [.begin (.login "ana@noc.example" "secret")] ++ moves 0 6 ++
    [.begin (.refresh 0), .begin (.refresh 0)] ++ moves 2 1 ++ moves 1 13 ++ moves 2 8 ++
    [.begin (.refresh 0)]

theorem refresh_reuse_compromised : ∃ s s',
    run (step sampleSettings) (Sys.init [sampleUser] []) concurrentReuse = some s ∧
      Guarded (step sampleSettings) RereadsAlone (Sys.init [sampleUser] []) concurrentReuse ∧
      s.RotatedOnce ∧ s.Rotated 0 0 ∧ s.Presents 3 0 ∧ s.Compromised 0 ∧
      step sampleSettings s (.move 3 0) = some s' ∧
      s'.Failed 3 ∧ s'.Compromised 0 ∧ s'.Closed sampleSettings 0 := by
  have halone : Guarded (step sampleSettings) RereadsAlone (Sys.init [sampleUser] [])
      concurrentReuse := by
    decide
  obtain ⟨s, hrun, s', hrot, hpres, hcomp, hstep⟩ : ∃ s,
      run (step sampleSettings) (Sys.init [sampleUser] []) concurrentReuse = some s ∧ ∃ s',
        s.Rotated 0 0 ∧ s.Presents 3 0 ∧ s.Compromised 0 ∧
          step sampleSettings s (.move 3 0) = some s' :=
    ⟨_, rfl, _, by decide, by decide, by decide, rfl⟩
  obtain ⟨-, honce, hreuse⟩ := refresh_reuse_iff sampleSettings [sampleUser] [] hrun
  have h := hreuse 3 0 0 0 s' hrot hpres hstep
  exact ⟨s, s', hrun, halone, honce halone, hrot, hpres, hcomp, hstep, h.mpr hcomp⟩

/-- A login, a refresh with its token, and a second refresh with the same token. -/
def sequentialReuse : List Action :=
  [.begin (.login "ana@noc.example" "secret")] ++ moves 0 6 ++
    [.begin (.refresh 0)] ++ moves 1 13 ++ [.begin (.refresh 0)]

/-- A login, then two refreshes with its token: both have read the session again when they delete it. -/
def overlappingRefreshes : List Action :=
  [.begin (.login "ana@noc.example" "secret")] ++ moves 0 6 ++
    [.begin (.refresh 0), .begin (.refresh 0)] ++ moves 2 4 ++ moves 1 9 ++ moves 2 9 ++ moves 1 4

/-- A rotated token is presented and its family stays as it was; and two requests rotate one token. -/
theorem rotated_token_not_detected :
    (∃ s s',
      run (step sampleSettings) (Sys.init [sampleUser] []) sequentialReuse = some s ∧
        s.Rotated 0 0 ∧ s.Presents 2 0 ∧ step sampleSettings s (.move 2 0) = some s' ∧
        ¬ (s'.Failed 2 ∧ s'.Compromised 0 ∧ s'.Closed sampleSettings 0)) ∧
      ∃ s, run (step sampleSettings) (Sys.init [sampleUser] []) overlappingRefreshes = some s ∧
        ¬ s.RotatedOnce := by
  refine ⟨⟨_, _, rfl, by decide, by decide, rfl, ?_⟩, ⟨_, rfl, ?_⟩⟩
  · rintro ⟨-, hcomp, -⟩
    revert hcomp
    decide
  · intro honce
    have heq : 1 = 2 := honce 1 2 _ _ 0 0 0 rfl rfl rfl rfl
    cases heq

end ApexChainx.Auth
