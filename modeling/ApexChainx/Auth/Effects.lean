import ApexChainx.Auth.Access

/-!
# What requests, checks and sweeps do to the tables

`Effect` lists what a statement of a request can commit. Read off it: `Carries`, what no statement
changes; and that the tables stay `Sound`, which rests on the foreign key: the family of a session is
there as long as the session is.
-/

namespace ApexChainx.Auth

open ApexChainx.Lib

variable {cfg : AuthSettings} {now : ℤ} {t t' : Tables} {n : ℕ}

/-! ## What a statement commits -/

/-- The sessions that the statement deletes. -/
def Pc.removes : Pc → SessionRow → Bool
  | .refresh (.deleteFamilySessions _ accessTokens), r => accessTokens.contains r.accessToken
  | .refresh (.deleteOld l), r => r.accessToken = l.old.accessToken
  | .logout (.deleteSession token), r => r.accessToken = token
  | .logoutAll (.deleteSessions email), r => r.email = email
  | _, _ => false

/-- The account whose row the statement updates. -/
def Pc.writesUser : Pc → Option String
  | .login (.countFailure user) | .login (.resetFailedAttempts user) => some user.email
  | .login (.lockAccount email) => some email
  | _ => none

/-- What the statement of a request commits. -/
inductive Effect (pc : Pc) (t : Tables) : Tables → Prop
  | unchanged : Effect pc t t
  | updateUser {email : String} {g : UserRow → UserRow} (hpc : pc.writesUser = some email)
      (hemail : ∀ u, (g u).email = u.email) : Effect pc t (t.updateUser email g)
  | insertFamily (email : String) : Effect pc t (t.insertFamily email)
  | insertSession (email : String) {f : ℕ} (sequence : ℕ) {g : FamilyRow} (hf : t.getFamily f = some g) :
      Effect pc t (t.insertSession email f sequence)
  | migrateSession {old : SessionRow} {f : ℕ} {g : FamilyRow} (hpc : pc = .refresh (.migrateSession old f))
      (hf : t.getFamily f = some g) : Effect pc t (t.migrateSession old.accessToken f)
  | increment (l : Loaded) :
      Effect pc t (t.updateFamily l.family.familyId fun g =>
        { g with currentSequence := l.family.currentSequence + 1 })
  | compromise {l : Loaded} (hpc : pc = .refresh (.compromise l)) :
      Effect pc t (t.updateFamily l.family.familyId fun g => { g with compromised := true })
  | deleteSessions : Effect pc t (t.deleteSessions pc.removes)
  | deleteFamilies {ids : List ℕ} (href : t.refersTo ids = false) : Effect pc t (t.deleteFamilies ids)

theorem loginStep_effect (pc : LoginPc) : Effect (.login pc) t (loginStep cfg now t pc).1 := by
  cases pc with
  | countFailure user => exact .updateUser rfl fun _ => rfl
  | lockAccount email => exact .updateUser rfl fun _ => rfl
  | resetFailedAttempts user => exact .updateUser rfl fun _ => rfl
  | createFamily email => exact .insertFamily email
  | createSession email familyId =>
      unfold loginStep
      dsimp only
      split
      · exact .unchanged
      · rename_i g hg
        exact .insertSession email 0 hg
  | _ =>
      unfold loginStep
      dsimp only
      repeat' split
      all_goals exact .unchanged

theorem refreshStep_effect (pc : RefreshPc) : Effect (.refresh pc) t (refreshStep now t pc).1 := by
  cases pc with
  | createFamily old => exact .insertFamily old.email
  | deleteFamilySessions l accessTokens => exact .deleteSessions
  | deleteOld l => exact .deleteSessions
  | migrateSession old familyId =>
      unfold refreshStep
      dsimp only
      split
      · exact .unchanged
      · exact .unchanged
      · rename_i g hg
        exact .migrateSession rfl hg
  | compromise l =>
      unfold refreshStep
      dsimp only
      split
      · exact .unchanged
      · exact .compromise rfl
  | increment l =>
      unfold refreshStep
      dsimp only
      split
      · exact .unchanged
      · exact .increment l
  | createSession l =>
      unfold refreshStep
      dsimp only
      split
      · exact .unchanged
      · rename_i g hg
        exact .insertSession _ _ hg
  | _ =>
      unfold refreshStep
      dsimp only
      repeat' split
      all_goals exact .unchanged

theorem logoutStep_effect (pc : LogoutPc) : Effect (.logout pc) t (logoutStep t pc).1 := by
  cases pc with
  | deleteSession token => exact .deleteSessions
  | _ =>
      unfold logoutStep
      dsimp only
      split <;> exact .unchanged

theorem logoutAllStep_effect (pc : LogoutAllPc) : Effect (.logoutAll pc) t (logoutAllStep t pc).1 := by
  cases pc with
  | deleteSessions email => exact .deleteSessions
  | selectFamilies email count => exact .unchanged
  | deleteFamilies ids count =>
      unfold logoutAllStep
      dsimp only
      split
      · exact .unchanged
      · rename_i href
        exact .deleteFamilies (by simpa [Tables.refersTo] using href)

theorem advance_effect {pc pc' : Pc} (h : advance cfg now t pc = some (t', pc')) : Effect pc t t' := by
  cases pc with
  | returned out => cases h
  | login pc =>
      simp only [advance, Option.some.injEq, Prod.mk.injEq] at h
      exact h.1 ▸ loginStep_effect pc
  | refresh pc =>
      simp only [advance, Option.some.injEq, Prod.mk.injEq] at h
      exact h.1 ▸ refreshStep_effect pc
  | logout pc =>
      simp only [advance, Option.some.injEq, Prod.mk.injEq] at h
      exact h.1 ▸ logoutStep_effect pc
  | logoutAll pc =>
      simp only [advance, Option.some.injEq, Prod.mk.injEq] at h
      exact h.1 ▸ logoutAllStep_effect pc

/-! ## What every statement keeps -/

/-- The database has the user. -/
def Tables.Knows (t : Tables) (email : String) : Prop := ∃ u ∈ t.users, u.email = email

/-- An update of a user keeps who is known. -/
theorem knows_updateUser {known email : String} {g : UserRow → UserRow}
    (hemail : ∀ u, (g u).email = u.email) (ht : t.Knows known) : (t.updateUser email g).Knows known := by
  obtain ⟨u, hu, rfl⟩ := ht
  refine ⟨if u.email = email then g u else u, List.mem_map.mpr ⟨u, hu, rfl⟩, ?_⟩
  split
  · exact hemail u
  · rfl

theorem Effect.knows {pc : Pc} {email : String} (h : Effect pc t t') (ht : t.Knows email) :
    t'.Knows email := by
  cases h with
  | updateUser hwrites hemail => exact knows_updateUser hemail ht
  | _ => exact ht

/-- Only a statement that updates the account changes what a lookup of it finds. -/
theorem Effect.getByEmail_eq {pc : Pc} {email : String} (h : Effect pc t t')
    (hpc : pc.writesUser ≠ some email) : t'.getByEmail email = t.getByEmail email := by
  cases h with
  | updateUser hwrites hemail =>
      refine find?_updateKey_ne hemail ?_ t.users
      rintro rfl
      exact hpc hwrites
  | _ => rfl

/-- What a statement cannot change: a user's address, the address of a session or family, and, past the
`n` sessions that are older than the families, the family of a session. -/
structure Carries (n : ℕ) (t t' : Tables) : Prop where
  evolves : Evolves t t'
  users : ∀ email, t.Knows email → t'.Knows email
  sessions : ∀ r ∈ t'.sessions, r.accessToken < t.nextToken → ∃ r₀ ∈ t.sessions,
    r₀.accessToken = r.accessToken ∧ r₀.email = r.email ∧ (n ≤ r.accessToken → r₀.familyId = r.familyId)
  families : ∀ g ∈ t'.families, g.familyId < t.nextFamily → ∃ g₀ ∈ t.families,
    g₀.familyId = g.familyId ∧ g₀.email = g.email

theorem carries_of_subset (hev : Evolves t t') (husers : t'.users = t.users)
    (hsessions : ∀ r ∈ t'.sessions, r.accessToken < t.nextToken → r ∈ t.sessions)
    (hfamilies : ∀ g ∈ t'.families, g.familyId < t.nextFamily → g ∈ t.families) : Carries n t t' := by
  refine ⟨hev, ?_, ?_, ?_⟩
  · intro email hknown
    unfold Tables.Knows
    rw [husers]
    exact hknown
  · intro r hr hlt
    exact ⟨r, hsessions r hr hlt, rfl, rfl, fun _ => rfl⟩
  · intro g hg hlt
    exact ⟨g, hfamilies g hg hlt, rfl, rfl⟩

theorem carries_refl (n : ℕ) (t : Tables) : Carries n t t :=
  carries_of_subset (.refl t) rfl (fun _ hr _ => hr) fun _ hg _ => hg

theorem carries_deleteSessions (n : ℕ) (t : Tables) (p : SessionRow → Bool) :
    Carries n t (t.deleteSessions p) :=
  carries_of_subset (evolves_deleteSessions t p) rfl (fun _ hr _ => (List.mem_filter.mp hr).1)
    fun _ hg _ => hg

theorem carries_deleteFamilies (n : ℕ) (t : Tables) (ids : List ℕ) :
    Carries n t (t.deleteFamilies ids) :=
  carries_of_subset (evolves_deleteFamilies t ids) rfl (fun _ hr _ => hr)
    fun _ hg _ => (List.mem_filter.mp hg).1

theorem carries_updateUser (n : ℕ) (t : Tables) (email : String) {g : UserRow → UserRow}
    (hemail : ∀ u, (g u).email = u.email) : Carries n t (t.updateUser email g) := by
  refine ⟨evolves_updateUser t email g, ?_, (carries_refl n t).sessions, (carries_refl n t).families⟩
  exact fun known hknown => knows_updateUser hemail hknown

theorem carries_insertFamily (n : ℕ) (t : Tables) (email : String) :
    Carries n t (t.insertFamily email) := by
  refine carries_of_subset (evolves_insertFamily t email) rfl (fun _ hr _ => hr) ?_
  intro g hg hlt
  rcases List.mem_append.mp hg with hold | hnew
  · exact hold
  · rw [List.mem_singleton.mp hnew] at hlt
    exact absurd hlt (lt_irrefl _)

theorem carries_insertSession (n : ℕ) (t : Tables) (email : String) (f sequence : ℕ) :
    Carries n t (t.insertSession email f sequence) := by
  refine carries_of_subset (evolves_insertSession t email f sequence) rfl ?_ fun _ hg _ => hg
  intro r hr hlt
  rcases List.mem_append.mp hr with hold | hnew
  · exact hold
  · rw [List.mem_singleton.mp hnew] at hlt
    exact absurd hlt (lt_irrefl _)

theorem carries_migrateSession {t : Tables} {token : ℕ} (f : ℕ) (htoken : token < n) :
    Carries n t (t.migrateSession token f) := by
  refine ⟨evolves_migrateSession t token f, fun _ => id, ?_, (carries_refl n t).families⟩
  intro r hr hlt
  rcases mem_updateKey hr with hold | ⟨r₀, hr₀, hkey, rfl⟩
  · exact ⟨r, hold, rfl, rfl, fun _ => rfl⟩
  · refine ⟨r₀, hr₀, rfl, rfl, ?_⟩
    intro hle
    exact absurd (lt_of_lt_of_le (hkey ▸ htoken) hle) (lt_irrefl _)

theorem carries_updateFamily (n : ℕ) (t : Tables) (f : ℕ) {g : FamilyRow → FamilyRow}
    (hid : ∀ r, (g r).familyId = r.familyId) (hemail : ∀ r, (g r).email = r.email)
    (hcomp : ∀ r, r.compromised = true → (g r).compromised = true) :
    Carries n t (t.updateFamily f g) := by
  refine ⟨evolves_updateFamily t f hid hcomp, fun _ => id, (carries_refl n t).sessions, ?_⟩
  intro r hr hlt
  rcases mem_updateKey hr with hold | ⟨r₀, hr₀, -, rfl⟩
  · exact ⟨r, hold, rfl, rfl⟩
  · exact ⟨r₀, hr₀, (hid r₀).symm, (hemail r₀).symm⟩

/-! ## The tables and the refreshes on them -/

/-- The token was drawn, and its session, past the first `n`, is of family `f`. -/
def TokenOf (n : ℕ) (t : Tables) (token f : ℕ) : Prop :=
  token < t.nextToken ∧ ∀ r ∈ t.sessions, r.accessToken = token → n ≤ token → r.familyId = some f

/-- What a refresh knows: a session it migrates is one of the first `n`, a family it has loaded was drawn,
and one whose sessions it deletes is marked. -/
def RefreshPc.Tracked (n : ℕ) (t : Tables) : RefreshPc → Prop
  | .checkLock old => old.familyId = none → old.accessToken < n
  | .createFamily old | .refreshNewFamily old _ | .migrateSession old _ => old.accessToken < n
  | .getUser _ family _ => family.familyId < t.nextFamily
  | .reloadSequence l | .findCompromised l | .compromise l => l.family.familyId < t.nextFamily
  | .refreshCompromised l | .selectFamilySessions l => Marked t l.family.familyId
  | .deleteFamilySessions l accessTokens =>
      Marked t l.family.familyId ∧ ∀ token ∈ accessTokens, TokenOf n t token l.family.familyId
  | _ => True

def Pc.Tracked (n : ℕ) (t : Tables) (pc : Pc) : Prop := ∀ p, pc = .refresh p → p.Tracked n t

/-- The sessions without family are among the first `n`, and every other refers to a family that is
there. -/
structure Tables.Sound (n : ℕ) (t : Tables) : Prop where
  numbered : Numbered t
  nodup : (t.sessions.map SessionRow.accessToken).Nodup
  nodupFamilies : (t.families.map FamilyRow.familyId).Nodup
  le : n ≤ t.nextToken
  legacy : ∀ r ∈ t.sessions, r.familyId = none → r.accessToken < n
  families : ∀ r ∈ t.sessions, ∀ f, r.familyId = some f → ∃ g ∈ t.families, g.familyId = f

theorem Effect.carries {pc : Pc} (h : Effect pc t t') (hpc : pc.Tracked n t) : Carries n t t' := by
  cases h with
  | unchanged => exact carries_refl n t
  | updateUser hwrites hemail => exact carries_updateUser n t _ hemail
  | insertFamily email => exact carries_insertFamily n t email
  | insertSession email sequence hf => exact carries_insertSession ..
  | migrateSession heq hf => exact carries_migrateSession _ (hpc _ heq)
  | increment l => exact carries_updateFamily n t _ (fun _ => rfl) (fun _ => rfl) fun _ => id
  | compromise heq => exact carries_updateFamily n t _ (fun _ => rfl) (fun _ => rfl) fun _ _ => rfl
  | deleteSessions => exact carries_deleteSessions ..
  | deleteFamilies href => exact carries_deleteFamilies ..

/-- A row under a newly drawn key leaves the keys distinct. -/
theorem nodup_concat {ρ : Type} {key : ρ → ℕ} {rows : List ρ} {row : ρ}
    (h : (rows.map key).Nodup) (hlt : ∀ r ∈ rows, key r < key row) :
    ((rows ++ [row]).map key).Nodup := by
  rw [List.map_append, List.nodup_append]
  refine ⟨h, List.nodup_singleton _, ?_⟩
  intro k hold k' hnew
  obtain ⟨r, hr, rfl⟩ := List.mem_map.mp hold
  rw [List.map_singleton, List.mem_singleton] at hnew
  rw [hnew]
  exact Nat.ne_of_lt (hlt r hr)

/-- A statement that stores no session and deletes no family that a session refers to. -/
theorem Tables.Sound.of_kept (hs : t.Sound n) (hev : Evolves t t')
    (hsessions : t'.sessions.Sublist t.sessions)
    (hnodup : (t'.families.map FamilyRow.familyId).Nodup)
    (hfamilies : ∀ r ∈ t'.sessions, ∀ g ∈ t.families, r.familyId = some g.familyId →
      ∃ g' ∈ t'.families, g'.familyId = g.familyId) : t'.Sound n := by
  refine ⟨hev.numbered hs.numbered, hs.nodup.sublist (hsessions.map _), hnodup,
    hs.le.trans hev.nextToken_le, ?_, ?_⟩
  · intro r hr hnone
    exact hs.legacy r (hsessions.subset hr) hnone
  · intro r hr f hf
    obtain ⟨g, hg, rfl⟩ := hs.families r (hsessions.subset hr) f hf
    exact hfamilies r hr g hg hf

theorem sound_deleteSessions (hs : t.Sound n) (p : SessionRow → Bool) : (t.deleteSessions p).Sound n :=
  hs.of_kept (evolves_deleteSessions t p) List.filter_sublist hs.nodupFamilies
    fun _ _ g hg _ => ⟨g, hg, rfl⟩

theorem sound_deleteFamilies {ids : List ℕ} (hs : t.Sound n) (href : t.refersTo ids = false) :
    (t.deleteFamilies ids).Sound n := by
  refine hs.of_kept (evolves_deleteFamilies t ids) (.refl _)
    (hs.nodupFamilies.sublist (List.filter_sublist.map _)) ?_
  intro r hr g hg hf
  refine ⟨g, List.mem_filter.mpr ⟨hg, ?_⟩, rfl⟩
  have hnone := List.any_eq_false.mp href r hr
  simpa [hf] using hnone

theorem sound_updateFamily (hs : t.Sound n) (f : ℕ) {g : FamilyRow → FamilyRow}
    (hid : ∀ r, (g r).familyId = r.familyId)
    (hcomp : ∀ r, r.compromised = true → (g r).compromised = true) : (t.updateFamily f g).Sound n := by
  have hids : (t.updateFamily f g).families.map FamilyRow.familyId
      = t.families.map FamilyRow.familyId := map_key_updateKey hid t.families
  refine hs.of_kept (evolves_updateFamily t f hid hcomp) (.refl _) (hids ▸ hs.nodupFamilies) ?_
  intro r _ g₀ hg₀ _
  have hmem : g₀.familyId ∈ (t.updateFamily f g).families.map FamilyRow.familyId := by
    rw [hids]
    exact List.mem_map_of_mem hg₀
  obtain ⟨g', hg', heq⟩ := List.mem_map.mp hmem
  exact ⟨g', hg', heq⟩

theorem Effect.sound {pc : Pc} (h : Effect pc t t') (hpc : pc.Tracked n t) (hs : t.Sound n) :
    t'.Sound n := by
  have hev : Evolves t t' := (h.carries hpc).evolves
  cases h with
  | unchanged => exact hs
  | updateUser hwrites hemail =>
      exact hs.of_kept hev (.refl _) hs.nodupFamilies fun _ _ g hg _ => ⟨g, hg, rfl⟩
  | insertFamily email =>
      refine hs.of_kept hev (.refl _) ?_ fun _ _ g hg _ => ⟨g, List.mem_append_left _ hg, rfl⟩
      exact nodup_concat hs.nodupFamilies hs.numbered.families
  | increment l => exact sound_updateFamily hs _ (fun _ => rfl) fun _ => id
  | compromise heq => exact sound_updateFamily hs _ (fun _ => rfl) fun _ _ => rfl
  | deleteSessions => exact sound_deleteSessions hs _
  | deleteFamilies href => exact sound_deleteFamilies hs href
  | insertSession email sequence hf =>
      refine ⟨hev.numbered hs.numbered, ?_, hs.nodupFamilies, hs.le.trans hev.nextToken_le, ?_, ?_⟩
      · refine nodup_concat hs.nodup ?_
        intro r hr
        obtain ⟨hpair, hlt⟩ := hs.numbered.sessions r hr
        exact hpair ▸ hlt
      · intro r hr hnone
        rcases List.mem_append.mp hr with hold | hnew
        · exact hs.legacy r hold hnone
        · rw [List.mem_singleton.mp hnew] at hnone
          cases hnone
      · intro r hr f hrf
        rcases List.mem_append.mp hr with hold | hnew
        · exact hs.families r hold f hrf
        · rw [List.mem_singleton.mp hnew, Option.some.injEq] at hrf
          exact ⟨_, (getFamily_spec hf).1, (getFamily_spec hf).2.trans hrf⟩
  | migrateSession heq hf =>
      refine ⟨hev.numbered hs.numbered, ?_, hs.nodupFamilies, hs.le.trans hev.nextToken_le, ?_, ?_⟩
      · unfold Tables.migrateSession
        rw [map_key_updateKey]
        · exact hs.nodup
        · exact fun _ => rfl
      · intro r hr hnone
        rcases mem_updateKey hr with hold | ⟨r₀, -, -, rfl⟩
        · exact hs.legacy r hold hnone
        · cases hnone
      · intro r hr f hrf
        rcases mem_updateKey hr with hold | ⟨r₀, -, -, rfl⟩
        · exact hs.families r hold f hrf
        · exact ⟨_, (getFamily_spec hf).1, (getFamily_spec hf).2.trans (Option.some.inj hrf)⟩

theorem TokenOf.carries {token f : ℕ} (h : Carries n t t') (ht : TokenOf n t token f) :
    TokenOf n t' token f := by
  refine ⟨lt_of_lt_of_le ht.1 h.evolves.nextToken_le, ?_⟩
  intro r hr heq hle
  obtain ⟨r₀, hr₀, hkey, -, hfam⟩ := h.sessions r hr (heq ▸ ht.1)
  rw [← hfam (heq ▸ hle)]
  exact ht.2 r₀ hr₀ (hkey.trans heq) hle

theorem Lost.marked {f : ℕ} (h : Lost t f) : Marked t f :=
  ⟨h.1, fun g hg hid => absurd hid (h.2 g hg)⟩

theorem RefreshPc.Tracked.carries {pc : RefreshPc} (h : Carries n t t') (hpc : pc.Tracked n t) :
    pc.Tracked n t' := by
  cases pc with
  | getUser old family migrated => exact lt_of_lt_of_le hpc h.evolves.nextFamily_le
  | reloadSequence l => exact lt_of_lt_of_le hpc h.evolves.nextFamily_le
  | findCompromised l => exact lt_of_lt_of_le hpc h.evolves.nextFamily_le
  | compromise l => exact lt_of_lt_of_le hpc h.evolves.nextFamily_le
  | refreshCompromised l => exact h.evolves.marked hpc
  | selectFamilySessions l => exact h.evolves.marked hpc
  | deleteFamilySessions l accessTokens =>
      exact ⟨h.evolves.marked hpc.1, fun token htoken => (hpc.2 token htoken).carries h⟩
  | _ => exact hpc

theorem reuseCheck_tracked {l : Loaded} (h : l.family.familyId < t.nextFamily) :
    (reuseCheck l).Tracked n t := by
  unfold reuseCheck
  split
  · exact h
  · trivial

theorem marked_updateFamily {f : ℕ} (hf : f < t.nextFamily) :
    Marked (t.updateFamily f fun g => { g with compromised := true }) f := by
  refine ⟨hf, ?_⟩
  intro g hg hid
  obtain ⟨g₀, -, rfl⟩ := List.mem_map.mp hg
  by_cases hkey : g₀.familyId = f
  · rw [if_pos hkey]
  · rw [if_neg hkey] at hid
    exact absurd hid hkey

/-- What a statement tells the next one holds already of the tables it was read from, unless it marks a
family. -/
theorem refreshStep_learns {pc pc' : RefreshPc} (hs : t.Sound n) (hpc : pc.Tracked n t)
    (hnot : ∀ l, pc ≠ .compromise l) (h : (refreshStep now t pc).2 = .goto pc') : pc'.Tracked n t := by
  cases pc with
  | compromise l => exact absurd rfl (hnot l)
  | findSession token =>
      simp only [refreshStep] at h
      split at h
      · cases h
      · rename_i old hold
        obtain rfl := Next.goto.inj h
        exact hs.legacy old (List.mem_of_find?_eq_some hold)
  | checkLock old =>
      simp only [refreshStep] at h
      split at h
      · cases h
      · split at h
        · rename_i hnone
          obtain rfl := Next.goto.inj h
          exact hpc hnone
        · obtain rfl := Next.goto.inj h
          trivial
  | getFamily old familyId migrated =>
      simp only [refreshStep] at h
      split at h
      · cases h
      · rename_i family hfamily
        obtain rfl := Next.goto.inj h
        exact hs.numbered.families family (getFamily_spec hfamily).1
  | getUser old family migrated =>
      simp only [refreshStep] at h
      split at h
      · cases h
      · split at h
        · obtain rfl := Next.goto.inj h
          exact hpc
        · obtain rfl := Next.goto.inj h
          exact reuseCheck_tracked hpc
  | reloadSequence l =>
      simp only [refreshStep] at h
      split at h
      · cases h
      · obtain rfl := Next.goto.inj h
        exact reuseCheck_tracked hpc
  | findCompromised l =>
      simp only [refreshStep] at h
      split at h
      · rename_i hnone
        obtain rfl := Next.goto.inj h
        exact (lost_of_getFamily_none hpc hnone).marked
      · obtain rfl := Next.goto.inj h
        exact hpc
  | selectFamilySessions l =>
      simp only [refreshStep] at h
      obtain rfl := Next.goto.inj h
      refine ⟨hpc, ?_⟩
      intro token htoken
      obtain ⟨r, hr, rfl⟩ := List.mem_map.mp htoken
      obtain ⟨hmem, hfam⟩ := List.mem_filter.mp hr
      obtain ⟨hpair, hlt⟩ := hs.numbered.sessions r hmem
      refine ⟨hpair ▸ hlt, ?_⟩
      intro r' hr' heq _
      rw [List.inj_on_of_nodup_map hs.nodup hr' hmem heq]
      exact of_decide_eq_true hfam
  | _ =>
      -- the refresh learns nothing of the family
      simp only [refreshStep, withUser] at h
      repeat' split at h
      all_goals
        first
          | (obtain rfl := Next.goto.inj h
             first
               | exact hpc
               | trivial)
          | cases h

theorem refreshStep_tracked {pc pc' : RefreshPc} (hs : t.Sound n) (hpc : pc.Tracked n t)
    (h : (refreshStep now t pc).2 = .goto pc') : pc'.Tracked n (refreshStep now t pc).1 := by
  have htracked : ∀ p, Pc.refresh pc = .refresh p → p.Tracked n t := by
    rintro p hp
    exact Pc.refresh.inj hp ▸ hpc
  by_cases hcompromise : ∃ l, pc = .compromise l
  · obtain ⟨l, rfl⟩ := hcompromise
    simp only [refreshStep] at h ⊢
    split at h
    · cases h
    · obtain rfl := Next.goto.inj h
      exact marked_updateFamily hpc
  · have hlearned := refreshStep_learns hs hpc (fun l hl => hcompromise ⟨l, hl⟩) h
    exact hlearned.carries ((refreshStep_effect pc).carries htracked)

/-! ## Checks and sweeps on the tables -/

/-- What a check knows of its token: the session it has read bears it, and one it is about to delete has
expired or belongs to a marked family. -/
def CheckPc.Tracked (n : ℕ) (t : Tables) (now : ℤ) (expiresAt : ℕ → ℤ) (token : ℕ) : CheckPc → Prop
  | .getSession token' => token' = token
  | .isRevoked session f =>
      session.accessToken = token ∧ session.familyId = some f ∧ f < t.nextFamily ∧ TokenOf n t token f
  | .findSession token' | .deleteSession token' =>
      token' = token ∧ token < t.nextToken ∧
        (expiresAt token < now ∨ ∃ f, Marked t f ∧ TokenOf n t token f)
  | .getUser session => session.accessToken = token
  | .accepted _ | .rejected => True

theorem CheckPc.Tracked.carries {now' : ℤ} {expiresAt expiresAt' : ℕ → ℤ} {token : ℕ} {pc : CheckPc}
    (h : Carries n t t') (hnow : now ≤ now')
    (hexp : ∀ token < t.nextToken, expiresAt' token = expiresAt token)
    (hpc : pc.Tracked n t now expiresAt token) : pc.Tracked n t' now' expiresAt' token := by
  have hdelete : (token < t.nextToken ∧
      (expiresAt token < now ∨ ∃ f, Marked t f ∧ TokenOf n t token f)) →
      token < t'.nextToken ∧ (expiresAt' token < now' ∨ ∃ f, Marked t' f ∧ TokenOf n t' token f) := by
    rintro ⟨hlt, hold | ⟨f, hmarked, hof⟩⟩
    · exact ⟨lt_of_lt_of_le hlt h.evolves.nextToken_le,
        .inl (by rw [hexp token hlt]; exact Int.lt_of_lt_of_le hold hnow)⟩
    · exact ⟨lt_of_lt_of_le hlt h.evolves.nextToken_le,
        .inr ⟨f, h.evolves.marked hmarked, hof.carries h⟩⟩
  cases pc with
  | isRevoked session f =>
      obtain ⟨htoken, hfam, hlt, hof⟩ := hpc
      exact ⟨htoken, hfam, lt_of_lt_of_le hlt h.evolves.nextFamily_le, hof.carries h⟩
  | findSession token' => exact ⟨hpc.1, hdelete hpc.2⟩
  | deleteSession token' => exact ⟨hpc.1, hdelete hpc.2⟩
  | _ => exact hpc

/-- A check leaves the tables as they are or deletes sessions. -/
theorem checkStep_tables {expiresAt : ℕ → ℤ} {cached : Bool} {pc pc' : CheckPc}
    (h : checkStep now expiresAt cached t pc = some (t', pc')) :
    t' = t ∨ ∃ token, pc = .deleteSession token ∧ t' = t.deleteSessions (·.accessToken = token) := by
  cases pc with
  | deleteSession token =>
      obtain ⟨rfl, -⟩ := Prod.mk.inj (Option.some.inj h)
      exact .inr ⟨token, rfl, rfl⟩
  | _ =>
      simp only [checkStep] at h
      repeat' split at h
      all_goals
        first
          | exact .inl (Prod.mk.inj (Option.some.inj h)).1.symm
          | cases h

/-- A sweep leaves the tables as they are or deletes families without sessions. -/
theorem sweepStep_tables {batchSize : ℕ} {picked : List ℕ} {pc pc' : SweepPc}
    (h : sweepStep batchSize picked t pc = some (t', pc')) :
    t' = t ∨ ∃ ids, t.refersTo ids = false ∧ t' = t.deleteFamilies ids := by
  cases pc with
  | returned out => cases h
  | select total =>
      simp only [sweepStep] at h
      split at h
      · exact .inl (Prod.mk.inj (Option.some.inj h)).1.symm
      · cases h
  | delete ids total =>
      simp only [sweepStep] at h
      split at h
      · exact .inl (Prod.mk.inj (Option.some.inj h)).1.symm
      · rename_i href
        exact .inr ⟨ids, by simpa using href, (Prod.mk.inj (Option.some.inj h)).1.symm⟩

theorem checkStep_sound {expiresAt : ℕ → ℤ} {cached : Bool} {pc pc' : CheckPc}
    (h : checkStep now expiresAt cached t pc = some (t', pc')) (hs : t.Sound n) :
    t'.Sound n ∧ Carries n t t' := by
  rcases checkStep_tables h with rfl | ⟨token, -, rfl⟩
  · exact ⟨hs, carries_refl n _⟩
  · exact ⟨sound_deleteSessions hs _, carries_deleteSessions ..⟩

theorem sweepStep_sound {batchSize : ℕ} {picked : List ℕ} {pc pc' : SweepPc}
    (h : sweepStep batchSize picked t pc = some (t', pc')) (hs : t.Sound n) :
    t'.Sound n ∧ Carries n t t' := by
  rcases sweepStep_tables h with rfl | ⟨ids, href, rfl⟩
  · exact ⟨hs, carries_refl n _⟩
  · exact ⟨sound_deleteFamilies hs href, carries_deleteFamilies ..⟩

theorem getSession_spec {token : ℕ} {r : SessionRow} (h : t.getSession token = some r) :
    r ∈ t.sessions ∧ r.accessToken = token :=
  ⟨List.mem_of_find?_eq_some h, by simpa using List.find?_some h⟩

theorem checkStep_tracked {expiresAt : ℕ → ℤ} {cached : Bool} {token : ℕ} {pc pc' : CheckPc}
    (h : checkStep now expiresAt cached t pc = some (t', pc')) (hs : t.Sound n)
    (hpc : pc.Tracked n t now expiresAt token) : pc'.Tracked n t' now expiresAt token := by
  refine CheckPc.Tracked.carries (checkStep_sound h hs).2 (Int.le_refl _) (fun _ _ => rfl) ?_
  cases pc with
  | accepted session => cases h
  | rejected => cases h
  | deleteSession token' =>
      obtain ⟨-, rfl⟩ := Prod.mk.inj (Option.some.inj h)
      trivial
  | findSession token' =>
      simp only [checkStep] at h
      split at h
      · obtain ⟨-, rfl⟩ := Prod.mk.inj (Option.some.inj h)
        trivial
      · obtain ⟨-, rfl⟩ := Prod.mk.inj (Option.some.inj h)
        exact hpc
  | getUser session =>
      simp only [checkStep] at h
      repeat' split at h
      all_goals
        obtain ⟨-, rfl⟩ := Prod.mk.inj (Option.some.inj h)
        trivial
  | isRevoked session f =>
      obtain ⟨htoken, -, hlt, hof⟩ := hpc
      simp only [checkStep] at h
      split at h
      · -- the family is gone, so a row of it would be marked
        rename_i hnone
        obtain ⟨-, rfl⟩ := Prod.mk.inj (Option.some.inj h)
        exact ⟨htoken, hof.1, .inr ⟨f, (lost_of_getFamily_none hlt hnone).marked, hof⟩⟩
      · rename_i family hfamily
        split at h
        · rename_i hcomp
          obtain ⟨-, rfl⟩ := Prod.mk.inj (Option.some.inj h)
          refine ⟨htoken, hof.1, .inr ⟨f, ⟨hlt, ?_⟩, hof⟩⟩
          intro g hg hid
          obtain ⟨hmem, hkey⟩ := getFamily_spec hfamily
          rw [List.inj_on_of_nodup_map hs.nodupFamilies hg hmem (hid.trans hkey.symm)]
          exact hcomp
        · obtain ⟨-, rfl⟩ := Prod.mk.inj (Option.some.inj h)
          exact htoken
  | getSession token' =>
      obtain rfl : token' = token := hpc
      simp only [checkStep] at h
      split at h
      · obtain ⟨-, rfl⟩ := Prod.mk.inj (Option.some.inj h)
        trivial
      · rename_i session hsession
        obtain ⟨hmem, hkey⟩ := getSession_spec hsession
        obtain ⟨hpair, hlt⟩ := hs.numbered.sessions session hmem
        have hdrawn : token' < t.nextToken := by
          rw [← hkey, hpair]
          exact hlt
        split at h
        · rename_i hexpired
          obtain ⟨-, rfl⟩ := Prod.mk.inj (Option.some.inj h)
          exact ⟨rfl, hdrawn, .inl (hkey ▸ hexpired)⟩
        · split at h
          · obtain ⟨-, rfl⟩ := Prod.mk.inj (Option.some.inj h)
            exact hkey
          · rename_i f hfam
            obtain ⟨-, rfl⟩ := Prod.mk.inj (Option.some.inj h)
            obtain ⟨g, hg, rfl⟩ := hs.families session hmem f hfam
            refine ⟨hkey, hfam, hs.numbered.families g hg, hdrawn, ?_⟩
            intro r hr heq _
            rw [List.inj_on_of_nodup_map hs.nodup hr hmem (heq.trans hkey.symm)]
            exact hfam

end ApexChainx.Auth
