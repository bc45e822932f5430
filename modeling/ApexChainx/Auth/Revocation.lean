import ApexChainx.Auth.Effects

/-!
# What a logout-all revokes, and how long a login lasts

A logout-all that returns has deleted the families it selected, and a family is never created again under
its id, so a check that looks the family up afterwards refuses the token. One that overlaps with a login
or a refresh may raise instead: a session stored between its two commits refers to a family it deletes.

The session that a login stored goes with a logout, a logout-all, a rotation, the compromise of its
family, or its expiry, and with nothing else: a sweep cannot delete the family of a session, and a refresh
that deletes the sessions of a family has compromised the family.
-/

namespace ApexChainx.Auth

open ApexChainx.Lib

variable {cfg : AuthSettings} {now : ℤ} {t t' : Tables} {n : ℕ}

/-! ## The world -/

/-- What no event changes: see `Carries`; and a drawn token expires when it did. -/
structure World.Carries (n : ℕ) (w w' : World) : Prop where
  tables : Auth.Carries n w.tables w'.tables
  clock : w.clock ≤ w'.clock
  expiresAt : ∀ token < w.tables.nextToken, w'.expiresAt token = w.expiresAt token

structure World.Sound (n : ℕ) (w : World) : Prop where
  tables : w.tables.Sound n
  calls : ∀ c ∈ w.sys.calls, c.pc.Tracked n w.tables
  checks : ∀ c ∈ w.checks, c.pc.Tracked n w.tables w.clock w.expiresAt c.token

theorem tracked_start (n : ℕ) (t : Tables) (r : Request) : r.start.Tracked n t := by
  intro p hp
  obtain ⟨token, -, rfl⟩ := start_eq_refresh hp
  trivial

theorem advance_tracked {pc pc' : Pc} (hs : t.Sound n) (hpc : pc.Tracked n t)
    (h : advance cfg now t pc = some (t', pc')) : pc'.Tracked n t' := by
  rintro p rfl
  obtain ⟨q, hq, rfl, hnext⟩ := advance_eq_refresh h
  exact refreshStep_tracked hs (hpc q hq) hnext

theorem World.carries_of_eq {w w' : World} (htables : w'.tables = w.tables) (hclock : w.clock ≤ w'.clock)
    (hexp : w'.expiresAt = w.expiresAt) : World.Carries n w w' :=
  ⟨htables ▸ Auth.carries_refl n _, hclock, fun _ _ => by rw [hexp]⟩

theorem World.Sound.carries {w w' : World} {e : Event} (hw : w.Sound n)
    (h : w.step cfg e = some w') : World.Carries n w w' := by
  cases e with
  | tick elapsed =>
      obtain rfl := Option.some.inj h
      exact World.carries_of_eq rfl (Int.le_add_of_nonneg_right (Int.natCast_nonneg _)) rfl
  | begin r =>
      obtain rfl := Option.some.inj h
      exact World.carries_of_eq rfl (Int.le_refl _) rfl
  | beginCheck token =>
      obtain rfl := Option.some.inj h
      exact World.carries_of_eq rfl (Int.le_refl _) rfl
  | beginSweep batchSize =>
      obtain rfl := Option.some.inj h
      exact World.carries_of_eq rfl (Int.le_refl _) rfl
  | move i issued =>
      obtain ⟨c, t', pc, hc, hadv, rfl⟩ := step_move h
      refine ⟨(advance_effect hadv).carries (hw.calls c (List.mem_of_getElem? hc)), Int.le_refl _, ?_⟩
      intro token htoken
      exact if_neg (Nat.ne_of_lt htoken)
  | moveCheck j cached =>
      obtain ⟨c, t', pc, -, hstep, rfl⟩ := step_moveCheck h
      exact ⟨(checkStep_sound hstep hw.tables).2, Int.le_refl _, fun _ _ => rfl⟩
  | moveSweep j picked =>
      obtain ⟨c, t', pc, -, hstep, rfl⟩ := step_moveSweep h
      exact ⟨(sweepStep_sound hstep hw.tables).2, Int.le_refl _, fun _ _ => rfl⟩

theorem Pc.Tracked.carries {pc : Pc} (h : Carries n t t') (hpc : pc.Tracked n t) : pc.Tracked n t' :=
  fun p hp => (hpc p hp).carries h

theorem World.Sound.step {w w' : World} {e : Event} (hw : w.Sound n) (h : w.step cfg e = some w') :
    w'.Sound n := by
  have hcar := hw.carries h
  have hcalls : ∀ c ∈ w.sys.calls, c.pc.Tracked n w'.tables :=
    fun c hc => (hw.calls c hc).carries hcar.tables
  have hchecks : ∀ c ∈ w.checks, c.pc.Tracked n w'.tables w'.clock w'.expiresAt c.token :=
    fun c hc => (hw.checks c hc).carries hcar.tables hcar.clock hcar.expiresAt
  cases e with
  | tick elapsed =>
      obtain rfl := Option.some.inj h
      exact ⟨hw.tables, hcalls, hchecks⟩
  | beginSweep batchSize =>
      obtain rfl := Option.some.inj h
      exact ⟨hw.tables, hcalls, hchecks⟩
  | begin r =>
      obtain rfl := Option.some.inj h
      refine ⟨hw.tables, ?_, hchecks⟩
      intro c hc
      rcases List.mem_append.mp hc with hold | hnew
      · exact hcalls c hold
      · rw [List.mem_singleton.mp hnew]
        exact tracked_start n _ r
  | beginCheck token =>
      obtain rfl := Option.some.inj h
      refine ⟨hw.tables, hcalls, ?_⟩
      intro c hc
      rcases List.mem_append.mp hc with hold | hnew
      · exact hchecks c hold
      · rw [List.mem_singleton.mp hnew]
        exact rfl
  | move i issued =>
      obtain ⟨c, t', pc, hc, hadv, rfl⟩ := step_move h
      have hpc := hw.calls c (List.mem_of_getElem? hc)
      exact ⟨(advance_effect hadv).sound hpc hw.tables,
        forall_mem_set hcalls (advance_tracked hw.tables hpc hadv), hchecks⟩
  | moveCheck j cached =>
      obtain ⟨c, t', pc, hc, hstep, rfl⟩ := step_moveCheck h
      have hpc := hw.checks c (List.mem_of_getElem? hc)
      exact ⟨(checkStep_sound hstep hw.tables).1, hcalls,
        forall_mem_set hchecks (checkStep_tracked hstep hw.tables hpc)⟩
  | moveSweep j picked =>
      obtain ⟨c, t', pc, -, hstep, rfl⟩ := step_moveSweep h
      exact ⟨(sweepStep_sound hstep hw.tables).1, hcalls, hchecks⟩

theorem sound_init (clock : ℤ) (expiresAt : ℕ → ℤ) (users : List UserRow) (legacy : List String) :
    (World.init clock expiresAt users legacy).Sound legacy.length := by
  obtain ⟨hnumbered, -⟩ := inv_init users legacy
  refine ⟨⟨hnumbered, ?_, List.nodup_nil, Nat.le_refl _, ?_, ?_⟩, ?_, ?_⟩
  · have hkeys : ((legacy.mapIdx fun i email => (⟨i, i, email, none, 0⟩ : SessionRow)).map
        SessionRow.accessToken) = List.range' 0 legacy.length := by
      rw [List.mapIdx_eq_zipIdx_map, List.map_map]
      exact List.zipIdx_map_snd 0 legacy
    exact hkeys ▸ List.nodup_range'
  · intro r hr _
    obtain ⟨hpair, hlt⟩ := hnumbered.sessions r hr
    exact hpair ▸ hlt
  · intro r hr f hf
    obtain ⟨i, hi, rfl⟩ := List.mem_mapIdx.mp hr
    cases hf
  · intro c hc
    cases hc
  · intro c hc
    cases hc

/-! ## One request along a run -/

/-- What holds of the place of the `i`-th request. -/
def World.At (w : World) (i : ℕ) (P : Tables → Pc → Prop) : Prop :=
  ∃ c, w.sys.calls[i]? = some c ∧ P w.tables c.pc

/-- What the other statements keep, and the request's own too, holds of its place from its begin on. -/
theorem World.At.step {P : Tables → Pc → Prop} {w w' : World} {i : ℕ} {e : Event}
    (hcarry : ∀ t t' pc, Auth.Carries n t t' → P t pc → P t' pc)
    (hown : ∀ now t t' pc pc', t.Sound n → P t pc → advance cfg now t pc = some (t', pc') → P t' pc')
    (hw : w.Sound n) (hi : w.At i P) (h : w.step cfg e = some w') : w'.At i P := by
  have hcar := hw.carries h
  obtain ⟨c, hc, hP⟩ := hi
  have hP' : P w'.tables c.pc := hcarry _ _ _ hcar.tables hP
  cases e with
  | tick elapsed =>
      obtain rfl := Option.some.inj h
      exact ⟨c, hc, hP'⟩
  | beginCheck token =>
      obtain rfl := Option.some.inj h
      exact ⟨c, hc, hP'⟩
  | beginSweep batchSize =>
      obtain rfl := Option.some.inj h
      exact ⟨c, hc, hP'⟩
  | begin r =>
      obtain rfl := Option.some.inj h
      exact ⟨c, by simp [List.getElem?_append_left (List.getElem?_eq_some_iff.mp hc).1, hc], hP'⟩
  | moveCheck j cached =>
      obtain ⟨d, t', pc, -, -, rfl⟩ := step_moveCheck h
      exact ⟨c, hc, hP'⟩
  | moveSweep j picked =>
      obtain ⟨d, t', pc, -, -, rfl⟩ := step_moveSweep h
      exact ⟨c, hc, hP'⟩
  | move j issued =>
      obtain ⟨d, t', pc, hd, hadv, rfl⟩ := step_move h
      by_cases hj : j = i
      · subst hj
        obtain rfl := Option.some.inj (hd.symm.trans hc)
        refine ⟨d.moveTo pc, ?_, hown _ _ _ _ _ hw.tables hP hadv⟩
        exact List.getElem?_set_self (List.getElem?_eq_some_iff.mp hc).1
      · refine ⟨c, ?_, hP'⟩
        rw [← hc]
        exact List.getElem?_set_ne hj

/-- A logout-all of the address has yet to select the families, or has family `f` among those it deletes,
or the family is gone. -/
def LogoutAllAt (email : String) (f : ℕ) (t : Tables) : Pc → Prop
  | .logoutAll (.deleteSessions e) | .logoutAll (.selectFamilies e _) =>
      e = email ∧ f < t.nextFamily ∧ ∀ g ∈ t.families, g.familyId = f → g.email = email
  | .logoutAll (.deleteFamilies ids _) => f ∈ ids ∧ f < t.nextFamily ∨ Lost t f
  | .returned (.ok _) => Lost t f
  | .returned (.error _) => True
  | _ => False

theorem logoutAllAt_carries {email : String} {f : ℕ} {pc : Pc} (h : Carries n t t')
    (hpc : LogoutAllAt email f t pc) : LogoutAllAt email f t' pc := by
  have hselect : ∀ e : String,
      (e = email ∧ f < t.nextFamily ∧ ∀ g ∈ t.families, g.familyId = f → g.email = email) →
        e = email ∧ f < t'.nextFamily ∧ ∀ g ∈ t'.families, g.familyId = f → g.email = email := by
    rintro e ⟨he, hlt, hemail⟩
    refine ⟨he, lt_of_lt_of_le hlt h.evolves.nextFamily_le, ?_⟩
    rintro g hg rfl
    obtain ⟨g₀, hg₀, hid, hg₀email⟩ := h.families g hg hlt
    rw [← hg₀email]
    exact hemail g₀ hg₀ hid
  cases pc with
  | logoutAll pc =>
      cases pc with
      | deleteSessions e => exact hselect e hpc
      | selectFamilies e count => exact hselect e hpc
      | deleteFamilies ids count =>
          rcases hpc with ⟨hmem, hlt⟩ | hlost
          · exact .inl ⟨hmem, lt_of_lt_of_le hlt h.evolves.nextFamily_le⟩
          · exact .inr (h.evolves.lost hlost)
  | returned out =>
      cases out with
      | ok reply => exact h.evolves.lost hpc
      | error e => trivial
  | _ => exact hpc

theorem logoutAllAt_advance {email : String} {f : ℕ} {pc pc' : Pc} (hpc : LogoutAllAt email f t pc)
    (h : advance cfg now t pc = some (t', pc')) : LogoutAllAt email f t' pc' := by
  cases pc with
  | returned out => cases h
  | login pc => exact hpc.elim
  | refresh pc => exact hpc.elim
  | logout pc => exact hpc.elim
  | logoutAll pc =>
      simp only [advance, Option.some.injEq, Prod.mk.injEq] at h
      obtain ⟨rfl, rfl⟩ := h
      cases pc with
      | deleteSessions e => exact hpc
      | selectFamilies e count =>
          obtain ⟨rfl, hlt, hemail⟩ := hpc
          by_cases hthere : ∃ g ∈ t.families, g.familyId = f
          · obtain ⟨g, hg, rfl⟩ := hthere
            refine .inl ⟨List.mem_map_of_mem (List.mem_filter.mpr ⟨hg, ?_⟩), hlt⟩
            exact decide_eq_true (hemail g hg rfl)
          · exact .inr ⟨hlt, fun g hg hid => hthere ⟨g, hg, hid⟩⟩
      | deleteFamilies ids count =>
          simp only [logoutAllStep]
          split
          · trivial
          · rcases hpc with ⟨hmem, hlt⟩ | hlost
            · refine ⟨hlt, ?_⟩
              rintro g hg rfl
              have hnot := (List.mem_filter.mp hg).2
              simp [hmem] at hnot
            · exact (evolves_deleteFamilies t ids).lost hlost

/-- Where a login with the address stands: it has found the user, the family it created has an id from
`N` on, and the session it stored a token from `M` on. -/
def LoginStage (N M : ℕ) (email : String) (t : Tables) : Pc → Prop
  | .login (.getUser e _) => e = email
  | .login (.resetFailedAttempts user) => user.email = email ∧ t.Knows email
  | .login (.createFamily e) => e = email ∧ t.Knows email
  | .login (.refreshFamily e f) | .login (.createSession e f) => e = email ∧ t.Knows email ∧ N ≤ f
  | .login (.refreshSession token) =>
      t.Knows email ∧ M ≤ token ∧ token < t.nextToken ∧
        ∀ r ∈ t.sessions, r.accessToken = token → r.email = email ∧ ∃ f, r.familyId = some f ∧ N ≤ f
  | .login _ | .returned _ => True
  | _ => False

/-- A login that began when `N` families and `M` tokens had been drawn. -/
structure LoginAt (N M : ℕ) (email : String) (t : Tables) (pc : Pc) : Prop where
  families : N ≤ t.nextFamily
  tokens : M ≤ t.nextToken
  stage : LoginStage N M email t pc

theorem loginAt_carries {N M : ℕ} {email : String} {pc : Pc} (hM : n ≤ M) (h : Carries n t t')
    (hpc : LoginAt N M email t pc) : LoginAt N M email t' pc := by
  refine ⟨hpc.families.trans h.evolves.nextFamily_le, hpc.tokens.trans h.evolves.nextToken_le, ?_⟩
  have hstage := hpc.stage
  cases pc with
  | login pc =>
      cases pc with
      | resetFailedAttempts user => exact ⟨hstage.1, h.users _ hstage.2⟩
      | createFamily e => exact ⟨hstage.1, h.users _ hstage.2⟩
      | refreshFamily e f => exact ⟨hstage.1, h.users _ hstage.2.1, hstage.2.2⟩
      | createSession e f => exact ⟨hstage.1, h.users _ hstage.2.1, hstage.2.2⟩
      | refreshSession token =>
          obtain ⟨hknown, hle, hlt, hrow⟩ := hstage
          refine ⟨h.users _ hknown, hle, lt_of_lt_of_le hlt h.evolves.nextToken_le, ?_⟩
          rintro r hr rfl
          obtain ⟨r₀, hr₀, hkey, hemail, hfam⟩ := h.sessions r hr hlt
          rw [← hemail, ← hfam (hM.trans hle)]
          exact hrow r₀ hr₀ hkey
      | _ => exact hstage
  | _ => exact hstage

theorem getByEmail_spec {email : String} {user : UserRow} (h : t.getByEmail email = some user) :
    user ∈ t.users ∧ user.email = email :=
  ⟨List.mem_of_find?_eq_some h, by simpa using List.find?_some h⟩

theorem loginAt_advance {N M : ℕ} {email : String} {pc pc' : Pc} (hs : t.Sound n)
    (hpc : LoginAt N M email t pc) (h : advance cfg now t pc = some (t', pc')) :
    LoginAt N M email t' pc' := by
  have hstage := hpc.stage
  cases pc with
  | returned out => cases h
  | refresh pc => exact hstage.elim
  | logout pc => exact hstage.elim
  | logoutAll pc => exact hstage.elim
  | login pc =>
      have hcar : Carries n t t' := (advance_effect h).carries fun p hp => by cases hp
      refine ⟨hpc.families.trans hcar.evolves.nextFamily_le,
        hpc.tokens.trans hcar.evolves.nextToken_le, ?_⟩
      simp only [advance, Option.some.injEq, Prod.mk.injEq] at h
      obtain ⟨rfl, rfl⟩ := h
      cases pc with
      | countFailure user => trivial
      | lockAccount e => trivial
      | readFailures e =>
          simp only [loginStep]
          repeat' split
          all_goals trivial
      | refreshSession token =>
          simp only [loginStep]
          split <;> trivial
      | getUser e password =>
          simp only [loginStep]
          split
          · trivial
          · rename_i user huser
            obtain ⟨hmem, hemail⟩ := getByEmail_spec huser
            obtain rfl : e = email := hstage
            repeat' split
            · trivial
            · exact ⟨hemail, user, hmem, hemail⟩
            · trivial
      | resetFailedAttempts user => exact ⟨hstage.1, hcar.users _ hstage.2⟩
      | createFamily e => exact ⟨hstage.1, hcar.users _ hstage.2, hpc.families⟩
      | refreshFamily e f =>
          simp only [loginStep]
          split
          · trivial
          · exact hstage
      | createSession e f =>
          obtain ⟨rfl, hknown, hle⟩ := hstage
          simp only [loginStep]
          split
          · trivial
          -- the tokens of the older rows are smaller, so the new row is the only one with its own
          · refine ⟨hknown, hpc.tokens, Nat.lt_succ_self _, ?_⟩
            intro r hr hkey
            rcases List.mem_append.mp hr with hold | hnew
            · obtain ⟨hpair, hlt⟩ := hs.numbered.sessions r hold
              rw [← hkey, hpair] at hlt
              exact absurd hlt (lt_irrefl _)
            · rw [List.mem_singleton.mp hnew]
              exact ⟨rfl, f, rfl, hle⟩

/-- A login that returns tokens has found the session it stored. -/
theorem advance_eq_session {N M token : ℕ} {email : String} {pc : Pc} (hpc : LoginAt N M email t pc)
    (h : advance cfg now t pc = some (t', .returned (.ok (.session token)))) :
    t' = t ∧ pc = .login (.refreshSession token) ∧ ∃ r, t.getSession token = some r := by
  cases pc with
  | returned out => cases h
  | refresh pc => exact hpc.stage.elim
  | logout pc => exact hpc.stage.elim
  | logoutAll pc => exact hpc.stage.elim
  | login pc =>
      simp only [advance, Option.some.injEq, Prod.mk.injEq] at h
      obtain ⟨rfl, hnext⟩ := h
      cases pc with
      | refreshSession token' =>
          simp only [loginStep] at hnext ⊢
          split at hnext
          · cases hnext
          · rename_i r hr
            simp only [Next.toPc, Pc.returned.injEq, Outcome.ok.injEq, Reply.session.injEq] at hnext
            obtain rfl := hnext
            exact ⟨rfl, rfl, r, hr⟩
      | _ =>
          simp only [loginStep] at hnext
          repeat' split at hnext
          all_goals cases hnext

/-! ## What ends a session -/

/-- The statement commits a logout of the token, a logout-all of the address or the compromise of family
`f`. -/
def Pc.revokes (token : ℕ) (email : String) (f : ℕ) : Pc → Bool
  | .logout (.deleteSession token') => token' = token
  | .logoutAll (.deleteSessions e) => e = email
  | .refresh (.compromise l) => l.family.familyId = f
  | _ => false

/-- The statement deletes the session of the token to put another in its place. -/
def Pc.rotates (token : ℕ) : Pc → Bool
  | .refresh (.deleteOld l) => l.old.accessToken = token
  | _ => false

/-- The event revokes neither the token nor its family. -/
def World.Unrevoked (token : ℕ) (email : String) (f : ℕ) (w : World) : Event → Prop
  | .move i _ => ∀ c ∈ w.sys.calls[i]?, c.pc.revokes token email f = false
  | _ => True

instance (token : ℕ) (email : String) (f : ℕ) (w : World) :
    (e : Event) → Decidable (w.Unrevoked token email f e)
  | .move i _ => inferInstanceAs (Decidable (∀ c ∈ w.sys.calls[i]?, c.pc.revokes token email f = false))
  | .tick _ | .begin _ | .beginCheck _ | .moveCheck _ _ | .beginSweep _ | .moveSweep _ _ =>
      inferInstanceAs (Decidable True)

/-- The event revokes neither the token nor its family, and does not rotate it. -/
def World.Spares (token : ℕ) (email : String) (f : ℕ) (w : World) (e : Event) : Prop :=
  w.Unrevoked token email f e ∧
    ∀ i issued, e = .move i issued → ∀ c ∈ w.sys.calls[i]?, c.pc.rotates token = false

/-- No row of the family is marked. -/
def Tables.Clean (t : Tables) (f : ℕ) : Prop := ∀ g ∈ t.families, g.familyId = f → g.compromised = false

/-- The session of the token is there, in family `f`. -/
def Tables.Lives (t : Tables) (token : ℕ) (email : String) (f : ℕ) : Prop :=
  ∃ r ∈ t.sessions, r.accessToken = token ∧ r.email = email ∧ r.familyId = some f

variable {token f : ℕ} {email : String}

theorem Effect.clean {pc : Pc} (h : Effect pc t t') (hf : t.Clean f)
    (hpc : pc.revokes token email f = false) : t'.Clean f := by
  cases h with
  | unchanged => exact hf
  | updateUser hwrites hemail => exact hf
  | insertSession email sequence hfam => exact hf
  | migrateSession heq hfam => exact hf
  | deleteSessions => exact hf
  | deleteFamilies href =>
      intro g hg hid
      exact hf g (List.mem_filter.mp hg).1 hid
  | insertFamily email =>
      intro g hg hid
      rcases List.mem_append.mp hg with hold | hnew
      · exact hf g hold hid
      · rw [List.mem_singleton.mp hnew]
  | increment l =>
      intro g hg hid
      rcases mem_updateKey hg with hold | ⟨g₀, hg₀, -, rfl⟩
      · exact hf g hold hid
      · exact hf g₀ hg₀ hid
  | compromise heq =>
      -- a statement that spares `f` marks another family
      subst heq
      intro g hg hid
      rcases mem_updateKey hg with hold | ⟨g₀, -, hkey, rfl⟩
      · exact hf g hold hid
      · have hne := of_decide_eq_false hpc
        exact absurd (hkey.symm.trans hid) hne

/-- A marked family is not the one of a live session in an unmarked family. -/
theorem not_marked_of_lives (hs : t.Sound n) (hclean : t.Clean f)
    (hlives : t.Lives token email f) : ¬ Marked t f := by
  intro hmarked
  obtain ⟨r, hr, -, -, hfam⟩ := hlives
  obtain ⟨g, hg, rfl⟩ := hs.families r hr f hfam
  exact Bool.false_ne_true ((hclean g hg rfl).symm.trans (hmarked.2 g hg rfl))

theorem not_tokenOf_of_lives {f' : ℕ} (hs : t.Sound n) (hle : n ≤ token) (hclean : t.Clean f)
    (hlives : t.Lives token email f) (hmarked : Marked t f') : ¬ TokenOf n t token f' := by
  intro hof
  have hlives' := hlives
  obtain ⟨r, hr, hkey, -, hfam⟩ := hlives'
  obtain rfl : f' = f := Option.some.inj ((hof.2 r hr hkey hle).symm.trans hfam)
  exact not_marked_of_lives hs hclean hlives hmarked

theorem Effect.lives {pc : Pc} (h : Effect pc t t') (hs : t.Sound n) (htracked : pc.Tracked n t)
    (hle : n ≤ token) (hclean : t.Clean f) (hlives : t.Lives token email f)
    (hrevokes : pc.revokes token email f = false) (hrotates : pc.rotates token = false) :
    t'.Lives token email f := by
  have hlives' := hlives
  obtain ⟨r, hr, hkey, hemail, hfam⟩ := hlives'
  cases h with
  | unchanged => exact hlives
  | updateUser hwrites hemail => exact hlives
  | insertFamily email => exact hlives
  | increment l => exact hlives
  | compromise heq => exact hlives
  | deleteFamilies href => exact hlives
  | insertSession email sequence hf => exact ⟨r, List.mem_append_left _ hr, hkey, hemail, hfam⟩
  | migrateSession heq hf =>
      -- only a session without family is migrated
      rename_i old f' g
      refine ⟨r, List.mem_map.mpr ⟨r, hr, if_neg ?_⟩, hkey, hemail, hfam⟩
      have hlt : old.accessToken < n := htracked _ heq
      rw [hkey]
      exact Nat.ne_of_gt (lt_of_lt_of_le hlt hle)
  | deleteSessions =>
      refine ⟨r, List.mem_filter.mpr ⟨hr, ?_⟩, hkey, hemail, hfam⟩
      subst hkey hemail
      cases pc with
      | login pc => rfl
      | returned out => rfl
      | logout pc =>
          cases pc with
          | deleteSession token' =>
              have hne := of_decide_eq_false hrevokes
              simpa [Pc.removes] using fun heq => hne heq.symm
          | _ => rfl
      | logoutAll pc =>
          cases pc with
          | deleteSessions e =>
              have hne := of_decide_eq_false hrevokes
              simpa [Pc.removes] using fun heq => hne heq.symm
          | _ => rfl
      | refresh pc =>
          cases pc with
          | deleteOld l =>
              have hne := of_decide_eq_false hrotates
              simpa [Pc.removes] using fun heq => hne heq.symm
          | deleteFamilySessions l accessTokens =>
              obtain ⟨hmarked, htokens⟩ := htracked _ rfl
              have hnot : r.accessToken ∉ accessTokens := by
                intro hmem
                exact not_tokenOf_of_lives hs hle hclean hlives hmarked (htokens _ hmem)
              simpa [Pc.removes] using hnot
          | _ => rfl

/-! ## How long a login lasts -/

/-- A check of a token of the address, in family `f`, that has not refused it. -/
def CheckPc.Accepts (email : String) (f : ℕ) : CheckPc → Prop
  | .getSession _ => True
  | .isRevoked session f' => session.email = email ∧ f' = f
  | .getUser session | .accepted session => session.email = email
  | .findSession _ | .deleteSession _ | .rejected => False

/-- The token has expired; or its session is there, and no check of it from the `m`-th on refuses it. -/
structure Lasting (n token : ℕ) (email : String) (f m : ℕ) (w : World) : Prop where
  sound : w.Sound n
  le : n ≤ token
  lt : token < w.tables.nextToken
  clean : w.tables.Clean f
  knows : w.tables.Knows email
  lasts : w.expiresAt token < w.clock ∨ w.tables.Lives token email f ∧
    ∀ j c, m ≤ j → w.checks[j]? = some c → c.token = token → c.pc.Accepts email f

/-- The statements a check of a live session has left. -/
def CheckPc.remaining : CheckPc → ℕ
  | .getSession _ => 3
  | .isRevoked _ _ | .findSession _ => 2
  | .getUser _ | .deleteSession _ => 1
  | .accepted _ | .rejected => 0

/-- A check of a live session in an unmarked family goes on towards the user. -/
theorem checkStep_accepts {expiresAt : ℕ → ℤ} (cached : Bool) {pc : CheckPc} (hs : t.Sound n)
    (hclean : t.Clean f) (hlives : t.Lives token email f) (hknows : t.Knows email)
    (hfresh : ¬ expiresAt token < now) (htracked : pc.Tracked n t now expiresAt token)
    (haccepts : pc.Accepts email f) (hleft : 0 < pc.remaining) :
    ∃ pc', checkStep now expiresAt cached t pc = some (t, pc') ∧ pc'.Accepts email f ∧
      pc.remaining = pc'.remaining + 1 := by
  obtain ⟨r, hr, hkey, hemail, hfam⟩ := hlives
  cases pc with
  | accepted session => exact absurd hleft (lt_irrefl 0)
  | findSession token' => exact haccepts.elim
  | deleteSession token' => exact haccepts.elim
  | rejected => exact haccepts.elim
  | getSession token' =>
      obtain rfl : token' = token := htracked
      have hsome : (t.getSession token').isSome = true :=
        List.find?_isSome.mpr ⟨r, hr, decide_eq_true hkey⟩
      obtain ⟨r', hr'⟩ := Option.isSome_iff_exists.mp hsome
      obtain ⟨hmem, hkey'⟩ := getSession_spec hr'
      obtain rfl : r' = r := List.inj_on_of_nodup_map hs.nodup hmem hr (hkey'.trans hkey.symm)
      refine ⟨.isRevoked r' f, ?_, ⟨hemail, rfl⟩, rfl⟩
      simp [checkStep, hr', hkey', hfam, hfresh]
  | isRevoked session f' =>
      obtain ⟨hsession, rfl⟩ := haccepts
      obtain ⟨g, hg, hid⟩ := hs.families r hr f' hfam
      have hsome : (t.getFamily f').isSome = true :=
        List.find?_isSome.mpr ⟨g, hg, decide_eq_true hid⟩
      obtain ⟨g', hg'⟩ := Option.isSome_iff_exists.mp hsome
      have hcomp : g'.compromised = false := hclean g' (getFamily_spec hg').1 (getFamily_spec hg').2
      refine ⟨.getUser session, ?_, hsession, rfl⟩
      simp [checkStep, hg', hcomp]
  | getUser session =>
      obtain rfl : session.email = email := haccepts
      obtain ⟨u, hu, huser⟩ := hknows
      have hsome : (t.getByEmail session.email).isSome = true :=
        List.find?_isSome.mpr ⟨u, hu, decide_eq_true huser⟩
      obtain ⟨u', hu'⟩ := Option.isSome_iff_exists.mp hsome
      refine ⟨.accepted session, ?_, rfl, rfl⟩
      simp [checkStep, hu']

/-- A check deletes the session of an expired token, or one whose family is marked. -/
theorem checkStep_lives {expiresAt : ℕ → ℤ} {cached : Bool} {token' : ℕ} {pc pc' : CheckPc}
    (hs : t.Sound n) (hle : n ≤ token) (hclean : t.Clean f) (hlives : t.Lives token email f)
    (hfresh : ¬ expiresAt token < now) (htracked : pc.Tracked n t now expiresAt token')
    (h : checkStep now expiresAt cached t pc = some (t', pc')) : t'.Lives token email f := by
  rcases checkStep_tables h with rfl | ⟨deleted, rfl, rfl⟩
  · exact hlives
  · obtain ⟨rfl, -, hwhy⟩ := htracked
    have hne : token ≠ deleted := by
      rintro rfl
      rcases hwhy with hexpired | ⟨f', hmarked, hof⟩
      · exact hfresh hexpired
      · exact not_tokenOf_of_lives hs hle hclean hlives hmarked hof
    obtain ⟨r, hr, hkey, hemail, hfam⟩ := hlives
    refine ⟨r, List.mem_filter.mpr ⟨hr, ?_⟩, hkey, hemail, hfam⟩
    simpa [hkey] using hne

theorem sweepStep_lives {batchSize : ℕ} {picked : List ℕ} {pc pc' : SweepPc}
    (hlives : t.Lives token email f) (h : sweepStep batchSize picked t pc = some (t', pc')) :
    t'.Lives token email f := by
  rcases sweepStep_tables h with rfl | ⟨ids, -, rfl⟩
  · exact hlives
  · exact hlives

/-- Checks and sweeps mark no family. -/
theorem checkStep_clean {expiresAt : ℕ → ℤ} {cached : Bool} {pc pc' : CheckPc} (hclean : t.Clean f)
    (h : checkStep now expiresAt cached t pc = some (t', pc')) : t'.Clean f := by
  rcases checkStep_tables h with rfl | ⟨deleted, -, rfl⟩
  · exact hclean
  · exact hclean

theorem sweepStep_clean {batchSize : ℕ} {picked : List ℕ} {pc pc' : SweepPc} (hclean : t.Clean f)
    (h : sweepStep batchSize picked t pc = some (t', pc')) : t'.Clean f := by
  rcases sweepStep_tables h with rfl | ⟨ids, -, rfl⟩
  · exact hclean
  · intro g hg hid
    exact hclean g (List.mem_filter.mp hg).1 hid

/-- An event that does not revoke family `f` leaves it unmarked. -/
theorem clean_step {w w' : World} {e : Event} (hclean : w.tables.Clean f)
    (hspares : w.Unrevoked token email f e) (h : w.step cfg e = some w') : w'.tables.Clean f := by
  cases e with
  | move i issued =>
      obtain ⟨c, t', pc, hc, hadv, rfl⟩ := step_move h
      exact (advance_effect hadv).clean hclean (hspares c hc)
  | moveCheck j cached =>
      obtain ⟨c, t', pc, -, hstep, rfl⟩ := step_moveCheck h
      exact checkStep_clean hclean hstep
  | moveSweep j picked =>
      obtain ⟨c, t', pc, -, hstep, rfl⟩ := step_moveSweep h
      exact sweepStep_clean hclean hstep
  | _ =>
      obtain rfl := Option.some.inj h
      exact hclean

/-- An event that spares the session leaves it in place, or it has expired. -/
theorem lives_step {w w' : World} {e : Event} (hw : w.Sound n) (hle : n ≤ token)
    (hclean : w.tables.Clean f) (hlives : w.tables.Lives token email f)
    (hfresh : ¬ w.expiresAt token < w.clock) (hspares : w.Spares token email f e)
    (h : w.step cfg e = some w') : w'.tables.Lives token email f := by
  cases e with
  | move i issued =>
      obtain ⟨c, t', pc, hc, hadv, rfl⟩ := step_move h
      have htracked := hw.calls c (List.mem_of_getElem? hc)
      exact (advance_effect hadv).lives hw.tables htracked hle hclean hlives (hspares.1 c hc)
        (hspares.2 i issued rfl c hc)
  | moveCheck j cached =>
      obtain ⟨c, t', pc, hc, hstep, rfl⟩ := step_moveCheck h
      have htracked := hw.checks c (List.mem_of_getElem? hc)
      exact checkStep_lives hw.tables hle hclean hlives hfresh htracked hstep
  | moveSweep j picked =>
      obtain ⟨c, t', pc, -, hstep, rfl⟩ := step_moveSweep h
      exact sweepStep_lives hlives hstep
  | _ =>
      obtain rfl := Option.some.inj h
      exact hlives

theorem Lasting.step {m : ℕ} {w w' : World} {e : Event} (hw : Lasting n token email f m w)
    (hspares : w.Spares token email f e) (h : w.step cfg e = some w') :
    Lasting n token email f m w' := by
  have hcar := hw.sound.carries h
  refine ⟨hw.sound.step h, hw.le, lt_of_lt_of_le hw.lt hcar.tables.evolves.nextToken_le,
    clean_step hw.clean hspares.1 h, hcar.tables.users _ hw.knows, ?_⟩
  by_cases hexpired : w.expiresAt token < w.clock
  · rw [hcar.expiresAt token hw.lt]
    exact .inl (Int.lt_of_lt_of_le hexpired hcar.clock)
  · obtain ⟨hlives, hchecks⟩ := hw.lasts.resolve_left hexpired
    refine .inr ⟨lives_step hw.sound hw.le hw.clean hlives hexpired hspares h, ?_⟩
    intro j c' hj hc' htoken
    rcases step_check h hc' with hold | hnew | ⟨c, cached, t', hc, hsame, hstep⟩
    · exact hchecks j c' hj hold htoken
    · rw [hnew]
      trivial
    · rw [hsame] at htoken
      have htracked := hw.sound.checks c (List.mem_of_getElem? hc)
      rw [htoken] at htracked
      have haccepts := hchecks j c hj hc htoken
      rcases Nat.eq_zero_or_pos c.pc.remaining with hzero | hleft
      · cases hpc : c.pc <;> rw [hpc] at hzero hstep
        all_goals cases hzero
        all_goals cases hstep
      · obtain ⟨pc', hstep', haccepts', -⟩ := checkStep_accepts cached hw.sound.tables hw.clean
          hlives hw.knows hexpired htracked haccepts hleft
        obtain rfl := (Prod.mk.inj (Option.some.inj (hstep.symm.trans hstep'))).2
        exact haccepts'

/-- The check has returned the user of the session. -/
def World.Accepted (w : World) (j : ℕ) (session : SessionRow) : Prop :=
  (w.checks[j]?).map Check.pc = some (.accepted session)

instance (w : World) (j : ℕ) (session : SessionRow) : Decidable (w.Accepted j session) :=
  inferInstanceAs (Decidable (_ = _))

/-- A check of a live session, left alone, returns the user. -/
theorem Lasting.completes {m : ℕ} {w : World} (hw : Lasting n token email f m w)
    (hfresh : ¬ w.expiresAt token < w.clock) {j : ℕ} {c : Check} (hj : m ≤ j)
    (hc : w.checks[j]? = some c) (htoken : c.token = token) (cached : Bool) :
    ∃ w' session, run (World.step cfg) w (List.replicate c.pc.remaining (.moveCheck j cached)) = some w' ∧
      w'.Accepted j session ∧ session.email = email := by
  generalize hleft : c.pc.remaining = left
  induction left generalizing w c with
  | zero =>
      have haccepts := (hw.lasts.resolve_left hfresh).2 j c hj hc htoken
      cases hpc : c.pc with
      | accepted session =>
          rw [hpc] at haccepts
          refine ⟨w, session, rfl, ?_, haccepts⟩
          unfold World.Accepted
          rw [hc, Option.map_some, hpc]
      | rejected =>
          rw [hpc] at haccepts
          exact haccepts.elim
      | _ =>
          rw [hpc] at hleft
          cases hleft
  | succ left ih =>
      obtain ⟨hlives, hchecks⟩ := hw.lasts.resolve_left hfresh
      have htracked := hw.sound.checks c (List.mem_of_getElem? hc)
      rw [htoken] at htracked
      obtain ⟨pc', hstep, -, hremaining⟩ := checkStep_accepts cached hw.sound.tables hw.clean hlives
        hw.knows hfresh htracked (hchecks j c hj hc htoken) (hleft ▸ Nat.succ_pos left)
      have hworld : w.step cfg (.moveCheck j cached)
          = some { w with checks := w.checks.set j { c with pc := pc' } } := by
        simp only [World.step, hc]
        rw [hstep]
        rfl
      have hspares : w.Spares token email f (.moveCheck j cached) :=
        ⟨trivial, fun i issued hmove => by cases hmove⟩
      obtain ⟨w', session, hrun, haccepted⟩ := ih (hw.step hspares hworld) hfresh
        (List.getElem?_set_self (List.getElem?_eq_some_iff.mp hc).1) htoken
        (Nat.succ.inj (hremaining.symm.trans hleft))
      exact ⟨w', session, run_cons_eq_some.mpr ⟨_, hworld, hrun⟩, haccepted⟩

/-! ## After a logout-all -/

/-- The check has passed the gate of the family with this session: it is about to return the user, or
has. -/
def World.Authorized (w : World) (j : ℕ) (session : SessionRow) : Prop :=
  (w.checks[j]?).map Check.pc = some (.getUser session) ∨ w.Accepted j session

instance (w : World) (j : ℕ) (session : SessionRow) : Decidable (w.Authorized j session) :=
  inferInstanceAs (Decidable (_ ∨ _))

/-- Family `f` is gone, and a check that has passed its gate had done so in `w₀`. -/
structure Shut (n f : ℕ) (w₀ w : World) : Prop where
  sound : w.Sound n
  lost : Lost w.tables f
  checks : ∀ j session, session.familyId = some f → w.Authorized j session → w₀.Authorized j session

/-- The gate of a lost family lets no check pass. -/
theorem checkStep_shut {expiresAt : ℕ → ℤ} {cached : Bool} {token : ℕ} {pc pc' : CheckPc}
    {session : SessionRow} (hlost : Lost t f) (hfam : session.familyId = some f)
    (htracked : pc.Tracked n t now expiresAt token)
    (h : checkStep now expiresAt cached t pc = some (t', pc'))
    (hpc' : pc' = .getUser session ∨ pc' = .accepted session) : pc = .getUser session := by
  have hnot : ∀ {t₁ : Tables} {q : CheckPc}, some (t₁, q) = some (t', pc') →
      ¬ (q = .getUser session ∨ q = .accepted session) → False := by
    intro t₁ q hq hne
    obtain ⟨-, rfl⟩ := Prod.mk.inj (Option.some.inj hq)
    exact hne hpc'
  cases pc with
  | accepted session' => cases h
  | rejected => cases h
  | deleteSession token' =>
      exact (hnot h (by simp)).elim
  | findSession token' =>
      simp only [checkStep] at h
      split at h
      · exact (hnot h (by simp)).elim
      · exact (hnot h (by simp)).elim
  | getUser session' =>
      simp only [checkStep] at h
      repeat' split at h
      all_goals
        obtain ⟨-, rfl⟩ := Prod.mk.inj (Option.some.inj h)
        rcases hpc' with hpc' | hpc'
        all_goals cases hpc'
        all_goals rfl
  | isRevoked session' f' =>
      obtain ⟨-, hfam', -, -⟩ := htracked
      simp only [checkStep] at h
      split at h
      · exact (hnot h (by simp)).elim
      · rename_i family hfamily
        split at h
        · exact (hnot h (by simp)).elim
        · obtain ⟨-, rfl⟩ := Prod.mk.inj (Option.some.inj h)
          rcases hpc' with hpc' | hpc'
          · obtain rfl := CheckPc.getUser.inj hpc'
            obtain rfl := Option.some.inj (hfam'.symm.trans hfam)
            exact absurd hlost (not_lost_of_getFamily hfamily)
          · cases hpc'
  | getSession token' =>
      simp only [checkStep] at h
      split at h
      · exact (hnot h (by simp)).elim
      · split at h
        · exact (hnot h (by simp)).elim
        · split at h
          · -- only a session without family passes without the gate
            rename_i hnone
            obtain ⟨-, rfl⟩ := Prod.mk.inj (Option.some.inj h)
            rcases hpc' with hpc' | hpc'
            · obtain rfl := CheckPc.getUser.inj hpc'
              cases hnone.symm.trans hfam
            · cases hpc'
          · exact (hnot h (by simp)).elim

theorem Shut.step {w₀ w w' : World} {e : Event} (hw : Shut n f w₀ w) (h : w.step cfg e = some w') :
    Shut n f w₀ w' := by
  have hcar := hw.sound.carries h
  refine ⟨hw.sound.step h, hcar.tables.evolves.lost hw.lost, ?_⟩
  intro j session hfam hauth
  refine hw.checks j session hfam ?_
  -- the check has the session before the step, or the step brought it there past the gate
  have hbefore : ∀ c', w'.checks[j]? = some c' → (c'.pc = .getUser session ∨ c'.pc = .accepted session) →
      w.checks[j]? = some c' ∨ ∃ c, w.checks[j]? = some c ∧ c.pc = .getUser session := by
    intro c' hc' hpc
    rcases step_check h hc' with hold | hnew | ⟨c, cached, t', hc, -, hstep⟩
    · exact .inl hold
    · rw [hnew] at hpc
      rcases hpc with hpc | hpc <;> cases hpc
    · have htracked := hw.sound.checks c (List.mem_of_getElem? hc)
      exact .inr ⟨c, hc, checkStep_shut hw.lost hfam htracked hstep hpc⟩
  unfold World.Authorized World.Accepted at hauth ⊢
  simp only [Option.map_eq_some_iff] at hauth ⊢
  rcases hauth with ⟨c, hc, hpc⟩ | ⟨c, hc, hpc⟩
  · exact .inl ((hbefore c hc (.inl hpc)).elim (fun hold => ⟨c, hold, hpc⟩) id)
  · rcases hbefore c hc (.inr hpc) with hold | hgate
    · exact .inr ⟨c, hold, hpc⟩
    · exact .inl hgate

/-! ## Logout-all and login -/

/-- The request has ended with the outcome. -/
def World.Returned (w : World) (i : ℕ) (out : Outcome Reply) : Prop :=
  (w.sys.calls[i]?).map Call.pc = some (.returned out)

instance (w : World) (i : ℕ) (out : Outcome Reply) : Decidable (w.Returned i out) :=
  inferInstanceAs (Decidable (_ = _))

/-- When a logout-all that begins now has returned, no check accepts a token of a family that the user
has now, unless it had passed the gate of the family by then. -/
def World.LogoutAllRevokes (cfg : AuthSettings) (w₁ : World) : Prop :=
  ∀ (email : String) (es : List Event) (w₂ : World) (reply : Reply),
    run (World.step cfg) w₁ (.begin (.logoutAll email) :: es) = some w₂ →
    w₂.Returned w₁.sys.calls.length (.ok reply) →
    ∀ g ∈ w₁.tables.families, g.email = email →
      ∀ (es' : List Event) (w₃ : World), run (World.step cfg) w₂ es' = some w₃ →
        ∀ (j : ℕ) (session : SessionRow), session.familyId = some g.familyId →
          w₃.Accepted j session → w₂.Authorized j session

/-- When a login that begins now has returned a token, its family is there; and as long as no logout,
logout-all or compromise has revoked it, and no refresh rotated it, since the login began, every check of
it that begins after the login and completes before it expires accepts it. -/
def World.LoginsLast (cfg : AuthSettings) (w₁ : World) : Prop :=
  ∀ (email password : String) (es : List Event) (w w₂ : World) (issued : ℤ) (token : ℕ),
    run (World.step cfg) w₁ (.begin (.login email password) :: es) = some w →
    w.step cfg (.move w₁.sys.calls.length issued) = some w₂ →
    w₂.Returned w₁.sys.calls.length (.ok (.session token)) →
    ∃ f, w₂.tables.Lives token email f ∧ (∃ g ∈ w₂.tables.families, g.familyId = f) ∧
      ∀ (es' : List Event) (w₃ : World), run (World.step cfg) w₂ es' = some w₃ →
        Guarded (World.step cfg) (World.Spares token email f) w₁
          (.begin (.login email password) :: es ++ .move w₁.sys.calls.length issued :: es') →
        w₃.clock ≤ w₃.expiresAt token →
        (∃ g ∈ w₃.tables.families, g.familyId = f ∧ g.compromised = false) ∧
          ∀ (j : ℕ) (c : Check) (cached : Bool), w₂.checks.length ≤ j → w₃.checks[j]? = some c →
            c.token = token →
              ∃ w₄ session, run (World.step cfg) w₃
                  (List.replicate c.pc.remaining (.moveCheck j cached)) = some w₄ ∧
                w₄.Accepted j session ∧ session.email = email

theorem World.Sound.run {w w' : World} {es : List Event} (hw : w.Sound n)
    (hrun : run (World.step cfg) w es = some w') : w'.Sound n :=
  run_invariant (fun _ _ _ h hstep => World.Sound.step h hstep) hw hrun

theorem at_begin {P : Tables → Pc → Prop} {w w' : World} {r : Request}
    (h : w.step cfg (.begin r) = some w') (hP : P w.tables r.start) : w'.At w.sys.calls.length P := by
  obtain rfl := Option.some.inj h
  exact ⟨Call.start r, by simp, hP⟩

/-- A place that every statement keeps is kept along a run. -/
theorem World.At.run {P : Tables → Pc → Prop} {w w' : World} {i : ℕ} {es : List Event}
    (hcarry : ∀ t t' pc, Auth.Carries n t t' → P t pc → P t' pc)
    (hown : ∀ now t t' pc pc', t.Sound n → P t pc → advance cfg now t pc = some (t', pc') → P t' pc')
    (hw : w.Sound n) (hi : w.At i P) (hrun : run (World.step cfg) w es = some w') : w'.At i P := by
  have hpreserved : ∀ (w : World) (e : Event) (w' : World), w.Sound n ∧ w.At i P →
      World.step cfg w e = some w' → w'.Sound n ∧ w'.At i P := by
    rintro w e w' ⟨hsound, hat⟩ hstep
    exact ⟨hsound.step hstep, hat.step hcarry hown hsound hstep⟩
  exact (run_invariant hpreserved ⟨hw, hi⟩ hrun).2

theorem World.Sound.logoutAllRevokes {w₁ : World} (hw : w₁.Sound n) : w₁.LogoutAllRevokes cfg := by
  rintro email es w₂ reply hrun hreturned g hg rfl es' w₃ hrun' j session hfam haccepted
  obtain ⟨w, hbegin, hrest⟩ := run_cons_eq_some.mp hrun
  have hstart : LogoutAllAt g.email g.familyId w₁.tables (.logoutAll (.deleteSessions g.email)) := by
    refine ⟨rfl, hw.tables.numbered.families g hg, ?_⟩
    intro g' hg' hid
    rw [List.inj_on_of_nodup_map hw.tables.nodupFamilies hg' hg hid]
  have hsound₂ : w₂.Sound n := hw.run hrun
  obtain ⟨c, hc, hat⟩ : w₂.At w₁.sys.calls.length (LogoutAllAt g.email g.familyId) :=
    World.At.run (fun _ _ _ => logoutAllAt_carries) (fun _ _ _ _ _ _ => logoutAllAt_advance)
      (hw.step hbegin) (at_begin hbegin hstart) hrest
  have hpc : c.pc = .returned (.ok reply) := by
    unfold World.Returned at hreturned
    rw [hc, Option.map_some] at hreturned
    exact Option.some.inj hreturned
  rw [hpc] at hat
  have hshut : Shut n g.familyId w₂ w₂ := ⟨hsound₂, hat, fun _ _ _ h => h⟩
  have hshut' : Shut n g.familyId w₂ w₃ :=
    run_invariant (fun _ _ _ h hstep => Shut.step h hstep) hshut hrun'
  exact hshut'.checks j session hfam (.inr haccepted)

/-- The statement of a login that returns the token has found its session, in a family drawn since the
login began. -/
theorem World.At.session_stored {w w₂ : World} {N M i : ℕ} {issued : ℤ}
    (hat : w.At i (LoginAt N M email)) (hstep : w.step cfg (.move i issued) = some w₂)
    (hreturned : w₂.Returned i (.ok (.session token))) :
    w₂.tables = w.tables ∧ w₂.checks = w.checks ∧ w.tables.Knows email ∧ M ≤ token ∧
      token < w.tables.nextToken ∧ ∃ f, N ≤ f ∧ w.tables.Lives token email f := by
  obtain ⟨c, hc, hlogin⟩ := hat
  obtain ⟨c', t', pc, hc', hadv, rfl⟩ := step_move hstep
  obtain rfl : c' = c := Option.some.inj (hc'.symm.trans hc)
  have hpc : pc = .returned (.ok (.session token)) := by
    unfold World.Returned at hreturned
    rw [List.getElem?_set_self (List.getElem?_eq_some_iff.mp hc).1, Option.map_some] at hreturned
    exact Option.some.inj hreturned
  subst hpc
  obtain ⟨rfl, hfound, r, hr⟩ := advance_eq_session hlogin hadv
  have hstage := hlogin.stage
  rw [hfound] at hstage
  obtain ⟨hknows, hle, hlt, hrow⟩ := hstage
  obtain ⟨hmem, hkey⟩ := getSession_spec hr
  obtain ⟨hemail, f, hfam, hNf⟩ := hrow r hmem hkey
  exact ⟨rfl, rfl, hknows, hle, hlt, f, hNf, r, hmem, hkey, hemail, hfam⟩

theorem World.Sound.loginsLast {w₁ : World} (hw : w₁.Sound n) : w₁.LoginsLast cfg := by
  intro email password es w w₂ issued token hrun hstep hreturned
  obtain ⟨wb, hbegin, hrest⟩ := run_cons_eq_some.mp hrun
  have hM : n ≤ w₁.tables.nextToken := hw.tables.le
  have hstart : LoginAt w₁.tables.nextFamily w₁.tables.nextToken email w₁.tables
      (.login (.getUser email password)) := ⟨Nat.le_refl _, Nat.le_refl _, rfl⟩
  have hat : w.At w₁.sys.calls.length (LoginAt w₁.tables.nextFamily w₁.tables.nextToken email) :=
    World.At.run (fun _ _ _ => loginAt_carries hM) (fun _ _ _ _ _ => loginAt_advance)
      (hw.step hbegin) (at_begin hbegin hstart) hrest
  have hsound₂ : w₂.Sound n := (hw.run hrun).step hstep
  obtain ⟨htables, hchecks, hknows, hle, hlt, f, hNf, hlives⟩ := hat.session_stored hstep hreturned
  have hfamily : ∃ g ∈ w₂.tables.families, g.familyId = f := by
    obtain ⟨r, hr, -, -, hfam⟩ := htables ▸ hlives
    exact hsound₂.tables.families r hr f hfam
  refine ⟨f, htables ▸ hlives, hfamily, ?_⟩
  intro es' w₃ hrun' hguarded hfresh
  -- the family was drawn after the login began, so it was unmarked then
  have hclean₁ : w₁.tables.Clean f := by
    intro g hg hid
    exact absurd (hid ▸ hw.tables.numbered.families g hg) (Nat.not_lt.mpr hNf)
  obtain ⟨hguarded₁, hguarded₂⟩ := guarded_append_iff.mp hguarded
  have hmove := hguarded₂ w hrun
  have hclean : w.tables.Clean f :=
    run_invariant_of_guarded (fun _ _ _ h hspares hstep => clean_step h hspares.1 hstep) hclean₁
      hguarded₁ hrun
  have hlasting : Lasting n token email f w.checks.length w₂ :=
    { sound := hsound₂
      le := hM.trans hle
      lt := htables ▸ hlt
      clean := htables ▸ hclean
      knows := htables ▸ hknows
      lasts := .inr ⟨htables ▸ hlives, fun j c hj hc _ =>
        absurd (List.getElem?_eq_some_iff.mp (hchecks ▸ hc)).1 (Nat.not_lt.mpr hj)⟩ }
  have hlasting₃ : Lasting n token email f w.checks.length w₃ :=
    run_invariant_of_guarded (fun _ _ _ h hspares hstep => Lasting.step h hspares hstep) hlasting
      (hmove.2 _ hstep) hrun'
  have hfresh' : ¬ w₃.expiresAt token < w₃.clock := Int.not_lt.mpr hfresh
  refine ⟨?_, ?_⟩
  · obtain ⟨⟨r', hr', -, -, hfam'⟩, -⟩ := hlasting₃.lasts.resolve_left hfresh'
    obtain ⟨g, hg, hid⟩ := hlasting₃.sound.tables.families r' hr' f hfam'
    exact ⟨g, hg, hid, hlasting₃.clean g hg hid⟩
  · intro j c cached hj hc htoken
    exact hlasting₃.completes hfresh' (hchecks ▸ hj) hc htoken cached

/-- In every interleaving of requests, checks and sweeps: a logout-all that has returned has revoked the
families the user had when it began, and a login lasts until its token is revoked, rotated or expired. -/
theorem logoutAll_revokes_login_lasts (cfg : AuthSettings) (clock : ℤ) (expiresAt : ℕ → ℤ)
    (users : List UserRow) (legacy : List String) {es : List Event} {w₁ : World}
    (hrun : run (World.step cfg) (World.init clock expiresAt users legacy) es = some w₁) :
    w₁.LogoutAllRevokes cfg ∧ w₁.LoginsLast cfg := by
  have hw : w₁.Sound legacy.length := (sound_init clock expiresAt users legacy).run hrun
  exact ⟨hw.logoutAllRevokes, hw.loginsLast⟩

/-- Request `i` executes `n` statements. -/
def execute (i n : ℕ) : List Event := List.replicate n (.move i 0)

/-- The user of the runs below, with an empty session table, at time 0. -/
def sampleWorld : World := World.init 0 (fun _ => 0) [sampleUser] []

/-- A login. -/
def loggedIn : List Event := .begin (.login "ana@noc.example" "secret") :: execute 0 6

theorem logoutAll_revokes_login_lasts_loggedIn : ∃ w₁ w₂ w₃,
    run (World.step sampleSettings) sampleWorld loggedIn = some w₁ ∧
      w₁.LogoutAllRevokes sampleSettings ∧ w₁.LoginsLast sampleSettings ∧
      run (World.step sampleSettings) w₁
        (.begin (.logoutAll "ana@noc.example") :: execute 1 3) = some w₂ ∧
      w₂.Returned 1 (.ok (.count 1)) ∧
      run (World.step sampleSettings) w₂ [.beginCheck 0, .moveCheck 0 true] = some w₃ ∧
      ∀ session, session.familyId = some 0 → ¬ w₃.Accepted 0 session := by
  obtain ⟨w₁, hrun, w₂, w₃, hlogout, hreturned, hcheck, hfamily, hcalls, hchecks⟩ : ∃ w₁,
      run (World.step sampleSettings) sampleWorld loggedIn = some w₁ ∧ ∃ w₂ w₃,
        run (World.step sampleSettings) w₁
          (.begin (.logoutAll "ana@noc.example") :: execute 1 3) = some w₂ ∧
        w₂.Returned 1 (.ok (.count 1)) ∧
        run (World.step sampleSettings) w₂ [.beginCheck 0, .moveCheck 0 true] = some w₃ ∧
        (⟨0, "ana@noc.example", 0, false⟩ : FamilyRow) ∈ w₁.tables.families ∧
        w₁.sys.calls.length = 1 ∧ w₂.checks = [] :=
    ⟨_, rfl, _, _, rfl, by decide, rfl, by decide, rfl, rfl⟩
  obtain ⟨hrevokes, hlasts⟩ := logoutAll_revokes_login_lasts sampleSettings 0 (fun _ => 0) [sampleUser] []
    hrun
  refine ⟨w₁, w₂, w₃, hrun, hrevokes, hlasts, hlogout, hreturned, hcheck, ?_⟩
  intro session hfam haccepted
  have hauth := hrevokes "ana@noc.example" (execute 1 3) w₂ (.count 1) hlogout (hcalls ▸ hreturned)
    _ hfamily rfl _ w₃ hcheck 0 session hfam haccepted
  simp [World.Authorized, World.Accepted, hchecks] at hauth

/-- A login stores its session between the two commits of a logout-all. -/
def loginDuringLogoutAll : List Event :=
  .begin (.login "ana@noc.example" "secret") :: execute 0 4 ++
    .begin (.logoutAll "ana@noc.example") :: execute 1 1 ++ execute 0 2 ++ execute 1 2

/-- A refresh with the token of the login, and a check of the token. -/
def checkAfterRefresh : List Event :=
  .begin (.refresh 0) :: execute 1 13 ++ [.beginCheck 0, .moveCheck 0 false]

/-- A check passes the gate of the family; a logout-all comes and goes; the check reads the user. -/
def checkAroundLogoutAll : List Event :=
  [.beginCheck 0, .moveCheck 0 false, .moveCheck 0 false] ++
    .begin (.logoutAll "ana@noc.example") :: execute 1 3

/-- A logout-all raises; a token that is neither revoked nor expired is refused after a refresh; and a
check that was past the gate of the family accepts its token after a logout-all has returned. -/
theorem logoutAll_raises_refresh_ends_login :
    (∃ w, run (World.step sampleSettings) sampleWorld loginDuringLogoutAll = some w ∧
        w.Returned 1 (.error (.integrityError "fk_sessions_token_families"))) ∧
      (∃ w₁ w₂, run (World.step sampleSettings) sampleWorld loggedIn = some w₁ ∧
        w₁.Returned 0 (.ok (.session 0)) ∧
        run (World.step sampleSettings) w₁ checkAfterRefresh = some w₂ ∧
        w₁.tables.getSession 0 = some ⟨0, 0, "ana@noc.example", some 0, 0⟩ ∧
        Guarded (World.step sampleSettings) (World.Unrevoked 0 "ana@noc.example" 0) sampleWorld
          (loggedIn ++ checkAfterRefresh) ∧
        w₂.clock ≤ w₂.expiresAt 0 ∧ (w₂.checks[0]?).map Check.pc = some .rejected) ∧
      ∃ w₁ w₂ w₃ session, run (World.step sampleSettings) sampleWorld loggedIn = some w₁ ∧
        run (World.step sampleSettings) w₁ checkAroundLogoutAll = some w₂ ∧
        w₂.Returned 1 (.ok (.count 1)) ∧
        w₂.step sampleSettings (.moveCheck 0 false) = some w₃ ∧
        session.familyId = some 0 ∧ w₃.Accepted 0 session := by
  exact ⟨⟨_, rfl, by decide⟩,
    ⟨_, _, rfl, by decide, rfl, rfl, by decide, by decide, by decide⟩,
    ⟨_, _, _, ⟨0, 0, "ana@noc.example", some 0, 0⟩, rfl, rfl, by decide, rfl, rfl, by decide⟩⟩

end ApexChainx.Auth
