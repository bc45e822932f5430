import ApexChainx.Auth.Sessions

/-!
# A refresh on its own

What `AuthStore.refresh` does when no other request moves between its statements, from any tables: the
presented token may have no session, its session no family or a family that is gone, and its user may be
gone. The rotation commits the new sequence, the deletion of the old session and the new session one by
one, and asks the loaded user for `user_id` at the end; a user that is missing is only noticed after the
old session is deleted. A row without its user exists only where the foreign keys to `users` are not
enforced, so they stop no statement here.
-/

namespace ApexChainx.Auth

open ApexChainx.Lib

/-- A refresh runs from a statement to its end: the tables it leaves, and what it returns or raises. -/
inductive RefreshRun (now : ℤ) : Tables → RefreshPc → Tables → Outcome Reply → Prop
  | done {t t' : Tables} {pc : RefreshPc} {out : Outcome Reply}
      (h : refreshStep now t pc = (t', .done out)) : RefreshRun now t pc t' out
  | goto {t t' : Tables} {pc : RefreshPc} {out : Outcome Reply} (t₁ : Tables) (pc₁ : RefreshPc)
      (h : refreshStep now t pc = (t₁, .goto pc₁)) (rest : RefreshRun now t₁ pc₁ t' out) :
      RefreshRun now t pc t' out

/-- `uuid4` draws a family id that is not in use. -/
def Tables.FreshFamily (t : Tables) : Prop :=
  ∀ g ∈ t.families, g.familyId ≠ t.nextFamily

variable {now : ℤ} {t t' : Tables}

theorem RefreshRun.unique {pc : RefreshPc} {t₁ t₂ : Tables} {out₁ out₂ : Outcome Reply}
    (h₁ : RefreshRun now t pc t₁ out₁) (h₂ : RefreshRun now t pc t₂ out₂) : t₁ = t₂ ∧ out₁ = out₂ := by
  induction h₁ with
  | done h =>
      cases h₂ with
      | done h' =>
          rw [h] at h'
          obtain ⟨rfl, hdone⟩ := Prod.mk.inj h'
          exact ⟨rfl, Next.done.inj hdone⟩
      | goto _ _ h' _ =>
          rw [h] at h'
          cases h'
  | goto _ _ h _ ih =>
      cases h₂ with
      | done h' =>
          rw [h] at h'
          cases h'
      | goto _ _ h' rest =>
          rw [h] at h'
          obtain ⟨rfl, hgoto⟩ := Prod.mk.inj h'
          obtain rfl := Next.goto.inj hgoto
          exact ih rest

/-! ## The property -/

/-- A refresh of the token succeeds in reaching its rotation: its session has a family that is neither
gone, nor compromised, nor ahead of it. -/
def Tables.Refreshable (t : Tables) (token : ℕ) : Prop :=
  ∃ r f g, t.getSessionByRefreshToken token = some r ∧ r.familyId = some f ∧ t.getFamily f = some g ∧
    g.compromised = false ∧ ¬ r.sequence < g.currentSequence

/-- The session of the token, and the sequence of its family, are as before. -/
def Untouched (t t' : Tables) (token : ℕ) : Prop :=
  t'.getSessionByRefreshToken token = t.getSessionByRefreshToken token ∧
    ∀ old, t.getSessionByRefreshToken token = some old → ∀ f, old.familyId = some f →
      (t'.getFamily f).map (·.currentSequence) = (t.getFamily f).map (·.currentSequence)

/-- The token's family is compromised, or ahead of its session. -/
def Suspect (old : SessionRow) (g : FamilyRow) : Prop :=
  g.compromised = true ∨ old.sequence < g.currentSequence

/-- The token belongs to a compromised family or is used again, and its family ends compromised. -/
def EndsCompromised (t t' : Tables) (token : ℕ) : Prop :=
  ∃ old f g, t.getSessionByRefreshToken token = some old ∧ old.familyId = some f ∧
    t.getFamily f = some g ∧ Suspect old g ∧ ∃ g', t'.getFamily f = some g' ∧ g'.compromised = true

/-- A refresh returns a token pair that is stored in the same family and can be refreshed, or raises
`ValueError` and leaves all as it was or the family compromised. -/
def Atomic (t t' : Tables) (token : ℕ) (out : Outcome Reply) : Prop :=
  (∃ new, out = .ok (.session new) ∧ t'.Refreshable new ∧
    ∃ old r, t.getSessionByRefreshToken token = some old ∧ t'.getSessionByRefreshToken new = some r ∧
      ∀ f, old.familyId = some f → r.familyId = some f) ∨
  (∃ detail, out = .error (.valueError detail)) ∧ (Untouched t t' token ∨ EndsCompromised t t' token)

/-- The refresh ends before it asks the user for `user_id` and before it changes anything it should not:
the token has no session, the account is locked, the family is gone, or the user is gone and the token
suspect. -/
def EndsEarly (now : ℤ) (t : Tables) (token : ℕ) : Prop :=
  ∀ old, t.getSessionByRefreshToken token = some old →
    (t.getByEmail old.email).any (isLocked now) = true ∨
      ∃ f, old.familyId = some f ∧ ∀ g, t.getFamily f = some g →
        t.getByEmail old.email = none ∧ Suspect old g

theorem not_atomic_attributeError {token : ℕ} {object name : String} :
    ¬ Atomic t t' token (.error (.attributeError object name)) := by
  rintro (⟨new, hout, -⟩ | ⟨⟨detail, hout⟩, -⟩)
  · cases hout
  · cases hout

/-! ## Lookups after a statement -/

theorem mem_of_getSessionByRefreshToken {token : ℕ} {old : SessionRow}
    (h : t.getSessionByRefreshToken token = some old) : old ∈ t.sessions ∧ old.refreshToken = token :=
  ⟨List.mem_of_find?_eq_some h, by simpa using List.find?_some h⟩

theorem getSession_of_mem {r : SessionRow} (h : r ∈ t.sessions) :
    ∃ row, t.getSession r.accessToken = some row := by
  have hsome : (t.getSession r.accessToken).isSome = true :=
    List.find?_isSome.mpr ⟨r, h, decide_eq_true rfl⟩
  exact Option.isSome_iff_exists.mp hsome

theorem familyId_of_getFamily {f : ℕ} {g : FamilyRow} (h : t.getFamily f = some g) : g.familyId = f := by
  simpa using List.find?_some h

theorem getFamily_updateFamily {f : ℕ} {g : FamilyRow} {change : FamilyRow → FamilyRow}
    (hid : ∀ g, (change g).familyId = g.familyId) (h : t.getFamily f = some g) :
    (t.updateFamily f change).getFamily f = some (change g) := by
  unfold Tables.getFamily Tables.updateFamily at *
  rw [find?_updateKey hid, h, Option.map_some]

theorem getFamily_insertFamily (hfresh : t.FreshFamily) (email : String) :
    (t.insertFamily email).getFamily t.nextFamily = some ⟨t.nextFamily, email, 0, false⟩ := by
  have hnone : t.families.find? (fun g => decide (g.familyId = t.nextFamily)) = none :=
    List.find?_eq_none.mpr fun g hg => by simpa using hfresh g hg
  unfold Tables.getFamily Tables.insertFamily
  rw [List.find?_append, hnone]
  simp

/-! ## The rotation -/

/-- What a rotation raises at its end. -/
def rotationError (user : Option UserRow) : Outcome Reply :=
  match user with
  | none => .error (.valueError "User not found")
  | some _ => .error (.attributeError "UserORM" "user_id")

/-- A rotation deletes the session of the token, and raises. -/
theorem run_findIncremented (now : ℤ) {l : Loaded} {g : FamilyRow}
    (hfamily : t.getFamily l.family.familyId = some g)
    (hold : ∃ r ∈ t.sessions, r.accessToken = l.old.accessToken) :
    ∃ t', RefreshRun now t (.findIncremented l) t' (rotationError l.user) ∧
      (l.user = none → ∀ r ∈ t'.sessions, r.accessToken ≠ l.old.accessToken) := by
  obtain ⟨r, hr, haccess⟩ := hold
  obtain ⟨row, hrow⟩ := getSession_of_mem hr
  rw [haccess] at hrow
  set t₁ := t.updateFamily l.family.familyId fun g =>
    { g with currentSequence := l.family.currentSequence + 1 } with ht₁
  set g₁ : FamilyRow := { g with currentSequence := l.family.currentSequence + 1 } with hg₁
  have hid : g.familyId = l.family.familyId := familyId_of_getFamily hfamily
  have hfamily₁ : t₁.getFamily l.family.familyId = some g₁ :=
    getFamily_updateFamily (fun _ => rfl) hfamily
  have hrow₁ : t₁.getSession l.old.accessToken = some row := hrow
  set l₁ : Loaded := { l with family := g₁ } with hl₁
  set t₂ := t₁.deleteSessions (·.accessToken = l.old.accessToken) with ht₂
  -- up to the deletion of the old session nothing depends on the user
  have hrun : ∀ {t' : Tables} {out : Outcome Reply},
      RefreshRun now t₁ (.deleteOld l₁) t' out → RefreshRun now t (.findIncremented l) t' out := by
    intro t' out h
    refine .goto t (.increment l) (by simp [refreshStep, hfamily]) ?_
    refine .goto t₁ (.refreshIncremented l) (by simp [refreshStep, hfamily, ht₁]) ?_
    refine .goto t₁ (.reloadAccessToken l₁) (by simp [refreshStep, hfamily₁, hl₁]) ?_
    refine .goto t₁ (.findOld l₁) (by simp [refreshStep, hrow₁, hl₁]) ?_
    exact .goto t₁ (.deleteOld l₁) (by simp [refreshStep, hrow₁, hl₁]) h
  cases huser : l.user with
  | none =>
      refine ⟨t₂, hrun (.done (by simp [refreshStep, withUser, hl₁, huser, ht₂, rotationError])), ?_⟩
      intro _ r hr
      simpa using (List.mem_filter.mp hr).2
  | some user =>
      have hfamily₂ : t₂.getFamily g₁.familyId = some g₁ := by
        rw [hid]
        exact hfamily₁
      have hnew : ∃ row, (t₂.insertSession l.old.email g₁.familyId (g₁.currentSequence + 1)).getSession
          t₂.nextToken = some row := by
        refine getSession_of_mem (r := ⟨t₂.nextToken, t₂.nextToken, l.old.email, some g₁.familyId,
          g₁.currentSequence + 1⟩) ?_
        exact List.mem_append_right _ List.mem_cons_self
      obtain ⟨new, hnew⟩ := hnew
      set t₃ := t₂.insertSession l.old.email g₁.familyId (g₁.currentSequence + 1) with ht₃
      refine ⟨t₃, hrun ?_, fun h => by cases h⟩
      refine .goto t₂ (.reloadFamily l₁)
        (by simp [refreshStep, withUser, hl₁, huser, ht₂]) ?_
      refine .goto t₂ (.createSession l₁) (by simp [refreshStep, hl₁, hfamily₂]) ?_
      refine .goto t₃ (.refreshSession l₁ t₂.nextToken) (by simp [refreshStep, hl₁, hfamily₂, ht₃]) ?_
      exact .done (by simp [refreshStep, hnew, rotationError])

/-! ## The reuse branch -/

/-- A replay leaves the family compromised. -/
theorem run_findCompromised (now : ℤ) {l : Loaded} {g : FamilyRow}
    (hfamily : t.getFamily l.family.familyId = some g) :
    ∃ t', RefreshRun now t (.findCompromised l) t'
        (auditAndRaise l.user "Refresh token reuse detected. Session family invalidated.") ∧
      t'.getFamily l.family.familyId = some { g with compromised := true } := by
  set t₁ := t.updateFamily l.family.familyId fun g => { g with compromised := true } with ht₁
  have hfamily₁ : t₁.getFamily l.family.familyId = some { g with compromised := true } :=
    getFamily_updateFamily (fun _ => rfl) hfamily
  set tokens := (t₁.sessions.filter (·.familyId = some l.family.familyId)).map SessionRow.accessToken
    with htokens
  refine ⟨t₁.deleteSessions fun r => tokens.contains r.accessToken, ?_, hfamily₁⟩
  refine .goto t (.compromise l) (by simp [refreshStep, hfamily]) ?_
  refine .goto t₁ (.refreshCompromised l) (by simp [refreshStep, hfamily, ht₁]) ?_
  refine .goto t₁ (.selectFamilySessions l) (by simp [refreshStep, hfamily₁]) ?_
  refine .goto t₁ (.deleteFamilySessions l tokens) (by simp [refreshStep, htokens]) ?_
  exact .done (by simp [refreshStep])

/-! ## Sessions without a family -/

theorem getSession_migrateSession {accessToken familyId : ℕ} {row : SessionRow}
    (h : t.getSession accessToken = some row) :
    (t.migrateSession accessToken familyId).getSession accessToken =
      some { row with familyId := some familyId, sequence := 0 } := by
  unfold Tables.getSession Tables.migrateSession at *
  rw [find?_updateKey, h, Option.map_some]
  intro r
  rfl

/-- A session without a family gets a new one, at sequence 0, and is rotated. -/
theorem run_createFamily (now : ℤ) {old : SessionRow} (hfresh : t.FreshFamily)
    (hold : old ∈ t.sessions) :
    ∃ t', RefreshRun now t (.createFamily old) t' (rotationError (t.getByEmail old.email)) ∧
      (t.getByEmail old.email = none → old ∉ t'.sessions) := by
  obtain ⟨row, hrow⟩ := getSession_of_mem hold
  set f := t.nextFamily with hf
  set t₁ := t.insertFamily old.email with ht₁
  have hfamily : t₁.getFamily f = some ⟨f, old.email, 0, false⟩ := getFamily_insertFamily hfresh old.email
  have hrow₁ : t₁.getSession old.accessToken = some row := hrow
  set t₂ := t₁.migrateSession old.accessToken f with ht₂
  have hfamily₂ : t₂.getFamily f = some ⟨f, old.email, 0, false⟩ := hfamily
  have hrow₂ : t₂.getSession old.accessToken = some { row with familyId := some f, sequence := 0 } :=
    getSession_migrateSession hrow₁
  set l : Loaded := ⟨{ old with sequence := 0 }, ⟨f, old.email, 0, false⟩, t.getByEmail old.email⟩
    with hl
  have hmem₂ : ∃ r ∈ t₂.sessions, r.accessToken = l.old.accessToken :=
    ⟨_, List.mem_of_find?_eq_some hrow₂, by simpa using List.find?_some hrow₂⟩
  obtain ⟨t', hrun, hgone⟩ := run_findIncremented now (l := l) hfamily₂ hmem₂
  refine ⟨t', ?_, fun huser hmem => hgone huser old hmem rfl⟩
  refine .goto t₁ (.refreshNewFamily old f) (by simp [refreshStep, ht₁, hf]) ?_
  refine .goto t₁ (.migrateSession old f) (by simp [refreshStep, hfamily]) ?_
  refine .goto t₂ (.getFamily old f true) (by simp [refreshStep, hrow₁, hfamily, ht₂]) ?_
  refine .goto t₂ (.getUser old ⟨f, old.email, 0, false⟩ true) (by simp [refreshStep, hfamily₂]) ?_
  refine .goto t₂ (.reloadSequence ⟨old, ⟨f, old.email, 0, false⟩, t.getByEmail old.email⟩) ?_ ?_
  · simp only [refreshStep, Bool.false_eq_true, if_false, if_true]
    rfl
  · refine .goto t₂ (.findIncremented l) ?_ hrun
    simp [refreshStep, hrow₂, reuseCheck, hl]

/-! ## A refresh from its first statement -/

theorem Untouched.refl (token : ℕ) : Untouched t t token :=
  ⟨rfl, fun _ _ _ _ => rfl⟩

/-- A refresh that raises `ValueError` before its first commit is atomic. -/
theorem atomic_untouched {token : ℕ} {detail : String} :
    Atomic t t token (.error (.valueError detail)) :=
  .inr ⟨⟨detail, rfl⟩, .inl (.refl token)⟩

/-- No rotation is atomic: with its user it raises `AttributeError` at the end, without it the session
is gone. -/
theorem not_atomic_rotationError {token : ℕ} {old : SessionRow} {user : Option UserRow}
    (hold : t.getSessionByRefreshToken token = some old) (hgone : user = none → old ∉ t'.sessions)
    (hsafe : ∀ f g, old.familyId = some f → t.getFamily f = some g → ¬ Suspect old g) :
    ¬ Atomic t t' token (rotationError user) := by
  cases user with
  | some user => exact not_atomic_attributeError
  | none =>
      rintro (⟨new, hout, -⟩ | ⟨-, ⟨hsession, -⟩ | ⟨r, f, g, hr, hf, hg, hsuspect, -⟩⟩)
      · cases hout
      · rw [hold] at hsession
        exact hgone rfl (mem_of_getSessionByRefreshToken hsession).1
      · rw [hold] at hr
        obtain rfl := Option.some.inj hr
        exact hsafe f g hf hg hsuspect

/-- What ends with `auditAndRaise` is atomic without a user, as far as the tables are. -/
theorem atomic_auditAndRaise_iff {token : ℕ} {user : Option UserRow} {detail : String}
    (h : Untouched t t' token ∨ EndsCompromised t t' token) :
    Atomic t t' token (auditAndRaise user detail) ↔ user = none := by
  cases user with
  | some user => exact iff_of_false not_atomic_attributeError (by simp)
  | none => exact iff_of_true (.inr ⟨⟨detail, rfl⟩, h⟩) rfl

theorem endsEarly_iff {token f : ℕ} {old : SessionRow} {g : FamilyRow}
    (hold : t.getSessionByRefreshToken token = some old)
    (hlock : ¬ (t.getByEmail old.email).any (isLocked now) = true) (hf : old.familyId = some f)
    (hfamily : t.getFamily f = some g) :
    EndsEarly now t token ↔ t.getByEmail old.email = none ∧ Suspect old g := by
  constructor
  · intro h
    obtain hlocked | ⟨f', hf', hearly⟩ := h old hold
    · exact absurd hlocked hlock
    · obtain rfl := Option.some.inj (hf.symm.trans hf')
      exact hearly g hfamily
  · intro h r hr
    obtain rfl := Option.some.inj (hold.symm.trans hr)
    refine .inr ⟨f, hf, ?_⟩
    intro g' hg'
    obtain rfl := Option.some.inj (hfamily.symm.trans hg')
    exact h

/-- A session whose family is there: the compromised branch, the reuse branch and the rotation. -/
theorem run_getFamily (now : ℤ) {token f : ℕ} {old : SessionRow} {g : FamilyRow}
    (hold : t.getSessionByRefreshToken token = some old) (hf : old.familyId = some f)
    (hfamily : t.getFamily f = some g) :
    ∃ t' out, RefreshRun now t (.getFamily old f false) t' out ∧
      (Atomic t t' token out ↔ t.getByEmail old.email = none ∧ Suspect old g) := by
  obtain rfl := familyId_of_getFamily hfamily
  set user := t.getByEmail old.email with huser
  have hget : ∀ {t' : Tables} {out : Outcome Reply}, RefreshRun now t (.getUser old g false) t' out →
      RefreshRun now t (.getFamily old g.familyId false) t' out :=
    fun h => .goto t (.getUser old g false) (by simp [refreshStep, hfamily]) h
  by_cases hcompromised : g.compromised = true
  · refine ⟨t, auditAndRaise user "Session family has been compromised", hget (.done ?_), ?_⟩
    · simp [refreshStep, hcompromised, huser]
    · rw [atomic_auditAndRaise_iff (.inl (.refl token))]
      exact (and_iff_left (.inl hcompromised)).symm
  · have hcheck : ∀ {t' : Tables} {out : Outcome Reply},
        RefreshRun now t (reuseCheck ⟨old, g, user⟩) t' out →
          RefreshRun now t (.getFamily old g.familyId false) t' out :=
      fun h => hget (.goto t (reuseCheck ⟨old, g, user⟩) (by simp [refreshStep, hcompromised, huser]) h)
    by_cases hsequence : old.sequence < g.currentSequence
    · obtain ⟨t', hrun, hend⟩ := run_findCompromised now (l := ⟨old, g, user⟩) hfamily
      refine ⟨t', _, hcheck (by simpa [reuseCheck, hsequence] using hrun), ?_⟩
      have hends : EndsCompromised t t' token :=
        ⟨old, g.familyId, g, hold, hf, hfamily, .inr hsequence, _, hend, rfl⟩
      rw [atomic_auditAndRaise_iff (.inr hends)]
      exact (and_iff_left (.inr hsequence)).symm
    · have hsafe : ¬ Suspect old g := not_or.mpr ⟨hcompromised, hsequence⟩
      obtain ⟨hmem, -⟩ := mem_of_getSessionByRefreshToken hold
      obtain ⟨t', hrun, hgone⟩ :=
        run_findIncremented now (l := ⟨old, g, user⟩) hfamily ⟨old, hmem, rfl⟩
      refine ⟨t', _, hcheck (by simpa [reuseCheck, hsequence] using hrun), ?_⟩
      refine iff_of_false (not_atomic_rotationError hold ?_ ?_) fun h => hsafe h.2
      · intro huser hmem'
        exact hgone huser old hmem' rfl
      · intro f' g' hf' hg'
        obtain rfl := Option.some.inj (hf.symm.trans hf')
        obtain rfl := Option.some.inj (hfamily.symm.trans hg')
        exact hsafe

/-- Every refresh ends, and it is atomic exactly when it ends early. -/
theorem run_refresh (now : ℤ) (hfresh : t.FreshFamily) (token : ℕ) :
    ∃ t' out, RefreshRun now t (.findSession token) t' out ∧
      (Atomic t t' token out ↔ EndsEarly now t token) := by
  cases hold : t.getSessionByRefreshToken token with
  | none =>
      refine ⟨t, .error (.valueError "Invalid or expired refresh token"), .done ?_, ?_⟩
      · simp [refreshStep, hold]
      · refine iff_of_true atomic_untouched ?_
        intro old hsome
        rw [hold] at hsome
        cases hsome
  | some old =>
      have hfind : ∀ {t' : Tables} {out : Outcome Reply}, RefreshRun now t (.checkLock old) t' out →
          RefreshRun now t (.findSession token) t' out :=
        fun h => .goto t (.checkLock old) (by simp [refreshStep, hold]) h
      have hunique : ∀ {r : SessionRow}, t.getSessionByRefreshToken token = some r → r = old :=
        fun h => Option.some.inj (h.symm.trans hold)
      by_cases hlock : (t.getByEmail old.email).any (isLocked now) = true
      · refine ⟨t, .error (.valueError "Account is temporarily locked"), hfind (.done ?_), ?_⟩
        · simp only [refreshStep, if_pos hlock]
        · refine iff_of_true atomic_untouched fun r hr => .inl ?_
          rw [hunique hr]
          exact hlock
      -- a session from before the families is given one
      · cases hf : old.familyId with
        | none =>
            obtain ⟨t', hrun, hgone⟩ :=
              run_createFamily now hfresh (mem_of_getSessionByRefreshToken hold).1
            refine ⟨t', _, hfind (.goto t (.createFamily old) ?_ hrun), iff_of_false ?_ ?_⟩
            · simp only [refreshStep, if_neg hlock, hf]
            · refine not_atomic_rotationError hold hgone ?_
              intro f g hsome
              rw [hf] at hsome
              cases hsome
            · intro hearly
              obtain hlocked | ⟨f, hsome, -⟩ := hearly old hold
              · exact hlock hlocked
              · rw [hf] at hsome
                cases hsome
        | some f =>
            have hstep : refreshStep now t (.checkLock old) = (t, .goto (.getFamily old f false)) := by
              simp only [refreshStep, if_neg hlock, hf]
            cases hfamily : t.getFamily f with
            | none =>
                refine ⟨t, .error (.valueError "Invalid token family"),
                  hfind (.goto t (.getFamily old f false) hstep (.done ?_)), ?_⟩
                · simp [refreshStep, hfamily]
                · refine iff_of_true atomic_untouched fun r hr => .inr ⟨f, ?_, ?_⟩
                  · rw [hunique hr, hf]
                  · intro g hg
                    rw [hfamily] at hg
                    cases hg
            | some g =>
                obtain ⟨t', out, hrun, hatomic⟩ := run_getFamily now hold hf hfamily
                refine ⟨t', out, hfind (.goto t (.getFamily old f false) hstep hrun), ?_⟩
                rw [hatomic, endsEarly_iff hold hlock hf hfamily]

/-- A refresh always returns or raises, and it is atomic exactly when the token has no session, the
account is locked, the family of the session is gone, or its user is gone and the token suspect. -/
theorem refresh_atomic_iff (now : ℤ) (t : Tables) (token : ℕ) (hfresh : t.FreshFamily) :
    (∃ t' out, RefreshRun now t (.findSession token) t' out) ∧
      ∀ t' out, RefreshRun now t (.findSession token) t' out →
        (Atomic t t' token out ↔ EndsEarly now t token) := by
  obtain ⟨t₁, out₁, hrun₁, hatomic⟩ := run_refresh now hfresh token
  refine ⟨⟨t₁, out₁, hrun₁⟩, ?_⟩
  intro t' out hrun
  obtain ⟨rfl, rfl⟩ := hrun₁.unique hrun
  exact hatomic

/-- A replayed token of a user that is gone: its family is at sequence 1. -/
def replayedTables : Tables :=
  ⟨[], [⟨0, 0, "ada@example.com", some 0, 0⟩], [⟨0, "ada@example.com", 1, false⟩], 1, 1⟩

theorem replayedTables_freshFamily : replayedTables.FreshFamily := by
  unfold Tables.FreshFamily
  decide

/-- The replay raises `ValueError` and leaves the family compromised. -/
theorem refresh_atomic_replayed :
    replayedTables.FreshFamily ∧
      ∃ t' out, RefreshRun 0 replayedTables (.findSession 0) t' out ∧ Atomic replayedTables t' 0 out := by
  obtain ⟨⟨t', out, hrun⟩, hatomic⟩ :=
    refresh_atomic_iff 0 replayedTables 0 replayedTables_freshFamily
  refine ⟨replayedTables_freshFamily, t', out, hrun, (hatomic t' out hrun).mpr ?_⟩
  exact (endsEarly_iff rfl (by decide) rfl rfl).mpr ⟨rfl, .inr (by decide)⟩

/-- A user right after a login: one session, at sequence 0 of its family. -/
def loggedInTables : Tables :=
  ⟨[⟨"ada@example.com", "hash", 0, none⟩], [⟨0, 0, "ada@example.com", some 0, 0⟩],
    [⟨0, "ada@example.com", 0, false⟩], 1, 1⟩

/-- The first refresh after a login deletes the session and raises `AttributeError`. -/
theorem refresh_loses_session :
    ∃ t', RefreshRun 0 loggedInTables (.findSession 0) t' (.error (.attributeError "UserORM" "user_id")) ∧
      t'.getSessionByRefreshToken 0 = none ∧
      ¬ Atomic loggedInTables t' 0 (.error (.attributeError "UserORM" "user_id")) := by
  refine ⟨⟨loggedInTables.users, [⟨1, 1, "ada@example.com", some 0, 2⟩],
    [⟨0, "ada@example.com", 1, false⟩], 2, 1⟩, ?_, by decide, not_atomic_attributeError⟩
  iterate 12 refine .goto _ _ rfl ?_
  exact .done rfl

end ApexChainx.Auth
