import Mathlib.Data.List.Basic

/-!
# Runs of a partial transition function

A system is a function `step : σ → α → Option σ`: action `a` is enabled in state `s` when `step s a`
is `some`. A schedule is a list of actions, so the interleavings of concurrent requests are the
schedules whose actions name the request that moves.

The induction rules carry every invariant of the development: `run_invariant` for all schedules, and
`run_invariant_of_guarded` for the schedules whose steps all meet a condition on the state they start
from; `guarded_of_invariant` is for what such a schedule does at each of its steps. A property that only
the steps outside the condition destroy has `run_iff_guarded` when it never comes back, and
`forall_prefix_iff_guarded` when it may. `Ends` is total correctness for a loop whose steps leave choices.
-/

namespace ApexChainx.Lib

variable {σ α : Type*}

/-- Execute a schedule; `none` when one of its actions is not enabled. -/
def run (step : σ → α → Option σ) : σ → List α → Option σ
  | s, [] => some s
  | s, a :: as => (step s a).bind fun s' => run step s' as

@[simp] theorem run_nil (step : σ → α → Option σ) (s : σ) : run step s [] = some s := rfl

theorem run_cons_eq_some {step : σ → α → Option σ} {s s' : σ} {a : α} {as : List α} :
    run step s (a :: as) = some s' ↔ ∃ t, step s a = some t ∧ run step t as = some s' := by
  simp only [run, Option.bind_eq_some_iff]

/-- A schedule that runs through splits at every point. -/
theorem run_append_eq_some {step : σ → α → Option σ} {s s' : σ} {as bs : List α} :
    run step s (as ++ bs) = some s' ↔ ∃ t, run step s as = some t ∧ run step t bs = some s' := by
  induction as generalizing s with
  | nil => simp
  | cons a as ih =>
      simp only [List.cons_append, run_cons_eq_some, ih]
      constructor
      · rintro ⟨t, ht, u, hu, hs⟩
        exact ⟨u, ⟨t, ht, hu⟩, hs⟩
      · rintro ⟨u, ⟨t, ht, hu⟩, hs⟩
        exact ⟨t, ht, u, hu, hs⟩

/-- What every step preserves, every schedule preserves. -/
theorem run_invariant {step : σ → α → Option σ} {Inv : σ → Prop}
    (hstep : ∀ s a s', Inv s → step s a = some s' → Inv s') {s s' : σ} {as : List α}
    (hs : Inv s) (hrun : run step s as = some s') : Inv s' := by
  induction as generalizing s with
  | nil =>
      rw [run_nil, Option.some.injEq] at hrun
      exact hrun ▸ hs
  | cons a as ih =>
      obtain ⟨t, ht, hrest⟩ := run_cons_eq_some.mp hrun
      exact ih (hstep s a t hs ht) hrest

/-- Every action of the schedule meets `ok` in the state it is taken from. -/
def Guarded (step : σ → α → Option σ) (ok : σ → α → Prop) : σ → List α → Prop
  | _, [] => True
  | s, a :: as => ok s a ∧ ∀ s', step s a = some s' → Guarded step ok s' as

instance Guarded.decidable (step : σ → α → Option σ) (ok : σ → α → Prop)
    [∀ s a, Decidable (ok s a)] : ∀ s as, Decidable (Guarded step ok s as)
  | _, [] => inferInstanceAs (Decidable True)
  | s, a :: as =>
      match h : step s a with
      | none => decidable_of_iff (ok s a) (by simp [Guarded, h])
      | some t =>
          have := Guarded.decidable step ok t as
          decidable_of_iff (ok s a ∧ Guarded step ok t as) (by simp [Guarded, h])

/-- A schedule is guarded when its first part is, and its second part from where the first ends. -/
theorem guarded_append_iff {step : σ → α → Option σ} {ok : σ → α → Prop} {s : σ} {as bs : List α} :
    Guarded step ok s (as ++ bs) ↔
      Guarded step ok s as ∧ ∀ t, run step s as = some t → Guarded step ok t bs := by
  induction as generalizing s with
  | nil => simp [Guarded]
  | cons a as ih =>
      simp only [List.cons_append, Guarded, ih, run_cons_eq_some]
      constructor
      · rintro ⟨ha, hrest⟩
        refine ⟨⟨ha, fun t ht => (hrest t ht).1⟩, ?_⟩
        rintro u ⟨t, ht, hu⟩
        exact (hrest t ht).2 u hu
      · rintro ⟨⟨ha, hfirst⟩, hsecond⟩
        exact ⟨ha, fun t ht => ⟨hfirst t ht, fun u hu => hsecond u ⟨t, ht, hu⟩⟩⟩

/-- A condition that all actions of the schedule meet in every state. -/
theorem guarded_of_forall {step : σ → α → Option σ} {ok : σ → α → Prop} {as : List α}
    (h : ∀ a ∈ as, ∀ s, ok s a) (s : σ) : Guarded step ok s as := by
  induction as generalizing s with
  | nil => trivial
  | cons a as ih =>
      refine ⟨h a List.mem_cons_self s, fun s' _ => ih ?_ s'⟩
      exact fun b hb => h b (List.mem_cons_of_mem a hb)

/-- What every step that meets `ok` preserves, every schedule of such steps preserves. -/
theorem run_invariant_of_guarded {step : σ → α → Option σ} {ok : σ → α → Prop} {Inv : σ → Prop}
    (hstep : ∀ s a s', Inv s → ok s a → step s a = some s' → Inv s') {s s' : σ} {as : List α}
    (hs : Inv s) (hok : Guarded step ok s as) (hrun : run step s as = some s') : Inv s' := by
  induction as generalizing s with
  | nil =>
      rw [run_nil, Option.some.injEq] at hrun
      exact hrun ▸ hs
  | cons a as ih =>
      obtain ⟨t, ht, hrest⟩ := run_cons_eq_some.mp hrun
      exact ih (hstep s a t hs hok.1 ht) (hok.2 t ht) hrest

/-- A schedule is no longer than what a measure that every step lowers has to give. -/
theorem run_length_le {step : σ → α → Option σ} {Inv : σ → Prop} {measure : σ → ℕ}
    (hstep : ∀ s a s', Inv s → step s a = some s' → Inv s' ∧ measure s' < measure s) {s s' : σ} {as : List α}
    (hs : Inv s) (hrun : run step s as = some s') : as.length + measure s' ≤ measure s := by
  induction as generalizing s with
  | nil =>
      rw [run_nil, Option.some.injEq] at hrun
      subst hrun
      simp
  | cons a as ih =>
      obtain ⟨t, ht, hrest⟩ := run_cons_eq_some.mp hrun
      obtain ⟨hinv, hlt⟩ := hstep s a t hs ht
      have hle := ih hinv hrest
      rw [List.length_cons]
      omega

/-- What holds of every step that meets `ok` from a state of the invariant holds of every step of a
schedule of such steps. -/
theorem guarded_of_invariant {step : σ → α → Option σ} {ok good : σ → α → Prop} {Inv : σ → Prop}
    (hstep : ∀ s a s', Inv s → ok s a → step s a = some s' → Inv s')
    (hgood : ∀ s a, Inv s → ok s a → good s a) {s : σ} {as : List α} (hs : Inv s)
    (hok : Guarded step ok s as) : Guarded step good s as := by
  induction as generalizing s with
  | nil => trivial
  | cons a as ih =>
      refine ⟨hgood s a hs hok.1, ?_⟩
      intro s' hs'
      exact ih (hstep s a s' hs hok.1 hs') (hok.2 s' hs')

/-- A property that a step keeps exactly when it meets `ok`, and that no step brings back, is left at the
end of the schedules that meet `ok` throughout. -/
theorem run_iff_guarded {step : σ → α → Option σ} {ok : σ → α → Prop} {Inv P : σ → Prop}
    (hstep : ∀ s a s', Inv s → step s a = some s' → Inv s')
    (hkeep : ∀ s a s', Inv s → step s a = some s' → (P s' ↔ P s ∧ ok s a)) {s s' : σ} {as : List α}
    (hs : Inv s) (hrun : run step s as = some s') : P s' ↔ P s ∧ Guarded step ok s as := by
  induction as generalizing s with
  | nil =>
      rw [run_nil, Option.some.injEq] at hrun
      subst hrun
      simp [Guarded]
  | cons a as ih =>
      obtain ⟨t, ht, hrest⟩ := run_cons_eq_some.mp hrun
      have hguarded : Guarded step ok s (a :: as) ↔ ok s a ∧ Guarded step ok t as := by
        simp [Guarded, ht]
      rw [ih (hstep s a t hs ht) hrest, hkeep s a t hs ht, hguarded, and_assoc]

/-- A property that a step from a state that has it keeps exactly when it meets `ok` holds all along exactly
the schedules that meet `ok` throughout. -/
theorem forall_prefix_iff_guarded {step : σ → α → Option σ} {ok : σ → α → Prop} {P : σ → Prop}
    (hkeep : ∀ s a s', P s → step s a = some s' → (P s' ↔ ok s a)) {s s' : σ} {as : List α}
    (hs : P s) (hrun : run step s as = some s') :
    (∀ bs t, bs <+: as → run step s bs = some t → P t) ↔ Guarded step ok s as := by
  induction as generalizing s with
  | nil =>
      simp only [List.prefix_nil, Guarded, iff_true]
      rintro bs t rfl ht
      rw [run_nil, Option.some.injEq] at ht
      exact ht ▸ hs
  | cons a as ih =>
      obtain ⟨u, hu, hrest⟩ := run_cons_eq_some.mp hrun
      have hguarded : Guarded step ok s (a :: as) ↔ ok s a ∧ Guarded step ok u as := by
        simp [Guarded, hu]
      rw [hguarded]
      constructor
      · intro h
        have hPu : P u := h [a] u (List.prefix_append [a] as) (by simp [run, hu])
        refine ⟨(hkeep s a u hs hu).mp hPu, (ih hPu hrest).mp ?_⟩
        intro bs t hbs ht
        exact h (a :: bs) t ((List.cons_prefix_cons).mpr ⟨rfl, hbs⟩) (run_cons_eq_some.mpr ⟨u, hu, ht⟩)
      · rintro ⟨hok, hlater⟩ bs t hbs ht
        have hPu : P u := (hkeep s a u hs hu).mpr hok
        cases bs with
        | nil =>
            rw [run_nil, Option.some.injEq] at ht
            exact ht ▸ hs
        | cons b bs =>
            obtain ⟨rfl, hrest'⟩ := List.cons_prefix_cons.mp hbs
            obtain ⟨v, hv, ht⟩ := run_cons_eq_some.mp ht
            obtain rfl : u = v := by rw [hu] at hv; exact Option.some.inj hv
            exact (ih hPu hrest).mpr hlater bs t hrest' ht

/-! ## Runs that come to an end -/

/-- Every schedule from `s` is bounded and can go on until `final` holds, and then `post` does. -/
def Ends (step : σ → α → Option σ) (final : σ → Prop) (s : σ) (post : σ → Prop) : Prop :=
  ∃ bound, ∀ as s', run step s as = some s' →
    as.length ≤ bound ∧ (¬ final s' → ∃ a t, step s' a = some t) ∧ (final s' → post s')

/-- An invariant whose states can go on, under a measure that every step lowers. -/
theorem ends_of_invariant {step : σ → α → Option σ} {final post Inv : σ → Prop} {measure : σ → ℕ}
    (hstep : ∀ s a s', Inv s → step s a = some s' → Inv s' ∧ measure s' < measure s)
    (hnext : ∀ s, Inv s → ¬ final s → ∃ a t, step s a = some t) (hpost : ∀ s, Inv s → final s → post s)
    {s : σ} (hs : Inv s) : Ends step final s post := by
  refine ⟨measure s, ?_⟩
  intro as s' hrun
  have hinv : Inv s' := run_invariant (fun s a s' h hs' => (hstep s a s' h hs').1) hs hrun
  have hle := run_length_le hstep hs hrun
  exact ⟨by omega, hnext s' hinv, hpost s' hinv⟩

/-- There is a schedule to the end. -/
theorem Ends.exists_final {step : σ → α → Option σ} {final post : σ → Prop} {s : σ}
    (h : Ends step final s post) : ∃ as s', run step s as = some s' ∧ final s' ∧ post s' := by
  obtain ⟨bound, hbound⟩ := h
  have hlonger : ∀ n, ∃ as s', run step s as = some s' ∧ (final s' ∨ as.length = n) := by
    intro n
    induction n with
    | zero => exact ⟨[], s, rfl, .inr rfl⟩
    | succ n ih =>
        obtain ⟨as, s', hrun, hfinal | hlength⟩ := ih
        · exact ⟨as, s', hrun, .inl hfinal⟩
        · by_cases hfinal : final s'
          · exact ⟨as, s', hrun, .inl hfinal⟩
          · obtain ⟨a, t, ht⟩ := (hbound as s' hrun).2.1 hfinal
            refine ⟨as ++ [a], t, ?_, .inr (by simp [hlength])⟩
            exact run_append_eq_some.mpr ⟨s', hrun, run_cons_eq_some.mpr ⟨t, ht, rfl⟩⟩
  obtain ⟨as, s', hrun, hfinal | hlength⟩ := hlonger (bound + 1)
  · exact ⟨as, s', hrun, hfinal, (hbound as s' hrun).2.2 hfinal⟩
  · have hle := (hbound as s' hrun).1
    omega

/-- What two accounts say of the end of the same runs holds of one state. -/
theorem Ends.exists_both {step : σ → α → Option σ} {final post post' : σ → Prop} {s : σ}
    (h : Ends step final s post) (h' : Ends step final s post') : ∃ s', post s' ∧ post' s' := by
  obtain ⟨as, s', hrun, hfinal, hpost⟩ := h.exists_final
  obtain ⟨bound, hbound⟩ := h'
  exact ⟨s', hpost, (hbound as s' hrun).2.2 hfinal⟩

theorem Ends.mono {step : σ → α → Option σ} {final post post' : σ → Prop} {s : σ}
    (h : Ends step final s post) (hpost : ∀ s, post s → post' s) : Ends step final s post' := by
  obtain ⟨bound, hbound⟩ := h
  refine ⟨bound, ?_⟩
  intro as s' hrun
  obtain ⟨hle, hnext, hdone⟩ := hbound as s' hrun
  exact ⟨hle, hnext, fun hfinal => hpost s' (hdone hfinal)⟩

/-! ## Requests in progress -/

/-- What holds of all requests in progress and of the one that moved holds of all afterwards. -/
theorem forall_update {ι ρ : Type*} [DecidableEq ι] {f : ι → Option ρ} {P : ρ → Prop}
    (h : ∀ i r, f i = some r → P r) {j : ι} {r' : ρ} (hr' : P r') :
    ∀ i r, Function.update f j (some r') i = some r → P r := by
  intro i r hi
  by_cases hij : i = j
  · subst hij
    rw [Function.update_self, Option.some.injEq] at hi
    exact hi ▸ hr'
  · rw [Function.update_of_ne hij] at hi
    exact h i r hi

end ApexChainx.Lib
