import Mathlib.Data.List.Count
import Mathlib.Data.List.Induction
import Mathlib.Algebra.Order.Group.Unbundled.Int
import Mathlib.Data.Int.Notation

/-!
# Sliding-window limiters

A limiter lets a check of a key through when fewer than `limit` checks of the key were let through in the
window that ends at the check. `windowStep` is that limiter with all hits remembered. An implementation
forgets the hits that have left the window (`Kept`), at times of its own choosing; two implementations that
follow the same history decide alike (`decisions_eq`).

The bound needs no order of the times: whatever was let through against the hits before it
(`Admitted`) exceeds the limit in no window (`Admitted.countP_le`).
-/

namespace ApexChainx.Lib

/-! ## Machines that decide -/

section Decisions

variable {σ τ α β : Type*}

/-- The decisions of a machine on a list of checks. -/
def decisions (step : σ → α → β × σ) : σ → List α → List β
  | _, [] => []
  | s, a :: as => (step s a).1 :: decisions step (step s a).2 as

/-- Every check on the way meets a condition on it and the state it finds. -/
def Along (step : σ → α → β × σ) (ok : σ → α → Prop) : σ → List α → Prop
  | _, [] => True
  | s, a :: as => ok s a ∧ Along step ok (step s a).2 as

instance decidableAlong (step : σ → α → β × σ) (ok : σ → α → Prop) [∀ s a, Decidable (ok s a)] :
    (s : σ) → (as : List α) → Decidable (Along step ok s as)
  | _, [] => inferInstanceAs (Decidable True)
  | s, a :: as => @instDecidableAnd _ _ _ (decidableAlong step ok (step s a).2 as)

theorem along_true (step : σ → α → β × σ) (s : σ) (as : List α) :
    Along step (fun _ _ => True) s as := by
  induction as generalizing s with
  | nil => trivial
  | cons a as ih => exact ⟨trivial, ih _⟩

/-- Two machines decide alike as long as a condition holds and no longer, if it says of every check that
is good after the past ones whether they decide it alike, and they then stay related. -/
theorem decisions_eq_iff {f : σ → α → β × σ} {g : τ → α → β × τ} {R : List α → σ → τ → Prop}
    {good : List α → α → Prop} {ok : σ → α → Prop}
    (hstep : ∀ past s t a, R past s t → good past a →
      ((f s a).1 = (g t a).1 ↔ ok s a) ∧ (ok s a → R (past ++ [a]) (f s a).2 (g t a).2))
    {past : List α} {s : σ} {t : τ} (h : R past s t) {as : List α}
    (hgood : ∀ before a after, as = before ++ a :: after → good (past ++ before) a) :
    decisions f s as = decisions g t as ↔ Along f ok s as := by
  induction as generalizing past s t with
  | nil => exact iff_of_true rfl trivial
  | cons a as ih =>
      have hfirst : good past a := by
        have := hgood [] a as rfl
        rwa [List.append_nil] at this
      obtain ⟨hiff, hnext⟩ := hstep past s t a h hfirst
      rw [decisions, decisions, List.cons.injEq, hiff, Along]
      refine and_congr_right fun hok => ?_
      apply ih (hnext hok)
      intro before b after hsplit
      have := hgood (a :: before) b after (by rw [hsplit, List.cons_append])
      rwa [List.append_assoc, List.singleton_append]

/-- Two machines decide alike if every check that is good after the past ones keeps them related. -/
theorem decisions_eq {f : σ → α → β × σ} {g : τ → α → β × τ} {R : List α → σ → τ → Prop}
    {good : List α → α → Prop}
    (hstep : ∀ past s t a, R past s t → good past a →
      (f s a).1 = (g t a).1 ∧ R (past ++ [a]) (f s a).2 (g t a).2)
    {past : List α} {s : σ} {t : τ} (h : R past s t) {as : List α}
    (hgood : ∀ before a after, as = before ++ a :: after → good (past ++ before) a) :
    decisions f s as = decisions g t as := by
  have htrue : ∀ past s t a, R past s t → good past a → ((f s a).1 = (g t a).1 ↔ True) ∧
      (True → R (past ++ [a]) (f s a).2 (g t a).2) := by
    intro past s t a hR hfirst
    obtain ⟨heq, hnext⟩ := hstep past s t a hR hfirst
    exact ⟨iff_of_true heq trivial, fun _ => hnext⟩
  exact (decisions_eq_iff htrue h hgood).mpr (along_true f s as)

theorem decisions_map {γ : Type*} (step : σ → γ → β × σ) (f : α → γ) (s : σ) (as : List α) :
    decisions step s (as.map f) = decisions (fun s a => step s (f a)) s as := by
  induction as generalizing s with
  | nil => rfl
  | cons a as ih => rw [List.map_cons, decisions, decisions, ih]

end Decisions

/-! ## The limiter that remembers everything -/

section Window

variable {κ : Type*} [DecidableEq κ]

/-- The times at which a key was let through. -/
def timesOf (key : κ) (hits : List (κ × ℤ)) : List ℤ := (hits.filter (·.1 = key)).map Prod.snd

/-- How often a key was let through after `start`. -/
def hitsAfter (start : ℤ) (key : κ) (hits : List (κ × ℤ)) : ℕ := (timesOf key hits).countP (start < ·)

/-- A check against the hits so far. -/
def windowStep (window limit : ℤ) (hits : List (κ × ℤ)) (c : κ × ℤ) : Bool × List (κ × ℤ) :=
  if limit ≤ hitsAfter (c.2 - window) c.1 hits then (false, hits) else (true, hits ++ [c])

/-- Every hit was let through against those before it. -/
def Admitted (window limit : ℤ) (hits : List (κ × ℤ)) : Prop :=
  ∀ before c after, hits = before ++ c :: after → hitsAfter (c.2 - window) c.1 before < limit

theorem timesOf_append (key : κ) (hits added : List (κ × ℤ)) :
    timesOf key (hits ++ added) = timesOf key hits ++ timesOf key added := by
  simp only [timesOf, List.filter_append, List.map_append]

theorem timesOf_singleton (key : κ) (c : κ × ℤ) :
    timesOf key [c] = if c.1 = key then [c.2] else [] := by
  by_cases hkey : c.1 = key
  · simp [timesOf, hkey]
  · simp [timesOf, hkey]

theorem hitsAfter_eq_countP (start : ℤ) (key : κ) (hits : List (κ × ℤ)) :
    hitsAfter start key hits = hits.countP fun h => decide (h.1 = key) && decide (start < h.2) := by
  simp only [hitsAfter, timesOf, List.countP_map, List.countP_filter, Function.comp_def, Bool.and_comm]

theorem hitsAfter_anti {start start' : ℤ} (h : start ≤ start') (key : κ) (hits : List (κ × ℤ)) :
    hitsAfter start' key hits ≤ hitsAfter start key hits := by
  apply List.countP_mono_left
  intro t _ ht
  have hlt := of_decide_eq_true ht
  exact decide_eq_true (by omega)

/-- A longer window decides alike exactly when it does not make the hits use the limit up. -/
theorem fst_windowStep_eq_iff {window window' : ℤ} (h : window ≤ window') (limit : ℤ) (hits : List (κ × ℤ))
    (c : κ × ℤ) : (windowStep window' limit hits c).1 = (windowStep window limit hits c).1 ↔
      (limit ≤ hitsAfter (c.2 - window') c.1 hits → limit ≤ hitsAfter (c.2 - window) c.1 hits) := by
  have hanti := hitsAfter_anti (Int.sub_le_sub_left h c.2) c.1 hits
  unfold windowStep
  by_cases hfull : limit ≤ hitsAfter (c.2 - window) c.1 hits
  · have hfull' : limit ≤ hitsAfter (c.2 - window') c.1 hits := by omega
    simp [hfull, hfull']
  · by_cases hfull' : limit ≤ hitsAfter (c.2 - window') c.1 hits
    · simp [hfull, hfull']
    · simp [hfull, hfull']

/-- The decision says what is remembered. -/
theorem snd_windowStep (window limit : ℤ) (hits : List (κ × ℤ)) (c : κ × ℤ) :
    (windowStep window limit hits c).2
      = if (windowStep window limit hits c).1 then hits ++ [c] else hits := by
  unfold windowStep
  split <;> rfl

theorem admitted_nil (window limit : ℤ) : Admitted window limit ([] : List (κ × ℤ)) := by
  intro before c after hsplit
  simp at hsplit

theorem Admitted.append {window limit : ℤ} {hits : List (κ × ℤ)} (h : Admitted window limit hits)
    {c : κ × ℤ} (hc : hitsAfter (c.2 - window) c.1 hits < limit) :
    Admitted window limit (hits ++ [c]) := by
  intro before d after hsplit
  rcases List.eq_nil_or_concat after with rfl | ⟨front, last, rfl⟩
  · -- the last hit is the new one
    obtain ⟨rfl, hd⟩ := List.append_inj' hsplit rfl
    rw [← List.singleton_inj.mp hd]
    exact hc
  · apply h before d front
    rw [List.concat_eq_append, ← List.cons_append, ← List.append_assoc] at hsplit
    exact (List.append_inj' hsplit rfl).1

/-- No window holds more hits of a key than the limit. -/
theorem Admitted.countP_le {window limit : ℤ} {hits : List (κ × ℤ)} (h : Admitted window limit hits)
    (key : κ) (start : ℤ) :
    hits.countP (fun c => decide (c.1 = key) && decide (start ≤ c.2 ∧ c.2 < start + window))
      ≤ limit.toNat := by
  induction hits using List.reverseRecOn with
  | nil => simp
  | append_singleton before c ih =>
      have hbefore : Admitted window limit before := by
        intro front d after hsplit
        exact h front d (after ++ [c]) (by simp [hsplit])
      have hlast : hitsAfter (c.2 - window) c.1 before < limit := h before c [] rfl
      rw [List.countP_append, List.countP_singleton]
      by_cases hc : c.1 = key ∧ start ≤ c.2 ∧ c.2 < start + window
      · -- what shares the window with the last hit was counted when it was let through
        have hle : before.countP
            (fun d => decide (d.1 = key) && decide (start ≤ d.2 ∧ d.2 < start + window))
              ≤ hitsAfter (c.2 - window) c.1 before := by
          rw [hitsAfter_eq_countP]
          apply List.countP_mono_left
          intro d _ hd
          simp only [Bool.and_eq_true, decide_eq_true_eq] at hd ⊢
          exact ⟨hd.1.trans hc.1.symm, by omega⟩
        split <;> omega
      · have hnot : (decide (c.1 = key) && decide (start ≤ c.2 ∧ c.2 < start + window)) = false := by
          simpa using hc
        rw [hnot]
        exact ih hbefore

/-! ### Decisions against a window -/

/-- The checks that were let through. -/
def granted (checks : List (κ × ℤ)) (ds : List Bool) : List (κ × ℤ) :=
  ((checks.zip ds).filter Prod.snd).map Prod.fst

/-- Decisions that keep the limit in every half-open window, and refuse a check only when the limit was
used up in the window that ends at it. -/
structure Windowed (window limit : ℤ) (checks : List (κ × ℤ)) (ds : List Bool) : Prop where
  at_most : ∀ key start, (granted checks ds).countP
    (fun c => decide (c.1 = key) && decide (start ≤ c.2 ∧ c.2 < start + window)) ≤ limit.toNat
  refused : ∀ (i : ℕ) (c : κ × ℤ), checks[i]? = some c → ds[i]? = some false →
    limit ≤ (granted (checks.take i) (ds.take i)).countP
      (fun d => decide (d.1 = c.1) && decide (c.2 - window < d.2 ∧ d.2 ≤ c.2))

omit [DecidableEq κ] in
theorem granted_cons (c : κ × ℤ) (checks : List (κ × ℤ)) (d : Bool) (ds : List Bool) :
    granted (c :: checks) (d :: ds) = (if d then [c] else []) ++ granted checks ds := by
  cases d with
  | false => simp [granted]
  | true => simp [granted]

theorem admitted_decisions {window limit : ℤ} {hits : List (κ × ℤ)} (h : Admitted window limit hits)
    (checks : List (κ × ℤ)) :
    Admitted window limit (hits ++ granted checks (decisions (windowStep window limit) hits checks)) := by
  induction checks generalizing hits with
  | nil =>
      rw [decisions, granted, List.zip_nil_left, List.filter_nil, List.map_nil, List.append_nil]
      exact h
  | cons c checks ih =>
      rw [decisions, granted_cons, ← List.append_assoc]
      by_cases hfull : limit ≤ hitsAfter (c.2 - window) c.1 hits
      · have hstep : windowStep window limit hits c = (false, hits) := if_pos hfull
        rw [hstep]
        simpa using ih h
      · have hstep : windowStep window limit hits c = (true, hits ++ [c]) := if_neg hfull
        rw [hstep]
        exact ih (h.append (by omega))

theorem refused_decisions {window limit : ℤ} (hits : List (κ × ℤ)) (checks : List (κ × ℤ)) (i : ℕ)
    (c : κ × ℤ) (hc : checks[i]? = some c)
    (hd : (decisions (windowStep window limit) hits checks)[i]? = some false) :
    limit ≤ hitsAfter (c.2 - window) c.1 (hits ++ granted (checks.take i)
      ((decisions (windowStep window limit) hits checks).take i)) := by
  induction checks generalizing hits i with
  | nil => simp at hc
  | cons a checks ih =>
      rw [decisions] at hd ⊢
      cases i with
      | zero =>
          rw [List.getElem?_cons_zero, Option.some.injEq] at hc hd
          subst hc
          rw [List.take_zero, List.take_zero, granted, List.zip_nil_left, List.filter_nil, List.map_nil,
            List.append_nil]
          by_contra hfree
          rw [windowStep, if_neg hfree] at hd
          cases hd
      | succ i =>
          rw [List.getElem?_cons_succ] at hc hd
          have hrest := ih _ i hc hd
          rw [List.take_succ_cons, List.take_succ_cons, granted_cons, ← List.append_assoc]
          by_cases hfull : limit ≤ hitsAfter (a.2 - window) a.1 hits
          · have hstep : windowStep window limit hits a = (false, hits) := if_pos hfull
            rw [hstep] at hrest ⊢
            simpa using hrest
          · have hstep : windowStep window limit hits a = (true, hits ++ [a]) := if_neg hfull
            rw [hstep] at hrest ⊢
            exact hrest

omit [DecidableEq κ] in
theorem mem_of_mem_granted {checks : List (κ × ℤ)} {ds : List Bool} {c : κ × ℤ}
    (h : c ∈ granted checks ds) : c ∈ checks := by
  obtain ⟨p, hp, rfl⟩ := List.mem_map.mp h
  exact (List.of_mem_zip (List.mem_filter.mp hp).1).1

/-- The limiter that remembers everything keeps its window. -/
theorem windowed_decisions (window limit : ℤ) {checks : List (κ × ℤ)}
    (hsorted : checks.Pairwise (·.2 ≤ ·.2)) :
    Windowed window limit checks (decisions (windowStep window limit) [] checks) := by
  constructor
  · intro key start
    have hadmitted := admitted_decisions (admitted_nil window limit) checks
    exact hadmitted.countP_le key start
  · intro i c hc hd
    have hfull := refused_decisions [] checks i c hc hd
    rw [List.nil_append, hitsAfter_eq_countP] at hfull
    refine hfull.trans (Int.ofNat_le.mpr (List.countP_mono_left ?_))
    intro d hdmem hdwin
    -- an earlier check is not later than this one
    have hle : d.2 ≤ c.2 := by
      obtain ⟨hi, rfl⟩ := List.getElem?_eq_some_iff.mp hc
      obtain ⟨j, hj, rfl⟩ := List.getElem_of_mem (mem_of_mem_granted hdmem)
      rw [List.getElem_take]
      have hlen : j < i := by
        rw [List.length_take] at hj
        omega
      exact List.pairwise_iff_getElem.mp hsorted j i _ hi hlen
    simp only [Bool.and_eq_true, decide_eq_true_eq] at hdwin ⊢
    exact ⟨hdwin.1, hdwin.2, hle⟩

end Window

/-! ## What an implementation keeps -/

/-- Of the times at which a key was let through, at least those in the window. -/
structure Kept (window now : ℤ) (times kept : List ℤ) : Prop where
  sublist : List.Sublist kept times
  prune : kept.filter (now - window < ·) = times.filter (now - window < ·)

theorem filter_filter_lt {cutoff cutoff' : ℤ} (h : cutoff ≤ cutoff') (times : List ℤ) :
    (times.filter (cutoff < ·)).filter (cutoff' < ·) = times.filter (cutoff' < ·) := by
  rw [List.filter_filter]
  apply List.filter_congr
  intro t _
  by_cases hlt : cutoff' < t
  · have : cutoff < t := by omega
    simp [hlt, this]
  · simp [hlt]

namespace Kept

variable {window now now' : ℤ} {times kept : List ℤ}

theorem nil (window now : ℤ) : Kept window now [] [] := ⟨List.Sublist.slnil, rfl⟩

theorem later (h : Kept window now times kept) (hle : now ≤ now') : Kept window now' times kept := by
  refine ⟨h.sublist, ?_⟩
  have hcutoff : now - window ≤ now' - window := by omega
  rw [← filter_filter_lt hcutoff kept, h.prune, filter_filter_lt hcutoff]

/-- Forgetting times that have left the window. -/
theorem of_sublist {kept' : List ℤ} (h : Kept window now times kept) (hsub : List.Sublist kept' kept)
    (hsame : kept'.filter (now - window < ·) = kept.filter (now - window < ·)) :
    Kept window now times kept' := ⟨hsub.trans h.sublist, hsame.trans h.prune⟩

theorem of_prune (h : Kept window now times kept) :
    Kept window now times (kept.filter (now - window < ·)) :=
  h.of_sublist List.filter_sublist (filter_filter_lt le_rfl kept)

/-- Nothing need be kept of a key whose times have all left the window. -/
theorem forget (h : Kept window now times kept) (hold : ∀ t ∈ kept, t ≤ now - window) :
    Kept window now times [] := by
  refine ⟨List.nil_sublist times, ?_⟩
  rw [← h.prune]
  symm
  apply List.filter_eq_nil_iff.mpr
  intro t ht hlt
  have := hold t ht
  have := of_decide_eq_true hlt
  omega

/-- New times are kept. -/
theorem append (h : Kept window now times kept) (added : List ℤ) :
    Kept window now (times ++ added) (kept ++ added) := by
  refine ⟨h.sublist.append_right added, ?_⟩
  rw [List.filter_append, List.filter_append, h.prune]

/-- What is kept counts as all times do, from the start of the window or later. -/
theorem countP_eq (h : Kept window now times kept) {cutoff : ℤ} (hcutoff : now - window ≤ cutoff) :
    kept.countP (cutoff < ·) = times.countP (cutoff < ·) := by
  rw [List.countP_eq_length_filter, List.countP_eq_length_filter, ← filter_filter_lt hcutoff kept, h.prune,
    filter_filter_lt hcutoff]

end Kept

end ApexChainx.Lib
