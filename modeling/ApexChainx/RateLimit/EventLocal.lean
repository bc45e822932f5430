import ApexChainx.Lib.Keyed
import ApexChainx.RateLimit.Limiters

/-!
# The event budget in the process

`EventRateLimiter` (`app/services/event_listener_rate_limit.py`) without Redis: `_allow_local`,
`retry_after_seconds` and `cull_expired`. Its dictionary is one of hit times, as in `SimpleRateLimiter`, and is
pruned when a subscriber is checked.

Times are numbers of ticks, of which a second has `ticks`; only `retry_after_seconds` counts in seconds, cut to
an integer. A call of `cull_expired` is taken at the time it works with, its argument or the clock.
-/

namespace ApexChainx.RateLimit.EventLimiter

open ApexChainx.Lib

/-- The settings of a limiter. -/
structure EventSettings where
  /-- The ticks of a second. -/
  ticks : ℤ
  limit : ℤ
  windowSeconds : ℤ

/-- The window, in ticks. -/
def EventSettings.window (cfg : EventSettings) : ℤ := cfg.windowSeconds * cfg.ticks

/-- `_allow_local`. -/
def allowLocal (cfg : EventSettings) (requests : Requests) (subscriberId : String) (now : ℤ) : Bool × Requests :=
  let hits := (requests.hits subscriberId).filter (now - cfg.window < ·)
  if cfg.limit ≤ hits.length then (false, requests.assign subscriberId hits)
  else (true, requests.assign subscriberId (hits ++ [now]))

/-- `retry_after_seconds` of a limiter without Redis. -/
def retryAfterSeconds (cfg : EventSettings) (requests : Requests) (subscriberId : String) (now : ℤ) : ℤ :=
  match (requests.hits subscriberId).min? with
  | none => 0
  | some oldest =>
      let remaining := cfg.window - (now - oldest)
      max 0 (remaining.tdiv cfg.ticks + 1)

/-- A call of a method. -/
inductive EventCall
  | allow (subscriberId : String)
  | retryAfterSeconds (subscriberId : String)
  | cullExpired
deriving DecidableEq, Repr

/-- A call at a time. -/
structure TimedCall where
  call : EventCall
  now : ℤ
deriving DecidableEq, Repr

/-- What a call returns. -/
inductive Answer
  | allowed (granted : Bool)
  | seconds (n : ℤ)
  | removed (n : ℕ)
deriving DecidableEq, Repr

/-- One call. -/
def localStep (cfg : EventSettings) (requests : Requests) (c : TimedCall) : Requests × Answer :=
  match c.call with
  | .allow subscriberId =>
      let result := allowLocal cfg requests subscriberId c.now
      (result.2, .allowed result.1)
  | .retryAfterSeconds subscriberId => (requests, .seconds (retryAfterSeconds cfg requests subscriberId c.now))
  | .cullExpired =>
      let result := requests.cullExpired cfg.window c.now
      (result.1, .removed result.2)

/-- The calls with what they return, from an empty dictionary. -/
def localAnswers (cfg : EventSettings) (calls : List TimedCall) : List (TimedCall × Answer) :=
  answers (localStep cfg) [] calls

/-- The event that a call let through. -/
def grantOf (p : TimedCall × Answer) : Option (String × ℤ) :=
  match p.1.call, p.2 with
  | .allow subscriberId, .allowed true => some (subscriberId, p.1.now)
  | _, _ => none

variable {cfg : EventSettings} {requests : Requests} {now : ℤ} {hits : List (String × ℤ)}

/-! ## One call -/

/-- `_allow_local` decides as the limiter that remembers everything, and follows it. -/
theorem allowLocal_tracks (h : SimpleTracks cfg.window now hits requests) (subscriberId : String) :
    (allowLocal cfg requests subscriberId now).1 = (windowStep cfg.window cfg.limit hits (subscriberId, now)).1 ∧
      SimpleTracks cfg.window now (windowStep cfg.window cfg.limit hits (subscriberId, now)).2
        (allowLocal cfg requests subscriberId now).2 := by
  have hpruned := h.prune subscriberId
  have hcount : ((requests.hits subscriberId).filter (now - cfg.window < ·)).length
      = hitsAfter (now - cfg.window) subscriberId hits := by
    rw [(h.kept subscriberId).prune, hitsAfter, List.countP_eq_length_filter]
  unfold allowLocal windowStep
  dsimp only
  rw [hcount]
  by_cases hfull : cfg.limit ≤ hitsAfter (now - cfg.window) subscriberId hits
  · rw [if_pos hfull, if_pos hfull]
    exact ⟨rfl, hpruned⟩
  · rw [if_neg hfull, if_neg hfull]
    refine ⟨rfl, ?_⟩
    -- assigning the pruned list first makes no difference to what is kept
    have hrecorded := hpruned.record subscriberId
    refine hrecorded.of_hits (Requests.nodup_assign h.nodup subscriberId _) fun k => ?_
    have hk := hrecorded.kept k
    by_cases hne : subscriberId = k
    · subst hne
      rw [Requests.hits_assign_self, Requests.hits_assign_self] at hk
      rwa [Requests.hits_assign_self]
    · rw [Requests.hits_assign_ne _ _ hne, Requests.hits_assign_ne _ _ hne] at hk
      rwa [Requests.hits_assign_ne _ _ hne]

/-- A call follows the limiter that remembers everything, and adds what it let through. -/
theorem localStep_tracks {c : TimedCall} (h : SimpleTracks cfg.window now hits requests) (hle : now ≤ c.now)
    (hadmitted : Admitted cfg.window cfg.limit hits) :
    SimpleTracks cfg.window c.now (hits ++ (grantOf (c, (localStep cfg requests c).2)).toList)
      (localStep cfg requests c).1 ∧
      Admitted cfg.window cfg.limit (hits ++ (grantOf (c, (localStep cfg requests c).2)).toList) := by
  obtain ⟨call, t⟩ := c
  have hlater := h.later hle
  cases call with
  | allow subscriberId =>
      obtain ⟨hdecision, htracks⟩ := allowLocal_tracks hlater subscriberId
      simp only [localStep, grantOf] at htracks ⊢
      rw [hdecision]
      by_cases hfull : cfg.limit ≤ hitsAfter (t - cfg.window) subscriberId hits
      · have hstep : windowStep cfg.window cfg.limit hits (subscriberId, t) = (false, hits) := if_pos hfull
        rw [hstep] at htracks ⊢
        simpa using ⟨htracks, hadmitted⟩
      · have hstep : windowStep cfg.window cfg.limit hits (subscriberId, t)
            = (true, hits ++ [(subscriberId, t)]) := if_neg hfull
        have hfree : hitsAfter (t - cfg.window) subscriberId hits < cfg.limit := by omega
        rw [hstep] at htracks ⊢
        exact ⟨htracks, hadmitted.append hfree⟩
  | retryAfterSeconds subscriberId => simpa [localStep, grantOf] using ⟨hlater, hadmitted⟩
  | cullExpired => simpa [localStep, grantOf] using ⟨hlater.cullExpired, hadmitted⟩

/-! ## The bound -/

theorem admitted_answers {calls : List TimedCall} (hsorted : calls.Pairwise (·.now ≤ ·.now))
    (hlater : ∀ c ∈ calls, now ≤ c.now) (h : SimpleTracks cfg.window now hits requests)
    (hadmitted : Admitted cfg.window cfg.limit hits) :
    Admitted cfg.window cfg.limit (hits ++ (answers (localStep cfg) requests calls).filterMap grantOf) := by
  induction calls generalizing requests now hits with
  | nil => simpa [answers] using hadmitted
  | cons c calls ih =>
      obtain ⟨hfirst, hrest⟩ := List.pairwise_cons.mp hsorted
      obtain ⟨htracks, hadmitted'⟩ := localStep_tracks h (hlater c List.mem_cons_self) hadmitted
      have hall := ih hrest hfirst htracks hadmitted'
      rw [answers, List.filterMap_cons]
      cases hgrant : grantOf (c, (localStep cfg requests c).2) with
      | none => simpa [hgrant] using hall
      | some hit => simpa [hgrant, List.append_assoc] using hall

/-- In a half-open window, closed on either side, a subscriber is let through at most `limit` times. -/
theorem local_bound (cfg : EventSettings) {calls : List TimedCall} (hsorted : calls.Pairwise (·.now ≤ ·.now))
    (subscriberId : String) (start : ℤ) :
    ((localAnswers cfg calls).filterMap grantOf).countP
        (fun c => decide (c.1 = subscriberId) && decide (start ≤ c.2 ∧ c.2 < start + cfg.window)) ≤ cfg.limit.toNat ∧
      ((localAnswers cfg calls).filterMap grantOf).countP
        (fun c => decide (c.1 = subscriberId) && decide (start < c.2 ∧ c.2 ≤ start + cfg.window)) ≤
          cfg.limit.toNat := by
  have hadmitted : Admitted cfg.window cfg.limit ((localAnswers cfg calls).filterMap grantOf) := by
    cases calls with
    | nil => exact admitted_nil _ _
    | cons c calls =>
        have hfirst : ∀ d ∈ c :: calls, c.now ≤ d.now :=
          List.forall_mem_cons.mpr ⟨le_rfl, (List.pairwise_cons.mp hsorted).1⟩
        have hall := admitted_answers hsorted hfirst (SimpleTracks.empty cfg.window c.now) (admitted_nil _ _)
        rwa [List.nil_append] at hall
  refine ⟨hadmitted.countP_le subscriberId start, ?_⟩
  refine le_trans (List.countP_mono_left ?_) (hadmitted.countP_le subscriberId (start + 1))
  intro c _ hc
  simp only [Bool.and_eq_true, decide_eq_true_eq] at hc ⊢
  exact ⟨hc.1, by omega⟩

/-! ## The hint -/

/-- No subscriber has more times than the limit, and no subscriber has two entries. -/
structure Small (cfg : EventSettings) (requests : Requests) : Prop where
  nodup : (requests.map Prod.fst).Nodup
  length : ∀ subscriberId, ((requests.hits subscriberId).length : ℤ) ≤ cfg.limit

theorem Small.assign (h : Small cfg requests) {subscriberId : String} {times : List ℤ}
    (htimes : (times.length : ℤ) ≤ cfg.limit) : Small cfg (requests.assign subscriberId times) := by
  refine ⟨Requests.nodup_assign h.nodup subscriberId times, fun k => ?_⟩
  by_cases hne : subscriberId = k
  · subst hne
    rwa [Requests.hits_assign_self]
  · rw [Requests.hits_assign_ne _ _ hne]
    exact h.length k

/-- What a call other than a check of the subscriber leaves of its times. -/
theorem localStep_hits (hnodup : (requests.map Prod.fst).Nodup) {c : TimedCall} {subscriberId : String}
    (hc : c.call ≠ .allow subscriberId) :
    List.Sublist ((localStep cfg requests c).1.hits subscriberId) (requests.hits subscriberId) := by
  obtain ⟨call, t⟩ := c
  cases call with
  | allow k =>
      have hne : k ≠ subscriberId := fun heq => hc (by rw [heq])
      simp only [localStep, allowLocal]
      split <;> rw [Requests.hits_assign_ne _ _ hne]
  | retryAfterSeconds k => exact List.Sublist.refl _
  | cullExpired =>
      rcases Requests.hits_cullExpired hnodup cfg.window t subscriberId with hsame | ⟨hnil, -⟩
      · simp only [localStep, hsame, List.Sublist.refl]
      · simp only [localStep, hnil, List.nil_sublist]

theorem Small.localStep (h : Small cfg requests) (hlimit : 0 ≤ cfg.limit) (c : TimedCall) :
    Small cfg (localStep cfg requests c).1 := by
  obtain ⟨call, t⟩ := c
  cases call with
  | allow k =>
      have hle : ((requests.hits k).filter (t - cfg.window < ·)).length ≤ (requests.hits k).length :=
        List.length_filter_le _ _
      have hlength := h.length k
      simp only [EventLimiter.localStep, allowLocal]
      split_ifs with hfull
      · exact h.assign (by omega)
      · refine h.assign ?_
        rw [List.length_append, List.length_singleton]
        omega
  | retryAfterSeconds k => exact h
  | cullExpired =>
      refine ⟨h.nodup.sublist (List.filter_sublist.map Prod.fst), fun k => ?_⟩
      rcases Requests.hits_cullExpired h.nodup cfg.window t k with hsame | ⟨hnil, -⟩
      · simp only [EventLimiter.localStep, hsame, h.length k]
      · simp only [EventLimiter.localStep, hnil, List.length_nil]
        omega

theorem Small.finalState (h : Small cfg requests) (hlimit : 0 ≤ cfg.limit) (calls : List TimedCall) :
    Small cfg (finalState (EventLimiter.localStep cfg) requests calls) :=
  finalState_invariant (fun _ c hs (_ : True) => hs.localStep hlimit c) h fun _ _ => trivial

/-- Between two checks of a subscriber its times only become fewer. -/
theorem hits_finalState (h : Small cfg requests) (hlimit : 0 ≤ cfg.limit) {subscriberId : String}
    {calls : List TimedCall} (hcalls : ∀ c ∈ calls, c.call ≠ .allow subscriberId) :
    List.Sublist ((finalState (localStep cfg) requests calls).hits subscriberId) (requests.hits subscriberId) := by
  have hstep : ∀ s c, Small cfg s ∧ List.Sublist (s.hits subscriberId) (requests.hits subscriberId) →
      c.call ≠ .allow subscriberId → Small cfg (localStep cfg s c).1 ∧
        List.Sublist ((localStep cfg s c).1.hits subscriberId) (requests.hits subscriberId) := by
    rintro s c ⟨hs, hsub⟩ hc
    exact ⟨hs.localStep hlimit c, (localStep_hits hs.nodup hc).trans hsub⟩
  exact (finalState_invariant hstep ⟨h, List.Sublist.refl _⟩ hcalls).2

/-- When so many seconds have gone by, the oldest time has left the window. -/
theorem oldest_expired {ticks window age waited : ℤ} (hticks : 0 < ticks)
    (h : max 0 ((window - age).tdiv ticks + 1) * ticks ≤ waited) : window ≤ age + waited := by
  rcases lt_or_ge (window - age) 0 with hneg | hpos
  · have hnonneg : 0 ≤ max 0 ((window - age).tdiv ticks + 1) * ticks :=
      Int.mul_nonneg (le_max_left _ _) hticks.le
    omega
  · rw [Int.tdiv_eq_ediv_of_nonneg hpos] at h
    have hlt : window - age < ((window - age) / ticks + 1) * ticks := Int.lt_ediv_add_one_mul_self _ hticks
    have hle : ((window - age) / ticks + 1) * ticks ≤ max 0 ((window - age) / ticks + 1) * ticks :=
      Int.mul_le_mul_of_nonneg_right (le_max_right _ _) hticks.le
    omega

/-- A check that waits for as long as it was told is let through. -/
theorem allowLocal_after_hint (hticks : 0 < cfg.ticks) (hlimit : 1 ≤ cfg.limit) (h : Small cfg requests)
    {later : Requests} {subscriberId : String} {t : ℤ}
    (hsub : List.Sublist (later.hits subscriberId) (requests.hits subscriberId))
    (hwait : now + retryAfterSeconds cfg requests subscriberId now * cfg.ticks ≤ t) :
    (allowLocal cfg later subscriberId t).1 = true := by
  have hfew : (((later.hits subscriberId).filter (t - cfg.window < ·)).length : ℤ) < cfg.limit := by
    have hle := (hsub.filter (t - cfg.window < ·)).length_le
    have hlength := h.length subscriberId
    cases hmin : (requests.hits subscriberId).min? with
    | none =>
        rw [List.min?_eq_none_iff.mp hmin] at hle
        simp only [List.filter_nil, List.length_nil] at hle
        omega
    | some oldest =>
        have hmem := List.min?_mem hmin
        have hexpired : cfg.window ≤ (now - oldest) + (t - now) := by
          refine oldest_expired hticks ?_
          simp only [retryAfterSeconds, hmin] at hwait
          omega
        have hlt : ((requests.hits subscriberId).filter (t - cfg.window < ·)).length
            < (requests.hits subscriberId).length := by
          refine List.length_filter_lt_length_iff_exists.mpr ⟨oldest, hmem, ?_⟩
          simp only [decide_eq_true_eq]
          omega
        omega
  unfold allowLocal
  dsimp only
  rw [if_neg (by omega)]

/-- A check of a subscriber that comes at least as many seconds after a call of `retry_after_seconds` as this
returned is let through, if the subscriber was not checked in between; the check before the call may have been
refused or not. -/
theorem local_hint (cfg : EventSettings) (hticks : 0 < cfg.ticks) (hlimit : 1 ≤ cfg.limit) {calls : List TimedCall}
    {j k : ℕ} {subscriberId : String} {t t' n : ℤ} (hjk : j < k)
    (hhint : (localAnswers cfg calls)[j]? = some (⟨.retryAfterSeconds subscriberId, t⟩, .seconds n))
    (hbetween : ∀ i, j < i → i < k → ∀ c, calls[i]? = some c → c.call ≠ .allow subscriberId)
    (hcheck : calls[k]? = some ⟨.allow subscriberId, t'⟩) (hwait : t + n * cfg.ticks ≤ t') :
    (localAnswers cfg calls)[k]? = some (⟨.allow subscriberId, t'⟩, .allowed true) := by
  rw [localAnswers, getElem?_answers, Option.map_eq_some_iff] at hhint
  obtain ⟨c, hc, heq⟩ := hhint
  obtain ⟨rfl, hn⟩ := Prod.mk.inj heq
  have hn := Answer.seconds.inj hn
  set earlier := finalState (localStep cfg) [] (calls.take j) with hearlier
  have hempty : Small cfg [] := ⟨List.nodup_nil, fun k => by simp [Requests.hits]; omega⟩
  have hsmall : Small cfg earlier := hempty.finalState (by omega) _
  -- the calls from the hint up to the check
  have hsplit : calls.take k = calls.take j ++ (calls.drop j).take (k - j) := by
    rw [← List.take_add, Nat.add_sub_cancel' hjk.le]
  have hnone : ∀ d ∈ (calls.drop j).take (k - j), d.call ≠ .allow subscriberId := by
    intro d hd
    obtain ⟨i, hi, rfl⟩ := List.getElem_of_mem hd
    rw [List.length_take, List.length_drop] at hi
    rw [List.getElem_take, List.getElem_drop]
    rcases Nat.eq_zero_or_pos i with rfl | hpos
    · rw [List.getElem?_eq_some_iff] at hc
      obtain ⟨hj, hc⟩ := hc
      simp [hc]
    · exact hbetween (j + i) (by omega) (by omega) _ (List.getElem?_eq_getElem (by omega))
  have hsub := hits_finalState hsmall (by omega) hnone
  rw [hearlier, ← finalState_append, ← hsplit] at hsub
  have hgranted : (allowLocal cfg (finalState (localStep cfg) [] (calls.take k)) subscriberId t').1 = true := by
    refine allowLocal_after_hint hticks hlimit hsmall hsub (?_ : t + _ ≤ t')
    rw [hn]
    exact hwait
  rw [localAnswers, getElem?_answers, hcheck, Option.map_some]
  simp only [localStep, hgranted]

end ApexChainx.RateLimit.EventLimiter
