import Mathlib.Algebra.Order.Ring.Rat
import Mathlib.Logic.Function.Basic
import Mathlib.Tactic.Linarith
import ApexChainx.Lib.Table
import ApexChainx.Lib.Transition

/-!
# The single-use token store

`SingleUseTokenStore.consume` (`app/services/single_use_token_store.py`), which the callback endpoint asks
whether a nonce was used before. Redis keeps a key for `ttl_seconds`; without Redis a dictionary in the
process takes its place, whose stale entries are only dropped once it is full.

Times are seconds. A call reads the clock once here; the bookkeeping of the circuit breaker and the
fallback read it again within the same call.
-/

namespace ApexChainx.Payment.SingleUseToken

open ApexChainx.Lib

/-- `MAX_FALLBACK_TOKENS`. -/
def maxFallbackTokens : ℕ := 50000

/-- `CIRCUIT_OPEN_TTL_SECONDS`. -/
def circuitOpenTtlSeconds : ℚ := 30

/-- The store's setting and its surroundings: whether a broker is configured, and whether Redis answers. -/
structure TokenStoreConfig where
  ttlSeconds : ℤ
  brokerConfigured : Bool
  redisUp : Bool
deriving DecidableEq, Repr

/-- The keys of Redis with the times at which they disappear, the dictionary `_fallback` with the times
at which its tokens were used, and `_disabled_until`. -/
structure TokenStore where
  redis : String → Option ℚ
  fallback : List (String × ℚ)
  disabledUntil : ℚ

def TokenStore.init : TokenStore := ⟨fun _ => none, [], 0⟩

/-- What is left of the dictionary where a call has bounded it. -/
def boundedFallback (ttl : ℤ) (now : ℚ) (fallback : List (String × ℚ)) : List (String × ℚ) :=
  if maxFallbackTokens ≤ fallback.length then fallback.filter fun e => !decide (e.2 < now - ttl) else fallback

/-- `_consume_fallback`. -/
def consumeFallback (ttl : ℤ) (token : String) (now : ℚ) (s : TokenStore) : Bool × TokenStore :=
  let kept := boundedFallback ttl now s.fallback
  if kept.any (·.1 = token) then (true, { s with fallback := kept })
  else (false, { s with fallback := kept ++ [(token, now)] })

/-- `SET key 1 NX EX ttl` and the answer made of its reply. -/
def setNxEx (ttl : ℤ) (token : String) (now : ℚ) (s : TokenStore) : Bool × TokenStore :=
  if (s.redis token).any (now < ·) then (true, s)
  else (false, { s with redis := Function.update s.redis token (some (now + ttl)) })

/-- `consume`: whether the token was already used. Redis refuses an expiry that is not positive. -/
def consume (cfg : TokenStoreConfig) (token : String) (now : ℚ) (s : TokenStore) : Bool × TokenStore :=
  if !cfg.brokerConfigured then consumeFallback cfg.ttlSeconds token now s
  else if now < s.disabledUntil then consumeFallback cfg.ttlSeconds token now s
  else if cfg.redisUp && 0 < cfg.ttlSeconds then setNxEx cfg.ttlSeconds token now s
  else consumeFallback cfg.ttlSeconds token now { s with disabledUntil := now + circuitOpenTtlSeconds }

/-! ## Sequences of calls -/

/-- A call that has been answered. -/
structure Consumed where
  token : String
  time : ℚ
  replay : Bool
deriving DecidableEq, Repr

/-- The store with all calls so far. -/
structure TokenRun where
  now : ℚ
  store : TokenStore
  log : List Consumed

/-- No call yet; the monotonic clock does not read below zero. -/
def TokenRun.init : TokenRun := ⟨0, .init, []⟩

/-- A call at a time that is not before the last one. -/
def TokenRun.step (cfg : TokenStoreConfig) (s : TokenRun) (call : String × ℚ) : Option TokenRun :=
  if s.now ≤ call.2 then
    let answer := consume cfg call.1 call.2 s.store
    some ⟨call.2, answer.2, s.log ++ [⟨call.1, call.2, answer.1⟩]⟩
  else none

/-- The token was accepted less than `ttl` before the time. -/
def UsedWithin (ttl : ℤ) (log : List Consumed) (token : String) (time : ℚ) : Prop :=
  ∃ c ∈ log, c.token = token ∧ c.replay = false ∧ time - c.time < ttl

/-- Every call was answered by what was accepted before it. -/
def Lawful (ttl : ℤ) (log : List Consumed) : Prop :=
  ∀ i c, log[i]? = some c → (c.replay = true ↔ UsedWithin ttl (log.take i) c.token c.time)

theorem lawful_nil (ttl : ℤ) : Lawful ttl [] := by
  simp [Lawful]

theorem lawful_concat_iff (ttl : ℤ) (log : List Consumed) (c : Consumed) :
    Lawful ttl (log ++ [c]) ↔
      Lawful ttl log ∧ (c.replay = true ↔ UsedWithin ttl log c.token c.time) := by
  constructor
  · intro h
    constructor
    · intro i d hd
      obtain ⟨hlt, -⟩ := List.getElem?_eq_some_iff.mp hd
      have := h i d (by rwa [List.getElem?_append_left hlt])
      rwa [List.take_append_of_le_length hlt.le] at this
    · simpa using h log.length c (by simp)
  · rintro ⟨hlog, hc⟩ i d hd
    rcases getElem?_concat_eq_some hd with hold | ⟨rfl, rfl⟩
    · obtain ⟨hlt, -⟩ := List.getElem?_eq_some_iff.mp hold
      rw [List.take_append_of_le_length hlt.le]
      exact hlog i d hold
    · simpa using hc

/-! ## With Redis -/

/-- The calls are answered by Redis. -/
def TokenStoreConfig.Serves (cfg : TokenStoreConfig) : Prop :=
  cfg.brokerConfigured = true ∧ cfg.redisUp = true ∧ 0 < cfg.ttlSeconds

instance (cfg : TokenStoreConfig) : Decidable cfg.Serves := inferInstanceAs (Decidable (_ ∧ _))

/-- The keys of Redis are the tokens that were accepted, each with the expiry of its last acceptance. -/
structure Served (cfg : TokenStoreConfig) (s : TokenRun) : Prop where
  now_nonneg : 0 ≤ s.now
  closed : s.store.disabledUntil = 0
  no_fallback : s.store.fallback = []
  accepted : ∀ c ∈ s.log, c.replay = false →
    ∃ expiry, s.store.redis c.token = some expiry ∧ c.time + cfg.ttlSeconds ≤ expiry
  stored : ∀ token expiry, s.store.redis token = some expiry →
    ∃ c ∈ s.log, c.token = token ∧ c.replay = false ∧ c.time + cfg.ttlSeconds = expiry
  lawful : Lawful cfg.ttlSeconds s.log

theorem Served.init (cfg : TokenStoreConfig) : Served cfg .init := by
  constructor <;> simp [TokenRun.init, TokenStore.init, lawful_nil]

/-- A key is alive exactly while its token was used within the lifetime. -/
theorem Served.alive_iff {cfg : TokenStoreConfig} {s : TokenRun} (h : Served cfg s) (token : String)
    (time : ℚ) :
    (s.store.redis token).any (time < ·) = true ↔ UsedWithin cfg.ttlSeconds s.log token time := by
  constructor
  · intro halive
    obtain ⟨expiry, hexpiry, hlt⟩ := (Option.any_eq_true _ _).mp halive
    obtain ⟨c, hc, htoken, hreplay, hsum⟩ := h.stored token expiry hexpiry
    rw [decide_eq_true_eq] at hlt
    exact ⟨c, hc, htoken, hreplay, by linarith⟩
  · rintro ⟨c, hc, rfl, hreplay, hlt⟩
    obtain ⟨expiry, hexpiry, hle⟩ := h.accepted c hc hreplay
    rw [hexpiry, Option.any_some, decide_eq_true_eq]
    linarith

theorem Served.step {cfg : TokenStoreConfig} (hcfg : cfg.Serves) {s s' : TokenRun} {call : String × ℚ}
    (h : Served cfg s) (hs' : TokenRun.step cfg s call = some s') : Served cfg s' := by
  obtain ⟨token, time⟩ := call
  rw [TokenRun.step, Option.ite_none_right_eq_some, Option.some.injEq] at hs'
  obtain ⟨hle, rfl⟩ := hs'
  have hnonneg : 0 ≤ time := h.now_nonneg.trans hle
  have hanswer : consume cfg token time s.store = setNxEx cfg.ttlSeconds token time s.store := by
    rw [consume, h.closed, if_neg (by simp [hcfg.1]), if_neg (not_lt.mpr hnonneg),
      if_pos (by simp [hcfg.2.1, hcfg.2.2])]
  simp only [hanswer, setNxEx]
  have halive := h.alive_iff token time
  split_ifs with hused
  · -- a replay leaves the keys as they are
    have hold : ∀ c ∈ s.log ++ [⟨token, time, true⟩], c.replay = false → c ∈ s.log := by
      intro c hc hreplay
      rcases List.mem_append.mp hc with hc | hc
      · exact hc
      · rw [List.mem_singleton.mp hc] at hreplay
        cases hreplay
    refine ⟨hnonneg, h.closed, h.no_fallback, fun c hc hreplay => h.accepted c (hold c hc hreplay) hreplay,
      ?_, ?_⟩
    · intro token' expiry hexpiry
      obtain ⟨c, hc, hrest⟩ := h.stored token' expiry hexpiry
      exact ⟨c, List.mem_append_left _ hc, hrest⟩
    · rw [lawful_concat_iff]
      exact ⟨h.lawful, iff_of_true rfl (halive.mp hused)⟩
  · refine ⟨hnonneg, h.closed, h.no_fallback, ?_, ?_, ?_⟩
    · intro c hc hreplay
      by_cases htoken : c.token = token
      · refine ⟨time + cfg.ttlSeconds, by simp [htoken], ?_⟩
        rcases List.mem_append.mp hc with hc | hc
        · -- an earlier acceptance of the token has expired
          have hold : ¬ time - c.time < cfg.ttlSeconds := fun hlt =>
            hused (halive.mpr ⟨c, hc, htoken, hreplay, hlt⟩)
          have hpos : (0 : ℚ) < cfg.ttlSeconds := by exact_mod_cast hcfg.2.2
          linarith
        · rw [List.mem_singleton.mp hc]
      · simp only [Function.update_of_ne htoken]
        rcases List.mem_append.mp hc with hc | hc
        · exact h.accepted c hc hreplay
        · exact absurd (by rw [List.mem_singleton.mp hc]) htoken
    · intro token' expiry hexpiry
      by_cases htoken : token' = token
      · subst htoken
        simp only [Function.update_self, Option.some.injEq] at hexpiry
        exact ⟨⟨token', time, false⟩, by simp, rfl, rfl, hexpiry⟩
      · simp only [Function.update_of_ne htoken] at hexpiry
        obtain ⟨c, hc, hrest⟩ := h.stored token' expiry hexpiry
        exact ⟨c, List.mem_append_left _ hc, hrest⟩
    · rw [lawful_concat_iff]
      exact ⟨h.lawful, iff_of_false (by simp) fun hwithin => hused (halive.mpr hwithin)⟩

/-! ## Without Redis -/

/-- What is known of the dictionary: it lists tokens that were accepted, each once, and of the accepted
ones only some that have expired are missing. -/
structure Remembers (cfg : TokenStoreConfig) (s : TokenRun) : Prop where
  nodup : (s.store.fallback.map Prod.fst).Nodup
  listed : ∀ e ∈ s.store.fallback, ∃ c ∈ s.log, c.token = e.1 ∧ c.replay = false ∧ c.time = e.2
  kept : ∀ c ∈ s.log, c.replay = false →
    (c.token, c.time) ∈ s.store.fallback ∨ cfg.ttlSeconds < s.now - c.time

theorem Remembers.init (cfg : TokenStoreConfig) : Remembers cfg .init := by
  constructor <;> simp [TokenRun.init, TokenStore.init]

/-- A call without Redis is the dictionary's. -/
theorem consume_fallback {cfg : TokenStoreConfig} (hcfg : ¬ cfg.Serves) (token : String) (time : ℚ)
    (s : TokenStore) :
    ∃ disabledUntil, consume cfg token time s
      = consumeFallback cfg.ttlSeconds token time { s with disabledUntil := disabledUntil } := by
  unfold consume
  split_ifs with hbroker hopen hserved
  · exact ⟨s.disabledUntil, rfl⟩
  · exact ⟨s.disabledUntil, rfl⟩
  · rw [Bool.and_eq_true, decide_eq_true_eq] at hserved
    exact absurd ⟨by simpa using hbroker, hserved⟩ hcfg
  · exact ⟨_, rfl⟩

/-- The condition on a call and the state it finds: an entry of its token has not reached its lifetime, or
is past it in a full dictionary; and a full dictionary has a stale entry to make room for a new token. -/
structure Timely (cfg : TokenStoreConfig) (s : TokenRun) (call : String × ℚ) : Prop where
  entry : ∀ time, (call.1, time) ∈ s.store.fallback → call.2 - time < cfg.ttlSeconds
    ∨ cfg.ttlSeconds < call.2 - time ∧ maxFallbackTokens ≤ s.store.fallback.length
  room : (∀ time, (call.1, time) ∉ s.store.fallback) → s.store.fallback.length < maxFallbackTokens
    ∨ ∃ e ∈ s.store.fallback, cfg.ttlSeconds < call.2 - e.2

theorem mem_boundedFallback {ttl : ℤ} {now : ℚ} {fallback : List (String × ℚ)} {e : String × ℚ} :
    e ∈ boundedFallback ttl now fallback ↔
      e ∈ fallback ∧ ¬ (maxFallbackTokens ≤ fallback.length ∧ ttl < now - e.2) := by
  have hstale : e.2 < now - ttl ↔ (ttl : ℚ) < now - e.2 := by
    constructor <;> intro h <;> linarith
  unfold boundedFallback
  split_ifs with hfull
  · simp [hfull, hstale]
  · simp [hfull]

theorem boundedFallback_sublist (ttl : ℤ) (now : ℚ) (fallback : List (String × ℚ)) :
    (boundedFallback ttl now fallback).Sublist fallback := by
  unfold boundedFallback
  split_ifs
  · exact List.filter_sublist
  · exact List.Sublist.refl _

/-- An entry that a call drops makes the dictionary shorter. -/
theorem length_boundedFallback_lt {ttl : ℤ} {now : ℚ} {fallback : List (String × ℚ)} {e : String × ℚ}
    (he : e ∈ fallback) (hdropped : e ∉ boundedFallback ttl now fallback) :
    (boundedFallback ttl now fallback).length < fallback.length := by
  have hsub := boundedFallback_sublist ttl now fallback
  refine lt_of_le_of_ne hsub.length_le fun hlen => hdropped ?_
  rwa [hsub.eq_of_length hlen]

section Fallback

variable {cfg : TokenStoreConfig} {s s' : TokenRun} {token : String} {time : ℚ}

/-- What a call without Redis does. -/
theorem fallback_step (hcfg : ¬ cfg.Serves) (hs' : TokenRun.step cfg s (token, time) = some s') :
    s.now ≤ time ∧ s'.now = time ∧
      ((∃ t, (token, t) ∈ boundedFallback cfg.ttlSeconds time s.store.fallback) ∧
          s'.store.fallback = boundedFallback cfg.ttlSeconds time s.store.fallback ∧
          s'.log = s.log ++ [⟨token, time, true⟩]
        ∨ (∀ t, (token, t) ∉ boundedFallback cfg.ttlSeconds time s.store.fallback) ∧
          s'.store.fallback = boundedFallback cfg.ttlSeconds time s.store.fallback ++ [(token, time)] ∧
          s'.log = s.log ++ [⟨token, time, false⟩]) := by
  rw [TokenRun.step, Option.ite_none_right_eq_some, Option.some.injEq] at hs'
  obtain ⟨hle, rfl⟩ := hs'
  obtain ⟨disabledUntil, hanswer⟩ := consume_fallback hcfg token time s.store
  refine ⟨hle, rfl, ?_⟩
  simp only [hanswer, consumeFallback]
  split_ifs with hused
  · obtain ⟨⟨token', t⟩, he, htoken⟩ := List.any_eq_true.mp hused
    obtain rfl : token' = token := by simpa using htoken
    exact .inl ⟨⟨t, he⟩, rfl, rfl⟩
  · refine .inr ⟨fun t he => hused ?_, rfl, rfl⟩
    exact List.any_eq_true.mpr ⟨(token, t), he, by simp⟩

theorem Remembers.step (hcfg : ¬ cfg.Serves) (h : Remembers cfg s)
    (hs' : TokenRun.step cfg s (token, time) = some s') : Remembers cfg s' := by
  obtain ⟨hle, hnow, hcases⟩ := fallback_step hcfg hs'
  have hsub := boundedFallback_sublist cfg.ttlSeconds time s.store.fallback
  -- an accepted token that is dropped now, or was before, has expired
  have hkept : ∀ c ∈ s.log, c.replay = false →
      (c.token, c.time) ∈ boundedFallback cfg.ttlSeconds time s.store.fallback
        ∨ cfg.ttlSeconds < time - c.time := by
    intro c hc hreplay
    rcases h.kept c hc hreplay with hmem | hpast
    · by_cases hin : (c.token, c.time) ∈ boundedFallback cfg.ttlSeconds time s.store.fallback
      · exact .inl hin
      · rw [mem_boundedFallback, not_and, not_not] at hin
        exact .inr (hin hmem).2
    · exact .inr (by linarith)
  rcases hcases with ⟨-, hfallback, hlog⟩ | ⟨hnew, hfallback, hlog⟩
  · refine ⟨?_, ?_, ?_⟩
    · rw [hfallback]
      exact h.nodup.sublist (hsub.map _)
    · intro e he
      rw [hfallback] at he
      obtain ⟨c, hc, hrest⟩ := h.listed e (hsub.subset he)
      exact ⟨c, by rw [hlog]; exact List.mem_append_left _ hc, hrest⟩
    · intro c hc hreplay
      rw [hlog, List.mem_append, List.mem_singleton] at hc
      rcases hc with hc | rfl
      · rw [hfallback, hnow]
        exact hkept c hc hreplay
      · cases hreplay
  · refine ⟨?_, ?_, ?_⟩
    · rw [hfallback, List.map_append, List.nodup_append]
      refine ⟨h.nodup.sublist (hsub.map _), List.nodup_singleton _, ?_⟩
      rintro token' hmem _ hlast rfl
      obtain ⟨⟨token', t⟩, he, rfl⟩ := List.mem_map.mp hmem
      obtain rfl : token' = token := by simpa using hlast
      exact hnew t he
    · intro e he
      rw [hfallback, List.mem_append, List.mem_singleton] at he
      rw [hlog]
      rcases he with he | rfl
      · obtain ⟨c, hc, hrest⟩ := h.listed e (hsub.subset he)
        exact ⟨c, List.mem_append_left _ hc, hrest⟩
      · exact ⟨_, List.mem_append_right _ (List.mem_singleton_self _), rfl, rfl, rfl⟩
    · intro c hc hreplay
      rw [hlog, List.mem_append, List.mem_singleton] at hc
      rw [hfallback, hnow, List.mem_append, List.mem_singleton]
      rcases hc with hc | rfl
      · exact (hkept c hc hreplay).imp .inl id
      · exact .inl (.inr rfl)

/-- The token was used within the lifetime exactly when a young entry of it is left. -/
theorem Remembers.usedWithin_iff (h : Remembers cfg s) (hle : s.now ≤ time) :
    UsedWithin cfg.ttlSeconds s.log token time ↔
      ∃ t, (token, t) ∈ boundedFallback cfg.ttlSeconds time s.store.fallback
        ∧ time - t < cfg.ttlSeconds := by
  constructor
  · rintro ⟨c, hc, rfl, hreplay, hlt⟩
    refine ⟨c.time, mem_boundedFallback.mpr ⟨?_, fun hdropped => by linarith [hdropped.2]⟩, hlt⟩
    exact (h.kept c hc hreplay).resolve_right fun hpast => by linarith
  · rintro ⟨t, he, hlt⟩
    obtain ⟨c, hc, htoken, hreplay, rfl⟩ := h.listed _ (mem_boundedFallback.mp he).1
    exact ⟨c, hc, htoken, hreplay, hlt⟩

/-- Every entry of the token that is left is young exactly under the first part of the condition. -/
theorem entries_young_iff :
    (∀ t, (token, t) ∈ boundedFallback cfg.ttlSeconds time s.store.fallback → time - t < cfg.ttlSeconds)
      ↔ ∀ t, (token, t) ∈ s.store.fallback → time - t < cfg.ttlSeconds
        ∨ cfg.ttlSeconds < time - t ∧ maxFallbackTokens ≤ s.store.fallback.length := by
  constructor
  · intro h t ht
    by_cases hdropped : maxFallbackTokens ≤ s.store.fallback.length ∧ cfg.ttlSeconds < time - t
    · exact .inr hdropped.symm
    · exact .inl (h t (mem_boundedFallback.mpr ⟨ht, hdropped⟩))
  · intro h t ht
    obtain ⟨hmem, hkept⟩ := mem_boundedFallback.mp ht
    exact (h t hmem).resolve_right fun hdropped => hkept hdropped.symm

/-- Nothing is dropped from a full dictionary without stale entries. -/
theorem boundedFallback_of_fresh {ttl : ℤ} {fallback : List (String × ℚ)}
    (hfresh : ∀ e ∈ fallback, time - e.2 ≤ ttl) : boundedFallback ttl time fallback = fallback := by
  unfold boundedFallback
  split_ifs
  · rw [List.filter_eq_self]
    intro e he
    have hle := hfresh e he
    simp only [Bool.not_eq_true', decide_eq_false_iff_not, not_lt]
    linarith
  · rfl

/-- There is room for a token that no entry is left of exactly under the second part of the condition. -/
theorem room_iff (hbound : s.store.fallback.length ≤ maxFallbackTokens)
    (hnew : ∀ t, (token, t) ∉ boundedFallback cfg.ttlSeconds time s.store.fallback) :
    (boundedFallback cfg.ttlSeconds time s.store.fallback).length + 1 ≤ maxFallbackTokens
      ↔ ((∀ t, (token, t) ∉ s.store.fallback) → s.store.fallback.length < maxFallbackTokens
        ∨ ∃ e ∈ s.store.fallback, cfg.ttlSeconds < time - e.2) := by
  have hsub := (boundedFallback_sublist cfg.ttlSeconds time s.store.fallback).length_le
  constructor
  · intro hroom _
    by_contra hfull
    rw [not_or, not_lt] at hfull
    have hall : boundedFallback cfg.ttlSeconds time s.store.fallback = s.store.fallback := by
      refine boundedFallback_of_fresh fun e he => ?_
      exact not_lt.mp fun hstale => hfull.2 ⟨e, he, hstale⟩
    rw [hall] at hroom
    omega
  · intro hcondition
    by_cases hpresent : ∃ t, (token, t) ∈ s.store.fallback
    · obtain ⟨t, ht⟩ := hpresent
      have hlt := length_boundedFallback_lt ht (hnew t)
      omega
    · rw [not_exists] at hpresent
      by_cases hfull : s.store.fallback.length < maxFallbackTokens
      · omega
      · obtain ⟨e, he, hstale⟩ := (hcondition hpresent).resolve_left hfull
        have hdropped : e ∉ boundedFallback cfg.ttlSeconds time s.store.fallback :=
          fun hin => (mem_boundedFallback.mp hin).2 ⟨not_lt.mp hfull, hstale⟩
        have hlt := length_boundedFallback_lt he hdropped
        omega

/-- A call without Redis is answered as it should be, and leaves the dictionary within its bound, exactly
when it is timely. -/
theorem Remembers.timely_iff (hcfg : ¬ cfg.Serves) (h : Remembers cfg s)
    (hbound : s.store.fallback.length ≤ maxFallbackTokens)
    (hlawful : Lawful cfg.ttlSeconds s.log) (hs' : TokenRun.step cfg s (token, time) = some s') :
    (Lawful cfg.ttlSeconds s'.log ∧ s'.store.fallback.length ≤ maxFallbackTokens)
      ↔ Timely cfg s (token, time) := by
  obtain ⟨hle, -, hcases⟩ := fallback_step hcfg hs'
  have hwithin : UsedWithin cfg.ttlSeconds s.log token time ↔ _ := h.usedWithin_iff hle
  have hsub := boundedFallback_sublist cfg.ttlSeconds time s.store.fallback
  rcases hcases with ⟨⟨t, ht⟩, hfallback, hlog⟩ | ⟨hnew, hfallback, hlog⟩
  · -- answered as a replay: right when the entry found is young
    have hlen : s'.store.fallback.length ≤ maxFallbackTokens := by
      rw [hfallback]
      exact hsub.length_le.trans hbound
    have hunique : ∀ t', (token, t') ∈ boundedFallback cfg.ttlSeconds time s.store.fallback → t' = t := by
      intro t' ht'
      have hnodup := h.nodup.sublist (hsub.map _)
      exact congrArg Prod.snd (List.inj_on_of_nodup_map hnodup ht' ht rfl)
    rw [hlog, lawful_concat_iff]
    simp only [hlawful, hlen, true_and, and_true, true_iff, hwithin]
    constructor
    · rintro ⟨t', ht', hlt⟩
      obtain rfl := hunique t' ht'
      refine ⟨entries_young_iff.mp fun t'' ht'' => hunique t'' ht'' ▸ hlt, fun hnone => ?_⟩
      exact absurd (mem_boundedFallback.mp ht).1 (hnone t')
    · intro htimely
      exact ⟨t, ht, entries_young_iff.mpr htimely.entry t ht⟩
  · -- accepted, which is always right; the question is whether there is room
    have hnone : ¬ UsedWithin cfg.ttlSeconds s.log token time := by
      rw [hwithin]
      rintro ⟨t, ht, -⟩
      exact hnew t ht
    have hentry : ∀ t, (token, t) ∈ s.store.fallback → time - t < cfg.ttlSeconds
        ∨ cfg.ttlSeconds < time - t ∧ maxFallbackTokens ≤ s.store.fallback.length :=
      entries_young_iff.mp fun t ht => absurd ht (hnew t)
    rw [hlog, lawful_concat_iff, hfallback, List.length_append, List.length_singleton]
    simp only [hlawful, hnone, Bool.false_eq_true, true_and]
    rw [room_iff hbound hnew]
    exact ⟨fun hroom => ⟨hentry, hroom⟩, fun htimely => htimely.room⟩

end Fallback

/-! ## Runs -/

/-- With Redis every call is answered as it should be, and the dictionary stays empty. Without it the
answers and the bound hold all along exactly the runs whose calls are timely. -/
theorem consume_single_use_iff (cfg : TokenStoreConfig) {calls : List (String × ℚ)} {s : TokenRun}
    (hrun : run (TokenRun.step cfg) .init calls = some s) :
    (∀ before t, before <+: calls → run (TokenRun.step cfg) .init before = some t →
        Lawful cfg.ttlSeconds t.log ∧ t.store.fallback.length ≤ maxFallbackTokens)
      ↔ cfg.Serves ∨ Guarded (TokenRun.step cfg) (Timely cfg) .init calls := by
  by_cases hcfg : cfg.Serves
  · refine iff_of_true (fun before t _ ht => ?_) (.inl hcfg)
    have hserved : Served cfg t :=
      run_invariant (fun s call s' h hs' => h.step hcfg hs') (Served.init cfg) ht
    exact ⟨hserved.lawful, by simp [hserved.no_fallback]⟩
  · have hremembers : ∀ before t, run (TokenRun.step cfg) .init before = some t → Remembers cfg t :=
      fun before t ht => run_invariant (fun s call s' h hs' => h.step hcfg hs') (Remembers.init cfg) ht
    have hkeep : ∀ s call s', (Remembers cfg s ∧ Lawful cfg.ttlSeconds s.log
          ∧ s.store.fallback.length ≤ maxFallbackTokens) → TokenRun.step cfg s call = some s' →
        ((Remembers cfg s' ∧ Lawful cfg.ttlSeconds s'.log
          ∧ s'.store.fallback.length ≤ maxFallbackTokens) ↔ Timely cfg s call) := by
      rintro s ⟨token, time⟩ s' ⟨hs, hlawful, hbound⟩ hs'
      rw [← hs.timely_iff hcfg hbound hlawful hs']
      exact and_iff_right (hs.step hcfg hs')
    have hiff := forall_prefix_iff_guarded hkeep
      ⟨Remembers.init cfg, lawful_nil _, Nat.zero_le _⟩ hrun
    rw [or_iff_right hcfg, ← hiff]
    constructor
    · exact fun h before t hbefore ht => ⟨hremembers before t ht, h before t hbefore ht⟩
    · exact fun h before t hbefore ht => (h before t hbefore ht).2

/-- Without Redis, a nonce that comes back after ten seconds. -/
theorem consume_single_use_replayed :
    ∃ s, run (TokenRun.step ⟨300, false, false⟩) .init [("nonce", 5), ("nonce", 15)] = some s
      ∧ s.log = [⟨"nonce", 5, false⟩, ⟨"nonce", 15, true⟩] ∧ Lawful 300 s.log := by
  have hrun : run (TokenRun.step ⟨300, false, false⟩) .init [("nonce", 5), ("nonce", 15)] = some _ := rfl
  have htimely : Guarded (TokenRun.step ⟨300, false, false⟩) (Timely ⟨300, false, false⟩) .init
      [("nonce", 5), ("nonce", 15)] := by
    refine ⟨⟨by simp [TokenRun.init, TokenStore.init], fun _ => .inl ?_⟩, fun s₁ h₁ => ⟨?_, fun _ _ => trivial⟩⟩
    · simp [TokenRun.init, TokenStore.init, maxFallbackTokens]
    · obtain rfl := Option.some.inj h₁
      refine ⟨fun t ht => .inl ?_, fun hnone => absurd (List.mem_singleton_self _) (hnone 5)⟩
      obtain rfl : t = 5 := congrArg Prod.snd (List.mem_singleton.mp ht)
      norm_num
  have hprefix := List.prefix_refl [("nonce", (5 : ℚ)), ("nonce", 15)]
  exact ⟨_, hrun, rfl, ((consume_single_use_iff _ hrun).mpr (.inr htimely) _ _ hprefix hrun).1⟩

/-- Without Redis, a nonce that comes back after its lifetime is still refused. -/
theorem expired_token_refused :
    ∃ s, run (TokenRun.step ⟨300, false, false⟩) .init [("nonce", 5), ("nonce", 605)] = some s
      ∧ s.log = [⟨"nonce", 5, false⟩, ⟨"nonce", 605, true⟩] ∧ ¬ Lawful 300 s.log := by
  refine ⟨_, rfl, rfl, fun hlawful => ?_⟩
  obtain ⟨c, hc, -, -, hlt⟩ := (hlawful 1 _ rfl).mp rfl
  obtain rfl : c = ⟨"nonce", 5, false⟩ := List.mem_singleton.mp hc
  norm_num at hlt

end ApexChainx.Payment.SingleUseToken
