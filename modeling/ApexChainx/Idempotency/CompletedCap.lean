import ApexChainx.Idempotency.Interleaving
import ApexChainx.Lib.Recency
import ApexChainx.Lib.Table

/-!
# The cap on completed keys

`_track_completed_key` and `_enforce_completed_key_cap` (`app/middleware/idempotency.py`) over requests that are
served one after the other, with Redis available. The index of completed keys is cut to
`IDEMPOTENCY_MAX_COMPLETED_KEYS` after each completed request; the responses have a lifetime of their own.

`Phase` says what Redis holds at each command of the request that is being served, `completed_keys_capped` what
it holds between the requests.
-/

namespace ApexChainx.Idempotency

open ApexChainx.Lib

/-! ## Sequential requests -/

/-- A completed request: its key, the time it has in the index, and what is stored under the key when it is
written there. -/
structure Completion where
  key : String
  writtenAt : ℤ
  stored : Option (String × ℤ)

/-- The system with the completed requests so far. -/
structure Monitored where
  sys : Sys
  log : List Completion

def Monitored.init : Monitored := ⟨.init, []⟩

/-- What is completed when a request sends its next command: its key is written to the index. -/
def completionOf (redis : Redis) (writtenAt : ℤ) : Pc → List Completion
  | .track _ key => [⟨key, writtenAt, redis.values key⟩]
  | _ => []

/-- The request that an action completes. -/
def completion (s : Sys) : Action → List Completion
  | .command i _ writtenAt =>
      match s.calls[i]? with
      | some c => completionOf s.redis writtenAt c.pc
      | none => []
  | _ => []

def Monitored.step (cfg : Settings) (m : Monitored) (a : Action) : Option Monitored :=
  (Idempotency.step cfg m.sys a).map fun s => ⟨s, m.log ++ completion m.sys a⟩

def Pc.isReturned : Pc → Bool
  | .returned _ => true
  | _ => false

def Pc.isTrack : Pc → Bool
  | .track _ _ => true
  | _ => false

/-- No request is being served. -/
def Monitored.Idle (m : Monitored) : Prop := ∀ c ∈ m.sys.calls, c.pc.isReturned = true

/-- A request arrives when the ones before it have been served, Redis answers every command, and the times
that are written to the index increase. -/
def Sequential (cfg : Settings) (m : Monitored) : Action → Prop
  | .tick _ => True
  | .arrive _ _ => m.Idle
  | .answer _ _ => True
  | .command i available writtenAt => available = true ∧ ∀ c ∈ m.sys.calls[i]?,
      c.pc.refused cfg = false ∧ (c.pc.isTrack = true → ∀ done ∈ m.log, done.writtenAt < writtenAt)

instance (m : Monitored) : Decidable m.Idle := inferInstanceAs (Decidable (∀ c ∈ m.sys.calls, _))

instance (cfg : Settings) (m : Monitored) : (a : Action) → Decidable (Sequential cfg m a)
  | .tick _ => inferInstanceAs (Decidable True)
  | .arrive _ _ => inferInstanceAs (Decidable m.Idle)
  | .answer _ _ => inferInstanceAs (Decidable True)
  | .command _ _ _ => inferInstanceAs (Decidable (_ ∧ ∀ c ∈ m.sys.calls[_]?, _))

/-- The keys in the index, the one that was written first in front. -/
def completedKeys (redis : Redis) : List String := redis.completedIndex.map Prod.fst

/-- The index holds the most recently completed keys, and a response that is not expired is gone only when as
many others were completed since. -/
structure Capped (cap : ℕ) (m : Monitored) : Prop where
  length_le : m.sys.redis.completedIndex.length ≤ cap
  recent : completedKeys m.sys.redis = Recency.recent cap (m.log.map (·.key))
  stored : ∀ c ∈ m.log, c.stored ≠ none
  removed : ∀ before c after text expiresAt, m.log = before ++ c :: after → c.key ∉ after.map (·.key) →
    c.stored = some (text, expiresAt) → m.sys.now < expiresAt → m.sys.redis.get m.sys.now c.key ≠ some text →
      cap ≤ (after.map (·.key)).dedup.length

/-! ## The index and the responses -/

/-- The index has the last of the completed keys, in the order of their times. -/
structure Indexed (log : List Completion) (redis : Redis) : Prop where
  suffix : completedKeys redis <:+ (log.map (·.key)).dedup
  scores : redis.completedIndex.Pairwise (·.2 < ·.2)
  written : ∀ e ∈ redis.completedIndex, ∃ c ∈ log, c.writtenAt = e.2
  stored : ∀ c ∈ log, c.stored ≠ none

/-- These keys hold what their last completion stored. -/
def Keeps (log : List Completion) (redis : Redis) (keys : List String) : Prop :=
  ∀ before c after, log = before ++ c :: after → c.key ∉ after.map (·.key) → c.key ∈ keys →
    redis.values c.key = c.stored

/-- Between two requests. -/
structure Settled (cap : ℕ) (log : List Completion) (redis : Redis) : Prop extends Indexed log redis where
  length : (completedKeys redis).length = min cap (log.map (·.key)).dedup.length
  keeps : Keeps log redis (completedKeys redis)

/-- A key has been stored and is not in the index yet. -/
structure Storing (cap : ℕ) (log : List Completion) (redis : Redis) (key : String) : Prop
    extends Indexed log redis where
  length : (completedKeys redis).length = min cap (log.map (·.key)).dedup.length
  keeps : Keeps log redis ((completedKeys redis).filter (· ≠ key))
  holds : redis.values key ≠ none

/-- The index may hold too many keys. -/
structure Overfull (cap : ℕ) (log : List Completion) (redis : Redis) : Prop extends Indexed log redis where
  length : min cap (log.map (·.key)).dedup.length ≤ (completedKeys redis).length

/-- The oldest keys are being deleted. -/
structure Evicting (cap : ℕ) (log : List Completion) (redis : Redis) (oldest : List String) : Prop
    extends Overfull cap log redis where
  overfull : cap < (completedKeys redis).length
  oldest_eq : oldest = (completedKeys redis).take ((completedKeys redis).length - cap)
  keeps : Keeps log redis ((completedKeys redis).drop ((completedKeys redis).length - cap))

/-- What Redis holds, by where the request that is being served stands. -/
def Phase (cap : ℕ) (log : List Completion) (redis : Redis) : Pc → Prop
  | .track _ key => Storing cap log redis key
  | .countKeys _ => Overfull cap log redis ∧ Keeps log redis (completedKeys redis)
  | .rangeKeys _ overflow => Overfull cap log redis ∧ Keeps log redis (completedKeys redis) ∧
      cap < (completedKeys redis).length ∧ overflow = (completedKeys redis).length - cap
  | .evict _ oldest member rest => Evicting cap log redis oldest ∧ member ∈ oldest ∧ ∀ k ∈ rest, k ∈ oldest
  | .forget _ oldest => Evicting cap log redis oldest
  | _ => Settled cap log redis

section Redis

variable {cap : ℕ} {log : List Completion} {redis : Redis}

theorem Indexed.nodup (h : Indexed log redis) : (completedKeys redis).Nodup :=
  (List.nodup_dedup _).sublist h.suffix.sublist

/-- The index is in the order in which `ZRANGE` reads it. -/
theorem Indexed.zrange (h : Indexed log redis) (count : ℕ) :
    redis.zrange count = (completedKeys redis).take count := by
  have hsorted : redis.completedIndex.insertionSort (fun a b => a.2 < b.2 ∨ a.2 = b.2 ∧ a.1 ≤ b.1)
      = redis.completedIndex := by
    apply List.Pairwise.insertionSort_eq
    exact h.scores.imp fun hlt => .inl hlt
  rw [Redis.zrange]
  simp only [hsorted]
  rw [completedKeys, List.map_take]

theorem Settled.setex (h : Settled cap log redis) (now ttl : ℤ) (key text : String) :
    Storing cap log (redis.setex now key ttl text) key where
  suffix := h.suffix
  scores := h.scores
  written := h.written
  stored := h.stored
  length := h.length
  keeps before c after hlog hlast hkey := by
    obtain ⟨hmem, hne⟩ := List.mem_filter.mp hkey
    show Function.update redis.values key _ c.key = c.stored
    rw [Function.update_of_ne (of_decide_eq_true hne)]
    exact h.keeps before c after hlog hlast hmem
  holds := by
    show Function.update redis.values key _ key ≠ none
    rw [Function.update_self]
    exact Option.some_ne_none _

theorem completedKeys_zadd (redis : Redis) (key : String) (score : ℤ) :
    completedKeys (redis.zadd key score) = Recency.touch key (completedKeys redis) := by
  simp only [completedKeys, Redis.zadd, Recency.touch, List.map_append, List.map_cons, List.map_nil,
    List.filter_map]
  rfl

theorem Storing.zadd {key : String} {writtenAt : ℤ} (h : Storing cap log redis key)
    (hlater : ∀ done ∈ log, done.writtenAt < writtenAt) :
    Overfull cap (log ++ [⟨key, writtenAt, redis.values key⟩]) (redis.zadd key writtenAt) ∧
      Keeps (log ++ [⟨key, writtenAt, redis.values key⟩]) (redis.zadd key writtenAt)
        (completedKeys (redis.zadd key writtenAt)) := by
  have hkeys : ((log ++ [(⟨key, writtenAt, redis.values key⟩ : Completion)]).map (·.key)).dedup
      = Recency.touch key (log.map (·.key)).dedup := by
    rw [List.map_append, List.map_cons, List.map_nil, Recency.dedup_concat]
  refine ⟨⟨⟨?_, ?_, ?_, ?_⟩, ?_⟩, ?_⟩
  · rw [hkeys, completedKeys_zadd]
    exact Recency.touch_suffix h.suffix key
  · refine List.pairwise_append.mpr ⟨h.scores.filter _, List.pairwise_singleton _ _, ?_⟩
    intro e he e' he'
    obtain rfl := List.mem_singleton.mp he'
    obtain ⟨c, hc, hscore⟩ := h.written e (List.mem_of_mem_filter he)
    rw [← hscore]
    exact hlater c hc
  · intro e he
    rcases List.mem_append.mp he with he | he
    · obtain ⟨c, hc, hscore⟩ := h.written e (List.mem_of_mem_filter he)
      exact ⟨c, List.mem_append_left _ hc, hscore⟩
    · obtain rfl := List.mem_singleton.mp he
      exact ⟨_, List.mem_append_right _ (List.mem_singleton_self _), rfl⟩
  · intro c hc
    rcases List.mem_append.mp hc with hc | hc
    · exact h.stored c hc
    · obtain rfl := List.mem_singleton.mp hc
      exact h.holds
  · rw [hkeys, completedKeys_zadd]
    exact Recency.le_length_touch (List.nodup_dedup _) h.suffix h.length
  · intro before c after hlog hlast hkey
    rcases List.eq_nil_or_concat after with rfl | ⟨after, d, rfl⟩
    · obtain ⟨-, hc⟩ := List.append_inj' hlog rfl
      obtain rfl := (List.cons.inj hc).1
      rfl
    · rw [List.concat_eq_append, ← List.cons_append, ← List.append_assoc] at hlog
      obtain ⟨hinit, hd⟩ := List.append_inj' hlog rfl
      obtain rfl := (List.cons.inj hd).1
      rw [List.concat_eq_append, List.map_append, List.mem_append, not_or] at hlast
      have hne : c.key ≠ key := fun heq => hlast.2 (by simp [heq])
      rw [completedKeys_zadd, Recency.touch, List.mem_append, List.mem_singleton] at hkey
      exact h.keeps before c after hinit hlast.1 (hkey.resolve_right hne)

/-- The cap is not exceeded. -/
theorem Overfull.settled (h : Overfull cap log redis) (hkeeps : Keeps log redis (completedKeys redis))
    (hle : (completedKeys redis).length ≤ cap) : Settled cap log redis where
  toIndexed := h.toIndexed
  length := by
    have hlow := h.length
    have hhigh := h.suffix.length_le
    omega
  keeps := hkeeps

theorem Overfull.evicting (h : Overfull cap log redis) (hkeeps : Keeps log redis (completedKeys redis))
    (hover : cap < (completedKeys redis).length) :
    Evicting cap log redis ((completedKeys redis).take ((completedKeys redis).length - cap)) where
  toOverfull := h
  overfull := hover
  oldest_eq := rfl
  keeps before c after hlog hlast hkey := hkeeps before c after hlog hlast (List.mem_of_mem_drop hkey)

/-- A key that stays in the index is not deleted. -/
theorem Evicting.delete {oldest : List String} (h : Evicting cap log redis oldest) {member : String}
    (hmember : member ∈ oldest) : Evicting cap log (redis.delete member) oldest where
  suffix := h.suffix
  scores := h.scores
  written := h.written
  stored := h.stored
  length := h.length
  overfull := h.overfull
  oldest_eq := h.oldest_eq
  keeps before c after hlog hlast hkey := by
    have hapart := h.nodup
    rw [← List.take_append_drop ((completedKeys redis).length - cap) (completedKeys redis), ← h.oldest_eq,
      List.nodup_append] at hapart
    have hne : c.key ≠ member := fun heq => hapart.2.2 member hmember c.key hkey heq.symm
    show Function.update redis.values member none c.key = c.stored
    rw [Function.update_of_ne hne]
    exact h.keeps before c after hlog hlast hkey

theorem Evicting.zrem {oldest : List String} (h : Evicting cap log redis oldest) :
    Settled cap log (redis.zrem oldest) := by
  have hapart := h.nodup
  rw [← List.take_append_drop ((completedKeys redis).length - cap) (completedKeys redis), ← h.oldest_eq,
    List.nodup_append] at hapart
  have hkeys : completedKeys (redis.zrem oldest)
      = (completedKeys redis).drop ((completedKeys redis).length - cap) := by
    have hfilter : completedKeys (redis.zrem oldest) = (completedKeys redis).filter (!oldest.contains ·) := by
      simp only [completedKeys, Redis.zrem, List.filter_map]
      rfl
    rw [hfilter]
    nth_rewrite 1 [← List.take_append_drop ((completedKeys redis).length - cap) (completedKeys redis)]
    rw [← h.oldest_eq, List.filter_append]
    have hnone : oldest.filter (!oldest.contains ·) = [] := by
      rw [List.filter_eq_nil_iff]
      intro k hk
      simp [hk]
    have hall : ((completedKeys redis).drop ((completedKeys redis).length - cap)).filter (!oldest.contains ·)
        = (completedKeys redis).drop ((completedKeys redis).length - cap) := by
      rw [List.filter_eq_self]
      intro k hk
      have hnot : k ∉ oldest := fun hold => hapart.2.2 k hold k hk rfl
      simp [hnot]
    rw [hnone, hall, List.nil_append]
  refine ⟨⟨?_, h.scores.filter _, fun e he => h.written e (List.mem_of_mem_filter he), h.stored⟩, ?_, ?_⟩
  · rw [hkeys]
    exact (List.drop_suffix _ _).trans h.suffix
  · have hover := h.overfull
    have hle := h.suffix.length_le
    rw [hkeys, List.length_drop]
    omega
  · rw [hkeys]
    exact h.keeps

end Redis

/-! ## Steps -/

section Steps

variable {cfg : Settings} {log : List Completion} {redis redis' : Redis} {c c' : Call}

theorem phase_start {cap : ℕ} (h : Settled cap log redis) (r : Request) : Phase cap log redis (start cfg r) := by
  unfold start
  split_ifs
  · split
    · split_ifs
      · exact h
      · split <;> exact h
    · exact h
  · exact h

theorem answered_phase {cap : ℕ} {now : ℤ} {answer : Outcome HandlerResponse}
    (h : c.pc.isReturned = false → Phase cap log redis c.pc)
    (hanswer : answered now answer c = some c') : Phase cap log redis c'.pc ∧ c.pc.isReturned = false := by
  unfold answered at hanswer
  cases hpc : c.pc <;> cases answer <;> simp only [hpc, reduceCtorEq, Option.some.injEq] at h hanswer
  case pass.ok =>
      subst hanswer
      exact ⟨h rfl, rfl⟩
  case pass.error =>
      subst hanswer
      exact ⟨h rfl, rfl⟩
  case handle.ok =>
      split_ifs at hanswer
      · split at hanswer <;> (obtain rfl := Option.some.inj hanswer; exact ⟨h rfl, rfl⟩)
      · obtain rfl := Option.some.inj hanswer
        exact ⟨h rfl, rfl⟩
  case handle.error =>
      subst hanswer
      exact ⟨h rfl, rfl⟩

theorem commanded_phase (hcap : 0 ≤ cfg.maxCompletedKeys) {now writtenAt : ℤ}
    (h : c.pc.isReturned = false → Phase cfg.maxCompletedKeys.toNat log redis c.pc)
    (hlater : c.pc.isTrack = true → ∀ done ∈ log, done.writtenAt < writtenAt)
    (hcommand : commanded cfg now redis writtenAt c = some (redis', c')) :
    Phase cfg.maxCompletedKeys.toNat (log ++ completionOf redis writtenAt c.pc) redis' c'.pc ∧
      c.pc.isReturned = false := by
  unfold commanded at hcommand
  cases hpc : c.pc <;> simp only [hpc, reduceCtorEq, Option.some.injEq, Prod.mk.injEq] at h hcommand
  case lookup fingerprint key =>
      refine ⟨?_, rfl⟩
      show Phase _ (log ++ []) _ _
      rw [List.append_nil]
      split at hcommand <;> (obtain ⟨rfl, rfl⟩ := Prod.mk.inj (Option.some.inj hcommand); exact h rfl)
  case store resp key text =>
      obtain ⟨rfl, rfl⟩ := hcommand
      refine ⟨?_, rfl⟩
      show Phase _ (log ++ []) _ _
      rw [List.append_nil]
      exact Settled.setex (h rfl) now cfg.ttl key text
  case track resp key =>
      obtain ⟨rfl, rfl⟩ := hcommand
      -- the only command that completes a key
      exact ⟨Storing.zadd (h rfl) (hlater (by rw [hpc]; rfl)), rfl⟩
  case countKeys resp =>
      obtain ⟨hfull, hkeeps⟩ := h rfl
      have hlength : (completedKeys redis).length = redis.completedIndex.length := List.length_map _
      refine ⟨?_, rfl⟩
      show Phase _ (log ++ []) _ _
      rw [List.append_nil]
      split_ifs at hcommand with hover
      · obtain ⟨rfl, rfl⟩ := Prod.mk.inj (Option.some.inj hcommand)
        exact hfull.settled hkeeps (by omega)
      · obtain ⟨rfl, rfl⟩ := Prod.mk.inj (Option.some.inj hcommand)
        exact ⟨hfull, hkeeps, by omega, by omega⟩
  case rangeKeys resp overflow =>
      obtain ⟨hfull, hkeeps, hover, rfl⟩ := h rfl
      refine ⟨?_, rfl⟩
      show Phase _ (log ++ []) _ _
      rw [List.append_nil]
      have hevicting := hfull.evicting hkeeps hover
      rw [hfull.zrange] at hcommand
      split at hcommand
      · rename_i hnil
        rw [List.take_eq_nil_iff] at hnil
        rcases hnil with hzero | hnil
        · omega
        · rw [hnil] at hover
          exact absurd hover (Nat.not_lt_zero _)
      · rename_i member rest hcons
        obtain ⟨rfl, rfl⟩ := Prod.mk.inj (Option.some.inj hcommand)
        rw [hcons] at hevicting
        exact ⟨hevicting, List.mem_cons_self, fun k hk => List.mem_cons_of_mem member hk⟩
  case evict resp oldest member rest =>
      obtain ⟨hevicting, hmember, hrest⟩ := h rfl
      refine ⟨?_, rfl⟩
      show Phase _ (log ++ []) _ _
      rw [List.append_nil]
      -- one of the oldest keys is deleted, the others are still to go
      cases rest with
      | nil =>
          obtain ⟨rfl, rfl⟩ := Prod.mk.inj (Option.some.inj hcommand)
          exact hevicting.delete hmember
      | cons next rest =>
          obtain ⟨rfl, rfl⟩ := Prod.mk.inj (Option.some.inj hcommand)
          exact ⟨hevicting.delete hmember, hrest next List.mem_cons_self,
            fun k hk => hrest k (List.mem_cons_of_mem next hk)⟩
  case forget resp oldest =>
      obtain ⟨rfl, rfl⟩ := hcommand
      refine ⟨?_, rfl⟩
      show Phase _ (log ++ []) _ _
      rw [List.append_nil]
      exact Evicting.zrem (h rfl)

/-- At most one request is being served, the circuits are closed, and Redis holds what it should there. -/
structure Serving (cfg : Settings) (m : Monitored) : Prop where
  closed : ∀ p, m.sys.disabledUntil p ≤ m.sys.now
  phase : ∀ (i : ℕ) (c : Call), m.sys.calls[i]? = some c → c.pc.isReturned = false →
    Phase cfg.maxCompletedKeys.toNat m.log m.sys.redis c.pc ∧
      ∀ (j : ℕ) (d : Call), m.sys.calls[j]? = some d → j ≠ i → d.pc.isReturned = true
  idle : m.Idle → Settled cfg.maxCompletedKeys.toNat m.log m.sys.redis

theorem Serving.init (cfg : Settings) : Serving cfg .init where
  closed _ := Int.le_refl 0
  phase i c hc := by cases hc
  idle _ := by
    refine ⟨⟨List.suffix_refl _, List.Pairwise.nil, fun e he => ?_, fun c hc => ?_⟩, ?_, ?_⟩
    · cases he
    · cases hc
    · simp [Monitored.init, Sys.init, completedKeys]
    · intro before c after hlog
      simp [Monitored.init] at hlog

/-- The request that is being served has moved on. -/
theorem Serving.moved {m : Monitored} (h : Serving cfg m) {i : ℕ} (hc : m.sys.calls[i]? = some c)
    (hserved : c.pc.isReturned = false) {log' : List Completion}
    (hphase : Phase cfg.maxCompletedKeys.toNat log' redis' c'.pc) :
    Serving cfg ⟨{ m.sys with redis := redis', calls := m.sys.calls.set i c' }, log'⟩ where
  closed := h.closed
  phase j d hd hnot := by
    have hothers := (h.phase i c hc hserved).2
    rcases getElem?_replace hd with ⟨rfl, rfl⟩ | ⟨hne, hd⟩
    · refine ⟨hphase, fun k e he hne => ?_⟩
      rcases getElem?_replace he with ⟨rfl, rfl⟩ | ⟨-, he⟩
      · exact absurd rfl hne
      · exact hothers k e he hne
    · rw [hothers j d hd hne] at hnot
      cases hnot
  idle hidle := by
    have hmem : c' ∈ m.sys.calls.set i c' := by
      refine List.mem_of_getElem? (i := i) ?_
      rw [List.getElem?_set_self (List.getElem?_eq_some_iff.mp hc).1]
    have hreturned := hidle c' hmem
    cases hpc : c'.pc <;> simp only [hpc, Pc.isReturned, Bool.false_eq_true] at hreturned hphase
    exact hphase

theorem Serving.step (hcap : 0 ≤ cfg.maxCompletedKeys) {m m' : Monitored} {a : Action} (h : Serving cfg m)
    (hok : Sequential cfg m a) (hstep : Monitored.step cfg m a = some m') : Serving cfg m' := by
  obtain ⟨s', hs', rfl⟩ := Option.map_eq_some_iff.mp hstep
  cases a with
  | tick seconds =>
      obtain rfl := Option.some.inj hs'
      refine ⟨fun p => ?_, ?_, ?_⟩
      · have hclosed := h.closed p
        show m.sys.disabledUntil p ≤ m.sys.now + seconds
        omega
      · simp only [completion, List.append_nil]
        exact h.phase
      · simp only [completion, List.append_nil]
        exact h.idle
  | arrive process r =>
      obtain rfl := Option.some.inj hs'
      -- the requests come one after the other, so all before this one are answered
      have hidle : ∀ (j : ℕ) (d : Call), m.sys.calls[j]? = some d → d.pc.isReturned = true :=
        fun j d hd => hok d (List.mem_of_getElem? hd)
      have hsettled := h.idle hok
      simp only [completion, List.append_nil]
      refine ⟨h.closed, fun j d hd hnot => ?_, fun _ => hsettled⟩
      rcases getElem?_insert hd with hd | ⟨rfl, rfl⟩
      · rw [hidle j d hd] at hnot
        cases hnot
      · refine ⟨phase_start hsettled r, fun k e he hne => ?_⟩
        rcases getElem?_insert he with he | ⟨rfl, rfl⟩
        · exact hidle k e he
        · exact absurd rfl hne
  | answer i answer =>
      simp only [Idempotency.step] at hs'
      cases hc : m.sys.calls[i]? with
      | none =>
          rw [hc] at hs'
          cases hs'
      | some c =>
          rw [hc] at hs'
          obtain ⟨c', hanswer, rfl⟩ := Option.map_eq_some_iff.mp hs'
          obtain ⟨hphase, hserved⟩ := answered_phase (fun hserved => (h.phase i c hc hserved).1) hanswer
          simp only [completion, List.append_nil]
          exact h.moved hc hserved hphase
  | command i available writtenAt =>
      obtain ⟨rfl, hanswered⟩ := hok
      simp only [Idempotency.step] at hs'
      cases hc : m.sys.calls[i]? with
      | none =>
          rw [hc] at hs'
          cases hs'
      | some c =>
          obtain ⟨hrefused, hlater⟩ := hanswered c hc
          have hclosed := h.closed c.process
          rw [hc] at hs'
          simp only [not_lt.mpr hclosed, and_false, if_false, hrefused, Bool.false_eq_true, not_false_eq_true,
            and_self, if_true] at hs'
          obtain ⟨⟨redis', c'⟩, hcommand, rfl⟩ := Option.map_eq_some_iff.mp hs'
          obtain ⟨hphase, hserved⟩ := commanded_phase hcap (fun hserved => (h.phase i c hc hserved).1) hlater hcommand
          simp only [completion, hc]
          exact h.moved hc hserved hphase

end Steps

/-! ## Runs -/

/-- Between the requests the index has the most recently completed keys, no more than the cap, and a response
that has not expired was removed only when as many other keys as the cap allows were completed after it. -/
theorem Serving.capped {cfg : Settings} {m : Monitored} (h : Serving cfg m) (hidle : m.Idle) :
    Capped cfg.maxCompletedKeys.toNat m := by
  have hsettled := h.idle hidle
  have hrecent : completedKeys m.sys.redis = Recency.recent cfg.maxCompletedKeys.toNat (m.log.map (·.key)) :=
    Recency.eq_recent hsettled.suffix hsettled.length
  refine ⟨?_, hrecent, hsettled.stored, ?_⟩
  · have hlength := hsettled.length
    rw [completedKeys, List.length_map] at hlength
    omega
  · intro before c after text expiresAt hlog hlast hstored hnow hremoved
    by_contra hfew
    rw [not_le] at hfew
    refine hremoved ?_
    have hkey : c.key ∈ completedKeys m.sys.redis := by
      rw [hrecent, hlog, List.map_append, List.map_cons]
      exact Recency.mem_recent hlast hfew
    rw [Redis.get, hsettled.keeps before c after hlog hlast hkey, hstored]
    exact if_pos hnow

/-- Requests that are served one after the other, with Redis available and increasing times: after each of them
the completed keys are capped. -/
theorem completed_keys_capped {cfg : Settings} (hcap : 0 ≤ cfg.maxCompletedKeys) {actions : List Action}
    {m : Monitored} (hok : Guarded (Monitored.step cfg) (Sequential cfg) .init actions)
    (hrun : run (Monitored.step cfg) .init actions = some m) (hidle : m.Idle) :
    Capped cfg.maxCompletedKeys.toNat m := by
  have hserving : Serving cfg m :=
    run_invariant_of_guarded (fun s a s' h hok hstep => h.step hcap hok hstep) (Serving.init cfg) hok hrun
  exact hserving.capped hidle

/-! ## Two requests under a cap of one -/

/-- One completed key is kept. -/
def oneKey : Settings := { sampleSettings with maxCompletedKeys := 1 }

/-- A request, from its arrival to its answer; `commands` are sent behind the store. -/
def served (i : ℕ) (key : String) (writtenAt : ℤ) (commands : ℕ) : List Action :=
  [.arrive 0 { sampleRequest with idempotencyKey := some key }, .command i true writtenAt,
    .answer i (.ok sampleResponse), .command i true writtenAt] ++
    List.replicate commands (.command i true writtenAt)

/-- The second request evicts the key of the first one. -/
def twoServed : List Action := served 0 "key-1" 10 2 ++ [.tick 60] ++ served 1 "key-2" 70 5

theorem two_keys_capped :
    ∃ m, run (Monitored.step oneKey) .init twoServed = some m ∧ m.log.map (·.key) =
      ["idempotency::key-1", "idempotency::key-2"] ∧ Capped 1 m := by
  have hguarded : Guarded (Monitored.step oneKey) (Sequential oneKey) .init twoServed := by decide +kernel
  have hsummary : (run (Monitored.step oneKey) .init twoServed).map
      (fun m => (decide m.Idle, m.log.map (·.key)))
      = some (true, ["idempotency::key-1", "idempotency::key-2"]) := by decide +kernel
  obtain ⟨m, hm, hkeys⟩ := Option.map_eq_some_iff.mp hsummary
  obtain ⟨hidle, hlog⟩ := Prod.mk.inj hkeys
  exact ⟨m, hm, hlog, completed_keys_capped (by decide) hguarded hm (of_decide_eq_true hidle)⟩

end ApexChainx.Idempotency
