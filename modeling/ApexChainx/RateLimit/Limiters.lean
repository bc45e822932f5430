import Mathlib.Logic.Function.Basic
import ApexChainx.Lib.SlidingWindow
import ApexChainx.Lib.Table
import ApexChainx.Lib.WindowedSet

/-!
# The two limiters behind authentication

`SimpleRateLimiter` and the script `RATE_LIMITER_LUA` of `RedisRateLimiter`
(`app/core/rate_limiter.py`). The one keeps, in the process, a list of hit times for each key, prunes the
list of the key it is handed, and sweeps all keys once there are many. The other keeps a sorted set for
each key, trims it by score and lets the key expire.

Both are the sliding-window limiter of `Lib.SlidingWindow`, each with its own way of forgetting
(`SimpleTracks`, `SetTracks`).
-/

namespace ApexChainx.RateLimit

open ApexChainx.Lib

/-! ## In the process -/

/-- `SimpleRateLimiter._shared`, a `defaultdict(list)`. -/
abbrev Requests := List (String × List ℤ)

/-- `SIMPLE_RATE_LIMITER_SWEEP_THRESHOLD`. -/
def sweepThreshold : ℕ := 1024

namespace Requests

/-- The hits recorded under a key. -/
def hits (requests : Requests) (key : String) : List ℤ :=
  (requests.find? (·.1 = key)).elim [] Prod.snd

/-- `self.requests[key] = value`. -/
def assign (requests : Requests) (key : String) (value : List ℤ) : Requests :=
  if key ∈ requests.map Prod.fst then updateKey Prod.fst key (fun e => (e.1, value)) requests
  else requests ++ [(key, value)]

/-- `self.requests[key]` of a key that is not there enters it. -/
def touch (requests : Requests) (key : String) : Requests :=
  if key ∈ requests.map Prod.fst then requests else requests ++ [(key, [])]

/-- Whether a key stays in a sweep: it has a hit, and the last one is after the start of the window. -/
def stays (windowStart : ℤ) (entry : String × List ℤ) : Bool := entry.2.getLast?.any (windowStart < ·)

/-- `cull_expired`: the dictionary afterwards and the number of keys removed. -/
def cullExpired (window now : ℤ) (requests : Requests) : Requests × ℕ :=
  let kept := requests.filter (stays (now - window))
  (kept, requests.length - kept.length)

/-- `SimpleRateLimiter.is_allowed` without a session, in the unit of the clock. -/
def isAllowed (window limit : ℤ) (requests : Requests) (key : String) (now : ℤ) : Bool × Requests :=
  let windowStart := now - window
  let pruned := requests.assign key ((requests.hits key).filter (windowStart < ·))
  let swept := if sweepThreshold < pruned.length then (cullExpired window now pruned).1 else pruned
  let touched := swept.touch key
  if limit ≤ (touched.hits key).length then (false, touched)
  else (true, touched.assign key (touched.hits key ++ [now]))

theorem keys_assign_of_mem {requests : Requests} {key : String} {value : List ℤ}
    (h : key ∈ requests.map Prod.fst) : (requests.assign key value).map Prod.fst = requests.map Prod.fst := by
  rw [assign, if_pos h, map_key_updateKey (g := fun e => (e.1, value)) fun _ => rfl]

theorem nodup_append_new {requests : Requests} {key : String} {value : List ℤ}
    (hnodup : (requests.map Prod.fst).Nodup) (h : key ∉ requests.map Prod.fst) :
    ((requests ++ [(key, value)]).map Prod.fst).Nodup := by
  rw [List.map_append, List.map_singleton]
  exact List.Nodup.append hnodup (List.nodup_singleton key) (by simpa using h)

theorem nodup_assign {requests : Requests} (hnodup : (requests.map Prod.fst).Nodup) (key : String)
    (value : List ℤ) : ((requests.assign key value).map Prod.fst).Nodup := by
  by_cases h : key ∈ requests.map Prod.fst
  · rw [keys_assign_of_mem h]
    exact hnodup
  · rw [assign, if_neg h]
    exact nodup_append_new hnodup h

theorem nodup_touch {requests : Requests} (hnodup : (requests.map Prod.fst).Nodup) (key : String) :
    ((requests.touch key).map Prod.fst).Nodup := by
  unfold touch
  split
  · exact hnodup
  · rename_i h
    exact nodup_append_new hnodup h

theorem find?_append_new {requests : Requests} {key : String} {value : List ℤ} (k : String)
    (h : key ∉ requests.map Prod.fst) :
    (requests ++ [(key, value)]).find? (·.1 = k)
      = if k = key then some (key, value) else requests.find? (·.1 = k) := by
  rw [List.find?_append]
  by_cases hk : k = key
  · subst hk
    have hnone : requests.find? (·.1 = k) = none := by
      apply List.find?_eq_none.mpr
      intro e he hek
      exact h (of_decide_eq_true hek ▸ List.mem_map_of_mem he)
    simp [hnone]
  · have hne : ¬ key = k := fun heq => hk heq.symm
    simp [hk, hne]

theorem hits_assign_self (requests : Requests) (key : String) (value : List ℤ) :
    (requests.assign key value).hits key = value := by
  unfold assign hits
  by_cases h : key ∈ requests.map Prod.fst
  · obtain ⟨e, he, hek⟩ := List.mem_map.mp h
    rw [if_pos h, find?_updateKey (g := fun e => (e.1, value)) fun _ => rfl]
    cases hfind : requests.find? (·.1 = key) with
    | none => exact absurd hek (by simpa using List.find?_eq_none.mp hfind e he)
    | some e' => rfl
  · rw [if_neg h, find?_append_new key h, if_pos rfl]
    rfl

theorem hits_assign_ne (requests : Requests) {key k : String} (value : List ℤ) (hne : key ≠ k) :
    (requests.assign key value).hits k = requests.hits k := by
  unfold assign hits
  by_cases h : key ∈ requests.map Prod.fst
  · rw [if_pos h, find?_updateKey_ne (g := fun e => (e.1, value)) (fun _ => rfl) hne]
  · rw [if_neg h, find?_append_new k h, if_neg hne.symm]

@[simp] theorem hits_touch (requests : Requests) (key k : String) :
    (requests.touch key).hits k = requests.hits k := by
  unfold touch hits
  by_cases h : key ∈ requests.map Prod.fst
  · rw [if_pos h]
  · rw [if_neg h, find?_append_new k h]
    by_cases hk : k = key
    · subst hk
      have hnone : requests.find? (·.1 = k) = none := by
        apply List.find?_eq_none.mpr
        intro e he hek
        exact h (of_decide_eq_true hek ▸ List.mem_map_of_mem he)
      simp [hnone]
    · rw [if_neg hk]

/-- A sweep leaves the hits of a key, or forgets them because the key does not stay. -/
theorem hits_cullExpired {requests : Requests} (hnodup : (requests.map Prod.fst).Nodup) (window now : ℤ)
    (key : String) :
    (cullExpired window now requests).1.hits key = requests.hits key ∨
      ((cullExpired window now requests).1.hits key = [] ∧
        (requests.hits key).getLast?.any (now - window < ·) = false) := by
  unfold cullExpired hits
  rw [find?_filter_key hnodup]
  cases hfind : requests.find? (·.1 = key) with
  | none => exact .inl rfl
  | some e =>
      by_cases hstays : stays (now - window) e = true
      · rw [Option.filter_some_pos hstays]
        exact .inl rfl
      · rw [Option.filter_some_neg (by simpa using hstays)]
        exact .inr ⟨rfl, by simpa [stays] using hstays⟩

end Requests

/-- The dictionary follows the hits: of each key it keeps the times that are still in the window, and
perhaps others. -/
structure SimpleTracks (window now : ℤ) (hits : List (String × ℤ)) (requests : Requests) : Prop where
  nodup : (requests.map Prod.fst).Nodup
  kept : ∀ key, Kept window now (timesOf key hits) (requests.hits key)
  sorted : hits.Pairwise (·.2 ≤ ·.2)
  past : ∀ c ∈ hits, c.2 ≤ now

/-- In a sorted list whose last time has left the window, all times have. -/
theorem le_of_getLast? {times : List ℤ} {start : ℤ} (hsorted : times.Pairwise (· ≤ ·))
    (hlast : times.getLast?.any (start < ·) = false) : ∀ t ∈ times, t ≤ start := by
  intro t ht
  rcases List.eq_nil_or_concat times with rfl | ⟨front, last, rfl⟩
  · cases ht
  · rw [List.concat_eq_append] at hsorted hlast ht
    have hle : last ≤ start := by simpa using hlast
    rcases List.mem_append.mp ht with hfront | hmem
    · have := (List.pairwise_append.mp hsorted).2.2 t hfront last (List.mem_singleton_self last)
      omega
    · rw [List.mem_singleton.mp hmem]
      exact hle

theorem pairwise_timesOf {hits : List (String × ℤ)} (h : hits.Pairwise (·.2 ≤ ·.2)) (key : String) :
    (timesOf key hits).Pairwise (· ≤ ·) :=
  List.pairwise_map.mpr (h.sublist List.filter_sublist)

theorem timesOf_append_self (key : String) (now : ℤ) (hits : List (String × ℤ)) :
    timesOf key (hits ++ [(key, now)]) = timesOf key hits ++ [now] := by
  rw [timesOf_append, timesOf_singleton, if_pos rfl]

theorem timesOf_append_ne {key k : String} (now : ℤ) (hits : List (String × ℤ)) (hne : key ≠ k) :
    timesOf k (hits ++ [(key, now)]) = timesOf k hits := by
  rw [timesOf_append, timesOf_singleton, if_neg hne, List.append_nil]

theorem pairwise_append_now {hits : List (String × ℤ)} {now : ℤ} (h : hits.Pairwise (·.2 ≤ ·.2))
    (hpast : ∀ c ∈ hits, c.2 ≤ now) (key : String) : (hits ++ [(key, now)]).Pairwise (·.2 ≤ ·.2) := by
  rw [List.pairwise_append]
  refine ⟨h, List.pairwise_singleton _ _, ?_⟩
  intro c hc d hd
  rw [List.mem_singleton.mp hd]
  exact hpast c hc

namespace SimpleTracks

variable {window now now' : ℤ} {hits : List (String × ℤ)} {requests : Requests} {key : String}

theorem empty (window now : ℤ) : SimpleTracks window now [] [] := by
  refine ⟨List.nodup_nil, fun key => Kept.nil window now, List.Pairwise.nil, ?_⟩
  intro c hc
  cases hc

theorem later (h : SimpleTracks window now hits requests) (hle : now ≤ now') :
    SimpleTracks window now' hits requests := by
  refine ⟨h.nodup, fun key => (h.kept key).later hle, h.sorted, ?_⟩
  intro c hc
  exact Int.le_trans (h.past c hc) hle

theorem of_hits {requests' : Requests} (h : SimpleTracks window now hits requests)
    (hnodup : (requests'.map Prod.fst).Nodup)
    (hkept : ∀ key, Kept window now (timesOf key hits) (requests'.hits key)) :
    SimpleTracks window now hits requests' :=
  ⟨hnodup, hkept, h.sorted, h.past⟩

theorem prune (h : SimpleTracks window now hits requests) (key : String) :
    SimpleTracks window now hits
      (requests.assign key ((requests.hits key).filter (now - window < ·))) := by
  apply h.of_hits (Requests.nodup_assign h.nodup key _)
  intro k
  by_cases hk : key = k
  · subst hk
    rw [Requests.hits_assign_self]
    exact (h.kept key).of_prune
  · rw [Requests.hits_assign_ne _ _ hk]
    exact h.kept k

/-- A key that does not stay in a sweep has no hit in the window. -/
theorem forgotten (h : SimpleTracks window now hits requests) (key : String)
    (hlast : (requests.hits key).getLast?.any (now - window < ·) = false) :
    ∀ t ∈ requests.hits key, t ≤ now - window := by
  exact le_of_getLast? ((pairwise_timesOf h.sorted key).sublist (h.kept key).sublist) hlast

theorem cullExpired (h : SimpleTracks window now hits requests) :
    SimpleTracks window now hits (requests.cullExpired window now).1 := by
  refine h.of_hits ?_ ?_
  · exact h.nodup.sublist (List.filter_sublist.map Prod.fst)
  intro key
  rcases Requests.hits_cullExpired h.nodup window now key with hsame | ⟨hnil, hlast⟩
  · rw [hsame]
    exact h.kept key
  · rw [hnil]
    exact (h.kept key).forget (h.forgotten key hlast)

/-- A sweep keeps all hits of a key that has been pruned. -/
theorem hits_cullExpired (h : SimpleTracks window now hits requests)
    (hpruned : ∀ t ∈ requests.hits key, now - window < t) :
    (requests.cullExpired window now).1.hits key = requests.hits key := by
  rcases Requests.hits_cullExpired h.nodup window now key with hsame | ⟨hnil, hlast⟩
  · exact hsame
  · rw [hnil]
    symm
    apply List.eq_nil_iff_forall_not_mem.mpr
    intro t ht
    have hold := h.forgotten key hlast t ht
    have hnew := hpruned t ht
    omega

theorem touch (h : SimpleTracks window now hits requests) (key : String) :
    SimpleTracks window now hits (requests.touch key) := by
  apply h.of_hits (Requests.nodup_touch h.nodup key)
  intro k
  rw [Requests.hits_touch]
  exact h.kept k

theorem record (h : SimpleTracks window now hits requests) (key : String) :
    SimpleTracks window now (hits ++ [(key, now)])
      (requests.assign key (requests.hits key ++ [now])) := by
  refine ⟨Requests.nodup_assign h.nodup key _, ?_, pairwise_append_now h.sorted h.past key, ?_⟩
  · intro k
    by_cases hk : key = k
    · subst hk
      rw [Requests.hits_assign_self, timesOf_append_self]
      exact (h.kept key).append [now]
    · rw [Requests.hits_assign_ne _ _ hk, timesOf_append_ne now hits hk]
      exact h.kept k
  · intro c hc
    rcases List.mem_append.mp hc with hold | hnew
    · exact h.past c hold
    · rw [List.mem_singleton.mp hnew]

/-- A check decides as the limiter that remembers everything, and follows it. -/
theorem isAllowed (h : SimpleTracks window now hits requests) (limit : ℤ) (key : String) :
    (requests.isAllowed window limit key now).1 = (windowStep window limit hits (key, now)).1 ∧
      SimpleTracks window now (windowStep window limit hits (key, now)).2
        (requests.isAllowed window limit key now).2 := by
  set pruned := requests.assign key ((requests.hits key).filter (now - window < ·)) with hpruned
  set swept := if sweepThreshold < pruned.length then (pruned.cullExpired window now).1 else pruned
    with hswept
  have htracks : SimpleTracks window now hits pruned := h.prune key
  have hhits : pruned.hits key = (timesOf key hits).filter (now - window < ·) := by
    rw [hpruned, Requests.hits_assign_self, (h.kept key).prune]
  have hwithin : ∀ t ∈ pruned.hits key, now - window < t := by
    intro t ht
    rw [hhits] at ht
    exact of_decide_eq_true (List.mem_filter.mp ht).2
  have hsweep : SimpleTracks window now hits swept ∧ swept.hits key = pruned.hits key := by
    rw [hswept]
    split
    · exact ⟨htracks.cullExpired, htracks.hits_cullExpired hwithin⟩
    · exact ⟨htracks, rfl⟩
  have hcount : ((swept.touch key).hits key).length = hitsAfter (now - window) key hits := by
    rw [Requests.hits_touch, hsweep.2, hhits, hitsAfter, List.countP_eq_length_filter]
  have hunfold : requests.isAllowed window limit key now
      = if limit ≤ ((swept.touch key).hits key).length then (false, swept.touch key)
        else (true, (swept.touch key).assign key ((swept.touch key).hits key ++ [now])) := rfl
  rw [hunfold, hcount, windowStep]
  by_cases hfull : limit ≤ hitsAfter (now - window) key hits
  · rw [if_pos hfull, if_pos hfull]
    exact ⟨rfl, hsweep.1.touch key⟩
  · rw [if_neg hfull, if_neg hfull]
    exact ⟨rfl, (hsweep.1.touch key).record key⟩

end SimpleTracks

/-! ## In Redis -/

/-- The keys of the limiter in Redis. -/
abbrev Store := String → SortedSet String

/-- `_key_namespace`. -/
def keyNamespace (sha256 : String → String) (key : String) : String :=
  "auth_rate_limiter:" ++ (if key.length ≤ 128 then key else sha256 key)

/-- `int(time())` at a time in microseconds. -/
def seconds (clock : ℤ) : ℤ := clock / 1000000

/-- `RATE_LIMITER_LUA` on the set under its key: the score is in seconds, and the expiry is on the clock of
Redis. -/
def scriptStep (window limit clock : ℤ) (member : String) (z : SortedSet String) :
    Bool × SortedSet String :=
  let now := seconds clock
  let trimmed := (z.live clock).removeRange 0 (now - window)
  if limit ≤ trimmed.rows.length then (false, trimmed)
  else (true, (trimmed.zadd member now).expire (clock + window * 1000000))

/-- `_eval`: the script under the key. -/
def eval (sha256 : String → String) (window limit : ℤ) (store : Store) (key : String) (clock : ℤ)
    (member : String) : Bool × Store :=
  let result := scriptStep window limit clock member (store (keyNamespace sha256 key))
  (result.1, Function.update store (keyNamespace sha256 key) result.2)

/-- The sorted set follows the times at which its key was let through, under members that have all been
used. -/
structure SetTracks (window clock : ℤ) (times : List ℤ) (used : List String) (z : SortedSet String) :
    Prop where
  kept : Kept window (seconds clock) times (z.rows.map Prod.snd).reverse
  nonneg : ∀ p ∈ z.rows, 0 ≤ p.2
  members : ∀ p ∈ z.rows, p.1 ∈ used
  past : ∀ t ∈ times, t ≤ seconds clock
  expiry : ∀ e, z.expiresAt = some e → ∀ p ∈ z.rows, (p.2 + window) * 1000000 ≤ e

namespace SetTracks

variable {window clock clock' : ℤ} {times : List ℤ} {used : List String} {z : SortedSet String}

theorem empty (window clock : ℤ) (used : List String) : SetTracks window clock [] used .empty := by
  refine ⟨Kept.nil window _, ?_, ?_, ?_, ?_⟩
  · intro p hp
    cases hp
  · intro p hp
    cases hp
  · intro t ht
    cases ht
  · intro e he
    cases he

theorem later (h : SetTracks window clock times used z) (hle : clock ≤ clock') :
    SetTracks window clock' times used z := by
  have hseconds : seconds clock ≤ seconds clock' := by
    unfold seconds
    omega
  refine ⟨h.kept.later hseconds, h.nonneg, h.members, ?_, h.expiry⟩
  intro t ht
  exact Int.le_trans (h.past t ht) hseconds

theorem usedMore (h : SetTracks window clock times used z) (member : String) :
    SetTracks window clock times (used ++ [member]) z := by
  refine ⟨h.kept, h.nonneg, ?_, h.past, h.expiry⟩
  intro p hp
  exact List.mem_append_left _ (h.members p hp)

/-- A key that has expired held no hit of the window. -/
theorem live (h : SetTracks window clock times used z) :
    SetTracks window clock times used (z.live clock) := by
  unfold SortedSet.live
  split
  · rename_i hexpired
    obtain ⟨e, he, hle⟩ := (Option.any_eq_true ..).mp hexpired
    have hle' : e ≤ clock := of_decide_eq_true hle
    have hempty := empty window clock used
    refine ⟨?_, hempty.nonneg, hempty.members, h.past, hempty.expiry⟩
    apply h.kept.forget
    intro t ht
    rw [List.mem_reverse] at ht
    obtain ⟨p, hp, rfl⟩ := List.mem_map.mp ht
    have hexp := h.expiry e he p hp
    unfold seconds
    omega
  · exact h

/-- The scores that the script removes are those that have left the window. -/
theorem removeRange_rows (h : SetTracks window clock times used z) :
    (z.removeRange 0 (seconds clock - window)).rows
      = z.rows.filter fun p => decide (seconds clock - window < p.2) := by
  apply List.filter_congr
  intro p hp
  have hnonneg := h.nonneg p hp
  by_cases hlt : seconds clock - window < p.2
  · simp [hlt]
  · have hle : p.2 ≤ seconds clock - window := by omega
    simp [hlt, hle, hnonneg]

theorem trim (h : SetTracks window clock times used z) :
    SetTracks window clock times used (z.removeRange 0 (seconds clock - window)) ∧
      ((z.removeRange 0 (seconds clock - window)).rows.map Prod.snd).reverse
        = times.filter (seconds clock - window < ·) := by
  have hrows := h.removeRange_rows
  have hscores : ((z.removeRange 0 (seconds clock - window)).rows.map Prod.snd).reverse
      = times.filter (seconds clock - window < ·) := by
    rw [hrows, ← h.kept.prune, List.filter_reverse, List.filter_map]
    rfl
  have hsub : ∀ p ∈ (z.removeRange 0 (seconds clock - window)).rows, p ∈ z.rows := by
    intro p hp
    exact (List.mem_filter.mp hp).1
  refine ⟨⟨?_, ?_, ?_, h.past, ?_⟩, hscores⟩
  · rw [hscores, ← h.kept.prune]
    exact h.kept.of_prune
  · intro p hp
    exact h.nonneg p (hsub p hp)
  · intro p hp
    exact h.members p (hsub p hp)
  · intro e he p hp
    exact h.expiry e he p (hsub p hp)

/-- A member that was never used is entered with the time. -/
theorem record (h : SetTracks window clock times used z) (hclock : 0 ≤ clock) {member : String}
    (hfresh : member ∉ used) :
    SetTracks window clock (times ++ [seconds clock]) (used ++ [member])
      ((z.zadd member (seconds clock)).expire (clock + window * 1000000)) := by
  have hrows : (z.zadd member (seconds clock)).rows = (member, seconds clock) :: z.rows := by
    show (member, seconds clock) :: z.rows.filter (·.1 ≠ member) = _
    congr 1
    apply List.filter_eq_self.mpr
    intro p hp
    have hne : p.1 ≠ member := fun heq => hfresh (heq ▸ h.members p hp)
    simpa using hne
  have hnow : 0 ≤ seconds clock := by
    unfold seconds
    omega
  refine ⟨?_, ?_, ?_, ?_, ?_⟩
  · show Kept _ _ _ (((z.zadd member (seconds clock)).rows.map Prod.snd).reverse)
    rw [hrows, List.map_cons, List.reverse_cons]
    exact h.kept.append _
  · intro p hp
    rcases List.mem_cons.mp (hrows ▸ hp) with rfl | hold
    · exact hnow
    · exact h.nonneg p hold
  · intro p hp
    rcases List.mem_cons.mp (hrows ▸ hp) with rfl | hold
    · exact List.mem_append_right _ (List.mem_singleton_self member)
    · exact List.mem_append_left _ (h.members p hold)
  · intro t ht
    rcases List.mem_append.mp ht with hold | hnew
    · exact h.past t hold
    · rw [List.mem_singleton.mp hnew]
  · intro e he p hp
    obtain rfl : clock + window * 1000000 = e := Option.some.inj he
    have hle : p.2 ≤ seconds clock := by
      rcases List.mem_cons.mp (hrows ▸ hp) with rfl | hold
      · exact Int.le_refl _
      · apply h.past
        apply h.kept.sublist.subset
        rw [List.mem_reverse]
        exact List.mem_map_of_mem hold
    unfold seconds at hle
    omega

/-- The script decides as the limiter that remembers everything, and follows it. -/
theorem scriptStep (h : SetTracks window clock times used z) (hclock : 0 ≤ clock) (limit : ℤ)
    {member : String} (hfresh : member ∉ used) :
    let full := limit ≤ times.countP (seconds clock - window < ·)
    (RateLimit.scriptStep window limit clock member z).1 = !decide full ∧
      SetTracks window clock (if full then times else times ++ [seconds clock]) (used ++ [member])
        (RateLimit.scriptStep window limit clock member z).2 := by
  obtain ⟨htracks, hscores⟩ := h.live.trim
  have hcount : ((z.live clock).removeRange 0 (seconds clock - window)).rows.length
      = times.countP (seconds clock - window < ·) := by
    rw [List.countP_eq_length_filter, ← hscores, List.length_reverse, List.length_map]
  simp only [RateLimit.scriptStep, hcount]
  by_cases hfull : limit ≤ times.countP (seconds clock - window < ·)
  · simp only [if_pos hfull, decide_eq_true hfull]
    exact ⟨rfl, htracks.usedMore member⟩
  · simp only [if_neg hfull, decide_eq_false hfull]
    exact ⟨rfl, htracks.record hclock hfresh⟩

end SetTracks

/-! ## The same decisions -/

/-- A check of a key at a whole second, with the random member that the script would enter. -/
structure Check where
  key : String
  time : ℤ
  member : String
deriving DecidableEq, Repr

/-- The key and the time of a check. -/
def Check.hit (c : Check) : String × ℤ := (c.key, c.time)

/-- The limiter in the process, checked. -/
def simpleStep (window limit : ℤ) (requests : Requests) (c : Check) : Bool × Requests :=
  requests.isAllowed window limit c.key c.time

/-- The script, checked. -/
def redisStep (sha256 : String → String) (window limit : ℤ) (store : Store) (c : Check) : Bool × Store :=
  eval sha256 window limit store c.key (c.time * 1000000) c.member

/-- A check that is not earlier than the past ones and brings a new member. -/
structure Follows (past : List Check) (c : Check) : Prop where
  time_le : ∀ b ∈ past, b.time ≤ c.time
  nonneg : 0 ≤ c.time
  short : c.key.length ≤ 128
  fresh : c.member ∉ past.map (·.member)

theorem follows_of_split {checks : List Check} (hkeys : ∀ c ∈ checks, c.key.length ≤ 128)
    (hnonneg : ∀ c ∈ checks, 0 ≤ c.time) (htimes : checks.Pairwise (·.time ≤ ·.time))
    (hmembers : (checks.map (·.member)).Nodup) (before : List Check) (c : Check) (after : List Check)
    (hsplit : checks = before ++ c :: after) : Follows before c := by
  have hmem : c ∈ checks := by
    rw [hsplit]
    exact List.mem_append_right _ List.mem_cons_self
  refine ⟨?_, hnonneg c hmem, hkeys c hmem, ?_⟩
  · rw [hsplit, List.pairwise_append] at htimes
    intro b hb
    exact htimes.2.2 b hb c List.mem_cons_self
  · rw [hsplit, List.map_append, List.map_cons, List.nodup_append] at hmembers
    intro hused
    exact hmembers.2.2 _ hused _ List.mem_cons_self rfl

/-- The limiter in the process after checks of which `hits` were let through. -/
def SimpleFollows (window : ℤ) (past : List Check) (requests : Requests) (hits : List (String × ℤ)) :
    Prop :=
  ∀ now, (∀ c ∈ past, c.time ≤ now) → SimpleTracks window now hits requests

/-- Redis after checks of which `hits` were let through. -/
def RedisFollows (sha256 : String → String) (window : ℤ) (past : List Check) (store : Store)
    (hits : List (String × ℤ)) : Prop :=
  ∀ now, (∀ c ∈ past, c.time ≤ now) → ∀ key : String, key.length ≤ 128 →
    SetTracks window (now * 1000000) (timesOf key hits) (past.map (·.member))
      (store (keyNamespace sha256 key))

theorem keyNamespace_injOn {sha256 : String → String} {key k : String} (hkey : key.length ≤ 128)
    (hk : k.length ≤ 128) (h : keyNamespace sha256 key = keyNamespace sha256 k) : key = k := by
  unfold keyNamespace at h
  rw [if_pos hkey, if_pos hk] at h
  exact String.append_right_inj _ |>.mp h

theorem seconds_mul (now : ℤ) : seconds (now * 1000000) = now := by
  unfold seconds
  omega

theorem simple_follows {window : ℤ} (limit : ℤ) {past : List Check}
    {requests : Requests} {hits : List (String × ℤ)} {c : Check}
    (h : SimpleFollows window past requests hits) (hc : Follows past c) :
    (simpleStep window limit requests c).1 = (windowStep window limit hits c.hit).1 ∧
      SimpleFollows window (past ++ [c]) (simpleStep window limit requests c).2
        (windowStep window limit hits c.hit).2 := by
  obtain ⟨heq, htracks⟩ := (h c.time hc.time_le).isAllowed limit c.key
  refine ⟨heq, ?_⟩
  intro now hnow
  exact htracks.later (hnow c (List.mem_append_right _ (List.mem_singleton_self c)))

theorem redis_follows (sha256 : String → String) {window : ℤ} (limit : ℤ)
    {past : List Check} {store : Store} {hits : List (String × ℤ)} {c : Check}
    (h : RedisFollows sha256 window past store hits) (hc : Follows past c) :
    (redisStep sha256 window limit store c).1 = (windowStep window limit hits c.hit).1 ∧
      RedisFollows sha256 window (past ++ [c]) (redisStep sha256 window limit store c).2
        (windowStep window limit hits c.hit).2 := by
  have hclock : 0 ≤ c.time * 1000000 := by
    have := hc.nonneg
    omega
  have hset := (h c.time hc.time_le c.key hc.short).scriptStep hclock limit hc.fresh
  rw [seconds_mul] at hset
  obtain ⟨heq, htracks⟩ := hset
  have hdecision : (windowStep window limit hits c.hit).1
      = !decide (limit ≤ (timesOf c.key hits).countP (c.time - window < ·)) := by
    unfold windowStep hitsAfter Check.hit
    split
    · rename_i hfull
      rw [decide_eq_true hfull]
      rfl
    · rename_i hfree
      rw [decide_eq_false hfree]
      rfl
  refine ⟨heq.trans hdecision.symm, ?_⟩
  intro now hnow key hkey
  have hle : c.time * 1000000 ≤ now * 1000000 := by
    have := hnow c (List.mem_append_right _ (List.mem_singleton_self c))
    omega
  have hmembers : (past ++ [c]).map (·.member) = past.map (·.member) ++ [c.member] := by
    rw [List.map_append, List.map_singleton]
  rw [hmembers]
  by_cases hk : c.key = key
  · -- the set of the key that was checked
    subst hk
    have htimes : timesOf c.key (windowStep window limit hits c.hit).2
        = if limit ≤ (timesOf c.key hits).countP (c.time - window < ·) then timesOf c.key hits
          else timesOf c.key hits ++ [c.time] := by
      unfold windowStep hitsAfter Check.hit
      split
      · rfl
      · exact timesOf_append_self c.key c.time hits
    have hstore : (redisStep sha256 window limit store c).2 (keyNamespace sha256 c.key)
        = (scriptStep window limit (c.time * 1000000) c.member
            (store (keyNamespace sha256 c.key))).2 := Function.update_self ..
    rw [htimes, hstore]
    exact htracks.later hle
  · -- another key has another set
    have hne : keyNamespace sha256 key ≠ keyNamespace sha256 c.key :=
      fun heq => hk (keyNamespace_injOn hkey hc.short heq).symm
    have htimes : timesOf key (windowStep window limit hits c.hit).2 = timesOf key hits := by
      unfold windowStep
      split
      · rfl
      · exact timesOf_append_ne c.time hits hk
    have hstore : (redisStep sha256 window limit store c).2 (keyNamespace sha256 key)
        = store (keyNamespace sha256 key) := Function.update_of_ne hne ..
    rw [htimes, hstore]
    exact ((h c.time hc.time_le key hkey).later hle).usedMore c.member

/-- The two limiters decide alike, let at most `limit` checks of a key through in a window, and refuse one
only when that many were let through in the window before it. -/
theorem limiters_agree (sha256 : String → String) (window limit : ℤ) {checks : List Check}
    (hkeys : ∀ c ∈ checks, c.key.length ≤ 128) (hnonneg : ∀ c ∈ checks, 0 ≤ c.time)
    (htimes : checks.Pairwise (·.time ≤ ·.time))
    (hmembers : (checks.map (·.member)).Nodup) :
    let simple := decisions (simpleStep window limit) [] checks
    let redis := decisions (redisStep sha256 window limit) (fun _ => .empty) checks
    simple = redis ∧ Windowed window limit (checks.map Check.hit) simple ∧
      Windowed window limit (checks.map Check.hit) redis := by
  have hgood : ∀ before c after, checks = before ++ c :: after → Follows ([] ++ before) c :=
    follows_of_split hkeys hnonneg htimes hmembers
  have habstract : decisions (fun hits c => windowStep window limit hits c.hit) [] checks
      = decisions (windowStep window limit) [] (checks.map Check.hit) := (decisions_map ..).symm
  have hsimple : decisions (simpleStep window limit) [] checks
      = decisions (windowStep window limit) [] (checks.map Check.hit) := by
    rw [← habstract]
    refine decisions_eq (R := SimpleFollows window) (fun past s t c h hc => ?_) ?_ hgood
    · exact simple_follows limit h hc
    · exact fun now _ => SimpleTracks.empty window now
  have hredis : decisions (redisStep sha256 window limit) (fun _ => .empty) checks
      = decisions (windowStep window limit) [] (checks.map Check.hit) := by
    rw [← habstract]
    refine decisions_eq (R := RedisFollows sha256 window) (fun past s t c h hc => ?_) ?_ hgood
    · exact redis_follows sha256 limit h hc
    · exact fun now _ key _ => SetTracks.empty window _ _
  have hwindowed : Windowed window limit (checks.map Check.hit)
      (decisions (windowStep window limit) [] (checks.map Check.hit)) := by
    apply windowed_decisions
    exact List.pairwise_map.mpr htimes
  refine ⟨hsimple.trans hredis.symm, ?_, ?_⟩
  · rw [hsimple]
    exact hwindowed
  · rw [hredis]
    exact hwindowed

/-- One key checked within its window and exactly one window later, and another key. -/
def edgeChecks : List Check :=
  [⟨"login_ip_203.0.113.7", 0, "0-0.31"⟩, ⟨"login_ip_203.0.113.7", 59, "59-0.64"⟩,
    ⟨"login_ip_203.0.113.7", 60, "60-0.12"⟩, ⟨"login_ip_198.51.100.2", 60, "60-0.87"⟩]

theorem limiters_agree_at_edge :
    decisions (simpleStep 60 1) [] edgeChecks = [true, false, true, true] ∧
      decisions (redisStep id 60 1) (fun _ => .empty) edgeChecks = [true, false, true, true] ∧
      Windowed 60 1 (edgeChecks.map Check.hit) [true, false, true, true] := by
  have hdecide : decisions (simpleStep 60 1) [] edgeChecks = [true, false, true, true] := by decide
  obtain ⟨hsame, hwindowed, -⟩ := limiters_agree id 60 1
    (by decide : ∀ c ∈ edgeChecks, c.key.length ≤ 128) (by decide) (by decide) (by decide)
  rw [hdecide] at hsame hwindowed
  exact ⟨hdecide, hsame.symm, hwindowed⟩

end ApexChainx.RateLimit
