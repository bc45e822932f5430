import ApexChainx.Lib.Dict
import ApexChainx.Lib.Expiring
import ApexChainx.Lib.Keyed
import Mathlib.Algebra.Order.Group.Unbundled.Int
import Mathlib.Data.Int.Notation

/-!
# The in-process cache

`TTLCache` (`app/utils/cache.py`). Expired entries stay in the dictionary until a `get` meets them, and a `get`
that meets one removes it. What a `get` finds is what the log of writes says is live.

Times are numbers of ticks of the monotonic clock, and so is the time to live. A call is taken at the reading
of the clock it works with; `warmup` reads the clock for each item.
-/

namespace ApexChainx.Cache

open ApexChainx.Lib ApexChainx.Lib.Expiring

/-- `TTLCache`. -/
structure TTLCache (α : Type) where
  ttl : ℤ
  store : Dict String (α × ℤ)

/-- What `get` finds. -/
inductive Found (α : Type)
  | hit (value : α)
  | miss
  | expired
deriving DecidableEq, Repr

namespace TTLCache

variable {α : Type}

/-- `__init__`. -/
def init (ttl : ℤ) : TTLCache α := ⟨ttl, .empty⟩

/-- `get`, which returns the value of a hit and otherwise `None`. -/
def get (c : TTLCache α) (key : String) (now : ℤ) : TTLCache α × Found α :=
  match c.store.get key with
  | none => (c, .miss)
  | some (value, expiresAt) =>
      if expiresAt < now then ({ c with store := c.store.discard (· = key) }, .expired)
      else (c, .hit value)

/-- `set`. -/
def set (c : TTLCache α) (key : String) (value : α) (now : ℤ) : TTLCache α :=
  { c with store := c.store.set key (value, now + c.ttl) }

/-- `invalidate`. -/
def invalidate (c : TTLCache α) (key : String) : TTLCache α := { c with store := c.store.discard (· = key) }

/-- `k.startswith(start)`. -/
def startsWith (start k : String) : Bool := start.toList.isPrefixOf k.toList

/-- `invalidate_prefix`, and how many entries it removed. -/
def invalidatePrefix (c : TTLCache α) (start : String) : TTLCache α × ℕ :=
  let kept := c.store.discard (startsWith start)
  ({ c with store := kept }, c.store.size - kept.size)

/-- `warmup`, with the reading of the clock at each item. -/
def warmup (c : TTLCache α) (items : List (String × α × ℤ)) : TTLCache α × ℕ :=
  (items.foldl (fun c item => c.set item.1 item.2.1 item.2.2) c, items.length)

/-- `get_stats`, the number of entries. -/
def entryCount (c : TTLCache α) : ℕ := c.store.size

end TTLCache

/-- A call of a method. -/
inductive TtlCall (α : Type)
  | get (key : String)
  | set (key : String) (value : α)
  | invalidate (key : String)
  | invalidatePrefix (start : String)
  | warmup (items : List (String × α × ℤ))
  | getStats

/-- What a call returns. -/
inductive TtlAnswer (α : Type)
  | found (result : Found α)
  | count (n : ℕ)
  | done

variable {α : Type}

/-- A call at a time. -/
structure TimedTtlCall (α : Type) where
  call : TtlCall α
  now : ℤ

def ttlStep (c : TTLCache α) (t : TimedTtlCall α) : TTLCache α × TtlAnswer α :=
  match t.call with
  | .get key => ((c.get key t.now).1, .found (c.get key t.now).2)
  | .set key value => (c.set key value t.now, .done)
  | .invalidate key => (c.invalidate key, .done)
  | .invalidatePrefix start => ((c.invalidatePrefix start).1, .count (c.invalidatePrefix start).2)
  | .warmup items => ((c.warmup items).1, .count (c.warmup items).2)
  | .getStats => (c, .count c.entryCount)

/-- The cache after the calls. -/
def ttlAfter (ttl : ℤ) (calls : List (TimedTtlCall α)) : TTLCache α := finalState ttlStep (.init ttl) calls

/-- The entry is past its time. -/
def Dead (expiresAt now : ℤ) : Prop := expiresAt < now

instance : DecidableRel Dead := fun expiresAt now => inferInstanceAs (Decidable (expiresAt < now))

/-- What a call writes. -/
def TimedTtlCall.writes (ttl : ℤ) (t : TimedTtlCall α) : List (Write String α ℤ) :=
  match t.call with
  | .set key value => [.put key value (t.now + ttl)]
  | .invalidate key => [.remove (· = key)]
  | .invalidatePrefix start => [.remove (TTLCache.startsWith start)]
  | .warmup items => items.map fun item => .put item.1 item.2.1 (item.2.2 + ttl)
  | _ => []

/-! ## The cache follows the log -/

namespace TTLCache

variable {c : TTLCache α} {now : ℤ} {log : List (Write String α ℤ)}

/-- The entries are those of the log, up to dead ones that were removed. -/
def Follows (c : TTLCache α) (now : ℤ) (log : List (Write String α ℤ)) : Prop :=
  Pruned Dead now c.store.get (entries log)

theorem get_set_store (c : TTLCache α) (key : String) (value : α) (now : ℤ) :
    (c.set key value now).store.get = (Write.put key value (now + c.ttl)).apply c.store.get := by
  funext k
  simp only [set, Dict.get_set, Write.apply, Function.update_apply]

theorem get_discard_store (store : Dict String (α × ℤ)) (gone : String → Bool) :
    (store.discard gone).get = (Write.remove gone).apply store.get := by
  funext k
  rw [Dict.get_discard]
  rfl

theorem Follows.set (h : c.Follows now log) (key : String) (value : α) (reading : ℤ) :
    (c.set key value reading).Follows now (log ++ [.put key value (reading + c.ttl)]) := by
  rw [Follows, entries_concat, get_set_store]
  exact Pruned.write h _

theorem Follows.discard (h : c.Follows now log) (gone : String → Bool) :
    ({ c with store := c.store.discard gone } : TTLCache α).Follows now (log ++ [.remove gone]) := by
  rw [Follows, entries_concat, get_discard_store]
  exact Pruned.write h _

theorem Follows.warmup (h : c.Follows now log) (items : List (String × α × ℤ)) :
    (c.warmup items).1.Follows now
      (log ++ items.map fun item => .put item.1 item.2.1 (item.2.2 + c.ttl)) := by
  induction items generalizing c log with
  | nil =>
      rw [List.map_nil, List.append_nil]
      exact h
  | cons item items ih =>
      have hrest := ih (h.set item.1 item.2.1 item.2.2)
      rw [List.append_assoc] at hrest
      exact hrest

theorem Follows.get (h : c.Follows now log) (key : String) : (c.get key now).1.Follows now log := by
  unfold TTLCache.get
  cases hentry : c.store.get key with
  | none => exact h
  | some entry =>
      obtain ⟨value, expiresAt⟩ := entry
      dsimp only
      split_ifs with hdead
      · have hdrop := Pruned.drop h hentry hdead
        rw [Follows, get_discard_store]
        simpa only [Write.apply, decide_eq_true_eq] using hdrop
      · exact h

/-- A `get` finds what the log says is live. -/
theorem Follows.hit_iff (h : c.Follows now log) (key : String) (value : α) :
    (c.get key now).2 = .hit value ↔ Live Dead log key now value := by
  rw [← shown_entries_eq_some_iff, ← Pruned.shown_eq h key, shown]
  unfold TTLCache.get
  cases hentry : c.store.get key with
  | none => simp
  | some entry =>
      obtain ⟨value', expiresAt⟩ := entry
      by_cases hdead : expiresAt < now
      · simp [hdead, Dead]
      · simp [hdead, Dead]

theorem ttl_ttlStep (c : TTLCache α) (t : TimedTtlCall α) : (ttlStep c t).1.ttl = c.ttl := by
  obtain ⟨call, now⟩ := t
  cases call with
  | get key =>
      simp only [ttlStep, TTLCache.get]
      split
      · rfl
      · split <;> rfl
  | warmup items =>
      simp only [ttlStep, TTLCache.warmup]
      induction items generalizing c with
      | nil => rfl
      | cons item items ih => exact ih (c.set item.1 item.2.1 item.2.2)
  | _ => rfl

theorem Follows.step (h : c.Follows now log) (t : TimedTtlCall α) (hle : now ≤ t.now) :
    (ttlStep c t).1.Follows t.now (log ++ t.writes c.ttl) := by
  have hlater : c.Follows t.now log := Pruned.later h fun expiresAt hdead => lt_of_lt_of_le hdead hle
  obtain ⟨call, reading⟩ := t
  cases call with
  | get key =>
      rw [TimedTtlCall.writes, List.append_nil]
      exact hlater.get key
  | set key value => exact hlater.set key value reading
  | invalidate key => exact hlater.discard _
  | invalidatePrefix start => exact hlater.discard _
  | warmup items => exact hlater.warmup items
  | getStats =>
      rw [TimedTtlCall.writes, List.append_nil]
      exact hlater

end TTLCache

/-! ## Whole runs -/

theorem ttl_ttlAfter (ttl : ℤ) (calls : List (TimedTtlCall α)) : (ttlAfter ttl calls).ttl = ttl := by
  have hstep : ∀ (c : TTLCache α) t, c.ttl = ttl → True → (ttlStep c t).1.ttl = ttl := by
    intro c t h _
    rw [TTLCache.ttl_ttlStep, h]
  exact finalState_invariant hstep rfl fun _ _ => trivial

theorem ttlAfter_concat (ttl : ℤ) (calls : List (TimedTtlCall α)) (t : TimedTtlCall α) :
    ttlAfter ttl (calls ++ [t]) = (ttlStep (ttlAfter ttl calls) t).1 := finalState_append ttlStep _ calls [t]

/-- After calls in the order of the clock the cache has what their log of writes has, up to dead entries. -/
theorem follows_ttlAfter (ttl : ℤ) {calls : List (TimedTtlCall α)} (hsorted : calls.Pairwise (·.now ≤ ·.now))
    {now : ℤ} (hnow : ∀ t ∈ calls, t.now ≤ now) :
    (ttlAfter ttl calls).Follows now (calls.flatMap (TimedTtlCall.writes ttl)) := by
  induction calls using List.reverseRecOn generalizing now with
  | nil => exact Pruned.refl now _
  | append_singleton calls t ih =>
      obtain ⟨hcalls, -, hlast⟩ := List.pairwise_append.mp hsorted
      have hbefore : ∀ u ∈ calls, u.now ≤ t.now := fun u hu => hlast u hu t (List.mem_singleton_self t)
      have hstep := (ih hcalls hbefore).step t le_rfl
      rw [ttlAfter_concat, List.flatMap_append, List.flatMap_singleton]
      rw [ttl_ttlAfter] at hstep
      exact Pruned.later hstep fun expiresAt hdead => lt_of_lt_of_le hdead (hnow t (by simp))

/-- A `get` returns a value exactly when it is the value that was last put under the key, by `set` or `warmup`,
no invalidation since has met the key, and the value is not past its time. -/
theorem get_hit_iff (ttl : ℤ) {calls : List (TimedTtlCall α)} (hsorted : calls.Pairwise (·.now ≤ ·.now)) {now : ℤ}
    (hnow : ∀ t ∈ calls, t.now ≤ now) (key : String) (value : α) :
    ((ttlAfter ttl calls).get key now).2 = .hit value ↔
      ∃ expiresAt, LastPut (calls.flatMap (TimedTtlCall.writes ttl)) key value expiresAt ∧ now ≤ expiresAt := by
  rw [(follows_ttlAfter ttl hsorted hnow).hit_iff]
  simp only [Live, Dead, not_lt]

/-- A value that was overwritten, one that was invalidated with its prefix, and one that is past its time. -/
theorem get_hit_iff_trends :
    ((ttlAfter 30 [⟨.set "trends_7" 1, 0⟩, ⟨.set "kpis" 2, 5⟩, ⟨.set "trends_7" 3, 10⟩,
        ⟨.invalidatePrefix "kpis", 20⟩]).get "trends_7" 40).2 = .hit 3 := by
  refine (get_hit_iff 30 (by decide) (by decide) "trends_7" 3).mpr ⟨40, ⟨[_, _], [_], rfl, ?_⟩, le_rfl⟩
  intro w hw
  rw [List.mem_singleton.mp hw]
  show ¬ TTLCache.startsWith "kpis" "trends_7" = true
  decide

end ApexChainx.Cache
