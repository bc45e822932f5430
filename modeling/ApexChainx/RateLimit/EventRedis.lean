import Mathlib.Data.List.Perm.Subperm
import ApexChainx.Lib.Transition
import ApexChainx.RateLimit.EventLocal

/-!
# The event budget in Redis

`EventRateLimiter._allow_redis` (`app/services/event_listener_rate_limit.py`) in any number of workers, cut at
its Redis commands. A worker can crash before any of them; a command that raises takes the call to the limiter
in the process and is for Redis the same.

The `INCR` that finds no key creates it and begins a lifetime of it, which ends when the key expires. A call
belongs to the lifetime in which it incremented the key: the number it was handed decides what it returns. Which
lifetime that is, and which lifetimes were given a TTL, is bookkeeping that no command reads.
-/

namespace ApexChainx.RateLimit.EventLimiter

open ApexChainx.Lib

/-- The key of a subscriber. -/
structure Counter where
  value : ℕ
  /-- When the key expires, in milliseconds of the server's clock; `none` without a TTL. -/
  deadline : Option ℤ
  lifetime : ℕ

/-- The reply of an `INCR`, and the lifetime it came from. -/
structure Counted where
  count : ℕ
  lifetime : ℕ
deriving DecidableEq, Repr

/-- The next command of a call. -/
inductive AllowPc
  | incr
  /-- `TTL`, which is not sent after a count of one. -/
  | ttl (counted : Counted)
  | expire (counted : Counted)
  | returned (allowed : Bool) (counted : Counted)
  | crashed
deriving DecidableEq, Repr

def AllowPc.counted : AllowPc → Option Counted
  | .incr => none
  | .ttl counted => some counted
  | .expire counted => some counted
  | .returned _ counted => some counted
  | .crashed => none

structure AllowCall where
  subscriberId : String
  pc : AllowPc
deriving DecidableEq, Repr

/-- Redis, its clock in milliseconds, and the calls; `lifetimes` counts the lifetimes of each key, `armed` lists
those that were given a TTL. -/
structure EventSys where
  clock : ℤ
  keys : String → Option Counter
  lifetimes : String → ℕ
  armed : List (String × ℕ)
  calls : List AllowCall

namespace EventSys

def init : EventSys := ⟨0, fun _ => none, fun _ => 0, [], []⟩

/-- The key as a command finds it: a key whose time has passed is gone. -/
def live (s : EventSys) (subscriberId : String) : Option Counter :=
  (s.keys subscriberId).filter fun k => k.deadline.all (s.clock ≤ ·)

/-- The key after an `INCR`. -/
def incremented (s : EventSys) (subscriberId : String) : Counter :=
  match s.live subscriberId with
  | some k => { k with value := k.value + 1 }
  | none => ⟨1, none, s.lifetimes subscriberId⟩

/-- The reply of a `TTL`, in seconds. -/
def ttl (s : EventSys) (subscriberId : String) : ℤ :=
  match s.live subscriberId with
  | none => -2
  | some k =>
      match k.deadline with
      | none => -1
      | some deadline => (deadline - s.clock + 500) / 1000

/-- Redis after an `INCR`. -/
def incr (s : EventSys) (subscriberId : String) : EventSys :=
  let k := s.incremented subscriberId
  { s with
    keys := Function.update s.keys subscriberId (some k)
    lifetimes := Function.update s.lifetimes subscriberId (k.lifetime + 1) }

/-- Redis after an `EXPIRE`; a time that is not positive deletes the key. -/
def expire (windowSeconds : ℤ) (s : EventSys) (subscriberId : String) : EventSys :=
  match s.live subscriberId with
  | none => s
  | some k =>
      if 0 < windowSeconds then
        { s with
          keys := Function.update s.keys subscriberId
            (some { k with deadline := some (s.clock + windowSeconds * 1000) })
          armed := (subscriberId, k.lifetime) :: s.armed }
      else { s with keys := Function.update s.keys subscriberId none }

/-- The system after call `i` has gone on to `pc`. -/
def goto (s : EventSys) (i : ℕ) (c : AllowCall) (pc : AllowPc) : EventSys :=
  { s with calls := s.calls.set i { c with pc := pc } }

end EventSys

/-- A call begins, call `i` sends its next command or crashes, or time goes by. -/
inductive EventAction
  | begin (subscriberId : String)
  | command (i : ℕ)
  | crash (i : ℕ)
  | elapse (milliseconds : ℕ)
deriving DecidableEq, Repr

/-- `return count <= self._limit`. -/
def returnPc (limit : ℤ) (counted : Counted) : AllowPc := .returned (decide (counted.count ≤ limit)) counted

/-- One command of `_allow_redis`. -/
def commandStep (limit windowSeconds : ℤ) (s : EventSys) (i : ℕ) (c : AllowCall) : Option EventSys :=
  match c.pc with
  | .incr =>
      let k := s.incremented c.subscriberId
      let counted : Counted := ⟨k.value, k.lifetime⟩
      some ((s.incr c.subscriberId).goto i c (if k.value = 1 then .expire counted else .ttl counted))
  | .ttl counted =>
      some (s.goto i c (if s.ttl c.subscriberId < 0 then .expire counted else returnPc limit counted))
  | .expire counted => some ((s.expire windowSeconds c.subscriberId).goto i c (returnPc limit counted))
  | .returned _ _ => none
  | .crashed => none

/-- The interleaving semantics. -/
def allowStep (limit windowSeconds : ℤ) (s : EventSys) : EventAction → Option EventSys
  | .begin subscriberId => some { s with calls := s.calls ++ [⟨subscriberId, .incr⟩] }
  | .command i =>
      match s.calls[i]? with
      | none => none
      | some c => commandStep limit windowSeconds s i c
  | .crash i =>
      match s.calls[i]? with
      | none => none
      | some c =>
          match c.pc with
          | .returned _ _ => none
          | _ => some (s.goto i c .crashed)
  | .elapse milliseconds => some { s with clock := s.clock + milliseconds }

/-! ## The keys -/

/-- A lifetime that is over was given a TTL; the key belongs to the last lifetime, and once this has a TTL the
key expires no later than a window from now. -/
structure KeysOk (windowSeconds : ℤ) (s : EventSys) : Prop where
  last : ∀ subscriberId k, s.keys subscriberId = some k → k.lifetime + 1 = s.lifetimes subscriberId
  ended : ∀ subscriberId lifetime, lifetime < s.lifetimes subscriberId →
    (subscriberId, lifetime) ∈ s.armed ∨
      ∃ k, s.keys subscriberId = some k ∧ k.lifetime = lifetime ∧ k.deadline = none
  begun : ∀ p ∈ s.armed, p.2 < s.lifetimes p.1
  deadline : ∀ subscriberId k, s.keys subscriberId = some k → (subscriberId, k.lifetime) ∈ s.armed →
    ∃ deadline, k.deadline = some deadline ∧ deadline ≤ s.clock + windowSeconds * 1000

variable {limit windowSeconds : ℤ} {s : EventSys} {subscriberId : String}

theorem keys_of_live {k : Counter} (h : s.live subscriberId = some k) : s.keys subscriberId = some k :=
  (Option.filter_eq_some_iff.mp h).1

/-- A key without a TTL does not go away. -/
theorem deadline_of_not_live (h : s.live subscriberId = none) {k : Counter} (hk : s.keys subscriberId = some k) :
    k.deadline ≠ none := by
  intro hnone
  rw [EventSys.live, hk, Option.filter_some_pos (by simp [hnone])] at h
  contradiction

/-- When there is no key, all lifetimes so far were given a TTL. -/
theorem KeysOk.armed_of_not_live (h : KeysOk windowSeconds s) (hlive : s.live subscriberId = none) {lifetime : ℕ}
    (hlt : lifetime < s.lifetimes subscriberId) : (subscriberId, lifetime) ∈ s.armed := by
  rcases h.ended subscriberId lifetime hlt with harmed | ⟨k, hk, -, hnone⟩
  · exact harmed
  · exact absurd hnone (deadline_of_not_live hlive hk)

theorem keysOk_init : KeysOk windowSeconds EventSys.init := by
  refine ⟨?_, ?_, ?_, ?_⟩
  · intro subscriberId k hk
    contradiction
  · intro subscriberId lifetime hlt
    exact absurd hlt (Nat.not_lt_zero _)
  · exact List.forall_mem_nil _
  · intro subscriberId k hk
    contradiction

theorem KeysOk.incr (h : KeysOk windowSeconds s) (subscriberId : String) :
    KeysOk windowSeconds (s.incr subscriberId) := by
  have hkeys : ∀ other, other ≠ subscriberId → (s.incr subscriberId).keys other = s.keys other := by
    intro other hne
    exact Function.update_of_ne hne _ _
  have hlifetimes : ∀ other, other ≠ subscriberId →
      (s.incr subscriberId).lifetimes other = s.lifetimes other := by
    intro other hne
    exact Function.update_of_ne hne _ _
  have hself : (s.incr subscriberId).keys subscriberId = some (s.incremented subscriberId) :=
    Function.update_self _ _ _
  have hlast : (s.incr subscriberId).lifetimes subscriberId = (s.incremented subscriberId).lifetime + 1 :=
    Function.update_self _ _ _
  have hgrow : s.lifetimes subscriberId ≤ (s.incremented subscriberId).lifetime + 1 := by
    unfold EventSys.incremented
    split
    · rename_i k hlive
      exact (h.last subscriberId k (keys_of_live hlive)).ge
    · exact Nat.le_succ _
  refine ⟨?_, ?_, ?_, ?_⟩
  · intro other k hk
    by_cases hne : other = subscriberId
    · subst hne
      obtain rfl := Option.some.inj (hself.symm.trans hk)
      exact hlast.symm
    · rw [hlifetimes other hne]
      rw [hkeys other hne] at hk
      exact h.last other k hk
  · intro other lifetime hlt
    by_cases hne : other = subscriberId
    · subst hne
      rw [hlast] at hlt
      cases hlive : s.live other with
      | some k =>
          -- the key lives on, with the TTL it has
          have hk := keys_of_live hlive
          have hinc : s.incremented other = { k with value := k.value + 1 } := by
            rw [EventSys.incremented, hlive]
          rw [hinc, h.last other k hk] at hlt
          rcases h.ended other lifetime hlt with harmed | ⟨k', hk', hlifetime, hnone⟩
          · exact .inl harmed
          · obtain rfl := Option.some.inj (hk.symm.trans hk')
            exact .inr ⟨_, hself, by rw [hinc]; exact hlifetime, by rw [hinc]; exact hnone⟩
      | none =>
          have hinc : s.incremented other = ⟨1, none, s.lifetimes other⟩ := by
            rw [EventSys.incremented, hlive]
          rw [hinc] at hlt
          rcases Nat.lt_succ_iff_lt_or_eq.mp hlt with hold | rfl
          · exact .inl (h.armed_of_not_live hlive hold)
          · exact .inr ⟨_, hself, by rw [hinc], by rw [hinc]⟩
    · rw [hlifetimes other hne] at hlt
      rcases h.ended other lifetime hlt with harmed | ⟨k, hk, hlifetime, hnone⟩
      · exact .inl harmed
      · exact .inr ⟨k, (hkeys other hne).trans hk, hlifetime, hnone⟩
  · intro p hp
    have hlt := h.begun p hp
    by_cases hne : p.1 = subscriberId
    · rw [hne] at hlt ⊢
      rw [hlast]
      omega
    · rwa [hlifetimes p.1 hne]
  · intro other k hk harmed
    by_cases hne : other = subscriberId
    · subst hne
      obtain rfl := Option.some.inj (hself.symm.trans hk)
      cases hlive : s.live other with
      | some k =>
          rw [EventSys.incremented, hlive] at harmed ⊢
          exact h.deadline other k (keys_of_live hlive) harmed
      | none =>
          rw [EventSys.incremented, hlive] at harmed
          exact absurd (h.begun _ harmed) (Nat.lt_irrefl _)
    · rw [hkeys other hne] at hk
      exact h.deadline other k hk harmed

theorem KeysOk.expire (h : KeysOk windowSeconds s) (hwindow : 0 < windowSeconds) (subscriberId : String) :
    KeysOk windowSeconds (s.expire windowSeconds subscriberId) := by
  unfold EventSys.expire
  split
  · exact h
  · rename_i k hlive
    have hk := keys_of_live hlive
    rw [if_pos hwindow]
    refine ⟨?_, ?_, ?_, ?_⟩
    · intro other k' hk'
      dsimp only at hk'
      by_cases hne : other = subscriberId
      · subst hne
        rw [Function.update_self, Option.some.injEq] at hk'
        rw [← hk']
        exact h.last other k hk
      · rw [Function.update_of_ne hne] at hk'
        exact h.last other k' hk'
    · intro other lifetime hlt
      rcases h.ended other lifetime hlt with harmed | ⟨k', hk', hlifetime, hnone⟩
      · exact .inl (List.mem_cons_of_mem _ harmed)
      · by_cases hne : other = subscriberId
        · subst hne
          obtain rfl := Option.some.inj (hk.symm.trans hk')
          exact .inl (hlifetime ▸ List.mem_cons_self)
        · exact .inr ⟨k', (Function.update_of_ne hne _ _).trans hk', hlifetime, hnone⟩
    · refine List.forall_mem_cons.mpr ⟨?_, h.begun⟩
      have hlast := h.last subscriberId k hk
      dsimp only
      omega
    · intro other k' hk' harmed
      dsimp only at hk'
      by_cases hne : other = subscriberId
      · subst hne
        rw [Function.update_self, Option.some.injEq] at hk'
        exact ⟨_, by rw [← hk'], le_rfl⟩
      · rw [Function.update_of_ne hne] at hk'
        rcases List.mem_cons.mp harmed with heq | harmed
        · exact absurd (Prod.mk.inj heq).1 hne
        · exact h.deadline other k' hk' harmed

theorem KeysOk.elapse (h : KeysOk windowSeconds s) (milliseconds : ℕ) :
    KeysOk windowSeconds { s with clock := s.clock + milliseconds } := by
  refine ⟨h.last, h.ended, h.begun, ?_⟩
  intro subscriberId k hk harmed
  obtain ⟨deadline, hdeadline, hle⟩ := h.deadline subscriberId k hk harmed
  exact ⟨deadline, hdeadline, by dsimp only; omega⟩

/-! ## The calls -/

/-- The count of a call is one that the key has had in its lifetime; a call that has returned leaves its
lifetime with a TTL. -/
structure CallOk (limit : ℤ) (s : EventSys) (c : AllowCall) : Prop where
  begun : ∀ n, c.pc.counted = some n → n.lifetime < s.lifetimes c.subscriberId ∧ 1 ≤ n.count
  count_le : ∀ n, c.pc.counted = some n → ∀ k, s.keys c.subscriberId = some k → k.lifetime = n.lifetime →
    n.count ≤ k.value
  returned : ∀ allowed n, c.pc = .returned allowed n →
    (c.subscriberId, n.lifetime) ∈ s.armed ∧ allowed = decide ((n.count : ℤ) ≤ limit)

/-- The two calls were not handed the same number in the same lifetime. -/
def Apart (c d : AllowCall) : Prop :=
  ∀ m n, c.pc.counted = some m → d.pc.counted = some n → c.subscriberId = d.subscriberId → m ≠ n

/-- Redis goes on: lifetimes and TTLs are added, and a key that is still there has counted on. -/
structure Grows (s s' : EventSys) : Prop where
  calls : s'.calls = s.calls
  lifetimes : ∀ subscriberId, s.lifetimes subscriberId ≤ s'.lifetimes subscriberId
  armed : ∀ p ∈ s.armed, p ∈ s'.armed
  keys : ∀ subscriberId k', s'.keys subscriberId = some k' → k'.lifetime < s.lifetimes subscriberId →
    ∃ k, s.keys subscriberId = some k ∧ k.lifetime = k'.lifetime ∧ k.value ≤ k'.value

structure EventInv (limit windowSeconds : ℤ) (s : EventSys) : Prop where
  keys : KeysOk windowSeconds s
  calls : ∀ (i : ℕ) c, s.calls[i]? = some c → CallOk limit s c
  apart : ∀ (i j : ℕ) c d, i ≠ j → s.calls[i]? = some c → s.calls[j]? = some d → Apart c d

theorem Grows.refl (s : EventSys) : Grows s s :=
  ⟨rfl, fun _ => le_rfl, fun _ => id, fun _ k hk _ => ⟨k, hk, rfl, le_rfl⟩⟩

theorem grows_incr (h : KeysOk windowSeconds s) (subscriberId : String) : Grows s (s.incr subscriberId) := by
  refine ⟨rfl, ?_, fun _ => id, ?_⟩
  · intro other
    by_cases hne : other = subscriberId
    · subst hne
      simp only [EventSys.incr, Function.update_self, EventSys.incremented]
      split
      · rename_i k hlive
        exact (h.last other k (keys_of_live hlive)).ge
      · exact Nat.le_succ _
    · exact (Function.update_of_ne hne _ _).ge
  · intro other k' hk' hlt
    dsimp only [EventSys.incr] at hk'
    by_cases hne : other = subscriberId
    · subst hne
      rw [Function.update_self, Option.some.injEq] at hk'
      subst hk'
      unfold EventSys.incremented at hlt ⊢
      split at hlt
      · rename_i k hlive
        exact ⟨k, keys_of_live hlive, rfl, Nat.le_succ _⟩
      · exact absurd hlt (Nat.lt_irrefl _)
    · rw [Function.update_of_ne hne] at hk'
      exact ⟨k', hk', rfl, le_rfl⟩

theorem grows_expire (hwindow : 0 < windowSeconds) (subscriberId : String) :
    Grows s (s.expire windowSeconds subscriberId) := by
  unfold EventSys.expire
  split
  · exact Grows.refl s
  · rename_i k hlive
    rw [if_pos hwindow]
    refine ⟨rfl, fun _ => le_rfl, fun p => List.mem_cons_of_mem _, ?_⟩
    intro other k' hk' _
    dsimp only at hk'
    by_cases hne : other = subscriberId
    · subst hne
      rw [Function.update_self, Option.some.injEq] at hk'
      subst hk'
      exact ⟨k, keys_of_live hlive, rfl, le_rfl⟩
    · rw [Function.update_of_ne hne] at hk'
      exact ⟨k', hk', rfl, le_rfl⟩

theorem CallOk.grow {s' : EventSys} {c : AllowCall} (h : CallOk limit s c) (hgrows : Grows s s') :
    CallOk limit s' c := by
  refine ⟨?_, ?_, ?_⟩
  · intro n hn
    obtain ⟨hlt, hpos⟩ := h.begun n hn
    exact ⟨Nat.lt_of_lt_of_le hlt (hgrows.lifetimes _), hpos⟩
  · intro n hn k' hk' hlifetime
    obtain ⟨k, hk, hsame, hle⟩ := hgrows.keys _ k' hk' (hlifetime ▸ (h.begun n hn).1)
    exact Nat.le_trans (h.count_le n hn k hk (hsame.trans hlifetime)) hle
  · intro allowed n hpc
    obtain ⟨harmed, hallowed⟩ := h.returned allowed n hpc
    exact ⟨hgrows.armed _ harmed, hallowed⟩

theorem Apart.symm {c d : AllowCall} (h : Apart c d) : Apart d c :=
  fun m n hm hn hsame heq => h n m hn hm hsame.symm heq.symm

/-- Redis goes on and one call with it. -/
theorem EventInv.goto {s' : EventSys} {i : ℕ} {c : AllowCall} {pc : AllowPc}
    (h : EventInv limit windowSeconds s) (hgrows : Grows s s') (hkeys : KeysOk windowSeconds s')
    (hmoved : CallOk limit s' { c with pc := pc })
    (hapart : ∀ (j : ℕ) d, j ≠ i → s.calls[j]? = some d → Apart { c with pc := pc } d) :
    EventInv limit windowSeconds (s'.goto i c pc) := by
  have hothers : ∀ (j : ℕ) d, (s'.goto i c pc).calls[j]? = some d →
      (j = i ∧ d = { c with pc := pc }) ∨ (j ≠ i ∧ s.calls[j]? = some d) := by
    intro j d hd
    rw [← hgrows.calls]
    exact getElem?_replace hd
  refine ⟨⟨hkeys.last, hkeys.ended, hkeys.begun, hkeys.deadline⟩, ?_, ?_⟩
  · intro j d hd
    have hok : CallOk limit s' d := by
      rcases hothers j d hd with ⟨-, rfl⟩ | ⟨-, hold⟩
      · exact hmoved
      · exact (h.calls j d hold).grow hgrows
    exact ⟨hok.begun, hok.count_le, hok.returned⟩
  · intro j j' d d' hne hd hd'
    rcases hothers j d hd with ⟨rfl, rfl⟩ | ⟨hji, hold⟩
    · rcases hothers j' d' hd' with ⟨rfl, -⟩ | ⟨hji', hold'⟩
      · exact absurd rfl hne
      · exact hapart j' d' hji' hold'
    · rcases hothers j' d' hd' with ⟨rfl, rfl⟩ | ⟨-, hold'⟩
      · exact (hapart j d hji hold).symm
      · exact h.apart j j' d d' hne hold hold'

/-- A call that keeps its number stays apart from the others. -/
theorem EventInv.apart_of_counted {i : ℕ} {c : AllowCall} {pc : AllowPc} (h : EventInv limit windowSeconds s)
    (hc : s.calls[i]? = some c) (hpc : ∀ n, pc.counted = some n → c.pc.counted = some n) :
    ∀ (j : ℕ) d, j ≠ i → s.calls[j]? = some d → Apart { c with pc := pc } d := by
  intro j d hne hd m n hm hn hsame
  exact h.apart i j c d hne.symm hc hd m n (hpc m hm) hn hsame

/-- The key that an `INCR` leaves has a number that no call was handed. -/
theorem EventInv.incremented_new {i : ℕ} {c d : AllowCall} (h : EventInv limit windowSeconds s)
    (hd : s.calls[i]? = some d) (hsame : c.subscriberId = d.subscriberId) {n : Counted}
    (hn : d.pc.counted = some n) :
    (⟨(s.incremented c.subscriberId).value, (s.incremented c.subscriberId).lifetime⟩ : Counted) ≠ n := by
  rintro rfl
  have hok := h.calls i d hd
  have hlt := (hok.begun _ hn).1
  rw [hsame] at hlt hn
  cases hlive : s.live d.subscriberId with
  | some k =>
      rw [EventSys.incremented, hlive] at hn
      have hle := hok.count_le _ hn k (keys_of_live hlive) rfl
      exact absurd hle (Nat.not_succ_le_self _)
  | none =>
      rw [EventSys.incremented, hlive] at hlt
      exact absurd hlt (Nat.lt_irrefl _)

/-- An `INCR`. -/
theorem inv_incr {i : ℕ} {c : AllowCall} (h : EventInv limit windowSeconds s) {pc : AllowPc}
    (hcounted : pc.counted =
      some ⟨(s.incremented c.subscriberId).value, (s.incremented c.subscriberId).lifetime⟩)
    (hpc : ∀ allowed n, pc ≠ .returned allowed n) :
    EventInv limit windowSeconds ((s.incr c.subscriberId).goto i c pc) := by
  refine h.goto (grows_incr h.keys _) (h.keys.incr _) ⟨?_, ?_, ?_⟩ ?_
  · intro n hn
    obtain rfl := Option.some.inj (hcounted.symm.trans hn)
    simp only [EventSys.incr, Function.update_self]
    refine ⟨Nat.lt_succ_self _, ?_⟩
    unfold EventSys.incremented
    split
    · exact Nat.le_add_left 1 _
    · exact le_rfl
  · intro n hn k hk _
    obtain rfl := Option.some.inj (hcounted.symm.trans hn)
    dsimp only [EventSys.incr] at hk
    rw [Function.update_self, Option.some.injEq] at hk
    rw [hk]
  · intro allowed n heq
    exact absurd heq (hpc allowed n)
  · intro j d _ hd m n hm hn hsame
    obtain rfl := Option.some.inj (hcounted.symm.trans hm)
    exact h.incremented_new hd hsame hn

/-- A key with a TTL: a lifetime that has begun is over, or is that of the key. -/
theorem KeysOk.armed_of_ttl (h : KeysOk windowSeconds s) (httl : ¬ s.ttl subscriberId < 0) {lifetime : ℕ}
    (hlt : lifetime < s.lifetimes subscriberId) : (subscriberId, lifetime) ∈ s.armed := by
  unfold EventSys.ttl at httl
  split at httl
  · omega
  · rename_i k hlive
    split at httl
    · omega
    · rename_i deadline hdeadline
      rcases h.ended subscriberId lifetime hlt with harmed | ⟨k', hk', -, hnone⟩
      · exact harmed
      · obtain rfl := Option.some.inj ((keys_of_live hlive).symm.trans hk')
        rw [hdeadline] at hnone
        contradiction

/-- After an `EXPIRE` every lifetime that has begun was given a TTL. -/
theorem KeysOk.armed_of_expire (h : KeysOk windowSeconds s) (hwindow : 0 < windowSeconds) {lifetime : ℕ}
    (hlt : lifetime < s.lifetimes subscriberId) :
    (subscriberId, lifetime) ∈ (s.expire windowSeconds subscriberId).armed := by
  unfold EventSys.expire
  split
  · rename_i hlive
    exact h.armed_of_not_live hlive hlt
  · rename_i k hlive
    rw [if_pos hwindow]
    rcases h.ended subscriberId lifetime hlt with harmed | ⟨k', hk', rfl, -⟩
    · exact List.mem_cons_of_mem _ harmed
    · obtain rfl := Option.some.inj ((keys_of_live hlive).symm.trans hk')
      exact List.mem_cons_self

/-- A call goes on with the number it has. -/
theorem CallOk.move {c : AllowCall} {pc : AllowPc} (h : CallOk limit s c)
    (hcounted : ∀ n, pc.counted = some n → c.pc.counted = some n)
    (hreturned : ∀ allowed n, pc = .returned allowed n →
      (c.subscriberId, n.lifetime) ∈ s.armed ∧ allowed = decide ((n.count : ℤ) ≤ limit)) :
    CallOk limit s { c with pc := pc } :=
  ⟨fun n hn => h.begun n (hcounted n hn), fun n hn => h.count_le n (hcounted n hn), hreturned⟩

/-- A call returns, its lifetime with a TTL. -/
theorem CallOk.return {c : AllowCall} {n : Counted} (h : CallOk limit s c) (hn : c.pc.counted = some n)
    (harmed : (c.subscriberId, n.lifetime) ∈ s.armed) : CallOk limit s { c with pc := returnPc limit n } := by
  refine h.move ?_ ?_
  · intro m hm
    exact hn.trans hm
  · intro allowed m heq
    obtain ⟨rfl, rfl⟩ := AllowPc.returned.inj heq
    exact ⟨harmed, rfl⟩

theorem commandStep_inv {s' : EventSys} {i : ℕ} {c : AllowCall} (hwindow : 0 < windowSeconds)
    (h : EventInv limit windowSeconds s) (hc : s.calls[i]? = some c)
    (hstep : commandStep limit windowSeconds s i c = some s') : EventInv limit windowSeconds s' := by
  have hok := h.calls i c hc
  unfold commandStep at hstep
  cases hpc : c.pc with
  | incr =>
      rw [hpc] at hstep
      obtain rfl := Option.some.inj hstep
      refine inv_incr h ?_ ?_
      · split <;> rfl
      · intro allowed n
        split <;> exact nofun
  | ttl counted =>
      rw [hpc] at hstep
      obtain rfl := Option.some.inj hstep
      have hn : c.pc.counted = some counted := by rw [hpc]; rfl
      refine h.goto (Grows.refl s) h.keys ?_ (h.apart_of_counted hc ?_)
      · split_ifs with httl
        · exact hok.move (fun m hm => hn.trans hm) nofun
        · exact hok.return hn (h.keys.armed_of_ttl httl (hok.begun counted hn).1)
      · intro m hm
        split_ifs at hm
        · exact hn.trans hm
        · exact hn.trans hm
  | expire counted =>
      rw [hpc] at hstep
      obtain rfl := Option.some.inj hstep
      have hn : c.pc.counted = some counted := by rw [hpc]; rfl
      have harmed := h.keys.armed_of_expire hwindow (hok.begun counted hn).1
      exact h.goto (grows_expire hwindow _) (h.keys.expire hwindow _)
        ((hok.grow (grows_expire hwindow _)).return hn harmed) (h.apart_of_counted hc fun m hm => hn.trans hm)
  | returned allowed counted =>
      rw [hpc] at hstep
      contradiction
  | crashed =>
      rw [hpc] at hstep
      contradiction

theorem allowStep_inv {s' : EventSys} {a : EventAction} (hwindow : 0 < windowSeconds)
    (h : EventInv limit windowSeconds s) (hstep : allowStep limit windowSeconds s a = some s') :
    EventInv limit windowSeconds s' := by
  cases a with
  | begin subscriberId =>
      obtain rfl := Option.some.inj hstep
      refine ⟨⟨h.keys.last, h.keys.ended, h.keys.begun, h.keys.deadline⟩, ?_, ?_⟩
      · intro i c hc
        rcases getElem?_insert hc with hold | ⟨-, rfl⟩
        · have hok := h.calls i c hold
          exact ⟨hok.begun, hok.count_le, hok.returned⟩
        · exact ⟨nofun, nofun, nofun⟩
      · intro i j c d hne hc hd
        rcases getElem?_insert hc with hold | ⟨-, rfl⟩
        · rcases getElem?_insert hd with hold' | ⟨-, rfl⟩
          · exact h.apart i j c d hne hold hold'
          · exact fun _ _ _ => nofun
        · exact fun _ _ => nofun
  | command i =>
      simp only [allowStep] at hstep
      split at hstep
      · contradiction
      · rename_i c hc
        exact commandStep_inv hwindow h hc hstep
  | crash i =>
      simp only [allowStep] at hstep
      split at hstep
      · contradiction
      · rename_i c hc
        split at hstep
        · contradiction
        · obtain rfl := Option.some.inj hstep
          exact h.goto (Grows.refl s) h.keys ((h.calls i c hc).move nofun nofun) (h.apart_of_counted hc nofun)
  | elapse milliseconds =>
      obtain rfl := Option.some.inj hstep
      refine ⟨h.keys.elapse milliseconds, ?_, h.apart⟩
      intro i c hc
      have hok := h.calls i c hc
      exact ⟨hok.begun, hok.count_le, hok.returned⟩

theorem eventInv_init : EventInv limit windowSeconds EventSys.init := by
  refine ⟨keysOk_init, ?_, ?_⟩
  · intro i c hc
    contradiction
  · intro i j c d _ hc
    contradiction

theorem eventInv_of_run {as : List EventAction} (hwindow : 0 < windowSeconds)
    (hrun : run (allowStep limit windowSeconds) EventSys.init as = some s) : EventInv limit windowSeconds s :=
  run_invariant (fun _ _ _ h hstep => allowStep_inv hwindow h hstep) eventInv_init hrun

/-! ## What is let through -/

/-- The call was let through, on a number from this lifetime of the subscriber's key. -/
def grantedIn (subscriberId : String) (lifetime : ℕ) (c : AllowCall) : Bool :=
  match c.pc with
  | .returned allowed n => allowed && c.subscriberId = subscriberId && n.lifetime = lifetime
  | _ => false

theorem grantedIn_iff {lifetime : ℕ} {c : AllowCall} :
    grantedIn subscriberId lifetime c = true ↔
      c.subscriberId = subscriberId ∧ ∃ n : Counted, c.pc = .returned true n ∧ n.lifetime = lifetime := by
  unfold grantedIn
  split
  · rename_i allowed n hpc
    rw [hpc]
    cases allowed with
    | true => simp
    | false => simp
  · rename_i hpc
    constructor
    · exact nofun
    · rintro ⟨-, n, hn, -⟩
      exact absurd hn (hpc true n)

/-- The number a call was handed, zero before. -/
def AllowCall.count (c : AllowCall) : ℕ := (c.pc.counted.map Counted.count).getD 0

/-- The calls that one lifetime of a key lets through have different numbers up to the limit. -/
theorem EventInv.granted_le (h : EventInv limit windowSeconds s) (subscriberId : String) (lifetime : ℕ) :
    (s.calls.filter (grantedIn subscriberId lifetime)).length ≤ limit.toNat := by
  set granted := s.calls.filter (grantedIn subscriberId lifetime) with hgranted
  have hform : ∀ c ∈ granted, c.subscriberId = subscriberId ∧ c.pc.counted = some ⟨c.count, lifetime⟩ ∧
      1 ≤ c.count ∧ (c.count : ℤ) ≤ limit := by
    intro c hc
    obtain ⟨hmem, hin⟩ := List.mem_filter.mp hc
    obtain ⟨hsub, n, hpc, hlifetime⟩ := grantedIn_iff.mp hin
    obtain ⟨i, hi⟩ := List.getElem?_of_mem hmem
    have hok := h.calls i c hi
    have hcounted : c.pc.counted = some n := by rw [hpc]; rfl
    have hcount : c.count = n.count := by rw [AllowCall.count, hcounted]; rfl
    have hle := of_decide_eq_true (hok.returned true n hpc).2.symm
    rw [hcount]
    refine ⟨hsub, ?_, (hok.begun n hcounted).2, hle⟩
    rw [hcounted, ← hlifetime]
  have happart : granted.Pairwise Apart := by
    refine List.Pairwise.sublist List.filter_sublist (List.pairwise_iff_getElem.mpr ?_)
    intro i j hi hj hlt
    exact h.apart i j _ _ hlt.ne (List.getElem?_eq_getElem hi) (List.getElem?_eq_getElem hj)
  have hnodup : (granted.map AllowCall.count).Nodup := by
    refine List.pairwise_map.mpr (happart.imp_of_mem ?_)
    intro c d hc hd hcd heq
    obtain ⟨hcsub, hccount, -⟩ := hform c hc
    obtain ⟨hdsub, hdcount, -⟩ := hform d hd
    exact hcd _ _ hccount hdcount (hcsub.trans hdsub.symm) (by rw [heq])
  have hsubset : granted.map AllowCall.count ⊆ List.range' 1 limit.toNat := by
    intro n hn
    obtain ⟨c, hc, rfl⟩ := List.mem_map.mp hn
    obtain ⟨-, -, hpos, hle⟩ := hform c hc
    rw [List.mem_range'_1]
    omega
  have hlength := (List.subperm_of_subset hnodup hsubset).length_le
  rwa [List.length_map, List.length_range'] at hlength

/-- A call that has returned leaves its lifetime with a TTL, and the key, if it is still that of this lifetime,
expires no later than a window from now. -/
theorem EventInv.armed (h : EventInv limit windowSeconds s) {c : AllowCall} (hc : c ∈ s.calls) {allowed : Bool}
    {n : Counted} (hpc : c.pc = .returned allowed n) :
    (c.subscriberId, n.lifetime) ∈ s.armed ∧
      ∀ k, s.keys c.subscriberId = some k → k.lifetime = n.lifetime →
        ∃ deadline, k.deadline = some deadline ∧ deadline ≤ s.clock + windowSeconds * 1000 := by
  obtain ⟨i, hi⟩ := List.getElem?_of_mem hc
  have harmed := ((h.calls i c hi).returned allowed n hpc).1
  refine ⟨harmed, ?_⟩
  intro k hk hlifetime
  exact h.keys.deadline _ k hk (hlifetime ▸ harmed)

/-- For every limit and window. In the process, for every sequence of calls with a clock that does not go back:
a subscriber is let through at most `limit` times in a half-open window, and a check that waits as long as
`retry_after_seconds` said is let through. In Redis, for every interleaving of commands and crashes: one
lifetime of a key lets at most `limit` calls through, and the lifetime of every call that returned was given a
TTL. -/
theorem eventRateLimiter_spec (cfg : EventSettings) (hticks : 0 < cfg.ticks) (hlimit : 1 ≤ cfg.limit)
    (hwindow : 0 < cfg.windowSeconds) :
    (∀ calls : List TimedCall, calls.Pairwise (·.now ≤ ·.now) →
      (∀ subscriberId start,
        ((localAnswers cfg calls).filterMap grantOf).countP
          (fun g => decide (g.1 = subscriberId) && decide (start ≤ g.2 ∧ g.2 < start + cfg.window))
            ≤ cfg.limit.toNat ∧
        ((localAnswers cfg calls).filterMap grantOf).countP
          (fun g => decide (g.1 = subscriberId) && decide (start < g.2 ∧ g.2 ≤ start + cfg.window))
            ≤ cfg.limit.toNat) ∧
      ∀ (j k : ℕ) (subscriberId : String) (t t' n : ℤ), j < k →
        (localAnswers cfg calls)[j]? = some (⟨.retryAfterSeconds subscriberId, t⟩, .seconds n) →
        (∀ (i : ℕ), j < i → i < k → ∀ c, calls[i]? = some c → c.call ≠ .allow subscriberId) →
        calls[k]? = some ⟨.allow subscriberId, t'⟩ → t + n * cfg.ticks ≤ t' →
        (localAnswers cfg calls)[k]? = some (⟨.allow subscriberId, t'⟩, .allowed true)) ∧
    ∀ as s, run (allowStep cfg.limit cfg.windowSeconds) EventSys.init as = some s →
      (∀ subscriberId lifetime, (s.calls.filter (grantedIn subscriberId lifetime)).length ≤ cfg.limit.toNat) ∧
      ∀ c ∈ s.calls, ∀ allowed n, c.pc = .returned allowed n →
        (c.subscriberId, n.lifetime) ∈ s.armed ∧
          ∀ k, s.keys c.subscriberId = some k → k.lifetime = n.lifetime →
            ∃ deadline, k.deadline = some deadline ∧ deadline ≤ s.clock + cfg.windowSeconds * 1000 := by
  refine ⟨?_, ?_⟩
  · intro calls hsorted
    refine ⟨local_bound cfg hsorted, ?_⟩
    intro j k subscriberId t t' n hjk hhint hbetween hcheck hwait
    exact local_hint cfg hticks hlimit hjk hhint hbetween hcheck hwait
  · intro as s hrun
    have hinv := eventInv_of_run hwindow hrun
    exact ⟨hinv.granted_le, fun c hc allowed n hpc => hinv.armed hc hpc⟩

/-- Two events in a minute: the check at 61 seconds is let through, 21 after the hint. In Redis a worker crashes
before its `EXPIRE`, and the next one gives the key its TTL. -/
theorem eventRateLimiter_two_per_minute :
    (localAnswers ⟨1000, 2, 60⟩
      [⟨.allow "indexer", 0⟩, ⟨.allow "indexer", 30500⟩, ⟨.allow "indexer", 40000⟩,
        ⟨.retryAfterSeconds "indexer", 40000⟩, ⟨.cullExpired, 45000⟩, ⟨.allow "indexer", 61000⟩])[5]? =
          some (⟨.allow "indexer", 61000⟩, .allowed true) ∧
    ∃ s, run (allowStep 2 60) EventSys.init
        [.begin "indexer", .command 0, .crash 0, .begin "indexer", .command 1, .elapse 100, .command 1,
          .command 1] = some s ∧
      (s.calls.filter (grantedIn "indexer" 0)).length ≤ 2 ∧ ("indexer", 0) ∈ s.armed := by
  obtain ⟨hlocal, hredis⟩ := eventRateLimiter_spec ⟨1000, 2, 60⟩ (by decide) (by decide) (by decide)
  refine ⟨?_, ?_⟩
  · refine (hlocal _ (by decide)).2 3 5 "indexer" 40000 61000 21 (by decide) rfl ?_ rfl (by decide)
    intro i hlow hhigh c hc
    obtain rfl : i = 4 := by omega
    obtain rfl := Option.some.inj hc
    exact nofun
  · have hrun : ((run (allowStep 2 60) EventSys.init
        [.begin "indexer", .command 0, .crash 0, .begin "indexer", .command 1, .elapse 100, .command 1,
          .command 1]).map EventSys.calls) =
        some [⟨"indexer", .crashed⟩, ⟨"indexer", .returned true ⟨2, 0⟩⟩] := by decide
    obtain ⟨s, hs, hcalls⟩ := Option.map_eq_some_iff.mp hrun
    obtain ⟨hbound, harmed⟩ := hredis _ s hs
    refine ⟨s, hs, hbound "indexer" 0, ?_⟩
    have hmem : (⟨"indexer", .returned true ⟨2, 0⟩⟩ : AllowCall) ∈ s.calls := by
      rw [hcalls]
      exact List.mem_cons_of_mem _ List.mem_cons_self
    exact (harmed _ hmem true ⟨2, 0⟩ rfl).1

end ApexChainx.RateLimit.EventLimiter
