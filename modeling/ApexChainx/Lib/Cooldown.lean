import Mathlib.Algebra.Order.Ring.Int
import Mathlib.Data.List.Basic
import Mathlib.Tactic.Linarith

/-!
# Cooldowns

A client that leaves its backend alone for a while once enough attempts have failed in a row. While the
backend does not answer, the calls that reach it are rare: after the first few, each is a cooldown later than
the one before (`reached_bound`).
-/

namespace ApexChainx.Lib.Cooldown

/-- How many failures in a row are enough, and for how long the backend is left alone then. -/
structure Policy where
  threshold : ℕ
  cooldown : ℤ

/-- The failures in a row, and the time until which the backend is left alone. -/
structure State where
  failures : ℕ
  disabledUntil : ℤ
deriving DecidableEq, Repr

/-- A call as the client would make it: when it starts and is over, how many attempts fail, and whether one
succeeds in the end. -/
structure Call where
  start : ℤ
  finish : ℤ
  failed : ℕ
  succeeded : Bool
deriving DecidableEq, Repr

/-- The state after a call; one that comes too early changes nothing. -/
def step (p : Policy) (s : State) (c : Call) : State :=
  if c.start < s.disabledUntil then s
  else if c.succeeded then { s with failures := 0 }
  else if p.threshold ≤ s.failures + c.failed then ⟨s.failures + c.failed, c.finish + p.cooldown⟩
  else { s with failures := s.failures + c.failed }

/-- The calls that reach the backend. -/
def reached (p : Policy) : State → List Call → List Call
  | _, [] => []
  | s, c :: cs =>
      if c.start < s.disabledUntil then reached p (step p s c) cs else c :: reached p (step p s c) cs

/-- The calls are made in this stretch of time, one after the other. -/
def Within (first last : ℤ) (calls : List Call) : Prop :=
  ∀ c ∈ calls, first ≤ c.start ∧ c.start ≤ c.finish ∧ c.start ≤ last

instance (first last : ℤ) (calls : List Call) : Decidable (Within first last calls) :=
  inferInstanceAs (Decidable (∀ _ ∈ _, _))

/-- The backend answers none of the calls, and each gives up after at least so many attempts. -/
def Unanswered (attempts : ℕ) (calls : List Call) : Prop := ∀ c ∈ calls, c.succeeded = false ∧ attempts ≤ c.failed

instance (attempts : ℕ) (calls : List Call) : Decidable (Unanswered attempts calls) :=
  inferInstanceAs (Decidable (∀ _ ∈ _, _))

variable {p : Policy} {s : State} {c : Call} {calls : List Call} {first last : ℤ} {attempts enough n : ℕ}

/-- A failed call that reaches the backend. -/
theorem step_failed (hreached : ¬ c.start < s.disabledUntil) (hfailed : c.succeeded = false) :
    step p s c = if p.threshold ≤ s.failures + c.failed then ⟨s.failures + c.failed, c.finish + p.cooldown⟩
      else { s with failures := s.failures + c.failed } := by
  rw [step, if_neg hreached, hfailed, if_neg Bool.false_ne_true]

/-- After `n` failed calls: the failures are as many as the attempts made at least, and once the calls are enough
every one has put the next off by a cooldown. -/
structure Spread (p : Policy) (attempts enough : ℕ) (first : ℤ) (n : ℕ) (s : State) : Prop where
  failures : n * attempts ≤ s.failures
  disabled : enough ≤ n → first + (n - enough + 1) * p.cooldown ≤ s.disabledUntil

theorem Spread.step (henough : p.threshold ≤ enough * attempts) (h : Spread p attempts enough first n s)
    (hreached : ¬ c.start < s.disabledUntil) (hfailed : c.succeeded = false ∧ attempts ≤ c.failed)
    (hstart : first ≤ c.start) (hfinish : c.start ≤ c.finish) :
    Spread p attempts enough first (n + 1) (step p s c) := by
  have hmore : (n + 1) * attempts ≤ s.failures + c.failed := by
    rw [Nat.succ_mul]
    exact Nat.add_le_add h.failures hfailed.2
  rw [step_failed hreached hfailed.1]
  split_ifs with hthreshold
  · refine ⟨hmore, fun hle => ?_⟩
    have hlate : first + ((n + 1 : ℕ) - enough : ℤ) * p.cooldown ≤ c.finish := by
      rcases Nat.lt_or_ge n enough with hlt | hge
      · rw [show n + 1 = enough from Nat.le_antisymm hlt hle, sub_self, zero_mul, add_zero]
        exact hstart.trans hfinish
      · have hdisabled := h.disabled hge
        push_cast
        linarith
    linarith
  · refine ⟨hmore, fun hle => absurd ?_ hthreshold⟩
    exact henough.trans ((Nat.mul_le_mul_right _ hle).trans hmore)

/-- The time the calls so far took up, once there are enough of them, is a cooldown each. -/
theorem Spread.used (hcooldown : 0 ≤ p.cooldown) (hspan : first ≤ last) (h : Spread p attempts enough first n s)
    (hreached : ¬ c.start < s.disabledUntil) (hlast : c.start ≤ last) :
    ((n + 1 : ℕ) - enough : ℤ) * p.cooldown ≤ last - first := by
  rcases Nat.lt_or_ge n enough with hlt | hge
  · have hfew : ((n + 1 : ℕ) - enough : ℤ) ≤ 0 := by omega
    exact (mul_nonpos_of_nonpos_of_nonneg hfew hcooldown).trans (sub_nonneg.mpr hspan)
  · have hdisabled := h.disabled hge
    push_cast
    linarith

theorem Spread.reached_bound (henough : p.threshold ≤ enough * attempts) (hcooldown : 0 ≤ p.cooldown)
    (hspan : first ≤ last) (h : Spread p attempts enough first n s)
    (hused : ((n : ℤ) - enough) * p.cooldown ≤ last - first) (hcalls : Within first last calls)
    (hunanswered : Unanswered attempts calls) :
    ((n + (reached p s calls).length : ℕ) - enough : ℤ) * p.cooldown ≤ last - first := by
  induction calls generalizing n s with
  | nil => simpa [reached] using hused
  | cons c calls ih =>
      obtain ⟨⟨hstart, hfinish, hlast⟩, hcalls⟩ := List.forall_mem_cons.mp hcalls
      obtain ⟨hfailed, hunanswered⟩ := List.forall_mem_cons.mp hunanswered
      rw [reached]
      split_ifs with hearly
      · rw [Cooldown.step, if_pos hearly]
        exact ih h hused hcalls hunanswered
      · rw [List.length_cons, Nat.add_comm _ 1, ← Nat.add_assoc]
        exact ih (h.step henough hearly hfailed hstart hfinish) (h.used hcooldown hspan hearly hlast) hcalls hunanswered

/-- In a stretch of time in which the backend answers nothing, every call that reaches it after the first few
costs a cooldown. -/
theorem reached_bound (hpositive : 0 < enough) (henough : p.threshold ≤ enough * attempts)
    (hcooldown : 0 ≤ p.cooldown) (hspan : first ≤ last) (hcalls : Within first last calls)
    (hunanswered : Unanswered attempts calls) :
    ((reached p s calls).length - enough : ℤ) * p.cooldown ≤ last - first := by
  have hspread : Spread p attempts enough first 0 s :=
    ⟨by rw [Nat.zero_mul]; exact Nat.zero_le _, fun hle => absurd hpositive (Nat.not_lt.mpr hle)⟩
  have hused : (((0 : ℕ) : ℤ) - enough) * p.cooldown ≤ last - first := by
    have hfew : ((0 : ℕ) : ℤ) - enough ≤ 0 := by omega
    exact (mul_nonpos_of_nonpos_of_nonneg hfew hcooldown).trans (sub_nonneg.mpr hspan)
  have hbound := hspread.reached_bound henough hcooldown hspan hused hcalls hunanswered
  rwa [Nat.zero_add] at hbound

end ApexChainx.Lib.Cooldown
