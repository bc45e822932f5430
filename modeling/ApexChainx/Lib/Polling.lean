import Mathlib.Tactic.Linarith
import Mathlib.Data.Int.Order.Basic

/-!
# Polling up to a deadline

A poller asks, and when the answer is no it looks at the clock: past its deadline it gives up, else it sleeps for the
interval or for what is left, whichever is less, and asks again. It may be late with each of its steps. However late it
is, it gives up no earlier than its deadline, and asks no more often than the time it has allows.
-/

namespace ApexChainx.Lib

/-- The next step of a poller. -/
inductive PollStage
  | asking
  | checking
  | sleeping (wakeAt : ℤ)
  | answered
  | gaveUp
deriving DecidableEq, Repr

/-- A poller, with the number of times it has asked. -/
structure Poller where
  startedAt : ℤ
  deadline : ℤ
  stage : PollStage
  asked : ℕ
deriving DecidableEq, Repr

namespace Poller

/-- A poller that has not asked yet. -/
def start (now timeout : ℤ) : Poller := ⟨now, now + timeout, .asking, 0⟩

/-- The poller takes its next step; `answer` is what it is told if it asks. -/
def next (interval now : ℤ) (answer : Bool) (p : Poller) : Option Poller :=
  match p.stage with
  | .asking => some { p with stage := if answer then .answered else .checking, asked := p.asked + 1 }
  | .checking =>
      if p.deadline - now ≤ 0 then some { p with stage := .gaveUp }
      else some { p with stage := .sleeping (now + min interval (p.deadline - now)) }
  | .sleeping wakeAt => if wakeAt ≤ now then some { p with stage := .asking } else none
  | .answered | .gaveUp => none

/-- The poller has slept for its interval as often as it has asked and gone on, or is at its deadline. -/
structure Paced (interval now : ℤ) (p : Poller) : Prop where
  patient : 0 ≤ p.deadline - p.startedAt
  asked : ((p.asked : ℤ) - 2) * interval < p.deadline - p.startedAt
  asking : p.stage = .asking → ((p.asked : ℤ) - 1) * interval < p.deadline - p.startedAt ∧
    (p.startedAt + p.asked * interval ≤ now ∨ p.deadline ≤ now)
  checking : p.stage = .checking → 0 < p.asked ∧ (p.startedAt + (p.asked - 1) * interval ≤ now ∨ p.deadline ≤ now)
  sleeping : ∀ wakeAt, p.stage = .sleeping wakeAt → ((p.asked : ℤ) - 1) * interval < p.deadline - p.startedAt ∧
    wakeAt ≤ now + interval ∧ wakeAt ≤ p.deadline ∧
    (p.startedAt + p.asked * interval ≤ wakeAt ∨ p.deadline ≤ wakeAt)
  gaveUp : p.stage = .gaveUp → 0 < p.asked ∧ p.deadline ≤ now

variable {interval now : ℤ} {p p' : Poller} {answer : Bool}

theorem paced_start (hinterval : 0 < interval) {timeout : ℤ} (htimeout : 0 ≤ timeout) (now : ℤ) :
    Paced interval now (start now timeout) where
  patient := by simpa [start] using htimeout
  asked := by
    simp only [start]
    push_cast
    linarith
  asking _ := by
    simp only [start]
    push_cast
    exact ⟨by linarith, .inl (by linarith)⟩
  checking h := nomatch h
  sleeping _ h := nomatch h
  gaveUp h := nomatch h

/-- Time passes. -/
theorem Paced.later (h : Paced interval now p) {now' : ℤ} (hle : now ≤ now') : Paced interval now' p where
  patient := h.patient
  asked := h.asked
  asking hstage := ⟨(h.asking hstage).1, (h.asking hstage).2.imp hle.trans' hle.trans'⟩
  checking hstage := ⟨(h.checking hstage).1, (h.checking hstage).2.imp hle.trans' hle.trans'⟩
  sleeping wakeAt hstage := by
    obtain ⟨hasked, hsoon, hrest⟩ := h.sleeping wakeAt hstage
    exact ⟨hasked, by linarith, hrest⟩
  gaveUp hstage := ⟨(h.gaveUp hstage).1, (h.gaveUp hstage).2.trans hle⟩

theorem Paced.next (h : Paced interval now p) (hnext : p.next interval now answer = some p') :
    Paced interval now p' := by
  obtain ⟨startedAt, deadline, stage, asked⟩ := p
  cases stage with
  | asking =>
      obtain ⟨hasked, hpace⟩ := h.asking rfl
      cases hnext
      simp only at hasked hpace
      refine ⟨h.patient, ?_, ?_, ?_, ?_, ?_⟩
      · push_cast
        linarith
      · intro hstage
        cases answer <;> cases hstage
      · intro _
        refine ⟨Nat.succ_pos _, ?_⟩
        push_cast
        rcases hpace with hpace | hpace
        · exact .inl (by linarith)
        · exact .inr hpace
      · intro wakeAt hstage
        cases answer <;> cases hstage
      · intro hstage
        cases answer <;> cases hstage
  | checking =>
      obtain ⟨hasked, hpace⟩ := h.checking rfl
      simp only at hasked hpace
      unfold Poller.next at hnext
      simp only at hnext
      split at hnext
      · rename_i hlate
        cases hnext
        refine ⟨h.patient, h.asked, nofun, nofun, nofun, fun _ => ⟨hasked, ?_⟩⟩
        linarith
      · rename_i hearly
        cases hnext
        have hearly : now < deadline := by linarith [not_le.mp hearly]
        have hpace : startedAt + (asked - 1) * interval ≤ now := hpace.resolve_right (not_le.mpr hearly)
        refine ⟨h.patient, h.asked, nofun, nofun, fun wakeAt hstage => ?_, nofun⟩
        cases hstage
        simp only
        refine ⟨by linarith, ?_, ?_, ?_⟩
        · linarith [min_le_left interval (deadline - now)]
        · linarith [min_le_right interval (deadline - now)]
        · rcases le_total interval (deadline - now) with hfull | hrest
          · rw [min_eq_left hfull]
            exact .inl (by linarith)
          · rw [min_eq_right hrest]
            exact .inr (by linarith)
  | sleeping wakeAt =>
      obtain ⟨hasked, -, -, hpace⟩ := h.sleeping wakeAt rfl
      unfold Poller.next at hnext
      simp only at hnext
      split at hnext
      · rename_i hawake
        cases hnext
        refine ⟨h.patient, h.asked, fun _ => ⟨hasked, ?_⟩, nofun, nofun, nofun⟩
        exact hpace.imp hawake.trans' hawake.trans'
      · cases hnext
  | answered => cases hnext
  | gaveUp => cases hnext

end Poller

end ApexChainx.Lib
