import Mathlib.Data.List.Basic

/-!
# Machines that answer, with a part for each key

A machine is a total function `step : σ → α → σ × β`. When every input belongs to a key, and a step reads and
writes only the part of the state under its key, the machine is a family of small machines that do not know
of each other (`Keyed`): the part under a key, and the answers to the inputs of a key, are those of the
small machine on these inputs alone.
-/

namespace ApexChainx.Lib

variable {σ τ α β κ : Type*}

/-- The state after the inputs. -/
def finalState (step : σ → α → σ × β) : σ → List α → σ
  | s, [] => s
  | s, a :: as => finalState step (step s a).1 as

/-- The inputs with their answers. -/
def answers (step : σ → α → σ × β) : σ → List α → List (α × β)
  | _, [] => []
  | s, a :: as => (a, (step s a).2) :: answers step (step s a).1 as

theorem finalState_append (step : σ → α → σ × β) (s : σ) (as bs : List α) :
    finalState step s (as ++ bs) = finalState step (finalState step s as) bs := by
  induction as generalizing s with
  | nil => rfl
  | cons a as ih => exact ih _

theorem map_fst_answers (step : σ → α → σ × β) (s : σ) (as : List α) : (answers step s as).map Prod.fst = as := by
  induction as generalizing s with
  | nil => rfl
  | cons a as ih => rw [answers, List.map_cons, ih]

/-- What every step with an input that meets `ok` preserves, all such inputs preserve. -/
theorem finalState_invariant {step : σ → α → σ × β} {ok : α → Prop} {Inv : σ → Prop}
    (hstep : ∀ s a, Inv s → ok a → Inv (step s a).1) {s : σ} {as : List α} (hs : Inv s)
    (hok : ∀ a ∈ as, ok a) : Inv (finalState step s as) := by
  induction as generalizing s with
  | nil => exact hs
  | cons a as ih =>
      exact ih (hstep s a hs (hok a List.mem_cons_self)) fun b hb => hok b (List.mem_cons_of_mem a hb)

/-- An answer is given in the state that the inputs before it have led to. -/
theorem getElem?_answers (step : σ → α → σ × β) (s : σ) (as : List α) (i : ℕ) :
    (answers step s as)[i]? = as[i]?.map fun a => (a, (step (finalState step s (as.take i)) a).2) := by
  induction as generalizing s i with
  | nil => simp [answers]
  | cons a as ih =>
      cases i with
      | zero => rfl
      | succ i =>
          rw [answers, List.getElem?_cons_succ, List.getElem?_cons_succ, List.take_succ_cons, finalState]
          exact ih (step s a).1 i

/-- A step reads and writes only what is under the key of its input, as the small machine does. -/
structure Keyed [DecidableEq κ] (step : σ → α → σ × β) (key : α → κ) (view : σ → κ → τ)
    (small : τ → α → τ × β) : Prop where
  own : ∀ s a, view (step s a).1 (key a) = (small (view s (key a)) a).1
  answer : ∀ s a, (step s a).2 = (small (view s (key a)) a).2
  other : ∀ s a k, k ≠ key a → view (step s a).1 k = view s k

namespace Keyed

variable [DecidableEq κ] {step : σ → α → σ × β} {key : α → κ} {view : σ → κ → τ} {small : τ → α → τ × β}

/-- The part under a key is what the key's own inputs have made of it. -/
theorem finalState_view (h : Keyed step key view small) (s : σ) (as : List α) (k : κ) :
    view (finalState step s as) k = finalState small (view s k) (as.filter fun a => key a = k) := by
  induction as generalizing s with
  | nil => rfl
  | cons a as ih =>
      rw [finalState, ih]
      by_cases hkey : key a = k
      · subst hkey
        rw [List.filter_cons_of_pos (by simp), finalState, h.own]
      · rw [List.filter_cons_of_neg (by simpa using hkey), h.other s a k (Ne.symm hkey)]

/-- The answers to the inputs of a key are those that the small machine gives to these inputs. -/
theorem filter_answers (h : Keyed step key view small) (s : σ) (as : List α) (k : κ) :
    (answers step s as).filter (fun p => key p.1 = k)
      = answers small (view s k) (as.filter fun a => key a = k) := by
  induction as generalizing s with
  | nil => rfl
  | cons a as ih =>
      rw [answers]
      by_cases hkey : key a = k
      · subst hkey
        rw [List.filter_cons_of_pos (by simp), List.filter_cons_of_pos (by simp), answers, ih, h.own, h.answer]
      · rw [List.filter_cons_of_neg (by simpa using hkey), List.filter_cons_of_neg (by simpa using hkey), ih,
          h.other s a k (Ne.symm hkey)]

/-- The inputs of other keys do not change the answers to the inputs of a key. -/
theorem filter_answers_alone (h : Keyed step key view small) (s : σ) (as : List α) (k : κ) :
    (answers step s as).filter (fun p => key p.1 = k)
      = answers step s (as.filter fun a => key a = k) := by
  have hkeys : ∀ p ∈ answers step s (as.filter fun a => key a = k), key p.1 = k := by
    intro p hp
    have hmem : p.1 ∈ as.filter fun a => key a = k := by
      rw [← map_fst_answers step s (as.filter fun a => key a = k)]
      exact List.mem_map_of_mem hp
    simpa using (List.mem_filter.mp hmem).2
  have halone := h.filter_answers s (as.filter fun a => key a = k) k
  rw [List.filter_eq_self.mpr (by simpa using hkeys), List.filter_filter] at halone
  simp only [Bool.and_self] at halone
  rw [h.filter_answers, halone]

end Keyed

end ApexChainx.Lib
