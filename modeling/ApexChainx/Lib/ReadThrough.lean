import Mathlib.Logic.Function.Basic

/-!
# Read-through caches

A cache in front of a store whose entries never expire. What a reader is shown of a key is computed from
the cached value; `view` is what the store itself would show. Coherence is all that a reader needs of the
cache, and a write that refreshes one entry keeps it exactly when it leaves the other cached keys alone.
-/

namespace ApexChainx.Lib

variable {κ α ν : Type*} {cache cache' : κ → Option α} {shown : α → ν} {view view' : κ → Option ν}

/-- Every entry shows what the store has under its key. -/
def Coherent (cache : κ → Option α) (shown : α → ν) (view : κ → Option ν) : Prop :=
  ∀ k a, cache k = some a → view k = some (shown a)

/-- A write to the store that refreshes the entry of one key keeps coherence exactly when it changes no
other cached key. -/
theorem coherent_write_iff [DecidableEq κ] (h : Coherent cache shown view) {k : κ} {a : α}
    (hfresh : view' k = some (shown a)) :
    Coherent (Function.update cache k (some a)) shown view'
      ↔ ∀ k', k' ≠ k → (cache k').isSome → view' k' = view k' := by
  constructor
  · intro h' k' hne hcached
    obtain ⟨b, hb⟩ := Option.isSome_iff_exists.mp hcached
    rw [h k' b hb]
    apply h' k' b
    rw [Function.update_of_ne hne, hb]
  · intro hother k' b hb
    by_cases hk : k' = k
    · subst hk
      rw [Function.update_self, Option.some.injEq] at hb
      rw [hfresh, hb]
    · rw [Function.update_of_ne hk] at hb
      rw [hother k' hk (by rw [hb]; rfl), h k' b hb]

end ApexChainx.Lib
