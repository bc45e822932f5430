import Mathlib.Data.List.Induction
import Mathlib.Logic.Function.Basic

/-!
# Entries that expire

A store whose entries are dead from some time on. A log of writes says what a reader may be shown: the
value of the last put under the key, if nothing was written under the key since and the entry is not dead
(`Live`). A store may drop dead entries whenever it likes: it then still shows the same at every later time
(`Pruned`).
-/

namespace ApexChainx.Lib.Expiring

variable {κ α τ : Type*}

/-- A write to the store. -/
inductive Write (κ α τ : Type*)
  | put (k : κ) (a : α) (expiresAt : τ)
  | remove (gone : κ → Bool)

/-- The write is one under the key. -/
def Write.Under (k : κ) : Write κ α τ → Prop
  | .put k' _ _ => k' = k
  | .remove gone => gone k = true

/-- The last write of the log under the key put the value there. -/
def LastPut (log : List (Write κ α τ)) (k : κ) (a : α) (expiresAt : τ) : Prop :=
  ∃ before after, log = before ++ .put k a expiresAt :: after ∧ ∀ w ∈ after, ¬ w.Under k

/-- What was last put under the key is not dead. -/
def Live (dead : τ → τ → Prop) (log : List (Write κ α τ)) (k : κ) (now : τ) (a : α) : Prop :=
  ∃ expiresAt, LastPut log k a expiresAt ∧ ¬ dead expiresAt now

section Entries

variable [DecidableEq κ]

/-- The entries after a write. -/
def Write.apply (m : κ → Option (α × τ)) : Write κ α τ → κ → Option (α × τ)
  | .put k a expiresAt => Function.update m k (some (a, expiresAt))
  | .remove gone => fun k => if gone k then none else m k

/-- The entries after a log of writes. -/
def entries (log : List (Write κ α τ)) : κ → Option (α × τ) := log.foldl Write.apply fun _ => none

theorem Write.apply_of_not_under {w : Write κ α τ} {k : κ} (h : ¬ w.Under k) (m : κ → Option (α × τ)) :
    w.apply m k = m k := by
  cases w with
  | put k' a expiresAt => exact Function.update_of_ne (Ne.symm h) _ _
  | remove gone => exact if_neg h

theorem entries_concat (log : List (Write κ α τ)) (w : Write κ α τ) :
    entries (log ++ [w]) = w.apply (entries log) := by
  rw [entries, List.foldl_append]
  rfl

theorem entries_append_of_not_under {log after : List (Write κ α τ)} {k : κ} (h : ∀ w ∈ after, ¬ w.Under k) :
    entries (log ++ after) k = entries log k := by
  induction after using List.reverseRecOn with
  | nil => rw [List.append_nil]
  | append_singleton after w ih =>
      rw [← List.append_assoc, entries_concat, Write.apply_of_not_under (h w (by simp))]
      exact ih fun v hv => h v (List.mem_append_left _ hv)

/-- The entry of a key is what was last put there. -/
theorem entries_eq_some_iff {log : List (Write κ α τ)} {k : κ} {a : α} {expiresAt : τ} :
    entries log k = some (a, expiresAt) ↔ LastPut log k a expiresAt := by
  constructor
  · intro h
    induction log using List.reverseRecOn with
    | nil => cases h
    | append_singleton log w ih =>
        rw [entries_concat] at h
        by_cases hunder : w.Under k
        · cases w with
          | put k' a' t' =>
              obtain rfl : k' = k := hunder
              simp only [Write.apply, Function.update_self, Option.some.injEq, Prod.mk.injEq] at h
              obtain ⟨rfl, rfl⟩ := h
              exact ⟨log, [], rfl, by simp⟩
          | remove gone =>
              simp only [Write.apply, show gone k = true from hunder, if_true, reduceCtorEq] at h
        · rw [Write.apply_of_not_under hunder] at h
          obtain ⟨before, after, rfl, hafter⟩ := ih h
          refine ⟨before, after ++ [w], by simp, ?_⟩
          intro v hv
          rcases List.mem_append.mp hv with hv | hv
          · exact hafter v hv
          · rw [List.mem_singleton.mp hv]
            exact hunder
  · rintro ⟨before, after, rfl, hafter⟩
    have hsplit : before ++ .put k a expiresAt :: after = (before ++ [.put k a expiresAt]) ++ after := by simp
    rw [hsplit, entries_append_of_not_under hafter, entries_concat]
    exact Function.update_self ..

/-- What a reader is shown. -/
def shown (dead : τ → τ → Prop) [DecidableRel dead] (m : κ → Option (α × τ)) (now : τ) (k : κ) : Option α :=
  (m k).bind fun e => if dead e.2 now then none else some e.1

theorem shown_entries_eq_some_iff {dead : τ → τ → Prop} [DecidableRel dead] {log : List (Write κ α τ)} {now : τ}
    {k : κ} {a : α} : shown dead (entries log) now k = some a ↔ Live dead log k now a := by
  simp only [shown, Option.bind_eq_some_iff, Prod.exists, Live]
  constructor
  · rintro ⟨b, expiresAt, hentry, hshown⟩
    split_ifs at hshown with hdead
    cases hshown
    exact ⟨expiresAt, entries_eq_some_iff.mp hentry, hdead⟩
  · rintro ⟨expiresAt, hput, hdead⟩
    exact ⟨a, expiresAt, entries_eq_some_iff.mpr hput, if_neg hdead⟩

end Entries

/-! ## Dropping dead entries -/

section Pruned

variable {dead : τ → τ → Prop} {now now' : τ} {kept full : κ → Option (α × τ)}

/-- The entries that are left are those of the full store; the ones that were dropped are dead. -/
def Pruned (dead : τ → τ → Prop) (now : τ) (kept full : κ → Option (α × τ)) : Prop :=
  ∀ k, kept k = full k ∨ kept k = none ∧ ∃ a expiresAt, full k = some (a, expiresAt) ∧ dead expiresAt now

theorem Pruned.refl (now : τ) (m : κ → Option (α × τ)) : Pruned dead now m m := fun _ => .inl rfl

theorem Pruned.later (h : Pruned dead now kept full)
    (hdead : ∀ expiresAt, dead expiresAt now → dead expiresAt now') : Pruned dead now' kept full := by
  intro k
  rcases h k with hk | ⟨hkept, a, expiresAt, hfull, hd⟩
  · exact .inl hk
  · exact .inr ⟨hkept, a, expiresAt, hfull, hdead expiresAt hd⟩

theorem Pruned.shown_eq [DecidableRel dead] (h : Pruned dead now kept full) (k : κ) :
    shown dead kept now k = shown dead full now k := by
  rcases h k with hk | ⟨hkept, a, expiresAt, hfull, hdead⟩
  · rw [shown, hk, shown]
  · rw [shown, shown, hkept, hfull, Option.bind_some, if_pos hdead, Option.bind_none]

variable [DecidableEq κ]

theorem Pruned.write (h : Pruned dead now kept full) (w : Write κ α τ) :
    Pruned dead now (w.apply kept) (w.apply full) := by
  intro k
  by_cases hunder : w.Under k
  · left
    cases w with
    | put k' a expiresAt =>
        obtain rfl : k' = k := hunder
        simp [Write.apply]
    | remove gone => simp [Write.apply, show gone k = true from hunder]
  · rw [Write.apply_of_not_under hunder, Write.apply_of_not_under hunder]
    exact h k

/-- A dead entry may go. -/
theorem Pruned.drop (h : Pruned dead now kept full) {k : κ} {a : α} {expiresAt : τ}
    (hk : kept k = some (a, expiresAt)) (hdead : dead expiresAt now) :
    Pruned dead now (fun k' => if k' = k then none else kept k') full := by
  intro k'
  by_cases heq : k' = k
  · subst heq
    right
    refine ⟨if_pos rfl, a, expiresAt, ?_, hdead⟩
    rcases h k' with hkept | ⟨hkept, -⟩
    · rw [← hkept, hk]
    · rw [hkept] at hk
      cases hk
  · simp only [if_neg heq]
    exact h k'

end Pruned

end ApexChainx.Lib.Expiring
