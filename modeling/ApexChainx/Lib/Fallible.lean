import Mathlib.Data.List.Basic

/-!
# Computations that may fail

An `Except` computation that returns has returned at each of its steps (`bind_eq_ok`, `map_eq_ok`), and a loop of
checks that goes through has passed each of them (`forM_eq_ok`). A list that is read element by element is read
exactly when each of its elements is (`isSome_mapM`), and what was read of it are values of its elements, as many
as there are (`length_of_mapM`, `exists_of_mem_mapM`).
-/

namespace ApexChainx.Lib

section Except

universe u v

variable {ε : Type u} {α β : Type v}

/-- A computation that succeeds has succeeded in both its parts. -/
theorem bind_eq_ok {x : Except ε α} {f : α → Except ε β} {b : β} :
    (x >>= f) = .ok b ↔ ∃ a, x = .ok a ∧ f a = .ok b := by
  cases x with
  | error e =>
      constructor
      · intro h
        cases h
      · rintro ⟨a, h, -⟩
        cases h
  | ok a =>
      constructor
      · intro h
        exact ⟨a, rfl, h⟩
      · rintro ⟨a', h, hf⟩
        obtain rfl := Except.ok.inj h
        exact hf

theorem map_eq_ok {x : Except ε α} {f : α → β} {b : β} : x.map f = .ok b ↔ ∃ a, x = .ok a ∧ f a = b := by
  cases x with
  | error e => simp [Except.map]
  | ok a => simp [Except.map]

/-- A loop of checks that goes through has passed each of them. -/
theorem forM_eq_ok {check : α → Except ε PUnit} {l : List α} (h : l.forM check = .ok ⟨⟩) :
    ∀ a ∈ l, check a = .ok ⟨⟩ := by
  induction l with
  | nil => exact List.forall_mem_nil _
  | cons a l ih =>
      rw [List.forM_eq_forM, List.forM_cons] at h
      obtain ⟨passed, hpassed, hrest⟩ := bind_eq_ok.mp h
      exact List.forall_mem_cons.mpr ⟨hpassed, ih hrest⟩

end Except

section Option

variable {α β : Type*} {f : α → Option β} {l : List α}

theorem isSome_mapM : (l.mapM f).isSome = l.all fun a => (f a).isSome := by
  induction l with
  | nil => rfl
  | cons a l ih =>
      rw [List.mapM_cons, List.all_cons, ← ih]
      cases f a with
      | none => rfl
      | some b => cases l.mapM f <;> rfl

/-- A list with an element that is not read is not read. -/
theorem mapM_eq_none {a : α} (hmem : a ∈ l) (h : f a = none) : l.mapM f = none := by
  rw [← Option.not_isSome_iff_eq_none, isSome_mapM, List.all_eq_true]
  intro hall
  have hread := hall a hmem
  rw [h] at hread
  contradiction

theorem length_of_mapM {bs : List β} (h : l.mapM f = some bs) : bs.length = l.length := by
  induction l generalizing bs with
  | nil =>
      obtain rfl := Option.some.inj h
      rfl
  | cons a l ih =>
      simp only [List.mapM_cons, Option.bind_eq_bind, Option.bind_eq_some_iff, Option.pure_def,
        Option.some.injEq] at h
      obtain ⟨b, -, bs, hbs, rfl⟩ := h
      rw [List.length_cons, List.length_cons, ih hbs]

/-- What was read is the value of an element. -/
theorem exists_of_mem_mapM {bs : List β} (h : l.mapM f = some bs) : ∀ b ∈ bs, ∃ a ∈ l, f a = some b := by
  induction l generalizing bs with
  | nil =>
      obtain rfl := Option.some.inj h
      exact List.forall_mem_nil _
  | cons a l ih =>
      simp only [List.mapM_cons, Option.bind_eq_bind, Option.bind_eq_some_iff, Option.pure_def,
        Option.some.injEq] at h
      obtain ⟨b, hb, bs, hbs, rfl⟩ := h
      refine List.forall_mem_cons.mpr ⟨⟨a, List.mem_cons_self, hb⟩, fun b' hb' => ?_⟩
      obtain ⟨a', ha', hread⟩ := ih hbs b' hb'
      exact ⟨a', List.mem_cons_of_mem _ ha', hread⟩

end Option

end ApexChainx.Lib
