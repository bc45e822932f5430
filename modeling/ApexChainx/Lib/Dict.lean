import Mathlib.Data.List.Nodup
import ApexChainx.Lib.Table

/-!
# Dictionaries

Python's `dict` as the list of its items in the order of their insertion, no two under one key. The lemmas say
what `get` returns after each operation.
-/

namespace ApexChainx.Lib

/-- A dictionary. -/
structure Dict (κ α : Type*) where
  items : List (κ × α)
  nodup : (items.map Prod.fst).Nodup

namespace Dict

variable {κ α : Type*}

/-- `{}`. -/
def empty : Dict κ α := ⟨[], List.nodup_nil⟩

/-- `len(d)`. -/
def size (d : Dict κ α) : ℕ := d.items.length

/-- The dictionary without the items under the keys that are `gone`. -/
def discard (d : Dict κ α) (gone : κ → Bool) : Dict κ α where
  items := d.items.filter fun e => !gone e.1
  nodup := d.nodup.sublist (List.filter_sublist.map Prod.fst)

theorem nodup_concat {items : List (κ × α)} (h : (items.map Prod.fst).Nodup) {k : κ}
    (hk : k ∉ items.map Prod.fst) (a : α) : ((items ++ [(k, a)]).map Prod.fst).Nodup := by
  rw [List.map_append, List.map_singleton, List.nodup_append']
  refine ⟨h, List.nodup_singleton k, ?_⟩
  rw [List.disjoint_singleton]
  exact hk

variable [DecidableEq κ]

/-- `d.get(k)`. -/
def get (d : Dict κ α) (k : κ) : Option α := (d.items.find? fun e => decide (e.1 = k)).map Prod.snd

theorem nodup_updateKey {items : List (κ × α)} (h : (items.map Prod.fst).Nodup) (k : κ) (a : α) :
    ((updateKey Prod.fst k (fun e => (e.1, a)) items).map Prod.fst).Nodup := by
  rw [map_key_updateKey (g := fun e => (e.1, a)) fun _ => rfl]
  exact h

/-- `d[k] = a`: an item that is there keeps its place, a new one comes last. -/
def set (d : Dict κ α) (k : κ) (a : α) : Dict κ α :=
  if hk : k ∈ d.items.map Prod.fst then
    ⟨updateKey Prod.fst k (fun e => (e.1, a)) d.items, nodup_updateKey d.nodup k a⟩
  else ⟨d.items ++ [(k, a)], nodup_concat d.nodup hk a⟩

variable {d : Dict κ α} {k k' : κ} {a : α}

@[simp] theorem get_empty : (empty : Dict κ α).get k = none := rfl

theorem get_eq_none_iff : d.get k = none ↔ k ∉ d.items.map Prod.fst := by
  simp only [get, Option.map_eq_none_iff, List.find?_eq_none, decide_eq_true_eq, List.mem_map, not_exists, not_and]

theorem get_eq_some_iff : d.get k = some a ↔ (k, a) ∈ d.items := by
  constructor
  · intro h
    obtain ⟨e, he, rfl⟩ := Option.map_eq_some_iff.mp h
    have hkey := List.find?_some he
    rw [decide_eq_true_eq] at hkey
    subst hkey
    exact List.mem_of_find?_eq_some he
  · intro h
    cases hfind : d.items.find? fun e => decide (e.1 = k) with
    | none =>
        have hne := List.find?_eq_none.mp hfind (k, a) h
        simp at hne
    | some e =>
        have hkey := List.find?_some hfind
        rw [decide_eq_true_eq] at hkey
        have heq : e = (k, a) :=
          List.inj_on_of_nodup_map d.nodup (List.mem_of_find?_eq_some hfind) h hkey
        rw [get, hfind, heq]
        rfl

theorem get_set_self (d : Dict κ α) (k : κ) (a : α) : (d.set k a).get k = some a := by
  unfold set
  split_ifs with hk
  · obtain ⟨e, he, rfl⟩ := List.mem_map.mp hk
    rw [get, find?_updateKey (g := fun e => (e.1, a)) fun _ => rfl]
    cases hfind : d.items.find? fun e' => decide (e'.1 = e.1) with
    | none =>
        have hne := List.find?_eq_none.mp hfind e he
        simp at hne
    | some e' => rfl
  · rw [get_eq_some_iff]
    exact List.mem_append_right _ (List.mem_singleton_self _)

theorem get_set_ne (d : Dict κ α) (hne : k' ≠ k) (a : α) : (d.set k a).get k' = d.get k' := by
  unfold set
  split_ifs with hk
  · rw [get, find?_updateKey_ne (g := fun e => (e.1, a)) (fun _ => rfl) (Ne.symm hne)]
    rfl
  · rw [get, List.find?_append, List.find?_cons_of_neg (by simpa using Ne.symm hne), List.find?_nil,
      Option.or_none]
    rfl

theorem get_set (d : Dict κ α) (k k' : κ) (a : α) : (d.set k a).get k' = if k' = k then some a else d.get k' := by
  by_cases h : k' = k
  · rw [if_pos h, h, get_set_self]
  · rw [if_neg h, get_set_ne d h]

theorem get_discard (d : Dict κ α) (gone : κ → Bool) (k : κ) :
    (d.discard gone).get k = if gone k then none else d.get k := by
  cases hgone : gone k with
  | true =>
      rw [if_pos rfl, get_eq_none_iff]
      intro hmem
      obtain ⟨e, he, rfl⟩ := List.mem_map.mp hmem
      have hkept := (List.mem_filter.mp he).2
      rw [hgone] at hkept
      cases hkept
  | false =>
      rw [if_neg Bool.false_ne_true]
      refine Option.ext fun a => ?_
      rw [get_eq_some_iff, get_eq_some_iff]
      simp [discard, hgone]

end Dict

end ApexChainx.Lib
