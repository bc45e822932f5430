import Mathlib.Data.Finset.Card
import Mathlib.Data.Finset.Dedup
import Mathlib.Data.Int.Notation

/-!
# Counting distinct members in a sliding window

A sorted set of Redis under one key: its members with their scores, and the time at which the key expires.
Recording a member scores it with the time, drops the members that have left the window and moves the
expiry of the key; counting drops them too. Under a clock that never goes back the number of members is the
number of distinct ones recorded inside the window (`Tracks.card_members`).
-/

namespace ApexChainx.Lib

variable {α : Type*}

/-- A sorted set: no member occurs twice (`Tracks.nodup`). The empty set is the same as no key. -/
structure SortedSet (α : Type*) where
  rows : List (α × ℤ)
  expiresAt : Option ℤ

namespace SortedSet

def empty : SortedSet α := ⟨[], none⟩

/-- What a command finds under the key at time `now`: a key that has expired is gone. -/
def live (now : ℤ) (z : SortedSet α) : SortedSet α :=
  if z.expiresAt.any (· ≤ now) then empty else z

/-- `ZADD`: the score of a member that is there is replaced. -/
def zadd [DecidableEq α] (member : α) (score : ℤ) (z : SortedSet α) : SortedSet α :=
  { z with rows := (member, score) :: z.rows.filter (·.1 ≠ member) }

/-- `ZREMRANGEBYSCORE key -inf cutoff`. -/
def trim (cutoff : ℤ) (z : SortedSet α) : SortedSet α :=
  { z with rows := z.rows.filter (cutoff < ·.2) }

/-- `ZREMRANGEBYSCORE key first last`. -/
def removeRange (first last : ℤ) (z : SortedSet α) : SortedSet α :=
  { z with rows := z.rows.filter fun p => !decide (first ≤ p.2 ∧ p.2 ≤ last) }

/-- `EXPIRE`. -/
def expire (expiresAt : ℤ) (z : SortedSet α) : SortedSet α := { z with expiresAt := some expiresAt }

/-- The members with a score from `cutoff` on: `ZRANGEBYSCORE key cutoff +inf`. -/
def membersFrom (cutoff : ℤ) (z : SortedSet α) : List α := (z.rows.filter (cutoff ≤ ·.2)).map Prod.fst

/-- A member is recorded at time `now`. -/
def record [DecidableEq α] (window grace : ℤ) (member : α) (now : ℤ) (z : SortedSet α) : SortedSet α :=
  (((z.live now).zadd member now).trim (now - window)).expire (now + window + grace)

/-- The members that have left the window at time `now` are dropped. -/
def slide (window now : ℤ) (z : SortedSet α) : SortedSet α := (z.live now).trim (now - window)

end SortedSet

/-- The members hit inside the window that ends at `now`. -/
def recentMembers (window now : ℤ) (hits : List (α × ℤ)) : List α :=
  (hits.filter (now - window < ·.2)).map Prod.fst

/-- At time `now` the set holds the members hit inside the window, under their last hits, and perhaps
others hit before it. -/
structure Tracks (window : ℤ) (hits : List (α × ℤ)) (now : ℤ) (z : SortedSet α) : Prop where
  nodup : (z.rows.map Prod.fst).Nodup
  sound : ∀ p ∈ z.rows, p ∈ hits
  newest : ∀ p ∈ hits, now - window < p.2 → ∃ s, (p.1, s) ∈ z.rows ∧ p.2 ≤ s
  past : ∀ p ∈ hits, p.2 ≤ now
  expiry : ∀ e, z.expiresAt = some e → ∀ p ∈ z.rows, p.2 + window < e

namespace Tracks

variable {window grace now now' : ℤ} {hits : List (α × ℤ)} {z : SortedSet α}

theorem empty (window now : ℤ) : Tracks window ([] : List (α × ℤ)) now SortedSet.empty := by
  refine ⟨List.nodup_nil, ?_, ?_, ?_, ?_⟩
  · intro p hp
    cases hp
  · intro p hp
    cases hp
  · intro p hp
    cases hp
  · intro e he
    cases he

/-- Time passes. -/
theorem later (h : Tracks window hits now z) (hle : now ≤ now') : Tracks window hits now' z := by
  refine ⟨h.nodup, h.sound, ?_, ?_, h.expiry⟩
  · intro p hp hlt
    exact h.newest p hp (by omega)
  · intro p hp
    exact Int.le_trans (h.past p hp) hle

/-- A key that has expired held no member of the window. -/
theorem live (h : Tracks window hits now z) : Tracks window hits now (z.live now) := by
  unfold SortedSet.live
  split
  · rename_i hexpired
    obtain ⟨e, he, hle⟩ := (Option.any_eq_true ..).mp hexpired
    refine ⟨List.nodup_nil, ?_, ?_, h.past, ?_⟩
    · intro p hp
      cases hp
    · intro p hp hlt
      obtain ⟨s, hs, hps⟩ := h.newest p hp hlt
      have hold : s + window < e := h.expiry e he _ hs
      have hle' : e ≤ now := of_decide_eq_true hle
      omega
    · intro e' he'
      cases he'
  · exact h

theorem trim {cutoff : ℤ} (h : Tracks window hits now z) (hcutoff : cutoff ≤ now - window) :
    Tracks window hits now (z.trim cutoff) := by
  refine ⟨h.nodup.sublist (List.filter_sublist.map _), ?_, ?_, h.past, ?_⟩
  · intro p hp
    exact h.sound p (List.mem_filter.mp hp).1
  · intro p hp hlt
    obtain ⟨s, hs, hps⟩ := h.newest p hp hlt
    refine ⟨s, List.mem_filter.mpr ⟨hs, decide_eq_true ?_⟩, hps⟩
    show cutoff < s
    omega
  · intro e he p hp
    exact h.expiry e he p (List.mem_filter.mp hp).1

/-- Recording a member adds a hit. -/
theorem record [DecidableEq α] (h : Tracks window hits now z) (hgrace : 0 < grace) (member : α) :
    Tracks window (hits ++ [(member, now)]) now (z.record window grace member now) := by
  have hlive := h.live
  have hpast : ∀ p ∈ hits ++ [(member, now)], p.2 ≤ now := by
    intro p hp
    rcases List.mem_append.mp hp with hold | hnew
    · exact h.past p hold
    · rw [List.mem_singleton.mp hnew]
  have hsound : ∀ p ∈ (z.record window grace member now).rows, p ∈ hits ++ [(member, now)] := by
    intro p hp
    rcases List.mem_cons.mp (List.mem_filter.mp hp).1 with rfl | hold
    · exact List.mem_append_right _ List.mem_cons_self
    · exact List.mem_append_left _ (hlive.sound p (List.mem_filter.mp hold).1)
  refine ⟨?_, hsound, ?_, hpast, ?_⟩
  · refine List.Nodup.sublist (List.filter_sublist.map _) ?_
    rw [SortedSet.zadd, List.map_cons, List.nodup_cons]
    refine ⟨?_, hlive.nodup.sublist (List.filter_sublist.map _)⟩
    intro hmem
    obtain ⟨p, hp, hpm⟩ := List.mem_map.mp hmem
    have hne := (List.mem_filter.mp hp).2
    simp [hpm] at hne
  · intro p hp hlt
    have hkeep : ∀ s, p.2 ≤ s → (p.1, s) ∈ ((z.live now).zadd member now).rows →
        ∃ s, (p.1, s) ∈ (z.record window grace member now).rows ∧ p.2 ≤ s := by
      intro s hps hs
      refine ⟨s, List.mem_filter.mpr ⟨hs, decide_eq_true ?_⟩, hps⟩
      show now - window < s
      omega
    by_cases hm : p.1 = member
    · exact hkeep now (hpast p hp) (List.mem_cons.mpr (.inl (by rw [hm])))
    · rcases List.mem_append.mp hp with hold | hnew
      · obtain ⟨s, hs, hps⟩ := hlive.newest p hold hlt
        refine hkeep s hps (List.mem_cons_of_mem _ (List.mem_filter.mpr ⟨hs, ?_⟩))
        simpa using hm
      · exact absurd (congrArg Prod.fst (List.mem_singleton.mp hnew)) hm
  · intro e he p hp
    have hle := hpast p (hsound p hp)
    obtain rfl : now + window + grace = e := Option.some.inj he
    omega

theorem slide (h : Tracks window hits now z) : Tracks window hits now (z.slide window now) :=
  h.live.trim (Int.le_refl _)

/-- The members left after the slide are those hit inside the window, each once. -/
theorem card_members [DecidableEq α] (h : Tracks window hits now z) :
    ((z.slide window now).membersFrom (now - window)).dedup.length
      = (recentMembers window now hits).dedup.length := by
  rw [← List.card_toFinset, ← List.card_toFinset]
  congr 1
  ext m
  simp only [List.mem_toFinset, SortedSet.membersFrom, recentMembers, List.mem_map, List.mem_filter]
  have hlive := h.live
  constructor
  · rintro ⟨p, ⟨hp, -⟩, rfl⟩
    obtain ⟨hmem, hlt⟩ := List.mem_filter.mp hp
    exact ⟨p, ⟨hlive.sound p hmem, hlt⟩, rfl⟩
  · rintro ⟨p, ⟨hp, hlt⟩, rfl⟩
    have hlt' : now - window < p.2 := of_decide_eq_true hlt
    obtain ⟨s, hs, hps⟩ := hlive.newest p hp hlt'
    refine ⟨(p.1, s), ⟨List.mem_filter.mpr ⟨hs, decide_eq_true ?_⟩, decide_eq_true ?_⟩, rfl⟩
    · show now - window < s
      omega
    · show now - window ≤ s
      omega

end Tracks

end ApexChainx.Lib
