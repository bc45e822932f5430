import Mathlib

/-!
# What intervals cover

Half-open intervals `[a, b)` of a locally finite order, as pairs, and the part of a window that lies in at
least one of them. Its size does not depend on how the intervals overlap or are cut; it is the sum of their
sizes only when they are apart. `coalesce` joins the intervals of a list in the order of their starts, which
makes them so.
-/

namespace ApexChainx.Lib

variable {α : Type*} [LinearOrder α]

/-- The point is in one of the intervals. -/
def InSome (spans : List (α × α)) (t : α) : Prop := ∃ s ∈ spans, s.1 ≤ t ∧ t < s.2

instance (spans : List (α × α)) (t : α) : Decidable (InSome spans t) :=
  inferInstanceAs (Decidable (∃ s ∈ spans, _))

@[simp] theorem not_inSome_nil (t : α) : ¬ InSome [] t := by simp [InSome]

theorem inSome_cons {s : α × α} {spans : List (α × α)} {t : α} :
    InSome (s :: spans) t ↔ s.1 ≤ t ∧ t < s.2 ∨ InSome spans t := by
  simp [InSome]

/-- An interval in two pieces that overlap or are adjacent. -/
theorem inSome_split {a b m m' : α} (ha : a ≤ m) (hm : m ≤ m') (hb : m' ≤ b) (spans : List (α × α)) (t : α) :
    InSome ((a, m') :: (m, b) :: spans) t ↔ InSome ((a, b) :: spans) t := by
  simp only [inSome_cons, ← or_assoc]
  refine or_congr_left ⟨?_, ?_⟩
  · rintro (⟨hle, hlt⟩ | ⟨hle, hlt⟩)
    · exact ⟨hle, hlt.trans_le hb⟩
    · exact ⟨ha.trans hle, hlt⟩
  · rintro ⟨hle, hlt⟩
    rcases lt_or_ge t m' with hbefore | hafter
    · exact .inl ⟨hle, hbefore⟩
    · exact .inr ⟨hm.trans hafter, hlt⟩

/-- Two intervals without a common point. -/
def Apart (s s' : α × α) : Prop := s.2 ≤ s'.1 ∨ s'.2 ≤ s.1

/-! ## Joining intervals -/

variable {spans spans' : List (α × α)}

/-- The intervals after `last`, each joined to the one before it when it starts before that one's end. -/
def coalesce (last : α × α) : List (α × α) → List (α × α)
  | [] => [last]
  | s :: spans =>
      if s.1 ≤ last.2 then coalesce (last.1, max last.2 s.2) spans else last :: coalesce s spans

/-- Joining intervals in the order of their starts keeps which points are between a start and an end, whether the ends
count as `before` or not. -/
theorem exists_mem_coalesce_iff {t : α} {before : α → Prop} (hmax : ∀ a b, before (max a b) ↔ before a ∨ before b)
    (htotal : ∀ a, before a ∨ a ≤ t) {last : α × α} (hsorted : (last :: spans).Pairwise fun s s' => s.1 ≤ s'.1) :
    (∃ s ∈ coalesce last spans, s.1 ≤ t ∧ before s.2) ↔ ∃ s ∈ last :: spans, s.1 ≤ t ∧ before s.2 := by
  induction spans generalizing last with
  | nil => rfl
  | cons s spans ih =>
      obtain ⟨hfirst, hrest⟩ := List.pairwise_cons.mp hsorted
      have hle := hfirst s List.mem_cons_self
      rw [coalesce]
      split
      · rename_i hjoin
        have hsorted' : ((last.1, max last.2 s.2) :: spans).Pairwise fun s s' => s.1 ≤ s'.1 :=
          List.pairwise_cons.mpr ⟨fun s' hs' => hfirst s' (List.mem_cons_of_mem _ hs'), hrest.of_cons⟩
        rw [ih hsorted', List.exists_mem_cons_iff, List.exists_mem_cons_iff, List.exists_mem_cons_iff, ← or_assoc]
        refine or_congr_left ⟨?_, ?_⟩
        · rintro ⟨hafter, hbefore⟩
          rcases (hmax _ _).mp hbefore with hlast | hs
          · exact .inl ⟨hafter, hlast⟩
          · exact (htotal last.2).imp (⟨hafter, ·⟩) fun hlast => ⟨hjoin.trans hlast, hs⟩
        · rintro (⟨hafter, hbefore⟩ | ⟨hafter, hbefore⟩)
          · exact ⟨hafter, (hmax _ _).mpr (.inl hbefore)⟩
          · exact ⟨hle.trans hafter, (hmax _ _).mpr (.inr hbefore)⟩
      · rw [List.exists_mem_cons_iff, ih hrest, List.exists_mem_cons_iff (l := s :: spans)]

/-- Joining intervals in the order of their starts keeps what they cover. -/
theorem inSome_coalesce {last : α × α} (hsorted : (last :: spans).Pairwise fun s s' => s.1 ≤ s'.1) (t : α) :
    InSome (coalesce last spans) t ↔ InSome (last :: spans) t :=
  exists_mem_coalesce_iff (fun _ _ => lt_max_iff) (fun a => lt_or_ge t a) hsorted

/-- What holds of the intervals of the list, and of two joined when it holds of both, holds of the joined intervals. -/
theorem forall_mem_coalesce {P : α × α → Prop} (hjoin : ∀ s s', P s → P s' → P (s.1, max s.2 s'.2)) {last : α × α}
    (hlist : ∀ s ∈ last :: spans, P s) : ∀ s ∈ coalesce last spans, P s := by
  induction spans generalizing last with
  | nil => exact hlist
  | cons next spans ih =>
      obtain ⟨hlast, hrest⟩ := List.forall_mem_cons.mp hlist
      obtain ⟨hnext, hspans⟩ := List.forall_mem_cons.mp hrest
      rw [coalesce]
      split
      · exact ih (List.forall_mem_cons.mpr ⟨hjoin last next hlast hnext, hspans⟩)
      · exact List.forall_mem_cons.mpr ⟨hlast, ih hrest⟩

/-- The start of a joined interval is the start of one of the list. -/
theorem exists_start_of_mem_coalesce {last s : α × α} (hs : s ∈ coalesce last spans) :
    ∃ s' ∈ last :: spans, s.1 = s'.1 :=
  forall_mem_coalesce (P := fun s => ∃ s' ∈ last :: spans, s.1 = s'.1) (fun _ _ h _ => h)
    (fun s hs => ⟨s, hs, rfl⟩) s hs

/-- The end of a joined interval is the end of one of the list. -/
theorem exists_end_of_mem_coalesce {last s : α × α} (hs : s ∈ coalesce last spans) :
    ∃ s' ∈ last :: spans, s.2 = s'.2 := by
  refine forall_mem_coalesce (P := fun s => ∃ s' ∈ last :: spans, s.2 = s'.2) ?_ (fun s hs => ⟨s, hs, rfl⟩) s hs
  intro s s' h h'
  rcases max_choice s.2 s'.2 with hmax | hmax
  · rwa [hmax]
  · rwa [hmax]

/-- Of two joined intervals the first ends before the second starts. -/
theorem gaps_coalesce {last : α × α} (hsorted : (last :: spans).Pairwise fun s s' => s.1 ≤ s'.1) :
    (coalesce last spans).Pairwise fun s s' => s.2 < s'.1 := by
  induction spans generalizing last with
  | nil => exact List.pairwise_singleton _ _
  | cons s spans ih =>
      obtain ⟨hfirst, hrest⟩ := List.pairwise_cons.mp hsorted
      rw [coalesce]
      split
      · refine ih (List.pairwise_cons.mpr ⟨?_, hrest.of_cons⟩)
        exact fun s' hs' => hfirst s' (List.mem_cons_of_mem _ hs')
      · rename_i hgap
        refine List.pairwise_cons.mpr ⟨?_, ih hrest⟩
        -- what follows starts no earlier than `s`, which starts after the end of `last`
        intro s' hs'
        obtain ⟨s'', hs'', heq⟩ := exists_start_of_mem_coalesce hs'
        rw [heq]
        rcases List.mem_cons.mp hs'' with rfl | hs''
        · exact not_le.mp hgap
        · exact (not_le.mp hgap).trans_le ((List.pairwise_cons.mp hrest).1 s'' hs'')

/-- Joined intervals are apart. -/
theorem pairwise_coalesce {last : α × α} (hsorted : (last :: spans).Pairwise fun s s' => s.1 ≤ s'.1) :
    (coalesce last spans).Pairwise Apart :=
  (gaps_coalesce hsorted).imp fun hgap => .inl hgap.le

/-- Intervals with gaps between them are left as they are. -/
theorem coalesce_of_gaps {last : α × α} (hgaps : (last :: spans).Pairwise fun s s' => s.2 < s'.1) :
    coalesce last spans = last :: spans := by
  induction spans generalizing last with
  | nil => rfl
  | cons s spans ih =>
      obtain ⟨hfirst, hrest⟩ := List.pairwise_cons.mp hgaps
      rw [coalesce, if_neg (not_le.mpr (hfirst s List.mem_cons_self)), ih hrest]

/-! ### Closed intervals -/

/-- The point is in one of the intervals, their ends included. -/
def InSomeClosed (spans : List (α × α)) (t : α) : Prop := ∃ s ∈ spans, s.1 ≤ t ∧ t ≤ s.2

/-- Joining intervals in the order of their starts keeps what they cover with their ends. -/
theorem inSomeClosed_coalesce {last : α × α} (hsorted : (last :: spans).Pairwise fun s s' => s.1 ≤ s'.1)
    (t : α) : InSomeClosed (coalesce last spans) t ↔ InSomeClosed (last :: spans) t :=
  exists_mem_coalesce_iff (fun _ _ => le_max_iff) (fun a => le_total t a) hsorted

theorem le_of_mem_coalesce {last s : α × α} (hvalid : ∀ s ∈ last :: spans, s.1 ≤ s.2)
    (hs : s ∈ coalesce last spans) : s.1 ≤ s.2 :=
  forall_mem_coalesce (P := fun s => s.1 ≤ s.2) (fun _ _ h _ => h.trans (le_max_left _ _)) hvalid s hs

/-! ### The order of equal starts -/

theorem coalesce_cons_of_le {last s : α × α} (h : s.1 ≤ last.2) :
    coalesce last (s :: spans) = coalesce (last.1, max last.2 s.2) spans := by
  rw [coalesce, if_pos h]

theorem coalesce_cons_of_gap {last s : α × α} (h : ¬ s.1 ≤ last.2) :
    coalesce last (s :: spans) = last :: coalesce s spans := by
  rw [coalesce, if_neg h]

/-- Two intervals with one start are joined, in either order. -/
theorem coalesce_comm {s s' : α × α} (hstart : s.1 = s'.1) (hs : s.1 ≤ s.2) (hs' : s'.1 ≤ s'.2) :
    coalesce s (s' :: spans) = coalesce s' (s :: spans) := by
  rw [coalesce_cons_of_le (hstart ▸ hs), coalesce_cons_of_le (hstart ▸ hs'), hstart, max_comm]

theorem coalesce_swap (last : α × α) {s s' : α × α} (hstart : s.1 = s'.1) (hs : s.1 ≤ s.2)
    (hs' : s'.1 ≤ s'.2) : coalesce last (s :: s' :: spans) = coalesce last (s' :: s :: spans) := by
  by_cases hjoin : s.1 ≤ last.2
  · have hjoin' : s'.1 ≤ last.2 := hstart ▸ hjoin
    rw [coalesce_cons_of_le hjoin, coalesce_cons_of_le (hjoin'.trans (le_max_left _ _)),
      coalesce_cons_of_le hjoin', coalesce_cons_of_le (hjoin.trans (le_max_left _ _))]
    rw [max_assoc, max_comm s.2, ← max_assoc]
  · have hjoin' : ¬ s'.1 ≤ last.2 := hstart ▸ hjoin
    rw [coalesce_cons_of_gap hjoin, coalesce_cons_of_gap hjoin', coalesce_comm hstart hs hs']

/-- Lists of the same intervals in the order of their starts begin with equal starts. -/
theorem start_eq_of_perm {s s' : α × α} (hperm : (s :: spans).Perm (s' :: spans'))
    (hsorted : (s :: spans).Pairwise fun s s' => s.1 ≤ s'.1)
    (hsorted' : (s' :: spans').Pairwise fun s s' => s.1 ≤ s'.1) : s.1 = s'.1 := by
  apply le_antisymm
  · rcases List.mem_cons.mp (hperm.mem_iff.mpr List.mem_cons_self) with heq | hmem
    · rw [heq]
    · exact (List.pairwise_cons.mp hsorted).1 s' hmem
  · rcases List.mem_cons.mp (hperm.mem_iff.mp List.mem_cons_self) with heq | hmem
    · rw [heq]
    · exact (List.pairwise_cons.mp hsorted').1 s hmem

/-- What two such lists with different first intervals have in common after these two. -/
theorem exists_common_rest {s s' : α × α} (hne : s ≠ s') (hperm : (s :: spans).Perm (s' :: spans'))
    (hsorted : (s :: spans).Pairwise fun s s' => s.1 ≤ s'.1)
    (hsorted' : (s' :: spans').Pairwise fun s s' => s.1 ≤ s'.1) :
    ∃ rest, spans.Perm (s' :: rest) ∧ spans'.Perm (s :: rest) ∧
      ((s' :: rest).Pairwise fun s s' => s.1 ≤ s'.1) ∧ (s :: rest).Pairwise fun s s' => s.1 ≤ s'.1 := by
  have hstart := start_eq_of_perm hperm hsorted hsorted'
  have hmem : s' ∈ spans :=
    (List.mem_cons.mp (hperm.mem_iff.mpr List.mem_cons_self)).resolve_left hne.symm
  have hspans := List.perm_cons_erase hmem
  have hspans' : spans'.Perm (s :: spans.erase s') := by
    refine (List.perm_cons s').mp (hperm.symm.trans ?_)
    exact (hspans.cons s).trans (List.Perm.swap s' s _)
  have hrest : (s :: spans.erase s').Pairwise fun s s' => s.1 ≤ s'.1 :=
    hsorted.sublist (List.erase_sublist.cons_cons s)
  refine ⟨spans.erase s', hspans, hspans', ?_, hrest⟩
  refine List.pairwise_cons.mpr ⟨?_, hrest.of_cons⟩
  intro other hother
  rw [← hstart]
  exact (List.pairwise_cons.mp hrest).1 other hother

/-- Joining intervals after `last` does not depend on the order of those with equal starts. -/
theorem coalesce_perm (last : α × α) (hperm : spans.Perm spans') (hvalid : ∀ s ∈ spans, s.1 ≤ s.2)
    (hsorted : spans.Pairwise fun s s' => s.1 ≤ s'.1) (hsorted' : spans'.Pairwise fun s s' => s.1 ≤ s'.1) :
    coalesce last spans = coalesce last spans' := by
  obtain ⟨n, hn⟩ : ∃ n, spans.length = n := ⟨_, rfl⟩
  induction n generalizing last spans spans' with
  | zero =>
      obtain rfl := List.length_eq_zero_iff.mp hn
      rw [hperm.nil_eq]
  | succ n ih =>
      obtain ⟨s, rest, rfl⟩ := List.exists_cons_of_length_eq_add_one hn
      obtain ⟨s', rest', rfl⟩ := List.exists_cons_of_length_eq_add_one (hperm.length_eq.symm.trans hn)
      have hlength : rest.length = n := Nat.succ.inj hn
      have hrest := (List.forall_mem_cons.mp hvalid).2
      -- two lists with one first interval
      have htail : ∀ {s : α × α} {rest rest' : List (α × α)}, rest.Perm rest' → rest.length = n →
          (∀ s ∈ rest, s.1 ≤ s.2) → (rest.Pairwise fun s s' => s.1 ≤ s'.1) →
          (rest'.Pairwise fun s s' => s.1 ≤ s'.1) → coalesce last (s :: rest) = coalesce last (s :: rest') := by
        intro s rest rest' hperm hlength hvalid hsorted hsorted'
        by_cases hjoin : s.1 ≤ last.2
        · rw [coalesce_cons_of_le hjoin, coalesce_cons_of_le hjoin, ih _ hperm hvalid hsorted hsorted' hlength]
        · rw [coalesce_cons_of_gap hjoin, coalesce_cons_of_gap hjoin,
            ih _ hperm hvalid hsorted hsorted' hlength]
      by_cases heq : s = s'
      · subst heq
        exact htail ((List.perm_cons s).mp hperm) hlength hrest hsorted.of_cons hsorted'.of_cons
      · obtain ⟨common, hcommon, hcommon', hsortedCommon, hsortedCommon'⟩ :=
          exists_common_rest heq hperm hsorted hsorted'
        have hlength' : rest'.length = n := Nat.succ.inj (hperm.length_eq.symm.trans hn)
        have hvalid' : ∀ s ∈ rest', s.1 ≤ s.2 := fun s hs =>
          hvalid s (hperm.mem_iff.mpr (List.mem_cons_of_mem _ hs))
        rw [htail hcommon hlength hrest hsorted.of_cons hsortedCommon,
          htail hcommon' hlength' hvalid' hsorted'.of_cons hsortedCommon']
        exact coalesce_swap last (start_eq_of_perm hperm hsorted hsorted') (hvalid s List.mem_cons_self)
          (hvalid s' (hperm.mem_iff.mpr List.mem_cons_self))

/-- Joining all intervals of a list does not depend on the order of those with equal starts. -/
theorem coalesce_cons_perm {s s' : α × α} (hperm : (s :: spans).Perm (s' :: spans'))
    (hvalid : ∀ i ∈ s :: spans, i.1 ≤ i.2) (hsorted : (s :: spans).Pairwise fun s s' => s.1 ≤ s'.1)
    (hsorted' : (s' :: spans').Pairwise fun s s' => s.1 ≤ s'.1) :
    coalesce s spans = coalesce s' spans' := by
  have hrest := (List.forall_mem_cons.mp hvalid).2
  by_cases heq : s = s'
  · subst heq
    exact coalesce_perm s ((List.perm_cons s).mp hperm) hrest hsorted.of_cons hsorted'.of_cons
  · obtain ⟨common, hcommon, hcommon', hsortedCommon, hsortedCommon'⟩ :=
      exists_common_rest heq hperm hsorted hsorted'
    have hvalid' : ∀ s ∈ spans', s.1 ≤ s.2 := fun s hs =>
      hvalid s (hperm.mem_iff.mpr (List.mem_cons_of_mem _ hs))
    rw [coalesce_perm s hcommon hrest hsorted.of_cons hsortedCommon,
      coalesce_perm s' hcommon' hvalid' hsorted'.of_cons hsortedCommon']
    exact coalesce_comm (start_eq_of_perm hperm hsorted hsorted') (hvalid s List.mem_cons_self)
      (hvalid s' (hperm.mem_iff.mpr List.mem_cons_self))

/-! ## The covered part of a window -/

variable [LocallyFiniteOrder α]

/-- The points of `[lo, hi)` that are in one of the intervals. -/
def covered (lo hi : α) (spans : List (α × α)) : Finset α :=
  {t ∈ Finset.Ico lo hi | InSome spans t}

variable {lo hi : α}

theorem mem_covered {t : α} : t ∈ covered lo hi spans ↔ (lo ≤ t ∧ t < hi) ∧ InSome spans t := by
  simp [covered]

theorem covered_congr (h : ∀ t, InSome spans t ↔ InSome spans' t) :
    covered lo hi spans = covered lo hi spans' := by
  ext t
  rw [mem_covered, mem_covered, h t]

theorem card_covered_le : (covered lo hi spans).card ≤ (Finset.Ico lo hi).card :=
  Finset.card_filter_le _ _

/-- Nothing is covered when every interval ends before the window or starts after it. -/
theorem covered_eq_empty_iff :
    covered lo hi spans = ∅ ↔ ∀ s ∈ spans, min hi s.2 ≤ max lo s.1 := by
  rw [Finset.eq_empty_iff_forall_notMem]
  constructor
  · intro h s hs
    by_contra hlt
    rw [not_le, max_lt_iff, lt_min_iff, lt_min_iff] at hlt
    -- the later one of the two starts is in both
    refine h (max lo s.1) (mem_covered.mpr ⟨⟨le_max_left _ _, ?_⟩, s, hs, le_max_right _ _, ?_⟩)
    · exact max_lt hlt.1.1 hlt.2.1
    · exact max_lt hlt.1.2 hlt.2.2
  · intro h t ht
    obtain ⟨⟨hlo, hhi⟩, s, hs, hle, hlt⟩ := mem_covered.mp ht
    have hmax : max lo s.1 ≤ t := max_le hlo hle
    have hmin : t < min hi s.2 := lt_min hhi hlt
    exact absurd (h s hs) (not_le.mpr (hmax.trans_lt hmin))

/-- Intervals of the window that are apart cover as much as they are long together. -/
theorem card_covered_of_apart (hin : ∀ s ∈ spans, lo ≤ s.1 ∧ s.2 ≤ hi) (hapart : spans.Pairwise Apart) :
    (covered lo hi spans).card = (spans.map fun s => (Finset.Ico s.1 s.2).card).sum := by
  induction spans with
  | nil => simp [covered]
  | cons s spans ih =>
      obtain ⟨hfirst, hrest⟩ := List.pairwise_cons.mp hapart
      obtain ⟨hlo, hhi⟩ := hin s List.mem_cons_self
      have hsplit : covered lo hi (s :: spans) = Finset.Ico s.1 s.2 ∪ covered lo hi spans := by
        ext t
        rw [Finset.mem_union, mem_covered, mem_covered, inSome_cons, Finset.mem_Ico, and_or_left]
        refine or_congr_left (and_iff_right_of_imp ?_)
        rintro ⟨hle, hlt⟩
        exact ⟨hlo.trans hle, hlt.trans_le hhi⟩
      have hdisjoint : Disjoint (Finset.Ico s.1 s.2) (covered lo hi spans) := by
        rw [Finset.disjoint_left]
        intro t ht hcovered
        obtain ⟨hle, hlt⟩ := Finset.mem_Ico.mp ht
        obtain ⟨-, s', hs', hle', hlt'⟩ := mem_covered.mp hcovered
        rcases hfirst s' hs' with hbefore | hafter
        · exact absurd (hlt.trans_le (hbefore.trans hle')) (lt_irrefl t)
        · exact absurd (hlt'.trans_le (hafter.trans hle)) (lt_irrefl t)
      have hrest' := ih (fun s' hs' => hin s' (List.mem_cons_of_mem _ hs')) hrest
      rw [hsplit, Finset.card_union_of_disjoint hdisjoint, hrest', List.map_cons, List.sum_cons]

/-- Joined intervals of a window are as long together as the part of it that the intervals cover. -/
theorem sum_coalesce {last : α × α} (hsorted : (last :: spans).Pairwise fun s s' => s.1 ≤ s'.1)
    (hin : ∀ s ∈ last :: spans, lo ≤ s.1 ∧ s.2 ≤ hi) :
    ((coalesce last spans).map fun s => (Finset.Ico s.1 s.2).card).sum
      = (covered lo hi (last :: spans)).card := by
  rw [← covered_congr (inSome_coalesce hsorted), card_covered_of_apart ?_ (pairwise_coalesce hsorted)]
  intro s hs
  obtain ⟨s', hs', hstart⟩ := exists_start_of_mem_coalesce hs
  obtain ⟨s'', hs'', hend⟩ := exists_end_of_mem_coalesce hs
  rw [hstart, hend]
  exact ⟨(hin s' hs').1, (hin s'' hs'').2⟩

end ApexChainx.Lib
