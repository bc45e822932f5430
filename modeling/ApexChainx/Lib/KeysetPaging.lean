import Mathlib.Logic.Equiv.Basic
import ApexChainx.Lib.OffsetPaging

/-!
# Keyset paging over changing answers

As in `Paging`, a page ends with an element that selects what the next page is taken from. Here every page
is a query of its own, and the order `before` of the answers may leave elements tied; what a page selects is
decided by another relation, `after`, which is a strict total order.

`walk_complete_iff` says when every walk has each element exactly once and in order, whatever answers its
queries get: when each page but the last ends in an element that is tied with no other and selects exactly
what comes behind it.
-/

namespace ApexChainx.Lib.KeysetPaging

open OffsetPaging

variable {α : Type*}

/-- What a page is taken from: the answer to its query, cut by the last element of the page before. -/
def selection (after : α → α → Bool) (L : List α) : Option α → List α
  | none => L
  | some c => L.filter (after c)

/-- The pages from query number `i` on; `none` when `fuel` queries are not enough. -/
def walk (answer : ℕ → List α) (after : α → α → Bool) (limit : ℕ) :
    ℕ → ℕ → Option α → Option (List (List α))
  | 0, _, _ => none
  | fuel + 1, i, boundary =>
      let W := selection after (answer i) boundary
      if W.length ≤ limit then some [W]
      else
        match (W.take limit).getLast? with
        | none => none
        | some c => (walk answer after limit fuel (i + 1) (some c)).map (W.take limit :: ·)

/-- The elements come in an order that `before` allows, each exactly once. -/
def Complete (before : α → α → Prop) (S : List α) (pages : List (List α)) : Prop :=
  Answers before S pages.flatten

/-- The element selects what comes behind it, and no other is tied with it. -/
def Cuts (before : α → α → Prop) (after : α → α → Bool) (S : List α) (c : α) : Prop :=
  ∀ x ∈ S, x ≠ c → ¬ (before c x ∧ before x c) ∧ (after c x = true ↔ before c x)

variable {answer : ℕ → List α} {before : α → α → Prop} {after : α → α → Bool} {S : List α} {limit : ℕ}

theorem getLast?_take {W : List α} (hlimit : 1 ≤ limit) (h : limit < W.length) :
    (W.take limit).getLast? = W[limit - 1]? := by
  rw [List.getLast?_eq_getElem?, List.length_take, Nat.min_eq_left (by omega), List.getElem?_take,
    if_pos (by omega)]

/-- Without fuel there are no pages. -/
theorem exists_succ_of_walk {fuel i : ℕ} {boundary : Option α} {pages : List (List α)}
    (h : walk answer after limit fuel i boundary = some pages) : ∃ n, fuel = n + 1 := by
  cases fuel with
  | zero => cases h
  | succ n => exact ⟨n, rfl⟩

theorem walk_of_length_le {fuel i : ℕ} {boundary : Option α}
    (h : (selection after (answer i) boundary).length ≤ limit) :
    walk answer after limit (fuel + 1) i boundary = some [selection after (answer i) boundary] := if_pos h

/-- A page that leaves something for the next one. -/
theorem walk_of_lt_length {fuel i : ℕ} {boundary : Option α} {W : List α} {c : α} (hlimit : 1 ≤ limit)
    (hW : selection after (answer i) boundary = W) (h : limit < W.length) (hc : W[limit - 1]? = some c) :
    walk answer after limit (fuel + 1) i boundary
      = (walk answer after limit fuel (i + 1) (some c)).map (W.take limit :: ·) := by
  simp only [walk, hW, if_neg (Nat.not_le.mpr h), getLast?_take hlimit h, hc]

section Order

variable (hirrefl : ∀ x, after x x = false)
  (htrans : ∀ x y z, after x y = true → after y z = true → after x z = true)
include htrans

/-- What the walk selects from a page on is a part of what it selected there. -/
theorem mem_selection_of_mem_walk (hlimit : 1 ≤ limit) (hanswer : ∀ i, (answer i).Perm S) {fuel i : ℕ} {c : α}
    {pages : List (List α)} (h : walk answer after limit fuel i (some c) = some pages) {x : α}
    (hx : x ∈ pages.flatten) : x ∈ S ∧ after c x = true := by
  induction fuel generalizing i c pages with
  | zero => cases h
  | succ fuel ih =>
      have hselected : ∀ y ∈ (answer i).filter (after c), y ∈ S ∧ after c y = true := by
        intro y hy
        obtain ⟨hmem, hafter⟩ := List.mem_filter.mp hy
        exact ⟨(hanswer i).mem_iff.mp hmem, hafter⟩
      rcases Nat.lt_or_ge limit ((answer i).filter (after c)).length with hlt | hle
      · obtain ⟨d, hd⟩ : ∃ d, ((answer i).filter (after c))[limit - 1]? = some d :=
          ⟨_, List.getElem?_eq_getElem (by omega)⟩
        have hW : selection after (answer i) (some c) = (answer i).filter (after c) := rfl
        rw [walk_of_lt_length hlimit hW hlt hd, Option.map_eq_some_iff] at h
        obtain ⟨rest, hrest, rfl⟩ := h
        rw [List.flatten_cons, List.mem_append] at hx
        rcases hx with hx | hx
        · exact hselected x (List.mem_of_mem_take hx)
        · obtain ⟨hxS, hdx⟩ := ih hrest hx
          exact ⟨hxS, htrans c d x (hselected d (List.mem_of_getElem? hd)).2 hdx⟩
      · rw [walk_of_length_le hle, Option.some.injEq] at h
        subst h
        exact hselected x (by simpa [selection] using hx)

/-- The pages have elements of the answers only. -/
theorem mem_of_mem_walk (hlimit : 1 ≤ limit) (hanswer : ∀ i, (answer i).Perm S) {fuel i : ℕ}
    {boundary : Option α} {pages : List (List α)} (h : walk answer after limit fuel i boundary = some pages)
    {x : α} (hx : x ∈ pages.flatten) : x ∈ S := by
  cases boundary with
  | some c => exact (mem_selection_of_mem_walk htrans hlimit hanswer h hx).1
  | none =>
      obtain ⟨fuel, rfl⟩ := exists_succ_of_walk h
      have hW : selection after (answer i) none = answer i := rfl
      rcases Nat.lt_or_ge limit (answer i).length with hlt | hle
      · obtain ⟨d, hd⟩ : ∃ d, (answer i)[limit - 1]? = some d := ⟨_, List.getElem?_eq_getElem (by omega)⟩
        rw [walk_of_lt_length hlimit hW hlt hd, Option.map_eq_some_iff] at h
        obtain ⟨rest, hrest, rfl⟩ := h
        rw [List.flatten_cons, List.mem_append] at hx
        rcases hx with hx | hx
        · exact (hanswer i).mem_iff.mp (List.mem_of_mem_take hx)
        · exact (mem_selection_of_mem_walk htrans hlimit hanswer hrest hx).1
      · rw [walk_of_length_le hle, Option.some.injEq] at h
        subst h
        exact (hanswer i).mem_iff.mp (by simpa [selection] using hx)

include hirrefl

/-- The walk ends: every page but the last takes an element out of the selection. -/
theorem exists_walk (hlimit : 1 ≤ limit) (hanswer : ∀ i, (answer i).Perm S) {fuel : ℕ} (i : ℕ)
    (boundary : Option α) (hfuel : (selection after (answer i) boundary).length < fuel) :
    ∃ pages, walk answer after limit fuel i boundary = some pages := by
  induction fuel generalizing i boundary with
  | zero => cases hfuel
  | succ fuel ih =>
      rcases Nat.lt_or_ge limit (selection after (answer i) boundary).length with hlt | hle
      · obtain ⟨d, hd⟩ : ∃ d, (selection after (answer i) boundary)[limit - 1]? = some d :=
          ⟨_, List.getElem?_eq_getElem (by omega)⟩
        have hmem : d ∈ selection after (answer i) boundary := List.mem_of_getElem? hd
        have hshort : ((answer (i + 1)).filter (after d)).length
            < (selection after (answer i) boundary).length := by
          have hperm : ((answer (i + 1)).filter (after d)).Perm ((answer i).filter (after d)) :=
            ((hanswer (i + 1)).trans (hanswer i).symm).filter _
          have hpart : (answer i).filter (after d)
              = (selection after (answer i) boundary).filter (after d) := by
            cases boundary with
            | none => rfl
            | some c =>
                simp only [selection, List.filter_filter]
                refine List.filter_congr fun x _ => ?_
                cases hx : after d x with
                | false => simp
                | true => simp [htrans c d x (List.mem_filter.mp hmem).2 hx]
          rw [hperm.length_eq, hpart]
          exact List.length_filter_lt_length_iff_exists.mpr ⟨d, hmem, by simp [hirrefl d]⟩
        obtain ⟨rest, hrest⟩ := ih (i + 1) (some d) (by simp only [selection]; omega)
        exact ⟨_, by rw [walk_of_lt_length hlimit rfl hlt hd, hrest, Option.map_some]⟩
      · exact ⟨_, walk_of_length_le hle⟩

end Order

/-! ## Boundaries that cut -/

section Cuts

variable {L₀ L : List α} (hbefore : ∀ a b, before a b ∨ before b a)
  (hbeforeTrans : ∀ a b c, before a b → before b c → before a c)
include hbefore hbeforeTrans

/-- An untied element stands in the same place of every answer. -/
theorem Cuts.getElem?_eq {c : α} (h : Cuts before after S c) (hL₀ : Answers before S L₀)
    (hL : Answers before S L) {m : ℕ} (hc : L₀[m]? = some c) : L[m]? = some c := by
  have hlength : L.length = L₀.length := (hL.perm.trans hL₀.perm.symm).length_eq
  have hm : m < L₀.length := (List.getElem?_eq_some_iff.mp hc).1
  obtain ⟨x, hx⟩ : ∃ x, L[m]? = some x := ⟨_, List.getElem?_eq_getElem (by omega)⟩
  have hcx : before c x := before_of_getElem? hbefore hbeforeTrans hL hL₀ hx hc
  have hxc : before x c := before_of_getElem? hbefore hbeforeTrans hL₀ hL hc hx
  by_contra hne
  have hxS : x ∈ S := hL.perm.mem_iff.mp (List.mem_of_getElem? hx)
  exact (h x hxS (fun heq => hne (heq ▸ hx))).1 ⟨hcx, hxc⟩

omit hbefore hbeforeTrans in
/-- It selects what comes behind it. -/
theorem Cuts.filter_eq_drop {c : α} (h : Cuts before after S c) (hirrefl : ∀ x, after x x = false)
    (hnodup : S.Nodup) (hL : Answers before S L) {m : ℕ} (hc : L[m]? = some c) :
    L.filter (after c) = L.drop (m + 1) := by
  obtain ⟨hm, rfl⟩ := List.getElem?_eq_some_iff.mp hc
  have hsplit : L = L.take m ++ L[m] :: L.drop (m + 1) := by
    rw [← List.drop_eq_getElem_cons hm, List.take_append_drop]
  have hmemS : ∀ x ∈ L, x ∈ S := fun x hx => hL.perm.mem_iff.mp hx
  have hLnodup : L.Nodup := hL.perm.nodup_iff.mpr hnodup
  have hsorted := hL.sorted
  rw [hsplit, List.pairwise_append, List.pairwise_cons] at hsorted
  obtain ⟨-, ⟨hbehind, -⟩, hcross⟩ := hsorted
  rw [hsplit, List.nodup_append, List.nodup_cons] at hLnodup
  obtain ⟨-, ⟨hnotBehind, -⟩, hapart⟩ := hLnodup
  have hinit : (L.take m).filter (after L[m]) = [] := by
    rw [List.filter_eq_nil_iff]
    intro x hx hafter
    have hne : x ≠ L[m] := hapart x hx L[m] List.mem_cons_self
    have hcut := h x (hmemS x (List.mem_of_mem_take hx)) hne
    exact hcut.1 ⟨hcut.2.mp hafter, hcross x hx L[m] List.mem_cons_self⟩
  have hrest : (L.drop (m + 1)).filter (after L[m]) = L.drop (m + 1) := by
    rw [List.filter_eq_self]
    intro x hx
    have hne : x ≠ L[m] := fun heq => hnotBehind (heq ▸ hx)
    exact (h x (hmemS x (List.mem_of_mem_drop hx)) hne).2.mpr (hbehind x hx)
  calc L.filter (after L[m])
      = (L.take m ++ L[m] :: L.drop (m + 1)).filter (after L[m]) := congrArg _ hsplit
    _ = L.drop (m + 1) := by
        rw [List.filter_append, hinit, List.nil_append, List.filter_cons, hirrefl]
        simpa using hrest

omit hbefore hbeforeTrans in
/-- The position behind it is no tie. -/
theorem Cuts.separated {c : α} (h : Cuts before after S c) (hnodup : S.Nodup) (hL : Answers before S L)
    {m : ℕ} (hm : 0 < m) (hc : L[m - 1]? = some c) : Separated before L m := by
  intro a b ha hb hba
  obtain rfl := Option.some.inj (hc.symm.trans ha)
  obtain ⟨ha', hac⟩ := List.getElem?_eq_some_iff.mp ha
  obtain ⟨hb', hbd⟩ := List.getElem?_eq_some_iff.mp hb
  have hne : b ≠ c := by
    intro heq
    have hij := (List.Nodup.getElem_inj_iff (hL.perm.nodup_iff.mpr hnodup)).mp
      ((hbd.trans heq).trans hac.symm)
    omega
  have hcb : before c b := by
    have hlt : m - 1 < m := by omega
    have hpair := List.pairwise_iff_getElem.mp hL.sorted (m - 1) m ha' hb' hlt
    rwa [hac, hbd] at hpair
  exact (h b (hL.perm.mem_iff.mp (List.mem_of_getElem? hb)) hne).1 ⟨hcb, hba⟩

/-- Behind boundaries that cut, all answers have the same elements. -/
theorem drop_perm_drop (hnodup : S.Nodup) (hL₀ : Answers before S L₀) (hL : Answers before S L) {k : ℕ}
    (hlimit : 1 ≤ limit)
    (hcut : 0 < k → k * limit < S.length → ∀ c, L₀[k * limit - 1]? = some c → Cuts before after S c) :
    (L₀.drop (k * limit)).Perm (L.drop (k * limit)) := by
  have hwhole : L₀.Perm L := hL₀.perm.trans hL.perm.symm
  rcases Nat.eq_zero_or_pos k with rfl | hk
  · simpa using hwhole
  · have hpos : 0 < k * limit := Nat.mul_pos hk hlimit
    rcases Nat.lt_or_ge (k * limit) S.length with hlt | hge
    · obtain ⟨c, hc⟩ : ∃ c, L₀[k * limit - 1]? = some c :=
        ⟨_, List.getElem?_eq_getElem (by rw [hL₀.perm.length_eq]; omega)⟩
      have hsep := (hcut hk hlt c hc).separated hnodup hL₀ hpos hc
      have htake := take_perm_take hbefore hbeforeTrans hL₀ hL hpos hsep
      rw [← List.take_append_drop (k * limit) L₀, ← List.take_append_drop (k * limit) L] at hwhole
      exact (List.perm_append_left_iff _).mp ((htake.symm.append_right _).trans hwhole)
    · rw [List.drop_eq_nil_of_le (by rw [hL₀.perm.length_eq]; exact hge),
        List.drop_eq_nil_of_le (by rw [hL.perm.length_eq]; exact hge)]

/-- With boundaries that cut, the pages from query number `i` on are what comes there. -/
theorem answers_of_walk (hirrefl : ∀ x, after x x = false) (hnodup : S.Nodup) (hlimit : 1 ≤ limit)
    (hanswer : ∀ i, Answers before S (answer i)) (hL₀ : Answers before S L₀)
    (hcut : ∀ k, 0 < k → k * limit < S.length → ∀ c, L₀[k * limit - 1]? = some c → Cuts before after S c)
    {fuel i : ℕ} {boundary : Option α} {pages : List (List α)}
    (h : walk answer after limit fuel i boundary = some pages)
    (hselection : selection after (answer i) boundary = (answer i).drop (i * limit)) :
    Answers before (L₀.drop (i * limit)) pages.flatten := by
  induction fuel generalizing i boundary pages with
  | zero => cases h
  | succ fuel ih =>
      have hsucc : (i + 1) * limit = i * limit + limit := Nat.succ_mul i limit
      have hlength : ∀ j, (answer j).length = S.length := fun j => (hanswer j).perm.length_eq
      have hperm := fun j => drop_perm_drop hbefore hbeforeTrans hnodup hL₀ (hanswer i) hlimit (hcut j)
      have hsorted : ((answer i).drop (i * limit)).Pairwise before := (hanswer i).sorted.drop
      rcases Nat.lt_or_ge limit ((answer i).drop (i * limit)).length with hlt | hle
      · have hbound : (i + 1) * limit < S.length := by
          rw [List.length_drop, hlength] at hlt
          omega
        obtain ⟨c, hc⟩ : ∃ c, L₀[(i + 1) * limit - 1]? = some c :=
          ⟨_, List.getElem?_eq_getElem (by rw [hL₀.perm.length_eq]; omega)⟩
        have hcuts := hcut (i + 1) (Nat.succ_pos i) hbound c hc
        have hplace := fun j => hcuts.getElem?_eq hbefore hbeforeTrans hL₀ (hanswer j) hc
        have hlast : ((answer i).drop (i * limit))[limit - 1]? = some c := by
          rw [List.getElem?_drop, ← hplace i]
          congr 1
          omega
        rw [walk_of_lt_length hlimit hselection hlt hlast, Option.map_eq_some_iff] at h
        obtain ⟨rest, hrest, rfl⟩ := h
        have hnext := hcuts.filter_eq_drop hirrefl hnodup (hanswer (i + 1)) (hplace (i + 1))
        rw [Nat.sub_add_cancel (by omega)] at hnext
        have hih := ih hrest hnext
        have hpage : (answer i).drop (i * limit)
            = ((answer i).drop (i * limit)).take limit ++ (answer i).drop ((i + 1) * limit) := by
          rw [hsucc, ← List.drop_drop, List.take_append_drop]
        have hmove : rest.flatten.Perm ((answer i).drop ((i + 1) * limit)) := hih.perm.trans (hperm (i + 1))
        rw [hpage, List.pairwise_append] at hsorted
        rw [List.flatten_cons]
        constructor
        · refine (hmove.append_left _).trans ?_
          rw [← hpage]
          exact (hperm i).symm
        · rw [List.pairwise_append]
          exact ⟨hsorted.1, hih.sorted, fun x hx y hy => hsorted.2.2 x hx y (hmove.mem_iff.mp hy)⟩
      · rw [walk_of_length_le (by rw [hselection]; exact hle), Option.some.injEq] at h
        subst h
        rw [hselection, List.flatten_cons, List.flatten_nil, List.append_nil]
        exact ⟨(hperm i).symm, hsorted⟩

end Cuts

/-! ## Boundaries that do not cut -/

section Necessary

variable {L₀ L : List α}

/-- The walk starts with the first element that is selected. -/
theorem head_mem_walk (hlimit : 1 ≤ limit) {fuel i : ℕ} {boundary : Option α} {pages : List (List α)}
    (h : walk answer after limit fuel i boundary = some pages) {a : α} {W : List α}
    (hselection : selection after (answer i) boundary = a :: W) : a ∈ pages.flatten := by
  obtain ⟨fuel, rfl⟩ := exists_succ_of_walk h
  rcases Nat.lt_or_ge limit (a :: W).length with hlt | hle
  · obtain ⟨d, hd⟩ : ∃ d, (a :: W)[limit - 1]? = some d := ⟨_, List.getElem?_eq_getElem (by omega)⟩
    rw [walk_of_lt_length hlimit hselection hlt hd, Option.map_eq_some_iff] at h
    obtain ⟨rest, -, rfl⟩ := h
    obtain ⟨n, rfl⟩ : ∃ n, limit = n + 1 := ⟨limit - 1, by omega⟩
    simp
  · rw [walk_of_length_le (by rw [hselection]; exact hle), Option.some.injEq, hselection] at h
    subst h
    simp

/-- Where one answer serves all queries and the first boundaries cut, the first pages are what comes
first. -/
theorem walk_const_prefix (hirrefl : ∀ x, after x x = false) (hnodup : S.Nodup) (hlimit : 1 ≤ limit)
    (hL : Answers before S L) {fuel : ℕ} {pages : List (List α)}
    (h : walk (fun _ => L) after limit fuel 0 none = some pages) {j : ℕ} (hj : j * limit < S.length)
    (hcut : ∀ k, 0 < k → k ≤ j → ∀ c, L[k * limit - 1]? = some c → Cuts before after S c) :
    ∃ fuel' boundary rest, walk (fun _ => L) after limit fuel' j boundary = some rest ∧
      selection after L boundary = L.drop (j * limit) ∧
      pages.flatten = L.take (j * limit) ++ rest.flatten := by
  induction j with
  | zero => exact ⟨fuel, none, pages, h, by simp [selection], by simp⟩
  | succ j ih =>
      have hsucc : (j + 1) * limit = j * limit + limit := Nat.succ_mul j limit
      obtain ⟨fuel', boundary, rest, hrest, hselection, hflatten⟩ :=
        ih (by omega) fun k hk hle => hcut k hk (by omega)
      obtain ⟨fuel', rfl⟩ := exists_succ_of_walk hrest
      have hlength : L.length = S.length := hL.perm.length_eq
      have hlt : limit < (L.drop (j * limit)).length := by
        rw [List.length_drop]
        omega
      obtain ⟨c, hc⟩ : ∃ c, (L.drop (j * limit))[limit - 1]? = some c :=
        ⟨_, List.getElem?_eq_getElem (by omega)⟩
      have hplace : L[(j + 1) * limit - 1]? = some c := by
        rw [List.getElem?_drop] at hc
        rw [← hc]
        congr 1
        omega
      rw [walk_of_lt_length hlimit hselection hlt hc, Option.map_eq_some_iff] at hrest
      obtain ⟨rest', hrest', rfl⟩ := hrest
      refine ⟨fuel', some c, rest', hrest', ?_, ?_⟩
      · have hdrop := (hcut (j + 1) (Nat.succ_pos j) (Nat.le_refl _) c hplace).filter_eq_drop hirrefl hnodup
          hL hplace
        rw [Nat.sub_add_cancel (by omega)] at hdrop
        exact hdrop
      · rw [hflatten, List.flatten_cons, ← List.append_assoc, ← take_append_page, page_succ]

/-- A boundary of a complete walk selects what comes behind it in the answer, and nothing else. -/
theorem selects_iff_of_complete (hirrefl : ∀ x, after x x = false)
    (htrans : ∀ x y z, after x y = true → after y z = true → after x z = true) (hnodup : S.Nodup)
    (hlimit : 1 ≤ limit) (hL : Answers before S L) {fuel : ℕ} {pages : List (List α)}
    (h : walk (fun _ => L) after limit fuel 0 none = some pages) (hcomplete : Complete before S pages)
    {j : ℕ} (hj : (j + 1) * limit < S.length)
    (hcut : ∀ k, 0 < k → k ≤ j → ∀ c, L[k * limit - 1]? = some c → Cuts before after S c) {c : α}
    (hc : L[(j + 1) * limit - 1]? = some c) :
    (∀ x ∈ L.drop ((j + 1) * limit), after c x = true) ∧
      ∀ x ∈ L.take ((j + 1) * limit), after c x = false := by
  have hsucc : (j + 1) * limit = j * limit + limit := Nat.succ_mul j limit
  have hlength : L.length = S.length := hL.perm.length_eq
  obtain ⟨fuel', boundary, rest, hrest, hselection, hflatten⟩ :=
    walk_const_prefix hirrefl hnodup hlimit hL h (by omega) hcut
  obtain ⟨fuel', rfl⟩ := exists_succ_of_walk hrest
  have hlt : limit < (L.drop (j * limit)).length := by
    rw [List.length_drop]
    omega
  have hlast : (L.drop (j * limit))[limit - 1]? = some c := by
    rw [List.getElem?_drop, ← hc]
    congr 1
    omega
  rw [walk_of_lt_length hlimit hselection hlt hlast, Option.map_eq_some_iff] at hrest
  obtain ⟨further, hfurther, rfl⟩ := hrest
  -- the pages behind the boundary are what is left
  have hbehind : further.flatten.Perm (L.drop ((j + 1) * limit)) := by
    have hperm := hcomplete.perm.trans hL.perm.symm
    rw [hflatten, List.flatten_cons, ← List.append_assoc, ← page_succ, take_append_page] at hperm
    rw [← List.perm_append_left_iff (L.take ((j + 1) * limit)), List.take_append_drop]
    exact hperm
  constructor
  · intro x hx
    exact (mem_selection_of_mem_walk htrans hlimit (fun _ => hL.perm) hfurther
      (hbehind.mem_iff.mpr hx)).2
  · intro x hx
    by_contra hafter
    rw [Bool.not_eq_false] at hafter
    have hmem : x ∈ (L.take ((j + 1) * limit)).filter (after c) := List.mem_filter.mpr ⟨hx, hafter⟩
    obtain ⟨a, A, hA⟩ := List.exists_cons_of_ne_nil (List.ne_nil_of_mem hmem)
    have hselected : selection after L (some c) = a :: (A ++ (L.drop ((j + 1) * limit)).filter (after c)) := by
      rw [← List.cons_append, ← hA, ← List.filter_append, List.take_append_drop]
      rfl
    have hfirst : a ∈ L.drop ((j + 1) * limit) :=
      hbehind.mem_iff.mp (head_mem_walk hlimit hfurther hselected)
    have htaken : a ∈ L.take ((j + 1) * limit) :=
      (List.mem_filter.mp (show a ∈ (L.take ((j + 1) * limit)).filter (after c) by rw [hA]; simp)).1
    have hapart := hL.perm.nodup_iff.mpr hnodup
    rw [← List.take_append_drop ((j + 1) * limit) L, List.nodup_append] at hapart
    exact hapart.2.2 a htaken a hfirst rfl

/-- Two tied elements can change places, wherever they stand. -/
theorem Answers.map_swap [DecidableEq α] (hbefore : ∀ a b, before a b ∨ before b a)
    (hbeforeTrans : ∀ a b c, before a b → before b c → before a c) (hnodup : S.Nodup)
    (hL : Answers before S L) {c x : α} (hc : c ∈ S) (hx : x ∈ S) (hcx : before c x) (hxc : before x c) :
    Answers before S (L.map (Equiv.swap c x)) := by
  have hrefl : ∀ a, before a a := fun a => (hbefore a a).elim id id
  have htied : ∀ a, before (Equiv.swap c x a) a ∧ before a (Equiv.swap c x a) := by
    intro a
    rw [Equiv.swap_apply_def]
    split_ifs with hac hax
    · rw [hac]
      exact ⟨hxc, hcx⟩
    · rw [hax]
      exact ⟨hcx, hxc⟩
    · exact ⟨hrefl a, hrefl a⟩
  constructor
  · have hLnodup : L.Nodup := hL.perm.nodup_iff.mpr hnodup
    refine (List.perm_ext_iff_of_nodup (hLnodup.map (Equiv.injective _)) hnodup).mpr fun y => ?_
    rw [List.mem_map]
    constructor
    · rintro ⟨a, ha, rfl⟩
      rw [Equiv.swap_apply_def]
      split_ifs
      · exact hx
      · exact hc
      · exact hL.perm.mem_iff.mp ha
    · intro hy
      refine ⟨Equiv.swap c x y, hL.perm.mem_iff.mpr ?_, Equiv.swap_apply_self c x y⟩
      rw [Equiv.swap_apply_def]
      split_ifs
      · exact hx
      · exact hc
      · exact hy
  · rw [List.pairwise_map]
    refine hL.sorted.imp fun {a b} hab => ?_
    exact hbeforeTrans _ _ _ (htied a).1 (hbeforeTrans _ _ _ hab (htied b).2)

end Necessary

/-- Every walk is complete, whatever answers its queries get, if and only if each page but the last ends in
an element that cuts. -/
theorem walk_complete_iff (hbefore : ∀ a b, before a b ∨ before b a)
    (hbeforeTrans : ∀ a b c, before a b → before b c → before a c) (hirrefl : ∀ x, after x x = false)
    (htrans : ∀ x y z, after x y = true → after y z = true → after x z = true)
    (htotal : ∀ x ∈ S, ∀ y ∈ S, x ≠ y → after x y = true ∨ after y x = true) (hnodup : S.Nodup)
    (hlimit : 1 ≤ limit) {L₀ : List α} (hL₀ : Answers before S L₀) :
    (∀ answer : ℕ → List α, (∀ i, Answers before S (answer i)) →
        ∃ fuel pages, walk answer after limit fuel 0 none = some pages ∧ Complete before S pages) ↔
      ∀ k, 0 < k → k * limit < S.length → ∀ c, L₀[k * limit - 1]? = some c → Cuts before after S c := by
  classical
  constructor
  · intro hall k
    induction k using Nat.strong_induction_on with
    | _ k ih =>
        intro hk hlt c hc
        obtain ⟨j, rfl⟩ : ∃ j, k = j + 1 := ⟨k - 1, by omega⟩
        have hpos : 0 < (j + 1) * limit := Nat.mul_pos hk hlimit
        -- the boundary of a walk over one answer selects exactly what comes behind it
        have hexact : ∀ {L : List α}, Answers before S L → ∀ {d : α}, L[(j + 1) * limit - 1]? = some d →
            (∀ x ∈ L.drop ((j + 1) * limit), after d x = true) ∧
              ∀ x ∈ L.take ((j + 1) * limit), after d x = false := by
          intro L hL d hd
          obtain ⟨fuel, pages, hwalk, hcomplete⟩ := hall (fun _ => L) fun _ => hL
          refine selects_iff_of_complete hirrefl htrans hnodup hlimit hL hwalk hcomplete hlt ?_ hd
          intro k' hk' hle e he
          have hmul : k' * limit ≤ (j + 1) * limit := Nat.mul_le_mul_right limit (by omega)
          have hlength : L.length = L₀.length := (hL.perm.trans hL₀.perm.symm).length_eq
          obtain ⟨e₀, he₀⟩ : ∃ e₀, L₀[k' * limit - 1]? = some e₀ :=
            ⟨_, List.getElem?_eq_getElem (by
              have := (List.getElem?_eq_some_iff.mp he).1
              omega)⟩
          have hcuts := ih k' (by omega) hk' (by omega) e₀ he₀
          have hplace := hcuts.getElem?_eq hbefore hbeforeTrans hL₀ hL he₀
          obtain rfl := Option.some.inj (hplace.symm.trans he)
          exact hcuts
        obtain ⟨hbehind, hahead⟩ := hexact hL₀ hc
        have hcS : c ∈ S := hL₀.perm.mem_iff.mp (List.mem_of_getElem? hc)
        have hctake : c ∈ L₀.take ((j + 1) * limit) := by
          apply List.mem_of_getElem? (i := (j + 1) * limit - 1)
          rw [List.getElem?_take, if_pos (by omega), hc]
        -- a tied element could stand in its place, and then it would have to select `c`, or not, as well
        have huntied : ∀ x ∈ S, x ≠ c → ¬ (before c x ∧ before x c) := by
          rintro x hxS hne ⟨hcx, hxc⟩
          have hswap : Answers before S (L₀.map (Equiv.swap c x)) :=
            Answers.map_swap hbefore hbeforeTrans hnodup hL₀ hcS hxS hcx hxc
          have hplace : (L₀.map (Equiv.swap c x))[(j + 1) * limit - 1]? = some x := by
            rw [List.getElem?_map, hc, Option.map_some, Equiv.swap_apply_left]
          obtain ⟨hbehind', hahead'⟩ := hexact hswap hplace
          rw [List.map_drop.symm] at hbehind'
          rw [List.map_take.symm] at hahead'
          have hasymm : ¬ (after c x = true ∧ after x c = true) := by
            rintro ⟨h₁, h₂⟩
            have hself := htrans c x c h₁ h₂
            rw [hirrefl] at hself
            cases hself
          have hmem : x ∈ L₀ := hL₀.perm.mem_iff.mpr hxS
          rw [← List.take_append_drop ((j + 1) * limit) L₀, List.mem_append] at hmem
          rcases hmem with hmem | hmem
          · have hcx' := hahead x hmem
            have hxc' := hahead' c (List.mem_map.mpr ⟨x, hmem, Equiv.swap_apply_right c x⟩)
            rcases htotal c hcS x hxS (Ne.symm hne) with h | h
            · rw [hcx'] at h
              cases h
            · rw [hxc'] at h
              cases h
          · exact hasymm ⟨hbehind x hmem, hbehind' c (List.mem_map.mpr ⟨x, hmem, Equiv.swap_apply_right c x⟩)⟩
        intro x hxS hne
        refine ⟨huntied x hxS hne, ?_⟩
        have hsorted := hL₀.sorted
        have hmem : x ∈ L₀ := hL₀.perm.mem_iff.mpr hxS
        rw [← List.take_append_drop ((j + 1) * limit) L₀] at hsorted hmem
        rw [List.pairwise_append] at hsorted
        rw [List.mem_append] at hmem
        rcases hmem with hmem | hmem
        · -- up to the boundary nothing is selected, and everything comes before `c`
          have hxc : before x c := by
            obtain ⟨n, hn, rfl⟩ := List.getElem_of_mem hmem
            obtain ⟨hm, hcm⟩ := List.getElem?_eq_some_iff.mp hc
            rw [List.length_take] at hn
            rw [List.getElem_take]
            rcases Nat.eq_or_lt_of_le (show n ≤ (j + 1) * limit - 1 by omega) with heq | hlt'
            · exact absurd (by rw [List.getElem_take, ← hcm]; simp only [heq]) hne
            · have hpair := List.pairwise_iff_getElem.mp hL₀.sorted n _ (by omega) hm hlt'
              rwa [hcm] at hpair
          rw [hahead x hmem]
          exact iff_of_false Bool.false_ne_true fun hcx => huntied x hxS hne ⟨hcx, hxc⟩
        · exact iff_of_true (hbehind x hmem) (hsorted.2.2 c hctake x hmem)
  · intro hcut answer hanswer
    obtain ⟨pages, hpages⟩ := exists_walk hirrefl htrans hlimit (fun i => (hanswer i).perm) 0 none
      (Nat.lt_succ_self _)
    refine ⟨_, pages, hpages, ?_⟩
    have hwalk := answers_of_walk hbefore hbeforeTrans hirrefl hnodup hlimit hanswer hL₀ hcut hpages
      (by simp [selection])
    rw [Nat.zero_mul, List.drop_zero] at hwalk
    exact ⟨hwalk.perm.trans hL₀.perm, hwalk.sorted⟩

end ApexChainx.Lib.KeysetPaging
