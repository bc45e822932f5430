import Mathlib.Data.List.Nodup
import Mathlib.Data.List.Sort

/-!
# Offset paging

The rows `S` are asked for page by page, in an order `before` that may leave some of them tied. Every page
is a query of its own, and is cut out of whatever answer that query gets: any arrangement of the rows that
the order allows (`Answers`).

`pages_perm_iff` says when the pages have each row exactly once, however the ties are broken: exactly when
no page boundary falls between two tied rows.
-/

namespace ApexChainx.Lib.OffsetPaging

variable {α : Type*}

/-- An answer to a query for the rows `S`: all of them, in an order that `before` allows. -/
structure Answers (before : α → α → Prop) (S L : List α) : Prop where
  perm : L.Perm S
  sorted : L.Pairwise before

/-- Page number `p` of an answer, counted from 1. -/
def page (size p : ℕ) (L : List α) : List α := (L.drop ((p - 1) * size)).take size

/-- The number of pages. -/
def pageCount (size total : ℕ) : ℕ := (total + size - 1) / size

/-- The first `n` pages one after the other, each out of the answer to its own query. -/
def pages (size : ℕ) (answer : ℕ → List α) (n : ℕ) : List α :=
  (List.range n).flatMap fun k => page size (k + 1) (answer (k + 1))

/-- Positions `m - 1` and `m` are not tied. -/
def Separated (before : α → α → Prop) (L : List α) (m : ℕ) : Prop :=
  ∀ a b, L[m - 1]? = some a → L[m]? = some b → ¬ before b a

/-! ## Pages of one answer -/

theorem page_succ (size k : ℕ) (L : List α) : page size (k + 1) L = (L.drop (k * size)).take size := rfl

/-- A page extends the pages before it. -/
theorem take_append_page (size k : ℕ) (L : List α) :
    L.take (k * size) ++ page size (k + 1) L = L.take ((k + 1) * size) := by
  rw [page_succ, Nat.succ_mul, ← List.take_add]

theorem length_le_pageCount_mul {size : ℕ} (hsize : 1 ≤ size) (total : ℕ) :
    total ≤ pageCount size total * size := by
  have hmod := Nat.div_add_mod (total + size - 1) size
  have hlt := Nat.mod_lt (total + size - 1) (Nat.lt_of_lt_of_le Nat.zero_lt_one hsize)
  rw [Nat.mul_comm] at hmod
  unfold pageCount
  omega

theorem lt_pageCount {size total k : ℕ} (hsize : 1 ≤ size) : k < pageCount size total ↔ k * size < total := by
  unfold pageCount
  rw [Nat.lt_iff_add_one_le, Nat.le_div_iff_mul_le hsize, Nat.succ_mul]
  omega

theorem page_eq_nil_iff {size p : ℕ} (hsize : 1 ≤ size) {L : List α} :
    page size p L = [] ↔ L.length ≤ (p - 1) * size := by
  rw [page, List.take_eq_nil_iff, List.drop_eq_nil_iff]
  omega

theorem pages_succ (size : ℕ) (answer : ℕ → List α) (n : ℕ) :
    pages size answer (n + 1) = pages size answer n ++ page size (n + 1) (answer (n + 1)) := by
  simp only [pages, List.range_succ, List.flatMap_append, List.flatMap_singleton]

/-- The pages of one answer put together. -/
theorem pages_const (size : ℕ) (L : List α) (n : ℕ) : pages size (fun _ => L) n = L.take (n * size) := by
  induction n with
  | zero => simp [pages]
  | succ n ih => rw [pages_succ, ih, take_append_page]

theorem pages_pageCount {size : ℕ} (hsize : 1 ≤ size) (L : List α) :
    pages size (fun _ => L) (pageCount size L.length) = L := by
  rw [pages_const, List.take_of_length_le (length_le_pageCount_mul hsize L.length)]

/-! ## Arrangements of the same rows -/

section Arrangements

variable {before : α → α → Prop} {S L L' : List α}

/-- A sorted list starts with the elements that a downward closed property selects. -/
theorem filter_append_filter {p : α → Bool} (hsorted : L.Pairwise before)
    (hp : ∀ a b, before a b → p b = true → p a = true) :
    L.filter p ++ L.filter (fun a => !p a) = L := by
  induction hsorted with
  | nil => rfl
  | @cons a L hhead _ ih =>
      cases ha : p a with
      | true => simp only [List.filter_cons, ha, if_true, Bool.not_true, Bool.false_eq_true, if_false,
          List.cons_append, ih]
      | false =>
          have hnone : ∀ b ∈ L, p b = false := by
            intro b hb
            by_contra hpb
            rw [hp a b (hhead b hb) (by simpa using hpb)] at ha
            cases ha
          have hfilter : L.filter p = [] := by
            rw [List.filter_eq_nil_iff]
            intro b hb
            simp [hnone b hb]
          rw [hfilter, List.nil_append] at ih
          simp only [List.filter_cons, ha, Bool.false_eq_true, if_false, hfilter, Bool.not_false, if_true,
            List.nil_append, ih]

variable (htotal : ∀ a b, before a b ∨ before b a)
  (htrans : ∀ a b c, before a b → before b c → before a c)
include htotal htrans

/-- What stands in one place of two arrangements is tied. -/
theorem before_of_getElem? (hL : Answers before S L) (hL' : Answers before S L') {m : ℕ} {x y : α}
    (hx : L[m]? = some x) (hy : L'[m]? = some y) : before y x := by
  classical
  -- the elements up to `x` come first in both arrangements, and there are more than `m` of them
  set p : α → Bool := fun z => decide (before z x) with hp
  have hdown : ∀ a b, before a b → p b = true → p a = true := by
    intro a b hab hb
    exact decide_eq_true (htrans a b x hab (of_decide_eq_true hb))
  have hrefl : ∀ a, before a a := fun a => (htotal a a).elim id id
  obtain ⟨hm, rfl⟩ := List.getElem?_eq_some_iff.mp hx
  have hcount : m + 1 ≤ (L.filter p).length := by
    have htake : (L.take (m + 1)).filter p = L.take (m + 1) := by
      rw [List.filter_eq_self]
      intro z hz
      obtain ⟨i, hi, rfl⟩ := List.getElem_of_mem hz
      rw [List.length_take] at hi
      rw [List.getElem_take]
      refine decide_eq_true ?_
      rcases Nat.lt_or_ge i m with hlt | hge
      · exact List.pairwise_iff_getElem.mp hL.sorted i m (by omega) hm hlt
      · obtain rfl : i = m := by omega
        exact hrefl _
    calc m + 1 = (L.take (m + 1)).length := by rw [List.length_take]; omega
      _ = ((L.take (m + 1)).filter p).length := by rw [htake]
      _ ≤ (L.filter p).length := ((List.take_sublist _ _).filter p).length_le
  have hsame : (L'.filter p).length = (L.filter p).length :=
    ((hL'.perm.trans hL.perm.symm).filter p).length_eq
  rw [← filter_append_filter hL'.sorted hdown, List.getElem?_append_left (by omega)] at hy
  exact of_decide_eq_true (List.mem_filter.mp (List.mem_of_getElem? hy)).2

/-- Whether two positions are tied does not depend on the arrangement. -/
theorem Separated.congr (hL : Answers before S L) (hL' : Answers before S L') {m : ℕ}
    (h : Separated before L m) : Separated before L' m := by
  intro a' b' ha' hb' htied
  have hlength : L'.length = L.length := (hL'.perm.trans hL.perm.symm).length_eq
  have hm : m < L'.length := (List.getElem?_eq_some_iff.mp hb').1
  obtain ⟨a, ha⟩ : ∃ a, L[m - 1]? = some a := ⟨_, List.getElem?_eq_getElem (by omega)⟩
  obtain ⟨b, hb⟩ : ∃ b, L[m]? = some b := ⟨_, List.getElem?_eq_getElem (by omega)⟩
  have hbb' : before b b' := before_of_getElem? htotal htrans hL' hL hb' hb
  have haa' : before a' a := before_of_getElem? htotal htrans hL hL' ha ha'
  exact h a b ha hb (htrans b b' a hbb' (htrans b' a' a htied haa'))

/-- Up to a boundary without a tie, all arrangements have the same rows. -/
theorem take_perm_take (hL : Answers before S L) (hL' : Answers before S L') {m : ℕ} (hm : 0 < m)
    (h : Separated before L m) : (L.take m).Perm (L'.take m) := by
  classical
  have hlength : L'.length = L.length := (hL'.perm.trans hL.perm.symm).length_eq
  rcases Nat.lt_or_ge m L.length with hlt | hge
  · obtain ⟨a, ha⟩ : ∃ a, L[m - 1]? = some a := ⟨_, List.getElem?_eq_getElem (by omega)⟩
    set p : α → Bool := fun z => decide (before z a) with hp
    have hdown : ∀ x y, before x y → p y = true → p x = true := by
      intro x y hxy hy
      exact decide_eq_true (htrans x y a hxy (of_decide_eq_true hy))
    -- in every arrangement the first `m` rows are those up to `a`
    have htake : ∀ {M : List α}, Answers before S M → M.take m = M.filter p := by
      intro M hM
      have hlen : M.length = L.length := (hM.perm.trans hL.perm.symm).length_eq
      obtain ⟨x, hx⟩ : ∃ x, M[m - 1]? = some x := ⟨_, List.getElem?_eq_getElem (by omega)⟩
      obtain ⟨y, hy⟩ : ∃ y, M[m]? = some y := ⟨_, List.getElem?_eq_getElem (by omega)⟩
      have hsep := Separated.congr htotal htrans hL hM h x y hx hy
      have hsplit := filter_append_filter hM.sorted hdown
      have hxp : before x a := before_of_getElem? htotal htrans hL hM ha hx
      have hyp : ¬ before y a := fun hya =>
        hsep (htrans y a x hya (before_of_getElem? htotal htrans hM hL hx ha))
      have hcount : (M.filter p).length = m := by
        refine Nat.le_antisymm ?_ ?_
        · by_contra hlong
          rw [← hsplit, List.getElem?_append_left (by omega)] at hy
          exact hyp (of_decide_eq_true (List.mem_filter.mp (List.mem_of_getElem? hy)).2)
        · by_contra hshort
          rw [← hsplit, List.getElem?_append_right (by omega)] at hx
          have hnot := (List.mem_filter.mp (List.mem_of_getElem? hx)).2
          simp [hp, hxp] at hnot
      calc M.take m = (M.filter p ++ M.filter (fun z => !p z)).take m := by rw [hsplit]
        _ = M.filter p := by rw [← hcount, List.take_left']; rfl
    rw [htake hL, htake hL']
    exact (hL.perm.trans hL'.perm.symm).filter p
  · rw [List.take_of_length_le hge, List.take_of_length_le (by omega)]
    exact hL.perm.trans hL'.perm.symm

end Arrangements

/-! ## Pages of many answers -/

section Pages

variable {before : α → α → Prop} {S L₀ : List α} {size : ℕ}

/-- Two tied neighbours can change places. -/
theorem Answers.swap {L A B : List α} {a b : α} (hL : Answers before S L) (hsplit : L = A ++ a :: b :: B)
    (htied : before b a) : Answers before S (A ++ b :: a :: B) := by
  have hsorted := hL.sorted
  rw [hsplit, List.pairwise_append, List.pairwise_cons, List.pairwise_cons] at hsorted
  obtain ⟨hA, ⟨ha, hb, hB⟩, hcross⟩ := hsorted
  refine ⟨?_, ?_⟩
  · refine List.Perm.trans (List.Perm.append_left A (List.Perm.swap a b B)) ?_
    rw [← hsplit]
    exact hL.perm
  · rw [List.pairwise_append, List.pairwise_cons, List.pairwise_cons]
    refine ⟨hA, ⟨?_, fun x hx => ha x (List.mem_cons_of_mem b hx), hB⟩, ?_⟩
    · intro x hx
      rcases List.mem_cons.mp hx with rfl | hx
      · exact htied
      · exact hb x hx
    · intro x hx y hy
      refine hcross x hx y ?_
      simp only [List.mem_cons] at hy ⊢
      tauto

variable (htotal : ∀ a b, before a b ∨ before b a)
  (htrans : ∀ a b c, before a b → before b c → before a c)
include htotal htrans

/-- Without ties at the boundaries, the first pages have the rows that stand first. -/
theorem pages_perm_take {answer : ℕ → List α} (hanswer : ∀ p, Answers before S (answer p))
    (hL₀ : Answers before S L₀)
    (hsep : ∀ k, 0 < k → k * size < S.length → Separated before L₀ (k * size)) (n : ℕ) :
    (pages size answer n).Perm (L₀.take (n * size)) := by
  have hmove : ∀ k {L : List α}, Answers before S L →
      (L₀.take (k * size)).Perm (L.take (k * size)) := by
    intro k L hL
    rcases Nat.eq_zero_or_pos (k * size) with hzero | hpos
    · rw [hzero, List.take_zero, List.take_zero]
    · rcases Nat.lt_or_ge (k * size) S.length with hlt | hge
      · exact take_perm_take htotal htrans hL₀ hL hpos (hsep k (Nat.pos_of_mul_pos_right hpos) hlt)
      · rw [List.take_of_length_le (by rw [hL₀.perm.length_eq]; exact hge),
          List.take_of_length_le (by rw [hL.perm.length_eq]; exact hge)]
        exact hL₀.perm.trans hL.perm.symm
  induction n with
  | zero => simp [pages]
  | succ n ih =>
      have hnext := hanswer (n + 1)
      have hextend : (pages size answer n ++ page size (n + 1) (answer (n + 1))).Perm
          ((answer (n + 1)).take (n * size) ++ page size (n + 1) (answer (n + 1))) :=
        (ih.trans (hmove n hnext)).append_right _
      rw [pages_succ]
      rw [take_append_page] at hextend
      exact hextend.trans (hmove (n + 1) hnext).symm

/-- The pages have each row exactly once, however the ties are broken, if and only if no page boundary
falls between two tied rows. -/
theorem pages_perm_iff (hsize : 1 ≤ size) (hnodup : S.Nodup) (hL₀ : Answers before S L₀) :
    (∀ answer : ℕ → List α, (∀ p, Answers before S (answer p)) →
        (pages size answer (pageCount size S.length)).Perm S) ↔
      ∀ k, 0 < k → k * size < S.length → Separated before L₀ (k * size) := by
  constructor
  · intro hall k hk hlt a b ha hb htied
    have hlength : L₀.length = S.length := hL₀.perm.length_eq
    have hpos : 0 < k * size := Nat.mul_pos hk hsize
    have hdrop : L₀.drop (k * size - 1) = a :: b :: L₀.drop (k * size + 1) := by
      obtain ⟨ha', rfl⟩ := List.getElem?_eq_some_iff.mp ha
      obtain ⟨hb', rfl⟩ := List.getElem?_eq_some_iff.mp hb
      rw [List.drop_eq_getElem_cons ha']
      simp only [Nat.sub_add_cancel hpos]
      rw [List.drop_eq_getElem_cons hb']
    have hsplit : L₀ = L₀.take (k * size - 1) ++ a :: b :: L₀.drop (k * size + 1) := by
      rw [← hdrop, List.take_append_drop]
    -- the query behind the boundary gets the two tied rows the other way round
    set L := L₀.take (k * size - 1) ++ b :: a :: L₀.drop (k * size + 1) with hL
    have hswap : Answers before S L := hL₀.swap hsplit htied
    set answer : ℕ → List α := fun p => if p = k + 1 then L else L₀ with hanswer
    have hperm := hall answer fun p => by
      simp only [hanswer]
      split_ifs
      · exact hswap
      · exact hL₀
    have hpages : (pages size answer (pageCount size S.length)).Nodup := hperm.nodup_iff.mpr hnodup
    -- `a` ends page `k` and starts page `k + 1`
    have hfirst : a ∈ page size k (answer k) := by
      have hne : k ≠ k + 1 := by omega
      obtain ⟨j, rfl⟩ : ∃ j, k = j + 1 := ⟨k - 1, by omega⟩
      have hmul : (j + 1) * size = j * size + size := Nat.succ_mul j size
      simp only [hanswer, if_neg hne, page_succ]
      refine List.mem_of_getElem? (i := size - 1) ?_
      rw [List.getElem?_take, if_pos (by omega), List.getElem?_drop, ← ha]
      congr 1
      omega
    have hsecond : a ∈ page size (k + 1) (answer (k + 1)) := by
      have htake : (L₀.take (k * size - 1)).length = k * size - 1 := by
        rw [List.length_take]
        omega
      simp only [hanswer, if_true, page_succ]
      refine List.mem_of_getElem? (i := 0) ?_
      rw [List.getElem?_take, if_pos (by omega), List.getElem?_drop, Nat.add_zero, hL,
        List.getElem?_append_right (by omega), htake, show k * size - (k * size - 1) = 1 by omega]
      rfl
    obtain ⟨j, rfl⟩ : ∃ j, k = j + 1 := ⟨k - 1, by omega⟩
    have hcount : j + 1 < pageCount size S.length := (lt_pageCount hsize).mpr hlt
    have hdisjoint := (List.nodup_flatMap.mp hpages).2
    have hapart := List.pairwise_iff_getElem.mp hdisjoint j (j + 1) (by simp; omega) (by simp; omega)
      (Nat.lt_succ_self j)
    simp only [List.getElem_range, Function.onFun] at hapart
    exact hapart hfirst hsecond
  · intro hsep answer hanswer
    have hperm := pages_perm_take htotal htrans hanswer hL₀ hsep (pageCount size S.length)
    rw [List.take_of_length_le (by
      rw [hL₀.perm.length_eq]
      exact length_le_pageCount_mul hsize S.length)] at hperm
    exact hperm.trans hL₀.perm

end Pages

end ApexChainx.Lib.OffsetPaging
