import Mathlib.Data.List.Basic
import Mathlib.Order.Basic

/-!
# Keyset paging

A list is read page by page. The first page is its first `limit` elements; every further page is taken
from the elements of the list that `after c` selects, `c` being the last element of the page before. The
reading ends with the first page that exhausts what was selected.

`collect_flatten_iff` says when the pages put together are the list: exactly when at every page boundary
the selection is what follows the boundary. `exists_collect` says that the reading ends whenever `after`
is transitive and irreflexive.
-/

namespace ApexChainx.Lib.Paging

variable {α : Type*} (S : List α) (after : α → α → Bool) (limit : ℕ)

/-- The pages of `S`, the first one from the elements `W`. -/
def collect : ℕ → List α → Option (List (List α))
  | 0, _ => none
  | fuel + 1, W =>
      if W.length ≤ limit then some [W]
      else
        match (W.take limit).getLast? with
        | none => none
        | some c => (collect fuel (S.filter (after c))).map (W.take limit :: ·)

/-- A page that does not exhaust the selection ends with an element of it. -/
theorem collect_of_lt_length {limit : ℕ} (fuel : ℕ) {W : List α} (hlimit : 1 ≤ limit)
    (h : limit < W.length) : ∃ c, W[limit - 1]? = some c ∧ collect S after limit (fuel + 1) W
      = (collect S after limit fuel (S.filter (after c))).map (W.take limit :: ·) := by
  have hlast : (W.take limit).getLast? = W[limit - 1]? := by
    rw [List.getLast?_eq_getElem?, List.length_take, Nat.min_eq_left (by omega), List.getElem?_take,
      if_pos (by omega)]
  obtain ⟨c, hc⟩ : ∃ c, W[limit - 1]? = some c := ⟨_, List.getElem?_eq_getElem (by omega)⟩
  refine ⟨c, hc, ?_⟩
  rw [collect, if_neg (by omega), hlast, hc]

variable {S after limit}

theorem collect_of_length_le {fuel : ℕ} {W : List α} (h : W.length ≤ limit) :
    collect S after limit (fuel + 1) W = some [W] := if_pos h

/-- The pages start with the first element they were taken from. -/
theorem head_flatten_of_collect {fuel : ℕ} {W : List α} {pages : List (List α)} (hlimit : 1 ≤ limit)
    (h : collect S after limit fuel W = some pages) : pages.flatten.head? = W.head? := by
  cases fuel with
  | zero => cases h
  | succ fuel =>
      rcases Nat.lt_or_ge limit W.length with hlt | hle
      · obtain ⟨c, -, hcollect⟩ := collect_of_lt_length S after fuel hlimit hlt
        rw [hcollect, Option.map_eq_some_iff] at h
        obtain ⟨rest, -, rfl⟩ := h
        obtain ⟨w, W, rfl⟩ : ∃ w W', W = w :: W' :=
          List.exists_cons_of_length_pos (by omega)
        obtain ⟨n, rfl⟩ : ∃ n, limit = n + 1 := ⟨limit - 1, by omega⟩
        rfl
      · rw [collect_of_length_le hle, Option.some.injEq] at h
        subst h
        simp

/-- The reading ends: every selection is a proper part of the one before. -/
theorem exists_collect_of_filter (hlimit : 1 ≤ limit) (hirrefl : ∀ x, after x x = false)
    (htrans : ∀ x y z, after x y = true → after y z = true → after x z = true) {p : α → Bool}
    (hp : ∀ x y, p x = true → after x y = true → p y = true) {fuel : ℕ}
    (hfuel : (S.filter p).length < fuel) :
    ∃ pages, collect S after limit fuel (S.filter p) = some pages := by
  induction fuel generalizing p with
  | zero => cases hfuel
  | succ fuel ih =>
      rcases Nat.lt_or_ge limit (S.filter p).length with hlt | hle
      · obtain ⟨c, hc, hcollect⟩ :=
          collect_of_lt_length S after fuel hlimit hlt
        have hmem : c ∈ S.filter p := List.mem_of_getElem? hc
        have hpart : S.filter (after c) = (S.filter p).filter (after c) := by
          rw [List.filter_filter]
          refine List.filter_congr fun x _ => ?_
          cases hx : after c x with
          | false => simp
          | true => simp [hp c x (List.mem_filter.mp hmem).2 hx]
        have hshort : (S.filter (after c)).length < (S.filter p).length := by
          rw [hpart]
          exact List.length_filter_lt_length_iff_exists.mpr ⟨c, hmem, by simp [hirrefl c]⟩
        obtain ⟨rest, hrest⟩ := ih (htrans c) (by omega)
        exact ⟨_, by rw [hcollect, hrest, Option.map_some]⟩
      · exact ⟨_, collect_of_length_le hle⟩

theorem exists_collect (hlimit : 1 ≤ limit) (hirrefl : ∀ x, after x x = false)
    (htrans : ∀ x y z, after x y = true → after y z = true → after x z = true) :
    ∃ pages, collect S after limit (S.length + 1) S = some pages := by
  have hall : S.filter (fun _ => true) = S := List.filter_true S
  have h := exists_collect_of_filter (p := fun _ => true) hlimit hirrefl htrans
    (fun _ _ _ _ => rfl) (Nat.lt_succ_self (S.filter fun _ => true).length)
  rwa [hall] at h

/-- What the last element of each page that is not the last one selects is what follows it. -/
def Exact (S : List α) (after : α → α → Bool) (limit j : ℕ) : Prop :=
  ∀ k, j ≤ k → (k + 1) * limit < S.length → ∀ c, S[(k + 1) * limit - 1]? = some c →
    S.filter (after c) = S.drop ((k + 1) * limit)

/-- The same for the pages from the `j`-th on. -/
theorem collect_flatten_drop_iff (hlimit : 1 ≤ limit)
    (hsplit : ∀ n c, S[n]? = some c →
      S.filter (after c) = S.drop (n + 1) ∨ (S.filter (after c)).head? ≠ (S.drop (n + 1)).head?)
    {fuel j : ℕ} {pages : List (List α)}
    (h : collect S after limit fuel (S.drop (j * limit)) = some pages) :
    pages.flatten = S.drop (j * limit) ↔ Exact S after limit j := by
  induction fuel generalizing j pages with
  | zero => cases h
  | succ fuel ih =>
      have hsucc : (j + 1) * limit = j * limit + limit := Nat.succ_mul j limit
      rcases Nat.lt_or_ge limit (S.drop (j * limit)).length with hlt | hle
      · have hlength : (j + 1) * limit < S.length := by
          rw [List.length_drop] at hlt
          omega
        obtain ⟨c, hc, hcollect⟩ :=
          collect_of_lt_length S after fuel hlimit hlt
        rw [hcollect, Option.map_eq_some_iff] at h
        obtain ⟨rest, hrest, rfl⟩ := h
        have hcut : S.drop (j * limit) = (S.drop (j * limit)).take limit ++ S.drop ((j + 1) * limit) := by
          rw [hsucc, ← List.drop_drop, List.take_append_drop]
        have hflatten : ((S.drop (j * limit)).take limit :: rest).flatten = S.drop (j * limit) ↔
            rest.flatten = S.drop ((j + 1) * limit) := by
          rw [List.flatten_cons]
          constructor
          · intro heq
            exact List.append_cancel_left (heq.trans hcut)
          · intro heq
            rw [heq]
            exact hcut.symm
        have hlast : S[(j + 1) * limit - 1]? = some c := by
          rw [List.getElem?_drop] at hc
          rw [← hc]
          congr 1
          omega
        rw [hflatten]
        rcases hsplit _ c hlast with hexact | hother
        · rw [Nat.sub_add_cancel (by omega)] at hexact
          rw [hexact] at hrest
          rw [ih hrest]
          constructor
          · intro hrest k hk hbound c' hc'
            rcases Nat.eq_or_lt_of_le hk with rfl | hlt
            · rw [hlast, Option.some.injEq] at hc'
              subst hc'
              exact hexact
            · exact hrest k hlt hbound c' hc'
          · exact fun hall k hk => hall k (by omega)
        · -- the next page starts with another element than the one that follows
          rw [Nat.sub_add_cancel (by omega)] at hother
          constructor
          · intro heq
            rw [← heq, head_flatten_of_collect hlimit hrest] at hother
            exact absurd rfl hother
          · intro hall
            rw [hall j (Nat.le_refl j) hlength c hlast] at hother
            exact absurd rfl hother
      · rw [collect_of_length_le hle, Option.some.injEq] at h
        subst h
        rw [List.length_drop] at hle
        refine ⟨fun _ k hk hbound => ?_, fun _ => by simp⟩
        have hmul : (j + 1) * limit ≤ (k + 1) * limit := Nat.mul_le_mul_right _ (by omega)
        omega

/-- The pages put together are the list, if and only if every page but the last is followed by what
follows its last element. -/
theorem collect_flatten_iff (hlimit : 1 ≤ limit)
    (hsplit : ∀ n c, S[n]? = some c →
      S.filter (after c) = S.drop (n + 1) ∨ (S.filter (after c)).head? ≠ (S.drop (n + 1)).head?)
    {fuel : ℕ} {pages : List (List α)} (h : collect S after limit fuel S = some pages) :
    pages.flatten = S ↔ Exact S after limit 0 := by
  have hdrop := collect_flatten_drop_iff (j := 0) hlimit hsplit (by simpa using h)
  simpa using hdrop

/-- In a list that `after` orders strictly, an element selects what follows it. -/
theorem filter_after_eq_drop (hirrefl : ∀ x, after x x = false)
    (htrans : ∀ x y z, after x y = true → after y z = true → after x z = true)
    (hS : S.Pairwise fun x y => after x y = true) {n : ℕ} {c : α} (hc : S[n]? = some c) :
    S.filter (after c) = S.drop (n + 1) := by
  obtain ⟨hn, rfl⟩ := List.getElem?_eq_some_iff.mp hc
  have hsplit : S = S.take n ++ S[n] :: S.drop (n + 1) := by
    rw [List.getElem_cons_drop, List.take_append_drop]
  have hpairs := hS
  rw [hsplit, List.pairwise_append, List.pairwise_cons] at hpairs
  obtain ⟨-, ⟨hbehind, -⟩, hcross⟩ := hpairs
  have hahead : (S.take n).filter (after S[n]) = [] := by
    rw [List.filter_eq_nil_iff]
    intro x hx hafter
    have hself := htrans x S[n] x (hcross x hx S[n] List.mem_cons_self) hafter
    rw [hirrefl] at hself
    cases hself
  calc S.filter (after S[n])
      = (S.take n ++ S[n] :: S.drop (n + 1)).filter (after S[n]) := congrArg _ hsplit
    _ = S.drop (n + 1) := by
        rw [List.filter_append, hahead, List.nil_append, List.filter_cons, hirrefl, if_neg Bool.false_ne_true]
        exact List.filter_eq_self.mpr hbehind

/-- The pages of a list that `after` orders strictly are the list. -/
theorem exists_collect_flatten (hlimit : 1 ≤ limit) (hirrefl : ∀ x, after x x = false)
    (htrans : ∀ x y z, after x y = true → after y z = true → after x z = true)
    (hS : S.Pairwise fun x y => after x y = true) :
    ∃ pages, collect S after limit (S.length + 1) S = some pages ∧ pages.flatten = S := by
  obtain ⟨pages, hpages⟩ := exists_collect hlimit hirrefl htrans (S := S)
  have hselects : ∀ n c, S[n]? = some c → S.filter (after c) = S.drop (n + 1) :=
    fun n c hc => filter_after_eq_drop hirrefl htrans hS hc
  refine ⟨pages, hpages, (collect_flatten_iff hlimit (fun n c hc => .inl (hselects n c hc)) hpages).mpr ?_⟩
  intro k _ _ c hc
  have hpos : 0 < (k + 1) * limit := Nat.mul_pos (Nat.succ_pos k) hlimit
  rw [hselects _ c hc, Nat.sub_add_cancel hpos]

end ApexChainx.Lib.Paging
