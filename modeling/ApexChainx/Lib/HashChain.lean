import Mathlib.Data.List.Forall2
import Mathlib.Data.List.Induction

/-!
# Hash chains

A log whose entries each carry a link, the digest of the entry before, and a digest of their own, computed
over the link and the content. `Linked` says that links and digests are right from the first entry on.
Appending keeps it if the new entry is made for the tip; and when the digest is collision-free, two linked
logs of one length with the same tip have the same contents throughout.
-/

namespace ApexChainx.Lib

variable {ε δ : Type*}

/-- How the entries of a log are chained. -/
structure HashChain (ε δ : Type*) where
  link : ε → Option δ
  digest : ε → δ
  /-- The digest of an entry after a given tip. -/
  compute : Option δ → ε → δ

namespace HashChain

variable (c : HashChain ε δ)

/-- The entries are chained one to the other, the first one to `tip`. -/
def Linked : Option δ → List ε → Prop
  | _, [] => True
  | tip, e :: es => c.link e = tip ∧ c.digest e = c.compute tip e ∧ Linked (some (c.digest e)) es

/-- The digest the next entry is linked to. -/
def tip : Option δ → List ε → Option δ
  | start, [] => start
  | _, e :: es => tip (some (c.digest e)) es

variable {c}

theorem linked_append {start : Option δ} {es fs : List ε} :
    c.Linked start (es ++ fs) ↔ c.Linked start es ∧ c.Linked (c.tip start es) fs := by
  induction es generalizing start with
  | nil => simp [Linked, tip]
  | cons e es ih => simp only [List.cons_append, Linked, tip, ih, and_assoc]

theorem tip_append {start : Option δ} {es fs : List ε} :
    c.tip start (es ++ fs) = c.tip (c.tip start es) fs := by
  induction es generalizing start with
  | nil => rfl
  | cons e es ih => exact ih

/-- An entry made for the tip extends the chain. -/
theorem Linked.concat {start : Option δ} {es : List ε} {e : ε} (h : c.Linked start es)
    (hlink : c.link e = c.tip start es) (hdigest : c.digest e = c.compute (c.tip start es) e) :
    c.Linked start (es ++ [e]) :=
  linked_append.mpr ⟨h, hlink, hdigest, trivial⟩

theorem tip_eq_getLast? (es : List ε) : c.tip none es = es.getLast?.map c.digest := by
  cases es using List.reverseRecOn with
  | nil => rfl
  | append_singleton es e => simp [tip_append, tip]

theorem Linked.link_head {start : Option δ} {es : List ε} (h : c.Linked start es) :
    ∀ e ∈ es.head?, c.link e = start := by
  cases es with
  | nil =>
      intro e he
      cases he
  | cons e es =>
      intro f hf
      obtain rfl := Option.some.inj hf
      exact h.1

/-- In a chained log each link is the digest of the entry before. -/
theorem Linked.isChain {start : Option δ} {es : List ε} (h : c.Linked start es) :
    es.IsChain fun e f => c.link f = some (c.digest e) := by
  induction es generalizing start with
  | nil => exact .nil
  | cons e es ih =>
      obtain ⟨-, -, hrest⟩ := h
      cases es with
      | nil => exact .singleton e
      | cons f es => exact .cons_cons hrest.1 (ih hrest)

/-- Every entry of a chained log is linked to the start or to an entry of the log. -/
theorem Linked.link_mem {d : δ} {es : List ε} (h : c.Linked (some d) es) {e : ε} (he : e ∈ es) :
    ∃ d' ∈ d :: es.map c.digest, c.link e = some d' := by
  induction es generalizing d with
  | nil => cases he
  | cons f es ih =>
      rcases List.mem_cons.mp he with rfl | hmem
      · exact ⟨d, List.mem_cons_self, h.1⟩
      · obtain ⟨d', hd', hlink⟩ := ih h.2.2 hmem
        exact ⟨d', List.mem_cons_of_mem _ hd', hlink⟩

/-- Dropping entries from a chained log leaves it chained only if nothing that follows a dropped entry is
kept: the digests are distinct, so the entry after a gap is linked to none that is left. -/
theorem linked_filter_iff {p : ε → Bool} {start : Option δ} {es : List ε} (h : c.Linked start es)
    (hnodup : (es.map c.digest).Nodup) (hstart : ∀ e ∈ es, start ≠ some (c.digest e)) :
    c.Linked start (es.filter p) ↔ es.Pairwise fun e f => p f = true → p e = true := by
  induction es generalizing start with
  | nil => simp [Linked]
  | cons e es ih =>
      obtain ⟨hlink, hdigest, hrest⟩ := h
      rw [List.map_cons, List.nodup_cons] at hnodup
      have hnext : ∀ f ∈ es, some (c.digest e) ≠ some (c.digest f) := by
        intro f hf heq
        exact hnodup.1 (List.mem_map.mpr ⟨f, hf, (Option.some.inj heq).symm⟩)
      rw [List.pairwise_cons]
      by_cases hp : p e = true
      · rw [List.filter_cons_of_pos hp, Linked, ih hrest hnodup.2 hnext]
        constructor
        · rintro ⟨-, -, hpair⟩
          exact ⟨fun _ _ _ => hp, hpair⟩
        · rintro ⟨-, hpair⟩
          exact ⟨hlink, hdigest, hpair⟩
      · rw [List.filter_cons_of_neg hp]
        constructor
        · intro hlinked
          have hnone : ∀ f ∈ es, p f ≠ true := by
            intro f hf hpf
            -- the first entry that is kept is linked to `start` and to an entry of the log
            obtain ⟨g, hg⟩ : ∃ g, (es.filter p).head? = some g := by
              cases hfilter : es.filter p with
              | nil => exact absurd hpf (List.filter_eq_nil_iff.mp hfilter f hf)
              | cons g gs => exact ⟨g, rfl⟩
            have hgmem : g ∈ es := (List.mem_filter.mp (List.mem_of_mem_head? hg)).1
            obtain ⟨d, hd, hglink⟩ := hrest.link_mem hgmem
            rw [hlinked.link_head g hg] at hglink
            rcases List.mem_cons.mp hd with rfl | hd
            · exact hstart _ List.mem_cons_self hglink
            · obtain ⟨x, hx, rfl⟩ := List.mem_map.mp hd
              exact hstart x (List.mem_cons_of_mem _ hx) hglink
          refine ⟨fun f hf hpf => absurd hpf (hnone f hf), List.pairwise_of_forall_mem_list ?_⟩
          intro f _ g hg hpg
          exact absurd hpg (hnone g hg)
        · rintro ⟨hnone, -⟩
          have hnil : es.filter p = [] := by
            refine List.filter_eq_nil_iff.mpr ?_
            intro f hf hpf
            exact hp (hnone f hf hpf)
          rw [hnil]
          trivial

/-- Entries that look the same to the chain are chained the same way. -/
theorem Linked.of_forall₂ {start : Option δ} {es fs : List ε} (h : c.Linked start es)
    (hsame : List.Forall₂ (fun e f => c.link e = c.link f ∧ c.digest e = c.digest f ∧
      ∀ tip, c.compute tip e = c.compute tip f) es fs) : c.Linked start fs := by
  induction hsame generalizing start with
  | nil => exact h
  | cons hef _ ih =>
      obtain ⟨hlink, hdigest, hcompute⟩ := hef
      obtain ⟨hl, hd, hrest⟩ := h
      refine ⟨hlink ▸ hl, ?_, hdigest ▸ ih hrest⟩
      rw [← hdigest, ← hcompute, hd]

/-- The tip commits to the whole log: with a collision-free digest, two linked logs of one length with the
same tip agree in every entry, from the last back to the first. -/
theorem forall₂_of_tip_eq {R : ε → ε → Prop}
    (hinj : ∀ t t' e f, c.compute t e = c.compute t' f → t = t' ∧ R e f) {start : Option δ}
    {es fs : List ε} (hes : c.Linked start es) (hfs : c.Linked start fs)
    (hlen : es.length = fs.length) (htip : c.tip start es = c.tip start fs) :
    List.Forall₂ (fun e f => R e f ∧ c.link e = c.link f ∧ c.digest e = c.digest f) es fs := by
  induction es using List.reverseRecOn generalizing fs with
  | nil =>
      rw [List.length_nil] at hlen
      rw [List.eq_nil_of_length_eq_zero hlen.symm]
      exact .nil
  | append_singleton es e ih =>
      cases fs using List.reverseRecOn with
      | nil => simp at hlen
      | append_singleton fs f =>
          obtain ⟨hes, hle, hde, -⟩ := linked_append.mp hes
          obtain ⟨hfs, hlf, hdf, -⟩ := linked_append.mp hfs
          rw [tip_append, tip_append] at htip
          have hdigest : c.digest e = c.digest f := Option.some.inj htip
          rw [hde, hdf] at hdigest
          obtain ⟨hprev, hR⟩ := hinj _ _ _ _ hdigest
          have hinit := ih hes hfs (by simpa using hlen) hprev
          refine List.rel_append hinit (.cons ⟨hR, ?_, ?_⟩ .nil)
          · rw [hle, hlf, hprev]
          · exact Option.some.inj htip

end HashChain

/-- A root folded over a list commits to its start and to the list, among the lists of one length, when each
step commits to the root before and to the element. -/
theorem foldl_inj {f : δ → ε → δ} {p : ε → Prop}
    (hf : ∀ {d d' e e'}, p e → p e' → f d e = f d' e' → d = d' ∧ e = e') {es es' : List ε}
    (hes : ∀ e ∈ es, p e) (hes' : ∀ e ∈ es', p e) (hlen : es.length = es'.length) {d d' : δ}
    (h : es.foldl f d = es'.foldl f d') : d = d' ∧ es = es' := by
  induction es generalizing es' d d' with
  | nil =>
      obtain rfl := List.length_eq_zero_iff.mp hlen.symm
      exact ⟨h, rfl⟩
  | cons e es ih =>
      obtain ⟨e', es', rfl⟩ := List.exists_cons_of_length_eq_add_one hlen.symm
      obtain ⟨hstep, rfl⟩ := ih (fun e he => hes e (List.mem_cons_of_mem _ he))
        (fun e he => hes' e (List.mem_cons_of_mem _ he)) (Nat.succ.inj hlen) h
      obtain ⟨rfl, rfl⟩ := hf (hes e List.mem_cons_self) (hes' e' List.mem_cons_self) hstep
      exact ⟨rfl, rfl⟩

end ApexChainx.Lib
