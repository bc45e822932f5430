import Mathlib.Data.List.Infix
import Mathlib.Data.List.TakeWhile

/-!
# SQL `LIKE`

Patterns with the wildcards `%` and `_` and the backslash as escape character, on texts as lists of
characters. A text without these three matches as it stands (`like_plain_append`), and between two `%` it
matches the texts that contain it (`like_contains`). Any other text between two `%` also matches one that
does not contain it (`like_shortest`, `not_infix_shortest`), unless it is escaped first: an escaped text stands
for the text it was (`standsFor_likeEscape`).

A `CaseMapping` is what a comparison that ignores case applies to pattern and text; it may neither take the
meaning from one of the three nor give it to another character.
-/

namespace ApexChainx.Lib

/-- SQL `LIKE`: `%` stands for any text, `_` for any character, and a backslash takes the meaning from
the next one. -/
def like : List Char → List Char → Bool
  | [], text => text.isEmpty
  | '%' :: pattern, text => text.tails.any (like pattern)
  | '_' :: pattern, text => !text.isEmpty && like pattern text.tail
  | '\\' :: c :: pattern, text => text.head? == some c && like pattern text.tail
  | c :: pattern, text => text.head? == some c && like pattern text.tail

/-- The characters with a meaning in a pattern. -/
def isMeta (c : Char) : Bool := c = '%' || c = '_' || c = '\\'

/-- A pattern in which every character stands for itself. -/
def LikePlain (pattern : List Char) : Prop := ∀ c ∈ pattern, isMeta c = false

instance (pattern : List Char) : Decidable (LikePlain pattern) :=
  inferInstanceAs (Decidable (∀ c ∈ pattern, _))

variable {pattern rest text : List Char} {c : Char}

theorem like_percent :
    like ('%' :: pattern) text = true ↔ ∃ suffix, suffix <:+ text ∧ like pattern suffix = true := by
  rw [like, List.any_eq_true]
  simp only [List.mem_tails]

/-- A first character that is read as itself. -/
theorem head_beq_and_tail (c : Char) (pattern text : List Char) :
    (text.head? == some c && like pattern text.tail) = true ↔
      ∃ tail, text = c :: tail ∧ like pattern tail = true := by
  cases text with
  | nil => simp
  | cons d text =>
      simp only [List.head?_cons, List.tail_cons, Bool.and_eq_true, beq_iff_eq, Option.some.injEq,
        List.cons.injEq]
      constructor
      · rintro ⟨rfl, h⟩
        exact ⟨text, ⟨rfl, rfl⟩, h⟩
      · rintro ⟨tail, ⟨rfl, rfl⟩, h⟩
        exact ⟨rfl, h⟩

theorem like_cons (hc : isMeta c = false) :
    like (c :: pattern) text = true ↔ ∃ tail, text = c :: tail ∧ like pattern tail = true := by
  have hmeta : c ≠ '%' ∧ c ≠ '_' ∧ c ≠ '\\' := by simpa [isMeta, and_assoc] using hc
  rw [like, head_beq_and_tail]
  · exact hmeta.1
  · exact hmeta.2.1
  · rintro d pattern' rfl
    exact absurd rfl hmeta.2.2

theorem like_underscore :
    like ('_' :: pattern) text = true ↔ ∃ d tail, text = d :: tail ∧ like pattern tail = true := by
  rw [like]
  cases text with
  | nil => simp
  | cons d text =>
      simp only [List.isEmpty_cons, Bool.not_false, Bool.true_and, List.tail_cons, List.cons.injEq]
      constructor
      · intro h
        exact ⟨d, text, ⟨rfl, rfl⟩, h⟩
      · rintro ⟨d, tail, ⟨rfl, rfl⟩, h⟩
        exact h

theorem like_escaped (c : Char) :
    like ('\\' :: c :: pattern) text = true ↔ ∃ tail, text = c :: tail ∧ like pattern tail = true := by
  rw [like, head_beq_and_tail]

/-- A plain text at the start of a pattern stands for itself. -/
theorem like_plain_append (hplain : LikePlain pattern) :
    like (pattern ++ rest) text = true ↔ ∃ suffix, text = pattern ++ suffix ∧ like rest suffix = true := by
  induction pattern generalizing text with
  | nil => simp
  | cons c pattern ih =>
      obtain ⟨hc, hplain⟩ := List.forall_mem_cons.mp hplain
      rw [List.cons_append, like_cons hc]
      constructor
      · rintro ⟨tail, rfl, htail⟩
        obtain ⟨suffix, rfl, h⟩ := (ih hplain).mp htail
        exact ⟨suffix, rfl, h⟩
      · rintro ⟨suffix, rfl, h⟩
        exact ⟨pattern ++ suffix, rfl, (ih hplain).mpr ⟨suffix, rfl, h⟩⟩

theorem like_any_text : like ['%'] text = true :=
  like_percent.mpr ⟨[], List.nil_suffix, rfl⟩

/-- A pattern that stands for one text, whatever follows it. -/
def StandsFor (pattern literal : List Char) : Prop :=
  ∀ rest text, like (pattern ++ rest) text = true ↔ ∃ suffix, text = literal ++ suffix ∧ like rest suffix = true

/-- Between two `%` it matches the texts that contain the one it stands for. -/
theorem StandsFor.contains {literal : List Char} (h : StandsFor pattern literal) :
    like ('%' :: pattern ++ ['%']) text = true ↔ literal <:+: text := by
  rw [List.cons_append, like_percent]
  constructor
  · rintro ⟨suffix, ⟨before, rfl⟩, hlike⟩
    obtain ⟨after, rfl, -⟩ := (h _ _).mp hlike
    exact ⟨before, after, List.append_assoc _ _ _⟩
  · rintro ⟨before, after, rfl⟩
    refine ⟨literal ++ after, ⟨before, (List.append_assoc _ _ _).symm⟩, ?_⟩
    exact (h _ _).mpr ⟨after, rfl, like_any_text⟩

/-- Between two `%` a plain text matches the texts that contain it. -/
theorem like_contains (hplain : LikePlain pattern) :
    like ('%' :: pattern ++ ['%']) text = true ↔ pattern <:+: text :=
  StandsFor.contains fun _ _ => like_plain_append hplain

/-! ## Escaping -/

/-- The pattern in which a backslash takes the meaning from each character that has one. -/
def likeEscape (literal : List Char) : List Char :=
  literal.flatMap fun c => if isMeta c then ['\\', c] else [c]

theorem likeEscape_cons (c : Char) (literal : List Char) :
    likeEscape (c :: literal) = (if isMeta c then ['\\', c] else [c]) ++ likeEscape literal :=
  List.flatMap_cons

/-- One character, with a backslash before it where it has a meaning. -/
theorem like_escape_char (c : Char) :
    like ((if isMeta c then ['\\', c] else [c]) ++ pattern) text = true ↔
      ∃ tail, text = c :: tail ∧ like pattern tail = true := by
  by_cases hc : isMeta c = true
  · rw [if_pos hc]
    exact like_escaped c
  · rw [if_neg hc]
    exact like_cons (Bool.eq_false_iff.mpr hc)

/-- An escaped text stands for the text. -/
theorem standsFor_likeEscape (literal : List Char) : StandsFor (likeEscape literal) literal := by
  induction literal with
  | nil =>
      intro rest text
      simp [likeEscape]
  | cons c literal ih =>
      intro rest text
      rw [likeEscape_cons, List.append_assoc, like_escape_char]
      constructor
      · rintro ⟨tail, rfl, htail⟩
        obtain ⟨suffix, rfl, h⟩ := (ih rest tail).mp htail
        exact ⟨suffix, rfl, h⟩
      · rintro ⟨suffix, rfl, h⟩
        exact ⟨literal ++ suffix, rfl, (ih rest _).mpr ⟨suffix, rfl, h⟩⟩

/-! ## Ignoring case -/

/-- What is applied to pattern and text before they are compared. -/
structure CaseMapping where
  lower : Char → Char
  meta_fixed : ∀ c, isMeta c = true → lower c = c
  meta_reflected : ∀ c, isMeta (lower c) = true → isMeta c = true

namespace CaseMapping

variable (m : CaseMapping)

theorem isMeta_lower (c : Char) : isMeta (m.lower c) = isMeta c := by
  rw [Bool.eq_iff_iff]
  refine ⟨m.meta_reflected c, fun h => ?_⟩
  rw [m.meta_fixed c h]
  exact h

theorem likePlain_map : LikePlain (pattern.map m.lower) ↔ LikePlain pattern := by
  simp [LikePlain, m.isMeta_lower]

/-- Only a character with a meaning is mapped to it. -/
theorem eq_of_lower_eq {d : Char} (hd : isMeta d = true) (h : m.lower c = d) : c = d := by
  have hc : isMeta c = true := by rw [← m.isMeta_lower, h, hd]
  rw [← h, m.meta_fixed c hc]

end CaseMapping

/-- Between two `%` a plain text matches the texts that contain it up to the mapping. -/
theorem like_contains_map (m : CaseMapping) (hplain : LikePlain pattern) :
    like (('%' :: pattern ++ ['%']).map m.lower) (text.map m.lower) = true ↔
      pattern.map m.lower <:+: text.map m.lower := by
  have hpercent : m.lower '%' = '%' := m.meta_fixed '%' rfl
  rw [List.map_append, List.map_cons, List.map_singleton, hpercent]
  exact like_contains (m.likePlain_map.mpr hplain)

theorem toLower_of_isMeta (h : isMeta c = true) : c.toLower = c := by
  have hcases : c = '%' ∨ c = '_' ∨ c = '\\' := by simpa [isMeta, or_assoc] using h
  rcases hcases with rfl | rfl | rfl <;> rfl

/-- Lower-case letters have no meaning in a pattern. -/
theorem isMeta_of_toLower (h : isMeta c.toLower = true) : isMeta c = true := by
  have hall : ∀ n < 128, isMeta (Char.ofNat n).toLower = true → isMeta (Char.ofNat n) = true := by decide +kernel
  by_cases hascii : c.toNat < 128
  · rw [← Char.ofNat_toNat c] at h ⊢
    exact hall _ hascii h
  · -- only capitals of ASCII are changed
    have hsame : c.toLower = c := by
      refine dif_neg fun hupper => ?_
      have hle : c.toNat ≤ 90 := hupper.2
      omega
    rwa [← hsame]

/-- The comparison as it is. -/
def exactCase : CaseMapping := ⟨id, fun _ _ => rfl, fun _ h => h⟩

/-! ## Patterns that are not plain -/

/-- A text that matches the pattern before a `%`: nothing for a `%`, an `x` for a `_`. A backslash at the end
takes the meaning from the `%` that follows. -/
def shortest : List Char → List Char
  | [] => []
  | '%' :: pattern => shortest pattern
  | '_' :: pattern => 'x' :: shortest pattern
  | ['\\'] => ['%']
  | '\\' :: c :: pattern => c :: shortest pattern
  | c :: pattern => c :: shortest pattern

/-- A character of a pattern that is read as itself. -/
theorem isMeta_eq_false_of_cases (h₁ : c = '%' → False) (h₂ : c = '_' → False)
    (h₃ : c = '\\' → pattern = [] → False) (h₄ : ∀ d pattern', c = '\\' → pattern = d :: pattern' → False) :
    isMeta c = false := by
  have hslash : c ≠ '\\' := by
    intro hc
    cases pattern with
    | nil => exact h₃ hc rfl
    | cons d pattern' => exact h₄ d pattern' hc rfl
  simp only [isMeta, Bool.or_eq_false_iff, decide_eq_false_iff_not]
  exact ⟨⟨h₁, h₂⟩, hslash⟩

theorem like_shortest (m : CaseMapping) (pattern : List Char) :
    like (pattern.map m.lower ++ ['%']) ((shortest pattern).map m.lower) = true := by
  induction pattern using shortest.induct with
  | case1 => exact like_any_text
  | case2 pattern ih =>
      rw [List.map_cons, m.meta_fixed '%' rfl]
      exact like_percent.mpr ⟨_, List.suffix_rfl, ih⟩
  | case3 pattern ih =>
      rw [List.map_cons, m.meta_fixed '_' rfl]
      exact like_underscore.mpr ⟨m.lower 'x', _, rfl, ih⟩
  | case4 =>
      rw [List.map_singleton, m.meta_fixed '\\' rfl]
      exact (like_escaped '%').mpr ⟨[], by rw [shortest, List.map_singleton, m.meta_fixed '%' rfl], rfl⟩
  | case5 c pattern ih =>
      rw [List.map_cons, m.meta_fixed '\\' rfl]
      exact (like_escaped (m.lower c)).mpr ⟨_, rfl, ih⟩
  | case6 c pattern h₁ h₂ h₃ h₄ ih =>
      have hc : isMeta (m.lower c) = false := by rw [m.isMeta_lower, isMeta_eq_false_of_cases h₁ h₂ h₃ h₄]
      rw [shortest]
      · exact (like_cons hc).mpr ⟨_, rfl, ih⟩
      all_goals assumption

theorem length_shortest_le (pattern : List Char) : (shortest pattern).length ≤ pattern.length := by
  induction pattern using shortest.induct with
  | case1 => exact le_rfl
  | case2 pattern ih => exact ih.trans (Nat.le_succ _)
  | case3 pattern ih => exact Nat.succ_le_succ ih
  | case4 => exact le_rfl
  | case5 c pattern ih => exact Nat.succ_le_succ (ih.trans (Nat.le_succ _))
  | case6 c pattern h₁ h₂ h₃ h₄ ih =>
      rw [shortest]
      · exact Nat.succ_le_succ ih
      all_goals assumption

/-- The shortest text is the pattern itself only when the pattern is plain. -/
theorem likePlain_of_map_shortest_eq (m : CaseMapping)
    (h : pattern.map m.lower = (shortest pattern).map m.lower) : LikePlain pattern := by
  have hlength := congrArg List.length h
  rw [List.length_map, List.length_map] at hlength
  induction pattern using shortest.induct with
  | case1 => exact List.forall_mem_nil _
  | case2 pattern ih =>
      have hle := length_shortest_le pattern
      rw [shortest, List.length_cons] at hlength
      omega
  | case3 pattern ih =>
      rw [shortest, List.map_cons, List.map_cons, List.cons.injEq, m.meta_fixed '_' rfl] at h
      exact absurd (m.eq_of_lower_eq rfl h.1.symm) (by decide)
  | case4 =>
      rw [shortest, List.map_singleton, List.map_singleton, m.meta_fixed '\\' rfl, m.meta_fixed '%' rfl] at h
      exact absurd h (by decide)
  | case5 c pattern ih =>
      have hle := length_shortest_le pattern
      rw [shortest, List.length_cons, List.length_cons, List.length_cons] at hlength
      omega
  | case6 c pattern h₁ h₂ h₃ h₄ ih =>
      have hshortest : shortest (c :: pattern) = c :: shortest pattern := by
        rw [shortest] <;> assumption
      rw [hshortest, List.map_cons, List.map_cons, List.cons.injEq] at h
      rw [hshortest, List.length_cons, List.length_cons, Nat.add_right_cancel_iff] at hlength
      exact List.forall_mem_cons.mpr ⟨isMeta_eq_false_of_cases h₁ h₂ h₃ h₄, ih h.2 hlength⟩

/-- A pattern that is not plain matches, between two `%`, a text that does not contain it. -/
theorem not_infix_shortest (m : CaseMapping) (hplain : ¬ LikePlain pattern) :
    ¬ pattern.map m.lower <:+: (shortest pattern).map m.lower := by
  intro hsub
  refine hplain (likePlain_of_map_shortest_eq m (hsub.eq_of_length_le ?_))
  rw [List.length_map, List.length_map]
  exact length_shortest_le pattern

end ApexChainx.Lib
