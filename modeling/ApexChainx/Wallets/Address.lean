import ApexChainx.Ledger.IndexQuery

/-!
# Wallet addresses

`normalize` (`app/utils/wallet_address.py`) checks the upper case of a text, and `str.upper` is the full case
mapping of Unicode: ten letters outside ASCII become one, two or three letters of ASCII. A text with such a
letter is no address, and `normalize` turns it into one (`normalizes_iff`).
-/

namespace ApexChainx.Wallets

open ApexChainx.Ledger ApexChainx.Ledger.IndexQuery

/-! ## Upper case -/

/-- The letters outside ASCII whose upper case is a text of ASCII. -/
def asciiExpansion : Char → Option (List Char)
  | 'ß' => some ['S', 'S']
  | 'ı' => some ['I']
  | 'ſ' => some ['S']
  | 'ﬀ' => some ['F', 'F']
  | 'ﬁ' => some ['F', 'I']
  | 'ﬂ' => some ['F', 'L']
  | 'ﬃ' => some ['F', 'F', 'I']
  | 'ﬄ' => some ['F', 'F', 'L']
  | 'ﬅ' => some ['S', 'T']
  | 'ﬆ' => some ['S', 'T']
  | _ => none

/-- `str.upper` maps each character by itself; the upper case of any other letter outside ASCII has a
character outside ASCII. -/
structure FullCaseMapping extends CaseMapping where
  upperChar : Char → List Char
  upper_eq : ∀ s, upper s = String.ofList (s.toList.flatMap upperChar)
  upperChar_ascii : ∀ c, c.toNat < 128 → upperChar c = [c.toUpper]
  upperChar_expansion : ∀ c cs, asciiExpansion c = some cs → upperChar c = cs
  upperChar_other : ∀ c, 128 ≤ c.toNat → asciiExpansion c = none → ∃ d ∈ upperChar c, 128 ≤ d.toNat

/-- The upper case of the ASCII letters; every other character is left as it is. -/
def asciiUpper (s : String) : String := String.ofList (s.toList.map Char.toUpper)

/-! ## Addresses -/

/-- A text of ASCII that is a public key but for the case of its letters. -/
def IsAddress (s : String) : Prop :=
  (∀ c ∈ s.toList, c.toNat < 128) ∧ publicKeyPattern (asciiUpper s) = true

/-- `normalize` accepts the text exactly when it is an address between blanks, and what it returns is the
address in upper case and is left as it is by another call. -/
def Normalizes (cases : CaseMapping) (raw : String) : Prop :=
  ((∃ value, normalizeWallet cases raw = .ok value) ↔ IsAddress (strip raw)) ∧
    ∀ value, normalizeWallet cases raw = .ok value →
      value = asciiUpper (strip raw) ∧ normalizeWallet cases value = .ok value

/-- How many letters a character of a look-alike stands for. -/
def width (c : Char) : ℕ := ((asciiExpansion c).map List.length).getD 1

/-- A character of a key, but for its case, or one of the ten letters. -/
def IsLetter (c : Char) : Prop := keyChar c.toUpper = true ∨ (asciiExpansion c).isSome = true

/-- A text that is no address and looks like one: at least one of its characters is one of the ten letters, the
others are those of a key, and there are 56 of them when each of the ten counts as what it stands for. -/
structure LookAlike (s : String) : Prop where
  first : s.toList.head? = some 'G' ∨ s.toList.head? = some 'g'
  letters : ∀ c ∈ s.toList, IsLetter c
  expanded : ∃ c ∈ s.toList, (asciiExpansion c).isSome = true
  width : (s.toList.map width).sum = 56

/-- What an expansion is, case by case. -/
theorem asciiExpansion_spec {c : Char} {cs : List Char} (h : asciiExpansion c = some cs) :
    128 ≤ c.toNat ∧ 1 ≤ cs.length ∧ cs.head? ≠ some 'G' ∧ cs.all keyChar = true := by
  unfold asciiExpansion at h
  split at h <;> first | cases h; decide | cases h

theorem keyChar_ascii {c : Char} (h : keyChar c.toUpper = true) : c.toNat < 128 := by
  by_contra hascii
  have hsame : c.toUpper = c := by
    unfold Char.toUpper
    rw [dif_neg]
    rw [← Char.toNat_val] at hascii
    simp only [UInt32.le_iff_toNat_le]
    have hlower : 'z'.val.toNat = 122 := rfl
    omega
  rw [hsame] at h
  have hrange := keyChar_range h
  omega

theorem asciiExpansion_of_ascii {c : Char} (h : c.toNat < 128) : asciiExpansion c = none := by
  cases hexpansion : asciiExpansion c with
  | none => rfl
  | some cs =>
      have hspec := asciiExpansion_spec hexpansion
      omega

theorem toUpper_eq_G_iff {c : Char} (h : c.toNat < 128) : c.toUpper = 'G' ↔ c = 'G' ∨ c = 'g' := by
  constructor
  · intro hupper
    have hall : ∀ n < 128, (Char.ofNat n).toUpper = 'G' → Char.ofNat n = 'G' ∨ Char.ofNat n = 'g' := by decide
    have hc := hall c.toNat h
    rw [Char.ofNat_toNat] at hc
    exact hc hupper
  · rintro (rfl | rfl) <;> rfl

section

variable (cases : FullCaseMapping)

theorem FullCaseMapping.upperChar_cases (c : Char) :
    (c.toNat < 128 ∧ asciiExpansion c = none ∧ cases.upperChar c = [c.toUpper]) ∨
      (∃ cs, asciiExpansion c = some cs ∧ cases.upperChar c = cs) ∨
      ∃ d ∈ cases.upperChar c, 128 ≤ d.toNat := by
  rcases Nat.lt_or_ge c.toNat 128 with hascii | hother
  · exact .inl ⟨hascii, asciiExpansion_of_ascii hascii, cases.upperChar_ascii c hascii⟩
  · cases hexpansion : asciiExpansion c with
    | some cs => exact .inr (.inl ⟨cs, rfl, cases.upperChar_expansion c cs hexpansion⟩)
    | none => exact .inr (.inr (cases.upperChar_other c hother hexpansion))

/-- The upper case of a character is made of the characters of a key exactly when the character is one of
them, but for its case, or one of the ten letters. -/
theorem FullCaseMapping.all_keyChar_iff (c : Char) :
    (∀ d ∈ cases.upperChar c, keyChar d = true) ↔ IsLetter c := by
  unfold IsLetter
  rcases cases.upperChar_cases c with ⟨hascii, hnone, hupper⟩ | ⟨cs, hsome, hupper⟩ | ⟨d, hd, hother⟩
  · rw [hupper, hnone]
    simp
  · rw [hupper, hsome]
    simpa using (asciiExpansion_spec hsome).2.2.2
  · refine ⟨fun h => ?_, ?_⟩
    · have hrange := keyChar_range (h d hd)
      omega
    · rintro (hkey | hsome)
      · rw [cases.upperChar_ascii c (keyChar_ascii hkey), List.mem_singleton] at hd
        have hrange := keyChar_range (hd ▸ hkey)
        omega
      · obtain ⟨cs, hcs⟩ := Option.isSome_iff_exists.mp hsome
        rw [cases.upperChar_expansion c cs hcs] at hd
        have hkey := List.all_eq_true.mp (asciiExpansion_spec hcs).2.2.2 d hd
        have hrange := keyChar_range hkey
        omega

theorem FullCaseMapping.length_upperChar {c : Char} (h : IsLetter c) :
    (cases.upperChar c).length = width c := by
  rcases h with hkey | hsome
  · have hascii := keyChar_ascii hkey
    rw [cases.upperChar_ascii c hascii, width, asciiExpansion_of_ascii hascii]
    rfl
  · obtain ⟨cs, hcs⟩ := Option.isSome_iff_exists.mp hsome
    rw [cases.upperChar_expansion c cs hcs, width, hcs]
    rfl

theorem FullCaseMapping.head_upperChar {c : Char} (h : IsLetter c) :
    (cases.upperChar c).head? = some 'G' ↔ c = 'G' ∨ c = 'g' := by
  rcases h with hkey | hsome
  · have hascii := keyChar_ascii hkey
    rw [cases.upperChar_ascii c hascii, List.head?_cons, Option.some.injEq]
    exact toUpper_eq_G_iff hascii
  · obtain ⟨cs, hcs⟩ := Option.isSome_iff_exists.mp hsome
    have hspec := asciiExpansion_spec hcs
    rw [cases.upperChar_expansion c cs hcs]
    refine ⟨fun h => absurd h hspec.2.2.1, ?_⟩
    rintro (rfl | rfl) <;> cases hcs

theorem one_le_width {c : Char} : 1 ≤ width c := by
  unfold width
  cases hexpansion : asciiExpansion c with
  | none => exact Nat.le_refl 1
  | some cs => exact (asciiExpansion_spec hexpansion).2.1

/-- When the upper case of a text is a key, in terms of its characters. -/
theorem publicKeyPattern_upper_iff (s : String) : publicKeyPattern (cases.upper s) = true ↔
    (s.toList.map width).sum = 56 ∧ (s.toList.head? = some 'G' ∨ s.toList.head? = some 'g') ∧
      ∀ c ∈ s.toList, IsLetter c := by
  have hletters : (∀ d ∈ s.toList.flatMap cases.upperChar, keyChar d = true) ↔ ∀ c ∈ s.toList, IsLetter c := by
    simp only [← cases.all_keyChar_iff, List.mem_flatMap]
    exact ⟨fun h c hc d hd => h d ⟨c, hc, hd⟩, fun h d ⟨c, hc, hd⟩ => h c hc d hd⟩
  rw [publicKeyPattern_iff, cases.upper_eq, String.toList_ofList, hletters, ← and_assoc, ← and_assoc]
  refine and_congr_left fun hall => ?_
  have hlength : (s.toList.flatMap cases.upperChar).length = (s.toList.map width).sum := by
    rw [List.length_flatMap]
    exact congrArg List.sum (List.map_congr_left fun c hc => cases.length_upperChar (hall c hc))
  rw [hlength]
  refine and_congr_right fun _ => ?_
  rcases hcs : s.toList with _ | ⟨c, cs⟩
  · simp
  · have hletter : IsLetter c := hall c (hcs ▸ List.mem_cons_self)
    have hne : cases.upperChar c ≠ [] := by
      intro hnil
      have hwidth := cases.length_upperChar hletter
      rw [hnil] at hwidth
      exact absurd (one_le_width (c := c)) (by rw [← hwidth]; decide)
    rw [List.flatMap_cons, List.head?_append_of_ne_nil _ hne, cases.head_upperChar hletter]
    simp

/-- An address has none of the ten letters. -/
theorem isAddress_iff (s : String) : IsAddress s ↔
    publicKeyPattern (cases.upper s) = true ∧ ∀ c ∈ s.toList, asciiExpansion c = none := by
  constructor
  · rintro ⟨hascii, hkey⟩
    rw [cases.upper_ascii s (List.all_eq_true.mpr fun c hc => decide_eq_true (hascii c hc))]
    exact ⟨hkey, fun c hc => asciiExpansion_of_ascii (hascii c hc)⟩
  · rintro ⟨hkey, hnone⟩
    have hascii : ∀ c ∈ s.toList, c.toNat < 128 := by
      intro c hc
      rcases ((publicKeyPattern_upper_iff cases s).mp hkey).2.2 c hc with hletter | hsome
      · exact keyChar_ascii hletter
      · rw [hnone c hc] at hsome
        cases hsome
    refine ⟨hascii, ?_⟩
    rw [cases.upper_ascii s (List.all_eq_true.mpr fun c hc => decide_eq_true (hascii c hc))] at hkey
    exact hkey

/-- What becomes a key is an address or a look-alike, and not both. -/
theorem publicKeyPattern_upper_cases (s : String) :
    (publicKeyPattern (cases.upper s) = true ↔ IsAddress s ∨ LookAlike s) ∧ ¬ (IsAddress s ∧ LookAlike s) := by
  rw [isAddress_iff cases]
  refine ⟨⟨fun h => ?_, ?_⟩, ?_⟩
  · obtain ⟨hwidth, hfirst, hletters⟩ := (publicKeyPattern_upper_iff cases s).mp h
    by_cases hexpanded : ∃ c ∈ s.toList, (asciiExpansion c).isSome = true
    · exact .inr ⟨hfirst, hletters, hexpanded, hwidth⟩
    · refine .inl ⟨h, fun c hc => ?_⟩
      rw [← Option.not_isSome_iff_eq_none]
      exact fun hsome => hexpanded ⟨c, hc, hsome⟩
  · rintro (⟨hkey, -⟩ | ⟨hfirst, hletters, -, hwidth⟩)
    · exact hkey
    · exact (publicKeyPattern_upper_iff cases s).mpr ⟨hwidth, hfirst, hletters⟩
  · rintro ⟨⟨-, hnone⟩, -, -, ⟨c, hc, hsome⟩, -⟩
    rw [hnone c hc] at hsome
    cases hsome

/-- `normalize` accepts addresses and look-alikes. -/
theorem exists_normalizeWallet_iff (raw : String) :
    (∃ value, normalizeWallet cases.toCaseMapping raw = .ok value) ↔
      IsAddress (strip raw) ∨ LookAlike (strip raw) := by
  simp only [normalizeWallet_eq_ok_iff, exists_and_left, exists_eq, and_true]
  exact (publicKeyPattern_upper_cases cases (strip raw)).1

/-- For every text: `normalize` takes exactly the addresses, returns them in upper case and leaves what it
returned as it is, if and only if the stripped text is no look-alike. -/
theorem normalizes_iff (raw : String) :
    Normalizes cases.toCaseMapping raw ↔ ¬ LookAlike (strip raw) := by
  have hexclusive := (publicKeyPattern_upper_cases cases (strip raw)).2
  unfold Normalizes
  rw [exists_normalizeWallet_iff cases]
  constructor
  · rintro ⟨haccepts, -⟩ hlook
    exact hexclusive ⟨haccepts.mp (.inr hlook), hlook⟩
  · intro hlook
    refine ⟨or_iff_left hlook, fun value hvalue => ?_⟩
    obtain ⟨hascii, -⟩ := ((exists_normalizeWallet_iff cases raw).mp ⟨value, hvalue⟩).resolve_right hlook
    obtain ⟨hkey, rfl⟩ := normalizeWallet_eq_ok_iff.mp hvalue
    refine ⟨?_, normalizeWallet_self hkey⟩
    exact cases.upper_ascii _ (List.all_eq_true.mpr fun c hc => decide_eq_true (hascii c hc))

end

/-- The mapping of ASCII and of the ten letters. -/
def tenLetters : FullCaseMapping where
  upper s := String.ofList (s.toList.flatMap fun c =>
    if c.toNat < 128 then [c.toUpper] else (asciiExpansion c).getD [c])
  lower s := String.ofList (s.toList.map Char.toLower)
  upper_ascii s hs := by
    have hmap : ∀ c ∈ s.toList, (if c.toNat < 128 then [c.toUpper] else (asciiExpansion c).getD [c])
        = [c.toUpper] := fun c hc => if_pos (of_decide_eq_true (List.all_eq_true.mp hs c hc))
    rw [List.flatMap_congr hmap, ← List.map_eq_flatMap]
  lower_ascii := asciiCases.lower_ascii
  upperChar c := if c.toNat < 128 then [c.toUpper] else (asciiExpansion c).getD [c]
  upper_eq _ := rfl
  upperChar_ascii _ h := if_pos h
  upperChar_expansion c cs h := by
    have hspec := asciiExpansion_spec h
    rw [if_neg (by omega), h]
    rfl
  upperChar_other c h hnone := by
    rw [if_neg (by omega), hnone]
    exact ⟨c, List.mem_singleton_self c, h⟩

/-- With a long s in the place of its second letter, an address is still accepted, and stands for the one that
is spelled in ASCII. -/
theorem long_s_accepted :
    normalizeWallet tenLetters.toCaseMapping ("Gſ" ++ String.ofList (List.replicate 54 'A'))
      = .ok ("GS" ++ String.ofList (List.replicate 54 'A')) ∧
    normalizeWallet tenLetters.toCaseMapping ("GS" ++ String.ofList (List.replicate 54 'A'))
      = .ok ("GS" ++ String.ofList (List.replicate 54 'A')) ∧
    ¬ Normalizes tenLetters.toCaseMapping ("Gſ" ++ String.ofList (List.replicate 54 'A')) := by
  have haccepted : normalizeWallet tenLetters.toCaseMapping ("Gſ" ++ String.ofList (List.replicate 54 'A'))
      = .ok ("GS" ++ String.ofList (List.replicate 54 'A')) := by
    decide +kernel
  refine ⟨haccepted, by decide +kernel, fun h => ?_⟩
  have hsame := (h.2 _ haccepted).1
  revert hsame
  decide +kernel

end ApexChainx.Wallets
