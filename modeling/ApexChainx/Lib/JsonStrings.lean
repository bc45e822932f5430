import ApexChainx.Lib.JsonReader

/-!
# Lists of strings as JSON

A list of strings that is written without blanks and without escapes beyond the necessary ones is read back,
and the text has every string of the list in it, between quotes.
-/

namespace ApexChainx.Lib

/-- A written character is read back. -/
theorem readString_escape (c : Char) (fuel : ℕ) (rest : List Char) :
    readString (fuel + 1) (escape c ++ rest) = (readString fuel rest).map fun r => (c.toNat :: r.1, r.2) := by
  unfold escape
  split_ifs with h₁ h₂ h₃ h₄ h₅ h₆ h₇ h₈
  · rw [h₁]; exact readString_backslash rfl
  · rw [h₂]; exact readString_backslash rfl
  · rw [h₃]; exact readString_backslash rfl
  · rw [h₄]; exact readString_backslash rfl
  · rw [h₅]; exact readString_backslash rfl
  · rw [h₆]; exact readString_backslash rfl
  · rw [h₇]; exact readString_backslash rfl
  · -- a control character, by its number
    have hread := readUnicode_bmp (show c.toNat < 0x10000 by omega) rest
    rw [show c.toNat / 4096 = 0 by omega, show c.toNat / 256 % 16 = 0 by omega,
      show c.toNat / 16 % 16 = c.toNat / 16 by omega] at hread
    exact readString_backslash hread
  · rw [List.cons_append, List.nil_append, readString.eq_def]
    simp only [if_neg h₈]
    cases readString fuel rest <;> rfl

theorem readString_flatMap_escape (cs rest : List Char) {fuel : ℕ} (h : cs.length < fuel) :
    readString fuel (cs.flatMap escape ++ '"' :: rest) = some (cs.map Char.toNat, rest) := by
  induction cs generalizing fuel with
  | nil =>
      cases fuel with
      | zero => cases h
      | succ fuel => rfl
  | cons c cs ih =>
      cases fuel with
      | zero => cases h
      | succ fuel =>
          rw [List.length_cons] at h
          rw [List.flatMap_cons, List.append_assoc, readString_escape, ih (by omega)]
          rfl

/-- A written string, whatever follows it, is read as a value. -/
theorem readValue_quote (s : String) (fuel : ℕ) (rest : List Char) :
    readValue (fuel + 1) (quote s ++ rest) = some (.str s, rest) := by
  have hlength := length_le_flatMap one_le_length_escape s.toList
  unfold quote
  rw [List.cons_append, List.append_assoc, List.singleton_append, readValue]
  rw [readString_flatMap_escape _ _ (by simp only [List.length_append, List.length_cons]; omega)]
  rw [Option.map_some, stringValue_toNat]

/-- Strings are read up to the closing bracket. -/
theorem readElements_strings (s : String) (strings : List String) (rest : List Char) {fuel : ℕ}
    (h : strings.length + 2 ≤ fuel) :
    readElements fuel (quote s ++ (Json.restChars (strings.map .str) ++ rest))
      = some (.str s :: strings.map .str, rest) := by
  induction strings generalizing s fuel with
  | nil =>
      rcases fuel with _ | _ | fuel
      · simp at h
      · simp at h
      · rw [readElements, readValue_quote]
        rfl
  | cons s' strings ih =>
      rcases fuel with _ | _ | fuel
      · simp at h
      · simp at h
      · rw [List.length_cons] at h
        have hnext : readElements (fuel + 1) (quote s' ++ (Json.restChars (strings.map .str) ++ rest))
            = some (.str s' :: strings.map .str, rest) := ih s' (by omega)
        have hblank : skipBlank (quote s' ++ (Json.restChars (strings.map .str) ++ rest))
            = quote s' ++ (Json.restChars (strings.map .str) ++ rest) := rfl
        have hcomma : ∀ cs, skipBlank (',' :: cs) = ',' :: cs := fun _ => rfl
        rw [readElements, readValue_quote, List.map_cons, Json.restChars, Json.chars]
        simp only [Option.bind_eq_bind, Option.bind_some, List.cons_append, List.append_assoc, hcomma, hblank,
          hnext, Option.map_some, List.map_cons]

theorem length_le_length_restChars (strings : List String) :
    strings.length + 1 ≤ (Json.restChars (strings.map .str)).length := by
  induction strings with
  | nil => exact le_rfl
  | cons s strings ih =>
      rw [List.map_cons, Json.restChars, List.length_cons, List.length_cons, List.length_append]
      omega

/-- A written list of strings is read back. -/
theorem loads_strings (strings : List String) :
    loads (Json.arr (strings.map .str)).text = some (.arr (strings.map .str)) := by
  unfold loads Json.text
  rw [String.toList_ofList, String.length_ofList]
  cases strings with
  | nil => rfl
  | cons s strings =>
      have hchars : (Json.arr ((s :: strings).map .str)).chars
          = '[' :: (quote s ++ (Json.restChars (strings.map .str) ++ [])) := by
        rw [List.map_cons, Json.chars, Json.chars, List.append_nil]
      have hlength : strings.length + 2 ≤ (quote s ++ (Json.restChars (strings.map .str) ++ [])).length + 1 := by
        have hle := length_le_length_restChars strings
        simp only [List.length_append]
        omega
      have hvalue : readValue ((quote s ++ (Json.restChars (strings.map .str) ++ [])).length + 1 + 1)
          ('[' :: (quote s ++ (Json.restChars (strings.map .str) ++ [])))
          = (readElements ((quote s ++ (Json.restChars (strings.map .str) ++ [])).length + 1)
              (quote s ++ (Json.restChars (strings.map .str) ++ []))).map fun r => (.arr r.1, r.2) := by
        rw [readValue]
        rfl
      have hopen : ∀ cs, skipBlank ('[' :: cs) = '[' :: cs := fun _ => rfl
      rw [hchars, hopen, List.length_cons, hvalue, readElements_strings s strings [] hlength]
      rfl

/-- The text of a list has every one of its strings in it, as it is written. -/
theorem quote_infix_of_mem {s : String} {strings : List String} (h : s ∈ strings) :
    quote s <:+: (Json.arr (strings.map .str)).chars := by
  have hrest : ∀ strings : List String, s ∈ strings → quote s <:+: Json.restChars (strings.map .str) := by
    intro strings h
    induction strings with
    | nil => cases h
    | cons s' strings ih =>
        rw [List.map_cons, Json.restChars, Json.chars]
        rcases List.mem_cons.mp h with rfl | h
        · exact ⟨[','], _, rfl⟩
        · exact (ih h).trans ⟨',' :: quote s', [], by simp⟩
  cases strings with
  | nil => cases h
  | cons s' strings =>
      rw [List.map_cons, Json.chars, Json.chars]
      rcases List.mem_cons.mp h with rfl | h
      · exact ⟨['['], _, rfl⟩
      · exact (hrest strings h).trans ⟨'[' :: quote s', [], by simp⟩

end ApexChainx.Lib
