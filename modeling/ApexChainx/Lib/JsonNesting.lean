import ApexChainx.Lib.JsonReader

/-!
# JSON text that is nested deeply

A recursive reader has a bound on the brackets it can be inside of. `tooDeep levels text` says that it meets
more than `levels` of them, one inside the other, before anything else stops it.

The readers have a fuel argument. A reader that comes to an end with some fuel comes to the same end with as
much as there are characters (`readValue_of_length`), so that `loads` refuses no text for want of it.
-/

namespace ApexChainx.Lib

/-! ## Characters that are read -/

theorem length_skipBlank_le (cs : List Char) : (skipBlank cs).length ≤ cs.length :=
  List.length_dropWhile_le _ cs

theorem length_of_readHex {cs rest : List Char} {n : ℕ} (h : readHex cs = some (n, rest)) :
    rest.length < cs.length := by
  match cs with
  | a :: b :: c :: d :: tail =>
      simp only [readHex, Option.bind_eq_bind, Option.bind_eq_some_iff, Option.some.injEq, Prod.mk.injEq] at h
      obtain ⟨_, -, _, -, _, -, _, -, -, rfl⟩ := h
      simp only [List.length_cons]
      omega
  | [] => contradiction
  | [_] => contradiction
  | [_, _] => contradiction
  | [_, _, _] => contradiction

theorem length_of_readUnicode {cs rest : List Char} {n : ℕ} (h : readUnicode cs = some (n, rest)) :
    rest.length < cs.length := by
  simp only [readUnicode, Option.bind_eq_bind, Option.bind_eq_some_iff] at h
  obtain ⟨⟨high, tail⟩, hhigh, h⟩ := h
  have htail := length_of_readHex hhigh
  dsimp only at h
  split_ifs at h
  · split at h
    · split at h
      · rename_i low tail'' hlow
        have hlonger := length_of_readHex hlow
        simp only [List.length_cons] at htail
        split_ifs at h <;> obtain ⟨-, rfl⟩ := Prod.mk.inj (Option.some.inj h)
        · omega
        · simpa using htail
      · contradiction
    · obtain ⟨-, rfl⟩ := Prod.mk.inj (Option.some.inj h)
      exact htail
  · obtain ⟨-, rfl⟩ := Prod.mk.inj (Option.some.inj h)
    exact htail

theorem length_of_readEscape {cs rest : List Char} {n : ℕ} (h : readEscape cs = some (n, rest)) :
    rest.length < cs.length := by
  unfold readEscape at h
  split at h
  case h_9 =>
    have htail := length_of_readUnicode h
    rw [List.length_cons]
    omega
  case h_10 => contradiction
  all_goals
    obtain ⟨-, rfl⟩ := Prod.mk.inj (Option.some.inj h)
    exact Nat.lt_succ_self _

theorem length_of_readString {fuel : ℕ} {cs rest : List Char} {ns : List ℕ}
    (h : readString fuel cs = some (ns, rest)) : rest.length < cs.length := by
  induction fuel, cs using readString.induct generalizing ns with
  | case1 => contradiction
  | case2 => contradiction
  | case3 fuel tail =>
      rw [readString, Option.some.injEq, Prod.mk.injEq] at h
      rw [← h.2]
      exact Nat.lt_succ_self _
  | case4 fuel tail ih =>
      simp only [readString, Option.bind_eq_bind, Option.bind_eq_some_iff, Option.some.injEq, Prod.mk.injEq] at h
      obtain ⟨⟨n, tail'⟩, hescape, ⟨ns', tail''⟩, hstring, -, rfl⟩ := h
      have hshort := length_of_readEscape hescape
      have hshorter := ih tail' hstring
      rw [List.length_cons]
      omega
  | case5 fuel c tail hquote hbackslash hcontrol =>
      simp [readString, hcontrol] at h
  | case6 fuel c tail hquote hbackslash hcontrol ih =>
      simp only [readString, if_neg hcontrol, Option.bind_eq_bind, Option.bind_eq_some_iff, Option.some.injEq,
        Prod.mk.injEq] at h
      obtain ⟨⟨ns', tail'⟩, hstring, -, rfl⟩ := h
      have hshorter := ih hstring
      rw [List.length_cons]
      omega

theorem length_of_readSign (allowed cs : List Char) : (readSign allowed cs).2.length ≤ cs.length := by
  unfold readSign
  split
  · split_ifs
    · exact Nat.le_succ _
    · exact le_rfl
  · exact le_rfl

theorem length_of_readTail (mark signs cs : List Char) : (readTail mark signs cs).2.length ≤ cs.length := by
  unfold readTail
  split
  · rename_i c tail
    have hsign := length_of_readSign signs tail
    dsimp only
    split_ifs
    · rw [List.length_drop, List.length_cons]
      omega
    · exact le_rfl
  · exact le_rfl

theorem length_of_readNumber {cs text rest : List Char} (h : readNumber cs = some (text, rest)) :
    rest.length < cs.length := by
  have hsign := length_of_readSign ['-'] cs
  unfold readNumber at h
  generalize readSign ['-'] cs = signed at h hsign
  obtain ⟨sign, tail⟩ := signed
  dsimp only at h hsign
  generalize hdigits : (if tail.head? = some '0' then ['0'] else tail.takeWhile Char.isDigit) = digits at h
  by_cases hnone : digits = []
  · rw [if_pos hnone] at h
    contradiction
  · have hfraction := length_of_readTail ['.'] [] (tail.drop digits.length)
    have hexponent := length_of_readTail ['e', 'E'] ['+', '-'] (readTail ['.'] [] (tail.drop digits.length)).2
    have hpos : 0 < digits.length := List.length_pos_of_ne_nil hnone
    have htaken : digits.length ≤ tail.length := by
      rw [← hdigits]
      split_ifs with hzero
      · rw [List.length_singleton]
        exact List.length_pos_of_ne_nil fun hnil => by rw [hnil] at hzero; contradiction
      · exact (List.takeWhile_prefix _).length_le
    rw [if_neg hnone] at h
    split_ifs at h
    rw [List.length_drop] at hfraction
    rw [← (Prod.mk.inj (Option.some.inj h)).2]
    omega

theorem length_of_readScalar {cs rest : List Char} {v : JsonValue} (h : readScalar cs = some (v, rest)) :
    rest.length < cs.length := by
  unfold readScalar at h
  split at h
  · rename_i token v' hfind
    obtain ⟨-, rfl⟩ := Prod.mk.inj (Option.some.inj h)
    have hmem := List.mem_of_find?_eq_some hfind
    rw [List.find?_eq_some_iff_append] at hfind
    have hprefix : token.isPrefixOf cs = true := hfind.1
    have hpos : 0 < token.length := by
      have hall : ∀ l ∈ literals, 0 < l.1.length := by simp [literals]
      exact hall _ hmem
    have hle := (List.isPrefixOf_iff_prefix.mp hprefix).length_le
    rw [List.length_drop]
    omega
  · rw [Option.map_eq_some_iff] at h
    obtain ⟨⟨text, tail⟩, hnumber, heq⟩ := h
    obtain ⟨-, rfl⟩ := Prod.mk.inj heq
    exact length_of_readNumber hnumber

/-! ## Fuel -/

/-- What a value is read from: a text that needs no other reader, or one that the reader of members or of
elements goes on with. -/
theorem readValue_cases (cs : List Char) :
    (∃ result, (∀ fuel, readValue (fuel + 1) cs = result) ∧
      ∀ v rest, result = some (v, rest) → rest.length < cs.length) ∨
    (∃ tail, cs.length = tail.length + 1 ∧
      ∀ fuel, readValue (fuel + 1) cs = (readMembers fuel (skipBlank tail)).map fun r => (.obj r.1, r.2)) ∨
    ∃ tail, cs.length = tail.length + 1 ∧
      ∀ fuel, readValue (fuel + 1) cs = (readElements fuel (skipBlank tail)).map fun r => (.arr r.1, r.2) := by
  by_cases hstring : ∃ tail, cs = '"' :: tail
  · obtain ⟨tail, rfl⟩ := hstring
    refine .inl ⟨_, fun fuel => by rw [readValue], ?_⟩
    intro v rest h
    rw [Option.map_eq_some_iff] at h
    obtain ⟨⟨ns, rest'⟩, hread, heq⟩ := h
    obtain ⟨-, rfl⟩ := Prod.mk.inj heq
    exact Nat.lt_succ_of_lt (length_of_readString hread)
  by_cases hobject : ∃ tail, cs = '\x7b' :: tail
  · obtain ⟨tail, rfl⟩ := hobject
    by_cases hclose : ∃ rest, skipBlank tail = '\x7d' :: rest
    · obtain ⟨rest, hrest⟩ := hclose
      refine .inl ⟨some (.obj [], rest), fun fuel => by rw [readValue, hrest]; rfl, ?_⟩
      intro v rest' h
      obtain ⟨-, rfl⟩ := Prod.mk.inj (Option.some.inj h)
      have hle := length_skipBlank_le tail
      rw [hrest, List.length_cons] at hle
      rw [List.length_cons]
      omega
    · refine .inr (.inl ⟨tail, rfl, fun fuel => ?_⟩)
      rw [readValue]
      split
      · rename_i rest hrest
        exact absurd ⟨rest, hrest⟩ hclose
      · rfl
  by_cases harray : ∃ tail, cs = '[' :: tail
  · obtain ⟨tail, rfl⟩ := harray
    by_cases hclose : ∃ rest, skipBlank tail = ']' :: rest
    · obtain ⟨rest, hrest⟩ := hclose
      refine .inl ⟨some (.arr [], rest), fun fuel => by rw [readValue, hrest]; rfl, ?_⟩
      intro v rest' h
      obtain ⟨-, rfl⟩ := Prod.mk.inj (Option.some.inj h)
      have hle := length_skipBlank_le tail
      rw [hrest, List.length_cons] at hle
      rw [List.length_cons]
      omega
    · refine .inr (.inr ⟨tail, rfl, fun fuel => ?_⟩)
      rw [readValue]
      split
      · rename_i rest hrest
        exact absurd ⟨rest, hrest⟩ hclose
      · rfl
  refine .inl ⟨readScalar cs, fun fuel => ?_, fun v rest h => length_of_readScalar h⟩
  unfold readValue
  split
  · exact absurd ⟨_, rfl⟩ hstring
  · exact absurd ⟨_, rfl⟩ hobject
  · exact absurd ⟨_, rfl⟩ harray
  · rfl

/-- The reader comes to the end with any fuel that covers what it has read. -/
def Enough {β : Type} (read : ℕ → List Char → Option (β × List Char)) (fuel : ℕ) : Prop :=
  ∀ cs b rest, read fuel cs = some (b, rest) →
    rest.length < cs.length ∧ ∀ n, cs.length ≤ n + rest.length → read n cs = some (b, rest)

/-- A value that another reader goes on with, behind its bracket. -/
theorem Enough.wrap {β : Type} {read : ℕ → List Char → Option (β × List Char)} {make : β → JsonValue} {fuel : ℕ}
    (henough : Enough read fuel) {cs tail rest : List Char} {v : JsonValue} (htail : cs.length = tail.length + 1)
    (hread : ∀ fuel, readValue (fuel + 1) cs = (read fuel (skipBlank tail)).map fun r => (make r.1, r.2))
    (h : readValue (fuel + 1) cs = some (v, rest)) :
    rest.length < cs.length ∧ ∀ n, cs.length ≤ n + rest.length → readValue n cs = some (v, rest) := by
  rw [hread, Option.map_eq_some_iff] at h
  obtain ⟨⟨b, rest'⟩, hb, heq⟩ := h
  obtain ⟨rfl, rfl⟩ := Prod.mk.inj heq
  obtain ⟨hlt, hmore⟩ := henough _ _ _ hb
  have hle := length_skipBlank_le tail
  dsimp only
  refine ⟨by omega, ?_⟩
  intro n hn
  obtain ⟨m, rfl⟩ : ∃ m, n = m + 1 := ⟨n - 1, by omega⟩
  rw [hread, hmore m (by omega)]
  rfl

theorem enough_readValue {fuel : ℕ} (hmembers : Enough readMembers fuel) (helements : Enough readElements fuel) :
    Enough readValue (fuel + 1) := by
  intro cs v rest h
  rcases readValue_cases cs with ⟨result, hresult, hshort⟩ | ⟨tail, htail, hread⟩ | ⟨tail, htail, hread⟩
  · rw [hresult] at h
    have hlt := hshort v rest h
    refine ⟨hlt, ?_⟩
    intro n hn
    obtain ⟨m, rfl⟩ : ∃ m, n = m + 1 := ⟨n - 1, by omega⟩
    rw [hresult, h]
  · exact hmembers.wrap htail hread h
  · exact helements.wrap htail hread h

theorem enough_readElements {fuel : ℕ} (hvalue : Enough readValue fuel) (helements : Enough readElements fuel) :
    Enough readElements (fuel + 1) := by
  intro cs vs rest h
  simp only [readElements, Option.bind_eq_bind, Option.bind_eq_some_iff] at h
  obtain ⟨⟨v, rest₁⟩, hv, h⟩ := h
  obtain ⟨hlt, hmore⟩ := hvalue _ _ _ hv
  have hblank := length_skipBlank_le rest₁
  dsimp only at h
  split at h
  · rename_i rest₂ hclose
    obtain ⟨rfl, rfl⟩ := Prod.mk.inj (Option.some.inj h)
    rw [hclose, List.length_cons] at hblank
    refine ⟨by omega, ?_⟩
    intro n hn
    obtain ⟨m, rfl⟩ : ∃ m, n = m + 1 := ⟨n - 1, by omega⟩
    simp only [readElements, Option.bind_eq_bind, hmore m (by omega), Option.bind_some, hclose]
  · rename_i rest₂ hcomma
    rw [Option.map_eq_some_iff] at h
    obtain ⟨⟨vs', rest₃⟩, hvs, heq⟩ := h
    obtain ⟨rfl, rfl⟩ := Prod.mk.inj heq
    obtain ⟨hlt', hmore'⟩ := helements _ _ _ hvs
    have hblank' := length_skipBlank_le rest₂
    rw [hcomma, List.length_cons] at hblank
    dsimp only
    refine ⟨by omega, ?_⟩
    intro n hn
    obtain ⟨m, rfl⟩ : ∃ m, n = m + 1 := ⟨n - 1, by omega⟩
    simp only [readElements, Option.bind_eq_bind, hmore m (by omega), Option.bind_some, hcomma,
      hmore' m (by omega), Option.map_some]
  · contradiction

theorem enough_readMembers {fuel : ℕ} (hvalue : Enough readValue fuel) (hmembers : Enough readMembers fuel) :
    Enough readMembers (fuel + 1) := by
  intro cs ms rest h
  unfold readMembers at h
  split at h
  · rename_i tail
    simp only [Option.bind_eq_bind, Option.bind_eq_some_iff] at h
    obtain ⟨⟨key, rest₀⟩, hkey, h⟩ := h
    have hkeylt := length_of_readString hkey
    have hblank₀ := length_skipBlank_le rest₀
    dsimp only at h
    split at h
    · rename_i rest₁ hcolon
      rw [hcolon, List.length_cons] at hblank₀
      have hblank₁ := length_skipBlank_le rest₁
      simp only [Option.bind_eq_some_iff] at h
      obtain ⟨⟨v, rest₂⟩, hv, h⟩ := h
      obtain ⟨hlt, hmore⟩ := hvalue _ _ _ hv
      have hblank₂ := length_skipBlank_le rest₂
      dsimp only at h
      split at h
      · rename_i rest₃ hclose
        obtain ⟨rfl, rfl⟩ := Prod.mk.inj (Option.some.inj h)
        rw [hclose, List.length_cons] at hblank₂
        rw [List.length_cons]
        refine ⟨by omega, ?_⟩
        intro n hn
        obtain ⟨m, rfl⟩ : ∃ m, n = m + 1 := ⟨n - 1, by omega⟩
        simp only [readMembers, Option.bind_eq_bind, hkey, Option.bind_some, hcolon, hmore m (by omega), hclose]
      · rename_i rest₃ hcomma
        rw [Option.map_eq_some_iff] at h
        obtain ⟨⟨ms', rest₄⟩, hms, heq⟩ := h
        obtain ⟨rfl, rfl⟩ := Prod.mk.inj heq
        obtain ⟨hlt', hmore'⟩ := hmembers _ _ _ hms
        have hblank₃ := length_skipBlank_le rest₃
        rw [hcomma, List.length_cons] at hblank₂
        rw [List.length_cons]
        dsimp only
        refine ⟨by omega, ?_⟩
        intro n hn
        obtain ⟨m, rfl⟩ : ∃ m, n = m + 1 := ⟨n - 1, by omega⟩
        simp only [readMembers, Option.bind_eq_bind, hkey, Option.bind_some, hcolon, hmore m (by omega), hcomma,
          hmore' m (by omega), Option.map_some]
      · contradiction
    · contradiction
  · contradiction

theorem enough_readers (fuel : ℕ) :
    Enough readValue fuel ∧ Enough readElements fuel ∧ Enough readMembers fuel := by
  induction fuel with
  | zero => exact ⟨nofun, nofun, nofun⟩
  | succ fuel ih =>
      obtain ⟨hvalue, helements, hmembers⟩ := ih
      exact ⟨enough_readValue hmembers helements, enough_readElements hvalue helements,
        enough_readMembers hvalue hmembers⟩

/-- A text that is read with some fuel is read with one unit for each of its characters. -/
theorem readValue_of_length {fuel n : ℕ} {cs rest : List Char} {v : JsonValue}
    (h : readValue fuel cs = some (v, rest)) (hn : cs.length ≤ n) : readValue n cs = some (v, rest) :=
  ((enough_readers fuel).1 cs v rest h).2 n (by omega)

/-- `loads` refuses no text for want of fuel. -/
theorem loads_eq_some_iff {text : String} {v : JsonValue} :
    loads text = some v ↔
      ∃ fuel rest, readValue fuel (skipBlank text.toList) = some (v, rest) ∧ skipBlank rest = [] := by
  unfold loads
  simp only [Option.bind_eq_bind, Option.bind_eq_some_iff]
  constructor
  · rintro ⟨⟨v', rest⟩, hread, h⟩
    dsimp only at h
    split_ifs at h with hrest
    obtain rfl := Option.some.inj h
    exact ⟨_, rest, hread, hrest⟩
  · rintro ⟨fuel, rest, hread, hrest⟩
    refine ⟨(v, rest), readValue_of_length hread ?_, by rw [if_pos hrest]⟩
    have hle := length_skipBlank_le text.toList
    rw [String.length_toList] at hle
    omega

/-! ## Nesting -/

mutual

/-- A bracket that stands inside of `levels` others is met in a value. What is read before it is read without
a bound, for it has been found not to be nested too deeply. -/
def deepValue : ℕ → ℕ → List Char → Bool
  | 0, _, _ => false
  | fuel + 1, levels, cs =>
      match cs, levels with
      | '\x7b' :: _, 0 => true
      | '[' :: _, 0 => true
      | '\x7b' :: rest, levels + 1 => deepMembers fuel levels (skipBlank rest)
      | '[' :: rest, levels + 1 => deepElements fuel levels (skipBlank rest)
      | _, _ => false

/-- In the elements of an array; an array without elements has no value there. -/
def deepElements : ℕ → ℕ → List Char → Bool
  | 0, _, _ => false
  | fuel + 1, levels, cs =>
      deepValue fuel levels cs ||
        match readValue cs.length cs with
        | some (_, rest) =>
            match skipBlank rest with
            | ',' :: rest => deepElements fuel levels (skipBlank rest)
            | _ => false
        | none => false

/-- In the members of an object. -/
def deepMembers : ℕ → ℕ → List Char → Bool
  | 0, _, _ => false
  | fuel + 1, levels, cs =>
      match cs with
      | '"' :: rest =>
          match readString (rest.length + 1) rest with
          | some (_, rest) =>
              match skipBlank rest with
              | ':' :: rest =>
                  deepValue fuel levels (skipBlank rest) ||
                    match readValue (skipBlank rest).length (skipBlank rest) with
                    | some (_, rest) =>
                        match skipBlank rest with
                        | ',' :: rest => deepMembers fuel levels (skipBlank rest)
                        | _ => false
                    | none => false
              | _ => false
          | none => false
      | _ => false

end

/-- A reader that goes at most `levels` brackets deep gives up on the text. -/
def tooDeep (levels : ℕ) (text : String) : Bool :=
  deepValue (2 * text.length + 1) levels (skipBlank text.toList)

theorem length_of_readValue {fuel : ℕ} {cs rest : List Char} {v : JsonValue}
    (h : readValue fuel cs = some (v, rest)) : rest.length < cs.length :=
  ((enough_readers fuel).1 cs v rest h).1

/-- A bracket that is met with some fuel is met with more than twice as much as there are characters. -/
theorem deep_of_length (fuel : ℕ) :
    (∀ levels cs, deepValue fuel levels cs = true → ∀ n, 2 * cs.length < n → deepValue n levels cs = true) ∧
    (∀ levels cs, deepElements fuel levels cs = true →
      ∀ n, 2 * cs.length + 1 < n → deepElements n levels cs = true) ∧
    ∀ levels cs, deepMembers fuel levels cs = true → ∀ n, 2 * cs.length < n → deepMembers n levels cs = true := by
  induction fuel with
  | zero => exact ⟨nofun, nofun, nofun⟩
  | succ fuel ih =>
      -- a call is made on a shorter text, or goes from the elements to a value on the same one
      obtain ⟨hvalue, helements, hmembers⟩ := ih
      refine ⟨?_, ?_, ?_⟩
      · intro levels cs h n hn
        obtain ⟨m, rfl⟩ : ∃ m, n = m + 1 := ⟨n - 1, by omega⟩
        unfold deepValue at h ⊢
        split at h
        · rfl
        · rfl
        · rename_i rest levels
          have hle := length_skipBlank_le rest
          rw [List.length_cons] at hn
          exact hmembers levels _ h m (by omega)
        · rename_i rest levels
          have hle := length_skipBlank_le rest
          rw [List.length_cons] at hn
          exact helements levels _ h m (by omega)
        · contradiction
      · intro levels cs h n hn
        obtain ⟨m, rfl⟩ : ∃ m, n = m + 1 := ⟨n - 1, by omega⟩
        rw [deepElements, Bool.or_eq_true] at h ⊢
        rcases h with h | h
        · exact .inl (hvalue levels cs h m (by omega))
        · refine .inr ?_
          split at h
          · rename_i v rest hread
            have hlt := length_of_readValue hread
            have hblank := length_skipBlank_le rest
            split at h
            · rename_i rest' hcomma
              have hblank' := length_skipBlank_le rest'
              rw [hcomma, List.length_cons] at hblank
              exact helements levels _ h m (by omega)
            · contradiction
          · contradiction
      · intro levels cs h n hn
        obtain ⟨m, rfl⟩ : ∃ m, n = m + 1 := ⟨n - 1, by omega⟩
        unfold deepMembers at h ⊢
        split at h
        · rename_i tail
          rw [List.length_cons] at hn
          split at h
          · rename_i key rest hkey
            have hkeylt := length_of_readString hkey
            have hblank := length_skipBlank_le rest
            split at h
            · rename_i rest' hcolon
              rw [hcolon, List.length_cons] at hblank
              have hblank' := length_skipBlank_le rest'
              rw [Bool.or_eq_true] at h ⊢
              rcases h with h | h
              · exact .inl (hvalue levels _ h m (by omega))
              · refine .inr ?_
                split at h
                · rename_i v rest₂ hread
                  have hlt := length_of_readValue hread
                  have hblank₂ := length_skipBlank_le rest₂
                  split at h
                  · rename_i rest₃ hcomma
                    have hblank₃ := length_skipBlank_le rest₃
                    rw [hcomma, List.length_cons] at hblank₂
                    exact hmembers levels _ h m (by omega)
                  · contradiction
                · contradiction
            · contradiction
          · contradiction
        · contradiction

/-- `tooDeep` overlooks no bracket for want of fuel. -/
theorem tooDeep_iff {levels : ℕ} {text : String} :
    tooDeep levels text = true ↔ ∃ fuel, deepValue fuel levels (skipBlank text.toList) = true := by
  constructor
  · exact fun h => ⟨_, h⟩
  · rintro ⟨fuel, h⟩
    have hle := length_skipBlank_le text.toList
    rw [String.length_toList] at hle
    exact (deep_of_length fuel).1 levels _ h _ (by omega)

/-- Strings are not nested. -/
theorem deepValue_quoteAscii (s : String) (fuel levels : ℕ) (rest : List Char) :
    deepValue fuel levels (quoteAscii s ++ rest) = false := by
  cases fuel with
  | zero => rfl
  | succ fuel => rfl

/-- A member with a string under its key. -/
theorem deepMembers_quoteAscii (key s : String) (fuel levels : ℕ) (rest : List Char) :
    deepMembers (fuel + 1) levels (quoteAscii key ++ ':' :: ' ' :: (quoteAscii s ++ rest)) =
      match skipBlank rest with
      | ',' :: rest => deepMembers fuel levels (skipBlank rest)
      | _ => false := by
  have hkey := readString_quoteAscii_tail key (':' :: ' ' :: (quoteAscii s ++ rest))
  have hvalue : readValue (quoteAscii s ++ rest).length (quoteAscii s ++ rest) = some (.str s, rest) :=
    readValue_of_length (readValue_quoteAscii s 0 rest) le_rfl
  have hspace : skipBlank (' ' :: (quoteAscii s ++ rest)) = quoteAscii s ++ rest := rfl
  have hcolon : ∀ cs, skipBlank (':' :: cs) = ':' :: cs := fun _ => rfl
  rw [show quoteAscii key ++ ':' :: ' ' :: (quoteAscii s ++ rest)
    = '"' :: (key.toList.flatMap escapeAscii ++ '"' :: (':' :: ' ' :: (quoteAscii s ++ rest))) by
      simp [quoteAscii]]
  rw [deepMembers, hkey]
  simp only [hcolon, hspace, deepValue_quoteAscii, hvalue, Bool.false_or]

end ApexChainx.Lib
