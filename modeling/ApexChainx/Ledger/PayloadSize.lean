import ApexChainx.Ledger.Sanitize

/-!
# The size of a payload

What `json.dumps` makes of a value, by its number of bytes (`encodedSize`) and by how deep its containers are nested
(`nesting`). The encoder of `json` recurses: the interpreter lets it be inside of at most so many containers, and it
raises `RecursionError` when there are more (`tooNested`), unless something else stops it before.
-/

namespace ApexChainx.Ledger

open ApexChainx.Lib

/-! ## Bytes -/

theorem utf8Length_append (cs ds : List Char) : utf8Length (cs ++ ds) = utf8Length cs + utf8Length ds := by
  rw [utf8Length, List.map_append, List.sum_append]
  rfl

theorem utf8Length_cons (c : Char) (cs : List Char) : utf8Length (c :: cs) = c.utf8Size + utf8Length cs := by
  rw [utf8Length, List.map_cons, List.sum_cons]
  rfl

theorem length_le_utf8Length (cs : List Char) : cs.length ≤ utf8Length cs := by
  induction cs with
  | nil => exact le_rfl
  | cons c cs ih =>
      have hpos := Char.utf8Size_pos c
      rw [utf8Length_cons, List.length_cons]
      omega

/-- The number of bytes of a key, `none` if it is none. -/
def keySize (k : PyValue) : Option ℕ := (dumpsKey k).map utf8Length

mutual

/-- The number of bytes that `json.dumps` writes, `none` if it raises. -/
def encodedSize : PyValue → Option ℕ
  | .list items => (itemsSize items).map fun n => max 2 (n + 1)
  | .tuple items => (itemsSize items).map fun n => max 2 (n + 1)
  | .dict members => (membersSize members).map fun n => max 2 (n + 1)
  | v => (dumps v).map utf8Length

/-- The same for items, each with a comma. -/
def itemsSize : List PyValue → Option ℕ
  | [] => some 0
  | v :: vs => do
      let size ← encodedSize v
      let sizes ← itemsSize vs
      return size + 1 + sizes

/-- The same for members, each with a colon and a comma. -/
def membersSize : List (PyValue × PyValue) → Option ℕ
  | [] => some 0
  | (k, v) :: ms => do
      let key ← keySize k
      let size ← encodedSize v
      let sizes ← membersSize ms
      return key + 1 + size + 1 + sizes

end

/-- Texts with commas in between, in brackets. -/
theorem utf8Length_bracketed {opening closing : Char} (hopening : opening.utf8Size = 1)
    (hclosing : closing.utf8Size = 1) (texts : List (List Char)) :
    utf8Length (opening :: ([','].intercalate texts ++ [closing])) =
      max 2 ((texts.map fun text => utf8Length text + 1).sum + 1) := by
  have hcommas : ∀ text texts, utf8Length ([','].intercalate (text :: texts)) + 1 =
      ((text :: texts).map fun text => utf8Length text + 1).sum := by
    intro text texts
    induction texts generalizing text with
    | nil => simp
    | cons next texts ih =>
        have hcomma : utf8Length [','] = 1 := rfl
        rw [List.intercalate_cons_cons, List.map_cons, List.sum_cons, ← ih next]
        simp only [utf8Length_append, hcomma]
        omega
  rw [utf8Length_cons, utf8Length_append, utf8Length_cons, hopening, hclosing]
  cases texts with
  | nil => rfl
  | cons text texts =>
      rw [← hcommas text texts]
      have hnil : utf8Length [] = 0 := rfl
      omega

mutual

theorem encodedSize_eq : ∀ v : PyValue, encodedSize v = (dumps v).map utf8Length
  | .none => rfl
  | .bool _ => rfl
  | .int _ => rfl
  | .float _ => rfl
  | .str _ => rfl
  | .list items => by
      rw [encodedSize, dumps, itemsSize_eq items, Option.map_map, Option.map_map]
      exact Option.map_congr fun texts _ => (utf8Length_bracketed rfl rfl texts).symm
  | .tuple items => by
      rw [encodedSize, dumps, itemsSize_eq items, Option.map_map, Option.map_map]
      exact Option.map_congr fun texts _ => (utf8Length_bracketed rfl rfl texts).symm
  | .dict members => by
      rw [encodedSize, dumps, membersSize_eq members, Option.map_map, Option.map_map]
      exact Option.map_congr fun texts _ => (utf8Length_bracketed rfl rfl texts).symm
  | .other _ => rfl

theorem itemsSize_eq : ∀ vs : List PyValue,
    itemsSize vs = (dumpsItems vs).map fun texts => (texts.map fun text => utf8Length text + 1).sum
  | [] => rfl
  | v :: vs => by
      rw [itemsSize, dumpsItems, encodedSize_eq v, itemsSize_eq vs]
      cases dumps v with
      | none => rfl
      | some text =>
          cases dumpsItems vs with
          | none => rfl
          | some texts => rfl

theorem membersSize_eq : ∀ ms : List (PyValue × PyValue),
    membersSize ms = (dumpsMembers ms).map fun texts => (texts.map fun text => utf8Length text + 1).sum
  | [] => rfl
  | (k, v) :: ms => by
      rw [membersSize, dumpsMembers, keySize, encodedSize_eq v, membersSize_eq ms]
      cases dumpsKey k with
      | none => rfl
      | some key =>
          cases dumps v with
          | none => rfl
          | some text =>
              cases dumpsMembers ms with
              | none => rfl
              | some texts =>
                  have hcolon : utf8Length (key ++ ':' :: text) = utf8Length key + (1 + utf8Length text) := by
                    rw [utf8Length_append, utf8Length_cons]
                    rfl
                  simp only [Option.map_some, Option.bind_eq_bind, Option.bind_some, Option.pure_def, List.map_cons,
                    List.sum_cons, hcolon, Option.some.injEq]
                  omega

end

/-- `_validate_payload_size` by the number of bytes. -/
theorem validatePayloadSize_eq (limits : PayloadLimits) (payload : PyValue) :
    validatePayloadSize limits payload =
      match encodedSize payload with
      | none => .error (.validation .notSerializable)
      | some bytes => if bytes > limits.maxPayloadBytes then .error (.validation .tooLarge) else .ok () := by
  rw [validatePayloadSize, encodedSize_eq]
  cases dumps payload <;> rfl

/-! ## Levels -/

mutual

/-- How many containers are inside one another, the value itself included. -/
def nesting : PyValue → ℕ
  | .list items => itemsNesting items + 1
  | .tuple items => itemsNesting items + 1
  | .dict members => membersNesting members + 1
  | _ => 0

def itemsNesting : List PyValue → ℕ
  | [] => 0
  | v :: vs => max (nesting v) (itemsNesting vs)

def membersNesting : List (PyValue × PyValue) → ℕ
  | [] => 0
  | (_, v) :: ms => max (nesting v) (membersNesting ms)

end

mutual

/-- `json.dumps` gets inside of more than `levels` containers before it raises anything else. -/
def tooNested (levels : ℕ) : PyValue → Bool
  | .list items => levels = 0 || itemsTooNested (levels - 1) items
  | .tuple items => levels = 0 || itemsTooNested (levels - 1) items
  | .dict members => levels = 0 || membersTooNested (levels - 1) members
  | _ => false

def itemsTooNested (levels : ℕ) : List PyValue → Bool
  | [] => false
  | v :: vs => tooNested levels v || ((dumps v).isSome && itemsTooNested levels vs)

def membersTooNested (levels : ℕ) : List (PyValue × PyValue) → Bool
  | [] => false
  | (k, v) :: ms =>
      (dumpsKey k).isSome && (tooNested levels v || ((dumps v).isSome && membersTooNested levels ms))

end

mutual

/-- When nothing else stops the encoder the levels are those of the value. -/
theorem tooNested_eq (levels : ℕ) : ∀ v : PyValue, (dumps v).isSome → tooNested levels v = decide (levels < nesting v)
  | .none, _ => rfl
  | .bool _, _ => rfl
  | .int _, _ => rfl
  | .float _, _ => rfl
  | .str _, _ => rfl
  | .list items, h => by
      rw [dumps, Option.isSome_map] at h
      rw [tooNested, itemsTooNested_eq (levels - 1) items h, nesting, ← Bool.decide_or, decide_eq_decide]
      omega
  | .tuple items, h => by
      rw [dumps, Option.isSome_map] at h
      rw [tooNested, itemsTooNested_eq (levels - 1) items h, nesting, ← Bool.decide_or, decide_eq_decide]
      omega
  | .dict members, h => by
      rw [dumps, Option.isSome_map] at h
      rw [tooNested, membersTooNested_eq (levels - 1) members h, nesting, ← Bool.decide_or, decide_eq_decide]
      omega
  | .other _, _ => rfl

theorem itemsTooNested_eq (levels : ℕ) : ∀ vs : List PyValue, (dumpsItems vs).isSome →
    itemsTooNested levels vs = decide (levels < itemsNesting vs)
  | [], _ => rfl
  | v :: vs, h => by
      obtain ⟨texts, h⟩ := Option.isSome_iff_exists.mp h
      simp only [dumpsItems, Option.bind_eq_bind, Option.bind_eq_some_iff] at h
      obtain ⟨text, hv, rest, hvs, -⟩ := h
      rw [itemsTooNested, tooNested_eq levels v (by rw [hv]; rfl), itemsTooNested_eq levels vs (by rw [hvs]; rfl), hv,
        itemsNesting, Option.isSome_some, Bool.true_and, ← Bool.decide_or, decide_eq_decide]
      exact lt_max_iff.symm

theorem membersTooNested_eq (levels : ℕ) : ∀ ms : List (PyValue × PyValue), (dumpsMembers ms).isSome →
    membersTooNested levels ms = decide (levels < membersNesting ms)
  | [], _ => rfl
  | (k, v) :: ms, h => by
      obtain ⟨texts, h⟩ := Option.isSome_iff_exists.mp h
      simp only [dumpsMembers, Option.bind_eq_bind, Option.bind_eq_some_iff] at h
      obtain ⟨key, hk, text, hv, rest, hms, -⟩ := h
      rw [membersTooNested, tooNested_eq levels v (by rw [hv]; rfl), membersTooNested_eq levels ms (by rw [hms]; rfl),
        hk, hv, membersNesting, Option.isSome_some, Option.isSome_some, Bool.true_and, Bool.true_and,
        ← Bool.decide_or, decide_eq_decide]
      exact lt_max_iff.symm

end

/-! ## Values that shrink -/

/-- The second size is no larger, and there is one if there is a first. -/
def SizeLe (size size' : Option ℕ) : Prop := ∀ n, size = some n → ∃ n', size' = some n' ∧ n' ≤ n

/-- In place of the first value the encoder takes the second, which is no larger and no deeper. -/
structure Shrinks (v v' : PyValue) : Prop where
  size : SizeLe (encodedSize v) (encodedSize v')
  nesting : nesting v' ≤ nesting v

theorem SizeLe.refl (size : Option ℕ) : SizeLe size size := fun n h => ⟨n, h, le_rfl⟩

theorem SizeLe.trans {a b c : Option ℕ} (h : SizeLe a b) (h' : SizeLe b c) : SizeLe a c := by
  intro n hn
  obtain ⟨m, hm, hle⟩ := h n hn
  obtain ⟨l, hl, hle'⟩ := h' m hm
  exact ⟨l, hl, hle'.trans hle⟩

theorem SizeLe.map {a b : Option ℕ} (h : SizeLe a b) {f : ℕ → ℕ} (hf : Monotone f) :
    SizeLe (a.map f) (b.map f) := by
  intro n hn
  obtain ⟨m, hm, rfl⟩ := Option.map_eq_some_iff.mp hn
  obtain ⟨l, hl, hle⟩ := h m hm
  exact ⟨f l, by rw [hl, Option.map_some], hf hle⟩

theorem Shrinks.refl (v : PyValue) : Shrinks v v := ⟨SizeLe.refl _, le_rfl⟩

theorem Shrinks.trans {u v w : PyValue} (h : Shrinks u v) (h' : Shrinks v w) : Shrinks u w :=
  ⟨h.size.trans h'.size, h'.nesting.trans h.nesting⟩

/-- The bytes of a container grow with those of what is in it. -/
theorem monotone_bracketed : Monotone fun n : ℕ => max 2 (n + 1) := by
  intro a b h
  dsimp only
  omega

theorem shrinks_items {vs vs' : List PyValue} (h : List.Forall₂ Shrinks vs vs') :
    SizeLe (itemsSize vs) (itemsSize vs') ∧ itemsNesting vs' ≤ itemsNesting vs := by
  induction h with
  | nil => exact ⟨SizeLe.refl _, le_rfl⟩
  | cons hv _ ih =>
      obtain ⟨hsizes, hnesting⟩ := ih
      refine ⟨?_, max_le_max hv.nesting hnesting⟩
      intro n hn
      simp only [itemsSize, Option.bind_eq_bind, Option.bind_eq_some_iff, Option.pure_def, Option.some.injEq] at hn
      obtain ⟨size, hsize, sizes, hrest, rfl⟩ := hn
      obtain ⟨size', hsize', hle⟩ := hv.size size hsize
      obtain ⟨sizes', hrest', hle'⟩ := hsizes sizes hrest
      refine ⟨size' + 1 + sizes', ?_, by omega⟩
      rw [itemsSize, hsize', hrest']
      rfl

theorem Shrinks.list {vs vs' : List PyValue} (h : List.Forall₂ Shrinks vs vs') :
    Shrinks (.list vs) (.list vs') := by
  obtain ⟨hsizes, hnesting⟩ := shrinks_items h
  refine ⟨?_, Nat.succ_le_succ hnesting⟩
  rw [encodedSize, encodedSize]
  exact hsizes.map monotone_bracketed

theorem Shrinks.tuple {vs vs' : List PyValue} (h : List.Forall₂ Shrinks vs vs') :
    Shrinks (.tuple vs) (.list vs') := by
  refine ⟨?_, (Shrinks.list h).nesting⟩
  have hsize := (Shrinks.list h).size
  rwa [encodedSize] at hsize ⊢

theorem shrinks_members {ms ms' : List (PyValue × PyValue)}
    (h : List.Forall₂ (fun m m' => SizeLe (keySize m.1) (keySize m'.1) ∧ Shrinks m.2 m'.2) ms ms') :
    SizeLe (membersSize ms) (membersSize ms') ∧ membersNesting ms' ≤ membersNesting ms := by
  induction h with
  | nil => exact ⟨SizeLe.refl _, le_rfl⟩
  | @cons m m' _ _ hm _ ih =>
      obtain ⟨k, v⟩ := m
      obtain ⟨k', v'⟩ := m'
      obtain ⟨hk, hv⟩ := hm
      obtain ⟨hsizes, hnesting⟩ := ih
      refine ⟨?_, max_le_max hv.nesting hnesting⟩
      intro n hn
      simp only [membersSize, Option.bind_eq_bind, Option.bind_eq_some_iff, Option.pure_def, Option.some.injEq] at hn
      obtain ⟨key, hkey, size, hsize, sizes, hrest, rfl⟩ := hn
      obtain ⟨key', hkey', hle⟩ := hk key hkey
      obtain ⟨size', hsize', hle'⟩ := hv.size size hsize
      obtain ⟨sizes', hrest', hle''⟩ := hsizes sizes hrest
      refine ⟨key' + 1 + size' + 1 + sizes', ?_, by omega⟩
      dsimp only at hkey' hsize'
      rw [membersSize, hkey', hsize', hrest']
      rfl

theorem Shrinks.dict {ms ms' : List (PyValue × PyValue)}
    (h : List.Forall₂ (fun m m' => SizeLe (keySize m.1) (keySize m'.1) ∧ Shrinks m.2 m'.2) ms ms') :
    Shrinks (.dict ms) (.dict ms') := by
  obtain ⟨hsizes, hnesting⟩ := shrinks_members h
  refine ⟨?_, Nat.succ_le_succ hnesting⟩
  rw [encodedSize, encodedSize]
  exact hsizes.map monotone_bracketed

/-- Leaving characters out of a text makes it no longer. -/
theorem utf8Length_quote_le {s s' : String} (h : List.Sublist s'.toList s.toList) :
    utf8Length (quote s') ≤ utf8Length (quote s) := by
  have hflat : ∀ cs : List Char, utf8Length (cs.flatMap escape) = (cs.map fun c => utf8Length (escape c)).sum := by
    intro cs
    induction cs with
    | nil => rfl
    | cons c cs ih => rw [List.flatMap_cons, utf8Length_append, ih, List.map_cons, List.sum_cons]
  have hsum : (s'.toList.map fun c => utf8Length (escape c)).sum ≤
      (s.toList.map fun c => utf8Length (escape c)).sum :=
    (h.map _).sum_le_sum fun _ _ => Nat.zero_le _
  simp only [quote, utf8Length_cons, utf8Length_append, hflat]
  omega

theorem shrinks_str {s s' : String} (h : List.Sublist s'.toList s.toList) : Shrinks (.str s) (.str s') := by
  refine ⟨?_, le_rfl⟩
  intro n hn
  obtain rfl := Option.some.inj hn
  exact ⟨_, rfl, utf8Length_quote_le h⟩

theorem sizeLe_key {s s' : String} (h : List.Sublist s'.toList s.toList) :
    SizeLe (keySize (.str s)) (keySize (.str s')) := by
  intro n hn
  obtain rfl := Option.some.inj hn
  exact ⟨_, rfl, utf8Length_quote_le h⟩

/-! ## Sanitising within the stack -/

/-- What the sanitiser raises when the encoder can run out of its levels. -/
inductive SanitizeException
  | raised (e : SanitizeError)
  | recursionError
deriving DecidableEq, Repr

/-- `sanitize_block_payload` in an interpreter that lets `json.dumps` be inside of `levels` containers. -/
def sanitizeWithin (levels : ℕ) (limits : PayloadLimits) (unicode : UnicodeDigits) (payload : PyValue) :
    Except SanitizeException SanitizedBlock :=
  match payload with
  | .dict members =>
      if tooNested levels (.dict members) then .error .recursionError
      else (sanitizeBlockPayload limits unicode (.dict members)).mapError .raised
  | _ => .error (.raised (.validation .notObject))

end ApexChainx.Ledger
