import ApexChainx.Ledger.PayloadSize

/-!
# The checks of a payload

`_sanitize_value` taken apart into what it checks (`passes`) and what it makes of a value (`clean`). It either
refuses a value by a validation error, or hands back the cleaned value, which passes the checks again and is clean.
-/

namespace ApexChainx.Ledger

open ApexChainx.Lib

/-! ## Computations that refuse by validation -/

/-- The computation succeeds with `a` when `ok` says so, and otherwise raises `BlockPollerValidationError`. -/
def Decides {α : Type} (x : Except SanitizeError α) (ok : Bool) (a : α) : Prop :=
  if ok then x = .ok a else ∃ reason, x = .error (.validation reason)

section Decides

variable {α β : Type} {x : Except SanitizeError α} {ok ok' : Bool} {a : α} {b : β}

theorem decides_ok (a : α) : Decides (.ok a) true a := rfl

theorem decides_error (reason : Invalid) (a : α) : Decides (.error (.validation reason)) false a := ⟨reason, rfl⟩

theorem Decides.map (h : Decides x ok a) (f : α → β) : Decides (x.map f) ok (f a) := by
  cases ok with
  | true =>
      obtain rfl : x = .ok a := h
      exact decides_ok (f a)
  | false =>
      obtain ⟨reason, rfl⟩ := h
      exact decides_error reason (f a)

theorem Decides.bind {f : α → Except SanitizeError β} (h : Decides x ok a)
    (hf : ok = true → Decides (f a) ok' b) : Decides (x >>= f) (ok && ok') b := by
  cases ok with
  | true =>
      obtain rfl : x = .ok a := h
      exact hf rfl
  | false =>
      obtain ⟨reason, rfl⟩ := h
      exact decides_error reason b

/-- A check before the rest. -/
theorem Decides.unless {p : Prop} [Decidable p] {reason : Invalid} (h : ¬ p → Decides x ok a) :
    Decides (if p then .error (.validation reason) else x) (!decide p && ok) a := by
  by_cases hp : p
  · rw [if_pos hp, decide_eq_true hp]
    exact decides_error reason a
  · rw [if_neg hp, decide_eq_false hp]
    exact h hp

end Decides

/-! ## Texts -/

/-- `_CONTROL_CHARS_RE.sub("", value)`. -/
def cleanChars (s : String) : String := String.ofList (s.toList.filter fun c => !isControl c)

/-- What `_clean_text` checks. -/
def textPasses (maxLength : ℕ) (s : String) : Bool :=
  !s.toList.contains '\x00' && (cleanChars s).length ≤ maxLength

theorem cleanText_decides (value field : String) (maxLength : ℕ) :
    Decides (cleanText value field maxLength) (textPasses maxLength value) (cleanChars value) := by
  have hlength : decide ((cleanChars value).length ≤ maxLength) =
      (!decide ((cleanChars value).length > maxLength) && true) := by
    rw [Bool.and_true, ← decide_not, decide_eq_decide, not_lt]
  have hnull : (!value.toList.contains '\x00') = !decide (value.toList.contains '\x00' = true) := by
    rw [Bool.decide_eq_true]
  unfold cleanText textPasses
  rw [hlength, hnull]
  exact Decides.unless fun _ => Decides.unless fun _ => decides_ok _

theorem sublist_cleanChars (s : String) : List.Sublist (cleanChars s).toList s.toList := by
  rw [cleanChars, String.toList_ofList]
  exact List.filter_sublist

theorem cleanChars_eq_self {s : String} (h : ∀ c ∈ s.toList, isControl c = false) : cleanChars s = s := by
  have hall : s.toList.filter (fun c => !isControl c) = s.toList := by
    refine List.filter_eq_self.mpr fun c hc => ?_
    rw [h c hc]
    rfl
  rw [cleanChars, hall, String.ofList_toList]

theorem not_isControl_of_clean {s : String} (h : cleanChars s = s) : ∀ c ∈ s.toList, isControl c = false := by
  intro c hc
  rw [← h, cleanChars, String.toList_ofList, List.mem_filter] at hc
  simpa using hc.2

theorem cleanChars_idem (s : String) : cleanChars (cleanChars s) = cleanChars s := by
  refine cleanChars_eq_self fun c hc => ?_
  rw [cleanChars, String.toList_ofList, List.mem_filter] at hc
  simpa using hc.2

/-- A clean text passes when it is short enough. -/
theorem textPasses_iff_of_clean {maxLength : ℕ} {s : String} (h : cleanChars s = s) :
    textPasses maxLength s = true ↔ s.length ≤ maxLength := by
  have hnull : s.toList.contains '\x00' = false := by
    rw [Bool.eq_false_iff]
    intro hmem
    have hcontrol := not_isControl_of_clean h _ (List.contains_iff_mem.mp hmem)
    contradiction
  rw [textPasses, h, hnull, Bool.not_false, Bool.true_and, decide_eq_true_eq]

theorem textPasses_cleanChars {maxLength : ℕ} {s : String} (h : textPasses maxLength s = true) :
    textPasses maxLength (cleanChars s) = true := by
  rw [textPasses, Bool.and_eq_true, decide_eq_true_eq] at h
  exact (textPasses_iff_of_clean (cleanChars_idem s)).mpr h.2

/-! ## Values -/

/-- What `_sanitize_key` checks of a text. -/
def keyPasses (limits : PayloadLimits) (key : String) : Bool :=
  textPasses limits.maxIdentifierLength key && !decide (strip (cleanChars key) = "")

mutual

/-- What `_sanitize_value` checks. -/
def passes (limits : PayloadLimits) (depth : ℕ) : PyValue → Bool
  | .none => !decide (depth > limits.maxDepth)
  | .bool _ => !decide (depth > limits.maxDepth)
  | .int _ => !decide (depth > limits.maxDepth)
  | .float (.finite _) => !decide (depth > limits.maxDepth)
  | .float (.nonFinite _) => false
  | .str s => !decide (depth > limits.maxDepth) && textPasses limits.maxStringLength s
  | .list items =>
      !decide (depth > limits.maxDepth) && (!decide (items.length > limits.maxCollectionItems) &&
        itemsPass limits (depth + 1) items)
  | .tuple items =>
      !decide (depth > limits.maxDepth) && (!decide (items.length > limits.maxCollectionItems) &&
        itemsPass limits (depth + 1) items)
  | .dict members =>
      !decide (depth > limits.maxDepth) && (!decide (members.length > limits.maxCollectionItems) &&
        membersPass limits (depth + 1) [] members)
  | .other _ => false

def itemsPass (limits : PayloadLimits) (depth : ℕ) : List PyValue → Bool
  | [] => true
  | v :: vs => passes limits depth v && itemsPass limits depth vs

/-- The same for members, with the keys before them. -/
def membersPass (limits : PayloadLimits) (depth : ℕ) (seen : List String) : List (PyValue × PyValue) → Bool
  | [] => true
  | (.str key, v) :: ms =>
      keyPasses limits key && (!decide (cleanChars key ∈ seen) &&
        (passes limits depth v && membersPass limits depth (seen ++ [cleanChars key]) ms))
  | _ :: _ => false

end

/-- A dictionary with text keys, as a value. -/
def Members.toValue (d : Members) : PyValue := .dict (d.map fun m => (.str m.1, m.2))

mutual

/-- What `_sanitize_value` makes of a value: texts without control characters, and lists for tuples. -/
def clean : PyValue → PyValue
  | .none => .none
  | .bool b => .bool b
  | .int n => .int n
  | .float f => .float f
  | .str s => .str (cleanChars s)
  | .list items => .list (cleanItems items)
  | .tuple items => .list (cleanItems items)
  | .dict members => (cleanMembers members).toValue
  | .other typeName => .other typeName

def cleanItems : List PyValue → List PyValue
  | [] => []
  | v :: vs => clean v :: cleanItems vs

def cleanMembers : List (PyValue × PyValue) → Members
  | [] => []
  | (.str key, v) :: ms => (cleanChars key, clean v) :: cleanMembers ms
  | _ :: ms => cleanMembers ms

end

theorem sanitizeKey_decides (limits : PayloadLimits) (field key : String) :
    Decides (sanitizeKey limits field (.str key)) (keyPasses limits key) (cleanChars key) := by
  have hclean := cleanText_decides key (field ++ " key") limits.maxIdentifierLength
  rw [sanitizeKey, keyPasses]
  generalize cleanChars key = cleaned at hclean
  have hempty : Decides (if strip cleaned = "" then .error (.validation (.emptyKey field)) else .ok cleaned)
      (!decide (strip cleaned = "") && true) cleaned := by
    apply Decides.unless
    intro _
    exact decides_ok _
  rw [Bool.and_true] at hempty
  exact hclean.bind fun _ => hempty

theorem withinDepth_decides {limits : PayloadLimits} {depth : ℕ} {field : String}
    {rest : Except SanitizeError PyValue} {ok : Bool} {v : PyValue} (h : Decides rest ok v) :
    Decides (withinDepth limits depth field rest) (!decide (depth > limits.maxDepth) && ok) v :=
  Decides.unless fun _ => h

mutual

theorem sanitizeValue_decides (limits : PayloadLimits) (depth : ℕ) (field : String) :
    ∀ v : PyValue, Decides (sanitizeValue limits depth field v) (passes limits depth v) (clean v)
  | .none => by
      rw [sanitizeValue, passes, ← Bool.and_true (!_), clean]
      exact withinDepth_decides (decides_ok _)
  | .bool _ => by
      rw [sanitizeValue, passes, ← Bool.and_true (!_), clean]
      exact withinDepth_decides (decides_ok _)
  | .int _ => by
      rw [sanitizeValue, passes, ← Bool.and_true (!_), clean]
      exact withinDepth_decides (decides_ok _)
  | .float (.finite _) => by
      rw [sanitizeValue, passes, ← Bool.and_true (!_), clean]
      exact withinDepth_decides (decides_ok _)
  | .float (.nonFinite _) => by
      rw [sanitizeValue, passes, ← Bool.and_false (!decide (depth > limits.maxDepth)), clean]
      exact withinDepth_decides (decides_error _ _)
  | .str s => by
      rw [sanitizeValue, passes, clean]
      exact withinDepth_decides ((cleanText_decides s field limits.maxStringLength).map _)
  | .list items => by
      rw [sanitizeValue, passes, clean]
      exact withinDepth_decides (Decides.unless fun _ => (sanitizeItems_decides limits (depth + 1) field 0 items).map _)
  | .tuple items => by
      rw [sanitizeValue, passes, clean]
      exact withinDepth_decides (Decides.unless fun _ => (sanitizeItems_decides limits (depth + 1) field 0 items).map _)
  | .dict members => by
      rw [sanitizeValue, passes, clean]
      exact withinDepth_decides
        (Decides.unless fun _ => (sanitizeMembers_decides limits (depth + 1) field [] members).map _)
  | .other _ => by
      rw [sanitizeValue, passes, ← Bool.and_false (!decide (depth > limits.maxDepth)), clean]
      exact withinDepth_decides (decides_error _ _)

theorem sanitizeItems_decides (limits : PayloadLimits) (depth : ℕ) (field : String) (index : ℕ) :
    ∀ vs : List PyValue,
      Decides (sanitizeItems limits depth field index vs) (itemsPass limits depth vs) (cleanItems vs)
  | [] => decides_ok _
  | v :: vs => by
      rw [sanitizeItems, itemsPass, cleanItems, ← Bool.and_true (itemsPass limits depth vs)]
      refine (sanitizeValue_decides limits depth _ v).bind fun _ => ?_
      exact (sanitizeItems_decides limits depth field (index + 1) vs).bind fun _ => decides_ok _

theorem sanitizeMembers_decides (limits : PayloadLimits) (depth : ℕ) (field : String) (sanitized : Members) :
    ∀ ms : List (PyValue × PyValue),
      Decides (sanitizeMembers limits depth field sanitized ms)
        (membersPass limits depth (sanitized.map Prod.fst) ms) (sanitized ++ cleanMembers ms)
  | [] => by
      rw [sanitizeMembers, membersPass, cleanMembers, List.append_nil]
      exact decides_ok _
  | (.str key, v) :: ms => by
      rw [sanitizeMembers, membersPass, cleanMembers]
      refine (sanitizeKey_decides limits field key).bind fun _ => ?_
      have hseen : decide (cleanChars key ∈ sanitized.map Prod.fst) =
          decide ((sanitized.any fun m => m.1 = cleanChars key) = true) := by
        rw [decide_eq_decide, List.any_eq_true, List.mem_map]
        simp only [decide_eq_true_eq]
      rw [hseen]
      refine Decides.unless fun _ => (sanitizeValue_decides limits depth _ v).bind fun _ => ?_
      have hrest := sanitizeMembers_decides limits depth field (sanitized ++ [(cleanChars key, clean v)]) ms
      rwa [List.map_append, List.append_assoc] at hrest
  | (.none, _) :: _ => decides_error _ _
  | (.bool _, _) :: _ => decides_error _ _
  | (.int _, _) :: _ => decides_error _ _
  | (.float _, _) :: _ => decides_error _ _
  | (.list _, _) :: _ => decides_error _ _
  | (.tuple _, _) :: _ => decides_error _ _
  | (.dict _, _) :: _ => decides_error _ _
  | (.other _, _) :: _ => decides_error _ _

end

/-! ## What is clean -/

theorem keyPasses_cleanChars {limits : PayloadLimits} {key : String} (h : keyPasses limits key = true) :
    keyPasses limits (cleanChars key) = true := by
  rw [keyPasses, Bool.and_eq_true] at h ⊢
  rw [cleanChars_idem]
  exact ⟨textPasses_cleanChars h.1, h.2⟩

theorem cleanItems_eq_map (vs : List PyValue) : cleanItems vs = vs.map clean := by
  induction vs with
  | nil => rfl
  | cons v vs ih => rw [cleanItems, ih, List.map_cons]

theorem cleanMembers_toPairs (d : Members) :
    cleanMembers (d.map fun m => (.str m.1, m.2)) = d.map fun m => (cleanChars m.1, clean m.2) := by
  induction d with
  | nil => rfl
  | cons m d ih => rw [List.map_cons, cleanMembers, ih, List.map_cons]

mutual

theorem clean_idem : ∀ v : PyValue, clean (clean v) = clean v
  | .none => rfl
  | .bool _ => rfl
  | .int _ => rfl
  | .float _ => rfl
  | .str s => by rw [clean, clean, cleanChars_idem]
  | .list items => by rw [clean, clean, cleanItems_idem items]
  | .tuple items => by rw [clean, clean, cleanItems_idem items]
  | .dict members => by
      rw [clean, Members.toValue, clean, cleanMembers_toPairs, cleanMembers_idem members]
      rfl
  | .other _ => rfl

theorem cleanItems_idem : ∀ vs : List PyValue, cleanItems (cleanItems vs) = cleanItems vs
  | [] => rfl
  | v :: vs => by rw [cleanItems, cleanItems, clean_idem v, cleanItems_idem vs]

theorem cleanMembers_idem : ∀ ms : List (PyValue × PyValue),
    ((cleanMembers ms).map fun m => (cleanChars m.1, clean m.2)) = cleanMembers ms
  | [] => rfl
  | (.str key, v) :: ms => by
      rw [cleanMembers, List.map_cons, cleanChars_idem, clean_idem v, cleanMembers_idem ms]
  | (.none, _) :: ms => cleanMembers_idem ms
  | (.bool _, _) :: ms => cleanMembers_idem ms
  | (.int _, _) :: ms => cleanMembers_idem ms
  | (.float _, _) :: ms => cleanMembers_idem ms
  | (.list _, _) :: ms => cleanMembers_idem ms
  | (.tuple _, _) :: ms => cleanMembers_idem ms
  | (.dict _, _) :: ms => cleanMembers_idem ms
  | (.other _, _) :: ms => cleanMembers_idem ms

end

theorem length_cleanMembers {limits : PayloadLimits} {depth : ℕ} {seen : List String} :
    ∀ {ms : List (PyValue × PyValue)}, membersPass limits depth seen ms = true →
      (cleanMembers ms).length = ms.length
  | [], _ => rfl
  | (.str key, v) :: ms, h => by
      simp only [membersPass, Bool.and_eq_true] at h
      rw [cleanMembers, List.length_cons, List.length_cons, length_cleanMembers h.2.2.2]

mutual

/-- What passes the checks passes them when it is clean. -/
theorem passes_clean (limits : PayloadLimits) : ∀ (depth : ℕ) (v : PyValue),
    passes limits depth v = true → passes limits depth (clean v) = true
  | _, .none, h => h
  | _, .bool _, h => h
  | _, .int _, h => h
  | _, .float _, h => h
  | _, .str s, h => by
      rw [passes, Bool.and_eq_true] at h
      rw [clean, passes, Bool.and_eq_true]
      exact ⟨h.1, textPasses_cleanChars h.2⟩
  | depth, .list items, h => by
      rw [passes, Bool.and_eq_true, Bool.and_eq_true] at h
      rw [clean, passes, Bool.and_eq_true, Bool.and_eq_true, cleanItems_eq_map, List.length_map, ← cleanItems_eq_map]
      exact ⟨h.1, h.2.1, itemsPass_clean limits (depth + 1) items h.2.2⟩
  | depth, .tuple items, h => by
      rw [passes, Bool.and_eq_true, Bool.and_eq_true] at h
      rw [clean, passes, Bool.and_eq_true, Bool.and_eq_true, cleanItems_eq_map, List.length_map, ← cleanItems_eq_map]
      exact ⟨h.1, h.2.1, itemsPass_clean limits (depth + 1) items h.2.2⟩
  | depth, .dict members, h => by
      rw [passes, Bool.and_eq_true, Bool.and_eq_true] at h
      rw [clean, Members.toValue, passes, Bool.and_eq_true, Bool.and_eq_true, List.length_map,
        length_cleanMembers h.2.2]
      exact ⟨h.1, h.2.1, membersPass_clean limits (depth + 1) [] members h.2.2⟩

theorem itemsPass_clean (limits : PayloadLimits) : ∀ (depth : ℕ) (vs : List PyValue),
    itemsPass limits depth vs = true → itemsPass limits depth (cleanItems vs) = true
  | _, [], h => h
  | depth, v :: vs, h => by
      rw [itemsPass, Bool.and_eq_true] at h
      rw [cleanItems, itemsPass, Bool.and_eq_true]
      exact ⟨passes_clean limits depth v h.1, itemsPass_clean limits depth vs h.2⟩

theorem membersPass_clean (limits : PayloadLimits) : ∀ (depth : ℕ) (seen : List String)
    (ms : List (PyValue × PyValue)), membersPass limits depth seen ms = true →
      membersPass limits depth seen ((cleanMembers ms).map fun m => (.str m.1, m.2)) = true
  | _, _, [], h => h
  | depth, seen, (.str key, v) :: ms, h => by
      simp only [membersPass, Bool.and_eq_true] at h
      obtain ⟨hkey, hnew, hv, hrest⟩ := h
      simp only [cleanMembers, List.map_cons, membersPass, Bool.and_eq_true, cleanChars_idem]
      exact ⟨keyPasses_cleanChars hkey, hnew, passes_clean limits depth v hv,
        membersPass_clean limits depth (seen ++ [cleanChars key]) ms hrest⟩

end

mutual

/-- Cleaning makes a value no larger. -/
theorem shrinks_clean (limits : PayloadLimits) : ∀ (depth : ℕ) (v : PyValue),
    passes limits depth v = true → Shrinks v (clean v)
  | _, .none, _ => Shrinks.refl _
  | _, .bool _, _ => Shrinks.refl _
  | _, .int _, _ => Shrinks.refl _
  | _, .float _, _ => Shrinks.refl _
  | _, .str s, _ => by
      rw [clean]
      exact shrinks_str (sublist_cleanChars s)
  | depth, .list items, h => by
      rw [passes, Bool.and_eq_true, Bool.and_eq_true] at h
      rw [clean]
      exact Shrinks.list (shrinks_cleanItems limits (depth + 1) items h.2.2)
  | depth, .tuple items, h => by
      rw [passes, Bool.and_eq_true, Bool.and_eq_true] at h
      rw [clean]
      exact Shrinks.tuple (shrinks_cleanItems limits (depth + 1) items h.2.2)
  | depth, .dict members, h => by
      rw [passes, Bool.and_eq_true, Bool.and_eq_true] at h
      rw [clean]
      exact Shrinks.dict (shrinks_cleanMembers limits (depth + 1) [] members h.2.2)

theorem shrinks_cleanItems (limits : PayloadLimits) : ∀ (depth : ℕ) (vs : List PyValue),
    itemsPass limits depth vs = true → List.Forall₂ Shrinks vs (cleanItems vs)
  | _, [], _ => .nil
  | depth, v :: vs, h => by
      rw [itemsPass, Bool.and_eq_true] at h
      rw [cleanItems]
      exact .cons (shrinks_clean limits depth v h.1) (shrinks_cleanItems limits depth vs h.2)

theorem shrinks_cleanMembers (limits : PayloadLimits) : ∀ (depth : ℕ) (seen : List String)
    (ms : List (PyValue × PyValue)), membersPass limits depth seen ms = true →
      List.Forall₂ (fun m m' => SizeLe (keySize m.1) (keySize m'.1) ∧ Shrinks m.2 m'.2) ms
        ((cleanMembers ms).map fun m => (.str m.1, m.2))
  | _, _, [], _ => .nil
  | depth, seen, (.str key, v) :: ms, h => by
      simp only [membersPass, Bool.and_eq_true] at h
      obtain ⟨-, -, hv, hrest⟩ := h
      rw [cleanMembers, List.map_cons]
      exact .cons ⟨sizeLe_key (sublist_cleanChars key), shrinks_clean limits depth v hv⟩
        (shrinks_cleanMembers limits depth (seen ++ [cleanChars key]) ms hrest)

end

/-- The value passes the checks and is clean. -/
structure Settled (limits : PayloadLimits) (depth : ℕ) (v : PyValue) : Prop where
  passes : passes limits depth v = true
  clean : clean v = v

theorem settled_clean {limits : PayloadLimits} {depth : ℕ} {v : PyValue} (h : passes limits depth v = true) :
    Settled limits depth (clean v) :=
  ⟨passes_clean limits depth v h, clean_idem v⟩

end ApexChainx.Ledger
