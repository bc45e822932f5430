import ApexChainx.Ledger.PayloadChecks

/-!
# The changes of a sanitised block

After the checks `sanitize_block_payload` changes a block in place: the identifiers of the block and those of its
transactions. Either change keeps what is settled and makes nothing larger (`Tidied`), and is not made twice.
-/

namespace ApexChainx.Ledger

open ApexChainx.Lib

variable {limits : PayloadLimits} {depth : ℕ}

/-! ## Settled containers -/

theorem map_eq_self_iff {α : Type} {f : α → α} {l : List α} : l.map f = l ↔ ∀ a ∈ l, f a = a := by
  have h : l.map f = l.map id ↔ ∀ a ∈ l, f a = id a := List.map_inj_left
  rwa [List.map_id] at h

theorem textMembers_toValue (d : Members) : d.toValue.textMembers = d := by
  rw [Members.toValue, PyValue.textMembers, List.filterMap_map]
  exact List.filterMap_some

theorem not_depth_iff : (!decide (depth > limits.maxDepth)) = true ↔ depth ≤ limits.maxDepth := by
  rw [Bool.not_eq_true', decide_eq_false_iff_not, not_lt]

theorem itemsPass_iff {vs : List PyValue} :
    itemsPass limits depth vs = true ↔ ∀ v ∈ vs, passes limits depth v = true := by
  induction vs with
  | nil => exact ⟨fun _ => List.forall_mem_nil _, fun _ => rfl⟩
  | cons v vs ih => rw [itemsPass, Bool.and_eq_true, ih, List.forall_mem_cons]

theorem settled_list_iff {vs : List PyValue} :
    Settled limits depth (.list vs) ↔
      depth ≤ limits.maxDepth ∧ vs.length ≤ limits.maxCollectionItems ∧ ∀ v ∈ vs, Settled limits (depth + 1) v := by
  have hclean : clean (.list vs) = .list vs ↔ ∀ v ∈ vs, clean v = v := by
    rw [clean, PyValue.list.injEq, cleanItems_eq_map, map_eq_self_iff]
  constructor
  · rintro ⟨hpasses, hsame⟩
    rw [passes, Bool.and_eq_true, Bool.and_eq_true, not_depth_iff, itemsPass_iff] at hpasses
    refine ⟨hpasses.1, by simpa using hpasses.2.1, ?_⟩
    intro v hv
    exact ⟨hpasses.2.2 v hv, hclean.mp hsame v hv⟩
  · rintro ⟨hdepth, hlength, hvs⟩
    refine ⟨?_, hclean.mpr fun v hv => (hvs v hv).clean⟩
    rw [passes, Bool.and_eq_true, Bool.and_eq_true, not_depth_iff, itemsPass_iff]
    exact ⟨hdepth, by simpa using hlength, fun v hv => (hvs v hv).passes⟩

theorem membersPass_toPairs_iff {d : Members} {seen : List String} :
    membersPass limits depth seen (d.map fun m => (.str m.1, m.2)) = true ↔
      (∀ m ∈ d, keyPasses limits m.1 = true ∧ passes limits depth m.2 = true) ∧
        (d.map fun m => cleanChars m.1).Nodup ∧ ∀ m ∈ d, cleanChars m.1 ∉ seen := by
  induction d generalizing seen with
  | nil => simp [membersPass]
  | cons m d ih =>
      simp only [List.map_cons, membersPass, Bool.and_eq_true, Bool.not_eq_true', decide_eq_false_iff_not, ih,
        List.forall_mem_cons, List.nodup_cons, List.mem_map, List.mem_append, List.mem_singleton, not_or,
        not_exists, not_and]
      constructor
      · rintro ⟨hkey, hnew, hv, hrest, hnodup, hseen⟩
        exact ⟨⟨⟨hkey, hv⟩, hrest⟩, ⟨fun m' hm' => (hseen m' hm').2, hnodup⟩, hnew, fun m' hm' => (hseen m' hm').1⟩
      · rintro ⟨⟨⟨hkey, hv⟩, hrest⟩, ⟨hother, hnodup⟩, hnew, hseen⟩
        exact ⟨hkey, hnew, hv, hrest, hnodup, fun m' hm' => ⟨hseen m' hm', hother m' hm'⟩⟩

/-- A member of a settled dictionary. -/
structure SettledMember (limits : PayloadLimits) (depth : ℕ) (m : String × PyValue) : Prop where
  key : keyPasses limits m.1 = true
  cleanKey : cleanChars m.1 = m.1
  value : Settled limits depth m.2

theorem settled_toValue_iff {d : Members} :
    Settled limits depth d.toValue ↔
      depth ≤ limits.maxDepth ∧ d.length ≤ limits.maxCollectionItems ∧ (d.map Prod.fst).Nodup ∧
        ∀ m ∈ d, SettledMember limits (depth + 1) m := by
  have hclean : clean d.toValue = d.toValue ↔ ∀ m ∈ d, cleanChars m.1 = m.1 ∧ clean m.2 = m.2 := by
    rw [Members.toValue, clean, cleanMembers_toPairs]
    constructor
    · intro h m hm
      have hsame : (Members.toValue (d.map fun m => (cleanChars m.1, clean m.2))).textMembers = d.toValue.textMembers :=
        congrArg PyValue.textMembers h
      rw [textMembers_toValue, textMembers_toValue] at hsame
      exact Prod.mk.inj (map_eq_self_iff.mp hsame m hm)
    · intro h
      exact congrArg Members.toValue (map_eq_self_iff.mpr fun m hm => Prod.ext (h m hm).1 (h m hm).2)
  have hkeys : (∀ m ∈ d, cleanChars m.1 = m.1) → (d.map fun m => cleanChars m.1) = d.map Prod.fst :=
    fun h => List.map_congr_left h
  constructor
  · rintro ⟨hpasses, hsame⟩
    rw [Members.toValue, passes, Bool.and_eq_true, Bool.and_eq_true, not_depth_iff, membersPass_toPairs_iff] at hpasses
    obtain ⟨hdepth, hlength, hmembers, hnodup, -⟩ := hpasses
    have hclean := hclean.mp hsame
    rw [hkeys fun m hm => (hclean m hm).1] at hnodup
    refine ⟨hdepth, by simpa using hlength, hnodup, ?_⟩
    intro m hm
    exact ⟨(hmembers m hm).1, (hclean m hm).1, (hmembers m hm).2, (hclean m hm).2⟩
  · rintro ⟨hdepth, hlength, hnodup, hmembers⟩
    refine ⟨?_, hclean.mpr fun m hm => ⟨(hmembers m hm).cleanKey, (hmembers m hm).value.clean⟩⟩
    rw [Members.toValue, passes, Bool.and_eq_true, Bool.and_eq_true, not_depth_iff, membersPass_toPairs_iff,
      hkeys fun m hm => (hmembers m hm).cleanKey]
    refine ⟨hdepth, by simpa using hlength, ?_, hnodup, fun _ _ => List.not_mem_nil⟩
    intro m hm
    exact ⟨(hmembers m hm).key, (hmembers m hm).value.passes⟩

/-- A settled dictionary has text keys. -/
theorem eq_toValue_of_settled {members : List (PyValue × PyValue)} (h : Settled limits depth (.dict members)) :
    ∃ d : Members, PyValue.dict members = d.toValue := by
  have hclean := h.clean
  rw [clean] at hclean
  exact ⟨_, hclean.symm⟩

/-! ## Changes that keep a value settled -/

/-- The second value takes the place of the first: it is settled when the first one is, and no larger. -/
structure Tidied (limits : PayloadLimits) (depth : ℕ) (v v' : PyValue) : Prop where
  settled : Settled limits depth v → Settled limits depth v'
  shrinks : Shrinks v v'

theorem Tidied.refl (v : PyValue) : Tidied limits depth v v := ⟨id, Shrinks.refl v⟩

theorem Tidied.trans {u v w : PyValue} (h : Tidied limits depth u v) (h' : Tidied limits depth v w) :
    Tidied limits depth u w :=
  ⟨fun hu => h'.settled (h.settled hu), h.shrinks.trans h'.shrinks⟩

theorem tidied_list {vs : List PyValue} {f : PyValue → PyValue} (h : ∀ v ∈ vs, Tidied limits (depth + 1) v (f v)) :
    Tidied limits depth (.list vs) (.list (vs.map f)) := by
  refine ⟨?_, Shrinks.list ?_⟩
  · intro hsettled
    obtain ⟨hdepth, hlength, hvs⟩ := settled_list_iff.mp hsettled
    refine settled_list_iff.mpr ⟨hdepth, by rwa [List.length_map], ?_⟩
    intro v' hv'
    obtain ⟨v, hv, rfl⟩ := List.mem_map.mp hv'
    exact (h v hv).settled (hvs v hv)
  · exact List.forall₂_map_right_iff.mpr (List.forall₂_same.mpr fun v hv => (h v hv).shrinks)

theorem tidied_toValue {d : Members} {f : String × PyValue → String × PyValue}
    (h : ∀ m ∈ d, (f m).1 = m.1 ∧ Tidied limits (depth + 1) m.2 (f m).2) :
    Tidied limits depth d.toValue (Members.toValue (d.map f)) := by
  have hkeys : (d.map f).map Prod.fst = d.map Prod.fst := by
    rw [List.map_map]
    exact List.map_congr_left fun m hm => (h m hm).1
  refine ⟨?_, Shrinks.dict ?_⟩
  · intro hsettled
    obtain ⟨hdepth, hlength, hnodup, hmembers⟩ := settled_toValue_iff.mp hsettled
    refine settled_toValue_iff.mpr ⟨hdepth, by rwa [List.length_map], by rwa [hkeys], ?_⟩
    intro m' hm'
    obtain ⟨m, hm, rfl⟩ := List.mem_map.mp hm'
    obtain ⟨hkey, hvalue⟩ := h m hm
    obtain ⟨hpasses, hclean, hsettled⟩ := hmembers m hm
    exact ⟨by rwa [hkey], by rwa [hkey], hvalue.settled hsettled⟩
  · rw [List.map_map]
    refine List.forall₂_map_left_iff.mpr (List.forall₂_map_right_iff.mpr (List.forall₂_same.mpr fun m hm => ?_))
    obtain ⟨hkey, hvalue⟩ := h m hm
    refine ⟨?_, hvalue.shrinks⟩
    dsimp only [Function.comp]
    rw [hkey]
    exact SizeLe.refl _

/-! ## Members -/

theorem Members.mem_of_get? {d : Members} {key : String} {v : PyValue} (h : d.get? key = some v) : (key, v) ∈ d := by
  obtain ⟨m, hm, rfl⟩ := Option.map_eq_some_iff.mp h
  have hkey : m.1 = key := by simpa using List.find?_some hm
  rw [← hkey]
  exact List.mem_of_find?_eq_some hm

theorem Members.get?_of_mem {d : Members} (hnodup : (d.map Prod.fst).Nodup) {m : String × PyValue} (hm : m ∈ d) :
    d.get? m.1 = some m.2 := by
  have hfound : d.find? (fun m' => m'.1 = m.1) = some m := by
    cases hfind : d.find? fun m' => m'.1 = m.1 with
    | none => exact absurd (decide_eq_true rfl) (List.find?_eq_none.mp hfind m hm)
    | some m' =>
        have hkey : m'.1 = m.1 := by simpa using List.find?_some hfind
        rw [List.inj_on_of_nodup_map hnodup (List.mem_of_find?_eq_some hfind) hm hkey]
  rw [Members.get?, hfound, Option.map_some]

theorem Members.get?_eq_none_iff {d : Members} {key : String} : d.get? key = none ↔ ∀ m ∈ d, m.1 ≠ key := by
  rw [Members.get?, Option.map_eq_none_iff, List.find?_eq_none]
  simp only [decide_eq_true_eq]

/-- Assigning a key that is there. -/
theorem Members.set_eq_map {d : Members} {key : String} {v : PyValue} (h : d.get? key = some v) (w : PyValue) :
    d.set key w = d.map fun m => if m.1 = key then (key, w) else m := by
  have hany : (d.any fun m => m.1 = key) = true :=
    List.any_eq_true.mpr ⟨_, Members.mem_of_get? h, decide_eq_true rfl⟩
  rw [Members.set, if_pos hany]

/-- Assigning a key that is not there. -/
theorem Members.set_eq_append {d : Members} {key : String} (h : d.get? key = none) (w : PyValue) :
    d.set key w = d ++ [(key, w)] := by
  have hany : ¬ (d.any fun m => m.1 = key) = true := by
    rw [List.any_eq_true]
    rintro ⟨m, hm, hkey⟩
    exact Members.get?_eq_none_iff.mp h m hm (of_decide_eq_true hkey)
  rw [Members.set, if_neg hany]

/-- Assigning what is there changes nothing. -/
theorem Members.set_self {d : Members} (hnodup : (d.map Prod.fst).Nodup) {key : String} {v : PyValue}
    (h : d.get? key = some v) : d.set key v = d := by
  rw [Members.set_eq_map h, map_eq_self_iff]
  intro m hm
  split_ifs with hkey
  · subst hkey
    have hsame := Members.get?_of_mem hnodup hm
    rw [h, Option.some.injEq] at hsame
    rw [hsame]
  · rfl

/-! ## Identifiers -/

theorem sublist_strip (s : String) : List.Sublist (strip s).toList s.toList := by
  rw [strip, String.toList_ofList]
  exact strip_sublist s.toList

/-- What `_sanitize_identifier` makes of a value. -/
def stripIdentifier : PyValue → PyValue
  | .str s => .str (strip (cleanChars s))
  | v => v

/-- What `_sanitize_identifier` checks. -/
def identifierPasses (limits : PayloadLimits) : PyValue → Bool
  | .str s => textPasses limits.maxIdentifierLength s && matchesIdentifier (strip (cleanChars s)).toList
  | _ => false

/-- What `_sanitize_identifiers` makes of a member. -/
def tidyMember (keys : List String) (m : String × PyValue) : String × PyValue :=
  if m.1 ∈ keys then (m.1, stripIdentifier m.2) else m

/-- What `_sanitize_identifiers` makes of a record. -/
def tidyRecord (keys : List String) (record : Members) : Members := record.map (tidyMember keys)

/-- What `_sanitize_identifiers` checks. -/
def identifiersPass (limits : PayloadLimits) (keys : List String) (record : Members) : Bool :=
  record.all fun m => !decide (m.1 ∈ keys) || identifierPasses limits m.2

theorem sanitizeIdentifier_decides (limits : PayloadLimits) (field : String) (v : PyValue) :
    Decides (sanitizeIdentifier limits field v) (identifierPasses limits v) (stripIdentifier v) := by
  unfold sanitizeIdentifier
  split
  · rename_i s
    have hclean := cleanText_decides s field limits.maxIdentifierLength
    rw [identifierPasses, stripIdentifier]
    generalize cleanChars s = cleaned at hclean
    refine hclean.bind fun _ => ?_
    dsimp only
    cases hmatches : matchesIdentifier (strip cleaned).toList with
    | true => exact decides_ok _
    | false => exact decides_error _ _
  · rename_i hstr
    have hfalse : identifierPasses limits v = false := by
      unfold identifierPasses
      split
      · rename_i s
        exact absurd rfl (hstr s)
      · rfl
    rw [hfalse]
    exact decides_error _ _

/-- Fields that a record does not have. -/
theorem identifiersPass_cons_of_none {keys : List String} {key : String} {record : Members}
    (h : record.get? key = none) :
    identifiersPass limits (key :: keys) record = identifiersPass limits keys record ∧
      tidyRecord (key :: keys) record = tidyRecord keys record := by
  have hmem : ∀ m ∈ record, (m.1 ∈ key :: keys) = (m.1 ∈ keys) := by
    intro m hm
    rw [List.mem_cons]
    exact propext (or_iff_right (Members.get?_eq_none_iff.mp h m hm))
  constructor
  · rw [Bool.eq_iff_iff, identifiersPass, identifiersPass, List.all_eq_true, List.all_eq_true]
    refine forall₂_congr fun m hm => ?_
    simp only [hmem m hm]
  · refine List.map_congr_left fun m hm => ?_
    simp only [tidyMember, hmem m hm]

theorem tidyMember_fst (keys : List String) (m : String × PyValue) : (tidyMember keys m).1 = m.1 := by
  unfold tidyMember
  split <;> rfl

theorem keys_tidyRecord (keys : List String) (record : Members) :
    (tidyRecord keys record).map Prod.fst = record.map Prod.fst := by
  rw [tidyRecord, List.map_map]
  exact List.map_congr_left fun m _ => tidyMember_fst keys m

theorem tidyMember_eq (m : String × PyValue) : tidyMember [m.1] m = (m.1, stripIdentifier m.2) :=
  if_pos (List.mem_singleton_self _)

theorem tidyMember_ne {key : String} {m : String × PyValue} (h : m.1 ≠ key) : tidyMember [key] m = m :=
  if_neg fun hmem => h (List.mem_singleton.mp hmem)

theorem tidyRecord_cons {keys : List String} {key : String} (hkey : key ∉ keys) (record : Members) :
    tidyRecord keys (tidyRecord [key] record) = tidyRecord (key :: keys) record := by
  rw [tidyRecord, tidyRecord, List.map_map]
  refine List.map_congr_left fun m _ => ?_
  dsimp only [Function.comp]
  by_cases hm : m.1 = key
  · subst hm
    rw [tidyMember_eq, tidyMember, tidyMember, if_neg hkey, if_pos List.mem_cons_self]
  · rw [tidyMember_ne hm, tidyMember, tidyMember]
    simp only [List.mem_cons, or_iff_right hm]

theorem set_stripIdentifier {record : Members} (hnodup : (record.map Prod.fst).Nodup) {key : String} {v : PyValue}
    (h : record.get? key = some v) : record.set key (stripIdentifier v) = tidyRecord [key] record := by
  rw [Members.set_eq_map h]
  refine List.map_congr_left fun m hm => ?_
  by_cases hkey : m.1 = key
  · subst hkey
    have hsame := Members.get?_of_mem hnodup hm
    rw [h, Option.some.injEq] at hsame
    rw [if_pos rfl, tidyMember_eq, hsame]
  · rw [if_neg hkey, tidyMember_ne hkey]

theorem identifiersPass_cons {keys : List String} {key : String} (hkey : key ∉ keys) {record : Members}
    (hnodup : (record.map Prod.fst).Nodup) {v : PyValue} (h : record.get? key = some v) :
    identifiersPass limits (key :: keys) record =
      (identifierPasses limits v && identifiersPass limits keys (tidyRecord [key] record)) := by
  rw [Bool.eq_iff_iff, Bool.and_eq_true, identifiersPass, identifiersPass, List.all_eq_true, List.all_eq_true]
  simp only [Bool.or_eq_true, Bool.not_eq_true', decide_eq_false_iff_not]
  constructor
  · intro hall
    refine ⟨(hall _ (Members.mem_of_get? h)).resolve_left (· List.mem_cons_self), ?_⟩
    intro m' hm'
    obtain ⟨m, hm, rfl⟩ := List.mem_map.mp hm'
    by_cases hm₁ : m.1 = key
    · rw [tidyMember_fst]
      exact .inl (hm₁ ▸ hkey)
    · rw [tidyMember_ne hm₁]
      exact (hall m hm).imp_left fun hnot hmem => hnot (List.mem_cons_of_mem _ hmem)
  · rintro ⟨hv, hall⟩ m hm
    by_cases hm₁ : m.1 = key
    · subst hm₁
      have hsame := Members.get?_of_mem hnodup hm
      rw [h, Option.some.injEq] at hsame
      exact .inr (hsame ▸ hv)
    · have hrest := hall _ (List.mem_map_of_mem hm)
      rw [tidyMember_ne hm₁] at hrest
      exact hrest.imp_left fun hnot hmem => hnot ((List.mem_cons.mp hmem).resolve_left hm₁)

theorem sanitizeIdentifiers_decides (limits : PayloadLimits) (namePrefix : String) {keys : List String}
    (hkeys : keys.Nodup) {record : Members} (hnodup : (record.map Prod.fst).Nodup) :
    Decides (sanitizeIdentifiers limits namePrefix keys record) (identifiersPass limits keys record)
      (tidyRecord keys record) := by
  induction keys generalizing record with
  | nil =>
      have hpass : identifiersPass limits [] record = true :=
        List.all_eq_true.mpr fun m _ => by rw [decide_eq_false List.not_mem_nil]; rfl
      have hsame : tidyRecord [] record = record :=
        map_eq_self_iff.mpr fun m _ => if_neg List.not_mem_nil
      rw [hpass, hsame]
      exact decides_ok record
  | cons key keys ih =>
      obtain ⟨hkey, hkeys⟩ := List.nodup_cons.mp hkeys
      rw [sanitizeIdentifiers]
      split
      · rename_i hnone
        have hrest : identifiersPass limits (key :: keys) record = identifiersPass limits keys record ∧
            tidyRecord (key :: keys) record = tidyRecord keys record := identifiersPass_cons_of_none hnone
        rw [hrest.1, hrest.2]
        exact ih hkeys hnodup
      · rename_i v hv
        rw [identifiersPass_cons hkey hnodup hv, ← tidyRecord_cons hkey]
        refine (sanitizeIdentifier_decides limits _ v).bind fun _ => ?_
        rw [set_stripIdentifier hnodup hv]
        exact ih hkeys (by rwa [keys_tidyRecord])

/-- The characters of an identifier are neither control characters nor blanks. -/
theorem plain_of_matchesIdentifier {cs : List Char} (h : matchesIdentifier cs = true) :
    ∀ c ∈ cs, isControl c = false ∧ isSpace c = false := by
  have hplain : ∀ c : Char, 43 ≤ c.toNat → c.toNat ≤ 122 → isControl c = false ∧ isSpace c = false := by
    intro c hlow hhigh
    refine ⟨?_, isSpace_of_toNat (by omega) hhigh⟩
    simp only [isControl, Bool.or_eq_false_iff, Bool.and_eq_false_iff, decide_eq_false_iff_not]
    omega
  have halnum : ∀ c : Char, isAsciiAlphanumeric c = true → isControl c = false ∧ isSpace c = false := by
    intro c hc
    simp only [isAsciiAlphanumeric, Bool.or_eq_true, Bool.and_eq_true, decide_eq_true_eq, Char.le_def,
      UInt32.le_iff_toNat_le] at hc
    simp at hc
    exact hplain c (by omega) (by omega)
  have hmark : ∀ c : Char, "._:+/=-".toList.contains c = true → isControl c = false ∧ isSpace c = false := by
    intro c hc
    have hmarks : "._:+/=-".toList = ['.', '_', ':', '+', '/', '=', '-'] := rfl
    rw [hmarks, List.contains_iff_mem] at hc
    simp only [List.mem_cons, List.not_mem_nil, or_false] at hc
    rcases hc with rfl | rfl | rfl | rfl | rfl | rfl | rfl
    all_goals exact ⟨rfl, rfl⟩
  cases cs with
  | nil => exact List.forall_mem_nil _
  | cons c cs =>
      rw [matchesIdentifier, Bool.and_eq_true, List.all_eq_true] at h
      refine List.forall_mem_cons.mpr ⟨halnum c h.1, ?_⟩
      intro d hd
      rcases Bool.or_eq_true _ _ ▸ h.2 d hd with hc | hc
      · exact halnum d hc
      · exact hmark d hc

/-- A settled text stays settled when characters are left out. -/
theorem settled_str {s s' : String} (h : Settled limits depth (.str s)) (hsub : List.Sublist s'.toList s.toList) :
    Settled limits depth (.str s') := by
  have hpasses := h.passes
  rw [passes, Bool.and_eq_true] at hpasses
  have hclean : cleanChars s = s := PyValue.str.inj h.clean
  have hclean' : cleanChars s' = s' := cleanChars_eq_self fun c hc => not_isControl_of_clean hclean c (hsub.mem hc)
  have hlength := (textPasses_iff_of_clean hclean).mp hpasses.2
  have hshort : s'.length ≤ s.length := by
    rw [← String.length_toList, ← String.length_toList]
    exact hsub.length_le
  refine ⟨?_, congrArg PyValue.str hclean'⟩
  rw [passes, Bool.and_eq_true]
  exact ⟨hpasses.1, (textPasses_iff_of_clean hclean').mpr (hshort.trans hlength)⟩

theorem tidied_stripIdentifier (v : PyValue) : Tidied limits depth v (stripIdentifier v) := by
  unfold stripIdentifier
  split
  · rename_i s
    have hsub := (sublist_strip (cleanChars s)).trans (sublist_cleanChars s)
    exact ⟨fun h => settled_str h hsub, shrinks_str hsub⟩
  · exact Tidied.refl v

/-- An identifier as it should be: a short text that matches the pattern. -/
def IdentifierOk (limits : PayloadLimits) (v : PyValue) : Prop :=
  ∃ s, v = .str s ∧ matchesIdentifier s.toList = true ∧ s.length ≤ limits.maxIdentifierLength

theorem identifierOk_stripIdentifier {v : PyValue} (h : identifierPasses limits v = true) :
    IdentifierOk limits (stripIdentifier v) := by
  match v with
  | .str s =>
      rw [identifierPasses, textPasses, Bool.and_eq_true, Bool.and_eq_true, decide_eq_true_eq] at h
      have hsub := (sublist_strip (cleanChars s)).length_le
      rw [String.length_toList, String.length_toList] at hsub
      exact ⟨_, rfl, h.2, hsub.trans h.1.2⟩

/-- Such an identifier is left as it is. -/
theorem IdentifierOk.fixed {v : PyValue} (h : IdentifierOk limits v) :
    identifierPasses limits v = true ∧ stripIdentifier v = v := by
  obtain ⟨s, rfl, hmatches, hlength⟩ := h
  have hplain := plain_of_matchesIdentifier hmatches
  have hclean : cleanChars s = s := cleanChars_eq_self fun c hc => (hplain c hc).1
  have hstrip : strip s = s := strip_of_plain fun c hc => (hplain c hc).2
  rw [identifierPasses, stripIdentifier, hclean, hstrip, Bool.and_eq_true]
  exact ⟨⟨(textPasses_iff_of_clean hclean).mpr hlength, hmatches⟩, rfl⟩

/-- The identifiers of a record. -/
def IdentifiersOk (limits : PayloadLimits) (record : Members) : Prop :=
  ∀ m ∈ record, m.1 ∈ identifierFields → IdentifierOk limits m.2

theorem identifiersOk_tidyRecord {record : Members} (h : identifiersPass limits identifierFields record = true) :
    IdentifiersOk limits (tidyRecord identifierFields record) := by
  intro m' hm' hfield
  obtain ⟨m, hm, rfl⟩ := List.mem_map.mp hm'
  rw [tidyMember_fst] at hfield
  have hpass := List.all_eq_true.mp h m hm
  rw [decide_eq_true hfield, Bool.not_true, Bool.false_or] at hpass
  rw [tidyMember, if_pos hfield]
  exact identifierOk_stripIdentifier hpass

theorem IdentifiersOk.fixed {record : Members} (h : IdentifiersOk limits record) :
    identifiersPass limits identifierFields record = true ∧ tidyRecord identifierFields record = record := by
  constructor
  · refine List.all_eq_true.mpr fun m hm => ?_
    by_cases hfield : m.1 ∈ identifierFields
    · rw [(h m hm hfield).fixed.1, Bool.or_true]
    · rw [decide_eq_false hfield]
      rfl
  · refine map_eq_self_iff.mpr fun m hm => ?_
    unfold tidyMember
    split_ifs with hfield
    · rw [(h m hm hfield).fixed.2]
    · rfl

theorem tidied_tidyRecord (keys : List String) (record : Members) :
    Tidied limits depth record.toValue (tidyRecord keys record).toValue := by
  refine tidied_toValue fun m _ => ⟨tidyMember_fst keys m, ?_⟩
  unfold tidyMember
  split_ifs
  · exact tidied_stripIdentifier m.2
  · exact Tidied.refl m.2

/-! ## Transactions -/

/-- What `_sanitize_transaction` makes of a transaction. -/
def tidyTransaction : PyValue → PyValue
  | .dict members => (tidyRecord identifierFields (PyValue.textMembers (.dict members))).toValue
  | v => v

/-- What is checked of a transaction. -/
def transactionPasses (limits : PayloadLimits) : PyValue → Bool
  | .dict members => identifiersPass limits identifierFields (PyValue.textMembers (.dict members))
  | _ => false

/-- What `_sanitize_transactions` makes of the value under `transactions`. -/
def tidyTransactions : PyValue → PyValue
  | .list transactions => .list (transactions.map tidyTransaction)
  | v => v

/-- What `_sanitize_transactions` checks of it. -/
def transactionsPass (limits : PayloadLimits) : PyValue → Bool
  | .none => true
  | .list transactions =>
      !decide (transactions.length > limits.maxTransactions) && transactions.all (transactionPasses limits)
  | _ => false

theorem settled_record {record : Members} (h : Settled limits depth record.toValue) :
    (record.map Prod.fst).Nodup :=
  (settled_toValue_iff.mp h).2.2.1

theorem sanitizeTransactionList_decides (limits : PayloadLimits) (index : ℕ) {transactions : List PyValue}
    (h : ∀ t ∈ transactions, Settled limits depth t) :
    Decides (sanitizeTransactionList limits index transactions) (transactions.all (transactionPasses limits))
      (transactions.map tidyTransaction) := by
  induction transactions generalizing index with
  | nil => exact decides_ok _
  | cons t transactions ih =>
      obtain ⟨ht, hrest⟩ := List.forall_mem_cons.mp h
      match t with
      | .dict members =>
          obtain ⟨record, hrecord⟩ := eq_toValue_of_settled ht
          have hnodup : ((PyValue.textMembers (.dict members)).map Prod.fst).Nodup := by
            rw [hrecord, textMembers_toValue]
            rw [hrecord] at ht
            exact settled_record ht
          rw [sanitizeTransactionList, List.all_cons, List.map_cons, ← Bool.and_true (transactions.all _)]
          refine (sanitizeIdentifiers_decides limits _ (by decide) hnodup).bind fun _ => ?_
          exact (ih (index + 1) hrest).bind fun _ => decides_ok _
      | .none => exact decides_error _ _
      | .bool _ => exact decides_error _ _
      | .int _ => exact decides_error _ _
      | .float _ => exact decides_error _ _
      | .str _ => exact decides_error _ _
      | .list _ => exact decides_error _ _
      | .tuple _ => exact decides_error _ _
      | .other _ => exact decides_error _ _

/-- What `_sanitize_transactions` makes of a member of the block. -/
def tidyTransactionsMember (m : String × PyValue) : String × PyValue :=
  if m.1 = "transactions" then (m.1, tidyTransactions m.2) else m

theorem tidyTransactionsMember_fst (m : String × PyValue) : (tidyTransactionsMember m).1 = m.1 := by
  unfold tidyTransactionsMember
  split <;> rfl

/-- Assigning what the value under `transactions` becomes. -/
theorem map_tidyTransactionsMember {block : Members} (hnodup : (block.map Prod.fst).Nodup) {v : PyValue}
    (h : block.get? "transactions" = some v) :
    block.set "transactions" (tidyTransactions v) = block.map tidyTransactionsMember := by
  rw [Members.set_eq_map h]
  refine List.map_congr_left fun m hm => ?_
  unfold tidyTransactionsMember
  split_ifs with hkey
  · have hsame := Members.get?_of_mem hnodup hm
    rw [hkey, h, Option.some.injEq] at hsame
    rw [hkey, hsame]
  · rfl

theorem sanitizeTransactions_decides (limits : PayloadLimits) {block : Members}
    (hnodup : (block.map Prod.fst).Nodup) (h : ∀ m ∈ block, Settled limits 1 m.2) :
    Decides (sanitizeTransactions limits block) ((block.get? "transactions").all (transactionsPass limits))
      (block.map tidyTransactionsMember) := by
  unfold sanitizeTransactions
  cases hget : block.get? "transactions" with
  | none =>
      have hsame : block.map tidyTransactionsMember = block :=
        map_eq_self_iff.mpr fun m hm => if_neg (Members.get?_eq_none_iff.mp hget m hm)
      rw [hsame]
      exact decides_ok block
  | some v =>
      have hset := map_tidyTransactionsMember hnodup hget
      rw [← hset, Option.all_some]
      match v with
      | .none =>
          have hself : block.set "transactions" (tidyTransactions .none) = block := Members.set_self hnodup hget
          rw [hself]
          exact decides_ok block
      | .list transactions =>
          have hsettled := (settled_list_iff.mp (h _ (Members.mem_of_get? hget))).2.2
          rw [transactionsPass, ← Bool.and_true (transactions.all _)]
          refine Decides.unless fun _ => ?_
          exact (sanitizeTransactionList_decides limits 0 hsettled).bind fun _ => decides_ok _
      | .bool _ => exact decides_error _ _
      | .int _ => exact decides_error _ _
      | .float _ => exact decides_error _ _
      | .str _ => exact decides_error _ _
      | .tuple _ => exact decides_error _ _
      | .dict _ => exact decides_error _ _
      | .other _ => exact decides_error _ _

theorem tidied_tidyTransactions {v : PyValue} (h : Settled limits depth v) :
    Tidied limits depth v (tidyTransactions v) := by
  unfold tidyTransactions
  split
  · rename_i transactions
    refine tidied_list fun t ht => ?_
    have hsettled := (settled_list_iff.mp h).2.2 t ht
    unfold tidyTransaction
    split
    · obtain ⟨record, hrecord⟩ := eq_toValue_of_settled hsettled
      rw [hrecord, textMembers_toValue]
      exact tidied_tidyRecord identifierFields record
    · exact Tidied.refl t
  · exact Tidied.refl v

/-- The value under `transactions` as it should be: none, or so many records with their identifiers. -/
def TransactionsOk (limits : PayloadLimits) (v : PyValue) : Prop :=
  v = .none ∨ ∃ transactions, v = .list transactions ∧ transactions.length ≤ limits.maxTransactions ∧
    ∀ t ∈ transactions, ∃ record : Members, t = record.toValue ∧ IdentifiersOk limits record

theorem transactionsOk_tidyTransactions {v : PyValue} (h : transactionsPass limits v = true) :
    TransactionsOk limits (tidyTransactions v) := by
  match v with
  | .none => exact .inl rfl
  | .list transactions =>
      rw [transactionsPass, Bool.and_eq_true, List.all_eq_true] at h
      refine .inr ⟨_, rfl, ?_, ?_⟩
      · rw [List.length_map]
        simpa using h.1
      · intro t' ht'
        obtain ⟨t, ht, rfl⟩ := List.mem_map.mp ht'
        have hpass := h.2 t ht
        match t with
        | .dict members => exact ⟨_, rfl, identifiersOk_tidyRecord hpass⟩

/-- Such transactions are left as they are. -/
theorem TransactionsOk.fixed {v : PyValue} (h : TransactionsOk limits v) :
    transactionsPass limits v = true ∧ tidyTransactions v = v := by
  rcases h with rfl | ⟨transactions, rfl, hlength, hall⟩
  · exact ⟨rfl, rfl⟩
  · have hfixed : ∀ t ∈ transactions, transactionPasses limits t = true ∧ tidyTransaction t = t := by
      intro t ht
      obtain ⟨record, rfl, hrecord⟩ := hall t ht
      have hsame := hrecord.fixed
      rw [Members.toValue, transactionPasses, tidyTransaction, ← Members.toValue, textMembers_toValue]
      exact ⟨hsame.1, congrArg Members.toValue hsame.2⟩
    constructor
    · rw [transactionsPass, Bool.and_eq_true, List.all_eq_true]
      exact ⟨by simpa using hlength, fun t ht => (hfixed t ht).1⟩
    · rw [tidyTransactions, map_eq_self_iff.mpr fun t ht => (hfixed t ht).2]

/-! ## The limits -/

/-- A text without control characters, up to a length. -/
def plainText (maxLength : ℕ) (s : String) : Bool := s.toList.all (fun c => !isControl c) && s.length ≤ maxLength

mutual

/-- Texts, collections and nesting are within the limits. -/
def withinLimits (limits : PayloadLimits) (depth : ℕ) : PyValue → Bool
  | .none => depth ≤ limits.maxDepth
  | .bool _ => depth ≤ limits.maxDepth
  | .int _ => depth ≤ limits.maxDepth
  | .float _ => depth ≤ limits.maxDepth
  | .str s => depth ≤ limits.maxDepth && plainText limits.maxStringLength s
  | .list items =>
      depth ≤ limits.maxDepth && (items.length ≤ limits.maxCollectionItems && itemsWithin limits (depth + 1) items)
  | .tuple items =>
      depth ≤ limits.maxDepth && (items.length ≤ limits.maxCollectionItems && itemsWithin limits (depth + 1) items)
  | .dict members =>
      depth ≤ limits.maxDepth &&
        (members.length ≤ limits.maxCollectionItems && membersWithin limits (depth + 1) members)
  | .other _ => false

def itemsWithin (limits : PayloadLimits) (depth : ℕ) : List PyValue → Bool
  | [] => true
  | v :: vs => withinLimits limits depth v && itemsWithin limits depth vs

def membersWithin (limits : PayloadLimits) (depth : ℕ) : List (PyValue × PyValue) → Bool
  | [] => true
  | (.str key, v) :: ms =>
      plainText limits.maxIdentifierLength key && (withinLimits limits depth v && membersWithin limits depth ms)
  | _ :: _ => false

end

theorem plainText_cleanChars {maxLength : ℕ} {s : String} (h : textPasses maxLength s = true) :
    plainText maxLength (cleanChars s) = true := by
  rw [textPasses, Bool.and_eq_true] at h
  rw [plainText, Bool.and_eq_true, List.all_eq_true]
  refine ⟨?_, h.2⟩
  intro c hc
  rw [not_isControl_of_clean (cleanChars_idem s) c hc]
  rfl

mutual

theorem withinLimits_clean (limits : PayloadLimits) : ∀ (depth : ℕ) (v : PyValue),
    passes limits depth v = true → withinLimits limits depth (clean v) = true
  | _, .none, h => decide_eq_true (not_depth_iff.mp h)
  | _, .bool _, h => decide_eq_true (not_depth_iff.mp h)
  | _, .int _, h => decide_eq_true (not_depth_iff.mp h)
  | _, .float (.finite _), h => decide_eq_true (not_depth_iff.mp h)
  | _, .str s, h => by
      rw [passes, Bool.and_eq_true, not_depth_iff] at h
      rw [clean, withinLimits, Bool.and_eq_true, decide_eq_true_eq]
      exact ⟨h.1, plainText_cleanChars h.2⟩
  | depth, .list items, h => by
      rw [passes, Bool.and_eq_true, Bool.and_eq_true, not_depth_iff] at h
      rw [clean, withinLimits, Bool.and_eq_true, Bool.and_eq_true, decide_eq_true_eq, cleanItems_eq_map,
        List.length_map, ← cleanItems_eq_map]
      exact ⟨h.1, by simpa using h.2.1, itemsWithin_clean limits (depth + 1) items h.2.2⟩
  | depth, .tuple items, h => by
      rw [passes, Bool.and_eq_true, Bool.and_eq_true, not_depth_iff] at h
      rw [clean, withinLimits, Bool.and_eq_true, Bool.and_eq_true, decide_eq_true_eq, cleanItems_eq_map,
        List.length_map, ← cleanItems_eq_map]
      exact ⟨h.1, by simpa using h.2.1, itemsWithin_clean limits (depth + 1) items h.2.2⟩
  | depth, .dict members, h => by
      rw [passes, Bool.and_eq_true, Bool.and_eq_true, not_depth_iff] at h
      rw [clean, Members.toValue, withinLimits, Bool.and_eq_true, Bool.and_eq_true, decide_eq_true_eq,
        List.length_map, length_cleanMembers h.2.2]
      exact ⟨h.1, by simpa using h.2.1, membersWithin_clean limits (depth + 1) [] members h.2.2⟩

theorem itemsWithin_clean (limits : PayloadLimits) : ∀ (depth : ℕ) (vs : List PyValue),
    itemsPass limits depth vs = true → itemsWithin limits depth (cleanItems vs) = true
  | _, [], h => h
  | depth, v :: vs, h => by
      rw [itemsPass, Bool.and_eq_true] at h
      rw [cleanItems, itemsWithin, Bool.and_eq_true]
      exact ⟨withinLimits_clean limits depth v h.1, itemsWithin_clean limits depth vs h.2⟩

theorem membersWithin_clean (limits : PayloadLimits) : ∀ (depth : ℕ) (seen : List String)
    (ms : List (PyValue × PyValue)), membersPass limits depth seen ms = true →
      membersWithin limits depth ((cleanMembers ms).map fun m => (.str m.1, m.2)) = true
  | _, _, [], h => h
  | depth, seen, (.str key, v) :: ms, h => by
      simp only [membersPass, keyPasses, Bool.and_eq_true] at h
      obtain ⟨⟨hkey, -⟩, -, hv, hrest⟩ := h
      simp only [cleanMembers, List.map_cons, membersWithin, Bool.and_eq_true]
      exact ⟨plainText_cleanChars hkey, withinLimits_clean limits depth v hv,
        membersWithin_clean limits depth (seen ++ [cleanChars key]) ms hrest⟩

end

theorem Settled.withinLimits {v : PyValue} (h : Settled limits depth v) : withinLimits limits depth v = true := by
  have hclean := withinLimits_clean limits depth v h.passes
  rwa [h.clean] at hclean

/-- What the limits say about a dictionary with text keys. -/
theorem length_key_of_withinLimits {d : Members} (h : withinLimits limits depth d.toValue = true) :
    d.length ≤ limits.maxCollectionItems ∧ ∀ m ∈ d, m.1.length ≤ limits.maxIdentifierLength := by
  rw [Members.toValue, withinLimits, Bool.and_eq_true, Bool.and_eq_true, decide_eq_true_eq, decide_eq_true_eq,
    List.length_map] at h
  refine ⟨h.2.1, ?_⟩
  have hmembers := h.2.2
  clear h
  induction d with
  | nil => exact List.forall_mem_nil _
  | cons m d ih =>
      simp only [List.map_cons, membersWithin, plainText, Bool.and_eq_true, decide_eq_true_eq] at hmembers
      exact List.forall_mem_cons.mpr ⟨hmembers.1.2, ih hmembers.2.2⟩

end ApexChainx.Ledger
