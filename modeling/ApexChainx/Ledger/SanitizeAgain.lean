import ApexChainx.Ledger.SanitizedBlock

/-!
# Sanitising again

What `sanitize_block_payload` hands back is within the limits, and sanitising it again changes nothing, where
`Foreseen` holds of the payload (`sanitizesWell_iff`). A number that takes the place of a value under `sequence` makes
the block no larger; one that is added, when the block had none under that key, may not fit.

A text with a lone surrogate cannot be encoded, and its payload is refused with those that are not JSON; in the model
it is a value of another type. The interpreter's stack has room for `_sanitize_value`, which goes no deeper than the
settings say; `json.dumps` goes as deep as the payload does.
-/

namespace ApexChainx.Ledger

open ApexChainx.Lib

variable {limits : PayloadLimits} {unicode : UnicodeDigits}

/-! ## The number -/

/-- The value of the first sequence field of a block. -/
def sequenceValue (block : Members) : Option PyValue := (sequenceFields.filterMap block.get?).head?

/-- `int` reads the digits: not too many of them, and all of them decimal. -/
def readableDigits (unicode : UnicodeDigits) (cs : List Char) : Bool :=
  cs.length ≤ maxStrDigits && cs.all fun c => (unicode.decimal c).isSome

/-- The sequence of a block, if it is a text of digits, is one that `int` reads. -/
def readableSequence (unicode : UnicodeDigits) (block : Members) : Bool :=
  match sequenceValue block with
  | some (.str raw) =>
      (strip raw).toList.isEmpty || !(strip raw).toList.all unicode.isdigit ||
        readableDigits unicode (strip raw).toList
  | _ => true

theorem intOfDigits_cases (unicode : UnicodeDigits) (cs : List Char) :
    (readableDigits unicode cs = true ∧ ∃ digits, cs.mapM unicode.decimal = some digits ∧
      intOfDigits unicode cs = .ok (digits.foldl (fun n d => 10 * n + d) 0)) ∨
    (readableDigits unicode cs = false ∧ ∃ detail, intOfDigits unicode cs = .error (.valueError detail)) := by
  unfold intOfDigits readableDigits
  by_cases hlength : cs.length > maxStrDigits
  · rw [if_pos hlength, decide_eq_false (Nat.not_le.mpr hlength)]
    exact .inr ⟨rfl, _, rfl⟩
  · rw [if_neg hlength, decide_eq_true (Nat.not_lt.mp hlength), Bool.true_and, ← isSome_mapM]
    cases cs.mapM unicode.decimal with
    | none => exact .inr ⟨rfl, _, rfl⟩
    | some digits => exact .inl ⟨rfl, digits, rfl, rfl⟩

/-- What `_extract_sequence` does with the value it finds. -/
theorem extractSequence_eq (unicode : UnicodeDigits) (block : Members) :
    extractSequence unicode block =
      (match sequenceValue block with
        | none | some .none => .error (.validation .noSequence)
        | some (.str raw) =>
            let candidate := (strip raw).toList
            if candidate.isEmpty || !candidate.all unicode.isdigit then .error (.validation .sequenceNotDigits)
            else (intOfDigits unicode candidate).map Int.ofNat
        | some (.int n) => .ok n
        | some _ => .error (.validation .sequenceNotInteger)) >>= fun sequence : ℤ =>
          if 0 ≤ sequence ∧ sequence ≤ maxSequence then .ok sequence.toNat
          else .error (.validation .sequenceOutOfRange) := by
  unfold extractSequence sequenceValue
  generalize (sequenceFields.filterMap block.get?).head? = value
  match value with
  | none => rfl
  | some .none => rfl
  | some (.str raw) =>
      dsimp only
      split <;> rfl
  | some (.int n) => rfl
  | some (.bool _) => rfl
  | some (.float _) => rfl
  | some (.list _) => rfl
  | some (.tuple _) => rfl
  | some (.dict _) => rfl
  | some (.other _) => rfl

/-- The value is the number, or a text of its digits. -/
def Denotes (unicode : UnicodeDigits) (v : PyValue) (n : ℕ) : Prop :=
  v = .int n ∨ ∃ raw digits, v = .str raw ∧ (strip raw).toList ≠ [] ∧
    (strip raw).toList.mapM unicode.decimal = some digits ∧ n = digits.foldl (fun n d => 10 * n + d) 0

/-- `_extract_sequence` finds a number in range, refuses the block, or raises the `ValueError` of `int`. -/
inductive Extracted (unicode : UnicodeDigits) (block : Members) : Except SanitizeError ℕ → Prop
  | number (n : ℕ) (v : PyValue) : readableSequence unicode block = true → sequenceValue block = some v →
      Denotes unicode v n → n ≤ maxSequence → Extracted unicode block (.ok n)
  | refused (reason : Invalid) : readableSequence unicode block = true →
      Extracted unicode block (.error (.validation reason))
  | raised (detail : String) : readableSequence unicode block = false →
      Extracted unicode block (.error (.valueError detail))

theorem extracted (unicode : UnicodeDigits) (block : Members) :
    Extracted unicode block (extractSequence unicode block) := by
  have hrange : ∀ (n : ℤ) (v : PyValue), readableSequence unicode block = true → sequenceValue block = some v →
      (0 ≤ n → Denotes unicode v n.toNat) →
      Extracted unicode block (if 0 ≤ n ∧ n ≤ maxSequence then .ok n.toNat
        else .error (.validation .sequenceOutOfRange)) := by
    intro n v hread hv hdenotes
    split_ifs with hn
    · exact .number _ v hread hv (hdenotes hn.1) (by omega)
    · exact .refused _ hread
  rw [extractSequence_eq]
  cases hvalue : sequenceValue block with
  | none => exact .refused _ (by rw [readableSequence, hvalue])
  | some v =>
      match v with
      | .none => exact .refused _ (by rw [readableSequence, hvalue])
      | .bool _ => exact .refused _ (by rw [readableSequence, hvalue])
      | .float _ => exact .refused _ (by rw [readableSequence, hvalue])
      | .list _ => exact .refused _ (by rw [readableSequence, hvalue])
      | .tuple _ => exact .refused _ (by rw [readableSequence, hvalue])
      | .dict _ => exact .refused _ (by rw [readableSequence, hvalue])
      | .other _ => exact .refused _ (by rw [readableSequence, hvalue])
      | .int n =>
          refine hrange n _ (by rw [readableSequence, hvalue]) hvalue fun hn => .inl ?_
          rw [Int.toNat_of_nonneg hn]
      | .str raw =>
          dsimp only
          by_cases hdigits : ((strip raw).toList.isEmpty || !(strip raw).toList.all unicode.isdigit) = true
          · rw [if_pos hdigits]
            refine .refused _ ?_
            rw [readableSequence, hvalue]
            dsimp only
            rw [hdigits, Bool.true_or]
          · rw [if_neg hdigits]
            have hread : readableSequence unicode block = readableDigits unicode (strip raw).toList := by
              rw [readableSequence, hvalue]
              dsimp only
              rw [Bool.eq_false_iff.mpr hdigits, Bool.false_or]
            have hne : (strip raw).toList ≠ [] := by
              intro hnil
              rw [hnil] at hdigits
              exact hdigits rfl
            rcases intOfDigits_cases unicode (strip raw).toList with
              ⟨hreadable, digits, hmap, hint⟩ | ⟨hreadable, detail, hint⟩
            · rw [hint]
              refine hrange _ _ (hread.trans hreadable) hvalue fun _ => .inr ?_
              exact ⟨raw, digits, rfl, hne, hmap, rfl⟩
            · rw [hint]
              exact .raised detail (hread.trans hreadable)

/-- The digits of the Unicode database have values below ten. -/
def UnicodeDigits.Lawful (unicode : UnicodeDigits) : Prop := ∀ c d, unicode.decimal c = some d → d < 10

/-- A number has no more digits than the text it was read from. -/
theorem foldl_digits_lt {digits : List ℕ} (h : ∀ d ∈ digits, d < 10) :
    digits.foldl (fun n d => 10 * n + d) 0 < 10 ^ digits.length := by
  have hacc : ∀ (digits : List ℕ) (acc : ℕ), (∀ d ∈ digits, d < 10) →
      digits.foldl (fun n d => 10 * n + d) acc < (acc + 1) * 10 ^ digits.length := by
    intro digits
    induction digits with
    | nil =>
        intro acc _
        simp
    | cons d digits ih =>
        intro acc hall
        obtain ⟨hd, hrest⟩ := List.forall_mem_cons.mp hall
        calc (d :: digits).foldl (fun n d => 10 * n + d) acc
            = digits.foldl (fun n d => 10 * n + d) (10 * acc + d) := rfl
          _ < (10 * acc + d + 1) * 10 ^ digits.length := ih _ hrest
          _ ≤ ((acc + 1) * 10) * 10 ^ digits.length := Nat.mul_le_mul_right _ (by omega)
          _ = (acc + 1) * 10 ^ (d :: digits).length := by rw [List.length_cons, Nat.pow_succ', Nat.mul_assoc]
  simpa using hacc digits 0 h

/-- The text of a number that fits. -/
theorem encodedSize_number {n : ℕ} (h : n ≤ maxSequence) : encodedSize (.int n) = some n.repr.length := by
  have hascii : ∀ cs : List Char, (∀ c ∈ cs, c.isDigit = true) → utf8Length cs = cs.length := by
    intro cs hcs
    induction cs with
    | nil => rfl
    | cons c cs ih =>
        obtain ⟨hc, hcs⟩ := List.forall_mem_cons.mp hcs
        have hone : c.utf8Size = 1 := by
          rw [Char.isDigit, Bool.and_eq_true, decide_eq_true_eq, decide_eq_true_eq] at hc
          exact Char.utf8Size_eq_one_iff.mpr (UInt32.le_trans hc.2 (by decide))
        rw [utf8Length_cons, hone, ih hcs, List.length_cons, Nat.add_comm]
  have hshort : n.repr.length ≤ maxStrDigits := by
    have hlt : n < 10 ^ 19 := lt_of_le_of_lt h (by decide)
    exact ((Nat.length_repr_le_iff (by decide)).mpr hlt).trans (by decide)
  rw [encodedSize_eq, dumps, dumpsInt, Int.natAbs_natCast, if_pos hshort]
  have hrepr : (n : ℤ).repr = n.repr := rfl
  rw [Option.map_some, hrepr, hascii n.repr.toList fun c hc => isDigit_of_mem_natRepr hc, String.length_toList]

/-- The number takes the place of its text. -/
theorem shrinks_number {unicode : UnicodeDigits} (hlawful : unicode.Lawful) {v : PyValue} {n : ℕ}
    (h : Denotes unicode v n) (hn : n ≤ maxSequence) : Shrinks v (.int n) := by
  rcases h with rfl | ⟨raw, digits, rfl, hne, hmap, rfl⟩
  · exact Shrinks.refl _
  · refine ⟨?_, le_rfl⟩
    intro bytes hbytes
    obtain rfl := Option.some.inj hbytes
    refine ⟨_, encodedSize_number hn, ?_⟩
    have hlength := length_of_mapM hmap
    have hten : ∀ d ∈ digits, d < 10 := by
      intro d hd
      obtain ⟨c, -, hc⟩ := exists_of_mem_mapM hmap d hd
      exact hlawful c d hc
    have hquoted : raw.toList.length + 2 ≤ utf8Length (quote raw) := by
      refine le_trans ?_ (length_le_utf8Length _)
      have hraw := length_le_flatMap one_le_length_escape raw.toList
      rw [quote, List.length_cons, List.length_append, List.length_singleton]
      omega
    calc (digits.foldl (fun n d => 10 * n + d) 0).repr.length
        ≤ digits.length :=
          (Nat.length_repr_le_iff (by rw [hlength]; exact List.length_pos_of_ne_nil hne)).mpr (foldl_digits_lt hten)
      _ = (strip raw).toList.length := hlength
      _ ≤ raw.toList.length := (sublist_strip raw).length_le
      _ ≤ utf8Length (quote raw) := by omega

/-! ## A payload that is accepted -/

/-- What `_validate_payload_size` checks. -/
def fits (limits : PayloadLimits) (payload : PyValue) : Bool :=
  (encodedSize payload).any fun bytes => bytes ≤ limits.maxPayloadBytes

theorem validatePayloadSize_decides (limits : PayloadLimits) (payload : PyValue) :
    Decides (validatePayloadSize limits payload) (fits limits payload) () := by
  rw [validatePayloadSize_eq, fits]
  cases encodedSize payload with
  | none => exact decides_error _ _
  | some bytes =>
      have hbytes : (some bytes).any (fun bytes => decide (bytes ≤ limits.maxPayloadBytes)) =
          (!decide (bytes > limits.maxPayloadBytes) && true) := by
        rw [Bool.and_true, Option.any_some, ← decide_not, decide_eq_decide, not_lt]
      rw [hbytes]
      exact Decides.unless fun _ => decides_ok ()

theorem fits_iff {payload : PyValue} :
    fits limits payload = true ↔ ∃ bytes, encodedSize payload = some bytes ∧ bytes ≤ limits.maxPayloadBytes := by
  rw [fits, Option.any_eq_true]
  simp only [decide_eq_true_eq]

theorem isSome_dumps_of_fits {payload : PyValue} (h : fits limits payload = true) : (dumps payload).isSome := by
  obtain ⟨bytes, hbytes, -⟩ := fits_iff.mp h
  rw [encodedSize_eq, Option.map_eq_some_iff] at hbytes
  obtain ⟨text, htext, -⟩ := hbytes
  exact Option.isSome_of_eq_some htext

/-- What takes no more bytes fits. -/
theorem fits_of_shrinks {v v' : PyValue} (h : Shrinks v v') (hfits : fits limits v = true) :
    fits limits v' = true := by
  obtain ⟨bytes, hbytes, hle⟩ := fits_iff.mp hfits
  obtain ⟨bytes', hbytes', hle'⟩ := h.size bytes hbytes
  exact fits_iff.mpr ⟨bytes', hbytes', hle'.trans hle⟩

/-- The block after its identifiers and transactions. -/
def tidyBlock (block : Members) : Members := (tidyRecord identifierFields block).map tidyTransactionsMember

/-- The payload passes all checks, and its number is `n`. -/
structure Accepted (limits : PayloadLimits) (unicode : UnicodeDigits) (members : List (PyValue × PyValue)) (n : ℕ) :
    Prop where
  fits : fits limits (.dict members) = true
  passes : passes limits 0 (.dict members) = true
  number : extractSequence unicode (cleanMembers members) = .ok n
  identifiers : identifiersPass limits identifierFields (cleanMembers members) = true
  transactions : ((cleanMembers members).get? "transactions").all (transactionsPass limits) = true

theorem Members.get?_map {d : Members} {f : String × PyValue → String × PyValue} (hf : ∀ m, (f m).1 = m.1)
    (key : String) : Members.get? (d.map f) key = (d.get? key).map fun v => (f (key, v)).2 := by
  induction d with
  | nil => rfl
  | cons m d ih =>
      by_cases hm : m.1 = key
      · subst hm
        simp [Members.get?, hf]
      · have hrest : ∀ d : Members, Members.get? (m :: d) key = d.get? key := by
          intro d
          simp [Members.get?, hm]
        rw [hrest, ← ih, List.map_cons, Members.get?, List.find?_cons, hf, decide_eq_false hm]
        rfl

theorem get?_tidyBlock (block : Members) :
    (tidyBlock block).get? "sequence" = block.get? "sequence" ∧
      (tidyBlock block).get? "transactions" = (block.get? "transactions").map tidyTransactions := by
  have hid : ∀ key v, key ∉ identifierFields → tidyMember identifierFields (key, v) = (key, v) :=
    fun key v hkey => if_neg hkey
  rw [tidyBlock, tidyRecord]
  constructor
  · rw [Members.get?_map tidyTransactionsMember_fst, Members.get?_map (tidyMember_fst _), Option.map_map]
    have hsame : (fun v => (tidyTransactionsMember ("sequence", (tidyMember identifierFields ("sequence", v)).2)).2) =
        id := by
      funext v
      rw [hid "sequence" v (by decide)]
      rfl
    exact (congrArg (Option.map · _) hsame).trans (congrFun Option.map_id _)
  · rw [Members.get?_map tidyTransactionsMember_fst, Members.get?_map (tidyMember_fst _), Option.map_map]
    refine Option.map_congr fun v _ => ?_
    dsimp only [Function.comp]
    rw [hid "transactions" v (by decide)]
    rfl

theorem keys_tidyBlock (block : Members) : (tidyBlock block).map Prod.fst = block.map Prod.fst := by
  rw [tidyBlock, List.map_map, ← keys_tidyRecord identifierFields block]
  exact List.map_congr_left fun m _ => tidyTransactionsMember_fst m

theorem depth_le_of_passes {depth : ℕ} {v : PyValue} (h : passes limits depth v = true) : depth ≤ limits.maxDepth := by
  match v with
  | .none => exact not_depth_iff.mp h
  | .bool _ => exact not_depth_iff.mp h
  | .int _ => exact not_depth_iff.mp h
  | .float (.finite _) => exact not_depth_iff.mp h
  | .str _ => exact not_depth_iff.mp (Bool.and_eq_true _ _ ▸ h).1
  | .list _ => exact not_depth_iff.mp (by rw [passes, Bool.and_eq_true] at h; exact h.1)
  | .tuple _ => exact not_depth_iff.mp (by rw [passes, Bool.and_eq_true] at h; exact h.1)
  | .dict _ => exact not_depth_iff.mp (by rw [passes, Bool.and_eq_true] at h; exact h.1)

/-- The block that passed the checks. -/
theorem settled_cleanMembers {members : List (PyValue × PyValue)} (h : passes limits 0 (.dict members) = true) :
    Settled limits 0 (cleanMembers members).toValue := by
  have hsettled := settled_clean h
  rwa [clean] at hsettled

theorem length_of_passes {members : List (PyValue × PyValue)} (h : passes limits 0 (.dict members) = true) :
    (cleanMembers members).length = members.length := by
  rw [passes, Bool.and_eq_true, Bool.and_eq_true] at h
  exact length_cleanMembers h.2.2

theorem mem_of_sequenceValue {block : Members} {v : PyValue} (h : sequenceValue block = some v) :
    ∃ m ∈ block, m.2 = v := by
  have hmem := List.mem_of_mem_head? (Option.mem_def.mpr h)
  obtain ⟨key, -, hkey⟩ := List.mem_filterMap.mp hmem
  exact ⟨(key, v), Members.mem_of_get? hkey, rfl⟩

/-- What the number needs of the settings: the block has a value at its depth. -/
theorem settled_number {block : Members} (h : Settled limits 0 block.toValue) {v : PyValue}
    (hv : sequenceValue block = some v) (n : ℕ) : Settled limits 1 (.int n) := by
  obtain ⟨m, hm, rfl⟩ := mem_of_sequenceValue hv
  have hpasses := ((settled_toValue_iff.mp h).2.2.2 m hm).value.passes
  exact ⟨not_depth_iff.mpr (depth_le_of_passes hpasses), rfl⟩

/-- The number is entered. -/
theorem mem_set {block : Members} {key : String} {w : PyValue} {m : String × PyValue} (hm : m ∈ block.set key w) :
    m = (key, w) ∨ m ∈ block := by
  cases hget : block.get? key with
  | none =>
      rw [Members.set_eq_append hget, List.mem_append, List.mem_singleton] at hm
      exact hm.symm
  | some v =>
      rw [Members.set_eq_map hget] at hm
      obtain ⟨m', hm', rfl⟩ := List.mem_map.mp hm
      split_ifs
      · exact .inl rfl
      · exact .inr hm'

theorem nodup_set {block : Members} (hnodup : (block.map Prod.fst).Nodup) (key : String) (w : PyValue) :
    ((block.set key w).map Prod.fst).Nodup := by
  cases hget : block.get? key with
  | none =>
      rw [Members.set_eq_append hget, List.map_append, List.map_singleton, List.nodup_append]
      refine ⟨hnodup, List.nodup_singleton _, ?_⟩
      intro k hk k' hk'
      obtain ⟨m, hm, rfl⟩ := List.mem_map.mp hk
      rw [List.mem_singleton.mp hk']
      exact Members.get?_eq_none_iff.mp hget m hm
  | some v =>
      have hkeys : (block.set key w).map Prod.fst = block.map Prod.fst := by
        rw [Members.set_eq_map hget, List.map_map]
        refine List.map_congr_left fun m _ => ?_
        dsimp only [Function.comp]
        split_ifs with hkey
        · exact hkey.symm
        · rfl
      rwa [hkeys]

/-- The number is no identifier. -/
theorem identifiersPass_set (limits : PayloadLimits) (block : Members) (w : PyValue) :
    identifiersPass limits identifierFields (block.set "sequence" w)
      = identifiersPass limits identifierFields block := by
  have hnumber : ("sequence" ∈ identifierFields) = False := by decide
  cases hget : block.get? "sequence" with
  | none =>
      rw [Members.set_eq_append hget, identifiersPass, List.all_append, ← identifiersPass]
      simp [hnumber]
  | some v =>
      rw [Members.set_eq_map hget, identifiersPass, identifiersPass, List.all_map]
      refine List.all_congr rfl fun m => ?_
      dsimp only [Function.comp]
      split_ifs with hkey
      · simp [hkey, hnumber]
      · rfl

/-- The last two checks. -/
def blockPasses (limits : PayloadLimits) (block : Members) : Bool :=
  identifiersPass limits identifierFields block && (block.get? "transactions").all (transactionsPass limits)

/-- From the number on. -/
theorem complete_decides {block : Members} (h : Settled limits 0 block.toValue) {v : PyValue}
    (hv : sequenceValue block = some v) (n : ℕ) :
    Decides
      (sanitizeIdentifiers limits "block" identifierFields (block.set "sequence" (.int n)) >>= fun block =>
        sanitizeTransactions limits block >>= fun block => .ok (⟨block, n⟩ : SanitizedBlock))
      (blockPasses limits block) ⟨tidyBlock (block.set "sequence" (.int n)), n⟩ := by
  have hnodup := nodup_set (settled_record h) "sequence" (.int n)
  have hidentifiers := sanitizeIdentifiers_decides limits "block" (by decide : identifierFields.Nodup) hnodup
  rw [identifiersPass_set] at hidentifiers
  rw [blockPasses, ← Bool.and_true (Option.all _ _)]
  refine hidentifiers.bind fun _ => ?_
  -- the values that the transactions are read from are those of the block
  have hget : (tidyRecord identifierFields (block.set "sequence" (.int n))).get? "transactions" =
      block.get? "transactions" := by
    rw [tidyRecord, Members.get?_map (tidyMember_fst _), Members.get?_set_ne (by decide)]
    have hsame : (fun w => (tidyMember identifierFields ("transactions", w)).2) = id := rfl
    rw [hsame, Option.map_id]
    rfl
  have hvalues : ∀ m ∈ tidyRecord identifierFields (block.set "sequence" (.int n)), Settled limits 1 m.2 := by
    intro m' hm'
    obtain ⟨m, hm, rfl⟩ := List.mem_map.mp hm'
    have hm : Settled limits 1 m.2 := by
      rcases mem_set hm with rfl | hold
      · exact settled_number h hv n
      · exact ((settled_toValue_iff.mp h).2.2.2 m hold).value
    unfold tidyMember
    split_ifs
    · exact (tidied_stripIdentifier m.2).settled hm
    · exact hm
  have htransactions := sanitizeTransactions_decides limits (by rwa [keys_tidyRecord]) hvalues
  rw [hget] at htransactions
  exact htransactions.bind fun _ => decides_ok _

/-- The stages of `sanitize_block_payload`. -/
theorem sanitizeBlockPayload_dict (limits : PayloadLimits) (unicode : UnicodeDigits)
    (members : List (PyValue × PyValue)) :
    sanitizeBlockPayload limits unicode (.dict members) =
      (validatePayloadSize limits (.dict members) >>= fun _ =>
        sanitizeValue limits 0 "block" (.dict members) >>= fun value =>
          extractSequence unicode value.textMembers >>= fun n =>
            sanitizeIdentifiers limits "block" identifierFields (value.textMembers.set "sequence" (.int n)) >>=
              fun block => sanitizeTransactions limits block >>= fun block => .ok ⟨block, n⟩) := rfl

/-- What `sanitize_block_payload` does with a dictionary. -/
inductive Sanitizes (limits : PayloadLimits) (unicode : UnicodeDigits) (members : List (PyValue × PyValue)) :
    Except SanitizeError SanitizedBlock → Prop
  | block (n : ℕ) : Accepted limits unicode members n → readableSequence unicode (cleanMembers members) = true →
      Sanitizes limits unicode members (.ok ⟨tidyBlock ((cleanMembers members).set "sequence" (.int n)), n⟩)
  | refused (reason : Invalid) : (∀ n, ¬ Accepted limits unicode members n) →
      (fits limits (.dict members) = true → passes limits 0 (.dict members) = true →
        readableSequence unicode (cleanMembers members) = true) →
      Sanitizes limits unicode members (.error (.validation reason))
  | raised (detail : String) : fits limits (.dict members) = true → passes limits 0 (.dict members) = true →
      readableSequence unicode (cleanMembers members) = false →
      Sanitizes limits unicode members (.error (.valueError detail))

theorem sanitizes (limits : PayloadLimits) (unicode : UnicodeDigits) (members : List (PyValue × PyValue)) :
    Sanitizes limits unicode members (sanitizeBlockPayload limits unicode (.dict members)) := by
  have hsize := validatePayloadSize_decides limits (.dict members)
  have hvalue := sanitizeValue_decides limits 0 "block" (.dict members)
  rw [sanitizeBlockPayload_dict]
  -- the checks, in the order in which the code makes them
  cases hfits : fits limits (.dict members) with
  | false =>
      rw [hfits] at hsize
      obtain ⟨reason, heq⟩ := hsize
      rw [heq]
      refine .refused reason (fun n h => ?_) fun h => ?_
      · rw [h.fits] at hfits
        contradiction
      · rw [hfits] at h
        contradiction
  | true =>
      rw [hfits] at hsize
      have hok : validatePayloadSize limits (.dict members) = .ok () := hsize
      rw [hok]
      cases hpasses : passes limits 0 (.dict members) with
      | false =>
          rw [hpasses] at hvalue
          obtain ⟨reason, heq⟩ := hvalue
          rw [heq]
          refine .refused reason (fun n h => ?_) fun _ h => ?_
          · rw [h.passes] at hpasses
            contradiction
          · rw [hpasses] at h
            contradiction
      | true =>
          rw [hpasses, clean] at hvalue
          have hclean : sanitizeValue limits 0 "block" (.dict members) = .ok (cleanMembers members).toValue := hvalue
          have hsettled := settled_cleanMembers hpasses
          rw [hclean]
          simp only [bind, Except.bind, textMembers_toValue]
          -- the sequence is read from the cleaned block
          have hnumber := extracted unicode (cleanMembers members)
          generalize hextract : extractSequence unicode (cleanMembers members) = number at hnumber
          cases hnumber with
          | refused reason hread =>
              refine .refused reason (fun n h => ?_) fun _ _ => hread
              rw [h.number] at hextract
              contradiction
          | raised detail hread => exact .raised detail hfits hpasses hread
          | number n v hread hv _ _ =>
              have hblock := complete_decides hsettled hv n
              simp only [bind, Except.bind] at hblock
              cases hok : blockPasses limits (cleanMembers members) with
              | true =>
                  rw [hok] at hblock
                  rw [blockPasses, Bool.and_eq_true] at hok
                  dsimp only
                  rw [show _ = Except.ok _ from hblock]
                  exact .block n ⟨hfits, hpasses, hextract, hok.1, hok.2⟩ hread
              | false =>
                  rw [hok] at hblock
                  obtain ⟨reason, heq⟩ := hblock
                  dsimp only
                  rw [heq]
                  refine .refused reason (fun n' h => ?_) fun _ _ => hread
                  rw [blockPasses, h.identifiers, h.transactions] at hok
                  contradiction

/-- A payload that is accepted. -/
theorem sanitizeBlockPayload_of_accepted {members : List (PyValue × PyValue)} {n : ℕ}
    (h : Accepted limits unicode members n) : sanitizeBlockPayload limits unicode (.dict members) =
      .ok ⟨tidyBlock ((cleanMembers members).set "sequence" (.int n)), n⟩ := by
  have hall := sanitizes limits unicode members
  generalize sanitizeBlockPayload limits unicode (.dict members) = outcome at hall
  cases hall with
  | block n' h' _ =>
      have hsame := h'.number
      rw [h.number, Except.ok.injEq] at hsame
      rw [hsame]
  | refused reason hnone _ => exact absurd h (hnone n)
  | raised detail _ _ hread =>
      have hnumber := extracted unicode (cleanMembers members)
      rw [h.number] at hnumber
      cases hnumber with
      | number _ _ hread' _ _ _ =>
          rw [hread] at hread'
          contradiction

/-! ## The result -/

/-- A block as it should be: texts, collections and nesting within the limits, a number in range under `sequence`,
and identifiers that match, in the block and in its transactions. -/
structure Sanitized (limits : PayloadLimits) (block : Members) : Prop where
  within : withinLimits limits 0 block.toValue = true
  sequence : ∃ n : ℕ, n ≤ maxSequence ∧ block.get? "sequence" = some (.int n)
  identifiers : IdentifiersOk limits block
  transactions : ∀ v, block.get? "transactions" = some v → TransactionsOk limits v

/-- The payload is refused by validation, or becomes a block as it should be that is sanitised to itself. -/
def SanitizesWell (levels : ℕ) (limits : PayloadLimits) (unicode : UnicodeDigits) (payload : PyValue) : Prop :=
  (∃ reason, sanitizeWithin levels limits unicode payload = .error (.raised (.validation reason))) ∨
    ∃ block, sanitizeWithin levels limits unicode payload = .ok block ∧ Sanitized limits block.members ∧
      sanitizeWithin levels limits unicode block.members.toValue = .ok block

/-- There is room for the number: for one more member, for its key and for its text. -/
def Room (limits : PayloadLimits) (members : List (PyValue × PyValue)) (n : ℕ) : Prop :=
  members.length < limits.maxCollectionItems ∧ 8 ≤ limits.maxIdentifierLength ∧
    fits limits (tidyBlock (cleanMembers members ++ [("sequence", .int n)])).toValue = true

/-- The encoder keeps within its levels; a payload of the right size whose values pass has a sequence that `int`
reads; and if all is accepted and no key is `sequence`, there is room for it. -/
def Foreseen (levels : ℕ) (limits : PayloadLimits) (unicode : UnicodeDigits) (payload : PyValue) : Prop :=
  ∀ members, payload = .dict members →
    tooNested levels (.dict members) = false ∧
    (fits limits (.dict members) = true → passes limits 0 (.dict members) = true →
      readableSequence unicode (cleanMembers members) = true) ∧
    ∀ n, Accepted limits unicode members n → (cleanMembers members).get? "sequence" = none → Room limits members n

theorem identifiersOk_tidyBlock {block : Members} (h : identifiersPass limits identifierFields block = true) :
    IdentifiersOk limits (tidyBlock block) := by
  intro m' hm' hfield
  obtain ⟨m, hm, rfl⟩ := List.mem_map.mp hm'
  rw [tidyTransactionsMember_fst] at hfield
  have hne : m.1 ≠ "transactions" := by
    intro heq
    rw [heq] at hfield
    exact absurd hfield (by decide)
  rw [tidyTransactionsMember, if_neg hne]
  exact identifiersOk_tidyRecord h m hm hfield

theorem transactionsOk_tidyBlock {block : Members}
    (h : (block.get? "transactions").all (transactionsPass limits) = true) :
    ∀ v, (tidyBlock block).get? "transactions" = some v → TransactionsOk limits v := by
  intro v' hv'
  rw [(get?_tidyBlock block).2, Option.map_eq_some_iff] at hv'
  obtain ⟨v, hv, rfl⟩ := hv'
  rw [hv, Option.all_some] at h
  exact transactionsOk_tidyTransactions h

/-- The identifiers and transactions change nothing for the worse. -/
theorem tidied_tidyBlock {block : Members} (h : Settled limits 0 block.toValue) :
    Tidied limits 0 block.toValue (tidyBlock block).toValue := by
  have hrecord : Tidied limits 0 block.toValue (tidyRecord identifierFields block).toValue :=
    tidied_tidyRecord identifierFields block
  refine hrecord.trans (tidied_toValue fun m hm => ⟨tidyTransactionsMember_fst m, ?_⟩)
  have hvalue := ((settled_toValue_iff.mp (hrecord.settled h)).2.2.2 m hm).value
  unfold tidyTransactionsMember
  split_ifs
  · exact tidied_tidyTransactions hvalue
  · exact Tidied.refl m.2

/-- A block as it should be is left as it is. -/
theorem tidyBlock_fixed {block : Members} (hidentifiers : IdentifiersOk limits block)
    (htransactions : ∀ v, block.get? "transactions" = some v → TransactionsOk limits v)
    (hnodup : (block.map Prod.fst).Nodup) :
    blockPasses limits block = true ∧ tidyBlock block = block := by
  obtain ⟨hpass, hsame⟩ := hidentifiers.fixed
  constructor
  · rw [blockPasses, hpass, Bool.true_and]
    cases hget : block.get? "transactions" with
    | none => rfl
    | some v => exact (htransactions v hget).fixed.1
  · rw [tidyBlock, hsame, map_eq_self_iff]
    intro m hm
    unfold tidyTransactionsMember
    split_ifs with hkey
    · have hget := Members.get?_of_mem hnodup hm
      rw [hkey] at hget
      rw [(htransactions m.2 hget).fixed.2]
    · rfl

/-- A settled block that is as it should be and fits is sanitised to itself. -/
theorem sanitizeWithin_self {levels n : ℕ} {block : Members} (hsettled : Settled limits 0 block.toValue)
    (hfits : fits limits block.toValue = true) (hlevels : nesting block.toValue ≤ levels) (hn : n ≤ maxSequence)
    (hsequence : block.get? "sequence" = some (.int n)) (hidentifiers : IdentifiersOk limits block)
    (htransactions : ∀ v, block.get? "transactions" = some v → TransactionsOk limits v) :
    sanitizeWithin levels limits unicode block.toValue = .ok ⟨block, n⟩ := by
  have hnodup := settled_record hsettled
  obtain ⟨hpass, hsame⟩ := tidyBlock_fixed hidentifiers htransactions hnodup
  rw [blockPasses, Bool.and_eq_true] at hpass
  have hclean : cleanMembers (block.map fun m => (.str m.1, m.2)) = block := by
    have hcleaned := congrArg PyValue.textMembers hsettled.clean
    rwa [Members.toValue, clean, textMembers_toValue, ← Members.toValue, textMembers_toValue] at hcleaned
  have hvalue : sequenceValue block = some (.int n) := by
    rw [sequenceValue, sequenceFields, List.filterMap_cons, hsequence, List.head?_cons]
  have hnumber : extractSequence unicode block = .ok n := by
    rw [extractSequence_eq, hvalue]
    have hrange : 0 ≤ (n : ℤ) ∧ (n : ℤ) ≤ maxSequence := by omega
    exact if_pos hrange
  have haccepted : Accepted limits unicode (block.map fun m => (.str m.1, m.2)) n :=
    ⟨hfits, hsettled.passes, by rwa [hclean], by rw [hclean]; exact hpass.1, by rw [hclean]; exact hpass.2⟩
  have hnested : tooNested levels (.dict (block.map fun m => (.str m.1, m.2))) = false :=
    (tooNested_eq levels block.toValue (isSome_dumps_of_fits hfits)).trans
      (decide_eq_false (Nat.not_lt.mpr hlevels))
  rw [Members.toValue, sanitizeWithin, hnested, if_neg Bool.false_ne_true, sanitizeBlockPayload_of_accepted haccepted,
    hclean, Members.set_self hnodup hsequence, hsame]
  rfl

/-- What is sanitised has a size that fits. -/
theorem fits_of_sanitizeWithin {levels : ℕ} {block : Members} {r : SanitizedBlock}
    (h : sanitizeWithin levels limits unicode block.toValue = .ok r) : fits limits block.toValue = true := by
  rw [Members.toValue, sanitizeWithin] at h
  split_ifs at h
  have hall := sanitizes limits unicode (block.map fun m => (.str m.1, m.2))
  generalize sanitizeBlockPayload limits unicode (.dict (block.map fun m => (.str m.1, m.2))) = outcome at h hall
  cases hall with
  | block n haccepted _ => exact haccepted.fits
  | refused reason _ _ => contradiction
  | raised detail _ _ _ => contradiction

section Result

variable {levels n : ℕ} {members : List (PyValue × PyValue)}

theorem Accepted.number_le (h : Accepted limits unicode members n) :
    n ≤ maxSequence ∧ ∃ v, sequenceValue (cleanMembers members) = some v ∧ Denotes unicode v n := by
  have hnumber := extracted unicode (cleanMembers members)
  rw [h.number] at hnumber
  cases hnumber with
  | number n v _ hv hdenotes hn => exact ⟨hn, v, hv, hdenotes⟩

/-- The number under `sequence`, and the identifiers, whatever room there is. -/
theorem Accepted.result (h : Accepted limits unicode members n) :
    let r := tidyBlock ((cleanMembers members).set "sequence" (.int n))
    r.get? "sequence" = some (.int n) ∧ IdentifiersOk limits r ∧
      ∀ v, r.get? "transactions" = some v → TransactionsOk limits v := by
  refine ⟨?_, identifiersOk_tidyBlock ?_, transactionsOk_tidyBlock ?_⟩
  · rw [(get?_tidyBlock _).1, Members.get?_set_self]
  · rw [identifiersPass_set]
    exact h.identifiers
  · rw [Members.get?_set_ne (by decide)]
    exact h.transactions

/-- The run on a dictionary that is accepted. -/
theorem Accepted.sanitizeWithin (h : Accepted limits unicode members n)
    (hnested : tooNested levels (.dict members) = false) :
    sanitizeWithin levels limits unicode (.dict members) =
      .ok ⟨tidyBlock ((cleanMembers members).set "sequence" (.int n)), n⟩ := by
  rw [Ledger.sanitizeWithin, hnested, if_neg Bool.false_ne_true, sanitizeBlockPayload_of_accepted h]
  rfl

/-- A block that is settled with its number, and is no deeper than the payload, is as it should be when it fits. -/
theorem Accepted.sanitizesWell (h : Accepted limits unicode members n)
    (hnested : tooNested levels (.dict members) = false)
    (hsettled : Settled limits 0 (Members.toValue ((cleanMembers members).set "sequence" (.int n))))
    (hnesting : nesting (Members.toValue ((cleanMembers members).set "sequence" (.int n))) ≤
      nesting (.dict members))
    (hfits : Ledger.fits limits (tidyBlock ((cleanMembers members).set "sequence" (.int n))).toValue = true) :
    SanitizesWell levels limits unicode (.dict members) := by
  obtain ⟨hsequence, hidentifiers, htransactions⟩ := h.result
  obtain ⟨hn, -⟩ := h.number_le
  have htidied := tidied_tidyBlock hsettled
  have hresult := htidied.settled hsettled
  have hlevels : nesting (.dict members) ≤ levels := by
    rw [tooNested_eq levels _ (isSome_dumps_of_fits h.fits)] at hnested
    exact Nat.not_lt.mp (of_decide_eq_false hnested)
  refine .inr ⟨_, h.sanitizeWithin hnested, ⟨hresult.withinLimits, ⟨n, hn, hsequence⟩, hidentifiers, htransactions⟩, ?_⟩
  exact sanitizeWithin_self hresult hfits ((htidied.shrinks.nesting.trans hnesting).trans hlevels) hn hsequence
    hidentifiers htransactions

/-- The number takes the place of the value under `sequence`. -/
theorem tidied_number (hlawful : unicode.Lawful) (h : Accepted limits unicode members n) {old : PyValue}
    (hold : (cleanMembers members).get? "sequence" = some old) :
    Tidied limits 0 (cleanMembers members).toValue
      (Members.toValue ((cleanMembers members).set "sequence" (.int n))) := by
  obtain ⟨hn, v, hv, hdenotes⟩ := h.number_le
  have hsettled := settled_cleanMembers h.passes
  obtain rfl : v = old := by
    rw [sequenceValue, sequenceFields, List.filterMap_cons, hold, List.head?_cons] at hv
    exact (Option.some.inj hv).symm
  rw [Members.set_eq_map hold]
  refine tidied_toValue fun m hm => ?_
  split_ifs with hkey
  · refine ⟨hkey.symm, fun _ => settled_number hsettled hv n, ?_⟩
    have hsame := Members.get?_of_mem (settled_record hsettled) hm
    rw [hkey, hold, Option.some.injEq] at hsame
    rw [← hsame]
    exact shrinks_number hlawful hdenotes hn
  · exact ⟨rfl, Tidied.refl m.2⟩

/-- The number is added. -/
theorem settled_added (h : Accepted limits unicode members n)
    (hnone : (cleanMembers members).get? "sequence" = none) (hlength : members.length < limits.maxCollectionItems)
    (hkey : 8 ≤ limits.maxIdentifierLength) :
    Settled limits 0 (Members.toValue ((cleanMembers members).set "sequence" (.int n))) := by
  obtain ⟨-, v, hv, -⟩ := h.number_le
  have hsettled := settled_cleanMembers h.passes
  obtain ⟨hdepth, -, -, hmembers⟩ := settled_toValue_iff.mp hsettled
  have hcount := length_of_passes h.passes
  refine settled_toValue_iff.mpr ⟨hdepth, ?_, nodup_set (settled_record hsettled) _ _, ?_⟩
  · rw [Members.set_eq_append hnone, List.length_append, List.length_singleton]
    omega
  · intro m hm
    rcases mem_set hm with rfl | hold
    · have hclean : cleanChars "sequence" = "sequence" := rfl
      refine ⟨?_, hclean, settled_number hsettled hv n⟩
      have hblank : (!decide (strip (cleanChars "sequence") = "")) = true := by decide
      rw [keyPasses, Bool.and_eq_true, textPasses_iff_of_clean hclean]
      exact ⟨hkey, hblank⟩
    · exact hmembers m hold

/-- A number makes a dictionary no deeper. -/
theorem nesting_added (block : Members) (n : ℕ) :
    nesting (Members.toValue (block ++ [("sequence", .int n)])) = nesting block.toValue := by
  rw [Members.toValue, Members.toValue, nesting, nesting]
  congr 1
  induction block with
  | nil => rfl
  | cons m block ih => rw [List.cons_append, List.map_cons, List.map_cons, membersNesting, membersNesting, ih]

/-- A value under `sequence` gives way to the number. -/
theorem Accepted.sanitizesWell_replaced (hlawful : unicode.Lawful) (h : Accepted limits unicode members n)
    (hnested : tooNested levels (.dict members) = false) {old : PyValue}
    (hold : (cleanMembers members).get? "sequence" = some old) :
    SanitizesWell levels limits unicode (.dict members) := by
  have hnumber := tidied_number hlawful h hold
  have hsettled := hnumber.settled (settled_cleanMembers h.passes)
  have hclean : Shrinks (.dict members) (cleanMembers members).toValue := by
    have hshrinks := shrinks_clean limits 0 _ h.passes
    rwa [clean] at hshrinks
  have hnumbered := hclean.trans hnumber.shrinks
  exact h.sanitizesWell hnested hsettled hnumbered.nesting
    (fits_of_shrinks (hnumbered.trans (tidied_tidyBlock hsettled).shrinks) h.fits)

/-- A number that is added needs room, and no more than that. -/
theorem Accepted.sanitizesWell_added_iff (h : Accepted limits unicode members n)
    (hnested : tooNested levels (.dict members) = false)
    (hnone : (cleanMembers members).get? "sequence" = none) :
    SanitizesWell levels limits unicode (.dict members) ↔ Room limits members n := by
  have happend : (cleanMembers members).set "sequence" (.int n) = cleanMembers members ++ [("sequence", .int n)] :=
    Members.set_eq_append hnone _
  have hcount := length_of_passes h.passes
  constructor
  · rintro (⟨reason, hrefused⟩ | ⟨block, hblock, hsanitized, hagain⟩)
    · rw [h.sanitizeWithin hnested] at hrefused
      contradiction
    · rw [h.sanitizeWithin hnested, Except.ok.injEq, happend] at hblock
      subst hblock
      have hkeys := keys_tidyBlock (cleanMembers members ++ [("sequence", .int n)])
      obtain ⟨hlength, hkey⟩ := length_key_of_withinLimits hsanitized.within
      refine ⟨?_, ?_, fits_of_sanitizeWithin hagain⟩
      · have hsame := congrArg List.length hkeys
        rw [List.length_map, List.length_map, List.length_append, List.length_singleton] at hsame
        dsimp only at hlength
        omega
      · have hmem : "sequence" ∈ (tidyBlock (cleanMembers members ++ [("sequence", .int n)])).map Prod.fst := by
          rw [hkeys, List.map_append]
          exact List.mem_append_right _ (List.mem_singleton_self _)
        obtain ⟨m, hm, hname⟩ := List.mem_map.mp hmem
        have hshort := hkey m hm
        rwa [hname] at hshort
  · rintro ⟨hlength, hkey, hfits⟩
    have hsettled := settled_added h hnone hlength hkey
    refine h.sanitizesWell hnested hsettled ?_ (by rwa [happend])
    rw [happend, nesting_added]
    have hshrinks := shrinks_clean limits 0 _ h.passes
    rw [clean] at hshrinks
    exact hshrinks.nesting

theorem not_sanitizesWell {payload : PyValue} {e : SanitizeException}
    (h : sanitizeWithin levels limits unicode payload = .error e) (he : ∀ reason, e ≠ .raised (.validation reason)) :
    ¬ SanitizesWell levels limits unicode payload := by
  rintro (⟨reason, hrefused⟩ | ⟨block, hblock, -⟩)
  · rw [h, Except.error.injEq] at hrefused
    exact he reason hrefused
  · rw [h] at hblock
    contradiction

end Result

/-- For every value, every limits and every bound of the encoder: the payload is refused by validation, or becomes a
block within the limits that is sanitised to itself, exactly when it is foreseen. -/
theorem sanitizesWell_iff (levels : ℕ) (limits : PayloadLimits) {unicode : UnicodeDigits} (hlawful : unicode.Lawful)
    (payload : PyValue) : SanitizesWell levels limits unicode payload ↔ Foreseen levels limits unicode payload := by
  match payload with
  | .dict members =>
      cases hnested : tooNested levels (.dict members) with
      | true =>
          have hrun : sanitizeWithin levels limits unicode (.dict members) = .error .recursionError := by
            rw [sanitizeWithin, hnested, if_pos rfl]
          refine iff_of_false (not_sanitizesWell hrun nofun) fun h => ?_
          rw [(h members rfl).1] at hnested
          contradiction
      | false =>
          have hrun : sanitizeWithin levels limits unicode (.dict members) =
              (sanitizeBlockPayload limits unicode (.dict members)).mapError .raised := by
            rw [sanitizeWithin, hnested, if_neg Bool.false_ne_true]
          have hall := sanitizes limits unicode members
          generalize sanitizeBlockPayload limits unicode (.dict members) = outcome at hrun hall
          cases hall with
          | refused reason hnone hread =>
              refine iff_of_true (.inl ⟨reason, hrun⟩) fun members' heq => ?_
              obtain rfl := PyValue.dict.inj heq
              exact ⟨hnested, hread, fun n h => absurd h (hnone n)⟩
          | raised detail hfits hpasses hread =>
              refine iff_of_false (not_sanitizesWell hrun nofun) fun h => ?_
              rw [(h members rfl).2.1 hfits hpasses] at hread
              contradiction
          | block n haccepted hread =>
              cases hget : (cleanMembers members).get? "sequence" with
              | some old =>
                  refine iff_of_true (haccepted.sanitizesWell_replaced hlawful hnested hget) fun members' heq => ?_
                  obtain rfl := PyValue.dict.inj heq
                  refine ⟨hnested, fun _ _ => hread, fun _ _ hnone => ?_⟩
                  rw [hget] at hnone
                  contradiction
              | none =>
                  rw [haccepted.sanitizesWell_added_iff hnested hget]
                  constructor
                  · intro hroom members' heq
                    obtain rfl := PyValue.dict.inj heq
                    refine ⟨hnested, fun _ _ => hread, fun n' h _ => ?_⟩
                    have hsame := h.number
                    rw [haccepted.number, Except.ok.injEq] at hsame
                    rwa [← hsame]
                  · intro h
                    exact (h members rfl).2.2 n haccepted hget
  | .none => exact ⟨fun _ _ => nofun, fun _ => .inl ⟨_, rfl⟩⟩
  | .bool _ => exact ⟨fun _ _ => nofun, fun _ => .inl ⟨_, rfl⟩⟩
  | .int _ => exact ⟨fun _ _ => nofun, fun _ => .inl ⟨_, rfl⟩⟩
  | .float _ => exact ⟨fun _ _ => nofun, fun _ => .inl ⟨_, rfl⟩⟩
  | .str _ => exact ⟨fun _ _ => nofun, fun _ => .inl ⟨_, rfl⟩⟩
  | .list _ => exact ⟨fun _ _ => nofun, fun _ => .inl ⟨_, rfl⟩⟩
  | .tuple _ => exact ⟨fun _ _ => nofun, fun _ => .inl ⟨_, rfl⟩⟩
  | .other _ => exact ⟨fun _ _ => nofun, fun _ => .inl ⟨_, rfl⟩⟩

/-- The limits that the settings have by default. -/
def defaultLimits : PayloadLimits where
  maxPayloadBytes := 5 * 1024 * 1024
  maxTransactions := 1000
  maxIdentifierLength := 256
  maxStringLength := 4096
  maxCollectionItems := 10000
  maxDepth := 8

/-- The ASCII digits, and a superscript two, which is a digit without a decimal value. -/
def someDigits : UnicodeDigits where
  isdigit c := c.isDigit || c = '²'
  decimal c := if c.isDigit then some (c.toNat - '0'.toNat) else none

theorem someDigits_lawful : someDigits.Lawful := by
  intro c d h
  simp only [someDigits] at h
  split_ifs at h with hc
  rw [Char.isDigit, Bool.and_eq_true, decide_eq_true_eq, decide_eq_true_eq] at hc
  have hle : c.toNat ≤ 57 := UInt32.le_iff_toNat_le.mp hc.2
  have hzero : '0'.toNat = 48 := rfl
  rw [← Option.some.inj h, hzero]
  omega

/-- A block with a number as text, and an identifier with a blank and a control character. -/
theorem sanitizesWell_text : SanitizesWell 900 defaultLimits someDigits
    (.dict [(.str "sequence", .str "07"), (.str "hash", .str " ab\x01c"), (.str "transactions", .list [])]) := by
  refine (sanitizesWell_iff 900 defaultLimits someDigits_lawful _).mpr fun members heq => ?_
  obtain rfl := PyValue.dict.inj heq
  exact ⟨by decide, fun _ _ => by decide, fun n _ hnone => absurd hnone (by decide)⟩

/-- A superscript two raises the `ValueError` of `int`; and a number that is added to a full block makes it one that is
refused. -/
theorem superscript_raises :
    ¬ SanitizesWell 900 defaultLimits someDigits (.dict [(.str "ledger", .str "²")]) ∧
    ¬ SanitizesWell 900 { defaultLimits with maxCollectionItems := 1 } someDigits
      (.dict [(.str "ledger", .int 1)]) := by
  refine ⟨not_sanitizesWell rfl nofun, ?_⟩
  rintro (⟨reason, h⟩ | ⟨block, h, -, hagain⟩)
  · contradiction
  · obtain rfl := Except.ok.inj h
    contradiction

end ApexChainx.Ledger
