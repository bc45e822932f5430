import ApexChainx.Ledger.TxMemo
import ApexChainx.Sla.Calculator

/-!
# The memo of a settlement

`build_tx_memo_from_result` (`app/services/contracts/translation.py`): the memo that goes on chain with the
payment for an SLA result. The aggregation key is the beginning of the outage id, cut by characters until the
memo has no more than 28 bytes.
-/

namespace ApexChainx.Ledger

open ApexChainx.Sla

/-- The event `memo_suspicious` of the audit log. -/
structure SuspiciousMemo where
  memo : String
  outageId : String
  paymentType : PaymentType
deriving DecidableEq, Repr

section Memo

variable (cases : CaseMapping) (sha : HexSha)

/-- The loop that cuts the key, from the key and the memo it has been built with. -/
def shrinkMemo (op contentHash : String) (agg : List Char) (memo : TxMemo) : Except MemoError TxMemo :=
  if memoMaxBytes < memo.byteLength ∧ 1 < agg.length then
    match TxMemo.validate cases op (String.ofList agg.dropLast) contentHash with
    | .error e => .error e
    | .ok memo => shrinkMemo op contentHash agg.dropLast memo
  else .ok memo
termination_by agg.length

/-- The text of `SLAResult.status`. -/
def statusText : ResultStatus → String
  | .met => "met"
  | .violated => "violated"

/-- The operation code of a result. -/
def settlementOp (r : SLAResult) : String := if r.paymentType = .penalty then "SLP" else "SLR"

/-- The content hash: of the stored digest if there is one, else of a digest made here. -/
def settlementHash (r : SLAResult) : String :=
  let derived := sha.hexdigest (r.outageId ++ "|" ++ statusText r.status ++ "|" ++ toString r.amount)
  match r.computeHash with
  | none => String.ofList (derived.toList.take 8)
  | some computeHash =>
      if computeHash = "" then String.ofList (derived.toList.take 8)
      else String.ofList (computeHash.toList.take 8)

/-- `build_tx_memo_from_result`: the encoded memo, with the event that is logged. -/
def buildTxMemoFromResult (r : SLAResult) : Except MemoError (String × Option SuspiciousMemo) :=
  let agg := r.outageId.toList.take 16
  match TxMemo.validate cases (settlementOp r) (String.ofList agg) (settlementHash sha r) with
  | .error e => .error e
  | .ok memo =>
      match shrinkMemo cases (settlementOp r) (settlementHash sha r) agg memo with
      | .error e => .error e
      | .ok memo =>
          .ok (memo.encode,
            if TxMemo.isSuspicious cases memo.encode then some ⟨memo.encode, r.outageId, r.paymentType⟩ else none)

end Memo

/-! ## The loop -/

/-- The memo has the operation code, the content hash and the key. -/
structure HasParts (m : TxMemo) (op contentHash : String) (agg : List Char) : Prop where
  op : m.op = op
  contentHash : m.contentHash = contentHash
  agg : m.agg.toList = agg

/-- The longest beginning of the key with which a memo fits. -/
structure LongestFit (full agg : List Char) : Prop where
  ne_nil : agg ≠ []
  isPrefix : agg <+: full
  fits : 14 + String.utf8Len agg ≤ memoMaxBytes
  longest : ∀ other, other ≠ [] → other <+: full → 14 + String.utf8Len other ≤ memoMaxBytes → other <+: agg

section Memo

variable {cases : CaseMapping} {op contentHash : String} {agg : List Char} {memo : TxMemo}

theorem HasParts.byteLength_eq (h : HasParts memo op contentHash agg) :
    memo.byteLength = 14 + String.utf8Len agg := by
  rw [memo.byteLength_eq, h.agg]

variable (cases) in
/-- The constructor accepts what the function gives it. -/
theorem exists_validate (hop : op ∈ validOpCodes) (hhash : contentHash.toList.length = 8)
    (hhex : contentHash.toList.all hexLower = true) (hagg : agg ≠ []) (hlength : agg.length ≤ 16) :
    ∃ memo, TxMemo.validate cases op (String.ofList agg) contentHash = .ok memo ∧
      HasParts memo op contentHash agg := by
  have hbounds : 1 ≤ (String.ofList agg).toList.length ∧ (String.ofList agg).toList.length ≤ 16 := by
    rw [String.toList_ofList]
    exact ⟨List.length_pos_of_ne_nil hagg, hlength⟩
  have hopLength := length_of_valid hop
  refine ⟨⟨op, String.ofList agg, contentHash, hop, hbounds, hhash, hhex⟩, ?_, rfl, rfl, String.toList_ofList⟩
  refine validate_eq_ok_iff.mpr ⟨⟨by omega, hbounds, hhash⟩, ?_, rfl, ?_⟩
  · exact (upper_of_valid hop).symm
  · exact (lower_of_hex hhex).symm

theorem utf8Len_singleton_le (c : Char) : String.utf8Len [c] ≤ 4 := by
  rw [String.utf8Len_cons, String.utf8Len_nil, Nat.zero_add]
  exact c.utf8Size_le_four

variable (cases) in
/-- The loop ends with the longest key that fits. -/
theorem shrinkMemo_spec (hop : op ∈ validOpCodes) (hhash : contentHash.toList.length = 8)
    (hhex : contentHash.toList.all hexLower = true) (hagg : agg ≠ []) (hlength : agg.length ≤ 16)
    (hparts : HasParts memo op contentHash agg) :
    ∃ memo' agg', shrinkMemo cases op contentHash agg memo = .ok memo' ∧ HasParts memo' op contentHash agg' ∧
      LongestFit agg agg' := by
  induction hn : agg.length generalizing agg memo with
  | zero => exact absurd (List.length_eq_zero_iff.mp hn) hagg
  | succ n ih =>
      rw [shrinkMemo]
      by_cases hfits : memo.byteLength ≤ memoMaxBytes
      · rw [if_neg fun h => absurd h.1 (Nat.not_lt.mpr hfits)]
        rw [hparts.byteLength_eq] at hfits
        exact ⟨memo, agg, rfl, hparts, hagg, List.prefix_refl agg, hfits, fun other _ hbeginning _ => hbeginning⟩
      · rw [hparts.byteLength_eq] at hfits
        have hlong : 1 < agg.length := by
          -- one character never has more than four bytes
          by_contra hshort
          obtain ⟨c, rfl⟩ := List.length_eq_one_iff.mp (show agg.length = 1 by omega)
          have hle := utf8Len_singleton_le c
          have hmax : memoMaxBytes = 28 := rfl
          omega
        have hcut : agg.dropLast ≠ [] := by
          rw [ne_eq, ← List.length_eq_zero_iff, List.length_dropLast]
          omega
        have hcutLength : agg.dropLast.length ≤ 16 := by
          rw [List.length_dropLast]
          omega
        obtain ⟨memo', hvalidate, hparts'⟩ := exists_validate cases hop hhash hhex hcut hcutLength
        obtain ⟨memo'', agg', hshrink, hparts'', hfit⟩ :=
          ih hcut hcutLength hparts' (by rw [List.length_dropLast]; omega)
        have hover : memoMaxBytes < memo.byteLength ∧ 1 < agg.length := by
          rw [hparts.byteLength_eq]
          exact ⟨by omega, hlong⟩
        refine ⟨memo'', agg', ?_, hparts'', hfit.ne_nil, hfit.isPrefix.trans (List.dropLast_prefix agg), hfit.fits,
          fun other hne hbeginning hother => ?_⟩
        · rw [if_pos hover, hvalidate]
          exact hshrink
        · refine hfit.longest other hne ?_ hother
          have hother' : other ≠ agg := by
            rintro rfl
            exact hfits hother
          rw [List.prefix_iff_eq_take] at hbeginning
          have hshorter : other.length < agg.length := by
            by_contra hge
            rw [List.take_of_length_le (Nat.not_lt.mp hge)] at hbeginning
            exact hother' hbeginning
          rw [hbeginning, List.dropLast_eq_take]
          exact List.take_prefix_take_left (by omega)

theorem settlementOp_valid (r : SLAResult) : settlementOp r ∈ validOpCodes := by
  unfold settlementOp
  split_ifs <;> decide

/-- The content hash is eight digits of a digest. -/
theorem settlementHash_hex (sha : HexSha) {r : SLAResult}
    (hcompute : ∀ h ∈ r.computeHash, h.toList.length = 64 ∧ ∀ c ∈ h.toList, hexLower c = true) :
    (settlementHash sha r).toList.length = 8 ∧ (settlementHash sha r).toList.all hexLower = true := by
  have htake : ∀ digest : String, digest.toList.length = 64 → (∀ c ∈ digest.toList, hexLower c = true) →
      (String.ofList (digest.toList.take 8)).toList.length = 8 ∧
        (String.ofList (digest.toList.take 8)).toList.all hexLower = true := by
    intro digest hlength hhex
    rw [String.toList_ofList, List.length_take, List.all_eq_true]
    exact ⟨by omega, fun c hc => hhex c (List.mem_of_mem_take hc)⟩
  have hderived := fun text => htake (sha.hexdigest text) (sha.hexdigest_length text)
    fun c hc => decide_eq_true (sha.hexdigest_hex text c hc)
  unfold settlementHash
  cases hc : r.computeHash with
  | none => exact hderived _
  | some computeHash =>
      simp only
      split_ifs
      · exact hderived _
      · obtain ⟨hlength, hhex⟩ := hcompute computeHash (by rw [hc]; rfl)
        exact htake computeHash hlength hhex

end Memo

/-- The function returns a memo of no more than 28 bytes: `SLP` for a penalty and `SLR` otherwise, the longest
beginning of the first sixteen characters of the outage id with which the memo fits, and eight hexadecimal
digits. -/
theorem buildTxMemoFromResult_spec (cases : CaseMapping) (sha : HexSha) {r : SLAResult} (hid : r.outageId ≠ "")
    (hcompute : ∀ h ∈ r.computeHash, h.toList.length = 64 ∧ ∀ c ∈ h.toList, hexLower c = true) :
    ∃ encoded audit op agg hash, buildTxMemoFromResult cases sha r = .ok (encoded, audit) ∧
      encoded = op ++ ":" ++ agg ++ ":v" ++ hash ∧ encoded.utf8ByteSize ≤ 28 ∧
      op = (if r.paymentType = .penalty then "SLP" else "SLR") ∧
      hash.toList.length = 8 ∧ (∀ c ∈ hash.toList, hexLower c = true) ∧
      agg ≠ "" ∧ agg.toList <+: r.outageId.toList.take 16 ∧
      ∀ other : String, other ≠ "" → other.toList <+: r.outageId.toList.take 16 →
        (op ++ ":" ++ other ++ ":v" ++ hash).utf8ByteSize ≤ 28 → other.toList.length ≤ agg.toList.length := by
  obtain ⟨hhash, hhex⟩ := settlementHash_hex sha hcompute
  have hop := settlementOp_valid r
  have hagg : r.outageId.toList.take 16 ≠ [] := by
    intro hnil
    rcases List.take_eq_nil_iff.mp hnil with hzero | hnil
    · cases hzero
    · exact hid (String.toList_injective hnil)
  obtain ⟨memo, hvalidate, hparts⟩ := exists_validate cases hop hhash hhex hagg (List.length_take_le _ _)
  obtain ⟨memo', agg', hshrink, hparts', hfit⟩ :=
    shrinkMemo_spec cases hop hhash hhex hagg (List.length_take_le _ _) hparts
  obtain ⟨audit, hbuild⟩ : ∃ audit, buildTxMemoFromResult cases sha r = .ok (memo'.encode, audit) := by
    simp only [buildTxMemoFromResult, hvalidate, hshrink]
    exact ⟨_, rfl⟩
  refine ⟨memo'.encode, audit, settlementOp r, memo'.agg, settlementHash sha r, hbuild, ?_, ?_, rfl, hhash,
    List.all_eq_true.mp hhex, ?_, ?_, ?_⟩
  · rw [TxMemo.encode, hparts'.op, hparts'.contentHash]
  · have hbytes := hparts'.byteLength_eq
    rw [TxMemo.byteLength] at hbytes
    rw [hbytes]
    exact hfit.fits
  · intro hempty
    have hnil := hparts'.agg
    rw [hempty] at hnil
    exact hfit.ne_nil hnil.symm
  · rw [hparts'.agg]
    exact hfit.isPrefix
  · intro other hne hbeginning hother
    have hotherNil : other.toList ≠ [] := fun hnil => hne (String.toList_injective hnil)
    have hotherLength : other.toList.length ≤ 16 := hbeginning.length_le.trans (List.length_take_le _ _)
    obtain ⟨memo'', -, hparts''⟩ := exists_validate cases hop hhash hhex hotherNil hotherLength
    have hbytes : memo''.byteLength = 14 + String.utf8Len other.toList := hparts''.byteLength_eq
    rw [TxMemo.byteLength, TxMemo.encode, hparts''.op, hparts''.contentHash,
      String.toList_injective hparts''.agg] at hbytes
    rw [hbytes] at hother
    rw [hparts'.agg]
    exact (hfit.longest other.toList hotherNil hbeginning hother).length_le

/-- A reward for an outage whose id has sixteen characters of two bytes. -/
def accentedResult : SLAResult where
  id := none
  outageId := "éééééééééééééééé"
  status := .met
  mttrMinutes := 30
  thresholdMinutes := 60
  amount := 100
  paymentType := .reward
  rating := .excellent
  policyVersion := "1.0"
  thresholdSource := "config"
  reasonCode := none
  decisionTrace := none
  computeHash := some "a3f2c1b9a3f2c1b9a3f2c1b9a3f2c1b9a3f2c1b9a3f2c1b9a3f2c1b9a3f2c1b9"

/-- Seven of the sixteen characters fit. -/
theorem accented_memo : ∃ encoded audit, buildTxMemoFromResult asciiCases helloSha accentedResult =
    .ok (encoded, audit) ∧ encoded.utf8ByteSize ≤ 28 := by
  have hcompute : ∀ h ∈ accentedResult.computeHash, h.toList.length = 64 ∧ ∀ c ∈ h.toList, hexLower c = true := by
    rintro h ⟨rfl⟩
    exact ⟨by decide, List.all_eq_true.mp (by decide)⟩
  obtain ⟨encoded, audit, op, agg, hash, hbuild, heq, hbytes, hrest⟩ :=
    buildTxMemoFromResult_spec asciiCases helloSha (r := accentedResult) (by decide) hcompute
  exact ⟨encoded, audit, hbuild, hbytes⟩

end ApexChainx.Ledger
