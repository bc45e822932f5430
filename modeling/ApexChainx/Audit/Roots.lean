import Mathlib.Data.List.Infix
import Mathlib.Data.Nat.Notation
import Mathlib.Logic.Equiv.Basic
import ApexChainx.Lib.HashChain

/-!
# Roots of the audit chain

`app/services/audit_chain_roots.py` folds the hashes of the entries into one root, so that a tail can be
verified from the root in front of it; `app/services/audit_chain_commitment.py` hashes the hashes of a chunk
one behind the other. SHA-256 is a parameter. The texts that are hashed can be taken apart again because a
hash has 64 digits: behind the colon of the fold, and without a separator in the chunk.
-/

namespace ApexChainx.Audit

open ApexChainx.Lib

variable (sha256 : String → String)

/-- `fold_root`. -/
def foldRoot (previousRoot entryHash : String) : String := sha256 (previousRoot ++ ":" ++ entryHash)

/-- The default of `genesis_root`. -/
def genesisRoot : String := String.ofList (List.replicate 64 '0')

/-- `compute_incremental_root`. -/
def computeIncrementalRoot (entryHashes : List String) (genesisRoot : String) : String :=
  entryHashes.foldl (foldRoot sha256) genesisRoot

/-- `verify_tail`. -/
def verifyTail (lastVerifiedRoot : String) (tailEntryHashes : List String) (claimedRoot : String) :
    Bool × String :=
  let computed := computeIncrementalRoot sha256 tailEntryHashes lastVerifiedRoot
  (computed = claimedRoot, computed)

/-- `compute_chunk_root`: what the hasher is updated with is hashed as one text. -/
def computeChunkRoot (entryHashes : List String) : String :=
  sha256 (entryHashes.foldl (· ++ ·) "")

/-- A hash of 64 hexadecimal digits. -/
def isHexHash (entryHash : String) : Bool :=
  entryHash.toList.length = 64 && entryHash.toList.all (· ∈ "0123456789abcdefABCDEF".toList)

/-! ## Taking the texts apart -/

variable {sha256}

theorem length_of_isHexHash {entryHash : String} (h : isHexHash entryHash = true) :
    entryHash.toList.length = 64 :=
  of_decide_eq_true (Bool.and_eq_true_iff.mp h).1

theorem foldRoot_inj (hinj : Function.Injective sha256) {root root' entryHash entryHash' : String}
    (h : isHexHash entryHash = true) (h' : isHexHash entryHash' = true)
    (heq : foldRoot sha256 root entryHash = foldRoot sha256 root' entryHash') :
    root = root' ∧ entryHash = entryHash' := by
  have htext := congrArg String.toList (hinj heq)
  simp only [String.toList_append] at htext
  obtain ⟨hfront, hhash⟩ := List.append_inj' htext ((length_of_isHexHash h).trans (length_of_isHexHash h').symm)
  exact ⟨String.toList_injective (List.append_cancel_right hfront), String.toList_injective hhash⟩

theorem toList_foldl_append (entryHashes : List String) (start : String) :
    (entryHashes.foldl (· ++ ·) start).toList = start.toList ++ (entryHashes.map String.toList).flatten := by
  induction entryHashes generalizing start with
  | nil => simp
  | cons entryHash rest ih =>
      rw [List.foldl_cons, ih, String.toList_append, List.map_cons, List.flatten_cons, List.append_assoc]

/-- Hashes one behind the other are as long together as 64 times their number. -/
theorem length_flatten_hashes {entryHashes : List String} (h : ∀ e ∈ entryHashes, isHexHash e = true) :
    (entryHashes.map String.toList).flatten.length = 64 * entryHashes.length := by
  induction entryHashes with
  | nil => rfl
  | cons entryHash rest ih =>
      have hrest := ih fun e he => h e (List.mem_cons_of_mem _ he)
      have hfirst := length_of_isHexHash (h entryHash List.mem_cons_self)
      rw [List.map_cons, List.flatten_cons, List.length_append, List.length_cons, hrest, hfirst]
      omega

theorem flatten_hashes_inj {a b : List String} (ha : ∀ e ∈ a, isHexHash e = true) (hb : ∀ e ∈ b, isHexHash e = true)
    (h : (a.map String.toList).flatten = (b.map String.toList).flatten) : a = b := by
  have hlength : a.length = b.length := by
    have htotal := congrArg List.length h
    rw [length_flatten_hashes ha, length_flatten_hashes hb] at htotal
    omega
  have hpieces : (a.map String.toList).map List.length = (b.map String.toList).map List.length := by
    have hall : ∀ {hashes : List String}, (∀ e ∈ hashes, isHexHash e = true) →
        (hashes.map String.toList).map List.length = List.replicate hashes.length 64 := by
      intro hashes hhashes
      rw [List.eq_replicate_iff]
      refine ⟨by simp, ?_⟩
      intro n hn
      obtain ⟨cs, hcs, rfl⟩ := List.mem_map.mp hn
      obtain ⟨e, he, rfl⟩ := List.mem_map.mp hcs
      exact length_of_isHexHash (hhashes e he)
    rw [hall ha, hall hb, hlength]
  exact List.map_injective_iff.mpr (fun _ _ => String.toList_injective) (List.eq_iff_flatten_eq.mpr ⟨h, hpieces⟩)

/-! ## Roots -/

/-- A root goes on from the root of what comes before. -/
theorem computeIncrementalRoot_append (a b : List String) (root : String) :
    computeIncrementalRoot sha256 (a ++ b) root =
      computeIncrementalRoot sha256 b (computeIncrementalRoot sha256 a root) :=
  List.foldl_append

/-- Verifying a tail from a root is recomputing the root of everything, roots of logs of one length are equal
for equal logs only, and so are roots of chunks, whatever their lengths. -/
theorem roots_spec (hinj : Function.Injective sha256) :
    (∀ a b root, computeIncrementalRoot sha256 (a ++ b) root =
      computeIncrementalRoot sha256 b (computeIncrementalRoot sha256 a root)) ∧
    (∀ a b root, (verifyTail sha256 (computeIncrementalRoot sha256 a genesisRoot) b root).1 = true ↔
      computeIncrementalRoot sha256 (a ++ b) genesisRoot = root) ∧
    (∀ a b root, (∀ e ∈ a, isHexHash e = true) → (∀ e ∈ b, isHexHash e = true) → a.length = b.length →
      computeIncrementalRoot sha256 a root = computeIncrementalRoot sha256 b root → a = b) ∧
    (∀ a b, (∀ e ∈ a, isHexHash e = true) → (∀ e ∈ b, isHexHash e = true) →
      computeChunkRoot sha256 a = computeChunkRoot sha256 b → a = b) := by
  refine ⟨computeIncrementalRoot_append, ?_, ?_, ?_⟩
  · intro a b root
    rw [computeIncrementalRoot_append]
    simp [verifyTail]
  · intro a b root ha hb hlength heq
    exact (foldl_inj (fun hx hy => foldRoot_inj hinj hx hy) ha hb hlength heq).2
  · intro a b ha hb heq
    have htext := congrArg String.toList (hinj heq)
    rw [toList_foldl_append, toList_foldl_append] at htext
    exact flatten_hashes_inj ha hb (List.append_cancel_left htext)

/-- A hash that is SHA-256 on the texts of the sample below. -/
def sampleSha : Equiv.Perm String :=
  (Equiv.swap (genesisRoot ++ ":" ++ "abababababababababababababababababababababababababababababababab")
      "4111c22cdb78868bac835f5719f6b5b7362eb3270a7cd57274cace92da6b39d4").trans
    (Equiv.swap ("4111c22cdb78868bac835f5719f6b5b7362eb3270a7cd57274cace92da6b39d4" ++ ":" ++
        "cdcdcdcdcdcdcdcdcdcdcdcdcdcdcdcdcdcdcdcdcdcdcdcdcdcdcdcdcdcdcdcd")
      "bcc30f9da76d7e76623b9f1c78985d8bf025f8bb75b84ab0c289107e209a9448")

/-- A tail of one entry is verified from the root of the entry before. -/
theorem sample_tail_verified :
    computeIncrementalRoot sampleSha
        ["abababababababababababababababababababababababababababababababab",
          "cdcdcdcdcdcdcdcdcdcdcdcdcdcdcdcdcdcdcdcdcdcdcdcdcdcdcdcdcdcdcdcd"] genesisRoot
      = "bcc30f9da76d7e76623b9f1c78985d8bf025f8bb75b84ab0c289107e209a9448" ∧
    (verifyTail sampleSha
        (computeIncrementalRoot sampleSha
          ["abababababababababababababababababababababababababababababababab"] genesisRoot)
        ["cdcdcdcdcdcdcdcdcdcdcdcdcdcdcdcdcdcdcdcdcdcdcdcdcdcdcdcdcdcdcdcd"]
        "bcc30f9da76d7e76623b9f1c78985d8bf025f8bb75b84ab0c289107e209a9448").1 = true := by
  have hroot : computeIncrementalRoot sampleSha
      ["abababababababababababababababababababababababababababababababab",
        "cdcdcdcdcdcdcdcdcdcdcdcdcdcdcdcdcdcdcdcdcdcdcdcdcdcdcdcdcdcdcdcd"] genesisRoot
      = "bcc30f9da76d7e76623b9f1c78985d8bf025f8bb75b84ab0c289107e209a9448" := by
    decide +kernel
  exact ⟨hroot, ((roots_spec sampleSha.injective).2.1 _ _ _).mpr hroot⟩

end ApexChainx.Audit
