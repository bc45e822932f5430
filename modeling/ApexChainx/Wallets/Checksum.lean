import ApexChainx.Lib.BinaryPoly

/-!
# The checksum of an address

`app/utils/stellar_checksum.py`: CRC-16/XMODEM, a register of 16 bits that is shifted eight times for each byte,
is the remainder of the message times `X ^ 16` after division by `X ^ 16 + X ^ 12 + X ^ 5 + 1` over GF(2).
-/

namespace ApexChainx.Wallets

open Polynomial ApexChainx.Lib

/-- One round of the inner loop of `crc16_xmodem`. -/
def crcShift (crc : ℕ) : ℕ :=
  if crc &&& 0x8000 ≠ 0 then ((crc <<< 1) ^^^ 0x1021) &&& 0xFFFF else (crc <<< 1) &&& 0xFFFF

/-- One round of the outer loop. -/
def crcByte (crc : ℕ) (byte : UInt8) : ℕ := crcShift^[8] (crc ^^^ (byte.toNat <<< 8))

/-- `crc16_xmodem`. -/
def crc16Xmodem (data : List UInt8) : ℕ := data.foldl crcByte 0x0000

/-- `int.from_bytes(checksum, byteorder="little")`. -/
def fromBytesLittle (bytes : List UInt8) : ℕ := bytes.foldr (fun byte n => byte.toNat + 256 * n) 0

/-- `has_valid_checksum`. -/
def hasValidChecksum (versionByte payload checksum : List UInt8) : Bool :=
  let expected := crc16Xmodem (versionByte ++ payload)
  let actual := fromBytesLittle checksum
  expected = actual

theorem crcShift_eq (crc : ℕ) : crcShift crc = shiftRegister 16 0x1021 crc := by
  have hbit : crc &&& 0x8000 ≠ 0 ↔ crc.testBit (16 - 1) = true := by
    rw [show (0x8000 : ℕ) = 2 ^ 15 from rfl, Nat.and_two_pow]
    cases crc.testBit 15 <;> simp
  unfold crcShift shiftRegister
  simp only [hbit]
  rfl

/-- The polynomial of the checksum. -/
noncomputable def xmodemPoly : (ZMod 2)[X] := X ^ 16 + X ^ 12 + X ^ 5 + 1

theorem xmodemPoly_eq : xmodemPoly = generator 16 0x1021 := by
  have htaps : bitPoly 0x1021 = X ^ 12 + (X ^ 5 + X ^ 0) := by
    rw [← bitPoly_two_pow, ← bitPoly_two_pow, ← bitPoly_two_pow, ← bitPoly_xor, ← bitPoly_xor]
    rfl
  rw [xmodemPoly, generator, htaps, pow_zero, ← add_assoc, ← add_assoc]

theorem monic_xmodemPoly : xmodemPoly.Monic := by
  rw [xmodemPoly_eq]
  exact monic_generator (by decide)

/-- The register after a byte. -/
theorem crcByte_spec {crc : ℕ} (h : crc < 2 ^ 16) (byte : UInt8) :
    bitPoly (crcByte crc byte) = (X ^ 8 * (bitPoly crc + X ^ 8 * bitPoly byte.toNat)) %ₘ xmodemPoly ∧
      crcByte crc byte < 2 ^ 16 := by
  have hshifted : byte.toNat <<< 8 < 2 ^ 16 := by
    rw [Nat.shiftLeft_eq]
    have hbyte := byte.toNat_lt
    omega
  have hshift : crcShift = shiftRegister 16 0x1021 := funext crcShift_eq
  rw [crcByte, hshift, xmodemPoly_eq, ← bitPoly_shiftLeft, ← bitPoly_xor]
  exact bitPoly_shifts (by decide) (by decide) (Nat.xor_lt_two_pow h hshifted) 8

/-- The register after a message holds the remainder. -/
theorem bitPoly_crc16Xmodem (data : List UInt8) :
    bitPoly (crc16Xmodem data) = (messagePoly data * X ^ 16) %ₘ xmodemPoly ∧ crc16Xmodem data < 2 ^ 16 := by
  induction data using List.reverseRecOn with
  | nil =>
      refine ⟨?_, by decide⟩
      rw [messagePoly, List.foldl_nil, zero_mul, zero_modByMonic]
      rfl
  | append_singleton data byte ih =>
      have hconcat : crc16Xmodem (data ++ [byte]) = crcByte (crc16Xmodem data) byte := by
        rw [crc16Xmodem, List.foldl_append]
        rfl
      obtain ⟨hstep, hlt⟩ := crcByte_spec ih.2 byte
      refine ⟨?_, hconcat ▸ hlt⟩
      rw [hconcat, hstep, ih.1, messagePoly_concat, mul_add, add_modByMonic,
        mul_modByMonic_mod monic_xmodemPoly, ← add_modByMonic]
      congr 1
      ring

theorem crc16Xmodem_xorBytes {a b : List UInt8} (h : a.length = b.length) :
    crc16Xmodem (xorBytes a b) = crc16Xmodem a ^^^ crc16Xmodem b := by
  apply bitPoly_injective
  rw [bitPoly_xor, (bitPoly_crc16Xmodem _).1, (bitPoly_crc16Xmodem a).1, (bitPoly_crc16Xmodem b).1,
    messagePoly_xorBytes h, add_mul, add_modByMonic]

/-- A burst changes the checksum. -/
theorem crc16Xmodem_ne_of_burst {a b : List UInt8} (h : Burst 16 a b) : crc16Xmodem a ≠ crc16Xmodem b := by
  intro heq
  have hdvd : generator 16 0x1021 ∣ (messagePoly a + messagePoly b) * X ^ 16 := by
    rw [← xmodemPoly_eq, ← modByMonic_eq_zero_iff_dvd monic_xmodemPoly, add_mul, add_modByMonic,
      ← (bitPoly_crc16Xmodem a).1, ← (bitPoly_crc16Xmodem b).1, heq]
    exact CharTwo.add_self_eq_zero _
  exact h.not_dvd (by decide) (by decide) (by decide) 16 hdvd

/-- The checksum is the remainder of the message times `X ^ 16`. It is linear, and a checksum that is valid for
one message is not valid for a message that differs from it within 16 bits in a row. -/
theorem crc16Xmodem_spec :
    (∀ data, bitPoly (crc16Xmodem data) = (messagePoly data * X ^ 16) %ₘ (X ^ 16 + X ^ 12 + X ^ 5 + 1)) ∧
    (∀ a b, a.length = b.length → crc16Xmodem (xorBytes a b) = crc16Xmodem a ^^^ crc16Xmodem b) ∧
    (∀ versionByte payload versionByte' payload' checksum,
      hasValidChecksum versionByte payload checksum = true →
        Burst 16 (versionByte ++ payload) (versionByte' ++ payload') →
          hasValidChecksum versionByte' payload' checksum = false) := by
  refine ⟨fun data => (bitPoly_crc16Xmodem data).1, fun a b h => crc16Xmodem_xorBytes h, ?_⟩
  intro versionByte payload versionByte' payload' checksum hvalid hburst
  have hne := crc16Xmodem_ne_of_burst hburst
  rw [hasValidChecksum, decide_eq_true_eq] at hvalid
  rw [hasValidChecksum, decide_eq_false_iff_not, ← hvalid]
  exact hne.symm

/-- `123456789`, whose checksum is `0x31C3`, with its first digit changed. -/
theorem changed_digit_rejected :
    hasValidChecksum [0x31] [0x32, 0x33, 0x34, 0x35, 0x36, 0x37, 0x38, 0x39] [0xC3, 0x31] = true ∧
      hasValidChecksum [0x30] [0x32, 0x33, 0x34, 0x35, 0x36, 0x37, 0x38, 0x39] [0xC3, 0x31] = false := by
  have hvalid : hasValidChecksum [0x31] [0x32, 0x33, 0x34, 0x35, 0x36, 0x37, 0x38, 0x39] [0xC3, 0x31]
      = true := by
    decide +kernel
  refine ⟨hvalid, crc16Xmodem_spec.2.2 _ _ _ _ _ hvalid ⟨rfl, by decide, 7, ?_⟩⟩
  decide +kernel

end ApexChainx.Wallets
