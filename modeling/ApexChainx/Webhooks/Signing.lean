import Mathlib.Data.Set.Basic
import Mathlib.Data.Nat.Log
import Mathlib.Algebra.Order.Group.Unbundled.Int
import Mathlib.Tactic.Ring
import Mathlib.Tactic.Positivity
import ApexChainx.Core.Error
import ApexChainx.Core.IsoFormat
import ApexChainx.Lib.Rounding

/-!
# Webhook signatures

`app/services/webhook_signing.py`: `sign_payload` with its two versions, `is_timestamp_fresh`,
`verify_delivery_signature`. Version 1 signs the payload, version 2 the timestamp,
a dot and the payload, with one key and nothing in the signed text that tells the versions apart.

HMAC-SHA256 is a parameter. A signature binds the text that was signed; `verifyDeliverySignature_iff` says
for which deliveries that text is read as another delivery.
-/

namespace ApexChainx.Webhooks

open ApexChainx.Lib

/-- `hmac.new(secret.encode(), message.encode(), hashlib.sha256).hexdigest()`. -/
structure HmacSha256 where
  hexdigest : String → String → String
  hexdigest_ascii : ∀ secret message, (hexdigest secret message).toList.all (·.toNat < 128)

/-- `hmac.compare_digest` of two strings: it raises `TypeError` when one is not ASCII. -/
def compareDigest (a b : String) : Outcome Bool :=
  if a.toList.all (·.toNat < 128) ∧ b.toList.all (·.toNat < 128) then .ok (a == b)
  else .error (.typeError "comparing strings with non-ASCII characters is not supported")

/-- `LEGACY_SIGNATURE_VERSION`. -/
def legacySignatureVersion : ℤ := 1

/-- `TIMESTAMPED_SIGNATURE_VERSION`. -/
def timestampedSignatureVersion : ℤ := 2

/-- `TIMESTAMP_SEPARATOR`. -/
def timestampSeparator : String := "."

/-- `timestamp or default`: the default also replaces the empty string. -/
def orDefault (timestamp : Option String) (default : String) : String :=
  match timestamp with
  | some ts => if ts = "" then default else ts
  | none => default

/-- `signing_input_v2`. -/
def signingInputV2 (timestamp payload : String) : String := timestamp ++ timestampSeparator ++ payload

section Functions

variable (hmac : HmacSha256) (secret : String)

/-- `sign_payload_v1`. -/
def signPayloadV1 (payload : String) : String := hmac.hexdigest secret payload

/-- `sign_payload_v2`. -/
def signPayloadV2 (payload timestamp : String) : String :=
  hmac.hexdigest secret (signingInputV2 timestamp payload)

/-- `verify_signature_v1`. -/
def verifySignatureV1 (payload signature : String) : Outcome Bool :=
  compareDigest (signPayloadV1 hmac secret payload) signature

/-- `verify_signature_v2`. -/
def verifySignatureV2 (payload signature timestamp : String) : Outcome Bool :=
  compareDigest (signPayloadV2 hmac secret payload timestamp) signature

/-- `sign_payload`, with the time of the call: the signature, the version and the timestamp to send. -/
def signPayload (payload : String) (version : ℤ) (timestamp : Option String) (now : DateTime) :
    Outcome (String × ℤ × String) :=
  if version = legacySignatureVersion then
    .ok (signPayloadV1 hmac secret payload, version, orDefault timestamp "")
  else if version = timestampedSignatureVersion then
    let ts := orDefault timestamp now.isoformat
    .ok (signPayloadV2 hmac secret payload ts, version, ts)
  else .error (.valueError ("Unsupported signature version: " ++ toString version))

/-- `timedelta.total_seconds` of an absolute difference in microseconds: the mantissa and the number of
fractional bits of the double nearest to the quotient by a million. -/
def totalSeconds (microseconds : ℕ) : ℕ × ℕ :=
  let bits := Nat.clog 2 ((2 ^ 52 * 1000000 + microseconds - 1) / microseconds)
  (roundHalfEven (microseconds * 2 ^ bits) 1000000, bits)

/-- `is_timestamp_fresh`, at the time `current`. -/
def isTimestampFresh (timestamp : String) (maxSkewSeconds : ℤ) (current : IsoTime) : Bool :=
  match fromisoformat timestamp with
  | none => false
  | some sentAt =>
      let seconds := totalSeconds (current.ticks - sentAt.ticks).natAbs
      (seconds.1 : ℤ) ≤ maxSkewSeconds * 2 ^ seconds.2

/-- `verify_delivery_signature`. Every version but 1 takes the path of version 2. -/
def verifyDeliverySignature (payload signature : String) (version : ℤ) (timestamp : Option String)
    (maxSkewSeconds : ℤ) (now : IsoTime) : Outcome Bool :=
  if version = legacySignatureVersion then verifySignatureV1 hmac secret payload signature
  else
    match timestamp with
    | none => .ok false
    | some ts =>
        if ts = "" ∨ isTimestampFresh ts maxSkewSeconds now = false then .ok false
        else verifySignatureV2 hmac secret payload signature ts

/-- A delivery that `sign_payload` signed, with the timestamp it returned. -/
structure SignedDelivery where
  payload : String
  version : ℤ
  timestamp : String
  signature : String
  signed : ∃ given now, signPayload hmac secret payload version given now
    = .ok (signature, version, timestamp)

end Functions

/-! ## The age of a timestamp

`total_seconds` is a double. Its rounding never puts a timestamp outside a window that it is in, and for
windows below 2^33 seconds it does not put one inside either. -/

/-- `|now - timestamp| ≤ skew`. -/
def WithinSkew (timestamp : String) (maxSkewSeconds : ℤ) (now : IsoTime) : Prop :=
  ∃ sentAt, fromisoformat timestamp = some sentAt ∧
    |now.ticks - sentAt.ticks| ≤ maxSkewSeconds * 1000000

theorem totalSeconds_le {microseconds n : ℕ} (h : microseconds ≤ n * 1000000) :
    (totalSeconds microseconds).1 ≤ n * 2 ^ (totalSeconds microseconds).2 := by
  refine roundHalfEven_le ?_ (by decide)
  calc microseconds * 2 ^ (totalSeconds microseconds).2
      ≤ n * 1000000 * 2 ^ (totalSeconds microseconds).2 := Nat.mul_le_mul_right _ h
    _ = n * 2 ^ (totalSeconds microseconds).2 * 1000000 := by
        rw [Nat.mul_assoc, Nat.mul_assoc, Nat.mul_comm 1000000]

theorem isTimestampFresh_of_withinSkew {timestamp : String} {skew : ℤ} {now : IsoTime}
    (h : WithinSkew timestamp skew now) : isTimestampFresh timestamp skew now = true := by
  obtain ⟨sentAt, hparse, hage⟩ := h
  rw [Int.abs_eq_natAbs] at hage
  obtain ⟨n, rfl⟩ := Int.eq_ofNat_of_zero_le (show 0 ≤ skew by omega)
  have hnat : (now.ticks - sentAt.ticks).natAbs ≤ n * 1000000 := by omega
  have hle := totalSeconds_le hnat
  simp only [isTimestampFresh, hparse, decide_eq_true_eq]
  exact_mod_cast hle

/-- The timestamp that `sign_payload` fills in is its time of signing. -/
theorem withinSkew_isoformat {signedAt : DateTime} {skew : ℤ} {now : IsoTime} :
    WithinSkew signedAt.isoformat skew now ↔ |now.ticks - signedAt.ticks| ≤ skew * 1000000 := by
  constructor
  · rintro ⟨sentAt, hparse, hage⟩
    rw [fromisoformat_isoformat, Option.some.injEq] at hparse
    subst hparse
    simpa [IsoTime.ticks] using hage
  · intro hage
    exact ⟨_, fromisoformat_isoformat signedAt, by simpa [IsoTime.ticks] using hage⟩

/-! ## What a signature binds -/

section Binding

variable {hmac : HmacSha256} {secret : String}

namespace SignedDelivery

/-- The text that was signed. -/
def message (d : SignedDelivery hmac secret) : String :=
  if d.version = legacySignatureVersion then d.payload else signingInputV2 d.timestamp d.payload

theorem version_eq (d : SignedDelivery hmac secret) : d.version = 1 ∨ d.version = 2 := by
  obtain ⟨given, now, hsign⟩ := d.signed
  unfold signPayload at hsign
  split_ifs at hsign with h₁ h₂
  · exact .inl h₁
  · exact .inr h₂

theorem signature_eq (d : SignedDelivery hmac secret) :
    d.signature = hmac.hexdigest secret d.message := by
  obtain ⟨given, now, hsign⟩ := d.signed
  unfold signPayload at hsign
  unfold message
  split_ifs at hsign with h₁ h₂
  · rw [if_pos h₁]
    exact (Prod.mk.inj (Outcome.ok.inj hsign)).1.symm
  · rw [if_neg h₁]
    obtain ⟨hsig, hrest⟩ := Prod.mk.inj (Outcome.ok.inj hsign)
    rw [← (Prod.mk.inj hrest).2]
    exact hsig.symm

theorem message_of_version_one {d : SignedDelivery hmac secret} (h : d.version = 1) :
    d.message = d.payload := if_pos h

theorem message_of_version_two {d : SignedDelivery hmac secret} (h : d.version = 2) :
    d.message = signingInputV2 d.timestamp d.payload := by
  refine if_neg ?_
  rw [h]
  decide

/-- The signature was issued for exactly this reading: the payload and the version, and under version 2
the timestamp, which is within the window. -/
def IssuedFor (d : SignedDelivery hmac secret) (payload : String) (version : ℤ)
    (timestamp : Option String) (skew : ℤ) (now : IsoTime) : Prop :=
  d.payload = payload ∧ d.version = version ∧
    (version = 2 → timestamp = some d.timestamp ∧ WithinSkew d.timestamp skew now)

/-- The readings, other than its own, under which the signature of a delivery passes. -/
inductive Misread (d : SignedDelivery hmac secret) (payload : String) (version : ℤ)
    (timestamp : Option String) (skew : ℤ) (now : IsoTime) : Prop
  /-- A version 2 signature shown as version 1, with all of the signed text as the payload. -/
  | downgraded (hversion : version = 1) (hd : d.version = 2)
      (hpayload : payload = signingInputV2 d.timestamp d.payload)
  /-- A version 1 signature shown as another version, its payload cut at a dot. -/
  | upgraded (ts : String) (hversion : version ≠ 1) (hd : d.version = 1)
      (hts : timestamp = some ts) (hfresh : isTimestampFresh ts skew now = true)
      (hpayload : signingInputV2 ts payload = d.payload)
  /-- A version 2 signature with its text cut at another dot. -/
  | resplit (ts : String) (hversion : version = 2) (hd : d.version = 2)
      (hts : timestamp = some ts) (hfresh : isTimestampFresh ts skew now = true)
      (hpayload : signingInputV2 ts payload = signingInputV2 d.timestamp d.payload)
      (hother : ts ≠ d.timestamp)
  /-- A version 2 signature shown under a version that does not exist. -/
  | unknownVersion (ts : String) (hlegacy : version ≠ 1) (hversion : version ≠ 2) (hd : d.version = 2)
      (hts : timestamp = some ts) (hfresh : isTimestampFresh ts skew now = true)
      (hpayload : signingInputV2 ts payload = signingInputV2 d.timestamp d.payload)
  /-- The delivery itself, outside the window by less than the rounding of `total_seconds`. -/
  | rounded (hversion : version = 2) (hd : d.version = 2) (hts : timestamp = some d.timestamp)
      (hpayload : payload = d.payload) (hfresh : isTimestampFresh d.timestamp skew now = true)
      (hlate : ¬ WithinSkew d.timestamp skew now)

end SignedDelivery

theorem compareDigest_hexdigest (message₁ message₂ : String) :
    compareDigest (hmac.hexdigest secret message₁) (hmac.hexdigest secret message₂)
      = .ok (hmac.hexdigest secret message₁ == hmac.hexdigest secret message₂) :=
  if_pos ⟨hmac.hexdigest_ascii secret message₁, hmac.hexdigest_ascii secret message₂⟩

theorem isTimestampFresh_empty (skew : ℤ) (now : IsoTime) : isTimestampFresh "" skew now = false := rfl

/-- A signature passes exactly with the text it was made for, read under the version it is shown with. -/
theorem verifyDeliverySignature_eq_true_iff (hinj : Function.Injective (hmac.hexdigest secret))
    {d : SignedDelivery hmac secret} {payload : String} {version : ℤ} {timestamp : Option String}
    {skew : ℤ} {now : IsoTime} :
    verifyDeliverySignature hmac secret payload d.signature version timestamp skew now = .ok true ↔
      (version = 1 ∧ payload = d.message) ∨
      (version ≠ 1 ∧ ∃ ts, timestamp = some ts ∧ isTimestampFresh ts skew now = true ∧
        signingInputV2 ts payload = d.message) := by
  rw [d.signature_eq]
  unfold verifyDeliverySignature legacySignatureVersion
  by_cases hversion : version = 1
  · rw [if_pos hversion, verifySignatureV1, signPayloadV1, compareDigest_hexdigest]
    simp [hversion, hinj.eq_iff]
  · rw [if_neg hversion]
    cases timestamp with
    | none => simp [hversion]
    | some ts =>
        by_cases hfresh : isTimestampFresh ts skew now = true
        · have hts : ts ≠ "" := by
            rintro rfl
            rw [isTimestampFresh_empty] at hfresh
            cases hfresh
          simp [hversion, hts, hfresh, verifySignatureV2, signPayloadV2, compareDigest_hexdigest,
            hinj.eq_iff]
        · simp [hversion, hfresh]

theorem signingInputV2_right_injective {ts p q : String}
    (h : signingInputV2 ts p = signingInputV2 ts q) : p = q := by
  unfold signingInputV2 at h
  have hlist := congrArg String.toList h
  simp only [String.toList_append] at hlist
  exact String.toList_injective (List.append_cancel_left hlist)

namespace SignedDelivery

/-- A delivery passes under its own reading. -/
theorem verify_of_issuedFor (hinj : Function.Injective (hmac.hexdigest secret))
    {d : SignedDelivery hmac secret} {payload : String} {version : ℤ} {timestamp : Option String}
    {skew : ℤ} {now : IsoTime} (h : d.IssuedFor payload version timestamp skew now) :
    verifyDeliverySignature hmac secret payload d.signature version timestamp skew now = .ok true := by
  obtain ⟨rfl, rfl, htwo⟩ := h
  rw [verifyDeliverySignature_eq_true_iff hinj]
  rcases d.version_eq with hd | hd
  · exact .inl ⟨hd, (message_of_version_one hd).symm⟩
  · obtain ⟨hts, hskew⟩ := htwo hd
    refine .inr ⟨by omega, d.timestamp, hts, isTimestampFresh_of_withinSkew hskew, ?_⟩
    exact (message_of_version_two hd).symm

/-- What passes is the delivery itself or one of its misreadings. -/
theorem verify_iff_issuedFor_or_misread (hinj : Function.Injective (hmac.hexdigest secret))
    {d : SignedDelivery hmac secret} {payload : String} {version : ℤ} {timestamp : Option String}
    {skew : ℤ} {now : IsoTime} :
    verifyDeliverySignature hmac secret payload d.signature version timestamp skew now = .ok true ↔
      d.IssuedFor payload version timestamp skew now ∨
        d.Misread payload version timestamp skew now := by
  constructor
  · intro h
    rw [verifyDeliverySignature_eq_true_iff hinj] at h
    rcases h with ⟨hversion, hpayload⟩ | ⟨hversion, ts, hts, hfresh, hinput⟩
    · rcases d.version_eq with hd | hd
      · rw [message_of_version_one hd] at hpayload
        exact .inl ⟨hpayload.symm, by omega, fun h => by omega⟩
      · rw [message_of_version_two hd] at hpayload
        exact .inr (.downgraded hversion hd hpayload)
    · rcases d.version_eq with hd | hd
      · rw [message_of_version_one hd] at hinput
        exact .inr (.upgraded ts hversion hd hts hfresh hinput)
      · rw [message_of_version_two hd] at hinput
        by_cases htwo : version = 2
        · by_cases hsame : ts = d.timestamp
          · subst hsame
            have hpayload := signingInputV2_right_injective hinput
            by_cases hskew : WithinSkew d.timestamp skew now
            · exact .inl ⟨hpayload.symm, by omega, fun _ => ⟨hts, hskew⟩⟩
            · exact .inr (.rounded htwo hd hts hpayload hfresh hskew)
          · exact .inr (.resplit ts htwo hd hts hfresh hinput hsame)
        · exact .inr (.unknownVersion ts hversion htwo hd hts hfresh hinput)
  · rintro (hissued | hmisread)
    · exact verify_of_issuedFor hinj hissued
    · rw [verifyDeliverySignature_eq_true_iff hinj]
      cases hmisread with
      | downgraded hversion hd hpayload =>
          exact .inl ⟨hversion, by rw [hpayload, message_of_version_two hd]⟩
      | upgraded ts hversion hd hts hfresh hpayload =>
          exact .inr ⟨hversion, ts, hts, hfresh, by rw [hpayload, message_of_version_one hd]⟩
      | resplit ts hversion hd hts hfresh hpayload hother =>
          exact .inr ⟨by omega, ts, hts, hfresh, by rw [hpayload, message_of_version_two hd]⟩
      | unknownVersion ts hlegacy hversion hd hts hfresh hpayload =>
          exact .inr ⟨hlegacy, ts, hts, hfresh, by rw [hpayload, message_of_version_two hd]⟩
      | rounded hversion hd hts hpayload hfresh hlate =>
          exact .inr ⟨by omega, d.timestamp, hts, hfresh,
            by rw [hpayload, message_of_version_two hd]⟩

end SignedDelivery

/-- A signature is accepted exactly for the deliveries it was issued for, if and only if it was issued for
the delivery shown or for none that the delivery shown is a misreading of. -/
theorem verifyDeliverySignature_iff (hinj : Function.Injective (hmac.hexdigest secret))
    (deliveries : Set (SignedDelivery hmac secret)) (signature : String)
    (hsignature : ∃ d ∈ deliveries, d.signature = signature)
    (payload : String) (version : ℤ) (timestamp : Option String) (skew : ℤ) (now : IsoTime) :
    (verifyDeliverySignature hmac secret payload signature version timestamp skew now = .ok true ↔
      ∃ d ∈ deliveries, d.signature = signature ∧ d.IssuedFor payload version timestamp skew now) ↔
    ((∃ d ∈ deliveries, d.signature = signature ∧ d.IssuedFor payload version timestamp skew now) ∨
      ∀ d ∈ deliveries, d.signature = signature → ¬ d.Misread payload version timestamp skew now) := by
  constructor
  · intro hiff
    by_cases hissued : ∃ d ∈ deliveries, d.signature = signature ∧
        d.IssuedFor payload version timestamp skew now
    · exact .inl hissued
    · refine .inr fun d hd hsig hmisread => hissued (hiff.mp ?_)
      rw [← hsig]
      exact (SignedDelivery.verify_iff_issuedFor_or_misread hinj).mpr (.inr hmisread)
  · intro hcond
    constructor
    · intro hverify
      obtain ⟨d, hd, hsig⟩ := hsignature
      rw [← hsig] at hverify
      rcases (SignedDelivery.verify_iff_issuedFor_or_misread hinj).mp hverify with hissued | hmisread
      · exact ⟨d, hd, hsig, hissued⟩
      · rcases hcond with hissued | hnone
        · exact hissued
        · exact absurd hmisread (hnone d hd hsig)
    · rintro ⟨d, hd, hsig, hissued⟩
      rw [← hsig]
      exact SignedDelivery.verify_of_issuedFor hinj hissued

end Binding

/-- An injective stand-in for HMAC-SHA256: ten digits for each character. -/
def spellOut : HmacSha256 where
  hexdigest _ message := String.ofList (message.toList.flatMap fun c => padded 10 c.toNat)
  hexdigest_ascii _ message := by
    simp only [String.toList_ofList, List.all_eq_true, List.mem_flatMap]
    rintro d ⟨c, -, hd⟩
    exact decide_eq_true (toNat_lt_of_mem_padded hd)

theorem flatMap_padded_injective {cs ds : List Char}
    (h : cs.flatMap (fun c => padded 10 c.toNat) = ds.flatMap (fun c => padded 10 c.toNat)) :
    cs = ds := by
  induction cs generalizing ds with
  | nil =>
      cases ds with
      | nil => rfl
      | cons d ds =>
          have hlength := congrArg List.length h
          rw [List.flatMap_cons, List.length_append, length_padded, List.flatMap_nil,
            List.length_nil] at hlength
          omega
  | cons c cs ih =>
      cases ds with
      | nil =>
          have hlength := congrArg List.length h
          rw [List.flatMap_cons, List.length_append, length_padded, List.flatMap_nil,
            List.length_nil] at hlength
          omega
      | cons d ds =>
          rw [List.flatMap_cons, List.flatMap_cons] at h
          obtain ⟨hhead, htail⟩ := List.append_inj h (by simp)
          have hc : c.toNat < 2 ^ 32 := c.val.toNat_lt
          have hd : d.toNat < 2 ^ 32 := d.val.toNat_lt
          have hnat : c.toNat = d.toNat := padded_injective (by omega) (by omega) hhead
          rw [Char.toNat_inj.mp hnat, ih htail]

theorem spellOut_injective (secret : String) : Function.Injective (spellOut.hexdigest secret) :=
  fun _ _ h => String.toList_injective (flatMap_padded_injective (String.ofList_injective h))

theorem valid_signedAt : DateTime.Valid 2026 1 2 3 4 5 250000 := by decide

/-- A timestamp with microseconds, as `isoformat` prints it. -/
def signedAt : DateTime := .ofValid valid_signedAt

/-- The empty object, signed under version 2 at that time. -/
def signedEmpty : SignedDelivery spellOut "whsec_test" where
  payload := "\x7b\x7d"
  version := 2
  timestamp := signedAt.isoformat
  signature := signPayloadV2 spellOut "whsec_test" "\x7b\x7d" signedAt.isoformat
  signed := ⟨none, signedAt, rfl⟩

/-- The receiver's clock, ten seconds after. -/
def receivedAt : IsoTime := ⟨signedAt.ticks + 10000000, some 0⟩

/-- The delivery as it was sent is accepted. -/
theorem verifyDeliverySignature_signedEmpty :
    verifyDeliverySignature spellOut "whsec_test" signedEmpty.payload signedEmpty.signature 2
      (some signedEmpty.timestamp) 300 receivedAt = .ok true := by
  have hissued : signedEmpty.IssuedFor signedEmpty.payload 2 (some signedEmpty.timestamp) 300
      receivedAt :=
    ⟨rfl, rfl, fun _ => ⟨rfl, withinSkew_isoformat.mpr (by decide)⟩⟩
  have hiff := verifyDeliverySignature_iff (spellOut_injective "whsec_test") {signedEmpty}
    signedEmpty.signature ⟨signedEmpty, rfl, rfl⟩ signedEmpty.payload 2 (some signedEmpty.timestamp)
    300 receivedAt
  exact (hiff.mpr (.inl ⟨signedEmpty, rfl, rfl, hissued⟩)).mpr ⟨signedEmpty, rfl, rfl, hissued⟩

/-- The signature of that delivery is accepted for the signed text as a version 1 payload, for the
timestamp without its microseconds, and under version 3. -/
theorem misread_signature_accepted :
    ([(signingInputV2 signedAt.isoformat "\x7b\x7d", 1, none),
        ("250000+00:00.\x7b\x7d", 2, some "2026-01-02T03:04:05"),
        ("\x7b\x7d", 3, some signedAt.isoformat)] : List (String × ℤ × Option String)).Forall fun shown =>
      verifyDeliverySignature spellOut "whsec_test" shown.1 signedEmpty.signature shown.2.1 shown.2.2
          300 receivedAt = .ok true ∧
        ¬ ∃ d ∈ ({signedEmpty} : Set (SignedDelivery spellOut "whsec_test")),
          d.signature = signedEmpty.signature ∧
            d.IssuedFor shown.1 shown.2.1 shown.2.2 300 receivedAt := by
  refine ⟨?_, ?_, ?_⟩
  · refine ⟨(SignedDelivery.verify_iff_issuedFor_or_misread (spellOut_injective _)).mpr
      (.inr (.downgraded rfl rfl rfl)), ?_⟩
    rintro ⟨d, rfl, -, -, hversion, -⟩
    exact absurd hversion (by decide)
  · refine ⟨(SignedDelivery.verify_iff_issuedFor_or_misread (spellOut_injective _)).mpr
      (.inr (.resplit _ rfl rfl rfl (by decide) (by decide) (by decide))), ?_⟩
    rintro ⟨d, rfl, -, hpayload, -⟩
    exact absurd hpayload (by decide)
  · refine ⟨(SignedDelivery.verify_iff_issuedFor_or_misread (spellOut_injective _)).mpr
      (.inr (.unknownVersion _ (by decide) (by decide) rfl rfl (by decide) rfl)), ?_⟩
    rintro ⟨d, rfl, -, -, hversion, -⟩
    exact absurd hversion (by decide)

end ApexChainx.Webhooks
