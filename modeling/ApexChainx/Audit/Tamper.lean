import ApexChainx.Audit.Chain

/-!
# What a verified chain commits to

With a collision-free hash, the last entry's hash fixes the whole table as far as it is hashed: the event
type, the correlation id, the time and the details of every entry, and the links between them. The email
and the actor of an entry are not part of what is hashed, so they can be replaced without
`verify_chain` noticing.
-/

namespace ApexChainx.Audit

open ApexChainx.Lib

variable {sha256 : String → String}

/-- The entries agree in what is hashed. Details are compared as JSON values, that is without regard to
the order of the members of an object. -/
structure SameContent (e f : AuditLogRow) : Prop where
  eventType : e.eventType = f.eventType
  correlationId : e.correlationId = f.correlationId
  details : e.details.sortKeys = f.details.sortKeys
  createdAt : e.createdAt = f.createdAt

theorem nullable_sortKeys (s : Option String) : (nullable s).sortKeys = nullable s := by
  cases s with
  | none => rfl
  | some s => rfl

theorem nullable_injective {s s' : Option String} (h : nullable s = nullable s') : s = s' := by
  cases s with
  | none =>
      cases s' with
      | none => rfl
      | some s' => cases h
  | some s =>
      cases s' with
      | none => cases h
      | some s' => exact congrArg some (Json.str.inj h)

/-- The hashed text determines the link and what is hashed of the entry. -/
theorem entryData_injective {p p' : Option String} {e f : AuditLogRow}
    (h : canonicalJson (entryData p e.eventType e.details e.correlationId e.createdAt)
      = canonicalJson (entryData p' f.eventType f.details f.correlationId f.createdAt)) :
    p = p' ∧ SameContent e f := by
  have hsorted := Json.text_injective h
  have hprev := Json.member_eq_of_sortKeys (k := "prev_hash") (v := nullable p) (w := nullable p')
    hsorted (by simp) (by simp)
  have htype := Json.member_eq_of_sortKeys (k := "event_type") (v := .str e.eventType)
    (w := .str f.eventType) hsorted (by simp) (by simp)
  have hdetails := Json.member_eq_of_sortKeys (k := "details") (v := e.details) (w := f.details)
    hsorted (by simp) (by simp)
  have hcorr := Json.member_eq_of_sortKeys (k := "correlation_id") (v := nullable e.correlationId)
    (w := nullable f.correlationId) hsorted (by simp) (by simp)
  have htime := Json.member_eq_of_sortKeys (k := "created_at") (v := .str e.createdAt.isoformat)
    (w := .str f.createdAt.isoformat) hsorted (by simp) (by simp)
  rw [nullable_sortKeys, nullable_sortKeys] at hprev hcorr
  exact ⟨nullable_injective hprev, Json.str.inj htype, nullable_injective hcorr, hdetails,
    DateTime.isoformat_injective (Json.str.inj htime)⟩

/-- Entries that agree in what is hashed have the same hash after the same predecessor. -/
theorem SameContent.compute_eq {e f : AuditLogRow} (h : SameContent e f) (tip : Option String) :
    (auditChain sha256).compute tip e = (auditChain sha256).compute tip f := by
  simp only [auditChain, computeEntryHash, canonicalJson, entryData, Json.sortKeys, Json.sortMembers,
    h.eventType, h.correlationId, h.details, h.createdAt]

/-- The hash determines the predecessor's hash and what is hashed of the entry. -/
theorem compute_injective (hsha : Function.Injective sha256) (p p' : Option String) (e f : AuditLogRow)
    (h : (auditChain sha256).compute p e = (auditChain sha256).compute p' f) :
    p = p' ∧ SameContent e f :=
  entryData_injective (hsha h)

/-! ## Edits -/

/-- The edit changes a column of the chain: one that is hashed, the link or the hash. -/
def Altered (e f : AuditLogRow) : Prop :=
  ¬ SameContent e f ∨ e.prevHash ≠ f.prevHash ∨ e.entryHash ≠ f.entryHash

theorem not_altered_iff {e f : AuditLogRow} :
    ¬ Altered e f ↔ SameContent e f ∧ e.prevHash = f.prevHash ∧ e.entryHash = f.entryHash := by
  unfold Altered
  rw [not_or, not_or, not_not, not_not, not_not]

theorem mem_orderById {rows : List AuditLogRow} {e : AuditLogRow} : e ∈ orderById rows ↔ e ∈ rows :=
  List.mem_insertionSort _

/-- Edits in place leave the order of the rows. -/
theorem orderById_map {rows : List AuditLogRow} {edit : AuditLogRow → AuditLogRow}
    (hid : ∀ e, (edit e).id = e.id) : orderById (rows.map edit) = (orderById rows).map edit := by
  refine (List.map_insertionSort _ _ edit rows ?_).symm
  intro a _ b _
  rw [hid, hid]

/-- Entries that only differ outside the chain are chained the same way. -/
theorem linked_map_of_not_altered {rows : List AuditLogRow} {edit : AuditLogRow → AuditLogRow}
    (h : (auditChain sha256).Linked none rows) (hsame : ∀ e ∈ rows, ¬ Altered e (edit e)) :
    (auditChain sha256).Linked none (rows.map edit) := by
  refine h.of_forall₂ ?_
  rw [List.forall₂_map_right_iff, List.forall₂_same]
  intro e he
  obtain ⟨hcontent, hlink, hdigest⟩ := not_altered_iff.mp (hsame e he)
  exact ⟨hlink, hdigest, hcontent.compute_eq⟩

/-- A chain that is still chained after edits in place that keep its tip was edited outside the chain
only. -/
theorem not_altered_of_linked_map (hsha : Function.Injective sha256) {rows : List AuditLogRow}
    {edit : AuditLogRow → AuditLogRow} (h : (auditChain sha256).Linked none rows)
    (h' : (auditChain sha256).Linked none (rows.map edit))
    (htip : (auditChain sha256).tip none (rows.map edit) = (auditChain sha256).tip none rows) :
    ∀ e ∈ rows, ¬ Altered e (edit e) := by
  have hall := HashChain.forall₂_of_tip_eq (compute_injective hsha) h h' (by simp) htip.symm
  rw [List.forall₂_map_right_iff, List.forall₂_same] at hall
  intro e he
  exact not_altered_iff.mpr (hall e he)

/-- The entry of a login. -/
def sampleEntry : AuditLogRow := { (loginEvent "ana@noc.example").row id [] sampleTime none with id := 1 }

theorem sampleEntry_verified : (verifyChain id [sampleEntry]).verified = true :=
  verifyChain_verified_iff.mpr ⟨rfl, rfl, trivial⟩

/-- The entry of a second login. -/
def nextEntry : AuditLogRow :=
  { (loginEvent "bo@noc.example").row id [] sampleTime (some sampleEntry.entryHash) with id := 2 }

/-- The event type of the first entry is replaced. -/
def retype (e : AuditLogRow) : AuditLogRow := if e.id = 1 then { e with eventType := "logout" } else e

theorem orderById_twoEntries : orderById [sampleEntry, nextEntry] = [sampleEntry, nextEntry] :=
  orderById_eq (by decide)

/-- The entry is ascribed to another account. -/
def reascribe (e : AuditLogRow) : AuditLogRow :=
  { e with email := some "bo@noc.example", actorId := some "user_b0b0b0b0" }

end ApexChainx.Audit
