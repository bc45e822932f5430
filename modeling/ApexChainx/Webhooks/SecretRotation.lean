import ApexChainx.Auth.CredentialStuffing
import ApexChainx.Core.IsoFormat
import ApexChainx.Core.Timedelta
import ApexChainx.Lib.Fallible
import ApexChainx.Lib.Transition

/-!
# Rotating the signing secret of a webhook

`_apply_secret_rotation` under `rotate_webhook_secret` and `update_webhook`, with the helpers of
`secret_history` and the task `expire_old_secrets`. A request works on a loaded row (`LoadedWebhook`);
its commit writes `previous_secrets` only when the attribute was assigned, not when the loaded list was
changed in place.

`History` follows one webhook over any sequence of requests and runs of the task, and remembers the secrets
that were rotated out. `held_iff_guarded` says which rotations leave each of them in the stored history.

The audit event of a rotation and the other fields of the update are left out, as is encryption at rest.
-/

namespace ApexChainx.Webhooks

open ApexChainx.Lib

/-! ## `app/utils/secret_history.py` -/

/-- An entry of `previous_secrets`. No `expiresAt` is a key that is missing or not a string. -/
structure HistoryEntry where
  hashedSecret : String
  createdAt : String
  expiresAt : Option String
deriving DecidableEq, Repr

/-- `parse_expiry`, as an instant. -/
def parseExpiry (entry : HistoryEntry) : Option ℤ := do
  let raw ← entry.expiresAt
  if strip raw.toList = [] then none
  else
    let parsed ← fromisoformat (String.ofList (strip raw.toList))
    some parsed.ticks

/-- `is_within_grace`. -/
def isWithinGrace (entry : HistoryEntry) (now : ℤ) : Bool :=
  match parseExpiry entry with
  | none => true
  | some expiresAt => now < expiresAt

/-- `prune_expired_secrets`: what is kept, and the number of entries dropped. -/
def pruneExpiredSecrets (entries : List HistoryEntry) (now : ℤ) : List HistoryEntry × ℕ :=
  let kept := entries.filter (isWithinGrace · now)
  (kept, entries.length - kept.length)

/-! ## The row and its loaded copy -/

/-- The columns of `webhooks` that a rotation reads or writes. -/
structure SecretRow where
  secret : Option String
  secretVersion : ℕ
  lastSecretRotationAt : Option DateTime
  previousSecrets : List HistoryEntry
  secretGraceHours : Option ℤ
  isDeleted : Bool
deriving DecidableEq, Repr

/-- A row as a session holds it, and whether `previous_secrets` was assigned since it was loaded. -/
structure LoadedWebhook extends SecretRow where
  previousAssigned : Bool

namespace LoadedWebhook

def load (row : SecretRow) : LoadedWebhook := { row with previousAssigned := false }

/-- `webhook.previous_secrets = entries`. -/
def assignPrevious (w : LoadedWebhook) (entries : List HistoryEntry) : LoadedWebhook :=
  { w with previousSecrets := entries, previousAssigned := true }

/-- `webhook.previous_secrets.append(entry)`. -/
def appendPrevious (w : LoadedWebhook) (entry : HistoryEntry) : LoadedWebhook :=
  { w with previousSecrets := w.previousSecrets ++ [entry] }

/-- The start of a rotation, which drops the entries that are out of their grace window. -/
def prunePrevious (w : LoadedWebhook) (now : ℤ) : LoadedWebhook :=
  let (keptPrevious, prunedPrevious) := pruneExpiredSecrets w.previousSecrets now
  if prunedPrevious ≠ 0 then w.assignPrevious keptPrevious else w

/-- The end of a rotation's changes to the history: an empty list is assigned before the append. -/
def storePrevious (w : LoadedWebhook) (previousEntry : HistoryEntry) : LoadedWebhook :=
  let w := if w.previousSecrets = [] then w.assignPrevious [] else w
  w.appendPrevious previousEntry

/-- What the commit makes of the stored row. -/
def flush (w : LoadedWebhook) (stored : SecretRow) : SecretRow :=
  { w.toSecretRow with
    previousSecrets := if w.previousAssigned then w.previousSecrets else stored.previousSecrets }

end LoadedWebhook

namespace SecretRow

/-- The secret that a rotation replaces, when there is a non-empty one. -/
def outgoingSecret (row : SecretRow) : Option String := row.secret.filter (· ≠ "")

/-- A row as `create_webhook` writes it. -/
def created (secret : Option String) (graceHours : Option ℤ) : SecretRow where
  secret := secret
  secretVersion := 1
  lastSecretRotationAt := none
  previousSecrets := []
  secretGraceHours := graceHours
  isDeleted := false

end SecretRow

/-! ## The requests and the task -/

/-- The settings of a rotation, and `hash_token`. -/
structure RotationSettings where
  /-- `WEBHOOK_SECRET_GRACE_HOURS`. -/
  graceHours : ℤ
  /-- `MAX_WEBHOOK_SECRET_GRACE_HOURS`. -/
  maxGraceHours : ℤ
  hashToken : String → String

/-- Why a request leaves the row as it is. -/
inductive RotationError
  /-- 409: the webhook has been deleted. -/
  | deleted
  /-- 422: the grace window asked for is out of bounds. -/
  | unprocessable
  /-- `now + timedelta(hours=grace_hours)` is not a `datetime`. -/
  | overflow
deriving DecidableEq, Repr

/-- The fields of `WebhookUpdate` that matter for a rotation. -/
structure SecretUpdate where
  secret : Option String
  secretGraceHours : Option ℤ
deriving DecidableEq, Repr

namespace RotationSettings

variable (settings : RotationSettings)

/-- The grace window of a rotation: the one of the webhook when it is in bounds, else the global one. -/
def effectiveGrace (configured : Option ℤ) : ℤ :=
  match configured with
  | some hours => if 1 ≤ hours ∧ hours ≤ settings.maxGraceHours then hours else settings.graceHours
  | none => settings.graceHours

/-- The part of a rotation that stores the outgoing secret. -/
def storeOutgoing (graceHours : ℤ) (now : DateTime) (webhook : LoadedWebhook) :
    Except RotationError LoadedWebhook :=
  match webhook.outgoingSecret with
  | none => .ok webhook
  | some secret =>
      match now.addHours graceHours with
      | none => .error .overflow
      | some expiresAt =>
          .ok (webhook.storePrevious
            ⟨settings.hashToken secret, now.isoformat, some expiresAt.isoformat⟩)

/-- `_apply_secret_rotation`, with the grace window it returns. -/
def applySecretRotation (newSecret : String) (now : DateTime) (webhook : LoadedWebhook) :
    Except RotationError (LoadedWebhook × ℤ) :=
  let graceHours := settings.effectiveGrace webhook.secretGraceHours
  (settings.storeOutgoing graceHours now (webhook.prunePrevious now.ticks)).map fun webhook =>
    ({ webhook with
      secret := some newSecret
      secretVersion := webhook.secretVersion + 1
      lastSecretRotationAt := some now }, graceHours)

/-- `rotate_webhook_secret`: the row it commits and the grace window it reports. -/
def rotateWebhookSecret (newSecret : String) (now : DateTime) (row : SecretRow) :
    Except RotationError (SecretRow × ℤ) :=
  if row.isDeleted then .error .deleted
  else
    (settings.applySecretRotation newSecret now (.load row)).map fun (webhook, graceHours) =>
      (webhook.flush row, graceHours)

/-- The bounds of `secret_grace_hours` in `WebhookUpdate`. -/
def acceptsUpdate (payload : SecretUpdate) : Bool :=
  payload.secretGraceHours.all fun hours => 1 ≤ hours ∧ hours ≤ settings.maxGraceHours

/-- `update_webhook`: the secret is rotated before the grace window is set. -/
def updateWebhook (payload : SecretUpdate) (now : DateTime) (row : SecretRow) :
    Except RotationError SecretRow :=
  if !settings.acceptsUpdate payload then .error .unprocessable
  else if row.isDeleted then .error .deleted
  else
    let rotated : Except RotationError LoadedWebhook :=
      match payload.secret with
      | none => .ok (.load row)
      | some newSecret => (settings.applySecretRotation newSecret now (.load row)).map Prod.fst
    rotated.map fun webhook =>
      let graceHours := payload.secretGraceHours.orElse fun _ => webhook.secretGraceHours
      LoadedWebhook.flush { webhook with secretGraceHours := graceHours } row

end RotationSettings

/-- `delete_webhook`. -/
def markDeleted (row : SecretRow) : SecretRow := { row with isDeleted := true }

/-- `expire_old_secrets`, for one of the webhooks it goes through. -/
def expireOldSecrets (now : DateTime) (row : SecretRow) : SecretRow :=
  if row.previousSecrets = [] then row
  else
    let (active, dropped) := pruneExpiredSecrets row.previousSecrets now.ticks
    if dropped ≠ 0 then ((LoadedWebhook.load row).assignPrevious active).flush row else row

/-! ## One webhook over time

The history keeps beside the row every secret that was rotated out, with the end of the grace window in
force at its rotation, and the number of rotations.
-/

/-- A secret that was rotated out and the end of its grace window. -/
structure Outgoing where
  secret : String
  expiresAt : ℤ
deriving DecidableEq, Repr

/-- What a step did to the webhook. -/
inductive RotationEffect
  | rotation
  | cleanup
  | other
deriving DecidableEq, Repr

/-- A request for the webhook, a run of the task or the deletion of the webhook, with its time. -/
inductive RotationAction
  | rotate (newSecret : String) (now : DateTime)
  | patch (payload : SecretUpdate) (now : DateTime)
  | housekeeping (now : DateTime)
  | delete (now : DateTime)
deriving DecidableEq, Repr

def RotationAction.now : RotationAction → DateTime
  | .rotate _ now | .patch _ now | .housekeeping now | .delete now => now

structure History where
  row : SecretRow
  /-- The time of the last step. -/
  now : ℤ
  outgoing : List Outgoing
  rotations : ℕ
  /-- The last step was a rotation or a run of the task. -/
  pruned : Bool
deriving DecidableEq, Repr

/-- The webhook when it is created. -/
def History.start (secret : Option String) (graceHours : Option ℤ) (now : DateTime) : History where
  row := .created secret graceHours
  now := now.ticks
  outgoing := []
  rotations := 0
  pruned := false

namespace RotationSettings

variable (settings : RotationSettings)

/-- The row after a step; a request that is refused leaves it as it is. -/
def perform (row : SecretRow) : RotationAction → SecretRow × RotationEffect
  | .rotate newSecret now =>
      match settings.rotateWebhookSecret newSecret now row with
      | .ok (row', _) => (row', .rotation)
      | .error _ => (row, .other)
  | .patch payload now =>
      match settings.updateWebhook payload now row with
      | .ok row' => (row', if payload.secret.isSome then .rotation else .other)
      | .error _ => (row, .other)
  | .housekeeping now => (expireOldSecrets now row, .cleanup)
  | .delete _ => (markDeleted row, .other)

/-- The secret that a rotation of the row at this time replaces. -/
def outgoing (row : SecretRow) (now : DateTime) : List Outgoing :=
  row.outgoingSecret.toList.map fun secret =>
    ⟨secret, now.ticks + settings.effectiveGrace row.secretGraceHours * 3600000000⟩

/-- The history after a step. -/
def advance (s : History) (a : RotationAction) : History where
  row := (settings.perform s.row a).1
  now := a.now.ticks
  outgoing := s.outgoing ++
    if (settings.perform s.row a).2 = .rotation then settings.outgoing s.row a.now else []
  rotations := s.rotations + if (settings.perform s.row a).2 = .rotation then 1 else 0
  pruned := (settings.perform s.row a).2 ≠ .other

/-- Time does not go back. -/
def step (s : History) (a : RotationAction) : Option History :=
  if a.now.ticks < s.now then none else some (settings.advance s a)

end RotationSettings

/-- The hash and the expiry of an entry. -/
def HistoryEntry.key (entry : HistoryEntry) : String × Option ℤ := (entry.hashedSecret, parseExpiry entry)

/-- The hash and the expiry that the entry of a secret has. -/
def Outgoing.key (hashToken : String → String) (o : Outgoing) : String × Option ℤ :=
  (hashToken o.secret, some o.expiresAt)

/-- The grace window has not ended. -/
def inGrace (now : ℤ) (key : String × Option ℤ) : Bool := key.2.all (now < ·)

/-- The stored history is the one the rotations ask for. -/
structure History.Kept (settings : RotationSettings) (s : History) : Prop where
  /-- One entry with hash and expiry for each secret whose grace window has not ended. -/
  entries : ((s.row.previousSecrets.map HistoryEntry.key).filter (inGrace s.now)).Perm
    ((s.outgoing.map (Outgoing.key settings.hashToken)).filter (inGrace s.now))
  /-- No other entry at a rotation or a run of the task. -/
  others : s.pruned → ∀ entry ∈ s.row.previousSecrets, inGrace s.now entry.key
  version : s.row.secretVersion = 1 + s.rotations

/-! ## What is written -/

theorem isSpace_eq_false_of_mem_isoChars {d : DateTime} {c : Char} (h : c ∈ d.isoChars) :
    isSpace c = false := by
  have hdigit {c : Char} (hc : c.isDigit = true) : isSpace c = false := by
    have hn : 48 ≤ c.toNat ∧ c.toNat ≤ 57 := by
      simp only [Char.isDigit, Bool.and_eq_true, decide_eq_true_eq] at hc
      exact hc
    exact isSpace_of_toNat (by omega) (by omega)
  have hpadded {w n : ℕ} (hc : c ∈ padded w n) : isSpace c = false :=
    hdigit (List.all_eq_true.mp (all_isDigit_padded w n) c hc)
  simp only [DateTime.isoChars, List.mem_append, List.mem_cons, DateTime.fraction] at h
  rcases h with h | rfl | h | rfl | h | rfl | h | rfl | h | rfl | h | h | h
  all_goals first | exact hpadded h | rfl | skip
  · split at h
    · cases h
    · rcases List.mem_cons.mp h with rfl | h
      · rfl
      · exact hpadded h
  · have hall : ∀ c ∈ "+00:00".toList, isSpace c = false := by simp [isSpace, whitespace]
    exact hall c h

/-- The expiry of an entry reads back. -/
theorem parseExpiry_isoformat (hashedSecret createdAt : String) (d : DateTime) :
    parseExpiry ⟨hashedSecret, createdAt, some d.isoformat⟩ = some d.ticks := by
  have hstrip : strip d.isoformat.toList = d.isoChars := by
    rw [DateTime.isoformat, String.toList_ofList]
    exact strip_eq_self fun c hc => isSpace_eq_false_of_mem_isoChars hc
  have hne : d.isoChars ≠ [] := padded_append_ne_nil (by omega)
  have hread : fromisoformat (String.ofList d.isoChars) = some ⟨d.ticks, some 0⟩ := fromisoformat_isoformat d
  simp [parseExpiry, hstrip, hne, hread, IsoTime.ticks]

@[simp] theorem isWithinGrace_eq (entry : HistoryEntry) (now : ℤ) :
    isWithinGrace entry now = inGrace now entry.key := by
  unfold isWithinGrace inGrace HistoryEntry.key
  cases parseExpiry entry <;> rfl

theorem mem_pruneExpiredSecrets_iff {entries : List HistoryEntry} {now : ℤ} {entry : HistoryEntry} :
    entry ∈ (pruneExpiredSecrets entries now).1 ↔ entry ∈ entries ∧ inGrace now entry.key := by
  simp [pruneExpiredSecrets]

/-- Nothing is dropped exactly when every entry is within its window, and then the list is unchanged. -/
theorem pruneExpiredSecrets_snd_eq_zero_iff {entries : List HistoryEntry} {now : ℤ} :
    (pruneExpiredSecrets entries now).2 = 0 ↔ ∀ entry ∈ entries, inGrace now entry.key := by
  have hle := List.length_filter_le (isWithinGrace · now) entries
  have hall := List.length_filter_eq_length_iff (p := (isWithinGrace · now)) (l := entries)
  simp only [isWithinGrace_eq] at hle hall
  simp only [pruneExpiredSecrets, isWithinGrace_eq]
  rw [← hall]
  omega

theorem pruneExpiredSecrets_fst_of_eq_zero {entries : List HistoryEntry} {now : ℤ}
    (h : (pruneExpiredSecrets entries now).2 = 0) : (pruneExpiredSecrets entries now).1 = entries := by
  rw [pruneExpiredSecrets_snd_eq_zero_iff] at h
  simpa [pruneExpiredSecrets, List.filter_eq_self] using h

/-- The stored history takes a new entry only when it was assigned: when it was empty, or lost an entry. -/
def Written (row : SecretRow) (now : ℤ) : Prop :=
  row.previousSecrets = [] ∨ (pruneExpiredSecrets row.previousSecrets now).2 ≠ 0

instance (row : SecretRow) (now : ℤ) : Decidable (Written row now) := inferInstanceAs (Decidable (_ ∨ _))

namespace RotationSettings

variable (settings : RotationSettings)

/-- A request that asks for a rotation, and is not refused for its fields, at its time. -/
def rotationAt : RotationAction → Option DateTime
  | .rotate _ now => some now
  | .patch payload now => if settings.acceptsUpdate payload then payload.secret.map fun _ => now else none
  | .housekeeping _ | .delete _ => none

/-- A rotation that replaces a secret writes the history exactly when the grace window is not empty. -/
def KeepsOutgoing (row : SecretRow) (a : RotationAction) : Prop :=
  ∀ now ∈ settings.rotationAt a, row.isDeleted = false → row.outgoingSecret ≠ none →
    now.addHours (settings.effectiveGrace row.secretGraceHours) ≠ none →
      (0 < settings.effectiveGrace row.secretGraceHours ↔ Written row now.ticks)

instance (row : SecretRow) (a : RotationAction) : Decidable (settings.KeepsOutgoing row a) :=
  inferInstanceAs (Decidable (∀ now ∈ settings.rotationAt a, _))

end RotationSettings

namespace LoadedWebhook

theorem prunePrevious_load (row : SecretRow) (now : ℤ) :
    (load row).prunePrevious now = { row with
      previousSecrets := (pruneExpiredSecrets row.previousSecrets now).1
      previousAssigned := (pruneExpiredSecrets row.previousSecrets now).2 ≠ 0 } := by
  unfold prunePrevious
  by_cases hdropped : (pruneExpiredSecrets row.previousSecrets now).2 = 0
  · simp [load, hdropped, pruneExpiredSecrets_fst_of_eq_zero hdropped]
  · simp [load, assignPrevious, hdropped]

theorem secretVersion_storePrevious (w : LoadedWebhook) (entry : HistoryEntry) :
    (w.storePrevious entry).secretVersion = w.secretVersion := by
  unfold storePrevious
  split <;> rfl

/-- The commit after the expired entries were dropped. -/
theorem previousSecrets_flush_prunePrevious (row : SecretRow) (now : ℤ) :
    (((load row).prunePrevious now).flush row).previousSecrets =
      (pruneExpiredSecrets row.previousSecrets now).1 := by
  rw [prunePrevious_load]
  simp only [flush, decide_eq_true_eq]
  split
  · rfl
  · rename_i hdropped
    rw [not_not] at hdropped
    exact (pruneExpiredSecrets_fst_of_eq_zero hdropped).symm

/-- The commit after an entry was stored: an append to a list that was not assigned is lost. -/
theorem previousSecrets_flush_storePrevious (row : SecretRow) (now : ℤ) (entry : HistoryEntry) :
    ((((load row).prunePrevious now).storePrevious entry).flush row).previousSecrets =
      (pruneExpiredSecrets row.previousSecrets now).1 ++ if Written row now then [entry] else [] := by
  rw [prunePrevious_load]
  unfold storePrevious Written
  by_cases hdropped : (pruneExpiredSecrets row.previousSecrets now).2 = 0
  · by_cases hempty : row.previousSecrets = []
    · simp [hempty, pruneExpiredSecrets, assignPrevious, appendPrevious, flush]
    · simp [hdropped, hempty, pruneExpiredSecrets_fst_of_eq_zero hdropped, appendPrevious, flush]
  · simp only [hdropped, ne_eq, not_false_eq_true, or_true, if_true, decide_true]
    split
    · rename_i hkept
      simp [hkept, assignPrevious, appendPrevious, flush]
    · simp [appendPrevious, flush]

end LoadedWebhook

namespace RotationSettings

/-- What a rotation of a row that goes through does to the version and the stored history. -/
def Rotated (settings : RotationSettings) (row : SecretRow) (now : DateTime) (webhook : LoadedWebhook) :
    Prop :=
  webhook.secretVersion = row.secretVersion + 1 ∧
    ((row.outgoingSecret = none ∧
        (webhook.flush row).previousSecrets = (pruneExpiredSecrets row.previousSecrets now.ticks).1) ∨
      ∃ secret entry, row.outgoingSecret = some secret ∧
        now.addHours (settings.effectiveGrace row.secretGraceHours) ≠ none ∧
        entry.key = (settings.hashToken secret,
          some (now.ticks + settings.effectiveGrace row.secretGraceHours * 3600000000)) ∧
        (webhook.flush row).previousSecrets =
          (pruneExpiredSecrets row.previousSecrets now.ticks).1 ++
            if Written row now.ticks then [entry] else [])

theorem rotated_of_applySecretRotation {settings : RotationSettings} {newSecret : String}
    {now : DateTime} {row : SecretRow} {webhook : LoadedWebhook} {graceHours : ℤ}
    (h : settings.applySecretRotation newSecret now (.load row) = .ok (webhook, graceHours)) :
    settings.Rotated row now webhook := by
  have hload : (LoadedWebhook.load row).secretGraceHours = row.secretGraceHours := rfl
  have hsecret : ((LoadedWebhook.load row).prunePrevious now.ticks).outgoingSecret = row.outgoingSecret := by
    rw [LoadedWebhook.prunePrevious_load]
    rfl
  have hversion : ((LoadedWebhook.load row).prunePrevious now.ticks).secretVersion = row.secretVersion := by
    rw [LoadedWebhook.prunePrevious_load]
  obtain ⟨stored, hstored, h⟩ := map_eq_ok.mp h
  obtain ⟨rfl, -⟩ := Prod.mk.inj h
  rw [storeOutgoing, hsecret, hload] at hstored
  cases hout : row.outgoingSecret with
  | none =>
      rw [hout] at hstored
      obtain rfl := Except.ok.inj hstored
      exact ⟨by rw [hversion], .inl ⟨hout, LoadedWebhook.previousSecrets_flush_prunePrevious row now.ticks⟩⟩
  | some secret =>
      cases hexpires : now.addHours (settings.effectiveGrace row.secretGraceHours) with
      | none =>
          rw [hout, hexpires] at hstored
          cases hstored
      | some expiresAt =>
          rw [hout, hexpires] at hstored
          obtain rfl := Except.ok.inj hstored
          refine ⟨?_, .inr ⟨secret, _, hout, ?_, ?_,
            LoadedWebhook.previousSecrets_flush_storePrevious row now.ticks _⟩⟩
          · rw [LoadedWebhook.secretVersion_storePrevious, hversion]
          · simp [hexpires]
          · rw [HistoryEntry.key, parseExpiry_isoformat, DateTime.ticks_addHours hexpires]

theorem addHours_of_applySecretRotation_error {settings : RotationSettings} {newSecret : String} {now : DateTime}
    {row : SecretRow} {e : RotationError}
    (h : settings.applySecretRotation newSecret now (.load row) = .error e) :
    now.addHours (settings.effectiveGrace row.secretGraceHours) = none := by
  cases hexpires : now.addHours (settings.effectiveGrace row.secretGraceHours) with
  | none => rfl
  | some expiresAt =>
      have hload : (LoadedWebhook.load row).secretGraceHours = row.secretGraceHours := rfl
      unfold applySecretRotation storeOutgoing at h
      simp only [hload, hexpires] at h
      cases hout : ((LoadedWebhook.load row).prunePrevious now.ticks).outgoingSecret with
      | none =>
          rw [hout] at h
          cases h
      | some secret =>
          rw [hout] at h
          cases h

/-- The task drops what is out of its grace window, and nothing else. -/
theorem previousSecrets_expireOldSecrets (now : DateTime) (row : SecretRow) :
    (expireOldSecrets now row).previousSecrets = (pruneExpiredSecrets row.previousSecrets now.ticks).1 := by
  by_cases hempty : row.previousSecrets = []
  · simp [expireOldSecrets, hempty, pruneExpiredSecrets]
  · by_cases hdropped : (pruneExpiredSecrets row.previousSecrets now.ticks).2 = 0
    · simp [expireOldSecrets, hempty, hdropped, pruneExpiredSecrets_fst_of_eq_zero hdropped]
    · simp [expireOldSecrets, hempty, hdropped, LoadedWebhook.flush, LoadedWebhook.assignPrevious]

theorem secretVersion_expireOldSecrets (now : DateTime) (row : SecretRow) :
    (expireOldSecrets now row).secretVersion = row.secretVersion := by
  unfold expireOldSecrets
  split
  · rfl
  · simp only
    split <;> rfl

/-- A step that is refused has no secret to keep. -/
theorem keepsOutgoing_of_refused {settings : RotationSettings} {row : SecretRow} {a : RotationAction}
    (h : ∀ now ∈ settings.rotationAt a, row.isDeleted = false →
      now.addHours (settings.effectiveGrace row.secretGraceHours) = none) : settings.KeepsOutgoing row a := by
  intro now hnow hlive _ hexpires
  exact absurd (h now hnow hlive) hexpires

/-- The three things a step can do: rotate the secret, drop what is out of its grace window, or leave the
history and the version as they are. -/
theorem perform_cases (settings : RotationSettings) (row : SecretRow) (a : RotationAction) :
    (settings.rotationAt a = some a.now ∧ row.isDeleted = false ∧
        (settings.perform row a).2 = .rotation ∧ ∃ webhook, settings.Rotated row a.now webhook ∧
          (settings.perform row a).1.previousSecrets = (webhook.flush row).previousSecrets ∧
          (settings.perform row a).1.secretVersion = webhook.secretVersion) ∨
      (settings.rotationAt a = none ∧ (settings.perform row a).2 = .cleanup ∧
        (settings.perform row a).1.previousSecrets =
          (pruneExpiredSecrets row.previousSecrets a.now.ticks).1 ∧
        (settings.perform row a).1.secretVersion = row.secretVersion) ∨
      ((settings.perform row a).2 = .other ∧
        (settings.perform row a).1.previousSecrets = row.previousSecrets ∧
        (settings.perform row a).1.secretVersion = row.secretVersion ∧ settings.KeepsOutgoing row a) := by
  cases a with
  | rotate newSecret now =>
      -- a deleted webhook is refused before the secret is touched
      cases hlive : row.isDeleted with
      | true =>
          have hperform : settings.perform row (.rotate newSecret now) = (row, .other) := by
            simp [perform, rotateWebhookSecret, hlive]
          rw [hperform]
          exact .inr (.inr ⟨rfl, rfl, rfl, keepsOutgoing_of_refused (by simp [hlive])⟩)
      | false =>
          cases happly : settings.applySecretRotation newSecret now (.load row) with
          | error e =>
              have hperform : settings.perform row (.rotate newSecret now) = (row, .other) := by
                simp [perform, rotateWebhookSecret, hlive, happly, Except.map]
              rw [hperform]
              refine .inr (.inr ⟨rfl, rfl, rfl, keepsOutgoing_of_refused ?_⟩)
              simp [rotationAt, addHours_of_applySecretRotation_error happly]
          | ok rotated =>
              have hperform : settings.perform row (.rotate newSecret now) =
                  (rotated.1.flush row, .rotation) := by
                simp [perform, rotateWebhookSecret, hlive, happly, Except.map]
              rw [hperform]
              exact .inl ⟨rfl, rfl, rfl, rotated.1, rotated_of_applySecretRotation happly, rfl, rfl⟩
  | patch payload now =>
      -- the payload is validated before the row is loaded
      cases haccept : settings.acceptsUpdate payload with
      | false =>
          have hperform : settings.perform row (.patch payload now) = (row, .other) := by
            simp [perform, updateWebhook, haccept]
          rw [hperform]
          exact .inr (.inr ⟨rfl, rfl, rfl, keepsOutgoing_of_refused (by simp [rotationAt, haccept])⟩)
      | true =>
          cases hlive : row.isDeleted with
          | true =>
              have hperform : settings.perform row (.patch payload now) = (row, .other) := by
                simp [perform, updateWebhook, haccept, hlive]
              rw [hperform]
              exact .inr (.inr ⟨rfl, rfl, rfl, keepsOutgoing_of_refused (by simp [hlive])⟩)
          | false =>
              cases hsecret : payload.secret with
              | none =>
                  refine .inr (.inr ⟨?_, ?_, ?_, keepsOutgoing_of_refused (by simp [rotationAt, hsecret])⟩)
                  all_goals simp [perform, updateWebhook, haccept, hlive, hsecret, Except.map,
                    LoadedWebhook.flush, LoadedWebhook.load]
              | some newSecret =>
                  cases happly : settings.applySecretRotation newSecret now (.load row) with
                  | error e =>
                      have hperform : settings.perform row (.patch payload now) = (row, .other) := by
                        simp [perform, updateWebhook, haccept, hlive, hsecret, happly, Except.map]
                      rw [hperform]
                      refine .inr (.inr ⟨rfl, rfl, rfl, keepsOutgoing_of_refused ?_⟩)
                      simp [rotationAt, haccept, hsecret, addHours_of_applySecretRotation_error happly]
                  | ok rotated =>
                      refine .inl ⟨by simp [rotationAt, haccept, hsecret]; rfl, rfl, ?_, rotated.1,
                        rotated_of_applySecretRotation happly, ?_, ?_⟩
                      all_goals simp [perform, updateWebhook, haccept, hlive, hsecret, happly, Except.map,
                        LoadedWebhook.flush]
  | housekeeping now =>
      exact .inr (.inl ⟨rfl, rfl, previousSecrets_expireOldSecrets now row,
        secretVersion_expireOldSecrets now row⟩)
  | delete now => exact .inr (.inr ⟨rfl, rfl, rfl, by simp [KeepsOutgoing, rotationAt]⟩)

end RotationSettings

/-! ## The history over time -/

theorem filter_inGrace_of_le {now later : ℤ} (h : now ≤ later) (keys : List (String × Option ℤ)) :
    (keys.filter (inGrace now)).filter (inGrace later) = keys.filter (inGrace later) := by
  rw [List.filter_filter]
  apply List.filter_congr
  rintro ⟨hash, expiry⟩ -
  cases expiry with
  | none => rfl
  | some expiresAt =>
      simp only [inGrace, Option.all_some, Bool.and_eq_left_iff_imp, decide_eq_true_eq]
      omega

theorem filter_map_key_prune (entries : List HistoryEntry) (now : ℤ) :
    ((pruneExpiredSecrets entries now).1.map HistoryEntry.key).filter (inGrace now) =
      (entries.map HistoryEntry.key).filter (inGrace now) := by
  simp only [pruneExpiredSecrets, isWithinGrace_eq, List.filter_map, List.filter_filter]
  congr 1
  apply List.filter_congr
  simp

/-- Adding a key on one side only breaks the correspondence. -/
theorem perm_append_key_iff {keys outgoing : List (String × Option ℤ)} (h : keys.Perm outgoing)
    (key : String × Option ℤ) (p q : Prop) [Decidable p] [Decidable q] :
    (keys ++ if q ∧ p then [key] else []).Perm (outgoing ++ if p then [key] else []) ↔ (p → q) := by
  have hlength := h.length_eq
  by_cases hp : p
  · by_cases hq : q
    · simpa [hp, hq] using h.append_right [key]
    · simp only [hp, hq, and_true, if_true, if_false, List.append_nil, true_implies, iff_false]
      intro hperm
      have hmore := hperm.length_eq
      rw [List.length_append, List.length_singleton] at hmore
      omega
  · simpa [hp] using h

/-- A rotation that replaces a secret leads to the right history exactly when it stores the entry, if that is
still in its grace window, and only then. -/
theorem kept_advance_iff {settings : RotationSettings} {s : History} {a : RotationAction} {secret : String}
    {entry : HistoryEntry} (heffect : (settings.perform s.row a).2 = .rotation)
    (hout : s.row.outgoingSecret = some secret)
    (hkey : entry.key = Outgoing.key settings.hashToken ⟨secret,
      a.now.ticks + settings.effectiveGrace s.row.secretGraceHours * 3600000000⟩)
    (hstored : (settings.perform s.row a).1.previousSecrets =
      (pruneExpiredSecrets s.row.previousSecrets a.now.ticks).1 ++
        if Written s.row a.now.ticks then [entry] else [])
    (hversion : (settings.advance s a).row.secretVersion = 1 + (settings.advance s a).rotations)
    (hentries : ((s.row.previousSecrets.map HistoryEntry.key).filter (inGrace a.now.ticks)).Perm
      ((s.outgoing.map (Outgoing.key settings.hashToken)).filter (inGrace a.now.ticks))) :
    (settings.advance s a).Kept settings ↔ (inGrace a.now.ticks entry.key ↔ Written s.row a.now.ticks) := by
  have hleft : ((settings.advance s a).row.previousSecrets.map HistoryEntry.key).filter
      (inGrace a.now.ticks) = (s.row.previousSecrets.map HistoryEntry.key).filter (inGrace a.now.ticks) ++
        if Written s.row a.now.ticks ∧ inGrace a.now.ticks entry.key then [entry.key] else [] := by
    simp only [RotationSettings.advance, hstored, List.map_append, List.filter_append, filter_map_key_prune]
    split_ifs <;> simp_all
  have hright : ((settings.advance s a).outgoing.map (Outgoing.key settings.hashToken)).filter
      (inGrace a.now.ticks) = (s.outgoing.map (Outgoing.key settings.hashToken)).filter
        (inGrace a.now.ticks) ++ if inGrace a.now.ticks entry.key then [entry.key] else [] := by
    simp [RotationSettings.advance, RotationSettings.outgoing, heffect, hout, ← hkey, List.filter_cons]
  constructor
  · intro hkept
    have hperm := hkept.entries
    change (List.filter (inGrace a.now.ticks) _).Perm (List.filter (inGrace a.now.ticks) _) at hperm
    rw [hleft, hright, perm_append_key_iff hentries] at hperm
    refine ⟨hperm, fun hwritten => ?_⟩
    apply hkept.others (by simp [RotationSettings.advance, heffect]) entry
    simp [RotationSettings.advance, hstored, hwritten]
  · intro hiff
    refine ⟨?_, ?_, hversion⟩
    · change (List.filter (inGrace a.now.ticks) _).Perm (List.filter (inGrace a.now.ticks) _)
      rw [hleft, hright, perm_append_key_iff hentries]
      exact hiff.mp
    · intro _ other hother
      simp only [RotationSettings.advance, hstored, List.mem_append] at hother
      rcases hother with hother | hother
      · exact (mem_pruneExpiredSecrets_iff.mp hother).2
      · split at hother
        · rename_i hwritten
          rw [List.mem_singleton.mp hother]
          exact hiff.mpr hwritten
        · cases hother

/-- A step from a state with the right history leads to one exactly when it writes the entry of each secret
it replaces. -/
theorem kept_step_iff {settings : RotationSettings} {s s' : History} {a : RotationAction}
    (h : s.Kept settings) (hstep : settings.step s a = some s') :
    s'.Kept settings ↔ settings.KeepsOutgoing s.row a := by
  unfold RotationSettings.step at hstep
  split at hstep
  · cases hstep
  rename_i hle
  rw [not_lt] at hle
  obtain rfl := Option.some.inj hstep
  have hentries := h.entries.filter (inGrace a.now.ticks)
  rw [filter_inGrace_of_le hle, filter_inGrace_of_le hle] at hentries
  obtain ⟨hat, hlive, heffect, webhook, ⟨hversion', hhistory⟩, hprevious, hversion⟩ |
    ⟨hat, heffect, hprevious, hversion⟩ | ⟨heffect, hprevious, hversion, hkeeps⟩ :=
    settings.perform_cases s.row a
  · have hrotated : (settings.advance s a).row.secretVersion = 1 + (settings.advance s a).rotations := by
      simp only [RotationSettings.advance, hversion, hversion', heffect, h.version, if_true]
      omega
    obtain ⟨hout, hstored⟩ | ⟨secret, entry, hout, hexpires, hkey, hstored⟩ := hhistory
    · have hkeeps : settings.KeepsOutgoing s.row a := by simp [RotationSettings.KeepsOutgoing, hout]
      refine iff_of_true ⟨?_, ?_, hrotated⟩ hkeeps
      · simpa [RotationSettings.advance, RotationSettings.outgoing, hprevious, hstored, heffect, hout,
          filter_map_key_prune] using hentries
      · intro _ entry hentry
        simp only [RotationSettings.advance, hprevious, hstored] at hentry
        exact (mem_pruneExpiredSecrets_iff.mp hentry).2
    · have hkeeps : settings.KeepsOutgoing s.row a ↔
          (0 < settings.effectiveGrace s.row.secretGraceHours ↔ Written s.row a.now.ticks) := by
        simp [RotationSettings.KeepsOutgoing, hat, hlive, hout, hexpires]
      have hgrace : inGrace a.now.ticks entry.key ↔ 0 < settings.effectiveGrace s.row.secretGraceHours := by
        simp only [hkey, inGrace, Option.all_some, decide_eq_true_eq]
        omega
      rw [hkeeps, ← hgrace]
      exact kept_advance_iff heffect hout hkey (hprevious.trans hstored) hrotated hentries
  · have hkeeps : settings.KeepsOutgoing s.row a := by simp [RotationSettings.KeepsOutgoing, hat]
    refine iff_of_true ⟨?_, ?_, ?_⟩ hkeeps
    · simpa [RotationSettings.advance, hprevious, heffect, filter_map_key_prune] using hentries
    · intro _ entry hentry
      simp only [RotationSettings.advance, hprevious] at hentry
      exact (mem_pruneExpiredSecrets_iff.mp hentry).2
    · simpa [RotationSettings.advance, hversion, heffect] using h.version
  · refine iff_of_true ⟨?_, ?_, ?_⟩ hkeeps
    · simpa [RotationSettings.advance, hprevious, heffect] using hentries
    · simp [RotationSettings.advance, heffect]
    · simpa [RotationSettings.advance, hversion, heffect] using h.version

theorem kept_start (settings : RotationSettings) (secret : Option String) (graceHours : Option ℤ)
    (now : DateTime) : (History.start secret graceHours now).Kept settings :=
  ⟨List.Perm.refl _, by simp [History.start], rfl⟩

/-- From the creation of a webhook on, the stored history is right after every step exactly when every
rotation writes the entry of the secret it replaces: in-place appends are never needed. -/
theorem kept_iff_guarded (settings : RotationSettings) (secret : Option String) (graceHours : Option ℤ)
    (now : DateTime) {as : List RotationAction} {s' : History}
    (hrun : run settings.step (History.start secret graceHours now) as = some s') :
    (∀ bs t, bs <+: as → run settings.step (History.start secret graceHours now) bs = some t →
        t.Kept settings) ↔
      Guarded settings.step (fun s a => settings.KeepsOutgoing s.row a)
        (History.start secret graceHours now) as :=
  forall_prefix_iff_guarded (fun _ _ _ => kept_step_iff) (kept_start settings secret graceHours now) hrun

theorem valid_noon : DateTime.Valid 2026 1 1 12 0 0 0 := by decide

theorem valid_oneHourLater : DateTime.Valid 2026 1 1 13 0 0 0 := by decide

theorem valid_twoDaysLater : DateTime.Valid 2026 1 3 12 0 0 0 := by decide

def noon : DateTime := .ofValid valid_noon

def oneHourLater : DateTime := .ofValid valid_oneHourLater

def twoDaysLater : DateTime := .ofValid valid_twoDaysLater

/-- The default settings, with a hash that keeps the text. -/
def dayOfGrace : RotationSettings := ⟨24, 168, id⟩

/-- Two rotations, the second after the grace window of the first. -/
def spacedRotations : List RotationAction :=
  [.rotate "second" noon, .patch ⟨some "third", some 2⟩ twoDaysLater, .housekeeping twoDaysLater]

/-- Two rotations within an hour. -/
def closeRotations : List RotationAction := [.rotate "second" noon, .rotate "third" oneHourLater]

theorem kept_of_spaced_rotations : ∃ s',
    run dayOfGrace.step (History.start (some "first") (some 24) noon) spacedRotations = some s' ∧
      ∀ bs t, bs <+: spacedRotations →
        run dayOfGrace.step (History.start (some "first") (some 24) noon) bs = some t → t.Kept dayOfGrace := by
  have hrun : (run dayOfGrace.step (History.start (some "first") (some 24) noon) spacedRotations).isSome := by
    decide +kernel
  obtain ⟨s', hs'⟩ := Option.isSome_iff_exists.mp hrun
  exact ⟨s', hs', (kept_iff_guarded dayOfGrace (some "first") (some 24) noon hs').mpr (by decide +kernel)⟩

/-- The second rotation loses its entry: the stored history does not change. -/
theorem entry_of_second_rotation_lost : ¬ ∀ bs t, bs <+: closeRotations →
    run dayOfGrace.step (History.start (some "first") (some 24) noon) bs = some t → t.Kept dayOfGrace := by
  intro h
  have hrun : (run dayOfGrace.step (History.start (some "first") (some 24) noon) closeRotations).isSome := by
    decide +kernel
  obtain ⟨t, ht⟩ := Option.isSome_iff_exists.mp hrun
  have hlength := (h closeRotations t List.prefix_rfl ht).entries.length_eq
  have hone : (run dayOfGrace.step (History.start (some "first") (some 24) noon) closeRotations).map
      (fun t => (((t.row.previousSecrets.map HistoryEntry.key).filter (inGrace t.now)).length,
        ((t.outgoing.map (Outgoing.key id)).filter (inGrace t.now)).length)) = some (1, 2) := by
    decide +kernel
  rw [ht, Option.map_some, Option.some.injEq, Prod.mk.injEq] at hone
  have hhash : dayOfGrace.hashToken = id := rfl
  rw [hone.1, hhash, hone.2] at hlength
  omega

end ApexChainx.Webhooks
