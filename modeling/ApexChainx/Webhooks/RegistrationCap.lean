import Mathlib.Data.Int.Notation
import Mathlib.Logic.Function.Basic
import Mathlib.Order.Nat
import ApexChainx.Lib.Table
import ApexChainx.Lib.Transition

/-!
# The cap on registered webhooks

`create_webhook`, `update_webhook` and `delete_webhook` (`app/api/v1/endpoints/webhooks.py`), cut at their
statements. A deletion keeps the row as a tombstone, and the check of the cap counts the rows of the
table, tombstones included, in a statement before the one that inserts.

Only the columns that decide whether a webhook is live and whether two live ones collide are modelled; the
unique index is the one of migration 0031. Nothing else locks a row.
-/

namespace ApexChainx.Webhooks.RegistrationCap

open ApexChainx.Lib

/-- A row of `webhooks`. -/
structure WebhookRow where
  id : ℕ
  url : String
  events : String
  isActive : Bool
  deletedAt : Option ℤ
deriving DecidableEq, Repr

/-- `WebhookCreate`, with the outcome of `validate_webhook_url` on its URL. -/
structure WebhookCreate where
  url : String
  events : String
  isActive : Bool
  valid : Bool
deriving DecidableEq, Repr

/-- `WebhookUpdate`; a field that is absent is not written. -/
structure WebhookUpdate where
  url : Option String
  events : Option String
  isActive : Option Bool
  valid : Bool
deriving DecidableEq, Repr

/-- What a request answers. -/
inductive Reply
  | created (id : ℕ)
  /-- 409 of the cap: how many webhooks were counted. -/
  | limitReached (registered : ℕ)
  | invalidUrl
  /-- 409: the URL and the events are those of a live webhook. -/
  | duplicate
  | notFound
  /-- 409: the webhook to change is a tombstone. -/
  | gone
  | updated
  | deleted
  /-- The statement failed. -/
  | serverError
deriving DecidableEq, Repr

/-- The statement a request executes next. A create that has passed the check knows how many rows it
counted; an update and a deletion have the row as they loaded it. -/
inductive Pc
  | createCount (p : WebhookCreate)
  | createInsert (p : WebhookCreate) (counted : ℕ)
  | updateLoad (id : ℕ) (u : WebhookUpdate)
  | updateCommit (seen : WebhookRow) (u : WebhookUpdate)
  | deleteLoad (id : ℕ)
  | deleteCommit (seen : WebhookRow)
  | done (reply : Reply)
deriving DecidableEq, Repr

/-- The table with the requests on it. `refused` has the number of live webhooks at each refusal of a
valid create request for the cap. -/
structure Sys where
  rows : List WebhookRow
  nextId : ℕ
  requests : ℕ → Option Pc
  refused : List ℕ

/-- The webhook has not been deleted. -/
def WebhookRow.live (r : WebhookRow) : Bool := r.deletedAt.isNone

/-- The number of live webhooks. -/
def live (rows : List WebhookRow) : ℕ := rows.countP WebhookRow.live

/-- `uq_webhooks_url_events_live`. -/
def indexOk (rows : List WebhookRow) : Bool :=
  decide ((rows.filter WebhookRow.live).Pairwise fun a b => ¬ (a.url = b.url ∧ a.events = b.events))

/-- The row after the commit of an update, with the fields of the payload that differ from the row loaded. -/
def WebhookUpdate.write (u : WebhookUpdate) (seen r : WebhookRow) : WebhookRow :=
  { r with
    url := writeColumn seen.url (u.url.getD seen.url) r.url
    events := writeColumn seen.events (u.events.getD seen.events) r.events
    isActive := writeColumn seen.isActive (u.isActive.getD seen.isActive) r.isActive }

/-- The row after the commit of a deletion. -/
def WebhookRow.tombstone (now : ℤ) (seen r : WebhookRow) : WebhookRow :=
  { r with deletedAt := some now, isActive := writeColumn seen.isActive false r.isActive }

/-- The row a create inserts. -/
def WebhookCreate.row (p : WebhookCreate) (id : ℕ) : WebhookRow := ⟨id, p.url, p.events, p.isActive, none⟩

/-- The request goes on, or ends. -/
def Sys.goOn (s : Sys) (i : ℕ) (pc : Pc) : Sys :=
  { s with requests := Function.update s.requests i (some pc) }

/-- One statement of a request. -/
def advance (cap : ℤ) (now : ℤ) (s : Sys) (i : ℕ) : Pc → Option Sys
  | .createCount p =>
      -- `_enforce_webhook_registration_cap`; a cap of zero disables the check
      if 0 < cap ∧ cap ≤ s.rows.length then
        some ({ s with refused := if p.valid then s.refused ++ [live s.rows] else s.refused }.goOn i
          (.done (.limitReached s.rows.length)))
      else if p.valid then some (s.goOn i (.createInsert p s.rows.length))
      else some (s.goOn i (.done .invalidUrl))
  | .createInsert p _ =>
      let rows := s.rows ++ [p.row s.nextId]
      if indexOk rows then
        some ({ s with rows := rows, nextId := s.nextId + 1 }.goOn i (.done (.created s.nextId)))
      else some (s.goOn i (.done .duplicate))
  | .updateLoad id u =>
      match s.rows.find? (·.id = id) with
      | none => some (s.goOn i (.done .notFound))
      | some r =>
          if !r.live then some (s.goOn i (.done .gone))
          else if u.url.isSome && !u.valid then some (s.goOn i (.done .invalidUrl))
          else some (s.goOn i (.updateCommit r u))
  | .updateCommit seen u =>
      let rows := updateKey WebhookRow.id seen.id (u.write seen) s.rows
      if indexOk rows then some ({ s with rows := rows }.goOn i (.done .updated))
      else some (s.goOn i (.done .serverError))
  | .deleteLoad id =>
      match s.rows.find? (·.id = id) with
      | none => some (s.goOn i (.done .notFound))
      | some r => if r.live then some (s.goOn i (.deleteCommit r)) else some (s.goOn i (.done .deleted))
  | .deleteCommit seen =>
      some ({ s with rows := updateKey WebhookRow.id seen.id (.tombstone now seen) s.rows }.goOn i
        (.done .deleted))
  | .done _ => none

/-- The three requests. -/
inductive Kind
  | create (p : WebhookCreate)
  | update (id : ℕ) (u : WebhookUpdate)
  | delete (id : ℕ)
deriving DecidableEq, Repr

/-- A request before its first statement. -/
def Pc.start : Kind → Pc
  | .create p => .createCount p
  | .update id u => .updateLoad id u
  | .delete id => .deleteLoad id

/-- A request arrives, executes its next statement at some time, or fails at it. -/
inductive Action
  | begin (i : ℕ) (kind : Kind)
  | move (i : ℕ) (now : ℤ)
  | fail (i : ℕ)
deriving DecidableEq, Repr

/-- The interleaving semantics. -/
def step (cap : ℤ) (s : Sys) : Action → Option Sys
  | .begin i kind => if (s.requests i).isNone then some (s.goOn i (.start kind)) else none
  | .move i now =>
      match s.requests i with
      | none => none
      | some pc => advance cap now s i pc
  | .fail i => if (s.requests i).isSome then some (s.goOn i (.done .serverError)) else none

def Sys.init : Sys := ⟨[], 1, fun _ => none, []⟩

/-! ## The law of the cap -/

/-- No more webhooks are live than the cap allows, and every refusal met as many. -/
structure WithinCap (cap : ℤ) (s : Sys) : Prop where
  live_le : live s.rows ≤ cap
  refused : ∀ n ∈ s.refused, cap ≤ n

/-- The statements that keep the law: a valid create request does not count tombstones into the cap, and
no row is inserted where the cap is reached. -/
def Conforms (cap : ℤ) (s : Sys) : Action → Prop
  | .move i _ =>
      match s.requests i with
      | some (.createCount p) => p.valid = true → s.rows.length < cap ∨ cap ≤ live s.rows
      | some (.createInsert p _) => indexOk (s.rows ++ [p.row s.nextId]) = true → live s.rows < cap
      | _ => True
  | _ => True

theorem live_append (rows : List WebhookRow) (p : WebhookCreate) (id : ℕ) :
    live (rows ++ [p.row id]) = live rows + 1 := by
  simp [live, WebhookCreate.row, WebhookRow.live]

/-- An update leaves live webhooks live and tombstones tombstones. -/
theorem live_update (id : ℕ) (u : WebhookUpdate) (seen : WebhookRow) (rows : List WebhookRow) :
    live (updateKey WebhookRow.id id (u.write seen) rows) = live rows := by
  unfold live updateKey
  rw [List.countP_map]
  refine List.countP_congr fun r _ => ?_
  simp only [Function.comp_apply]
  split <;> rfl

theorem live_tombstone_le (id : ℕ) (now : ℤ) (seen : WebhookRow) (rows : List WebhookRow) :
    live (updateKey WebhookRow.id id (.tombstone now seen) rows) ≤ live rows := by
  unfold live updateKey
  rw [List.countP_map]
  refine List.countP_mono_left fun r _ hr => ?_
  simp only [Function.comp_apply] at hr
  split at hr
  · cases hr
  · exact hr

theorem live_le_length (rows : List WebhookRow) : live rows ≤ rows.length := List.countP_le_length

section Steps

variable {cap : ℤ} {s s' : Sys} {i : ℕ} {now : ℤ} {pc : Pc} {a : Action}

/-- What an action does: it adds no live webhook and refuses nobody, refuses a create, or inserts. -/
inductive Moves (cap : ℤ) (s : Sys) : Action → Sys → Prop
  | quiet {a : Action} {i : ℕ} {rows : List WebhookRow} {pc : Pc} (hlive : live rows ≤ live s.rows)
      (hnext : ∀ p n, pc = .createInsert p n → (n : ℤ) < cap) (hok : Conforms cap s a) :
      Moves cap s a ({ s with rows := rows }.goOn i pc)
  | refuse {i : ℕ} {now : ℤ} {p : WebhookCreate} (hpc : s.requests i = some (.createCount p))
      (hfull : cap ≤ s.rows.length) :
      Moves cap s (.move i now)
        ({ s with refused := if p.valid then s.refused ++ [live s.rows] else s.refused }.goOn i
          (.done (.limitReached s.rows.length)))
  | insert {i : ℕ} {now : ℤ} {p : WebhookCreate} {counted : ℕ}
      (hpc : s.requests i = some (.createInsert p counted))
      (hindex : indexOk (s.rows ++ [p.row s.nextId]) = true) :
      Moves cap s (.move i now)
        ({ s with rows := s.rows ++ [p.row s.nextId], nextId := s.nextId + 1 }.goOn i
          (.done (.created s.nextId)))

theorem moves_of_advance (hcap : 0 < cap) (hpc : s.requests i = some pc)
    (hs' : advance cap now s i pc = some s') : Moves cap s (.move i now) s' := by
  cases pc with
  | createCount p =>
      simp only [advance, hcap, true_and] at hs'
      split at hs'
      · rename_i hfull
        rw [Option.some.injEq] at hs'
        exact hs' ▸ .refuse hpc hfull
      · rename_i hroom
        -- the count that was read leaves room for one more
        have hlt : (s.rows.length : ℤ) < cap := by omega
        have hok : Conforms cap s (.move i now) := by
          simp only [Conforms, hpc]
          exact fun _ => .inl hlt
        split at hs' <;> rw [Option.some.injEq] at hs' <;> subst hs'
        · refine .quiet (Nat.le_refl _) ?_ hok
          rintro _ _ ⟨⟩
          exact hlt
        · exact .quiet (Nat.le_refl _) (by simp) hok
  | createInsert p counted =>
      simp only [advance] at hs'
      split at hs' <;> rw [Option.some.injEq] at hs' <;> subst hs'
      · rename_i hindex
        exact .insert hpc hindex
      · rename_i hindex
        refine .quiet (Nat.le_refl _) (by simp) ?_
        simp only [Conforms, hpc]
        exact fun htrue => absurd htrue hindex
  | updateLoad id u =>
      have hok : Conforms cap s (.move i now) := by simp only [Conforms, hpc]
      simp only [advance] at hs'
      split at hs'
      · exact Option.some.inj hs' ▸ .quiet (Nat.le_refl _) (by simp) hok
      · split_ifs at hs' <;> rw [Option.some.injEq] at hs' <;> subst hs'
        all_goals exact .quiet (Nat.le_refl _) (by simp) hok
  | updateCommit seen u =>
      have hok : Conforms cap s (.move i now) := by simp only [Conforms, hpc]
      simp only [advance] at hs'
      split at hs' <;> rw [Option.some.injEq] at hs' <;> subst hs'
      · exact .quiet (live_update seen.id u seen s.rows).le (by simp) hok
      · exact .quiet (Nat.le_refl _) (by simp) hok
  | deleteLoad id =>
      have hok : Conforms cap s (.move i now) := by simp only [Conforms, hpc]
      simp only [advance] at hs'
      split at hs'
      · exact Option.some.inj hs' ▸ .quiet (Nat.le_refl _) (by simp) hok
      · split_ifs at hs' <;> rw [Option.some.injEq] at hs' <;> subst hs'
        all_goals exact .quiet (Nat.le_refl _) (by simp) hok
  | deleteCommit seen =>
      have hok : Conforms cap s (.move i now) := by simp only [Conforms, hpc]
      rw [advance, Option.some.injEq] at hs'
      exact hs' ▸ .quiet (live_tombstone_le seen.id now seen s.rows) (by simp) hok
  | done reply => cases hs'

theorem moves_of_step (hcap : 0 < cap) (hs' : step cap s a = some s') : Moves cap s a s' := by
  cases a with
  | begin i kind =>
      rw [step, Option.ite_none_right_eq_some, Option.some.injEq] at hs'
      obtain ⟨-, rfl⟩ := hs'
      exact .quiet (Nat.le_refl _) (by cases kind <;> simp [Pc.start]) trivial
  | move i now =>
      simp only [step] at hs'
      split at hs'
      · cases hs'
      · rename_i pc hpc
        exact moves_of_advance hcap hpc hs'
  | fail i =>
      rw [step, Option.ite_none_right_eq_some, Option.some.injEq] at hs'
      obtain ⟨-, rfl⟩ := hs'
      exact .quiet (Nat.le_refl _) (by simp) trivial

/-- An action keeps the law exactly when it conforms to it. -/
theorem withinCap_move_iff (h : WithinCap cap s) (hmove : Moves cap s a s') :
    WithinCap cap s' ↔ Conforms cap s a := by
  cases hmove with
  | quiet hlive hnext hok =>
      refine iff_of_true ⟨?_, h.refused⟩ hok
      have hle := h.live_le
      simp only [Sys.goOn]
      omega
  | @refuse i now p hpc hfull =>
      simp only [Conforms, hpc]
      constructor
      · intro h' hvalid
        refine .inr (h'.refused (live s.rows) ?_)
        simp [Sys.goOn, hvalid]
      · intro hok
        refine ⟨h.live_le, ?_⟩
        intro n hn
        simp only [Sys.goOn] at hn
        split at hn
        · rename_i hvalid
          rcases List.mem_append.mp hn with hold | hlast
          · exact h.refused n hold
          · rw [List.mem_singleton.mp hlast]
            exact (hok hvalid).resolve_left (by omega)
        · exact h.refused n hn
  | @insert i now p counted hpc hindex =>
      simp only [Conforms, hpc]
      constructor
      · intro h' _
        have hlive := h'.live_le
        simp only [Sys.goOn, live_append] at hlive
        omega
      · intro hok
        have hlt := hok hindex
        refine ⟨?_, h.refused⟩
        simp only [Sys.goOn, live_append]
        omega

/-! ## Counts that are still true -/

/-- A create that goes on has counted fewer rows than the cap. -/
def Counted (cap : ℤ) (s : Sys) : Prop :=
  ∀ i p n, s.requests i = some (.createInsert p n) → (n : ℤ) < cap

/-- No row was inserted between the count of a create and its own insert, and no valid create request
counts tombstones into the cap. -/
def Uncontended (cap : ℤ) (s : Sys) : Action → Prop
  | .move i _ =>
      match s.requests i with
      | some (.createCount p) => p.valid = true → s.rows.length < cap ∨ cap ≤ live s.rows
      | some (.createInsert _ counted) => s.rows.length = counted
      | _ => True
  | _ => True

theorem Counted.goOn (h : Counted cap s) (hrequests : s'.requests = s.requests)
    (hpc : ∀ p n, pc = .createInsert p n → (n : ℤ) < cap) : Counted cap (s'.goOn i pc) := by
  intro j p n hj
  simp only [Sys.goOn, hrequests] at hj
  by_cases hij : j = i
  · rw [hij, Function.update_self, Option.some.injEq] at hj
    exact hpc p n hj
  · rw [Function.update_of_ne hij] at hj
    exact h j p n hj

theorem Counted.move (h : Counted cap s) (hmove : Moves cap s a s') : Counted cap s' := by
  cases hmove with
  | quiet hlive hnext hok => exact h.goOn rfl hnext
  | refuse hpc hfull => exact h.goOn rfl (by simp)
  | insert hpc hindex => exact h.goOn rfl (by simp)

theorem conforms_of_uncontended (h : Counted cap s) (hok : Uncontended cap s a) :
    Conforms cap s a := by
  cases a with
  | begin i kind => trivial
  | fail i => trivial
  | move i now =>
      simp only [Uncontended] at hok
      simp only [Conforms]
      split
      · rename_i p hpc
        simpa only [hpc] using hok
      · rename_i p counted hpc
        simp only [hpc] at hok
        intro _
        have hlt := h i p counted hpc
        have hle := live_le_length s.rows
        omega
      · trivial

end Steps

/-! ## Runs -/

/-- The cap holds all along, and no valid create request is refused below it, exactly in the runs whose
statements conform; and those do in which no row is inserted between a count and its insert. -/
theorem cap_kept_iff {cap : ℤ} (hcap : 0 < cap) {as : List Action} {s : Sys}
    (hrun : run (step cap) .init as = some s) :
    ((∀ before t, before <+: as → run (step cap) .init before = some t → WithinCap cap t)
        ↔ Guarded (step cap) (Conforms cap) .init as)
    ∧ (Guarded (step cap) (Uncontended cap) .init as → Guarded (step cap) (Conforms cap) .init as) := by
  have hinit : WithinCap cap .init := by
    have hnonneg : 0 ≤ cap := by omega
    exact ⟨by simpa [Sys.init, live] using hnonneg, by simp [Sys.init]⟩
  refine ⟨forall_prefix_iff_guarded
    (fun s a s' h hs' => withinCap_move_iff h (moves_of_step hcap hs')) hinit hrun, ?_⟩
  refine guarded_of_invariant (fun s a s' h _ hs' => Counted.move h (moves_of_step hcap hs'))
    (fun s a h hok => conforms_of_uncontended h hok) ?_
  intro i p n hi
  cases hi

/-- A request for a webhook with this URL. -/
def sampleCreate (url : String) : Kind := .create ⟨url, "[]", true, true⟩

/-- Under a cap of one, a webhook is registered and the next request is refused. -/
theorem cap_kept_sample :
    ∃ s, run (step 1) .init [.begin 0 (sampleCreate "https://a"), .move 0 0, .move 0 0,
        .begin 1 (sampleCreate "https://b"), .move 1 0] = some s
      ∧ s.refused = [1] ∧ WithinCap 1 s := by
  have hrun : run (step 1) .init [.begin 0 (sampleCreate "https://a"), .move 0 0, .move 0 0,
      .begin 1 (sampleCreate "https://b"), .move 1 0] = some _ := rfl
  have hconforms : Guarded (step 1) (Conforms 1) .init [.begin 0 (sampleCreate "https://a"), .move 0 0,
      .move 0 0, .begin 1 (sampleCreate "https://b"), .move 1 0] := by
    refine ⟨trivial, fun s₁ h₁ => ⟨?_, fun s₂ h₂ => ⟨?_, fun s₃ h₃ => ⟨trivial, fun s₄ h₄ =>
      ⟨?_, fun _ _ => trivial⟩⟩⟩⟩⟩
    all_goals cases h₁
    · exact fun _ => .inl (by decide)
    all_goals cases h₂
    · exact fun _ => by decide
    · cases h₃
      cases h₄
      exact fun _ => .inr (by decide)
  exact ⟨_, hrun, rfl, ((cap_kept_iff (by decide) hrun).1.mpr hconforms) _ _ (List.prefix_refl _) hrun⟩

/-- Under a cap of one, two requests that both count before either inserts are both accepted. -/
theorem two_registered_under_one :
    ∃ s, run (step 1) .init [.begin 0 (sampleCreate "https://a"), .begin 1 (sampleCreate "https://b"),
        .move 0 0, .move 1 0, .move 0 0, .move 1 0] = some s
      ∧ live s.rows = 2 ∧ ¬ WithinCap 1 s :=
  ⟨_, rfl, rfl, fun h => absurd h.live_le (by decide)⟩

end ApexChainx.Webhooks.RegistrationCap
