import ApexChainx.Audit.Chain

/-!
# What the audit log keeps secret

`scrub_details` (`app/services/scrubber.py`) replaces the texts at the top level of the details. What an array
or an object holds is stored as it is, whatever is in it, and so are the keys: the details are scrubbed exactly
when no member hides a secret there (`scrubbed_iff`).
-/

namespace ApexChainx.Audit

open ApexChainx.Lib

/-- A text that has the form of a secret. -/
def isSecret (value : String) : Bool := stellarSecret value || ed25519Key value || longKey value

/-- What stands in the place of the value under a sensitive key. -/
def isRedacted : Json → Bool
  | .str value => value = "[REDACTED]"
  | _ => false

variable (sensitiveFields : List String)

mutual

/-- At some depth there is a value under a sensitive key that is not redacted, or a text that has the form of
a secret; the keys are texts too. -/
def leaks : Json → Bool
  | .str value => isSecret value
  | .arr elements => leaksElements elements
  | .obj members => leaksMembers members
  | _ => false

def leaksElements : List Json → Bool
  | [] => false
  | v :: vs => leaks v || leaksElements vs

def leaksMembers : List (String × Json) → Bool
  | [] => false
  | (k, v) :: ms => isSecret k || (k ∈ sensitiveFields && !isRedacted v) || leaks v || leaksMembers ms

end

mutual

/-- The stored value is the given one, but for values under sensitive keys and secrets. -/
def Keeps : Json → Json → Prop
  | .str value, stored => isSecret value = true ∨ stored = .str value
  | .arr elements, .arr stored => KeepsElements elements stored
  | .obj members, .obj stored => KeepsMembers members stored
  | value, stored => stored = value

def KeepsElements : List Json → List Json → Prop
  | [], stored => stored = []
  | v :: vs, stored => ∃ v' vs', stored = v' :: vs' ∧ Keeps v v' ∧ KeepsElements vs vs'

def KeepsMembers : List (String × Json) → List (String × Json) → Prop
  | [], stored => stored = []
  | (k, v) :: ms, stored => ∃ v' ms', stored = (k, v') :: ms' ∧ (k ∈ sensitiveFields ∨ Keeps v v') ∧
      KeepsMembers ms ms'

end

/-- What is stored leaks nothing, and is what was given but for the secrets. -/
structure Scrubbed (details : Option (List (String × Json))) (stored : Json) : Prop where
  clean : leaks sensitiveFields stored = false
  keeps : Keeps sensitiveFields (.obj (details.getD [])) stored

/-- The member has a secret where it is not looked for: as its key, or in an array or an object under a key
that is not sensitive. -/
def HidesSecret (member : String × Json) : Prop :=
  isSecret member.1 = true ∨ member.1 ∉ sensitiveFields ∧ (∀ value, member.2 ≠ .str value) ∧
    leaks sensitiveFields member.2 = true

/-! ## Scrubbing -/

variable {sensitiveFields}

mutual

theorem keeps_self : (v : Json) → Keeps sensitiveFields v v
  | .null => by rw [Keeps]; all_goals nofun
  | .bool b => by rw [Keeps]; all_goals nofun
  | .num n => by rw [Keeps]; all_goals nofun
  | .str value => by rw [Keeps]; exact .inr rfl
  | .arr elements => by rw [Keeps]; exact keepsElements_self elements
  | .obj members => by rw [Keeps]; exact keepsMembers_self members

theorem keepsElements_self : (vs : List Json) → KeepsElements sensitiveFields vs vs
  | [] => by rw [KeepsElements]
  | v :: vs => by rw [KeepsElements]; exact ⟨v, vs, rfl, keeps_self v, keepsElements_self vs⟩

theorem keepsMembers_self : (ms : List (String × Json)) → KeepsMembers sensitiveFields ms ms
  | [] => by rw [KeepsMembers]
  | (k, v) :: ms => by
      rw [KeepsMembers]
      exact ⟨v, ms, rfl, .inr (keeps_self v), keepsMembers_self ms⟩

end

/-- A text is replaced by a marker when it has the form of a secret, and the markers do not have it. -/
theorem leaks_scrubValue_str (value : String) : leaks sensitiveFields (scrubValue (.str value)) = false := by
  rw [scrubValue]
  split_ifs with hstellar hed hlong
  · rw [leaks]
    decide
  · rw [leaks]
    decide
  · rw [leaks]
    decide
  · rw [leaks, isSecret]
    simp only [hstellar, hed, hlong, Bool.or_self]

theorem scrubValue_of_ne {v : Json} (h : ∀ value, v ≠ .str value) : scrubValue v = v := by
  unfold scrubValue
  split
  · exact absurd rfl (h _)
  · rfl

theorem keeps_scrubValue (v : Json) : Keeps sensitiveFields v (scrubValue v) := by
  by_cases h : ∃ value, v = .str value
  · obtain ⟨value, rfl⟩ := h
    by_cases hsecret : isSecret value = true
    · rw [Keeps]
      exact .inl hsecret
    · rw [Keeps]
      refine .inr ?_
      simp_all [scrubValue, isSecret]
  · rw [scrubValue_of_ne fun value heq => h ⟨value, heq⟩]
    exact keeps_self v

/-- What is stored for a member. -/
def scrubMember (sensitiveFields : List String) (member : String × Json) : String × Json :=
  (member.1, if member.1 ∈ sensitiveFields then .str "[REDACTED]" else scrubValue member.2)

theorem keepsMembers_scrubMember (members : List (String × Json)) :
    KeepsMembers sensitiveFields members (members.map (scrubMember sensitiveFields)) := by
  induction members with
  | nil => rw [KeepsMembers, List.map_nil]
  | cons member members ih =>
      obtain ⟨k, v⟩ := member
      rw [KeepsMembers]
      refine ⟨_, _, rfl, ?_, ih⟩
      by_cases hk : k ∈ sensitiveFields
      · exact .inl hk
      · rw [if_neg hk]
        exact .inr (keeps_scrubValue v)

theorem leaksMembers_eq_false_iff {members : List (String × Json)} :
    leaksMembers sensitiveFields members = false ↔
      ∀ m ∈ members, isSecret m.1 = false ∧ (m.1 ∈ sensitiveFields → isRedacted m.2 = true) ∧
        leaks sensitiveFields m.2 = false := by
  induction members with
  | nil => simp [leaksMembers]
  | cons m members ih => simp [leaksMembers, ih, and_assoc]

/-- What is stored for a member leaks exactly when the member hides a secret. -/
theorem scrubMember_clean_iff (member : String × Json) :
    (isSecret (scrubMember sensitiveFields member).1 = false ∧
      ((scrubMember sensitiveFields member).1 ∈ sensitiveFields →
        isRedacted (scrubMember sensitiveFields member).2 = true) ∧
      leaks sensitiveFields (scrubMember sensitiveFields member).2 = false) ↔
      ¬ HidesSecret sensitiveFields member := by
  obtain ⟨k, v⟩ := member
  unfold scrubMember HidesSecret
  by_cases hk : k ∈ sensitiveFields
  · have hmarker : leaks sensitiveFields (.str "[REDACTED]") = false := by rw [leaks]; decide
    simp [hk, hmarker, isRedacted]
  · by_cases hv : ∃ value, v = .str value
    · obtain ⟨value, rfl⟩ := hv
      simp [hk, leaks_scrubValue_str]
    · have hne : ∀ value, v ≠ .str value := fun value heq => hv ⟨value, heq⟩
      simp [hk, hne, scrubValue_of_ne hne]

theorem scrubbed_iff {details : Option (List (String × Json))} :
    Scrubbed sensitiveFields details (scrubDetails sensitiveFields details) ↔
      ∀ m ∈ details.getD [], ¬ HidesSecret sensitiveFields m := by
  have hclean : leaks sensitiveFields (scrubDetails sensitiveFields details) = false ↔
      ∀ m ∈ details.getD [], ¬ HidesSecret sensitiveFields m := by
    change leaks sensitiveFields (.obj ((details.getD []).map (scrubMember sensitiveFields))) = false ↔ _
    rw [leaks, leaksMembers_eq_false_iff, List.forall_mem_map]
    exact forall₂_congr fun m _ => scrubMember_clean_iff m
  rw [← hclean]
  refine ⟨Scrubbed.clean, fun h => ⟨h, ?_⟩⟩
  change Keeps sensitiveFields _ (.obj ((details.getD []).map (scrubMember sensitiveFields)))
  rw [Keeps]
  exact keepsMembers_scrubMember _

/-! ## Runs -/

variable {sha256 : String → String}

/-- The row that a call with these arguments stores, whenever it does. -/
def RowOf (sha256 : String → String) (sensitiveFields : List String) (args : LogArgs) (row : AuditLogRow) :
    Prop :=
  ∃ createdAt prevHash, row = { args.row sha256 sensitiveFields createdAt prevHash with id := row.id }

theorem RowOf.details {args : LogArgs} {row : AuditLogRow} (h : RowOf sha256 sensitiveFields args row) :
    row.details = scrubDetails sensitiveFields args.details := by
  obtain ⟨createdAt, prevHash, heq⟩ := h
  rw [heq]
  rfl

/-- The call is one of the schedule, and what it is about to store is its row. -/
def LogCall.Begun (sha256 : String → String) (sensitiveFields : List String) (as : List Action)
    (c : LogCall) : Prop :=
  Action.begin c.args ∈ as ∧
    match c.pc with
    | .insert row | .commit row => RowOf sha256 sensitiveFields c.args row
    | _ => True

/-- Every row is the row of a call of the schedule. -/
structure AllLogged (sha256 : String → String) (sensitiveFields : List String) (as : List Action) (s : Sys) :
    Prop where
  rows : ∀ r ∈ s.rows, ∃ args, Action.begin args ∈ as ∧ RowOf sha256 sensitiveFields args r
  calls : ∀ c ∈ s.calls, c.Begun sha256 sensitiveFields as

theorem AllLogged.goto {as : List Action} {s : Sys} {i : ℕ} {c : LogCall} {pc : LogPc}
    (h : AllLogged sha256 sensitiveFields as s)
    (hmoved : LogCall.Begun sha256 sensitiveFields as { c with pc := pc }) :
    ∀ d ∈ (s.goto i c pc).calls, d.Begun sha256 sensitiveFields as := by
  intro d hd
  rcases List.mem_or_eq_of_mem_set hd with hold | rfl
  · exact h.calls d hold
  · exact hmoved

theorem logStep_allLogged {as : List Action} {s s' : Sys} {i : ℕ} {now : DateTime} {c : LogCall}
    (h : AllLogged sha256 sensitiveFields as s) (hc : c.Begun sha256 sensitiveFields as)
    (hstep : logStep sha256 sensitiveFields s i now c = some s') :
    AllLogged sha256 sensitiveFields as s' := by
  obtain ⟨hbegun, hrow⟩ := hc
  unfold logStep at hstep
  cases hpc : c.pc with
  | begin =>
      rw [hpc] at hstep
      obtain rfl := Option.some.inj hstep
      exact ⟨h.rows, h.goto ⟨hbegun, trivial⟩⟩
  | lock createdAt =>
      rw [hpc] at hstep
      dsimp only at hstep
      split at hstep
      · contradiction
      · obtain rfl := Option.some.inj hstep
        exact ⟨h.rows, h.goto ⟨hbegun, trivial⟩⟩
  | readTail createdAt =>
      rw [hpc] at hstep
      obtain rfl := Option.some.inj hstep
      exact ⟨h.rows, h.goto ⟨hbegun, createdAt, _, rfl⟩⟩
  | insert row =>
      rw [hpc] at hstep hrow
      obtain rfl := Option.some.inj hstep
      refine ⟨h.rows, h.goto ⟨hbegun, ?_⟩⟩
      obtain ⟨createdAt, prevHash, heq⟩ := hrow
      split_ifs
      · exact ⟨createdAt, prevHash, by rw [heq]⟩
      · trivial
  | commit row =>
      rw [hpc] at hstep hrow
      obtain rfl := Option.some.inj hstep
      refine ⟨?_, h.goto ⟨hbegun, trivial⟩⟩
      intro r hr
      rcases List.mem_append.mp hr with hold | hnew
      · exact h.rows r hold
      · rw [List.mem_singleton.mp hnew]
        exact ⟨c.args, hbegun, hrow⟩
  | raised =>
      rw [hpc] at hstep
      contradiction
  | ended stored =>
      rw [hpc] at hstep
      contradiction

theorem step_allLogged {as : List Action} {s s' : Sys} {a : Action}
    (h : AllLogged sha256 sensitiveFields as s) (ha : a ∈ as)
    (hstep : step sha256 sensitiveFields s a = some s') : AllLogged sha256 sensitiveFields as s' := by
  cases a with
  | begin args =>
      obtain rfl := Option.some.inj hstep
      refine ⟨h.rows, ?_⟩
      intro c hc
      rcases List.mem_append.mp hc with hold | hnew
      · exact h.calls c hold
      · rw [List.mem_singleton.mp hnew]
        exact ⟨ha, trivial⟩
  | move i now =>
      simp only [step] at hstep
      split at hstep
      · contradiction
      · rename_i c hc
        exact logStep_allLogged h (h.calls c (List.mem_of_getElem? hc)) hstep
  | rollback i =>
      simp only [step] at hstep
      split at hstep
      · contradiction
      · rename_i c hc
        split at hstep
        · contradiction
        · obtain rfl := Option.some.inj hstep
          exact ⟨h.rows, h.goto ⟨(h.calls c (List.mem_of_getElem? hc)).1, trivial⟩⟩

/-- After every interleaving of calls of `log_event` each stored row is the row of a call that was made, and
its details are scrubbed exactly when no member of the given ones hides a secret. -/
theorem details_scrubbed_iff {as : List Action} {s : Sys}
    (hrun : run (step sha256 sensitiveFields) Sys.init as = some s) :
    ∀ r ∈ s.rows, ∃ args, Action.begin args ∈ as ∧ RowOf sha256 sensitiveFields args r ∧
      (Scrubbed sensitiveFields args.details r.details ↔
        ∀ m ∈ args.details.getD [], ¬ HidesSecret sensitiveFields m) := by
  have hinit : AllLogged sha256 sensitiveFields as Sys.init :=
    ⟨List.forall_mem_nil _, List.forall_mem_nil _⟩
  have hguarded : Guarded (step sha256 sensitiveFields) (fun _ a => a ∈ as) Sys.init as :=
    guarded_of_forall (fun _ ha _ => ha) Sys.init
  have hall : AllLogged sha256 sensitiveFields as s :=
    run_invariant_of_guarded (fun _ _ _ h ha hstep => step_allLogged h ha hstep) hinit hguarded hrun
  intro r hr
  obtain ⟨args, hbegun, hrow⟩ := hall.rows r hr
  refine ⟨args, hbegun, hrow, ?_⟩
  rw [hrow.details]
  exact scrubbed_iff

/-- A call that logs what a client has sent. -/
def requestEvent (request : List (String × Json)) : LogArgs :=
  ⟨"import_requested", none, none, some [("request", .obj request)], none, none⟩

/-- The statements of one call, without another. -/
def loneCall (args : LogArgs) : List Action := .begin args :: List.replicate 5 (.move 0 sampleTime)

/-- One call alone, with an innocent request among its details. -/
theorem details_scrubbed_lone_call : ∃ s,
    run (step id ["password"]) Sys.init (loneCall (requestEvent [("user", .str "ana")])) = some s ∧
      s.rows.length = 1 ∧
      ∀ r ∈ s.rows, ∃ args, Action.begin args ∈ loneCall (requestEvent [("user", .str "ana")]) ∧
        RowOf id ["password"] args r ∧
        (Scrubbed ["password"] args.details r.details ↔
          ∀ m ∈ args.details.getD [], ¬ HidesSecret ["password"] m) := by
  obtain ⟨s, hrun, hlen⟩ : ∃ s, run (step id ["password"]) Sys.init
      (loneCall (requestEvent [("user", .str "ana")])) = some s ∧ s.rows.length = 1 :=
    ⟨_, rfl, rfl⟩
  exact ⟨s, hrun, hlen, details_scrubbed_iff hrun⟩

/-- A password inside the object that the client sent is stored as it was sent. -/
theorem nested_password_stored : ∃ s,
    run (step id ["password"]) Sys.init (loneCall (requestEvent [("password", .str "hunter2")])) = some s ∧
      s.rows.map AuditLogRow.details = [.obj [("request", .obj [("password", .str "hunter2")])]] ∧
      ∀ r ∈ s.rows, ¬ Scrubbed ["password"] (requestEvent [("password", .str "hunter2")]).details r.details := by
  refine ⟨_, rfl, rfl, ?_⟩
  intro r hr hscrubbed
  have hdetails : r.details = .obj [("request", .obj [("password", .str "hunter2")])] := by
    rw [List.mem_singleton.mp hr]
    rfl
  have hclean := hscrubbed.clean
  rw [hdetails] at hclean
  simp [leaks, leaksMembers, isRedacted] at hclean

end ApexChainx.Audit
