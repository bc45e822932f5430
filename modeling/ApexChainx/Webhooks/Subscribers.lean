import ApexChainx.Lib.JsonStrings
import ApexChainx.Lib.Like

/-!
# The subscribers of an event

`WebhookRepository.subscribers_for_event` (`app/repositories/webhook_repository.py`) on the table of webhooks,
whose column `events` holds a list of event values as JSON text. The query selects by a `LIKE` on that text
what the decoded list then decides; whether the database ignores case in a `LIKE` is a parameter.
-/

namespace ApexChainx.Webhooks

open ApexChainx.Lib

/-- `Webhook`, the columns that are read here. -/
structure WebhookRow where
  id : ℕ
  /-- The events, as JSON text. -/
  events : String
  isActive : Bool
  deletedAt : Option ℤ
deriving DecidableEq, Repr

/-- What `subscribers_for_event` raises. -/
inductive SubscriberError
  /-- `InvalidEventValueError`. -/
  | invalidEventValue (detail : String)
deriving DecidableEq, Repr

def isEventChar (c : Char) : Bool := ('a' ≤ c && c ≤ 'z') || ('0' ≤ c && c ≤ '9')

/-- `EVENT_VALUE_PATTERN`: words of lower-case letters and digits, with a dot or a hyphen between them. -/
def matchesEventPattern (value : String) : Bool :=
  (value.toList.splitOnP fun c => c = '.' || c = '-').all fun word => word ≠ [] && word.all isEventChar

/-- `event_pattern`. The text of the error shows the value as `repr` does, which is a parameter. -/
def eventPattern (repr : String → String) (eventValue : String) : Except SubscriberError (List Char) :=
  if matchesEventPattern eventValue then .ok ('%' :: '"' :: eventValue.toList ++ ['"', '%'])
  else .error (.invalidEventValue ("unsupported event value: " ++ repr eventValue))

/-- `is_subscribed`. -/
def isSubscribed (webhook : WebhookRow) (event : String) : Bool :=
  match loads webhook.events with
  | some (.arr events) => events.any fun
    | .str value => value = event
    | _ => false
  | _ => false

/-- `subscriber_filter`, with the mapping that the database's `LIKE` compares under. -/
def subscriberFilter (m : CaseMapping) (pattern : List Char) (row : WebhookRow) : Bool :=
  row.isActive && row.deletedAt.isNone && like (pattern.map m.lower) (row.events.toList.map m.lower)

/-- `subscribers_for_event`. -/
def subscribersForEvent (m : CaseMapping) (repr : String → String) (table : List WebhookRow) (event : String) :
    Except SubscriberError (List WebhookRow) :=
  match eventPattern repr event with
  | .error e => .error e
  | .ok pattern => .ok ((table.filter (subscriberFilter m pattern)).filter (isSubscribed · event))

/-- `canonical_json` of a list of event values. -/
def canonicalEvents (values : List String) : String := (Json.arr (values.map .str)).text

/-! ## Writing the column -/

/-- What the endpoints write to the table, as far as it is read here. -/
inductive WebhookWrite
  /-- `create_webhook`. -/
  | create (id : ℕ) (events : List String) (isActive : Bool)
  /-- `update_webhook`, with the fields of the request that are set. -/
  | update (id : ℕ) (events : Option (List String)) (isActive : Option Bool)
  /-- `delete_webhook`. -/
  | delete (id : ℕ) (now : ℤ)
deriving DecidableEq, Repr

def WebhookWrite.apply (table : List WebhookRow) : WebhookWrite → List WebhookRow
  | .create id events isActive => table ++ [⟨id, canonicalEvents events, isActive, none⟩]
  | .update id events isActive =>
      table.map fun row =>
        if row.id = id ∧ row.deletedAt = none then
          { row with
            events := (events.map canonicalEvents).getD row.events
            isActive := isActive.getD row.isActive }
        else row
  | .delete id now =>
      table.map fun row =>
        if row.id = id ∧ row.deletedAt = none then { row with isActive := false, deletedAt := some now } else row

/-- The column `events` of every row was written by the endpoints. -/
def EventsWritten (table : List WebhookRow) : Prop :=
  ∀ row ∈ table, ∃ values, row.events = canonicalEvents values

theorem EventsWritten.apply {table : List WebhookRow} (h : EventsWritten table) (write : WebhookWrite) :
    EventsWritten (write.apply table) := by
  intro row hrow
  cases write with
  | create id events isActive =>
      rcases List.mem_append.mp hrow with hrow | hrow
      · exact h row hrow
      · rw [List.mem_singleton.mp hrow]
        exact ⟨events, rfl⟩
  | update id events isActive =>
      obtain ⟨old, hold, rfl⟩ := List.mem_map.mp hrow
      split
      · cases events with
        | none => exact h old hold
        | some events => exact ⟨events, rfl⟩
      · exact h old hold
  | delete id now =>
      obtain ⟨old, hold, rfl⟩ := List.mem_map.mp hrow
      split
      · exact h old hold
      · exact h old hold

/-- The table after any writes has only written rows. -/
theorem eventsWritten_foldl (writes : List WebhookWrite) : EventsWritten (writes.foldl WebhookWrite.apply []) := by
  have hrun : ∀ table, EventsWritten table → EventsWritten (writes.foldl WebhookWrite.apply table) := by
    induction writes with
    | nil => exact fun table h => h
    | cons write writes ih => exact fun table h => ih _ (h.apply write)
  exact hrun [] (List.forall_mem_nil _)

/-! ## What the pattern finds -/

theorem mem_of_splitOnP {α : Type} {p : α → Bool} {xs : List α} {x : α} (hx : x ∈ xs) (hp : p x = false) :
    ∃ word ∈ xs.splitOnP p, x ∈ word := by
  induction xs with
  | nil => cases hx
  | cons y xs ih =>
      rw [List.splitOnP_cons_eq_if_modifyHead]
      obtain ⟨first, words, hwords⟩ := List.exists_cons_of_ne_nil (List.splitOnP_ne_nil p xs)
      split
      · rename_i hy
        rcases List.mem_cons.mp hx with rfl | hx
        · rw [hp] at hy
          cases hy
        · obtain ⟨word, hword, hmem⟩ := ih hx
          exact ⟨word, List.mem_cons_of_mem _ hword, hmem⟩
      · rw [hwords, List.modifyHead_cons]
        rcases List.mem_cons.mp hx with rfl | hx
        · exact ⟨_, List.mem_cons_self, List.mem_cons_self⟩
        · obtain ⟨word, hword, hmem⟩ := ih hx
          rw [hwords] at hword
          rcases List.mem_cons.mp hword with rfl | hword
          · exact ⟨_, List.mem_cons_self, List.mem_cons_of_mem _ hmem⟩
          · exact ⟨word, List.mem_cons_of_mem _ hword, hmem⟩

/-- Letters, digits, dots and hyphens stand for themselves in JSON text and in a pattern. -/
theorem plain_of_isEventChar {c : Char} (h : isEventChar c = true ∨ c = '.' ∨ c = '-') :
    isMeta c = false ∧ escape c = [c] := by
  rcases h with h | rfl | rfl
  · have hrange : 97 ≤ c.toNat ∧ c.toNat ≤ 122 ∨ 48 ≤ c.toNat ∧ c.toNat ≤ 57 := by
      simpa [isEventChar, Char.le_def, UInt32.le_iff_toNat_le] using h
    have hne : ∀ d : Char, (d.toNat < 48 ∨ 57 < d.toNat ∧ d.toNat < 97) → c ≠ d := by
      rintro d hd rfl
      omega
    constructor
    · simp [isMeta, hne '%' (by decide), hne '_' (by decide), hne '\\' (by decide)]
    · unfold escape
      rw [if_neg (hne '"' (by decide)), if_neg (hne '\\' (by decide)), if_neg (hne '\n' (by decide)),
        if_neg (hne '\r' (by decide)), if_neg (hne '\t' (by decide)), if_neg (hne '\x0c' (by decide)),
        if_neg (hne '\x08' (by decide)), if_neg (by omega)]
  · exact ⟨by decide, by decide⟩
  · exact ⟨by decide, by decide⟩

theorem plain_of_matchesEventPattern {value : String} (h : matchesEventPattern value = true) :
    ∀ c ∈ value.toList, isMeta c = false ∧ escape c = [c] := by
  intro c hc
  apply plain_of_isEventChar
  by_cases hseparator : c = '.' ∨ c = '-'
  · exact .inr hseparator
  · left
    obtain ⟨word, hword, hmem⟩ := mem_of_splitOnP (p := fun c => c = '.' || c = '-') hc (by simpa using hseparator)
    have hall := List.all_eq_true.mp h word hword
    rw [Bool.and_eq_true] at hall
    exact List.all_eq_true.mp hall.2 c hmem

variable {m : CaseMapping} {values : List String} {event : String}

theorem loads_canonicalEvents (values : List String) :
    loads (canonicalEvents values) = some (.arr (values.map .str)) := loads_strings values

/-- The text of a list with the event has the quoted event in it. -/
theorem like_eventPattern (hpattern : matchesEventPattern event = true) (hmem : event ∈ values) :
    like (('%' :: '"' :: event.toList ++ ['"', '%']).map m.lower)
      ((canonicalEvents values).toList.map m.lower) = true := by
  have hplain := plain_of_matchesEventPattern hpattern
  have hquote : quote event = '"' :: event.toList ++ ['"'] := by
    unfold quote
    rw [List.flatMap_congr fun c hc => (hplain c hc).2, List.flatMap_singleton']
    rfl
  have hlike : LikePlain (quote event) := by
    rw [hquote]
    intro c hc
    simp only [List.cons_append, List.mem_cons, List.mem_append, List.not_mem_nil, or_false] at hc
    rcases hc with rfl | hc | rfl
    · rfl
    · exact (hplain c hc).1
    · rfl
  have hcontains := (like_contains_map m hlike).mpr ((quote_infix_of_mem hmem).map m.lower)
  rw [canonicalEvents, Json.text, String.toList_ofList]
  rw [hquote] at hcontains
  simpa using hcontains

/-- A row whose text was written is subscribed to the events of its list. -/
theorem isSubscribed_iff {row : WebhookRow} (hwritten : row.events = canonicalEvents values) :
    isSubscribed row event = true ↔ event ∈ values := by
  unfold isSubscribed
  rw [hwritten, loads_canonicalEvents]
  simp [List.any_map]

/-- On a table whose events were written by the endpoints the selection by `LIKE` drops no subscriber, so that
the answer is the active rows that are not deleted and whose list has the event. -/
theorem subscribersForEvent_eq (m : CaseMapping) (repr : String → String) {table : List WebhookRow}
    (hwritten : EventsWritten table) (hpattern : matchesEventPattern event = true) :
    subscribersForEvent m repr table event = .ok (table.filter fun row =>
        row.isActive && row.deletedAt.isNone && isSubscribed row event) ∧
    ∀ row ∈ table, ∀ values, row.events = canonicalEvents values →
      (isSubscribed row event = true ↔ event ∈ values) := by
  refine ⟨?_, fun row _ values hvalues => isSubscribed_iff hvalues⟩
  rw [subscribersForEvent, eventPattern, if_pos hpattern]
  dsimp only
  rw [List.filter_filter, Except.ok.injEq]
  refine List.filter_congr fun row hrow => ?_
  obtain ⟨values, hvalues⟩ := hwritten row hrow
  cases hsubscribed : isSubscribed row event with
  | false => simp
  | true =>
      have hlike := like_eventPattern (m := m) hpattern ((isSubscribed_iff hvalues).mp hsubscribed)
      rw [subscriberFilter, hvalues, hlike, Bool.and_true, Bool.true_and]

/-- Rows with an event, with one it is a prefix of, and a deleted one. -/
def sampleWrites : List WebhookWrite :=
  [.create 1 ["sla.warning", "sla.violation"] true, .create 2 ["sla.violation.extra"] true,
    .create 3 ["sla.violation"] true, .delete 3 0, .create 4 [] true, .update 4 (some ["sla.violation"]) none]

theorem subscribers_of_sampleWrites :
    subscribersForEvent exactCase id (sampleWrites.foldl WebhookWrite.apply []) "sla.violation"
      = .ok ((sampleWrites.foldl WebhookWrite.apply []).filter fun row =>
          row.isActive && row.deletedAt.isNone && isSubscribed row "sla.violation") ∧
    ((sampleWrites.foldl WebhookWrite.apply []).filter fun row =>
      row.isActive && row.deletedAt.isNone && isSubscribed row "sla.violation").map WebhookRow.id = [1, 4] := by
  refine ⟨(subscribersForEvent_eq exactCase id (eventsWritten_foldl _) ?_).1, ?_⟩
  · decide +kernel
  · decide +kernel

end ApexChainx.Webhooks
