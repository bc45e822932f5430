import ApexChainx.Ledger.BlockPoller
import ApexChainx.Ledger.IndexQuery

/-!
# The Horizon source of the block poller

`HorizonBlockSource.fetch_blocks` (`app/services/block_poller.py`). The HTTP client is given by what a request
comes to. A body is what `response.json()` makes of it, with the numbers that Python reads and JSON does not
have: `NaN`, the infinities and literals too large for a `float`.

`int` refuses most of what a sequence may be with a `TypeError` or a `ValueError`, which are caught. It does not
refuse a fraction, it refuses an infinity with an `OverflowError`, and `Block` refuses a negative height with a
`ValueError` of its own. A page is handled as it should be exactly when no record has such a sequence, or one
that is refused properly comes first (`handles_iff`).
-/

namespace ApexChainx.Ledger.HorizonSource

open IndexQuery (readInt)

/-! ## Bodies -/

/-- A `float`. -/
inductive JsonFloat
  | finite (value : ℚ)
  | infinity (negative : Bool)
  | nan
deriving DecidableEq, Repr

/-- What `json` reads. The keys of an object are distinct. -/
inductive Body
  | null
  | bool (b : Bool)
  | int (n : ℤ)
  | float (x : JsonFloat)
  | str (text : String)
  | list (items : List Body)
  | dict (members : List (String × Body))

/-- `dict.get`, with `None` for a missing key. -/
def get (members : List (String × Body)) (key : String) : Body :=
  ((members.find? fun m => m.1 = key).map Prod.snd).getD .null

/-- What `response.json()` raises. -/
inductive JsonError
  /-- A `ValueError`: no JSON, no text in a known encoding, or an integer of too many digits. -/
  | valueError
  /-- `RecursionError`, for a body nested too deeply. -/
  | recursionError (message : String)
deriving DecidableEq, Repr

/-- An HTTP response. -/
structure HorizonResponse where
  statusCode : ℕ
  json : Except JsonError Body

/-- The parameters of a request. -/
structure LedgerParams where
  order : String
  limit : ℕ
  cursor : Option String
deriving DecidableEq, Repr

/-- What a request comes to. -/
inductive ClientOutcome
  | response (r : HorizonResponse)
  /-- `httpx.HTTPError`. -/
  | httpError (message : String)
  /-- Any other exception. -/
  | exception (message : String)

/-! ## Reading a page -/

/-- What leaves the loop over the records. -/
inductive FetchFailure
  | fetch (e : BlockFetchError)
  /-- Any other exception. -/
  | other (message : String)
deriving DecidableEq, Repr

/-- The exceptions of `int`. -/
inductive IntFailure
  /-- `TypeError` or `ValueError`. -/
  | typeOrValue
  /-- `OverflowError`. -/
  | overflow
deriving DecidableEq, Repr

/-- `int(value)`; a fraction is cut toward zero. -/
def toInt : Body → Except IntFailure ℤ
  | .bool b => .ok (if b then 1 else 0)
  | .int n => .ok n
  | .float (.finite x) => .ok (x.num.tdiv x.den)
  | .float (.infinity _) => .error .overflow
  | .float .nan => .error .typeOrValue
  | .str raw =>
      match readInt raw with
      | some n => .ok n
      | none => .error .typeOrValue
  | _ => .error .typeOrValue

/-- The error of a record that is refused. -/
def recordError (index : ℕ) (what : String) : BlockFetchError :=
  ⟨"Horizon ledger record " ++ toString index ++ what, false, none⟩

/-- `Block(...)`. -/
def makeBlock (cursor : String) (height : ℤ) (payload : Body) : Except FetchFailure (Block Body) :=
  if h : cursor = "" then .error (.other "block cursor must not be empty")
  else if height < 0 then .error (.other "block height must be non-negative")
  else .ok ⟨cursor, height.toNat, payload, h⟩

/-- One round of the loop over the records. -/
def readRecord (index : ℕ) : Body → Except FetchFailure (Block Body)
  | .dict members =>
      match get members "paging_token" with
      | .str blockCursor =>
          if blockCursor = "" then .error (.fetch (recordError index " has no paging_token"))
          else
            match get members "sequence" with
            | .bool _ => .error (.fetch (recordError index " has an invalid sequence"))
            | rawHeight =>
                match toInt rawHeight with
                | .ok height => makeBlock blockCursor height (.dict members)
                | .error .typeOrValue => .error (.fetch (recordError index " has an invalid sequence"))
                | .error .overflow => .error (.other "cannot convert float infinity to integer")
      | _ => .error (.fetch (recordError index " has no paging_token"))
  | _ => .error (.fetch (recordError index " is not an object"))

/-- The loop over the records. -/
def readRecords : ℕ → List Body → Except FetchFailure (List (Block Body))
  | _, [] => .ok []
  | index, record :: rest =>
      match readRecord index record with
      | .error e => .error e
      | .ok block =>
          match readRecords (index + 1) rest with
          | .error e => .error e
          | .ok blocks => .ok (block :: blocks)

/-- The body, from its check to the blocks. -/
def readBody : Body → Except FetchFailure (List (Block Body))
  | .dict body =>
      match get body "_embedded" with
      | .dict embedded =>
          match get embedded "records" with
          | .list records => readRecords 0 records
          | _ => .error (.fetch ⟨"Horizon response is missing _embedded.records", false, none⟩)
      | _ => .error (.fetch ⟨"Horizon response is missing _embedded", false, none⟩)
  | _ => .error (.fetch ⟨"Horizon response must be a JSON object", false, none⟩)

/-- What is done with a response. -/
def readResponse (r : HorizonResponse) : Except FetchFailure (List (Block Body)) :=
  if r.statusCode = 408 ∨ r.statusCode = 429 ∨ 500 ≤ r.statusCode then
    .error (.fetch ⟨"Horizon returned retryable HTTP " ++ toString r.statusCode, true, some r.statusCode⟩)
  else if 400 ≤ r.statusCode then
    .error (.fetch ⟨"Horizon returned terminal HTTP " ++ toString r.statusCode, false, some r.statusCode⟩)
  else
    match r.json with
    | .error .valueError => .error (.fetch ⟨"Horizon returned invalid JSON", false, none⟩)
    | .error (.recursionError message) => .error (.other message)
    | .ok body => readBody body

/-- What the poller sees of an outcome. -/
def toAnswer : Except FetchFailure (List (Block Body)) → Answer Body
  | .ok blocks => .blocks (blocks.map some)
  | .error (.fetch e) => .raised e
  | .error (.other message) => .exception message

/-- `fetch_blocks`. -/
def fetchBlocks (client : LedgerParams → ClientOutcome) (cursor : Option String) (limit : ℕ) : Answer Body :=
  if 1 ≤ limit ∧ limit ≤ 200 then
    match client ⟨"asc", limit, cursor⟩ with
    | .httpError message => .raised ⟨"Horizon request failed: " ++ message, true, none⟩
    | .exception message => .exception message
    | .response r => toAnswer (readResponse r)
  else .exception "limit must be between 1 and 200"

/-! ## What a page is -/

/-- The integer that a sequence stands for. -/
inductive IntegralSequence : Body → ℤ → Prop
  | int (n : ℤ) : IntegralSequence (.int n) n
  | float (n : ℤ) : IntegralSequence (.float (.finite n)) n
  | str {raw : String} {n : ℤ} (h : readInt raw = some n) : IntegralSequence (.str raw) n

/-- The block is that of the record. -/
structure RecordBlock (record : Body) (block : Block Body) : Prop where
  payload : block.payload = record
  members : ∃ members, record = .dict members ∧ get members "paging_token" = .str block.cursor ∧
    IntegralSequence (get members "sequence") block.height

/-- The records of a body. -/
def Records (body : Body) (records : List Body) : Prop :=
  ∃ members embedded, body = .dict members ∧ get members "_embedded" = .dict embedded ∧
    get embedded "records" = .list records

/-- The blocks are those of the records of the body, one each and in order. -/
def PageOf (body : Body) (blocks : List (Block Body)) : Prop :=
  ∃ records, Records body records ∧ List.Forall₂ RecordBlock records blocks

/-- The response has a body that is read, and it is not a page. -/
def Malformed (r : HorizonResponse) : Prop :=
  r.statusCode < 400 ∧ ∀ body blocks, r.json = .ok body → ¬ PageOf body blocks

/-! ## What is refused -/

/-- `int` refuses the sequence with an exception that is caught. -/
def Unreadable : Body → Prop
  | .int _ => False
  | .float x => x = .nan
  | .str raw => readInt raw = none
  | _ => True

/-- The record has a fault that the loop looks for. -/
def Rejected (record : Body) : Prop :=
  ∀ members, record = .dict members → ∀ blockCursor, get members "paging_token" = .str blockCursor →
    blockCursor ≠ "" → Unreadable (get members "sequence")

/-- The sequence is infinite, or negative after it is cut. -/
def OutOfRange : Body → Prop
  | .int n => n < 0
  | .float (.finite x) => x ≤ -1
  | .float (.infinity _) => True
  | .str raw => ∃ n, readInt raw = some n ∧ n < 0
  | _ => False

/-- The record has a fault that the loop does not look for, and no other. -/
def Overlooked (record : Body) : Prop :=
  ∃ members blockCursor, record = .dict members ∧ get members "paging_token" = .str blockCursor ∧
    blockCursor ≠ "" ∧ OutOfRange (get members "sequence")

/-! ## Numbers -/

/-- A number cut toward zero is negative from minus one on. -/
theorem tdiv_neg_iff {x : ℚ} : x.num.tdiv x.den < 0 ↔ x ≤ -1 := by
  have hden : (0 : ℤ) < x.den := by exact_mod_cast x.den_pos
  have hle : x ≤ -1 ↔ x.num ≤ -(x.den : ℤ) := by
    rw [Rat.le_iff]
    simp
  rw [hle]
  constructor
  · intro h
    by_contra hlt
    rcases lt_or_ge x.num 0 with hneg | hpos
    · have hzero : (-x.num).tdiv x.den = 0 := Int.tdiv_eq_zero_of_lt (by omega) (by omega)
      rw [Int.neg_tdiv] at hzero
      omega
    · have hcut := Int.tdiv_nonneg hpos hden.le
      omega
  · intro h
    have hcut : 1 ≤ (-x.num).tdiv x.den := by
      rw [Int.tdiv_eq_ediv_of_nonneg (by omega), Int.le_ediv_iff_mul_le hden]
      omega
    rw [Int.neg_tdiv] at hcut
    omega

theorem tdiv_intCast (n : ℤ) : (n : ℚ).num.tdiv (n : ℚ).den = n := by
  rw [Rat.num_intCast, Rat.den_intCast, Nat.cast_one, Int.tdiv_one]

/-! ## One record -/

theorem toInt_of_integral {raw : Body} {n : ℤ} (h : IntegralSequence raw n) : toInt raw = .ok n := by
  cases h with
  | int n => rfl
  | float n => rw [toInt, tdiv_intCast]
  | str h => simp only [toInt, h]

theorem not_bool_of_integral {raw : Body} {n : ℤ} (h : IntegralSequence raw n) (b : Bool) : raw ≠ .bool b := by
  rintro rfl
  cases h

/-- What the loop does with a sequence. -/
theorem toInt_cases (raw : Body) :
    (∃ b, raw = .bool b) ∨ (∃ n, toInt raw = .ok n ∧ ¬ Unreadable raw ∧ (OutOfRange raw ↔ n < 0)) ∨
      (toInt raw = .error .typeOrValue ∧ Unreadable raw ∧ ¬ OutOfRange raw) ∨
      (toInt raw = .error .overflow ∧ ¬ Unreadable raw ∧ OutOfRange raw) := by
  cases raw with
  | bool b => exact .inl ⟨b, rfl⟩
  | int n => exact .inr (.inl ⟨n, rfl, id, Iff.rfl⟩)
  | float x =>
      cases x with
      | finite x => exact .inr (.inl ⟨_, rfl, nofun, tdiv_neg_iff.symm⟩)
      | infinity negative => exact .inr (.inr (.inr ⟨rfl, nofun, trivial⟩))
      | nan => exact .inr (.inr (.inl ⟨rfl, rfl, id⟩))
  | str raw =>
      cases hraw : readInt raw with
      | none => exact .inr (.inr (.inl ⟨by simp only [toInt, hraw], hraw, by simp [OutOfRange, hraw]⟩))
      | some n =>
          exact .inr (.inl ⟨n, by simp only [toInt, hraw], by simp [Unreadable, hraw], by simp [OutOfRange, hraw]⟩)
  | null => exact .inr (.inr (.inl ⟨rfl, trivial, id⟩))
  | list items => exact .inr (.inr (.inl ⟨rfl, trivial, id⟩))
  | dict members => exact .inr (.inr (.inl ⟨rfl, trivial, id⟩))

/-- The record is an object with a token and this sequence. -/
def HasSequence (record : Body) (blockCursor : String) (raw : Body) : Prop :=
  blockCursor ≠ "" ∧ ∃ members, record = .dict members ∧ get members "paging_token" = .str blockCursor ∧
    get members "sequence" = raw

theorem HasSequence.rejected_iff {record raw : Body} {blockCursor : String}
    (h : HasSequence record blockCursor raw) : Rejected record ↔ Unreadable raw := by
  obtain ⟨hne, members, rfl, htoken, rfl⟩ := h
  constructor
  · intro hrejected
    exact hrejected members rfl blockCursor htoken hne
  · rintro hraw members' heq _ - -
    obtain rfl := Body.dict.inj heq
    exact hraw

theorem HasSequence.overlooked_iff {record raw : Body} {blockCursor : String}
    (h : HasSequence record blockCursor raw) : Overlooked record ↔ OutOfRange raw := by
  obtain ⟨hne, members, rfl, htoken, rfl⟩ := h
  constructor
  · rintro ⟨members', _, heq, -, -, hraw⟩
    obtain rfl := Body.dict.inj heq
    exact hraw
  · intro hraw
    exact ⟨members, blockCursor, rfl, htoken, hne, hraw⟩

/-- A record has a token and a sequence, or the loop refuses it. -/
theorem hasSequence_or_rejected (index : ℕ) (record : Body) :
    (∃ blockCursor raw, HasSequence record blockCursor raw) ∨
      Rejected record ∧ ¬ Overlooked record ∧
        ∃ e : BlockFetchError, readRecord index record = .error (.fetch e) ∧ e.retryable = false := by
  by_cases h : ∃ blockCursor raw, HasSequence record blockCursor raw
  · exact .inl h
  · refine .inr ⟨?_, ?_, ?_⟩
    · intro members heq blockCursor htoken hne
      exact absurd ⟨blockCursor, _, hne, members, heq, htoken, rfl⟩ h
    · rintro ⟨members, blockCursor, heq, htoken, hne, -⟩
      exact h ⟨blockCursor, _, hne, members, heq, htoken, rfl⟩
    · unfold readRecord
      split
      · rename_i members
        split
        · rename_i blockCursor htoken
          split
          · exact ⟨_, rfl, rfl⟩
          · rename_i hne
            exact absurd ⟨blockCursor, _, hne, members, rfl, htoken, rfl⟩ h
        · exact ⟨_, rfl, rfl⟩
      · exact ⟨_, rfl, rfl⟩

/-- The sequence decides about the rest. -/
theorem HasSequence.readRecord_eq {record raw : Body} {blockCursor : String} (index : ℕ)
    (h : HasSequence record blockCursor raw) (hbool : ∀ b, raw ≠ .bool b) :
    readRecord index record =
      match toInt raw with
      | .ok height => makeBlock blockCursor height record
      | .error .typeOrValue => .error (.fetch (recordError index " has an invalid sequence"))
      | .error .overflow => .error (.other "cannot convert float infinity to integer") := by
  obtain ⟨hne, members, rfl, htoken, rfl⟩ := h
  simp only [readRecord, htoken, if_neg hne]

/-- One round of the loop: a block, or the exception that the record's fault leads to. -/
theorem readRecord_cases (index : ℕ) (record : Body) :
    (∃ block, readRecord index record = .ok block ∧ ¬ Rejected record ∧ ¬ Overlooked record) ∨
      (∃ e : BlockFetchError, readRecord index record = .error (.fetch e) ∧ e.retryable = false ∧
        Rejected record ∧ ¬ Overlooked record) ∨
      ∃ message, readRecord index record = .error (.other message) ∧ ¬ Rejected record ∧ Overlooked record := by
  rcases hasSequence_or_rejected index record with ⟨blockCursor, raw, h⟩ | ⟨hrejected, hover, e, he, hterminal⟩
  · rw [h.rejected_iff, h.overlooked_iff]
    rcases toInt_cases raw with ⟨b, rfl⟩ | hraw
    · obtain ⟨hne, members, rfl, htoken, hseq⟩ := h
      refine .inr (.inl ⟨recordError index " has an invalid sequence", ?_, rfl, trivial, id⟩)
      simp only [readRecord, htoken, if_neg hne, hseq]
    · by_cases hbool : ∃ b, raw = .bool b
      · obtain ⟨b, rfl⟩ := hbool
        simp [toInt, Unreadable] at hraw
      · have heq := h.readRecord_eq index fun b hb => hbool ⟨b, hb⟩
        rcases hraw with ⟨n, hn, hread, hrange⟩ | ⟨hfail, hread, hrange⟩ | ⟨hfail, hread, hrange⟩
        · simp only [hn, makeBlock, dif_neg h.1] at heq
          rw [heq, hrange]
          split_ifs with hneg
          · exact .inr (.inr ⟨_, rfl, hread, hneg⟩)
          · exact .inl ⟨_, rfl, hread, hneg⟩
        · rw [hfail] at heq
          exact .inr (.inl ⟨recordError index " has an invalid sequence", heq, rfl, hread, hrange⟩)
        · rw [hfail] at heq
          exact .inr (.inr ⟨_, heq, hread, hrange⟩)
  · exact .inr (.inl ⟨e, he, hterminal, hrejected, hover⟩)

/-- A record that has a block is read as that block. -/
theorem readRecord_of_recordBlock {record : Body} {block : Block Body} (index : ℕ) (h : RecordBlock record block) :
    readRecord index record = .ok block := by
  obtain ⟨hpayload, members, heq, htoken, hseq⟩ := h
  have hhas : HasSequence record block.cursor (get members "sequence") :=
    ⟨block.cursor_ne, members, heq, htoken, rfl⟩
  rw [hhas.readRecord_eq index (not_bool_of_integral hseq), toInt_of_integral hseq]
  simp only [makeBlock, dif_neg block.cursor_ne, if_neg (Int.not_lt.mpr (Int.natCast_nonneg _)), Int.toNat_natCast,
    ← hpayload]

/-! ## The page -/

/-- The first record that is not read as a block, with what precedes it. -/
def FirstFault (fault : Body → Prop) (records : List Body) : Prop :=
  ∃ pre m post, records = pre ++ m :: post ∧ fault m ∧ ∀ p ∈ pre, ¬ Rejected p ∧ ¬ Overlooked p

theorem FirstFault.cons {fault : Body → Prop} {record : Body} {rest : List Body}
    (hrecord : ¬ Rejected record ∧ ¬ Overlooked record) (h : FirstFault fault rest) :
    FirstFault fault (record :: rest) := by
  obtain ⟨pre, m, post, rfl, hm, hpre⟩ := h
  exact ⟨record :: pre, m, post, rfl, hm, List.forall_mem_cons.mpr ⟨hrecord, hpre⟩⟩

/-- The loop ends with the first record that has a fault. -/
theorem readRecords_cases (index : ℕ) (records : List Body) :
    (∃ blocks, readRecords index records = .ok blocks ∧ ∀ r ∈ records, ¬ Rejected r ∧ ¬ Overlooked r) ∨
      (∃ e : BlockFetchError, readRecords index records = .error (.fetch e) ∧ e.retryable = false ∧
        FirstFault Rejected records) ∨
      ∃ message, readRecords index records = .error (.other message) ∧
        FirstFault (fun m => ¬ Rejected m ∧ Overlooked m) records := by
  induction records generalizing index with
  | nil => exact .inl ⟨[], rfl, List.forall_mem_nil _⟩
  | cons record rest ih =>
      rcases readRecord_cases index record with ⟨block, hblock, hfine⟩ | ⟨e, he, hterminal, hrejected, -⟩ |
        ⟨message, hmessage, hover⟩
      · rcases ih (index + 1) with ⟨blocks, hblocks, hall⟩ | ⟨e, he, hterminal, hfirst⟩ | ⟨message, hmessage, hfirst⟩
        · refine .inl ⟨block :: blocks, ?_, List.forall_mem_cons.mpr ⟨hfine, hall⟩⟩
          simp only [readRecords, hblock, hblocks]
        · refine .inr (.inl ⟨e, ?_, hterminal, hfirst.cons hfine⟩)
          simp only [readRecords, hblock, he]
        · refine .inr (.inr ⟨message, ?_, hfirst.cons hfine⟩)
          simp only [readRecords, hblock, hmessage]
      · refine .inr (.inl ⟨e, ?_, hterminal, [], record, rest, rfl, hrejected, List.forall_mem_nil _⟩)
        simp only [readRecords, he]
      · refine .inr (.inr ⟨message, ?_, [], record, rest, rfl, hover, List.forall_mem_nil _⟩)
        simp only [readRecords, hmessage]

/-- The records of a page are read as its blocks. -/
theorem readRecords_of_forall₂ {records : List Body} {blocks : List (Block Body)}
    (h : List.Forall₂ RecordBlock records blocks) (index : ℕ) : readRecords index records = .ok blocks := by
  induction h generalizing index with
  | nil => rfl
  | cons hrecord _ ih => simp only [readRecords, readRecord_of_recordBlock index hrecord, ih]

/-- Every record has a block, or one is refused before any whose fault is not looked for. -/
def Foreseen (records : List Body) : Prop :=
  (∀ r ∈ records, ∃ block, RecordBlock r block) ∨
    ∃ pre m post, records = pre ++ m :: post ∧ Rejected m ∧ ∀ p ∈ pre, ¬ Overlooked p

theorem not_overlooked_of_recordBlock {record : Body} {block : Block Body} (h : RecordBlock record block) :
    ¬ Overlooked record := by
  have hread := readRecord_of_recordBlock 0 h
  rcases readRecord_cases 0 record with ⟨_, -, -, hover⟩ | ⟨e, he, -⟩ | ⟨message, hmessage, -⟩
  · exact hover
  · rw [hread] at he
    contradiction
  · rw [hread] at hmessage
    contradiction

/-- A fault that is not looked for, with none before it, is not foreseen. -/
theorem FirstFault.not_foreseen {records : List Body}
    (h : FirstFault (fun m => ¬ Rejected m ∧ Overlooked m) records) : ¬ Foreseen records := by
  obtain ⟨pre, m, post, rfl, ⟨hm, hover⟩, hpre⟩ := h
  rintro (hall | ⟨pre', m', post', heq, hrejected, hpre'⟩)
  · obtain ⟨block, hblock⟩ := hall m (List.mem_append_right pre List.mem_cons_self)
    exact not_overlooked_of_recordBlock hblock hover
  · rcases List.append_eq_append_iff.mp heq with ⟨between, rfl, htail⟩ | ⟨between, rfl, htail⟩
    · -- the refused record comes later or is the same one
      cases between with
      | nil =>
          obtain ⟨rfl, -⟩ := List.cons.inj htail
          exact hm hrejected
      | cons b between =>
          obtain ⟨rfl, -⟩ := List.cons.inj htail
          exact hpre' m (List.mem_append_right pre List.mem_cons_self) hover
    · cases between with
      | nil =>
          obtain ⟨rfl, -⟩ := List.cons.inj htail
          exact hm hrejected
      | cons b between =>
          obtain ⟨rfl, -⟩ := List.cons.inj htail
          exact (hpre m' (List.mem_append_right pre' List.mem_cons_self)).1 hrejected

theorem exists_forall₂_iff {records : List Body} :
    (∃ blocks, List.Forall₂ RecordBlock records blocks) ↔ ∀ r ∈ records, ∃ block, RecordBlock r block := by
  induction records with
  | nil => simp
  | cons record rest ih =>
      rw [List.forall_mem_cons, ← ih]
      constructor
      · rintro ⟨_, hblocks⟩
        obtain ⟨block, blocks, hblock, hrest, -⟩ := List.forall₂_cons_left_iff.mp hblocks
        exact ⟨⟨block, hblock⟩, blocks, hrest⟩
      · rintro ⟨⟨block, hblock⟩, blocks, hrest⟩
        exact ⟨block :: blocks, .cons hblock hrest⟩

/-- The loop returns the blocks of the records or refuses one of them exactly when the faults are foreseen. -/
theorem readRecords_foreseen_iff (records : List Body) :
    Foreseen records ↔
      (∃ blocks, readRecords 0 records = .ok blocks ∧ List.Forall₂ RecordBlock records blocks) ∨
        ∃ e : BlockFetchError, readRecords 0 records = .error (.fetch e) ∧ e.retryable = false := by
  rcases readRecords_cases 0 records with ⟨blocks, hblocks, hall⟩ | ⟨e, he, hterminal, hfirst⟩ |
    ⟨message, hmessage, hfirst⟩
  · constructor
    · rintro (hwell | ⟨pre, m, post, rfl, hrejected, -⟩)
      · obtain ⟨blocks', hblocks'⟩ := exists_forall₂_iff.mpr hwell
        exact .inl ⟨blocks', readRecords_of_forall₂ hblocks' 0, hblocks'⟩
      · exact absurd hrejected (hall m (List.mem_append_right pre List.mem_cons_self)).1
    · rintro (⟨blocks', -, hpage⟩ | ⟨e, he, -⟩)
      · exact .inl (exists_forall₂_iff.mp ⟨blocks', hpage⟩)
      · rw [hblocks] at he
        contradiction
  · refine iff_of_true (.inr ?_) (.inr ⟨e, he, hterminal⟩)
    obtain ⟨pre, m, post, rfl, hrejected, hpre⟩ := hfirst
    exact ⟨pre, m, post, rfl, hrejected, fun p hp => (hpre p hp).2⟩
  · refine iff_of_false hfirst.not_foreseen ?_
    rintro (⟨blocks, hblocks, -⟩ | ⟨e, he, -⟩)
    · rw [hmessage] at hblocks
      contradiction
    · rw [hmessage] at he
      cases he

theorem readBody_of_records {body : Body} {records : List Body} (h : Records body records) :
    readBody body = readRecords 0 records := by
  obtain ⟨members, embedded, rfl, hembedded, hrecords⟩ := h
  simp only [readBody, hembedded, hrecords]

theorem Records.unique {body : Body} {records records' : List Body} (h : Records body records)
    (h' : Records body records') : records = records' := by
  obtain ⟨members, embedded, rfl, hembedded, hrecords⟩ := h
  obtain ⟨members', embedded', heq, hembedded', hrecords'⟩ := h'
  obtain rfl := Body.dict.inj heq
  rw [hembedded] at hembedded'
  obtain rfl := Body.dict.inj hembedded'
  rw [hrecords] at hrecords'
  exact Body.list.inj hrecords'

/-- A body without records is refused. -/
theorem readBody_of_no_records {body : Body} (h : ∀ records, ¬ Records body records) :
    ∃ e : BlockFetchError, readBody body = .error (.fetch e) ∧ e.retryable = false := by
  unfold readBody
  split
  · rename_i members
    split
    · rename_i embedded hembedded
      split
      · rename_i records hrecords
        exact absurd ⟨members, embedded, rfl, hembedded, hrecords⟩ (h records)
      · exact ⟨_, rfl, rfl⟩
    · exact ⟨_, rfl, rfl⟩
  · exact ⟨_, rfl, rfl⟩

/-! ## Responses -/

/-- The body is not nested too deeply for the reader, and the faults of its records are foreseen. -/
def ForeseenResponse (r : HorizonResponse) : Prop :=
  r.statusCode < 400 → (∀ message, r.json ≠ .error (.recursionError message)) ∧
    ∀ body records, r.json = .ok body → Records body records → Foreseen records

/-- The response is read as a page, or refused, for good if it is malformed. -/
def Answered (r : HorizonResponse) : Prop :=
  (∃ body blocks, r.json = .ok body ∧ PageOf body blocks ∧ readResponse r = .ok blocks) ∨
    ∃ e : BlockFetchError, readResponse r = .error (.fetch e) ∧ (Malformed r → e.retryable = false)

theorem readResponse_of_status {r : HorizonResponse} (h : r.statusCode < 400) :
    readResponse r =
      match r.json with
      | .error .valueError => .error (.fetch ⟨"Horizon returned invalid JSON", false, none⟩)
      | .error (.recursionError message) => .error (.other message)
      | .ok body => readBody body := by
  unfold readResponse
  rw [if_neg (by omega), if_neg (by omega)]

/-- The status alone refuses the response. -/
theorem readResponse_of_error_status {r : HorizonResponse} (h : ¬ r.statusCode < 400) :
    ∃ e, readResponse r = .error (.fetch e) := by
  unfold readResponse
  split_ifs with hretry hterminal
  · exact ⟨_, rfl⟩
  · exact ⟨_, rfl⟩
  · omega

theorem answered_iff_of_records {r : HorizonResponse} {body : Body} {records : List Body} (hstatus : r.statusCode < 400)
    (hjson : r.json = .ok body) (hrecords : Records body records) : Answered r ↔ Foreseen records := by
  have hread : readResponse r = readRecords 0 records := by
    rw [readResponse_of_status hstatus, hjson]
    exact readBody_of_records hrecords
  rw [readRecords_foreseen_iff, Answered, hread]
  constructor
  · rintro (⟨body', blocks, hjson', ⟨records', hrecords', hpage⟩, hblocks⟩ | ⟨e, he, hterminal⟩)
    · rw [hjson] at hjson'
      obtain rfl := Except.ok.inj hjson'
      obtain rfl := hrecords.unique hrecords'
      exact .inl ⟨blocks, hblocks, hpage⟩
    · refine .inr ⟨e, he, hterminal ⟨hstatus, ?_⟩⟩
      -- no page: the loop would have returned its blocks
      rintro body' blocks hjson' ⟨records', hrecords', hpage⟩
      rw [hjson] at hjson'
      obtain rfl := Except.ok.inj hjson'
      obtain rfl := hrecords.unique hrecords'
      rw [readRecords_of_forall₂ hpage 0] at he
      contradiction
  · rintro (⟨blocks, hblocks, hpage⟩ | ⟨e, he, hterminal⟩)
    · exact .inl ⟨body, blocks, hjson, ⟨records, hrecords, hpage⟩, hblocks⟩
    · exact .inr ⟨e, he, fun _ => hterminal⟩

theorem answered_iff (r : HorizonResponse) : Answered r ↔ ForeseenResponse r := by
  by_cases hstatus : r.statusCode < 400
  · have hread := readResponse_of_status hstatus
    cases hjson : r.json with
    | error e =>
        rw [hjson] at hread
        cases e with
        | valueError =>
            refine iff_of_true (.inr ⟨_, hread, fun _ => rfl⟩) fun _ => ⟨?_, ?_⟩
            · simp [hjson]
            · simp [hjson]
        | recursionError message =>
            refine iff_of_false ?_ fun h => (h hstatus).1 message hjson
            rintro (⟨body, blocks, hbody, -, -⟩ | ⟨e, he, -⟩)
            · rw [hjson] at hbody
              contradiction
            · rw [hread] at he
              cases he
    | ok body =>
        by_cases hrecords : ∃ records, Records body records
        · obtain ⟨records, hrecords⟩ := hrecords
          rw [answered_iff_of_records hstatus hjson hrecords]
          constructor
          · refine fun h _ => ⟨by simp [hjson], ?_⟩
            intro body' records' hjson' hrecords'
            rw [hjson] at hjson'
            obtain rfl := Except.ok.inj hjson'
            exact hrecords.unique hrecords' ▸ h
          · exact fun h => (h hstatus).2 body records hjson hrecords
        · rw [hjson] at hread
          obtain ⟨e, he, hterminal⟩ := readBody_of_no_records fun records h => hrecords ⟨records, h⟩
          refine iff_of_true (.inr ⟨e, hread.trans he, fun _ => hterminal⟩) fun _ => ⟨by simp [hjson], ?_⟩
          intro body' records hjson' h
          rw [hjson] at hjson'
          obtain rfl := Except.ok.inj hjson'
          exact absurd ⟨records, h⟩ hrecords
  · obtain ⟨e, he⟩ := readResponse_of_error_status hstatus
    exact iff_of_true (.inr ⟨e, he, fun hmalformed => absurd hmalformed.1 hstatus⟩) fun h => absurd h hstatus

/-- `fetch_blocks` and `poll_once` do with the response what they should: a fetch returns the blocks of its
records, one each and in order, or raises a `BlockFetchError`; one of a malformed body is not retryable, and a
poll that meets it first makes one attempt. -/
structure Handles (r : HorizonResponse) : Prop where
  fetched : ∀ client cursor limit, 1 ≤ limit → limit ≤ 200 → client ⟨"asc", limit, cursor⟩ = .response r →
    (∃ body blocks, r.json = .ok body ∧ PageOf body blocks ∧
      fetchBlocks client cursor limit = .blocks (blocks.map some)) ∨
    ∃ e, fetchBlocks client cursor limit = .raised e ∧ (Malformed r → e.retryable = false)
  polled : Malformed r → ∀ opts (env : PollEnv Body) p client,
    client ⟨"asc", opts.batchSize, p.cursor⟩ = .response r →
    env.fetchBlocks 1 p.cursor opts.batchSize = fetchBlocks client p.cursor opts.batchSize →
    attemptsMade opts env p.cursor = 1 ∧ ∃ e, (pollOnce opts env p).1 = .error (.fetch e) ∧ e.retryable = false

theorem fetchBlocks_of_response {client : LedgerParams → ClientOutcome} {cursor : Option String} {limit : ℕ}
    {r : HorizonResponse} (hlow : 1 ≤ limit) (hhigh : limit ≤ 200)
    (hclient : client ⟨"asc", limit, cursor⟩ = .response r) :
    fetchBlocks client cursor limit = toAnswer (readResponse r) := by
  unfold fetchBlocks
  rw [if_pos ⟨hlow, hhigh⟩, hclient]

theorem toAnswer_eq_blocks {outcome : Except FetchFailure (List (Block Body))} {blocks : List (Block Body)}
    (h : toAnswer outcome = .blocks (blocks.map some)) : outcome = .ok blocks := by
  match outcome with
  | .ok blocks' =>
      have hmap := List.map_injective_iff.mpr (Option.some_injective _) (Answer.blocks.inj h)
      rw [hmap]
  | .error (.fetch _) => contradiction
  | .error (.other _) => contradiction

theorem toAnswer_eq_raised {outcome : Except FetchFailure (List (Block Body))} {e : BlockFetchError}
    (h : toAnswer outcome = .raised e) : outcome = .error (.fetch e) := by
  match outcome with
  | .ok _ => contradiction
  | .error (.fetch _) => rw [Answer.raised.inj h]
  | .error (.other _) => contradiction

/-- A poll whose first answer is an error that is not retryable raises it after one attempt. -/
theorem poll_of_terminal {opts : PollerOptions} {env : PollEnv Body} {p : BlockPoller Body} {e : BlockFetchError}
    (h : env.fetchBlocks 1 p.cursor opts.batchSize = .raised e) (hterminal : e.retryable = false) :
    attemptsMade opts env p.cursor = 1 ∧ (pollOnce opts env p).1 = .error (.fetch e) := by
  have hattempt : attemptFetch (env.fetchBlocks 1 p.cursor opts.batchSize) = .error e := by rw [h]; rfl
  have hone : attemptsFrom opts env p.cursor (opts.maxAttempts - 1) 1 = 1 :=
    attemptsFrom_of_terminal hattempt hterminal
  refine ⟨hone, ?_⟩
  have hfetch : fetchWithRetry opts env p.cursor = .error e := by
    rw [fetchWithRetry, fetchLoop_eq, hone, hattempt]
    rfl
  unfold pollOnce
  rw [hfetch]

/-- For every response: it is handled as it should be exactly when its body is not nested too deeply for the
reader and every record has a block, or one is refused before any whose sequence is infinite or negative. -/
theorem handles_iff (r : HorizonResponse) : Handles r ↔ ForeseenResponse r := by
  rw [← answered_iff]
  constructor
  · intro h
    have hfetch : fetchBlocks (fun _ => .response r) none 1 = toAnswer (readResponse r) :=
      fetchBlocks_of_response le_rfl (by decide) rfl
    rcases h.fetched (fun _ => .response r) none 1 le_rfl (by decide) rfl with
      ⟨body, blocks, hjson, hpage, hblocks⟩ | ⟨e, he, hterminal⟩
    · exact .inl ⟨body, blocks, hjson, hpage, toAnswer_eq_blocks (hfetch.symm.trans hblocks)⟩
    · exact .inr ⟨e, toAnswer_eq_raised (hfetch.symm.trans he), hterminal⟩
  · intro h
    refine ⟨?_, ?_⟩
    · intro client cursor limit hlow hhigh hclient
      rw [fetchBlocks_of_response hlow hhigh hclient]
      rcases h with ⟨body, blocks, hjson, hpage, hblocks⟩ | ⟨e, he, hterminal⟩
      · exact .inl ⟨body, blocks, hjson, hpage, by rw [hblocks]; rfl⟩
      · exact .inr ⟨e, by rw [he]; rfl, hterminal⟩
    · intro hmalformed opts env p client hclient hfirst
      rw [fetchBlocks_of_response opts.batchSize_bounds.1 opts.batchSize_bounds.2 hclient] at hfirst
      rcases h with ⟨body, blocks, hjson, hpage, -⟩ | ⟨e, he, hterminal⟩
      · exact absurd hpage (hmalformed.2 body blocks hjson)
      · rw [he] at hfirst
        obtain ⟨hone, hraised⟩ := poll_of_terminal hfirst (hterminal hmalformed)
        exact ⟨hone, e, hraised, hterminal hmalformed⟩

/-- A page with one ledger. -/
def pageWith (sequence : Body) : HorizonResponse :=
  ⟨200, .ok (.dict [("_embedded", .dict [("records",
    .list [.dict [("paging_token", .str "1"), ("sequence", sequence)]])])])⟩

/-- What a poll meets when every attempt gets the response. -/
def pollMeeting (r : HorizonResponse) : PollEnv Body :=
  ⟨fun _ => fetchBlocks fun _ => .response r, none, sampleClock, sampleClock⟩

/-- `Infinity`, or a literal such as `1e400`, leaves `fetch_blocks` with an `OverflowError`, and the poller asks
for the page as often as it may. -/
theorem infinite_sequence_retried :
    ¬ Handles (pageWith (.float (.infinity false))) ∧
      attemptsMade sampleOptions (pollMeeting (pageWith (.float (.infinity false)))) none = 3 := by
  refine ⟨?_, rfl⟩
  intro h
  rcases h.fetched (fun _ => .response (pageWith (.float (.infinity false)))) none 1 le_rfl (by decide) rfl with
    ⟨_, _, -, -, hblocks⟩ | ⟨e, he, -⟩
  · contradiction
  · contradiction

end ApexChainx.Ledger.HorizonSource
