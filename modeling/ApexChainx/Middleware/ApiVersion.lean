import Mathlib.Data.Prod.Lex
import ApexChainx.Auth.SprayDetection
import ApexChainx.Core.Error
import ApexChainx.Sla.Periods

/-!
# The version a client pins

`parse_api_version` and the checks of versions in `validate_critical_settings` (`app/core/config.py`), and the
middleware that reads the header `X-API-Version` by them (`app/middleware/api_version.py`).

`Spells` says which texts stand for which version. `int` refuses a number of more than 4300 digits; of such a text
the middleware makes no answer of its own. The versions of the settings and the commit are texts in Latin-1, which
headers are sent in: a version in the digits of another script passes startup, but no answer can be sent then.
-/

namespace ApexChainx.Middleware

open Auth.Detector (Trimmed Padded strip_padded)
open Lib
open Sla (decimalValue)

/-! ## Reading a version -/

/-- The tuples of `parse_api_version`, in their order. -/
abbrev ApiVersion := ℕ ×ₗ ℕ ×ₗ ℕ

/-- `part.isdecimal()`. -/
def isDecimal (part : List Char) : Bool := decide (part ≠ []) && part.all fun c => (decimalValue c.toNat).isSome

/-- The value of a text of decimal digits. -/
def numberOf (part : List Char) : ℕ := part.foldl (fun n c => 10 * n + (decimalValue c.toNat).getD 0) 0

/-- The digits that `int` reads at most. -/
def maxStrDigits : ℕ := 4300

/-- `int(part)`. -/
def readNumber (part : List Char) : Outcome ℕ :=
  if part.length ≤ maxStrDigits then .ok (numberOf part)
  else
    .error (.valueError ("Exceeds the limit (4300 digits) for integer string conversion: value has "
      ++ toString part.length ++ " digits; use sys.set_int_max_str_digits() to increase the limit"))

/-- The loop over the parts: their numbers, or nothing when one is not a number. -/
def readParts : List (List Char) → Outcome (Option (List ℕ))
  | [] => .ok (some [])
  | part :: parts =>
      if isDecimal part then
        match readNumber part with
        | .error e => .error e
        | .ok n =>
            match readParts parts with
            | .ok numbers => .ok (numbers.map (n :: ·))
            | .error e => .error e
      else .ok none

/-- The first three numbers, with zeros for those that are missing. -/
def versionOf (numbers : List ℕ) : ApiVersion :=
  toLex (numbers.getD 0 0, toLex (numbers.getD 1 0, numbers.getD 2 0))

/-- `str.removeprefix("v")`. -/
def removeMark : List Char → List Char
  | 'v' :: cs => cs
  | cs => cs

/-- `parse_api_version`. -/
def parseApiVersion (value : String) : Outcome (Option ApiVersion) :=
  let raw := strip (removeMark (strip value.toList))
  if raw = [] then .ok none
  else
    let parts := raw.splitOn '.'
    if 3 < parts.length then .ok none
    else
      match readParts parts with
      | .ok numbers => .ok (numbers.map versionOf)
      | .error e => .error e

/-! ## The settings and the middleware -/

/-- The settings that the middleware reads. -/
structure VersionSettings where
  version : String
  /-- `API_VERSION_MIN_SUPPORTED`. -/
  minSupported : String
  /-- `API_VERSION_MAX_SUPPORTED`. -/
  maxSupported : String
deriving DecidableEq, Repr

/-- What `validate_critical_settings` finds wrong about the versions. -/
def versionErrors (s : VersionSettings) : Outcome (List String) :=
  let empty := if strip s.version.toList = [] then ["VERSION must not be empty."] else []
  match parseApiVersion s.minSupported, parseApiVersion s.maxSupported, parseApiVersion s.version with
  | .error e, _, _ | _, .error e, _ | _, _, .error e => .error e
  | .ok min, .ok max, .ok current =>
      .ok (empty ++
        (if min = none then ["API_VERSION_MIN_SUPPORTED must be a dotted numeric version such as 1.0.0."] else []) ++
        (if max = none then ["API_VERSION_MAX_SUPPORTED must be a dotted numeric version such as 1.0.0."] else []) ++
        (if current = none then ["VERSION must be a dotted numeric version such as 1.0.0."] else []) ++
        (match min, max with
          | some lo, some hi =>
              if hi < lo then ["API_VERSION_MIN_SUPPORTED must not be greater than API_VERSION_MAX_SUPPORTED."] else []
          | _, _ => []) ++
        (match min, max, current with
          | some lo, some hi, some v =>
              if lo ≤ v ∧ v ≤ hi then []
              else ["VERSION must fall within [API_VERSION_MIN_SUPPORTED, API_VERSION_MAX_SUPPORTED]."]
          | _, _, _ => []))

/-- `supported_versions`. -/
def supportedVersions (s : VersionSettings) : List String := [s.minSupported, s.maxSupported]

/-- `_version_headers`. -/
def versionHeaders (s : VersionSettings) : List (String × String) :=
  [("X-API-Version", s.version), ("X-Supported-API-Versions", ",".intercalate (supportedVersions s))]

/-- The problem document of `_unsupported`, with its headers. -/
structure VersionProblem where
  type : String
  title : String
  status : ℕ
  detail : String
  path : String
  errorCode : String
  requestedVersion : String
  supportedVersions : List String
  currentVersion : String
  headers : List (String × String)
deriving DecidableEq, Repr

/-- `_unsupported`. -/
def unsupported (s : VersionSettings) (requested : String) (statusCode : ℕ) (detail path : String) :
    VersionProblem where
  type := "https://developer.apexchainx.io/errors/" ++ toString statusCode
  title := if statusCode = 426 then "Unsupported API Version" else "Invalid API Version"
  status := statusCode
  detail := detail
  path := path
  errorCode := "api_version_unsupported"
  requestedVersion := requested
  supportedVersions := supportedVersions s
  currentVersion := s.version
  headers := versionHeaders s

/-- `reject_unsupported_version`, with the header `X-API-Version` of the request. -/
def rejectUnsupportedVersion (s : VersionSettings) (path : String) (header : Option String) :
    Outcome (Option VersionProblem) :=
  match header with
  | none => .ok none
  | some requested =>
      if strip requested.toList = [] then .ok none
      else
        match parseApiVersion requested with
        | .error e => .error e
        | .ok none =>
            .ok (some (unsupported s requested 400
              ("Malformed X-API-Version header; expected a dotted numeric version such as " ++ s.version ++ ".") path))
        | .ok (some v) =>
            match parseApiVersion s.minSupported, parseApiVersion s.maxSupported with
            | .error e, _ | _, .error e => .error e
            | .ok min, .ok max =>
                if min.any fun lo => v < lo then
                  .ok (some (unsupported s requested 426 ("API version " ++ requested ++
                    " is no longer supported; this deployment serves " ++ s.minSupported ++ " through " ++
                    s.maxSupported ++ ".") path))
                else if max.any fun hi => hi < v then
                  .ok (some (unsupported s requested 426 ("API version " ++ requested ++
                    " is not available on this deployment; this deployment serves " ++ s.minSupported ++ " through " ++
                    s.maxSupported ++ ".") path))
                else .ok none

/-- What the middleware answers: a problem, or the response of the app with headers added. -/
inductive VersionReply
  | problem (p : VersionProblem)
  | served (headers : List (String × String))
deriving DecidableEq, Repr

/-- `ApiVersionMiddleware.dispatch`, with `GIT_COMMIT_SHA`. -/
def versionDispatch (s : VersionSettings) (commit : Option String) (path : String) (header : Option String) :
    Outcome VersionReply :=
  match rejectUnsupportedVersion s path header with
  | .error e => .error e
  | .ok (some p) => .ok (.problem p)
  | .ok none =>
      .ok (.served [("X-API-Version", s.version), ("X-API-Commit", commit.getD "unknown"),
        ("X-Supported-API-Versions", ",".intercalate (supportedVersions s))])

/-! ## Texts and versions -/

/-- The text of a number: decimal digits, not more than `int` reads. -/
def Numeral (part : List Char) : Prop :=
  part ≠ [] ∧ (∀ c ∈ part, (decimalValue c.toNat).isSome = true) ∧ part.length ≤ maxStrDigits

/-- One to three numbers with dots between, maybe after a `v`, and blanks around and after the `v`. -/
def Spells (text : String) (v : ApiVersion) : Prop :=
  ∃ (lead mark inner trail : List Char) (parts : List (List Char)),
    text.toList = lead ++ (mark ++ (inner ++ (['.'].intercalate parts ++ trail))) ∧
    (∀ c ∈ lead ++ inner ++ trail, isSpace c = true) ∧ (mark = [] ∨ mark = ['v']) ∧
    parts ≠ [] ∧ parts.length ≤ 3 ∧ (∀ part ∈ parts, Numeral part) ∧ v = versionOf (parts.map numberOf)

/-! ## Blanks and digits -/

variable {text : String} {v : ApiVersion} {cs part : List Char} {parts : List (List Char)} {c : Char}

theorem padded_strip (cs : List Char) : Padded (strip cs) cs := by
  refine ⟨cs.takeWhile isSpace, (cs.dropWhile isSpace).rtakeWhile isSpace, ?_, ?_, ?_⟩
  · exact fun c hc => List.mem_takeWhile_imp hc
  · exact fun c hc => List.mem_takeWhile_imp (List.mem_reverse.mp hc)
  · rw [strip, List.append_assoc, List.rdropWhile_append_rtakeWhile, List.takeWhile_append_dropWhile]

theorem trimmed_of_forall (h : ∀ c ∈ cs, isSpace c = false) : Trimmed cs := by
  refine ⟨fun c hc => ?_, fun c hc => ?_⟩
  · rw [h c (List.mem_of_head? hc)]
    exact Bool.false_ne_true
  · rw [h c (List.mem_of_getLast? hc)]
    exact Bool.false_ne_true

theorem length_strip_le (cs : List Char) : (strip cs).length ≤ cs.length := by
  obtain ⟨l, r, -, -, heq⟩ := padded_strip cs
  have hlength := congrArg List.length heq
  rw [List.length_append, List.length_append] at hlength
  omega

/-- A blank text is one that `strip` leaves nothing of. -/
theorem strip_eq_nil_iff : strip cs = [] ↔ ∀ c ∈ cs, isSpace c = true := by
  constructor
  · intro h
    obtain ⟨l, r, hl, hr, heq⟩ := padded_strip cs
    rw [h, List.append_nil] at heq
    rw [heq]
    exact fun c hc => (List.mem_append.mp hc).elim (hl c) (hr c)
  · intro h
    exact strip_padded (trimmed_of_forall nofun) ⟨cs, [], h, nofun, by simp⟩

theorem isSpace_of_decimal (h : (decimalValue c.toNat).isSome = true) : isSpace c = false := by
  have hall : ∀ base ∈ decimalZeros, ∀ k < 10, whitespace (base + k) = false := by decide +kernel
  obtain ⟨n, hn⟩ := Option.isSome_iff_exists.mp h
  obtain ⟨base, hbase, hvalue⟩ := List.exists_of_findSome?_eq_some hn
  obtain ⟨⟨hlo, hhi⟩, -⟩ := Option.ite_none_right_eq_some.mp hvalue
  have hspace := hall base hbase (c.toNat - base) (by omega)
  rw [Nat.add_sub_cancel' hlo] at hspace
  exact hspace

/-- Neither a dot nor a `v` is a digit. -/
theorem not_decimal (hc : c = '.' ∨ c = 'v') : (decimalValue c.toNat).isSome = false := by
  rcases hc with rfl | rfl <;> decide +kernel

/-! ## Numbers with dots between -/

theorem mem_intercalate (h : c ∈ ['.'].intercalate parts) : c = '.' ∨ ∃ part ∈ parts, c ∈ part := by
  induction parts with
  | nil => cases h
  | cons part parts ih =>
      cases parts with
      | nil =>
          rw [List.intercalate_singleton] at h
          exact .inr ⟨part, List.mem_cons_self, h⟩
      | cons part' parts =>
          rw [List.intercalate_cons_cons, List.mem_append, List.mem_append, List.mem_singleton] at h
          rcases h with (hfirst | rfl) | hrest
          · exact .inr ⟨part, List.mem_cons_self, hfirst⟩
          · exact .inl rfl
          · exact (ih hrest).imp_right fun ⟨p, hp, hc⟩ => ⟨p, List.mem_cons_of_mem _ hp, hc⟩

theorem length_le_intercalate (h : part ∈ parts) : part.length ≤ (['.'].intercalate parts).length := by
  induction parts with
  | nil => cases h
  | cons first parts ih =>
      cases parts with
      | nil => rw [List.mem_singleton.mp h, List.intercalate_singleton]
      | cons second parts =>
          rw [List.intercalate_cons_cons, List.length_append, List.length_append]
          rcases List.mem_cons.mp h with rfl | hrest
          · omega
          · exact (ih hrest).trans (Nat.le_add_left _ _)

/-- The text of a version between its `v` and the blanks after it. -/
theorem dotted_spec (hne : parts ≠ []) (hparts : ∀ part ∈ parts, Numeral part) :
    ['.'].intercalate parts ≠ [] ∧ ∀ c ∈ ['.'].intercalate parts, isSpace c = false ∧ c ≠ 'v' := by
  constructor
  · obtain ⟨part, hpart⟩ := List.exists_mem_of_ne_nil parts hne
    have hle := length_le_intercalate hpart
    have hpos : 0 < part.length := List.length_pos_of_ne_nil (hparts part hpart).1
    exact List.ne_nil_of_length_pos (hpos.trans_le hle)
  · intro c hc
    rcases mem_intercalate hc with rfl | ⟨part, hpart, hmem⟩
    · exact ⟨by decide, by decide⟩
    · have hdecimal := (hparts part hpart).2.1 c hmem
      refine ⟨isSpace_of_decimal hdecimal, ?_⟩
      rintro rfl
      rw [not_decimal (.inr rfl)] at hdecimal
      cases hdecimal

theorem isDecimal_iff : isDecimal part = true ↔ part ≠ [] ∧ ∀ c ∈ part, (decimalValue c.toNat).isSome = true := by
  rw [isDecimal, Bool.and_eq_true, decide_eq_true_eq, List.all_eq_true]

theorem readParts_eq_some_iff {numbers : List ℕ} :
    readParts parts = .ok (some numbers) ↔ (∀ part ∈ parts, Numeral part) ∧ numbers = parts.map numberOf := by
  induction parts generalizing numbers with
  | nil => simp [readParts, eq_comm]
  | cons part parts ih =>
      rw [readParts, List.forall_mem_cons, List.map_cons]
      by_cases hdecimal : isDecimal part = true
      · rw [if_pos hdecimal]
        unfold readNumber
        by_cases hlength : part.length ≤ maxStrDigits
        · rw [if_pos hlength]
          have hnumeral : Numeral part := ⟨(isDecimal_iff.mp hdecimal).1, (isDecimal_iff.mp hdecimal).2, hlength⟩
          cases hrest : readParts parts with
          | ok read =>
              cases read with
              | some rest =>
                  obtain ⟨hparts, rfl⟩ := ih.mp hrest
                  simp only [Option.map_some, Outcome.ok.injEq, Option.some.injEq]
                  exact ⟨fun h => ⟨⟨hnumeral, hparts⟩, h.symm⟩, fun h => h.2.symm⟩
              | none =>
                  refine ⟨nofun, fun h => ?_⟩
                  have hread := ih.mpr ⟨h.1.2, rfl⟩
                  rw [hrest] at hread
                  cases hread
          | error e =>
              refine ⟨nofun, fun h => ?_⟩
              have hread := ih.mpr ⟨h.1.2, rfl⟩
              rw [hrest] at hread
              cases hread
        · rw [if_neg hlength]
          refine ⟨nofun, ?_⟩
          rintro ⟨⟨hnumeral, -⟩, -⟩
          exact absurd hnumeral.2.2 hlength
      · rw [if_neg hdecimal]
        refine ⟨nofun, ?_⟩
        rintro ⟨⟨hnumeral, -⟩, -⟩
        exact absurd (isDecimal_iff.mpr ⟨hnumeral.1, hnumeral.2.1⟩) hdecimal

theorem readParts_eq_error {e : ApiError} (h : readParts parts = .error e) :
    ∃ part ∈ parts, maxStrDigits < part.length := by
  induction parts with
  | nil => cases h
  | cons part parts ih =>
      rw [readParts] at h
      split at h
      · unfold readNumber at h
        by_cases hlength : part.length ≤ maxStrDigits
        · rw [if_pos hlength] at h
          simp only at h
          split at h
          · cases h
          · rename_i e' hrest
            cases h
            obtain ⟨long, hlong, hlt⟩ := ih hrest
            exact ⟨long, List.mem_cons_of_mem _ hlong, hlt⟩
        · exact ⟨part, List.mem_cons_self, not_le.mp hlength⟩
      · cases h

theorem removeMark_spec (cs : List Char) :
    ∃ mark, (mark = [] ∨ mark = ['v']) ∧ cs = mark ++ removeMark cs := by
  unfold removeMark
  split
  · exact ⟨['v'], .inr rfl, rfl⟩
  · exact ⟨[], .inl rfl, rfl⟩

/-- What is left of a version without its blanks and its `v`. -/
theorem raw_of_spells {lead mark inner trail dotted : List Char}
    (htext : text.toList = lead ++ (mark ++ (inner ++ (dotted ++ trail))))
    (hblank : ∀ c ∈ lead ++ inner ++ trail, isSpace c = true) (hmark : mark = [] ∨ mark = ['v'])
    (hne : dotted ≠ []) (hdotted : ∀ c ∈ dotted, isSpace c = false ∧ c ≠ 'v') :
    strip (removeMark (strip text.toList)) = dotted := by
  have hlead : ∀ c ∈ lead, isSpace c = true := fun c hc => hblank c (by simp [hc])
  have hinner : ∀ c ∈ inner, isSpace c = true := fun c hc => hblank c (by simp [hc])
  have htrail : ∀ c ∈ trail, isSpace c = true := fun c hc => hblank c (by simp [hc])
  have htrimmed : Trimmed dotted := trimmed_of_forall fun c hc => (hdotted c hc).1
  rcases hmark with rfl | rfl
  · have hstrip : strip text.toList = dotted := by
      refine strip_padded htrimmed ⟨lead ++ inner, trail, ?_, htrail, by rw [htext]; simp⟩
      exact fun c hc => (List.mem_append.mp hc).elim (hlead c) (hinner c)
    obtain ⟨d, ds, rfl⟩ := List.exists_cons_of_ne_nil hne
    have hkeep : removeMark (d :: ds) = d :: ds := by
      unfold removeMark
      split
      · rename_i hv
        exact absurd (List.cons.inj hv).1 (hdotted d List.mem_cons_self).2
      · rfl
    rw [hstrip, hkeep]
    exact strip_padded htrimmed ⟨[], [], nofun, nofun, by simp⟩
  · have hstrip : strip text.toList = 'v' :: (inner ++ dotted) := by
      refine strip_padded ⟨?_, fun c hc => ?_⟩ ⟨lead, trail, hlead, htrail, by rw [htext]; simp⟩
      · rintro c ⟨⟩
        decide
      · rw [← List.cons_append, List.getLast?_append_of_ne_nil _ hne] at hc
        exact htrimmed.2 c hc
    rw [hstrip]
    exact strip_padded htrimmed ⟨inner, [], hinner, nofun, by simp [removeMark]⟩

/-- `parse_api_version` reads exactly the texts that spell a version, as that version. -/
theorem parseApiVersion_eq_some_iff : parseApiVersion text = .ok (some v) ↔ Spells text v := by
  constructor
  · intro h
    unfold parseApiVersion at h
    simp only at h
    split at h
    · cases h
    · split at h
      · cases h
      · rename_i hlength
        split at h
        · rename_i numbers hread
          obtain ⟨ns, rfl, rfl⟩ := Option.map_eq_some_iff.mp (Outcome.ok.inj h)
          obtain ⟨hparts, rfl⟩ := readParts_eq_some_iff.mp hread
          obtain ⟨lead, trail, hlead, htrail, htext⟩ := padded_strip text.toList
          obtain ⟨mark, hmark, hrest⟩ := removeMark_spec (strip text.toList)
          obtain ⟨inner, last, hinner, hlast, hraw⟩ := padded_strip (removeMark (strip text.toList))
          refine ⟨lead, mark, inner, last ++ trail, _, ?_, ?_, hmark, List.splitOn_ne_nil _ _, not_lt.mp hlength,
            hparts, rfl⟩
          · rw [List.intercalate_splitOn]
            conv_lhs => rw [htext, hrest, hraw]
            simp only [List.append_assoc]
          · intro c hc
            simp only [List.mem_append] at hc
            rcases hc with (hc | hc) | hc | hc
            · exact hlead c hc
            · exact hinner c hc
            · exact hlast c hc
            · exact htrail c hc
        · cases h
  · rintro ⟨lead, mark, inner, trail, parts, htext, hblank, hmark, hne, hlength, hparts, rfl⟩
    obtain ⟨hdotted, hchars⟩ := dotted_spec hne hparts
    have hraw := raw_of_spells htext hblank hmark hdotted hchars
    have hsplit : (['.'].intercalate parts).splitOn '.' = parts := by
      refine List.splitOn_intercalate '.' (fun part hpart hdot => ?_) hne
      have hdecimal := (hparts part hpart).2.1 '.' hdot
      rw [not_decimal (.inl rfl)] at hdecimal
      cases hdecimal
    unfold parseApiVersion
    simp only [hraw, if_neg hdotted, hsplit, if_neg (not_lt.mpr hlength),
      readParts_eq_some_iff.mpr ⟨hparts, rfl⟩, Option.map_some]

/-- `int` refuses no number of a text that is not longer than the longest number. -/
theorem length_of_parse_error {e : ApiError} (h : parseApiVersion text = .error e) :
    maxStrDigits < text.toList.length := by
  unfold parseApiVersion at h
  simp only at h
  split at h
  · cases h
  · split at h
    · cases h
    · split at h
      · cases h
      · rename_i e' hread
        obtain ⟨part, hpart, hlong⟩ := readParts_eq_error hread
        have hle := length_le_intercalate hpart
        rw [List.intercalate_splitOn] at hle
        obtain ⟨mark, -, hrest⟩ := removeMark_spec (strip text.toList)
        have houter := length_strip_le text.toList
        have hinner := length_strip_le (removeMark (strip text.toList))
        have hmark := congrArg List.length hrest
        rw [List.length_append] at hmark
        omega

/-! ## What a client is answered -/

variable {s : VersionSettings} {commit header : Option String} {path : String}

/-- The request does not pin a version. -/
def Unpinned (header : Option String) : Prop := ∀ t ∈ header, ∀ c ∈ t.toList, isSpace c = true

/-- The request pins the version. -/
def Pins (header : Option String) (v : ApiVersion) : Prop := ∃ t, header = some t ∧ Spells t v

theorem parse_blank (h : strip text.toList = []) : parseApiVersion text = .ok none := by
  unfold parseApiVersion
  rw [h]
  rfl

/-- Settings that pass are of a version between two others. -/
theorem range_of_valid (h : versionErrors s = .ok []) :
    ∃ lo v hi, parseApiVersion s.minSupported = .ok (some lo) ∧ parseApiVersion s.maxSupported = .ok (some hi) ∧
      parseApiVersion s.version = .ok (some v) ∧ lo ≤ v ∧ v ≤ hi := by
  unfold versionErrors at h
  cases hmin : parseApiVersion s.minSupported with
  | error e =>
      rw [hmin] at h
      cases h
  | ok min =>
      cases hmax : parseApiVersion s.maxSupported with
      | error e =>
          rw [hmin, hmax] at h
          cases h
      | ok max =>
          cases hcurrent : parseApiVersion s.version with
          | error e =>
              rw [hmin, hmax, hcurrent] at h
              cases h
          | ok current =>
              rw [hmin, hmax, hcurrent] at h
              have hnil := Outcome.ok.inj h
              simp only [List.append_eq_nil_iff] at hnil
              obtain ⟨⟨⟨⟨⟨-, hlo⟩, hhi⟩, hv⟩, -⟩, hrange⟩ := hnil
              cases min with
              | none => simp at hlo
              | some lo =>
                  cases max with
                  | none => simp at hhi
                  | some hi =>
                      cases current with
                      | none => simp at hv
                      | some v =>
                          simp only [ite_eq_left_iff, List.cons_ne_nil, imp_false, not_not] at hrange
                          exact ⟨lo, v, hi, rfl, rfl, rfl, hrange⟩

/-- The answer to a text that is not blank, by what is read off it. -/
theorem versionDispatch_some (commit : Option String) (path : String) {lo hi : ApiVersion}
    (hlo : parseApiVersion s.minSupported = .ok (some lo))
    (hhi : parseApiVersion s.maxSupported = .ok (some hi)) (htext : strip text.toList ≠ []) :
    (∀ e, parseApiVersion text = .error e → versionDispatch s commit path (some text) = .error e) ∧
    (parseApiVersion text = .ok none →
      ∃ p, versionDispatch s commit path (some text) = .ok (.problem p) ∧ p.status = 400) ∧
    ∀ v, parseApiVersion text = .ok (some v) →
      ((v < lo ∨ hi < v) ∧ ∃ p, versionDispatch s commit path (some text) = .ok (.problem p) ∧ p.status = 426) ∨
      ((lo ≤ v ∧ v ≤ hi) ∧ ∃ headers, versionDispatch s commit path (some text) = .ok (.served headers)) := by
  refine ⟨fun e h => ?_, fun h => ?_, fun v h => ?_⟩
  · simp only [versionDispatch, rejectUnsupportedVersion, if_neg htext, h]
  · simp only [versionDispatch, rejectUnsupportedVersion, if_neg htext, h]
    exact ⟨_, rfl, rfl⟩
  · simp only [versionDispatch, rejectUnsupportedVersion, if_neg htext, h, hlo, hhi, Option.any_some, decide_eq_true_eq]
    by_cases hlow : v < lo
    · simp only [if_pos hlow]
      exact .inl ⟨.inl hlow, _, rfl, rfl⟩
    · by_cases hhigh : hi < v
      · simp only [if_neg hlow, if_pos hhigh]
        exact .inl ⟨.inr hhigh, _, rfl, rfl⟩
      · simp only [if_neg hlow, if_neg hhigh]
        exact .inr ⟨⟨not_lt.mp hlow, not_lt.mp hhigh⟩, _, rfl⟩

/-- What a header pins, if anything, and what it is answered. -/
inductive Negotiated (s : VersionSettings) (commit : Option String) (path : String) (lo hi : ApiVersion)
    (header : Option String) : Prop
  | unpinned (hblank : Unpinned header) (hnone : ∀ v, ¬ Pins header v) (headers : List (String × String))
      (hserved : versionDispatch s commit path header = .ok (.served headers))
  | within (v : ApiVersion) (hpins : ∀ v', Pins header v' ↔ v' = v) (hrange : lo ≤ v ∧ v ≤ hi)
      (headers : List (String × String)) (hserved : versionDispatch s commit path header = .ok (.served headers))
  | outside (hpinned : ¬ Unpinned header) (v : ApiVersion) (hpins : ∀ v', Pins header v' ↔ v' = v)
      (hrange : v < lo ∨ hi < v) (p : VersionProblem)
      (hproblem : versionDispatch s commit path header = .ok (.problem p)) (hstatus : p.status = 426)
  | malformed (hpinned : ¬ Unpinned header) (hnone : ∀ v, ¬ Pins header v) (p : VersionProblem)
      (hproblem : versionDispatch s commit path header = .ok (.problem p)) (hstatus : p.status = 400)
  | overlong (hpinned : ¬ Unpinned header) (hnone : ∀ v, ¬ Pins header v) (t : String) (ht : header = some t)
      (hlong : maxStrDigits < t.toList.length) (e : ApiError) (herror : versionDispatch s commit path header = .error e)

theorem pins_some {t : String} : Pins (some t) v ↔ parseApiVersion t = .ok (some v) := by
  rw [parseApiVersion_eq_some_iff]
  exact ⟨fun ⟨_, ht, h⟩ => Option.some.inj ht ▸ h, fun h => ⟨t, rfl, h⟩⟩

theorem unpinned_some {t : String} : Unpinned (some t) ↔ strip t.toList = [] := by
  rw [strip_eq_nil_iff]
  exact ⟨fun h => h t rfl, fun h _ ht => Option.some.inj ht ▸ h⟩

theorem negotiated (commit : Option String) (path : String) {lo hi : ApiVersion}
    (hlo : parseApiVersion s.minSupported = .ok (some lo)) (hhi : parseApiVersion s.maxSupported = .ok (some hi))
    (header : Option String) : Negotiated s commit path lo hi header := by
  cases header with
  | none => exact .unpinned nofun (fun v ⟨t, ht, _⟩ => nomatch ht) _ rfl
  | some t =>
      by_cases hblank : strip t.toList = []
      · have hserved : ∃ headers, versionDispatch s commit path (some t) = .ok (.served headers) := by
          simp only [versionDispatch, rejectUnsupportedVersion, if_pos hblank]
          exact ⟨_, rfl⟩
        obtain ⟨headers, hserved⟩ := hserved
        refine .unpinned (unpinned_some.mpr hblank) (fun v hpins => ?_) headers hserved
        rw [pins_some, parse_blank hblank] at hpins
        cases hpins
      · obtain ⟨herror, hmalformed, hversion⟩ := versionDispatch_some commit path hlo hhi hblank
        have hpinned : ¬ Unpinned (some t) := fun h => hblank (unpinned_some.mp h)
        cases hparse : parseApiVersion t with
        | error e =>
            refine .overlong hpinned (fun v hpins => ?_) t rfl (length_of_parse_error hparse) e (herror e hparse)
            rw [pins_some, hparse] at hpins
            cases hpins
        | ok read =>
            cases read with
            | none =>
                obtain ⟨p, hproblem, hstatus⟩ := hmalformed hparse
                refine .malformed hpinned (fun v hpins => ?_) p hproblem hstatus
                rw [pins_some, hparse] at hpins
                cases hpins
            | some v =>
                have hpins : ∀ v', Pins (some t) v' ↔ v' = v := by
                  intro v'
                  rw [pins_some, hparse, Outcome.ok.injEq, Option.some.injEq, eq_comm]
                rcases hversion v hparse with ⟨hrange, p, hproblem, hstatus⟩ | ⟨hrange, headers, hserved⟩
                · exact .outside hpinned v hpins hrange p hproblem hstatus
                · exact .within v hpins hrange headers hserved

/-- Under settings that startup accepts: a request is served exactly when it pins no version or one that the settings
support, in whatever spelling, and told so exactly when it pins another. Of the other texts none spells a version;
they are answered 400, save that one longer than the longest number can make `int` fail. -/
theorem negotiation_iff (hvalid : versionErrors s = .ok []) (commit : Option String) (path : String) :
    ∃ lo hi, Spells s.minSupported lo ∧ Spells s.maxSupported hi ∧ lo ≤ hi ∧ ∀ header,
      ((∃ headers, versionDispatch s commit path header = .ok (.served headers)) ↔
        Unpinned header ∨ ∃ v, Pins header v ∧ lo ≤ v ∧ v ≤ hi) ∧
      ((∃ p, versionDispatch s commit path header = .ok (.problem p) ∧ p.status = 426) ↔
        ∃ v, Pins header v ∧ (v < lo ∨ hi < v)) ∧
      ((¬ Unpinned header ∧ ∀ v, ¬ Pins header v) ↔
        (∃ p, versionDispatch s commit path header = .ok (.problem p) ∧ p.status = 400) ∨
          ∃ t e, header = some t ∧ maxStrDigits < t.toList.length ∧
            versionDispatch s commit path header = .error e) := by
  obtain ⟨lo, v, hi, hlo, hhi, -, hlov, hvhi⟩ := range_of_valid hvalid
  refine ⟨lo, hi, parseApiVersion_eq_some_iff.mp hlo, parseApiVersion_eq_some_iff.mp hhi, hlov.trans hvhi, ?_⟩
  intro header
  cases negotiated commit path hlo hhi header with
  | unpinned hblank hnone headers hserved => simp [hserved, hblank, hnone]
  | within v hpins hrange headers hserved =>
      simp [hserved, hpins, hrange.1, hrange.2, not_lt.mpr hrange.1, not_lt.mpr hrange.2]
  | outside hpinned v hpins hrange p hproblem hstatus =>
      have hout : lo ≤ v → hi < v := fun hle => hrange.resolve_left (not_lt.mpr hle)
      simpa [hproblem, hstatus, hpinned, hpins, hrange] using hout
  | malformed hpinned hnone p hproblem hstatus => simp [hproblem, hstatus, hpinned, hnone]
  | overlong hpinned hnone t ht hlong e herror =>
      subst ht
      simp [herror, hpinned, hnone, hlong]

/-! ## What a client is told -/

def VersionReply.headers : VersionReply → List (String × String)
  | .problem p => p.headers
  | .served headers => headers

/-- The value of a header that the middleware sets. -/
def VersionReply.value (reply : VersionReply) (name : String) : Option String :=
  (reply.headers.find? fun h => decide (h.1 = name)).map Prod.snd

/-- The versions that an answer names: its own, and those in the list of supported versions. -/
def VersionReply.advertised (reply : VersionReply) : List String :=
  (reply.value "X-API-Version").toList ++
    (reply.value "X-Supported-API-Versions").toList.flatMap fun t => (t.toList.splitOn ',').map String.ofList

theorem rejectUnsupportedVersion_headers {p : VersionProblem}
    (h : rejectUnsupportedVersion s path header = .ok (some p)) : p.headers = versionHeaders s := by
  unfold rejectUnsupportedVersion at h
  split at h
  · cases h
  · split at h
    · cases h
    · split at h
      · cases h
      · cases h
        rfl
      · split at h
        · cases h
        · cases h
        · split at h
          · cases h
            rfl
          · split at h
            · cases h
              rfl
            · cases h

theorem value_of_dispatch {reply : VersionReply} (h : versionDispatch s commit path header = .ok reply) :
    reply.value "X-API-Version" = some s.version ∧
      reply.value "X-Supported-API-Versions" = some (",".intercalate (supportedVersions s)) := by
  unfold versionDispatch at h
  split at h
  · cases h
  · rename_i p hp
    cases h
    have hheaders : (VersionReply.problem p).headers = versionHeaders s := rejectUnsupportedVersion_headers hp
    simp [VersionReply.value, hheaders, versionHeaders]
  · cases h
    simp [VersionReply.value, VersionReply.headers]

theorem comma_notMem (h : Spells text v) : ',' ∉ text.toList := by
  obtain ⟨lead, mark, inner, trail, parts, htext, hblank, hmark, hne, -, hparts, -⟩ := h
  have hspace : isSpace ',' = false := by decide
  rw [htext]
  intro hmem
  simp only [List.mem_append] at hmem hblank
  have hnotBlank : ¬ ((',' ∈ lead ∨ ',' ∈ inner) ∨ ',' ∈ trail) := fun h => by
    rw [hblank ',' h] at hspace
    cases hspace
  rcases hmem with h | h | h | h | h
  · exact hnotBlank (.inl (.inl h))
  · rcases hmark with rfl | rfl <;> simp at h
  · exact hnotBlank (.inl (.inr h))
  · rcases mem_intercalate h with hdot | ⟨part, hpart, hcomma⟩
    · cases hdot
    · have hdecimal := (hparts part hpart).2.1 ',' hcomma
      have hnone : (decimalValue ','.toNat).isSome = false := by decide +kernel
      rw [hnone] at hdecimal
      cases hdecimal
  · exact hnotBlank (.inr h)

/-- Every answer names the version and the two ends of the range. -/
theorem advertised_eq {lo hi : ApiVersion} (hlo : Spells s.minSupported lo) (hhi : Spells s.maxSupported hi)
    {reply : VersionReply} (h : versionDispatch s commit path header = .ok reply) :
    reply.advertised = [s.version, s.minSupported, s.maxSupported] := by
  obtain ⟨hversion, hsupported⟩ := value_of_dispatch h
  have htext : (",".intercalate (supportedVersions s)).toList
      = s.minSupported.toList ++ ',' :: s.maxSupported.toList := by
    rw [String.toList_intercalate]
    simp [supportedVersions]
  have hsplit : (",".intercalate (supportedVersions s)).toList.splitOn ','
      = [s.minSupported.toList, s.maxSupported.toList] := by
    rw [htext, List.splitOn_append_cons_self_of_not_mem (comma_notMem hlo),
      List.splitOn_eq_singleton (comma_notMem hhi)]
  rw [VersionReply.advertised, hversion, hsupported, Option.toList_some, Option.toList_some, List.flatMap_singleton,
    hsplit, List.map_cons, List.map_singleton, String.ofList_toList, String.ofList_toList]
  rfl

/-- Under settings that startup accepts, a client that pins a version that any answer names is served. -/
theorem advertised_served (hvalid : versionErrors s = .ok []) {reply : VersionReply}
    (h : versionDispatch s commit path header = .ok reply) :
    ∀ t ∈ reply.advertised, ∃ headers, versionDispatch s commit path (some t) = .ok (.served headers) := by
  obtain ⟨lo, v, hi, hlo, hhi, hv, hlov, hvhi⟩ := range_of_valid hvalid
  have hserved : ∀ {t v'}, parseApiVersion t = .ok (some v') → lo ≤ v' → v' ≤ hi →
      ∃ headers, versionDispatch s commit path (some t) = .ok (.served headers) := by
    intro t v' ht hlow hhigh
    cases negotiated commit path hlo hhi (some t) with
    | unpinned _ hnone => exact absurd (pins_some.mpr ht) (hnone v')
    | within _ _ _ headers hserved => exact ⟨headers, hserved⟩
    | outside _ w hpins hrange =>
        rw [← (hpins v').mp (pins_some.mpr ht)] at hrange
        exact absurd hrange (not_or.mpr ⟨not_lt.mpr hlow, not_lt.mpr hhigh⟩)
    | malformed _ hnone => exact absurd (pins_some.mpr ht) (hnone v')
    | overlong _ hnone => exact absurd (pins_some.mpr ht) (hnone v')
  rw [advertised_eq (parseApiVersion_eq_some_iff.mp hlo) (parseApiVersion_eq_some_iff.mp hhi) h]
  intro t ht
  simp only [List.mem_cons, List.not_mem_nil, or_false] at ht
  rcases ht with rfl | rfl | rfl
  · exact hserved hv hlov hvhi
  · exact hserved hlo le_rfl (hlov.trans hvhi)
  · exact hserved hhi (hlov.trans hvhi) le_rfl

/-- Every minor version of the second major version. -/
def sampleVersions : VersionSettings := ⟨"v2.5.1", "2", "2.9"⟩

theorem sampleVersions_valid : versionErrors sampleVersions = .ok [] := by decide +kernel

theorem negotiation_iff_sample :
    ∃ lo hi, Spells "2" lo ∧ Spells "2.9" hi ∧ ((∃ headers,
      versionDispatch sampleVersions none "/probe" (some " 2.5 ") = .ok (.served headers)) ↔
        Unpinned (some " 2.5 ") ∨ ∃ v, Pins (some " 2.5 ") v ∧ lo ≤ v ∧ v ≤ hi) := by
  obtain ⟨lo, hi, hlo, hhi, -, hall⟩ := negotiation_iff sampleVersions_valid none "/probe"
  exact ⟨lo, hi, hlo, hhi, (hall (some " 2.5 ")).1⟩

theorem advertised_served_sample :
    ∃ headers, versionDispatch sampleVersions none "/probe" (some "v2.5.1") = .ok (.served headers) := by
  have hreply : versionDispatch sampleVersions none "/probe" none = .ok (.served
      [("X-API-Version", "v2.5.1"), ("X-API-Commit", "unknown"), ("X-Supported-API-Versions", "2,2.9")]) := by
    decide +kernel
  exact advertised_served sampleVersions_valid hreply "v2.5.1" (by decide +kernel)

end ApexChainx.Middleware
