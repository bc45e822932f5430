import ApexChainx.Lib.JsonNesting
import ApexChainx.Outages.Cursor

/-!
# The cursor codec

`decode_cursor` (`app/utils/cursor.py`) on every text a client can send. The interpreter gives `json.loads` a
bound on how deeply the value may be nested; the bound is a parameter, and leaves room for an object.

The `except` clause names `ValueError` and `KeyError`. A value that is no object raises `TypeError` when it is
subscripted with `"id"`, and a value that is nested too deeply raises `RecursionError` while it is read.
-/

namespace ApexChainx.Outages

open ApexChainx.Lib

/-- What `decode_cursor` lets through. -/
inductive CursorException
  | typeError
  | recursionError
deriving DecidableEq, Repr

/-- The text of a cursor, if it has one. -/
def payloadText (cursor : Option String) : Option String :=
  match cursor with
  | none => none
  | some cursor => if cursor = "" then none else cursorText cursor.toList

/-- `decode_cursor` under a reader that goes at most `levels` brackets deep. -/
def decodeCursorWithin (levels : ℕ) (cursor : Option String) :
    Except CursorException (Option (JsonValue × JsonValue)) :=
  match payloadText cursor with
  | none => .ok none
  | some text =>
      if tooDeep levels text then .error .recursionError
      else
        match loads text with
        | none => .ok none
        | some payload =>
            match cursorMembers payload with
            | .ok pair => .ok pair
            | .error _ => .error .typeError

/-- Within the bound it is `decode_cursor`. -/
theorem decodeCursorWithin_eq {levels : ℕ} {cursor : Option String}
    (h : ∀ text, payloadText cursor = some text → tooDeep levels text = false) :
    decodeCursorWithin levels cursor =
      match decodeCursor cursor with
      | .ok pair => .ok pair
      | .error _ => .error .typeError := by
  unfold decodeCursorWithin decodeCursor
  cases cursor with
  | none => rfl
  | some cursor =>
      by_cases hempty : cursor = ""
      · subst hempty
        rfl
      · have hpayload : payloadText (some cursor) = cursorText cursor.toList := if_neg hempty
        rw [hpayload] at h ⊢
        simp only [if_neg hempty]
        cases htext : cursorText cursor.toList with
        | none => rfl
        | some text =>
            simp only [h text htext, Bool.false_eq_true, if_false, Option.bind_some]
            cases loads text with
            | none => rfl
            | some payload => rfl

/-- An object of strings is nested only once. -/
theorem tooDeep_cursorPayload (levels : ℕ) (idValue sortValue : String) :
    tooDeep (levels + 1) (cursorPayload idValue sortValue) = false := by
  have hcomma : ∀ cs, skipBlank (',' :: cs) = ',' :: cs := fun _ => rfl
  have hclose : skipBlank ['\x7d'] = ['\x7d'] := rfl
  have hblank : ∀ key rest, skipBlank (' ' :: (quoteAscii key ++ rest)) = quoteAscii key ++ rest := fun _ _ => rfl
  -- the object has two members, both with strings
  have hmembers : ∀ fuel, deepMembers fuel levels (quoteAscii "id" ++ ':' :: ' ' :: (quoteAscii idValue ++
      ',' :: ' ' :: (quoteAscii "v" ++ ':' :: ' ' :: (quoteAscii sortValue ++ ['\x7d'])))) = false := by
    intro fuel
    rcases fuel with _ | _ | fuel
    · rw [deepMembers]
    · rw [deepMembers_quoteAscii, hcomma]
      simp only [deepMembers]
    · rw [deepMembers_quoteAscii, hcomma]
      simp only [hblank]
      rw [deepMembers_quoteAscii, hclose]
      rfl
  rw [Bool.eq_false_iff]
  intro h
  obtain ⟨fuel, h⟩ := tooDeep_iff.mp h
  rw [cursorPayload, String.toList_ofList] at h
  cases fuel with
  | zero =>
      rw [deepValue] at h
      exact Bool.false_ne_true h
  | succ fuel => exact Bool.false_ne_true ((hmembers fuel).symm.trans h)

/-- What is encoded is decoded again. -/
theorem decodeCursorWithin_encodeCursor (levels : ℕ) (idValue sortValue : String) :
    decodeCursorWithin (levels + 1) (some (encodeCursor idValue sortValue))
      = .ok (some (.str idValue, .str sortValue)) := by
  have htext : ∀ text, payloadText (some (encodeCursor idValue sortValue)) = some text →
      tooDeep (levels + 1) text = false := by
    intro text h
    unfold payloadText at h
    dsimp only at h
    split_ifs at h
    rw [cursorText_encodeCursor] at h
    obtain rfl := Option.some.inj h
    exact tooDeep_cursorPayload levels idValue sortValue
  rw [decodeCursorWithin_eq htext, decodeCursor_encodeCursor]

/-- The cursor has no text, or one that is not nested too deeply and is either no JSON or an object. -/
def DecodesQuietly (levels : ℕ) (cursor : Option String) : Prop :=
  ∀ text, payloadText cursor = some text →
    tooDeep levels text = false ∧ ∀ payload, loads text = some payload → ∃ members, payload = .obj members

theorem cursorMembers_ok_iff (payload : JsonValue) :
    (∃ pair, cursorMembers payload = .ok pair) ↔ ∃ members, payload = .obj members := by
  constructor
  · rintro ⟨pair, h⟩
    unfold cursorMembers at h
    split at h
    · exact ⟨_, rfl⟩
    · contradiction
  · rintro ⟨members, rfl⟩
    exact ⟨_, rfl⟩

theorem decodeCursorWithin_ok_iff (levels : ℕ) (cursor : Option String) :
    (∃ decoded, decodeCursorWithin levels cursor = .ok decoded) ↔ DecodesQuietly levels cursor := by
  unfold decodeCursorWithin DecodesQuietly
  cases payloadText cursor with
  | none => simp
  | some text =>
      simp only [Option.some.injEq, forall_eq']
      cases hdeep : tooDeep levels text with
      | true => simp
      | false =>
          cases hloads : loads text with
          | none => simp
          | some payload =>
              simp only [Bool.false_eq_true, if_false, true_and, Option.some.injEq, forall_eq']
              rw [← cursorMembers_ok_iff]
              cases cursorMembers payload with
              | ok pair => simp
              | error e => simp

/-- For every bound of the reader: what is encoded is decoded again, for every id and sort value, and
`decode_cursor` returns, for every cursor there is, exactly when the text in it, if there is one, is not nested
too deeply and is no JSON or an object. -/
theorem cursor_codec (levels : ℕ) :
    (∀ idValue sortValue, decodeCursorWithin (levels + 1) (some (encodeCursor idValue sortValue))
      = .ok (some (.str idValue, .str sortValue))) ∧
    ∀ cursor, (∃ decoded, decodeCursorWithin (levels + 1) cursor = .ok decoded) ↔
      DecodesQuietly (levels + 1) cursor :=
  ⟨decodeCursorWithin_encodeCursor levels, decodeCursorWithin_ok_iff (levels + 1)⟩

/-- The cursor `W10` is an empty array, and decoding it raises `TypeError`. -/
theorem array_cursor_raises : decodeCursorWithin 900 (some "W10") = .error .typeError := by
  have hpayload : payloadText (some "W10") = some "[]" := by
    have hvalid : String.fromUTF8? "[]".toByteArray = some "[]" := by
      rw [String.fromUTF8?, dif_pos "[]".isValidUTF8]
      rfl
    exact hvalid
  have hloads : loads "[]" = some (.arr []) := rfl
  have hdeep : tooDeep 900 "[]" = false := rfl
  rw [decodeCursorWithin, hpayload]
  simp only [hdeep, hloads, Bool.false_eq_true, if_false, cursorMembers]

end ApexChainx.Outages
