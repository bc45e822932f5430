import ApexChainx.Core.Error
import ApexChainx.Lib.Base64
import ApexChainx.Lib.JsonReader

/-!
# Page cursors

`app/utils/cursor.py`. A cursor is the id and the sort value of the last row of a page, as a JSON object,
as URL-safe base64 without its padding.
-/

namespace ApexChainx.Outages

open ApexChainx.Lib

/-- `json.dumps` of the cursor object, with `sort_keys`. -/
def cursorPayload (idValue sortValue : String) : String :=
  String.ofList ('\x7b' :: (quoteAscii "id" ++ ':' :: ' ' :: (quoteAscii idValue ++ ',' :: ' ' ::
    (quoteAscii "v" ++ ':' :: ' ' :: (quoteAscii sortValue ++ ['\x7d'])))))

/-- `encode_cursor`. -/
def encodeCursor (idValue sortValue : String) : String :=
  String.ofList (Base64.strip (Base64.encode (cursorPayload idValue sortValue).toByteArray.data.toList))

/-- `payload["id"], payload["v"]`: a missing key is caught, and a payload that is no object raises
`TypeError`, which is not. -/
def cursorMembers : JsonValue → Outcome (Option (JsonValue × JsonValue))
  | .obj members =>
      .ok (do
        let idValue ← JsonValue.member members "id"
        let sortValue ← JsonValue.member members "v"
        some (idValue, sortValue))
  | _ => .error (.typeError "payload is not subscriptable by a string")

/-- The text inside a cursor; `none` for the `ValueError` of a text that is no ASCII, no base64 or no
UTF-8. -/
def cursorText (cursor : List Char) : Option String := do
  if cursor.all (·.toNat < 128) then
    let bytes ← Base64.decode (Base64.pad cursor)
    String.fromUTF8? ⟨bytes.toArray⟩
  else none

/-- `decode_cursor`. -/
def decodeCursor (cursor : Option String) : Outcome (Option (JsonValue × JsonValue)) :=
  match cursor with
  | none => .ok none
  | some cursor =>
      if cursor = "" then .ok none
      else
        match (cursorText cursor.toList).bind loads with
        | none => .ok none
        | some payload => cursorMembers payload

theorem cursorText_encodeCursor (idValue sortValue : String) :
    cursorText (encodeCursor idValue sortValue).toList = some (cursorPayload idValue sortValue) := by
  have hascii : (encodeCursor idValue sortValue).toList.all (·.toNat < 128) = true := by
    rw [encodeCursor, String.toList_ofList, List.all_eq_true]
    exact fun c hc => decide_eq_true (Base64.ascii_of_mem_strip_encode hc)
  unfold cursorText
  rw [if_pos hascii, encodeCursor, String.toList_ofList, Base64.pad_strip_encode, Base64.decode_encode]
  -- what the payload is does not matter any more
  generalize cursorPayload idValue sortValue = payload
  simp only [Option.bind_eq_bind, Option.bind_some, Array.toArray_toList]
  rw [String.fromUTF8?, dif_pos payload.isValidUTF8]
  rfl

theorem loads_cursorPayload (idValue sortValue : String) :
    loads (cursorPayload idValue sortValue)
      = some (.obj [("id", .str idValue), ("v", .str sortValue)]) := by
  set tail := quoteAscii idValue ++ ',' :: ' ' :: (quoteAscii "v" ++ ':' :: ' ' ::
    (quoteAscii sortValue ++ ['\x7d'])) with htail
  obtain ⟨n, hn⟩ : ∃ n, (cursorPayload idValue sortValue).length + 1 = n + 5 := by
    refine ⟨(cursorPayload idValue sortValue).length - 4, ?_⟩
    have hlength : 4 ≤ (cursorPayload idValue sortValue).length := by
      rw [cursorPayload, String.length_ofList]
      simp only [quoteAscii, List.length_cons, List.length_append]
      omega
    omega
  have hopen : skipBlank (cursorPayload idValue sortValue).toList
      = '\x7b' :: (quoteAscii "id" ++ ':' :: ' ' :: tail) := by
    rw [cursorPayload, String.toList_ofList]
    rfl
  have hvalue : readValue (n + 5) ('\x7b' :: (quoteAscii "id" ++ ':' :: ' ' :: tail))
      = some (.obj [("id", .str idValue), ("v", .str sortValue)], []) := by
    have hcomma : ∀ cs, skipBlank (',' :: cs) = ',' :: cs := fun _ => rfl
    have hmembers : readMembers (n + 4) (quoteAscii "id" ++ ':' :: ' ' :: tail)
        = some ([("id", .str idValue), ("v", .str sortValue)], []) := by
      rw [htail, readMembers_quoteAscii]
      simp only [hcomma]
      rw [show skipBlank (' ' :: (quoteAscii "v" ++ ':' :: ' ' :: (quoteAscii sortValue ++ ['\x7d'])))
        = quoteAscii "v" ++ ':' :: ' ' :: (quoteAscii sortValue ++ ['\x7d']) from rfl,
        readMembers_quoteAscii]
      rfl
    rw [readValue_object, hmembers]
    rfl
  unfold loads
  rw [hn, hopen, hvalue]
  rfl

/-- What is encoded is decoded again. -/
theorem decodeCursor_encodeCursor (idValue sortValue : String) :
    decodeCursor (some (encodeCursor idValue sortValue))
      = .ok (some (.str idValue, .str sortValue)) := by
  have htext := cursorText_encodeCursor idValue sortValue
  have hne : encodeCursor idValue sortValue ≠ "" := by
    intro h
    have hempty : cursorText "".toList = some "" := by
      show String.fromUTF8? "".toByteArray = some ""
      rw [String.fromUTF8?, dif_pos "".isValidUTF8]
      rfl
    rw [h, hempty, Option.some.injEq] at htext
    have hlength : (cursorPayload idValue sortValue).length = 0 := by
      rw [← htext]
      rfl
    rw [cursorPayload, String.length_ofList, List.length_cons] at hlength
    cases hlength
  unfold decodeCursor
  simp only [if_neg hne, htext, Option.bind_some, loads_cursorPayload]
  rfl

end ApexChainx.Outages
