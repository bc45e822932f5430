import Mathlib.Data.List.Sort
import ApexChainx.Lib.Json

/-!
# Objects in a fixed member order

`Json.orderBy` puts the members of every object into the order of their keys, for any order of keys: what a
store does that keeps objects and not their texts. Ordering twice is ordering once.

`ObjectOrder` is the order in which a JavaScript program sees the members of an object that PostgreSQL kept
as `jsonb`: the array indices first and ascending, the other keys by length and then by bytes.
-/

namespace ApexChainx.Lib

namespace Json

section OrderBy

variable (le : String → String → Prop) [DecidableRel le]

mutual

/-- The value with the members of every object in order. -/
def orderBy : Json → Json
  | .null => .null
  | .bool b => .bool b
  | .num n => .num n
  | .str s => .str s
  | .arr xs => .arr (orderElems xs)
  | .obj ms => .obj ((orderMembers ms).insertionSort fun a b => le a.1 b.1)

def orderElems : List Json → List Json
  | [] => []
  | x :: xs => x.orderBy :: orderElems xs

def orderMembers : List (String × Json) → List (String × Json)
  | [] => []
  | (k, v) :: ms => (k, v.orderBy) :: orderMembers ms

end

/-- Members that are in order already stay as they are. -/
theorem orderMembers_eq_self {ms : List (String × Json)} (h : ∀ m ∈ ms, m.2.orderBy le = m.2) :
    orderMembers le ms = ms := by
  induction ms with
  | nil => rfl
  | cons m ms ih =>
      obtain ⟨k, v⟩ := m
      rw [orderMembers, h (k, v) List.mem_cons_self, ih fun m hm => h m (List.mem_cons_of_mem _ hm)]

variable (htotal : ∀ a b, le a b ∨ le b a) (htrans : ∀ a b c, le a b → le b c → le a c)

set_option linter.unusedSectionVars false

include htotal htrans

/-- Sorting by the keys a second time. -/
theorem insertionSort_key_idem (ms : List (String × Json)) :
    (ms.insertionSort fun a b => le a.1 b.1).insertionSort (fun a b => le a.1 b.1)
      = ms.insertionSort fun a b => le a.1 b.1 := by
  have htotal' : Std.Total fun a b : String × Json => le a.1 b.1 := ⟨fun a b => htotal a.1 b.1⟩
  have htrans' : IsTrans (String × Json) fun a b => le a.1 b.1 := ⟨fun a b c => htrans a.1 b.1 c.1⟩
  exact (List.pairwise_insertionSort _ ms).insertionSort_eq

mutual

theorem orderBy_orderBy : ∀ j : Json, (j.orderBy le).orderBy le = j.orderBy le
  | .null => rfl
  | .bool _ => rfl
  | .num _ => rfl
  | .str _ => rfl
  | .arr xs => by simp only [orderBy, orderElems_orderElems xs]
  | .obj ms => by
      have hmem : ∀ m ∈ (orderMembers le ms).insertionSort (fun a b => le a.1 b.1),
          m.2.orderBy le = m.2 := fun m hm =>
        orderBy_of_mem_orderMembers ms m ((List.mem_insertionSort _).mp hm)
      simp only [orderBy]
      rw [orderMembers_eq_self le hmem, insertionSort_key_idem le htotal htrans]

theorem orderElems_orderElems : ∀ xs : List Json, orderElems le (orderElems le xs) = orderElems le xs
  | [] => rfl
  | x :: xs => by simp only [orderElems, orderBy_orderBy x, orderElems_orderElems xs]

theorem orderBy_of_mem_orderMembers :
    ∀ (ms : List (String × Json)), ∀ m ∈ orderMembers le ms, m.2.orderBy le = m.2
  | [], _, hm => absurd hm List.not_mem_nil
  | (k, v) :: ms, m, hm => by
      rcases List.mem_cons.mp hm with rfl | hrest
      · exact orderBy_orderBy v
      · exact orderBy_of_mem_orderMembers ms m hrest

end

end OrderBy

end Json

/-! ## The order of a JavaScript program -/

/-- The array index that a key is, if it is one. -/
def arrayIndex? (key : String) : Option ℕ :=
  let cs := key.toList
  let n := cs.foldl (fun n c => 10 * n + (c.toNat - '0'.toNat)) 0
  if !cs.isEmpty && cs.all Char.isDigit && (cs.length = 1 || cs.head? ≠ some '0') && n < 2 ^ 32 - 1 then some n
  else none

/-- Where a key stands, compared from the left. -/
def keyRank (key : String) : List ℕ :=
  match arrayIndex? key with
  | some n => [0, n]
  | none => 1 :: key.toUTF8.size :: key.toUTF8.toList.map UInt8.toNat

/-- The order of the members of an object that is read back. -/
def ObjectOrder (a b : String) : Prop := keyRank a ≤ keyRank b

instance : DecidableRel ObjectOrder := fun a b => inferInstanceAs (Decidable (keyRank a ≤ keyRank b))

/-- A value written to `jsonb` and read back. -/
def Json.readBack (j : Json) : Json := j.orderBy ObjectOrder

theorem Json.readBack_readBack (j : Json) : j.readBack.readBack = j.readBack :=
  orderBy_orderBy ObjectOrder (fun a b => le_total (keyRank a) (keyRank b))
    (fun _ _ _ => le_trans) j

end ApexChainx.Lib
