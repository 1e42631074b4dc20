/-
  Acs/CJson.lean
  ==============
  **JSON values as cJSON hands them to the firmware.**

  A parsed document is a tree of items.  Two habits of the library matter to
  its callers: `cJSON_GetObjectItem` compares keys without regard to case and
  returns the first match, and a number has, besides its `double`, an `int`
  that saturates (`valueint`).  A `double` is kept as the rational it stands
  for; one that overflowed to infinity reads like any number past the `int`
  range.

  Parsing and printing of the text itself are left to the library: they are
  parameters of the functions that call them.
-/
import Acs.Bytes
import Mathlib.Data.Rat.Defs

namespace Acs

inductive Json where
  | null
  | bool (b : Bool)
  | number (valuedouble : Rat)
  | string (valuestring : Bytes)
  | array (items : List Json)
  | object (fields : List (Bytes × Json))

namespace Json

/-- `INT_MAX` and `INT_MIN` of a 32-bit `int`. -/
def intMax : Int := 2147483647
def intMin : Int := -2147483648

/-- The `valueint` of a number: the `double` cut to an `int`, with saturation. -/
def valueint (valuedouble : Rat) : Int :=
  if (intMax : Rat) ≤ valuedouble then intMax
  else if valuedouble ≤ (intMin : Rat) then intMin
  else valuedouble.num.tdiv valuedouble.den

/-- The conversion of a 64-bit integer to `double`: rounded to 53 significant
    bits, ties to even. -/
def ofInteger (n : Int) : Rat :=
  let m := n.natAbs
  let dropped := m.log2 + 1 - 53
  let q := m / 2 ^ dropped
  let r := m % 2 ^ dropped
  let up := dropped ≠ 0 ∧ (2 ^ (dropped - 1) < r ∨ r = 2 ^ (dropped - 1) ∧ q % 2 = 1)
  ((n.sign * ((if up then q + 1 else q) * 2 ^ dropped : Nat) : Int) : Rat)

/-- `cJSON_CreateNumber` of an integer argument. -/
def createNumber (n : Int) : Json := .number (ofInteger n)

def createString (s : Bytes) : Json := .string (cstr s)

def tolower (c : UInt8) : UInt8 := if 65 ≤ c ∧ c ≤ 90 then c + 32 else c

/-- `case_insensitive_strcmp(...) == 0`. -/
def sameKey (a b : Bytes) : Bool := (cstr a).map tolower == (cstr b).map tolower

/-- `cJSON_GetObjectItem`; anything but an object has no named items. -/
def getObjectItem (root : Json) (name : Bytes) : Option Json :=
  match root with
  | .object fields => (fields.find? fun field => sameKey name field.1).map (·.2)
  | _ => none

/-- `cJSON_IsString` and then `valuestring`, as a C string. -/
def valuestring? : Option Json → Option Bytes
  | some (.string s) => some (cstr s)
  | _ => none

/-- `cJSON_IsNumber` and then `valueint`. -/
def valueint? : Option Json → Option Int
  | some (.number d) => some (valueint d)
  | _ => none

/-- What is preserved when the library prints an item and parses the text:
    strings exactly, numbers as far as `valueint` shows them. -/
def Agrees (a b : Json) : Prop :=
  a = b ∨ ∃ x y, a = .number x ∧ b = .number y ∧ valueint x = valueint y

theorem Agrees.valuestring {a b : Json} (h : Agrees a b) :
    valuestring? (some a) = valuestring? (some b) := by
  rcases h with rfl | ⟨x, y, rfl, rfl, _⟩
  · rfl
  · rfl

theorem Agrees.valueint {a b : Json} (h : Agrees a b) :
    valueint? (some a) = valueint? (some b) := by
  rcases h with rfl | ⟨x, y, rfl, rfl, hxy⟩
  · rfl
  · simp [valueint?, hxy]

/-- A flat object read back by the library: the same keys in the same order,
    with values that agree. -/
def FieldsAgree (fields fields' : List (Bytes × Json)) : Prop :=
  List.Forall₂ (fun a b => a.1 = b.1 ∧ Agrees a.2 b.2) fields fields'

theorem FieldsAgree.getObjectItem {fields fields' : List (Bytes × Json)}
    (h : FieldsAgree fields fields') (name : Bytes) :
    (∃ a b, (object fields).getObjectItem name = some a ∧
        (object fields').getObjectItem name = some b ∧ Agrees a b) ∨
      (object fields).getObjectItem name = none ∧
        (object fields').getObjectItem name = none := by
  induction h with
  | nil => exact Or.inr ⟨rfl, rfl⟩
  | @cons a b rest rest' hab _ ih =>
    obtain ⟨hkey, hval⟩ := hab
    simp only [Json.getObjectItem, List.find?_cons, ← hkey] at ih ⊢
    cases hk : sameKey name a.1 with
    | true => exact Or.inl ⟨a.2, b.2, rfl, rfl, hval⟩
    | false => exact ih

end Json

end Acs
