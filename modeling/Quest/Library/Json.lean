import Mathlib.Data.Rat.Defs

/-! JSON values with the lenient reads that `QJsonValue` documents: a value of the wrong kind, or
none at all, is read as the default of the kind that is asked for. Whole numbers of 32 bits are
read back as written. -/

inductive Json where
  | undefined
  | null
  | bool (value : Bool)
  | number (value : ℚ)
  | string (text : String)
  | array (elements : List Json)
  | object (members : List (String × Json))

namespace Json

def toBool : Json → Bool
  | bool value => value
  | _ => false

def toText : Json → String
  | string text => text
  | _ => ""

/-- `QJsonValue::toInt`: numbers that are not whole, or have more than 32 bits, are read as
`missing` too. -/
def toInt (j : Json) (missing : Int) : Int :=
  match j with
  | number value =>
    if value.den = 1 ∧ -2147483648 ≤ value.num ∧ value.num < 2147483648 then value.num else missing
  | _ => missing

def isArray : Json → Bool
  | array _ => true
  | _ => false

def toArray : Json → List Json
  | array elements => elements
  | _ => []

/-- `QJsonObject::value`, undefined where there is no such member; other values are read as objects
without members. -/
def value (j : Json) (key : String) : Json :=
  match j with
  | object members => (members.lookup key).getD undefined
  | _ => undefined

@[simp] theorem toBool_bool (value : Bool) : (bool value).toBool = value := rfl

@[simp] theorem toText_string (text : String) : (string text).toText = text := rfl

@[simp] theorem isArray_array (elements : List Json) : (array elements).isArray = true := rfl

@[simp] theorem toArray_array (elements : List Json) : (array elements).toArray = elements := rfl

theorem toInt_number {n : Int} (fits : -2147483648 ≤ n ∧ n < 2147483648) (missing : Int) :
    (number n).toInt missing = n := by
  simp [toInt, fits]

mutual

/-- Equality of values, members in order. -/
def same : Json → Json → Bool
  | undefined, undefined => true
  | null, null => true
  | bool a, bool b => a == b
  | number a, number b => a == b
  | string a, string b => a == b
  | array a, array b => sameElements a b
  | object a, object b => sameMembers a b
  | _, _ => false

def sameElements : List Json → List Json → Bool
  | [], [] => true
  | a :: l, b :: r => same a b && sameElements l r
  | _, _ => false

def sameMembers : List (String × Json) → List (String × Json) → Bool
  | [], [] => true
  | (name, a) :: l, (other, b) :: r => name == other && same a b && sameMembers l r
  | _, _ => false

end

mutual

theorem same_iff : ∀ a b : Json, same a b = true ↔ a = b
  | undefined, b => by cases b <;> simp [same]
  | null, b => by cases b <;> simp [same]
  | bool a, b => by cases b <;> simp [same]
  | number a, b => by cases b <;> simp [same]
  | string a, b => by cases b <;> simp [same]
  | array a, b => by cases b <;> simp [same, sameElements_iff a]
  | object a, b => by cases b <;> simp [same, sameMembers_iff a]

theorem sameElements_iff : ∀ l r : List Json, sameElements l r = true ↔ l = r
  | [], r => by cases r <;> simp [sameElements]
  | a :: l, r => by cases r <;> simp [sameElements, same_iff a, sameElements_iff l]

theorem sameMembers_iff : ∀ l r : List (String × Json), sameMembers l r = true ↔ l = r
  | [], r => by cases r <;> simp [sameMembers]
  | (name, a) :: l, r => by
    cases r <;> simp [sameMembers, same_iff a, sameMembers_iff l, Prod.ext_iff, and_assoc]

end

instance : DecidableEq Json := fun a b => decidable_of_iff _ (same_iff a b)

end Json
