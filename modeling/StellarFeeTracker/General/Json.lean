import Mathlib.Data.Rat.Defs
import Mathlib.Tactic.Common

/-!
# Values of JSON texts

A JSON text is read in two ways.  Read as a dynamic value, a missing member or a value of another
type is `null`, and of several members with one key the last counts (`Json.get`).  Read into a
record, each field is required, must have its type and must not be repeated (`Json.requiredField`);
only an optional field may be absent or `null` (`Json.optionalField`).  A record is also read from the
array of all its fields in their order (`Json.recordField`).  Where the second way succeeds, the first
sees the same member (`get_of_requiredField`).
-/

/-- A number, as it is written: unsigned, negative or with a fraction or an exponent. -/
inductive JsonNumber where
  | posInt (n : ℕ)
  | negInt (n : ℤ)
  | float (q : ℚ)
  deriving DecidableEq, Repr

/-- The value of a JSON text, with the members of an object in the order of the text. -/
inductive Json where
  | null
  | bool (b : Bool)
  | num (n : JsonNumber)
  | str (s : String)
  | arr (elements : List Json)
  | obj (fields : List (String × Json))

namespace Json

/-! ## Dynamic values -/

/-- The members with this key. -/
def members (fields : List (String × Json)) (key : String) : List Json :=
  (fields.filter fun field => field.1 == key).map (·.2)

/-- The last member with this key, if the value is an object that has one. -/
def get (value : Json) (key : String) : Json :=
  match value with
  | .obj fields => (members fields key).getLast?.getD .null
  | _ => .null

def asStr : Json → Option String
  | .str s => some s
  | _ => none

def asBool : Json → Option Bool
  | .bool b => some b
  | _ => none

def asArray : Json → Option (List Json)
  | .arr elements => some elements
  | _ => none

/-! ## Records -/

/-- A number that is an unsigned integer. -/
def asUnsigned : Json → Option ℕ
  | .num (.posInt n) => some n
  | _ => none

/-- The field of a record: the only member with this key, decoded. -/
def requiredField {α : Type*} (fields : List (String × Json)) (key : String)
    (decode : Json → Option α) : Option α :=
  match members fields key with
  | [member] => decode member
  | _ => none

/-- A value that may be `null`. -/
def asOption {α : Type*} (decode : Json → Option α) : Json → Option (Option α)
  | .null => some none
  | value => (decode value).map some

/-- An optional field: the only member with this key, which may be `null`, or none at all. -/
def optionalField {α : Type*} (fields : List (String × Json)) (key : String)
    (decode : Json → Option α) : Option (Option α) :=
  match members fields key with
  | [] => some none
  | [member] => asOption decode member
  | _ => none

section Records

variable {α : Type*} (size index : ℕ) (key : String) (decode : Json → Option α)

/-- The field with this key and this place in a record of so many fields. -/
def recordField : Json → Option α
  | .obj fields => requiredField fields key decode
  | .arr elements => if elements.length = size then elements[index]?.bind decode else none
  | _ => none

/-- The same for an optional field, whose element in an array must not be missing either. -/
def recordOption : Json → Option (Option α)
  | .obj fields => optionalField fields key decode
  | .arr elements => if elements.length = size then elements[index]?.bind (asOption decode) else none
  | _ => none

@[simp] theorem recordField_obj (fields : List (String × Json)) :
    recordField size index key decode (.obj fields) = requiredField fields key decode := rfl

@[simp] theorem recordOption_obj (fields : List (String × Json)) :
    recordOption size index key decode (.obj fields) = optionalField fields key decode := rfl

variable {size index key decode}

theorem length_of_recordField {elements : List Json} {a : α}
    (h : recordField size index key decode (.arr elements) = some a) : elements.length = size := by
  by_contra hlength
  rw [recordField, if_neg hlength] at h
  cases h

/-- A value from which records of two sizes are read is an object. -/
theorem exists_fields_of_recordField {β : Type*} {size' index' : ℕ} {key' : String}
    {decode' : Json → Option β} {value : Json} {a : α} {b : β} (hne : size ≠ size')
    (h : recordField size index key decode value = some a)
    (h' : recordField size' index' key' decode' value = some b) : ∃ fields, value = .obj fields := by
  cases value with
  | obj fields => exact ⟨fields, rfl⟩
  | arr elements => exact absurd ((length_of_recordField h).symm.trans (length_of_recordField h')) hne
  | _ => cases h

theorem requiredField_eq_some_iff {fields : List (String × Json)} {a : α} :
    requiredField fields key decode = some a ↔
      ∃ member, members fields key = [member] ∧ decode member = some a := by
  unfold requiredField
  constructor
  · intro h
    split at h
    · next member hmembers => exact ⟨member, hmembers, h⟩
    · cases h
  · rintro ⟨member, hmembers, h⟩
    rw [hmembers]
    exact h

end Records

theorem get_of_requiredField {α : Type*} {fields : List (String × Json)} {key : String}
    {decode : Json → Option α} {a : α} (h : requiredField fields key decode = some a) :
    decode ((Json.obj fields).get key) = some a := by
  unfold requiredField at h
  show decode ((members fields key).getLast?.getD .null) = some a
  split at h
  · next member hmembers =>
    rw [hmembers]
    exact h
  · cases h

theorem asStr_of_asUnsigned {value : Json} {n : ℕ} (h : value.asUnsigned = some n) :
    value.asStr = none := by
  unfold asUnsigned at h
  split at h
  · rfl
  · cases h

end Json
