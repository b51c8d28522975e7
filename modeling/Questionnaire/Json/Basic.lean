import Questionnaire.Number.Binary64

/-!
# JSON values

The values that definitions, answers and submitted data are made of. An object is its members in
ascending order of their keys; `Fields.insert` keeps that order (`Fields.Ordered`).

Two equalities matter. `a = b` is identity. `a.same b` is equality by value: it differs only in that
the two floating-point zeros are the same. An integer is never the same as a floating-point number.
-/

namespace Questionnaire

/-- The integers that JSON text can spell as such: those of 64 bits, with or without a sign. -/
def IsWord (i : Int) : Prop :=
  -int64Limit ≤ i ∧ i < word64Limit

instance (i : Int) : Decidable (IsWord i) :=
  inferInstanceAs (Decidable (_ ∧ _))

/-- A JSON number: an integer, or a floating-point number. -/
inductive Number where
  | int (value : Int) (isWord : IsWord value)
  | float (value : Binary64)
deriving DecidableEq

/-- A JSON value. -/
inductive Json where
  | null
  | bool (value : Bool)
  | num (value : Number)
  | str (value : String)
  | arr (items : List Json)
  | obj (fields : List (String × Json))
deriving Inhabited

/-- The members of an object. -/
abbrev Fields := List (String × Json)

/-! ## Identity -/

mutual

/-- Decides whether two values are identical. -/
def Json.isEqual : Json → Json → Bool
  | .null, .null => true
  | .bool a, .bool b => a == b
  | .num a, .num b => decide (a = b)
  | .str a, .str b => a == b
  | .arr a, .arr b => isEqualItems a b
  | .obj a, .obj b => isEqualFields a b
  | _, _ => false

/-- `Json.isEqual`, item by item. -/
def isEqualItems : List Json → List Json → Bool
  | [], [] => true
  | a :: as, b :: bs => a.isEqual b && isEqualItems as bs
  | _, _ => false

/-- `Json.isEqual`, member by member. -/
def isEqualFields : List (String × Json) → List (String × Json) → Bool
  | [], [] => true
  | (k, a) :: as, (l, b) :: bs => k == l && a.isEqual b && isEqualFields as bs
  | _, _ => false

end

mutual

theorem Json.isEqual_iff : ∀ a b : Json, a.isEqual b = true ↔ a = b
  | .null, b => by cases b <;> simp [Json.isEqual]
  | .bool a, b => by cases b <;> simp [Json.isEqual]
  | .num a, b => by cases b <;> simp [Json.isEqual]
  | .str a, b => by cases b <;> simp [Json.isEqual]
  | .arr a, b => by
    cases b <;> simp [Json.isEqual]
    next b => exact isEqualItems_iff a b
  | .obj a, b => by
    cases b <;> simp [Json.isEqual]
    next b => exact isEqualFields_iff a b

theorem isEqualItems_iff : ∀ a b : List Json, isEqualItems a b = true ↔ a = b
  | [], b => by cases b <;> simp [isEqualItems]
  | a :: as, b => by
    cases b with
    | nil => simp [isEqualItems]
    | cons b bs => simp [isEqualItems, Json.isEqual_iff a b, isEqualItems_iff as bs]

theorem isEqualFields_iff : ∀ a b : List (String × Json), isEqualFields a b = true ↔ a = b
  | [], b => by cases b <;> simp [isEqualFields]
  | (k, a) :: as, b => by
    cases b with
    | nil => simp [isEqualFields]
    | cons m bs =>
      obtain ⟨l, b⟩ := m
      simp [isEqualFields, Json.isEqual_iff a b, isEqualFields_iff as bs]

end

instance : DecidableEq Json := fun a b =>
  decidable_of_iff (a.isEqual b = true) (Json.isEqual_iff a b)

/-! ## Numbers -/

namespace Number

/-- The integer as a number; one beyond 64 bits becomes the nearest floating-point number. -/
def ofInt (i : Int) : Number :=
  if h : IsWord i then .int i h
  else .float (((Binary64.ofInt i).finite?).getD default)

/-- The value in floating point. -/
def toBinary64 : Number → Binary64
  | .int i _ => ((Binary64.ofInt i).finite?).getD default
  | .float x => x

/-- The number with zero's sign forgotten. -/
def unsignedZero : Number → Number
  | .int i h => .int i h
  | .float x => .float x.unsignedZero

/-- The value of an integer that is not negative. -/
def nat? : Number → Option Nat
  | .int i _ => if 0 ≤ i then some i.toNat else none
  | .float _ => none

end Number

/-! ## Equality by value -/

mutual

/-- The value with every floating-point zero made positive. -/
def Json.unsignedZero : Json → Json
  | .null => .null
  | .bool b => .bool b
  | .num n => .num n.unsignedZero
  | .str s => .str s
  | .arr items => .arr (unsignedZeroItems items)
  | .obj fields => .obj (unsignedZeroFields fields)

/-- `Json.unsignedZero` of every item. -/
def unsignedZeroItems : List Json → List Json
  | [] => []
  | item :: rest => item.unsignedZero :: unsignedZeroItems rest

/-- `Json.unsignedZero` of every member's value. -/
def unsignedZeroFields : List (String × Json) → List (String × Json)
  | [] => []
  | (key, value) :: rest => (key, value.unsignedZero) :: unsignedZeroFields rest

end

namespace Json

/-- Equality by value. -/
def same (a b : Json) : Bool :=
  decide (a.unsignedZero = b.unsignedZero)

@[simp] theorem same_refl (a : Json) : a.same a = true := by simp [same]

theorem same_comm (a b : Json) : a.same b = b.same a := by
  simp [same, eq_comm]

/-- An integer as a value. -/
def ofInt (i : Int) : Json := .num (.ofInt i)

/-- A natural number as a value. -/
def ofNat (n : Nat) : Json := .num (.ofInt n)

/-- The text, if the value is one. -/
def str? : Json → Option String
  | .str s => some s
  | _ => none

/-- The members, if the value is an object. -/
def obj? : Json → Option Fields
  | .obj fields => some fields
  | _ => none

/-- The items, if the value is an array. -/
def arr? : Json → Option (List Json)
  | .arr items => some items
  | _ => none

/-- Whether the value is an array. -/
def isArr (j : Json) : Bool := j.arr?.isSome

/-- Whether the value is an object. -/
def isObj (j : Json) : Bool := j.obj?.isSome

end Json

/-! ## Members -/

namespace Fields

/-- The value of a member. -/
def get? (fields : Fields) (key : String) : Option Json :=
  (fields.find? fun member => member.1 == key).map (·.2)

/-- Whether a key has a member. -/
def has (fields : Fields) (key : String) : Bool :=
  (fields.get? key).isSome

/-- Sets a member, in key order. A member of that key is replaced. -/
def insert (key : String) (value : Json) : Fields → Fields
  | [] => [(key, value)]
  | (k, v) :: rest =>
    if key = k then (key, value) :: rest
    else if key < k then (key, value) :: (k, v) :: rest
    else (k, v) :: insert key value rest

/-- Sets every member of the second object in the first. -/
def extend (fields added : Fields) : Fields :=
  added.foldl (fun fields member => fields.insert member.1 member.2) fields

/-- The object with the given members; of two with one key the later stays. -/
def ofList (members : List (String × Json)) : Fields :=
  extend [] members

/-- The object with the members that have a value. -/
def ofOptions (members : List (String × Option Json)) : Fields :=
  ofList (members.filterMap fun member => member.2.map (member.1, ·))

/-- Members stand in strictly ascending order of their keys. -/
def Ordered (fields : Fields) : Prop :=
  fields.Pairwise fun a b => a.1 < b.1

end Fields

end Questionnaire
