import Questionnaire.Json.Basic
import Questionnaire.Text.Pattern

/-!
# Rules

A rule says which values an answer may take: what kind of value, within which bounds, whether it
must be there at all, and which values are welcome besides. Rules for the members of an object are
kept by key in the order in which the keys were first given (`Keys`); a rule given again for a key
takes the place of the old one.

The methods that tighten or loosen a rule do nothing to a rule they have no meaning for, such as a
bound on a boolean.
-/

namespace Questionnaire

/-- Constraints on a text. Its length counts characters. -/
structure TextConstraints where
  min : Option Nat := none
  max : Option Nat := none
  /-- Whether blanks at the ends are dropped first. -/
  trim : Bool := true
  /-- Whether the pattern is that of an email address, which has a message of its own. -/
  email : Bool := false
  pattern : Option Text.Pattern := none

/-- Constraints on a number. A bound may be infinite, or no number at all. -/
structure NumberConstraints where
  min : Option Float64 := none
  max : Option Float64 := none
  whole : Bool := false
deriving DecidableEq

/-- The kinds of value a rule can ask for without looking inside the value. -/
inductive Leaf where
  | any
  | text (constraints : TextConstraints)
  | number (constraints : NumberConstraints)
  | boolean
  | date
  | dateTime

instance : (kind : Leaf) → Decidable (kind = .any)
  | .any => isTrue rfl
  | .text _ | .number _ | .boolean | .date | .dateTime => isFalse nofun

/-- What rules of every kind have. -/
structure Attributes where
  required : Bool := false
  /-- How messages name the value. -/
  label : Option String := none
  /-- Values accepted as they are, before and after conversion. -/
  allow : List Json := []
  /-- When given, the converted value must be one of these. -/
  valid : Option (List Json) := none
deriving DecidableEq

/--
A rule for one value. `choose sibling is revealed hidden` stands for `revealed` when the sibling
answer picks the value `is`, and for `hidden` otherwise.
-/
inductive Rule where
  | leaf (kind : Leaf) (attributes : Attributes)
  | object (keys : List (String × Rule)) (allowUnknown : Bool) (attributes : Attributes)
  | array (item : Rule) (attributes : Attributes)
  | alternatives (rules : List Rule) (attributes : Attributes)
  | choose (sibling : String) (is : Json) (revealed hidden : Rule) (attributes : Attributes)

/-- Rules by key, in order. -/
abbrev Keys := List (String × Rule)

namespace Keys

/-- Sets the rule of a key, which keeps its place if it has one. -/
def insert (key : String) (rule : Rule) : Keys → Keys
  | [] => [(key, rule)]
  | (k, r) :: rest => if k = key then (k, rule) :: rest else (k, r) :: insert key rule rest

/-- Sets every rule of the second in the first. -/
def extend (keys added : Keys) : Keys :=
  added.foldl (fun keys entry => keys.insert entry.1 entry.2) keys

/-- The keys built from entries one after another. -/
def ofList (entries : List (String × Rule)) : Keys :=
  extend [] entries

/-- The rule of a key. -/
def get? (keys : Keys) (key : String) : Option Rule :=
  (keys.find? fun entry => entry.1 == key).map (·.2)

/-- Whether a key has a rule. -/
def has (keys : Keys) (key : String) : Bool :=
  keys.any fun entry => entry.1 == key

/-- The keys, in order. -/
def names (keys : Keys) : List String :=
  keys.map (·.1)

end Keys

namespace Rule

/-! ## Rules of each kind -/

/-- Any value at all. -/
def any : Rule := .leaf .any {}

/-- A text, trimmed. -/
def text : Rule := .leaf (.text {}) {}

/-- A number. -/
def number : Rule := .leaf (.number {}) {}

/-- A truth value. -/
def boolean : Rule := .leaf .boolean {}

/-- A date. -/
def date : Rule := .leaf .date {}

/-- A date-time. -/
def dateTime : Rule := .leaf .dateTime {}

/-- An object with members by the given rules and no others. -/
def ofKeys (keys : Keys) : Rule := .object keys false {}

/-- An array of values by one rule. -/
def arrayOf (item : Rule) : Rule := .array item {}

/-- A value by one of several rules. -/
def oneOf (rules : List Rule) : Rule := .alternatives rules {}

/-- A value by one of two rules, as a sibling has it. -/
def chosenBy (sibling : String) (is : Json) (revealed hidden : Rule) : Rule :=
  .choose sibling is revealed hidden {}

/-! ## Attributes -/

/-- The attributes of a rule. -/
def attributes : Rule → Attributes
  | .leaf _ a | .object _ _ a | .array _ a | .alternatives _ a | .choose _ _ _ _ a => a

/-- The rule with its attributes changed. -/
def mapAttributes (f : Attributes → Attributes) : Rule → Rule
  | .leaf kind a => .leaf kind (f a)
  | .object keys allowUnknown a => .object keys allowUnknown (f a)
  | .array item a => .array item (f a)
  | .alternatives rules a => .alternatives rules (f a)
  | .choose sibling is revealed hidden a => .choose sibling is revealed hidden (f a)

@[simp] theorem attributes_mapAttributes (f : Attributes → Attributes) (rule : Rule) :
    (rule.mapAttributes f).attributes = f rule.attributes := by
  cases rule <;> rfl

/-- The value must be there. -/
def required (rule : Rule) : Rule :=
  rule.mapAttributes fun a => { a with required := true }

/-- The value may be missing. -/
def optional (rule : Rule) : Rule :=
  rule.mapAttributes fun a => { a with required := false }

/-- Messages name the value so. -/
def labelled (label : String) (rule : Rule) : Rule :=
  rule.mapAttributes fun a => { a with label := some label }

/-- Accepts one more value as it is. -/
def allowing (value : Json) (rule : Rule) : Rule :=
  rule.mapAttributes fun a =>
    if a.allow.any (·.same value) then a else { a with allow := a.allow ++ [value] }

/-- The converted value must be one of these. -/
def among (values : List Json) (rule : Rule) : Rule :=
  rule.mapAttributes fun a => { a with valid := some values }

/-! ## Constraints -/

/-- The rule with its constraints on a text changed. -/
def mapText (f : TextConstraints → TextConstraints) : Rule → Rule
  | .leaf (.text c) a => .leaf (.text (f c)) a
  | rule => rule

/-- The rule with its constraints on a number changed. -/
def mapNumber (f : NumberConstraints → NumberConstraints) : Rule → Rule
  | .leaf (.number c) a => .leaf (.number (f c)) a
  | rule => rule

/-- The greatest length that can be asked for. -/
def lengthLimit : Nat := word64Limit - 1

/-- The length that a bound asks for: its integer part, from zero to the limit, and zero when it is
no number. -/
def lengthBound : Float64 → Nat
  | .number (.finite x) => min x.truncate.toNat lengthLimit
  | .number (.infinite negative) => if negative then 0 else lengthLimit
  | .nan => 0

/-- At least so long, or so large. -/
def atLeast (bound : Float64) (rule : Rule) : Rule :=
  (rule.mapText fun c => { c with min := some (lengthBound bound) }).mapNumber fun c =>
    { c with min := some bound }

/-- At most so long, or so large. -/
def atMost (bound : Float64) (rule : Rule) : Rule :=
  (rule.mapText fun c => { c with max := some (lengthBound bound) }).mapNumber fun c =>
    { c with max := some bound }

/-- Without a fraction. -/
def whole (rule : Rule) : Rule :=
  rule.mapNumber fun c => { c with whole := true }

/-- Whether blanks at the ends are dropped. -/
def trimming (enabled : Bool) (rule : Rule) : Rule :=
  rule.mapText fun c => { c with trim := enabled }

/-- An email address. -/
def email (rule : Rule) : Rule :=
  rule.mapText fun c => { c with email := true, pattern := some .email }

/-- Of a shape. -/
def matching (pattern : Text.Pattern) (rule : Rule) : Rule :=
  rule.mapText fun c => { c with pattern := some pattern }

/-! ## Members -/

/-- Whether members without a rule are let through. -/
def allowingUnknown (allow : Bool) : Rule → Rule
  | .object keys _ a => .object keys allow a
  | rule => rule

/-- The rules of an object's members. -/
def keys? : Rule → Option Keys
  | .object keys _ _ => some keys
  | _ => none

/-- Adds the members of another object rule, which wins where both have one. -/
def concat (rule other : Rule) : Rule :=
  match rule, other with
  | .object keys allowUnknown a, .object added _ _ =>
    .object (Keys.extend keys added) allowUnknown a
  | rule, _ => rule

/-- Adds one member to an object rule. -/
def append (rule : Rule) (key : String) (member : Rule) : Rule :=
  match rule with
  | .object keys allowUnknown a => .object (Keys.insert key member keys) allowUnknown a
  | rule => rule

end Rule

end Questionnaire
