import Questionnaire.Rule.Basic
import Questionnaire.Rule.Failure
import Questionnaire.Calendar.Text

/-!
# Validation

Checking a value by a rule converts it on the way (a text is trimmed, a number read, a date made
canonical) and collects every failure. `Rule.check` does one value; it knows the members beside the
value, for rules that depend on a sibling, and the name by which messages call the value when the
rule has no label of its own. `Rule.validate` gives the converted value only when nothing failed.
-/

namespace Questionnaire

/-- The outcome of a check: the converted value, if there is one, and the failures. -/
structure Checked where
  value : Option Json
  failures : List Failure
deriving DecidableEq

namespace Checked

/-- A value without failures. -/
def pass (value : Json) : Checked := ⟨some value, []⟩

/-- One failure at the value's own place, and no value. -/
def fail (label : String) (fault : Fault) : Checked := ⟨none, [⟨[], label, fault⟩]⟩

/-- The outcome as seen from one step further out. -/
def under (step : String) (checked : Checked) : Checked :=
  { checked with failures := checked.failures.map (Failure.under step) }

end Checked

/-- Settings for the validation of a whole value. -/
structure ValidationOptions where
  /-- Lets members through for which no object rule has a key. -/
  allowUnknown : Bool := false

namespace Leaf

/-- The failure of a value that is not of a leaf's kind. -/
def mismatch : Leaf → Fault
  | .any => .noAlternative
  | .text _ => .notText
  | .number _ => .notNumber
  | .boolean => .notBoolean
  | .date => .notDate
  | .dateTime => .notDateTime

/-- The value of a number: an integer when it is whole and 64 bits hold it. -/
def numberValue (x : Binary64) : Json :=
  if x.isWhole ∧ x.truncate.natAbs < int64Limit then .ofInt x.truncate else .num (.float x)

/-- The number that a value is or spells. -/
def numberOf? : Json → Option Binary64
  | .num n => some n.toBinary64
  | .str s => Binary64.ofText? (Text.trim s)
  | _ => none

/-- The truth value that a value is or spells, in any case. -/
def booleanOf? : Json → Option Bool
  | .bool b => some b
  | .str s =>
    let word := (Text.trimmed s.toList).map Char.toLower
    if word = ['t', 'r', 'u', 'e'] then some true
    else if word = ['f', 'a', 'l', 's', 'e'] then some false
    else none
  | _ => none

/-- The constraints that a text breaks. -/
def textFaults (c : TextConstraints) (text : String) : List Fault :=
  let short := match c.min with
    | some min => if text.length < min then [.tooShort min] else []
    | none => []
  let long := match c.max with
    | some max => if max < text.length then [.tooLong max] else []
    | none => []
  let shape := match c.pattern with
    | some pattern =>
      if pattern.accepts text then []
      else if c.email then [.notEmail]
      else [.notMatching text pattern.source]
    | none => []
  short ++ long ++ shape

/-- The constraints that a number breaks. -/
def numberFaults (c : NumberConstraints) (x : Binary64) : List Fault :=
  let fraction := if c.whole && !x.isWhole then [.notWhole] else []
  let small := match c.min with
    | some min => if Float64.lt x min then [.tooSmall min] else []
    | none => []
  let large := match c.max with
    | some max => if max.lt x then [.tooLarge max] else []
    | none => []
  fraction ++ small ++ large

/-- Checks a value that is present by a leaf. `allowsEmpty` says that the empty text is welcome. -/
def check (leaf : Leaf) (allowsEmpty : Bool) (label : String) (value : Json) : Checked :=
  match leaf with
  | .any => .pass value
  | .text c =>
    match value with
    | .str raw =>
      let text := if c.trim then Text.trim raw else raw
      if text = "" then
        if allowsEmpty then .pass (.str "") else .fail label .emptyText
      else ⟨some (.str text), (textFaults c text).map (⟨[], label, ·⟩)⟩
    | _ => .fail label .notText
  | .number c =>
    match numberOf? value with
    | some x => ⟨some (numberValue x), (numberFaults c x).map (⟨[], label, ·⟩)⟩
    | none => .fail label .notNumber
  | .boolean =>
    match booleanOf? value with
    | some b => .pass (.bool b)
    | none => .fail label .notBoolean
  | .date =>
    match value.str?.bind Date.ofText? with
    | some found => .pass (.str found.canonical)
    | none => .fail label .notDate
  | .dateTime =>
    match value.str?.bind DateTime.ofText? with
    | some found => .pass (.str found.canonical)
    | none => .fail label .notDateTime

end Leaf

namespace Attributes

/-- Whether a value is accepted as it is. -/
def allows (a : Attributes) (value : Json) : Bool :=
  a.allow.any (·.same value)

/-- What remains to be asked of a value once it is converted. -/
def finish (a : Attributes) (label : String) (value : Json) (checked : Checked) : Checked :=
  match checked.value with
  | none => checked
  | some converted =>
    if !converted.same value && a.allows converted then checked
    else
      match a.valid with
      | none => checked
      | some choices =>
        if choices.any (·.looseEq converted) then checked
        else ⟨some converted, checked.failures ++ [⟨[], label, .notAmong choices⟩]⟩

/--
The frame of every check: a missing value, a value accepted as it is, null, and then the value
itself, which `convert` checks.
-/
def apply (a : Attributes) (label : String) (onNull : Option Fault) (value : Option Json)
    (convert : Json → Checked) : Checked :=
  match value with
  | none => if a.required then .fail label .missing else ⟨none, []⟩
  | some value =>
    if a.allows value then .pass value
    else
      match value, onNull with
      | .null, some fault => ⟨some .null, [⟨[], label, fault⟩]⟩
      | value, _ => a.finish label value (convert value)

end Attributes

namespace Rule

mutual

/-- Whether a value has the outer form that a rule asks for, its constraints aside. -/
def fitsForm : Rule → Json → Bool
  | .leaf .any _, _ => true
  | .choose _ _ _ _ _, _ => true
  | .array _ _, value => value.isArr
  | .object _ _ _, value => value.isObj
  | .alternatives rules _, value => fitsSomeForm rules value
  | .leaf _ _, value => !value.isArr && !value.isObj

/-- Whether a value has the outer form of some rule. -/
def fitsSomeForm : List Rule → Json → Bool
  | [], _ => false
  | rule :: rest, value => rule.fitsForm value || fitsSomeForm rest value

end

/-- The members of an object that have no rule, let through or refused one by one. -/
def checkUnknown (allowed : Bool) (keys : Keys) : Fields → Fields × List Failure
  | [] => ([], [])
  | (key, value) :: rest =>
    let (kept, failures) := checkUnknown allowed keys rest
    if keys.has key then (kept, failures)
    else if allowed then ((key, value) :: kept, failures)
    else (kept, ⟨[key], key, .unknownKey⟩ :: failures)

mutual

/-- Checks a value, or its absence, by a rule. -/
def check (options : ValidationOptions) :
    (rule : Rule) → (name : String) → (siblings : Option Fields) → (value : Option Json) → Checked
  | .choose sibling is revealed hidden a, name, siblings, value =>
    let label := a.label.getD name
    if (siblings.bind (·.get? sibling)).any (·.selects is) then
      check options revealed label siblings value
    else check options hidden label siblings value
  | .leaf kind a, name, _, value =>
    let label := a.label.getD name
    let onNull := if kind = .any then none else some kind.mismatch
    a.apply label onNull value (kind.check (a.allows (.str "")) label)
  | .object keys allowUnknown a, name, _, value =>
    let label := a.label.getD name
    a.apply label (some .notObject) value fun
      | .obj fields =>
        let (known, failures) := checkKeys options keys fields
        let (unknown, refused) := checkUnknown (allowUnknown || options.allowUnknown) keys fields
        ⟨some (.obj (Fields.extend known unknown)), failures ++ refused⟩
      | _ => .fail label .notObject
  | .array item a, name, _, value =>
    let label := a.label.getD name
    a.apply label (some .notArray) value fun
      | .arr items =>
        let checks := items.zipIdx.map fun (value, index) =>
          (check options item label none (some value)).under (toString index)
        ⟨some (.arr (checks.filterMap (·.value))), checks.flatMap (·.failures)⟩
      | _ => .fail label .notArray
  | .alternatives rules a, name, siblings, value =>
    let label := a.label.getD name
    a.apply label (some .noAlternative) value fun value =>
      checkAlternatives options rules label siblings value none

/-- Checks the members of an object by their rules, in the order of the rules. -/
def checkKeys (options : ValidationOptions) :
    (keys : List (String × Rule)) → (fields : Fields) → Fields × List Failure
  | [], _ => ([], [])
  | (key, rule) :: rest, fields =>
    let checked := (check options rule key (some fields) (fields.get? key)).under key
    let (converted, failures) := checkKeys options rest fields
    match checked.value with
    | some value => (converted.insert key value, checked.failures ++ failures)
    | none => (converted, checked.failures ++ failures)

/--
Tries rules in order. The first that passes gives the value; when none does, the failures reported
are those of the first rule whose form the value has.
-/
def checkAlternatives (options : ValidationOptions) :
    (rules : List Rule) → (label : String) → (siblings : Option Fields) → (value : Json) →
      (reported : Option (List Failure)) → Checked
  | [], label, _, _, reported =>
    match reported with
    | some failures => ⟨none, failures⟩
    | none => .fail label .noAlternative
  | rule :: rest, label, siblings, value, reported =>
    let checked := check options rule label siblings (some value)
    if checked.failures.isEmpty then checked
    else
      let reported :=
        if reported.isNone && rule.fitsForm value then some checked.failures else reported
      checkAlternatives options rest label siblings value reported

end

/-- How messages name a value that is not a member of anything. -/
def rootName : String := "value"

/-- The converted value, or every failure. -/
def validate (rule : Rule) (options : ValidationOptions) (value : Json) :
    Except (List Failure) Json :=
  let checked := rule.check options rootName none (some value)
  if checked.failures.isEmpty then .ok (checked.value.getD .null) else .error checked.failures

end Rule

end Questionnaire
