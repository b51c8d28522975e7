import Questionnaire.Component.Parts
import Questionnaire.Rule.Basic

/-!
# Rules of components

What a component asks of submitted data (`Component.formKeys`) and of the stored state
(`Component.stateKeys`), as rules by key. A field is required unless it is marked as optional; then
the form may leave it empty and the state may hold null.

The fields that a list item reveals add their own keys to those of the field that chooses: required
while the item is selected, and otherwise optional and allowed to be empty.
-/

namespace Questionnaire

/-! ## One field -/

/-- A rule with the constraints of a definition. -/
def constrained (constraints : AnswerConstraints) (rule : Rule) : Rule :=
  let rule := match constraints.min with
    | some min => rule.atLeast min
    | none => rule
  let rule := match constraints.max with
    | some max => rule.atMost max
    | none => rule
  let rule := if constraints.trim = some false then rule.trimming false else rule
  match constraints.allow with
  | some (.arr values) => values.foldl (fun rule value => rule.allowing value) rule
  | some value => rule.allowing value
  | none => rule

/-- A rule with the constraints and the title of a field. -/
def described (d : ComponentDefinition) (base : Rule) : Rule :=
  let rule := constrained d.constraints base
  match d.title with
  | some title => rule.labelled title
  | none => rule

/-- A rule for a field that may be optional, in which case `blank` stands for no answer. -/
def presence (d : ComponentDefinition) (blank : Json) (rule : Rule) : Rule :=
  if d.isOptional then rule.allowing blank else rule.required

/-- The rule for what is submitted. -/
def formRule (d : ComponentDefinition) (base : Rule) : Rule :=
  presence d (.str "") (described d base)

/-- The rule for what is stored. -/
def stateRule (d : ComponentDefinition) (base : Rule) : Rule :=
  presence d .null (described d base)

namespace TextVariant

/-- The kind of answer. -/
def base : TextVariant → Rule
  | .number => .number
  | .email => Rule.text.email
  | _ => .text

end TextVariant

/-- The rule of a date or a date-time. -/
def dateBase (withTime : Bool) : Rule :=
  if withTime then .dateTime else .date

/-! ## Composite fields -/

/-- The label of a part, after the title of the field. -/
def partLabel (title part : String) : String :=
  if title = "" then part else title ++ " " ++ part.toLower

/-- The rule of a part of a date. -/
def DatePart.rule (part : DatePart) (d : ComponentDefinition) : Rule :=
  presence d (.str "")
    ((Rule.number.whole.atLeast part.min).atMost part.max |>.labelled
      (partLabel d.titleText part.label))

/-- The longest part of an address. -/
def addressPartLimit : Binary64 := .ofNat 100

/-- The longest postcode. -/
def postcodeLimit : Binary64 := .ofNat 10

/-- The rule of a part of an address. -/
def AddressPart.rule (part : AddressPart) (d : ComponentDefinition) : Rule :=
  let rule := (Rule.text.atMost addressPartLimit).labelled part.label
  let rule :=
    if part.key = "postcode" then (rule.atMost postcodeLimit).matching .postcode else rule
  if part.core && !d.isOptional then rule.required else rule.allowing (.str "")

/-- The rule of a stored address. -/
def addressRule (d : ComponentDefinition) : Rule :=
  let parts := Keys.ofList (addressParts.map fun part => (part.key, part.rule d))
  presence d .null ((Rule.ofKeys parts).labelled d.titleText)

/-! ## Choices -/

/-- The rule of the values of a list. -/
def ListType.base : ListType → Rule
  | .string => .text
  | .number => .number
  | .boolean => .boolean

/-- One value of a list, or several. -/
def oneOrMore (list : ListDefinition) : Rule :=
  let choice := list.type.base.among list.values
  .oneOf [choice, .arrayOf choice]

/-- The rule for the submitted value of a choice. -/
def ChoiceVariant.formRule (variant : ChoiceVariant) (d : ComponentDefinition)
    (list : ListDefinition) : Rule :=
  match variant with
  | .select => Questionnaire.formRule d list.type.base
  | .yesNo | .radios => (Questionnaire.formRule d list.type.base).among list.values
  | .checkboxes => Questionnaire.formRule d (oneOrMore list)

/-- The rule for the stored value of a choice. -/
def ChoiceVariant.stateRule (variant : ChoiceVariant) (d : ComponentDefinition)
    (list : ListDefinition) : Rule :=
  match variant with
  | .select | .yesNo | .radios => (Questionnaire.stateRule d list.type.base).among list.values
  | .checkboxes => Questionnaire.stateRule d (oneOrMore list)

/-- The rule of a revealed field, as the field that reveals it has been answered. -/
def revealedRule (chooser : String) (item blank : Json) (rule : Rule) : Rule :=
  .chosenBy chooser item rule.required (rule.optional.allowing blank)

/-- The rules of all fields that an item reveals. -/
def revealedKeys (chooser : String) (item blank : Json) (keys : Keys) : Keys :=
  keys.map fun (key, rule) => (key, revealedRule chooser item blank rule)

/-! ## Keys -/

namespace SingleKind

/-- The keys of submitted data. -/
def formKeys (kind : SingleKind) (d : ComponentDefinition) : Keys :=
  match kind with
  | .text variant => [(d.nameText, formRule d variant.base)]
  | .date withTime => [(d.nameText, formRule d (dateBase withTime))]
  | .dateParts withTime =>
    Keys.ofList ((datePartsOf withTime).map fun part => (partName d.nameText part.key, part.rule d))
  | .address =>
    Keys.ofList (addressParts.map fun part => (partName d.nameText part.key, part.rule d))
  | .content _ => []
  | .plain => [(d.nameText, .any)]

/-- The keys of the stored state. -/
def stateKeys (kind : SingleKind) (d : ComponentDefinition) : Keys :=
  match kind with
  | .text variant => [(d.nameText, stateRule d variant.base)]
  | .date withTime => [(d.nameText, stateRule d (dateBase withTime))]
  | .dateParts withTime => [(d.nameText, stateRule d (dateBase withTime))]
  | .address => [(d.nameText, addressRule d)]
  | .content _ => []
  | .plain => [(d.nameText, Rule.any.required)]

end SingleKind

mutual

/-- The keys of submitted data. -/
def Component.formKeys : Component → Keys
  | .single kind d => kind.formKeys d
  | .choice variant d list reveals =>
    Keys.extend [(d.nameText, variant.formRule d list)] (revealedFormKeys d.nameText reveals)

/-- The keys of submitted data of a group of components. -/
def formKeys : List Component → Keys
  | [] => []
  | c :: rest => Keys.extend c.formKeys (formKeys rest)

/-- The keys of submitted data of what a field reveals. -/
def revealedFormKeys (chooser : String) : List (Nat × Json × List Component) → Keys
  | [] => []
  | (_, item, components) :: rest =>
    Keys.extend (revealedKeys chooser item (.str "") (formKeys components))
      (revealedFormKeys chooser rest)

end

mutual

/-- The keys of the stored state. -/
def Component.stateKeys : Component → Keys
  | .single kind d => kind.stateKeys d
  | .choice variant d list reveals =>
    Keys.extend [(d.nameText, variant.stateRule d list)] (revealedStateKeys d.nameText reveals)

/-- The keys of the stored state of a group of components. -/
def stateKeys : List Component → Keys
  | [] => []
  | c :: rest => Keys.extend c.stateKeys (stateKeys rest)

/-- The keys of the stored state of what a field reveals. -/
def revealedStateKeys (chooser : String) : List (Nat × Json × List Component) → Keys
  | [] => []
  | (_, item, components) :: rest =>
    Keys.extend (revealedKeys chooser item .null (stateKeys components))
      (revealedStateKeys chooser rest)

end

/-- The rule for the submitted data of a group of components. -/
def formSchema (components : List Component) : Rule :=
  (Rule.ofKeys (formKeys components)).required

/-- The rule for the stored state of a group of components. -/
def stateSchema (components : List Component) : Rule :=
  (Rule.ofKeys (stateKeys components)).required

end Questionnaire
