import Questionnaire.Component.Conversion

/-!
# Displaying answers

A stored answer as a reader should see it, for instance in a summary: the text of a chosen item, a
date in words, an address on one line.
-/

namespace Questionnaire

/-- The text of the first item of a list with a value. -/
def ListDefinition.itemText? (list : ListDefinition) (value : Json) : Option String :=
  (list.items.find? (·.value.looseEq value)).map ListItem.text

/-- A stored choice. -/
def displayChoice (list : ListDefinition) : Option Json → String
  | none => ""
  | some (.arr items) => String.intercalate ", " (items.filterMap list.itemText?)
  | some value => (list.itemText? value).getD ""

/-- A stored address on one line, without its empty parts. -/
def displayAddress : Option Json → String
  | some (.obj address) =>
    String.intercalate ", " <|
      (addressParts.filterMap fun part =>
        (Fields.get? address part.key).bind Json.str?).filter (· != "")
  | _ => ""

/-- The answer of a component. -/
def Component.display (c : Component) (state : State) : String :=
  let value := state.get? c.name
  match c with
  | .single (.text _) _ | .single .plain _ => (value.map Json.formText).getD ""
  | .single (.date withTime) _ | .single (.dateParts withTime) _ =>
    ((value.bind Json.str?).map (displayStored withTime)).getD ""
  | .single .address _ => displayAddress value
  | .single (.content _) _ => ""
  | .choice _ _ list _ => displayChoice list value

end Questionnaire
