import Questionnaire.Definition.Basic

/-!
# Components

The components of a page: fields, which take an answer, and content, which does not. A field that
chooses from a list may reveal further components while one of its items is selected, and those may
reveal others in turn. What a component does with rules, state and views is in the modules beside
this one.
-/

namespace Questionnaire

/-- The fields with a single line or area of text. -/
inductive TextVariant where
  | line
  | multiline
  | telephone
  | email
  | number
deriving DecidableEq

/-- The fields that choose from a list. -/
inductive ChoiceVariant where
  | yesNo
  | select
  | radios
  | checkboxes
deriving DecidableEq

/-- Whether items of the field's list can reveal components. -/
def ChoiceVariant.reveals : ChoiceVariant → Bool
  | .radios | .checkboxes => true
  | .yesNo | .select => false

/-- The blocks of content. -/
inductive ContentVariant where
  | para
  | html
  | insetText
  | details
  | warningText
deriving DecidableEq

/-- The kinds of component that need nothing but their definition. -/
inductive SingleKind where
  | text (variant : TextVariant)
  | date (withTime : Bool)
  /-- A date entered as separate numbers. -/
  | dateParts (withTime : Bool)
  | address
  | content (variant : ContentVariant)
  /-- An answer of any kind, kept as it is submitted. -/
  | plain
deriving DecidableEq

/-- The kinds of component. -/
inductive ComponentKind where
  | single (kind : SingleKind)
  | choice (variant : ChoiceVariant)
deriving DecidableEq

/--
A component. What each item of a list reveals is kept with the item's index and value; items that
reveal nothing are left out.
-/
inductive Component where
  | single (kind : SingleKind) (definition : ComponentDefinition)
  | choice (variant : ChoiceVariant) (definition : ComponentDefinition) (list : ListDefinition)
      (reveals : List (Nat × Json × List Component))

namespace Component

/-- The component as it is written. -/
def definition : Component → ComponentDefinition
  | .single _ d => d
  | .choice _ d _ _ => d

/-- The tag of the component's type. -/
def type (c : Component) : String := c.definition.type

/-- The component's name, which is that of its answer. -/
def name (c : Component) : String := c.definition.nameText

/-- The component's title. -/
def title (c : Component) : String := c.definition.titleText

/-- Whether the component takes an answer. -/
def isForm : Component → Bool
  | .single (.content _) _ => false
  | _ => true

end Component

/-- The components of a group that take answers. -/
def formComponents (components : List Component) : List Component :=
  components.filter Component.isForm

end Questionnaire
