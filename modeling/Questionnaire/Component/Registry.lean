import Questionnaire.Component.Basic
import Questionnaire.Text.Quoted
import Questionnaire.Text.Sorted

/-!
# Types of components

Which kind of component each type's tag stands for. There are nineteen built-in types; a registry
starts with them and can be given more tags, also in place of built-in ones.
-/

namespace Questionnaire

/-- The built-in types. -/
def builtinTypes : List (String × ComponentKind) :=
  [("TextField", .single (.text .line)),
    ("MultilineTextField", .single (.text .multiline)),
    ("TelephoneNumberField", .single (.text .telephone)),
    ("EmailAddressField", .single (.text .email)),
    ("NumberField", .single (.text .number)),
    ("DateField", .single (.date false)),
    ("DateTimeField", .single (.date true)),
    ("DatePartsField", .single (.dateParts false)),
    ("DateTimePartsField", .single (.dateParts true)),
    ("YesNoField", .choice .yesNo),
    ("SelectField", .choice .select),
    ("RadiosField", .choice .radios),
    ("CheckboxesField", .choice .checkboxes),
    ("UkAddressField", .single .address),
    ("Para", .single (.content .para)),
    ("Html", .single (.content .html)),
    ("InsetText", .single (.content .insetText)),
    ("Details", .single (.content .details)),
    ("WarningText", .single (.content .warningText))]

/-- The kind of a built-in type. -/
def builtinKind? (tag : String) : Option ComponentKind :=
  builtinTypes.lookup tag

/-- The kinds of component by tag; of two entries for a tag the first counts. -/
structure TypeRegistry where
  types : List (String × ComponentKind)

namespace TypeRegistry

/-- The built-in types and no others. -/
def builtin : TypeRegistry := ⟨builtinTypes⟩

instance : Inhabited TypeRegistry := ⟨builtin⟩

/-- Gives a tag a kind. -/
def register (registry : TypeRegistry) (tag : String) (kind : ComponentKind) : TypeRegistry :=
  ⟨(tag, kind) :: registry.types.filter (·.1 != tag)⟩

/-- Gives a tag the kind of a built-in type, if there is one of that name. -/
def alias? (registry : TypeRegistry) (tag builtin : String) : Option TypeRegistry :=
  (builtinKind? builtin).map (registry.register tag)

/-- The kind of a tag. -/
def kind? (registry : TypeRegistry) (tag : String) : Option ComponentKind :=
  registry.types.lookup tag

/-- The tags, in order. -/
def tags (registry : TypeRegistry) : List String :=
  Text.sorted (registry.types.map (·.1))

/-- The registry in one line, for logs. -/
def describe (registry : TypeRegistry) : String :=
  "ComponentRegistry \x7b types: [" ++
    String.intercalate ", " (registry.tags.map Text.quoted) ++ "] \x7d"

end TypeRegistry

end Questionnaire
