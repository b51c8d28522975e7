import Questionnaire.Component.Registry
import Questionnaire.Component.Rules
import Questionnaire.Definition.Error

/-!
# Compiling components

A component is compiled from its definition with the lists and the types there are. A field that
chooses from a list compiles the components that the list's items reveal, and these may choose from
lists in turn. A chain of reveals longer than the number of lists comes back to a list it has been
through, so the length of the chain is bounded by that number, and compiling ends.
-/

namespace Questionnaire

/-- The name of the list of the answers yes and no. -/
def yesNoListName : String := "__yesNo"

/-- What a component is compiled with. -/
structure CompileContext where
  lists : List ListDefinition
  types : TypeRegistry
  /-- The page that holds the component. -/
  location : String

namespace CompileContext

/-- The name of the list that a choice uses. -/
def listName (variant : ChoiceVariant) (d : ComponentDefinition) : String :=
  if variant = .yesNo then yesNoListName else d.options.list.getD ""

/-- The list that a choice uses. -/
def listFor (context : CompileContext) (variant : ChoiceVariant) (d : ComponentDefinition) :
    Except DefinitionError ListDefinition :=
  match findList? context.lists (listName variant d) with
  | some list => .ok list
  | none => .error (.unknownList context.location d.nameText (listName variant d))

end CompileContext

/-- The items of a list that reveal something, with their indices. -/
def revealingItems (list : ListDefinition) : List (Nat × Json × List ComponentDefinition) :=
  list.items.zipIdx.filterMap fun (item, i) =>
    match item.revealed with
    | some (d :: ds) => some (i, item.value, d :: ds)
    | _ => none

/-- The first name that occurs a second time. -/
def firstRepeated? : (seen names : List String) → Option String
  | _, [] => none
  | seen, name :: rest =>
    if seen.contains name then some name else firstRepeated? (name :: seen) rest

/-- The keys of submitted data of every component of a group, one after another. -/
def claimedNames (components : List Component) : List String :=
  (formComponents components).flatMap fun c => c.formKeys.names

/-- A group of components, which must not use one name for two inputs. -/
def asGroup (context : CompileContext) (components : List Component) :
    Except DefinitionError (List Component) :=
  match firstRepeated? [] (claimedNames components) with
  | some name => .error (.duplicateName context.location name)
  | none => .ok components

/-- A component that takes an answer must have a name. -/
def requireName (context : CompileContext) (c : Component) : Except DefinitionError Component :=
  if c.isForm && c.name = "" then .error (.missingName context.location c.type) else .ok c

/-- Compiles what the items of a list reveal, if reveals are still open. -/
def compileReveals (context : CompileContext) (list : ListDefinition)
    (inner? : Option (ComponentDefinition → Except DefinitionError Component))
    (revealing : List (Nat × Json × List ComponentDefinition)) :
    Except DefinitionError (List (Nat × Json × List Component)) :=
  match revealing, inner? with
  | [], _ => .ok []
  | _ :: _, none => .error (.endlessReveal context.location list.name)
  | item :: rest, some inner =>
    (item :: rest).mapM fun (i, value, definitions) => do
      let components ← definitions.mapM inner
      pure (i, value, ← asGroup context components)

/-- Compiles a component, and what it reveals by a compiler one step further in. -/
def compileWith (context : CompileContext)
    (inner? : Option (ComponentDefinition → Except DefinitionError Component))
    (d : ComponentDefinition) : Except DefinitionError Component :=
  match context.types.kind? d.type with
  | none => .error (.unknownComponentType context.location d.nameText d.type)
  | some (.single kind) => requireName context (.single kind d)
  | some (.choice variant) => do
    let list ← context.listFor variant d
    let revealing := if variant.reveals then revealingItems list else []
    let reveals ← compileReveals context list inner? revealing
    requireName context (.choice variant d list reveals)

/-- Compiles a component that is revealed by at most as many lists as `depth` leaves open. -/
def compileComponent (context : CompileContext) :
    (depth : Nat) → ComponentDefinition → Except DefinitionError Component
  | 0 => compileWith context none
  | depth + 1 => compileWith context (some (compileComponent context depth))

/-- Compiles one component. -/
def compileOne (context : CompileContext) (d : ComponentDefinition) :
    Except DefinitionError Component :=
  compileComponent context context.lists.length d

/-- Compiles a group of components. -/
def compileGroup (context : CompileContext) (definitions : List ComponentDefinition) :
    Except DefinitionError (List Component) := do
  let components ← definitions.mapM (compileOne context)
  asGroup context components

end Questionnaire
