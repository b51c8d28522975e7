import Questionnaire.Definition.Reading
import Questionnaire.Json.Parser
import Questionnaire.Page.Submission

/-!
# Models

A compiled questionnaire. Compiling checks the definition's structure first, reads it, and then
compiles conditions and pages. The answers yes and no are a list like any other, added to the
definition when it does not have it.

A compiled questionnaire answers requests by page path; a path that no page has is an error of its
own.

The rule for the whole state asks for the answers of pages outside any section at the top, and for
those of each section's pages in an object of the section's name.
-/

namespace Questionnaire

/-- A compiled questionnaire. -/
structure Model where
  definition : FormDefinition
  conditions : Registry
  pages : List Page
  options : Options
  /-- The rule for the whole state. -/
  schema : Rule

/-- The list of the answers yes and no. -/
def yesNoList : ListDefinition :=
  { name := yesNoListName
    title := "Yes/No"
    type := .boolean
    items := [{ text := "Yes", value := .bool true }, { text := "No", value := .bool false }] }

/-- The definition with the list of the answers yes and no. -/
def FormDefinition.withYesNo (form : FormDefinition) : FormDefinition :=
  if form.lists.any (·.name == yesNoListName) then form
  else { form with lists := form.lists ++ [yesNoList] }

/-- The rule for an object with the answers of some pages. -/
def pagesSchema (pages : List Page) : Rule :=
  pages.foldl (fun rule page => rule.concat page.stateSchema) (Rule.ofKeys []).required

/-- The pages of a section; `none` stands for no section. -/
def pagesIn (pages : List Page) (name : Option String) : List Page :=
  pages.filter fun page => page.sectionName? == name

/-- Adds a section's part to the rule for the whole state, if the section has pages. -/
def addSection (pages : List Page) (schema : Rule) (s : SectionDefinition) : Rule :=
  if (pagesIn pages (some s.name)).isEmpty then schema
  else schema.append s.name ((pagesSchema (pagesIn pages (some s.name))).labelled s.title)

/-- The rule for the whole state. -/
def modelSchema (sections : List SectionDefinition) (pages : List Page) : Rule :=
  sections.foldl (addSection pages) (pagesSchema (pagesIn pages none))

/-- Why a request for a page has no answer. -/
inductive RequestError where
  | store (e : StoreError)
  | unknownPage (path : String)
deriving DecidableEq

/-- The wording of a request's failure. -/
def RequestError.message : RequestError → String
  | .store e => e.message
  | .unknownPage path => "No page is registered at '" ++ path ++ "'"

namespace Model

/-- Compiles a definition that has been read. -/
def compile (form : FormDefinition) (options : Options) (types : TypeRegistry) :
    Except DefinitionError Model := do
  let form := form.withYesNo
  let conditions ← Registry.compile form.conditions
  let pages ← form.pages.mapM fun d =>
    Page.compile d form.sections ⟨form.lists, types, d.path⟩ conditions options
  pure ⟨form, conditions, pages, options, modelSchema form.sections pages⟩

/-- Compiles a definition. -/
def ofJson (source : Json) (options : Options) (types : TypeRegistry) :
    Except DefinitionError Model :=
  match Structure.issues source with
  | [] =>
    match FormDefinition.ofJson? source with
    | none => .error .unreadable
    | some form => compile form options types
  | issues => .error (.invalidStructure issues)

/-- Compiles a definition from its text. -/
def ofText (text : String) : Except DefinitionError Model :=
  match Json.parse? text with
  | none => .error .notJson
  | some source => ofJson source {} .builtin

/-- The page at a path. -/
def page? (model : Model) (path : String) : Option Page :=
  model.pages.find? (·.path == path)

/-- The page that a questionnaire starts with. -/
def startPage? (model : Model) : Option Page :=
  model.pages.head?

/-- The path that follows a page for a state. -/
def next? (model : Model) (path : String) (state : State) : Option String :=
  (model.page? path).map (·.next state)

/-- The page at a path, with the stored answers. -/
def view (model : Model) (path : String) (store : Store) : Except RequestError PageView :=
  match model.page? path with
  | none => .error (.unknownPage path)
  | some page => (page.load store).mapError .store

/-- Submits the page at a path: what follows, and the store afterwards. -/
def submit (model : Model) (path : String) (payload : FormData) (store : Store) :
    Except RequestError Submission × Store :=
  match model.page? path with
  | none => (.error (.unknownPage path), store)
  | some page =>
    let (result, store) := page.submit payload store
    (result.mapError .store, store)

/-- The list of a name. -/
def list? (model : Model) (name : String) : Option ListDefinition :=
  findList? model.definition.lists name

/-- Checks the whole state. -/
def validateState (model : Model) (state : State) : Except (List Failure) Json :=
  model.schema.validate ⟨model.options.allowUnknownStateKeys⟩ (.obj state)

end Model

end Questionnaire
