import Questionnaire.Page.Basic

/-!
# Views of pages

When the first component is the page's only field, its label is the heading of the page, in place of
the page's own title.
-/

namespace Questionnaire

/-- A label as the heading of a page, with the title of its section. -/
def Label.asHeading (label : Label) (sectionTitle : Option String) : Label :=
  { label with
    classes := some "govuk-label--xl"
    html :=
      match sectionTitle with
      | some title =>
        some ("<span class=\"govuk-caption-xl\">" ++ title ++ "</span> " ++ label.text)
      | none => label.html
    isPageHeading := true }

/-- A field with its legend, or else its label, as the heading; and the heading's text. -/
def FieldView.asHeading? (field : FieldView) (sectionTitle : Option String) :
    Option (FieldView × String) :=
  match field.legend, field.label with
  | some legend, _ =>
    some ({ field with legend := some (legend.asHeading sectionTitle) }, legend.text)
  | none, some label =>
    some ({ field with label := some (label.asHeading sectionTitle) }, label.text)
  | none, none => none

namespace Page

/-- The components with the first one's label as the heading, if it is the page's only field. -/
def promoteHeading? (page : Page) (views : List ComponentView) :
    Option (List ComponentView × String) :=
  match views with
  | first :: rest =>
    if page.formComponents.length = 1 && first.isForm then
      (first.field.asHeading? (page.inSection.map SectionDefinition.title)).map fun (field, text) =>
        (first.withField field :: rest, text)
    else none
  | [] => none

/-- The page with values from form data. -/
def view (page : Page) (data : FormData) (errors : Option ErrorSummary) : PageView :=
  let views := componentViews data errors page.components
  let (components, title, showTitle) :=
    match page.promoteHeading? views with
    | some (views, text) => (views, text, false)
    | none => (views, page.title, true)
  { path := page.path
    title
    sectionTitle := page.inSection.map SectionDefinition.title
    showTitle
    components
    errors := errors.filter fun summary => !summary.failures.isEmpty }

end Page

end Questionnaire
