import Questionnaire.Page.View
import Questionnaire.State.Store

/-!
# Submissions

A submitted page is either shown again with its errors, and then nothing is stored, or its answers
are stored and the next page is known.
-/

namespace Questionnaire

/-- What follows a submission. -/
inductive Submission where
  | rerender (view : PageView)
  | proceed (nextPath : String) (state : State)

namespace Page

/-- The page with the stored answers. -/
def load (page : Page) (store : Store) : Except StoreError PageView :=
  match store.read with
  | .error e => .error e
  | .ok state => .ok (page.view (page.toForm state) none)

/-- Checks a submission and stores its answers: what follows, and the store afterwards. -/
def submit (page : Page) (payload : FormData) (store : Store) :
    Except StoreError Submission × Store :=
  match page.answers payload with
  | .error summary => (.ok (.rerender (page.view payload (some summary))), store)
  | .ok pageState =>
    match store.merge (page.asUpdate pageState) with
    | (.error e, store) => (.error e, store)
    | (.ok state, store) => (.ok (.proceed (page.next state) state), store)

end Page

end Questionnaire
