import Questionnaire.State.Merge

/-!
# State stores

Where the state of one questionnaire is held between requests. A store can be read, and an update
can be merged into it; either may fail. A merge gives its answer and the store afterwards, which is
the store before when it fails (`merge_of_mergeError`).
-/

namespace Questionnaire

/-- Why a store did not do what it was asked. -/
inductive StoreError where
  | unavailable (reason : String)
  | rejected (reason : String)
deriving DecidableEq

/-- The wording of a store's failure. -/
def StoreError.message : StoreError → String
  | .unavailable reason => "State store is unavailable: " ++ reason
  | .rejected reason => "State store rejected the update: " ++ reason

/-- A store, the state it holds, and the failures it answers reads and merges with. -/
structure Store where
  held : State
  readError : Option StoreError
  mergeError : Option StoreError

namespace Store

/-- A store that never fails. -/
def inMemory (state : State) : Store := ⟨state, none, none⟩

/-- The held state. -/
def read (store : Store) : Except StoreError State :=
  match store.readError with
  | some e => .error e
  | none => .ok store.held

/-- Merges an update into the held state: the answer, and the store afterwards. -/
def merge (store : Store) (update : State) : Except StoreError State × Store :=
  match store.mergeError with
  | some e => (.error e, store)
  | none => (.ok (store.held.merge update), { store with held := store.held.merge update })

theorem merge_of_mergeError {store : Store} {e : StoreError} (h : store.mergeError = some e)
    (update : State) : store.merge update = (.error e, store) := by
  simp [merge, h]

theorem merge_inMemory (state update : State) :
    (inMemory state).merge update = (.ok (state.merge update), inMemory (state.merge update)) :=
  rfl

end Store

end Questionnaire
