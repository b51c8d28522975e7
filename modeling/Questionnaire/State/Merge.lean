import Questionnaire.Json.Fields
import Questionnaire.State.Basic

/-!
# Deep merging

`merge target update` sets the members of an update in a state. Where both hold objects they merge
member by member; anything else, arrays included, is replaced (`get?_mergeFields`).
-/

namespace Questionnaire

mutual

/-- The value left of `old` after an update by a value. -/
def mergeValue (old : Option Json) : Json → Json
  | .obj fields =>
    match old with
    | some (.obj target) => .obj (mergeFields target fields)
    | _ => .obj fields
  | value => value

/-- Sets the members of an update one after another. -/
def mergeFields (target : List (String × Json)) : List (String × Json) → List (String × Json)
  | [] => target
  | (key, value) :: rest =>
    mergeFields (Fields.insert key (mergeValue (Fields.get? target key) value) target) rest

end

/-- Merging makes of an object an object, and sets any other value as it is. -/
theorem mergeValue_eq_iff (old : Option Json) {value target : Json} (h : target.isObj = false) :
    mergeValue old value = target ↔ value = target := by
  cases value with
  | obj fields =>
      have hmerged : ∃ merged, mergeValue old (.obj fields) = .obj merged := by
        unfold mergeValue
        split <;> exact ⟨_, rfl⟩
      obtain ⟨merged, hmerged⟩ := hmerged
      rw [hmerged]
      constructor <;> (rintro rfl; cases h)
  | _ => rfl

theorem get?_mergeFields {update : Fields} (h : update.Ordered) (target : Fields) (key : String) :
    Fields.get? (mergeFields target update) key =
      match update.get? key with
      | some value => some (mergeValue (target.get? key) value)
      | none => target.get? key := by
  induction update generalizing target with
  | nil => rfl
  | cons member rest ih =>
    obtain ⟨k, v⟩ := member
    rw [mergeFields, ih (List.pairwise_cons.mp h).2, Fields.get?_insert, Fields.get?_cons]
    by_cases hkey : k = key
    · subst hkey
      simp [h.get?_tail]
    · simp [hkey]

theorem Fields.Ordered.mergeFields {target : Fields} (h : target.Ordered) (update : Fields) :
    Ordered (mergeFields target update) := by
  induction update generalizing target with
  | nil => exact h
  | cons member rest ih =>
    rw [Questionnaire.mergeFields]
    exact ih (h.insert ..)

/-- The state after an update. -/
def State.merge (state update : State) : State :=
  mergeFields state update

@[simp] theorem State.merge_nil (state : State) : state.merge [] = state := rfl

end Questionnaire
