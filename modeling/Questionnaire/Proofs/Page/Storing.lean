import Questionnaire.Page.Submission
import Questionnaire.Proofs.Page.Answers

/-!
# What a submission stores

A submission that proceeds has merged its answers into the page's part of the state
(`submit_proceed`). Of that part it has changed the keys that are answered and no others
(`pageState?_merge`).
-/

namespace Questionnaire

/-! ## Submissions -/

namespace Page

variable {page : Page}

theorem submit_proceed {payload : FormData} {store store' : Store} {next : String} {state : State}
    (h : page.submit payload store = (.ok (.proceed next state), store')) :
    ∃ answers, page.answers payload = .ok answers ∧
      state = store.held.merge (page.asUpdate answers) ∧ store'.held = state := by
  unfold submit at h
  cases hanswers : page.answers payload with
  | error summary =>
      rw [hanswers] at h
      exact nomatch h
  | ok answers =>
      rw [hanswers] at h
      refine ⟨answers, rfl, ?_⟩
      unfold Store.merge at h
      cases herror : store.mergeError with
      | some e =>
          rw [herror] at h
          exact nomatch h
      | none =>
          rw [herror] at h
          cases h
          exact ⟨rfl, rfl⟩

/-- A page is shown again with what is wrong with its answers. -/
theorem submit_rerender {payload : FormData} {store store' : Store} {view : PageView}
    (h : page.submit payload store = (.ok (.rerender view), store')) :
    ∃ summary, page.answers payload = .error summary ∧
      view = page.view payload (some summary) := by
  unfold submit at h
  cases hanswers : page.answers payload with
  | error summary =>
      rw [hanswers] at h
      cases h
      exact ⟨summary, rfl, rfl⟩
  | ok answers =>
      rw [hanswers] at h
      unfold Store.merge at h
      cases herror : store.mergeError <;> rw [herror] at h <;> exact nomatch h

/-- A store in memory takes whatever a page answers. -/
theorem submit_inMemory {payload : FormData} {answers : State}
    (h : page.answers payload = .ok answers) (held : State) :
    page.submit payload (.inMemory held) =
      (.ok (.proceed (page.next (held.merge (page.asUpdate answers)))
          (held.merge (page.asUpdate answers))),
        .inMemory (held.merge (page.asUpdate answers))) := by
  rw [submit, h]
  rfl

theorem ordered_answers {payload : FormData} {answers : State}
    (h : page.answers payload = .ok answers) : answers.Ordered := by
  obtain ⟨data, -, hstate⟩ := answers_eq_ok_iff.mp h
  obtain ⟨-, rfl⟩ := validate_eq_ok_iff.mp hstate
  exact Rule.ordered_checkKeys ..

/-- The state made of submitted data lies under keys of the page's rule for the state. -/
theorem has_of_mem_toState (page : Page) (data : FormData) :
    ∀ member ∈ page.toState data, (Side.state.groupKeys page.components).has member.1 = true := by
  intro member hmember
  have hordered : (page.toState data).Ordered :=
    ordered_addToState data page.components Fields.Ordered.nil
  obtain ⟨q, hq, hname, -⟩ := exists_question data page.components (hordered.get?_of_mem hmember)
  rw [Keys.has_iff_mem_names, Side.mem_names_groupKeys_iff]
  refine ⟨q, hq, ?_⟩
  rw [names_state hq, hname]
  exact List.mem_singleton_self _

/-- The answers of a page lie under keys of its rule for the state. -/
theorem mem_stateKeys_of_answers {payload : FormData} {answers : State}
    (h : page.answers payload = .ok answers) {member : String × Json} (hmember : member ∈ answers) :
    member.1 ∈ (stateKeys page.components).names := by
  obtain ⟨data, -, hstate⟩ := answers_eq_ok_iff.mp h
  obtain ⟨-, rfl⟩ := validate_eq_ok_iff.mp hstate
  exact Keys.has_iff_mem_names.mp (Rule.has_of_mem_checkKeys _ hmember)

/-- The answers of a page are to questions of the page. -/
theorem mem_stateNames_of_answers {payload : FormData} {answers : State}
    (h : page.answers payload = .ok answers) {member : String × Json} (hmember : member ∈ answers) :
    member.1 ∈ stateNames page.components := by
  have hkey := mem_stateKeys_of_answers h hmember
  rw [← Side.groupKeys_state] at hkey
  obtain ⟨q, hq, hname⟩ := Side.state.mem_names_groupKeys_iff.mp hkey
  rw [names_state hq] at hname
  rw [List.mem_singleton.mp hname]
  exact List.mem_map_of_mem hq

/-! ## The page's part of the state -/

/-- What is stored of a page: nothing where its section has no part in the state. -/
def stored (page : Page) (state : State) : State :=
  (page.pageState? state).getD []

theorem stored_nil (page : Page) : page.stored [] = [] := by
  unfold stored pageState?
  cases page.sectionName? <;> rfl

/-- Stored answers after some answers have been merged into them. -/
def Merges (stored answers stored' : State) : Prop :=
  ∀ key, stored'.get? key =
    match answers.get? key with
    | some value => some (mergeValue (stored.get? key) value)
    | none => stored.get? key

theorem mem_mergeFields {update : Fields} : ∀ {target : Fields} {member : String × Json},
    member ∈ mergeFields target update →
    (∃ old ∈ target, old.1 = member.1) ∨ ∃ new ∈ update, new.1 = member.1 := by
  induction update with
  | nil => exact fun h => Or.inl ⟨_, h, rfl⟩
  | cons first rest ih =>
      obtain ⟨key, value⟩ := first
      intro target member hmember
      rw [mergeFields] at hmember
      rcases ih hmember with ⟨old, hold, hkey⟩ | ⟨new, hnew, hkey⟩
      · rcases Fields.mem_insert hold with rfl | hold
        · exact Or.inr ⟨_, List.mem_cons_self .., hkey⟩
        · exact Or.inl ⟨old, hold, hkey⟩
      · exact Or.inr ⟨new, List.mem_cons_of_mem _ hnew, hkey⟩

/-- Merging an object into a value that may be one. -/
theorem mergeValue_obj (old : Option Json) {fields : Fields} (h : fields.Ordered) :
    ∃ merged, mergeValue old (.obj fields) = .obj merged ∧
      Merges ((old.bind Json.obj?).getD []) fields merged ∧
      ∀ member ∈ merged, (∃ before ∈ (old.bind Json.obj?).getD [], before.1 = member.1) ∨
        ∃ new ∈ fields, new.1 = member.1 := by
  have hnew : Merges [] fields fields ∧ ∀ member ∈ fields,
      (∃ before ∈ ([] : Fields), before.1 = member.1) ∨ ∃ new ∈ fields, new.1 = member.1 := by
    refine ⟨fun key => ?_, fun member hmember => Or.inr ⟨member, hmember, rfl⟩⟩
    cases hvalue : fields.get? key with
    | none => rfl
    | some value => cases value <;> rfl
  cases old with
  | none => exact ⟨fields, rfl, hnew⟩
  | some value =>
      cases value with
      | obj target => exact ⟨_, rfl, get?_mergeFields h target, fun _ => mem_mergeFields⟩
      | _ => exact ⟨fields, rfl, hnew⟩

theorem mergeValue_ne_null (old : Option Json) {value : Json} (h : value ≠ .null) :
    mergeValue old value ≠ .null :=
  (mergeValue_eq_iff old rfl).not.mpr h

theorem get?_merge_section (state : State) (name key : String) (answers : State) :
    (state.merge [(name, .obj answers)]).get? key =
      if name = key then some (mergeValue (state.get? name) (.obj answers)) else state.get? key := by
  rw [State.merge, mergeFields, mergeFields, Fields.get?_insert]

/-- Merging answers sets their keys in the page's part of the state, and leaves the others. -/
theorem pageState?_merge (page : Page) (state : State) {answers : State} (h : answers.Ordered) :
    ∃ stored, page.pageState? (state.merge (page.asUpdate answers)) = some stored ∧
      Merges (page.stored state) answers stored ∧
      ∀ member ∈ stored, (∃ before ∈ page.stored state, before.1 = member.1) ∨
        ∃ new ∈ answers, new.1 = member.1 := by
  unfold stored pageState? asUpdate
  cases page.sectionName? with
  | none => exact ⟨_, rfl, get?_mergeFields h state, fun _ => mem_mergeFields⟩
  | some name =>
      obtain ⟨merged, hmerged, hget⟩ := mergeValue_obj (state.get? name) h
      refine ⟨merged, ?_, hget⟩
      show ((state.merge [(name, .obj answers)]).get? name).bind Json.obj? = some merged
      rw [get?_merge_section, if_pos rfl, hmerged]
      rfl

end Page

end Questionnaire
