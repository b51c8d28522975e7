import Questionnaire.Proofs.Page.Storing

/-!
# What a submission may change

A submission is stored as a whole or not at all. One that is refused is shown again with what is
wrong with it, and the store is as before; so it is when the store fails. One that is taken changes
the state under the keys of the page's own rule and nowhere else (`keepsOthers_merge`), since an
accepted state holds no other keys, and merging looks at no others.
-/

namespace Questionnaire

/-- A rule refuses a value only with failures. -/
theorem Rule.ne_nil_of_validate {rule : Rule} {options : ValidationOptions} {value : Json}
    {failures : List Failure} (h : rule.validate options value = .error failures) :
    failures ≠ [] := by
  unfold Rule.validate at h
  dsimp only at h
  split at h
  · exact nomatch h
  · next hfails =>
    cases h
    exact fun hnil => hfails (List.isEmpty_iff.mpr hnil)

namespace Page

variable {page : Page}

/-! ## Refusals -/

/-- The failures of a submission: those of the submitted data, or where that is valid, those of the
state that is made of it. -/
inductive FailsWith (page : Page) (payload : FormData) (failures : List Failure) : Prop
  | form (h : page.formSchema.validate {} (.obj payload) = .error failures)
  | state {data : FormData} (hdata : page.validateForm payload = .ok data)
      (h : page.stateSchema.validate {} (.obj (page.toState data)) = .error failures)

theorem FailsWith.ne_nil {payload : FormData} {failures : List Failure}
    (h : page.FailsWith payload failures) : failures ≠ [] := by
  cases h with
  | form h => exact Rule.ne_nil_of_validate h
  | state _ h => exact Rule.ne_nil_of_validate h

theorem failsWith_of_answers {payload : FormData} {summary : ErrorSummary}
    (h : page.answers payload = .error summary) :
    summary.title = page.options.errorSummaryTitle ∧ page.FailsWith payload summary.failures := by
  unfold Page.answers at h
  cases hdata : page.validateForm payload with
  | error refusal =>
      rw [hdata] at h
      cases h
      obtain ⟨htitle, hfails⟩ := validate_eq_error_iff.mp hdata
      exact ⟨htitle, .form hfails⟩
  | ok data =>
      rw [hdata] at h
      obtain ⟨htitle, hfails⟩ := validate_eq_error_iff.mp h
      exact ⟨htitle, .state hdata hfails⟩

/-- A page that is shown again lists its failures, if there are any. -/
theorem errors_view (data : FormData) {summary : ErrorSummary} (h : summary.failures ≠ []) :
    (page.view data (some summary)).errors = some summary := by
  show (some summary).filter (fun summary => !summary.failures.isEmpty) = some summary
  simp [Option.filter, h]

/-! ## The rest of the state -/

/-- Whatever is not the page's own is as before: outside a section all but the keys of the page's
rule for the state, and in one all other parts of the state, with all but the keys of the rule in
the section's part. -/
def KeepsOthers (page : Page) (before after : State) : Prop :=
  match page.sectionName? with
  | none => ∀ key, key ∉ (stateKeys page.components).names → after.get? key = before.get? key
  | some name =>
    (∀ key, key ≠ name → after.get? key = before.get? key) ∧
      ∀ part, before.get? name = some (.obj part) →
        ∃ part', after.get? name = some (.obj part') ∧
          ∀ key, key ∉ (stateKeys page.components).names →
            Fields.get? part' key = Fields.get? part key

/-- Merging answers leaves whatever has no answer. -/
theorem Merges.get?_of_none {stored answers stored' : State} (h : Merges stored answers stored')
    {key : String} (hnone : answers.get? key = none) : stored'.get? key = stored.get? key := by
  rw [h key, hnone]

theorem keepsOthers_merge {answers : State} (hordered : answers.Ordered)
    (hkeys : ∀ member ∈ answers, member.1 ∈ (stateKeys page.components).names) (state : State) :
    page.KeepsOthers state (state.merge (page.asUpdate answers)) := by
  have hnone : ∀ key, key ∉ (stateKeys page.components).names → answers.get? key = none := by
    intro key hkey
    exact Fields.get?_eq_none fun member hmember heq => hkey (heq ▸ hkeys member hmember)
  unfold KeepsOthers asUpdate
  cases page.sectionName? with
  | none =>
      intro key hkey
      exact Merges.get?_of_none (get?_mergeFields hordered state) (hnone key hkey)
  | some name =>
      refine ⟨fun key hne => ?_, fun part hpart => ?_⟩
      · show (state.merge [(name, .obj answers)]).get? key = _
        rw [get?_merge_section, if_neg (Ne.symm hne)]
      · obtain ⟨merged, hmerged, hmerges, -⟩ := mergeValue_obj (some (.obj part)) hordered
        refine ⟨merged, ?_, fun key hkey => hmerges.get?_of_none (hnone key hkey)⟩
        show (state.merge [(name, .obj answers)]).get? name = _
        rw [get?_merge_section, if_pos rfl, hpart, hmerged]

/-! ## Submissions -/

/-- A submission is atomic. When it is shown again or the store fails, the store is as before; what
is shown again lists the failures of the submission and nothing else. When it proceeds, the store
holds the state that is returned, which leads to the next page and in which whatever is not the
page's own is as before. -/
theorem submit_atomic (page : Page) (payload : FormData) (store : Store) :
    match page.submit payload store with
    | (.error e, after) => after = store ∧ store.mergeError = some e
    | (.ok (.rerender view), after) =>
      after = store ∧ ∃ summary, view.errors = some summary ∧
        summary.title = page.options.errorSummaryTitle ∧ summary.failures ≠ [] ∧
        page.FailsWith payload summary.failures
    | (.ok (.proceed next state), after) =>
      after = { store with held := state } ∧ next = page.next state ∧
        page.KeepsOthers store.held state := by
  unfold submit
  cases hanswers : page.answers payload with
  | error summary =>
      obtain ⟨htitle, hfails⟩ := failsWith_of_answers hanswers
      exact ⟨rfl, summary, errors_view payload hfails.ne_nil, htitle, hfails.ne_nil, hfails⟩
  | ok answers =>
      unfold Store.merge
      cases store.mergeError with
      | some e => exact ⟨rfl, rfl⟩
      | none =>
          refine ⟨rfl, rfl, ?_⟩
          exact keepsOthers_merge (ordered_answers hanswers)
            (fun _ => mem_stateKeys_of_answers hanswers) store.held

end Page

end Questionnaire
