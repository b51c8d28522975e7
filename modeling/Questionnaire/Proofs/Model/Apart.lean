import Questionnaire.Proofs.Model.Run
import Questionnaire.Proofs.State.Merging

/-!
# Pages that answer apart

Two pages are apart when no answer of one has the place of an answer of the other (`Page.Apart`).
The answers of such pages may be stored in either order (`Page.Apart.merge_comm`), whatever the
state holds before: a section's part that is missing, or no object, is made by the first of them and
merged into by the second.
-/

namespace Questionnaire

/-! ## Updates without a common key -/

theorem mergeFields_comm {target left right : Fields} (htarget : target.Ordered)
    (hleft : left.Ordered) (hright : right.Ordered)
    (h : ∀ key, left.get? key = none ∨ right.get? key = none) :
    mergeFields (mergeFields target left) right = mergeFields (mergeFields target right) left := by
  have hmerged : ∀ first second : Fields,
      Fields.Ordered (mergeFields (mergeFields target first) second) :=
    fun first second => (htarget.mergeFields first).mergeFields second
  refine (hmerged left right).ext (hmerged right left) fun key => ?_
  rw [get?_mergeFields hright, get?_mergeFields hleft, get?_mergeFields hleft,
    get?_mergeFields hright]
  rcases h key with hnone | hnone <;> rw [hnone]

namespace Page

/-- Objects without a common key can be merged into one part of the state in either order. -/
theorem merge_section_comm {state : State} {name : String} {left right : Fields}
    (hstate : Fields.Ordered state)
    (hpart : Fields.Ordered (((state.get? name).bind Json.obj?).getD []))
    (hleft : left.Ordered) (hright : right.Ordered)
    (h : ∀ key, left.get? key = none ∨ right.get? key = none) :
    (state.merge [(name, .obj left)]).merge [(name, .obj right)] =
      (state.merge [(name, .obj right)]).merge [(name, .obj left)] := by
  have hmerged : ∀ first second : Fields, Fields.Ordered ((state.merge first).merge second) :=
    fun first second => (hstate.mergeFields first).mergeFields second
  refine (hmerged _ _).ext (hmerged _ _) fun key => ?_
  simp only [get?_merge_section]
  by_cases hkey : name = key
  · simp only [if_pos hkey, if_true, mergeValue_obj_eq _ hleft, mergeValue_obj_eq _ hright]
    exact congrArg (fun fields => some (Json.obj fields)) (mergeFields_comm hpart hleft hright h)
  · simp only [if_neg hkey]

/-! ## Pages apart -/

/-- No answer of one page has the place of an answer of the other: in one part of the state they
answer under different names, and neither answers outside sections under the name of the other's
section. -/
structure Apart (page other : Page) : Prop where
  names : page.sectionName? = other.sectionName? →
    (stateNames page.components).Disjoint (stateNames other.components)
  inside : ∀ name, page.sectionName? = none → other.sectionName? = some name →
    name ∉ stateNames page.components
  outside : ∀ name, other.sectionName? = none → page.sectionName? = some name →
    name ∉ stateNames other.components

theorem Apart.symm {page other : Page} (h : page.Apart other) : other.Apart page :=
  ⟨fun hsame _ hkey hkey' => h.names hsame.symm hkey' hkey, h.outside, h.inside⟩

/-- What a page may answer: values under names of its questions, in order. -/
structure MayAnswer (page : Page) (answers : State) : Prop where
  ordered : Fields.Ordered answers
  names : ∀ member ∈ answers, member.1 ∈ stateNames page.components

theorem mayAnswer_of_answers {page : Page} {payload : FormData} {answers : State}
    (h : page.answers payload = .ok answers) : page.MayAnswer answers :=
  ⟨ordered_answers h, fun _ => mem_stateNames_of_answers h⟩

variable {page other : Page} {state answers others : State}

theorem MayAnswer.get?_eq_none (h : page.MayAnswer answers) {key : String}
    (hkey : key ∉ stateNames page.components) : answers.get? key = none :=
  Fields.get?_eq_none fun member hmember heq => hkey (heq ▸ h.names member hmember)

theorem MayAnswer.ordered_asUpdate (h : page.MayAnswer answers) :
    Fields.Ordered (page.asUpdate answers) := by
  unfold asUpdate
  cases page.sectionName? with
  | none => exact h.ordered
  | some name => exact List.pairwise_singleton _ _

/-- In one part of the state pages that are apart have no key in common. -/
theorem Apart.get?_eq_none (h : page.Apart other) (hanswers : page.MayAnswer answers)
    (hothers : other.MayAnswer others) (hsame : page.sectionName? = other.sectionName?)
    (key : String) : answers.get? key = none ∨ others.get? key = none := by
  by_cases hkey : key ∈ stateNames page.components
  · exact .inr (hothers.get?_eq_none fun hkey' => h.names hsame hkey hkey')
  · exact .inl (hanswers.get?_eq_none hkey)

/-- Pages apart that do not share a section have no key of the whole state in common. -/
theorem Apart.get?_asUpdate (h : page.Apart other) (hanswers : page.MayAnswer answers)
    (hothers : other.MayAnswer others) (hpart : page.sectionName? ≠ other.sectionName?)
    (key : String) :
    (page.asUpdate answers).get? key = none ∨ (other.asUpdate others).get? key = none := by
  have hsection : ∀ {name : String} {part : State}, name ≠ key →
      Fields.get? [(name, .obj part)] key = none := by
    intro name part hne
    rw [Fields.get?_cons, if_neg hne, Fields.get?_nil]
  unfold asUpdate
  cases hpage : page.sectionName? with
  | none =>
      obtain ⟨name, hname⟩ := Option.ne_none_iff_exists'.mp fun hnone =>
        hpart (hpage.trans hnone.symm)
      rw [hname]
      by_cases hkey : name = key
      · exact .inl (hanswers.get?_eq_none (hkey ▸ h.inside name hpage hname))
      · exact .inr (hsection hkey)
  | some own =>
      by_cases hkey : own = key
      · right
        cases hother : other.sectionName? with
        | none => exact hothers.get?_eq_none (hkey ▸ h.outside own hother hpage)
        | some name =>
            refine hsection fun heq => hpart ?_
            rw [hpage, hother, hkey, heq]
      · exact .inl (hsection hkey)

/-- The answers of pages that are apart may be stored in either order. -/
theorem Apart.merge_comm (h : page.Apart other) (hanswers : page.MayAnswer answers)
    (hothers : other.MayAnswer others) (hstate : Fields.Ordered state)
    (hstored : Fields.Ordered (page.stored state)) :
    (state.merge (page.asUpdate answers)).merge (other.asUpdate others) =
      (state.merge (other.asUpdate others)).merge (page.asUpdate answers) := by
  by_cases hsame : page.sectionName? = other.sectionName?
  · have hnone := h.get?_eq_none hanswers hothers hsame
    unfold stored pageState? at hstored
    unfold asUpdate
    rw [← hsame]
    cases hname : page.sectionName? with
    | none => exact mergeFields_comm hstate hanswers.ordered hothers.ordered hnone
    | some name =>
        rw [hname] at hstored
        exact merge_section_comm hstate hstored hanswers.ordered hothers.ordered hnone
  · exact mergeFields_comm hstate hanswers.ordered_asUpdate hothers.ordered_asUpdate
      (h.get?_asUpdate hanswers hothers hsame)

/-- A page's answers are not touched by what is merged for a page that is apart. -/
theorem Apart.get?_stored_merge (h : page.Apart other) (hothers : other.MayAnswer others) {key : String}
    (hkey : key ∈ stateNames page.components) (state : State) :
    (page.stored (state.merge (other.asUpdate others))).get? key = (page.stored state).get? key :=
  Page.get?_stored_merge hothers.names hothers.ordered
    (fun hsame _ hkey hkey' => h.names hsame hkey hkey') h.outside
    (fun name hother hpage => h.inside name hpage hother) hkey

theorem MayAnswer.stored_merge (h : page.MayAnswer answers) (state : State) :
    page.stored (state.merge (page.asUpdate answers)) =
      mergeFields (page.stored state) answers := by
  unfold stored pageState? asUpdate
  cases page.sectionName? with
  | none => rfl
  | some name =>
      show (((state.merge [(name, .obj answers)]).get? name).bind Json.obj?).getD [] = _
      rw [get?_merge_section, if_pos rfl, mergeValue_obj_eq _ h.ordered]
      rfl

/-- The parts of the state in which pages answer stay in order. -/
theorem MayAnswer.ordered_stored (hanswers : page.MayAnswer answers)
    (hinside : ∀ name, page.sectionName? = none → other.sectionName? = some name →
      name ∉ stateNames page.components)
    (hstate : Fields.Ordered state) (hpage : Fields.Ordered (page.stored state))
    (hother : Fields.Ordered (other.stored state)) :
    Fields.Ordered (other.stored (state.merge (page.asUpdate answers))) := by
  by_cases hsame : other.sectionName? = page.sectionName?
  · rw [stored_congr hsame, hanswers.stored_merge]
    exact hpage.mergeFields answers
  · cases hname : other.sectionName? with
    | none =>
        have hwhole : ∀ state : State, other.stored state = state := by
          intro state
          rw [stored, pageState?, hname]
          rfl
        rw [hwhole]
        exact hstate.mergeFields _
    | some name =>
        rw [stored_merge_other hanswers.names hanswers.ordered hname
          (fun heq => hsame (hname.trans heq.symm)) fun hnone => hinside name hnone hname]
        exact hother

end Page

end Questionnaire
