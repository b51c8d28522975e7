import Questionnaire.Json.Fields
import Questionnaire.Proofs.Component.Question

/-!
# The answers of questions

What valid submitted data is turned into, question by question. Each field makes one answer of the
data (`Component.stored`). The answer of a field behind reveals is kept when it counts as given or
when every item on the way to it is chosen (`Question.isKept`), and the state made of the data has
the answers that are kept and no others (`get?_toState`).
-/

namespace Questionnaire

/-- The answer that a field makes of submitted data. -/
def Component.stored (payload : FormData) : Component → Json
  | .single (.text variant) d => variant.stored (payload.get? d.nameText)
  | .single (.date withTime) d => storedDate withTime (payload.get? d.nameText)
  | .single (.dateParts withTime) d => (SubmittedDate.of withTime d.nameText payload).stored
  | .single .address d => storedAddress d.nameText payload
  | .single .plain d => storedPlain (payload.get? d.nameText)
  | .single (.content _) _ => .null
  | .choice _ d list _ => storedChoice list.type (payload.get? d.nameText)

/-- Whether the item of a reveal is chosen in submitted data. -/
def Reveal.isChosen (payload : FormData) (reveal : Reveal) : Bool :=
  (storedChoice reveal.type (payload.get? reveal.chooser)).selects reveal.item

/-- An item is chosen when the answer of its chooser selects it. -/
theorem Component.Chooses.isChosen_eq {c : Component} {reveal : Reveal} (h : c.Chooses reveal)
    (payload : FormData) : reveal.isChosen payload = (c.stored payload).selects reveal.item := by
  cases c with
  | single kind d => exact h.elim
  | choice variant d list reveals =>
      obtain ⟨hname, htype, -⟩ := h
      rw [Reveal.isChosen, ← hname, ← htype, stored]

/-- Whether the answer to a question is kept. -/
def Question.isKept (payload : FormData) (q : Question) : Bool :=
  (q.field.stored payload).isTruthy || q.behind.all (Reveal.isChosen payload)

theorem Question.isKept_within (payload : FormData) (reveal : Reveal) (q : Question) :
    (q.within reveal).isKept payload =
      (q.isKept payload && (reveal.isChosen payload || (q.field.stored payload).isTruthy)) := by
  simp only [isKept, field_within, behind_within, List.all_append]
  generalize (q.field.stored payload).isTruthy = given
  cases given <;> simp

/-! ## Looking up -/

theorem Fields.Ordered.filter {fields : Fields} (h : fields.Ordered)
    (p : String × Json → Bool) : Fields.Ordered (fields.filter p) :=
  List.Pairwise.filter p h

theorem Fields.get?_filter {fields : Fields} (h : fields.Ordered) (p : Json → Bool) (key : String) :
    Fields.get? (fields.filter fun member => p member.2) key = (fields.get? key).filter p := by
  induction fields with
  | nil => rfl
  | cons member rest ih =>
      obtain ⟨k, value⟩ := member
      have htail := ih (List.pairwise_cons.mp h).2
      rw [get?_cons, List.filter_cons]
      by_cases hkey : k = key
      · subst hkey
        -- A member that is dropped leaves none behind it, since keys ascend.
        cases hp : p value with
        | true => simp [get?_cons, Option.filter, hp]
        | false => simp [htail, h.get?_tail, Option.filter, hp]
      · rw [if_neg hkey, ← htail]
        split
        · rw [get?_cons, if_neg hkey]
        · rfl

theorem get?_keptAnswers {answers : State} (h : answers.Ordered) (selected : Bool) (key : String) :
    (keptAnswers selected answers).get? key =
      (answers.get? key).filter fun value => selected || value.isTruthy :=
  Fields.get?_filter h (fun value => selected || value.isTruthy) key

section

variable (payload : FormData)

theorem SingleKind.ordered_toState (kind : SingleKind) (d : ComponentDefinition) :
    (kind.toState d payload).Ordered := by
  cases kind with
  | content variant => exact Fields.Ordered.nil
  | _ => exact List.pairwise_singleton _ _

theorem ordered_addToState : ∀ (components : List Component) {state : State},
    state.Ordered → (addToState payload state components).Ordered
  | [], _, h => h
  | _ :: rest, _, h => ordered_addToState rest (h.extend _)

theorem ordered_revealedToState (chosen : Json) :
    ∀ (reveals : List (Nat × Json × List Component)) {state : State},
    state.Ordered → (revealedToState payload chosen state reveals).Ordered
  | [], _, h => h
  | _ :: rest, _, h => ordered_revealedToState chosen rest (h.extend _)

theorem Component.ordered_toState : ∀ c : Component, (c.toState payload).Ordered
  | .single kind d => kind.ordered_toState payload d
  | .choice _ _ _ reveals => (ordered_revealedToState payload _ reveals Fields.Ordered.nil).insert ..

theorem get?_addToState (key : String) : ∀ (components : List Component) (state : State),
    (addToState payload state components).get? key =
      ((addToState payload [] components).get? key).or (state.get? key)
  | [], _ => rfl
  | c :: rest, state => by
    have hordered := c.ordered_toState payload
    rw [addToState, addToState, get?_addToState key rest, get?_addToState key rest (Fields.extend [] _),
      Fields.get?_extend hordered, Fields.get?_extend hordered, Fields.get?_nil, Option.or_none,
      Option.or_assoc]

theorem get?_revealedToState (chosen : Json) (key : String) :
    ∀ (reveals : List (Nat × Json × List Component)) (state : State),
    (revealedToState payload chosen state reveals).get? key =
      ((revealedToState payload chosen [] reveals).get? key).or (state.get? key)
  | [], _ => rfl
  | (i, item, components) :: rest, state => by
    have hordered : (keptAnswers (chosen.selects item)
        (addToState payload [] components)).Ordered :=
      (ordered_addToState payload components Fields.Ordered.nil).filter _
    rw [revealedToState, revealedToState, get?_revealedToState chosen key rest,
      get?_revealedToState chosen key rest (Fields.extend [] _),
      Fields.get?_extend hordered, Fields.get?_extend hordered, Fields.get?_nil, Option.or_none,
      Option.or_assoc]

theorem get?_addToState_cons (key : String) (c : Component) (rest : List Component) :
    (addToState payload [] (c :: rest)).get? key =
      ((addToState payload [] rest).get? key).or ((c.toState payload).get? key) := by
  rw [addToState, get?_addToState, Fields.get?_extend (c.ordered_toState payload), Fields.get?_nil,
    Option.or_none]

theorem get?_revealedToState_cons (chosen : Json) (key : String) (i : Nat) (item : Json)
    (components : List Component) (rest : List (Nat × Json × List Component)) :
    (revealedToState payload chosen [] ((i, item, components) :: rest)).get? key =
      ((revealedToState payload chosen [] rest).get? key).or
        (((addToState payload [] components).get? key).filter fun value =>
          chosen.selects item || value.isTruthy) := by
  have hordered := ordered_addToState payload components Fields.Ordered.nil
  have hkept : (keptAnswers (chosen.selects item) (addToState payload [] components)).Ordered :=
    hordered.filter _
  rw [revealedToState, get?_revealedToState, Fields.get?_extend hkept, Fields.get?_nil,
    Option.or_none, get?_keptAnswers hordered]

end

/-! ## What the state holds -/

section

variable (payload : FormData)

mutual

theorem Component.exists_question : ∀ (c : Component) {key : String} {value : Json},
    (c.toState payload).get? key = some value →
    ∃ q ∈ c.questions, q.name = key ∧ q.isKept payload = true ∧ value = q.field.stored payload
  | .single kind d, key, value, h => by
    cases kind with
    | content variant => exact nomatch h
    | _ =>
        simp only [Component.toState, SingleKind.toState, answer, Fields.get?_cons,
          Fields.get?_nil, Option.ite_none_right_eq_some, Option.some.injEq] at h
        exact ⟨_, List.mem_singleton_self _, h.1, by simp [Question.isKept], h.2.symm⟩
  | .choice variant d list reveals, key, value, h => by
    rw [Component.toState, Fields.get?_insert] at h
    by_cases hkey : d.nameText = key
    · rw [if_pos hkey] at h
      exact ⟨_, List.mem_cons_self .., hkey, by simp [Question.isKept], (Option.some.inj h).symm⟩
    · rw [if_neg hkey] at h
      obtain ⟨q, hq, hname, hkept⟩ := exists_question_of_revealed reveals rfl h
      exact ⟨q, List.mem_cons_of_mem _ hq, hname, hkept⟩

/-- Every answer of the state is that of a question. -/
theorem exists_question : ∀ (components : List Component) {key : String} {value : Json},
    (addToState payload [] components).get? key = some value →
    ∃ q ∈ questions components,
      q.name = key ∧ q.isKept payload = true ∧ value = q.field.stored payload
  | [], _, _, h => nomatch h
  | c :: rest, key, value, h => by
    rw [get?_addToState_cons, Option.or_eq_some_iff] at h
    rcases h with h | ⟨-, h⟩
    · obtain ⟨q, hq, hkept⟩ := exists_question rest h
      exact ⟨q, List.mem_append_right _ hq, hkept⟩
    · obtain ⟨q, hq, hkept⟩ := c.exists_question h
      exact ⟨q, List.mem_append_left _ hq, hkept⟩

theorem exists_question_of_revealed : ∀ (reveals : List (Nat × Json × List Component))
    {chooser : String} {type : ListType} {chosen : Json} {key : String} {value : Json},
    chosen = storedChoice type (payload.get? chooser) →
    (revealedToState payload chosen [] reveals).get? key = some value →
    ∃ q ∈ revealedQuestions chooser type reveals,
      q.name = key ∧ q.isKept payload = true ∧ value = q.field.stored payload
  | [], _, _, _, _, _, _, h => nomatch h
  | (i, item, components) :: rest, chooser, type, chosen, key, value, hchosen, h => by
    rw [get?_revealedToState_cons, Option.or_eq_some_iff] at h
    rcases h with h | ⟨-, h⟩
    · obtain ⟨q, hq, hkept⟩ := exists_question_of_revealed rest hchosen h
      exact ⟨q, List.mem_append_right _ hq, hkept⟩
    · obtain ⟨h, hfilter⟩ := Option.filter_eq_some_iff.mp h
      obtain ⟨q, hq, hname, hkept, rfl⟩ := exists_question components h
      refine ⟨q.within ⟨chooser, type, item⟩, List.mem_append_left _ (List.mem_map_of_mem hq),
        hname, ?_, rfl⟩
      subst hchosen
      rw [Question.isKept_within, hkept, Bool.true_and]
      exact hfilter

end

mutual

theorem Component.isSome_get?_toState : ∀ (c : Component) {key : String},
    (∃ q ∈ c.questions, q.name = key) →
    (∀ q ∈ c.questions, q.name = key → q.isKept payload = true) →
    ((c.toState payload).get? key).isSome = true
  | .single kind d, key, ⟨q, hq, hname⟩, _ => by
    cases kind <;>
      simp_all [Component.questions, Component.toState, SingleKind.toState, answer,
        Fields.get?_cons, Question.name, Component.name, Component.definition]
  | .choice variant d list reveals, key, ⟨q, hq, hname⟩, hkept => by
    rw [Component.toState, Fields.get?_insert]
    split
    · rfl
    · next hne =>
      rcases List.mem_cons.mp hq with rfl | hq
      · exact absurd hname hne
      · exact isSome_get?_revealedToState reveals rfl ⟨q, hq, hname⟩
          fun other hother => hkept other (List.mem_cons_of_mem _ hother)

/-- A name whose questions all have answers that are kept has an answer. -/
theorem isSome_get?_addToState : ∀ (components : List Component) {key : String},
    (∃ q ∈ questions components, q.name = key) →
    (∀ q ∈ questions components, q.name = key → q.isKept payload = true) →
    ((addToState payload [] components).get? key).isSome = true
  | [], _, ⟨_, hq, _⟩, _ => nomatch hq
  | c :: rest, key, ⟨q, hq, hname⟩, hkept => by
    rw [get?_addToState_cons, Option.isSome_or, Bool.or_eq_true]
    rcases List.mem_append.mp hq with hq | hq
    · exact Or.inr (c.isSome_get?_toState ⟨q, hq, hname⟩
        fun other hother => hkept other (List.mem_append_left _ hother))
    · exact Or.inl (isSome_get?_addToState rest ⟨q, hq, hname⟩
        fun other hother => hkept other (List.mem_append_right _ hother))

theorem isSome_get?_revealedToState : ∀ (reveals : List (Nat × Json × List Component))
    {chooser : String} {type : ListType} {chosen : Json} {key : String},
    chosen = storedChoice type (payload.get? chooser) →
    (∃ q ∈ revealedQuestions chooser type reveals, q.name = key) →
    (∀ q ∈ revealedQuestions chooser type reveals, q.name = key → q.isKept payload = true) →
    ((revealedToState payload chosen [] reveals).get? key).isSome = true
  | [], _, _, _, _, _, ⟨_, hq, _⟩, _ => nomatch hq
  | (i, item, components) :: rest, chooser, type, chosen, key, hchosen, ⟨q, hq, hname⟩, hkept => by
    rw [get?_revealedToState_cons, Option.isSome_or, Bool.or_eq_true]
    rcases List.mem_append.mp hq with hq | hq
    · right
      obtain ⟨inner, hinner, rfl⟩ := List.mem_map.mp hq
      have hinside : ∀ other ∈ questions components, other.name = key →
          other.isKept payload = true ∧
            (chosen.selects item || (other.field.stored payload).isTruthy) = true := by
        intro other hother hname
        have hkept := hkept _ (List.mem_append_left _ (List.mem_map_of_mem hother)) hname
        rw [Question.isKept_within, Bool.and_eq_true] at hkept
        subst hchosen
        exact hkept
      obtain ⟨value, hvalue⟩ := Option.isSome_iff_exists.mp
        (isSome_get?_addToState components ⟨inner, hinner, hname⟩ fun other hother hname =>
          (hinside other hother hname).1)
      -- Some question of the name made the answer, so the filter asks what is known of it.
      obtain ⟨other, hother, hname', -, rfl⟩ := exists_question payload components hvalue
      rw [hvalue, Option.isSome_iff_exists]
      exact ⟨_, Option.filter_eq_some_iff.mpr ⟨rfl, (hinside other hother hname').2⟩⟩
    · left
      exact isSome_get?_revealedToState rest hchosen ⟨q, hq, hname⟩
        fun other hother => hkept other (List.mem_append_right _ hother)

end

/-- The state holds the answer to the only question of a name just when the answer is kept. -/
theorem get?_toState {components : List Component} {q : Question} (hq : q ∈ questions components)
    (hsole : ∀ other ∈ questions components, other.name = q.name → other = q) :
    (toState components payload).get? q.name =
      if q.isKept payload then some (q.field.stored payload) else none := by
  cases hvalue : (toState components payload).get? q.name with
  | none =>
      split
      · next hkept =>
        have hsome := isSome_get?_addToState payload components ⟨q, hq, rfl⟩
          fun other hother hname => hsole other hother hname ▸ hkept
        rw [show addToState payload [] components = toState components payload from rfl,
          hvalue] at hsome
        exact nomatch hsome
      · rfl
  | some value =>
      obtain ⟨other, hother, hname, hkept, rfl⟩ := exists_question payload components hvalue
      obtain rfl := hsole other hother hname
      rw [if_pos hkept]

end

end Questionnaire
