import Questionnaire.Component.Rules
import Questionnaire.Proofs.Component.Question
import Questionnaire.Proofs.Rule.Entries
import Questionnaire.Rule.Validation

/-!
# The rule that a question meets

Submitted data and stored state have rules by key that are built in the same way: each field has
its own, and a reveal wraps the rules of what it reveals (`Side`). A key that one question alone
contributes has that question's rule, wrapped by its reveals (`Side.get?_groupKeys`), and of these
the innermost decides how the field's own rule is asked (`check_behind`).
-/

namespace Questionnaire

/-! ## The two sides -/

/-- How the rules by key of submitted data, or of stored state, are built from fields. -/
structure Side where
  /-- What stands for no answer. -/
  blank : Json
  single : SingleKind → ComponentDefinition → Keys
  choice : ChoiceVariant → ComponentDefinition → ListDefinition → Rule
  single_nodup : ∀ kind d, (single kind d).names.Nodup
  single_content : ∀ variant d, single (.content variant) d = []

theorem SingleKind.nodup_formKeys (kind : SingleKind) (d : ComponentDefinition) :
    (kind.formKeys d).names.Nodup := by
  cases kind with
  | dateParts withTime => exact Keys.nodup_names_ofList _
  | address => exact Keys.nodup_names_ofList _
  | content variant => exact List.nodup_nil
  | _ => exact List.nodup_singleton _

theorem SingleKind.nodup_stateKeys (kind : SingleKind) (d : ComponentDefinition) :
    (kind.stateKeys d).names.Nodup := by
  cases kind with
  | content variant => exact List.nodup_nil
  | _ => exact List.nodup_singleton _

namespace Side

/-- Submitted data. -/
def form : Side :=
  ⟨.str "", SingleKind.formKeys, ChoiceVariant.formRule, SingleKind.nodup_formKeys, fun _ _ => rfl⟩

/-- Stored state. -/
def state : Side :=
  ⟨.null, SingleKind.stateKeys, ChoiceVariant.stateRule, SingleKind.nodup_stateKeys,
    fun _ _ => rfl⟩

/-- The rules of a field itself, without what it reveals. -/
def own (side : Side) : Component → Keys
  | .single kind d => side.single kind d
  | .choice variant d list _ => [(d.nameText, side.choice variant d list)]

mutual

/-- The rules by key of a component. -/
def keys (side : Side) : Component → Keys
  | .single kind d => side.single kind d
  | .choice variant d list reveals =>
    Keys.extend [(d.nameText, side.choice variant d list)] (side.revealKeys d.nameText reveals)

/-- The rules by key of a group of components. -/
def groupKeys (side : Side) : List Component → Keys
  | [] => []
  | c :: rest => Keys.extend (side.keys c) (side.groupKeys rest)

/-- The rules by key of what a field reveals. -/
def revealKeys (side : Side) (chooser : String) : List (Nat × Json × List Component) → Keys
  | [] => []
  | (_, item, components) :: rest =>
    Keys.extend (revealedKeys chooser item side.blank (side.groupKeys components))
      (side.revealKeys chooser rest)

end

mutual

theorem keys_form : ∀ c : Component, form.keys c = c.formKeys
  | .single _ _ => rfl
  | .choice _ d list reveals => by
    rw [keys, Component.formKeys, revealKeys_form]
    rfl

theorem groupKeys_form : ∀ components : List Component, form.groupKeys components = formKeys components
  | [] => rfl
  | c :: rest => by rw [groupKeys, formKeys, keys_form c, groupKeys_form rest]

theorem revealKeys_form : ∀ (reveals : List (Nat × Json × List Component)) (chooser : String),
    form.revealKeys chooser reveals = revealedFormKeys chooser reveals
  | [], _ => rfl
  | (_, _, components) :: rest, chooser => by
    rw [revealKeys, revealedFormKeys, groupKeys_form components, revealKeys_form rest]
    rfl

end

mutual

theorem keys_state : ∀ c : Component, state.keys c = c.stateKeys
  | .single _ _ => rfl
  | .choice _ d list reveals => by
    rw [keys, Component.stateKeys, revealKeys_state]
    rfl

theorem groupKeys_state : ∀ components : List Component,
    state.groupKeys components = stateKeys components
  | [] => rfl
  | c :: rest => by rw [groupKeys, stateKeys, keys_state c, groupKeys_state rest]

theorem revealKeys_state : ∀ (reveals : List (Nat × Json × List Component)) (chooser : String),
    state.revealKeys chooser reveals = revealedStateKeys chooser reveals
  | [], _ => rfl
  | (_, _, components) :: rest, chooser => by
    rw [revealKeys, revealedStateKeys, groupKeys_state components, revealKeys_state rest]
    rfl

end

/-! ## Keys of questions -/

/-- A rule behind reveals, the innermost first. -/
def behind (side : Side) (reveals : List Reveal) (rule : Rule) : Rule :=
  reveals.foldl (fun rule reveal => revealedRule reveal.chooser reveal.item side.blank rule) rule

/-- The rules by key that a question contributes. -/
def entries (side : Side) (q : Question) : Keys :=
  (side.own q.field).map fun (key, rule) => (key, side.behind q.behind rule)

/-- The keys that a question contributes. -/
def names (side : Side) (q : Question) : List String :=
  (side.own q.field).names

/-- A field that chooses from a list has one key, its name. -/
theorem name_mem_names_choice (side : Side) {q : Question} {variant : ChoiceVariant}
    {d : ComponentDefinition} {list : ListDefinition} {reveals : List (Nat × Json × List Component)}
    (hfield : q.field = .choice variant d list reveals) : q.name ∈ side.names q := by
  rw [names, Question.name, hfield]
  exact List.mem_singleton_self _

theorem entries_within (side : Side) (reveal : Reveal) (q : Question) :
    side.entries (q.within reveal) =
      revealedKeys reveal.chooser reveal.item side.blank (side.entries q) := by
  simp [entries, revealedKeys, behind]

theorem last?_revealedKeys (chooser : String) (item blank : Json) (keys : Keys) (key : String) :
    Keys.last? (revealedKeys chooser item blank keys) key =
      (Keys.last? keys key).map (revealedRule chooser item blank) := by
  rw [Keys.last?, Keys.last?, revealedKeys, ← List.map_reverse]
  exact Keys.get?_map (revealedRule chooser item blank) keys.reverse key

theorem names_revealedKeys (chooser : String) (item blank : Json) (keys : Keys) :
    (revealedKeys chooser item blank keys).names = keys.names := by
  simp [revealedKeys, Keys.names]

mutual

theorem nodup_keys (side : Side) : ∀ c : Component, (side.keys c).names.Nodup
  | .single kind d => side.single_nodup kind d
  | .choice variant d list reveals => by
    have hown : (side.own (.choice variant d list reveals)).names.Nodup := List.nodup_singleton _
    exact Keys.nodup_names_extend hown _

theorem nodup_groupKeys (side : Side) : ∀ components : List Component,
    (side.groupKeys components).names.Nodup
  | [] => List.nodup_nil
  | c :: _ => Keys.nodup_names_extend (side.nodup_keys c) _

theorem nodup_revealKeys (side : Side) : ∀ (reveals : List (Nat × Json × List Component))
    (chooser : String), (side.revealKeys chooser reveals).names.Nodup
  | [], _ => List.nodup_nil
  | (_, _, components) :: _, _ =>
    Keys.nodup_names_extend (by rw [names_revealedKeys]; exact side.nodup_groupKeys components) _

end

theorem nodup_own (side : Side) (c : Component) : (side.own c).names.Nodup := by
  cases c with
  | single kind d => exact side.single_nodup kind d
  | choice variant d list reveals => exact List.nodup_singleton _

theorem entries_choice (side : Side) (variant : ChoiceVariant) (d : ComponentDefinition)
    (list : ListDefinition) (reveals : List (Nat × Json × List Component)) :
    side.entries ⟨.choice variant d list reveals, []⟩ =
      [(d.nameText, side.choice variant d list)] := rfl

theorem flatMap_entries_single (side : Side) (kind : SingleKind) (d : ComponentDefinition) :
    (Component.single kind d).questions.flatMap side.entries = side.single kind d := by
  cases kind with
  | content variant => exact (side.single_content variant d).symm
  | _ => simp [Component.questions, entries, own, behind]

mutual

theorem get?_keys (side : Side) : ∀ (c : Component) (key : String),
    (side.keys c).get? key = Keys.last? (c.questions.flatMap side.entries) key
  | .single kind d, key => by
    rw [flatMap_entries_single, Keys.last?_of_nodup (side.single_nodup kind d)]
    rfl
  | .choice variant d list reveals, key => by
    rw [keys, Keys.get?_extend, Keys.last?_of_nodup (side.nodup_revealKeys reveals d.nameText),
      side.get?_revealKeys reveals d.nameText list.type, Component.questions, List.flatMap_cons,
      Keys.last?_append, entries_choice]
    rfl

/-- The rule of a key is that of the last question that contributes the key. -/
theorem get?_groupKeys (side : Side) : ∀ (components : List Component) (key : String),
    (side.groupKeys components).get? key =
      Keys.last? ((questions components).flatMap side.entries) key
  | [], _ => rfl
  | c :: rest, key => by
    rw [groupKeys, Keys.get?_extend, Keys.last?_of_nodup (side.nodup_groupKeys rest),
      side.get?_groupKeys rest, side.get?_keys c, questions, List.flatMap_append, Keys.last?_append]

theorem get?_revealKeys (side : Side) : ∀ (reveals : List (Nat × Json × List Component))
    (chooser : String) (type : ListType) (key : String),
    (side.revealKeys chooser reveals).get? key =
      Keys.last? ((revealedQuestions chooser type reveals).flatMap side.entries) key
  | [], _, _, _ => rfl
  | (_, item, components) :: rest, chooser, type, key => by
    rw [revealKeys, Keys.get?_extend, Keys.last?_of_nodup (side.nodup_revealKeys rest chooser),
      side.get?_revealKeys rest chooser type, revealedQuestions, List.flatMap_append,
      Keys.last?_append, ← Keys.last?_of_nodup
        (by rw [names_revealedKeys]; exact side.nodup_groupKeys components),
      last?_revealedKeys, Keys.last?_of_nodup (side.nodup_groupKeys components),
      side.get?_groupKeys components, ← last?_revealedKeys]
    congr 2
    simp [List.flatMap_map, entries_within, revealedKeys, List.map_flatMap]

end

/-- A key that one question alone contributes has that question's rule. -/
theorem get?_groupKeys_of_sole (side : Side) {components : List Component} {q : Question}
    (hq : q ∈ questions components) {key : String} {rule : Rule}
    (hrule : (key, rule) ∈ side.own q.field)
    (hsole : ∀ other ∈ questions components, key ∈ side.names other → other = q) :
    (side.groupKeys components).get? key = some (side.behind q.behind rule) := by
  rw [get?_groupKeys]
  refine Keys.last?_eq_some ?_ ?_
  · exact List.mem_flatMap.mpr ⟨q, hq, List.mem_map.mpr ⟨(key, rule), hrule, rfl⟩⟩
  · intro other hother
    obtain ⟨p, hp, hentry⟩ := List.mem_flatMap.mp hother
    obtain ⟨⟨key', rule'⟩, hmem, heq⟩ := List.mem_map.mp hentry
    cases heq
    obtain rfl := hsole p hp (List.mem_map_of_mem hmem)
    have hnodup := side.nodup_own p.field
    rw [Option.some.inj ((Keys.get?_of_mem hnodup hmem).symm.trans
      (Keys.get?_of_mem hnodup hrule))]

/-- The last rule for a key is that of the last question that has the key. -/
theorem last?_flatMap_entries (side : Side) (qs : List Question) (key : String) :
    Keys.last? (qs.flatMap side.entries) key =
      (qs.reverse.find? fun q => (side.names q).contains key).bind fun q =>
        ((side.own q.field).get? key).map (side.behind q.behind) := by
  have hentries (q : Question) : Keys.last? (side.entries q) key =
      ((side.own q.field).get? key).map (side.behind q.behind) := by
    have hnames : Keys.names (side.entries q) = Keys.names (side.own q.field) := by
      rw [Keys.names, entries, List.map_map]
      rfl
    rw [Keys.last?_of_nodup (hnames ▸ side.nodup_own q.field)]
    exact Keys.get?_map (side.behind q.behind) (side.own q.field) key
  suffices hreversed : ∀ rs : List Question, Keys.last? (rs.reverse.flatMap side.entries) key =
      (rs.find? fun q => (side.names q).contains key).bind fun q =>
        ((side.own q.field).get? key).map (side.behind q.behind) by
    simpa only [List.reverse_reverse] using hreversed qs.reverse
  intro rs
  induction rs with
  | nil => rfl
  | cons q rest ih =>
      have hhas : (side.names q).contains key = ((side.own q.field).get? key).isSome := by
        rw [Keys.isSome_get?, Bool.eq_iff_iff, List.contains_iff_mem, Keys.has_iff_mem_names, names]
      rw [List.reverse_cons, List.flatMap_append, List.flatMap_singleton, Keys.last?_append,
        hentries, ih, List.find?_cons, hhas]
      cases hget : (side.own q.field).get? key <;> simp [hget]

theorem mem_names_groupKeys_iff (side : Side) {components : List Component} {key : String} :
    key ∈ (side.groupKeys components).names ↔ ∃ q ∈ questions components, key ∈ side.names q := by
  rw [← Keys.has_iff_mem_names, ← Keys.isSome_get?, get?_groupKeys, Keys.last?, Keys.isSome_get?,
    Keys.has_iff_mem_names]
  simp only [Keys.names, names, entries, List.map_reverse, List.mem_reverse, List.map_flatMap,
    List.map_map, List.mem_flatMap]
  rfl

end Side

/-! ## Rules behind reveals -/

/-- Whether the item of a reveal is selected in some answers. -/
def Reveal.isSelected (reveal : Reveal) (fields : Fields) : Bool :=
  (fields.get? reveal.chooser).any (·.selects reveal.item)

section

variable (options : ValidationOptions) (name : String) (fields : Fields) (value : Option Json)

theorem check_revealedRule (chooser : String) (item blank : Json) (rule : Rule) :
    (revealedRule chooser item blank rule).check options name (some fields) value =
      if (fields.get? chooser).any (·.selects item) then
        rule.required.check options name (some fields) value
      else (rule.optional.allowing blank).check options name (some fields) value := by
  rw [revealedRule, Rule.chosenBy, Rule.check]
  rfl

/-- A rule behind a reveal is asked alike whether it must be there or not. -/
theorem check_revealedRule_twice (outer chooser : String) (item' item blank : Json) (rule : Rule) :
    (revealedRule outer item' blank (revealedRule chooser item blank rule)).check options name
        (some fields) value =
      (revealedRule chooser item blank rule).check options name (some fields) value := by
  rw [check_revealedRule options name fields value outer, ite_eq_iff']
  constructor
  · intro _
    simp only [revealedRule, Rule.chosenBy, Rule.required, Rule.mapAttributes, Rule.check]
  · intro _
    simp only [revealedRule, Rule.chosenBy, Rule.required, Rule.optional, Rule.allowing,
      Rule.mapAttributes, Rule.check, List.any_nil, Bool.false_eq_true, if_false]

/-- Of the reveals in front of a rule, the innermost decides how the rule is asked. -/
theorem check_behind (side : Side) (reveal : Reveal) (outer : List Reveal) (rule : Rule) :
    (side.behind (reveal :: outer) rule).check options name (some fields) value =
      if reveal.isSelected fields then rule.required.check options name (some fields) value
      else (rule.optional.allowing side.blank).check options name (some fields) value := by
  refine Eq.trans ?_ (check_revealedRule options name fields value reveal.chooser reveal.item
    side.blank rule)
  induction outer generalizing reveal rule with
  | nil => rfl
  | cons next outer ih =>
      -- The next reveal wraps a rule that is wrapped already, so it adds nothing.
      show (side.behind (next :: outer) (revealedRule reveal.chooser reveal.item side.blank
        rule)).check options name (some fields) value = _
      rw [ih]
      exact check_revealedRule_twice ..

end

end Questionnaire
