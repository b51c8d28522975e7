import Questionnaire.Proofs.Component.Compiled
import Questionnaire.Proofs.Component.Refilling
import Questionnaire.Proofs.Page.Distinct

/-!
# Where the form and the state ask differently

A page checks what is submitted, makes state of it, and checks the state again. Data that passes the
first check is to pass the second, and what stands on the page itself does. A revealed field may
not, and then in one of three ways (`Question.Drifts`): the two checks look at the item that
reveals it in different values of its chooser, before and after conversion; an answer is dropped
for an item further out, though the state asks for it while the item that reveals it directly is
still selected; and of an address that the form does not ask for, some parts may be given without
the others. A page of fields whose form checks all that is asked of an answer accepts the state made
of valid submitted data just when none of its questions drifts (`Page.validateState_toState_iff`).
-/

namespace Questionnaire

namespace Component

/-- Whether the form checks all that is asked of the stored answer. A select takes any value of the
type of its list, and the parts of a date need not make a date. -/
def isCheckedInForm : Component → Bool
  | .single (.dateParts _) _ | .choice .select _ _ _ => false
  | _ => true

/-- An address of which some parts are submitted, but not all that an address needs. -/
def LacksParts (data : FormData) : Component → Prop
  | .single .address d =>
    d.isOptional = false ∧ (∃ part ∈ addressParts, addressText d.nameText data part ≠ "") ∧
      ∃ part ∈ addressParts, part.core = true ∧ addressText d.nameText data part = ""
  | _ => False

theorem LacksParts.eq_address {c : Component} {data : FormData} (h : c.LacksParts data) :
    ∃ d, c = .single .address d := by
  cases c with
  | single kind d =>
      cases kind with
      | address => exact ⟨d, rfl⟩
      | _ => exact h.elim
  | choice _ _ _ _ => exact h.elim

end Component

/-- How a revealed field comes to have a stored answer that the state refuses, or none where it must
have one, although the form accepted what was submitted. -/
inductive Question.Drifts (q : Question) (payload data : FormData) (state : State) : Prop
  /-- The item that reveals the field is chosen once the answers are converted, but not as they were
  submitted, so that the form did not ask for the field. -/
  | converted {reveal : Reveal} {outer : List Reveal} (hbehind : q.behind = reveal :: outer)
      (hrequired : q.isOptional = false) (hasked : reveal.isSelected payload = false)
      (hchosen : q.behind.all (Reveal.isChosen data) = true) (hnull : q.field.stored data = .null)
  /-- The answer is dropped because not every item on the way to the field is chosen, but the state
  has the item that reveals the field directly. -/
  | dropped {reveal : Reveal} {outer : List Reveal} (hbehind : q.behind = reveal :: outer)
      (hasked : reveal.isSelected state = true)
      (hchosen : q.behind.all (Reveal.isChosen data) = false)
      (hgiven : (q.field.stored data).isTruthy = false)
  /-- The field is an address that the form did not ask for, and what is given of it is stored. -/
  | incomplete {reveal : Reveal} {outer : List Reveal} (hbehind : q.behind = reveal :: outer)
      (hasked : reveal.isSelected payload = false) (hlacks : q.field.LacksParts data)

/-- What is asked of a page so that its form checks all that its state asks for, with names of their
own for all answers and for all inputs. -/
structure Page.ChecksInForm (page : Page) : Prop where
  checked : ∀ q ∈ questions page.components, q.field.isCheckedInForm = true
  allow : ∀ q ∈ questions page.components, q.field.definition.constraints.allow = none
  trim : ∀ q ∈ questions page.components, q.field.definition.constraints.trim ≠ some false
  names : (stateNames page.components).Nodup
  inputs : (formNames page.components).Nodup

/-! ## Texts that are trimmed -/

/-- Whether a text is trimmed before it is looked at. -/
def Leaf.trims : Leaf → Bool
  | .text c => c.trim
  | _ => true

/-- Whether a rule for a single value trims a text before it looks at it. -/
def Rule.trims : Rule → Bool
  | .leaf kind _ => kind.trims
  | _ => true

namespace Rule

variable (rule : Rule)

theorem trims_mapAttributes (f : Attributes → Attributes) :
    (rule.mapAttributes f).trims = rule.trims := by
  cases rule <;> rfl

theorem trims_atLeast (bound : Binary64) : (rule.atLeast bound).trims = rule.trims := by
  cases rule with
  | leaf kind a => cases kind <;> rfl
  | _ => rfl

theorem trims_atMost (bound : Binary64) : (rule.atMost bound).trims = rule.trims := by
  cases rule with
  | leaf kind a => cases kind <;> rfl
  | _ => rfl

/-- A definition leaves it to a rule whether it trims, unless it turns trimming off. -/
theorem trims_described {d : ComponentDefinition} (hallow : d.constraints.allow = none)
    (htrim : d.constraints.trim ≠ some false) : (described d rule).trims = rule.trims := by
  have hconstrained : (constrained d.constraints rule).trims = rule.trims := by
    unfold constrained
    dsimp only
    rw [hallow, if_neg htrim]
    cases d.constraints.min <;> cases d.constraints.max <;> simp [trims_atLeast, trims_atMost]
  unfold described
  dsimp only
  split
  · exact (trims_mapAttributes _ _).trans hconstrained
  · exact hconstrained

end Rule

/-- A trimmed text that is left alone has something in it. -/
theorem Leaf.Settled.isBlankText_eq_false {kind : Leaf} {s : String} (h : kind.Settled (.str s))
    (hkind : kind ≠ .any) (htrims : kind.trims = true) : Text.isBlankText s = false := by
  rw [← Bool.not_eq_true]
  intro hblank
  cases kind with
  | any => exact hkind rfl
  | text c =>
      have htrimmed : Text.trim s = "" :=
        congrArg String.ofList (Text.trimmed_eq_nil_iff.mpr hblank)
      rw [h.trim_eq htrims] at htrimmed
      exact h.ne_empty (congrArg Json.str htrimmed)
  | number c =>
      obtain ⟨x, hx, -⟩ := h.eq_num
      obtain ⟨n, hn⟩ := Leaf.numberValue_eq_num x
      cases hx.trans hn
  | boolean =>
      obtain ⟨b, hb⟩ := h.eq_bool
      cases hb
  | date =>
      obtain ⟨t, ht, hcanonical⟩ := @Leaf.Settled.eq_date false _ h
      obtain rfl := Json.str.inj ht
      rw [canonicalDate?_of_isBlankText hblank] at hcanonical
      cases hcanonical
  | dateTime =>
      obtain ⟨t, ht, hcanonical⟩ := @Leaf.Settled.eq_date true _ h
      obtain rfl := Json.str.inj ht
      rw [canonicalDate?_of_isBlankText hblank] at hcanonical
      cases hcanonical

/-- Where texts are trimmed, an answer that the rule leaves alone is stored as it is. -/
theorem TextVariant.stored_of_trims {variant : TextVariant} {d : ComponentDefinition}
    (hallow : d.constraints.allow = none) (htrim : d.constraints.trim ≠ some false) {value : Json}
    (h : (described d variant.base).Settled value) : variant.stored (some value) = value := by
  refine (stored_of_settled h).resolve_left fun hnull => ?_
  cases value with
  | str s =>
      obtain ⟨base, hbase, hne⟩ := variant.isBase_base
      obtain ⟨kind, a, hdescribed, hsort, -⟩ := described_leaf d base {}
      have htrims := Rule.trims_described variant.base hallow htrim
      rw [hbase, hdescribed] at h htrims
      have htrims : kind.trims = true := htrims.trans (by cases variant <;> cases hbase <;> rfl)
      cases h with
      | one hleaf _ =>
          have hblank := hleaf.isBlankText_eq_false (Leaf.ne_any_of_sort hsort hne) htrims
          unfold stored at hnull
          simp only [hblank, Bool.false_eq_true, if_false] at hnull
          split at hnull
          · have hscalar := isScalar_numberOfText s
            rw [hnull] at hscalar
            cases hscalar
          · cases hnull
  | _ => exact h.ne_null hnull

/-! ## Parts of addresses -/

section

variable {d : ComponentDefinition} {data : FormData}

/-- An address made of valid parts is left alone if it has all the parts that it needs. -/
theorem settledMembers_of_holds
    (hdata : ∀ input ∈ (Component.single .address d).inputs, input.Holds data)
    (hparts : ∀ part ∈ addressParts, (part.core && !d.isOptional) = true →
      addressText d.nameText data part ≠ "") :
    Rule.SettledMembers (addressKeys d) (addressFields d.nameText data) := by
  refine ⟨Fields.ordered_ofList _, ?_, ?_⟩
  · intro member hmember
    rcases Fields.mem_of_mem_extend hmember with hmember | hmember
    · obtain ⟨part, hpart, rfl⟩ := List.mem_map.mp hmember
      exact Keys.has_iff_mem_names.mpr (List.mem_map_of_mem (mem_addressKeys d hpart))
    · cases hmember
  · intro entry hentry options siblings
    rw [addressKeys_eq] at hentry
    obtain ⟨part, hpart, rfl⟩ := List.mem_map.mp hentry
    dsimp only
    rw [get?_addressFields d.nameText data hpart, part.rule_eq d]
    have hleaf : (Rule.leaf part.leaf { label := some part.label }).IsField := by
      obtain ⟨c, hc, -⟩ := part.leaf_eq_text
      exact .one (by simp [hc])
    by_cases hempty : addressText d.nameText data part = ""
    · have hoptional : (part.core && !d.isOptional) = false :=
        Bool.eq_false_iff.mpr fun hmust => hparts part hpart hmust hempty
      rw [hempty, hoptional]
      exact ((Rule.isField_asked ..).mpr hleaf).check_allowed options part.key siblings rfl
    · rcases (hdata _ (List.mem_map_of_mem hpart)).cases with
        hblank | ⟨value, hvalue, hsettled⟩
      · exact absurd (addressText_of_blank hblank) hempty
      · obtain rfl := addressText_of_settled hvalue hsettled
        refine Rule.Settled.check_eq ((Rule.isField_asked ..).mpr hleaf) ?_
          ((Rule.settled_asked ..).mpr hsettled) options part.key siblings
        rw [Rule.attributes_asked]
        exact blanks_welcome (Or.inr rfl) _

/-- An address that lacks parts is stored, and its rule does not leave it alone. -/
theorem stored_of_lacksParts {c : Component} (h : c.LacksParts data) :
    (∃ fields, c.stored data = .obj fields) ∧ ¬ c.core.Settled (c.stored data) := by
  obtain ⟨d, rfl⟩ := h.eq_address
  obtain ⟨hrequired, ⟨given, hgiven, htext⟩, ⟨part, hpart, hcore, hempty⟩⟩ := h
  have hstored : (Component.single .address d).stored data =
      .obj (addressFields d.nameText data) := by
    refine if_neg fun hall => htext ?_
    exact of_decide_eq_true (List.all_eq_true.mp hall given hgiven)
  refine ⟨⟨_, hstored⟩, fun hsettled => ?_⟩
  rw [hstored] at hsettled
  change (Rule.object (addressKeys d) false _).Settled _ at hsettled
  cases hsettled with
  | members hmembers =>
      have hmust := Component.isOptional_of_addressText_eq hmembers hpart hempty
      rw [hcore, hrequired] at hmust
      cases hmust

end

/-! ## What is stored of a field -/

namespace Component

variable {c : Component} (hfield : c.IsBuiltinField = true) (hchecked : c.isCheckedInForm = true)
  (hallow : c.definition.constraints.allow = none)
  (htrim : c.definition.constraints.trim ≠ some false)

include hfield hchecked hallow htrim

/-- A field that is no address has one input, whose rule is that of the stored answer, and what the
rule leaves alone is stored as it is. -/
theorem stored_of_settled (hone : ∀ d, c ≠ .single .address d) :
    c.inputs = [⟨c.name, c.core, c.definition.isOptional⟩] ∧
      ∀ {data : FormData} {value : Json}, data.get? c.name = some value → c.core.Settled value →
        c.stored data = value := by
  cases c with
  | single kind d =>
      cases kind with
      | text variant =>
          refine ⟨rfl, fun hvalue hsettled => ?_⟩
          rw [stored, show Fields.get? _ d.nameText = _ from hvalue]
          exact TextVariant.stored_of_trims hallow htrim hsettled
      | date withTime =>
          refine ⟨rfl, fun hvalue hsettled => ?_⟩
          rw [stored, show Fields.get? _ d.nameText = _ from hvalue]
          exact storedDate_of_settled (settled_dateLeaf hsettled)
      | dateParts withTime => cases hchecked
      | address => exact absurd rfl (hone d)
      | content _ => cases hfield
      | plain => cases hfield
  | choice variant d list reveals =>
      have hcore : variant.formCore d list = (Component.choice variant d list reveals).core := by
        cases variant with
        | select => cases hchecked
        | _ => rfl
      refine ⟨congrArg (fun core => [Input.mk d.nameText core d.isOptional]) hcore, ?_⟩
      intro data value hvalue hsettled
      rw [← hcore] at hsettled
      rw [stored, show Fields.get? _ d.nameText = _ from hvalue]
      exact storedChoice_of_settled hsettled

/-- What a field makes of valid submitted data is null or left alone by the rule for the state, or
it is an address that lacks parts. -/
theorem stored_cases {data : FormData} (hdata : ∀ input ∈ c.inputs, input.Holds data) :
    c.stored data = .null ∨ c.core.Settled (c.stored data) ∨ c.LacksParts data := by
  rcases em (∃ d, c = .single .address d) with ⟨d, rfl⟩ | hone
  · refine (storedAddress_cases d.nameText data).imp_right fun hstored => ?_
    by_cases hparts : ∀ part ∈ addressParts, (part.core && !d.isOptional) = true →
        addressText d.nameText data part ≠ ""
    · left
      show (Rule.object (addressKeys d) false _).Settled (storedAddress d.nameText data)
      rw [hstored]
      exact .members (settledMembers_of_holds hdata hparts)
    · right
      simp only [not_forall, not_not] at hparts
      obtain ⟨part, hpart, hmust, hempty⟩ := hparts
      rw [Bool.and_eq_true, Bool.not_eq_true'] at hmust
      refine ⟨hmust.2, ?_, part, hpart, hmust.1, hempty⟩
      by_contra hnone
      rw [storedAddress, if_pos] at hstored
      · cases hstored
      · rw [List.all_eq_true]
        exact fun part hpart => decide_eq_true (by_contra fun hne => hnone ⟨part, hpart, hne⟩)
  · obtain ⟨hinputs, hstored⟩ :=
      c.stored_of_settled hfield hchecked hallow htrim (not_exists.mp hone)
    have hinput : Input.Holds ⟨c.name, c.core, c.definition.isOptional⟩ data :=
      hdata _ (hinputs ▸ List.mem_singleton_self _)
    have hnull (h : Input.Agrees ⟨c.name, c.core, c.definition.isOptional⟩ [] data) :
        c.stored data = .null := by
      have hagrees : ∀ input ∈ c.inputs, input.Agrees [] data := by
        rw [hinputs]
        exact List.forall_mem_singleton.mpr h
      rw [stored_congr hfield hagrees, stored_nil hfield]
    rcases hinput.cases with (hvalue | hvalue) | ⟨value, hvalue, hsettled⟩
    · exact Or.inl (hnull (Or.inl hvalue))
    · exact Or.inl (hnull (Or.inr ⟨hvalue, rfl⟩))
    · rw [hstored hvalue hsettled]
      exact Or.inr (Or.inl hsettled)

/-- A field that must be answered, and whose needed inputs are, has an answer that lacks nothing. -/
theorem stored_of_given {data : FormData} (hrequired : c.definition.isOptional = false)
    (hgiven : ∀ input ∈ c.inputs, input.isOptional = false →
      ∃ value, data.get? input.name = some value ∧ input.core.Settled value) :
    c.stored data ≠ .null ∧ ¬ c.LacksParts data := by
  rcases em (∃ d, c = .single .address d) with ⟨d, rfl⟩ | hone
  · have htext : ∀ part ∈ addressParts, part.core = true →
        addressText d.nameText data part ≠ "" := by
      intro part hpart hcore hempty
      have hneeded : (!(part.core && !d.isOptional)) = false := by
        rw [hcore, show d.isOptional = false from hrequired]
        rfl
      obtain ⟨value, hvalue, hsettled⟩ := hgiven _ (List.mem_map_of_mem hpart) hneeded
      refine hsettled.ne_empty ?_
      rw [addressText_of_settled hvalue hsettled, hempty]
    refine ⟨fun hnull => ?_, fun ⟨_, _, part, hpart, hcore, hempty⟩ =>
      htext part hpart hcore hempty⟩
    have hpremises :
        ⟨"premises", "Building number or name", true, "address-line1"⟩ ∈ addressParts :=
      List.mem_cons_self ..
    change storedAddress d.nameText data = .null at hnull
    unfold storedAddress at hnull
    split at hnull
    · next hall =>
      exact htext _ hpremises rfl (of_decide_eq_true (List.all_eq_true.mp hall _ hpremises))
    · cases hnull
  · obtain ⟨hinputs, hstored⟩ :=
      c.stored_of_settled hfield hchecked hallow htrim (not_exists.mp hone)
    obtain ⟨value, hvalue, hsettled⟩ :=
      hgiven ⟨c.name, c.core, c.definition.isOptional⟩ (hinputs ▸ List.mem_singleton_self _)
        hrequired
    rw [hstored hvalue hsettled]
    exact ⟨hsettled.ne_null, fun hlacks => hone hlacks.eq_address⟩

end Component

/-! ## Answers that the state accepts -/

theorem Question.complete_of_none {q : Question} {stored : State}
    (hnone : stored.get? q.name = none)
    (hmust : mustBePresent q.behind q.isOptional stored = false) : q.Complete stored := by
  have hnot : mustBePresent q.behind q.isOptional stored ≠ true := Bool.eq_false_iff.mp hmust
  refine ⟨⟨?_, ?_, fun _ htrue => absurd htrue hnot⟩, fun htrue => absurd htrue hnot⟩
  · intro value hvalue
    rw [hnone] at hvalue
    cases hvalue
  · intro hnull
    rw [hnone] at hnull
    cases hnull

namespace Page.Distinct

variable {page : Page} (hpage : page.Distinct) {payload data : FormData}
  (hdata : page.validateForm payload = .ok data)

include hpage

/-- Complete answers to the questions of a page are accepted. -/
theorem validateState_of_complete
    (hcomplete : ∀ q ∈ questions page.components, q.Complete (page.toState data)) :
    ∃ answers, page.validateState (page.toState data) = .ok answers := by
  refine ⟨Side.state.converted page.components (page.toState data), ?_⟩
  refine Page.validate_eq_ok_iff.mpr ?_
  rw [← Side.groupKeys_state]
  refine ⟨⟨?_, ?_⟩, rfl⟩
  · rintro ⟨key, rule⟩ hentry
    have hname : key ∈ (Side.state.groupKeys page.components).names := List.mem_map_of_mem hentry
    obtain ⟨q, hq, hkey⟩ := Side.state.mem_names_groupKeys_iff.mp hname
    rw [names_state hq] at hkey
    obtain rfl := List.mem_singleton.mp hkey
    have hrule := Side.state.get?_groupKeys_of_sole hq (mem_own_state hq)
      (sole_names_state (hpage.sole hq))
    rw [Keys.get?_of_mem (Side.state.nodup_groupKeys page.components) hentry] at hrule
    obtain rfl := Option.some.inj hrule
    rw [(hcomplete q hq).check_ownState (hpage.builtin q hq) (hpage.allow q hq)]
  · exact has_of_mem_toState page data

include hdata

/-- The state made of a submission is accepted just when its answers are complete. -/
theorem validateState_toState_iff_complete :
    (∃ answers, page.validateState (page.toState data) = .ok answers) ↔
      ∀ q ∈ questions page.components, q.Complete (page.toState data) := by
  refine ⟨fun ⟨answers, hanswers⟩ q hq => ?_, hpage.validateState_of_complete⟩
  have hsame := hpage.get?_answers hq hdata hanswers
  rcases answer_cases hanswers hq (hpage.sole hq) (hpage.builtin q hq) (hpage.allow q hq) with
    ⟨hnone, -, hmust⟩ | ⟨-, answer, -, hanswer, ⟨rfl, hwelcome⟩ | hsettled⟩
  · exact Question.complete_of_none hnone hmust
  · exact Question.complete_of_null (hsame.symm.trans hanswer) hwelcome
  · exact Question.complete_of_settled (hsame.symm.trans hanswer) hsettled

end Page.Distinct

/-! ## Answers of a submission -/

namespace Page

variable {page : Page} {data : FormData} {q : Question} (hpage : page.Distinct)
  (hq : q ∈ questions page.components)

include hpage hq

/-- Where every item on the way to a field is chosen, the state has them selected. -/
theorem Distinct.isSelected_of_isChosen {reveal : Reveal} {outer : List Reveal}
    (hbehind : q.behind = reveal :: outer) (hchosen : q.behind.all (Reveal.isChosen data) = true) :
    reveal.isSelected (page.toState data) = true := by
  obtain ⟨chooser, hchooser, houter, hchooses⟩ := exists_chooser page.components hq hbehind
  rw [hbehind, List.all_cons, Bool.and_eq_true, hchooses.isChosen_eq] at hchosen
  have hkept : chooser.isKept data = true := by
    rw [Question.isKept, houter, hchosen.2, Bool.or_true]
  have hstored := hpage.get?_toState hchooser data
  rw [if_pos hkept, show chooser.name = reveal.chooser from hchooses.name_eq] at hstored
  rw [Reveal.isSelected, hstored]
  exact hchosen.1

/-- A question that drifts has no complete answer. -/
theorem Distinct.not_drifts_of_complete {payload : FormData}
    (hcomplete : q.Complete (page.toState data)) : ¬ q.Drifts payload data (page.toState data) := by
  have hstored := hpage.get?_toState hq data
  rintro (⟨hbehind, hrequired, -, hchosen, hnull⟩ | ⟨hbehind, hasked, hchosen, hgiven⟩ |
    ⟨-, -, hlacks⟩)
  · -- Null is kept for what is chosen, but is not welcome where the item is selected.
    have hkept : q.isKept data = true := by
      rw [Question.isKept, hchosen, Bool.or_true]
    rw [if_pos hkept, hnull] at hstored
    have hwelcome := hcomplete.blank hstored
    rw [hbehind, welcomesBlank, hrequired, hpage.isSelected_of_isChosen hq hbehind hchosen]
      at hwelcome
    cases hwelcome
  · -- What is dropped is missing where the item is selected.
    have hkept : ¬ q.isKept data = true := by
      rw [Question.isKept, hgiven, hchosen]
      exact Bool.false_ne_true
    have hpresent := hcomplete.present (by rw [hbehind]; exact hasked)
    rw [hstored, if_neg hkept] at hpresent
    cases hpresent
  · -- The address is kept, since it is given, and is not left alone.
    obtain ⟨⟨fields, hfields⟩, hnot⟩ := stored_of_lacksParts hlacks
    have hkept : q.isKept data = true := by
      rw [Question.isKept, hfields]
      rfl
    rw [if_pos hkept] at hstored
    rcases hcomplete.settled _ hstored with hnull | hsettled
    · rw [hfields] at hnull
      cases hnull
    · exact hnot hsettled

variable {payload : FormData} (hdata : page.validateForm payload = .ok data)
  (hchecked : q.field.isCheckedInForm = true)
  (htrim : q.field.definition.constraints.trim ≠ some false)

include hdata hchecked htrim

/-- A field that the form asks for, and that may not be left out, has an answer with nothing
lacking. -/
theorem Distinct.stored_of_asked (hrequired : q.isOptional = false)
    (hasked : ∀ reveal ∈ q.behind.head?, reveal.isSelected payload = true) :
    q.field.stored data ≠ .null ∧ ¬ q.field.LacksParts data := by
  refine q.field.stored_of_given (hpage.builtin q hq) hchecked (hpage.allow q hq) htrim hrequired ?_
  intro input hinput hneeded
  rcases hpage.input_cases hq hinput hdata with ⟨-, hmust⟩ | ⟨-, hwelcome⟩ | hgiven
  · cases hbehind : q.behind with
    | nil =>
        rw [hbehind, mustBePresent, hneeded] at hmust
        cases hmust
    | cons reveal outer =>
        rw [hbehind, mustBePresent, hasked reveal (by rw [hbehind]; rfl)] at hmust
        cases hmust
  · cases hbehind : q.behind with
    | nil =>
        rw [hbehind, welcomesBlank, hneeded] at hwelcome
        cases hwelcome
    | cons reveal outer =>
        rw [hbehind, welcomesBlank, hneeded, hasked reveal (by rw [hbehind]; rfl)] at hwelcome
        cases hwelcome
  · exact hgiven

/-- What may not be left out, and is missing or lacks parts, was not asked for. -/
theorem Distinct.exists_unasked (hrequired : q.isOptional = false)
    (hwrong : q.field.stored data = .null ∨ q.field.LacksParts data) :
    ∃ reveal outer, q.behind = reveal :: outer ∧ reveal.isSelected payload = false := by
  have hgiven := hpage.stored_of_asked hq hdata hchecked htrim hrequired
  cases hbehind : q.behind with
  | nil =>
      obtain ⟨hne, hwhole⟩ := hgiven (by rw [hbehind]; rintro _ ⟨⟩)
      exact absurd hwrong (not_or.mpr ⟨hne, hwhole⟩)
  | cons reveal outer =>
      refine ⟨reveal, outer, rfl, Bool.eq_false_iff.mpr fun hselected => ?_⟩
      obtain ⟨hne, hwhole⟩ := hgiven (by rw [hbehind]; rintro _ ⟨rfl⟩; exact hselected)
      exact not_or.mpr ⟨hne, hwhole⟩ hwrong

/-- A question that does not drift has a complete answer. -/
theorem Distinct.complete_of_not_drifts (hnot : ¬ q.Drifts payload data (page.toState data)) :
    q.Complete (page.toState data) := by
  have hstored := hpage.get?_toState hq data
  have hunasked := hpage.exists_unasked hq hdata hchecked htrim
  by_cases hkept : q.isKept data = true
  · rw [if_pos hkept] at hstored
    rcases q.field.stored_cases (hpage.builtin q hq) hchecked (hpage.allow q hq) htrim
      (hpage.holds hq hdata) with hnull | hsettled | hlacks
    · rw [hnull] at hstored
      refine Question.complete_of_null hstored ?_
      have hchosen : q.behind.all (Reveal.isChosen data) = true := by
        rwa [Question.isKept, hnull] at hkept
      cases hoptional : q.isOptional with
      | true => cases q.behind <;> rfl
      | false =>
          obtain ⟨reveal, outer, hbehind, hasked⟩ := hunasked hoptional (Or.inl hnull)
          exact absurd (.converted hbehind hoptional hasked hchosen hnull) hnot
    · exact Question.complete_of_settled hstored hsettled
    · have hrequired : q.isOptional = false := by
        obtain ⟨d, hfield⟩ := hlacks.eq_address
        rw [hfield] at hlacks
        rw [Question.isOptional, hfield]
        exact hlacks.1
      obtain ⟨reveal, outer, hbehind, hasked⟩ := hunasked hrequired (Or.inr hlacks)
      exact absurd (.incomplete hbehind hasked hlacks) hnot
  · rw [if_neg hkept] at hstored
    rw [Question.isKept, Bool.or_eq_true, not_or] at hkept
    refine Question.complete_of_none hstored (Bool.eq_false_iff.mpr fun hmust => hnot ?_)
    cases hbehind : q.behind with
    | nil =>
        rw [hbehind] at hkept
        exact absurd rfl hkept.2
    | cons reveal outer =>
        rw [hbehind] at hmust
        exact .dropped hbehind hmust (Bool.eq_false_iff.mpr hkept.2) (Bool.eq_false_iff.mpr hkept.1)

end Page

/-! ## Pages -/

namespace Page

variable {page : Page} {definition : PageDefinition} {sections : List SectionDefinition}
  {context : CompileContext} {conditions : Registry} {options : Options} {payload data : FormData}

/-- The state made of valid submitted data is accepted just when no question of the page drifts. -/
theorem validateState_toState_iff
    (hcompile : Page.compile definition sections context conditions options = .ok page)
    (hbuiltin : context.types.IsBuiltin) (hchecks : page.ChecksInForm)
    (hdata : page.validateForm payload = .ok data) :
    (∃ answers, page.validateState (page.toState data) = .ok answers) ↔
      ∀ q ∈ questions page.components, ¬ q.Drifts payload data (page.toState data) := by
  have hfields := isBuiltinField_of_compileGroup hbuiltin (compileGroup_of_compile hcompile)
  have hpage : page.Distinct := ⟨hfields, hchecks.allow, hchecks.names, hchecks.inputs⟩
  rw [hpage.validateState_toState_iff_complete hdata]
  refine forall₂_congr fun q hq => ⟨hpage.not_drifts_of_complete hq, ?_⟩
  exact hpage.complete_of_not_drifts hq hdata (hchecks.checked q hq) (hchecks.trim q hq)

end Page

/-! ### A journey, by car or by train -/

/-- A field that chooses from the list of its own name. -/
def journeyChoice (name title : String) : ComponentDefinition :=
  { type := "RadiosField", name := some name, title := some title,
    options := { list := some name } }

/-- A permit to park, which one may do without. -/
def permitField : ComponentDefinition :=
  { type := "TextField", name := some "permit", title := some "Permit",
    options := { required := some false } }

/-- How one travels, and by car, where one parks. -/
def travelList : ListDefinition :=
  { name := "travel", title := "Travel", type := .string,
    items := [{ text := "Car", value := .str "car",
                revealed := some [journeyChoice "parking" "Parking"] },
      { text := "Train", value := .str "train" }] }

/-- Where one parks, and in the street, with which permit. -/
def parkingList : ListDefinition :=
  { name := "parking", title := "Parking", type := .string,
    items := [{ text := "Street", value := .str "street", revealed := some [permitField] },
      { text := "Garage", value := .str "garage" }] }

/-- The question for a permit. -/
def permitQuestion : Question :=
  ⟨.single (.text .line) permitField,
    [⟨"parking", .string, .str "street"⟩, ⟨"travel", .string, .str "car"⟩]⟩

/-- The page of a journey. -/
def journeyPage : Page :=
  ⟨"/journey", "", none,
    [.choice .radios (journeyChoice "travel" "Travel") travelList
      [(0, .str "car", [.choice .radios (journeyChoice "parking" "Parking") parkingList
        [(0, .str "street", [.single (.text .line) permitField])]])]],
    [], ⟨[], []⟩, {}⟩

theorem compile_journey :
    Page.compile { path := "/journey", components := [journeyChoice "travel" "Travel"] } []
      ⟨[travelList, parkingList], .builtin, "/journey"⟩ ⟨[], []⟩ {} = .ok journeyPage := rfl

theorem checksInForm_journey : journeyPage.ChecksInForm :=
  ⟨by decide +kernel, by decide +kernel, by decide +kernel, by decide +kernel, by decide +kernel⟩

/-- A journey with a car parked in the street, or one that was changed to another way to travel. -/
def journeyData (travel : String) : FormData :=
  [("parking", .str "street"), ("permit", .str ""), ("travel", .str travel)]

theorem validateForm_journeyData :
    journeyPage.validateForm (journeyData "car") = .ok (journeyData "car") ∧
      journeyPage.validateForm (journeyData "train") = .ok (journeyData "train") := by
  decide +kernel

/-- By car nothing drifts and the state is accepted. By train the blank permit is dropped, though
the street is still in the state, which is refused. -/
theorem Page.validateState_toState_journey :
    (∀ q ∈ questions journeyPage.components, ¬ q.Drifts (journeyData "car") (journeyData "car")
        (journeyPage.toState (journeyData "car"))) ∧
      permitQuestion.Drifts (journeyData "train") (journeyData "train")
          (journeyPage.toState (journeyData "train")) ∧
        ¬ ∃ answers,
          journeyPage.validateState (journeyPage.toState (journeyData "train")) = .ok answers := by
  have hcar : journeyPage.validateState (journeyPage.toState (journeyData "car")) =
      .ok [("parking", .str "street"), ("permit", .null), ("travel", .str "car")] := by
    decide +kernel
  have hdropped : permitQuestion.Drifts (journeyData "train") (journeyData "train")
      (journeyPage.toState (journeyData "train")) :=
    .dropped rfl (by decide +kernel) (by decide +kernel) (by decide +kernel)
  have hmem : permitQuestion ∈ questions journeyPage.components := .tail _ (.tail _ (.head _))
  refine ⟨?_, hdropped, fun haccepted => ?_⟩
  · exact (validateState_toState_iff compile_journey TypeRegistry.isBuiltin_builtin
      checksInForm_journey validateForm_journeyData.1).mp ⟨_, hcar⟩
  · exact (validateState_toState_iff compile_journey TypeRegistry.isBuiltin_builtin
      checksInForm_journey validateForm_journeyData.2).mp haccepted permitQuestion hmem hdropped

end Questionnaire
