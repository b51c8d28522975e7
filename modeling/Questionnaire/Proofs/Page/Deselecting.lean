import Questionnaire.Proofs.Page.Hidden
import Questionnaire.Proofs.Rule.Easing

/-!
# Items that are no longer selected

A field that a list item reveals is asked for while the item is selected, and may be blank otherwise.
So when an answer of the chooser comes to select fewer items, nothing that was accepted of the
revealed fields is refused, and it is converted as before (`Component.converts_of_deselects`). This
holds of submitted data and of stored state, however deep the fields are revealed, as long as no
chooser that is revealed has the name of the one whose answer changes: the two would read one answer
by the items of different lists (`exists_deselected_refused`).
-/

namespace Questionnaire

/-! ## Rules of fields look at nothing else -/

theorem Rule.IsField.alone {rule : Rule} (h : rule.IsField) : rule.Alone := by
  cases h with
  | one _ => exact .leaf
  | several _ _ =>
      refine .alternatives fun rule hrule => ?_
      rcases List.mem_pair.mp hrule with rfl | rfl
      · exact .leaf
      · exact .array
  | members _ _ _ => exact .object

/-- How the rules of a side are built: what stands for no answer is a blank, and the rules of a field
look at its own answer alone. -/
structure Side.Sound (side : Side) : Prop where
  blank : side.blank.IsBlank
  alone : ∀ c, ∀ entry ∈ side.own c, entry.2.Alone

theorem Side.sound_form : Side.form.Sound := by
  refine ⟨.inr rfl, fun c entry hentry => ?_⟩
  by_cases hfield : c.IsBuiltinField = true
  · exact (isField_own_form hfield hentry).alone
  · cases c with
    | single kind d =>
        cases kind with
        | content _ => exact nomatch hentry
        | plain => exact List.mem_singleton.mp hentry ▸ .leaf
        | _ => exact absurd rfl hfield
    | choice _ _ _ _ => exact absurd rfl hfield

theorem Side.sound_state : Side.state.Sound := by
  refine ⟨.inl rfl, fun c entry hentry => ?_⟩
  by_cases hform : c.isForm = true
  · rw [Component.own_state hform] at hentry
    obtain rfl := List.mem_singleton.mp hentry
    by_cases hfield : c.IsBuiltinField = true
    · exact (isField_ownState hfield).alone
    · cases c with
      | single kind d =>
          cases kind with
          | content _ => exact nomatch hform
          | plain => exact .leaf
          | _ => exact absurd rfl hfield
      | choice _ _ _ _ => exact absurd rfl hfield
  · cases c with
    | single kind d =>
        cases kind with
        | content _ => exact nomatch hentry
        | _ => exact absurd rfl hform
    | choice _ _ _ _ => exact absurd rfl hform

/-! ## Fewer items -/

/-- Two objects that differ at most under one name, where the second selects only items that the
first selects. -/
structure Deselects (name : String) (items : List Json) (fields fields' : Fields) : Prop where
  agree : ∀ key, key ≠ name → fields'.get? key = fields.get? key
  fewer : ∀ item ∈ items, (fields'.get? name).any (·.selects item) = true →
    (fields.get? name).any (·.selects item) = true

/-- The rule of a key accepts what an object has there, or that it has nothing, and gives what it is
converted to. -/
def Keys.Converts (options : ValidationOptions) (keys : Keys) (fields : Fields) (key : String)
    (converted : Option Json) : Prop :=
  ∃ rule, keys.get? key = some rule ∧
    rule.check options key (some fields) (fields.get? key) = ⟨converted, []⟩

theorem Rule.optional_required (rule : Rule) : rule.required.optional = rule.optional := by
  cases rule <;> rfl

/-- What a field's rule accepts behind reveals, it accepts when the item that reveals the field is no
longer selected, or when nothing has changed for it. -/
theorem check_behind_of_fewer {side : Side} (hside : side.Sound) {c : Component} {key : String}
    {rule : Rule} (hrule : (key, rule) ∈ side.own c) {options : ValidationOptions} {reveal : Reveal}
    (outer : List Reveal) {fields fields' : Fields} {value converted : Option Json}
    (hfewer : reveal.isSelected fields' = true → reveal.isSelected fields = true)
    (h : (side.behind (reveal :: outer) rule).check options key (some fields) value =
      ⟨converted, []⟩) :
    (side.behind (reveal :: outer) rule).check options key (some fields') value =
      ⟨converted, []⟩ := by
  have hrequired : rule.required.Alone := (hside.alone c _ hrule).mapAttributes _
  have heased : (rule.optional.allowing side.blank).Alone :=
    ((hside.alone c _ hrule).mapAttributes _).mapAttributes _
  rw [check_behind] at h ⊢
  by_cases hselected : reveal.isSelected fields' = true
  · rw [if_pos (hfewer hselected)] at h
    rwa [if_pos hselected, hrequired.check_eq fields fields']
  · rw [if_neg hselected, heased.check_eq fields fields']
    split at h
    · have htakes := (Rule.takes_iff key).mpr h
      rw [← Rule.optional_required]
      exact (Rule.takes_iff key).mp (htakes.eased hside.blank)
    · exact h

section

variable {variant : ChoiceVariant} {d : ComponentDefinition} {list : ListDefinition}
  {reveals : List (Nat × Json × List Component)}

/-- A key of what a field reveals, other than the field's own, has the rule of a revealed question. -/
theorem Side.exists_revealed_of_get? (side : Side) {key : String} {rule : Rule}
    (hkey : key ∈ (side.revealKeys d.nameText reveals).names)
    (h : (side.keys (.choice variant d list reveals)).get? key = some rule) :
    ∃ q ∈ revealedQuestions d.nameText list.type reveals, ∃ own, (key, own) ∈ side.own q.field ∧
      rule = side.behind q.behind own := by
  obtain ⟨revealed, hrevealed⟩ : ∃ revealed,
      (side.revealKeys d.nameText reveals).get? key = some revealed := by
    rw [← Option.isSome_iff_exists, Keys.isSome_get?, Keys.has_iff_mem_names]
    exact hkey
  rw [keys, Keys.get?_extend, Keys.last?_of_nodup (side.nodup_revealKeys reveals d.nameText),
    hrevealed, Option.some_or] at h
  obtain rfl := Option.some.inj h
  rw [side.get?_revealKeys reveals d.nameText list.type] at hrevealed
  have hmem := List.mem_reverse.mp (Keys.mem_of_get? hrevealed)
  obtain ⟨q, hq, hentry⟩ := List.mem_flatMap.mp hmem
  obtain ⟨⟨k, own⟩, hown, heq⟩ := List.mem_map.mp hentry
  cases heq
  exact ⟨q, hq, own, hown, rfl⟩

theorem behind_ne_nil_of_mem_revealedQuestions {q : Question} {chooser : String} {type : ListType}
    (hq : q ∈ revealedQuestions chooser type reveals) : q.behind ≠ [] := by
  obtain ⟨i, item, components, -, inner, -, rfl⟩ := mem_revealedQuestions_iff.mp hq
  simp

theorem Side.converts_of_fewer {side : Side} (hside : side.Sound)
    (hitems : ∀ entry ∈ reveals, entry.2.1 ∈ list.values)
    (hnames : ∀ q ∈ revealedQuestions d.nameText list.type reveals, ∀ reveal,
      q.field.Chooses reveal → q.name ≠ d.nameText)
    {options : ValidationOptions} {fields fields' : Fields}
    (h : Deselects d.nameText list.values fields fields') {key : String}
    (hkey : key ∈ (side.revealKeys d.nameText reveals).names) (hne : key ≠ d.nameText)
    {converted : Option Json}
    (hconverts : (side.keys (.choice variant d list reveals)).Converts options fields key
      converted) :
    (side.keys (.choice variant d list reveals)).Converts options fields' key converted := by
  obtain ⟨rule, hrule, hcheck⟩ := hconverts
  refine ⟨rule, hrule, ?_⟩
  obtain ⟨q, hq, own, hown, rfl⟩ := side.exists_revealed_of_get? hkey hrule
  rw [h.agree key hne]
  cases hbehind : q.behind with
  | nil => exact absurd hbehind (behind_ne_nil_of_mem_revealedQuestions hq)
  | cons reveal outer =>
      rw [hbehind] at hcheck
      refine check_behind_of_fewer hside hown outer ?_ hcheck
      -- The field that reveals directly is the one whose answer changes, or has another name.
      rcases exists_chooser_or reveals hq hbehind with
        ⟨-, hname, -, i, components, hmem⟩ | ⟨chooser, hchooser, -, hchooses⟩
      · rw [Reveal.isSelected, Reveal.isSelected, ← hname]
        exact h.fewer reveal.item (hitems _ hmem)
      · have hother : reveal.chooser ≠ d.nameText :=
          hchooses.name_eq ▸ hnames chooser hchooser reveal hchooses
        rw [Reveal.isSelected, Reveal.isSelected, h.agree _ hother]
        exact id

end

/-! ## Compiled choices -/

theorem value_of_mem_revealingItems {list : ListDefinition}
    {item : Nat × Json × List ComponentDefinition} (h : item ∈ revealingItems list) :
    item.2.1 ∈ list.values := by
  obtain ⟨⟨entry, i⟩, hentry, hitem⟩ := List.mem_filterMap.mp h
  dsimp only at hitem
  split at hitem
  · obtain rfl := Option.some.inj hitem
    exact List.mem_map_of_mem (List.fst_mem_of_mem_zipIdx hentry)
  · exact nomatch hitem

/-- What a compiled field reveals stands under values of its list. -/
theorem value_of_compileWith {context : CompileContext}
    {inner? : Option (ComponentDefinition → Except DefinitionError Component)}
    {definition d : ComponentDefinition} {variant : ChoiceVariant} {list : ListDefinition}
    {reveals : List (Nat × Json × List Component)}
    (h : compileWith context inner? definition = .ok (.choice variant d list reveals)) :
    ∀ entry ∈ reveals, entry.2.1 ∈ list.values := by
  unfold compileWith at h
  split at h
  · exact nomatch h
  · exact nomatch eq_of_requireName h
  · next other hkind =>
    obtain ⟨list', -, h⟩ := Except.bind_eq_ok_iff.mp h
    obtain ⟨reveals', hreveals, h⟩ := Except.bind_eq_ok_iff.mp h
    cases eq_of_requireName h
    intro entry hentry
    obtain ⟨item, hitem, -, hvalue, -⟩ :=
      exists_mem_of_forall₂ (forall₂_of_compileReveals hreveals) hentry
    rw [← hvalue]
    split at hitem
    · exact value_of_mem_revealingItems hitem
    · exact nomatch hitem

/-- Selecting fewer items refuses nothing of what they reveal. Take a field that chooses from a list,
compiled with whatever it reveals to any depth, and two objects that differ only in its answer, where
the second selects only items that the first selects. What the field's rules for submitted data
accept of a revealed field in the first, they accept in the second and convert to the same, and so do
its rules for the stored state. No chooser that is revealed may have the field's own name. -/
theorem Component.converts_of_deselects {context : CompileContext} {depth : Nat}
    {definition d : ComponentDefinition} {variant : ChoiceVariant} {list : ListDefinition}
    {reveals : List (Nat × Json × List Component)}
    (hcompile : compileComponent context depth definition = .ok (.choice variant d list reveals))
    (hnames : ∀ q ∈ revealedQuestions d.nameText list.type reveals, ∀ reveal,
      q.field.Chooses reveal → q.name ≠ d.nameText)
    (options : ValidationOptions) {fields fields' : Fields}
    (h : Deselects d.nameText list.values fields fields') :
    (∀ key ∈ (revealedFormKeys d.nameText reveals).names, key ≠ d.nameText → ∀ converted,
        (Component.choice variant d list reveals).formKeys.Converts options fields key converted →
          (Component.choice variant d list reveals).formKeys.Converts options fields' key
            converted) ∧
      ∀ key ∈ (revealedStateKeys d.nameText reveals).names, key ≠ d.nameText → ∀ converted,
        (Component.choice variant d list reveals).stateKeys.Converts options fields key converted →
          (Component.choice variant d list reveals).stateKeys.Converts options fields' key
            converted := by
  have hitems : ∀ entry ∈ reveals, entry.2.1 ∈ list.values := by
    cases depth <;> exact value_of_compileWith hcompile
  simp only [← Side.keys_form, ← Side.keys_state, ← Side.revealKeys_form, ← Side.revealKeys_state]
  exact ⟨fun key hkey hne converted => Side.converts_of_fewer Side.sound_form hitems hnames h
      hkey hne,
    fun key hkey hne converted => Side.converts_of_fewer Side.sound_state hitems hnames h
      hkey hne⟩

/-! ### A repair and a delivery -/

/-- What a visit is for, of which there may be several things. -/
def visitPurposes : ComponentDefinition :=
  { visitChoice "kind" "Kind" with type := "CheckboxesField" }

/-- How to get in, which a repair asks for. -/
def visitReveals : List (Nat × Json × List Component) :=
  [(0, .str "repair", [.choice .radios (visitChoice "access" "Access") accessList
    [(0, .str "key", [.single (.text .line) holderField])]])]

theorem compile_visitPurposes :
    compileOne ⟨[repairList, accessList], .builtin, "/visit"⟩ visitPurposes =
      .ok (.choice .checkboxes visitPurposes repairList visitReveals) := rfl

/-- What is submitted for a visit by someone with a key. -/
def purposesData (purposes : List Json) : Fields :=
  [("access", .str "key"), ("holder", .str "Ann"), ("kind", .arr purposes)]

theorem deselects_purposesData :
    Deselects "kind" repairList.values (purposesData [.str "delivery", .str "repair"])
      (purposesData [.str "delivery"]) := by
  refine ⟨fun key hne => ?_, by decide +kernel⟩
  simp [purposesData, Fields.get?_cons, Ne.symm hne]

/-- The key holder is accepted as before, although the way in is no longer asked for. -/
theorem Component.converts_of_deselects_visit :
    Deselects "kind" repairList.values (purposesData [.str "delivery", .str "repair"])
        (purposesData [.str "delivery"]) ∧
      (Component.choice .checkboxes visitPurposes repairList visitReveals).formKeys.Converts {}
        (purposesData [.str "delivery"]) "holder" (some (.str "Ann")) := by
  have hnames : ∀ q ∈ revealedQuestions "kind" .string visitReveals, q.name ≠ "kind" := by
    decide +kernel
  have hconverts := Component.converts_of_deselects compile_visitPurposes
    (fun q hq _ _ => hnames q hq) {} deselects_purposesData
  exact ⟨deselects_purposesData, hconverts.1 "holder" (by decide +kernel) (by decide +kernel) _
    ⟨_, rfl, by decide +kernel⟩⟩

/-! ### A telephone and its kinds -/

/-- How to get in touch, at the kinds of telephone there are. -/
def telephoneChoice (list : String) : ComponentDefinition :=
  { type := "RadiosField", name := some "contact", title := some "Contact",
    options := { list := some list } }

/-- Whether there is a telephone, and of which kind it is, under the same name. -/
def telephoneList : ListDefinition :=
  { name := "contact", title := "Contact", type := .string,
    items := [{ text := "Telephone", value := .str "phone",
                revealed := some [telephoneChoice "phones"] },
      { text := "Letter", value := .str "letter" }] }

/-- The kinds of telephone; of a mobile the network is asked for. -/
def phoneList : ListDefinition :=
  { name := "phones", title := "Telephones", type := .string,
    items := [{ text := "Landline", value := .str "phone" },
      { text := "Mobile", value := .str "mobile",
        revealed := some [{ type := "TextField", name := some "network",
                            title := some "Network" }] }] }

/-- The field that chooses how to get in touch. -/
def telephoneField : Component :=
  .choice .radios (telephoneChoice "contact") telephoneList
    [(0, .str "phone", [.choice .radios (telephoneChoice "phones") phoneList
      [(1, .str "mobile", [.single (.text .line)
        { type := "TextField", name := some "network", title := some "Network" }])]])]

/-- A field that reveals a chooser of its own name compiles. An answer that selects none of its items
may select one of the other's, and the field that this one reveals is then refused, which it was not
while the answer selected an item. -/
theorem exists_deselected_refused :
    compileOne ⟨[telephoneList, phoneList], .builtin, "/contact"⟩ (telephoneChoice "contact") =
        .ok telephoneField ∧
      Deselects "contact" telephoneList.values [("contact", .str "phone")]
        [("contact", .str "mobile")] ∧
      telephoneField.formKeys.Converts {} [("contact", .str "phone")] "network" none ∧
      ∀ converted,
        ¬ telephoneField.formKeys.Converts {} [("contact", .str "mobile")] "network" converted := by
  refine ⟨rfl, ⟨fun key hne => ?_, by decide +kernel⟩, ⟨_, rfl, by decide +kernel⟩, ?_⟩
  · simp [Fields.get?_cons, Ne.symm hne]
  · rintro converted ⟨rule, hrule, hcheck⟩
    have hrefused : ((telephoneField.formKeys.get? "network").map fun rule =>
        (rule.check {} "network" (some [("contact", .str "mobile")]) none).failures) =
          some [⟨[], "Network", .missing⟩] := by decide +kernel
    rw [hrule] at hrefused
    exact absurd ((congrArg Checked.failures hcheck).symm.trans (Option.some.inj hrefused)) nofun

end Questionnaire
