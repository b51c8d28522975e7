import Mathlib.Data.List.Pairwise
import Questionnaire.Proofs.Component.Compiled
import Questionnaire.Proofs.Component.Filling

/-!
# Fields of one name

The check for names that are used twice goes by the inputs of the fields, while the state has one
place for a field, under the field's own name. Two fields of one name get past the check where they
are entered in different ways: as one input, as the numbers of a date, or as the lines of an
address (`Component.entry_ne_of_name_eq`). The components of a group have their own places in the
state just if no two of them have such fields.
-/

namespace Questionnaire

/-! ## Inputs that are claimed once -/

theorem nodup_of_firstRepeated?_eq_none {names : List String} : ∀ {seen : List String},
    firstRepeated? seen names = none → names.Nodup ∧ ∀ name ∈ names, name ∉ seen := by
  induction names with
  | nil => exact fun _ => ⟨List.nodup_nil, nofun⟩
  | cons name rest ih =>
      intro seen h
      rw [firstRepeated?] at h
      split at h
      · exact nomatch h
      · next hseen =>
        obtain ⟨hnodup, hfresh⟩ := ih h
        refine ⟨List.nodup_cons.mpr ⟨fun hname => ?_, hnodup⟩, fun other hother => ?_⟩
        · exact hfresh name hname (List.mem_cons_self ..)
        · rcases List.mem_cons.mp hother with rfl | hother
          · simpa using hseen
          · exact fun hmem => hfresh other hother (List.mem_cons_of_mem _ hmem)

/-- No two components of a group have an input in common. -/
theorem pairwise_disjoint_formKeys {context : CompileContext} {components group : List Component}
    (h : asGroup context components = .ok group) :
    (formComponents group).Pairwise fun c other => c.formKeys.names.Disjoint other.formKeys.names := by
  obtain rfl := eq_of_asGroup h
  unfold asGroup at h
  split at h
  · exact nomatch h
  · next hnone => exact (List.nodup_flatMap.mp (nodup_of_firstRepeated?_eq_none hnone).1).2

/-! ## Ways of entering an answer -/

/-- How the answer of a field is entered. -/
inductive Entry where
  /-- As one input, under the field's name. -/
  | whole
  /-- As the numbers of a date. -/
  | numbers
  /-- As the lines of an address. -/
  | lines
deriving DecidableEq

/-- The first input of a field of a name. -/
def Entry.firstInput (name : String) : Entry → String
  | .whole => name
  | .numbers => partName name "day"
  | .lines => partName name "premises"

theorem Side.mem_names_keys_iff (side : Side) {c : Component} {key : String} :
    key ∈ (side.keys c).names ↔ ∃ q ∈ c.questions, key ∈ side.names q := by
  have hgroup := @mem_names_groupKeys_iff side [c] key
  rwa [groupKeys, groupKeys, questions, questions, List.append_nil] at hgroup

namespace Component

/-- How the answer of a component is entered. -/
def entry : Component → Entry
  | .single (.dateParts _) _ => .numbers
  | .single .address _ => .lines
  | _ => .whole

theorem firstInput_mem_own {c : Component} (h : c.isForm = true) :
    c.entry.firstInput c.name ∈ (Side.form.own c).names := by
  cases c with
  | choice variant d list reveals => exact List.mem_singleton_self _
  | single kind d =>
      cases kind with
      | content variant => exact nomatch h
      | dateParts withTime =>
          show partName d.nameText "day" ∈ (Keys.ofList _).names
          rw [names_parts _ (nodup_datePartsOf withTime)]
          cases withTime <;> exact List.mem_cons_self ..
      | address =>
          show partName d.nameText "premises" ∈ (Keys.ofList _).names
          rw [names_parts _ nodup_addressParts]
          exact List.mem_cons_self ..
      | _ => exact List.mem_singleton_self _

variable {c other : Component}

theorem mem_names_stateKeys_iff {key : String} :
    key ∈ c.stateKeys.names ↔ ∃ q ∈ c.questions, q.name = key := by
  rw [← Side.keys_state, Side.mem_names_keys_iff]
  refine exists_congr fun q => and_congr_right fun hq => ?_
  rw [Side.names, own_state (c.isForm_of_mem_questions hq)]
  exact List.mem_singleton.trans eq_comm

theorem firstInput_mem_formKeys {q : Question} (hq : q ∈ c.questions) :
    q.field.entry.firstInput q.name ∈ c.formKeys.names := by
  rw [← Side.keys_form, Side.mem_names_keys_iff]
  exact ⟨q, hq, firstInput_mem_own (c.isForm_of_mem_questions hq)⟩

variable (hinputs : c.formKeys.names.Disjoint other.formKeys.names)
include hinputs

/-- Fields of one name have an input in common unless they are entered in different ways. -/
theorem entry_ne_of_name_eq {q q' : Question} (hq : q ∈ c.questions) (hq' : q' ∈ other.questions)
    (hname : q.name = q'.name) : q.field.entry ≠ q'.field.entry := by
  intro hentry
  have hinput := firstInput_mem_formKeys hq
  rw [hentry, hname] at hinput
  exact hinputs hinput (firstInput_mem_formKeys hq')

theorem disjoint_stateKeys_iff :
    c.stateKeys.names.Disjoint other.stateKeys.names ↔
      ∀ q ∈ c.questions, ∀ q' ∈ other.questions, q.field.entry ≠ q'.field.entry →
        q.name ≠ q'.name := by
  constructor
  · intro hdisjoint q hq q' hq' _ hname
    exact hdisjoint (mem_names_stateKeys_iff.mpr ⟨q, hq, hname⟩)
      (mem_names_stateKeys_iff.mpr ⟨q', hq', rfl⟩)
  · intro hnames key hkey hkey'
    obtain ⟨q, hq, rfl⟩ := mem_names_stateKeys_iff.mp hkey
    obtain ⟨q', hq', hname⟩ := mem_names_stateKeys_iff.mp hkey'
    exact hnames q hq q' hq' (entry_ne_of_name_eq hinputs hq hq' hname.symm) hname.symm

end Component

/-- An input of a component belongs to no question of another component. -/
theorem mem_questions_of_input {components : List Component}
    (hpairs : (formComponents components).Pairwise fun c other =>
      c.formKeys.names.Disjoint other.formKeys.names)
    {c : Component} (hc : c ∈ components) (hform : c.isForm = true) {key : String}
    (hkey : key ∈ c.formKeys.names) {q : Question} (hq : q ∈ questions components)
    (hname : key ∈ Side.form.names q) : q ∈ c.questions := by
  obtain ⟨other, hother, hq⟩ := mem_questions_iff.mp hq
  have hkey' : key ∈ other.formKeys.names := by
    rw [← Side.keys_form, Side.mem_names_keys_iff]
    exact ⟨q, hq, hname⟩
  have hform' : other.isForm = true := by
    cases other with
    | single kind d => cases kind <;> first | rfl | exact nomatch hq
    | choice variant d list reveals => rfl
  by_contra hne
  have hsymmetric : Std.Symm fun c other : Component =>
      c.formKeys.names.Disjoint other.formKeys.names := ⟨fun _ _ => List.disjoint_symm⟩
  exact hpairs.forall (List.mem_filter.mpr ⟨hc, hform⟩) (List.mem_filter.mpr ⟨hother, hform'⟩)
    (fun heq => hne (heq ▸ hq)) hkey hkey'

/-! ## Places in the state -/

/-- The components of a group that compiles have their own places in the state just if no two of
them have fields of one name that are entered in different ways, revealed fields included. -/
theorem pairwise_disjoint_stateKeys_iff {context : CompileContext}
    {definitions : List ComponentDefinition} {components : List Component}
    (h : compileGroup context definitions = .ok components) :
    ((formComponents components).Pairwise fun c other =>
        c.stateKeys.names.Disjoint other.stateKeys.names) ↔
      (formComponents components).Pairwise fun c other =>
        ∀ q ∈ c.questions, ∀ q' ∈ other.questions, q.field.entry ≠ q'.field.entry →
          q.name ≠ q'.name := by
  obtain ⟨compiled, -, hgroup⟩ := Except.bind_eq_ok_iff.mp h
  have hinputs := pairwise_disjoint_formKeys hgroup
  constructor
  · exact hinputs.imp₂ fun _ _ hpair => (Component.disjoint_stateKeys_iff hpair).mp
  · exact hinputs.imp₂ fun _ _ hpair => (Component.disjoint_stateKeys_iff hpair).mpr

/-- An address, and beside it a line of text of the same name. -/
def homeFields : List ComponentDefinition :=
  [{ type := "UkAddressField", name := some "home", title := some "Address" },
    { type := "TextField", name := some "home", title := some "Name of the house" }]

/-- What the two fields compile to. -/
def homeComponents : List Component :=
  homeFields.zipWith (fun d kind => .single kind d) [.address, .text .line]

/-- Both fields are accepted, and the state has one place for them. -/
theorem stateKeys_meet_home :
    compileGroup ⟨[], .builtin, "/home"⟩ homeFields = .ok homeComponents ∧
      ¬(formComponents homeComponents).Pairwise fun c other =>
        c.stateKeys.names.Disjoint other.stateKeys.names := by
  have hcompile : compileGroup ⟨[], .builtin, "/home"⟩ homeFields = .ok homeComponents := rfl
  refine ⟨hcompile, fun hdisjoint => ?_⟩
  have hpairs := (pairwise_disjoint_stateKeys_iff hcompile).mp hdisjoint
  obtain ⟨hfirst, -⟩ := List.pairwise_cons.mp hpairs
  exact hfirst _ (List.mem_cons_self ..) _ (List.mem_cons_self ..) _ (List.mem_cons_self ..)
    nofun rfl

end Questionnaire
