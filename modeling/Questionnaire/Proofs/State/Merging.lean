import Questionnaire.Condition.Evaluation
import Questionnaire.State.Merge

/-!
# Merging, path by path

At a path where a state and an update both hold objects, merging leaves the two objects merged.
Elsewhere what counts is the first place on the path where they do not both hold objects
(`State.PartsAt`): if the update holds anything there, the path leads to what it leads to in the
update, and otherwise to what it leads to in the state (`State.at?_merge`). A second merge of the same
update finds everything as the update wants it (`mergeFields_again`). Together that is
`State.merge_path_law`.

Merging compares objects member by member, so the members have to be in order in all objects
(`Json.InOrder`); merging keeps them so (`Json.InOrder.merge`).
-/

namespace Questionnaire

/-! ## What an update makes of a value -/

theorem mergeValue_of_not_both {old : Option Json} {value : Json}
    (h : ∀ target fields, old = some (.obj target) → value ≠ .obj fields) :
    mergeValue old value = value := by
  cases value with
  | obj fields =>
      cases old with
      | none => rfl
      | some before =>
          cases before with
          | obj target => exact absurd rfl (h target fields rfl)
          | _ => rfl
  | _ => rfl

theorem mergeValue_none (value : Json) : mergeValue none value = value :=
  mergeValue_of_not_both nofun

theorem mergeFields_nil {update : Fields} (h : update.Ordered) : mergeFields [] update = update := by
  refine (Fields.Ordered.nil.mergeFields update).ext h fun key => ?_
  rw [get?_mergeFields h]
  cases update.get? key with
  | none => rfl
  | some value => exact congrArg some (mergeValue_none value)

/-- An object is merged into the members of the object that was there, if one was. -/
theorem mergeValue_obj_eq (old : Option Json) {fields : Fields} (h : fields.Ordered) :
    mergeValue old (.obj fields) = .obj (mergeFields ((old.bind Json.obj?).getD []) fields) := by
  have hnew : Json.obj fields = .obj (mergeFields [] fields) := by rw [mergeFields_nil h]
  cases old with
  | none => exact hnew
  | some value =>
      cases value with
      | obj target => rfl
      | _ => exact hnew

/-! ## Values in order -/

/-- Every object in a value, at whatever path, has its members in order, as all objects have that
were read or merged. -/
def Json.InOrder (value : Json) : Prop :=
  ∀ path fields, value.below? path = some (.obj fields) → Fields.Ordered fields

namespace Json.InOrder

theorem ordered {fields : Fields} (h : (Json.obj fields).InOrder) : fields.Ordered :=
  h [] fields (by rw [below?])

theorem member {fields : Fields} (h : (Json.obj fields).InOrder) {key : String} {value : Json}
    (hvalue : fields.get? key = some value) : value.InOrder :=
  fun path inner hinner => h (key :: path) inner (by rw [below?, hvalue]; exact hinner)

theorem of_members {fields : Fields} (hordered : fields.Ordered)
    (h : ∀ member ∈ fields, member.2.InOrder) : (Json.obj fields).InOrder := by
  rintro (_ | ⟨name, path⟩) inner hinner
  · rw [below?] at hinner
    cases hinner
    exact hordered
  · rw [below?] at hinner
    split at hinner
    · next value hvalue => exact h _ (Fields.mem_of_get? hvalue) path inner hinner
    · cases hinner

theorem of_isObj_eq_false {value : Json} (h : value.isObj = false) : value.InOrder := by
  rintro (_ | ⟨name, path⟩) inner hinner
  · rw [below?] at hinner
    cases hinner
    cases h
  · cases value with
    | obj fields => cases h
    | _ =>
        rw [below?] at hinner
        · cases hinner
        · exact nofun

/-- The object under a key, or an empty one, is in order. -/
theorem part {fields : Fields} (h : (Json.obj fields).InOrder) (key : String) :
    (Json.obj (((fields.get? key).bind Json.obj?).getD [])).InOrder := by
  have hempty : (Json.obj []).InOrder := of_members Fields.Ordered.nil nofun
  cases hvalue : fields.get? key with
  | none => exact hempty
  | some value =>
      cases value with
      | obj inner => exact h.member hvalue
      | _ => exact hempty

end Json.InOrder

/-- An update that was merged changes nothing when it is merged again. -/
theorem mergeFields_again {target update : Fields} (htarget : (Json.obj target).InOrder)
    (hupdate : (Json.obj update).InOrder) :
    mergeFields (mergeFields target update) update = mergeFields target update := by
  have hmerged := htarget.ordered.mergeFields update
  refine (hmerged.mergeFields update).ext hmerged fun key => ?_
  rw [get?_mergeFields hupdate.ordered, get?_mergeFields hupdate.ordered]
  cases hvalue : update.get? key with
  | none => rfl
  | some value =>
      cases value with
      | obj fields =>
          have hfields := hupdate.member hvalue
          have hsmaller : sizeOf fields < sizeOf update := by
            have := List.sizeOf_lt_of_mem (Fields.mem_of_get? hvalue)
            simp only [Prod.mk.sizeOf_spec, Json.obj.sizeOf_spec] at this
            omega
          dsimp only
          rw [mergeValue_obj_eq (target.get? key) hfields.ordered,
            mergeValue_obj_eq (some _) hfields.ordered]
          exact congrArg (fun merged => some (Json.obj merged))
            (mergeFields_again (htarget.part key) hfields)
      | _ => rfl
termination_by sizeOf update

/-! ## Where a state and an update part -/

namespace State

/-- Both states hold objects at a path. -/
def BothHold (state update : State) (path : FieldPath) : Prop :=
  ∃ target fields, state.at? path = some (.obj target) ∧ update.at? path = some (.obj fields)

/-- The first place on a path, given by the steps behind its first name, at which two states do not
both hold objects; the whole path, if they do all along. -/
structure PartsAt (state update : State) (path : FieldPath) (steps : List String) : Prop where
  begins : steps <+: path.rest
  before : ∀ shorter, shorter <+: steps → shorter ≠ steps →
    BothHold state update ⟨path.first, shorter⟩
  parts : ¬ BothHold state update ⟨path.first, steps⟩ ∨ steps = path.rest

variable {state update : State} {first next : String} {rest : List String}

@[simp] theorem at?_single (state : State) (name : String) :
    state.at? ⟨name, []⟩ = Fields.get? state name := by
  rw [at?]
  cases Fields.get? state name with
  | none => rfl
  | some value => cases value <;> rfl

/-- A path of several names goes on in the object under its first name. -/
theorem at?_cons (state : State) (first next : String) (rest : List String) :
    state.at? ⟨first, next :: rest⟩ =
      ((Fields.get? state first).bind Json.obj?).bind (at? · ⟨next, rest⟩) := by
  rw [at?]
  cases Fields.get? state first with
  | none => rfl
  | some value => cases value <;> rfl

/-- Two states that hold objects under a name hold what these objects hold behind it. -/
theorem bothHold_cons_iff {target fields : Fields}
    (htarget : Fields.get? state first = some (.obj target))
    (hfields : Fields.get? update first = some (.obj fields)) :
    BothHold state update ⟨first, next :: rest⟩ ↔ BothHold target fields ⟨next, rest⟩ := by
  unfold BothHold
  simp only [at?_cons, htarget, hfields, Option.bind_some, Json.obj?]

theorem BothHold.of_cons (h : BothHold state update ⟨first, next :: rest⟩) :
    BothHold state update ⟨first, []⟩ := by
  obtain ⟨target, fields, htarget, hfields⟩ := h
  have hobject {held : State} {value : Json} (h : held.at? ⟨first, next :: rest⟩ = some value) :
      ∃ inner, held.at? ⟨first, []⟩ = some (.obj inner) := by
    rw [at?_cons] at h
    obtain ⟨inner, hinner, -⟩ := Option.bind_eq_some_iff.mp h
    obtain ⟨found, hfound, hobj⟩ := Option.bind_eq_some_iff.mp hinner
    cases found with
    | obj members => exact ⟨members, by rw [at?_single, hfound]⟩
    | _ => exact nomatch hobj
  obtain ⟨target', htarget'⟩ := hobject htarget
  obtain ⟨fields', hfields'⟩ := hobject hfields
  exact ⟨target', fields', htarget', hfields'⟩

namespace PartsAt

variable {steps : List String}

/-- States that do not both hold objects under the first name part there. -/
theorem eq_nil (h : PartsAt state update ⟨first, rest⟩ steps)
    (hnot : ¬ BothHold state update ⟨first, []⟩) : steps = [] :=
  Classical.byContradiction fun hne => hnot (h.before [] List.nil_prefix (Ne.symm hne))

section

variable {target fields : Fields} (htarget : Fields.get? state first = some (.obj target))
  (hfields : Fields.get? update first = some (.obj fields))

include htarget hfields

/-- States that both hold objects under the first name part where the objects do. -/
theorem cons_iff : PartsAt state update ⟨first, next :: rest⟩ (next :: steps) ↔
    PartsAt target fields ⟨next, rest⟩ steps := by
  have hboth (behind : List String) : BothHold state update ⟨first, next :: behind⟩ ↔
      BothHold target fields ⟨next, behind⟩ := bothHold_cons_iff htarget hfields
  constructor
  · rintro ⟨hbegins, hbefore, hparts⟩
    refine ⟨(List.prefix_cons_inj next).mp hbegins, fun shorter hshorter hne => ?_, ?_⟩
    · exact (hboth shorter).mp (hbefore (next :: shorter) ((List.prefix_cons_inj next).mpr hshorter)
        fun heq => hne (List.cons.inj heq).2)
    · exact hparts.imp (mt (hboth steps).mpr) fun heq => (List.cons.inj heq).2
  · rintro ⟨hbegins, hbefore, hparts⟩
    refine ⟨(List.prefix_cons_inj next).mpr hbegins, fun shorter hshorter hne => ?_, ?_⟩
    · rcases List.prefix_cons_iff.mp hshorter with rfl | ⟨shorter, rfl, hshorter⟩
      · exact ⟨target, fields, by rw [at?_single, htarget], by rw [at?_single, hfields]⟩
      · refine (hboth shorter).mpr (hbefore shorter ?_ fun heq => hne (heq ▸ rfl))
        exact (List.prefix_cons_inj next).mp hshorter
    · exact hparts.imp (mt (hboth steps).mp) fun heq => congrArg (next :: ·) heq

theorem exists_cons (h : PartsAt state update ⟨first, next :: rest⟩ steps) :
    ∃ behind, steps = next :: behind ∧ PartsAt target fields ⟨next, rest⟩ behind := by
  rcases List.prefix_cons_iff.mp h.begins with rfl | ⟨behind, rfl, -⟩
  · rcases h.parts with hnot | hnil
    · exact absurd ⟨target, fields, by rw [at?_single, htarget], by rw [at?_single, hfields]⟩ hnot
    · exact nomatch hnil
  · exact ⟨behind, rfl, (cons_iff htarget hfields).mp h⟩

end

end PartsAt

theorem exists_partsAt (state update : State) (path : FieldPath) :
    ∃ steps, PartsAt state update path steps := by
  obtain ⟨first, rest⟩ := path
  induction rest generalizing first state update with
  | nil => exact ⟨[], List.prefix_rfl, fun shorter hshorter hne =>
      absurd (List.prefix_nil.mp hshorter) hne, .inr rfl⟩
  | cons next rest ih =>
      by_cases hboth : BothHold state update ⟨first, []⟩
      · obtain ⟨target, fields, htarget, hfields⟩ := hboth
        rw [at?_single] at htarget hfields
        obtain ⟨steps, hsteps⟩ := ih target fields next
        exact ⟨next :: steps, (PartsAt.cons_iff htarget hfields).mpr hsteps⟩
      · exact ⟨[], List.nil_prefix, fun shorter hshorter hne =>
          absurd (List.prefix_nil.mp hshorter) hne, .inl hboth⟩

/-! ## What a merged state holds -/

theorem get?_merge (hupdate : Fields.Ordered update) (state : State) (key : String) :
    Fields.get? (state.merge update) key =
      match Fields.get? update key with
      | some value => some (mergeValue (Fields.get? state key) value)
      | none => Fields.get? state key :=
  get?_mergeFields hupdate state key

/-- Under a name where the update holds nothing, the merged state holds what the state does. -/
theorem at?_merge_of_none (hupdate : Fields.Ordered update) (state : State)
    (hnone : Fields.get? update first = none) (rest : List String) :
    (state.merge update).at? ⟨first, rest⟩ = state.at? ⟨first, rest⟩ := by
  unfold at?
  rw [get?_merge hupdate, hnone]

/-- Under a name where the update holds something, and the two do not both hold objects, the merged
state holds what the update does. -/
theorem at?_merge_of_some (hupdate : Fields.Ordered update)
    (hnot : ¬ BothHold state update ⟨first, []⟩) (hsome : Fields.get? update first ≠ none)
    (rest : List String) : (state.merge update).at? ⟨first, rest⟩ = update.at? ⟨first, rest⟩ := by
  obtain ⟨value, hvalue⟩ := Option.ne_none_iff_exists'.mp hsome
  have hreplaced : mergeValue (Fields.get? state first) value = value := by
    refine mergeValue_of_not_both fun target fields htarget hfields => hnot ?_
    exact ⟨target, fields, by rw [at?_single, htarget], by rw [at?_single, hvalue, hfields]⟩
  unfold at?
  rw [get?_merge hupdate, hvalue]
  dsimp only
  rw [hreplaced]

/-- What a merged state holds at a path: the merged objects where both hold objects, and elsewhere
what is held by the update, or by the state where the update holds nothing at the place where the two
part. -/
theorem at?_merge (hupdate : (Json.obj update).InOrder) {path : FieldPath} {steps : List String}
    (h : PartsAt state update path steps) :
    (∀ target fields, state.at? path = some (.obj target) → update.at? path = some (.obj fields) →
      (state.merge update).at? path = some (.obj (mergeFields target fields))) ∧
    (update.at? ⟨path.first, steps⟩ ≠ none → ¬ BothHold state update path →
      (state.merge update).at? path = update.at? path) ∧
    (update.at? ⟨path.first, steps⟩ = none → (state.merge update).at? path = state.at? path) := by
  obtain ⟨first, rest⟩ := path
  induction rest generalizing first state update steps with
  | nil =>
      obtain rfl := List.prefix_nil.mp h.begins
      simp only [at?_single]
      refine ⟨fun target fields htarget hfields => ?_, fun hsome hnot => ?_, fun hnone => ?_⟩
      · rw [get?_merge hupdate.ordered, hfields, htarget]
        rfl
      · simpa only [at?_single] using at?_merge_of_some hupdate.ordered hnot hsome []
      · simpa only [at?_single] using at?_merge_of_none hupdate.ordered state hnone []
  | cons next rest ih =>
      by_cases hboth : BothHold state update ⟨first, []⟩
      · obtain ⟨target, fields, htarget, hfields⟩ := hboth
        rw [at?_single] at htarget hfields
        obtain ⟨behind, rfl, hparts⟩ := h.exists_cons htarget hfields
        have hmerged : Fields.get? (state.merge update) first =
            some (.obj (State.merge target fields)) := by
          rw [get?_merge hupdate.ordered, hfields, htarget]
          rfl
        -- Behind the first name all is as it is in the two objects under it.
        have hinside := ih (hupdate.member hfields) next hparts
        rw [bothHold_cons_iff htarget hfields]
        simpa only [at?_cons, htarget, hfields, hmerged, Option.bind_some, Json.obj?] using hinside
      · obtain rfl := h.eq_nil hboth
        rw [at?_single update]
        refine ⟨fun target fields htarget hfields => ?_, fun hsome _ => ?_, fun hnone => ?_⟩
        · exact absurd (BothHold.of_cons ⟨target, fields, htarget, hfields⟩) hboth
        · exact at?_merge_of_some hupdate.ordered hboth hsome (next :: rest)
        · exact at?_merge_of_none hupdate.ordered state hnone (next :: rest)

end State

/-- Merging keeps the members of all objects in order. -/
theorem Json.InOrder.merge {state update : State} (hstate : (Json.obj state).InOrder)
    (hupdate : (Json.obj update).InOrder) : (Json.obj (state.merge update)).InOrder := by
  rintro (_ | ⟨first, rest⟩) fields h
  · rw [below?] at h
    cases h
    exact hstate.ordered.mergeFields update
  · have hat (held : State) : (Json.obj held).below? (first :: rest) = held.at? ⟨first, rest⟩ := by
      rw [below?]
      rfl
    rw [hat] at h
    obtain ⟨steps, hsteps⟩ := State.exists_partsAt state update ⟨first, rest⟩
    obtain ⟨hobjects, hreplaced, hkept⟩ := State.at?_merge hupdate hsteps
    by_cases hboth : State.BothHold state update ⟨first, rest⟩
    · obtain ⟨target, inner, htarget, hinner⟩ := hboth
      rw [hobjects target inner htarget hinner] at h
      cases h
      exact (hstate _ target ((hat state).trans htarget)).mergeFields inner
    · by_cases hnone : update.at? ⟨first, steps⟩ = none
      · rw [hkept hnone] at h
        exact hstate _ fields ((hat state).trans h)
      · rw [hreplaced hnone hboth] at h
        exact hupdate _ fields ((hat update).trans h)

/-- Merging obeys the law of paths. On each path there is a first place where the state and the update
do not both hold objects, or they do all along. If the update holds a value there, the merged state
holds at the path what the update does, be it nothing, except that it holds an object where both do;
if the update holds nothing there, the merged state holds what the state does. And merging the update
a second time changes nothing. -/
theorem State.merge_path_law {state update : State} (hstate : (Json.obj state).InOrder)
    (hupdate : (Json.obj update).InOrder) :
    (∀ path, ∃ steps, State.PartsAt state update path steps) ∧
    (∀ path steps, State.PartsAt state update path steps →
      (update.at? ⟨path.first, steps⟩ ≠ none →
        (State.BothHold state update path →
          ∃ fields, (state.merge update).at? path = some (.obj fields)) ∧
        (¬ State.BothHold state update path → (state.merge update).at? path = update.at? path)) ∧
      (update.at? ⟨path.first, steps⟩ = none →
        (state.merge update).at? path = state.at? path)) ∧
    (state.merge update).merge update = state.merge update := by
  refine ⟨State.exists_partsAt state update, fun path steps h => ?_,
    mergeFields_again hstate hupdate⟩
  obtain ⟨hobjects, hreplaced, hkept⟩ := State.at?_merge hupdate h
  refine ⟨fun hsome => ⟨?_, hreplaced hsome⟩, hkept⟩
  rintro ⟨target, fields, htarget, hfields⟩
  exact ⟨_, hobjects target fields htarget hfields⟩

/-- A telephone number is added beside an address that stays, and a text gives way to an object. -/
theorem State.merge_path_law_contact :
    let state : State :=
      [("contact", .obj [("email", .str "a@b.c"), ("phone", .obj [])]), ("trip", .str "later")]
    let update : State :=
      [("contact", .obj [("phone", .obj [("home", .str "42")])]), ("trip", .obj [("day", .null)])]
    (Json.obj state).InOrder ∧ (Json.obj update).InOrder ∧
      PartsAt state update ⟨"contact", ["email"]⟩ ["email"] ∧
      (state.merge update).at? ⟨"contact", ["email"]⟩ = some (.str "a@b.c") ∧
      (∃ fields, (state.merge update).at? ⟨"contact", ["phone"]⟩ = some (.obj fields)) ∧
      PartsAt state update ⟨"trip", ["day"]⟩ [] ∧
      (state.merge update).at? ⟨"trip", ["day"]⟩ = some .null ∧
      (state.merge update).merge update = state.merge update := by
  intro state update
  have htext (s : String) : (Json.str s).InOrder := .of_isObj_eq_false rfl
  have hstate : (Json.obj state).InOrder := by
    refine .of_members (List.pairwise_pair.mpr (by decide)) ?_
    simp only [state, List.forall_mem_cons]
    refine ⟨.of_members (List.pairwise_pair.mpr (by decide)) ?_, htext _, nofun⟩
    simp only [List.forall_mem_cons]
    exact ⟨htext _, .of_members Fields.Ordered.nil nofun, nofun⟩
  have hsingle (name : String) {value : Json} (h : value.InOrder) :
      (Json.obj [(name, value)]).InOrder :=
    .of_members (List.pairwise_singleton _ _) (List.forall_mem_singleton.mpr h)
  have hupdate : (Json.obj update).InOrder := by
    refine .of_members (List.pairwise_pair.mpr (by decide)) ?_
    simp only [update, List.forall_mem_cons]
    exact ⟨hsingle _ (hsingle _ (htext _)), hsingle _ (.of_isObj_eq_false rfl), nofun⟩
  obtain ⟨-, hpaths, hagain⟩ := merge_path_law hstate hupdate
  have hcontact : BothHold state update ⟨"contact", []⟩ := ⟨_, _, rfl, rfl⟩
  have hwhole (name : String) : PartsAt state update ⟨"contact", [name]⟩ [name] := by
    refine ⟨List.prefix_rfl, fun shorter hshorter hne => ?_, .inr rfl⟩
    rcases List.prefix_cons_iff.mp hshorter with rfl | ⟨_, rfl, hnil⟩
    · exact hcontact
    · exact absurd (congrArg _ (List.prefix_nil.mp hnil)) hne
  have htrip : PartsAt state update ⟨"trip", ["day"]⟩ [] := by
    refine ⟨List.nil_prefix, fun shorter hshorter hne => ?_, .inl ?_⟩
    · exact absurd (List.prefix_nil.mp hshorter) hne
    · rintro ⟨target, fields, htarget, -⟩
      exact nomatch htarget
  have hday : ¬ BothHold state update ⟨"trip", ["day"]⟩ := by
    rintro ⟨target, fields, htarget, -⟩
    exact nomatch htarget
  refine ⟨hstate, hupdate, hwhole "email", ?_, ?_, htrip, ?_, hagain⟩
  · exact (hpaths _ _ (hwhole "email")).2 rfl
  · exact ((hpaths _ _ (hwhole "phone")).1 nofun).1 ⟨_, _, rfl, rfl⟩
  · exact ((hpaths _ _ htrip).1 nofun).2 hday

end Questionnaire
