import Questionnaire.Proofs.Component.Anchors
import Questionnaire.Proofs.Page.Answers

/-!
# What is shown covers what is asked

The view of a group of components has a node for each input: one for a field, one for each part of a
date in numbers or of an address, and those of the components that items reveal (`viewInputs`). The
parent of such parts and blocks of content take no input. Where no two inputs have one name, these
nodes are, in order, those of the keys that the group asks of submitted data, each with the value
that the data has under it (`inputs_componentViews`): the view asks for nothing that is not
expected, and nothing that is expected goes unasked.
-/

namespace Questionnaire

/-! ## The inputs of a view -/

mutual

/-- The nodes of a view that take input: the view itself unless it is a parent or a block of content,
those that its items reveal and those it is the parent of. -/
def ComponentView.inputs : ComponentView → List FieldView
  | .mk _ isForm field items children =>
    (if isForm && children.isEmpty then [field] else []) ++
      (itemInputs items ++ viewInputs children)

/-- The nodes that take input of the views that options reveal. -/
def itemInputs : List (ItemView × List ComponentView) → List FieldView
  | [] => []
  | (_, views) :: rest => viewInputs views ++ itemInputs rest

/-- The nodes that take input of some views. -/
def viewInputs : List ComponentView → List FieldView
  | [] => []
  | view :: rest => view.inputs ++ viewInputs rest

end

theorem itemInputs_eq_flatMap (items : List (ItemView × List ComponentView)) :
    itemInputs items = items.flatMap fun option => viewInputs option.2 := by
  induction items with
  | nil => rfl
  | cons option rest ih => rw [itemInputs, ih, List.flatMap_cons]

theorem itemInputs_items (variant : ChoiceVariant)
    (items : List (ItemView × List ComponentView)) :
    itemInputs (variant.items items) = itemInputs items := by
  cases variant <;> rfl

/-- The id of a node, and the value it shows. -/
def FieldView.entered (field : FieldView) : Option String × Option Json :=
  (field.id, field.value)

/-- What a node shows that is the input of a name. -/
def enteredUnder (data : FormData) (name : String) : Option String × Option Json :=
  (some name, data.get? name)

theorem entered_decorate_text (variant : TextVariant) (d : ComponentDefinition)
    (view : FieldView) : (variant.decorate d view).entered = view.entered := by
  cases variant <;> rfl

theorem entered_decorate_choice (variant : ChoiceVariant) (view : FieldView) :
    (variant.decorate view).entered = view.entered := by
  cases variant <;> rfl

theorem entered_dateView (withTime : Bool) (view : FieldView) :
    (dateView withTime view).entered = view.entered := by
  cases withTime <;> rfl

/-! ## Inputs of components -/

section

variable (data : FormData) (errors : Option ErrorSummary)

/-- A field that chooses from no list has a node for each of its inputs. -/
theorem inputs_view_single {kind : SingleKind} {d : ComponentDefinition}
    (hfield : (Component.single kind d).IsBuiltinField = true) :
    (kind.view d data errors).inputs.map FieldView.entered =
      (Side.form.own (.single kind d)).names.map (enteredUnder data) := by
  cases kind with
  | text variant =>
      show [(variant.decorate d (baseView d data errors)).entered] = _
      rw [entered_decorate_text]
      rfl
  | date withTime =>
      show [(dateView withTime (baseView d data errors)).entered] = _
      rw [entered_dateView]
      rfl
  | dateParts withTime =>
      have hnames : (Side.form.own (.single (.dateParts withTime) d)).names =
          (datePartsOf withTime).map fun part => partName d.nameText part.key :=
        names_parts _ (nodup_datePartsOf withTime) d.nameText
      rw [hnames, List.map_map]
      cases withTime <;> rfl
  | address =>
      have hnames : (Side.form.own (.single .address d)).names =
          addressParts.map fun part => partName d.nameText part.key :=
        names_parts (fun part : AddressPart => part.rule d) nodup_addressParts d.nameText
      rw [hnames, List.map_map]
      rfl
  | content variant => cases hfield
  | plain => cases hfield

/-- A field that chooses has a node for itself, and the nodes of what its items reveal. -/
theorem inputs_view_choice {variant : ChoiceVariant} {d : ComponentDefinition}
    {list : ListDefinition} {reveals : List (Nat × Json × List Component)}
    (hindexed : (Component.choice variant d list reveals).RevealsByIndex) :
    ((Component.choice variant d list reveals).view data errors).inputs.map FieldView.entered =
      enteredUnder data d.nameText ::
        (reveals.flatMap fun entry => viewInputs (componentViews data errors entry.2.2)).map
          FieldView.entered := by
  rw [Component.view, ComponentView.inputs, itemInputs_items, itemInputs_eq_flatMap,
    flatMap_choiceItems hindexed _ rfl]
  show (variant.decorate (baseView d data errors)).entered ::
    ((reveals.flatMap fun entry => viewInputs (componentViews data errors entry.2.2)) ++
      viewInputs []).map FieldView.entered = _
  rw [entered_decorate_choice, viewInputs, List.append_nil]
  rfl

mutual

theorem Component.inputs_view : ∀ c : Component,
    (∀ q ∈ c.questions, q.field.IsBuiltinField = true ∧ q.field.RevealsByIndex) →
    (c.view data errors).inputs.map FieldView.entered =
      (c.questions.flatMap Side.form.names).map (enteredUnder data)
  | .single kind d, hfields => by
    cases kind with
    | content variant => rfl
    | _ =>
        rw [Component.view, inputs_view_single data errors (hfields _ (List.mem_cons_self ..)).1]
        exact congrArg (List.map (enteredUnder data)) (List.append_nil _).symm
  | .choice variant d list reveals, hfields => by
    rw [inputs_view_choice data errors (hfields _ (List.mem_cons_self ..)).2,
      inputs_revealed reveals fun q hq => hfields q (List.mem_cons_of_mem _ hq)]
    rfl

/-- A group of components has a node for each input of its fields, in their order. -/
theorem inputs_group : ∀ components : List Component,
    (∀ q ∈ questions components, q.field.IsBuiltinField = true ∧ q.field.RevealsByIndex) →
    (viewInputs (componentViews data errors components)).map FieldView.entered =
      (formNames components).map (enteredUnder data)
  | [], _ => rfl
  | c :: rest, hfields => by
    rw [componentViews, viewInputs, List.map_append,
      c.inputs_view fun q hq => hfields q (List.mem_append_left _ hq),
      inputs_group rest fun q hq => hfields q (List.mem_append_right _ hq), formNames, formNames,
      questions, List.flatMap_append, List.map_append]

theorem inputs_revealed : ∀ (reveals : List (Nat × Json × List Component)) {chooser : String}
    {type : ListType},
    (∀ q ∈ revealedQuestions chooser type reveals,
      q.field.IsBuiltinField = true ∧ q.field.RevealsByIndex) →
    (reveals.flatMap fun entry => viewInputs (componentViews data errors entry.2.2)).map
        FieldView.entered =
      ((revealedQuestions chooser type reveals).flatMap Side.form.names).map (enteredUnder data)
  | [], _, _, _ => rfl
  | (_, item, components) :: rest, chooser, type, hfields => by
    have hfirst := inputs_group components fun q hq =>
      hfields (q.within ⟨chooser, type, item⟩) (List.mem_append_left _ (List.mem_map_of_mem hq))
    rw [List.flatMap_cons, List.map_append, hfirst,
      inputs_revealed rest fun q hq => hfields q (List.mem_append_right _ hq), revealedQuestions,
      List.flatMap_append, List.map_append, List.flatMap_map]
    rfl

end

end

/-! ## Names of what is asked -/

namespace Side

theorem flatMap_names_single (side : Side) (kind : SingleKind) (d : ComponentDefinition) :
    (Component.single kind d).questions.flatMap side.names = (side.single kind d).names := by
  cases kind with
  | content variant =>
      rw [side.single_content]
      rfl
  | _ => exact List.append_nil _

mutual

theorem names_keys (side : Side) : ∀ c : Component, (c.questions.flatMap side.names).Nodup →
    (side.keys c).names = c.questions.flatMap side.names
  | .single kind d, _ => (side.flatMap_names_single kind d).symm
  | .choice variant d list reveals, h => by
    rw [Component.questions, List.flatMap_cons] at h ⊢
    have hinside := (List.nodup_append.mp h).2.1
    rw [← side.names_revealKeys reveals hinside] at h ⊢
    exact Keys.names_extend_of_nodup h

/-- Where all questions have names of their own, the keys of a group are those names in order. -/
theorem names_groupKeys (side : Side) : ∀ components : List Component,
    ((questions components).flatMap side.names).Nodup →
    (side.groupKeys components).names = (questions components).flatMap side.names
  | [], _ => rfl
  | c :: rest, h => by
    rw [questions, List.flatMap_append] at h ⊢
    obtain ⟨hc, hrest, -⟩ := List.nodup_append.mp h
    rw [← side.names_keys c hc, ← side.names_groupKeys rest hrest] at h ⊢
    exact Keys.names_extend_of_nodup h

theorem names_revealKeys (side : Side) : ∀ (reveals : List (Nat × Json × List Component))
    {chooser : String} {type : ListType},
    ((revealedQuestions chooser type reveals).flatMap side.names).Nodup →
    (side.revealKeys chooser reveals).names =
      (revealedQuestions chooser type reveals).flatMap side.names
  | [], _, _, _ => rfl
  | (_, item, components) :: rest, chooser, type, h => by
    have hwithin : ((questions components).map (Question.within ⟨chooser, type, item⟩)).flatMap
        side.names = (questions components).flatMap side.names := List.flatMap_map ..
    rw [revealedQuestions, List.flatMap_append, hwithin] at h ⊢
    obtain ⟨hcomponents, hrest, -⟩ := List.nodup_append.mp h
    have hnames := names_revealedKeys chooser item side.blank (side.groupKeys components)
    rw [side.names_groupKeys components hcomponents] at hnames
    rw [← hnames, ← side.names_revealKeys rest hrest] at h ⊢
    exact Keys.names_extend_of_nodup h

end

end Side

/-- Where the inputs of a group, revealed ones included, have names of their own, the view of the group
has just one node for each key of the group's rule for submitted data, in the order of the keys, and
the node shows the value that the data has under the key, if it has one. -/
theorem inputs_componentViews {context : CompileContext} {definitions : List ComponentDefinition}
    {components : List Component} (hbuiltin : context.types.IsBuiltin)
    (hcompile : compileGroup context definitions = .ok components)
    (hnames : (formNames components).Nodup) (data : FormData) (errors : Option ErrorSummary) :
    (viewInputs (componentViews data errors components)).map FieldView.id =
        (formKeys components).names.map some ∧
      (formKeys components).names.Nodup ∧
      ∀ field ∈ viewInputs (componentViews data errors components),
        ∃ name, field.id = some name ∧ field.value = data.get? name := by
  have hkeys : (formKeys components).names = formNames components := by
    rw [← Side.groupKeys_form]
    exact Side.form.names_groupKeys components hnames
  have hfields := isBuiltinField_of_compileGroup hbuiltin hcompile
  have hindexed := revealsByIndex_of_compileGroup hcompile
  have hentered := inputs_group data errors components fun q hq => ⟨hfields q hq, hindexed q hq⟩
  rw [hkeys]
  refine ⟨?_, hnames, fun field hfield => ?_⟩
  · have hids := congrArg (List.map Prod.fst) hentered
    rwa [List.map_map, List.map_map] at hids
  · have hmem : field.entered ∈ (formNames components).map (enteredUnder data) :=
      hentered ▸ List.mem_map_of_mem hfield
    obtain ⟨name, -, heq⟩ := List.mem_map.mp hmem
    obtain ⟨hid, hvalue⟩ := Prod.mk.inj heq
    exact ⟨name, hid.symm, hvalue.symm⟩

/-! ### How a courier comes -/

/-- What to know about a courier at the door. -/
def courierNote : ComponentDefinition :=
  { type := "Para", content := some "The courier rings twice." }

/-- Where the door is. -/
def courierDoor : ComponentDefinition :=
  { type := "UkAddressField", name := some "door", title := some "Address" }

/-- When a courier comes later. -/
def courierDay : ComponentDefinition :=
  { type := "DatePartsField", name := some "day", title := some "Day" }

/-- How a courier comes: to the door, which needs an address, or later, which needs a day. -/
def courierList : ListDefinition :=
  { name := "courier", title := "Courier", type := .string,
    items := [{ text := "Not at all", value := .str "none" },
      { text := "To the door", value := .str "door", revealed := some [courierNote, courierDoor] },
      { text := "Later", value := .str "later", revealed := some [courierDay] }] }

/-- How a courier usually comes, where nothing is revealed, and how the next one does. -/
def courierFields : List ComponentDefinition :=
  [{ type := "SelectField", name := some "usual", options := { list := some "courier" } },
    { type := "RadiosField", name := some "next", options := { list := some "courier" } }]

/-- What the two fields compile to. -/
def courierComponents : List Component :=
  [.choice .select courierFields[0] courierList [],
    .choice .radios courierFields[1] courierList
      [(1, .str "door", [.single (.content .para) courierNote, .single .address courierDoor]),
        (2, .str "later", [.single (.dateParts false) courierDay])]]

/-- To the door, in a town. -/
def courierData : FormData :=
  [("door__town", .str "Leeds"), ("next", .str "door")]

/-- Every input is on the page, whether its item is selected or not, and shows what was typed. -/
theorem inputs_componentViews_courier :
    compileGroup ⟨[courierList], .builtin, "/courier"⟩ courierFields = .ok courierComponents ∧
      (formNames courierComponents).Nodup ∧
      (viewInputs (componentViews courierData none courierComponents)).map FieldView.id =
        ["usual", "next", "door__premises", "door__street", "door__locality", "door__town",
          "door__postcode", "day__day", "day__month", "day__year"].map some ∧
      ∀ field ∈ viewInputs (componentViews courierData none courierComponents),
        field.id = some "door__town" → field.value = some (.str "Leeds") := by
  have hcompile : compileGroup ⟨[courierList], .builtin, "/courier"⟩ courierFields =
      .ok courierComponents := rfl
  have hnames : (formNames courierComponents).Nodup := by decide +kernel
  obtain ⟨hids, -, hvalues⟩ := inputs_componentViews TypeRegistry.isBuiltin_builtin hcompile hnames
    courierData none
  refine ⟨hcompile, hnames, hids.trans (by decide +kernel), fun field hfield hid => ?_⟩
  obtain ⟨name, hname, hvalue⟩ := hvalues field hfield
  obtain rfl := Option.some.inj (hid.symm.trans hname)
  rw [hvalue]
  decide +kernel

end Questionnaire
