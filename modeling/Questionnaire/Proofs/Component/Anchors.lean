import Questionnaire.Component.View
import Questionnaire.Proofs.Component.Compiled
import Questionnaire.Proofs.Component.Filling

/-!
# The anchors of a view

The view of a component is a tree, and each node in it that takes input has an id. The ids of what a
group of components shows are the names of its fields and of their inputs, however deep they are
revealed (`mem_viewIds_componentViews_iff`). They do not depend on the data and the errors shown.
-/

namespace Questionnaire

mutual

/-- The ids in a view, with those of the components its items reveal and of its sub-fields. -/
def ComponentView.ids : ComponentView → List String
  | .mk _ _ field items children => field.id.toList ++ (itemIds items ++ viewIds children)

/-- The ids in the views that options reveal. -/
def itemIds : List (ItemView × List ComponentView) → List String
  | [] => []
  | (_, views) :: rest => viewIds views ++ itemIds rest

/-- The ids in some views. -/
def viewIds : List ComponentView → List String
  | [] => []
  | view :: rest => view.ids ++ viewIds rest

end

/-- Whether an id is that of a field, or of one of its inputs. -/
def Component.HasId (c : Component) (id : String) : Prop :=
  id = c.name ∨ id ∈ (Side.form.own c).names

instance (c : Component) (id : String) : Decidable (c.HasId id) :=
  inferInstanceAs (Decidable (_ ∨ _))

/-! ## Nodes of a view -/

theorem itemIds_eq_flatMap (items : List (ItemView × List ComponentView)) :
    itemIds items = items.flatMap fun option => viewIds option.2 := by
  induction items with
  | nil => rfl
  | cons option rest ih => rw [itemIds, ih, List.flatMap_cons]

theorem ids_withField (view : ComponentView) {field : FieldView} (h : field.id = view.field.id) :
    (view.withField field).ids = view.ids := by
  obtain ⟨type, isForm, own, items, children⟩ := view
  have hid : field.id = own.id := h
  rw [ComponentView.withField, ComponentView.ids, ComponentView.ids, hid]

theorem viewIds_of_leaves {α : Type} {parts : List α} {view : α → ComponentView} {id : α → String}
    (h : ∀ part ∈ parts, (view part).ids = [id part]) :
    viewIds (parts.map view) = parts.map id := by
  induction parts with
  | nil => rfl
  | cons part rest ih =>
      rw [List.map_cons, List.map_cons, viewIds, h part (List.mem_cons_self ..),
        ih fun other hother => h other (List.mem_cons_of_mem _ hother)]
      rfl

theorem id_decorate_text (variant : TextVariant) (d : ComponentDefinition) (view : FieldView) :
    (variant.decorate d view).id = view.id := by
  cases variant <;> rfl

theorem id_decorate_choice (variant : ChoiceVariant) (view : FieldView) :
    (variant.decorate view).id = view.id := by
  cases variant <;> rfl

theorem itemIds_items (variant : ChoiceVariant) (items : List (ItemView × List ComponentView)) :
    itemIds (variant.items items) = itemIds items := by
  cases variant <;> rfl

/-! ## Options -/

theorem lookup_eq_none_of_lt {α : Type} {i : Nat} {entries : List (Nat × α)}
    (h : ∀ entry ∈ entries, i < entry.1) : entries.lookup i = none := by
  refine List.lookup_eq_none_iff.mpr fun entry hentry => ?_
  simpa using Nat.ne_of_lt (h entry hentry)

/-- Entries under ascending indices are found one after another. -/
theorem flatMap_lookup {α β : Type} {f : List α → List β} (hf : f [] = []) {n : Nat} :
    ∀ {start : Nat} {entries : List (Nat × List α)}, (entries.map Prod.fst).Pairwise (· < ·) →
      (∀ entry ∈ entries, start ≤ entry.1 ∧ entry.1 < start + n) →
      (List.range' start n).flatMap (fun i => f ((entries.lookup i).getD [])) =
        entries.flatMap fun entry => f entry.2 := by
  induction n with
  | zero =>
      intro start entries _ hbounds
      cases entries with
      | nil => rfl
      | cons entry rest =>
          have := hbounds entry (List.mem_cons_self ..)
          omega
  | succ n ih =>
      intro start entries hascending hbounds
      cases entries with
      | nil => simp [hf]
      | cons entry rest =>
          obtain ⟨i, xs⟩ := entry
          obtain ⟨hfirst, hrest⟩ := List.pairwise_cons.mp hascending
          have hlater : ∀ entry ∈ rest, i < entry.1 := fun entry hentry =>
            hfirst entry.1 (List.mem_map_of_mem hentry)
          rw [List.range'_succ, List.flatMap_cons]
          by_cases hi : i = start
          · subst hi
            rw [List.flatMap_cons, List.lookup_cons_self, Option.getD_some, ← ih hrest ?_]
            · congr 1
              refine List.flatMap_congr fun j hj => ?_
              have hne : (j == i) = false := by
                simpa using Nat.ne_of_gt (List.mem_range'_1.mp hj).1
              rw [List.lookup_cons, hne]
            · intro entry hentry
              have := hlater entry hentry
              have := hbounds entry (List.mem_cons_of_mem _ hentry)
              omega
          · -- Indices ascend, so nothing stands under the first one.
            have hafter : ∀ entry ∈ (i, xs) :: rest, start < entry.1 := by
              have hle := (hbounds (i, xs) (List.mem_cons_self ..)).1
              have hlt := Nat.lt_of_le_of_ne hle (Ne.symm hi)
              exact List.forall_mem_cons.mpr
                ⟨hlt, fun entry hentry => Nat.lt_trans hlt (hlater entry hentry)⟩
            rw [lookup_eq_none_of_lt hafter, Option.getD_none, hf, List.nil_append]
            refine ih hascending fun entry hentry => ?_
            have := hafter entry hentry
            have := hbounds entry hentry
            omega

theorem revealedViews_eq_map (data : FormData) (errors : Option ErrorSummary)
    (reveals : List (Nat × Json × List Component)) :
    revealedViews data errors reveals =
      reveals.map fun entry => (entry.1, componentViews data errors entry.2.2) := by
  induction reveals with
  | nil => rfl
  | cons entry rest ih =>
      obtain ⟨i, item, components⟩ := entry
      rw [revealedViews, ih]
      rfl

/-- What an item reveals is shown with the option that has the item's index, so the options show in
their order all that is revealed. -/
theorem flatMap_choiceItems {data : FormData} {errors : Option ErrorSummary}
    {variant : ChoiceVariant} {d : ComponentDefinition} {list : ListDefinition}
    {reveals : List (Nat × Json × List Component)}
    (hindexed : (Component.choice variant d list reveals).RevealsByIndex) (selected : Json)
    {α : Type} {f : List ComponentView → List α} (hf : f [] = []) :
    (choiceItems d list selected fun i =>
        ((revealedViews data errors reveals).lookup i).getD []).flatMap (fun option => f option.2) =
      reveals.flatMap fun entry => f (componentViews data errors entry.2.2) := by
  obtain ⟨hascending, hbound⟩ := hindexed
  have hascending : ((reveals.map fun entry =>
      (entry.1, componentViews data errors entry.2.2)).map Prod.fst).Pairwise (· < ·) := by
    rw [List.map_map]
    exact hascending
  have hbounds : ∀ entry ∈ reveals.map fun entry =>
      (entry.1, componentViews data errors entry.2.2),
      0 ≤ entry.1 ∧ entry.1 < 0 + list.items.length := by
    rw [List.forall_mem_map, Nat.zero_add]
    exact fun entry hentry => ⟨Nat.zero_le _, hbound entry hentry⟩
  have hlookup := flatMap_lookup hf hascending hbounds
  rw [List.flatMap_map, ← List.zipIdx_map_snd 0 list.items, List.flatMap_map] at hlookup
  rw [choiceItems, List.flatMap_map, revealedViews_eq_map]
  exact hlookup

/-! ## Ids of what is shown -/

section

variable (data : FormData) (errors : Option ErrorSummary)

/-- A field that chooses from no list has an id for itself and one for each of its inputs. -/
theorem mem_ids_view_single {kind : SingleKind} {d : ComponentDefinition}
    (hfield : (Component.single kind d).IsBuiltinField = true) {id : String} :
    id ∈ (kind.view d data errors).ids ↔ (Component.single kind d).HasId id := by
  cases kind with
  | text variant =>
      rw [SingleKind.view, ComponentView.ids, id_decorate_text]
      simp [baseView, itemIds, viewIds, Component.HasId, Side.own, Side.form, SingleKind.formKeys,
        Keys.names, Component.name, Component.definition]
  | date withTime =>
      have hid : (dateView withTime (baseView d data errors)).id = some d.nameText := by
        cases withTime <;> rfl
      rw [SingleKind.view, ComponentView.ids, hid]
      simp [itemIds, viewIds, Component.HasId, Side.own, Side.form, SingleKind.formKeys,
        Keys.names, Component.name, Component.definition]
  | dateParts withTime =>
      have hparts : viewIds ((datePartsOf withTime).map fun part => part.view d.nameText data errors) =
          (datePartsOf withTime).map fun part => partName d.nameText part.key :=
        viewIds_of_leaves fun part _ => rfl
      have hnames : (Side.form.own (.single (.dateParts withTime) d)).names =
          (datePartsOf withTime).map fun part => partName d.nameText part.key :=
        names_parts _ (nodup_datePartsOf withTime) d.nameText
      rw [SingleKind.view, ComponentView.ids, hparts, Component.HasId, hnames]
      simp [datePartsView, baseView, itemIds, Component.name, Component.definition]
  | address =>
      have hparts : viewIds (addressParts.map fun part => part.view d data errors) =
          addressParts.map fun part => partName d.nameText part.key :=
        viewIds_of_leaves fun part _ => rfl
      have hnames : (Side.form.own (.single .address d)).names =
          addressParts.map fun part => partName d.nameText part.key :=
        names_parts (fun part : AddressPart => part.rule d) nodup_addressParts d.nameText
      rw [SingleKind.view, ComponentView.ids, hparts, Component.HasId, hnames]
      simp [addressView, itemIds, Component.name, Component.definition]
  | content variant => cases hfield
  | plain => cases hfield

/-- A field that chooses has an id for itself and those of what its items reveal. -/
theorem mem_ids_view_choice {variant : ChoiceVariant} {d : ComponentDefinition}
    {list : ListDefinition} {reveals : List (Nat × Json × List Component)}
    (hindexed : (Component.choice variant d list reveals).RevealsByIndex) {id : String} :
    id ∈ ((Component.choice variant d list reveals).view data errors).ids ↔
      id = d.nameText ∨
        ∃ entry ∈ reveals, id ∈ viewIds (componentViews data errors entry.2.2) := by
  have hown : (baseView d data errors).id = some d.nameText := rfl
  rw [Component.view, ComponentView.ids, id_decorate_choice, hown, itemIds_items,
    itemIds_eq_flatMap, flatMap_choiceItems hindexed _ rfl]
  simp [viewIds, List.mem_flatMap]

mutual

theorem Component.mem_ids_view_iff : ∀ (c : Component) (id : String),
    (∀ q ∈ c.questions, q.field.IsBuiltinField = true ∧ q.field.RevealsByIndex) →
    (id ∈ (c.view data errors).ids ↔ ∃ q ∈ c.questions, q.field.HasId id)
  | .single kind d, id, hfields => by
    cases kind with
    | content variant =>
        have hid : (variant.view d).id = none := by cases variant <;> rfl
        rw [Component.view, SingleKind.view, ComponentView.ids, hid]
        exact iff_of_false nofun nofun
    | _ =>
        rw [Component.view, mem_ids_view_single data errors (hfields _ (List.mem_cons_self ..)).1]
        simp only [Component.questions, List.mem_singleton, exists_eq_left]
  | .choice variant d list reveals, id, hfields => by
    have hinside := mem_viewIds_revealed_iff reveals id fun q hq =>
      hfields q (List.mem_cons_of_mem _ hq)
    rw [mem_ids_view_choice data errors (hfields _ (List.mem_cons_self ..)).2, hinside,
      Component.questions, List.exists_mem_cons_iff]
    refine or_congr_left ?_
    simp [Component.HasId, Side.own, Keys.names, Component.name, Component.definition]

/-- The ids of what a group of components shows are those of its fields and of their inputs. -/
theorem mem_viewIds_componentViews_iff : ∀ (components : List Component) (id : String),
    (∀ q ∈ questions components, q.field.IsBuiltinField = true ∧ q.field.RevealsByIndex) →
    (id ∈ viewIds (componentViews data errors components) ↔
      ∃ q ∈ questions components, q.field.HasId id)
  | [], _, _ => iff_of_false nofun nofun
  | c :: rest, id, hfields => by
    rw [componentViews, viewIds, List.mem_append,
      c.mem_ids_view_iff id fun q hq => hfields q (List.mem_append_left _ hq),
      mem_viewIds_componentViews_iff rest id fun q hq => hfields q (List.mem_append_right _ hq)]
    simp only [questions, List.mem_append, or_and_right, exists_or]

theorem mem_viewIds_revealed_iff : ∀ (reveals : List (Nat × Json × List Component)) (id : String)
    {chooser : String} {type : ListType},
    (∀ q ∈ revealedQuestions chooser type reveals,
      q.field.IsBuiltinField = true ∧ q.field.RevealsByIndex) →
    ((∃ entry ∈ reveals, id ∈ viewIds (componentViews data errors entry.2.2)) ↔
      ∃ q ∈ revealedQuestions chooser type reveals, q.field.HasId id)
  | [], _, _, _, _ => iff_of_false nofun nofun
  | (i, item, components) :: rest, id, chooser, type, hfields => by
    have hfirst := mem_viewIds_componentViews_iff components id fun q hq =>
      hfields (q.within ⟨chooser, type, item⟩) (List.mem_append_left _ (List.mem_map_of_mem hq))
    have hrest := mem_viewIds_revealed_iff rest id fun q hq =>
      hfields q (List.mem_append_right _ hq)
    rw [List.exists_mem_cons_iff, hfirst, hrest]
    simp only [revealedQuestions, List.mem_append, List.mem_map, or_and_right, exists_or,
      exists_exists_and_eq_and, Question.field_within]

end

end

end Questionnaire
