import Questionnaire.Json.Basic

/-!
# Members of objects

The laws of looking up, setting and extending. Setting changes one member (`get?_insert`), an
extension puts the added members in front (`get?_extend`), both keep the order of the keys
(`Ordered.insert`, `Ordered.extend`), and two objects in order are equal as soon as they have the
same members (`Ordered.ext`).
-/

namespace Questionnaire.Fields

/-! ## Looking up -/

@[simp] theorem get?_nil (key : String) : get? [] key = none := rfl

theorem get?_cons (k key : String) (value : Json) (rest : Fields) :
    get? ((k, value) :: rest) key = if k = key then some value else get? rest key := by
  by_cases h : k = key <;> simp [get?, h]

theorem get?_insert (fields : Fields) (key k : String) (value : Json) :
    (fields.insert key value).get? k = if key = k then some value else fields.get? k := by
  induction fields with
  | nil => simp [insert, get?_cons]
  | cons member rest ih =>
    obtain ⟨other, old⟩ := member
    unfold insert
    by_cases heq : key = other
    · subst heq
      by_cases h : key = k <;> simp [get?_cons, h]
    · by_cases hlt : key < other
      · rw [if_neg heq, if_pos hlt, get?_cons]
      · rw [if_neg heq, if_neg hlt, get?_cons, get?_cons, ih]
        by_cases h : other = k
        · subst h
          simp [heq]
        · simp [h]

theorem mem_of_get? {fields : Fields} {key : String} {value : Json}
    (h : fields.get? key = some value) : (key, value) ∈ fields := by
  induction fields with
  | nil => simp at h
  | cons member rest ih =>
    obtain ⟨k, v⟩ := member
    rw [get?_cons] at h
    by_cases hk : k = key
    · simp only [hk, if_true, Option.some.injEq] at h
      simp [hk, h]
    · rw [if_neg hk] at h
      exact List.mem_cons_of_mem _ (ih h)

theorem get?_eq_none {fields : Fields} {key : String} (h : ∀ member ∈ fields, member.1 ≠ key) :
    fields.get? key = none := by
  induction fields with
  | nil => rfl
  | cons member rest ih =>
    obtain ⟨k, v⟩ := member
    rw [get?_cons, if_neg (h (k, v) (List.mem_cons_self ..))]
    exact ih fun member hmem => h member (List.mem_cons_of_mem _ hmem)

theorem mem_insert {fields : Fields} {key : String} {value : Json} {member : String × Json}
    (h : member ∈ fields.insert key value) : member = (key, value) ∨ member ∈ fields := by
  induction fields with
  | nil => exact Or.inl (List.mem_singleton.mp h)
  | cons other rest ih =>
    obtain ⟨k, v⟩ := other
    unfold insert at h
    split at h
    · rcases List.mem_cons.mp h with h | h
      · exact Or.inl h
      · exact Or.inr (List.mem_cons_of_mem _ h)
    · split at h
      · exact List.mem_cons.mp h
      · rcases List.mem_cons.mp h with h | h
        · exact Or.inr (h ▸ List.mem_cons_self ..)
        · rcases ih h with h | h
          · exact Or.inl h
          · exact Or.inr (List.mem_cons_of_mem _ h)

/-! ## Order -/

@[simp] theorem Ordered.nil : Ordered [] := List.Pairwise.nil

theorem Ordered.insert {fields : Fields} (h : fields.Ordered) (key : String) (value : Json) :
    (fields.insert key value).Ordered := by
  induction fields with
  | nil => exact List.pairwise_singleton _ _
  | cons member rest ih =>
    obtain ⟨k, v⟩ := member
    obtain ⟨hhead, htail⟩ := List.pairwise_cons.mp h
    unfold Fields.insert
    by_cases heq : key = k
    · subst heq
      rw [if_pos rfl]
      exact List.pairwise_cons.mpr ⟨hhead, htail⟩
    · by_cases hlt : key < k
      · rw [if_neg heq, if_pos hlt]
        refine List.pairwise_cons.mpr ⟨?_, h⟩
        intro other hother
        rcases List.mem_cons.mp hother with rfl | hrest
        · exact hlt
        · exact String.lt_trans hlt (hhead other hrest)
      · rw [if_neg heq, if_neg hlt]
        refine List.pairwise_cons.mpr ⟨?_, ih htail⟩
        intro other hother
        rcases mem_insert hother with rfl | hrest
        · exact Std.lt_of_le_of_ne (String.not_lt.mp hlt) (Ne.symm heq)
        · exact hhead other hrest

theorem Ordered.extend {fields : Fields} (h : fields.Ordered) (added : Fields) :
    (fields.extend added).Ordered := by
  induction added generalizing fields with
  | nil => exact h
  | cons member rest ih => exact ih (h.insert member.1 member.2)

theorem ordered_ofList (members : List (String × Json)) : (ofList members).Ordered :=
  Ordered.nil.extend members

/-- A key that is less than all others is not among them. -/
theorem Ordered.get?_tail {k : String} {v : Json} {rest : Fields}
    (h : Ordered ((k, v) :: rest)) : rest.get? k = none := by
  obtain ⟨hhead, -⟩ := List.pairwise_cons.mp h
  refine get?_eq_none fun member hmem heq => ?_
  have hlt := hhead member hmem
  rw [heq] at hlt
  exact String.lt_irrefl k hlt

theorem Ordered.get?_of_mem {fields : Fields} (h : fields.Ordered) {member : String × Json}
    (hmember : member ∈ fields) : fields.get? member.1 = some member.2 := by
  induction fields with
  | nil => exact nomatch hmember
  | cons first rest ih =>
    obtain ⟨hfirst, hrest⟩ := List.pairwise_cons.mp h
    rw [show first :: rest = (first.1, first.2) :: rest from rfl, get?_cons]
    rcases List.mem_cons.mp hmember with rfl | hmember
    · rw [if_pos rfl]
    · rw [if_neg (String.ne_of_lt (hfirst member hmember)), ih hrest hmember]

theorem Ordered.ext {left right : Fields} (hleft : left.Ordered) (hright : right.Ordered)
    (h : ∀ key, left.get? key = right.get? key) : left = right := by
  induction left generalizing right with
  | nil =>
    cases right with
    | nil => rfl
    | cons member rest =>
      obtain ⟨k, v⟩ := member
      simpa [get?_cons] using h k
  | cons member rest ih =>
    obtain ⟨k, v⟩ := member
    cases right with
    | nil => simpa [get?_cons] using h k
    | cons other rest' =>
      obtain ⟨l, w⟩ := other
      have hkeys : k = l := by
        by_cases hne : k = l
        · exact hne
        have hk : get? rest' k = some v := by
          simpa [get?_cons, hne, Ne.symm hne] using (h k).symm
        have hl : get? rest l = some w := by
          simpa [get?_cons, hne, Ne.symm hne] using h l
        have hlk := (List.pairwise_cons.mp hright).1 _ (mem_of_get? hk)
        have hkl := (List.pairwise_cons.mp hleft).1 _ (mem_of_get? hl)
        exact absurd hkl (String.lt_asymm hlk)
      subst hkeys
      have hvalues : v = w := by simpa [get?_cons] using h k
      subst hvalues
      rw [ih (List.pairwise_cons.mp hleft).2 (List.pairwise_cons.mp hright).2]
      intro key
      by_cases hkey : k = key
      · subst hkey
        rw [hleft.get?_tail, hright.get?_tail]
      · simpa [get?_cons, hkey] using h key

/-! ## Extending -/

/-- Of several added members with one key the last counts. -/
theorem get?_extend_ofList (fields added : Fields) (key : String) :
    (fields.extend added).get? key = ((ofList added).get? key).or (fields.get? key) := by
  induction added generalizing fields with
  | nil => rfl
  | cons member rest ih =>
    obtain ⟨k, v⟩ := member
    show (Fields.extend (fields.insert k v) rest).get? key =
      ((Fields.extend (Fields.insert k v []) rest).get? key).or _
    rw [ih, ih (Fields.insert k v []), get?_insert, get?_insert, Option.or_assoc]
    by_cases hkey : k = key <;> simp [hkey]

theorem get?_ofList_cons (k key : String) (value : Json) (rest : Fields) :
    (ofList ((k, value) :: rest)).get? key =
      ((ofList rest).get? key).or (if k = key then some value else none) :=
  (get?_extend_ofList (Fields.insert k value []) rest key).trans (by rw [get?_insert, get?_nil])

theorem mem_of_mem_extend {added : Fields} : ∀ {fields : Fields} {member : String × Json},
    member ∈ fields.extend added → member ∈ added ∨ member ∈ fields := by
  induction added with
  | nil => exact fun h => Or.inr h
  | cons first rest ih =>
    intro fields member h
    rcases ih h with h | h
    · exact Or.inl (List.mem_cons_of_mem _ h)
    · rcases mem_insert h with rfl | h
      · exact Or.inl (List.mem_cons_self ..)
      · exact Or.inr h

theorem mem_of_get?_ofList {members : List (String × Json)} {key : String} {value : Json}
    (h : (ofList members).get? key = some value) : (key, value) ∈ members :=
  (mem_of_mem_extend (mem_of_get? h)).resolve_right List.not_mem_nil

/-- Members that are let go by their keys leave those of other keys as they were. -/
theorem get?_ofList_filter (keep : String → Bool) (members : Fields) (key : String) :
    (ofList (members.filter fun member => keep member.1)).get? key =
      if keep key then (ofList members).get? key else none := by
  induction members with
  | nil => simp [ofList, extend]
  | cons member rest ih =>
    obtain ⟨k, v⟩ := member
    rw [List.filter_cons, get?_ofList_cons]
    dsimp only
    split
    · next hkeep =>
      rw [get?_ofList_cons, ih]
      by_cases hkey : k = key
      · simp [← hkey, hkeep]
      · simp [hkey]
    · next hkeep =>
      rw [ih]
      by_cases hkey : k = key
      · simp [← hkey, hkeep]
      · simp [hkey]

theorem get?_extend {added : Fields} (h : added.Ordered) (fields : Fields) (key : String) :
    (fields.extend added).get? key = (added.get? key).or (fields.get? key) := by
  induction added generalizing fields with
  | nil => rfl
  | cons member rest ih =>
    obtain ⟨k, v⟩ := member
    show (Fields.extend (fields.insert k v) rest).get? key = _
    rw [ih (List.pairwise_cons.mp h).2, get?_insert, get?_cons]
    by_cases hkey : k = key
    · subst hkey
      simp [h.get?_tail]
    · simp [hkey]

theorem Ordered.ofList_eq {fields : Fields} (h : fields.Ordered) : ofList fields = fields := by
  refine (ordered_ofList fields).ext h fun key => ?_
  rw [ofList, get?_extend h, get?_nil, Option.or_none]

end Questionnaire.Fields
