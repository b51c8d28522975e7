import Questionnaire.Rule.Basic

/-!
# Rules by key

The laws of the rules that an object has for its members. Setting a rule changes that rule alone
(`get?_insert`) and adds its key at the end unless it was there (`names_insert`), so keys stay
distinct (`nodup_names_extend`) and stand in the order in which they were first given.
-/

namespace Questionnaire.Keys

@[simp] theorem get?_nil (key : String) : get? [] key = none := rfl

theorem get?_cons (k key : String) (rule : Rule) (rest : Keys) :
    get? ((k, rule) :: rest) key = if k = key then some rule else get? rest key := by
  by_cases h : k = key <;> simp [get?, h]

theorem get?_insert (keys : Keys) (key k : String) (rule : Rule) :
    (keys.insert key rule).get? k = if key = k then some rule else keys.get? k := by
  induction keys with
  | nil => simp [insert, get?_cons]
  | cons entry rest ih =>
    obtain ⟨other, old⟩ := entry
    unfold insert
    by_cases heq : other = key
    · subst heq
      by_cases h : other = k <;> simp [get?_cons, h]
    · rw [if_neg heq, get?_cons, get?_cons, ih]
      by_cases h : other = k
      · subst h
        simp [Ne.symm heq]
      · simp [h]

theorem names_insert (keys : Keys) (key : String) (rule : Rule) :
    (keys.insert key rule).names =
      if key ∈ keys.names then keys.names else keys.names ++ [key] := by
  induction keys with
  | nil => rfl
  | cons entry rest ih =>
    obtain ⟨other, old⟩ := entry
    unfold insert
    by_cases heq : other = key
    · simp [heq, names]
    · rw [if_neg heq]
      simp only [names, List.map_cons, List.mem_cons, Ne.symm heq, false_or] at ih ⊢
      rw [ih]
      by_cases hmem : key ∈ List.map (·.1) rest <;> simp [hmem]

theorem nodup_names_insert {keys : Keys} (h : keys.names.Nodup) (key : String) (rule : Rule) :
    (keys.insert key rule).names.Nodup := by
  rw [names_insert]
  split
  · exact h
  · next hmem =>
    refine List.nodup_append.mpr ⟨h, by simp, ?_⟩
    intro name hname other hother
    rw [List.mem_singleton.mp hother]
    exact fun heq => hmem (heq ▸ hname)

theorem nodup_names_extend {keys : Keys} (h : keys.names.Nodup) (added : Keys) :
    (keys.extend added).names.Nodup := by
  induction added generalizing keys with
  | nil => exact h
  | cons entry rest ih => exact ih (nodup_names_insert h entry.1 entry.2)

theorem mem_insert {keys : Keys} {key : String} {rule : Rule} {entry : String × Rule}
    (h : entry ∈ keys.insert key rule) : entry = (key, rule) ∨ entry ∈ keys := by
  induction keys with
  | nil => exact Or.inl (List.mem_singleton.mp h)
  | cons first rest ih =>
    obtain ⟨k, r⟩ := first
    rw [insert] at h
    split at h
    · next hkey =>
      rcases List.mem_cons.mp h with rfl | h
      · exact Or.inl (by rw [hkey])
      · exact Or.inr (List.mem_cons_of_mem _ h)
    · rcases List.mem_cons.mp h with rfl | h
      · exact Or.inr (List.mem_cons_self ..)
      · rcases ih h with h | h
        · exact Or.inl h
        · exact Or.inr (List.mem_cons_of_mem _ h)

theorem mem_extend {keys added : Keys} {entry : String × Rule} (h : entry ∈ keys.extend added) :
    entry ∈ added ∨ entry ∈ keys := by
  induction added generalizing keys with
  | nil => exact Or.inr h
  | cons first rest ih =>
    rcases ih h with h | h
    · exact Or.inl (List.mem_cons_of_mem _ h)
    · rcases mem_insert h with rfl | h
      · exact Or.inl (List.mem_cons_self ..)
      · exact Or.inr h

theorem mem_ofList {entries : Keys} {entry : String × Rule} (h : entry ∈ ofList entries) :
    entry ∈ entries :=
  (mem_extend h).resolve_right List.not_mem_nil

theorem has_iff_mem_names {keys : Keys} {key : String} :
    keys.has key = true ↔ key ∈ keys.names := by
  simp [has, names]

theorem isSome_get? (keys : Keys) (key : String) : (keys.get? key).isSome = keys.has key := by
  simp only [get?, has, Option.isSome_map]
  rw [Bool.eq_iff_iff, List.find?_isSome, List.any_eq_true]

@[simp] theorem extend_nil (keys : Keys) : keys.extend [] = keys := rfl

theorem extend_append (keys added more : Keys) :
    keys.extend (added ++ more) = (keys.extend added).extend more := by
  simp [extend]

end Questionnaire.Keys
