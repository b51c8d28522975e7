import Mathlib.Data.List.Nodup
import Questionnaire.Rule.Keys

/-!
# Rules by key built from entries

Keys are built by setting one entry after another, so of the entries for a key the last counts
(`get?_extend`). Where keys are distinct, having an entry and looking it up are the same
(`mem_of_get?`, `get?_of_mem`).
-/

namespace Questionnaire.Keys

/-- The rule of the last entry for a key. -/
def last? (entries : Keys) (key : String) : Option Rule :=
  get? entries.reverse key

theorem get?_append (keys more : Keys) (key : String) :
    get? (keys ++ more) key = (get? keys key).or (get? more key) := by
  induction keys with
  | nil => rfl
  | cons entry rest ih =>
      obtain ⟨k, rule⟩ := entry
      rw [List.cons_append, get?_cons, get?_cons, ih]
      by_cases h : k = key <;> simp [h]

/-- Rules that are changed alike are looked up as before. -/
theorem get?_map (f : Rule → Rule) (keys : Keys) (key : String) :
    get? (keys.map fun entry => (entry.1, f entry.2)) key = (get? keys key).map f := by
  induction keys with
  | nil => rfl
  | cons entry rest ih =>
      obtain ⟨k, rule⟩ := entry
      rw [List.map_cons, get?_cons, get?_cons, ih]
      by_cases h : k = key <;> simp [h]

theorem last?_append (entries more : Keys) (key : String) :
    last? (entries ++ more) key = (last? more key).or (last? entries key) := by
  rw [last?, List.reverse_append, get?_append]
  rfl

theorem get?_extend (keys added : Keys) (key : String) :
    (keys.extend added).get? key = (last? added key).or (keys.get? key) := by
  induction added generalizing keys with
  | nil => rfl
  | cons entry rest ih =>
      obtain ⟨k, rule⟩ := entry
      show (Keys.extend (keys.insert k rule) rest).get? key = _
      rw [ih, get?_insert, ← List.singleton_append, last?_append, Option.or_assoc]
      congr 1
      by_cases h : k = key <;> simp [last?, get?_cons, h]

theorem get?_eq_none_iff {keys : Keys} {key : String} :
    keys.get? key = none ↔ key ∉ keys.names := by
  rw [← Option.not_isSome_iff_eq_none, isSome_get?, has_iff_mem_names]

theorem mem_of_get? {keys : Keys} {key : String} {rule : Rule} (h : keys.get? key = some rule) :
    (key, rule) ∈ keys := by
  induction keys with
  | nil => exact nomatch h
  | cons entry rest ih =>
      obtain ⟨k, other⟩ := entry
      rw [get?_cons] at h
      by_cases hkey : k = key
      · rw [if_pos hkey] at h
        rw [← hkey, ← Option.some.inj h]
        exact List.mem_cons_self ..
      · rw [if_neg hkey] at h
        exact List.mem_cons_of_mem _ (ih h)

theorem get?_of_mem {keys : Keys} (hkeys : keys.names.Nodup) {key : String} {rule : Rule}
    (h : (key, rule) ∈ keys) : keys.get? key = some rule := by
  induction keys with
  | nil => exact nomatch h
  | cons entry rest ih =>
      obtain ⟨k, other⟩ := entry
      obtain ⟨hhead, hrest⟩ := List.nodup_cons.mp hkeys
      rw [get?_cons]
      rcases List.mem_cons.mp h with heq | h
      · cases heq
        exact if_pos rfl
      · have hne : k ≠ key := by
          rintro rfl
          exact hhead (List.mem_map.mpr ⟨(k, rule), h, rfl⟩)
        rw [if_neg hne]
        exact ih hrest h

theorem last?_of_nodup {keys : Keys} (hkeys : keys.names.Nodup) (key : String) :
    last? keys key = keys.get? key := by
  cases h : keys.get? key with
  | none =>
      rw [get?_eq_none_iff] at h
      exact get?_eq_none_iff.mpr (by simpa [names] using h)
  | some rule =>
      refine get?_of_mem ?_ (List.mem_reverse.mpr (mem_of_get? h))
      rw [names, List.map_reverse]
      exact List.nodup_reverse.mpr hkeys

/-- Of entries for a key that all have one rule, the last has it too. -/
theorem last?_eq_some {entries : Keys} {key : String} {rule : Rule} (h : (key, rule) ∈ entries)
    (hsole : ∀ other, (key, other) ∈ entries → other = rule) :
    last? entries key = some rule := by
  cases hlast : last? entries key with
  | none =>
      rw [last?, get?_eq_none_iff] at hlast
      exact absurd (List.mem_map_of_mem (List.mem_reverse.mpr h)) hlast
  | some other => rw [hsole other (List.mem_reverse.mp (mem_of_get? hlast))]

theorem nodup_names_ofList (entries : Keys) : (ofList entries).names.Nodup :=
  nodup_names_extend (show (names []).Nodup from List.nodup_nil) entries

theorem insert_append {keys : Keys} {key : String} (h : key ∉ keys.names) (rule : Rule)
    (more : Keys) : Keys.insert key rule (keys ++ more) = keys ++ Keys.insert key rule more := by
  induction keys with
  | nil => rfl
  | cons entry rest ih =>
      obtain ⟨k, other⟩ := entry
      have hne : k ≠ key := fun heq => h (heq ▸ List.mem_cons_self ..)
      have hrest : key ∉ names rest := fun hmem => h (List.mem_cons_of_mem _ hmem)
      rw [List.cons_append, insert, if_neg hne, ih hrest]
      rfl

theorem insert_of_not_mem {keys : Keys} {key : String} (h : key ∉ keys.names) (rule : Rule) :
    keys.insert key rule = keys ++ [(key, rule)] := by
  have happend := insert_append h rule []
  rwa [List.append_nil] at happend

/-- Entries for further distinct keys are added at the end. -/
theorem extend_of_nodup {added : Keys} : ∀ {keys : Keys}, (keys.names ++ added.names).Nodup →
    keys.extend added = keys ++ added := by
  induction added with
  | nil => exact fun _ => (List.append_nil _).symm
  | cons entry rest ih =>
      obtain ⟨key, rule⟩ := entry
      intro keys hnodup
      have hnot : key ∉ keys.names := fun hmem =>
        (List.nodup_append.mp hnodup).2.2 key hmem key (List.mem_cons_self ..) rfl
      show Keys.extend (keys.insert key rule) rest = _
      rw [insert_of_not_mem hnot, ih, List.append_assoc]
      · rfl
      · rw [names, List.map_append, List.append_assoc]
        exact hnodup

theorem names_extend_of_nodup {keys added : Keys} (h : (keys.names ++ added.names).Nodup) :
    (keys.extend added).names = keys.names ++ added.names := by
  rw [extend_of_nodup h]
  exact List.map_append

/-- Entries for distinct keys are the rules built from them. -/
theorem ofList_of_nodup {entries : Keys} (h : entries.names.Nodup) : ofList entries = entries :=
  extend_of_nodup h

end Questionnaire.Keys
