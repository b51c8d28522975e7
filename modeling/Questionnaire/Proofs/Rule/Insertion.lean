import Mathlib.Data.List.Induction
import Questionnaire.Proofs.Rule.Entries

/-!
# The order of insertion

Rules by key come about by setting entries and by extending, also inside the object rules that hold
them (`Keys.Made`). Whatever comes about so is what its entries give when they are set one after
another where there is nothing yet (`Keys.Made.eq_ofList`). So each key stands once, where it was
first set, with the rule that was set last (`Keys.records_ofList`), and extending is associative
(`Keys.extend_assoc`). Together that is `Keys.insertion_ordered`.
-/

namespace Questionnaire

namespace Keys

/-! ## Extending -/

/-- Distinct keys that are set where there are others go behind them, unless they are there. -/
theorem names_extend {added : Keys} (hadded : added.names.Nodup) (keys : Keys) :
    (keys.extend added).names = keys.names ++ added.names.filter (· ∉ keys.names) := by
  induction added generalizing keys with
  | nil => exact (List.append_nil _).symm
  | cons entry rest ih =>
      obtain ⟨key, rule⟩ := entry
      obtain ⟨hkey, hrest⟩ := List.nodup_cons.mp hadded
      show (Keys.extend (keys.insert key rule) rest).names =
        keys.names ++ (key :: names rest).filter (· ∉ keys.names)
      rw [ih hrest, names_insert]
      by_cases hmem : key ∈ keys.names
      · rw [if_pos hmem, List.filter_cons_of_neg (by simpa using hmem)]
      · rw [if_neg hmem, List.filter_cons_of_pos (by simpa using hmem), List.append_assoc,
          List.singleton_append]
        -- The key is not set again, so it does not matter that it is there by now.
        refine congrArg (keys.names ++ key :: ·) (List.filter_congr fun other hother => ?_)
        have hne : other ≠ key := fun heq => hkey (heq ▸ hother)
        simp [hne]

/-- Rules by key are equal when they have the same distinct keys in the same order, and the same rule
for each. -/
theorem ext {keys other : Keys} (hkeys : keys.names.Nodup) (hnames : keys.names = other.names)
    (hget : ∀ key, keys.get? key = other.get? key) : keys = other := by
  induction keys generalizing other with
  | nil => exact (List.map_eq_nil_iff.mp hnames.symm).symm
  | cons entry rest ih =>
      obtain ⟨key, rule⟩ := entry
      obtain ⟨⟨key', rule'⟩, rest', rfl, hsame, hrest'⟩ := List.map_eq_cons_iff.mp hnames.symm
      obtain rfl : key = key' := hsame.symm
      obtain ⟨hkey, hrest⟩ := List.nodup_cons.mp hkeys
      obtain rfl : rule = rule' := by simpa [get?_cons] using hget key
      rw [ih hrest hrest'.symm fun later => ?_]
      by_cases heq : key = later
      · subst heq
        rw [get?_eq_none_iff.mpr hkey, get?_eq_none_iff.mpr (by rwa [names, hrest'])]
      · simpa [get?_cons, heq] using hget later

theorem get?_extend_of_nodup {added : Keys} (hadded : added.names.Nodup) (keys : Keys)
    (key : String) : (keys.extend added).get? key = (added.get? key).or (keys.get? key) := by
  rw [get?_extend, last?_of_nodup hadded]

theorem extend_assoc {keys added last : Keys} (hkeys : keys.names.Nodup)
    (hadded : added.names.Nodup) (hlast : last.names.Nodup) :
    (keys.extend added).extend last = keys.extend (added.extend last) := by
  have hboth : (added.extend last).names.Nodup := nodup_names_extend hadded last
  refine ext (nodup_names_extend (nodup_names_extend hkeys added) last) ?_ fun key => ?_
  · rw [names_extend hlast, names_extend hadded, names_extend hboth, names_extend hlast,
      List.filter_append, List.filter_filter, List.append_assoc]
    refine congrArg (fun names => keys.names ++ (_ ++ names)) (List.filter_congr fun key _ => ?_)
    by_cases key ∈ keys.names <;> by_cases key ∈ added.names <;> simp_all
  · rw [get?_extend_of_nodup hlast, get?_extend_of_nodup hadded, get?_extend_of_nodup hboth,
      get?_extend_of_nodup hlast, Option.or_assoc]

/-! ## What is kept of the entries that are set -/

/-- Each key that was set stands once, in the order in which they were first set, with the rule that
was set last. -/
structure Records (history : List (String × Rule)) (keys : Keys) : Prop where
  nodup : keys.names.Nodup
  mem_iff : ∀ key, key ∈ keys.names ↔ key ∈ history.map (·.1)
  ordered : keys.names.Pairwise fun key later =>
    (history.map (·.1)).idxOf key < (history.map (·.1)).idxOf later
  get?_eq : ∀ key, keys.get? key = (history.reverse.find? (·.1 == key)).map (·.2)

theorem ofList_concat (entries : Keys) (entry : String × Rule) :
    ofList (entries ++ [entry]) = (ofList entries).insert entry.1 entry.2 :=
  extend_append [] entries [entry]

theorem get?_ofList (entries : Keys) (key : String) :
    (ofList entries).get? key = last? entries key := by
  rw [ofList, get?_extend, get?_nil, Option.or_none]

theorem mem_names_ofList_iff {entries : Keys} {key : String} :
    key ∈ (ofList entries).names ↔ key ∈ entries.names := by
  rw [← not_iff_not, ← get?_eq_none_iff, get?_ofList, last?, get?_eq_none_iff, names, names,
    List.map_reverse, List.mem_reverse]

theorem pairwise_names_ofList (entries : Keys) :
    (ofList entries).names.Pairwise fun key later =>
      entries.names.idxOf key < entries.names.idxOf later := by
  induction entries using List.reverseRecOn with
  | nil => exact List.Pairwise.nil
  | append_singleton entries entry ih =>
      obtain ⟨key, rule⟩ := entry
      have hnames : names (entries ++ [(key, rule)]) = names entries ++ [key] := List.map_append
      -- One more entry does not change where the keys before it were first set.
      have hbefore : (ofList entries).names.Pairwise fun key' later =>
          (names entries ++ [key]).idxOf key' < (names entries ++ [key]).idxOf later := by
        refine ih.imp_of_mem fun {first later} hfirst hlater h => ?_
        rwa [List.idxOf_append_of_mem (mem_names_ofList_iff.mp hfirst),
          List.idxOf_append_of_mem (mem_names_ofList_iff.mp hlater)]
      rw [ofList_concat, names_insert, hnames]
      split
      · exact hbefore
      · next hnew =>
        refine List.pairwise_append.mpr ⟨hbefore, List.pairwise_singleton _ _, ?_⟩
        intro first hfirst later hlater
        rw [mem_names_ofList_iff] at hnew hfirst
        rw [List.mem_singleton.mp hlater, List.idxOf_append_of_mem hfirst,
          List.idxOf_append_of_notMem hnew]
        exact Nat.lt_of_lt_of_le (List.idxOf_lt_length_of_mem hfirst) (Nat.le_add_right _ _)

theorem records_ofList (entries : Keys) : Records entries (ofList entries) where
  nodup := nodup_names_ofList entries
  mem_iff _ := mem_names_ofList_iff
  ordered := pairwise_names_ofList entries
  get?_eq := get?_ofList entries

/-! ## How rules by key come about -/

/-- Rules by key, and the entries that were set in them one after another. An extension sets the
entries of the second in the first; an object rule has rules by key that can be set and extended with
it. -/
inductive Made : List (String × Rule) → Keys → Prop
  | empty : Made [] []
  | insert {history : List (String × Rule)} {keys : Keys} (key : String) (rule : Rule)
      (h : Made history keys) : Made (history ++ [(key, rule)]) (keys.insert key rule)
  | extend {history more : List (String × Rule)} {keys added : Keys} (h : Made history keys)
      (hadded : Made more added) : Made (history ++ added) (keys.extend added)
  | append {history : List (String × Rule)} {keys result : Keys} {rule : Rule} (key : String)
      (member : Rule) (h : Made history keys) (hkeys : rule.keys? = some keys)
      (hresult : (rule.append key member).keys? = some result) :
      Made (history ++ [(key, member)]) result
  | concat {history more : List (String × Rule)} {keys added result : Keys} {rule other : Rule}
      (h : Made history keys) (hadded : Made more added) (hkeys : rule.keys? = some keys)
      (hother : other.keys? = some added) (hresult : (rule.concat other).keys? = some result) :
      Made (history ++ added) result

end Keys

namespace Rule

theorem eq_object_of_keys? {rule : Rule} {keys : Keys} (h : rule.keys? = some keys) :
    ∃ unknown a, rule = .object keys unknown a := by
  cases rule with
  | object keys' unknown a =>
      obtain rfl := Option.some.inj h
      exact ⟨unknown, a, rfl⟩
  | _ => exact nomatch h

theorem keys?_append {rule : Rule} {keys : Keys} (h : rule.keys? = some keys) (key : String)
    (member : Rule) : (rule.append key member).keys? = some (keys.insert key member) := by
  obtain ⟨unknown, a, rfl⟩ := eq_object_of_keys? h
  rfl

theorem keys?_concat {rule other : Rule} {keys added : Keys} (h : rule.keys? = some keys)
    (hother : other.keys? = some added) :
    (rule.concat other).keys? = some (keys.extend added) := by
  obtain ⟨unknown, a, rfl⟩ := eq_object_of_keys? h
  obtain ⟨unknown', a', rfl⟩ := eq_object_of_keys? hother
  rfl

end Rule

namespace Keys

theorem Made.eq_ofList {history : List (String × Rule)} {keys : Keys} (h : Made history keys) :
    keys = ofList history := by
  induction h with
  | empty => rfl
  | insert key rule _ ih => rw [ofList_concat, ih]
  | extend _ _ ih => rw [ofList, extend_append, ih, ofList]
  | append key member _ hkeys hresult ih =>
      rw [Rule.keys?_append hkeys] at hresult
      rw [ofList_concat, ← ih, Option.some.inj hresult]
  | concat _ _ hkeys hother hresult ih =>
      rw [Rule.keys?_concat hkeys hother] at hresult
      rw [ofList, extend_append, ← Option.some.inj hresult, ih, ofList]

theorem Made.records {history : List (String × Rule)} {keys : Keys} (h : Made history keys) :
    Records history keys := by
  rw [h.eq_ofList]
  exact records_ofList history

/-- Rules by key are a map in the order of insertion, however they came about. Each key stands once,
where it was first set, with the rule that was set last. An extension takes the rule of the second
where both have one, leaves the keys of the first in their places and adds the others behind them,
and is associative; the same goes for the object rules that hold the rules by key. -/
theorem insertion_ordered {history more later : List (String × Rule)} {keys added last : Keys}
    (hkeys : Made history keys) (hadded : Made more added) (hlast : Made later last) :
    Records history keys ∧
    (∀ key, (keys.extend added).get? key = (added.get? key).or (keys.get? key)) ∧
    (keys.extend added).names = keys.names ++ added.names.filter (· ∉ keys.names) ∧
    (keys.extend added).extend last = keys.extend (added.extend last) ∧
    ∀ first second third : Rule, first.keys? = some keys → second.keys? = some added →
      third.keys? = some last →
      (first.concat second).keys? = some (keys.extend added) ∧
        (first.concat second).concat third = first.concat (second.concat third) := by
  have hassoc : (keys.extend added).extend last = keys.extend (added.extend last) :=
    extend_assoc hkeys.records.nodup hadded.records.nodup hlast.records.nodup
  refine ⟨hkeys.records, get?_extend_of_nodup hadded.records.nodup keys,
    names_extend hadded.records.nodup keys, hassoc, ?_⟩
  intro first second third hfirst hsecond hthird
  refine ⟨Rule.keys?_concat hfirst hsecond, ?_⟩
  obtain ⟨unknown, a, rfl⟩ := Rule.eq_object_of_keys? hfirst
  obtain ⟨unknown', a', rfl⟩ := Rule.eq_object_of_keys? hsecond
  obtain ⟨unknown'', a'', rfl⟩ := Rule.eq_object_of_keys? hthird
  exact congrArg (Rule.object · unknown a) hassoc

/-- The name's rule is set twice and keeps its place, and so does the age's when an object rule is
extended by another; the note, which was added to that one, goes to the end. -/
theorem insertion_ordered_contact :
    let contact := ((insert "name" .text []).insert "age" .number).insert "name" .date
    let details := insert "note" .text [("age", .boolean)]
    Made [("name", .text), ("age", .number), ("name", .date)] contact ∧
      Made [("age", .boolean), ("note", .text)] details ∧
      Records [("name", .text), ("age", .number), ("name", .date)] contact ∧
      contact.names = ["name", "age"] ∧ contact.get? "name" = some .date ∧
      (contact.extend details).names = ["name", "age", "note"] ∧
      (contact.extend details).get? "age" = some .boolean ∧
      ((Rule.ofKeys contact).concat (.ofKeys details)).concat (.ofKeys contact) =
        (Rule.ofKeys contact).concat ((Rule.ofKeys details).concat (.ofKeys contact)) := by
  intro contact details
  have hcontact : Made [("name", .text), ("age", .number), ("name", .date)] contact :=
    .insert "name" .date (.insert "age" .number (.insert "name" .text .empty))
  have hdetails : Made [("age", .boolean), ("note", .text)] details :=
    @Made.append _ _ _ (.ofKeys [("age", .boolean)]) "note" .text
      (.insert "age" .boolean .empty) rfl rfl
  obtain ⟨hrecords, hget, hnames, -, hrules⟩ := insertion_ordered hcontact hdetails hcontact
  exact ⟨hcontact, hdetails, hrecords, rfl, hrecords.get?_eq "name", hnames, hget "age",
    (hrules (.ofKeys contact) (.ofKeys details) (.ofKeys contact) rfl rfl rfl).2⟩

end Keys

end Questionnaire
