import Questionnaire.Proofs.Rule.Taking

/-!
# Validating again

Whether what a rule converts is accepted again and stays as it is (`validate_again`). Leaves, objects
and arrays pass this on from what they are made of. Two kinds of rules look at more than the value
itself, and they may decide otherwise once it is converted: a choice, whose sibling has been
converted too (`TurnsOver`), and alternatives, of which an earlier one may take the converted value
although it refused the value as given (`Overtakes`). Of alternatives the first that passes wins, so
the second validation may well convert further (`exists_validate_again_ne`).
-/

namespace Questionnaire.Rule

/-- Rules as they are built: no object has two rules for one key. -/
inductive Keyed : Rule → Prop
  | leaf {kind : Leaf} {a : Attributes} : Keyed (.leaf kind a)
  | object {keys : List (String × Rule)} {unknown : Bool} {a : Attributes}
      (hnodup : (Keys.names keys).Nodup) (h : ∀ entry ∈ keys, Keyed entry.2) :
      Keyed (.object keys unknown a)
  | array {item : Rule} {a : Attributes} (h : Keyed item) : Keyed (.array item a)
  | alternatives {rules : List Rule} {a : Attributes} (h : ∀ rule ∈ rules, Keyed rule) :
      Keyed (.alternatives rules a)
  | choose {sibling : String} {is : Json} {revealed hidden : Rule} {a : Attributes}
      (hrevealed : Keyed revealed) (hhidden : Keyed hidden) :
      Keyed (.choose sibling is revealed hidden a)

namespace Keyed

variable {rule : Rule}

theorem mapAttributes (h : rule.Keyed) (f : Attributes → Attributes) :
    (rule.mapAttributes f).Keyed := by
  cases h with
  | leaf => exact .leaf
  | object hnodup h => exact .object hnodup h
  | array h => exact .array h
  | alternatives h => exact .alternatives h
  | choose hrevealed hhidden => exact .choose hrevealed hhidden

theorem mapText (h : rule.Keyed) (f : TextConstraints → TextConstraints) :
    (rule.mapText f).Keyed := by
  unfold Rule.mapText
  split
  · exact .leaf
  · exact h

theorem mapNumber (h : rule.Keyed) (f : NumberConstraints → NumberConstraints) :
    (rule.mapNumber f).Keyed := by
  unfold Rule.mapNumber
  split
  · exact .leaf
  · exact h

theorem ofKeys {entries : Keys} (h : ∀ entry ∈ entries, entry.2.Keyed) :
    (ofKeys (Keys.ofList entries)).Keyed :=
  .object (Keys.nodup_names_ofList entries) fun entry hentry => h entry (Keys.mem_ofList hentry)

theorem append (h : rule.Keyed) (key : String) {member : Rule} (hmember : member.Keyed) :
    (rule.append key member).Keyed := by
  cases h with
  | object hnodup h =>
      refine .object (Keys.nodup_names_insert hnodup key member) fun entry hentry => ?_
      rcases Keys.mem_insert hentry with rfl | hentry
      · exact hmember
      · exact h entry hentry
  | leaf => exact .leaf
  | array h => exact .array h
  | alternatives h => exact .alternatives h
  | choose hrevealed hhidden => exact .choose hrevealed hhidden

theorem concat (h : rule.Keyed) {other : Rule} (hother : other.Keyed) :
    (rule.concat other).Keyed := by
  unfold Rule.concat
  split
  · cases h with
    | object hnodup h =>
    cases hother with
    | object _ hother =>
    refine .object (Keys.nodup_names_extend hnodup _) fun entry hentry => ?_
    rcases Keys.mem_extend hentry with hentry | hentry
    · exact hother entry hentry
    · exact h entry hentry
  · exact h

end Keyed

/-- What may hold of a rule, the siblings that a value has as they are given and as they are
converted, and the value, or its absence, as it is given and as it is converted. -/
abbrev Passage :=
  Rule → Option Fields → Option Fields → Option Json → Option Json → Prop

/-- The siblings pick one branch of a choice as they are given and the other one as they are
converted. -/
inductive TurnsOver : Passage
  | choose {sibling : String} {is : Json} {revealed hidden : Rule} {a : Attributes}
      {siblings siblings' : Option Fields} {value converted : Option Json}
      (h : picks siblings sibling is ≠ picks siblings' sibling is) :
      TurnsOver (.choose sibling is revealed hidden a) siblings siblings' value converted

/-- An earlier alternative, which refuses a value, takes what a later one converts it to and converts
that to something else. -/
inductive Overtakes (options : ValidationOptions) : Passage
  | alternatives {rules earlier later after : List Rule} {other rule : Rule} {a : Attributes}
      {siblings siblings' : Option Fields} {value converted different : Json}
      (hallows : a.allows converted = false)
      (hrules : rules = earlier ++ other :: later ++ rule :: after)
      (hfirst : TakesFirst options siblings (earlier ++ other :: later) rule value converted)
      (hother : TakesFirst options siblings' earlier other converted different)
      (hne : different ≠ converted) :
      Overtakes options (.alternatives rules a) siblings siblings' (some value) (some converted)

/-- Checking a value comes to a passage, at the rule itself or at one inside it. What is accepted as
it is once converted is not looked into, nor is the rule that takes a value first if an earlier one
takes the converted value. -/
inductive Meets (options : ValidationOptions) (passage : Passage) : Passage
  | here {rule : Rule} {siblings siblings' : Option Fields} {value converted : Option Json}
      (h : passage rule siblings siblings' value converted) :
      Meets options passage rule siblings siblings' value converted
  | branch {sibling : String} {is : Json} {revealed hidden : Rule} {a : Attributes}
      {siblings siblings' : Option Fields} {value converted : Option Json}
      (h : Meets options passage (if picks siblings sibling is then revealed else hidden) siblings
        siblings' value converted) :
      Meets options passage (.choose sibling is revealed hidden a) siblings siblings' value converted
  | item {item : Rule} {a : Attributes} {siblings siblings' : Option Fields}
      {items items' : List Json} {index : Nat} {x y : Json}
      (hallows : a.allows (.arr items') = false)
      (hx : items[index]? = some x) (hy : items'[index]? = some y)
      (h : Meets options passage item none none (some x) (some y)) :
      Meets options passage (.array item a) siblings siblings' (some (.arr items))
        (some (.arr items'))
  | member {keys : List (String × Rule)} {unknown : Bool} {a : Attributes}
      {siblings siblings' : Option Fields} {fields fields' : Fields} {entry : String × Rule}
      (hallows : a.allows (.obj fields') = false) (hentry : entry ∈ keys)
      (h : Meets options passage entry.2 (some fields) (some fields') (fields.get? entry.1)
        (fields'.get? entry.1)) :
      Meets options passage (.object keys unknown a) siblings siblings' (some (.obj fields))
        (some (.obj fields'))
  | alternative {rules before after : List Rule} {rule : Rule} {a : Attributes}
      {siblings siblings' : Option Fields} {value converted : Json}
      (hallows : a.allows converted = false) (hrules : rules = before ++ rule :: after)
      (hfirst : TakesFirst options siblings before rule value converted)
      (hrefused : ∀ other ∈ before, other.Refuses options siblings' converted)
      (h : Meets options passage rule siblings siblings' (some value) (some converted)) :
      Meets options passage (.alternatives rules a) siblings siblings' (some value)
        (some converted)

section

variable {options : ValidationOptions} {siblings siblings' : Option Fields}

/-! ## What is kept -/

/-- An unknown member of the converted object was an unknown member of the given one. -/
theorem TakesMembers.refused_converted {keys : Keys} {allowed : Bool} {fields fields' : Fields}
    (h : TakesMembers options keys allowed fields fields') :
    allowed = true ∨ ∀ member ∈ fields', keys.has member.1 = true := by
  refine h.refused.imp_right fun hrefused member hmember => ?_
  by_contra hkey
  have hget := h.unknown member.1 (by simpa using hkey)
  rw [h.ordered.get?_of_mem hmember, eq_comm] at hget
  exact hkey (hrefused _ (Fields.mem_of_get?_ofList hget))

theorem TakesMembers.again {keys : Keys} {allowed : Bool} {fields fields' : Fields}
    (h : TakesMembers options keys allowed fields fields')
    (hagain : ∀ entry ∈ keys,
      entry.2.Takes options (some fields') (fields'.get? entry.1) (fields'.get? entry.1)) :
    TakesMembers options keys allowed fields' fields' :=
  ⟨h.ordered, hagain, fun key _ => by rw [h.ordered.ofList_eq], h.refused_converted⟩

/-- Of rules that do not all refuse a value, one takes it first. -/
theorem exists_takesFirst {rules : List Rule} {value : Json}
    (h : ¬ ∀ rule ∈ rules, rule.Refuses options siblings value) :
    ∃ before rule after converted, rules = before ++ rule :: after ∧
      TakesFirst options siblings before rule value converted := by
  induction rules with
  | nil => exact absurd nofun h
  | cons first rest ih =>
      by_cases hfirst : first.Refuses options siblings value
      · obtain ⟨before, rule, after, converted, rfl, hbefore, htakes⟩ :=
          ih fun hrest => h (List.forall_mem_cons.mpr ⟨hfirst, hrest⟩)
        exact ⟨first :: before, rule, after, converted, rfl,
          List.forall_mem_cons.mpr ⟨hfirst, hbefore⟩, htakes⟩
      · obtain ⟨converted, htakes⟩ := not_forall_not.mp hfirst
        exact ⟨[], first, rest, converted, rfl, nofun, htakes⟩

theorem eachItem_again {takes : Json → Json → Prop} {items items' : List Json}
    (h : List.Forall₂ takes items items')
    (hagain : ∀ (index : Nat) (x y : Json), items[index]? = some x → items'[index]? = some y →
      takes x y → takes y y) : EachItem takes (.arr items') (.arr items') := by
  refine .items (List.forall₂_same.mpr fun y hy => ?_)
  obtain ⟨index, hindex, rfl⟩ := List.mem_iff_getElem.mp hy
  have hindex' : index < items.length := h.length_eq ▸ hindex
  exact hagain index items[index] items'[index] (List.getElem?_eq_getElem hindex')
    (List.getElem?_eq_getElem hindex) (h.get hindex' hindex)

/-- What a rule converts it takes as it is, beside the converted siblings, unless the check comes to
a choice that is turned over or to an alternative that overtakes. -/
theorem Takes.again {rule : Rule} (hkeyed : rule.Keyed) {value converted : Option Json}
    (h : rule.Takes options siblings value converted)
    (hturns : ¬ Meets options TurnsOver rule siblings siblings' value converted)
    (hovertakes : ¬ Meets options (Overtakes options) rule siblings siblings' value converted) :
    rule.Takes options siblings' converted converted := by
  induction rule using Rule.induction generalizing siblings siblings' value converted with
  | leaf kind a => exact check_leaf_again h options rootName siblings'
  | object keys unknown a ih =>
      cases hkeyed with
      | object hnodup hkeyed =>
      rw [takes_object_iff hnodup] at h ⊢
      refine h.again ?_
      rintro v w rfl rfl hallows ⟨fields, fields', rfl, rfl, hmembers⟩
      refine ⟨fields', fields', rfl, rfl, hmembers.again fun entry hentry => ?_⟩
      exact ih entry hentry (hkeyed entry hentry) (hmembers.known entry hentry)
        (fun hmeets => hturns (.member hallows hentry hmeets))
        (fun hmeets => hovertakes (.member hallows hentry hmeets))
  | array item a ih =>
      cases hkeyed with
      | array hkeyed =>
      rw [takes_array_iff] at h ⊢
      refine h.again ?_
      rintro v w rfl rfl hallows ⟨hitems⟩
      refine eachItem_again hitems fun index x y hx hy htakes => ?_
      exact ih hkeyed htakes (fun hmeets => hturns (.item hallows hx hy hmeets))
        (fun hmeets => hovertakes (.item hallows hx hy hmeets))
  | alternatives rules a ih =>
      cases hkeyed with
      | alternatives hkeyed =>
      rw [takes_alternatives_iff] at h ⊢
      refine h.again ?_
      rintro v w rfl rfl hallows ⟨hne, before, rule, after, rfl, hfirst⟩
      refine ⟨hfirst.takes.ne_null hne, ?_⟩
      -- Either all before `rule` still refuse, and `rule` takes the value again, or one of them takes
      -- the converted value first.
      by_cases hrefused : ∀ other ∈ before, other.Refuses options siblings' w
      · have hmem : rule ∈ before ++ rule :: after := by simp
        refine ⟨before, rule, after, rfl, hrefused, ?_⟩
        exact ih rule hmem (hkeyed rule hmem) hfirst.takes
          (fun hmeets => hturns (.alternative hallows rfl hfirst hrefused hmeets))
          (fun hmeets => hovertakes (.alternative hallows rfl hfirst hrefused hmeets))
      · obtain ⟨earlier, other, later, different, rfl, hother⟩ := exists_takesFirst hrefused
        -- The one that takes the converted value first must leave it alone.
        obtain rfl : different = w := by
          by_contra hne
          exact hovertakes (.here (.alternatives hallows rfl hfirst hother hne))
        exact ⟨earlier, other, later ++ rule :: after, by simp, hother⟩
  | choose sibling is revealed hidden a ihr ihh =>
      cases hkeyed with
      | choose hrevealed hhidden =>
      rw [takes_choose_iff] at h ⊢
      -- The same branch is picked again, for the choice is not turned over.
      have hsame : picks siblings sibling is = picks siblings' sibling is := by
        by_contra hne
        exact hturns (.here (.choose hne))
      rw [← hsame]
      have hturns' := fun hmeets => hturns (.branch hmeets)
      have hovertakes' := fun hmeets => hovertakes (.branch hmeets)
      split at h
      · next hpicks =>
        rw [if_pos hpicks] at hturns' hovertakes' ⊢
        exact ihr hrevealed h hturns' hovertakes'
      · next hpicks =>
        rw [if_neg hpicks] at hturns' hovertakes' ⊢
        exact ihh hhidden h hturns' hovertakes'

/-- A value that has been validated and converted is accepted again and stays as it is, unless the
check came to a choice that the conversion of a sibling turns over, or to alternatives of which an
earlier one converts the converted value to something else. -/
theorem validate_again {rule : Rule} (hkeyed : rule.Keyed) {value converted : Json}
    (h : rule.validate options value = .ok converted)
    (hturns : ¬ Meets options TurnsOver rule none none (some value) (some converted))
    (hovertakes :
      ¬ Meets options (Overtakes options) rule none none (some value) (some converted)) :
    rule.validate options converted = .ok converted :=
  validate_eq_ok_iff.mpr ((validate_eq_ok_iff.mp h).again hkeyed hturns hovertakes)

end

/-- An answer or a remark. -/
def noteRule : Rule := oneOf [boolean, text]

/-- A reason that must be given where there is no consent. -/
def reasonRule : Rule := chosenBy "consent" (.bool false) text.required any

def visitRule : Rule :=
  ofKeys [("consent", boolean), ("note", noteRule), ("reason", reasonRule)]

def visitGiven : Fields :=
  [("consent", .str "false"), ("note", .str " late "), ("reason", .str "ill ")]

def visitConverted : Fields :=
  [("consent", .bool false), ("note", .str "late"), ("reason", .str "ill")]

theorem meets_visitRule {passage : Passage}
    (hobject : ∀ {keys unknown a s s' v w}, ¬ passage (.object keys unknown a) s s' v w)
    (hleaf : ∀ {kind a s s' v w}, ¬ passage (.leaf kind a) s s' v w)
    (h : Meets {} passage visitRule none none (some (.obj visitGiven))
      (some (.obj visitConverted))) :
    passage noteRule (some visitGiven) (some visitConverted) (some (.str " late "))
        (some (.str "late")) ∨
      passage reasonRule (some visitGiven) (some visitConverted) (some (.str "ill "))
        (some (.str "ill")) := by
  cases h with
  | here h => exact absurd h hobject
  | @member _ _ _ _ _ _ _ entry _ hentry h =>
      have hentry : entry = ("consent", boolean) ∨ entry = ("note", noteRule) ∨
          entry = ("reason", reasonRule) := by simpa using hentry
      rcases hentry with rfl | rfl | rfl
      · cases h with
        | here h => exact absurd h hleaf
      · cases h with
        | here h => exact .inl h
        | @alternative _ before after rule _ _ _ _ _ _ hrules _ _ h =>
            have hmem : rule ∈ [boolean, text] := by
              rw [hrules]
              simp
            have hrule : rule = boolean ∨ rule = text := by simpa using hmem
            rcases hrule with rfl | rfl
            · cases h with
              | here h => exact absurd h hleaf
            · cases h with
              | here h => exact absurd h hleaf
      · cases h with
        | here h => exact .inr h
        | branch h =>
            cases h with
            | here h => exact absurd h hleaf

/-- Converting the consent to a truth value does not turn the choice over, and a remark without its
blanks is still no truth value. -/
theorem validate_again_visit :
    visitRule.validate {} (.obj visitConverted) = .ok (.obj visitConverted) := by
  have hkeyed : visitRule.Keyed := by
    refine .object (by decide) ?_
    simp only [List.forall_mem_cons]
    refine ⟨.leaf, .alternatives ?_, .choose .leaf .leaf, nofun⟩
    simp only [List.forall_mem_cons]
    exact ⟨.leaf, .leaf, nofun⟩
  have h : visitRule.validate {} (.obj visitGiven) = .ok (.obj visitConverted) := by
    decide +kernel
  refine validate_again hkeyed h ?_ ?_
  · intro hmeets
    rcases meets_visitRule nofun nofun hmeets with hturns | hturns
    · cases hturns
    · cases hturns with
      | choose hne => exact hne (by decide +kernel)
  · intro hmeets
    rcases meets_visitRule nofun nofun hmeets with hovertakes | hovertakes
    · cases hovertakes with
      | @alternatives _ earlier later after other _ _ _ _ _ _ _ _ hrules _ hother _ =>
          obtain rfl : other = boolean := by
            cases earlier with
            | nil => exact (List.cons.inj hrules).1.symm
            | cons first earlier =>
                have hlength := congrArg List.length hrules
                simp at hlength
                omega
          have hrefuses : boolean.Refuses {} (some visitConverted) (.str "late") :=
            (refuses_iff rootName).mpr (by decide +kernel)
          exact hrefuses _ hother.takes
    · cases hovertakes

/-- A member by the name, or a guest. -/
def memberOrGuest : Rule :=
  oneOf [ofKeys [("member", boolean), ("name", (text.trimming false).among [.str "Ann"])],
    ofKeys [("member", text), ("name", text)]]

/-- The second alternative drops a blank, and then the first one overtakes it. -/
theorem exists_validate_again_ne :
    memberOrGuest.Keyed ∧ ∃ value converted different,
      memberOrGuest.validate {} value = .ok converted ∧
        memberOrGuest.validate {} converted = .ok different ∧ different ≠ converted := by
  have hkeyed : memberOrGuest.Keyed := by
    refine .alternatives ?_
    simp only [List.forall_mem_cons]
    refine ⟨.object (by decide) ?_, .object (by decide) ?_, nofun⟩
    · simp only [List.forall_mem_cons]
      exact ⟨.leaf, .leaf, nofun⟩
    · simp only [List.forall_mem_cons]
      exact ⟨.leaf, .leaf, nofun⟩
  refine ⟨hkeyed, .obj [("member", .str "true"), ("name", .str "Ann ")],
    .obj [("member", .str "true"), ("name", .str "Ann")],
    .obj [("member", .bool true), ("name", .str "Ann")], ?_, ?_, ?_⟩
  · decide +kernel
  · decide +kernel
  · decide

end Questionnaire.Rule
