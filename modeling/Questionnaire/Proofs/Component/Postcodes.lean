import Questionnaire.Postcode
import Questionnaire.Proofs.Component.Inputs

/-!
# The normal form of a postcode

A postcode is brought into its normal form by capitals, which are a matter of spelling: a few
characters have two or three of them. The rule of an address looks at the text as it is, and takes a
letter for a capital only if the two are one letter in different case. So a ligature, which no
postcode has, may become part of one (`spelledOut`), and the Kelvin sign, which is a capital already
and goes for a `K`, stays. Apart from these two the normal form is what the address field asks for,
in capitals (`Postcode.accepts_iff_normalises`).
-/

namespace Questionnaire

/-! ## Filling places -/

namespace Text

variable {places : List Place} {cs : List Char}

theorem exists_admits_of_fills (h : fills places cs = true) {c : Char} (hc : c ∈ cs) :
    ∃ place ∈ places, place.admits c = true := by
  fun_induction fills places cs with
  | case1 cs =>
      rw [List.isEmpty_iff.mp h] at hc
      cases hc
  | case2 place rest ih => cases hc
  | case3 place rest first cs ih₁ ih₂ =>
      rcases Bool.or_eq_true_iff.mp h with h | h
      · obtain ⟨hfirst, hrest⟩ := Bool.and_eq_true_iff.mp h
        rcases List.mem_cons.mp hc with rfl | hc
        · exact ⟨place, List.mem_cons_self .., hfirst⟩
        · obtain ⟨other, hother, hadmits⟩ := ih₁ hrest hc
          exact ⟨other, List.mem_cons_of_mem _ hother, hadmits⟩
      · obtain ⟨other, hother, hadmits⟩ := ih₂ (Bool.and_eq_true_iff.mp h).2 hc
        exact ⟨other, List.mem_cons_of_mem _ hother, hadmits⟩

/-- Of the characters with some property there are no more than places that admit one. -/
theorem countP_le_of_fills {p : Char → Bool} {admitting : Place → Bool}
    (hp : ∀ place ∈ places, ∀ c, place.admits c = true → p c = true → admitting place = true)
    (h : fills places cs = true) : cs.countP p ≤ places.countP admitting := by
  fun_induction fills places cs with
  | case1 cs => simp [List.isEmpty_iff.mp h]
  | case2 place rest ih => simp
  | case3 place rest c cs ih₁ ih₂ =>
      obtain ⟨hplace, hrest⟩ := List.forall_mem_cons.mp hp
      rw [List.countP_cons (l := rest)]
      rcases Bool.or_eq_true_iff.mp h with h | h
      · obtain ⟨hadmits, hfills⟩ := Bool.and_eq_true_iff.mp h
        have hle := ih₁ hrest hfills
        rw [List.countP_cons]
        by_cases hc : p c = true
        · rw [if_pos hc, if_pos (hplace c hadmits hc)]
          omega
        · rw [if_neg hc]
          omega
      · have hle := ih₂ hrest (Bool.and_eq_true_iff.mp h).2
        omega

/-- Characters that the same places admit fill the same places. -/
theorem fills_flatMap {f : Char → List Char}
    (h : ∀ c ∈ cs, ∃ d, f c = [d] ∧ ∀ place ∈ places, place.admits d = place.admits c) :
    fills places (cs.flatMap f) = fills places cs := by
  fun_induction fills places cs with
  | case1 cs =>
      cases cs with
      | nil => rfl
      | cons c cs =>
          obtain ⟨d, hd, -⟩ := h c (List.mem_cons_self ..)
          simp [hd, fills]
  | case2 place rest ih => rfl
  | case3 place rest c cs ih₁ ih₂ =>
      obtain ⟨⟨d, hd, hadmits⟩, hcs⟩ := List.forall_mem_cons.mp h
      have hrest : ∀ c' ∈ c :: cs, ∃ d, f c' = [d] ∧
          ∀ place ∈ rest, place.admits d = place.admits c' := fun c' hc' =>
        (h c' hc').imp fun d hd => ⟨hd.1, (List.forall_mem_cons.mp hd.2).2⟩
      have hfills := ih₁ fun c' hc' => hrest c' (List.mem_cons_of_mem _ hc')
      have hskips := ih₂ hrest
      rw [List.flatMap_cons, hd] at hskips ⊢
      rw [List.singleton_append] at hskips ⊢
      rw [fills, hfills, hskips, hadmits place (List.mem_cons_self ..)]

end Text

/-! ## Capitals -/

/-- A capital letter A to Z. -/
def Text.isCapital (c : Char) : Bool :=
  'A' ≤ c && c ≤ 'Z'

namespace Postcode

open Text

/-- The characters whose capitals a postcode can have, although no postcode has them. -/
def spelledOut : List Char := ['ı', 'ß', 'ﬀ', 'ﬁ', 'ﬂ', 'ﬃ', 'ﬄ', 'ﬅ', 'ﬆ']

/-- The sign for the unit, which goes for a capital `K`. -/
def kelvinSign : Char := '\u212a'

/-- What holds of each letter a to z holds of all of them. -/
theorem forall_lower {P : Char → Prop} (h : ∀ code ∈ List.range' 97 26, P (Char.ofNat code))
    {c : Char} (hc : 'a' ≤ c ∧ c ≤ 'z') : P c := by
  have hlow : 97 ≤ c.toNat := hc.1
  have hhigh : c.toNat ≤ 122 := hc.2
  have hcode := h c.toNat (List.mem_range'_1.mpr ⟨hlow, by omega⟩)
  rwa [Char.ofNat_toNat] at hcode

/-- What holds of each letter A to Z holds of all of them. -/
theorem forall_capital {P : Char → Prop} (h : ∀ code ∈ List.range' 65 26, P (Char.ofNat code))
    {c : Char} (hc : isCapital c = true) : P c := by
  obtain ⟨hlow, hhigh⟩ := Bool.and_eq_true_iff.mp hc
  have hlow : 65 ≤ c.toNat := of_decide_eq_true hlow
  have hhigh : c.toNat ≤ 90 := of_decide_eq_true hhigh
  have hcode := h c.toNat (List.mem_range'_1.mpr ⟨hlow, by omega⟩)
  rwa [Char.ofNat_toNat] at hcode

theorem isCapital_toUpper {c : Char} (h : 'a' ≤ c ∧ c ≤ 'z') : isCapital c.toUpper = true :=
  forall_lower (P := fun c => isCapital c.toUpper = true) (by decide) h

theorem capitals_of_lower {c : Char} (h : 'a' ≤ c ∧ c ≤ 'z') : capitals c = [c.toUpper] := by
  unfold capitals
  exact if_pos h

theorem capitals_of_isCapital {c : Char} (h : isCapital c = true) : capitals c = [c] :=
  forall_capital (P := fun c => capitals c = [c]) (by decide) h

/-- The capitals of a character are among A to Z, unless it has no others than itself. -/
theorem mem_capitals {c d : Char} (h : d ∈ capitals c) :
    isCapital d = true ∨ d = c ∧ capitals c = [c] := by
  by_cases hlower : 'a' ≤ c ∧ c ≤ 'z'
  · rw [capitals_of_lower hlower, List.mem_singleton] at h
    exact .inl (h ▸ isCapital_toUpper hlower)
  · unfold capitals at h ⊢
    rw [if_neg hlower] at h ⊢
    split at h
    case h_11 => exact .inr ⟨List.mem_singleton.mp h, rfl⟩
    all_goals exact .inl (List.all_eq_true.mp (by decide) d h)

theorem capitals_ne_nil (c : Char) : capitals c ≠ [] := by
  unfold capitals
  split
  · exact nofun
  · split <;> exact nofun

/-- Capitals are their own capitals. -/
theorem capitals_of_mem_capitals {c d : Char} (h : d ∈ capitals c) : capitals d = [d] := by
  rcases mem_capitals h with hcapital | ⟨rfl, hself⟩
  · exact capitals_of_isCapital hcapital
  · exact hself

theorem not_blank_of_mem_capitals {c d : Char} (hc : isBlank c = false) (h : d ∈ capitals c) :
    isBlank d = false := by
  rcases mem_capitals h with hcapital | ⟨rfl, -⟩
  · exact forall_capital (P := fun d => isBlank d = false) (by decide) hcapital
  · exact hc

/-- A character that is not spelled out has one capital, which fills the same places of a postcode. -/
theorem capitals_of_not_mem_spelledOut {c : Char} (h : c ∉ spelledOut) :
    ∃ d, capitals c = [d] ∧ ∀ place ∈ postcodePlaces, place.admits d = place.admits c := by
  by_cases hlower : 'a' ≤ c ∧ c ≤ 'z'
  · refine ⟨_, capitals_of_lower hlower, ?_⟩
    exact forall_lower
      (P := fun c => ∀ place ∈ postcodePlaces, place.admits c.toUpper = place.admits c)
      (by decide) hlower
  · unfold capitals
    rw [if_neg hlower]
    split
    case h_1 => exact ⟨_, rfl, by decide⟩
    case h_11 => exact ⟨_, rfl, fun _ _ => rfl⟩
    all_goals exact absurd (by decide) h

/-- A character that no postcode has. -/
def IsForeign (c : Char) : Prop :=
  ∀ place ∈ postcodePlaces, place.admits c = false

instance (c : Char) : Decidable (IsForeign c) :=
  inferInstanceAs (Decidable (∀ place ∈ postcodePlaces, place.admits c = false))

theorem isForeign_of_mem_spelledOut {c : Char} (h : c ∈ spelledOut) : IsForeign c := by
  have hall : spelledOut.all (fun c => decide (IsForeign c)) = true := by decide
  exact of_decide_eq_true (List.all_eq_true.mp hall c h)

theorem isBlank_of_mem_spelledOut {c : Char} (h : c ∈ spelledOut) : isBlank c = false := by
  have hall : spelledOut.all (fun c => isBlank c = false) = true := by decide
  exact of_decide_eq_true (List.all_eq_true.mp hall c h)

theorem not_accepts_of_isForeign {text : String} {c : Char} (hc : c ∈ text.toList)
    (hforeign : IsForeign c) : Pattern.postcode.accepts text = false := by
  refine Bool.eq_false_iff.mpr fun haccepts => ?_
  obtain ⟨place, hplace, hadmits⟩ := exists_admits_of_fills haccepts hc
  exact Bool.false_ne_true ((hforeign place hplace).symm.trans hadmits)

/-- Of the letters that a postcode can have, only the Kelvin sign is its own capital and none of A
to Z. -/
theorem isCapital_of_capitals_eq {c : Char} (hself : capitals c = [c])
    (h : isFoldedCapital c = true) (hne : c ≠ kelvinSign) : isCapital c = true := by
  simp only [isFoldedCapital, Bool.or_eq_true, decide_eq_true_eq] at h
  rcases h with (h | rfl) | rfl
  · have halpha : (c.isUpper || c.isLower) = true := h
    rcases Bool.or_eq_true_iff.mp halpha with hupper | hlower
    · obtain ⟨hlow, hhigh⟩ := of_decide_eq_true hupper
      exact Bool.and_eq_true_iff.mpr ⟨decide_eq_true hlow, decide_eq_true hhigh⟩
    · have hlower : 'a' ≤ c ∧ c ≤ 'z' := by
        obtain ⟨hlow, hhigh⟩ := Bool.and_eq_true_iff.mp hlower
        exact ⟨of_decide_eq_true hlow, of_decide_eq_true hhigh⟩
      rw [capitals_of_lower hlower] at hself
      rw [← List.singleton_inj.mp hself]
      exact isCapital_toUpper hlower
  · exact absurd hself (by decide)
  · exact absurd rfl hne

/-! ## Normal forms -/

/-- The capitals of a text without blanks at its ends have none there either. -/
theorem trimmed_flatMap_capitals (text : String) :
    trimmed ((trimmed text.toList).flatMap capitals) = (trimmed text.toList).flatMap capitals := by
  have htrimmed := isTrimmed_trim text
  rw [trim] at htrimmed
  obtain ⟨hfirst, hlast⟩ := htrimmed
  rw [String.toList_ofList] at hfirst hlast
  refine trimmed_of_ends ?_ ?_
  · cases hcs : trimmed text.toList with
    | nil =>
        intro d hd
        cases hd
    | cons c rest =>
        intro d hd
        rw [List.flatMap_cons, List.head?_append_of_ne_nil _ (capitals_ne_nil c)] at hd
        exact not_blank_of_mem_capitals (hfirst c (by rw [hcs]; rfl)) (List.mem_of_head? hd)
  · intro d hd
    rcases List.eq_nil_or_concat (trimmed text.toList) with hcs | ⟨front, c, hcs⟩
    · rw [hcs] at hd
      cases hd
    · rw [hcs, List.concat_eq_append] at hd hlast
      rw [List.flatMap_append, List.flatMap_singleton,
        List.getLast?_append_of_ne_nil _ (capitals_ne_nil c)] at hd
      exact not_blank_of_mem_capitals (hlast c (by simp)) (List.mem_of_getLast? hd)

theorem capitalised_capitalised (text : String) :
    capitalised (capitalised text) = capitalised text := by
  unfold capitalised
  rw [String.toList_ofList, trimmed_flatMap_capitals, List.flatMap_assoc]
  have hcapitals (c : Char) : (capitals c).flatMap capitals = capitals c := by
    rw [List.flatMap_congr fun d hd => capitals_of_mem_capitals hd, List.flatMap_singleton']
  simp only [hcapitals]

/-- Where no character is spelled out, the capitals fill the places that the text fills. -/
theorem accepts_capitalised {text : String} (h : ∀ c ∈ trimmed text.toList, c ∉ spelledOut) :
    Pattern.postcode.accepts (capitalised text) = Pattern.postcode.accepts (trim text) := by
  unfold capitalised trim
  rw [Pattern.accepts_postcode, Pattern.accepts_postcode, String.toList_ofList, String.toList_ofList]
  exact fills_flatMap fun c hc => capitals_of_not_mem_spelledOut (h c hc)

theorem not_mem_spelledOut_of_accepts {text : String}
    (h : Pattern.postcode.accepts (trim text) = true) : ∀ c ∈ trimmed text.toList, c ∉ spelledOut := by
  intro c hc hspelled
  have hmem : c ∈ (trim text).toList := by rwa [trim, String.toList_ofList]
  rw [not_accepts_of_isForeign hmem (isForeign_of_mem_spelledOut hspelled)] at h
  cases h

theorem class_of_admits : ∀ place ∈ postcodePlaces, ∀ c, place.admits c = true →
    isFoldedCapital c = true ∨ c.isDigit = true ∨ c = ' ' := by
  simp only [postcodePlaces, List.forall_mem_cons, Place.one, Place.maybe, Bool.or_eq_true,
    beq_iff_eq]
  refine ⟨?_, ?_, ?_, ?_, ?_, ?_, ?_, ?_, nofun⟩ <;> tauto

/-- In the normal form of a postcode there are only the letters A to Z, digits and spaces, unless the
text has a Kelvin sign. -/
theorem plain_of_mem_capitalised {text : String}
    (haccepts : Pattern.postcode.accepts (capitalised text) = true)
    (hkelvin : kelvinSign ∉ text.toList) {c : Char} (hc : c ∈ (capitalised text).toList) :
    isCapital c = true ∨ c.isDigit = true ∨ c = ' ' := by
  obtain ⟨place, hplace, hadmits⟩ := exists_admits_of_fills haccepts hc
  refine (class_of_admits place hplace c hadmits).imp_left fun hfolded => ?_
  rw [capitalised, String.toList_ofList] at hc
  obtain ⟨given, hgiven, hc⟩ := List.mem_flatMap.mp hc
  rcases mem_capitals hc with hcapital | ⟨rfl, hself⟩
  · exact hcapital
  · refine isCapital_of_capitals_eq hself hfolded ?_
    rintro rfl
    exact hkelvin ((mem_trimmed_iff (by decide)).mp hgiven)

theorem kelvinSign_mem_capitalised {text : String} (h : kelvinSign ∈ text.toList) :
    kelvinSign ∈ (capitalised text).toList := by
  rw [capitalised, String.toList_ofList]
  exact List.mem_flatMap.mpr ⟨kelvinSign, (mem_trimmed_iff (by decide)).mpr h, by decide⟩

theorem normalise?_eq_some_iff {text normal : String} :
    normalise? text = some normal ↔
      Pattern.postcode.accepts normal = true ∧ capitalised text = normal := by
  unfold normalise?
  split
  · next h =>
    rw [Option.some.injEq]
    exact ⟨fun heq => ⟨heq ▸ h, heq⟩, And.right⟩
  · next h =>
    simp only [reduceCtorEq, false_iff, not_and]
    rintro haccepts rfl
    exact h haccepts

/-- Capitals that matter to no postcode need not be known: any way to capitalise that differs from
`capitals` only where both leave a character that no postcode has finds the same normal forms. -/
theorem normalise?_eq_of_isForeign {upper : Char → List Char}
    (h : ∀ c, upper c = capitals c ∨
      (∃ d ∈ upper c, IsForeign d) ∧ ∃ d ∈ capitals c, IsForeign d) (text : String) :
    (if Pattern.postcode.accepts (String.ofList ((trimmed text.toList).flatMap upper)) then
        some (String.ofList ((trimmed text.toList).flatMap upper))
      else none) = normalise? text := by
  by_cases hsame : ∀ c ∈ trimmed text.toList, upper c = capitals c
  · rw [List.flatMap_congr hsame]
    rfl
  · push Not at hsame
    obtain ⟨c, hc, hne⟩ := hsame
    obtain ⟨⟨d, hd, hforeign⟩, ⟨d', hd', hforeign'⟩⟩ := (h c).resolve_left hne
    have hrefused {f : Char → List Char} {d : Char} (hd : d ∈ f c) (hforeign : IsForeign d) :
        Pattern.postcode.accepts (String.ofList ((trimmed text.toList).flatMap f)) = false :=
      not_accepts_of_isForeign
        (by rw [String.toList_ofList]; exact List.mem_flatMap_of_mem hc hd) hforeign
    rw [normalise?, capitalised, hrefused hd hforeign, hrefused hd' hforeign']
    rfl

/-! ## The address field -/

/-- What the address field asks of the text of a postcode. -/
def constraints : TextConstraints :=
  { max := some (Rule.lengthBound postcodeLimit), pattern := some .postcode }

/-- A postcode is shorter than the longest that the address field takes, so nothing but the shape is
asked of it. -/
theorem textFaults_constraints {text : String} :
    Leaf.textFaults constraints text = [] ↔ Pattern.postcode.accepts text = true := by
  have hlimit : Rule.lengthBound postcodeLimit = 10 := by decide +kernel
  by_cases h : Pattern.postcode.accepts text = true
  · have hlength : text.toList.countP (fun _ => true) ≤ postcodePlaces.countP fun _ => true :=
      countP_le_of_fills (fun _ _ _ _ _ => rfl) h
    have hshort : ¬ 10 < text.length := by
      rw [List.countP_true, String.length_toList] at hlength
      exact Nat.not_lt.mpr (Nat.le_trans hlength (by decide))
    simp [constraints, Leaf.textFaults, hlimit, h, hshort]
  · simp [constraints, Leaf.textFaults, h]

/-- Of the inputs of an address, the one for the postcode takes a text that is not blank just if what
is left of it without blanks at the ends has the shape of a postcode. -/
theorem validate_postcode_iff {part : AddressPart} (hkey : part.key = "postcode")
    (d : ComponentDefinition) {text : String} (hne : trim text ≠ "") :
    (∃ value, (part.rule d).validate {} (.str text) = .ok value) ↔
      Pattern.postcode.accepts (trim text) = true := by
  have hleaf : part.leaf = .text constraints := if_pos hkey
  have hcheck (allowsEmpty : Bool) : part.leaf.check allowsEmpty Rule.rootName (.str text) =
      ⟨some (.str (trim text)),
        (Leaf.textFaults constraints (trim text)).map (⟨[], Rule.rootName, ·⟩)⟩ := by
    simp [hleaf, constraints, Leaf.check, hne]
  have hallows : Attributes.allows
      { label := some part.label, required := part.core && !d.isOptional,
        allow := welcome (.str "") (!(part.core && !d.isOptional)) } (.str text) = false := by
    rw [← Bool.not_eq_true, Attributes.allows_iff (blanks_welcome (.inr rfl) _), mem_welcome_iff,
      Json.str.injEq]
    rintro ⟨rfl, -⟩
    exact hne (by decide +kernel)
  rw [part.rule_eq]
  show (∃ value, (Rule.leaf _ _).validate {} _ = .ok value) ↔ _
  simp only [Rule.validate_eq_ok_iff, Rule.takes_leaf_iff, Attributes.frames_some_iff hallows,
    hcheck]
  constructor
  · rintro ⟨value, w, -, ⟨-, hpasses⟩, -⟩
    exact textFaults_constraints.mp (List.map_eq_nil_iff.mp (Checked.mk.inj hpasses).2)
  · intro h
    rw [textFaults_constraints.mpr h]
    refine ⟨_, _, rfl, ⟨?_, rfl⟩, .inr ?_⟩
    · rintro ⟨⟩
    · rintro choices ⟨⟩

/-! ## What has a normal form -/

/-- The normal form of a postcode, and what the address field takes for one. A text of the shape of a
postcode has a normal form, and so does a text in which a part of that shape is spelled out, but no
other text. The normal form has the shape and is its own normal form; it has at most one space, and
otherwise letters A to Z and digits, unless there was a Kelvin sign in the text. -/
theorem accepts_iff_normalises (text : String) :
    (Pattern.postcode.accepts (trim text) = true ↔
      (normalise? text).isSome = true ∧ ∀ c ∈ text.toList, c ∉ spelledOut) ∧
    (∀ normal, normalise? text = some normal →
      Pattern.postcode.accepts normal = true ∧ normalise? normal = some normal ∧
      normal.toList.count ' ' ≤ 1 ∧
      ((∀ c ∈ normal.toList, isCapital c = true ∨ c.isDigit = true ∨ c = ' ') ↔
        kelvinSign ∉ text.toList)) ∧
    ∀ part ∈ addressParts, part.key = "postcode" → trim text ≠ "" → ∀ d : ComponentDefinition,
      ((∃ value, (part.rule d).validate {} (.str text) = .ok value) ↔
        Pattern.postcode.accepts (trim text) = true) := by
  have hspelled : (∀ c ∈ text.toList, c ∉ spelledOut) ↔ ∀ c ∈ trimmed text.toList, c ∉ spelledOut := by
    constructor
    · intro h c hc hmem
      exact h c ((mem_trimmed_iff (isBlank_of_mem_spelledOut hmem)).mp hc) hmem
    · intro h c hc hmem
      exact h c ((mem_trimmed_iff (isBlank_of_mem_spelledOut hmem)).mpr hc) hmem
  refine ⟨?_, ?_, ?_⟩
  · rw [hspelled]
    constructor
    · intro h
      have hplain := not_mem_spelledOut_of_accepts h
      refine ⟨Option.isSome_iff_exists.mpr ⟨_, normalise?_eq_some_iff.mpr ⟨?_, rfl⟩⟩, hplain⟩
      rw [accepts_capitalised hplain, h]
    · rintro ⟨hsome, hplain⟩
      obtain ⟨normal, hnormal⟩ := Option.isSome_iff_exists.mp hsome
      obtain ⟨haccepts, rfl⟩ := normalise?_eq_some_iff.mp hnormal
      rwa [accepts_capitalised hplain] at haccepts
  · intro normal hnormal
    obtain ⟨haccepts, rfl⟩ := normalise?_eq_some_iff.mp hnormal
    refine ⟨haccepts, normalise?_eq_some_iff.mpr ⟨haccepts, capitalised_capitalised text⟩, ?_, ?_⟩
    · have hfills := haccepts
      rw [Pattern.accepts_postcode] at hfills
      have hspaces : (capitalised text).toList.countP (· == ' ') ≤
          postcodePlaces.countP (·.admits ' ') :=
        countP_le_of_fills (fun place _ c hadmits hc => beq_iff_eq.mp hc ▸ hadmits) hfills
      exact Nat.le_trans hspaces (by decide)
    · constructor
      · intro hplain hkelvin
        have hnot := hplain kelvinSign (kelvinSign_mem_capitalised hkelvin)
        exact absurd hnot (by decide)
      · exact fun hkelvin c hc => plain_of_mem_capitalised haccepts hkelvin hc
  · exact fun part _ hkey hne d => validate_postcode_iff hkey d hne

/-- A text in small letters has the shape and a normal form, one with a ligature has a normal form
only, and in one with a Kelvin sign the sign stays. -/
theorem accepts_iff_normalises_sw1a :
    (normalise? " sw1a 1aa " = some "SW1A 1AA" ∧
      Pattern.postcode.accepts (trim " sw1a 1aa ") = true ∧
      normalise? "SW1A 1AA" = some "SW1A 1AA" ∧
      ∃ value, (AddressPart.rule ⟨"postcode", "Postcode", true, "postal-code"⟩
        { type := "UkAddressField", name := some "delivery", title := some "Delivery" }).validate {}
          (.str " sw1a 1aa ") = .ok value) ∧
    (normalise? "ß1 1AA" = some "SS1 1AA" ∧ Pattern.postcode.accepts (trim "ß1 1AA") = false) ∧
    normalise? "\u212a1 1AA" = some "\u212a1 1AA" ∧
      ¬ ∀ c ∈ "\u212a1 1AA".toList, isCapital c = true ∨ c.isDigit = true ∨ c = ' ' := by
  have hsmall : normalise? " sw1a 1aa " = some "SW1A 1AA" := by decide +kernel
  have hligature : normalise? "ß1 1AA" = some "SS1 1AA" := by decide +kernel
  have hkelvin : normalise? "\u212a1 1AA" = some "\u212a1 1AA" := by decide +kernel
  obtain ⟨haccepts, hnormal, hfield⟩ := accepts_iff_normalises " sw1a 1aa "
  have hplain : " sw1a 1aa ".toList.all (fun c => c ∉ spelledOut) = true := by decide +kernel
  have hshape := haccepts.mpr
    ⟨by rw [hsmall]; rfl, fun c hc => of_decide_eq_true (List.all_eq_true.mp hplain c hc)⟩
  refine ⟨⟨hsmall, hshape, (hnormal _ hsmall).2.1, ?_⟩, ⟨hligature, ?_⟩, hkelvin, ?_⟩
  · exact (hfield _ (by decide) rfl (by decide +kernel) _).mpr hshape
  · refine Bool.eq_false_iff.mpr fun h => ?_
    exact ((accepts_iff_normalises "ß1 1AA").1.mp h).2 'ß' (by decide +kernel) (by decide)
  · intro h
    exact (((accepts_iff_normalises "\u212a1 1AA").2.1 _ hkelvin).2.2.2).mp h (by decide +kernel)

end Postcode

end Questionnaire
