import Questionnaire.Proofs.Json.Reading

/-!
# JSON text, read back

What is written over several lines is read as the value it was written of
(`Json.readWith?_pretty`), as long as the reader goes deep enough and makes of every number what was
written. It does so of every number when it rounds once (`Numeral.denoted?`). The value must have
the members of its objects in order, as all values have that were read
(`Json.wellNested_of_readWith?`).
-/

namespace Questionnaire

namespace Json

/-! ## Layout -/

/-- Spaces in front are dropped. -/
theorem skipSpace_append {margin : List Char} (h : ∀ c ∈ margin, isSpace c = true)
    (cs : List Char) : skipSpace (margin ++ cs) = skipSpace cs :=
  List.dropWhile_append_of_pos h

theorem prettyItems_eq_map (margin : String) (items : List Json) :
    prettyItems margin items = items.map (prettyFrom margin) := by
  induction items with
  | nil => rfl
  | cons item rest ih => rw [prettyItems, ih, List.map_cons]

/-- A member on a line of its own. -/
def memberLine (margin : String) (member : String × Json) : String :=
  quote member.1 ++ ": " ++ member.2.prettyFrom margin

theorem prettyFields_eq_map (margin : String) (fields : Fields) :
    prettyFields margin fields = fields.map (memberLine margin) := by
  induction fields with
  | nil => rfl
  | cons member rest ih => rw [prettyFields, ih, List.map_cons, memberLine]

/-- The lines between two brackets, each behind the margin. -/
def lines (margin : String) (parts : List String) : List Char :=
  (String.intercalate ",\n" (parts.map (margin ++ ·))).toList

theorem lines_singleton (margin part : String) :
    lines margin [part] = margin.toList ++ part.toList := by
  rw [lines, List.map_singleton, String.intercalate_singleton, String.toList_append]

theorem lines_cons (margin part next : String) (parts : List String) :
    lines margin (part :: next :: parts) =
      margin.toList ++ (part.toList ++ (',' :: '\n' :: lines margin (next :: parts))) := by
  simp [lines, String.intercalate_cons_cons]

theorem bracketed_append {opening closing : String} {first last : Char}
    (hfirst : opening.toList = [first]) (hlast : closing.toList = [last]) (margin part : String)
    (parts : List String) (rest : List Char) :
    (bracketed opening closing margin (part :: parts)).toList ++ rest =
      first :: '\n' :: (lines (margin ++ "  ") (part :: parts) ++
        '\n' :: (margin.toList ++ last :: rest)) := by
  simp [bracketed, lines, hfirst, hlast]

theorem bracketed_nil_append {opening closing : String} {first last : Char}
    (hfirst : opening.toList = [first]) (hlast : closing.toList = [last]) (margin : String)
    (rest : List Char) :
    (bracketed opening closing margin []).toList ++ rest = first :: last :: rest := by
  simp [bracketed, hfirst, hlast]

/-! ## Values that are read back -/

/-- A value nested at most `depth` deep, whose objects have their members in order, and whose
floating-point numbers have a property. -/
inductive Within (keeps : Binary64 → Prop) : Nat → Json → Prop
  | null {depth : Nat} : Within keeps depth .null
  | bool {depth : Nat} {b : Bool} : Within keeps depth (.bool b)
  | int {depth : Nat} {i : Int} {h : IsWord i} : Within keeps depth (.num (.int i h))
  | float {depth : Nat} {x : Binary64} (h : keeps x) : Within keeps depth (.num (.float x))
  | str {depth : Nat} {s : String} : Within keeps depth (.str s)
  | arr {depth : Nat} {items : List Json} (h : ∀ item ∈ items, Within keeps depth item) :
      Within keeps (depth + 1) (.arr items)
  | obj {depth : Nat} {fields : Fields} (hordered : fields.Ordered)
      (h : ∀ member ∈ fields, Within keeps depth member.2) : Within keeps (depth + 1) (.obj fields)

theorem Within.mono {keeps : Binary64 → Prop} {depth depth' : Nat} {value : Json}
    (h : value.Within keeps depth) (hle : depth ≤ depth') : value.Within keeps depth' := by
  induction h generalizing depth' with
  | null => exact .null
  | bool => exact .bool
  | int => exact .int
  | float h => exact .float h
  | str => exact .str
  | arr _ ih =>
      obtain ⟨room, rfl⟩ := Nat.exists_eq_add_of_lt hle
      exact .arr fun item hitem => ih item hitem (Nat.le_add_right _ _)
  | obj hordered _ ih =>
      obtain ⟨room, rfl⟩ := Nat.exists_eq_add_of_lt hle
      exact .obj hordered fun member hmember => ih member hmember (Nat.le_add_right _ _)

/-- A value nested at most `depth` deep, whose objects have their members in order. -/
abbrev WellNested (value : Json) (depth : Nat) : Prop :=
  value.Within (fun _ => True) depth

section

variable {read : Numeral → Option Number} {depth : Nat} {margin : String} {closing rest : List Char}

/-- A value is read of what is written of it behind a margin, whatever follows. -/
def ReadsBack (read : Numeral → Option Number) (depth : Nat) (margin : String) (value : Json) :
    Prop :=
  ∀ rest, Numeral.Ends rest →
    Gives (valueAt read depth ((value.prettyFrom margin).toList ++ rest)) value rest

theorem skipSpace_line (hmargin : ∀ c ∈ margin.toList, isSpace c = true) (cs : List Char) :
    skipSpace ('\n' :: (margin.toList ++ cs)) = skipSpace cs :=
  @skipSpace_append ('\n' :: margin.toList) (List.forall_mem_cons.mpr ⟨rfl, hmargin⟩) cs

theorem skipSpace_closing (hmargin : ∀ c ∈ margin.toList, isSpace c = true) {c : Char}
    (hc : isSpace c = false) (cs : List Char) :
    skipSpace ('\n' :: (margin.toList ++ c :: cs)) = c :: cs := by
  rw [skipSpace_line hmargin]
  exact List.dropWhile_cons_of_neg (by simp [hc])

theorem ends_line (cs : List Char) : Numeral.Ends ('\n' :: cs) := by
  rintro c ⟨⟩
  decide

theorem ends_of_comma (rest : List Char) : Numeral.Ends (',' :: rest) := by
  rintro c ⟨⟩
  decide

/-- Items on lines of their own are read back, if each is. -/
theorem gives_itemLines (hmargin : ∀ c ∈ margin.toList, isSpace c = true)
    (hends : Numeral.Ends closing) (hclose : skipSpace closing = ']' :: rest) (item : Json)
    (items : List Json) (h : ∀ item' ∈ item :: items, ReadsBack read depth margin item') :
    Gives (itemsAt read depth
        ('\n' :: (lines margin ((item :: items).map (prettyFrom margin)) ++ closing)))
      (item :: items) rest := by
  induction items generalizing item with
  | nil =>
      have hitem := h item (.head _) closing hends
      refine gives_items ?_ (.inl ⟨hclose, rfl⟩)
      rw [List.map_singleton, lines_singleton, List.append_assoc, skipSpace_line hmargin,
        skipSpace_of_gives hitem]
      exact hitem
  | cons next items ih =>
      have hrest := ih next fun item' hitem' => h item' (.tail _ hitem')
      have hitem := h item (.head _) (',' :: '\n' ::
        (lines margin ((next :: items).map (prettyFrom margin)) ++ closing)) (ends_of_comma _)
      refine gives_items ?_ (.inr ⟨_, List.dropWhile_cons_of_neg (by decide), hrest⟩)
      rw [List.map_cons, List.map_cons, lines_cons, List.append_assoc, List.append_assoc,
        skipSpace_line hmargin]
      rw [List.map_cons] at hitem
      exact (skipSpace_of_gives hitem).symm ▸ hitem

/-- A member is read back, if its value is. -/
theorem gives_memberLine (hmargin : ∀ c ∈ margin.toList, isSpace c = true) {member : String × Json}
    {fields : Fields}
    (h : Gives (valueAt read depth ((member.2.prettyFrom margin).toList ++ closing)) member.2 closing)
    (hnext : skipSpace closing = '\x7d' :: rest ∧ fields = [] ∨
      ∃ next, skipSpace closing = ',' :: next ∧ Gives (membersAt read depth next) fields rest) :
    Gives (membersAt read depth
        ('\n' :: (margin.toList ++ ((memberLine margin member).toList ++ closing))))
      (member :: fields) rest := by
  have hline : skipSpace ('\n' :: (margin.toList ++ ((memberLine margin member).toList ++ closing))) =
      '"' :: (member.1.toList.flatMap escapeChar ++
        '"' :: ':' :: ' ' :: ((member.2.prettyFrom margin).toList ++ closing)) := by
    rw [skipSpace_line hmargin]
    simp [memberLine, quote, skipSpace, isSpace]
  refine gives_members hline (gives_quoted member.1 _) (List.dropWhile_cons_of_neg (by decide)) ?_
    hnext
  have hspace : skipSpace (' ' :: ((member.2.prettyFrom margin).toList ++ closing)) =
      (member.2.prettyFrom margin).toList ++ closing :=
    (List.dropWhile_cons_of_pos (by decide)).trans (skipSpace_of_gives h)
  rw [hspace]
  exact h

/-- Members on lines of their own are read back, if their values are. -/
theorem gives_memberLines (hmargin : ∀ c ∈ margin.toList, isSpace c = true)
    (hends : Numeral.Ends closing) (hclose : skipSpace closing = '\x7d' :: rest)
    (member : String × Json) (fields : Fields)
    (h : ∀ member' ∈ member :: fields, ReadsBack read depth margin member'.2) :
    Gives (membersAt read depth
        ('\n' :: (lines margin ((member :: fields).map (memberLine margin)) ++ closing)))
      (member :: fields) rest := by
  induction fields generalizing member with
  | nil =>
      rw [List.map_singleton, lines_singleton, List.append_assoc]
      exact gives_memberLine hmargin (h member (.head _) closing hends) (.inl ⟨hclose, rfl⟩)
  | cons next fields ih =>
      have hrest := ih next fun member' hmember' => h member' (.tail _ hmember')
      rw [List.map_cons, List.map_cons, lines_cons, List.append_assoc, List.append_assoc]
      exact gives_memberLine hmargin (h member (.head _) _ (ends_of_comma _))
        (.inr ⟨_, List.dropWhile_cons_of_neg (by decide), hrest⟩)

theorem isSpace_inner (hmargin : ∀ c ∈ margin.toList, isSpace c = true) :
    ∀ c ∈ (margin ++ "  ").toList, isSpace c = true := by
  rw [String.toList_append, List.forall_mem_append]
  exact ⟨hmargin, List.all_eq_true.mp (by decide)⟩

theorem readsBack_num {number : Number} {n : Numeral} (hproper : n.Proper)
    (htext : number.text.toList = signChars n.negative ++ n.body) (hn : read n = some number) :
    ReadsBack read depth margin (.num number) := by
  intro rest hrest
  show Gives (valueAt read depth (number.text.toList ++ rest)) _ rest
  rw [htext, List.append_assoc]
  exact gives_num hproper hrest hn

theorem readsBack_str (s : String) : ReadsBack read depth margin (.str s) := by
  intro rest _
  have htext : (quote s).toList ++ rest = '"' :: (s.toList.flatMap escapeChar ++ '"' :: rest) := by
    simp [quote]
  show Gives (valueAt read depth ((quote s).toList ++ rest)) _ rest
  rw [htext]
  exact gives_str (gives_quoted s rest)

theorem readsBack_arr {items : List Json} (hmargin : ∀ c ∈ margin.toList, isSpace c = true)
    (h : ∀ item ∈ items, ReadsBack read depth (margin ++ "  ") item) :
    ReadsBack read (depth + 1) margin (.arr items) := by
  intro rest hrest
  rw [prettyFrom, prettyItems_eq_map]
  cases items with
  | nil =>
      rw [List.map_nil, bracketed_nil_append rfl rfl]
      exact gives_emptyArr (List.dropWhile_cons_of_neg (by decide))
  | cons item items =>
      have hitems := gives_itemLines (isSpace_inner hmargin) (ends_line _)
        (skipSpace_closing hmargin (by decide) rest) item items h
      rw [List.map_cons] at hitems ⊢
      rw [bracketed_append rfl rfl]
      exact gives_arr hitems

theorem readsBack_obj {fields : Fields} (hordered : fields.Ordered)
    (hmargin : ∀ c ∈ margin.toList, isSpace c = true)
    (h : ∀ member ∈ fields, ReadsBack read depth (margin ++ "  ") member.2) :
    ReadsBack read (depth + 1) margin (.obj fields) := by
  intro rest hrest
  rw [prettyFrom, prettyFields_eq_map]
  cases fields with
  | nil =>
      rw [List.map_nil, bracketed_nil_append rfl rfl]
      exact gives_emptyObj (List.dropWhile_cons_of_neg (by decide))
  | cons member fields =>
      have hmembers := gives_memberLines (isSpace_inner hmargin) (ends_line _)
        (skipSpace_closing hmargin (by decide) rest) member fields h
      rw [List.map_cons] at hmembers ⊢
      have hvalue := gives_obj hmembers
      rw [Fields.Ordered.ofList_eq hordered] at hvalue
      rw [bracketed_append rfl rfl]
      exact hvalue

/-- What is written of a value is read as the value. -/
theorem readsBack {keeps : Binary64 → Prop}
    (hread : ∀ number : Number, (∀ x, number = .float x → keeps x) →
      ∃ n : Numeral, n.Proper ∧ number.text.toList = signChars n.negative ++ n.body ∧
        read n = some number) {value : Json} (h : value.Within keeps depth)
    (hmargin : ∀ c ∈ margin.toList, isSpace c = true) : ReadsBack read depth margin value := by
  induction h generalizing margin with
  | null => exact fun rest _ => gives_null
  | bool => exact fun rest _ => gives_bool _
  | @int depth i h =>
      obtain ⟨n, hproper, htext, hn⟩ := hread (.int i h) (by rintro _ ⟨⟩)
      exact readsBack_num hproper htext hn
  | @float depth x h =>
      obtain ⟨n, hproper, htext, hn⟩ := hread (.float x) fun _ hx => Number.float.inj hx ▸ h
      exact readsBack_num hproper htext hn
  | str => exact readsBack_str _
  | arr h ih => exact readsBack_arr hmargin fun item hitem => ih item hitem (isSpace_inner hmargin)
  | obj hordered h ih =>
      exact readsBack_obj hordered hmargin fun member hmember =>
        ih member hmember (isSpace_inner hmargin)

theorem readWith?_of_gives {s : String} {value : Json}
    (h : Gives (valueAt read depth s.toList) value rest) (hrest : ∀ c ∈ rest, isSpace c = true) :
    readWith? read depth s = some value := by
  have hskip := skipSpace_of_gives h
  have hempty : skipSpace rest = [] := by
    rw [skipSpace, List.dropWhile_eq_nil_iff]
    exact hrest
  obtain ⟨hless, h⟩ := (hskip.symm ▸ h : Gives (valueAt read depth (skipSpace s.toList)) value rest)
  rw [readWith?, h, Option.bind_some, hempty]
  rfl

theorem ends_of_isSpace (h : ∀ c ∈ rest, isSpace c = true) : Numeral.Ends rest := by
  intro c hc
  have hspace := h c (List.mem_of_head? hc)
  simp only [isSpace, Bool.or_eq_true, decide_eq_true_eq] at hspace
  rcases hspace with ((rfl | rfl) | rfl) | rfl <;> decide

/-- What is written of a value over several lines, and perhaps a line's end behind it, is read as the
value, if the reader goes as deep and reads its numbers. -/
theorem readWith?_pretty {keeps : Binary64 → Prop}
    (hread : ∀ number : Number, (∀ x, number = .float x → keeps x) →
      ∃ n : Numeral, n.Proper ∧ number.text.toList = signChars n.negative ++ n.body ∧
        read n = some number) {value : Json} (h : value.Within keeps depth) {tail : String}
    (htail : ∀ c ∈ tail.toList, isSpace c = true) :
    readWith? read depth (value.pretty ++ tail) = some value := by
  have hvalue : ReadsBack read depth "" value := readsBack hread h nofun
  have hback := hvalue _ (ends_of_isSpace htail)
  refine readWith?_of_gives ?_ htail
  rw [String.toList_append]
  exact hback

end

/-- Read with one rounding, every value that is written is what was written. -/
theorem readWith?_denoted_pretty {depth : Nat} {value : Json} (h : value.WellNested depth)
    {tail : String} (htail : ∀ c ∈ tail.toList, isSpace c = true) :
    readWith? Numeral.denoted? depth (value.pretty ++ tail) = some value := by
  refine readWith?_pretty (fun number _ => ?_) h htail
  obtain ⟨n, hproper, htext, hexact, -⟩ := number.exists_numeral
  exact ⟨n, hproper, htext, hexact⟩

/-- The text of a number that the reader gives for it stands for the number. -/
theorem value?_of_parse? {x : Binary64} (h : parse? x.marked = some (.num (.float x))) :
    ∃ n : Numeral, n.Proper ∧ x.marked.toList = signChars n.negative ++ n.body ∧
      n.value? = some (.float x) := by
  obtain ⟨n, hproper, htext, -, -⟩ := (Number.float x).exists_numeral
  refine ⟨n, hproper, htext, ?_⟩
  have hends : Numeral.Ends [] := nofun
  -- Whatever it stands for, the text of a number has no space in front.
  have hskip : skipSpace x.marked.toList = x.marked.toList := by
    have hgives := @gives_num (fun _ => some (.float x)) 0 [] n hproper hends (.float x) rfl
    rw [List.append_nil, ← htext] at hgives
    exact skipSpace_of_gives hgives
  obtain ⟨hless, hvalue⟩ := @valueAt_numeral Numeral.value? depthLimit [] n hproper hends
  rw [parse?, readWith?, hskip] at h
  rw [show x.marked.toList = signChars n.negative ++ (n.body ++ []) by
    rw [List.append_nil]; exact htext, hvalue] at h
  cases hn : n.value? with
  | none => rw [hn] at h; exact nomatch h
  | some number =>
      rw [hn] at h
      exact congrArg some (Json.num.inj (Option.some.inj h))

/-- A value is what is read of it, if it is nested no deeper than the reader goes and the reader,
which rounds twice, comes back to its floating-point numbers. -/
theorem parse?_pretty {value : Json}
    (h : value.Within (fun x => parse? x.marked = some (.num (.float x))) depthLimit) {tail : String}
    (htail : ∀ c ∈ tail.toList, isSpace c = true) : parse? (value.pretty ++ tail) = some value := by
  refine readWith?_pretty (fun number hkept => ?_) h htail
  cases number with
  | int i hword =>
      obtain ⟨n, hproper, htext, -, hvalue⟩ := (Number.int i hword).exists_numeral
      exact ⟨n, hproper, htext, hvalue i hword rfl⟩
  | float x => exact value?_of_parse? (hkept x rfl)

/-! ## What is read -/

section
variable {read : Numeral → Option Number}

theorem exists_num_of_number? {cs : List Char} {r : Reading Json cs} (h : number? read cs = some r) :
    ∃ number, r.value = .num number := by
  simp only [number?, Option.bind_eq_bind] at h
  split at h <;>
    obtain ⟨_, -, h⟩ := Option.bind_eq_some_iff.mp h <;>
    obtain ⟨number, -, h⟩ := Option.bind_eq_some_iff.mp h <;>
    split at h <;> cases h <;>
    exact ⟨number, rfl⟩

theorem wellNested_num (number : Number) (depth : Nat) : (Json.num number).WellNested depth := by
  cases number with
  | int i h => exact .int
  | float x => exact .float trivial

/-- Behind spaces and a character less is left. -/
theorem length_lt_of_skipSpace {cs rest : List Char} {c : Char} (h : skipSpace cs = c :: rest) :
    rest.length < cs.length := by
  have hskip := length_skipSpace_le cs
  rw [h, List.length_cons] at hskip
  exact hskip

mutual

/-- What is read is nested no deeper than the reader goes, and has the members of its objects in
order. -/
theorem wellNested_of_valueAt {depth : Nat} {cs : List Char} {r : Reading Json cs}
    (h : valueAt read depth cs = some r) : r.value.WellNested depth := by
  rw [valueAt.eq_def] at h
  split at h
  · obtain ⟨s, -, rfl⟩ := Option.map_eq_some_iff.mp h
    exact .str
  · next rest =>
    split at h
    · exact nomatch h
    · split at h
      · cases h
        exact .arr nofun
      · obtain ⟨items, hitems, rfl⟩ := Option.map_eq_some_iff.mp h
        exact .arr (wellNested_of_itemsAt hitems)
  · next rest =>
    split at h
    · exact nomatch h
    · split at h
      · cases h
        exact .obj Fields.Ordered.nil nofun
      · obtain ⟨members, hmembers, rfl⟩ := Option.map_eq_some_iff.mp h
        refine .obj (Fields.ordered_ofList _) fun member hmember => ?_
        exact wellNested_of_membersAt hmembers member
          ((Fields.mem_of_mem_extend hmember).resolve_right List.not_mem_nil)
  · obtain ⟨rest, -, h⟩ := Option.bind_eq_some_iff.mp h
    split at h <;> cases h
    exact .null
  · obtain ⟨rest, -, h⟩ := Option.bind_eq_some_iff.mp h
    split at h <;> cases h
    exact .bool
  · obtain ⟨rest, -, h⟩ := Option.bind_eq_some_iff.mp h
    split at h <;> cases h
    exact .bool
  · obtain ⟨number, hnumber⟩ := exists_num_of_number? h
    rw [hnumber]
    exact wellNested_num number depth
termination_by 2 * cs.length
decreasing_by
  all_goals
    subst cs
    simp only [List.length_cons]
    omega

theorem wellNested_of_itemsAt {depth : Nat} {cs : List Char} {r : Reading (List Json) cs}
    (h : itemsAt read depth cs = some r) : ∀ item ∈ r.value, item.WellNested depth := by
  have hskip := length_skipSpace_le cs
  rw [itemsAt.eq_def] at h
  split at h
  · exact nomatch h
  · next item hitem =>
    have hvalue := wellNested_of_valueAt hitem
    split at h
    · cases h
      exact List.forall_mem_singleton.mpr hvalue
    · next rest hs =>
      have hless : rest.length < cs.length :=
        Nat.lt_trans (length_lt_of_skipSpace hs) (Nat.lt_of_lt_of_le item.shorter hskip)
      obtain ⟨items, hitems, rfl⟩ := Option.map_eq_some_iff.mp h
      exact List.forall_mem_cons.mpr ⟨hvalue, wellNested_of_itemsAt hitems⟩
    · exact nomatch h
termination_by 2 * cs.length + 1
decreasing_by
  all_goals omega

theorem wellNested_of_membersAt {depth : Nat} {cs : List Char} {r : Reading (List (String × Json)) cs}
    (h : membersAt read depth cs = some r) :
    ∀ member ∈ r.value, member.2.WellNested depth := by
  rw [membersAt.eq_def] at h
  split at h
  · next afterQuote hquote =>
    split at h
    · exact nomatch h
    · next key hkey =>
      split at h
      · next afterColon hcolon =>
        have hkeyed : (skipSpace afterColon).length < cs.length :=
          calc (skipSpace afterColon).length
            _ ≤ afterColon.length := length_skipSpace_le afterColon
            _ < key.rest.length := length_lt_of_skipSpace hcolon
            _ < afterQuote.length := key.shorter
            _ < cs.length := length_lt_of_skipSpace hquote
        split at h
        · exact nomatch h
        · next item hitem =>
          have hvalue := wellNested_of_valueAt hitem
          split at h
          · cases h
            exact List.forall_mem_singleton.mpr hvalue
          · next rest hs =>
            have hless : rest.length < cs.length :=
              calc rest.length
                _ < item.rest.length := length_lt_of_skipSpace hs
                _ < (skipSpace afterColon).length := item.shorter
                _ < cs.length := hkeyed
            obtain ⟨members, hmembers, rfl⟩ := Option.map_eq_some_iff.mp h
            exact List.forall_mem_cons.mpr ⟨hvalue, wellNested_of_membersAt hmembers⟩
          · exact nomatch h
      · exact nomatch h
  · exact nomatch h
termination_by 2 * cs.length + 1
decreasing_by
  all_goals omega

end

/-- Values that are read are nested no deeper than the reader goes, and have the members of their
objects in order. -/
theorem wellNested_of_readWith? {depth : Nat} {s : String} {value : Json}
    (h : readWith? read depth s = some value) : value.WellNested depth := by
  obtain ⟨r, hr, hend⟩ := Option.bind_eq_some_iff.mp h
  split at hend <;> cases hend
  exact wellNested_of_valueAt hr

end

end Json

end Questionnaire
