import Mathlib.Logic.Relation
import Questionnaire.Condition.Registry

/-!
# The order of dependence

A depth-first search over the references of conditions. What it finishes comes in an order in which
each condition refers only to earlier finished ones (`Dependence`, `visit_ok`), so no reference can
lead back (`Dependence.not_circular`). Where it stops, the name that it met twice lies on a circle
(`visit_error`). The references of a condition may be listed in any order.
-/

namespace Questionnaire

/-- One condition refers to another, by name. -/
def RefersTo (references : Condition → List String) (conditions : List Condition)
    (a b : String) : Prop :=
  ∃ c, findCondition? conditions a = some c ∧ b ∈ references c

/-- Whether a name is that of a condition. -/
def Registered (conditions : List Condition) (name : String) : Prop :=
  (findCondition? conditions name).isSome = true

theorem name_of_findCondition? {conditions : List Condition} {name : String} {c : Condition}
    (h : findCondition? conditions name = some c) : c.name = name := by
  simpa using List.find?_some h

theorem registered_iff {conditions : List Condition} {name : String} :
    Registered conditions name ↔ name ∈ conditions.map Condition.name := by
  simp [Registered, findCondition?, List.find?_isSome]

section

variable {references : Condition → List String} {conditions : List Condition}

/-- Conditions of which each refers only to later ones. -/
inductive Dependence (references : Condition → List String) (conditions : List Condition) :
    List Condition → Prop
  | nil : Dependence references conditions []
  | cons {c : Condition} {rest : List Condition} (hc : findCondition? conditions c.name = some c)
      (hnew : ¬ Registered rest c.name)
      (hreferences : ∀ name ∈ references c, Registered conditions name → Registered rest name)
      (hrest : Dependence references conditions rest) : Dependence references conditions (c :: rest)

theorem registered_cons {c : Condition} {rest : List Condition} {name : String} :
    Registered (c :: rest) name ↔ name = c.name ∨ Registered rest name := by
  simp [registered_iff, eq_comm]

/-! ## What the search finishes -/

/-- How the finished conditions grow in the middle of visiting some names: they stay in an order of
dependence, and none of those names is finished. -/
structure Grows (references : Condition → List String) (conditions : List Condition)
    (visiting : List String) (finished finished' : List Condition) : Prop where
  dependence : Dependence references conditions finished →
    Dependence references conditions finished'
  keeps : ∀ name, Registered finished name → Registered finished' name
  avoids : ∀ name, Registered finished' name → Registered finished name ∨ name ∉ visiting

theorem Grows.refl (visiting : List String) (finished : List Condition) :
    Grows references conditions visiting finished finished where
  dependence h := h
  keeps _ h := h
  avoids _ h := .inl h

theorem Grows.trans {visiting : List String} {first second third : List Condition}
    (h : Grows references conditions visiting first second)
    (h' : Grows references conditions visiting second third) :
    Grows references conditions visiting first third where
  dependence hfirst := h'.dependence (h.dependence hfirst)
  keeps name hname := h'.keeps name (h.keeps name hname)
  avoids name hname := (h'.avoids name hname).elim (h.avoids name) .inr

theorem visitEach_ok {visiting : List String}
    {visit : List Condition → String → Except String (List Condition)}
    (hvisit : ∀ {finished name finished'}, visit finished name = .ok finished' →
      Grows references conditions visiting finished finished' ∧
        (Registered conditions name → Registered finished' name))
    {names : List String} : ∀ {finished finished' : List Condition},
      visitEach visit finished names = .ok finished' →
      Grows references conditions visiting finished finished' ∧
        ∀ name ∈ names, Registered conditions name → Registered finished' name := by
  induction names with
  | nil =>
      intro finished finished' h
      cases h
      exact ⟨.refl _ _, nofun⟩
  | cons name names ih =>
      intro finished finished' h
      rw [visitEach] at h
      split at h
      · exact nomatch h
      · next second hsecond =>
        obtain ⟨hgrows, hname⟩ := hvisit hsecond
        obtain ⟨hgrows', hnames⟩ := ih h
        exact ⟨hgrows.trans hgrows', List.forall_mem_cons.mpr
          ⟨fun hregistered => hgrows'.keeps _ (hname hregistered), hnames⟩⟩

/-- A visit that ends finishes the condition visited, behind all that it refers to. -/
theorem visit_ok {visiting : List String} {finished finished' : List Condition} {name : String}
    (h : visit references conditions visiting finished name = .ok finished') :
    Grows references conditions visiting finished finished' ∧
      (Registered conditions name → Registered finished' name) := by
  fun_induction visit references conditions visiting finished name generalizing finished' with
  | case1 finished visiting name hfinished =>
    cases h
    exact ⟨.refl _ _, fun _ => hfinished⟩
  | case2 => exact nomatch h
  | case3 finished visiting name hfinished hvisiting hnone =>
    cases h
    -- No condition has the name: nothing is finished, and nothing has to be.
    refine ⟨.refl _ _, fun hregistered => ?_⟩
    rw [Registered, hnone] at hregistered
    exact nomatch hregistered
  | case4 => exact nomatch h
  | case5 visiting finished name hfinished hvisiting c hc last heach ih =>
    cases h
    obtain rfl : c.name = name := name_of_findCondition? hc
    obtain ⟨hgrows, hreferences⟩ := visitEach_ok (ih _ _) heach
    -- All that was finished on the way avoided the name, which was in the middle of being visited.
    have hnew : ¬ Registered last c.name := fun hlast =>
      (hgrows.avoids _ hlast).elim hfinished fun hnot => hnot List.mem_cons_self
    refine ⟨⟨fun hdependence => ?_, fun other hother => ?_, fun other hother => ?_⟩, fun _ => ?_⟩
    · exact .cons hc hnew hreferences (hgrows.dependence hdependence)
    · exact registered_cons.mpr (.inr (hgrows.keeps other hother))
    · rcases registered_cons.mp hother with rfl | hother
      · exact .inr (by simpa using hvisiting)
      · exact (hgrows.avoids other hother).imp_right fun hnot hmem => hnot (.tail _ hmem)
    · exact registered_cons.mpr (.inl rfl)

/-! ## Where the search stops -/

/-- One condition leads to another along references, in one step or more. -/
def LeadsTo (references : Condition → List String) (conditions : List Condition) :
    String → String → Prop :=
  Relation.TransGen (RefersTo references conditions)

theorem visitEach_error {visit : List Condition → String → Except String (List Condition)}
    {names : List String} {repeated : String} : ∀ {finished : List Condition},
      visitEach visit finished names = .error repeated →
      ∃ finished' name, name ∈ names ∧ visit finished' name = .error repeated := by
  induction names with
  | nil =>
      intro finished h
      exact nomatch h
  | cons name names ih =>
      intro finished h
      rw [visitEach] at h
      split at h
      · next hname =>
        cases h
        exact ⟨finished, name, List.mem_cons_self, hname⟩
      · obtain ⟨finished', other, hother, hvisit⟩ := ih h
        exact ⟨finished', other, .tail _ hother, hvisit⟩

/-- If all names in the middle of being visited lead to the name that is visited, a name that is met
twice leads to itself. -/
theorem visit_error {visiting : List String} {finished : List Condition} {name repeated : String}
    (hvisiting : ∀ other ∈ visiting, LeadsTo references conditions other name)
    (h : visit references conditions visiting finished name = .error repeated) :
    LeadsTo references conditions repeated repeated := by
  fun_induction visit references conditions visiting finished name with
  | case1 => exact nomatch h
  | case2 finished visiting name hfinished hmem =>
    cases h
    exact hvisiting repeated (by simpa using hmem)
  | case3 => exact nomatch h
  | case4 visiting finished name hfinished hmem c hc repeated' heach ih =>
    cases h
    obtain ⟨finished', reference, hreference, hvisit⟩ := visitEach_error heach
    refine ih finished' reference (fun other hother => ?_) hvisit
    -- The visit that fails is that of a reference, one step further than `name`.
    have hstep : RefersTo references conditions name reference := ⟨c, hc, hreference⟩
    rcases List.mem_cons.mp hother with rfl | hother
    · exact .single hstep
    · exact (hvisiting other hother).tail hstep
  | case5 => exact nomatch h

/-! ## No circles -/

/-- How many conditions come from that of a name on. -/
def rank : List Condition → String → Nat
  | [], _ => 0
  | c :: rest, name => if c.name = name then rest.length + 1 else rank rest name

theorem rank_le_length (ordered : List Condition) (name : String) :
    rank ordered name ≤ ordered.length := by
  induction ordered with
  | nil => exact Nat.le_refl 0
  | cons c rest ih =>
      rw [rank]
      split
      · exact Nat.le_refl _
      · exact Nat.le_succ_of_le ih

theorem Dependence.registered {ordered : List Condition} {a b : String}
    (h : Dependence references conditions ordered) (ha : Registered ordered a)
    (hrefers : RefersTo references conditions a b) (hb : Registered conditions b) :
    Registered ordered b := by
  induction h with
  | nil => exact nomatch ha
  | cons hc _ hreferences _ ih =>
      rcases registered_cons.mp ha with rfl | ha
      · obtain ⟨c, hfound, hmem⟩ := hrefers
        rw [hc] at hfound
        cases hfound
        exact registered_cons.mpr (.inr (hreferences b hmem hb))
      · exact registered_cons.mpr (.inr (ih ha))

/-- Along a reference the rank falls. -/
theorem Dependence.rank_lt {ordered : List Condition} {a b : String}
    (h : Dependence references conditions ordered) (ha : Registered ordered a)
    (hrefers : RefersTo references conditions a b) (hb : Registered conditions b) :
    rank ordered b < rank ordered a := by
  induction h with
  | nil => exact nomatch ha
  | @cons c rest hc hnew hreferences hrest ih =>
      -- The condition in front has no name of a later one, so it leaves their ranks as they are.
      have hlater {other : String} (hother : Registered rest other) :
          rank (c :: rest) other = rank rest other :=
        if_neg fun (heq : c.name = other) => hnew (heq ▸ hother)
      rcases registered_cons.mp ha with rfl | ha
      · obtain ⟨c', hfound, hmem⟩ := hrefers
        rw [hc] at hfound
        cases hfound
        rw [hlater (hreferences b hmem hb), rank, if_pos rfl]
        exact Nat.lt_succ_of_le (rank_le_length rest b)
      · rw [hlater ha, hlater (hrest.registered ha hrefers hb)]
        exact ih ha

theorem Dependence.rank_lt_of_leadsTo {ordered : List Condition} {a b : String}
    (h : Dependence references conditions ordered)
    (hall : ∀ name, Registered conditions name → Registered ordered name)
    (hleads : LeadsTo references conditions a b) (hb : Registered conditions b) :
    rank ordered b < rank ordered a := by
  have registered_of_refersTo {a b : String} (hrefers : RefersTo references conditions a b) :
      Registered conditions a := by
    obtain ⟨c, hc, -⟩ := hrefers
    simp [Registered, hc]
  -- Only the last name of the walk may have no condition; all others refer to something.
  induction hleads with
  | single hrefers => exact h.rank_lt (hall _ (registered_of_refersTo hrefers)) hrefers hb
  | tail _ hrefers ih =>
      have hmiddle := registered_of_refersTo hrefers
      exact Nat.lt_trans (h.rank_lt (hall _ hmiddle) hrefers hb) (ih hmiddle)

/-- Where all conditions are in an order of dependence, none leads to itself. -/
theorem Dependence.not_circular {ordered : List Condition}
    (h : Dependence references conditions ordered)
    (hall : ∀ name, Registered conditions name → Registered ordered name) (name : String) :
    ¬ LeadsTo references conditions name name := by
  intro hleads
  have hname : Registered conditions name := by
    obtain ⟨other, ⟨c, hc, -⟩, -⟩ := Relation.TransGen.head'_iff.mp hleads
    simp [Registered, hc]
  exact Nat.lt_irrefl _ (h.rank_lt_of_leadsTo hall hleads hname)

/-! ## The whole search -/

/-- The order that the search gives of all conditions is an order of dependence. -/
theorem visitEach_all_ok {ordered : List Condition}
    (h : visitEach (visit references conditions []) [] (conditions.map Condition.name) =
      .ok ordered) :
    Dependence references conditions ordered ∧
      ∀ name, Registered conditions name → Registered ordered name := by
  obtain ⟨hgrows, hall⟩ := visitEach_ok visit_ok h
  exact ⟨hgrows.dependence .nil, fun name hname => hall name (registered_iff.mp hname) hname⟩

theorem visitEach_all_error {name : String}
    (h : visitEach (visit references conditions []) [] (conditions.map Condition.name) =
      .error name) : LeadsTo references conditions name name := by
  obtain ⟨finished, first, -, hvisit⟩ := visitEach_error h
  exact visit_error (by simp) hvisit

end

end Questionnaire
