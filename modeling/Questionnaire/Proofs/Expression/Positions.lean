import Mathlib.Data.String.Basic
import Mathlib.Logic.Relation
import Questionnaire.Proofs.Expression.Spacing

/-!
# Positions in an expression's text

The reader goes through a text character by character and counts bytes. Where it stands, the
characters behind it are as many bytes as its position says (`Stands`), and each of its steps keeps
that. So what it takes off the text begins and ends between two characters, also in a text whose
tokens are not read to the end (`Reaches.isSlice`), the tokens of a text tile it (`TiledBy`), and
every fault has a position between two characters, or at an end of the text (`tokens_tile`).
-/

namespace Questionnaire

/-! ## Bytes and characters -/

theorem byteLength_eq_utf8Len (cs : List Char) : byteLength cs = String.utf8Len cs := by
  induction cs with
  | nil => rfl
  | cons c cs ih =>
      rw [String.utf8Len_cons, ← ih, Nat.add_comm]
      rfl

theorem byteLength_append (cs others : List Char) :
    byteLength (cs ++ others) = byteLength cs + byteLength others := by
  simp only [byteLength_eq_utf8Len, String.utf8Len_append]

/-- A position in bytes at which a character of a text begins, or the text ends. -/
def IsBoundary (source : String) (position : Nat) : Prop :=
  String.Pos.Raw.IsValid source ⟨position⟩

/-- The bytes of a text from a position on are some characters, and no part of another. -/
structure IsSlice (source : String) (start : Nat) (text : List Char) : Prop where
  starts : IsBoundary source start
  stops : IsBoundary source (start + byteLength text)
  reads : String.Pos.Raw.extract source ⟨start⟩ ⟨start + byteLength text⟩ = String.ofList text

/-- Some characters are left of a text, and those in front are as long as a position says. -/
def Stands (source : String) (position : Nat) (cs : List Char) : Prop :=
  ∃ before, source.toList = before ++ cs ∧ position = byteLength before

section Stands

variable {source : String} {position : Nat} {c : Char} {cs text rest : List Char}

theorem stands_start (source : String) : Stands source 0 source.toList :=
  ⟨[], rfl, rfl⟩

theorem Stands.append (h : Stands source position (text ++ rest)) :
    Stands source (position + byteLength text) rest := by
  obtain ⟨before, hsource, rfl⟩ := h
  exact ⟨before ++ text, by rw [hsource, List.append_assoc], (byteLength_append before text).symm⟩

theorem Stands.isBoundary (h : Stands source position cs) : IsBoundary source position := by
  obtain ⟨before, hsource, rfl⟩ := h
  refine String.Pos.Raw.isValid_iff_exists_append.mpr
    ⟨String.ofList before, String.ofList cs, ?_, ?_⟩
  · rw [← String.ofList_append, ← hsource, String.ofList_toList]
  · rw [String.rawEndPos_ofList, byteLength_eq_utf8Len]

theorem Stands.isSlice (h : Stands source position (text ++ rest)) :
    IsSlice source position text := by
  refine ⟨h.isBoundary, h.append.isBoundary, ?_⟩
  obtain ⟨before, hsource, rfl⟩ := h
  rw [← String.ofList_toList (s := source), hsource, ← List.append_assoc, byteLength_eq_utf8Len,
    byteLength_eq_utf8Len]
  exact String.extract_of_valid before text rest

theorem Stands.lt (h : Stands source position (c :: rest)) : position < source.utf8ByteSize := by
  obtain ⟨before, hsource, rfl⟩ := h
  rw [← String.utf8Len_toList, hsource, String.utf8Len_append, ← byteLength_eq_utf8Len,
    String.utf8Len_cons]
  have := c.utf8Size_pos
  omega

end Stands

/-! ## Steps of the reader -/

/-- One step of the reader: past a blank, or past a token. -/
inductive TokenStep : Nat × List Char → Nat × List Char → Prop
  | blank {position : Nat} {c : Char} {rest : List Char} (hc : Text.isBlank c = true) :
      TokenStep (position, c :: rest) (position + c.utf8Size, rest)
  | token {position : Nat} {c : Char} {rest : List Char} {s : Scanned (c :: rest)}
      (hc : Text.isBlank c = false) (hs : scan c rest = .ok s) :
      TokenStep (position, c :: rest) (position + byteLength s.text, s.rest)

/-- Reading a text comes to a position, with some characters left. -/
def Reaches (source : String) (position : Nat) (cs : List Char) : Prop :=
  Relation.ReflTransGen TokenStep (0, source.toList) (position, cs)

theorem Stands.step {source : String} {state state' : Nat × List Char}
    (h : Stands source state.1 state.2) (hstep : TokenStep state state') :
    Stands source state'.1 state'.2 := by
  cases hstep with
  | @blank position c rest _ => exact @Stands.append source position [c] rest h
  | @token position c rest s _ _ => exact Stands.append (by rwa [s.splits])

theorem Reaches.stands {source : String} {position : Nat} {cs : List Char}
    (h : Reaches source position cs) : Stands source position cs := by
  have hstands : ∀ state, Relation.ReflTransGen TokenStep (0, source.toList) state →
      Stands source state.1 state.2 := by
    intro state hsteps
    induction hsteps with
    | refl => exact stands_start source
    | tail _ hstep ih => exact ih.step hstep
  exact hstands _ h

/-- A literal that is no number is what the text goes on with. -/
theorem scan_badNumber {c : Char} {rest : List Char} {literal : String}
    (h : scan c rest = .error (.badNumber literal)) :
    ∃ rest', literal.toList ++ rest' = c :: rest := by
  unfold scan at h
  split at h
  case h_15 | h_16 =>
    unfold scanText at h
    split at h <;> cases h
  case h_17 =>
    split at h
    · cases h
    · split at h
      · unfold scanNumber at h
        dsimp only at h
        split at h
        · cases h
        · cases h
          exact ⟨_, by rw [String.toList_ofList, List.cons_append, List.takeWhile_append_dropWhile]⟩
      · split at h <;> cases h
  all_goals cases h

/-- What is taken off a text, as a token or as a literal that is none, is a slice of it. -/
theorem Reaches.isSlice {source : String} {position : Nat} {c : Char} {rest : List Char}
    (h : Reaches source position (c :: rest)) :
    (∀ s, scan c rest = .ok s →
      IsSlice source position s.text ∧ ∃ continues, TokenText s.token s.text continues) ∧
    ∀ literal, scan c rest = .error (.badNumber literal) →
      IsSlice source position literal.toList := by
  constructor
  · intro s hs
    obtain ⟨continues, htoken, -⟩ := scan_tokenText hs
    exact ⟨Stands.isSlice (by rw [s.splits]; exact h.stands), continues, htoken⟩
  · intro literal hliteral
    obtain ⟨rest', hrest'⟩ := scan_badNumber hliteral
    exact Stands.isSlice (by rw [hrest']; exact h.stands)

/-- A fault is met where no token begins. -/
theorem tokensFrom_eq_error {position : Nat} {cs : List Char} {problem : Malformed}
    (h : tokensFrom position cs = .error problem) :
    ∃ c rest, Relation.ReflTransGen TokenStep (position, cs) (problem.position, c :: rest) ∧
      scan c rest = .error problem.fault := by
  fun_induction tokensFrom position cs with
  | case1 => cases h
  | case2 position c rest hc ih =>
      obtain ⟨c', rest', hsteps, hfault⟩ := ih h
      exact ⟨c', rest', .head (.blank hc) hsteps, hfault⟩
  | case3 position c rest hc fault hs =>
      cases h
      exact ⟨c, rest, .refl, hs⟩
  | case4 position c rest hc s hs e he ih =>
      cases h
      obtain ⟨c', rest', hsteps, hfault⟩ := ih he
      exact ⟨c', rest', .head (.token (by simpa using hc) hs) hsteps, hfault⟩
  | case5 => cases h

/-! ## The tokens tile the text -/

/-- Some tokens, each at its position, are a text, but for blanks in front of, between and behind
them. -/
structure TiledBy (source : String) (lexemes : List Lexeme) : Prop where
  increasing : (lexemes.map (·.position)).Pairwise (· < ·)
  inside : ∀ lexeme ∈ lexemes, lexeme.position < source.utf8ByteSize
  written : ∀ lexeme ∈ lexemes, ∃ continues, TokenText lexeme.token lexeme.text continues
  slices : ∀ lexeme ∈ lexemes, IsSlice source lexeme.position lexeme.text
  covers : ∃ gaps last, gaps.length = lexemes.length ∧
    (∀ gap ∈ last :: gaps, ∀ c ∈ gap, Text.isBlank c = true) ∧
    source.toList =
      (List.zipWith (fun gap lexeme => gap ++ lexeme.text) gaps lexemes).flatten ++ last

theorem Tiles.position_le {position : Nat} {lexemes : List Lexeme} {cs : List Char}
    (h : Tiles position lexemes cs) : ∀ lexeme ∈ lexemes, position ≤ lexeme.position := by
  induction h with
  | last _ => exact List.forall_mem_nil _
  | @token position gap rest lexeme lexemes _ _ hposition _ _ _ ih =>
      refine List.forall_mem_cons.mpr ⟨by omega, fun other hother => ?_⟩
      have := ih other hother
      omega

theorem TokenText.byteLength_pos {token : Token} {text : List Char} {continues : Char → Bool}
    (h : TokenText token text continues) : 0 < byteLength text := by
  obtain ⟨c, used, rfl, -⟩ := h.exists_cons
  exact Nat.add_pos_left c.utf8Size_pos _

theorem Tiles.increasing {position : Nat} {lexemes : List Lexeme} {cs : List Char}
    (h : Tiles position lexemes cs) : (lexemes.map (·.position)).Pairwise (· < ·) := by
  induction h with
  | last _ => exact .nil
  | token _ _ htoken _ hrest ih =>
      refine .cons (List.forall_mem_map.mpr fun other hother => ?_) ih
      exact Nat.lt_of_lt_of_le (Nat.lt_add_of_pos_right htoken.byteLength_pos)
        (hrest.position_le other hother)

theorem Tiles.written {position : Nat} {lexemes : List Lexeme} {cs : List Char}
    (h : Tiles position lexemes cs) :
    ∀ lexeme ∈ lexemes, ∃ continues, TokenText lexeme.token lexeme.text continues := by
  induction h with
  | last _ => exact List.forall_mem_nil _
  | token _ _ htoken _ _ ih => exact List.forall_mem_cons.mpr ⟨⟨_, htoken⟩, ih⟩

theorem Tiles.covers {position : Nat} {lexemes : List Lexeme} {cs : List Char}
    (h : Tiles position lexemes cs) :
    ∃ gaps last, gaps.length = lexemes.length ∧
      (∀ gap ∈ last :: gaps, ∀ c ∈ gap, Text.isBlank c = true) ∧
      cs = (List.zipWith (fun gap lexeme => gap ++ lexeme.text) gaps lexemes).flatten ++ last := by
  induction h with
  | @last _ gap hgap => exact ⟨[], gap, rfl, by simpa using hgap, rfl⟩
  | @token _ gap _ _ _ _ hgap _ _ _ _ ih =>
      obtain ⟨gaps, last, hlength, hblank, rfl⟩ := ih
      obtain ⟨hlast, hgaps⟩ := List.forall_mem_cons.mp hblank
      exact ⟨gap :: gaps, last, by simp [hlength],
        List.forall_mem_cons.mpr ⟨hlast, List.forall_mem_cons.mpr ⟨hgap, hgaps⟩⟩, by simp⟩

/-- At each token the reader stands in front of its text. -/
theorem Tiles.stands {source : String} {position : Nat} {lexemes : List Lexeme} {cs : List Char}
    (h : Tiles position lexemes cs) (hsource : Stands source position cs) :
    ∀ lexeme ∈ lexemes, ∃ rest, Stands source lexeme.position (lexeme.text ++ rest) := by
  induction h with
  | last _ => exact List.forall_mem_nil _
  | @token _ _ rest _ _ _ _ hposition _ _ _ ih =>
      have hlexeme := hsource.append
      rw [← hposition] at hlexeme
      exact List.forall_mem_cons.mpr ⟨⟨rest, hlexeme⟩, ih hlexeme.append⟩

theorem tiledBy_of_tokens {source : String} {lexemes : List Lexeme}
    (h : tokens source = .ok lexemes) : TiledBy source lexemes := by
  have htiles : Tiles 0 lexemes source.toList := tokensFrom_eq_ok_iff.mp h
  have hstands := htiles.stands (stands_start source)
  refine ⟨htiles.increasing, ?_, htiles.written, ?_, htiles.covers⟩
  · intro lexeme hlexeme
    obtain ⟨rest, hrest⟩ := hstands lexeme hlexeme
    obtain ⟨continues, htoken⟩ := htiles.written lexeme hlexeme
    obtain ⟨c, used, htext, -⟩ := htoken.exists_cons
    rw [htext] at hrest
    exact hrest.lt
  · intro lexeme hlexeme
    obtain ⟨rest, hrest⟩ := hstands lexeme hlexeme
    exact hrest.isSlice

/-! ## Where a fault of the grammar is -/

/-- A position is where one of some tokens begins, or where the text ends. -/
def Points (context : ParseContext) (input : List Lexeme) (position : Nat) : Prop :=
  position = context.finish ∨ ∃ lexeme ∈ input, position = lexeme.position

theorem Points.mono {context : ParseContext} {input rest : List Lexeme} {position : Nat}
    (h : Points context rest position) (hrest : rest ⊆ input) : Points context input position :=
  h.imp_right fun ⟨lexeme, hlexeme, heq⟩ => ⟨lexeme, hrest hlexeme, heq⟩

theorem points_positionOf (context : ParseContext) (input : List Lexeme) :
    Points context input (context.positionOf input) := by
  cases input with
  | nil => exact .inl rfl
  | cons lexeme input => exact .inr ⟨lexeme, List.mem_cons_self .., rfl⟩

theorem pathRest_points (context : ParseContext) (input : List Lexeme) {problem : Malformed}
    (h : pathRest context input = .error (.malformed problem)) :
    Points context input problem.position := by
  fun_induction pathRest context input with
  | case1 t₁ p₁ name t₂ p₂ input e he ih =>
      cases h
      exact (ih he).mono fun _ hmem => List.mem_cons_of_mem _ (List.mem_cons_of_mem _ hmem)
  | case2 => cases h
  | case3 =>
      cases h
      exact (points_positionOf context _).mono (List.subset_cons_self ..)
  | case4 => cases h

mutual

theorem readOperand_points (context : ParseContext) (input : List Lexeme) {problem : Malformed}
    (h : readOperand context input = .error (.malformed problem)) :
    Points context input problem.position := by
  rw [readOperand.eq_def] at h
  split at h
  · cases h
    exact .inl rfl
  · next token text position rest =>
    have hfirst : Points context (⟨token, text, position⟩ :: rest) position :=
      .inr ⟨_, List.mem_cons_self .., rfl⟩
    split at h
    · cases h
    · cases h
    · split at h
      · next he =>
        cases h
        exact (readDisjunction_points context rest he).mono (List.subset_cons_self ..)
      · split at h
        · cases h
        · cases h
          exact hfirst
    · split at h
      · split at h <;> cases h
      · cases h
        exact hfirst
    · split at h
      · cases h
      · split at h
        · next he =>
          cases h
          exact (pathRest_points context rest he).mono (List.subset_cons_self ..)
        · cases h
    · cases h
      exact hfirst
termination_by 6 * input.length

theorem readComparison_points (context : ParseContext) (input : List Lexeme) {problem : Malformed}
    (h : readComparison context input = .error (.malformed problem)) :
    Points context input problem.position := by
  rw [readComparison.eq_def] at h
  split at h
  · next he =>
    cases h
    exact readOperand_points context input he
  · next left hleft =>
    obtain ⟨used, _, hsplit, _⟩ := readOperand_sound context input hleft
    split at h
    · next op text position rest hrest =>
      rw [hrest] at hsplit
      split at h
      · split at h
        · next he =>
          cases h
          have shorter := left.length_lt_of_rest hrest
          exact (readOperand_points context rest he).mono (by simp [hsplit])
        · cases h
      · cases h
    · cases h
termination_by 6 * input.length + 1

theorem readNegation_points (context : ParseContext) (input : List Lexeme) {problem : Malformed}
    (h : readNegation context input = .error (.malformed problem)) :
    Points context input problem.position := by
  rw [readNegation.eq_def] at h
  split at h
  · next text position rest =>
    split at h
    · next he =>
      cases h
      exact (readNegation_points context rest he).mono (List.subset_cons_self ..)
    · cases h
  · exact readComparison_points context input h
termination_by 6 * input.length + 2

theorem readConjuncts_points (context : ParseContext) (input : List Lexeme) {problem : Malformed}
    (h : readConjuncts context input = .error (.malformed problem)) :
    Points context input problem.position := by
  rw [readConjuncts.eq_def] at h
  split at h
  · next he =>
    cases h
    exact readNegation_points context input he
  · next first hfirst =>
    obtain ⟨used, _, hsplit, _⟩ := readNegation_sound context input hfirst
    split at h
    · next text position rest hrest =>
      rw [hrest] at hsplit
      split at h
      · next he =>
        cases h
        have shorter := first.length_lt_of_rest hrest
        exact (readConjuncts_points context rest he).mono (by simp [hsplit])
      · cases h
    · cases h
termination_by 6 * input.length + 3

theorem readDisjuncts_points (context : ParseContext) (input : List Lexeme) {problem : Malformed}
    (h : readDisjuncts context input = .error (.malformed problem)) :
    Points context input problem.position := by
  rw [readDisjuncts.eq_def] at h
  split at h
  · next he =>
    cases h
    exact readConjuncts_points context input he
  · next conjuncts hconjuncts =>
    obtain ⟨used, _, _, hsplit, _⟩ := readConjuncts_sound context input hconjuncts
    dsimp only at h
    split at h
    · next text position rest hrest =>
      rw [hrest] at hsplit
      split at h
      · next he =>
        cases h
        have shorter := conjuncts.length_lt_of_rest hrest
        exact (readDisjuncts_points context rest he).mono (by simp [hsplit])
      · cases h
    · cases h
termination_by 6 * input.length + 4

theorem readDisjunction_points (context : ParseContext) (input : List Lexeme) {problem : Malformed}
    (h : readDisjunction context input = .error (.malformed problem)) :
    Points context input problem.position := by
  rw [readDisjunction.eq_def] at h
  split at h
  · next he =>
    cases h
    exact readDisjuncts_points context input he
  · cases h
termination_by 6 * input.length + 5

end

/-- A fault of the grammar is where a token begins, or where the text ends. -/
theorem ofTokens_points {context : ParseContext} {lexemes : List Lexeme} {problem : Malformed}
    (h : Expression.ofTokens context lexemes = .error (.malformed problem)) :
    Points context lexemes problem.position := by
  unfold Expression.ofTokens at h
  split at h
  · next he =>
    cases h
    exact readDisjunction_points context lexemes he
  · next read hread =>
    obtain ⟨used, _, hsplit, _⟩ := readDisjunction_sound context lexemes hread
    split at h
    · cases h
    · next lexeme others hrest =>
      cases h
      exact .inr ⟨lexeme, by simp [hsplit, hrest], rfl⟩

/-! ## The whole text -/

theorem IsBoundary.le {source : String} {position : Nat} (h : IsBoundary source position) :
    position ≤ source.utf8ByteSize :=
  String.Pos.Raw.IsValid.le_utf8ByteSize h

theorem isBoundary_end (source : String) : IsBoundary source source.utf8ByteSize := by
  have hend : Stands source (byteLength source.toList) [] := ⟨source.toList, by simp, rfl⟩
  rw [byteLength_eq_utf8Len, String.utf8Len_toList] at hend
  exact hend.isBoundary

theorem isBoundary_of_parse {known : List String} {source : String} {problem : Malformed}
    (h : Expression.parse known source = .error (.malformed problem)) :
    IsBoundary source problem.position := by
  unfold Expression.parse at h
  split at h
  · next he =>
    cases h
    obtain ⟨c, rest, hreaches, -⟩ := tokensFrom_eq_error he
    exact (Reaches.stands hreaches).isBoundary
  · next lexemes hlexemes =>
    rcases ofTokens_points h with hend | ⟨lexeme, hmem, hposition⟩
    · rw [hend]
      exact isBoundary_end source
    · rw [hposition]
      exact ((tiledBy_of_tokens hlexemes).slices lexeme hmem).starts

/-- The tokens of a text tile it, with blanks between them, in front of them and behind them; each
begins behind the one in front of it, inside the text. What is taken off a text on the way, as a
token or as a literal that is no number, is a slice of it between two characters, whether or not
there are tokens to its end. Every fault of a text, met by its tokens or by the grammar, is between
two characters of it, or at an end. -/
theorem tokens_tile (source : String) :
    (∀ lexemes, tokens source = .ok lexemes → TiledBy source lexemes) ∧
    (∀ position c rest, Reaches source position (c :: rest) →
      (∀ s, scan c rest = .ok s →
        IsSlice source position s.text ∧ ∃ continues, TokenText s.token s.text continues) ∧
      ∀ literal, scan c rest = .error (.badNumber literal) →
        IsSlice source position literal.toList) ∧
    (∀ problem, tokens source = .error problem →
      IsBoundary source problem.position ∧ problem.position ≤ source.utf8ByteSize ∧
      ∃ c rest, Reaches source problem.position (c :: rest) ∧
        scan c rest = .error problem.fault) ∧
    ∀ known problem, Expression.parse known source = .error (.malformed problem) →
      IsBoundary source problem.position ∧ problem.position ≤ source.utf8ByteSize := by
  refine ⟨fun _ => tiledBy_of_tokens, fun _ _ _ => Reaches.isSlice, ?_, ?_⟩
  · intro problem h
    obtain ⟨c, rest, hreaches, hscan⟩ := tokensFrom_eq_error h
    have hboundary := (Reaches.stands hreaches).isBoundary
    exact ⟨hboundary, hboundary.le, c, rest, hreaches, hscan⟩
  · intro known problem h
    have hboundary := isBoundary_of_parse h
    exact ⟨hboundary, hboundary.le⟩

/-- Characters of two bytes stand in front of the tokens, of a literal that is no number and of the
end that a value is missing at. -/
theorem tokens_tile_multibyte :
    TiledBy "größe == 'ü'"
      [⟨.word "größe", ['g', 'r', 'ö', 'ß', 'e'], 0⟩, ⟨.operator .equal, ['=', '='], 8⟩,
        ⟨.text "ü", ['\'', 'ü', '\''], 11⟩] ∧
    IsSlice "größe > 1.2.3" 10 ['1', '.', '2', '.', '3'] ∧
    IsBoundary "größe >" 9 ∧ 9 ≤ "größe >".utf8ByteSize := by
  refine ⟨(tokens_tile _).1 _ (by decide +kernel), ?_, ?_⟩
  · have h : tokens "größe > 1.2.3" = .error ⟨10, .badNumber "1.2.3"⟩ := by decide +kernel
    obtain ⟨-, htaken, hfault, -⟩ := tokens_tile "größe > 1.2.3"
    obtain ⟨-, -, c, rest, hreaches, hscan⟩ := hfault _ h
    exact (htaken _ _ _ hreaches).2 _ hscan
  · have h : tokens "größe >" =
        .ok [⟨.word "größe", ['g', 'r', 'ö', 'ß', 'e'], 0⟩, ⟨.operator .greater, ['>'], 8⟩] := by
      decide +kernel
    refine (tokens_tile _).2.2.2 [] ⟨9, .endOfText⟩ ?_
    have hsize : "größe >".utf8ByteSize = 9 := by decide +kernel
    simp [Expression.parse, h, hsize, Expression.ofTokens, readDisjunction, readDisjuncts,
      readConjuncts, readNegation, readComparison, readOperand, wordLiteral?, pathRest,
      Operator.isComparison]

end Questionnaire
