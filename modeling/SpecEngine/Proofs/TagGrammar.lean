/-
# SpecEngine.Proofs.TagGrammar -- the grammar of tag expressions

A text falls into symbols in one way only: its operator characters, and the tags that the pieces
between them spell. The symbols are read as an expression when this grammar derives them, and then
as the one that it derives, both binary operators nested to the left:

    Or    ::= And ('|' And)*
    And   ::= Unary ('&' Unary)*
    Unary ::= '!' Unary | '(' Or ')' | tag

A reading is a derivation of the symbols that it takes; this follows the calls of the reader. The
other way follows the derivation. What is read of a phrase depends on what comes after it only where
an operator may go on with it, so a conjunction is read up to the point where the next symbol is
looked at for a `&`, and a disjunction up to the same point for a `|`. That the fuel lasts is part
of it: four calls for each symbol are enough.
-/
import SpecEngine.Proofs.Readings
import SpecEngine.Tag.Expr

namespace SpecEngine.Tag

/-! ## Symbols -/

/-- A text without an operator character. -/
def IsPiece (cs : List Char) : Prop := ∀ c ∈ cs, operator? c = none

/-- What a piece between operators spells: nothing if it is blank, otherwise one tag. -/
inductive PieceSpells (cs : List Char) : List Token → Prop
  | blank : Text.trimChars cs = [] → PieceSpells cs []
  | tag : Text.trimChars cs ≠ [] →
      PieceSpells cs [.tag (String.ofList (Text.lowerChars (Text.trimChars cs)))]

/-- A text falls into symbols: its operators and what the pieces between them spell. -/
inductive Cut : List Char → List Token → Prop
  | piece {cs ts} : IsPiece cs → PieceSpells cs ts → Cut cs ts
  | operator {cs ts c o rest us} : IsPiece cs → PieceSpells cs ts → operator? c = some o →
      Cut rest us → Cut (cs ++ c :: rest) (ts ++ .op o :: us)

theorem normal_ofList (cs : List Char) :
    normal (String.ofList cs) = String.ofList (Text.lowerChars (Text.trimChars cs)) := by
  simp [normal, Text.lower, Text.trim]

theorem pieceSpells_iff {cs : List Char} {ts : List Token} :
    PieceSpells cs ts ↔ ts = tagOf cs := by
  rw [tagOf]
  split
  next hblank =>
    have htrim := Text.trimChars_eq_nil_iff.mpr hblank
    constructor
    · rintro (_ | hne)
      · rfl
      · exact absurd htrim hne
    · rintro rfl
      exact .blank htrim
  next hsome =>
    have htrim := mt Text.trimChars_eq_nil_iff.mp hsome
    rw [normal_ofList]
    constructor
    · rintro (hnil | _)
      · exact absurd hnil htrim
      · rfl
    · rintro rfl
      exact .tag htrim

theorem tokensFrom_piece {cs : List Char} (h : IsPiece cs) (piece rest : List Char) :
    tokensFrom piece (cs ++ rest) = tokensFrom (cs.reverse ++ piece) rest := by
  induction cs generalizing piece with
  | nil => rfl
  | cons c cs ih =>
    obtain ⟨hc, hcs⟩ := List.forall_mem_cons.mp h
    rw [List.cons_append, tokensFrom, hc, List.reverse_cons, List.append_assoc]
    exact ih hcs _

theorem tokensFrom_operator {c : Char} {o : Operator} (h : operator? c = some o)
    (piece cs rest : List Char) :
    tokensFrom piece (cs ++ c :: rest) = tokensFrom piece cs ++ .op o :: tokens rest := by
  induction cs generalizing piece with
  | nil => simp [tokensFrom, h, tokens]
  | cons d cs ih =>
    rw [List.cons_append, tokensFrom, tokensFrom]
    cases operator? d with
    | none => exact ih _
    | some o' =>
      show tagOf piece.reverse ++ .op o' :: tokensFrom [] (cs ++ c :: rest) = _
      rw [ih, List.append_assoc, List.cons_append]

/-- The symbols on both sides of an operator are those of the texts on both sides. -/
theorem tokens_operator {c : Char} {o : Operator} (h : operator? c = some o)
    (cs rest : List Char) : tokens (cs ++ c :: rest) = tokens cs ++ .op o :: tokens rest :=
  tokensFrom_operator h [] cs rest

theorem tokens_piece {cs : List Char} (h : IsPiece cs) : tokens cs = tagOf cs := by
  have hpiece := tokensFrom_piece h [] []
  simp only [List.append_nil] at hpiece
  rw [tokens, hpiece, tokensFrom, List.reverse_reverse]

theorem Cut.tokens_eq {cs : List Char} {ts : List Token} (h : Cut cs ts) : ts = tokens cs := by
  induction h with
  | piece hpiece hspells => rw [tokens_piece hpiece, pieceSpells_iff.mp hspells]
  | operator hpiece hspells ho _ ih =>
    rw [tokens_operator ho, tokens_piece hpiece, pieceSpells_iff.mp hspells, ih]

/-- Every text is cut; what was read since the last operator is put in front. -/
theorem cut_tokensFrom {piece : List Char} (h : IsPiece piece) (cs : List Char) :
    Cut (piece.reverse ++ cs) (tokensFrom piece cs) := by
  induction cs generalizing piece with
  | nil =>
    rw [List.append_nil, tokensFrom]
    exact .piece (fun c hc => h c (List.mem_reverse.mp hc)) (pieceSpells_iff.mpr rfl)
  | cons c cs ih =>
    rw [tokensFrom]
    split
    next o ho =>
      have hempty : IsPiece [] := fun _ hc => absurd hc List.not_mem_nil
      exact .operator (fun c hc => h c (List.mem_reverse.mp hc)) (pieceSpells_iff.mpr rfl) ho
        (ih hempty)
    next hnone =>
      have hcut := ih (List.forall_mem_cons.mpr ⟨hnone, h⟩)
      rwa [List.reverse_cons, List.append_assoc] at hcut

theorem cut_iff {cs : List Char} {ts : List Token} : Cut cs ts ↔ ts = tokens cs := by
  refine ⟨Cut.tokens_eq, ?_⟩
  rintro rfl
  exact cut_tokensFrom (fun _ hc => absurd hc List.not_mem_nil) cs

/-! ## The grammar -/

/-- The parts of speech of the grammar. -/
inductive Phrase where
  | disjunction | conjunction | factor

/-- The symbols spell the expression. A disjunction is one conjunction or more with `|` between
them, and a conjunction one factor or more with `&` between them; both nest to the left. -/
inductive Derives : Phrase → List Token → Expr → Prop
  | tag (name : String) : Derives .factor [.tag name] (.tag name)
  | not {ts e} : Derives .factor ts e → Derives .factor (.op .not :: ts) (.not e)
  | group {ts e} : Derives .disjunction ts e →
      Derives .factor (.op .opening :: (ts ++ [.op .closing])) e
  | factor {ts e} : Derives .factor ts e → Derives .conjunction ts e
  | and {ts us l r} : Derives .conjunction ts l → Derives .factor us r →
      Derives .conjunction (ts ++ .op .and :: us) (.and l r)
  | conjunction {ts e} : Derives .conjunction ts e → Derives .disjunction ts e
  | or {ts us l r} : Derives .disjunction ts l → Derives .conjunction us r →
      Derives .disjunction (ts ++ .op .or :: us) (.or l r)

theorem Derives.length_pos {p : Phrase} {ts : List Token} {e : Expr} (h : Derives p ts e) :
    0 < ts.length := by
  induction h with
  | tag | not | group => simp
  | and | or =>
    rw [List.length_append, List.length_cons]
    omega
  | factor _ ih | conjunction _ ih => exact ih

/-! ## Readings are derivations -/

/-- What was read in front of the rest spells the expression. -/
def Reads (p : Phrase) (ts : List Token) (e : Expr) (rest : List Token) : Prop :=
  ∃ used, ts = used ++ rest ∧ Derives p used e

/-- What was read in front of the rest, with what stands before it, spells the expression. -/
def ReadsOn (p : Phrase) (l : Expr) (ts : List Token) (e : Expr) (rest : List Token) : Prop :=
  ∀ before, Derives p before l → ∃ used, ts = used ++ rest ∧ Derives p (before ++ used) e

mutual

theorem readOr_reads : ∀ (fuel : Nat) {ts : List Token} {e : Expr} {rest : List Token},
    readOr fuel ts = .ok (e, rest) → Reads .disjunction ts e rest
  | 0, _, _, _, h => by cases h
  | fuel + 1, ts, e, rest, h => by
    obtain ⟨⟨l, more⟩, hand, hrest⟩ := bind_eq_ok h
    obtain ⟨used, rfl, hused⟩ := readAnd_reads fuel hand
    obtain ⟨used', rfl, hused'⟩ := readOrRest_reads fuel hrest used (.conjunction hused)
    exact ⟨used ++ used', (List.append_assoc ..).symm, hused'⟩

theorem readOrRest_reads : ∀ (fuel : Nat) {l : Expr} {ts : List Token} {e : Expr}
    {rest : List Token}, readOrRest fuel l ts = .ok (e, rest) → ReadsOn .disjunction l ts e rest
  | 0, _, _, _, _, h => by cases h
  | fuel + 1, l, ts, e, rest, h => by
    intro before hbefore
    unfold readOrRest at h
    split at h
    next => cases h
    next ts _ =>
      obtain ⟨⟨r, more⟩, hand, hrest⟩ := bind_eq_ok h
      obtain ⟨used, rfl, hused⟩ := readAnd_reads _ hand
      obtain ⟨used', rfl, hused'⟩ := readOrRest_reads _ hrest _ (.or hbefore hused)
      exact ⟨.op .or :: (used ++ used'), by simp, by simpa using hused'⟩
    next =>
      cases h
      exact ⟨[], rfl, by rwa [List.append_nil]⟩

theorem readAnd_reads : ∀ (fuel : Nat) {ts : List Token} {e : Expr} {rest : List Token},
    readAnd fuel ts = .ok (e, rest) → Reads .conjunction ts e rest
  | 0, _, _, _, h => by cases h
  | fuel + 1, ts, e, rest, h => by
    obtain ⟨⟨l, more⟩, hunary, hrest⟩ := bind_eq_ok h
    obtain ⟨used, rfl, hused⟩ := readUnary_reads fuel hunary
    obtain ⟨used', rfl, hused'⟩ := readAndRest_reads fuel hrest used (.factor hused)
    exact ⟨used ++ used', (List.append_assoc ..).symm, hused'⟩

theorem readAndRest_reads : ∀ (fuel : Nat) {l : Expr} {ts : List Token} {e : Expr}
    {rest : List Token}, readAndRest fuel l ts = .ok (e, rest) → ReadsOn .conjunction l ts e rest
  | 0, _, _, _, _, h => by cases h
  | fuel + 1, l, ts, e, rest, h => by
    intro before hbefore
    unfold readAndRest at h
    split at h
    next => cases h
    next ts _ =>
      obtain ⟨⟨r, more⟩, hunary, hrest⟩ := bind_eq_ok h
      obtain ⟨used, rfl, hused⟩ := readUnary_reads _ hunary
      obtain ⟨used', rfl, hused'⟩ := readAndRest_reads _ hrest _ (.and hbefore hused)
      exact ⟨.op .and :: (used ++ used'), by simp, by simpa using hused'⟩
    next =>
      cases h
      exact ⟨[], rfl, by rwa [List.append_nil]⟩

theorem readUnary_reads : ∀ (fuel : Nat) {ts : List Token} {e : Expr} {rest : List Token},
    readUnary fuel ts = .ok (e, rest) → Reads .factor ts e rest
  | 0, _, _, _, h => by cases h
  | fuel + 1, ts, e, rest, h => by
    unfold readUnary at h
    split at h
    next => cases h
    next =>
      obtain ⟨⟨e', more⟩, hunary, hdone⟩ := bind_eq_ok h
      obtain ⟨used, rfl, hused⟩ := readUnary_reads _ hunary
      cases hdone
      exact ⟨.op .not :: used, rfl, .not hused⟩
    next =>
      obtain ⟨⟨e', more⟩, hor, hdone⟩ := bind_eq_ok h
      obtain ⟨used, rfl, hused⟩ := readOr_reads _ hor
      split at hdone
      next heq =>
        cases heq
        cases hdone
        exact ⟨.op .opening :: (used ++ [.op .closing]), by simp, .group hused⟩
      next => cases hdone
    next name _ _ =>
      cases h
      exact ⟨[.tag name], rfl, .tag name⟩
    next => cases h
    next => cases h

end

/-! ## Derivations are read -/

theorem readAndRest_stops (fuel : Nat) (l : Expr) {ts : List Token}
    (h : ts.head? ≠ some (.op .and)) : readAndRest (fuel + 1) l ts = .ok (l, ts) := by
  rw [readAndRest]
  rintro more rfl
  exact h rfl

theorem readOrRest_stops (fuel : Nat) (l : Expr) {ts : List Token}
    (h : ts.head? ≠ some (.op .or)) : readOrRest (fuel + 1) l ts = .ok (l, ts) := by
  rw [readOrRest]
  rintro more rfl
  exact h rfl

/-- With four calls for each symbol the phrase is read as the expression, whatever follows. A phrase
that may go on is read up to where it is decided whether it does. -/
def ReadAs : Phrase → List Token → Expr → Prop
  | .factor, ts, e => ∀ fuel rest, 4 * ts.length ≤ fuel →
      readUnary fuel (ts ++ rest) = .ok (e, rest)
  | .conjunction, ts, e => ∀ fuel rest, 4 * ts.length < fuel →
      ∃ fuel', fuel ≤ fuel' + ts.length ∧ readAnd fuel (ts ++ rest) = readAndRest fuel' e rest
  | .disjunction, ts, e => ∀ fuel rest, 4 * ts.length + 1 < fuel → rest.head? ≠ some (.op .and) →
      ∃ fuel', fuel ≤ fuel' + ts.length ∧ readOr fuel (ts ++ rest) = readOrRest fuel' e rest

theorem Derives.readAs {p : Phrase} {ts : List Token} {e : Expr} (h : Derives p ts e) :
    ReadAs p ts e := by
  induction h with
  | tag name =>
    intro fuel rest hfuel
    obtain _ | fuel := fuel
    · simp at hfuel
    · rfl
  | @not ts e _ ih =>
    intro fuel rest hfuel
    rw [List.length_cons] at hfuel
    obtain _ | fuel := fuel
    · omega
    · have hread := ih fuel rest (by omega)
      rw [List.cons_append, readUnary, hread]
      rfl
  | @group ts e _ ih =>
    intro fuel rest hfuel
    rw [List.length_cons, List.length_append, List.length_singleton] at hfuel
    obtain _ | fuel := fuel
    · omega
    · obtain ⟨fuel', hle, hread⟩ := ih fuel (.op .closing :: rest) (by omega) (by simp)
      obtain ⟨left, rfl⟩ : ∃ left, fuel' = left + 1 := ⟨fuel' - 1, by omega⟩
      rw [readOrRest_stops left e (by simp)] at hread
      rw [List.cons_append, List.append_assoc, List.singleton_append, readUnary, hread]
      rfl
  | @factor ts e hts ih =>
    intro fuel rest hfuel
    have hpos := hts.length_pos
    obtain _ | fuel := fuel
    · omega
    · refine ⟨fuel, by omega, ?_⟩
      rw [readAnd, ih fuel rest (by omega)]
      rfl
  | @and ts us l r _ _ ihl ihr =>
    intro fuel rest hfuel
    rw [List.length_append, List.length_cons] at hfuel ⊢
    obtain ⟨fuel', hle, hread⟩ := ihl fuel (.op .and :: (us ++ rest)) (by omega)
    obtain ⟨left, rfl⟩ : ∃ left, fuel' = left + 1 := ⟨fuel' - 1, by omega⟩
    refine ⟨left, by omega, ?_⟩
    rw [List.append_assoc, List.cons_append, hread, readAndRest, ihr left rest (by omega)]
    rfl
  | @conjunction ts e hts ih =>
    intro fuel rest hfuel hrest
    have hpos := hts.length_pos
    obtain _ | fuel := fuel
    · omega
    · obtain ⟨fuel', hle, hread⟩ := ih fuel rest (by omega)
      obtain ⟨left, rfl⟩ : ∃ left, fuel' = left + 1 := ⟨fuel' - 1, by omega⟩
      refine ⟨fuel, by omega, ?_⟩
      rw [readOr, hread, readAndRest_stops left e hrest]
      rfl
  | @or ts us l r _ _ ihl ihr =>
    intro fuel rest hfuel hrest
    rw [List.length_append, List.length_cons] at hfuel ⊢
    obtain ⟨fuel', hle, hread⟩ := ihl fuel (.op .or :: (us ++ rest)) (by omega) (by simp)
    obtain ⟨left, rfl⟩ : ∃ left, fuel' = left + 1 := ⟨fuel' - 1, by omega⟩
    obtain ⟨fuel'', hle', hread'⟩ := ihr left rest (by omega)
    obtain ⟨left', rfl⟩ : ∃ left', fuel'' = left' + 1 := ⟨fuel'' - 1, by omega⟩
    refine ⟨left, by omega, ?_⟩
    rw [List.append_assoc, List.cons_append, hread, readOrRest, hread',
      readAndRest_stops left' r hrest]
    rfl

/-- A list of symbols is read as an expression exactly when it spells it. -/
theorem ofTokens_eq_ok_iff {ts : List Token} {e : Expr} :
    Expr.ofTokens ts = .ok e ↔ Derives .disjunction ts e := by
  constructor
  · intro h
    unfold Expr.ofTokens at h
    split at h
    next => cases h
    next =>
      obtain ⟨⟨e', rest⟩, hread, hdone⟩ := bind_eq_ok h
      obtain ⟨used, rfl, hused⟩ := readOr_reads _ hread
      split at hdone
      next heq =>
        cases heq
        cases hdone
        rwa [List.append_nil]
      next => cases hdone
  · intro h
    have hpos := h.length_pos
    have hne : ts.isEmpty = false := by
      rw [List.isEmpty_eq_false_iff]
      exact List.ne_nil_of_length_pos hpos
    obtain ⟨fuel', hle, hread⟩ := h.readAs (4 * ts.length + 4) [] (by omega) (by simp)
    obtain ⟨left, rfl⟩ : ∃ left, fuel' = left + 1 := ⟨fuel' - 1, by omega⟩
    rw [List.append_nil, readOrRest_stops left e (by simp)] at hread
    rw [Expr.ofTokens, hne, hread]
    rfl

/-- The symbols of a text are read as an expression when the grammar derives them, and then as the
one that they spell, with `|` and `&` nested to the left. In every other case the text is refused,
and the fault names it as it was given, outer blanks included. -/
theorem parse_accepts_grammar (source : String) :
    ∃ ts, (∀ us, Cut source.toList us ↔ us = ts) ∧
      (∀ selector, Selector.parse source = .ok selector ↔
        Derives .disjunction ts selector.root ∧ selector.source = Text.trim source) ∧
      ((¬∃ e, Derives .disjunction ts e) →
        ∃ fault, Selector.parse source = .error ⟨source, fault⟩) := by
  refine ⟨tokens source.toList, fun us => cut_iff, fun selector => ?_, fun hnone => ?_⟩
  · rw [Selector.parse, ← ofTokens_eq_ok_iff]
    cases Expr.ofTokens (tokens source.toList) with
    | error fault => simp
    | ok root =>
      obtain ⟨text, root'⟩ := selector
      simp only [Except.ok.injEq, Selector.mk.injEq]
      rw [eq_comm (a := text), and_comm]
  · rw [Selector.parse]
    cases hread : Expr.ofTokens (tokens source.toList) with
    | error fault => exact ⟨fault, rfl⟩
    | ok root => exact absurd ⟨root, ofTokens_eq_ok_iff.mp hread⟩ hnone

end SpecEngine.Tag
