/-
# SpecEngine.Proofs.JsonText -- what is written is what is read

`Spells` is the grammar of the texts for a value, with blanks wherever the grammar allows them
between the parts. A spelling is read as the value it spells (`parse_spells`), wherever blanks stand
in it. Both written forms of a value are spellings of it (`render_spells`, `renderPretty_spells`).
The compact form is one without control characters, so it can stand on one line
(`render_printable`).

Numbers are spelled by their digits only, and strings with the shortest escapes. Literals of other
numbers and strings that are no text have no spelling here: values that hold them are not plain.
-/
import Mathlib.Data.List.DropRight
import SpecEngine.Json.Shape
import SpecEngine.Proofs.Decimals

namespace SpecEngine.Json

/-! ## Strings -/

theorem hexValue?_hexDigit : ∀ n < 16, hexValue? (hexDigit n) = some n := by decide

/-- The escape of four digits for a control character names this character. -/
theorem hexPiece?_control {c : Char} (h : c.toNat < 0x20) :
    hexPiece? '0' '0' (hexDigit (c.toNat / 16)) (hexDigit (c.toNat % 16)) = some (.char c) := by
  have hzero : hexValue? '0' = some 0 := by decide
  have hvalue : ((0 * 16 + 0) * 16 + c.toNat / 16) * 16 + c.toNat % 16 = c.toNat := by omega
  have hhalf : ¬(0xD800 ≤ c.toNat ∧ c.toNat < 0xE000) := by omega
  simp only [hexPiece?, hzero, hexValue?_hexDigit (c.toNat / 16) (by omega),
    hexValue?_hexDigit (c.toNat % 16) (by omega), bind, Option.bind_some, hvalue]
  simp [hhalf]

/-- A character is read from its escape. -/
theorem readPieces_escape (c : Char) (rest : List Char) :
    readPieces (escape c ++ rest) =
      (readPieces rest).bind fun (pieces, r) => some (.char c :: pieces, r) := by
  unfold escape
  iterate 7
    split
    · subst c; rfl
  split
  next hcontrol =>
    simp only [List.cons_append, List.nil_append, readPieces, hexPiece?_control hcontrol]
    rfl
  next hquote hbackslash _ _ _ _ _ hcontrol =>
    show readPieces (c :: rest) = _
    rw [readPieces.eq_def]
    split
    next heq => cases heq
    next heq => exact absurd (List.cons.inj heq).1 hquote
    next heq => exact absurd (List.cons.inj heq).1 hbackslash
    next heq => exact absurd (List.cons.inj heq).1 hbackslash
    next heq =>
      obtain ⟨rfl, rfl⟩ := List.cons.inj heq
      rw [if_neg (by simp [hbackslash]; omega)]
      rfl

theorem readPieces_quoted (cs rest : List Char) :
    readPieces (cs.flatMap escape ++ '"' :: rest) = some (cs.map .char, rest) := by
  induction cs with
  | nil => rfl
  | cons c cs ih => rw [List.flatMap_cons, List.append_assoc, readPieces_escape, ih]; rfl

theorem joinPieces_chars (cs : List Char) : joinPieces (cs.map .char) = some cs := by
  induction cs with
  | nil => rfl
  | cons c cs ih => rw [List.map_cons, joinPieces, ih]; rfl

/-! ## Blanks -/

/-- Nothing but blanks of the grammar. -/
def Blanks (ws : List Char) : Prop := ∀ c ∈ ws, isSpace c = true

theorem Blanks.nil : Blanks [] := by simp [Blanks]

theorem skipSpace_blanks {ws : List Char} (h : Blanks ws) (cs : List Char) :
    skipSpace (ws ++ cs) = skipSpace cs :=
  List.dropWhile_append_of_pos h

theorem skipSpace_cons {c : Char} (h : isSpace c = false) (cs : List Char) :
    skipSpace (c :: cs) = c :: cs := by
  rw [skipSpace, List.dropWhile_cons, h]
  rfl

theorem skipSpace_skipSpace (cs : List Char) : skipSpace (skipSpace cs) = skipSpace cs :=
  List.dropWhile_idempotent isSpace cs

/-! ## Numbers -/

/-- What follows does not go on with a number: neither a digit nor a point nor an exponent. -/
def EndsNumber (rest : List Char) : Prop :=
  ∀ c ∈ rest.head?, isDigit c = false ∧ c ≠ '.' ∧ c ≠ 'e' ∧ c ≠ 'E'

theorem EndsNumber.nil : EndsNumber [] := by simp [EndsNumber]

theorem EndsNumber.cons {c : Char} (cs : List Char)
    (h : isDigit c = false ∧ c ≠ '.' ∧ c ≠ 'e' ∧ c ≠ 'E') : EndsNumber (c :: cs) := by
  simpa [EndsNumber] using h

theorem isDigit_of_mem_digits {n : Nat} {c : Char} (h : c ∈ Text.Decimal.digits n) :
    isDigit c = true :=
  Text.Decimal.isSome_value?_of_mem_digits h

/-- A number begins with a digit. -/
theorem digits_head (n : Nat) :
    ∃ c tail, Text.Decimal.digits n = c :: tail ∧ isDigit c = true := by
  obtain ⟨c, tail, hcs⟩ := List.exists_cons_of_ne_nil (Text.Decimal.digits_ne_nil n)
  exact ⟨c, tail, hcs, isDigit_of_mem_digits (n := n) (by rw [hcs]; exact List.mem_cons_self)⟩

theorem readWhole_digits (n : Nat) {rest : List Char} (h : EndsNumber rest) :
    readWhole (Text.Decimal.digits n ++ rest) = some (Text.Decimal.digits n, rest) := by
  have hrest : rest.takeWhile isDigit = [] ∧ rest.dropWhile isDigit = rest := by
    cases rest with
    | nil => exact ⟨rfl, rfl⟩
    | cons c cs =>
      have hc : isDigit c = false := (h c rfl).1
      simp [hc]
  have hdigits : ∀ c ∈ Text.Decimal.digits n, isDigit c = true := fun _ => isDigit_of_mem_digits
  unfold readWhole
  split
  next tail hzero =>
    -- a zero in front is the whole number
    have hn : n = 0 := by
      apply Text.Decimal.eq_zero_of_digits_head
      obtain ⟨c, cs, hcs, -⟩ := digits_head n
      rw [hcs] at hzero ⊢
      exact congrArg some (List.cons.inj hzero).1
    subst hn
    rw [Text.Decimal.digits_zero] at hzero ⊢
    obtain rfl : rest = tail := (List.cons.inj hzero).2
    cases rest with
    | nil => rfl
    | cons c cs =>
      have hc : isDigit c = false := (h c rfl).1
      simp [hc]
  next =>
    have htake : (Text.Decimal.digits n ++ rest).takeWhile isDigit = Text.Decimal.digits n := by
      rw [List.takeWhile_append_of_pos hdigits, hrest.1, List.append_nil]
    have hdrop : (Text.Decimal.digits n ++ rest).dropWhile isDigit = rest := by
      rw [List.dropWhile_append_of_pos hdigits, hrest.2]
    simp [htake, hdrop, Text.Decimal.digits_ne_nil]

theorem readFraction_none {rest : List Char} (h : EndsNumber rest) :
    readFraction rest = some ([], rest) := by
  unfold readFraction
  split
  next => exact absurd rfl (h '.' rfl).2.1
  next => rfl

theorem readExponent_none {rest : List Char} (h : EndsNumber rest) :
    readExponent rest = some ([], rest) := by
  cases rest with
  | nil => rfl
  | cons c cs =>
    obtain ⟨-, -, he, hE⟩ := h c rfl
    simp [readExponent, he, hE]

theorem readNumber_digits (n : Nat) {rest : List Char} (h : EndsNumber rest) :
    readNumber (Text.Decimal.digits n ++ rest) = some (.natural n, rest) := by
  have hsign : ∀ tail, Text.Decimal.digits n ++ rest ≠ '-' :: tail := by
    intro tail heq
    obtain ⟨c, cs, hcs, hc⟩ := digits_head n
    rw [hcs] at heq
    obtain rfl : c = '-' := (List.cons.inj heq).1
    exact absurd hc (by decide)
  unfold readNumber
  split
  next sign tail hmatch =>
    split at hmatch
    next tail' heq => exact absurd heq (hsign tail')
    next =>
      obtain ⟨rfl, rfl⟩ := Prod.mk.inj hmatch
      simp [readWhole_digits n h, readFraction_none h, readExponent_none h,
        Text.Decimal.read_digits]

/-! ## Spellings -/

/-- The text spells a name and its colon, with the blanks around them. -/
inductive SpellsName (name : String) : List Char → Prop
  | mk {before after behind : List Char} : Blanks before → Blanks after → Blanks behind →
    SpellsName name (before ++ (quoted name ++ (after ++ ':' :: behind)))

mutual
/-- The text spells the value. Blanks may stand between its parts, but not around it. -/
inductive Spells : Value → List Char → Prop
  | null : Spells .null ['n', 'u', 'l', 'l']
  | yes : Spells (.bool true) ['t', 'r', 'u', 'e']
  | no : Spells (.bool false) ['f', 'a', 'l', 's', 'e']
  | natural (n : Nat) : Spells (.natural n) (Text.Decimal.digits n)
  | string (s : String) : Spells (.string s) (quoted s)
  | noItems {ws : List Char} : Blanks ws → Spells (.array []) ('[' :: (ws ++ [']']))
  | array {items : List Value} {cs : List Char} :
    SpellsItems items cs → Spells (.array items) ('[' :: cs)
  | noMembers {ws : List Char} : Blanks ws → Spells (.object []) ('\x7b' :: (ws ++ ['\x7d']))
  | object {members : List (String × Value)} {cs : List Char} :
    SpellsMembers members cs → Spells (.object members) ('\x7b' :: cs)
/-- The text spells the items of an array and its end. -/
inductive SpellsItems : List Value → List Char → Prop
  | last {v : Value} {before cs after : List Char} :
    Blanks before → Spells v cs → Blanks after →
      SpellsItems [v] (before ++ (cs ++ (after ++ [']'])))
  | more {v : Value} {items : List Value} {before cs after others : List Char} :
    Blanks before → Spells v cs → Blanks after → SpellsItems items others →
      SpellsItems (v :: items) (before ++ (cs ++ (after ++ ',' :: others)))
/-- The text spells the members of an object and its end. -/
inductive SpellsMembers : List (String × Value) → List Char → Prop
  | last {name : String} {v : Value} {named cs after : List Char} :
    SpellsName name named → Spells v cs → Blanks after →
      SpellsMembers [(name, v)] (named ++ (cs ++ (after ++ ['\x7d'])))
  | more {name : String} {v : Value} {members : List (String × Value)}
      {named cs after others : List Char} :
    SpellsName name named → Spells v cs → Blanks after → SpellsMembers members others →
      SpellsMembers ((name, v) :: members) (named ++ (cs ++ (after ++ ',' :: others)))
end

theorem isSpace_of_isDigit {c : Char} (h : isDigit c = true) : isSpace c = false := by
  rw [← Bool.not_eq_true]
  intro hspace
  simp only [isSpace, Bool.or_eq_true, beq_iff_eq] at hspace
  rcases hspace with ((rfl | rfl) | rfl) | rfl <;> exact absurd h (by decide)

/-- How a spelling begins: with no blank, and not with the end of an array. -/
theorem Spells.head {v : Value} {cs : List Char} (h : Spells v cs) :
    ∃ c tail, cs = c :: tail ∧ isSpace c = false ∧ c ≠ ']' := by
  cases h with
  | natural n =>
    obtain ⟨c, tail, hcs, hc⟩ := digits_head n
    refine ⟨c, tail, hcs, isSpace_of_isDigit hc, ?_⟩
    rintro rfl
    exact absurd hc (by decide)
  | _ => exact ⟨_, _, rfl, by decide, by decide⟩

/-! ## Reading spellings -/

theorem readValue_skipSpace (fuel : Nat) {cs ds : List Char} (h : skipSpace cs = skipSpace ds) :
    readValue fuel cs = readValue fuel ds := by
  cases fuel with
  | zero => rfl
  | succ fuel => rw [readValue, readValue, h]

theorem readItems_skipSpace (fuel : Nat) (cs : List Char) :
    readItems fuel (skipSpace cs) = readItems fuel cs := by
  cases fuel with
  | zero => rfl
  | succ fuel => rw [readItems, readItems, readValue_skipSpace fuel (skipSpace_skipSpace cs)]

theorem readMembers_skipSpace (fuel : Nat) (cs : List Char) :
    readMembers fuel (skipSpace cs) = readMembers fuel cs := by
  cases fuel with
  | zero => rfl
  | succ fuel => rw [readMembers, readMembers, skipSpace_skipSpace cs]

theorem readValue_natural (fuel n : Nat) {rest : List Char} (h : EndsNumber rest) :
    readValue (fuel + 1) (Text.Decimal.digits n ++ rest) = some (.natural n, rest) := by
  obtain ⟨c, tail, hcs, hc⟩ := digits_head n
  have hskip : skipSpace (Text.Decimal.digits n ++ rest) = Text.Decimal.digits n ++ rest := by
    rw [hcs, List.cons_append]
    exact skipSpace_cons (isSpace_of_isDigit hc) _
  have hhead : ∀ d tail', Text.Decimal.digits n ++ rest = d :: tail' → isDigit d = true := by
    intro d tail' heq
    rw [hcs, List.cons_append] at heq
    exact (List.cons.inj heq).1 ▸ hc
  rw [readValue, hskip]
  split
  all_goals first
    | exact absurd (hhead _ _ ‹_›) (by decide)
    | exact readNumber_digits n h

theorem readValue_string (fuel : Nat) (s : String) (rest : List Char) :
    readValue (fuel + 1) (quoted s ++ rest) = some (.string s, rest) := by
  have hskip : skipSpace (quoted s ++ rest) =
      '"' :: (s.toList.flatMap escape ++ '"' :: rest) := by
    rw [quoted, List.cons_append, List.append_assoc]
    exact skipSpace_cons (by decide) _
  rw [readValue, hskip]
  simp [readPieces_quoted, joinPieces_chars]

theorem readName_quoted (name : String) {after behind : List Char} (h : Blanks after)
    (rest : List Char) :
    readName (name.toList.flatMap escape ++ '"' :: (after ++ ':' :: (behind ++ rest))) =
      some (name, behind ++ rest) := by
  have hskip : skipSpace (after ++ ':' :: (behind ++ rest)) = ':' :: (behind ++ rest) := by
    rw [skipSpace_blanks h]
    exact skipSpace_cons (by decide) _
  simp [readName, readPieces_quoted, joinPieces_chars, hskip]

/-- What follows a value inside a container does not go on with a number. -/
theorem endsNumber_blanks {ws : List Char} (h : Blanks ws) (c : Char) (cs : List Char)
    (hc : isDigit c = false ∧ c ≠ '.' ∧ c ≠ 'e' ∧ c ≠ 'E') : EndsNumber (ws ++ c :: cs) := by
  cases ws with
  | nil => exact .cons cs hc
  | cons d ds =>
    have hd : isSpace d = true := h d List.mem_cons_self
    simp only [isSpace, Bool.or_eq_true, beq_iff_eq] at hd
    rcases hd with ((rfl | rfl) | rfl) | rfl <;> exact .cons _ (by decide)

/-- What stands in front of a value, and after it, inside a container. -/
theorem readValue_blanks (fuel : Nat) {ws : List Char} (h : Blanks ws) (cs : List Char) :
    readValue fuel (ws ++ cs) = readValue fuel cs :=
  readValue_skipSpace fuel (skipSpace_blanks h cs)

theorem skipSpace_end {ws : List Char} (h : Blanks ws) (c : Char) (hc : isSpace c = false)
    (cs : List Char) : skipSpace (ws ++ c :: cs) = c :: cs := by
  rw [skipSpace_blanks h]
  exact skipSpace_cons hc cs

/-- Items do not begin with the end of their array. -/
theorem SpellsItems.head {items : List Value} {cs : List Char} (h : SpellsItems items cs)
    (rest : List Char) : ∃ c tail, skipSpace (cs ++ rest) = c :: tail ∧ c ≠ ']' := by
  have hvalue : ∀ {v : Value} {before spelled : List Char}, Blanks before → Spells v spelled →
      ∀ tail, ∃ c tail', skipSpace (before ++ (spelled ++ tail)) = c :: tail' ∧ c ≠ ']' := by
    intro v before spelled hbefore hv tail
    obtain ⟨c, tail', rfl, hspace, hc⟩ := hv.head
    rw [List.cons_append]
    exact ⟨c, _, skipSpace_end hbefore c hspace _, hc⟩
  cases h with
  | last hbefore hv _ =>
    rw [List.append_assoc, List.append_assoc]
    exact hvalue hbefore hv _
  | more hbefore hv _ _ =>
    rw [List.append_assoc, List.append_assoc]
    exact hvalue hbefore hv _

/-- A name is read up to the blanks before its value. -/
theorem SpellsName.read {name : String} {named : List Char} (h : SpellsName name named)
    (rest : List Char) :
    ∃ tail behind, skipSpace (named ++ rest) = '"' :: tail ∧
      readName tail = some (name, behind ++ rest) ∧ Blanks behind := by
  obtain ⟨hbefore, hafter, hbehind⟩ := h
  rename_i before after behind
  refine ⟨name.toList.flatMap escape ++ '"' :: (after ++ ':' :: (behind ++ rest)), behind, ?_,
    readName_quoted name hafter rest, hbehind⟩
  have htext : before ++ (quoted name ++ (after ++ ':' :: behind)) ++ rest =
      before ++ '"' :: (name.toList.flatMap escape ++ '"' :: (after ++ ':' :: (behind ++ rest))) := by
    simp [quoted]
  rw [htext]
  exact skipSpace_end hbefore '"' (by decide) _

theorem SpellsMembers.head {members : List (String × Value)} {cs : List Char}
    (h : SpellsMembers members cs) (rest : List Char) :
    ∃ tail, skipSpace (cs ++ rest) = '"' :: tail := by
  cases h with
  | last hnamed _ _ | more hnamed _ _ _ =>
    rw [List.append_assoc]
    obtain ⟨tail, -, htail, -⟩ := hnamed.read _
    exact ⟨tail, htail⟩

mutual
/-- A spelling is read as the value it spells, if the fuel lasts for its length. -/
theorem readValue_spells : ∀ {v : Value} {cs : List Char}, Spells v cs →
    ∀ (fuel : Nat) {rest : List Char}, cs.length ≤ fuel → EndsNumber rest →
      readValue fuel (cs ++ rest) = some (v, rest)
  | _, _, .null, fuel + 1, rest, _, _ => rfl
  | _, _, .yes, fuel + 1, rest, _, _ => rfl
  | _, _, .no, fuel + 1, rest, _, _ => rfl
  | _, _, .natural n, fuel + 1, rest, _, hrest => readValue_natural fuel n hrest
  | _, _, .string s, fuel + 1, rest, _, _ => readValue_string fuel s rest
  | _, _, @Spells.noItems ws hws, fuel + 1, rest, _, _ => by
    have hend : skipSpace (ws ++ [']'] ++ rest) = ']' :: rest := by
      rw [List.append_assoc]
      exact skipSpace_end hws _ (by decide) rest
    rw [readValue, List.cons_append, skipSpace_cons (by decide)]
    simp only [hend]
  | _, _, @Spells.array items cs hitems, fuel + 1, rest, hfuel, _ => by
    obtain ⟨c, tail, hhead, hc⟩ := hitems.head rest
    have hread := readItems_spells hitems fuel rest (Nat.le_of_succ_le_succ hfuel)
    rw [← readItems_skipSpace, hhead] at hread
    rw [readValue, List.cons_append, skipSpace_cons (by decide)]
    simp only [hhead]
    split
    next heq => exact absurd (List.cons.inj heq).1 hc
    next =>
      rw [hread]
      rfl
  | _, _, @Spells.noMembers ws hws, fuel + 1, rest, _, _ => by
    have hend : skipSpace (ws ++ ['\x7d'] ++ rest) = '\x7d' :: rest := by
      rw [List.append_assoc]
      exact skipSpace_end hws _ (by decide) rest
    rw [readValue, List.cons_append, skipSpace_cons (by decide)]
    simp only [hend]
  | _, _, @Spells.object members cs hmembers, fuel + 1, rest, hfuel, _ => by
    obtain ⟨tail, hhead⟩ := hmembers.head rest
    have hread := readMembers_spells hmembers fuel rest (Nat.le_of_succ_le_succ hfuel)
    rw [← readMembers_skipSpace, hhead] at hread
    rw [readValue, List.cons_append, skipSpace_cons (by decide)]
    simp [hhead, hread]
  | _, _, h, 0, rest, hfuel, _ => by
    obtain ⟨c, tail, rfl, -⟩ := h.head
    exact absurd hfuel (by simp)
theorem readItems_spells : ∀ {items : List Value} {cs : List Char}, SpellsItems items cs →
    ∀ (fuel : Nat) (rest : List Char), cs.length ≤ fuel →
      readItems fuel (cs ++ rest) = some (items, rest)
  | _, _, @SpellsItems.last v before cs after hbefore hv hafter, fuel + 1, rest, hfuel => by
    simp only [List.length_append, List.length_cons, List.length_nil] at hfuel
    have hread := readValue_spells hv fuel (by omega) (endsNumber_blanks hafter ']' rest (by decide))
    rw [← readValue_blanks fuel hbefore] at hread
    simp [readItems, hread, skipSpace_end hafter ']' (by decide)]
  | _, _, @SpellsItems.more v items before cs after others hbefore hv hafter hothers, fuel + 1,
      rest, hfuel => by
    simp only [List.length_append, List.length_cons] at hfuel
    have hread := readValue_spells hv fuel (by omega)
      (endsNumber_blanks hafter ',' (others ++ rest) (by decide))
    rw [← readValue_blanks fuel hbefore] at hread
    have hrest := readItems_spells hothers fuel rest (by omega)
    simp [readItems, hread, skipSpace_end hafter ',' (by decide), hrest]
  | _, _, .last .., 0, rest, hfuel => by simp at hfuel
  | _, _, .more .., 0, rest, hfuel => by simp at hfuel
theorem readMembers_spells : ∀ {members : List (String × Value)} {cs : List Char},
    SpellsMembers members cs → ∀ (fuel : Nat) (rest : List Char), cs.length ≤ fuel →
      readMembers fuel (cs ++ rest) = some (members, rest)
  | _, _, @SpellsMembers.last name v named cs after hnamed hv hafter, fuel + 1, rest, hfuel => by
    simp only [List.length_append, List.length_cons, List.length_nil] at hfuel
    obtain ⟨tail, behind, hskip, hname, hbehind⟩ := hnamed.read (cs ++ (after ++ '\x7d' :: rest))
    have hread := readValue_spells hv fuel (by omega)
      (endsNumber_blanks hafter '\x7d' rest (by decide))
    rw [← readValue_blanks fuel hbehind] at hread
    simp [readMembers, hskip, hname, hread, skipSpace_end hafter '\x7d' (by decide)]
  | _, _, @SpellsMembers.more name v members named cs after others hnamed hv hafter hothers,
      fuel + 1, rest, hfuel => by
    simp only [List.length_append, List.length_cons] at hfuel
    obtain ⟨tail, behind, hskip, hname, hbehind⟩ :=
      hnamed.read (cs ++ (after ++ ',' :: (others ++ rest)))
    have hread := readValue_spells hv fuel (by omega)
      (endsNumber_blanks hafter ',' (others ++ rest) (by decide))
    rw [← readValue_blanks fuel hbehind] at hread
    have hrest := readMembers_spells hothers fuel rest (by omega)
    simp [readMembers, hskip, hname, hread, skipSpace_end hafter ',' (by decide), hrest]
  | _, _, .last .., 0, rest, hfuel => by simp at hfuel
  | _, _, .more .., 0, rest, hfuel => by simp at hfuel
end

/-- A spelling is read as the value it spells. -/
theorem parse_spells {v : Value} {cs : List Char} (h : Spells v cs) : parse cs = some v := by
  have hread := readValue_spells h (cs.length + 1) (Nat.le_succ cs.length) .nil
  rw [List.append_nil] at hread
  rw [parse, hread]
  rfl

/-! ## The compact form -/

mutual
/-- Whether a value holds neither a literal nor a string that is no text. -/
def Value.plain : Value → Bool
  | .number _ | .unpaired => false
  | .null | .bool _ | .natural _ | .string _ => true
  | .array items => plainItems items
  | .object members => plainMembers members
/-- Whether every item is plain. -/
def plainItems : List Value → Bool
  | [] => true
  | v :: rest => v.plain && plainItems rest
/-- Whether every member is plain. -/
def plainMembers : List (String × Value) → Bool
  | [] => true
  | (_, v) :: rest => v.plain && plainMembers rest
end

theorem plainItems_iff {items : List Value} :
    plainItems items = true ↔ ∀ v ∈ items, v.plain = true := by
  induction items with
  | nil => simp [plainItems]
  | cons v rest ih => simp [plainItems, ih]

theorem plainMembers_iff {members : List (String × Value)} :
    plainMembers members = true ↔ ∀ m ∈ members, m.2.plain = true := by
  induction members with
  | nil => simp [plainMembers]
  | cons m rest ih => simp [plainMembers, ih]

mutual
/-- The compact form is a spelling. -/
theorem render_spells : ∀ {v : Value}, v.plain = true → Spells v (render v)
  | .null, _ => .null
  | .bool true, _ => .yes
  | .bool false, _ => .no
  | .natural n, _ => .natural n
  | .string s, _ => .string s
  | .array [], _ => .noItems .nil
  | .array (v :: items), h => .array (renderItems_spells (v :: items) (List.cons_ne_nil v items) h)
  | .object [], _ => .noMembers .nil
  | .object (m :: members), h =>
    .object (renderMembers_spells (m :: members) (List.cons_ne_nil m members) h)
theorem renderItems_spells : ∀ (items : List Value), items ≠ [] → plainItems items = true →
    SpellsItems items (renderItems items)
  | [v], _, h => .last .nil (render_spells (plainItems_iff.mp h v List.mem_cons_self)) .nil
  | v :: w :: rest, _, h => by
    obtain ⟨hv, hrest⟩ := Bool.and_eq_true_iff.mp h
    exact .more .nil (render_spells hv) .nil
      (renderItems_spells (w :: rest) (List.cons_ne_nil w rest) hrest)
theorem renderMembers_spells : ∀ (members : List (String × Value)), members ≠ [] →
    plainMembers members = true → SpellsMembers members (renderMembers members)
  | [(name, v)], _, h => by
    obtain ⟨hv, -⟩ := Bool.and_eq_true_iff.mp h
    have hspells := SpellsMembers.last (@SpellsName.mk name [] [] [] .nil .nil .nil) (render_spells hv) .nil
    simpa [renderMembers] using hspells
  | (name, v) :: m :: rest, _, h => by
    obtain ⟨hv, hrest⟩ := Bool.and_eq_true_iff.mp h
    have hspells := SpellsMembers.more (@SpellsName.mk name [] [] [] .nil .nil .nil) (render_spells hv) .nil
      (renderMembers_spells (m :: rest) (List.cons_ne_nil m rest) hrest)
    simpa [renderMembers] using hspells
end

/-- The compact form of a plain value is read as that value. -/
theorem ofText_compact {v : Value} (h : v.plain = true) : ofText v.compact = some v := by
  rw [ofText, Value.compact, String.toList_ofList]
  exact parse_spells (render_spells h)

/-! ## The indented form -/

theorem newLine_blanks (level : Nat) : Blanks (newLine level) := by
  simp [Blanks, newLine, isSpace]

theorem spellsName_spaced (name : String) {before : List Char} (h : Blanks before) :
    SpellsName name (before ++ (quoted name ++ ':' :: [' '])) :=
  .mk h .nil (by simp [Blanks, isSpace])

mutual
/-- The indented form is a spelling at every level. -/
theorem renderPretty_spells : ∀ (level : Nat) {v : Value}, v.plain = true →
    Spells v (renderPretty level v)
  | _, .null, _ => .null
  | _, .bool true, _ => .yes
  | _, .bool false, _ => .no
  | _, .natural n, _ => .natural n
  | _, .string s, _ => .string s
  | _, .array [], _ => .noItems .nil
  | level, .array (v :: items), h =>
    .array (renderPrettyItems_spells level (v :: items) (List.cons_ne_nil v items) h)
  | _, .object [], _ => .noMembers .nil
  | level, .object (m :: members), h =>
    .object (renderPrettyMembers_spells level (m :: members) (List.cons_ne_nil m members) h)
theorem renderPrettyItems_spells : ∀ (level : Nat) (items : List Value), items ≠ [] →
    plainItems items = true →
      SpellsItems items (newLine (level + 1) ++ renderPrettyItems level items)
  | level, [v], _, h => by
    have hspells := SpellsItems.last (newLine_blanks (level + 1))
      (renderPretty_spells (level + 1) (plainItems_iff.mp h v List.mem_cons_self))
      (newLine_blanks level)
    simpa [renderPrettyItems] using hspells
  | level, v :: w :: rest, _, h => by
    obtain ⟨hv, hrest⟩ := Bool.and_eq_true_iff.mp h
    exact .more (newLine_blanks (level + 1)) (renderPretty_spells (level + 1) hv) .nil
      (renderPrettyItems_spells level (w :: rest) (List.cons_ne_nil w rest) hrest)
theorem renderPrettyMembers_spells : ∀ (level : Nat) (members : List (String × Value)),
    members ≠ [] → plainMembers members = true →
      SpellsMembers members (newLine (level + 1) ++ renderPrettyMembers level members)
  | level, [(name, v)], _, h => by
    obtain ⟨hv, -⟩ := Bool.and_eq_true_iff.mp h
    have hspells := SpellsMembers.last (spellsName_spaced name (newLine_blanks (level + 1)))
      (renderPretty_spells (level + 1) hv) (newLine_blanks level)
    simpa [renderPrettyMembers] using hspells
  | level, (name, v) :: m :: rest, _, h => by
    obtain ⟨hv, hrest⟩ := Bool.and_eq_true_iff.mp h
    have hspells := SpellsMembers.more (spellsName_spaced name (newLine_blanks (level + 1)))
      (renderPretty_spells (level + 1) hv) .nil
      (renderPrettyMembers_spells level (m :: rest) (List.cons_ne_nil m rest) hrest)
    simpa [renderPrettyMembers] using hspells
end

/-- The indented form of a plain value is read as that value. -/
theorem ofText_pretty {v : Value} (h : v.plain = true) : ofText v.pretty = some v := by
  rw [ofText, Value.pretty, String.toList_ofList]
  exact parse_spells (renderPretty_spells 0 h)

/-! ## Texts on one line -/

/-- Characters that are no control characters. -/
def Printable (cs : List Char) : Prop := ∀ c ∈ cs, 0x20 ≤ c.toNat

instance (cs : List Char) : Decidable (Printable cs) := List.decidableBAll _ cs

theorem printable_append {cs ds : List Char} :
    Printable (cs ++ ds) ↔ Printable cs ∧ Printable ds := by
  simp only [Printable, List.forall_mem_append]

theorem printable_cons {c : Char} {cs : List Char} :
    Printable (c :: cs) ↔ 0x20 ≤ c.toNat ∧ Printable cs := by
  simp only [Printable, List.forall_mem_cons]

theorem hexDigit_printable : ∀ n < 16, 0x20 ≤ (hexDigit n).toNat := by decide

/-- Control characters are escaped. -/
theorem escape_printable (c : Char) : Printable (escape c) := by
  unfold escape
  iterate 7
    split
    · decide
  split
  next hcontrol =>
    have hhigh := hexDigit_printable (c.toNat / 16) (by omega)
    have hlow := hexDigit_printable (c.toNat % 16) (by omega)
    simp only [printable_cons]
    exact ⟨by decide, by decide, by decide, by decide, hhigh, hlow, by decide⟩
  next hcontrol =>
    rw [printable_cons]
    exact ⟨by omega, by decide⟩

theorem quoted_printable (s : String) : Printable (quoted s) := by
  rw [quoted, printable_cons, printable_append]
  refine ⟨by decide, ?_, by decide⟩
  intro c hc
  obtain ⟨d, -, hd⟩ := List.mem_flatMap.mp hc
  exact escape_printable d c hd

theorem digits_printable (n : Nat) : Printable (Text.Decimal.digits n) := by
  intro c hc
  have hdigit := isDigit_of_mem_digits hc
  simp only [isDigit, Text.Decimal.value?] at hdigit
  split at hdigit
  next h => simp at h; omega
  next => cases hdigit

mutual
/-- The compact form has no control characters, and so no line break. -/
theorem render_printable : ∀ {v : Value}, v.plain = true → Printable (render v)
  | .null, _ => by decide
  | .bool true, _ => by decide
  | .bool false, _ => by decide
  | .natural n, _ => digits_printable n
  | .string s, _ => quoted_printable s
  | .array items, h => printable_cons.mpr ⟨by decide, renderItems_printable items h⟩
  | .object members, h => printable_cons.mpr ⟨by decide, renderMembers_printable members h⟩
theorem renderItems_printable : ∀ (items : List Value), plainItems items = true →
    Printable (renderItems items)
  | [], _ => by decide
  | [v], h => by
    obtain ⟨hv, -⟩ := Bool.and_eq_true_iff.mp h
    exact printable_append.mpr ⟨render_printable hv, by decide⟩
  | v :: w :: rest, h => by
    obtain ⟨hv, hrest⟩ := Bool.and_eq_true_iff.mp h
    exact printable_append.mpr ⟨render_printable hv,
      printable_cons.mpr ⟨by decide, renderItems_printable (w :: rest) hrest⟩⟩
theorem renderMembers_printable : ∀ (members : List (String × Value)),
    plainMembers members = true → Printable (renderMembers members)
  | [], _ => by decide
  | [(name, v)], h => by
    obtain ⟨hv, -⟩ := Bool.and_eq_true_iff.mp h
    simp only [renderMembers, printable_append, printable_cons]
    exact ⟨quoted_printable name, by decide, render_printable hv, by decide⟩
  | (name, v) :: m :: rest, h => by
    obtain ⟨hv, hrest⟩ := Bool.and_eq_true_iff.mp h
    simp only [renderMembers, printable_append, printable_cons]
    exact ⟨quoted_printable name, by decide, render_printable hv, by decide,
      renderMembers_printable (m :: rest) hrest⟩
end

/-! ## Words -/

/-- A word of 64 bits is read from its number. -/
theorem Shape.word_toNat (scope : Scope) (n : UInt64) :
    Shape.word scope (.natural n.toNat) = some n := by
  have hlimit : n.toNat < Text.Decimal.limit64 := n.toNat_lt
  simp [Shape.word, Shape.nat64, Shape.below, hlimit]

end SpecEngine.Json
