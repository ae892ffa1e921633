/-
# SpecEngine.Proofs.Lines -- bytes cut into lines

Bytes that arrive piece by piece are cut after their line breaks. Where the pieces end makes no
difference: the lines are those of all the bytes together (`Inbox.append_append`), and lines that
follow one another are cut apart again (`cutLines_flatten`).

A line carries an envelope if its text, without the blanks around it, is read as one. What is
written of an envelope, with a line break behind it, is one line that carries it (`carries_line`).
-/
import SpecEngine.Runner.Process
import SpecEngine.Proofs.WireFormat

namespace SpecEngine.Text

/-! ## Texts as bytes -/

theorem toList_loop (bytes : ByteArray) (i : Nat) (before : List UInt8) :
    ByteArray.toList.loop bytes i before = before.reverse ++ bytes.data.toList.drop i := by
  fun_induction ByteArray.toList.loop bytes i before with
  | case1 i before hi ih =>
    have hlength : i < bytes.data.toList.length := hi
    have hdrop : bytes.data.toList.drop i = bytes.get! i :: bytes.data.toList.drop (i + 1) := by
      simpa [ByteArray.get!, hi] using List.drop_eq_getElem_cons hlength
    rw [ih, hdrop, List.reverse_cons, List.append_assoc]
    rfl
  | case2 i before hi =>
    have hlength : bytes.data.toList.length ≤ i := Nat.le_of_not_lt hi
    rw [List.drop_eq_nil_of_le hlength, List.append_nil]

theorem toUtf8_eq_data (s : String) : toUtf8 s = s.toByteArray.data.toList := by
  show ByteArray.toList.loop s.toByteArray 0 [] = _
  rw [toList_loop]
  rfl

theorem toUtf8_eq (s : String) : toUtf8 s = s.toList.flatMap String.utf8EncodeChar := by
  rw [toUtf8_eq_data, ← String.utf8Encode_toList, List.utf8Encode, List.toList_data_toByteArray]

theorem toUtf8_append (s t : String) : toUtf8 (s ++ t) = toUtf8 s ++ toUtf8 t := by
  simp [toUtf8_eq]

/-- The bytes of a text spell it. -/
theorem ofUtf8_toUtf8 (s : String) : ofUtf8 (toUtf8 s) = .ok s := by
  have hbytes : (⟨(toUtf8 s).toArray⟩ : ByteArray) = s.toByteArray := by
    rw [toUtf8_eq_data]
  have hread : String.fromUTF8? s.toByteArray = some s := dif_pos s.isValidUTF8
  rw [ofUtf8, hbytes, hread]

theorem ofNat_ne_lineBreak {n : Nat} (hlow : 10 < n) (hhigh : n < 256) :
    (10 : UInt8) ≠ UInt8.ofNat n := by
  intro heq
  have hvalue := congrArg UInt8.toNat heq
  rw [UInt8.toNat_ofNat_of_lt' hhigh] at hvalue
  exact absurd hvalue (by simp; omega)

/-- A line break is a byte of no other character. -/
theorem lineBreak_notMem_encode {c : Char} (h : 0x20 ≤ c.toNat) :
    10 ∉ String.utf8EncodeChar c := by
  have hvalue : 0x20 ≤ c.val.toNat := h
  unfold String.utf8EncodeChar
  dsimp only
  repeat' split
  all_goals
    simp only [List.mem_cons, List.not_mem_nil, or_false, not_or]
    repeat' apply And.intro
    all_goals exact ofNat_ne_lineBreak (by omega) (by omega)

theorem lineBreak_notMem_toUtf8 {s : String} (h : Json.Printable s.toList) : 10 ∉ toUtf8 s := by
  rw [toUtf8_eq]
  intro hbreak
  obtain ⟨c, hc, hbyte⟩ := List.mem_flatMap.mp hbreak
  exact lineBreak_notMem_encode (h c hc) hbyte

end SpecEngine.Text

namespace SpecEngine.Runner

/-! ## Cutting -/

/-- A line with its line break, which is its only one. -/
def IsLine (line : List UInt8) : Prop := ∃ body, line = body ++ [10] ∧ 10 ∉ body

theorem cutLines_notMem {bytes : List UInt8} (h : 10 ∉ bytes) : cutLines bytes = ([], bytes) := by
  induction bytes with
  | nil => rfl
  | cons b rest ih =>
    obtain ⟨hb, hrest⟩ := not_or.mp (mt List.mem_cons.mpr h)
    have hne : b ≠ 10 := Ne.symm hb
    simp [cutLines, ih hrest, hne]

/-- A line at the front is cut off. -/
theorem cutLines_line {line : List UInt8} (h : IsLine line) (bytes : List UInt8) :
    cutLines (line ++ bytes) = (line :: (cutLines bytes).1, (cutLines bytes).2) := by
  obtain ⟨body, rfl, hbody⟩ := h
  induction body with
  | nil => simp [cutLines]
  | cons b body ih =>
    obtain ⟨hb, hrest⟩ := not_or.mp (mt List.mem_cons.mpr hbody)
    have hne : b ≠ 10 := Ne.symm hb
    simp only [List.cons_append, cutLines, ih hrest, if_neg hne]

/-- Lines that follow one another are cut apart again. -/
theorem cutLines_flatten {lines : List (List UInt8)} (h : ∀ line ∈ lines, IsLine line)
    (bytes : List UInt8) :
    cutLines (lines.flatten ++ bytes) = (lines ++ (cutLines bytes).1, (cutLines bytes).2) := by
  induction lines with
  | nil => rfl
  | cons line rest ih =>
    obtain ⟨hline, hrest⟩ := List.forall_mem_cons.mp h
    rw [List.flatten_cons, List.append_assoc, cutLines_line hline, ih hrest]
    rfl

theorem isLine_of_mem_cutLines (bytes : List UInt8) :
    ∀ line ∈ (cutLines bytes).1, IsLine line := by
  induction bytes with
  | nil => exact fun _ h => absurd h List.not_mem_nil
  | cons b rest ih =>
    unfold cutLines
    dsimp only
    split
    next hb =>
      subst hb
      exact List.forall_mem_cons.mpr ⟨⟨[], rfl, List.not_mem_nil⟩, ih⟩
    next hb =>
      split
      next => exact fun _ h => absurd h List.not_mem_nil
      next line lines heq =>
        rw [heq] at ih
        obtain ⟨⟨body, rfl, hbody⟩, hlines⟩ := List.forall_mem_cons.mp ih
        refine List.forall_mem_cons.mpr ⟨⟨b :: body, rfl, ?_⟩, hlines⟩
        exact mt List.mem_cons.mp (not_or.mpr ⟨Ne.symm hb, hbody⟩)

theorem notMem_cutLines (bytes : List UInt8) : 10 ∉ (cutLines bytes).2 := by
  induction bytes with
  | nil => exact List.not_mem_nil
  | cons b rest ih =>
    unfold cutLines
    dsimp only
    split
    next => exact ih
    next hb =>
      split
      next => exact mt List.mem_cons.mp (not_or.mpr ⟨Ne.symm hb, ih⟩)
      next => exact ih

/-- Nothing gets lost when bytes are cut. -/
theorem flatten_cutLines (bytes : List UInt8) :
    (cutLines bytes).1.flatten ++ (cutLines bytes).2 = bytes := by
  induction bytes with
  | nil => rfl
  | cons b rest ih =>
    unfold cutLines
    dsimp only
    split
    next => simp [ih]
    next =>
      split
      next heq => simpa [heq] using ih
      next heq => simpa [heq] using ih

theorem cutLines_append (bytes more : List UInt8) :
    cutLines (bytes ++ more) =
      ((cutLines bytes).1 ++ (cutLines ((cutLines bytes).2 ++ more)).1,
        (cutLines ((cutLines bytes).2 ++ more)).2) := by
  rw [← cutLines_flatten (isLine_of_mem_cutLines bytes), ← List.append_assoc, flatten_cutLines]

namespace Inbox

/-- The bytes that nobody read. -/
def bytes (inbox : Inbox) : List UInt8 := inbox.lines.flatten ++ inbox.beginning

/-- The inbox holds lines, and a beginning without a line break. -/
structure Cut (inbox : Inbox) : Prop where
  lines : ∀ line ∈ inbox.lines, IsLine line
  beginning : 10 ∉ inbox.beginning

theorem bytes_append (inbox : Inbox) (written : List UInt8) :
    (inbox.append written).bytes = inbox.bytes ++ written := by
  simp only [bytes, append, List.flatten_append, List.append_assoc, flatten_cutLines]

/-- An inbox is how its bytes are cut. -/
theorem Cut.cutLines {inbox : Inbox} (h : inbox.Cut) :
    cutLines inbox.bytes = (inbox.lines, inbox.beginning) := by
  rw [bytes, cutLines_flatten h.lines, cutLines_notMem h.beginning, List.append_nil]

/-- The lines in an inbox are the first ones of those whose bytes come in. -/
theorem Cut.lines_isPrefix {inbox : Inbox} (h : inbox.Cut) {lines : List (List UInt8)}
    (hlines : ∀ line ∈ lines, IsLine line) (hbytes : inbox.bytes <+: lines.flatten) :
    inbox.lines <+: lines := by
  obtain ⟨more, hmore⟩ := hbytes
  have hwhole := cutLines_flatten hlines []
  rw [List.append_nil, ← hmore, cutLines_append, h.cutLines] at hwhole
  exact ⟨_, (congrArg Prod.fst hwhole).trans (List.append_nil lines)⟩

/-- Lines that came in whole are in the inbox. -/
theorem Cut.isPrefix_lines {inbox : Inbox} (h : inbox.Cut) {lines : List (List UInt8)}
    (hlines : ∀ line ∈ lines, IsLine line) (hbytes : lines.flatten <+: inbox.bytes) :
    lines <+: inbox.lines := by
  obtain ⟨more, hmore⟩ := hbytes
  have hcut := cutLines_flatten hlines more
  rw [hmore, h.cutLines] at hcut
  exact ⟨_, (congrArg Prod.fst hcut).symm⟩

theorem Cut.append {inbox : Inbox} (h : inbox.Cut) (written : List UInt8) :
    (inbox.append written).Cut := by
  refine ⟨?_, notMem_cutLines _⟩
  exact List.forall_mem_append.mpr ⟨h.lines, isLine_of_mem_cutLines _⟩

/-- Where the bytes were parted makes no difference. -/
theorem append_append (inbox : Inbox) (written more : List UInt8) :
    (inbox.append written).append more = inbox.append (written ++ more) := by
  simp only [append, ← List.append_assoc, cutLines_append (inbox.beginning ++ written) more]

theorem append_nil {inbox : Inbox} (h : 10 ∉ inbox.beginning) : inbox.append [] = inbox := by
  simp only [append, List.append_nil, cutLines_notMem h]

end Inbox

/-! ## What lines carry -/

/-- The text of the line, without the blanks around it, is read as this envelope. -/
def Carries (line : List UInt8) (e : Envelope) : Prop :=
  ∃ s, Text.ofUtf8 line = .ok s ∧ Envelope.ofLine (Text.trim s) = some e

/-- The line is a text of nothing but blanks. -/
def BlankLine (line : List UInt8) : Prop :=
  ∃ s, Text.ofUtf8 line = .ok s ∧ (Text.trim s).isEmpty = true

theorem not_empty_of_ofLine {s : String} {e : Envelope} (h : Envelope.ofLine s = some e) :
    s.isEmpty = false := by
  rw [← Bool.not_eq_true]
  intro hempty
  obtain rfl : s = "" := by simpa using hempty
  cases h

/-- What a line that carries an envelope means for a request. -/
theorem lineAnswer?_of_carries {line : List UInt8} {e : Envelope} (h : Carries line e)
    (id : UInt64) :
    (e.id < id → lineAnswer? id line = none) ∧
      (e.id = id → lineAnswer? id line = some (.ok e.message)) := by
  obtain ⟨s, hs, he⟩ := h
  have hempty := not_empty_of_ofLine he
  constructor
  · intro hless
    simp [lineAnswer?, hs, hempty, he, hless]
  · rintro rfl
    simp [lineAnswer?, hs, hempty, he]

/-- What a line can mean for the request of a number. -/
inductive Meaning (id : UInt64) (line : List UInt8) : Option (Except ProtocolError Message) → Prop
  | blank : BlankLine line → Meaning id line none
  | outdated {e : Envelope} : Carries line e → e.id < id → Meaning id line none
  | own {e : Envelope} : Carries line e → e.id = id → Meaning id line (some (.ok e.message))
  | wrong (fault : ProtocolError) : Meaning id line (some (.error fault))

theorem lineAnswer?_meaning (id : UInt64) (line : List UInt8) :
    Meaning id line (lineAnswer? id line) := by
  unfold lineAnswer?
  split
  next fault _ => exact .wrong _
  next s hs =>
    dsimp only
    split
    next hempty => exact .blank ⟨s, hs, hempty⟩
    next =>
      split
      next => exact .wrong _
      next e he =>
        split
        next hless => exact .outdated ⟨s, hs, he⟩ hless
        next =>
          split
          next hid => exact .own ⟨s, hs, he⟩ hid
          next => exact .wrong _

/-- Passed over are blank lines and those that carry smaller numbers. -/
theorem passedOver_iff {id : UInt64} {line : List UInt8} :
    lineAnswer? id line = none ↔ BlankLine line ∨ ∃ e, Carries line e ∧ e.id < id := by
  constructor
  · intro h
    have hmeaning := lineAnswer?_meaning id line
    rw [h] at hmeaning
    cases hmeaning with
    | blank hblank => exact .inl hblank
    | outdated he hless => exact .inr ⟨_, he, hless⟩
  · rintro (⟨s, hs, hempty⟩ | ⟨e, he, hless⟩)
    · simp [lineAnswer?, hs, hempty]
    · exact (lineAnswer?_of_carries he id).1 hless

/-- Only a line that carries the request's own number brings it a message. -/
theorem lineAnswer?_ok {id : UInt64} {line : List UInt8} {m : Message}
    (h : lineAnswer? id line = some (.ok m)) : Carries line ⟨id, m⟩ := by
  have hmeaning := lineAnswer?_meaning id line
  rw [h] at hmeaning
  cases hmeaning with
  | own he hid => exact hid ▸ he

theorem renderMembers_end (ms : List (String × Json.Value)) :
    ∃ body, Json.renderMembers ms = body ++ ['\x7d'] := by
  match ms with
  | [] => exact ⟨[], rfl⟩
  | [(name, v)] => exact ⟨Json.quoted name ++ ':' :: Json.render v, by simp [Json.renderMembers]⟩
  | (name, v) :: m :: rest =>
    obtain ⟨body, hbody⟩ := renderMembers_end (m :: rest)
    exact ⟨Json.quoted name ++ ':' :: (Json.render v ++ ',' :: body),
      by simp [Json.renderMembers, hbody]⟩

/-- A line break behind a text that ends in no blanks is trimmed off. -/
theorem trim_line (first last : Char) (body : List Char) (hfirst : Text.isBlank first = false)
    (hlast : Text.isBlank last = false) :
    Text.trimChars (first :: (body ++ [last]) ++ ['\n']) = first :: (body ++ [last]) := by
  have hbreak : Text.isBlank '\n' = true := by decide
  simp [Text.trimChars, Text.trimEnd, hfirst, hlast, hbreak]

/-- What is written of an envelope, with a line break behind it, is a line that carries it. -/
theorem carries_line (e : Envelope) :
    IsLine (Text.toUtf8 (e.line ++ "\n")) ∧ Carries (Text.toUtf8 (e.line ++ "\n")) e := by
  constructor
  · refine ⟨Text.toUtf8 e.line, ?_, Text.lineBreak_notMem_toUtf8 (line_printable e)⟩
    rw [Text.toUtf8_append, Text.toUtf8_eq "\n"]
    rfl
  · refine ⟨e.line ++ "\n", Text.ofUtf8_toUtf8 _, ?_⟩
    obtain ⟨body, hbody⟩ := renderMembers_end (("id", .natural e.id.toNat) :: e.message.members)
    have hline : e.line.toList = '\x7b' :: (body ++ ['\x7d']) := by
      rw [← hbody, Envelope.line, Json.Value.compact, String.toList_ofList]
      rfl
    have htrim : Text.trim (e.line ++ "\n") = e.line := by
      have hbreak : "\n".toList = ['\n'] := rfl
      rw [Text.trim, String.toList_append, hbreak, hline,
        trim_line '\x7b' '\x7d' body (by decide) (by decide), ← hline, String.ofList_toList]
    rw [htrim]
    exact ofLine_line e

end SpecEngine.Runner
