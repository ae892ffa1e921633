/-
# SpecEngine.Proofs.ByteOrder -- texts are ordered as their bytes are

Texts are compared by their characters. Comparing their bytes comes to the same, since UTF-8 puts
the higher digits of a code point first and lets the first byte grow with the number of bytes. So
two characters part at some byte of both, where the lower one has the lower byte, and whatever
follows them makes no difference (`encode_append_lt`).
-/
import SpecEngine.Proofs.Lines

namespace SpecEngine.Text

theorem codePoint_lt (c : Char) : c.val.toNat < 0x110000 := by
  have hvalid := c.valid
  simp only [UInt32.isValidChar, Nat.isValidChar] at hvalid
  omega

/-- Bytes are compared by the first one, and by the others if these are equal. -/
theorem byte_cons_lt {m n : Nat} {ms ns : List UInt8} (hm : m < 256) (hn : n < 256) (hle : m ≤ n)
    (hrest : m = n → ms < ns) : UInt8.ofNat m :: ms < UInt8.ofNat n :: ns := by
  rw [List.cons_lt_cons_iff]
  rcases Nat.lt_or_eq_of_le hle with hlt | rfl
  · left
    rw [UInt8.lt_iff_toNat_lt, UInt8.toNat_ofNat_of_lt' hm, UInt8.toNat_ofNat_of_lt' hn]
    exact hlt
  · exact .inr ⟨rfl, hrest rfl⟩

/-- A lower character has lower bytes, whatever comes after the two. -/
theorem encode_append_lt {c d : Char} (h : c < d) (ms ns : List UInt8) :
    String.utf8EncodeChar c ++ ms < String.utf8EncodeChar d ++ ns := by
  have hlt : c.val.toNat < d.val.toNat := h
  have hbound := codePoint_lt d
  unfold String.utf8EncodeChar
  dsimp only
  -- one case for each two numbers of bytes; if no byte differed, the characters would be equal
  repeat' split
  all_goals
    simp only [List.cons_append, List.nil_append]
    repeat refine byte_cons_lt (by omega) (by omega) (by omega) fun _ => ?_
    omega

theorem encoded_lt {cs ds : List Char} (h : List.Lex (· < ·) cs ds) :
    cs.flatMap String.utf8EncodeChar < ds.flatMap String.utf8EncodeChar := by
  induction h with
  | @nil d ds =>
    obtain ⟨b, bs, hbytes⟩ := List.exists_cons_of_ne_nil (String.utf8EncodeChar_ne_nil (c := d))
    rw [List.flatMap_nil, List.flatMap_cons, hbytes, List.cons_append]
    exact List.nil_lt_cons _ _
  | cons _ ih =>
    rw [List.flatMap_cons, List.flatMap_cons]
    exact List.append_left_lt ih
  | rel hlt =>
    rw [List.flatMap_cons, List.flatMap_cons]
    exact encode_append_lt hlt _ _

/-- What is lower as a text is lower in its bytes. -/
theorem toUtf8_lt {s t : String} (h : s < t) : toUtf8 s < toUtf8 t := by
  rw [toUtf8_eq, toUtf8_eq]
  exact encoded_lt h

end SpecEngine.Text
