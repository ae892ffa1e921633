/-
# SpecEngine.Proofs.TagMeaning -- what texts of tag expressions mean

Tag expressions that are put together as texts are put together in what they mean: with `|` between
them a list of tags has to satisfy one of them, in parentheses with `&` or a comma between them it
has to satisfy both, and in parentheses after `!` it must not satisfy the one. A text without
operators is one tag.

An operator parts the symbols of a text, so the symbols of the whole are those of the texts with the
operators between. Parentheses make a factor of any expression. Without them the disjunctions of the
right text go on with that of the left one and nest differently from what they did alone, which is
the one place where only the meaning stays.
-/
import SpecEngine.Proofs.TagGrammar

namespace SpecEngine.Tag

/-! ## Meanings -/

/-- The text is a tag expression, and these are the lists of tags that satisfy it. -/
def Means (source : String) (wanted : List String → Prop) : Prop :=
  ∃ selector, Selector.parse source = .ok selector ∧
    ∀ tags, selector.selects tags = true ↔ wanted tags

/-- Whether a list of tags has a tag, in the form in which tags are compared. -/
def hasTag (tags : List String) (name : String) : Bool := (tags.map normal).contains name

theorem selects_eq (selector : Selector) (tags : List String) :
    selector.selects tags = selector.root.eval (hasTag tags) := rfl

theorem hasTag_normal {tags : List String} {source : String} :
    hasTag tags (normal source) = true ↔ ∃ tag ∈ tags, normal tag = normal source := by
  simp only [hasTag, List.contains_iff_mem, List.mem_map]

/-- A text whose symbols spell an expression means what the expression does. -/
theorem means_of_derives {source : String} {e : Expr} {wanted : List String → Prop}
    (h : Derives .disjunction (tokens source.toList) e)
    (hwanted : ∀ tags, e.eval (hasTag tags) = true ↔ wanted tags) : Means source wanted := by
  refine ⟨⟨Text.trim source, e⟩, ?_, hwanted⟩
  rw [Selector.parse, ofTokens_eq_ok_iff.mpr h]

/-- The symbols of a text that is accepted spell the expression that is read. -/
theorem derives_of_parse {source : String} {selector : Selector}
    (h : Selector.parse source = .ok selector) :
    Derives .disjunction (tokens source.toList) selector.root := by
  rw [Selector.parse] at h
  split at h
  next root hread =>
    cases h
    exact ofTokens_eq_ok_iff.mp hread
  next => cases h

/-! ## Expressions put together -/

/-- A disjunction that goes on with another is true where one of the two is. -/
theorem Derives.or_append {ts us : List Token} {l r : Expr} (hl : Derives .disjunction ts l) :
    Derives .disjunction us r → ∃ e, Derives .disjunction (ts ++ .op .or :: us) e ∧
      ∀ has, e.eval has = (l.eval has || r.eval has)
  | .conjunction hr => ⟨.or l r, .or hl hr, fun _ => rfl⟩
  | @Derives.or us us' r r' hr hr' => by
    obtain ⟨e, he, heval⟩ := hl.or_append hr
    refine ⟨.or e r', ?_, fun has => ?_⟩
    · have hmore := he.or hr'
      rwa [List.append_assoc, List.cons_append] at hmore
    · rw [Expr.eval, heval, Expr.eval, Bool.or_assoc]

/-- Between parentheses the symbols of an expression are a conjunction. -/
theorem Derives.grouped {ts : List Token} {e : Expr} (h : Derives .disjunction ts e) :
    Derives .conjunction (.op .opening :: (ts ++ [.op .closing])) e := .factor (.group h)

/-- An operator at the beginning of a text. -/
theorem tokens_cons {c : Char} {o : Operator} (h : operator? c = some o) (rest : List Char) :
    tokens (c :: rest) = .op o :: tokens rest := tokens_operator h [] rest

/-- The symbols of a text between parentheses, and of what comes after them. -/
theorem tokens_grouped (cs rest : List Char) :
    tokens ('(' :: (cs ++ ')' :: rest)) =
      .op .opening :: (tokens cs ++ .op .closing :: tokens rest) := by
  have hopening : operator? '(' = some .opening := rfl
  have hclosing : operator? ')' = some .closing := rfl
  rw [tokens_cons hopening, tokens_operator hclosing]

/-- The symbols of two texts between parentheses with an operator between them. -/
theorem tokens_pair {c : Char} {o : Operator} (h : operator? c = some o) (cs ds : List Char) :
    tokens ('(' :: (cs ++ ')' :: c :: '(' :: (ds ++ [')']))) =
      .op .opening :: (tokens cs ++ [.op .closing]) ++
        .op o :: .op .opening :: (tokens ds ++ [.op .closing]) := by
  have hnil : tokens [] = [] := rfl
  rw [tokens_grouped, tokens_cons h, tokens_grouped, hnil, List.cons_append, List.append_assoc,
    List.singleton_append]

/-! ## Texts put together -/

section

variable {s t : String} {a b : Selector}

theorem means_or (hs : Selector.parse s = .ok a) (ht : Selector.parse t = .ok b) :
    Means (s ++ "|" ++ t) fun tags => a.selects tags = true ∨ b.selects tags = true := by
  obtain ⟨e, he, heval⟩ := (derives_of_parse hs).or_append (derives_of_parse ht)
  have hsource : (s ++ "|" ++ t).toList = s.toList ++ '|' :: t.toList := by simp
  rw [← tokens_operator (c := '|') rfl, ← hsource] at he
  refine means_of_derives he fun tags => ?_
  rw [heval, Bool.or_eq_true, selects_eq, selects_eq]

/-- Two expressions in parentheses with a spelling of `&` between them. -/
theorem means_pair {c : Char} (hc : operator? c = some .and) (hs : Selector.parse s = .ok a)
    (ht : Selector.parse t = .ok b) {source : String}
    (hsource : source.toList = '(' :: (s.toList ++ ')' :: c :: '(' :: (t.toList ++ [')']))) :
    Means source fun tags => a.selects tags = true ∧ b.selects tags = true := by
  have hboth := (derives_of_parse hs).grouped.and (.group (derives_of_parse ht))
  rw [← tokens_pair hc, ← hsource] at hboth
  refine means_of_derives (.conjunction hboth) fun tags => ?_
  rw [Expr.eval, Bool.and_eq_true, selects_eq, selects_eq]

theorem means_not (hs : Selector.parse s = .ok a) :
    Means ("!(" ++ s ++ ")") fun tags => ¬a.selects tags = true := by
  have hnot := Derives.not (.group (derives_of_parse hs))
  have hsource : ("!(" ++ s ++ ")").toList = '!' :: '(' :: (s.toList ++ [')']) := by simp
  have htokens : tokens ("!(" ++ s ++ ")").toList =
      .op .not :: .op .opening :: (tokens s.toList ++ [.op .closing]) := by
    rw [hsource, tokens_cons (o := .not) rfl, tokens_grouped]
    rfl
  rw [← htokens] at hnot
  refine means_of_derives (.conjunction (.factor hnot)) fun tags => ?_
  rw [Expr.eval, Bool.not_eq_true', Bool.not_eq_true, selects_eq]

theorem means_tag {source : String} (hpiece : IsPiece source.toList)
    (hblank : Text.isBlankText source = false) :
    Means source fun tags => ∃ tag ∈ tags, normal tag = normal source := by
  have htokens : tokens source.toList = [.tag (normal source)] := by
    have hsome : ¬source.toList.all Text.isBlank = true := by
      rw [Bool.not_eq_true]
      exact hblank
    rw [tokens_piece hpiece, tagOf, if_neg hsome, String.ofList_toList]
  have htag := Derives.tag (normal source)
  rw [← htokens] at htag
  refine means_of_derives (.conjunction (.factor htag)) fun tags => ?_
  rw [Expr.eval, hasTag_normal]

/-- Texts of tag expressions mean what they spell. If two are accepted, they are so with `|`
between them, in parentheses with `&` or a comma between them, and the first in parentheses after
`!`, and a list of tags satisfies these if it satisfies one of the two, both, both, or not the
first. A text without operators that is not blank is satisfied by the lists that have it as a tag,
case and outer blanks aside. -/
theorem texts_mean_what_they_spell (hs : Selector.parse s = .ok a) (ht : Selector.parse t = .ok b) :
    Means (s ++ "|" ++ t) (fun tags => a.selects tags = true ∨ b.selects tags = true) ∧
      Means ("(" ++ s ++ ")&(" ++ t ++ ")")
        (fun tags => a.selects tags = true ∧ b.selects tags = true) ∧
      Means ("(" ++ s ++ "),(" ++ t ++ ")")
        (fun tags => a.selects tags = true ∧ b.selects tags = true) ∧
      Means ("!(" ++ s ++ ")") (fun tags => ¬a.selects tags = true) ∧
      ∀ source : String, IsPiece source.toList → Text.isBlankText source = false →
        Means source fun tags => ∃ tag ∈ tags, normal tag = normal source :=
  ⟨means_or hs ht, means_pair (c := '&') rfl hs ht (by simp),
    means_pair (c := ',') rfl hs ht (by simp), means_not hs, fun _ => means_tag⟩

end

/-- Two disjunctions with `|` between them nest anew, and mean one or the other all the same. A text
of two words is one tag. -/
theorem regrouped_text_means :
    Selector.parse "a|b" = .ok ⟨"a|b", .or (.tag "a") (.tag "b")⟩ ∧
      Selector.parse " C | D " = .ok ⟨"C | D", .or (.tag "c") (.tag "d")⟩ ∧
      Means ("a|b" ++ "|" ++ " C | D ") (fun tags =>
        (Selector.mk "a|b" (.or (.tag "a") (.tag "b"))).selects tags = true ∨
          (Selector.mk "C | D" (.or (.tag "c") (.tag "d"))).selects tags = true) ∧
      Means " Smoke Test " fun tags => ∃ tag ∈ tags, normal tag = normal " Smoke Test " := by
  have hleft : Selector.parse "a|b" = .ok ⟨"a|b", .or (.tag "a") (.tag "b")⟩ := by decide +kernel
  have hright : Selector.parse " C | D " = .ok ⟨"C | D", .or (.tag "c") (.tag "d")⟩ := by
    decide +kernel
  have hpiece : IsPiece " Smoke Test ".toList := by simp [IsPiece, operator?]
  obtain ⟨hor, -, -, -, htag⟩ := texts_mean_what_they_spell hleft hright
  exact ⟨hleft, hright, hor, htag _ hpiece (by decide)⟩

end SpecEngine.Tag
