/-
# SpecEngine.Proofs.Padding -- blanks around the values of the environment

Almost every reader of a value of the environment trims what it reads, but each at a place of its
own: numbers and the strategy as a whole, row selections part by part, tag expressions tag by tag,
and the command line of a runner where it is cut into words. Blanks around such a value make no
difference to what is read. A fault may quote the value as it was given, which is all that is left
of the blanks.

One reader does not trim. A value switches something on if it is one of a few words in small
letters, and padded by a blank it is none of them. Therefore the switch is the one setting that is
stated apart: it stays as it is exactly when no blank is put around one of these words.
-/
import SpecEngine.Proofs.Precedence
import SpecEngine.Proofs.TagGrammar
import SpecEngine.Proofs.WrittenRows

/-! ## Padded texts -/

namespace SpecEngine.Text

/-- The second text is the first one with blanks put in front of it and behind it. -/
def Pads (s s' : String) : Prop :=
  ∃ before after, AllBlank before ∧ AllBlank after ∧ s'.toList = before ++ s.toList ++ after

theorem AllBlank.nil : AllBlank [] := by simp [AllBlank]

theorem Pads.trimChars_eq {s s' : String} (h : Pads s s') :
    trimChars s'.toList = trimChars s.toList := by
  obtain ⟨before, after, hbefore, hafter, hs⟩ := h
  rw [hs, trimChars_padded hbefore hafter]

theorem Pads.trim_eq {s s' : String} (h : Pads s s') : trim s' = trim s := by
  rw [trim, h.trimChars_eq, trim]

theorem Pads.isBlankText_eq {s s' : String} (h : Pads s s') : isBlankText s' = isBlankText s := by
  rw [isBlankText, isBlankText, Bool.eq_iff_iff, ← trimChars_eq_nil_iff, ← trimChars_eq_nil_iff,
    h.trimChars_eq]

/-- Blanks among which there is no blank. -/
theorem AllBlank.eq_nil {cs : List Char} (h : AllBlank cs)
    (hnone : ∀ c ∈ cs, isBlank c = false) : cs = [] := by
  rw [List.eq_nil_iff_forall_not_mem]
  intro c hc
  exact Bool.false_ne_true ((hnone c hc).symm.trans (h c hc))

/-- A padded text without blanks was not padded. -/
theorem Pads.eq_of_forall {s s' : String} (h : Pads s s')
    (hnone : ∀ c ∈ s'.toList, isBlank c = false) : s' = s := by
  obtain ⟨before, after, hbefore, hafter, hs⟩ := h
  have hfront : before = [] := hbefore.eq_nil fun c hc => hnone c (by simp [hs, hc])
  have hback : after = [] := hafter.eq_nil fun c hc => hnone c (by simp [hs, hc])
  rw [hfront, hback, List.nil_append, List.append_nil] at hs
  exact String.toList_inj.mp hs

/-! ## Words and parts of padded texts -/

theorem words_go_blank {after : List Char} (h : AllBlank after) (word : List Char) :
    words.go word after = words.go word [] := by
  induction after generalizing word with
  | nil => rfl
  | cons c rest ih =>
    obtain ⟨hc, hrest⟩ := List.forall_mem_cons.mp h
    cases word with
    | nil => simp [words.go, hc, ih hrest]
    | cons d ds => simp [words.go, hc, ih hrest]

theorem words_go_append {after : List Char} (h : AllBlank after) (cs word : List Char) :
    words.go word (cs ++ after) = words.go word cs := by
  induction cs generalizing word with
  | nil => exact words_go_blank h word
  | cons c rest ih => simp only [List.cons_append, words.go, ih]

/-- Blanks around a text are around its words. -/
theorem words_padded {before after : List Char} (hbefore : AllBlank before)
    (hafter : AllBlank after) (cs : List Char) : words (before ++ cs ++ after) = words cs := by
  rw [words, words_go_append hafter]
  induction before with
  | nil => rfl
  | cons c rest ih =>
    obtain ⟨hc, hrest⟩ := List.forall_mem_cons.mp hbefore
    rw [List.cons_append, words.go, if_pos hc]
    exact ih hrest

/-- What has no separator belongs to the first part of what it is put in front of. -/
theorem splitOn_prepend {sep : Char} {ds : List Char} (h : sep ∉ ds) (cs : List Char) :
    ∃ first parts, splitOn sep cs = first :: parts ∧
      splitOn sep (ds ++ cs) = (ds ++ first) :: parts := by
  induction ds with
  | nil =>
    obtain ⟨first, parts, hcs⟩ := List.exists_cons_of_ne_nil (splitOn_ne_nil sep cs)
    exact ⟨first, parts, hcs, hcs⟩
  | cons d ds ih =>
    obtain ⟨hd, hds⟩ := not_or.mp (mt List.mem_cons.mpr h)
    obtain ⟨first, parts, hcs, hsplit⟩ := ih hds
    refine ⟨first, parts, hcs, ?_⟩
    rw [List.cons_append, splitOn, if_neg (Ne.symm hd), hsplit]
    rfl

theorem AllBlank.notMem {cs : List Char} {c : Char} (h : AllBlank cs) (hc : isBlank c = false) :
    c ∉ cs := fun hmem => Bool.false_ne_true (hc.symm.trans (h c hmem))

/-- The parts of a padded text are, once they are trimmed, those of the text. -/
theorem splitOn_padded {sep : Char} (hsep : isBlank sep = false) {before after : List Char}
    (hbefore : AllBlank before) (hafter : AllBlank after) (cs : List Char) :
    (splitOn sep (before ++ cs ++ after)).map trimChars = (splitOn sep cs).map trimChars := by
  obtain ⟨parts, last, hfront, hwhole⟩ :=
    splitOn_append (hafter.notMem hsep) (before ++ cs)
  obtain ⟨first, others, hcs, hpadded⟩ := splitOn_prepend (hbefore.notMem hsep) cs
  have hlast : trimChars (last ++ after) = trimChars last :=
    trimChars_padded AllBlank.nil hafter last
  have hfirst : trimChars (before ++ first) = trimChars first := by
    simpa using trimChars_padded hbefore AllBlank.nil first
  calc (splitOn sep (before ++ cs ++ after)).map trimChars
      = (splitOn sep (before ++ cs)).map trimChars := by
        rw [hwhole, hfront, List.map_append, List.map_append, List.map_singleton,
          List.map_singleton, hlast]
    _ = (splitOn sep cs).map trimChars := by
        rw [hpadded, hcs, List.map_cons, List.map_cons, hfirst]

/-! ## Blanks in small letters -/

/-- The codes of the blanks. -/
def blankCodes : List Nat :=
  [9, 10, 11, 12, 13, 0x20, 0x85, 0xA0, 0x1680, 0x2000, 0x2001, 0x2002, 0x2003, 0x2004, 0x2005,
    0x2006, 0x2007, 0x2008, 0x2009, 0x200A, 0x2028, 0x2029, 0x202F, 0x205F, 0x3000]

theorem toNat_mem_blankCodes {c : Char} (h : isBlank c = true) : c.toNat ∈ blankCodes := by
  simp only [isBlank, Bool.or_eq_true, Bool.and_eq_true, decide_eq_true_eq, beq_iff_eq] at h
  simp only [blankCodes, List.mem_cons, List.not_mem_nil, or_false]
  omega

/-- A blank is its own small form. -/
theorem lower_blankCodes :
    ∀ n ∈ blankCodes, Char.ofNat n ≠ 'Σ' ∧ lowerChar (Char.ofNat n) = [Char.ofNat n] := by
  decide

theorem mem_lowerFrom {c : Char} (hblank : isBlank c = true) {cs : List Char} (h : c ∈ cs)
    (before : List Char) : c ∈ lowerFrom before cs := by
  induction cs generalizing before with
  | nil => cases h
  | cons d rest ih =>
    rw [lowerFrom, List.mem_append]
    rcases List.mem_cons.mp h with rfl | hrest
    · obtain ⟨hsigma, hlower⟩ := lower_blankCodes c.toNat (toNat_mem_blankCodes hblank)
      rw [Char.ofNat_toNat] at hsigma hlower
      rw [if_neg hsigma, hlower]
      exact .inl List.mem_cons_self
    · exact .inr (ih hrest _)

end SpecEngine.Text

/-! ## Tag expressions -/

namespace SpecEngine.Tag

open Text (AllBlank trimChars)

theorem operator?_blank {c : Char} (h : Text.isBlank c = true) : operator? c = none := by
  unfold operator?
  split
  all_goals first
    | rfl
    | exact absurd h (by decide)

theorem isPiece_of_allBlank {cs : List Char} (h : AllBlank cs) : IsPiece cs :=
  fun c hc => operator?_blank (h c hc)

theorem IsPiece.append {cs ds : List Char} (h : IsPiece cs) (h' : IsPiece ds) :
    IsPiece (cs ++ ds) :=
  List.forall_mem_append.mpr ⟨h, h'⟩

/-- What a piece spells is settled by what is left when it is trimmed. -/
theorem PieceSpells.congr {cs ds : List Char} {ts : List Token} (h : PieceSpells cs ts)
    (htrim : trimChars ds = trimChars cs) : PieceSpells ds ts := by
  cases h with
  | blank hcs => exact .blank (htrim.trans hcs)
  | tag hcs =>
    rw [← htrim] at hcs ⊢
    exact .tag hcs

theorem Cut.prepend {before cs : List Char} {ts : List Token} (hbefore : AllBlank before)
    (h : Cut cs ts) : Cut (before ++ cs) ts := by
  have htrim : ∀ cs, trimChars (before ++ cs) = trimChars cs := fun cs => by
    simpa using Text.trimChars_padded hbefore Text.AllBlank.nil cs
  cases h with
  | piece hpiece hspells =>
    exact .piece ((isPiece_of_allBlank hbefore).append hpiece) (hspells.congr (htrim _))
  | operator hpiece hspells ho hrest =>
    rw [← List.append_assoc]
    exact .operator ((isPiece_of_allBlank hbefore).append hpiece) (hspells.congr (htrim _)) ho hrest

theorem Cut.append {after cs : List Char} {ts : List Token} (hafter : AllBlank after)
    (h : Cut cs ts) : Cut (cs ++ after) ts := by
  induction h with
  | piece hpiece hspells =>
    exact .piece (hpiece.append (isPiece_of_allBlank hafter))
      (hspells.congr (Text.trimChars_padded Text.AllBlank.nil hafter _))
  | operator hpiece hspells ho _ ih =>
    rw [List.append_assoc]
    exact .operator hpiece hspells ho ih

/-- Blanks around a text are around its symbols. -/
theorem tokens_padded {before after : List Char} (hbefore : AllBlank before)
    (hafter : AllBlank after) (cs : List Char) : tokens (before ++ cs ++ after) = tokens cs :=
  (cut_iff.mp (((cut_iff.mpr rfl).prepend hbefore).append hafter)).symm

end SpecEngine.Tag

/-! ## Rows -/

namespace SpecEngine.Table

/-- A part is settled by what is left when it is trimmed. -/
theorem readPart_trimChars (cs : List Char) : readPart (Text.trimChars cs) = readPart cs := by
  rw [readPart, Text.trimChars_idem, readPart]

theorem readParts_padded {s s' : String} (h : Text.Pads s s') :
    (Text.splitOn ',' s'.toList).mapM readPart = (Text.splitOn ',' s.toList).mapM readPart := by
  have htrimmed (parts : List (List Char)) :
      (parts.map Text.trimChars).mapM readPart = parts.mapM readPart := by
    rw [List.mapM_map]
    congr 1
    exact funext readPart_trimChars
  obtain ⟨before, after, hbefore, hafter, hs⟩ := h
  rw [← htrimmed, hs, Text.splitOn_padded (by decide) hbefore hafter, htrimmed]

end SpecEngine.Table

/-! ## Values of the environment -/

namespace SpecEngine.Config

open Runner (Command)
open Text (Pads)

variable {s s' : String}

/-- The fault without the blanks around the text that it quotes. -/
def Fault.trimmed : Fault → Fault
  | .invalidRows e => .invalidRows { e with source := Text.trim e.source }
  | .invalidTags e => .invalidTags { e with source := Text.trim e.source }
  | fault => fault

/-- Two texts are read as the same value, or are at fault for the same reason. -/
def ReadAlike {α : Type} (parse : String → Except Fault α) (s s' : String) : Prop :=
  (parse s').mapError Fault.trimmed = (parse s).mapError Fault.trimmed

theorem ReadAlike.cases {α : Type} {parse : String → Except Fault α} (h : ReadAlike parse s s') :
    (∃ a, parse s = .ok a ∧ parse s' = .ok a) ∨
      ∃ fault fault', parse s = .error fault ∧ parse s' = .error fault' ∧
        fault'.trimmed = fault.trimmed := by
  rw [ReadAlike] at h
  cases hs : parse s with
  | ok a =>
    cases hs' : parse s' with
    | ok a' =>
      rw [hs, hs'] at h
      exact .inl ⟨a, rfl, h⟩
    | error fault' =>
      rw [hs, hs'] at h
      cases h
  | error fault =>
    cases hs' : parse s' with
    | ok a' =>
      rw [hs, hs'] at h
      cases h
    | error fault' =>
      rw [hs, hs'] at h
      exact .inr ⟨fault, fault', rfl, rfl, Except.error.inj h⟩

theorem strategy_readAlike (h : Pads s s') : ReadAlike Strategy.parse s s' := by
  rw [ReadAlike, Strategy.parse, h.trim_eq, Strategy.parse]

theorem tags_readAlike (h : Pads s s') : ReadAlike readTags s s' := by
  have htokens : Tag.tokens s'.toList = Tag.tokens s.toList := by
    obtain ⟨before, after, hbefore, hafter, hs⟩ := h
    rw [hs, Tag.tokens_padded hbefore hafter]
  rw [ReadAlike, readTags, readTags, Tag.Selector.parse, Tag.Selector.parse, htokens, h.trim_eq]
  cases Tag.Expr.ofTokens (Tag.tokens s.toList) with
  | ok root => rfl
  | error fault => simp [Except.mapError, Fault.trimmed, h.trim_eq]

theorem rows_readAlike (h : Pads s s') : ReadAlike readRows s s' := by
  rw [ReadAlike, readRows, readRows, Table.Rows.parse, Table.Rows.parse, Table.readParts_padded h]
  cases (Text.splitOn ',' s.toList).mapM Table.readPart with
  | ok parts => rfl
  | error fault => simp [Except.mapError, Fault.trimmed, h.trim_eq]

/-- Padded command lines start the same program with the same arguments. -/
theorem command_padded (h : Pads s s') : Command.parse s' = Command.parse s := by
  obtain ⟨before, after, hbefore, hafter, hs⟩ := h
  rw [Command.parse, hs, Text.words_padded hbefore hafter, Command.parse]

/-- The value switches something on. -/
def SwitchesOn (value : String) : Prop := onWords.contains (Text.lower value) = true

/-- A value that switches something on has no blanks. -/
theorem SwitchesOn.isBlank_eq_false {value : String} (h : SwitchesOn value) :
    ∀ c ∈ value.toList, Text.isBlank c = false := by
  have hwords : (onWords.all fun word => word.toList.all fun c => !Text.isBlank c) = true := by
    decide
  have hword := List.all_eq_true.mp hwords _ (List.contains_iff_mem.mp h)
  rw [List.all_eq_true, Text.lower, String.toList_ofList] at hword
  intro c hc
  rw [← Bool.not_eq_true]
  intro hblank
  -- the blank is left when the value is put in small letters
  have hkept := hword c (Text.mem_lowerFrom hblank hc [])
  rw [hblank] at hkept
  cases hkept

theorem SwitchesOn.isBlankText_eq_false {value : String} (h : SwitchesOn value) :
    Text.isBlankText value = false := by
  rw [← Bool.not_eq_true, Text.isBlankText, List.all_eq_true]
  intro hblank
  have hempty : value.toList = [] := Text.AllBlank.eq_nil hblank h.isBlank_eq_false
  obtain rfl : value = "" := String.toList_inj.mp hempty
  exact absurd h (by unfold SwitchesOn; decide)

/-- A padded value switches as the value does, unless it switches something on and was padded. -/
theorem switchesOn_padded (h : Pads s s') :
    (SwitchesOn s' ↔ SwitchesOn s) ↔ (SwitchesOn s → s' = s) := by
  constructor
  · intro hsame hon
    exact h.eq_of_forall (hsame.mpr hon).isBlank_eq_false
  · intro hkept
    refine ⟨fun hon => ?_, fun hon => hkept hon ▸ hon⟩
    rwa [← h.eq_of_forall hon.isBlank_eq_false]

/-! ## Padded environments -/

/-- The values that the second environment gives to the variables are those of the first one, with
blanks put around them. -/
def Padded (env env' : Lookup) : Prop :=
  ∀ name ∈ variableNames, Option.Rel Pads (env name) (env' name)

/-- Every value may be padded by the same blanks. -/
theorem padded_map {before after : String} (hbefore : Text.isBlankText before = true)
    (hafter : Text.isBlankText after = true) (env : Lookup) :
    Padded env fun name => (env name).map fun v => before ++ v ++ after := by
  intro name _
  dsimp only
  cases env name with
  | none => exact .none
  | some v =>
    exact .some ⟨before.toList, after.toList, List.all_eq_true.mp hbefore,
      List.all_eq_true.mp hafter, by simp⟩

section

variable {env env' : Lookup} {name : String}

theorem nonBlank_padded (h : Option.Rel Pads (env name) (env' name)) :
    Option.Rel Pads (nonBlank env name) (nonBlank env' name) := by
  unfold nonBlank
  generalize env name = value, env' name = value' at h
  cases h with
  | none => exact .none
  | @some v v' hpads =>
    rw [Option.filter_some, Option.filter_some, hpads.isBlankText_eq]
    split
    · exact .some hpads
    · exact .none

theorem number_padded (h : Option.Rel Pads (env name) (env' name)) (limit : Nat) :
    number env' limit name = number env limit name := by
  unfold number
  have hvalue := nonBlank_padded h
  generalize nonBlank env name = value, nonBlank env' name = value' at hvalue
  cases hvalue with
  | none => rfl
  | some hpads => rw [Option.bind_some, Option.bind_some, hpads.trimChars_eq]

end

/-! ## Configurations that mean the same -/

/-- The two configurations have the same settings, the switch left aside, and their command lines
start the same runner. -/
structure Settings.SameMeaning (c c' : Settings) : Prop where
  projectRoot : c'.projectRoot = c.projectRoot
  streams : c'.streams = c.streams
  strategy : c'.strategy = c.strategy
  maxAttempts : c'.maxAttempts = c.maxAttempts
  retryOnly : c'.retryOnly = c.retryOnly
  tags : c'.tags = c.tags
  rows : c'.rows = c.rows
  runnerTimeoutMs : c'.runnerTimeoutMs = c.runnerTimeoutMs
  runnerMultithreaded : c'.runnerMultithreaded = c.runnerMultithreaded
  command : c'.runnerCommand.map Command.parse = c.runnerCommand.map Command.parse

theorem Settings.SameMeaning.refl (c : Settings) : c.SameMeaning c :=
  ⟨rfl, rfl, rfl, rfl, rfl, rfl, rfl, rfl, rfl, rfl⟩

/-- Two changes come to configurations that mean the same, and both succeed or fail for the same
reason. -/
structure Change.Alike (x x' : Change) : Prop where
  settings : x.1.SameMeaning x'.1
  fault : x'.2.map Fault.trimmed = x.2.map Fault.trimmed

section Changes

variable {α : Type} {x x' : Change}

theorem Change.Alike.succeeds_iff (h : Change.Alike x x') : x'.2 = none ↔ x.2 = none := by
  rw [← Option.map_eq_none_iff (f := Fault.trimmed), h.fault, Option.map_eq_none_iff]

/-- Both changes go on, or none does. -/
theorem Change.Alike.cases (h : Change.Alike x x') :
    (∃ c c', x = (c, none) ∧ x' = (c', none) ∧ c.SameMeaning c') ∨
      (∃ c c' fault fault', x = (c, some fault) ∧ x' = (c', some fault')) := by
  obtain ⟨c, _ | fault⟩ := x <;> obtain ⟨c', _ | fault'⟩ := x'
  · exact .inl ⟨c, c', rfl, rfl, h.settings⟩
  · cases h.fault
  · cases h.fault
  · exact .inr ⟨c, c', fault, fault', rfl, rfl⟩

/-- Related values keep changes alike if putting them keeps configurations so. -/
theorem Change.set_alike {r : α → α → Prop} {value value' : Option α}
    {put : Settings → α → Settings} (hvalue : Option.Rel r value value')
    (hput : ∀ {c c' v v'}, c.SameMeaning c' → r v v' → (put c v).SameMeaning (put c' v'))
    (h : Change.Alike x x') : Change.Alike (Change.set value put x) (Change.set value' put x') := by
  rcases h.cases with ⟨c, c', rfl, rfl, hc⟩ | ⟨c, c', fault, fault', rfl, rfl⟩
  · cases hvalue with
    | none => exact h
    | some hv => exact ⟨hput hc hv, rfl⟩
  · cases hvalue <;> exact h

/-- So do texts that are read alike. -/
theorem Change.read_alike {text text' : Option String} {parse : String → Except Fault α}
    {put : Settings → α → Settings} (htext : Option.Rel (ReadAlike parse) text text')
    (hput : ∀ {c c' v}, c.SameMeaning c' → (put c v).SameMeaning (put c' v))
    (h : Change.Alike x x') :
    Change.Alike (Change.read text parse put x) (Change.read text' parse put x') := by
  rcases h.cases with ⟨c, c', rfl, rfl, hc⟩ | ⟨c, c', fault, fault', rfl, rfl⟩
  · cases htext with
    | none => exact h
    | @some s s' hs =>
      rcases hs.cases with ⟨a, hread, hread'⟩ | ⟨fault, fault', hread, hread', hfault⟩
      · simp only [Change.read, hread, hread']
        exact ⟨hput hc, rfl⟩
      · simp only [Change.read, hread, hread']
        exact ⟨hc, congrArg some hfault⟩
  · cases htext <;> exact h

end Changes

theorem rel_eq {α : Type} {value value' : Option α} (h : value' = value) :
    Option.Rel Eq value value' := by
  subst h
  cases value' with
  | none => exact .none
  | some v => exact .some rfl

theorem rel_imp {α : Type} {r r' : α → α → Prop} {value value' : Option α}
    (h : Option.Rel r value value') (himp : ∀ {v v'}, r v v' → r' v v') :
    Option.Rel r' value value' := by
  cases h with
  | none => exact .none
  | some hv => exact .some (himp hv)

theorem override_alike {env env' : Lookup} (h : Padded env env') (c : Settings) :
    Change.Alike (c.override (.ofEnvironment env)) (c.override (.ofEnvironment env')) := by
  have hvalue (name : String) (hname : name ∈ variableNames) := nonBlank_padded (h name hname)
  have hswitch : Option.Rel (fun _ _ => True) (switch env "PARALLEL") (switch env' "PARALLEL") := by
    unfold switch
    have hpads := hvalue "PARALLEL" (by decide)
    generalize nonBlank env "PARALLEL" = value, nonBlank env' "PARALLEL" = value' at hpads
    cases hpads with
    | none => exact .none
    | some _ => exact .some trivial
  have hstreams := number_padded (h "STREAMS" (by decide)) Text.Decimal.limit64
  have hattempts := number_padded (h "MAX_RETRIES_COUNT" (by decide)) Text.Decimal.limit32
  have htimeout := number_padded (h "RUNNER_TIMEOUT_MS" (by decide)) Text.Decimal.limit64
  unfold Settings.override
  refine Change.set_alike (rel_eq htimeout) (fun hc hv => ?_) ?_
  · exact { hc with runnerTimeoutMs := hv.symm }
  refine Change.set_alike (rel_imp (hvalue "RUNNER" (by decide)) command_padded)
    (fun hc hv => ?_) ?_
  · exact { hc with command := congrArg some hv }
  refine Change.read_alike (rel_imp (hvalue "TABLE_ROWS" (by decide)) rows_readAlike)
    (fun hc => ?_) ?_
  · exact { hc with rows := rfl }
  refine Change.read_alike (rel_imp (hvalue "TAGS" (by decide)) tags_readAlike)
    (fun hc => ?_) ?_
  · exact { hc with tags := rfl }
  refine Change.read_alike (rel_imp (hvalue "RETRY_ONLY" (by decide)) tags_readAlike)
    (fun hc => ?_) ?_
  · exact { hc with retryOnly := rfl }
  refine Change.set_alike (rel_eq hattempts) (fun hc hv => ?_) ?_
  · exact { hc with maxAttempts := hv.symm }
  refine Change.read_alike (rel_imp (hvalue "STRATEGY" (by decide)) strategy_readAlike)
    (fun hc => ?_) ?_
  · exact { hc with strategy := rfl }
  refine Change.set_alike (rel_eq hstreams) (fun hc hv => ?_) ?_
  · exact { hc with streams := hv.symm }
  refine Change.set_alike hswitch (fun hc _ => ?_) ⟨.refl c, rfl⟩
  exact { hc with }

/-- Padded values switch as the values do, unless a blank is put around one that switches on. -/
theorem override_parallel_padded {env env' : Lookup} (h : Padded env env') (c : Settings) :
    (c.override (.ofEnvironment env')).1.parallel = (c.override (.ofEnvironment env)).1.parallel ↔
      ∀ v, env "PARALLEL" = some v → SwitchesOn v → env' "PARALLEL" = some v := by
  rw [Settings.override_parallel, Settings.override_parallel]
  show (switch env' "PARALLEL").getD c.parallel = (switch env "PARALLEL").getD c.parallel ↔ _
  unfold switch nonBlank
  have hvalue := h "PARALLEL" (by decide)
  generalize env "PARALLEL" = value, env' "PARALLEL" = value' at hvalue
  cases hvalue with
  | none => simp
  | @some v v' hpads =>
    rw [Option.filter_some, Option.filter_some, hpads.isBlankText_eq]
    cases hblank : Text.isBlankText v with
    | true =>
      have hoff : ¬ SwitchesOn v := fun hon =>
        Bool.false_ne_true (hon.isBlankText_eq_false.symm.trans hblank)
      simpa using fun hon => absurd hon hoff
    | false =>
      have hsame : onWords.contains (Text.lower v') = onWords.contains (Text.lower v) ↔
          (SwitchesOn v → v' = v) := by
        rw [Bool.eq_iff_iff]
        exact switchesOn_padded hpads
      simpa using hsame

/-- Blanks around the values of the environment make no difference to whether it can be applied nor
to the configuration that it leads to, with one exception: a word that switches parallel runs on
does not do so once a blank is put around it. -/
theorem padding_immaterial {env env' : Lookup} (h : Padded env env') (c : Settings) :
    let plain := c.override (.ofEnvironment env)
    let padded := c.override (.ofEnvironment env')
    Change.Alike plain padded ∧ (padded.2 = none ↔ plain.2 = none) ∧
      (padded.1.parallel = plain.1.parallel ↔
        ∀ v, env "PARALLEL" = some v → SwitchesOn v → env' "PARALLEL" = some v) :=
  ⟨override_alike h c, (override_alike h c).succeeds_iff, override_parallel_padded h c⟩

/-- Tabs and blanks around the values of six variables, none of which switches anything on. -/
theorem six_padded_values_immaterial :
    let env := lookupIn [("STEPRUN_PARALLEL", "off"), ("STEPRUN_STREAMS", "4"),
      ("STEPRUN_STRATEGY", "Lazy"), ("STEPRUN_TAGS", "smoke & !slow"),
      ("STEPRUN_TABLE_ROWS", "1, 3-5"), ("STEPRUN_RUNNER", "run --fast")]
    let env' : Lookup := fun name => (env name).map fun v => "\t " ++ v ++ " "
    let plain := Settings.override {} (.ofEnvironment env)
    let padded := Settings.override {} (.ofEnvironment env')
    Padded env env' ∧ Change.Alike plain padded ∧ padded.2 = none ∧
      padded.1.parallel = plain.1.parallel := by
  intro env env' plain padded
  have hpadded : Padded env env' := padded_map (by decide) (by decide) env
  obtain ⟨halike, hsucceeds, hparallel⟩ := padding_immaterial hpadded {}
  refine ⟨hpadded, halike, hsucceeds.mpr (by decide), hparallel.mpr ?_⟩
  intro v hv hon
  obtain rfl : "off" = v := Option.some.inj ((by decide : some "off" = env "PARALLEL").trans hv)
  exact absurd hon (by unfold SwitchesOn; decide)

/-- A blank after the word that switches parallel runs on switches them off. -/
theorem blank_after_true_switches_off :
    let env := lookupIn [("STEPRUN_PARALLEL", "true")]
    let env' : Lookup := fun name => (env name).map fun v => "" ++ v ++ " "
    Padded env env' ∧ (Settings.override {} (.ofEnvironment env)).1.parallel = true ∧
      (Settings.override {} (.ofEnvironment env')).1.parallel = false :=
  ⟨padded_map (by decide) (by decide) _, by decide, by decide⟩

end SpecEngine.Config
