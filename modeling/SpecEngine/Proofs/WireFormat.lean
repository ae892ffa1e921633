/-
# SpecEngine.Proofs.WireFormat -- the wire loses nothing

An envelope is written as one line without control characters, and the line is read as the same
envelope again, whatever texts, tables and parameters its message holds. A sender may also leave out
members that hold the default of their field (`omittable`), anywhere in the message, and put blanks
between the parts of the text: what is read stays the same.

A message is held as a whole before it is read, so every shape inside it is read in a held scope.
`Recovers` says that a shape reads what was written of a value in such a scope, abridged or not.
There is one rule for each way to build shapes; records are read field by field (`required`,
`orElse`) and choices by their tag (`tagged_of_abridges`).
-/
import SpecEngine.Runner.Message
import SpecEngine.Proofs.JsonText

namespace SpecEngine.Runner

open Json (Shape Value Scope Slot Spells slotOf doubleLimit)

/-! ## Leaving out defaults -/

/-- The members that may be left out: each holds the default of its field. -/
def omittable : List (String × Value) := [
  ("executionArgs", .array []), ("parameters", .array []), ("rows", .array []),
  ("errorType", .null), ("errorMessage", .null), ("stackTrace", .null), ("screenshot", .null),
  ("failed", .bool false), ("recoverableError", .bool false), ("skipScenario", .bool false),
  ("executionTimeMs", .natural 0)]

mutual
/-- The second value is the first one without some of the members that may be left out. -/
inductive Abridges : Value → Value → Prop
  | same (v : Value) : Abridges v v
  | array {items items' : List Value} :
    AbridgesItems items items' → Abridges (.array items) (.array items')
  | object {ms ms' : List (String × Value)} :
    AbridgesMembers ms ms' → Abridges (.object ms) (.object ms')
/-- Every item is abridged. -/
inductive AbridgesItems : List Value → List Value → Prop
  | nil : AbridgesItems [] []
  | cons {v v' : Value} {items items' : List Value} :
    Abridges v v' → AbridgesItems items items' → AbridgesItems (v :: items) (v' :: items')
/-- Every member is abridged or, if it may be, left out. -/
inductive AbridgesMembers : List (String × Value) → List (String × Value) → Prop
  | nil : AbridgesMembers [] []
  | keep {name : String} {v v' : Value} {ms ms' : List (String × Value)} :
    Abridges v v' → AbridgesMembers ms ms' → AbridgesMembers ((name, v) :: ms) ((name, v') :: ms')
  | leaveOut {m : String × Value} {ms ms' : List (String × Value)} :
    m ∈ omittable → AbridgesMembers ms ms' → AbridgesMembers (m :: ms) ms'
end

theorem AbridgesItems.refl (items : List Value) : AbridgesItems items items := by
  induction items with
  | nil => exact .nil
  | cons v rest ih => exact .cons (.same v) ih

theorem AbridgesMembers.refl (ms : List (String × Value)) : AbridgesMembers ms ms := by
  induction ms with
  | nil => exact .nil
  | cons m rest ih => exact .keep (.same m.2) ih

theorem Abridges.array_inv {items : List Value} {v : Value} (h : Abridges (.array items) v) :
    ∃ items', v = .array items' ∧ AbridgesItems items items' := by
  cases h with
  | same => exact ⟨items, rfl, .refl items⟩
  | array hitems => exact ⟨_, rfl, hitems⟩

theorem Abridges.object_inv {ms : List (String × Value)} {v : Value}
    (h : Abridges (.object ms) v) : ∃ ms', v = .object ms' ∧ AbridgesMembers ms ms' := by
  cases h with
  | same => exact ⟨ms, rfl, .refl ms⟩
  | object hms => exact ⟨_, rfl, hms⟩

/-- Abridged members of certain names are those members, abridged. -/
theorem AbridgesMembers.filter (p : String → Bool) : ∀ {ms ms' : List (String × Value)},
    AbridgesMembers ms ms' → AbridgesMembers (ms.filter (p ·.1)) (ms'.filter (p ·.1))
  | _, _, .nil => .nil
  | _, _, @AbridgesMembers.keep name _ _ _ _ hv hms => by
    have hrest := hms.filter p
    cases hp : p name with
    | true => simpa [hp] using .keep hv hrest
    | false => simpa [hp] using hrest
  | _, _, @AbridgesMembers.leaveOut m _ _ hm hms => by
    have hrest := hms.filter p
    cases hp : p m.1 with
    | true => simpa [hp] using .leaveOut hm hrest
    | false => simpa [hp] using hrest

/-! ## Reading abridged values -/

/-- Inside a value that is held as a whole the shape reads what was written of a value, abridged or
not. -/
def Recovers {α : Type} (shape : Shape α) (encode : α → Value) : Prop :=
  ∀ {a : α} {v : Value} (depth : Nat), Abridges (encode a) v → shape ⟨depth, true⟩ v = some a

theorem recovers_string : Recovers .string .string := by
  intro s v depth h
  cases h
  rfl

theorem recovers_bool : Recovers .bool .bool := by
  intro b v depth h
  cases h
  rfl

theorem recovers_word : Recovers .word fun n : UInt64 => .natural n.toNat := by
  intro n v depth h
  cases h
  exact Shape.word_toNat _ n

theorem recovers_option {α : Type} {shape : Shape α} {encode : α → Value}
    (h : Recovers shape encode) (hnull : ∀ a, encode a ≠ .null) :
    Recovers (.option shape) (.ofOption encode) := by
  intro a v depth hv
  cases a with
  | none =>
    cases hv
    rfl
  | some a =>
    have hne : v ≠ .null := by
      rintro rfl
      generalize hu : Value.ofOption encode (some a) = u at hv
      cases hv
      exact hnull a hu
    unfold Shape.option
    split
    next => exact absurd rfl hne
    next => rw [h depth hv, Option.map_some]

theorem mapM_of_abridges {α : Type} {shape : Shape α} {encode : α → Value}
    (h : Recovers shape encode) {as : List α} {items : List Value} (depth : Nat)
    (hitems : AbridgesItems (as.map encode) items) :
    items.mapM (shape ⟨depth, true⟩) = some as := by
  induction as generalizing items with
  | nil =>
    cases hitems
    rfl
  | cons a as ih =>
    cases hitems with
    | cons ha has => simp [h depth ha, ih has]

theorem recovers_list {α : Type} {shape : Shape α} {encode : α → Value}
    (h : Recovers shape encode) : Recovers (.list shape) fun as => .array (as.map encode) := by
  intro as v depth hv
  obtain ⟨items, rfl, hitems⟩ := hv.array_inv
  exact mapM_of_abridges h depth hitems

theorem recovers_strings : Recovers .strings .strings := recovers_list recovers_string

theorem recovers_fault : Recovers StepFault.shape fun f => .string f.word := by
  intro f v depth h
  cases h
  cases f <;> simp [StepFault.shape, Shape.name, StepFault.word]

/-! ## Records -/

section

variable {α β : Type} {shape : Shape α} {encode : α → Value} {ms ms' : List (String × Value)}

/-- The slot of a member is what is left of it. -/
theorem AbridgesMembers.slot (h : AbridgesMembers ms ms') {name : String} {v : Value}
    (hname : ms.filter (·.1 == name) = [(name, v)]) (scope : Scope) :
    (∃ v', Abridges v v' ∧ slotOf scope ms' name = some (.value scope v')) ∨
      ((name, v) ∈ omittable ∧ slotOf scope ms' name = some .absent) := by
  have hfiltered := h.filter (· == name)
  rw [hname] at hfiltered
  unfold slotOf
  generalize ms'.filter (·.1 == name) = found at hfiltered
  cases hfiltered with
  | keep hv hrest =>
    cases hrest
    exact .inl ⟨_, hv, rfl⟩
  | leaveOut hm hrest =>
    cases hrest
    exact .inr ⟨hm, rfl⟩

/-- A required field is read from its member, which cannot be left out. -/
theorem AbridgesMembers.required (h : AbridgesMembers ms ms') (name : String) (a : α)
    (hshape : Recovers shape encode) (hname : ms.filter (·.1 == name) = [(name, encode a)])
    (hkept : (name, encode a) ∉ omittable) (depth : Nat) :
    ∃ slot, slotOf ⟨depth, true⟩ ms' name = some slot ∧ slot.required shape = some a := by
  rcases h.slot hname ⟨depth, true⟩ with ⟨v, hv, hslot⟩ | ⟨hm, -⟩
  · exact ⟨_, hslot, hshape depth hv⟩
  · exact absurd hm hkept

/-- A field with a default is read from its member, and where that is left out it has its value. -/
theorem AbridgesMembers.orElse (h : AbridgesMembers ms ms') (name : String) (default a : α)
    (hshape : Recovers shape encode) (hname : ms.filter (·.1 == name) = [(name, encode a)])
    (hdefault : (name, encode a) ∈ omittable → default = a) (depth : Nat) :
    ∃ slot, slotOf ⟨depth, true⟩ ms' name = some slot ∧ slot.orElse shape default = some a := by
  rcases h.slot hname ⟨depth, true⟩ with ⟨v, hv, hslot⟩ | ⟨hm, hslot⟩
  · exact ⟨_, hslot, hshape depth hv⟩
  · exact ⟨_, hslot, congrArg some (hdefault hm)⟩

/-- The first member, where it is none of the others' name and can be neither abridged nor left out,
is found by its name, and the others are what is left. -/
theorem AbridgesMembers.split {name : String} {v : Value}
    (h : AbridgesMembers ((name, v) :: ms) ms') (hothers : ∀ m ∈ ms, m.1 ≠ name)
    (hkept : (name, v) ∉ omittable) (hwhole : ∀ v', Abridges v v' → v' = v) :
    ms'.filter (·.1 == name) = [(name, v)] ∧
      AbridgesMembers ms (ms'.filter (·.1 != name)) := by
  have hnone : ms.filter (·.1 == name) = [] := by
    rw [List.filter_eq_nil_iff]
    exact fun m hm heq => hothers m hm (eq_of_beq heq)
  have hall : ms.filter (·.1 != name) = ms := by
    rw [List.filter_eq_self]
    exact fun m hm => bne_iff_ne.mpr (hothers m hm)
  have hfound := h.filter (· == name)
  have hrest := h.filter (· != name)
  simp only [List.filter_cons, beq_self_eq_true, if_true, hnone] at hfound
  simp only [List.filter_cons, bne_self_eq_false, Bool.false_eq_true, if_false, hall] at hrest
  refine ⟨?_, hrest⟩
  generalize ms'.filter (·.1 == name) = found at hfound
  cases hfound with
  | keep hv hnil =>
    cases hnil
    rw [hwhole _ hv]
  | leaveOut hm _ => exact absurd hm hkept

/-- What a tag stands in front of is read by the shape of the tag's name. -/
theorem tagged_of_abridges {tag : String} {choices : List (String × Shape β)} {choice : Shape β}
    {b : β} {name : String} {v : Value} {depth : Nat}
    (hv : Abridges (.object ((tag, .string name) :: ms)) v)
    (hchoice : choices.find? (·.1 == name) = some (name, choice)) (htag : ∀ m ∈ ms, m.1 ≠ tag)
    (hread : ∀ v', Abridges (.object ms) v' → choice ⟨depth, true⟩ v' = some b) :
    Shape.tagged tag choices ⟨depth, true⟩ v = some b := by
  obtain ⟨ms', rfl, hms⟩ := hv.object_inv
  obtain ⟨htagged, hrest⟩ :=
    hms.split htag (by simp [omittable]) (fun v' hv' => by cases hv'; rfl)
  simp [Shape.tagged, Scope.hold?, htagged, Json.tagName, hchoice, hread _ (.object hrest)]

end

theorem recovers_table : Recovers Table.Data.shape Table.Data.toJson := by
  intro t v depth h
  obtain ⟨ms, rfl, hms⟩ := h.object_inv
  obtain ⟨headers, hheaders, hreadHeaders⟩ :=
    hms.required "headers" t.headers recovers_strings (by simp) (by simp [omittable, Value.strings])
      depth
  obtain ⟨rows, hrows, hreadRows⟩ :=
    hms.orElse "rows" [] t.rows (recovers_list recovers_strings) (by simp) (by simp [omittable])
      depth
  simp [Table.Data.shape, Shape.record, Scope.enter?, hheaders, hrows, hreadHeaders, hreadRows]

theorem recovers_runArg : Recovers Item.RunArg.shape Item.RunArg.toJson := by
  intro arg v depth h
  obtain ⟨ms, rfl, hms⟩ := h.object_inv
  obtain ⟨name, hname, hreadName⟩ :=
    hms.required "name" arg.name recovers_string (by simp) (by simp [omittable]) depth
  obtain ⟨value, hvalue, hreadValue⟩ :=
    hms.required "value" arg.value recovers_strings (by simp) (by simp [omittable]) depth
  simp [Item.RunArg.shape, Shape.record, Scope.enter?, hname, hvalue, hreadName, hreadValue]

/-! ## Parts of messages -/

theorem namedText_of_abridges (make : String → String → Parameter) {name value : String} {v : Value}
    (depth : Nat)
    (h : Abridges (.object [("name", .string name), ("value", .string value)]) v) :
    namedText make ⟨depth, true⟩ v = some (make name value) := by
  obtain ⟨ms, rfl, hms⟩ := h.object_inv
  obtain ⟨slot, hslot, hread⟩ :=
    hms.required "name" name recovers_string (by simp) (by simp [omittable]) depth
  obtain ⟨slot', hslot', hread'⟩ :=
    hms.required "value" value recovers_string (by simp) (by simp [omittable]) depth
  simp [namedText, Shape.record, Scope.enter?, hslot, hslot', hread, hread']

theorem recovers_parameter : Recovers Parameter.shape Parameter.toJson := by
  intro parameter v depth h
  cases parameter with
  | static name value =>
    refine tagged_of_abridges h rfl (by simp) fun v' hv' => ?_
    exact namedText_of_abridges .static depth hv'
  | special name value =>
    refine tagged_of_abridges h rfl (by simp) fun v' hv' => ?_
    exact namedText_of_abridges .special depth hv'
  | table name t =>
    refine tagged_of_abridges h rfl (by simp) fun v' hv' => ?_
    obtain ⟨ms, rfl, hms⟩ := hv'.object_inv
    obtain ⟨slot, hslot, hread⟩ :=
      hms.required "name" name recovers_string (by simp) (by simp [omittable]) depth
    obtain ⟨slot', hslot', hread'⟩ :=
      hms.required "table" t recovers_table (by simp) (by simp [omittable]) depth
    simp [Shape.record, Scope.enter?, hslot, hslot', hread, hread']

theorem recovers_text : Recovers (.option .string) (.ofOption .string) :=
  recovers_option recovers_string (by simp)

/-- A text that is missing is written as null. -/
theorem none_of_ofOption_mem {name : String} {text : Option String}
    (h : (name, Value.ofOption .string text) ∈ omittable) : none = text := by
  cases text with
  | none => rfl
  | some s => simp [omittable, Value.ofOption] at h

theorem recovers_report : Recovers Report.shape Report.toJson := by
  intro r v depth h
  obtain ⟨ms, rfl, hms⟩ := h.object_inv
  obtain ⟨failed, hfailed, hreadFailed⟩ :=
    hms.orElse "failed" false r.failed recovers_bool (by simp) (by simp [omittable]) depth
  obtain ⟨recoverable, hrecoverable, hreadRecoverable⟩ :=
    hms.orElse "recoverableError" false r.recoverable recovers_bool (by simp) (by simp [omittable])
      depth
  obtain ⟨skip, hskip, hreadSkip⟩ :=
    hms.orElse "skipScenario" false r.skipScenario recovers_bool (by simp) (by simp [omittable])
      depth
  obtain ⟨message, hmessage, hreadMessage⟩ :=
    hms.orElse "errorMessage" none r.errorMessage recovers_text (by simp) none_of_ofOption_mem depth
  obtain ⟨trace, htrace, hreadTrace⟩ :=
    hms.orElse "stackTrace" none r.stackTrace recovers_text (by simp) none_of_ofOption_mem depth
  obtain ⟨screenshot, hscreenshot, hreadScreenshot⟩ :=
    hms.orElse "screenshot" none r.screenshot recovers_text (by simp) none_of_ofOption_mem depth
  obtain ⟨time, htime, hreadTime⟩ :=
    hms.orElse "executionTimeMs" 0 r.executionTimeMs recovers_word (by simp)
      (by simp [omittable, ← UInt64.toNat_inj, eq_comm]) depth
  simp [Report.shape, Shape.record, Scope.enter?, hfailed, hreadFailed, hrecoverable,
    hreadRecoverable, hskip, hreadSkip, hmessage, hreadMessage, htrace, hreadTrace, hscreenshot,
    hreadScreenshot, htime, hreadTime]

/-! ## Messages -/

theorem itemMessage_of_abridges (make : String → String → List String → Message)
    {fileName heading : String} {tags : List String} {v : Value} (depth : Nat)
    (h : Abridges (.object [("fileName", .string fileName), ("heading", .string heading),
      ("tags", .strings tags)]) v) :
    itemMessage make ⟨depth, true⟩ v = some (make fileName heading tags) := by
  obtain ⟨ms, rfl, hms⟩ := h.object_inv
  obtain ⟨slot, hslot, hread⟩ :=
    hms.required "fileName" fileName recovers_string (by simp) (by simp [omittable]) depth
  obtain ⟨slot', hslot', hread'⟩ :=
    hms.required "heading" heading recovers_string (by simp) (by simp [omittable]) depth
  obtain ⟨slot'', hslot'', hread''⟩ :=
    hms.required "tags" tags recovers_strings (by simp) (by simp [omittable]) depth
  simp [itemMessage, Shape.record, Scope.enter?, hslot, hslot', hslot'', hread, hread', hread'']

theorem stepMessage_of_abridges (make : String → Message) {stepText : String} {v : Value}
    (depth : Nat) (h : Abridges (.object [("stepText", .string stepText)]) v) :
    stepMessage make ⟨depth, true⟩ v = some (make stepText) := by
  obtain ⟨ms, rfl, hms⟩ := h.object_inv
  obtain ⟨slot, hslot, hread⟩ :=
    hms.required "stepText" stepText recovers_string (by simp) (by simp [omittable]) depth
  simp [stepMessage, Shape.record, Scope.enter?, hslot, hread]

/-- A message is read from what was written of it, abridged or not. -/
theorem recovers_message : Recovers Message.shape Message.toJson := by
  intro m v depth h
  cases m with
  | executionStarting stream args =>
    refine tagged_of_abridges h rfl (by simp) fun v' hv' => ?_
    obtain ⟨ms, rfl, hms⟩ := hv'.object_inv
    obtain ⟨slot, hslot, hread⟩ :=
      hms.required "stream" stream recovers_word (by simp) (by simp [omittable]) depth
    obtain ⟨slot', hslot', hread'⟩ :=
      hms.orElse "executionArgs" [] args (recovers_list recovers_runArg) (by simp)
        (by simp [omittable, eq_comm]) depth
    simp [Shape.record, Scope.enter?, hslot, hslot', hread, hread']
  | executionEnding stream =>
    refine tagged_of_abridges h rfl (by simp) fun v' hv' => ?_
    obtain ⟨ms, rfl, hms⟩ := hv'.object_inv
    obtain ⟨slot, hslot, hread⟩ :=
      hms.required "stream" stream recovers_word (by simp) (by simp [omittable]) depth
    simp [Shape.record, Scope.enter?, hslot, hread]
  | specStarting =>
    exact tagged_of_abridges h rfl (by simp) fun _ => itemMessage_of_abridges .specStarting depth
  | specEnding =>
    exact tagged_of_abridges h rfl (by simp) fun _ => itemMessage_of_abridges .specEnding depth
  | scenarioStarting =>
    exact tagged_of_abridges h rfl (by simp) fun _ => itemMessage_of_abridges .scenarioStarting depth
  | scenarioEnding =>
    exact tagged_of_abridges h rfl (by simp) fun _ => itemMessage_of_abridges .scenarioEnding depth
  | stepStarting =>
    exact tagged_of_abridges h rfl (by simp) fun _ => stepMessage_of_abridges .stepStarting depth
  | stepEnding =>
    exact tagged_of_abridges h rfl (by simp) fun _ => stepMessage_of_abridges .stepEnding depth
  | executeStep stepText parameters =>
    refine tagged_of_abridges h rfl (by simp) fun v' hv' => ?_
    obtain ⟨ms, rfl, hms⟩ := hv'.object_inv
    obtain ⟨slot, hslot, hread⟩ :=
      hms.required "stepText" stepText recovers_string (by simp) (by simp [omittable]) depth
    obtain ⟨slot', hslot', hread'⟩ :=
      hms.orElse "parameters" [] parameters (recovers_list recovers_parameter) (by simp)
        (by simp [omittable, eq_comm]) depth
    simp [Shape.record, Scope.enter?, hslot, hslot', hread, hread']
  | statusResponse report =>
    refine tagged_of_abridges h rfl (by simp) fun v' hv' => ?_
    obtain ⟨ms, rfl, hms⟩ := hv'.object_inv
    obtain ⟨slot, hslot, hread⟩ :=
      hms.required "result" report recovers_report (by simp) (by simp [omittable]) depth
    simp [Shape.record, Scope.enter?, hslot, hread]
  | validateRequest =>
    exact tagged_of_abridges h rfl (by simp) fun _ => stepMessage_of_abridges .validateRequest depth
  | validateResponse valid fault message =>
    refine tagged_of_abridges h rfl (by simp) fun v' hv' => ?_
    obtain ⟨ms, rfl, hms⟩ := hv'.object_inv
    obtain ⟨slot, hslot, hread⟩ :=
      hms.required "isValid" valid recovers_bool (by simp) (by simp [omittable]) depth
    obtain ⟨slot', hslot', hread'⟩ :=
      hms.orElse "errorType" none fault (recovers_option recovers_fault (by simp)) (by simp)
        (by cases fault <;> simp [omittable, Value.ofOption]) depth
    obtain ⟨slot'', hslot'', hread''⟩ :=
      hms.orElse "errorMessage" none message recovers_text (by simp) none_of_ofOption_mem depth
    simp [Shape.record, Scope.enter?, hslot, hslot', hslot'', hread, hread', hread'']
  | killRequest => exact tagged_of_abridges h rfl (by simp) fun _ _ => rfl

/-! ## Depth

A message nests at most five containers, which is far below the limit, its numbers are words, and
it holds nothing that is not plain. -/

/-- The value is plain and can be held with so many containers left to open. -/
def Writable (depth : Nat) (v : Value) : Prop := v.plain = true ∧ v.fits depth = true

theorem itemsFit_iff {depth : Nat} {items : List Value} :
    Json.itemsFit depth items = true ↔ ∀ v ∈ items, v.fits depth = true := by
  induction items with
  | nil => simp [Json.itemsFit]
  | cons v rest ih => simp [Json.itemsFit, ih]

theorem membersFit_iff {depth : Nat} {ms : List (String × Value)} :
    Json.membersFit depth ms = true ↔ ∀ m ∈ ms, m.2.fits depth = true := by
  induction ms with
  | nil => simp [Json.membersFit]
  | cons m rest ih => simp [Json.membersFit, ih]

theorem writable_array {depth : Nat} {items : List Value} :
    Writable (depth + 1) (.array items) ↔ ∀ v ∈ items, Writable depth v := by
  simp only [Writable, Value.plain, Value.fits, Json.plainItems_iff, itemsFit_iff, forall_and]

theorem writable_object {depth : Nat} {ms : List (String × Value)} :
    Writable (depth + 1) (.object ms) ↔ ∀ m ∈ ms, Writable depth m.2 := by
  simp only [Writable, Value.plain, Value.fits, Json.plainMembers_iff, membersFit_iff, forall_and]

section

variable (depth : Nat)

theorem writable_string (s : String) : Writable depth (.string s) := by
  simp [Writable, Value.plain, Value.fits]

theorem writable_bool (b : Bool) : Writable depth (.bool b) := by
  simp [Writable, Value.plain, Value.fits]

theorem writable_word (n : UInt64) : Writable depth (.natural n.toNat) := by
  have hlimit : 2 ^ 64 ≤ doubleLimit := by decide +kernel
  have hn : n.toNat < doubleLimit := Nat.lt_of_lt_of_le n.toNat_lt hlimit
  simp [Writable, Value.plain, Value.fits, hn]

theorem writable_text (text : Option String) : Writable depth (.ofOption .string text) := by
  cases text <;> simp [Writable, Value.ofOption, Value.plain, Value.fits]

theorem writable_fault (fault : Option StepFault) :
    Writable depth (.ofOption (fun f => .string f.word) fault) := by
  cases fault <;> simp [Writable, Value.ofOption, Value.plain, Value.fits]

theorem writable_strings (ss : List String) : Writable (depth + 1) (.strings ss) := by
  simp [Value.strings, writable_array, writable_string]

theorem writable_table (t : Table.Data) : Writable (depth + 3) t.toJson := by
  simp [Table.Data.toJson, writable_object, writable_array, writable_strings]

theorem writable_runArg (arg : Item.RunArg) : Writable (depth + 2) arg.toJson := by
  simp [Item.RunArg.toJson, writable_object, writable_string, writable_strings]

theorem writable_parameter (parameter : Parameter) : Writable (depth + 4) parameter.toJson := by
  cases parameter <;>
    simp [Parameter.toJson, writable_object, writable_string, writable_table]

theorem writable_report (r : Report) : Writable (depth + 1) r.toJson := by
  simp [Report.toJson, writable_object, writable_bool, writable_text, writable_word]

theorem writable_message (m : Message) : ∀ member ∈ m.members, Writable (depth + 5) member.2 := by
  cases m <;> simp [Message.members, writable_string, writable_word, writable_bool,
    writable_array, writable_strings, writable_text, writable_fault, writable_runArg,
    writable_parameter, writable_report]

theorem writable_envelope (e : Envelope) : Writable (depth + 6) e.toJson := by
  simp only [Envelope.toJson, writable_object, List.forall_mem_cons]
  exact ⟨writable_word _ e.id, writable_message depth e.message⟩

end

mutual
/-- What is left of a value that fits fits too. -/
theorem Abridges.fits : ∀ {v v' : Value}, Abridges v v' → ∀ {depth : Nat},
    v.fits depth = true → v'.fits depth = true
  | _, _, .same _, _, h => h
  | _, _, .array hitems, _ + 1, h => hitems.fits h
  | _, _, .object hms, _ + 1, h => hms.fits h
theorem AbridgesItems.fits : ∀ {items items' : List Value}, AbridgesItems items items' →
    ∀ {depth : Nat}, Json.itemsFit depth items = true → Json.itemsFit depth items' = true
  | _, _, .nil, _, h => h
  | _, _, .cons hv hitems, depth, h => by
    obtain ⟨hfit, hrest⟩ := Bool.and_eq_true_iff.mp h
    exact Bool.and_eq_true_iff.mpr ⟨hv.fits hfit, hitems.fits hrest⟩
theorem AbridgesMembers.fits : ∀ {ms ms' : List (String × Value)}, AbridgesMembers ms ms' →
    ∀ {depth : Nat}, Json.membersFit depth ms = true → Json.membersFit depth ms' = true
  | _, _, .nil, _, h => h
  | _, _, .keep hv hms, depth, h => by
    obtain ⟨hfit, hrest⟩ := Bool.and_eq_true_iff.mp h
    exact Bool.and_eq_true_iff.mpr ⟨hv.fits hfit, hms.fits hrest⟩
  | _, _, .leaveOut _ hms, depth, h => hms.fits (Bool.and_eq_true_iff.mp h).2
end

/-! ## Envelopes -/

theorem members_ne_id (m : Message) : ∀ member ∈ m.members, member.1 ≠ "id" := by
  cases m <;> simp [Message.members]

/-- An envelope is read from what was written of it, abridged or not. -/
theorem shape_of_abridges {e : Envelope} {v : Value} (h : Abridges e.toJson v) :
    Envelope.shape .top v = some e := by
  obtain ⟨ms, rfl, hms⟩ := h.object_inv
  obtain ⟨hid, hrest⟩ := hms.split (members_ne_id e.message) (by simp [omittable])
    (fun v' hv' => by cases hv'; rfl)
  have hwritten : Json.membersFit 126 e.message.members = true :=
    membersFit_iff.mpr fun m hm => (writable_message 121 e.message m hm).2
  have hfits : (ms.filter (·.1 != "id")).all (fun m => m.2.fits 126) = true :=
    List.all_eq_true.mpr (membersFit_iff.mp (hrest.fits hwritten))
  have hword := Shape.word_toNat ⟨126, false⟩ e.id
  have hmessage := recovers_message 126 (.object hrest)
  simp [Envelope.shape, Scope.top, Scope.enter?, hid, hfits, hword, hmessage]

/-- An envelope is read from any spelling of what was written of it, abridged or not. -/
theorem ofLine_spells {e : Envelope} {v : Value} {cs : List Char} (h : Abridges e.toJson v)
    (hcs : Spells v cs) : Envelope.ofLine (String.ofList cs) = some e := by
  simp [Envelope.ofLine, Json.readText, Json.ofText, Json.parse_spells hcs, shape_of_abridges h]

theorem line_printable (e : Envelope) : Json.Printable e.line.toList := by
  rw [Envelope.line, Value.compact, String.toList_ofList]
  exact Json.render_printable (writable_envelope 0 e).1

theorem ofLine_line (e : Envelope) : Envelope.ofLine e.line = some e :=
  ofLine_spells (.same e.toJson) (Json.render_spells (writable_envelope 0 e).1)

/-- The wire loses nothing. The line of an envelope has no line break in it, nor any other control
character, and it is read as that envelope. What a sender makes of the envelope by leaving out
members that hold their defaults is read as the same envelope, in whatever way it is spelled. -/
theorem wire_lossless (e : Envelope) :
    '\n' ∉ e.line.toList ∧ Json.Printable e.line.toList ∧ Envelope.ofLine e.line = some e ∧
    ∀ v cs, Abridges e.toJson v → Spells v cs → Envelope.ofLine (String.ofList cs) = some e := by
  refine ⟨?_, line_printable e, ofLine_line e, fun v cs => ofLine_spells⟩
  intro hbreak
  exact absurd (line_printable e '\n' hbreak) (by decide)

/-- A failed report as a sender may write it who leaves out what it can. -/
def shortReport : Value := .object [
  ("id", .natural 7), ("messageType", .string "ExecutionStatusResponse"),
  ("result", .object [("failed", .bool true)])]

/-- It is read as the report with the defaults in all other fields. -/
theorem shortReport_read :
    Abridges (Envelope.toJson ⟨7, .statusResponse { failed := true }⟩) shortReport ∧
    Envelope.ofLine shortReport.compact = some ⟨7, .statusResponse { failed := true }⟩ := by
  have hreport : Abridges (Report.toJson { failed := true }) (.object [("failed", .bool true)]) := by
    refine .object (.keep (.same _) ?_)
    repeat refine .leaveOut (by simp [omittable, Value.ofOption]) ?_
    exact .nil
  have habridges : Abridges (Envelope.toJson ⟨7, .statusResponse { failed := true }⟩) shortReport :=
    .object (.keep (.same _) (.keep (.same _) (.keep hreport .nil)))
  obtain ⟨-, -, -, hread⟩ := wire_lossless ⟨7, .statusResponse { failed := true }⟩
  exact ⟨habridges, hread shortReport _ habridges (Json.render_spells rfl)⟩

end SpecEngine.Runner
