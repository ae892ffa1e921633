/-
# SpecEngine.Proofs.KindDispatch -- which kind resolves a special argument

A token is cut at its first colon. What stands before it names a kind, outer blanks and case aside,
and of the kinds that were registered under this name the latest resolves what stands behind,
further colons included. The kinds that are there from the start count as registered first, so they
can be replaced like any other. A token without a colon, or with a name that no kind was registered
under, is unknown; otherwise the fault, if there is one, is the kind's own.

A kind is looked for from the latest registration backwards. One more registration changes what is
found under its own name and nothing else, and from this step the whole history follows.
-/
import SpecEngine.Proofs.Readings
import SpecEngine.Special.Arguments

namespace SpecEngine.Special

/-- A kind with the name that it is registered under. -/
abbrev Registration := String × Kind

variable {history : List Registration} {key name rest token : String} {kind : Kind}

/-! ## The latest kind of a name -/

/-- Under a name that is the given one in small letters the kind was registered, and after it no
other. -/
def Latest (history : List Registration) (key : String) (kind : Kind) : Prop :=
  ∃ earlier name later, history = earlier ++ (name, kind) :: later ∧ Text.lower name = key ∧
    ∀ call ∈ later, Text.lower call.1 ≠ key

/-- No kind was registered under such a name. -/
def Unregistered (history : List Registration) (key : String) : Prop :=
  ∀ call ∈ history, Text.lower call.1 ≠ key

/-- One more registration is the latest under its own name. Under others the latest stays. -/
theorem latest_snoc {call : Registration} :
    Latest (history ++ [call]) key kind ↔
      Text.lower call.1 = key ∧ call.2 = kind ∨
        Text.lower call.1 ≠ key ∧ Latest history key kind := by
  constructor
  · rintro ⟨earlier, name, later, hhistory, hname, hlater⟩
    rcases List.eq_nil_or_concat' later with rfl | ⟨later, last, rfl⟩
    · obtain ⟨-, hcall⟩ := List.append_inj' hhistory rfl
      obtain rfl := List.singleton_inj.mp hcall
      exact .inl ⟨hname, rfl⟩
    · rw [← List.cons_append, ← List.append_assoc] at hhistory
      obtain ⟨hfront, hcall⟩ := List.append_inj' hhistory rfl
      obtain rfl := List.singleton_inj.mp hcall
      obtain ⟨hkept, hlast⟩ := List.forall_mem_append.mp hlater
      exact .inr ⟨hlast _ List.mem_cons_self, earlier, name, later, hfront, hname, hkept⟩
  · rintro (⟨hname, rfl⟩ | ⟨hother, earlier, name, later, rfl, hname, hlater⟩)
    · exact ⟨history, call.1, [], rfl, hname, by simp⟩
    · refine ⟨earlier, name, later ++ [call], by simp, hname, ?_⟩
      exact List.forall_mem_append.mpr ⟨hlater, List.forall_mem_singleton.mpr hother⟩

/-- A name has a latest kind unless nothing was registered under it. -/
theorem unregistered_or_latest (history : List Registration) (key : String) :
    Unregistered history key ∨ ∃ kind, Latest history key kind := by
  induction history using List.reverseRecOn with
  | nil => exact .inl (by simp [Unregistered])
  | append_singleton history call ih =>
    by_cases hname : Text.lower call.1 = key
    · exact .inr ⟨call.2, latest_snoc.mpr (.inl ⟨hname, rfl⟩)⟩
    · rcases ih with hnone | ⟨kind, hkind⟩
      · exact .inl (List.forall_mem_append.mpr ⟨hnone, List.forall_mem_singleton.mpr hname⟩)
      · exact .inr ⟨kind, latest_snoc.mpr (.inr ⟨hname, hkind⟩)⟩

namespace Kinds

/-- Registers kinds, one after the other. -/
def registerAll (kinds : Kinds) (calls : List Registration) : Kinds :=
  calls.foldl (fun kinds call => kinds.register call.1 call.2) kinds

theorem registerAll_snoc (kinds : Kinds) (calls : List Registration) (call : Registration) :
    kinds.registerAll (calls ++ [call]) = (kinds.registerAll calls).register call.1 call.2 := by
  rw [registerAll, List.foldl_append, registerAll, List.foldl_cons, List.foldl_nil]

theorem registerAll_append (kinds : Kinds) (calls later : List Registration) :
    kinds.registerAll (calls ++ later) = (kinds.registerAll calls).registerAll later :=
  List.foldl_append

theorem find?_register (kinds : Kinds) (name : String) (kind : Kind) (key : String) :
    (kinds.register name kind).find? key =
      if Text.lower name = key then some kind else kinds.find? key := by
  rw [find?, register, List.find?_cons]
  split
  next hname => rw [if_pos (eq_of_beq hname), Option.map_some]
  next hother => rw [if_neg (ne_of_beq_false hother), find?]

/-- What is found under a name is the latest kind of the history. -/
theorem find?_of_latest (h : Latest history key kind) :
    (({} : Kinds).registerAll history).find? key = some kind := by
  induction history using List.reverseRecOn with
  | nil =>
    obtain ⟨earlier, _, _, hnil, -, -⟩ := h
    cases earlier <;> cases hnil
  | append_singleton history call ih =>
    rw [registerAll_snoc, find?_register]
    rcases latest_snoc.mp h with ⟨hname, rfl⟩ | ⟨hother, hlatest⟩
    · rw [if_pos hname]
    · rw [if_neg hother, ih hlatest]

theorem find?_of_unregistered (h : Unregistered history key) :
    (({} : Kinds).registerAll history).find? key = none := by
  induction history using List.reverseRecOn with
  | nil => rfl
  | append_singleton history call ih =>
    obtain ⟨hhistory, hcall⟩ := List.forall_mem_append.mp h
    rw [registerAll_snoc, find?_register, if_neg (hcall call List.mem_cons_self), ih hhistory]

end Kinds

/-! ## Tokens -/

/-- The token is a name and what stands behind its first colon. -/
def SplitsAs (token name rest : String) : Prop := token = name ++ ":" ++ rest ∧ ':' ∉ name.toList

theorem cutAt_splitsAs (h : SplitsAs token name rest) :
    Text.cutAt ':' token.toList = some (name.toList, rest.toList) := by
  obtain ⟨rfl, hname⟩ := h
  have htoken : (name ++ ":" ++ rest).toList = name.toList ++ ':' :: rest.toList := by simp
  rw [htoken, Text.cutAt_append_cons hname]

/-- A token is cut at its first colon if it has one. -/
theorem notMem_or_splitsAs (token : String) :
    ':' ∉ token.toList ∨ ∃ name rest, SplitsAs token name rest := by
  by_cases hcolon : ':' ∈ token.toList
  · obtain ⟨before, after, htoken, hbefore⟩ := List.eq_append_cons_of_mem hcolon
    refine .inr ⟨String.ofList before, String.ofList after, ?_, by simpa using hbefore⟩
    apply String.toList_inj.mp
    simpa using htoken
  · exact .inl hcolon

/-- The kind that the token calls, and the value that it is called with. -/
def Calls (history : List Registration) (token : String) (kind : Kind) (value : String) : Prop :=
  ∃ name rest, SplitsAs token name rest ∧ Latest history (Text.lower (Text.trim name)) kind ∧
    value = Text.trim rest

/-- The token calls nothing: it has no colon, or a name that nothing was registered under. -/
def CallsNothing (history : List Registration) (token : String) : Prop :=
  ':' ∉ token.toList ∨
    ∃ name rest, SplitsAs token name rest ∧ Unregistered history (Text.lower (Text.trim name))

theorem callsNothing_or_calls (history : List Registration) (token : String) :
    CallsNothing history token ∨ ∃ kind value, Calls history token kind value := by
  rcases notMem_or_splitsAs token with hcolon | ⟨name, rest, hsplits⟩
  · exact .inl (.inl hcolon)
  · rcases unregistered_or_latest history (Text.lower (Text.trim name)) with hnone | ⟨kind, hkind⟩
    · exact .inl (.inr ⟨name, rest, hsplits, hnone⟩)
    · exact .inr ⟨kind, Text.trim rest, name, rest, hsplits, hkind, rfl⟩

namespace Kinds

theorem resolve_of_calls {value : String} (h : Calls history token kind value) :
    (({} : Kinds).registerAll history).resolve token =
      (kind value).mapError (.invalid token) := by
  obtain ⟨name, rest, hsplits, hlatest, rfl⟩ := h
  have hfound := find?_of_latest hlatest
  rw [resolve, cutAt_splitsAs hsplits]
  dsimp only
  rw [← Text.trim, hfound, Text.trim]

theorem resolve_of_callsNothing (h : CallsNothing history token) :
    (({} : Kinds).registerAll history).resolve token = .error (.unknownKind token) := by
  rcases h with hcolon | ⟨name, rest, hsplits, hnone⟩
  · rw [resolve, Text.cutAt_eq_none hcolon]
  · have hfound := find?_of_unregistered hnone
    rw [resolve, cutAt_splitsAs hsplits]
    dsimp only
    rw [← Text.trim, hfound]

/-- A kind's own fault is never that of an unknown kind. -/
theorem mapError_invalid_ne (x : Except String Meaning) (token token' : String) :
    x.mapError (Fault.invalid token) ≠ .error (.unknownKind token') := by
  cases x <;> simp [Except.mapError]

theorem resolve_eq_unknownKind_iff {token' : String} :
    (({} : Kinds).registerAll history).resolve token = .error (.unknownKind token') ↔
      token' = token ∧ CallsNothing history token := by
  constructor
  · intro hresolve
    rcases callsNothing_or_calls history token with hnothing | ⟨kind, value, hcalls⟩
    · rw [resolve_of_callsNothing hnothing] at hresolve
      cases hresolve
      exact ⟨rfl, hnothing⟩
    · rw [resolve_of_calls hcalls] at hresolve
      exact absurd hresolve (mapError_invalid_ne _ _ _)
  · rintro ⟨rfl, hnothing⟩
    exact resolve_of_callsNothing hnothing

end Kinds

/-! ## Resolving a token -/

/-- The text of a file, by its path from the project root. -/
def fileKind (disk : Disk) (projectRoot : String) : Kind := fun value =>
  ((disk.readText (Disk.join projectRoot value)).mapError DiskFault.text).map .text

/-- The table in a file, by its path from the project root. -/
def tableKind (disk : Disk) (projectRoot : String) : Kind := fun value => do
  let text ← (disk.readText (Disk.join projectRoot value)).mapError DiskFault.text
  ((Table.Data.ofCsv text).mapError Table.CsvFault.text).map .table

/-- The kinds that are there from the start, in the order in which they are registered. -/
def builtIns (disk : Disk) (projectRoot : String) : List Registration :=
  [("file", fileKind disk projectRoot), ("table", tableKind disk projectRoot)]

theorem Kinds.builtIn_eq (disk : Disk) (projectRoot : String) :
    Kinds.builtIn disk projectRoot = ({} : Kinds).registerAll (builtIns disk projectRoot) := rfl

/-- After any registrations a token is resolved by the kind that it calls, with the value that it
calls it with: the result is the kind's, or its reason together with the token. It is unknown
exactly when it calls nothing, and then the fault names the whole token. Every name without a colon
and without outer blanks that was registered is one that tokens can call. -/
theorem latest_kind_resolves (disk : Disk) (projectRoot : String) (calls : List Registration)
    (token : String) :
    let history := builtIns disk projectRoot ++ calls
    let kinds := (Kinds.builtIn disk projectRoot).registerAll calls
    (∀ kind value, Calls history token kind value →
      kinds.resolve token = (kind value).mapError (.invalid token)) ∧
    (∀ token', kinds.resolve token = .error (.unknownKind token') ↔
      token' = token ∧ CallsNothing history token) ∧
    (CallsNothing history token ∨ ∃ kind value, Calls history token kind value) ∧
    ∀ call ∈ history, ':' ∉ call.1.toList → Text.trim call.1 = call.1 → ∀ value,
      ∃ kind, Latest history (Text.lower call.1) kind ∧
        kinds.resolve (call.1 ++ ":" ++ value) =
          (kind (Text.trim value)).mapError (.invalid (call.1 ++ ":" ++ value)) := by
  intro history kinds
  have hkinds : kinds = ({} : Kinds).registerAll history := by
    rw [Kinds.registerAll_append, ← Kinds.builtIn_eq]
  rw [hkinds]
  refine ⟨fun kind value => Kinds.resolve_of_calls, fun token' => Kinds.resolve_eq_unknownKind_iff,
    callsNothing_or_calls history token, fun call hcall hcolon htrim value => ?_⟩
  rcases unregistered_or_latest history (Text.lower call.1) with hnone | ⟨kind, hlatest⟩
  · exact absurd rfl (hnone call hcall)
  · refine ⟨kind, hlatest, Kinds.resolve_of_calls ⟨call.1, value, ⟨rfl, hcolon⟩, ?_, rfl⟩⟩
    rwa [htrim]

/-- A kind that puts a mark before its value. -/
def marked (mark : String) : Kind := fun value => .ok (.text (mark ++ value))

/-- The same name registered twice, and one of the kinds that are there from the start replaced. -/
def replacing : List Registration :=
  [("Env", marked "first "), ("ENV", marked "second "), ("File", fun _ => .error "no files")]

/-- The later kind of a name resolves a token with blanks and two colons, and the replaced kind is
out of use. -/
theorem replaced_kinds_resolve :
    let disk : Disk := { root := "/p" }
    let history := builtIns disk "/p" ++ replacing
    let kinds := (Kinds.builtIn disk "/p").registerAll replacing
    Calls history " eNv : HOME:x " (marked "second ") "HOME:x" ∧
      kinds.resolve " eNv : HOME:x " = .ok (.text "second HOME:x") ∧
      (∃ kind, Latest history "file" kind ∧ kinds.resolve ("File" ++ ":" ++ "a") =
        (kind (Text.trim "a")).mapError (.invalid ("File" ++ ":" ++ "a"))) ∧
      kinds.resolve "files:a" = .error (.unknownKind "files:a") := by
  intro disk history kinds
  have hcalls : Calls history " eNv : HOME:x " (marked "second ") "HOME:x" := by
    refine ⟨" eNv ", " HOME:x ", ⟨by decide, by decide⟩, ?_, by decide⟩
    exact ⟨builtIns disk "/p" ++ [("Env", marked "first ")], "ENV", _, rfl, by decide, by decide⟩
  have hnothing : CallsNothing history "files:a" := by
    refine .inr ⟨"files", "a", ⟨by decide, by decide⟩, ?_⟩
    simp only [Unregistered, history, builtIns, replacing, List.cons_append, List.nil_append,
      List.forall_mem_cons]
    exact ⟨by decide, by decide, by decide, by decide, by decide, by simp⟩
  obtain ⟨hresolved, -⟩ := latest_kind_resolves disk "/p" replacing " eNv : HOME:x "
  obtain ⟨-, hunknown, -, hreached⟩ := latest_kind_resolves disk "/p" replacing "files:a"
  have hfile := hreached ("File", fun _ => .error "no files")
    (by simp [replacing]) (by decide) (by decide) "a"
  exact ⟨hcalls, hresolved _ _ hcalls, hfile, (hunknown _).mpr ⟨rfl, hnothing⟩⟩

end SpecEngine.Special
