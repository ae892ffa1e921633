/-
# SpecEngine.Proofs.StoredRecords -- records survive the disk

A record that is written is read as the same record, whatever stood in its file. The written form
of either record is read as that record again, up to the largest counters and with any characters in
its texts, and a file holds exactly what was written last.

Writing needs no more than a project root that is a directory (`HasRoom`): the directory of the
records is there or is made, and the file is there or is made. The way to a file in a directory is
the way to the directory and one step more, whether or not a slash stands at the end of the
directory's path. What a path means depends on the name of the top directory, so none of the paths
may be that name.
-/
import SpecEngine.Proofs.JsonText
import SpecEngine.Proofs.Storage

/-! ## Written forms -/

namespace SpecEngine.Record

open Json (Shape Value Scope)

theorem Status.shape_toJson (s : Status) : Status.shape .top s.toJson = some s := by
  simp [Status.shape, Status.toJson, Shape.record, Scope.top, Scope.enter?, Json.slotOf,
    Json.Slot.required, Shape.string, Shape.word_toNat]

/-- A list that is written item by item is read item by item. -/
theorem list_written {α : Type} {shape : Shape α} {encode : α → Value} {scope inner : Scope}
    (hinner : scope.enter? = some inner) (h : ∀ a, shape inner (encode a) = some a) (as : List α) :
    Shape.list shape scope (.array (as.map encode)) = some as := by
  rw [Shape.list, hinner, Option.bind_eq_bind, Option.bind_some]
  induction as with
  | nil => rfl
  | cons a as ih => rw [List.map_cons, List.mapM_cons, h a, ih]; rfl

theorem Failures.shape_toJson (f : Failures) : Failures.shape .top f.toJson = some f := by
  show (Shape.list _ ⟨126, false⟩ (.array (f.scenarios.map _))).bind (some ∘ Failures.mk) = some f
  have hinner : Scope.enter? ⟨126, false⟩ = some ⟨125, false⟩ := rfl
  rw [list_written hinner]
  · rfl
  · intro sc
    simp [Shape.record, Scope.enter?, Json.slotOf, Json.Slot.required, Shape.string,
      Shape.word_toNat]

theorem Failures.plain_toJson (f : Failures) : f.toJson.plain = true := by
  have hitems : Json.plainItems (f.scenarios.map fun sc =>
      .object [("fileName", .string sc.fileName), ("line", .natural sc.line.toNat)]) = true := by
    rw [Json.plainItems_iff, List.forall_mem_map]
    exact fun _ _ => rfl
  simpa [Failures.toJson, Value.plain, Json.plainMembers] using hitems

/-- The compact text of the status record is read as the record. -/
theorem Status.ofFileText_fileText (s : Status) : Status.ofFileText s.fileText = some s := by
  rw [Status.ofFileText, Json.readText, Status.fileText, Json.ofText_compact rfl]
  exact s.shape_toJson

/-- The indented text of the failures record is read as the record. -/
theorem Failures.ofFileText_fileText (f : Failures) :
    Failures.ofFileText f.fileText = some f := by
  rw [Failures.ofFileText, Json.readText, Failures.fileText, Json.ofText_pretty f.plain_toJson]
  exact f.shape_toJson

end SpecEngine.Record

/-! ## Paths in a directory -/

namespace SpecEngine.Text

open String.Slice.Pattern in
theorem endsWith_iff {s t : String} : s.endsWith t = true ↔ ∃ stem, s = stem ++ t := by
  rw [← String.endsWith_toSlice, Model.endsWith_iff,
    Model.ForwardStringSearcher.revMatchesAt_iff_splits]
  simp [eq_comm]

variable {name : String}

theorem fields_of_notMem (h : '/' ∉ name.toList) : fields '/' name = [name] := by
  rw [fields, splitOn_singleton h, List.map_singleton, String.ofList_toList]

/-- A name below a directory is a field of its own. -/
theorem fields_below (h : '/' ∉ name.toList) (dir : String) :
    fields '/' (dir ++ "/" ++ name) = fields '/' dir ++ [name] := by
  have hlist : (dir ++ "/" ++ name).toList = dir.toList ++ '/' :: name.toList := by simp
  rw [fields, hlist, splitOn_append_cons, List.map_append, ← fields, ← fields,
    fields_of_notMem h]

/-- A slash that begins a path to a name below a directory stands in front of this name, or the
directory's path goes on behind it. -/
theorem startsWith_below (top : String) (h : '/' ∉ name.toList) (dir : String) :
    (dir ++ "/" ++ name).startsWith (top ++ "/") = true ↔
      dir = top ∨ dir.startsWith (top ++ "/") = true := by
  rw [startsWith_iff, startsWith_iff]
  constructor
  · rintro ⟨rest, hpath⟩
    have hlist : dir.toList ++ '/' :: name.toList = top.toList ++ '/' :: rest.toList := by
      simpa using congrArg String.toList hpath
    rcases List.append_eq_append_iff.mp hlist with ⟨between, htop, hname⟩ | ⟨between, hdir, hrest⟩
    · cases between with
      | nil => exact .inl (String.toList_inj.mp (by simpa using htop.symm))
      | cons c cs =>
        have hslash : '/' ∈ name.toList := by
          rw [(List.cons.inj hname).2]
          exact List.mem_append_right cs List.mem_cons_self
        exact absurd hslash h
    · cases between with
      | nil => exact .inl (String.toList_inj.mp (by simpa using hdir))
      | cons c cs =>
        obtain ⟨rfl, -⟩ := List.cons.inj hrest
        exact .inr ⟨String.ofList cs, String.toList_inj.mp (by simp [hdir])⟩
  · rintro (rfl | ⟨rest, rfl⟩)
    · exact ⟨name, rfl⟩
    · exact ⟨rest ++ "/" ++ name, by simp only [String.append_assoc]⟩

end SpecEngine.Text

namespace SpecEngine.Disk

variable {d d' : Disk} {dir name : String} {place : Place}

/-- A path that is neither the top directory's nor below it. -/
theorem names_elsewhere {path : String} (hroot : path ≠ d.root)
    (hbelow : ¬(path.startsWith (d.root ++ "/") = true)) :
    d.names path = (if path.startsWith "/" then [".."] else []) ++ Text.fields '/' path := by
  rw [names, if_neg hroot, if_neg hbelow]
  split <;> rfl

/-- The names of a path below a directory are the directory's and one more. -/
theorem names_below (d : Disk) (dir : String) :
    ∃ way, (dir ≠ "" → d.names dir = way) ∧
      ∀ name, '/' ∉ name.toList → dir ++ "/" ++ name ≠ d.root →
        d.names (dir ++ "/" ++ name) = way ++ [name] := by
  by_cases hroot : dir = d.root
  · subst hroot
    refine ⟨[], fun _ => d.names_root, fun name hname _ => ?_⟩
    rw [names_inside, Text.fields_of_notMem hname, List.nil_append]
  by_cases hbelow : dir.startsWith (d.root ++ "/") = true
  · obtain ⟨rest, rfl⟩ := Text.startsWith_iff.mp hbelow
    refine ⟨Text.fields '/' rest, fun _ => d.names_inside rest, fun name hname _ => ?_⟩
    have hpath : d.root ++ "/" ++ rest ++ "/" ++ name = d.root ++ "/" ++ (rest ++ "/" ++ name) := by
      simp only [String.append_assoc]
    rw [hpath, names_inside, Text.fields_below hname]
  · -- only the first slash tells paths apart that lead elsewhere
    have hslash : ∀ name : String, '/' ∉ name.toList →
        ((dir ++ "/" ++ name).startsWith "/" = true ↔ dir = "" ∨ dir.startsWith "/" = true) :=
      fun name hname => Text.startsWith_below "" hname dir
    refine ⟨(if dir = "" ∨ dir.startsWith "/" = true then [".."] else []) ++ Text.fields '/' dir,
      fun hne => ?_, fun name hname hapart => ?_⟩
    · rw [names_elsewhere hroot hbelow]
      simp only [hne, false_or]
    · have hnot : ¬((dir ++ "/" ++ name).startsWith (d.root ++ "/") = true) := by
        rw [Text.startsWith_below _ hname]
        exact not_or.mpr ⟨hroot, hbelow⟩
      rw [names_elsewhere hapart hnot, Text.fields_below hname, List.append_assoc]
      simp only [hslash name hname]

/-- No name is no step. -/
theorem enter_blank {q : Place} (h : d.enter place "" = .ok q) : q = place := by
  rw [enter, enter_dir h] at h
  exact (Except.ok.inj h).symm

/-- The way to a name in a directory is a way to the directory and one step more. -/
theorem LeadsTo.below (hdir : d.LeadsTo dir place) (htop : d.root.endsWith "/" = false)
    (hne : dir ≠ "") (hname : '/' ∉ name.toList) (hapart : join dir name ≠ d.root) :
    ∃ way, d.names (join dir name) = way ++ [name] ∧ way.foldlM d.enter [] = .ok place := by
  rw [join, if_neg (Text.not_startsWith_slash hname)] at hapart ⊢
  rw [LeadsTo] at hdir
  have hempty : dir.isEmpty = false := by simpa using hne
  cases hends : dir.endsWith "/" with
  | true =>
    -- the directory's path ends with a blank name, in place of which the name stands
    obtain ⟨stem, rfl⟩ := Text.endsWith_iff.mp hends
    obtain ⟨way, -, hbelow⟩ := d.names_below stem
    have hself : d.names (stem ++ "/") = way ++ [""] := by
      have hroot : stem ++ "/" ≠ d.root := by
        intro hroot
        rw [← hroot, hends] at htop
        cases htop
      simpa using hbelow "" (by simp) (by simpa using hroot)
    rw [hends, Bool.or_true, if_pos rfl] at hapart
    rw [Bool.or_true, if_pos rfl]
    refine ⟨way, hbelow name hname hapart, ?_⟩
    rw [hself, List.foldlM_append] at hdir
    obtain ⟨q, hq, hlast⟩ := bind_eq_ok hdir
    rw [List.foldlM_cons] at hlast
    obtain ⟨q', hblank, hend⟩ := bind_eq_ok hlast
    rw [hq, ← enter_blank hblank]
    exact hend
  | false =>
    obtain ⟨way, hself, hbelow⟩ := d.names_below dir
    rw [hempty, hends, Bool.or_false, if_neg Bool.false_ne_true] at hapart
    rw [hempty, Bool.or_false, if_neg Bool.false_ne_true]
    rw [hself hne] at hdir
    exact ⟨way, hbelow name hname hapart, hdir⟩

theorem join_ne_empty (h : name ≠ "") (dir : String) : join dir name ≠ "" := by
  rw [join]
  split
  · exact h
  · split <;> simp [h]

/-! ## Steps that succeed -/

/-- A name that a directory can hold. -/
structure IsName (name : String) : Prop extends IsProper name where
  no_slash : '/' ∉ name.toList
  short : name.utf8ByteSize ≤ 255

theorem enter_name (hname : IsName name) (hdir : d.node? place = some .dir) :
    d.enter place name = .ok (place ++ [name]) := by
  have hstays : (decide (name = ".") || name.isEmpty) = false := by
    simp [hname.nonempty, hname.not_here]
  rw [enter, hdir]
  simp only [hstays, Bool.false_eq_true, if_false, if_neg hname.not_above,
    if_neg (Nat.not_lt_of_le hname.short)]

/-- Where there are directories already, making them is going along. -/
theorem makeDirs_append {way rest : List String} {start : Place}
    (hway : way.foldlM d.enter start = .ok place) (hdir : d.node? place = some .dir) :
    d.makeDirs start (way ++ rest) = d.makeDirs place rest := by
  induction way generalizing start with
  | nil =>
    obtain rfl := Except.ok.inj hway
    rfl
  | cons name way ih =>
    rw [List.foldlM_cons] at hway
    obtain ⟨next, hname, hway⟩ := bind_eq_ok hway
    have hnext : d.node? next = some .dir := by
      cases way with
      | nil => exact Except.ok.inj hway ▸ hdir
      | cons other way =>
        rw [List.foldlM_cons] at hway
        obtain ⟨_, hother, -⟩ := bind_eq_ok hway
        exact enter_dir hother
    rw [List.cons_append, makeDirs, hname]
    simp only [bind, Except.bind, hnext]
    exact ih hway

/-- Where no file stands, a directory is or can be made, and nothing else changes. -/
theorem makeDirs_one (hname : IsName name) (hdir : d.node? place = some .dir)
    (hfree : ∀ bytes, d.node? (place ++ [name]) ≠ some (.file bytes)) :
    ∃ d', d.makeDirs place [name] = .ok d' ∧ d'.node? (place ++ [name]) = some .dir ∧
      ∀ p ≠ place ++ [name], d'.node? p = d.node? p := by
  rw [makeDirs, enter_name hname hdir]
  cases hnode : d.node? (place ++ [name]) with
  | none =>
    refine ⟨d.put (place ++ [name]) .dir, by simp [bind, Except.bind, hnode, makeDirs], ?_, ?_⟩
    · simp [node?_put]
    · intro p hp
      rw [node?_put, if_neg hp]
      split
      next houtside => exact (node?_outside d houtside).symm
      next => rfl
  | some node =>
    cases node with
    | dir => exact ⟨d, by simp [bind, Except.bind, hnode, makeDirs], hnode, fun _ _ => rfl⟩
    | file bytes => exact absurd hnode (hfree bytes)

theorem LeadsTo.join (hdir : d.LeadsTo dir place) (htop : d.root.endsWith "/" = false)
    (hne : dir ≠ "") (hnode : d.node? place = some .dir) (hname : IsName name)
    (hapart : Disk.join dir name ≠ d.root) : d.LeadsTo (Disk.join dir name) (place ++ [name]) := by
  obtain ⟨way, hnames, hway⟩ := hdir.below htop hne hname.no_slash hapart
  rw [LeadsTo, hnames, List.foldlM_append, hway]
  show [name].foldlM d.enter place = _
  rw [List.foldlM_cons, enter_name hname hnode]
  rfl

/-- A directory in a directory is there or can be made. -/
theorem LeadsTo.createDirs (hdir : d.LeadsTo dir place) (htop : d.root.endsWith "/" = false)
    (hne : dir ≠ "") (hnode : d.node? place = some .dir) (hname : IsName name)
    (hapart : Disk.join dir name ≠ d.root)
    (hfree : ∀ bytes, d.node? (place ++ [name]) ≠ some (.file bytes)) :
    ∃ d', d.createDirs (Disk.join dir name) = .ok d' ∧
      d'.LeadsTo (Disk.join dir name) (place ++ [name]) ∧
      d'.node? (place ++ [name]) = some .dir ∧
      ∀ p ≠ place ++ [name], d'.node? p = d.node? p := by
  obtain ⟨way, hnames, hway⟩ := hdir.below htop hne hname.no_slash hapart
  obtain ⟨d', hmade, hthere, hothers⟩ := makeDirs_one hname hnode hfree
  have hcreated : d.createDirs (Disk.join dir name) = .ok d' := by
    rw [Disk.createDirs, hnames, makeDirs_append hway hnode, hmade]
  have hkeeps := (makeDirs_keeps hcreated).keepsDirs
  exact ⟨d', hcreated, hkeeps.leadsTo (hdir.join htop hne hnode hname hapart), hthere, hothers⟩

end SpecEngine.Disk

namespace SpecEngine.Record

open Disk (join Admissible IsName)

variable {disk disk' : Disk} {root name : String}

/-! ## Room for records -/

/-- A record of this name can be kept in the project root: this is a directory, no file stands in
the place of the directory of the records, and no directory in the place of the record. -/
structure HasRoom (disk : Disk) (root name : String) : Prop where
  top : disk.root.endsWith "/" = false
  directory_apart : stateDirectory root ≠ disk.root
  record_apart : join (stateDirectory root) name ≠ disk.root
  admissible : Admissible (join (stateDirectory root) name)
  leads : ∃ place, disk.locate root = .ok place ∧ disk.node? place = some .dir ∧
    (∀ bytes, disk.node? (place ++ [".steprun"]) ≠ some (.file bytes)) ∧
    disk.node? (place ++ [".steprun", name]) ≠ some .dir

theorem isName_stateDirectory : IsName ".steprun" :=
  ⟨Disk.isProper_of_length (by decide), by decide, by decide⟩

theorem isName_statusFile : IsName "executionStatus.json" :=
  ⟨Disk.isProper_of_length (by decide), by decide, by decide⟩

theorem isName_failuresFile : IsName "failures.json" :=
  ⟨Disk.isProper_of_length (by decide), by decide, by decide⟩

/-- Where there is room for a record, it is written. -/
theorem writeRecord_succeeds (hname : IsName name) (h : HasRoom disk root name)
    (blamed text : String) :
    ∃ disk', writeRecord disk root (join (stateDirectory root) name) blamed text = .ok disk' := by
  obtain ⟨place, hplace, hdir, hfree, hnotDir⟩ := h.leads
  obtain ⟨⟨-, hempty, -⟩, hway⟩ := Disk.locate_eq_ok.mp hplace
  have hroot : root ≠ "" := by simpa using hempty
  obtain ⟨made, hcreated, hinto, hthere, hothers⟩ :=
    Disk.LeadsTo.createDirs hway h.top hroot hdir isName_stateDirectory h.directory_apart hfree
  have htop : made.root = disk.root := (Disk.makeDirs_keeps hcreated).root_eq
  have hrecord := hinto.join (htop ▸ h.top) (Disk.join_ne_empty (by decide) root) hthere hname
    (htop ▸ h.record_apart)
  have hnode : made.node? (place ++ [".steprun"] ++ [name]) ≠ some .dir := by
    rw [hothers _ (by simp), List.append_assoc]
    exact hnotDir
  have hwritten : made.write (join (stateDirectory root) name) text =
      .ok (made.put (place ++ [".steprun"] ++ [name]) (.file text.toUTF8)) :=
    Disk.write_eq_ok.mpr ⟨_, Disk.locate_eq_ok.mpr ⟨h.admissible, hrecord⟩, hnode, rfl⟩
  refine ⟨made.put (place ++ [".steprun"] ++ [name]) (.file text.toUTF8), ?_⟩
  rw [writeRecord, stateDirectory, hcreated]
  exact congrArg (Except.mapError _) hwritten

/-! ## Records -/

theorem Status.read_of_text {s : Status} (h : disk.readText (statusPath root) = .ok s.fileText) :
    Status.read disk root = .ok (some s) := by
  simp only [Status.read, h, Status.ofFileText_fileText]

theorem Failures.read_of_text {f : Failures}
    (h : disk.readText (failuresPath root) = .ok f.fileText) :
    Failures.read disk root = .ok f := by
  simp only [Failures.read, h, Failures.ofFileText_fileText]

/-- What is written of a record is in its file afterwards, and nothing else. -/
theorem readText_writeRecord {path blamed text : String}
    (h : writeRecord disk root path blamed text = .ok disk') : disk'.readText path = .ok text := by
  obtain ⟨made, -, hwrite⟩ := writeRecord_eq_ok h
  exact Disk.readText_write hwrite

/-- The records of a run are read as those of its result. -/
theorem read_writeRun {result : Result.SuiteResult}
    (h : writeRun disk root result = (disk', none)) :
    Status.read disk' root = .ok (some (Status.ofSuite result)) ∧
      Failures.read disk' root = .ok (Failures.ofSuite result) :=
  have hholds := writeRun_holds h
  ⟨Status.read_of_text hholds.status, Failures.read_of_text hholds.failures⟩

/-- Records survive the disk. Whatever is there before, a record that was written is read as the
same record, and it can be written wherever there is room for it. -/
theorem records_survive (disk : Disk) (root : String) (status : Status) (failures : Failures) :
    (∀ disk', status.write disk root = .ok disk' → Status.read disk' root = .ok (some status)) ∧
    (HasRoom disk root "executionStatus.json" → ∃ disk', status.write disk root = .ok disk') ∧
    (∀ disk', failures.write disk root = .ok disk' → Failures.read disk' root = .ok failures) ∧
    (HasRoom disk root "failures.json" → ∃ disk', failures.write disk root = .ok disk') := by
  refine ⟨fun disk' h => ?_, fun h => ?_, fun disk' h => ?_, fun h => ?_⟩
  · exact Status.read_of_text (readText_writeRecord h)
  · exact writeRecord_succeeds isName_statusFile h _ _
  · exact Failures.read_of_text (readText_writeRecord h)
  · exact writeRecord_succeeds isName_failuresFile h _ _

/-- A file that is no record gives way to one, and the other record is written beside it. Both hold
the greatest counters and texts with quotes, line breaks and letters of several bytes. -/
theorem records_survive_garbage :
    let disk : Disk := ⟨"/p", [([".steprun"], .dir), ([".steprun", "executionStatus.json"],
      .file "no record, and longer than many a record that is written in its place".toUTF8)]⟩
    let greatest : UInt64 := .ofNat (Text.Decimal.limit64 - 1)
    let status : Status := ⟨"a \"record\"\n", greatest, 0, greatest, 1, greatest, 2, greatest, 3⟩
    let failures : Failures := ⟨[⟨"specs/änderung \\.spec", greatest⟩, ⟨"", 0⟩]⟩
    (∃ disk', status.write disk "/p" = .ok disk' ∧
      Status.read disk' "/p" = .ok (some status)) ∧
    (∃ disk', failures.write disk "/p" = .ok disk' ∧ Failures.read disk' "/p" = .ok failures) := by
  intro disk greatest status failures
  have hroom : ∀ name, name = "executionStatus.json" ∨ name = "failures.json" →
      HasRoom disk "/p" name := by
    rintro name (rfl | rfl)
    all_goals
      refine ⟨by decide +kernel, by decide +kernel, by decide +kernel, ?_, [], rfl, rfl, nofun,
        nofun⟩
      unfold Admissible
      decide +kernel
  obtain ⟨hread, hwrite, hread', hwrite'⟩ := records_survive disk "/p" status failures
  obtain ⟨written, hwritten⟩ := hwrite (hroom _ (.inl rfl))
  obtain ⟨written', hwritten'⟩ := hwrite' (hroom _ (.inr rfl))
  exact ⟨⟨written, hwritten, hread written hwritten⟩,
    written', hwritten', hread' written' hwritten'⟩

end SpecEngine.Record
