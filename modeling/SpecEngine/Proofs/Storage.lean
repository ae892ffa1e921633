/-
# SpecEngine.Proofs.Storage -- what is written stays written

A file that was written is read back as it was written, and stays so through whatever is written to
other places. Two things carry this. A path leads to the same place as long as the directories on
its way stay directories, which neither making directories nor writing files changes. And the names
of the two records differ, so that their paths lead to different places whatever the project root
is: the last name of a path is the last component of the place that it leads to.
-/
import SpecEngine.Proofs.Readings
import SpecEngine.Record.Store

/-! ## The beginning and the last field of a text -/

namespace SpecEngine.Text

theorem startsWith_iff {s t : String} : s.startsWith t = true ↔ ∃ rest, s = t ++ rest := by
  rw [String.startsWith_string_iff]
  constructor
  · rintro ⟨rest, hs⟩
    exact ⟨String.ofList rest, String.toList_inj.mp (by simp [hs])⟩
  · rintro ⟨rest, rfl⟩
    exact ⟨rest.toList, by simp⟩

theorem not_startsWith_slash {name : String} (h : '/' ∉ name.toList) :
    ¬(name.startsWith "/" = true) := by
  rw [startsWith_iff]
  rintro ⟨rest, rfl⟩
  exact h (by simp)

/-- What has no separator belongs to the last part of what it is added to. -/
theorem splitOn_append {sep : Char} {ds : List Char} (h : sep ∉ ds) (cs : List Char) :
    ∃ parts last, splitOn sep cs = parts ++ [last] ∧
      splitOn sep (cs ++ ds) = parts ++ [last ++ ds] := by
  induction cs with
  | nil => exact ⟨[], [], rfl, splitOn_singleton h⟩
  | cons c rest ih =>
    obtain ⟨parts, last, hrest, happend⟩ := ih
    rw [List.cons_append, splitOn, splitOn, hrest, happend]
    split
    · exact ⟨[] :: parts, last, rfl, rfl⟩
    · cases parts with
      | nil => exact ⟨[], c :: last, rfl, rfl⟩
      | cons part parts => exact ⟨(c :: part) :: parts, last, rfl, rfl⟩

/-- There is always a last part. -/
theorem splitOn_eq_concat (sep : Char) (cs : List Char) :
    ∃ parts last, splitOn sep cs = parts ++ [last] := by
  have hnone : sep ∉ ([] : List Char) := List.not_mem_nil
  obtain ⟨parts, last, hparts, -⟩ := splitOn_append hnone cs
  exact ⟨parts, last, hparts⟩

/-- The last of the parts of a text between slashes. -/
def lastField (s : String) : Option String := (fields '/' s).getLast?

theorem lastField_eq (s : String) :
    lastField s = (splitOn '/' s.toList).getLast?.map String.ofList := List.getLast?_map

theorem lastField_append {name : String} (h : '/' ∉ name.toList) (s : String) :
    lastField (s ++ name) = (lastField s).map (· ++ name) := by
  obtain ⟨parts, last, hs, happend⟩ := splitOn_append h s.toList
  rw [lastField_eq, lastField_eq, String.toList_append, happend, hs, List.getLast?_concat,
    List.getLast?_concat, Option.map_some, Option.map_some, Option.map_some, String.ofList_append,
    String.ofList_toList]

theorem splitOn_getLast?_append_cons (sep : Char) (cs ds : List Char) :
    (splitOn sep (cs ++ sep :: ds)).getLast? = (splitOn sep ds).getLast? := by
  rw [splitOn_append_cons, List.getLast?_append]
  obtain ⟨parts, last, hds⟩ := splitOn_eq_concat sep ds
  rw [hds, List.getLast?_concat, Option.some_or]

end SpecEngine.Text

namespace SpecEngine.Disk

variable {d d' : Disk} {path text : String} {place : Place}

/-! ## Nodes -/

/-- A place that only leaves the top directory. -/
theorem node?_outside (d : Disk) (h : place.all (· == "..") = true) : d.node? place = some .dir :=
  if_pos h

theorem node?_put (d : Disk) (place p : Place) (node : Node) :
    (d.put place node).node? p =
      if p.all (· == "..") then some .dir else if p = place then some node else d.node? p := by
  rw [node?]
  split
  next => rfl
  next houtside =>
    by_cases hp : p = place
    · subst hp
      rw [if_pos rfl, put, List.find?_cons, beq_self_eq_true]
      rfl
    · have hkept : ((d.entries.filter fun e => e.1 != place).find? fun e => e.1 == p) =
          d.entries.find? fun e => e.1 == p := by
        rw [List.find?_filter]
        congr 1
        funext e
        by_cases he : e.1 = p
        · simp [he, hp]
        · simp [he]
      rw [if_neg hp, put, List.find?_cons_of_neg (by simpa using Ne.symm hp), hkept, node?,
        if_neg houtside]

/-! ## What stays -/

/-- The second disk still has every directory of the first. -/
structure KeepsDirs (d d' : Disk) : Prop where
  root_eq : d'.root = d.root
  dirs : ∀ p, d.node? p = some .dir → d'.node? p = some .dir

/-- The second disk still has everything of the first. -/
structure Keeps (d d' : Disk) : Prop where
  root_eq : d'.root = d.root
  nodes : ∀ p node, d.node? p = some node → d'.node? p = some node

theorem Keeps.refl (d : Disk) : d.Keeps d := ⟨rfl, fun _ _ h => h⟩

theorem Keeps.trans {d'' : Disk} (h : d.Keeps d') (h' : d'.Keeps d'') : d.Keeps d'' where
  root_eq := h'.root_eq.trans h.root_eq
  nodes p node hp := h'.nodes p node (h.nodes p node hp)

theorem Keeps.keepsDirs (h : d.Keeps d') : d.KeepsDirs d' := ⟨h.root_eq, fun p => h.nodes p .dir⟩

theorem put_keeps {node : Node} (h : d.node? place = none) : d.Keeps (d.put place node) where
  root_eq := rfl
  nodes p node' hp := by
    rw [node?_put]
    split
    next houtside => exact (node?_outside d houtside).symm.trans hp
    next =>
      split
      next hsame =>
        rw [hsame, h] at hp
        cases hp
      next => exact hp

theorem put_keepsDirs {node : Node} (h : d.node? place ≠ some .dir) :
    d.KeepsDirs (d.put place node) where
  root_eq := rfl
  dirs p hp := by
    rw [node?_put]
    split
    next => rfl
    next =>
      split
      next hsame => exact absurd (hsame ▸ hp) h
      next => exact hp

/-! ## Ways -/

theorem enter_dir {name : String} {q : Place} (h : d.enter place name = .ok q) :
    d.node? place = some .dir := by
  rw [enter] at h
  split at h
  · cases h
  · cases h
  · assumption

theorem KeepsDirs.enter {name : String} {q : Place} (h : d.KeepsDirs d')
    (hq : d.enter place name = .ok q) : d'.enter place name = .ok q := by
  have hdir := enter_dir hq
  rw [Disk.enter, hdir] at hq
  rw [Disk.enter, h.dirs place hdir]
  exact hq

theorem KeepsDirs.foldlM_enter {names : List String} {q : Place} (h : d.KeepsDirs d')
    (hq : names.foldlM d.enter place = .ok q) : names.foldlM d'.enter place = .ok q := by
  induction names generalizing place with
  | nil => exact hq
  | cons name rest ih =>
    rw [List.foldlM_cons] at hq ⊢
    obtain ⟨next, hname, hrest⟩ := bind_eq_ok hq
    rw [h.enter hname]
    exact ih hrest

/-- The system takes the path at all. -/
def Admissible (path : String) : Prop :=
  path.toList.contains '\x00' = false ∧ path.isEmpty = false ∧ path.utf8ByteSize ≤ 4095

/-- The names of the path lead to the place. -/
def LeadsTo (d : Disk) (path : String) (place : Place) : Prop :=
  (d.names path).foldlM d.enter [] = .ok place

theorem KeepsDirs.leadsTo (h : d.KeepsDirs d') (hpath : d.LeadsTo path place) :
    d'.LeadsTo path place := by
  have hnames : d'.names path = d.names path := by rw [names, names, h.root_eq]
  rw [LeadsTo, hnames]
  exact h.foldlM_enter hpath

theorem locate_eq_ok :
    d.locate path = .ok place ↔ Admissible path ∧ d.LeadsTo path place := by
  rw [locate, Admissible]
  split
  next hzero => exact ⟨nofun, fun h => absurd (h.1.1.symm.trans hzero) Bool.false_ne_true⟩
  next hzero =>
    split
    next hempty => exact ⟨nofun, fun h => absurd (h.1.2.1.symm.trans hempty) Bool.false_ne_true⟩
    next hempty =>
      split
      next hlong => exact ⟨nofun, fun h => absurd hlong (Nat.not_lt_of_le h.1.2.2)⟩
      next hlong =>
        have hadmissible : path.toList.contains '\x00' = false ∧ path.isEmpty = false ∧
            path.utf8ByteSize ≤ 4095 :=
          ⟨Bool.eq_false_iff.mpr hzero, Bool.eq_false_iff.mpr hempty, Nat.le_of_not_lt hlong⟩
        exact ⟨fun h => ⟨hadmissible, h⟩, fun h => h.2⟩

/-- A path leads where it led as long as the directories stay. -/
theorem KeepsDirs.locate (h : d.KeepsDirs d') (hplace : d.locate path = .ok place) :
    d'.locate path = .ok place := by
  obtain ⟨hadmissible, hway⟩ := locate_eq_ok.mp hplace
  exact locate_eq_ok.mpr ⟨hadmissible, h.leadsTo hway⟩

theorem names_root (d : Disk) : d.names d.root = [] := if_pos rfl

/-- Below the top directory the names are those behind its name. -/
theorem names_inside (d : Disk) (rest : String) :
    d.names (d.root ++ "/" ++ rest) = Text.fields '/' rest := by
  have hne : d.root ++ "/" ++ rest ≠ d.root := by
    intro h
    have hlength := congrArg String.length h
    rw [String.length_append, String.length_append] at hlength
    have hslash : "/".length = 1 := rfl
    omega
  have hlist : (d.root ++ "/" ++ rest).toList = d.root.toList ++ '/' :: rest.toList := by simp
  have hdrop : (d.root ++ "/" ++ rest).toList.drop (d.root.length + 1) = rest.toList := by
    rw [hlist, ← String.length_toList, ← List.drop_drop, List.drop_left]
    rfl
  rw [names, if_neg hne, if_pos (Text.startsWith_iff.mpr ⟨rest, rfl⟩), hdrop,
    String.ofList_toList]

/-- The last name of a path, unless it is the top directory's, is its last field. -/
theorem names_last (d : Disk) (path : String) :
    d.names path = [] ∨ (d.names path).getLast? = Text.lastField path := by
  by_cases hroot : path = d.root
  · exact .inl (hroot ▸ d.names_root)
  refine .inr ?_
  by_cases hbelow : path.startsWith (d.root ++ "/") = true
  · obtain ⟨rest, rfl⟩ := Text.startsWith_iff.mp hbelow
    have hlist : (d.root ++ "/" ++ rest).toList = d.root.toList ++ '/' :: rest.toList := by simp
    rw [names_inside, Text.lastField_eq, hlist, Text.splitOn_getLast?_append_cons]
    exact Text.lastField_eq rest
  · rw [names, if_neg hroot, if_neg hbelow]
    split
    next =>
      rw [Text.lastField, List.getLast?_cons]
      obtain ⟨parts, last, hparts⟩ := Text.splitOn_eq_concat '/' path.toList
      rw [Text.fields, hparts, List.map_append, List.map_singleton, List.getLast?_concat]
      rfl
    next => rfl

/-- A name of its own, not one that stays in a directory or leaves it. -/
structure IsProper (name : String) : Prop where
  nonempty : name ≠ ""
  not_here : name ≠ "."
  not_above : name ≠ ".."

theorem enter_proper {name : String} {q : Place} (hname : IsProper name)
    (h : d.enter place name = .ok q) : q = place ++ [name] := by
  have hdir := enter_dir h
  have hstays : (decide (name = ".") || name.isEmpty) = false := by
    simp [hname.nonempty, hname.not_here]
  rw [enter, hdir] at h
  simp only [hstays, Bool.false_eq_true, if_false, if_neg hname.not_above] at h
  split at h
  · cases h
  · exact (Except.ok.inj h).symm

/-- The place that a path leads to bears its last field. -/
theorem locate_last {name : String} (hfield : Text.lastField path = some name)
    (hname : IsProper name) (h : d.locate path = .ok place) :
    place = [] ∨ place.getLast? = some name := by
  obtain ⟨-, hway⟩ := locate_eq_ok.mp h
  rw [LeadsTo] at hway
  rcases names_last d path with hnil | hlast
  · rw [hnil] at hway
    exact .inl (Except.ok.inj hway).symm
  · rw [hfield, List.getLast?_eq_some_iff] at hlast
    obtain ⟨before, hnames⟩ := hlast
    rw [hnames, List.foldlM_append] at hway
    obtain ⟨directory, -, hlast⟩ := bind_eq_ok hway
    rw [List.foldlM_cons] at hlast
    obtain ⟨q, hq, hend⟩ := bind_eq_ok hlast
    obtain rfl := Except.ok.inj hend
    rw [enter_proper hname hq]
    exact .inr List.getLast?_concat

/-! ## Making directories -/

theorem makeDirs_keeps {names : List String} (h : d.makeDirs place names = .ok d') :
    d.Keeps d' := by
  induction names generalizing d place with
  | nil =>
    obtain rfl := Except.ok.inj h
    exact .refl d
  | cons name rest ih =>
    rw [makeDirs] at h
    obtain ⟨q, -, h⟩ := bind_eq_ok h
    split at h
    · exact ih h
    next hnone => exact (put_keeps hnone).trans (ih h)
    · cases h

/-! ## Files -/

theorem readText_eq_ok :
    d.readText path = .ok text ↔
      ∃ place bytes, d.locate path = .ok place ∧ d.node? place = some (.file bytes) ∧
        String.fromUTF8? bytes = some text := by
  rw [readText, readBytes]
  cases hplace : d.locate path with
  | error fault => exact ⟨nofun, nofun⟩
  | ok place =>
    simp only [Except.ok.injEq, exists_and_left, exists_eq_left', bind, Except.bind]
    cases hnode : d.node? place with
    | none => simp
    | some node =>
      cases node with
      | dir => simp
      | file bytes =>
        cases hutf : String.fromUTF8? bytes <;> simp [hutf]

theorem write_eq_ok :
    d.write path text = .ok d' ↔
      ∃ place, d.locate path = .ok place ∧ d.node? place ≠ some .dir ∧
        d' = d.put place (.file text.toUTF8) := by
  rw [write]
  cases hplace : d.locate path with
  | error fault => exact ⟨nofun, nofun⟩
  | ok place =>
    simp only [Except.ok.injEq, exists_eq_left', bind, Except.bind]
    split
    next hdir => simp [hdir]
    next hother =>
      rw [Except.ok.injEq]
      exact ⟨fun h => ⟨hother, h.symm⟩, fun h => h.2.symm⟩

theorem fromUTF8?_toUTF8 (s : String) : String.fromUTF8? s.toUTF8 = some s := by
  rw [String.fromUTF8?]
  exact dif_pos s.isValidUTF8

/-- What is in a file stays there as long as nothing is lost. -/
theorem Keeps.readText (h : d.Keeps d') (hread : d.readText path = .ok text) :
    d'.readText path = .ok text := by
  obtain ⟨place, bytes, hplace, hnode, hutf⟩ := readText_eq_ok.mp hread
  exact readText_eq_ok.mpr
    ⟨place, bytes, h.keepsDirs.locate hplace, h.nodes place _ hnode, hutf⟩

/-- A file that was written is read as it was written. -/
theorem readText_write (h : d.write path text = .ok d') : d'.readText path = .ok text := by
  obtain ⟨place, hplace, hnotDir, rfl⟩ := write_eq_ok.mp h
  refine readText_eq_ok.mpr
    ⟨place, text.toUTF8, (put_keepsDirs hnotDir).locate hplace, ?_, fromUTF8?_toUTF8 text⟩
  rw [node?_put, if_neg (mt (node?_outside d) hnotDir), if_pos rfl]

/-- Writing a file leaves a file as it was to which its path does not lead. -/
theorem readText_write_other {other text' : String} (h : d.write path text = .ok d')
    (hother : ∀ p, d.locate path = .ok p → d.locate other = .ok p → d.node? p = some .dir)
    (hread : d.readText other = .ok text') : d'.readText other = .ok text' := by
  obtain ⟨place, hplace, hnotDir, rfl⟩ := write_eq_ok.mp h
  obtain ⟨place', bytes, hplace', hnode, hutf⟩ := readText_eq_ok.mp hread
  refine readText_eq_ok.mpr ⟨place', bytes, (put_keepsDirs hnotDir).locate hplace', ?_, hutf⟩
  have houtside : ¬(place'.all (· == "..") = true) := by
    intro hall
    rw [node?_outside d hall] at hnode
    cases hnode
  have hne : place' ≠ place := by
    rintro rfl
    exact hnotDir (hother place' hplace hplace')
  rw [node?_put, if_neg houtside, if_neg hne, hnode]

/-! ## Paths in a directory -/

/-- What a name is added to when it is joined to a directory without a slash between them. -/
def stem (dir : String) : String :=
  if dir.isEmpty || dir.endsWith "/" then (Text.lastField dir).getD "" else ""

theorem join_lastField {name : String} (h : '/' ∉ name.toList) (dir : String) :
    Text.lastField (join dir name) = some (stem dir ++ name) := by
  rw [join, if_neg (Text.not_startsWith_slash h), stem]
  split
  · obtain ⟨parts, last, hparts⟩ := Text.splitOn_eq_concat '/' dir.toList
    have hlast : Text.lastField dir = some (String.ofList last) := by
      rw [Text.lastField_eq, hparts, List.getLast?_concat]
      rfl
    rw [Text.lastField_append h, hlast]
    rfl
  · have hlist : (dir ++ "/" ++ name).toList = dir.toList ++ '/' :: name.toList := by
      rw [String.toList_append, String.toList_append, List.append_assoc]
      rfl
    rw [Text.lastField_eq, hlist, Text.splitOn_getLast?_append_cons, Text.splitOn_singleton h,
      List.getLast?_singleton, Option.map_some, String.ofList_toList, String.empty_append]

theorem isProper_of_length {name : String} (h : 2 < name.length) : IsProper name := by
  refine ⟨?_, ?_, ?_⟩
  all_goals
    rintro rfl
    revert h
    decide

/-- Names of different lengths lead from one directory to different places, unless to a directory.
-/
theorem locate_join_apart {name name' dir : String} {p : Place} (hname : '/' ∉ name.toList)
    (hname' : '/' ∉ name'.toList) (hlong : 2 < name.length) (hlong' : 2 < name'.length)
    (hne : name.length ≠ name'.length) (h : d.locate (join dir name) = .ok p)
    (h' : d.locate (join dir name') = .ok p) : d.node? p = some .dir := by
  have hproper : ∀ {n : String}, 2 < n.length → IsProper (stem dir ++ n) := by
    intro n hn
    refine isProper_of_length ?_
    rw [String.length_append]
    exact Nat.lt_add_left _ hn
  rcases locate_last (join_lastField hname dir) (hproper hlong) h with rfl | hlast
  · rfl
  · rcases locate_last (join_lastField hname' dir) (hproper hlong') h' with rfl | hlast'
    · rfl
    · have hsame := congrArg String.length (Option.some.inj (hlast.symm.trans hlast'))
      rw [String.length_append, String.length_append] at hsame
      exact absurd (Nat.add_left_cancel hsame) hne

end SpecEngine.Disk

namespace SpecEngine.Record

open Result (SuiteResult)

/-! ## Records -/

variable {disk disk' : Disk} {root : String}

/-- The disk has both records of a result. -/
structure HoldsRecords (disk : Disk) (root : String) (result : SuiteResult) : Prop where
  status : disk.readText (statusPath root) = .ok (Status.ofSuite result).fileText
  failures : disk.readText (failuresPath root) = .ok (Failures.ofSuite result).fileText

/-- A record is written into its directory, which is made without losing anything. -/
theorem writeRecord_eq_ok {path blamed text : String}
    (h : writeRecord disk root path blamed text = .ok disk') :
    ∃ made, disk.Keeps made ∧ made.write path text = .ok disk' := by
  rw [writeRecord] at h
  obtain ⟨made, hmade, hwrite⟩ := bind_eq_ok h
  exact ⟨made, Disk.makeDirs_keeps (mapError_eq_ok hmade), mapError_eq_ok hwrite⟩

/-- Once both records of a result are written, the disk has them. -/
theorem writeRun_holds {result : SuiteResult}
    (h : writeRun disk root result = (disk', none)) : HoldsRecords disk' root result := by
  rw [writeRun] at h
  split at h
  · cases h
  next written hstatus =>
    split at h
    · cases h
    next written' hfailures =>
      obtain ⟨rfl, -⟩ := Prod.mk.inj h
      obtain ⟨made, -, hstatus⟩ := writeRecord_eq_ok hstatus
      obtain ⟨made', hkeeps, hfailures⟩ := writeRecord_eq_ok hfailures
      refine ⟨?_, Disk.readText_write hfailures⟩
      refine Disk.readText_write_other hfailures (fun p hp hp' => ?_)
        (hkeeps.readText (Disk.readText_write hstatus))
      exact Disk.locate_join_apart (by decide) (by decide) (by decide) (by decide) (by decide) hp hp'

end SpecEngine.Record
