/-
# SpecEngine.Proofs.CellReadings -- two ways to read a cell

A cell is read by its header in two ways. A table gives the cells of a column, and that is the first
column with the header. A resolved row gives the cell that was put under the header last. For a
header that stands over one column both are the same cell; for one that stands over several they are
the cells of its first and of its last column, which need not agree. Resolving a table looks at how
wide its rows are, and not at whether its headers repeat.
-/
import Mathlib.Data.List.NodupEquivFin
import SpecEngine.Proofs.ListedRows

namespace SpecEngine.Table

variable {headers : List String} {h header : String} {j : Nat}

/-! ## Columns of a header -/

/-- The first column that the header stands over. -/
structure IsFirstColumn (headers : List String) (header : String) (j : Nat) : Prop where
  bears : headers[j]? = some header
  first : ∀ k < j, headers[k]? ≠ some header

/-- The last column that the header stands over. -/
structure IsLastColumn (headers : List String) (header : String) (j : Nat) : Prop where
  bears : headers[j]? = some header
  last : ∀ k, j < k → headers[k]? ≠ some header

theorem isLastColumn_cons_zero :
    IsLastColumn (h :: headers) header 0 ↔ h = header ∧ header ∉ headers := by
  constructor
  · rintro ⟨hbears, hlast⟩
    refine ⟨Option.some.inj hbears, fun hmem => ?_⟩
    obtain ⟨k, hk⟩ := List.mem_iff_getElem?.mp hmem
    exact hlast (k + 1) (Nat.succ_pos k) hk
  · rintro ⟨rfl, hmem⟩
    refine ⟨rfl, fun k hk hbears => ?_⟩
    obtain ⟨k, rfl⟩ := Nat.exists_eq_succ_of_ne_zero hk.ne'
    exact hmem (List.mem_of_getElem? hbears)

theorem isLastColumn_cons_succ :
    IsLastColumn (h :: headers) header (j + 1) ↔ IsLastColumn headers header j := by
  constructor
  · rintro ⟨hbears, hlast⟩
    exact ⟨hbears, fun k hk => hlast (k + 1) (Nat.succ_lt_succ hk)⟩
  · rintro ⟨hbears, hlast⟩
    refine ⟨hbears, fun k hk => ?_⟩
    obtain ⟨k, rfl⟩ := Nat.exists_eq_succ_of_ne_zero (Nat.ne_zero_of_lt hk)
    exact hlast k (Nat.lt_of_succ_lt_succ hk)

theorem exists_isLastColumn (hmem : header ∈ headers) : ∃ j, IsLastColumn headers header j := by
  induction headers with
  | nil => cases hmem
  | cons h headers ih =>
    by_cases hrest : header ∈ headers
    · obtain ⟨j, hj⟩ := ih hrest
      exact ⟨j + 1, isLastColumn_cons_succ.mpr hj⟩
    · obtain rfl := (List.mem_cons.mp hmem).resolve_right hrest
      exact ⟨0, isLastColumn_cons_zero.mpr ⟨rfl, hrest⟩⟩

/-- The first column is the one that a search from the left finds. -/
theorem isFirstColumn_iff :
    IsFirstColumn headers header j ↔ headers.findIdx? (· == header) = some j := by
  rw [List.findIdx?_eq_some_iff_getElem]
  constructor
  · rintro ⟨hbears, hfirst⟩
    obtain ⟨hj, hget⟩ := List.getElem?_eq_some_iff.mp hbears
    refine ⟨hj, by simp [hget], fun k hk hsame => ?_⟩
    have hbound : k < headers.length := Nat.lt_trans hk hj
    exact hfirst k hk (List.getElem?_eq_some_iff.mpr ⟨hbound, by simpa using hsame⟩)
  · rintro ⟨hj, hget, hbefore⟩
    refine ⟨List.getElem?_eq_some_iff.mpr ⟨hj, by simpa using hget⟩, fun k hk hbears => ?_⟩
    obtain ⟨hbound, hsame⟩ := List.getElem?_eq_some_iff.mp hbears
    exact hbefore k hk (by simpa using hsame)

theorem exists_isFirstColumn (hmem : header ∈ headers) : ∃ j, IsFirstColumn headers header j := by
  simp only [isFirstColumn_iff, ← Option.isSome_iff_exists, List.findIdx?_isSome, List.any_eq_true]
  exact ⟨header, hmem, beq_self_eq_true header⟩

/-- A header that does not repeat stands over one column. -/
theorem IsFirstColumn.eq_last {k : Nat} (hj : IsFirstColumn headers header j)
    (hk : IsLastColumn headers header k) (hsingle : ¬List.Duplicate header headers) : j = k := by
  rcases Nat.lt_trichotomy j k with hless | heq | hgreater
  · obtain ⟨hboundj, hgetj⟩ := List.getElem?_eq_some_iff.mp hj.bears
    obtain ⟨hboundk, hgetk⟩ := List.getElem?_eq_some_iff.mp hk.bears
    refine absurd (List.duplicate_iff_exists_distinct_get.mpr ?_) hsingle
    exact ⟨⟨j, hboundj⟩, ⟨k, hboundk⟩, hless, hgetj.symm, hgetk.symm⟩
  · exact heq
  · exact absurd hk.bears (hj.first k hgreater)

/-! ## Reading a row -/

theorem Row.get?_cons (index : Nat) (h cell : String) (cells : List (String × String))
    (header : String) :
    (Row.mk index ((h, cell) :: cells)).get? header =
      ((Row.mk index cells).get? header).or (if h = header then some cell else none) := by
  rw [Row.get?, Row.get?, List.reverse_cons, List.find?_append, Option.map_or]
  by_cases heq : h = header <;> simp [heq]

theorem Row.get?_eq_none (hmem : header ∉ headers) (index : Nat) (cells : List String) :
    (Row.mk index (headers.zip cells)).get? header = none := by
  rw [Row.get?, Option.map_eq_none_iff, List.find?_eq_none]
  intro cell hcell hsame
  obtain rfl : cell.1 = header := eq_of_beq hsame
  exact hmem (List.of_mem_zip (List.mem_reverse.mp hcell)).1

/-- A row gives the cell of the last column that a header stands over. -/
theorem Row.get?_last {cells : List String} (hwidth : cells.length = headers.length)
    (hj : IsLastColumn headers header j) (index : Nat) :
    (Row.mk index (headers.zip cells)).get? header = cells[j]? := by
  induction headers generalizing cells j with
  | nil => cases hj.bears
  | cons h headers ih =>
    obtain ⟨cell, rest, rfl⟩ := List.exists_cons_of_length_eq_add_one hwidth
    have hrest : rest.length = headers.length := Nat.succ.inj hwidth
    rw [List.zip_cons_cons, Row.get?_cons]
    cases j with
    | zero =>
      obtain ⟨rfl, hmem⟩ := isLastColumn_cons_zero.mp hj
      rw [Row.get?_eq_none hmem, if_pos rfl]
      rfl
    | succ j =>
      have htail := isLastColumn_cons_succ.mp hj
      obtain ⟨hbound, -⟩ := List.getElem?_eq_some_iff.mp htail.bears
      rw [ih hrest htail, List.getElem?_cons_succ, List.getElem?_eq_getElem (hrest ▸ hbound)]
      rfl

/-! ## Both readings -/

/-- The cell of a row and a column, by their positions. -/
def Data.cell? (t : Data) (i j : Nat) : Option String := t.rows[i]?.bind (·[j]?)

/-- A column of a table whose rows are all as wide as its headers. -/
theorem Data.column?_first {t : Data} (hwidths : ∀ cells ∈ t.rows, cells.length = t.headers.length)
    (hj : IsFirstColumn t.headers header j) (i : Nat) :
    (t.column? header).bind (·[i]?) = t.cell? i j := by
  obtain ⟨hbound, -⟩ := List.getElem?_eq_some_iff.mp hj.bears
  rw [Data.column?, isFirstColumn_iff.mp hj, Option.map_some, Option.bind_some, List.getElem?_map,
    Data.cell?]
  cases hrow : t.rows[i]? with
  | none => rfl
  | some cells =>
    have hcell : j < cells.length := by
      rw [hwidths cells (List.mem_of_getElem? hrow)]
      exact hbound
    rw [Option.map_some, Option.bind_some, List.getD_eq_getElem?_getD,
      List.getElem?_eq_getElem hcell, Option.getD_some]

theorem Data.column?_eq_none {t : Data} (hmem : header ∉ t.headers) : t.column? header = none := by
  rw [Data.column?, Option.map_eq_none_iff, List.findIdx?_eq_none_iff]
  intro h hh
  rw [beq_eq_false_iff_ne]
  rintro rfl
  exact hmem hh

/-- A table is resolved exactly when every row is as wide as its headers, and then row by row. The
cell that a resolved row has under a header is the one in the table's column of that header, for
every header that does not repeat. For one that does, the row reads its last column, and the table
its first. -/
theorem cells_read_alike (t : Data) (header : String) :
    ((∃ rows, t.resolve = .ok rows) ↔ ∀ cells ∈ t.rows, cells.length = t.headers.length) ∧
    ∀ rows, t.resolve = .ok rows →
      rows.length = t.rowCount ∧
      ∀ i row, rows[i]? = some row →
        row.index = i ∧
        (¬List.Duplicate header t.headers → row.get? header = (t.column? header).bind (·[i]?)) ∧
        ∀ first last, IsFirstColumn t.headers header first → IsLastColumn t.headers header last →
          (t.column? header).bind (·[i]?) = t.cell? i first ∧ row.get? header = t.cell? i last := by
  refine ⟨⟨?_, fun hwidths => ⟨_, resolve_eq_ok_iff.mpr ⟨hwidths, rfl⟩⟩⟩, fun rows hrows => ?_⟩
  · rintro ⟨rows, hrows⟩
    exact (resolve_eq_ok_iff.mp hrows).1
  obtain ⟨hwidths, hlist⟩ := resolve_eq_ok_iff.mp hrows
  refine ⟨by rw [hlist, List.length_map, List.length_zipIdx, Data.rowCount], fun i row hrow => ?_⟩
  obtain ⟨cells, hcells, hwidth, rfl⟩ := resolved_row hrows hrow
  have hlast : ∀ last, IsLastColumn t.headers header last →
      (Row.mk i (t.headers.zip cells)).get? header = t.cell? i last := by
    intro last hcolumn
    rw [Row.get?_last hwidth hcolumn, Data.cell?, hcells, Option.bind_some]
  refine ⟨rfl, fun hsingle => ?_, fun first last hfirst hcolumn => ?_⟩
  · by_cases hmem : header ∈ t.headers
    · obtain ⟨first, hfirst⟩ := exists_isFirstColumn hmem
      obtain ⟨last, hcolumn⟩ := exists_isLastColumn hmem
      rw [hlast last hcolumn, ← hfirst.eq_last hcolumn hsingle, Data.column?_first hwidths hfirst]
    · rw [Row.get?_eq_none hmem, Data.column?_eq_none hmem]
      rfl
  · exact ⟨Data.column?_first hwidths hfirst i, hlast last hcolumn⟩

/-- A table of two users and their roles, with a second column of users. -/
def accounts : Data where
  headers := ["user", "role", "user"]
  rows := [["alice", "admin", "a"], ["bob", "viewer", "b"]]

/-- Its second row gives the role that the column of roles gives. -/
theorem second_role_read_alike :
    ∃ rows row, accounts.resolve = .ok rows ∧ rows[1]? = some row ∧
      ¬List.Duplicate "role" accounts.headers ∧
      row.get? "role" = (accounts.column? "role").bind (·[1]?) ∧
      row.get? "role" = some "viewer" := by
  have hresolved : accounts.resolve = .ok _ := resolve_eq_ok_iff.mpr ⟨by decide, rfl⟩
  have hsingle : ¬List.Duplicate "role" accounts.headers := by decide
  have hread := (cells_read_alike accounts "role").2 _ hresolved
  obtain ⟨-, halike, -⟩ := hread.2 1 _ rfl
  exact ⟨_, _, hresolved, rfl, hsingle, halike hsingle, by decide⟩

/-- A table in which a header repeats. -/
def repeatedHeader : Data where
  headers := ["user", "user"]
  rows := [["alice", "bob"]]

/-- It is resolved, and then the row and the column of that header give different cells. -/
theorem repeated_header_read_apart :
    ∃ row, repeatedHeader.resolve = .ok [row] ∧ row.get? "user" = some "bob" ∧
      (repeatedHeader.column? "user").bind (·[0]?) = some "alice" :=
  ⟨⟨0, [("user", "alice"), ("user", "bob")]⟩, by decide, by decide, by decide⟩

end SpecEngine.Table
