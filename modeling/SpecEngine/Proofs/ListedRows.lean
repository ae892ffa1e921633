/-
# SpecEngine.Proofs.ListedRows -- the rows that a resolver lists for a table

A resolver is asked for the rows of a table before they drive anything. What it promises is to list
the rows of the table, each under its position. The resolver by kinds keeps this promise: it lists
all rows of a table in which each is as wide as the headers, and none of any other. Apart from the
promise, what a resolver lists is known by the positions that it gives, and in its order.
-/
import SpecEngine.Proofs.Readings
import SpecEngine.Special.Arguments

namespace SpecEngine.Table

/-! ## Resolving a table -/

theorem resolveRows_eq_ok_iff {headers : List String} {index : Nat} {table : List (List String)}
    {rows : List Row} :
    resolveRows headers index table = .ok rows ↔
      (∀ cells ∈ table, cells.length = headers.length) ∧
        rows = (table.zipIdx index).map fun (cells, i) => ⟨i, headers.zip cells⟩ := by
  induction table generalizing index rows with
  | nil => simp [resolveRows, eq_comm]
  | cons cells rest ih =>
    rw [resolveRows, List.forall_mem_cons]
    split
    next hwidth =>
      constructor
      · intro hrows
        obtain ⟨others, hothers, hrows⟩ := bind_eq_ok hrows
        obtain rfl := Except.ok.inj hrows
        obtain ⟨hwidths, rfl⟩ := ih.mp hothers
        exact ⟨⟨hwidth, hwidths⟩, rfl⟩
      · rintro ⟨⟨-, hwidths⟩, rfl⟩
        rw [ih.mpr ⟨hwidths, rfl⟩]
        rfl
    next hwidth => exact iff_of_false nofun fun hboth => hwidth hboth.1.1

/-- A table is resolved when its rows are as wide as its headers, and row by row. -/
theorem resolve_eq_ok_iff {t : Data} {rows : List Row} :
    t.resolve = .ok rows ↔
      (∀ cells ∈ t.rows, cells.length = t.headers.length) ∧
        rows = t.rows.zipIdx.map fun (cells, i) => ⟨i, t.headers.zip cells⟩ :=
  resolveRows_eq_ok_iff

/-- What a row of a resolved table holds. -/
theorem resolved_row {t : Data} {rows : List Row} (hrows : t.resolve = .ok rows) {i : Nat}
    {row : Row} (hrow : rows[i]? = some row) :
    ∃ cells, t.rows[i]? = some cells ∧ cells.length = t.headers.length ∧
      row = ⟨i, t.headers.zip cells⟩ := by
  obtain ⟨hwidths, rfl⟩ := resolve_eq_ok_iff.mp hrows
  obtain ⟨cells, hcells, rfl⟩ : ∃ cells, t.rows[i]? = some cells ∧
      ⟨i, t.headers.zip cells⟩ = row := by
    simpa [List.getElem?_zipIdx] using hrow
  exact ⟨cells, hcells, hwidths cells (List.mem_of_getElem? hcells), rfl⟩

/-- The rows of a resolved table stand under their positions. -/
theorem resolved_indexes {t : Data} {rows : List Row} (hrows : t.resolve = .ok rows) :
    rows.map (·.index) = List.range t.rowCount := by
  obtain ⟨-, rfl⟩ := resolve_eq_ok_iff.mp hrows
  rw [List.map_map, Data.rowCount, List.range_eq_range', ← List.zipIdx_map_snd 0 t.rows]
  rfl

end SpecEngine.Table

namespace SpecEngine.Special

open Table (Data Row)

namespace Resolver

/-! ## Listed rows -/

variable {resolver : Resolver} {t : Data} {rows : List Row}

/-- The positions of the rows that a resolver lists for a table, in its order. -/
def positions (resolver : Resolver) (t : Data) : List Nat :=
  match resolver.rows t with
  | .ok rows => rows.map (·.index)
  | .error _ => []

/-- What a resolver promises: if it lists a table, it lists the rows of the table, each under its
position. -/
def ListsRows (resolver : Resolver) : Prop :=
  ∀ t rows, resolver.rows t = .ok rows → rows.map (·.index) = List.range t.rowCount

theorem positions_ok (h : resolver.rows t = .ok rows) :
    resolver.positions t = rows.map (·.index) := by
  rw [positions, h]

theorem ListsRows.positions_eq (h : resolver.ListsRows) (hrows : resolver.rows t = .ok rows) :
    resolver.positions t = List.range t.rowCount := by
  rw [positions_ok hrows, h t rows hrows]

end Resolver

/-! ## The resolver by kinds -/

theorem Kinds.resolver_rows_eq_ok_iff {kinds : Kinds} {t : Data} {rows : List Row} :
    kinds.resolver.rows t = .ok rows ↔ t.resolve = .ok rows :=
  ⟨mapError_eq_ok, fun h => congrArg (Except.mapError Fault.malformedTable) h⟩

/-- It lists a table exactly if every row is as wide as the headers. -/
theorem Kinds.lists_iff (kinds : Kinds) (t : Data) :
    (∃ rows, kinds.resolver.rows t = .ok rows) ↔
      ∀ cells ∈ t.rows, cells.length = t.headers.length := by
  simp only [resolver_rows_eq_ok_iff, Table.resolve_eq_ok_iff, exists_and_left, exists_eq, and_true]

theorem Kinds.resolver_listsRows (kinds : Kinds) : kinds.resolver.ListsRows :=
  fun _ _ hrows => Table.resolved_indexes (resolver_rows_eq_ok_iff.mp hrows)

end SpecEngine.Special
