import ImportXref.Proofs.Index.History
import ImportXref.Report.Table
import Mathlib.Algebra.BigOperators.Group.Finset.Piecewise
import Mathlib.Algebra.GroupWithZero.Nat

/-!
# Report — the table loses and duplicates nothing

The table of an index has a row for each module and a column for each header.  An entry of a
module's list asks for the column named by what stands before its last dot; it stands in the
first column of that name, and is dropped if there is none.

* `Citation.column_name`: the column and the name of an entry give the entry back.
* `Citation.column_entry`: the column of a reference to a symbol is its source, the name its
  symbol, for any dots in the source.
* `Table.sum_length_row`: the cells of a row and the entries without a column make up the list.
* `History.table_lossless`: all of it, for the table of every history.
-/

namespace ImportXref

/-! ### Entries -/

namespace Citation

/-- `key` and `name` are what stands before and after the last dot of `entry`; without a dot the
key is empty. -/
def AtLastDot (entry key name : Text) : Prop :=
  '.' ∉ name ∧ (entry = key ++ '.' :: name ∨ key = [] ∧ entry = name)

/-- **The column and the name of an entry** are what stands before and after its last dot. -/
theorem column_name (entry : Text) : AtLastDot entry (column entry) (ofEntry entry).name := by
  unfold AtLastDot column ofEntry parts
  cases h : Text.splitAtLast? '.' entry with
  | none => exact ⟨Text.splitAtLast?_eq_none_iff.mp h, .inr ⟨rfl, rfl⟩⟩
  | some p => exact ⟨Text.notMem_of_splitAtLast? h, .inl (Text.splitAtLast?_append h)⟩

/-- The column of a reference to a symbol is its source, and its name is the symbol. -/
theorem column_entry {r : Reference} {symbol : Text} (hr : r.refusal? = none)
    (hs : r.symbol = some symbol) :
    column r.entry = r.source ∧ (ofEntry r.entry).name = symbol := by
  have hdot : '.' ∉ symbol := by
    intro hmem
    have hbad : Reference.wellFormedSymbol symbol = false := by
      simp [Reference.wellFormedSymbol, hmem]
    simp only [Reference.refusal?, hs, hbad] at hr
    split at hr <;> simp at hr
  have hparts : parts r.entry = (r.source, symbol) := by
    simp [parts, Reference.entry, hs, Text.splitAtLast?_join _ hdot]
  exact ⟨congrArg Prod.fst hparts, congrArg Prod.snd hparts⟩

end Citation

/-! ### Rows -/

namespace Table

/-- `key` names the column `col` and none before it. -/
def FirstNamed (headers : List Text) (key : Text) (col : Nat) : Prop :=
  headers[col]? = some key ∧ key ∉ headers.take col

instance (headers : List Text) (key : Text) (col : Nat) : Decidable (FirstNamed headers key col) :=
  inferInstanceAs (Decidable (_ ∧ _))

/-- The search for a header finds the first column of that name. -/
theorem idxOf?_eq_some_iff_firstNamed {headers : List Text} {key : Text} {col : Nat} :
    headers.idxOf? key = some col ↔ FirstNamed headers key col := by
  rw [List.idxOf?_eq_some_iff, FirstNamed, List.getElem?_eq_some_iff]
  constructor
  · rintro ⟨hc, he, hbefore⟩
    refine ⟨⟨hc, he⟩, fun hmem => ?_⟩
    obtain ⟨j, hj, hje⟩ := List.mem_take_iff_getElem.mp hmem
    exact hbefore j (by omega) hje
  · rintro ⟨⟨hc, he⟩, hnot⟩
    refine ⟨hc, he, fun j hj hje => hnot ?_⟩
    exact List.mem_take_iff_getElem.mpr ⟨j, by omega, hje⟩

theorem exists_firstNamed_iff {headers : List Text} {key : Text} :
    (∃ col, FirstNamed headers key col) ↔ key ∈ headers := by
  simp only [← idxOf?_eq_some_iff_firstNamed, ← Option.isSome_iff_exists, List.isSome_idxOf?]

/-- An entry has no place exactly if its column is no header. -/
theorem place?_eq_none_iff {headers : List Text} {entry : Text} :
    place? headers entry = none ↔ Citation.column entry ∉ headers :=
  List.idxOf?_eq_none_iff

/-- A cell holds the entries whose column is first named there, in order. -/
theorem cell_eq (headers entries : List Text) (col : Nat) :
    cell headers entries col =
      (entries.filter fun e => FirstNamed headers (Citation.column e) col).map
        Citation.ofEntry := by
  refine congrArg (List.map _) (List.filter_congr fun e _ => ?_)
  rw [Bool.eq_iff_iff, beq_iff_eq, place?, idxOf?_eq_some_iff_firstNamed, decide_eq_true_iff]

/-- The entries without a place are those whose column is no header. -/
theorem unplaced_eq (headers entries : List Text) :
    unplaced headers entries = entries.filter fun e => Citation.column e ∉ headers := by
  refine List.filter_congr fun e _ => ?_
  rw [Bool.eq_iff_iff, Option.isNone_iff_eq_none, place?_eq_none_iff, decide_eq_true_iff]

/-- An entry stands in one column, or is left out. -/
theorem sum_placed (headers : List Text) (entry : Text) :
    ((List.range headers.length).map fun col =>
        if place? headers entry = some col then 1 else 0).sum +
      (if place? headers entry = none then 1 else 0) = 1 := by
  cases h : place? headers entry with
  | none => simp
  | some c =>
      obtain ⟨hc, -⟩ := List.idxOf?_eq_some_iff.mp h
      have hsum : ∑ col ∈ Finset.range headers.length, (if c = col then 1 else 0) = 1 := by
        rw [Finset.sum_ite_eq, if_pos (Finset.mem_range.mpr hc)]
      have hlist : ((List.range headers.length).map fun col => if c = col then 1 else 0).sum = 1 :=
        hsum
      simpa using hlist

/-- **A row is a partition.**  The cells of a row and the entries without a column have together
as many entries as the list. -/
theorem sum_length_row (headers entries : List Text) :
    ((row headers entries).map List.length).sum + (unplaced headers entries).length =
      entries.length := by
  induction entries with
  | nil => simp [row, cell, unplaced, Function.comp_def]
  | cons e entries ih =>
      -- the first entry adds one in one place, the others stay where they are
      have hcell (col : Nat) : (cell headers (e :: entries) col).length =
          (if place? headers e = some col then 1 else 0) + (cell headers entries col).length := by
        by_cases h : place? headers e = some col <;> simp [cell, h, Nat.add_comm]
      have hunplaced : (unplaced headers (e :: entries)).length =
          (if place? headers e = none then 1 else 0) + (unplaced headers entries).length := by
        cases h : place? headers e <;> simp [unplaced, h, Nat.add_comm]
      have hone := sum_placed headers e
      simp only [row, List.map_map, Function.comp_def] at ih ⊢
      simp only [hcell, hunplaced, List.sum_map_add, List.length_cons]
      omega

end Table

/-! ### Sizes -/

/-- The number of references in a map is the sum over any list of modules that has every key
once. -/
theorem RefMap.size_eq_sum (m : RefMap) {ks : List Text} (hnodup : ks.Nodup)
    (hkeys : ∀ k ∈ m.keys, k ∈ ks) : m.size = (ks.map fun k => (m.list k).length).sum := by
  have hentries : m.size = (m.keys.map fun k => (m.list k).length).sum := by
    rw [size, List.length_flatMap, keys, List.map_map]
    refine congrArg List.sum (List.map_congr_left fun e he => ?_)
    rw [Function.comp_apply, list, find?_eq_some_iff.mpr he, Option.getD_some]
  -- both sums run over sets of modules, and those without a key add nothing
  rw [hentries, ← List.sum_toFinset _ m.keys_nodup, ← List.sum_toFinset _ hnodup]
  refine Finset.sum_subset (fun k hk => ?_) fun k _ hk => ?_
  · exact List.mem_toFinset.mpr (hkeys k (List.mem_toFinset.mp hk))
  · have hnone : m.find? k = none := Option.not_isSome_iff_eq_none.mp fun hs =>
      hk (List.mem_toFinset.mpr (find?_isSome_iff.mp hs))
    rw [list, hnone]
    rfl

/-! ### The table of a history -/

namespace Table

/-- The cell in the row `r` and the column `c`. -/
def cell? (t : Table) (r c : Nat) : Option (List Citation) :=
  t.rows[r]?.bind (·[c]?)

/-- The number of citations in all cells. -/
def size (t : Table) : Nat :=
  (t.rows.map fun row => (row.map List.length).sum).sum

end Table

namespace Index

theorem length_row (headers entries : List Text) :
    (Table.row headers entries).length = headers.length := by
  simp [Table.row]

/-- A cell of the table of an index, by the list of the module of its row. -/
theorem cell?_table (x : Index) {r c : Nat} {m : Text} (hm : x.moduleList[r]? = some m)
    (hc : c < x.headers.length) :
    x.table.cell? r c = some (((x.inProject.list m).filter fun e =>
      Table.FirstNamed x.headers (Citation.column e) c).map Citation.ofEntry) := by
  simp [Table.cell?, table, hm, Table.row, hc, Table.cell_eq]

/-- What the table leaves out, module by module. -/
theorem dropped_eq (x : Index) :
    x.dropped = (x.moduleList.map fun m =>
      ((x.inProject.list m).filter fun e => Citation.column e ∉ x.headers).length).sum := by
  simp only [dropped, List.length_flatMap, Table.unplaced_eq]

/-- The cells of a table and what it drops have together as many entries as the lists. -/
theorem size_add_dropped (x : Index) :
    x.table.size + x.dropped = (x.moduleList.map fun m => (x.inProject.list m).length).sum := by
  rw [dropped, List.length_flatMap, Table.size, table, List.map_map, ← List.sum_map_add]
  exact congrArg List.sum (List.map_congr_left fun m _ => Table.sum_length_row x.headers _)

end Index

namespace History

/-- The headers are the packages of the modules, behind an empty one. -/
theorem headers_index (h : History) : h.index.headers = [] :: h.modules.map packageName := by
  rw [Index.headers, moduleList_index, Table.headersOf]

/-- If no module is declared twice, the references inside the project are those of each module. -/
theorem inProjectCount_eq_sum (h : History) (hnodup : h.modules.Nodup) :
    h.index.inProjectCount = (h.modules.map fun m => (h.index.inProject.list m).length).sum :=
  h.index.inProject.size_eq_sum hnodup fun k hk => ((h.mem_keys_inProject k).mp hk).2

/-- **The table loses and duplicates nothing.**  The table of a history over the modules
`m₁, …, mₙ` has the headers blank, `packageName m₁`, …, `packageName mₙ` and a row of `n + 1` cells
for each module, also where modules or headers repeat.  A cell cites, in order, the entries of
its module inside the project whose column is the first of its name; a citation keeps its entry,
which is the column, a dot and the name, or the name alone in the blank column; and the column of
a recorded symbol is its source.  What is dropped are the entries whose column has no header, so
cells and dropped entries together are the lists of the modules, which are all references inside
the project if the modules differ. -/
theorem table_lossless (h : History) :
    let x := h.index
    let headers := [] :: h.modules.map packageName
    x.table.headers = headers ∧
    x.table.rows.length = h.modules.length ∧
    (∀ row ∈ x.table.rows, row.length = h.modules.length + 1) ∧
    (∀ r c m, h.modules[r]? = some m → c < headers.length →
      x.table.cell? r c = some (((x.inProject.list m).filter fun e =>
        Table.FirstNamed headers (Citation.column e) c).map Citation.ofEntry)) ∧
    (∀ e, (Citation.ofEntry e).fullname = e ∧
      Citation.AtLastDot e (Citation.column e) (Citation.ofEntry e).name) ∧
    (∀ r ∈ h.log, ∀ symbol, r.symbol = some symbol →
      Citation.column r.entry = r.source ∧ (Citation.ofEntry r.entry).name = symbol) ∧
    x.dropped = (h.modules.map fun m =>
      ((x.inProject.list m).filter fun e => Citation.column e ∉ headers).length).sum ∧
    x.table.size + x.dropped =
      (h.modules.map fun m => (x.inProject.list m).length).sum ∧
    (h.modules.Nodup → x.table.size + x.dropped = x.inProjectCount) := by
  intro x headers
  have hheaders : x.headers = headers := h.headers_index
  have hmodules : x.moduleList = h.modules := h.moduleList_index
  refine ⟨hheaders, ?_, fun row hrow => ?_, fun r c m hm hc => ?_,
    fun e => ⟨rfl, Citation.column_name e⟩, fun r hr symbol hs => ?_, ?_, ?_, fun hnodup => ?_⟩
  · rw [← hmodules]
    exact List.length_map ..
  · obtain ⟨m, -, rfl⟩ := List.mem_map.mp hrow
    rw [Index.length_row, hheaders, List.length_cons, List.length_map]
  · rw [← hmodules] at hm
    rw [← hheaders] at hc ⊢
    exact x.cell?_table hm hc
  · exact Citation.column_entry (h.refusal?_of_mem_log hr) hs
  · rw [← hheaders, ← hmodules]
    exact x.dropped_eq
  · rw [← hmodules]
    exact x.size_add_dropped
  · rw [x.size_add_dropped, hmodules]
    exact (h.inProjectCount_eq_sum hnodup).symm

end History

end ImportXref
