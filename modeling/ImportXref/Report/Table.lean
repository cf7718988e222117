import ImportXref.Event
import ImportXref.Index.Basic

/-!
# The table — the project's references, module by module

The first header is blank, the others are the package names of the modules.  The row of a module
holds its references; a reference stands in the first column whose header is the part of its
entry before the last dot, and in the blank column if there is no dot.  A reference without a
column is dropped.
-/

namespace ImportXref

/-- A reference in a cell. -/
structure Citation where
  /-- The last component of the entry. -/
  name : Text
  /-- The whole entry. -/
  fullname : Text
  deriving DecidableEq, Repr

namespace Citation

/-- The part of an entry before its last dot, and the part after it. -/
def parts (entry : Text) : Text × Text :=
  (Text.splitAtLast? '.' entry).getD ([], entry)

/-- The header that an entry asks for. -/
def column (entry : Text) : Text :=
  (parts entry).1

/-- The citation of an entry. -/
def ofEntry (entry : Text) : Citation :=
  ⟨(parts entry).2, entry⟩

end Citation

/-- A report table: headers, and for each row its cells. -/
structure Table where
  headers : List Text
  rows : List (List (List Citation))
  deriving DecidableEq, Repr

namespace Table

/-- The headers for a list of modules. -/
def headersOf (modules : List Text) : List Text :=
  [] :: modules.map packageName

/-- The column of an entry. -/
def place? (headers : List Text) (entry : Text) : Option Nat :=
  headers.idxOf? (Citation.column entry)

/-- The citations of the entries that stand in the column `col`. -/
def cell (headers : List Text) (entries : List Text) (col : Nat) : List Citation :=
  (entries.filter fun e => place? headers e == some col).map Citation.ofEntry

/-- The cells of a row with the given entries. -/
def row (headers : List Text) (entries : List Text) : List (List Citation) :=
  (List.range headers.length).map (cell headers entries)

/-- The entries that have no column. -/
def unplaced (headers : List Text) (entries : List Text) : List Text :=
  entries.filter fun e => (place? headers e).isNone

/-- What is reported about an entry of `target`. -/
def placeEvent (headers : List Text) (target entry : Text) : Event :=
  match place? headers entry with
  | some col => .placing entry target col
  | none => .noHeader entry (Citation.column entry)

end Table

namespace Index

/-- The headers of an index. -/
def headers (x : Index) : List Text :=
  Table.headersOf x.moduleList

/-- The table of an index. -/
def table (x : Index) : Table :=
  ⟨x.headers, x.moduleList.map fun m => Table.row x.headers (x.inProject.list m)⟩

/-- How many references the table of an index leaves out. -/
def dropped (x : Index) : Nat :=
  (x.moduleList.flatMap fun m => Table.unplaced x.headers (x.inProject.list m)).length

/-- What is reported while the table is made. -/
def tableEvents (x : Index) : List Event :=
  x.moduleList.flatMap fun m =>
    match x.inProject.find? m with
    | some entries => entries.map (Table.placeEvent x.headers m)
    | none => [.emptyRow m]

end Index

end ImportXref
