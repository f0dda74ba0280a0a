import Mathlib.Data.List.Basic

/- Tables of a relational store whose columns have types, defaults and an order,
   with the statements that change a schema and the typed reads by position. -/
namespace Sql

inductive Value where
  | null
  | integer (n : Int)
  | text (s : String)
  deriving DecidableEq

inductive Affinity where
  | text | integer
  deriving DecidableEq

structure Column where
  name : String
  affinity : Affinity
  notNull : Bool
  default : Value
  deriving DecidableEq

/- A value of each column, by name. -/
abbrev Row := String → Value

structure Table where
  columns : List Column
  primaryKey : Option String
  rows : List Row

/- A value as a column of this affinity keeps it. -/
def Column.store (column : Column) (value : Value) : Value :=
  match column.affinity, value with
  | .text, .integer n => .text (toString n)
  | .integer, .text s => (s.toInt?.map Value.integer).getD (.text s)
  | _, value => value

def Table.column? (table : Table) (name : String) : Option Column :=
  table.columns.find? (·.name == name)

/- `ALTER TABLE … ADD COLUMN`. -/
def Table.addColumn (table : Table) (column : Column) : Table :=
  { table with
    columns := table.columns ++ [column]
    rows := table.rows.map fun row name => if name = column.name then column.default else row name }

/- `CREATE TABLE … AS SELECT a AS b, …`: the new table has the names, the order
   and the affinities of what is selected, and no key, constraint or default. -/
def Table.createAs (table : Table) (selected : List (String × String)) : Table :=
  { columns := selected.filterMap fun (source, name) => (table.column? source).map fun column =>
      { name := name, affinity := column.affinity, notNull := false, default := .null }
    primaryKey := none
    rows := table.rows.map fun row name =>
      match selected.find? (·.2 == name) with
      | some (source, _) => row source
      | none => .null }

/- The row `INSERT` builds: a default where no value is given, or where null is
   given and not allowed. -/
def Table.newRow (table : Table) (values : List (String × Value)) : Row := fun name =>
  match table.column? name with
  | none => .null
  | some column =>
    let value := column.store ((values.lookup name).getD column.default)
    if column.notNull = true ∧ value = .null then column.default else value

/- `INSERT OR REPLACE INTO … (columns) VALUES (…)`. -/
def Table.insertOrReplace (table : Table) (values : List (String × Value)) :
    Except String Table :=
  match values.find? fun value => (table.column? value.1).isNone with
  | some (name, _) => .error ("no column named " ++ name)
  | none =>
    let row := table.newRow values
    match table.columns.find? fun column => column.notNull && row column.name == .null with
    | some column => .error ("NOT NULL constraint failed: " ++ column.name)
    | none =>
      let others := match table.primaryKey with
        | none => table.rows
        | some key => table.rows.filter fun other => other key != row key
      .ok { table with rows := others ++ [row] }

/- `SELECT *`. -/
def Table.selectAll (table : Table) : List (List Value) :=
  table.rows.map fun row => table.columns.map fun column => row column.name

/- The typed reads of one column of a selected row. -/
inductive ReadError where
  | invalidColumnIndex (index : Nat)
  | invalidColumnType (index : Nat)
  deriving DecidableEq

def getText (row : List Value) (index : Nat) : Except ReadError String :=
  match row[index]? with
  | some (.text s) => .ok s
  | some _ => .error (.invalidColumnType index)
  | none => .error (.invalidColumnIndex index)

def getOptionText (row : List Value) (index : Nat) : Except ReadError (Option String) :=
  match row[index]? with
  | some (.text s) => .ok (some s)
  | some .null => .ok none
  | some _ => .error (.invalidColumnType index)
  | none => .error (.invalidColumnIndex index)

def getInteger (row : List Value) (index : Nat) : Except ReadError Int :=
  match row[index]? with
  | some (.integer n) => .ok n
  | some _ => .error (.invalidColumnType index)
  | none => .error (.invalidColumnIndex index)

/- Without a key an insertion only adds its row. -/
theorem insertOrReplace_keyless {table : Table} (values : List (String × Value))
    (keyless : table.primaryKey = none)
    (known : ∀ value ∈ values, (table.column? value.1).isSome = true)
    (nullable : ∀ column ∈ table.columns, column.notNull = false) :
    table.insertOrReplace values = .ok { table with rows := table.rows ++ [table.newRow values] } := by
  have no_stranger : values.find? (fun value => (table.column? value.1).isNone) = none := by
    rw [List.find?_eq_none]
    intro value member
    simp [Option.isSome_iff_ne_none.mp (known value member)]
  have no_violation : table.columns.find? (fun column => column.notNull &&
      table.newRow values column.name == .null) = none := by
    rw [List.find?_eq_none]
    intro column member
    simp [nullable column member]
  simp only [Table.insertOrReplace, no_stranger, no_violation, keyless]

theorem bind_reads {α β ε : Type} {first : Except ε α} {next : α → Except ε β} {item : β}
    (done : (do let read ← first; next read) = .ok item) :
    ∃ read, first = .ok read ∧ next read = .ok item := by
  cases first with
  | error e => simp [bind, Except.bind] at done
  | ok read => exact ⟨read, rfl, done⟩

/- Where a whole selection is read, each of its rows is. -/
theorem mapM_reads {α β ε : Type} {read : α → Except ε β} {rows : List α} {items : List β}
    (done : rows.mapM read = .ok items) (row : α) (member : row ∈ rows) :
    ∃ item, read row = .ok item := by
  induction rows generalizing items with
  | nil => simp at member
  | cons next rest ih =>
    rw [List.mapM_cons] at done
    cases first : read next with
    | error e => simp [first, bind, Except.bind] at done
    | ok item =>
      cases later : rest.mapM read with
      | error e => simp [first, later, bind, Except.bind] at done
      | ok others =>
        rcases List.mem_cons.mp member with same | among
        · exact ⟨item, same ▸ first⟩
        · exact ih later among

end Sql
