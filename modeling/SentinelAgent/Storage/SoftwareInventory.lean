import SentinelAgent.Library.Sql

/- The table `software_inventory` through the migrations that make it, and the
   repository that writes it by column name and reads it by position. -/
namespace SentinelAgent.Storage.SoftwareInventory
open Sql

structure StoredSoftwareInventory where
  id : String
  hostname : String
  softwareName : String
  version : String
  vendor : String
  installDate : Option String
  synced : Bool
  deriving DecidableEq

/- Version 6: `CREATE TABLE IF NOT EXISTS software_inventory`. -/
def migrateV6 : Table :=
  { columns := [⟨"id", .text, true, .null⟩, ⟨"name", .text, true, .null⟩,
      ⟨"version", .text, true, .null⟩, ⟨"vendor", .text, false, .null⟩,
      ⟨"install_date", .text, false, .null⟩, ⟨"synced", .integer, true, .integer 0⟩]
    primaryKey := some "id"
    rows := [] }

/- Version 7: `ADD COLUMN hostname TEXT`. -/
def migrateV7 (table : Table) : Table := table.addColumn ⟨"hostname", .text, false, .null⟩

/- Version 8: the table is made anew from a `SELECT`, with `name` renamed. -/
def migrateV8 (table : Table) : Table :=
  table.createAs [("id", "id"), ("name", "software_name"), ("version", "version"),
    ("vendor", "vendor"), ("install_date", "install_date"), ("synced", "synced"),
    ("hostname", "hostname")]

/- The table of a database that went through all the migrations; those after
   version 8 leave it alone. -/
def migrated : Table := migrateV8 (migrateV7 migrateV6)

def optionText (value : Option String) : Value := (value.map Value.text).getD .null

def syncedInt (synced : Bool) : Int := if synced = true then 1 else 0

/- The columns and parameters of the `INSERT OR REPLACE`. -/
def parameters (entity : StoredSoftwareInventory) : List (String × Value) :=
  [("id", .text entity.id), ("hostname", .text entity.hostname),
    ("software_name", .text entity.softwareName), ("version", .text entity.version),
    ("vendor", .text entity.vendor), ("install_date", optionText entity.installDate),
    ("synced", .integer (syncedInt entity.synced))]

def upsert (table : Table) (entity : StoredSoftwareInventory) : Except String Table :=
  match table.insertOrReplace (parameters entity) with
  | .ok table => .ok table
  | .error e => .error ("Failed to upsert software inventory: " ++ e)

/- One row of `get_all`: the position says the column. -/
def readItem (row : List Value) : Except ReadError StoredSoftwareInventory := do
  let id ← getText row 0
  let hostname ← getText row 1
  let softwareName ← getText row 2
  let version ← getText row 3
  let vendor ← getText row 4
  let installDate ← getOptionText row 5
  let synced ← getInteger row 6
  return ⟨id, hostname, softwareName, version, vendor, installDate, synced != 0⟩

def getAll (table : Table) : Except ReadError (List StoredSoftwareInventory) :=
  table.selectAll.mapM readItem

/- A sequence of upserts on that database. -/
def upserted (items : List StoredSoftwareInventory) : Except String Table :=
  items.foldlM upsert migrated

/- The last item of the sequence with its id. -/
def LastUpserted (items : List StoredSoftwareInventory) (item : StoredSoftwareInventory) : Prop :=
  ∃ before after, items = before ++ item :: after ∧ ∀ later ∈ after, later.id ≠ item.id

/- The upserts succeed, and reading gives each id once, as last written. -/
def RoundTrips (items : List StoredSoftwareInventory) : Prop :=
  ∃ table, upserted items = .ok table ∧ ∃ found, getAll table = .ok found ∧
    (found.map (·.id)).Nodup ∧ ∀ item, item ∈ found ↔ LastUpserted items item

/- What the upserts leave in place. -/
structure Keyless (table : Table) : Prop where
  columns : table.columns = migrated.columns
  primaryKey : table.primaryKey = none
  numbered : ∀ row ∈ table.rows, ∃ n, row "synced" = .integer n

theorem migrated_keyless : Keyless migrated := by
  constructor
  · rfl
  · rfl
  · intro row member
    exact absurd member List.not_mem_nil

theorem upsert_keyless {table : Table} (keyless : Keyless table)
    (entity : StoredSoftwareInventory) :
    ∃ row, upsert table entity = .ok { table with rows := table.rows ++ [row] } ∧
      row "synced" = .integer (syncedInt entity.synced) := by
  have column : ∀ name, table.column? name = migrated.column? name := by
    intro name
    rw [Table.column?, keyless.columns, Table.column?]
  have known : ∀ value ∈ parameters entity, (table.column? value.1).isSome = true := by
    intro value member
    rw [column]
    simp only [parameters, List.mem_cons, List.not_mem_nil, or_false] at member
    rcases member with rfl | rfl | rfl | rfl | rfl | rfl | rfl <;> rfl
  have nullable : ∀ column ∈ table.columns, column.notNull = false := by
    rw [keyless.columns]
    decide
  have inserted := insertOrReplace_keyless (parameters entity) keyless.primaryKey known nullable
  have synced : table.newRow (parameters entity) "synced" = .integer (syncedInt entity.synced) := by
    rw [Table.newRow, column]
    rfl
  exact ⟨table.newRow (parameters entity), by rw [upsert, inserted], synced⟩

theorem upserted_from {table : Table} (keyless : Keyless table)
    (items : List StoredSoftwareInventory) :
    ∃ final, items.foldlM upsert table = .ok final ∧ Keyless final ∧
      final.rows.length = table.rows.length + items.length := by
  induction items generalizing table with
  | nil => exact ⟨table, rfl, keyless, rfl⟩
  | cons item rest ih =>
    obtain ⟨row, inserted, synced⟩ := upsert_keyless keyless item
    have kept : Keyless { table with rows := table.rows ++ [row] } := by
      constructor
      · exact keyless.columns
      · exact keyless.primaryKey
      · intro other member
        rcases List.mem_append.mp member with old | new
        · exact keyless.numbered other old
        · rw [List.mem_singleton.mp new]
          exact ⟨_, synced⟩
    obtain ⟨final, done, keyless', length⟩ := ih kept
    refine ⟨final, ?_, keyless', ?_⟩
    · rw [List.foldlM_cons, inserted]
      exact done
    · simp only [List.length_append, List.length_singleton] at length
      simp only [List.length_cons]
      omega

theorem readItem_sixth {row : List Value} {item : StoredSoftwareInventory}
    (read : readItem row = .ok item) : ∃ text, getOptionText row 5 = .ok text := by
  rw [readItem] at read
  obtain ⟨_, _, read⟩ := bind_reads read
  obtain ⟨_, _, read⟩ := bind_reads read
  obtain ⟨_, _, read⟩ := bind_reads read
  obtain ⟨_, _, read⟩ := bind_reads read
  obtain ⟨_, _, read⟩ := bind_reads read
  obtain ⟨text, sixth, _⟩ := bind_reads read
  exact ⟨text, sixth⟩

/- No row of that table is read: its sixth column is a number. -/
theorem readItem_fails {table : Table} (keyless : Keyless table) {row : Row}
    (member : row ∈ table.rows) (item : StoredSoftwareInventory) :
    readItem (table.columns.map fun column => row column.name) ≠ .ok item := by
  obtain ⟨n, synced⟩ := keyless.numbered row member
  have sixth : (table.columns.map fun column => row column.name)[5]? = some (.integer n) := by
    rw [keyless.columns, ← synced]
    rfl
  intro read
  obtain ⟨text, done⟩ := readItem_sixth read
  simp [getOptionText, sixth] at done

theorem getAll_fails {table : Table} (keyless : Keyless table) (some_row : table.rows ≠ [])
    (items : List StoredSoftwareInventory) : getAll table ≠ .ok items := by
  intro done
  obtain ⟨row, member⟩ := List.exists_mem_of_ne_nil _ some_row
  obtain ⟨item, read⟩ := mapM_reads done _ (List.mem_map_of_mem member)
  exact readItem_fails keyless member item read

/- The inventory is given back exactly when nothing was ever written to it. -/
theorem round_trips_iff (items : List StoredSoftwareInventory) :
    RoundTrips items ↔ items = [] := by
  constructor
  · rintro ⟨table, done, found, read, _, _⟩
    obtain ⟨final, done', keyless, length⟩ := upserted_from migrated_keyless items
    have same : table = final := Except.ok.inj (done.symm.trans done')
    subst same
    by_contra some_item
    have rows : table.rows ≠ [] := by
      apply List.ne_nil_of_length_pos
      have positive := List.length_pos_of_ne_nil some_item
      omega
    exact getAll_fails keyless rows found read
  · intro none
    subst none
    refine ⟨migrated, rfl, [], rfl, List.nodup_nil, ?_⟩
    intro item
    constructor
    · intro member
      exact absurd member List.not_mem_nil
    · rintro ⟨before, after, split, _⟩
      simp at split

def curl : StoredSoftwareInventory :=
  ⟨"7", "laptop", "curl", "8.5.0", "haxx", some "2026-01-02", false⟩

theorem curl_not_read : ¬ RoundTrips [curl] := by
  rintro ⟨table, done, found, read, _⟩
  cases done
  cases read

end SentinelAgent.Storage.SoftwareInventory
