/-
# TeiidSyndesis.Repository.SharedTable — the table of virtualizations and source schemas.

Virtualizations and source schemas are the two types of rows of one table.  Two of its columns are
unique over both types: the upper case of the name, and the source id where there is one.  The database
checks this when a transaction is committed, so a table that can be read is always consistent.

Main results:
* `createSchema_isOk_iff`, `setSourceId_isOk` — when a transaction is committed;
* `HasSchema.unique`, `HasSchema.upperCase_ne` — a source has one name, and different sources names that
  differ in upper case.
-/
import Mathlib.Data.List.Pairwise
import TeiidSyndesis.Library.Results
import TeiidSyndesis.Model.Entities

namespace TeiidSyndesis.Repository

open TeiidSyndesis.Library TeiidSyndesis.Model

/-- Column `type`. -/
inductive RowType
  | virtualization
  | sourceSchema
  deriving DecidableEq, Repr

/-- `BaseDataVirtualization` -/
structure Row where
  type : RowType
  name : String
  sourceId : Option String := none
  deriving DecidableEq, Repr

/-- Two rows of the table: `data_virtualization_name_index`, `data_virtualization_source_id`. -/
def Row.Distinct (teiid : Teiid) (a b : Row) : Prop :=
  teiid.toUpperCase a.name ≠ teiid.toUpperCase b.name ∧
    (a.sourceId.isSome → a.sourceId ≠ b.sourceId)

instance (teiid : Teiid) (a b : Row) : Decidable (a.Distinct teiid b) :=
  inferInstanceAs (Decidable (_ ∧ _))

instance (teiid : Teiid) : Std.Symm (Row.Distinct teiid) where
  symm a b h := by
    refine ⟨h.1.symm, fun hb heq => ?_⟩
    rw [heq] at hb
    exact h.2 hb heq.symm

/-- The committed rows. -/
structure SharedTable (teiid : Teiid) where
  rows : List Row
  consistent : rows.Pairwise (Row.Distinct teiid)

namespace SharedTable

variable {teiid : Teiid}

/-! ## Queries -/

def findDataVirtualization (table : SharedTable teiid) (name : String) : Option Row :=
  table.rows.find? fun row => row.type = .virtualization ∧ row.name = name

def findDataVirtualizationBySourceId (table : SharedTable teiid) (sourceId : String) : Option Row :=
  table.rows.find? fun row => row.type = .virtualization ∧ row.sourceId = some sourceId

def findSchemaBySourceId (table : SharedTable teiid) (id : String) : Option Row :=
  table.rows.find? fun row => row.type = .sourceSchema ∧ row.sourceId = some id

def isNameInUse (table : SharedTable teiid) (name : String) : Bool :=
  table.rows.any fun row => teiid.toUpperCase row.name == teiid.toUpperCase name

/-! ## Transactions -/

/-- The end of a transaction that leaves these rows. -/
def commit (teiid : Teiid) (rows : List Row) : Except Failure (SharedTable teiid) :=
  if h : rows.Pairwise (Row.Distinct teiid) then .ok ⟨rows, h⟩ else .error .dataIntegrityViolation

/-- The row `createSchema` saves. -/
def schemaRow (sourceId name : String) : Row :=
  { type := .sourceSchema, name := name, sourceId := some sourceId }

/-- `createSchema`, with its commit. -/
def createSchema (table : SharedTable teiid) (sourceId name : String) :
    Except Failure (SharedTable teiid) :=
  commit teiid (table.rows ++ [schemaRow sourceId name])

/-- `deleteSchemaBySourceId` -/
def deleteSchema (table : SharedTable teiid) (sourceId : String) : SharedTable teiid where
  rows := table.rows.filter fun row => ¬(row.type = .sourceSchema ∧ row.sourceId = some sourceId)
  consistent := table.consistent.filter _

/-- A row that was loaded, and whether the transaction that loaded it is still open. -/
structure Entity where
  row : Row
  managed : Bool
  deriving DecidableEq, Repr

/-- The row of an entity with another source id. -/
def writeSourceId (entity row : Row) (id : Option String) : Row :=
  if row = entity then { row with sourceId := id } else row

/-- `setSourceId`: a change to an entity that no open transaction manages is not stored. -/
def setSourceId (table : SharedTable teiid) (entity : Entity) (id : Option String) :
    Except Failure (SharedTable teiid) :=
  if entity.managed then commit teiid (table.rows.map (writeSourceId entity.row · id)) else .ok table

theorem commit_eq_ok {rows : List Row} {table : SharedTable teiid} :
    commit teiid rows = .ok table ↔ table.rows = rows := by
  unfold commit
  rw [checked_eq_ok]
  constructor
  · rintro ⟨_, rfl⟩
    rfl
  · rintro rfl
    exact ⟨table.consistent, rfl⟩

/-- A schema that is created has its row. -/
theorem rows_of_createSchema {table table' : SharedTable teiid} {sourceId name : String}
    (h : table.createSchema sourceId name = .ok table') :
    table'.rows = table.rows ++ [schemaRow sourceId name] :=
  commit_eq_ok.mp h

/-- The id is written into the row of the entity. -/
theorem rows_of_setSourceId {table table' : SharedTable teiid} {row : Row} {id : Option String}
    (h : table.setSourceId ⟨row, true⟩ id = .ok table') :
    table'.rows = table.rows.map (writeSourceId row · id) :=
  commit_eq_ok.mp h

/-- A row can be committed where neither its name nor its source id is taken. -/
theorem createSchema_isOk_iff {table : SharedTable teiid} {sourceId name : String} :
    (∃ table', table.createSchema sourceId name = .ok table') ↔
      table.isNameInUse name = false ∧ ∀ row ∈ table.rows, row.sourceId ≠ some sourceId := by
  have hcommit : (∃ table', table.createSchema sourceId name = .ok table') ↔
      (table.rows ++ [schemaRow sourceId name]).Pairwise (Row.Distinct teiid) := by
    unfold createSchema commit
    split
    · rename_i hdistinct
      exact iff_of_true ⟨_, rfl⟩ hdistinct
    · rename_i hdistinct
      refine iff_of_false ?_ hdistinct
      rintro ⟨table', h⟩
      cases h
  rw [hcommit, List.pairwise_append]
  simp only [table.consistent, List.pairwise_singleton, true_and, List.mem_singleton, forall_eq,
    isNameInUse, List.any_eq_false, beq_iff_eq]
  constructor
  · intro h
    refine ⟨fun row hrow => (h row hrow).1, fun row hrow heq => ?_⟩
    exact (h row hrow).2 (by rw [heq]; rfl) heq
  · rintro ⟨hname, hid⟩ row hrow
    exact ⟨hname row hrow, fun _ => hid row hrow⟩

/-- An id that no row holds can be stored. -/
theorem setSourceId_isOk {table : SharedTable teiid} {dv : Row} {id : String}
    (h : ∀ row ∈ table.rows, row.sourceId ≠ some id) :
    ∃ table', table.setSourceId ⟨dv, true⟩ (some id) = .ok table' := by
  have hdistinct : (table.rows.map (writeSourceId dv · (some id))).Pairwise (Row.Distinct teiid) := by
    rw [List.pairwise_map]
    refine table.consistent.imp_of_mem fun {a b} ha hb hab => ?_
    unfold writeSourceId
    split
    · rename_i heq
      split
      · -- two rows of one name are not distinct
        rename_i heq'
        exact absurd (by rw [heq, heq']) hab.1
      · exact ⟨hab.1, fun _ heq => h b hb heq.symm⟩
    · split
      · exact ⟨hab.1, fun _ => h a ha⟩
      · exact hab
  exact ⟨⟨_, hdistinct⟩, dif_pos hdistinct⟩

theorem mem_of_findDataVirtualization {table : SharedTable teiid} {name : String} {row : Row}
    (h : table.findDataVirtualization name = some row) :
    row ∈ table.rows ∧ row.type = .virtualization ∧ row.name = name := by
  have hrow := List.find?_some h
  simp only [Bool.decide_and, Bool.and_eq_true, decide_eq_true_eq] at hrow
  exact ⟨List.mem_of_find?_eq_some h, hrow⟩

/-- A row is found again after its source id, or that of another row, has changed. -/
theorem findDataVirtualization_setSourceId {table table' : SharedTable teiid} {row : Row}
    {id : Option String} (h : table.setSourceId ⟨row, true⟩ id = .ok table') (name : String) :
    table'.findDataVirtualization name =
      (table.findDataVirtualization name).map (writeSourceId row · id) := by
  have hkeeps : ∀ r : Row, (writeSourceId row r id).type = r.type ∧
      (writeSourceId row r id).name = r.name := by
    intro r
    unfold writeSourceId
    split <;> exact ⟨rfl, rfl⟩
  unfold findDataVirtualization
  rw [rows_of_setSourceId h, List.find?_map]
  congr 2
  funext r
  simp [hkeeps r]

/-! ## The schema of a source -/

/-- The source has a schema, and this is its name. -/
def HasSchema (table : SharedTable teiid) (sourceId name : String) : Prop :=
  schemaRow sourceId name ∈ table.rows

theorem hasSchema_of_find {table : SharedTable teiid} {id : String} {row : Row}
    (h : table.findSchemaBySourceId id = some row) : table.HasSchema id row.name := by
  have hrow := List.find?_some h
  simp only [Bool.decide_and, Bool.and_eq_true, decide_eq_true_eq] at hrow
  have hmem := List.mem_of_find?_eq_some h
  obtain ⟨type, name, sourceId⟩ := row
  obtain ⟨rfl, rfl⟩ := hrow
  exact hmem

/-- Two different rows are distinct. -/
theorem distinct (table : SharedTable teiid) {a b : Row} (ha : a ∈ table.rows)
    (hb : b ∈ table.rows) (hne : a ≠ b) : a.Distinct teiid b :=
  table.consistent.forall ha hb hne

/-- A source has one schema. -/
theorem HasSchema.unique {table : SharedTable teiid} {id name name' : String}
    (h : table.HasSchema id name) (h' : table.HasSchema id name') : name = name' := by
  by_contra hne
  have hrows : schemaRow id name ≠ schemaRow id name' := by
    intro heq
    exact hne (congrArg Row.name heq)
  exact (table.distinct h h' hrows).2 rfl rfl

/-- The schemas of two sources have names that differ in upper case. -/
theorem HasSchema.upperCase_ne {table : SharedTable teiid} {id id' name name' : String}
    (h : table.HasSchema id name) (h' : table.HasSchema id' name') (hne : id ≠ id') :
    teiid.toUpperCase name ≠ teiid.toUpperCase name' := by
  have hrows : schemaRow id name ≠ schemaRow id' name' := by
    intro heq
    exact hne (Option.some.inj (congrArg Row.sourceId heq))
  exact (table.distinct h h' hrows).1

end SharedTable

end TeiidSyndesis.Repository
