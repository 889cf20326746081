/-
# TeiidSyndesis.Repository.UpperNames — names of virtualizations and schemas, with upper-case copies.

The store of `RepositoryManager` compares the names of rows in upper case.  The program has no such
comparison to rely on: `BaseEntity` stores the upper case of its name in a column of its own, the
queries read that column, and a unique index on it is what keeps names apart.  This module is the table
with its columns as they are, and every change the program makes to it.  Names differ ignoring case
because each writer leaves the copy in step with the name.

Main results:
* `InStep.apply`, `InStep.applyAll`, `Reachable.inStep` — every change leaves the copies in step, so they
  are in every table that is reached;
* `InStep.isSome_findByNameIgnoreCase`, `InStep.isNameInUse_iff` — so what the queries answer;
* `Constraints.save_iff` — and what the unique indexes let in;
* `store_createDataVirtualization`, `store_createSchema`, `nodup_rowNames_store` — the table without its
  copies is the store of `RepositoryManager`.
-/
import Mathlib.Data.List.Perm.Subperm
import TeiidSyndesis.Library.Transition
import TeiidSyndesis.Repository.RepositoryManager
import TeiidSyndesis.Repository.SharedTable

namespace TeiidSyndesis.Repository

open TeiidSyndesis.Library TeiidSyndesis.Model

/-! ## Rows -/

/-- A row of `data_virtualization`: the columns of `BaseEntity` and of the two types of entities. -/
structure BaseDataVirtualization where
  id : Nat := 0
  type : RowType
  name : Option String := none
  upperName : Option String := none
  version : Nat := 0
  sourceId : Option String := none
  description : Option String := none
  ddl : Option String := none
  deriving DecidableEq, Repr

namespace BaseDataVirtualization

/-- `BaseEntity.setName`: the name, with the copy in upper case. -/
def setName (teiid : Teiid) (entity : BaseDataVirtualization) (name : Option String) :
    BaseDataVirtualization :=
  match name with
  | some text => { entity with name := some text, upperName := some (teiid.toUpperCase text) }
  | none => { entity with name := none, upperName := none }

/-- `BaseEntity.prePersist`: the copy is written once more before the row is. -/
def prePersist (teiid : Teiid) (entity : BaseDataVirtualization) : BaseDataVirtualization :=
  match entity.name with
  | some text => { entity with upperName := some (teiid.toUpperCase text) }
  | none => entity

/-- The copy is the upper case of the name. -/
def InStep (teiid : Teiid) (entity : BaseDataVirtualization) : Prop :=
  entity.upperName = entity.name.map teiid.toUpperCase

/-- The entity has the name, ignoring case. -/
def Bears (teiid : Teiid) (entity : BaseDataVirtualization) (name : String) : Prop :=
  entity.name.map teiid.toUpperCase = some (teiid.toUpperCase name)

instance (teiid : Teiid) (entity : BaseDataVirtualization) (name : String) :
    Decidable (entity.Bears teiid name) :=
  inferInstanceAs (Decidable (_ = _))

/-- The widths of the columns. -/
structure Fits (entity : BaseDataVirtualization) : Prop where
  name : ∀ text ∈ entity.name, text.length ≤ 255
  upperName : ∀ text ∈ entity.upperName, text.length ≤ 255
  sourceId : ∀ text ∈ entity.sourceId, text.length ≤ 64
  description : ∀ text ∈ entity.description, text.length ≤ 4096
  ddl : ∀ text ∈ entity.ddl, text.length ≤ 4000000

instance (entity : BaseDataVirtualization) : Decidable entity.Fits :=
  decidable_of_iff
    ((∀ text ∈ entity.name, text.length ≤ 255) ∧ (∀ text ∈ entity.upperName, text.length ≤ 255) ∧
      (∀ text ∈ entity.sourceId, text.length ≤ 64) ∧
      (∀ text ∈ entity.description, text.length ≤ 4096) ∧
      ∀ text ∈ entity.ddl, text.length ≤ 4000000)
    ⟨fun ⟨name, upperName, sourceId, description, ddl⟩ =>
        ⟨name, upperName, sourceId, description, ddl⟩,
      fun h => ⟨h.name, h.upperName, h.sourceId, h.description, h.ddl⟩⟩

/-- A name that is set has its copy. -/
theorem inStep_setName (teiid : Teiid) (entity : BaseDataVirtualization) (name : Option String) :
    (entity.setName teiid name).InStep teiid := by
  cases name <;> rfl

/-- Persisting an entity whose copy is in step changes nothing. -/
theorem InStep.prePersist_eq {teiid : Teiid} {entity : BaseDataVirtualization}
    (h : entity.InStep teiid) : entity.prePersist teiid = entity := by
  unfold prePersist
  split
  · rename_i text hname
    unfold InStep at h
    rw [hname, Option.map_some] at h
    rw [← h]
  · rfl

/-- The index on the copy sees an entity as bearing a name exactly if it does. -/
theorem InStep.upperName_eq_iff {teiid : Teiid} {entity : BaseDataVirtualization}
    (h : entity.InStep teiid) (name : String) :
    entity.upperName = some (teiid.toUpperCase name) ↔ entity.Bears teiid name := by
  unfold Bears
  rw [h]

end BaseDataVirtualization

/-! ## The tables -/

/-- The table of virtualizations and schemas, the views that refer to it, and the next identifier. -/
structure BaseTables where
  rows : List BaseDataVirtualization := []
  views : List ViewDefinition := []
  nextId : Nat := 0
  deriving DecidableEq, Repr

namespace BaseTables

/-- The constraints of the table.  A unique index ignores the rows whose column is null. -/
structure Constraints (tables : BaseTables) : Prop where
  names : (tables.rows.filterMap (·.name)).Nodup
  /-- `data_virtualization_name_index` -/
  upperNames : (tables.rows.filterMap (·.upperName)).Nodup
  /-- `data_virtualization_source_id` -/
  sourceIds : (tables.rows.filterMap (·.sourceId)).Nodup
  widths : ∀ row ∈ tables.rows, row.Fits

instance (tables : BaseTables) : Decidable tables.Constraints :=
  decidable_of_iff
    ((tables.rows.filterMap (·.name)).Nodup ∧ (tables.rows.filterMap (·.upperName)).Nodup ∧
      (tables.rows.filterMap (·.sourceId)).Nodup ∧ ∀ row ∈ tables.rows, row.Fits)
    ⟨fun ⟨names, upperNames, sourceIds, widths⟩ => ⟨names, upperNames, sourceIds, widths⟩,
      fun h => ⟨h.names, h.upperNames, h.sourceIds, h.widths⟩⟩

/-! ## Queries -/

/-- The row of a name, as it is spelled. -/
def findByName (tables : BaseTables) (name : String) : Option BaseDataVirtualization :=
  tables.rows.find? fun row => row.type = .virtualization ∧ row.name = some name

/-- The query compares the copy with the `UPPER` of the database. -/
def findByNameIgnoreCase (upper : String → String) (tables : BaseTables) (dvName : String) :
    Option BaseDataVirtualization :=
  tables.rows.find? fun row => row.type = .virtualization ∧ row.upperName = some (upper dvName)

/-- The query counts rows of both types. -/
def countByUpperName (tables : BaseTables) (name : String) : Nat :=
  tables.rows.countP fun row => row.upperName = some name

def isNameInUse (teiid : Teiid) (tables : BaseTables) (name : String) : Bool :=
  decide (0 < tables.countByUpperName (teiid.toUpperCase name))

def findSchemaBySourceId (tables : BaseTables) (id : String) : Option BaseDataVirtualization :=
  tables.rows.find? fun row => row.type = .sourceSchema ∧ row.sourceId = some id

def findViewDefinitionsNames (tables : BaseTables) (dvName : String) : List String :=
  (tables.views.filter (·.dataVirtualizationName = dvName)).map (·.name)

/-! ## Changes -/

/-- `save` of a new entity -/
def save (teiid : Teiid) (tables : BaseTables) (entity : BaseDataVirtualization) : BaseTables :=
  { tables with
    rows := tables.rows ++ [{ entity.prePersist teiid with id := tables.nextId }]
    nextId := tables.nextId + 1 }

/-- What a flush writes of an entity that was loaded as `old`: all its columns, if one has changed. -/
def flush (tables : BaseTables) (old entity : BaseDataVirtualization) : BaseTables :=
  if entity = old then tables
  else
    { tables with
      rows := writeRow BaseDataVirtualization.id { entity with version := old.version + 1 } tables.rows }

/-- The setter called on an entity a query found, and the flush of that entity. -/
def update (tables : BaseTables) (found : Option BaseDataVirtualization)
    (setter : BaseDataVirtualization → BaseDataVirtualization) : BaseTables :=
  match found with
  | none => tables
  | some old => tables.flush old (setter old)

/-- A change of the tables in a transaction. -/
inductive Change
  /-- `new DataVirtualization(virtualizationName)`, its description set before it is flushed -/
  | createDataVirtualization (virtualizationName : String) (description : Option String)
  | setDescription (virtualizationName : String) (description : Option String)
  /-- `setModifiedAt(null)`, by which a change of a view moves the version of its virtualization -/
  | setModifiedAt (virtualizationName : String)
  | setSourceId (virtualizationName : String) (id : Option String)
  | deleteDataVirtualization (serviceName : String)
  | createSchema (sourceId name : String) (contents : Option String)
  | setDdl (sourceId : String) (ddl : Option String)
  | deleteSchemaBySourceId (sourceId : String)
  /-- any change of the views, which draws new identifiers -/
  | saveViews (views : List ViewDefinition) (drawn : Nat)
  deriving DecidableEq, Repr

/-- The new entity of a virtualization. -/
def newDataVirtualization (teiid : Teiid) (virtualizationName : String) (description : Option String) :
    BaseDataVirtualization :=
  { BaseDataVirtualization.setName teiid { type := .virtualization } (some virtualizationName) with
    description := description }

/-- The new entity of a schema. -/
def newSchema (teiid : Teiid) (sourceId name : String) (contents : Option String) :
    BaseDataVirtualization :=
  { BaseDataVirtualization.setName teiid { type := .sourceSchema, sourceId := some sourceId }
      (some name) with
    ddl := contents }

/-- What a change does to the tables. -/
def apply (teiid : Teiid) (tables : BaseTables) : Change → BaseTables
  | .createDataVirtualization virtualizationName description =>
      tables.save teiid (newDataVirtualization teiid virtualizationName description)
  | .setDescription virtualizationName description =>
      tables.update (tables.findByName virtualizationName) fun dv =>
        { dv with description := description }
  | .setModifiedAt virtualizationName =>
      -- the time is set by the flush, so this change is always seen
      match tables.findByName virtualizationName with
      | none => tables
      | some dv =>
          { tables with
            rows := writeRow BaseDataVirtualization.id { dv with version := dv.version + 1 } tables.rows }
  | .setSourceId virtualizationName id =>
      tables.update (tables.findByName virtualizationName) fun dv => { dv with sourceId := id }
  | .deleteDataVirtualization serviceName =>
      { tables with
        rows := tables.rows.filter fun row =>
          ¬(row.type = .virtualization ∧ row.name = some serviceName)
        views := tables.views.filter (·.dataVirtualizationName ≠ serviceName) }
  | .createSchema sourceId name contents => tables.save teiid (newSchema teiid sourceId name contents)
  | .setDdl sourceId ddl =>
      tables.update (tables.findSchemaBySourceId sourceId) fun schema => { schema with ddl := ddl }
  | .deleteSchemaBySourceId sourceId =>
      { tables with
        rows := tables.rows.filter fun row => ¬(row.type = .sourceSchema ∧ row.sourceId = some sourceId)
        views := tables.views.filter fun view =>
          some view.dataVirtualizationName ∉
            (tables.rows.filter fun row =>
              row.type = .sourceSchema ∧ row.sourceId = some sourceId).map (·.name) }
  | .saveViews views drawn => { tables with views := views, nextId := tables.nextId + drawn }

/-! ## The copy is kept in step -/

/-- Every row of the table has its copy in step. -/
def InStep (teiid : Teiid) (tables : BaseTables) : Prop := ∀ row ∈ tables.rows, row.InStep teiid

section

variable {teiid : Teiid} {tables : BaseTables}

/-- A row that is saved is in step, if its entity is. -/
theorem InStep.save (h : tables.InStep teiid) {entity : BaseDataVirtualization}
    (hentity : entity.InStep teiid) : (tables.save teiid entity).InStep teiid := by
  intro row hrow
  rcases List.mem_append.mp hrow with hrow | hrow
  · exact h row hrow
  · obtain rfl := List.mem_singleton.mp hrow
    rw [hentity.prePersist_eq]
    exact hentity

/-- A row that is written over another is in step, if its entity is. -/
theorem InStep.writeRow (h : tables.InStep teiid) {entity : BaseDataVirtualization}
    (hentity : entity.InStep teiid) :
    InStep teiid { tables with rows := writeRow BaseDataVirtualization.id entity tables.rows } := by
  intro row hrow
  rcases mem_writeRow hrow with rfl | ⟨hrow, _⟩
  · exact hentity
  · exact h row hrow

/-- A flush writes the name and the copy as they were loaded. -/
theorem InStep.flush (h : tables.InStep teiid) {old entity : BaseDataVirtualization}
    (hentity : entity.InStep teiid) : (tables.flush old entity).InStep teiid := by
  unfold BaseTables.flush
  split
  · exact h
  · exact h.writeRow hentity

/-- No setter but `setName` touches the name or the copy. -/
theorem InStep.update (h : tables.InStep teiid) {found : Option BaseDataVirtualization}
    (hfound : ∀ old ∈ found, old ∈ tables.rows) {setter : BaseDataVirtualization → BaseDataVirtualization}
    (hsetter : ∀ old, old.InStep teiid → (setter old).InStep teiid) :
    (tables.update found setter).InStep teiid := by
  unfold BaseTables.update
  split
  · exact h
  · rename_i old
    exact h.flush (hsetter old (h old (hfound old rfl)))

/-- Rows that are taken away leave the others in step. -/
theorem InStep.of_subset (h : tables.InStep teiid) {tables' : BaseTables}
    (hsubset : ∀ row ∈ tables'.rows, row ∈ tables.rows) : tables'.InStep teiid := by
  intro row hrow
  exact h row (hsubset row hrow)

theorem mem_of_findByName {name : String} {row : BaseDataVirtualization}
    (h : tables.findByName name = some row) : row ∈ tables.rows :=
  List.mem_of_find?_eq_some h

/-- A virtualization that is created is in step. -/
theorem inStep_newDataVirtualization (teiid : Teiid) (virtualizationName : String)
    (description : Option String) :
    (newDataVirtualization teiid virtualizationName description).InStep teiid :=
  BaseDataVirtualization.inStep_setName teiid { type := .virtualization } (some virtualizationName)

/-- A schema that is created is in step. -/
theorem inStep_newSchema (teiid : Teiid) (sourceId name : String) (contents : Option String) :
    (newSchema teiid sourceId name contents).InStep teiid :=
  BaseDataVirtualization.inStep_setName teiid
    { type := .sourceSchema, sourceId := some sourceId } (some name)

/-- Every change leaves every copy in step. -/
theorem InStep.apply (h : tables.InStep teiid) (change : Change) :
    (tables.apply teiid change).InStep teiid := by
  cases change with
  | createDataVirtualization virtualizationName description =>
      exact h.save (inStep_newDataVirtualization teiid virtualizationName description)
  | setDescription virtualizationName description =>
      exact h.update (fun _ hold => mem_of_findByName hold) fun _ hold => hold
  | setModifiedAt virtualizationName =>
      show InStep teiid (match tables.findByName virtualizationName with | none => _ | some dv => _)
      split
      · exact h
      · rename_i dv hfind
        exact h.writeRow (h dv (mem_of_findByName hfind))
  | setSourceId virtualizationName id =>
      exact h.update (fun _ hold => mem_of_findByName hold) fun _ hold => hold
  | deleteDataVirtualization serviceName => exact h.of_subset fun row => List.mem_of_mem_filter
  | createSchema sourceId name contents => exact h.save (inStep_newSchema teiid sourceId name contents)
  | setDdl sourceId ddl =>
      exact h.update (fun _ hold => List.mem_of_find?_eq_some hold) fun _ hold => hold
  | deleteSchemaBySourceId sourceId => exact h.of_subset fun row => List.mem_of_mem_filter
  | saveViews views drawn => exact h

/-- Changes one after another. -/
theorem InStep.applyAll (h : tables.InStep teiid) (changes : List Change) :
    (changes.foldl (BaseTables.apply teiid) tables).InStep teiid := by
  induction changes generalizing tables with
  | nil => exact h
  | cons change changes ih => exact ih (h.apply change)

end

/-! ## What the queries and the constraints say of a name -/

/-- A row of the type has the name, ignoring case. -/
def TakenBy (teiid : Teiid) (tables : BaseTables) (type : RowType) (name : String) : Prop :=
  ∃ row ∈ tables.rows, row.type = type ∧ row.Bears teiid name

instance (teiid : Teiid) (tables : BaseTables) (type : RowType) (name : String) :
    Decidable (tables.TakenBy teiid type name) :=
  inferInstanceAs (Decidable (∃ row ∈ tables.rows, _))

section

variable {teiid : Teiid} {tables : BaseTables}

/-- The first query finds a virtualization with the name, wherever `UPPER` agrees with `toUpperCase`. -/
theorem InStep.isSome_findByNameIgnoreCase (h : tables.InStep teiid) {upper : String → String}
    {name : String} (hupper : upper name = teiid.toUpperCase name) :
    (tables.findByNameIgnoreCase upper name).isSome ↔ tables.TakenBy teiid .virtualization name := by
  unfold findByNameIgnoreCase
  rw [List.find?_isSome, hupper]
  constructor
  · rintro ⟨row, hrow, hcopy⟩
    simp only [Bool.decide_and, Bool.and_eq_true, decide_eq_true_eq] at hcopy
    exact ⟨row, hrow, hcopy.1, ((h row hrow).upperName_eq_iff name).mp hcopy.2⟩
  · rintro ⟨row, hrow, htype, hbears⟩
    refine ⟨row, hrow, ?_⟩
    simp only [Bool.decide_and, Bool.and_eq_true, decide_eq_true_eq]
    exact ⟨htype, ((h row hrow).upperName_eq_iff name).mpr hbears⟩

/-- The second query counts the rows of either type with the name. -/
theorem InStep.isNameInUse_iff (h : tables.InStep teiid) (name : String) :
    tables.isNameInUse teiid name = true ↔ ∃ type, tables.TakenBy teiid type name := by
  unfold isNameInUse countByUpperName
  rw [decide_eq_true_eq, List.countP_pos_iff]
  constructor
  · rintro ⟨row, hrow, hcopy⟩
    exact ⟨row.type, row, hrow, rfl, ((h row hrow).upperName_eq_iff name).mp (of_decide_eq_true hcopy)⟩
  · rintro ⟨_, row, hrow, rfl, hbears⟩
    exact ⟨row, hrow, decide_eq_true (((h row hrow).upperName_eq_iff name).mpr hbears)⟩

/-- A new entity with a name and no source id is committed exactly if it fits its columns and no row
has the name, ignoring case. -/
theorem Constraints.save_iff (h : tables.Constraints) (hstep : tables.InStep teiid)
    {entity : BaseDataVirtualization} {name : String} (hname : entity.name = some name)
    (hentity : entity.InStep teiid) (hsource : entity.sourceId = none) :
    (tables.save teiid entity).Constraints ↔
      entity.Fits ∧ ∀ type, ¬tables.TakenBy teiid type name := by
  have hcopy : entity.upperName = some (teiid.toUpperCase name) := by
    rw [hentity, hname, Option.map_some]
  constructor
  · intro hsaved
    unfold save at hsaved
    rw [hentity.prePersist_eq] at hsaved
    obtain ⟨_, hupperNames, _, hwidths⟩ := hsaved
    have hfits := hwidths _ (List.mem_append_right _ (List.mem_singleton.mpr rfl))
    refine ⟨⟨hfits.name, hfits.upperName, hfits.sourceId, hfits.description, hfits.ddl⟩, ?_⟩
    rintro type ⟨row, hrow, _, hbears⟩
    refine (nodup_filterMap_concat h.upperNames).mp hupperNames _ hcopy row hrow ?_
    exact ((hstep row hrow).upperName_eq_iff name).mpr hbears
  · rintro ⟨hfits, hfree⟩
    have hnew : ∀ row ∈ tables.rows, row.upperName ≠ some (teiid.toUpperCase name) := by
      intro row hrow heq
      exact hfree row.type ⟨row, hrow, rfl, ((hstep row hrow).upperName_eq_iff name).mp heq⟩
    unfold save
    rw [hentity.prePersist_eq]
    constructor
    · refine (nodup_filterMap_concat h.names).mpr ?_
      intro text htext row hrow heq
      -- a row of the same name has the same copy
      refine hnew row hrow ?_
      obtain rfl : name = text := Option.some.inj (hname.symm.trans htext)
      rw [hstep row hrow, heq, Option.map_some]
    · refine (nodup_filterMap_concat h.upperNames).mpr ?_
      intro text htext row hrow heq
      refine hnew row hrow ?_
      rw [heq, ← hcopy]
      exact htext.symm
    · refine (nodup_filterMap_concat h.sourceIds).mpr ?_
      intro id hid
      rw [show entity.sourceId = some id from hid] at hsource
      cases hsource
    · intro row hrow
      rcases List.mem_append.mp hrow with hrow | hrow
      · exact h.widths row hrow
      · obtain rfl := List.mem_singleton.mp hrow
        exact ⟨hfits.name, hfits.upperName, hfits.sourceId, hfits.description, hfits.ddl⟩

end

end BaseTables

/-! ## The store without the copies -/

namespace BaseDataVirtualization

/-- A row, as the virtualization it is. -/
def asDataVirtualization (row : BaseDataVirtualization) : Option DataVirtualization :=
  match row.type, row.name with
  | .virtualization, some name =>
      some { id := row.id, name := name, description := row.description, version := row.version }
  | _, _ => none

/-- A row, as the schema it is. -/
def asSourceSchema (row : BaseDataVirtualization) : Option SourceSchema :=
  match row.type, row.name, row.sourceId with
  | .sourceSchema, some name, some sourceId =>
      some { id := row.id, name := name, sourceId := sourceId, ddl := row.ddl }
  | _, _, _ => none

end BaseDataVirtualization

namespace BaseTables

/-- The tables as `RepositoryManager` has them, where names are compared in upper case. -/
def store (tables : BaseTables) : Store where
  virtualizations := tables.rows.filterMap (·.asDataVirtualization)
  schemas := tables.rows.filterMap (·.asSourceSchema)
  views := tables.views
  nextId := tables.nextId

/-- A new virtualization is the same one in both. -/
theorem store_createDataVirtualization (teiid : Teiid) (tables : BaseTables)
    (virtualizationName : String) (description : Option String) :
    (tables.apply teiid (.createDataVirtualization virtualizationName description)).store =
      tables.store.createDataVirtualization virtualizationName description := by
  have hnew := (inStep_newDataVirtualization teiid virtualizationName description).prePersist_eq
  show BaseTables.store (tables.save teiid _) = _
  unfold BaseTables.save
  rw [hnew]
  unfold BaseTables.store Store.createDataVirtualization
  simp [newDataVirtualization, BaseDataVirtualization.setName,
    BaseDataVirtualization.asDataVirtualization, BaseDataVirtualization.asSourceSchema]

/-- So is a new schema. -/
theorem store_createSchema (teiid : Teiid) (tables : BaseTables) (sourceId name : String) :
    (tables.apply teiid (.createSchema sourceId name none)).store =
      tables.store.createSchema sourceId name := by
  have hnew := (inStep_newSchema teiid sourceId name none).prePersist_eq
  show BaseTables.store (tables.save teiid _) = _
  unfold BaseTables.save
  rw [hnew]
  unfold BaseTables.store Store.createSchema
  simp [newSchema, BaseDataVirtualization.setName, BaseDataVirtualization.asDataVirtualization,
    BaseDataVirtualization.asSourceSchema]

/-- The names of the store, in upper case, are among the copies. -/
theorem subperm_upperNames {teiid : Teiid} {rows : List BaseDataVirtualization}
    (h : ∀ row ∈ rows, row.InStep teiid) :
    List.Subperm
      ((rows.filterMap (·.asDataVirtualization)).map (fun dv => teiid.toUpperCase dv.name) ++
        (rows.filterMap (·.asSourceSchema)).map (fun schema => teiid.toUpperCase schema.name))
      (rows.filterMap (·.upperName)) := by
  induction rows with
  | nil => exact List.nil_subperm
  | cons row rows ih =>
      obtain ⟨hrow, hrows⟩ := List.forall_mem_cons.mp h
      have ih := ih hrows
      obtain ⟨id, type, name, upperName, version, sourceId, description, ddl⟩ := row
      obtain rfl : upperName = name.map teiid.toUpperCase := hrow
      cases name with
      | none =>
          -- a row without a name is in neither list
          cases type <;> exact ih
      | some text =>
          cases type with
          | virtualization => exact (List.subperm_cons (teiid.toUpperCase text)).mpr ih
          | sourceSchema =>
              cases sourceId with
              | none => exact ih.trans (List.sublist_cons_self _ _).subperm
              | some source =>
                  have hcons := (List.subperm_cons (teiid.toUpperCase text)).mpr ih
                  exact List.perm_middle.subperm.trans hcons

/-- The index on the copies keeps the names of the store apart, in upper case. -/
theorem nodup_rowNames_store {teiid : Teiid} {tables : BaseTables} (h : tables.InStep teiid)
    (hindex : (tables.rows.filterMap (·.upperName)).Nodup) :
    (tables.store.rowNames.map teiid.toUpperCase).Nodup := by
  unfold BaseTables.store Store.rowNames
  rw [List.map_append, List.map_map, List.map_map]
  obtain ⟨names, hperm, hsublist⟩ := subperm_upperNames h
  exact hperm.nodup_iff.mp (hindex.sublist hsublist)

end BaseTables

/-! ## Transactions and runs -/

/-- The committed tables. -/
structure BaseDatabase where
  tables : BaseTables
  constraints : tables.Constraints

namespace BaseDatabase

/-- A transaction makes its changes on a copy; the database checks the constraints. -/
def transaction (teiid : Teiid) (db : BaseDatabase) (changes : List BaseTables.Change) :
    Except Failure BaseDatabase :=
  let tables := changes.foldl (BaseTables.apply teiid) db.tables
  if h : tables.Constraints then .ok ⟨tables, h⟩ else .error .dataIntegrityViolation

/-- A transaction is committed if its constraints are met. -/
theorem transaction_eq_ok {teiid : Teiid} {db db' : BaseDatabase} {changes : List BaseTables.Change} :
    db.transaction teiid changes = .ok db' ↔
      db'.tables = changes.foldl (BaseTables.apply teiid) db.tables := by
  unfold transaction
  rw [checked_eq_ok]
  constructor
  · rintro ⟨_, rfl⟩
    rfl
  · intro h
    have hconstraints := db'.constraints
    rw [h] at hconstraints
    refine ⟨hconstraints, ?_⟩
    cases db'
    cases h
    rfl

/-- The program on its tables: it starts with empty ones and runs one transaction after the other, each
some list of changes. -/
def program (teiid : Teiid) : System BaseDatabase (List BaseTables.Change) where
  init db := db.tables = {}
  step db changes db' := db.transaction teiid changes = .ok db'

/-- The tables the program can have made. -/
def Reachable (teiid : Teiid) (db : BaseDatabase) : Prop :=
  ∃ start tr, (program teiid).init start ∧ (program teiid).Run start tr db

/-- In every state the program reaches, the copies are in step. -/
theorem Reachable.inStep {teiid : Teiid} {db : BaseDatabase} (h : Reachable teiid db) :
    db.tables.InStep teiid := by
  obtain ⟨start, tr, hstart, hrun⟩ := h
  have hempty (s : BaseDatabase) (hs : s.tables = {}) : s.tables.InStep teiid := by
    intro row hrow
    rw [hs] at hrow
    cases hrow
  have hkeep (s : BaseDatabase) (changes : List BaseTables.Change) (t : BaseDatabase)
      (hs : s.tables.InStep teiid) (hstep : s.transaction teiid changes = .ok t) :
      t.tables.InStep teiid := by
    rw [transaction_eq_ok.mp hstep]
    exact hs.applyAll changes
  exact @System.Run.invariant_of_all _ _ (program teiid) (fun db => db.tables.InStep teiid)
    hempty hkeep start db tr hstart hrun

end BaseDatabase

end TeiidSyndesis.Repository
