/-
# TeiidSyndesis.Server.DvServer — the operations on virtualizations, run one after another.

The state is the committed tables with the preview VDBs the Teiid server has deployed.  Each operation
is one transaction on the tables; one that fails leaves them as they were.  `updatePreviewVdb` reads
the tables and deploys, `deleteDataVirtualization` undeploys after its commit.

Main results:
* `updatePreviewVdb_cases`, `PreviewUpdate.db` — the ways a preview ends;
* `transaction_of_next`, `upsert_of_transaction` — what a step commits.
-/
import TeiidSyndesis.Library.Transition
import TeiidSyndesis.Server.DataVirtualizationService
import TeiidSyndesis.Server.PreviewVdbs

namespace TeiidSyndesis.Server

open TeiidSyndesis.Library TeiidSyndesis.Model TeiidSyndesis.Repository

/-- The committed tables, and the VDBs that are deployed. -/
structure DvServer (teiid : Teiid) where
  db : Database teiid
  previews : List VDBMetaData := []

namespace DvServer

variable {teiid : Teiid}

/-! ## Preview VDBs -/

/-- The VDB of a name. -/
def getVdb (s : DvServer teiid) (name : String) : Option VDBMetaData :=
  s.previews.find? (·.name = name)

/-- `undeployDynamicVdb` -/
def undeploy (s : DvServer teiid) (name : String) : DvServer teiid :=
  { s with previews := s.previews.filter (·.name ≠ name) }

/-- `deploy` undeploys the VDB of the name first. -/
def deploy (s : DvServer teiid) (vdb : VDBMetaData) : DvServer teiid :=
  { s with previews := (s.undeploy vdb.name).previews ++ [vdb] }

/-- The server a preview leaves, and the VDB it returns; a deployment may fail. -/
def updatePreviewVdb (s : DvServer teiid) (dvName : String) (failure : Option Failure) :
    DvServer teiid × Except Failure VDBMetaData :=
  match s.db.store.findDataVirtualization dvName with
  | none => (s, .error (.notFound dvName))
  | some dv =>
      let vdb := s.getVdb (getPreviewVdbName dvName)
      match isCurrent dv vdb, vdb with
      | .error failure, _ => (s, .error failure)
      | .ok true, some vdb => (s, .ok vdb)
      | _, _ =>
          match createPreviewVdb dvName (getPreviewVdbName dvName)
            (s.db.store.findViewDefinitions dvName) with
          | .error failure => (s, .error failure)
          | .ok theVdb =>
              let theVdb := { theVdb with versionProperty := some dv.version }
              match failure with
              | none => (s.deploy theVdb, .ok theVdb)
              | some failure => (s.undeploy theVdb.name, .error failure)

/-! ## The system -/

inductive Label
  | createDataVirtualization (restDataVirtualization : RestDataVirtualization)
  | updateDataVirtualization (virtualization : String)
      (restDataVirtualization : RestDataVirtualization)
  | deleteDataVirtualization (virtualization : String)
  | upsertViewEditorState (finder : SchemaFinder) (restViewDefn : ViewDefinition)
  | removeViewDefinition (id : Nat)
  | importViews (finder : SchemaFinder) (virtualization teiidSourceName : String)
      (tables : List String)
  | updatePreviewVdb (dvName : String) (failure : Option Failure)

/-- The tables the transaction of an operation is to commit. -/
def transaction (teiid : Teiid) (store : Store) : Label → Except Failure Store
  | .createDataVirtualization restDataVirtualization =>
      createDataVirtualization teiid store restDataVirtualization
  | .updateDataVirtualization virtualization restDataVirtualization =>
      updateDataVirtualization store virtualization restDataVirtualization
  | .deleteDataVirtualization virtualization => deleteDataVirtualization store virtualization
  | .upsertViewEditorState finder restViewDefn =>
      (upsertViewEditorState teiid finder store restViewDefn).map (·.1)
  | .removeViewDefinition id => removeViewDefinition store id
  | .importViews finder virtualization teiidSourceName tables =>
      importViews teiid finder store virtualization teiidSourceName tables
  | .updatePreviewVdb _ _ => .ok store

/-- What an operation does to the preview VDBs; `s` has the tables as committed. -/
def afterCommit (s : DvServer teiid) : Label → DvServer teiid
  | .deleteDataVirtualization virtualization => s.undeploy (getPreviewVdbName virtualization)
  | .updatePreviewVdb dvName failure => (s.updatePreviewVdb dvName failure).1
  | _ => s

/-- An operation that succeeds. -/
def next (s : DvServer teiid) (label : Label) : Option (DvServer teiid) :=
  match transaction teiid s.db.store label >>= commit teiid with
  | .error _ => none
  | .ok db => some ({ s with db := db }.afterCommit label)

/-- No virtualizations; source schemas may be there. -/
def Initial (s : DvServer teiid) : Prop :=
  s.db.store.virtualizations = [] ∧ s.db.store.views = [] ∧ s.previews = []

/-- Runs of the operations, one after another. -/
def system (teiid : Teiid) : System (DvServer teiid) Label := .ofNext Initial next

/-- Empty tables, and nothing deployed. -/
def empty : DvServer teiid where
  db := { store := {}, consistent := ⟨.nil, .nil, .nil, nofun, .nil, nofun⟩ }

theorem initial_empty : Initial (empty : DvServer teiid) := ⟨rfl, rfl, rfl⟩

/-- A server whose parser finds no table in any text. -/
def unparsing : Teiid := .ascii fun _ => { schema := { name := "dv" } }

/-- The request for a generated view without sources. -/
def generatedRequest : ViewDefinition :=
  { name := "v", dataVirtualizationName := "dv", complete := true }

/-! ## What a step does -/

/-- The ways a preview ends: the server it leaves, and what it returns. -/
inductive PreviewUpdate (s : DvServer teiid) (dvName : String) :
    DvServer teiid → Except Failure VDBMetaData → Prop
  | fails (failure : Failure) : PreviewUpdate s dvName s (.error failure)
  | current {dv : DataVirtualization} {vdb : VDBMetaData} :
      s.db.store.findDataVirtualization dvName = some dv →
      s.getVdb (getPreviewVdbName dvName) = some vdb → vdb.versionProperty = some dv.version →
      PreviewUpdate s dvName s (.ok vdb)
  | deployed {dv : DataVirtualization} {theVdb : VDBMetaData} :
      s.db.store.findDataVirtualization dvName = some dv →
      createPreviewVdb dvName (getPreviewVdbName dvName) (s.db.store.findViewDefinitions dvName) =
        .ok theVdb →
      PreviewUpdate s dvName (s.deploy { theVdb with versionProperty := some dv.version })
        (.ok { theVdb with versionProperty := some dv.version })
  | undeployed (name : String) (failure : Failure) :
      PreviewUpdate s dvName (s.undeploy name) (.error failure)

/-- A preview that is current has the version of its virtualization. -/
theorem version_of_isCurrent {dv : DataVirtualization} {vdb : VDBMetaData}
    (h : isCurrent dv (some vdb) = .ok true) : vdb.versionProperty = some dv.version := by
  unfold isCurrent at h
  cases hversion : vdb.versionProperty with
  | none => simp [hversion] at h
  | some version =>
      have hsame : dv.version = version := by simpa [hversion] using h
      rw [hsame]

/-- Every call of `updatePreviewVdb` ends in one of these ways. -/
theorem updatePreviewVdb_cases (s : DvServer teiid) (dvName : String) (failure : Option Failure) :
    PreviewUpdate s dvName (s.updatePreviewVdb dvName failure).1
      (s.updatePreviewVdb dvName failure).2 := by
  unfold updatePreviewVdb
  cases hdv : s.db.store.findDataVirtualization dvName with
  | none => exact .fails _
  | some dv =>
      dsimp only
      split
      · exact .fails _
      · rename_i vdb hcurrent hvdb
        rw [hvdb] at hcurrent
        exact .current hdv hvdb (version_of_isCurrent hcurrent)
      · cases hcreate : createPreviewVdb dvName (getPreviewVdbName dvName)
            (s.db.store.findViewDefinitions dvName) with
        | error failure => exact .fails failure
        | ok theVdb =>
            cases failure with
            | none => exact .deployed hdv hcreate
            | some failure => exact .undeployed _ failure

/-- A preview writes no table. -/
theorem PreviewUpdate.db {s t : DvServer teiid} {dvName : String}
    {result : Except Failure VDBMetaData} (h : PreviewUpdate s dvName t result) : t.db = s.db := by
  cases h <;> rfl

/-- What follows a commit writes no table. -/
theorem afterCommit_db (s : DvServer teiid) (label : Label) : (s.afterCommit label).db = s.db := by
  cases label with
  | updatePreviewVdb dvName failure => exact (updatePreviewVdb_cases s dvName failure).db
  | _ => rfl

/-- A step commits the tables of its transaction. -/
theorem transaction_of_next {s t : DvServer teiid} {label : Label} (h : next s label = some t) :
    transaction teiid s.db.store label = .ok t.db.store ∧
      t = { s with db := t.db }.afterCommit label := by
  unfold next at h
  cases hcommit : transaction teiid s.db.store label >>= commit teiid with
  | error failure =>
      rw [hcommit] at h
      cases h
  | ok db =>
      rw [hcommit] at h
      obtain rfl := Option.some.inj h
      obtain ⟨store, htransaction, hstore⟩ := bind_eq_ok.mp hcommit
      have hdb : ({ s with db := db }.afterCommit label).db = db := afterCommit_db _ label
      rw [hdb, commit_eq_ok.mp hstore]
      exact ⟨htransaction, rfl⟩

/-- The transaction of an upsert is the upsert. -/
theorem upsert_of_transaction {store store' : Store} {finder : SchemaFinder}
    {restViewDefn : ViewDefinition}
    (h : transaction teiid store (.upsertViewEditorState finder restViewDefn) = .ok store') :
    ∃ view, upsertViewEditorState teiid finder store restViewDefn = .ok (store', view) := by
  obtain ⟨⟨_, view⟩, hupsert, rfl⟩ := map_eq_ok.mp h
  exact ⟨view, hupsert⟩

end DvServer

end TeiidSyndesis.Server
