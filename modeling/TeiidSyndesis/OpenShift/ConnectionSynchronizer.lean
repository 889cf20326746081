/-
# TeiidSyndesis.OpenShift.ConnectionSynchronizer — connections, their schemas and data sources.

`SyndesisConnectionSynchronizer` with the methods of `TeiidOpenShiftClient` it calls.  Three stores
know a connection: the data sources registered with the Teiid server, the rows of `SourceSchema`, and
the cache `syndesisSources`.  Events and synchronizations are handled one after another.  The source
VDBs that are deployed afterwards are not in the model: their deployment changes none of the three.
-/
import TeiidSyndesis.Library.Transition
import TeiidSyndesis.Model.Entities

namespace TeiidSyndesis.OpenShift

open TeiidSyndesis.Library TeiidSyndesis.Model

/-! ## State -/

/-- A connection as Syndesis describes it. -/
structure RemoteConnection where
  id : Option String
  name : String
  /-- translator of the definition that matches its type and properties, if one does -/
  translatorName : Option String
  /-- its properties can be decrypted -/
  decrypts : Bool := true
  /-- what they are then -/
  properties : List (String × String) := []
  deriving DecidableEq, Repr

/-- `DefaultSyndesisDataSource`; `object` is the identity of the Java object. -/
structure DefaultSyndesisDataSource where
  object : Nat
  syndesisConnectionId : String
  syndesisName : String
  teiidName : Option String
  translatorName : String
  properties : List (String × String) := []
  deriving DecidableEq, Repr

structure Synchronizer where
  /-- the data sources of the server by their names -/
  datasources : List (String × TeiidDataSource) := []
  schemas : List SourceSchema := []
  /-- the cache by connection ids -/
  syndesisSources : List (String × DefaultSyndesisDataSource) := []
  /-- name and source id of each virtualization; they share a table with the schemas -/
  virtualizations : List (String × Option String) := []
  nextId : Nat := 0
  nextObject : Nat := 0
  deriving DecidableEq, Repr

/-- What a step meets that no store determines. -/
structure Env where
  /-- a data source can be created for the connection -/
  createsDatasource : String → Bool
  /-- the random number drawn for a connection in an attempt to name it -/
  nextInt : String → Nat → BitVec 32

namespace Synchronizer

def cached (s : Synchronizer) (id : String) : Option DefaultSyndesisDataSource :=
  (s.syndesisSources.find? (·.1 = id)).map (·.2)

def findSchemaBySourceId (s : Synchronizer) (id : String) : Option SourceSchema :=
  s.schemas.find? (·.sourceId = id)

/-- `syndesisSources.putIfAbsent` -/
def putIfAbsent (s : Synchronizer) (id : String) (dsd : DefaultSyndesisDataSource) : Synchronizer :=
  match s.cached id with
  | some _ => s
  | none => { s with syndesisSources := s.syndesisSources ++ [(id, dsd)] }

/-! ## Data sources from remote connections -/

/-- A new object for a connection, named after its schema. -/
def newDataSource (s : Synchronizer) (id syndesisName translatorName : String)
    (properties : List (String × String)) : DefaultSyndesisDataSource :=
  { object := s.nextObject
    syndesisConnectionId := id
    syndesisName := syndesisName
    teiidName := (s.findSchemaBySourceId id).map (·.name)
    translatorName := translatorName
    properties := properties }

/-- `buildSyndesisDataSource`; a connection that is not supported has no data source. -/
def buildSyndesisDataSource (s : Synchronizer) (item : RemoteConnection) :
    Except Failure (Synchronizer × Option DefaultSyndesisDataSource) :=
  match item.translatorName with
  | none => .ok (s, none)
  | some translatorName =>
      match item.id with
      | none => .error (.kException "Datasource has no connection ID")
      | some id =>
          if item.decrypts then
            let dsd := s.newDataSource id item.name translatorName item.properties
            .ok ({ s.putIfAbsent id dsd with nextObject := s.nextObject + 1 }, some dsd)
          else .error (.kException "cannot decrypt")

/-- `getSyndesisSources`: a connection that cannot be built is left out. -/
def getSyndesisSources (s : Synchronizer) :
    List RemoteConnection → Synchronizer × List DefaultSyndesisDataSource
  | [] => (s, [])
  | item :: items =>
      match buildSyndesisDataSource s item with
      | .ok (t, some dsd) =>
          let (u, result) := getSyndesisSources t items
          (u, dsd :: result)
      | _ => getSyndesisSources s items

def getSyndesisDataSourceById (s : Synchronizer) (id : String) (remote : RemoteConnection) :
    Except Failure (Synchronizer × Option DefaultSyndesisDataSource) :=
  match s.cached id with
  | some source => .ok (s, some source)
  | none => buildSyndesisDataSource s remote

/-! ## Names -/

/-- The characters `getUniqueKomodoName` removes. -/
def problematic (c : Char) : Bool :=
  c ∈ ['.', '?', '_', ' ', '\t', '\n', Char.ofNat 11, Char.ofNat 12, '\r']

/-- Stands for one surrogate of a pair that has been taken apart. -/
def unpaired : Char := Char.ofNat 0xFFFD

/-- `substring` from the beginning on to so many UTF-16 units. -/
def takeUnits : Nat → List Char → List Char
  | _, [] => []
  | units, c :: cs =>
      if utf16Units c ≤ units then c :: takeUnits (units - utf16Units c) cs
      else if units = 0 then []
      else [unpaired]

def komodoName (syndesisName : String) : String :=
  String.ofList (takeUnits (255 - 6) (syndesisName.toList.filter fun c => !problematic c))

/-- Five characters, digits or lower case letters, each from five bits of the number. -/
def randomSuffix (val : BitVec 32) : String :=
  String.ofList ((List.range 5).map fun i =>
    let low := (val.sshiftRight (5 * i)).toNat % 32
    if low < 10 then Char.ofNat (low + 48) else Char.ofNat (low + 87))

/-- `isNameInUse`: rows of both kinds count. -/
def isNameInUse (teiid : Teiid) (s : Synchronizer) (name : String) : Bool :=
  s.schemas.any (fun row => teiid.toUpperCase row.name == teiid.toUpperCase name) ||
    s.virtualizations.any (fun row => teiid.toUpperCase row.1 == teiid.toUpperCase name)

def isSourceIdInUse (s : Synchronizer) (sourceId : String) : Bool :=
  s.schemas.any (·.sourceId == sourceId) || s.virtualizations.any (·.2 == some sourceId)

/-- `createSchema`; names and source ids are unique in the table. -/
def createSchema (teiid : Teiid) (s : Synchronizer) (sourceId name : String) :
    Except Failure Synchronizer :=
  if isNameInUse teiid s name || isSourceIdInUse s sourceId then .error .dataIntegrityViolation
  else
    .ok
      { s with
        schemas := s.schemas ++ [{ id := s.nextId, name := name, sourceId := sourceId }]
        nextId := s.nextId + 1 }

/-- The name with a suffix, where it is taken without one. -/
def nameToUse (teiid : Teiid) (s : Synchronizer) (syndesisName : String) (val : BitVec 32) :
    String :=
  let name := komodoName syndesisName
  if teiid.reservedNames.any (teiid.equalsIgnoreCase name) || isNameInUse teiid s name then
    name ++ "_" ++ randomSuffix val
  else name

def getUniqueKomodoName (teiid : Teiid) (s : Synchronizer) (scd : DefaultSyndesisDataSource)
    (val : BitVec 32) : Except Failure (Synchronizer × String) :=
  match s.findSchemaBySourceId scd.syndesisConnectionId with
  | some ss => .ok (s, ss.name)
  | none =>
      let toUse := nameToUse teiid s scd.syndesisName val
      (createSchema teiid s scd.syndesisConnectionId toUse).map fun t => (t, toUse)

/-! ## Registration -/

/-- The object in the cache is the one that is named, or another one of the same connection. -/
def setTeiidName (s : Synchronizer) (scd : DefaultSyndesisDataSource) (name : String) :
    Synchronizer :=
  { s with
    syndesisSources := s.syndesisSources.map fun entry =>
      if entry.1 = scd.syndesisConnectionId ∧ entry.2.object = scd.object then
        (entry.1, { entry.2 with teiidName := some name })
      else entry }

/-- `registerDataSource`: a data source of the name that is there stays; neither the name nor the
translator of a new one may be empty. -/
def registerDataSource (env : Env) (s : Synchronizer) (teiidDS : DefaultSyndesisDataSource)
    (teiidName : String) : Synchronizer :=
  if s.datasources.any (·.1 == teiidName) then s
  else if teiidName ≠ "" ∧ teiidDS.translatorName ≠ "" ∧
      env.createsDatasource teiidDS.syndesisConnectionId then
    { s with
      datasources := s.datasources ++
        [(teiidName,
          { name := teiidName, translatorName := teiidDS.translatorName
            syndesisId := teiidDS.syndesisConnectionId
            properties := teiidDS.properties })] }
  else s

/-- The three attempts to name a connection; one that fails is rolled back. -/
def uniqueName (teiid : Teiid) (env : Env) (s : Synchronizer) (scd : DefaultSyndesisDataSource) :
    Option (Synchronizer × String) :=
  (List.range 3).findSome? fun i =>
    (getUniqueKomodoName teiid s scd (env.nextInt scd.syndesisConnectionId i)).toOption

/-- `createDataSource`; its caller only logs what it raises. -/
def createDataSource (teiid : Teiid) (env : Env) (s : Synchronizer)
    (scd : DefaultSyndesisDataSource) : Synchronizer :=
  match scd.teiidName with
  | some name => registerDataSource env s scd name
  | none =>
      match uniqueName teiid env s scd with
      | some (t, name) => registerDataSource env (t.setTeiidName scd name) scd name
      | none => s

def deleteDataSource (s : Synchronizer) (dsd : DefaultSyndesisDataSource) : Synchronizer :=
  { s with
    datasources :=
      match dsd.teiidName with
      | some teiidName => s.datasources.filter (·.1 ≠ teiidName)
      | none => s.datasources
    syndesisSources := s.syndesisSources.filter (·.1 ≠ dsd.syndesisConnectionId) }

/-- `deleteSchemaBySourceId` -/
def deleteSchema (s : Synchronizer) (dsd : DefaultSyndesisDataSource) : Synchronizer :=
  { s with schemas := s.schemas.filter (·.sourceId ≠ dsd.syndesisConnectionId) }

/-! ## SyndesisConnectionSynchronizer -/

/-- A connection that publishes a virtualization is not one of its sources. -/
def addConnection (teiid : Teiid) (env : Env) (s : Synchronizer) (sds : DefaultSyndesisDataSource)
    (update : Bool) : Synchronizer :=
  if s.virtualizations.any (·.2 == some sds.syndesisConnectionId) then s
  else if update then createDataSource teiid env (s.deleteDataSource sds) sds
  else createDataSource teiid env s sds

def deleteConnection (s : Synchronizer) (dsd : DefaultSyndesisDataSource) : Synchronizer :=
  (s.deleteSchema dsd).deleteDataSource dsd

/-- The connection is gone from Syndesis, so only the cache can tell its data source. -/
def handleDeleteConnection (s : Synchronizer) (id : String) : Synchronizer :=
  match s.cached id with
  | some sds => s.deleteConnection sds
  | none => s

def handleAddConnection (teiid : Teiid) (env : Env) (s : Synchronizer) (id : String)
    (remote : RemoteConnection) (update : Bool) : Synchronizer :=
  match getSyndesisDataSourceById s id remote with
  | .ok (t, some sds) => addConnection teiid env t sds update
  | _ => s

/-- The registered data sources that no connection of the list stands behind. -/
def removedIds (s : Synchronizer) (dataSources : List DefaultSyndesisDataSource) : List String :=
  (s.datasources.map (·.2.syndesisId)).filter fun id =>
    id ∉ dataSources.map (·.syndesisConnectionId)

/-- `synchronizeConnections` on the data sources and the ids to remove, in the orders their sets are
iterated in. -/
def synchronizeSources (teiid : Teiid) (env : Env) (s : Synchronizer) (update : Bool)
    (dataSources : List DefaultSyndesisDataSource) (removed : List String) : Synchronizer :=
  removed.foldl handleDeleteConnection
    (dataSources.foldl (fun s sds => addConnection teiid env s sds update) s)

/-! ## The system -/

inductive EventAction
  | created
  | updated
  | deleted
  deriving DecidableEq, Repr

inductive SyncLabel
  /-- an event, with what Syndesis answers when it is asked for the connection -/
  | handleConnectionEvent (action : EventAction) (id : String) (remote : RemoteConnection) (env : Env)
  /-- a synchronization with the connections Syndesis lists -/
  | synchronizeConnections (update : Bool) (connections : List RemoteConnection) (env : Env)
  /-- other parts of the server change the virtualizations -/
  | virtualizations (rows : List (String × Option String))

def handleConnectionEvent (teiid : Teiid) (env : Env) (s : Synchronizer) (action : EventAction)
    (id : String) (remote : RemoteConnection) : Synchronizer :=
  match action with
  | .created => handleAddConnection teiid env s id remote false
  | .deleted => handleDeleteConnection s id
  | .updated => handleAddConnection teiid env s id remote true

/-- Data sources with one Syndesis id make the map by ids raise; else both sets are iterated in some
order. -/
def synchronizeConnections (teiid : Teiid) (env : Env) (s : Synchronizer) (update : Bool)
    (connections : List RemoteConnection) (t : Synchronizer) : Prop :=
  let (built, sources) := getSyndesisSources s connections
  if (built.datasources.map (·.2.syndesisId)).Nodup then
    ∃ dataSources removed, dataSources.Perm sources ∧ removed.Perm (removedIds built sources) ∧
      t = synchronizeSources teiid env built update dataSources removed
  else t = built

def step (teiid : Teiid) (s : Synchronizer) (label : SyncLabel) (t : Synchronizer) : Prop :=
  match label with
  | .handleConnectionEvent action id remote env =>
      t = handleConnectionEvent teiid env s action id remote
  | .synchronizeConnections update connections env =>
      synchronizeConnections teiid env s update connections t
  | .virtualizations rows => t = { s with virtualizations := rows }

/-- Two rows of the table of schemas. -/
def DistinctRows (teiid : Teiid) (a b : SourceSchema) : Prop :=
  teiid.toUpperCase a.name ≠ teiid.toUpperCase b.name ∧ a.sourceId ≠ b.sourceId

/-- A server starts with the rows of its database and nothing else. -/
def started (teiid : Teiid) (s : Synchronizer) : Prop :=
  s.datasources = [] ∧ s.syndesisSources = [] ∧ s.schemas.Pairwise (DistinctRows teiid)

def synchronizerSystem (teiid : Teiid) : System Synchronizer SyncLabel where
  init := started teiid
  step := step teiid

end Synchronizer

end TeiidSyndesis.OpenShift
