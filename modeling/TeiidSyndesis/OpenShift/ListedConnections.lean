/-
# TeiidSyndesis.OpenShift.ListedConnections — connections a synchronization must not drop.

A connection that cannot be decrypted is left out of what `getSyndesisSources` returns, and
`synchronizeConnections` takes what is not returned for deleted.  With `update` it also deletes the data
source of a connection that is returned, and a failure to create it again is only logged.  Data sources
are deleted by name, so a connection can also lose its own to another one that bears the name.

Main results:
* `survives_has`, `renamed_has` — the two ways for a connection to have a data source afterwards;
* `keeps_of_safe` — in safe stores every connection that is listed keeps one;
* `rows_of_keeps`, `renamed_of_keeps` — what a synchronization that keeps them all says of the stores;
* `keepsListed_iff` — so the exact condition, but for names that are drawn again;
* `undecryptable_dropped` — a connection that is listed, and dropped.
-/
import TeiidSyndesis.OpenShift.AddedConnections

namespace TeiidSyndesis.OpenShift

open TeiidSyndesis.Library TeiidSyndesis.Model

namespace Synchronizer

variable {teiid : Teiid} {env : Env}

/-! ## What is to be kept -/

/-- The document has a connection of a supported type with the id. -/
def Occurs (connections : List RemoteConnection) (id : String) : Prop :=
  ∃ item ∈ connections, item.translatorName.isSome ∧ item.id = some id

/-- The rows of the connection are still there, and it still has a data source. -/
def Keeps (s t : Synchronizer) (id : String) : Prop :=
  (∀ row ∈ s.schemas, row.sourceId = id → row ∈ t.schemas) ∧
    (registered s id = true → registered t id = true)

/-- In whatever order its sets are iterated, the synchronization keeps each connection of its list. -/
def KeepsListed (teiid : Teiid) (env : Env) (s : Synchronizer) (update : Bool)
    (connections : List RemoteConnection) : Prop :=
  ∀ t, synchronizeConnections teiid env s update connections t →
    ∀ id, Occurs connections id → Keeps s t id

/-- The connection of the document can get a data source of the name. -/
def Registrable (env : Env) (item : RemoteConnection) (id name : String) : Prop :=
  name ≠ "" ∧ item.translatorName ≠ some "" ∧ env.createsDatasource id = true

/-- What bears the name is deleted: a connection that is not returned is cached with it, or it is the
name of another connection that is updated. -/
inductive Taken (s : Synchronizer) (update : Bool) (connections : List RemoteConnection)
    (id name : String) : Prop
  | deleted {other : String} {sds : DefaultSyndesisDataSource} :
      registered s other = true → other ∉ listed connections → s.cached other = some sds →
        sds.teiidName = some name → Taken s update connections id name
  | updated {other : String} : update = true → other ∈ listed connections → other ≠ id →
      owned s other = false → rowName s other = some name → Taken s update connections id name

/-- The data source is not deleted with another connection, and created again by its own update. -/
structure Survives (env : Env) (s : Synchronizer) (update : Bool) (connections : List RemoteConnection)
    (entry : String × TeiidDataSource) : Prop where
  free : ¬Taken s update connections entry.2.syndesisId entry.1
  again : update = true → owned s entry.2.syndesisId = false →
    rowName s entry.2.syndesisId = some entry.1 → ∀ item ∈ connections,
      sourceId item = some entry.2.syndesisId → Registrable env item entry.2.syndesisId entry.1

/-- The connection gets another data source, under the name of its row. -/
structure Renamed (env : Env) (s : Synchronizer) (update : Bool) (connections : List RemoteConnection)
    (entry : String × TeiidDataSource) (name : String) : Prop where
  unowned : owned s entry.2.syndesisId = false
  row : rowName s entry.2.syndesisId = some name
  /-- the data source has another name than the row -/
  other : name ≠ entry.1
  free : ¬Taken s update connections entry.2.syndesisId name
  /-- an item of the list is registered under it -/
  created : ∃ item ∈ connections, sourceId item = some entry.2.syndesisId ∧
    Registrable env item entry.2.syndesisId name
  /-- every item, where each of them replaces the data source of the one before -/
  every : update = true → ∀ item ∈ connections, sourceId item = some entry.2.syndesisId →
    Registrable env item entry.2.syndesisId name
  /-- where nothing is replaced, the name has to be free -/
  new : update = false → ∀ old ∈ s.datasources, old.1 ≠ name

/-- A registered connection that cannot be built and is cached has no row, and each connection of the
document keeps its data source or gets another one. -/
structure Safe (env : Env) (s : Synchronizer) (update : Bool) (connections : List RemoteConnection) :
    Prop where
  rows : ∀ id, Occurs connections id → id ∉ listed connections → registered s id = true →
    ∀ sds, s.cached id = some sds → ∀ row ∈ s.schemas, row.sourceId ≠ id
  stays : ∀ entry ∈ s.datasources, Occurs connections entry.2.syndesisId →
    Survives env s update connections entry ∨ ∃ name, Renamed env s update connections entry name

/-- A connection without a row has a data source of a name that is taken, and is given a new name. -/
def Redrawn (s : Synchronizer) (update : Bool) (connections : List RemoteConnection) : Prop :=
  ∃ entry ∈ s.datasources, entry.2.syndesisId ∈ listed connections ∧
    owned s entry.2.syndesisId = false ∧ rowName s entry.2.syndesisId = none ∧
    Taken s update connections entry.2.syndesisId entry.1

/-- What was built from the list is listed. -/
theorem BuiltOf.mem_listed {s : Synchronizer} {item : RemoteConnection} {sds : DefaultSyndesisDataSource}
    (h : BuiltOf s item sds) {connections : List RemoteConnection} (hitem : item ∈ connections) :
    sds.syndesisConnectionId ∈ listed connections :=
  List.mem_filterMap.mpr ⟨item, hitem, h.sourceId⟩

/-- Where the stores are linked each connection has its row. -/
theorem not_redrawn_of_linked {s : Synchronizer} (hs : Linked teiid s) (update : Bool)
    (connections : List RemoteConnection) : ¬Redrawn s update connections := by
  rintro ⟨entry, hentry, _, _, hnone, _⟩
  obtain ⟨row, hrow, hsource, _⟩ := hs.registered entry hentry
  have hfound := List.find?_eq_none.mp (Option.map_eq_none_iff.mp hnone) row hrow
  exact hfound (decide_eq_true hsource)

/-- Whether an object can be registered, read off the connection it was built from. -/
theorem BuiltOf.registrable_iff {s : Synchronizer} {item : RemoteConnection}
    {sds : DefaultSyndesisDataSource} (h : BuiltOf s item sds) {name : String} :
    creatable env sds name ↔ Registrable env item sds.syndesisConnectionId name := by
  unfold creatable Registrable
  rw [h.translatorName, ne_eq (some _), Option.some.injEq]

/-! ## Safe stores keep the connections -/

/-- A data source that survives the updates is there afterwards. -/
theorem survives_has {s : Synchronizer} {update : Bool} {connections : List RemoteConnection}
    {dataSources : List DefaultSyndesisDataSource} {entry : String × TeiidDataSource}
    (hsurvives : Survives env s update connections entry)
    (hperm : dataSources.Perm (getSyndesisSources s connections).2) (hentry : entry ∈ s.datasources) :
    Has (dataSources.foldl (fun s sds => addConnection teiid env s sds update)
      (getSyndesisSources s connections).1) entry.1 entry.2.syndesisId := by
  obtain ⟨honly, hlists⟩ := getSyndesisSources_effect s connections
  refine addConnections_has ⟨entry, honly.datasources ▸ hentry, rfl, rfl⟩ ?_
  intro hup sds hsds howned hname
  obtain ⟨item, hitem, hof⟩ := hlists.builtOf sds (hperm.mem_iff.mp hsds)
  have howned : owned s sds.syndesisConnectionId = false := by
    unfold owned at howned ⊢
    rw [← honly.virtualizations]
    exact howned
  have hrow : rowName s sds.syndesisConnectionId = some entry.1 := hof.teiidName.symm.trans hname
  by_cases hid : sds.syndesisConnectionId = entry.2.syndesisId
  · refine ⟨hid, hof.registrable_iff.mpr ?_⟩
    rw [hid] at howned hrow ⊢
    exact hsurvives.again hup howned hrow item hitem (hid ▸ hof.sourceId)
  · exact absurd (.updated hup (hof.mem_listed hitem) hid howned hrow) hsurvives.free

/-- A data source that is created again under another name is there afterwards. -/
theorem renamed_has {s : Synchronizer} (hs : Consistent teiid s) {update : Bool}
    {connections : List RemoteConnection} {dataSources : List DefaultSyndesisDataSource}
    {entry : String × TeiidDataSource} {name : String}
    (hrenamed : Renamed env s update connections entry name)
    (hperm : dataSources.Perm (getSyndesisSources s connections).2) :
    Has (dataSources.foldl (fun s sds => addConnection teiid env s sds update)
      (getSyndesisSources s connections).1) name entry.2.syndesisId := by
  obtain ⟨honly, hlists⟩ := getSyndesisSources_effect s connections
  obtain ⟨item, hitem, hsource, hcreatable⟩ := hrenamed.created
  obtain ⟨sds, hsds, hof⟩ := hlists.built item hitem _ hsource
  have hid : sds.syndesisConnectionId = entry.2.syndesisId :=
    Option.some.inj (hof.sourceId.symm.trans hsource)
  have hteiid : sds.teiidName = some name := by
    rw [hof.teiidName, hid]
    exact hrenamed.row
  have hnow : creatable env sds name := hof.registrable_iff.mpr (hid ▸ hcreatable)
  obtain ⟨front, back, rfl⟩ := List.append_of_mem (hperm.mem_iff.mpr hsds)
  have hfront : Prepared teiid env update s _ connections :=
    @prepared teiid env s update connections front
      fun other hother => hperm.mem_iff.mp (List.mem_append_left _ hother)
  rw [List.foldl_append, List.foldl_cons]
  generalize front.foldl (fun s sds => addConnection teiid env s sds update)
    (getSyndesisSources s connections).1 = t at hfront
  have howned : owned t sds.syndesisConnectionId = false := by
    rw [hfront.owned, hid]
    exact hrenamed.unowned
  refine addConnections_has ?_ ?_
  · rw [← hid]
    refine addConnection_creates howned hteiid hnow fun hup old hold heq => ?_
    -- where the name is there already, it is that of this connection
    rcases hfront.added old hold with hbefore | ⟨_, _, other, hother, _, hnew⟩
    · exact absurd heq (hrenamed.new hup old hbefore)
    · have hnamed : Named t other := fun _ h => (hother.hasRow h).mono hfront.rows
      have hrow := hnew.hasRow hnamed
      rw [heq] at hrow
      exact id_of_hasRow (hfront.consistent hs).rows hrow ((hof.hasRow hteiid).mono hfront.rows)
  · intro hup other hother howned hname
    obtain ⟨item', hitem', hof'⟩ := hlists.builtOf other
      (hperm.mem_iff.mp (List.mem_append_right _ (List.mem_cons_of_mem _ hother)))
    have howned : owned s other.syndesisConnectionId = false := by
      rw [← hfront.owned, ← (addConnection_processed teiid env t sds update).owned]
      exact howned
    have hrow : rowName s other.syndesisConnectionId = some name := hof'.teiidName.symm.trans hname
    have hsame : other.syndesisConnectionId = entry.2.syndesisId := id_of_rowName hs hrow hrenamed.row
    refine ⟨hsame, hof'.registrable_iff.mpr ?_⟩
    rw [hsame]
    exact hrenamed.every hup item' hitem' (hsame ▸ hof'.sourceId)

/-- No deletion finds a name that is not taken. -/
theorem registered_of_has {s t : Synchronizer} (hs : Consistent teiid s) {update : Bool}
    {connections : List RemoteConnection} {name id : String} {removed : List String}
    (hprepared : Prepared teiid env update s t connections) (hhas : Has t name id)
    (hfree : ¬Taken s update connections id name)
    (hremoved : removed.Perm (removedIds (getSyndesisSources s connections).1
      (getSyndesisSources s connections).2)) :
    registered (removed.foldl handleDeleteConnection t) id = true := by
  obtain ⟨entry, hentry, rfl, rfl⟩ := hhas
  have hgone := handleDeleteConnections_removed (hprepared.consistent hs).byId removed
  refine registered_iff.mpr ⟨entry, (hgone.datasources entry).mpr ⟨hentry, ?_⟩, rfl⟩
  intro other hother sds hsds hteiid
  obtain ⟨hregistered, hunlisted⟩ := mem_removedIds.mp (hremoved.mem_iff.mp hother)
  rw [hprepared.cached other hunlisted] at hsds
  exact hfree (.deleted hregistered hunlisted hsds hteiid)

/-- Safe stores keep what is listed. -/
theorem keeps_of_safe {s t : Synchronizer} (hs : Consistent teiid s) {update : Bool}
    {connections : List RemoteConnection} (hnodup : (s.datasources.map (·.2.syndesisId)).Nodup)
    (hsafe : Safe env s update connections)
    (h : synchronizeConnections teiid env s update connections t) {id : String}
    (hid : Occurs connections id) : Keeps s t id := by
  obtain ⟨dataSources, removed, hperm, hremoved, rfl⟩ := (synchronizeConnections_iff hnodup).mp h
  have hprepared : Prepared teiid env update s _ connections :=
    @prepared teiid env s update connections dataSources fun _ hsds => hperm.mem_iff.mp hsds
  have hgone := handleDeleteConnections_removed (hprepared.consistent hs).byId removed
  refine ⟨?_, ?_⟩
  · intro row hrow heq
    refine (hgone.schemas row).mpr ⟨hprepared.rows row hrow, fun hin => ?_⟩
    obtain ⟨hregistered, hunlisted⟩ := mem_removedIds.mp (hremoved.mem_iff.mp hin)
    rw [hprepared.cached _ hunlisted, Option.eq_none_iff_forall_ne_some]
    intro sds hsds
    rw [heq] at hregistered hunlisted hsds
    exact hsafe.rows id hid hunlisted hregistered sds hsds row hrow heq
  · intro hregistered
    obtain ⟨entry, hentry, rfl⟩ := registered_iff.mp hregistered
    rcases hsafe.stays entry hentry hid with hsurvives | ⟨name, hrenamed⟩
    · exact registered_of_has hs hprepared (survives_has hsurvives hperm hentry) hsurvives.free hremoved
    · exact registered_of_has hs hprepared (renamed_has hs hrenamed hperm) hrenamed.free hremoved

/-! ## Only safe stores do -/

/-- Once a connection has been updated, its name is that of no other one. -/
theorem id_of_updated {s : Synchronizer} (hs : Consistent teiid s) {connections : List RemoteConnection}
    {dataSources : List DefaultSyndesisDataSource}
    (hperm : dataSources.Perm (getSyndesisSources s connections).2) {other : String}
    (hlisted : other ∈ listed connections) (howned : owned s other = false)
    {entry : String × TeiidDataSource} (hrow : rowName s other = some entry.1)
    (hentry : entry ∈ (dataSources.foldl (fun s sds => addConnection teiid env s sds true)
      (getSyndesisSources s connections).1).datasources) : entry.2.syndesisId = other := by
  obtain ⟨_, hlists⟩ := getSyndesisSources_effect s connections
  obtain ⟨item, hitem, hsource⟩ := List.mem_filterMap.mp hlisted
  obtain ⟨sds, hsds, hof⟩ := hlists.built item hitem other hsource
  obtain rfl : sds.syndesisConnectionId = other := Option.some.inj (hof.sourceId.symm.trans hsource)
  have hteiid : sds.teiidName = some entry.1 := hof.teiidName.trans hrow
  -- the list split at the object of this connection: what is before it, itself, what comes later
  obtain ⟨front, back, rfl⟩ := List.append_of_mem (hperm.mem_iff.mpr hsds)
  have hfront : Prepared teiid env true s _ connections :=
    @prepared teiid env s true connections front
      fun p hp => hperm.mem_iff.mp (List.mem_append_left _ hp)
  have hall : Prepared teiid env true s _ connections :=
    @prepared teiid env s true connections (front ++ sds :: back) fun p hp => hperm.mem_iff.mp hp
  rw [List.foldl_append, List.foldl_cons] at hentry hall
  generalize front.foldl (fun s sds => addConnection teiid env s sds true)
    (getSyndesisSources s connections).1 = t at hfront hall hentry
  rcases (addConnections_processed teiid env true (addConnection teiid env t sds true) back).added
    entry hentry with hold | ⟨p, hp, _, hnew⟩
  · rw [addConnection_of_not_owned ((hfront.owned _).trans howned), if_pos rfl] at hold
    rcases (createDataSource_adds teiid env (t.deleteDataSource sds) sds).added entry hold with
      hkept | hnew
    · exact absurd hteiid (mem_deleteDataSource.mp hkept).2
    · exact hnew.id
  · -- a later one bears the name of its own row
    obtain ⟨_, _, hofp⟩ := hlists.builtOf p
      (hperm.mem_iff.mp (List.mem_append_right _ (List.mem_cons_of_mem _ hp)))
    have hnamed : Named _ p := fun _ h => (hofp.hasRow h).mono hall.rows
    exact id_of_hasRow (hall.consistent hs).rows (hnew.hasRow hnamed)
      ((hasRow_of_rowName hrow).mono hall.rows)

section

variable {s : Synchronizer} {update : Bool} {connections : List RemoteConnection}
  {entry : String × TeiidDataSource} (hs : Consistent teiid s)
  (hnodup : (s.datasources.map (·.2.syndesisId)).Nodup)
  (hkeeps : KeepsListed teiid env s update connections)

include hs hnodup hkeeps

/-- A connection that is not built and still kept has no row, or is not cached. -/
theorem rows_of_keeps {id : String} (hid : Occurs connections id) (hunlisted : id ∉ listed connections)
    (hregistered : registered s id = true) {sds : DefaultSyndesisDataSource}
    (hsds : s.cached id = some sds) : ∀ row ∈ s.schemas, row.sourceId ≠ id := by
  have hprepared : Prepared teiid env update s _ connections :=
    @prepared teiid env s update connections _ fun _ h => h
  have hgone := handleDeleteConnections_removed (hprepared.consistent hs).byId
    (removedIds (getSyndesisSources s connections).1 (getSyndesisSources s connections).2)
  obtain ⟨hrows, _⟩ := hkeeps _ ((synchronizeConnections_iff hnodup).mpr
    ⟨_, _, List.Perm.refl _, List.Perm.refl _, rfl⟩) id hid
  intro row hrow heq
  have hin := mem_removedIds.mpr ⟨hregistered, hunlisted⟩
  have hnone := ((hgone.schemas row).mp (hrows row hrow heq)).2 (heq ▸ hin)
  rw [heq, hprepared.cached id hunlisted, hsds] at hnone
  cases hnone

/-- In whatever order the connections are added, one that is kept has a name that is not taken. -/
theorem left_of_keeps (hentry : entry ∈ s.datasources) (hid : Occurs connections entry.2.syndesisId)
    {dataSources : List DefaultSyndesisDataSource}
    (hperm : dataSources.Perm (getSyndesisSources s connections).2) :
    ∃ left ∈ (dataSources.foldl (fun s sds => addConnection teiid env s sds update)
      (getSyndesisSources s connections).1).datasources,
      left.2.syndesisId = entry.2.syndesisId ∧
        ¬Taken s update connections entry.2.syndesisId left.1 := by
  have hprepared : Prepared teiid env update s _ connections :=
    @prepared teiid env s update connections dataSources fun _ hsds => hperm.mem_iff.mp hsds
  have hgone := handleDeleteConnections_removed (hprepared.consistent hs).byId
    (removedIds (getSyndesisSources s connections).1 (getSyndesisSources s connections).2)
  obtain ⟨_, hstays⟩ := hkeeps _ ((synchronizeConnections_iff hnodup).mpr
    ⟨_, _, hperm, List.Perm.refl _, rfl⟩) _ hid
  obtain ⟨left, hleft, hleftId⟩ :=
    registered_iff.mp (hstays (registered_iff.mpr ⟨entry, hentry, rfl⟩))
  obtain ⟨hadded, hnames⟩ := (hgone.datasources left).mp hleft
  refine ⟨left, hadded, hleftId, ?_⟩
  rintro (⟨hregistered, hunlisted, hsds, hteiid⟩ | ⟨hup, hlisted, hne, howned, hrow⟩)
  · refine hnames _ (mem_removedIds.mpr ⟨hregistered, hunlisted⟩) _ ?_ hteiid
    exact (hprepared.cached _ hunlisted).trans hsds
  · subst hup
    exact hne ((id_of_updated hs hperm hlisted howned hrow hadded).symm.trans hleftId)

/-- A connection that is deleted and cannot be created again is lost where it comes last, unless it has
a data source of another name. -/
theorem named_otherwise (hup : update = true) (hentry : entry ∈ s.datasources)
    {item : RemoteConnection} (hitem : item ∈ connections)
    (hsource : sourceId item = some entry.2.syndesisId) (howned : owned s entry.2.syndesisId = false)
    {name : String} (hrow : rowName s entry.2.syndesisId = some name)
    (hnot : ¬Registrable env item entry.2.syndesisId name) :
    entry.1 ≠ name ∧ ¬Taken s update connections entry.2.syndesisId entry.1 := by
  obtain ⟨_, hlists⟩ := getSyndesisSources_effect s connections
  obtain ⟨sds, hsds, hof⟩ := hlists.built item hitem _ hsource
  have hid : sds.syndesisConnectionId = entry.2.syndesisId :=
    Option.some.inj (hof.sourceId.symm.trans hsource)
  have hteiid : sds.teiidName = some name := by
    rw [hof.teiidName, hid]
    exact hrow
  have hdropped : ¬creatable env sds name := fun h => hnot (hid ▸ hof.registrable_iff.mp h)
  obtain ⟨front, back, hsplit⟩ := List.append_of_mem hsds
  have hperm : ((front ++ back) ++ [sds]).Perm (getSyndesisSources s connections).2 := by
    rw [hsplit, List.append_assoc]
    exact (List.perm_append_comm).append_left front
  obtain ⟨left, hleft, hleftId, hfree⟩ := left_of_keeps hs hnodup hkeeps hentry
    ⟨item, hitem, sourceId_eq_some hsource⟩ hperm
  have hfront : Prepared teiid env update s _ connections :=
    @prepared teiid env s update connections (front ++ back)
      fun p hp => hperm.mem_iff.mp (List.mem_append_left _ hp)
  rw [List.foldl_append, List.foldl_cons, List.foldl_nil] at hleft
  generalize (front ++ back).foldl (fun s sds => addConnection teiid env s sds update)
    (getSyndesisSources s connections).1 = t at hfront hleft
  rw [← hid, ← hfront.owned] at howned
  rw [addConnection_of_not_owned howned, if_pos hup, update_drops hteiid hdropped,
    mem_deleteDataSource] at hleft
  -- what is left has not the name that has been deleted, so it is the old data source
  rcases hfront.name_of_row hs hleft.1 (by rw [hleftId]; exact hrow) with hold | hname
  · obtain rfl := entry_unique hnodup hold hentry hleftId
    refine ⟨?_, hfree⟩
    rintro rfl
    exact hleft.2 hteiid
  · rw [hname] at hleft
    exact absurd hteiid hleft.2

/-- Where the name is taken, a connection that has a row is kept under the name of the row. -/
theorem renamed_of_keeps (hentry : entry ∈ s.datasources)
    (hid : Occurs connections entry.2.syndesisId)
    (htaken : Taken s update connections entry.2.syndesisId entry.1)
    (hrows : entry.2.syndesisId ∈ listed connections → owned s entry.2.syndesisId = false →
      ∃ name, rowName s entry.2.syndesisId = some name) :
    ∃ name, Renamed env s update connections entry name := by
  obtain ⟨left, hleft, hleftId, hfree⟩ := left_of_keeps hs hnodup hkeeps hentry hid (List.Perm.refl _)
  have hprepared : Prepared teiid env update s _ connections :=
    @prepared teiid env s update connections _ fun _ h => h
  have hother : left.1 ≠ entry.1 := fun heq => hfree (heq ▸ htaken)
  rcases hprepared.added left hleft with hold | ⟨item, hitem, sds, hof, howned, hnew⟩
  · rw [entry_unique hnodup hold hentry hleftId] at hother
    exact absurd rfl hother
  · have hsdsId : sds.syndesisConnectionId = entry.2.syndesisId := hnew.id.symm.trans hleftId
    rw [hsdsId] at howned
    obtain ⟨name, hname⟩ := hrows (hsdsId ▸ hof.mem_listed hitem) howned
    have hteiid : sds.teiidName = some name := by
      rw [hof.teiidName, hsdsId]
      exact hname
    obtain rfl := hnew.named name hteiid
    refine ⟨left.1, howned, hname, hother, hfree, ⟨item, hitem, hsdsId ▸ hof.sourceId, ?_⟩, ?_,
      hnew.fresh⟩
    · exact hsdsId ▸ hof.registrable_iff.mp hnew.creatable
    · intro hup item' hitem' hsource
      by_contra hnot
      exact (named_otherwise hs hnodup hkeeps hup hentry hitem' hsource howned hname hnot).2 htaken

end

/-- A synchronization keeps each connection of its list if the stores are safe for it, and only then
unless it draws a new name for one of them; where two data sources have one Syndesis id it raises before
it changes them. -/
theorem keepsListed_iff {s : Synchronizer} {update : Bool} {connections : List RemoteConnection}
    (hs : Consistent teiid s) :
    (((s.datasources.map (·.2.syndesisId)).Nodup → Safe env s update connections) →
        KeepsListed teiid env s update connections) ∧
      (¬Redrawn s update connections → KeepsListed teiid env s update connections →
        (s.datasources.map (·.2.syndesisId)).Nodup → Safe env s update connections) := by
  refine ⟨?_, ?_⟩
  · intro hsafe t h id hid
    by_cases hnodup : (s.datasources.map (·.2.syndesisId)).Nodup
    · exact keeps_of_safe hs hnodup (hsafe hnodup) h hid
    -- two data sources of one connection: the pass raises where it collects them by their ids
    · obtain ⟨honly, _⟩ := getSyndesisSources_effect s connections
      unfold synchronizeConnections at h
      simp only [honly.datasources, if_neg hnodup] at h
      subst h
      refine ⟨fun row hrow _ => honly.schemas ▸ hrow, ?_⟩
      unfold registered
      rw [honly.datasources]
      exact fun h => h
  · intro hredrawn hkeeps hnodup
    refine ⟨?_, ?_⟩
    · intro id hid hunlisted hregistered sds hsds
      exact rows_of_keeps hs hnodup hkeeps hid hunlisted hregistered hsds
    · intro entry hentry hid
      by_cases htaken : Taken s update connections entry.2.syndesisId entry.1
      · refine .inr (renamed_of_keeps hs hnodup hkeeps hentry hid htaken ?_)
        intro hlisted howned
        refine Option.ne_none_iff_exists'.mp fun hnone => ?_
        exact hredrawn ⟨entry, hentry, hlisted, howned, hnone, htaken⟩
      · refine .inl ⟨htaken, ?_⟩
        intro hup howned hrow item hitem hsource
        by_contra hnot
        exact (named_otherwise hs hnodup hkeeps hup hentry hitem hsource howned hrow hnot).1 rfl

/-- The document that lists the connection `c1`, with properties that can be decrypted or not. -/
def listing (decrypts : Bool) : List RemoteConnection :=
  [{ id := some "c1", name := "my db", translatorName := some "postgresql", decrypts := decrypts }]

theorem keepsListed_iff_created :
    KeepsListed (.ascii fun _ => { schema := { name := "parsed" } })
      { createsDatasource := fun _ => true, nextInt := fun _ _ => 0 } (afterEvents [.created]) true
      (listing true) := by
  have hlinked : Linked (.ascii fun _ => { schema := { name := "parsed" } }) (afterEvents [.created]) :=
    (@step_deletes _ {} _ (eventFor .created) (linked_started ⟨rfl, rfl, List.Pairwise.nil⟩) rfl).2
      (by simp [findsDeleted, eventFor])
  have hentries : (afterEvents [.created]).datasources =
      [("mydb", ⟨"mydb", "postgresql", "c1", []⟩)] := by decide
  have hlisted : listed (listing true) = ["c1"] := by decide
  refine (keepsListed_iff ⟨hlinked.unique, hlinked.cachedById⟩).1 fun _ => ⟨?_, ?_⟩
  · rintro id ⟨item, hitem, _, hid⟩ hunlisted
    rw [List.mem_singleton.mp hitem] at hid
    cases hid
    exact absurd (by decide) hunlisted
  · intro entry hentry _
    rw [hentries, List.mem_singleton] at hentry
    subst hentry
    refine .inl ⟨?_, ?_⟩
    · -- `c1` is the only connection, and it is returned
      rintro (⟨hregistered, hunlisted, _, _⟩ | ⟨_, hother, hne, _, _⟩)
      · rw [registered_iff, hentries] at hregistered
        obtain ⟨_, hmem, rfl⟩ := hregistered
        rw [List.mem_singleton.mp hmem, hlisted] at hunlisted
        exact hunlisted (List.mem_singleton_self _)
      · rw [hlisted] at hother
        exact hne (List.mem_singleton.mp hother)
    · intro _ _ _ item hitem _
      rw [List.mem_singleton.mp hitem]
      exact ⟨by decide, by decide, rfl⟩

/-- The connection is still there, but it can no longer be decrypted. -/
theorem undecryptable_dropped : ¬∀ (teiid : Teiid) (env : Env) (s : Synchronizer) (update : Bool)
    (connections : List RemoteConnection), KeepsListed teiid env s update connections := by
  intro h
  have hkeeps := h (.ascii fun _ => { schema := { name := "parsed" } })
    { createsDatasource := fun _ => true, nextInt := fun _ _ => 0 } (afterEvents [.created]) false
    (listing false) { nextId := 1, nextObject := 1 }
    ⟨[], ["c1"], List.Perm.refl _, List.Perm.refl _, by decide⟩ "c1" ⟨_, List.mem_cons_self, rfl, rfl⟩
  have hregistered := hkeeps.2 (by decide)
  exact absurd hregistered (by decide)

end Synchronizer

end TeiidSyndesis.OpenShift
