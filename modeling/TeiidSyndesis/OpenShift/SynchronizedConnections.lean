/-
# TeiidSyndesis.OpenShift.SynchronizedConnections — what a synchronization with update leaves.

A synchronization with `update` deletes and creates the data source of every connection that Syndesis
lists, one after another, and then deletes what is not listed.  Where no call fails the result depends on
the list and on the rows alone, but for the data sources of connections that are neither listed nor
cached: these are not found any more, and stay.  So the same list, synchronized again, changes nothing.

Main results:
* `mem_addConnection` — an update leaves one data source of its connection, and the others as they were;
* `mem_addConnections` — the same of a list of connections, by induction over it;
* `synchronized_exactly` — after a synchronization in which no call fails, the data sources are exactly
  those of the listed connections, and those that are not found;
* `synchronized_twice` — so the same list, synchronized once more, changes nothing.
-/
import TeiidSyndesis.OpenShift.UpdatedConnections

namespace TeiidSyndesis.OpenShift

open TeiidSyndesis.Library TeiidSyndesis.Model

namespace Synchronizer

variable {teiid : Teiid} {env : Env}

/-! ## One connection -/

/-- The connection has one data source afterwards, and the others are as they were. -/
theorem mem_addConnection {s : Synchronizer} {sds : DefaultSyndesisDataSource} (hs : Linked teiid s)
    (hnamed : Named s sds) (hdrawn : Drawn s sds) (howned : owned s sds.syndesisConnectionId = false)
    (hadds : adds teiid env s sds true = true) :
    ∃ name, HasRow (addConnection teiid env s sds true) sds.syndesisConnectionId name ∧
      ∀ entry, entry ∈ (addConnection teiid env s sds true).datasources ↔
        (entry ∈ s.datasources ∧ entry.2.syndesisId ≠ sds.syndesisConnectionId) ∨
          entry = dataSourceOf sds name := by
  have hadded : Added teiid s (addConnection teiid env s sds true) sds.syndesisConnectionId :=
    addConnection_added hs hnamed true
  obtain ⟨name, hnew⟩ := addConnection_registers hs hdrawn howned hadds
  refine ⟨name, hadded.linked.registered _ hnew, fun entry => ?_⟩
  by_cases hid : entry.2.syndesisId = sds.syndesisConnectionId
  · have hiff : entry ∈ (addConnection teiid env s sds true).datasources ↔
        entry = dataSourceOf sds name := by
      constructor
      · exact fun hentry => entry_unique (syndesisIds_nodup hadded.linked) hentry hnew hid
      · rintro rfl
        exact hnew
    rw [hiff]
    simp [hid]
  · have hne : entry ≠ dataSourceOf sds name := fun heq => hid (congrArg (·.2.syndesisId) heq)
    rw [(hadded.same _ hid).datasources entry rfl]
    simp [hid, hne]

/-! ## All connections of a list -/

/-- What concerns another connection leaves its row. -/
theorem Same.hasRow {s t : Synchronizer} {id : String} (h : Same s t id) (name : String) :
    HasRow t id name ↔ HasRow s id name := by
  constructor
  · rintro ⟨row, hrow, hid, hname⟩
    exact ⟨row, (h.schemas row hid).mp hrow, hid, hname⟩
  · rintro ⟨row, hrow, hid, hname⟩
    exact ⟨row, (h.schemas row hid).mpr hrow, hid, hname⟩

/-- What is known of the rest of a list stays known when the first of it has been added. -/
theorem Added.drawn {s t : Synchronizer} {id : String} (h : Added teiid s t id)
    {sds : DefaultSyndesisDataSource} (hne : sds.syndesisConnectionId ≠ id) (hdrawn : Drawn s sds) :
    Drawn t sds := by
  intro hnone row hrow heq
  exact hdrawn hnone row (((h.same _ hne).schemas row heq).mp hrow) heq

/-- The connection that publishes a virtualization is not added. -/
theorem addConnection_of_owned {s : Synchronizer} {sds : DefaultSyndesisDataSource}
    (howned : owned s sds.syndesisConnectionId = true) (update : Bool) :
    addConnection teiid env s sds update = s := by
  unfold addConnection
  exact if_pos howned

/-- One connection that is added, whether it publishes a virtualization or not. -/
theorem mem_addConnection_iff {s : Synchronizer} {sds : DefaultSyndesisDataSource} (hs : Linked teiid s)
    (hunowned : Unowned s) (hnamed : Named s sds) (hdrawn : Drawn s sds)
    (hadds : adds teiid env s sds true = true) (entry : String × TeiidDataSource) :
    entry ∈ (addConnection teiid env s sds true).datasources ↔
      (entry ∈ s.datasources ∧ entry.2.syndesisId ≠ sds.syndesisConnectionId) ∨
        (owned s sds.syndesisConnectionId = false ∧ entry = dataSourceOf sds entry.1 ∧
          HasRow (addConnection teiid env s sds true) sds.syndesisConnectionId entry.1) := by
  cases howned : owned s sds.syndesisConnectionId with
  | true =>
      rw [addConnection_of_owned howned]
      constructor
      · refine fun hentry => .inl ⟨hentry, fun hid => ?_⟩
        have hnot := hunowned entry hentry
        rw [hid, howned] at hnot
        cases hnot
      · rintro (⟨hentry, _⟩ | ⟨hnot, _⟩)
        · exact hentry
        · cases hnot
  | false =>
      obtain ⟨name, hrow, hmem⟩ := mem_addConnection hs hnamed hdrawn howned hadds
      rw [hmem]
      refine or_congr_right ⟨?_, ?_⟩
      · rintro rfl
        exact ⟨rfl, rfl, hrow⟩
      · rintro ⟨_, heq, hrow'⟩
        have hlinked : Linked teiid (addConnection teiid env s sds true) :=
          (addConnection_added hs hnamed true).linked
        rw [heq, name_of_hasRow hlinked.unique hrow' hrow]

/-- A list of updates leaves one data source for each of its connections, by induction over the list. -/
theorem mem_addConnections {s : Synchronizer} {sources : List DefaultSyndesisDataSource}
    (hs : Linked teiid s) (hunowned : Unowned s)
    (hnodup : (sources.map (·.syndesisConnectionId)).Nodup) (hnamed : ∀ sds ∈ sources, Named s sds)
    (hdrawn : ∀ sds ∈ sources, Drawn s sds) (hadds : addsAll teiid env true s sources = true) :
    (∀ sds ∈ sources, owned s sds.syndesisConnectionId = false →
        ∃ name, HasRow (sources.foldl (fun s sds => addConnection teiid env s sds true) s)
          sds.syndesisConnectionId name) ∧
      ∀ entry : String × TeiidDataSource,
        entry ∈ (sources.foldl (fun s sds => addConnection teiid env s sds true) s).datasources ↔
          (entry ∈ s.datasources ∧ entry.2.syndesisId ∉ sources.map (·.syndesisConnectionId)) ∨
            ∃ sds ∈ sources, owned s sds.syndesisConnectionId = false ∧
              entry = dataSourceOf sds entry.1 ∧
              HasRow (sources.foldl (fun s sds => addConnection teiid env s sds true) s)
                sds.syndesisConnectionId entry.1 := by
  -- by induction over the list: the first update, and the rest on what it leaves
  induction sources generalizing s with
  | nil => simp
  | cons sds sources ih =>
      obtain ⟨hnew, hrest⟩ := List.nodup_cons.mp hnodup
      obtain ⟨haddsFirst, haddsRest⟩ := Bool.and_eq_true_iff.mp hadds
      have hnamedFirst := hnamed sds List.mem_cons_self
      have hdrawnFirst := hdrawn sds List.mem_cons_self
      have hfirst := mem_addConnection_iff hs hunowned hnamedFirst hdrawnFirst haddsFirst
      have hadded : Added teiid s (addConnection teiid env s sds true) sds.syndesisConnectionId :=
        addConnection_added hs hnamedFirst true
      have hprocessed := addConnection_processed teiid env s sds true
      have hne : ∀ other ∈ sources, other.syndesisConnectionId ≠ sds.syndesisConnectionId :=
        fun other hother heq => hnew (List.mem_map.mpr ⟨other, hother, heq⟩)
      have hnamedRest : ∀ other ∈ sources, Named (addConnection teiid env s sds true) other :=
        fun other hother name hname =>
          (hnamed other (List.mem_cons_of_mem _ hother) name hname).mono hadded.rows
      obtain ⟨hnames, hlast⟩ := ih hadded.linked (addConnection_unowned teiid env sds true hunowned) hrest hnamedRest
        (fun other hother => hadded.drawn (hne other hother) (hdrawn other (List.mem_cons_of_mem _ hother)))
        haddsRest
      obtain ⟨hlinked, hsame⟩ := addConnections_added true hadded.linked hnamedRest
      -- the rest leaves the row of the first connection alone
      have hrow := (hsame sds.syndesisConnectionId hnew).hasRow
      rw [List.foldl_cons]
      refine ⟨fun other hother howned => ?_, fun entry => ?_⟩
      · rcases List.mem_cons.mp hother with rfl | hother
        · obtain ⟨name, hnamedRow, _⟩ := mem_addConnection hs hnamedFirst hdrawnFirst howned haddsFirst
          exact ⟨name, (hrow name).mpr hnamedRow⟩
        · rw [← hprocessed.owned] at howned
          exact hnames other hother howned
      rw [hlast, hfirst]
      constructor
      · rintro (⟨⟨hold, hid⟩ | ⟨howned, heq, hnamedRow⟩, hids⟩ | ⟨other, hother, howned, heq, hotherRow⟩)
        · refine .inl ⟨hold, ?_⟩
          rw [List.map_cons, List.mem_cons, not_or]
          exact ⟨hid, hids⟩
        · exact .inr ⟨sds, List.mem_cons_self, howned, heq, (hrow entry.1).mpr hnamedRow⟩
        · rw [hprocessed.owned] at howned
          exact .inr ⟨other, List.mem_cons_of_mem _ hother, howned, heq, hotherRow⟩
      · rintro (⟨hold, hids⟩ | ⟨other, hother, howned, heq, hotherRow⟩)
        · rw [List.map_cons, List.mem_cons, not_or] at hids
          exact .inl ⟨.inl ⟨hold, hids.1⟩, hids.2⟩
        · rcases List.mem_cons.mp hother with rfl | hother
          · refine .inl ⟨.inr ⟨howned, heq, (hrow entry.1).mp hotherRow⟩, ?_⟩
            rw [heq]
            exact hnew
          · rw [← hprocessed.owned] at howned
            exact .inr ⟨other, hother, howned, heq, hotherRow⟩

/-- Rows are new only for connections that publish no virtualization. -/
theorem row_of_addConnections {s : Synchronizer} {sources : List DefaultSyndesisDataSource}
    (hs : Linked teiid s) (hnamed : ∀ sds ∈ sources, Named s sds) {row : SourceSchema}
    (hrow : row ∈ (sources.foldl (fun s sds => addConnection teiid env s sds true) s).schemas) :
    row ∈ s.schemas ∨ ∃ sds ∈ sources, owned s sds.syndesisConnectionId = false ∧
      row.sourceId = sds.syndesisConnectionId := by
  induction sources generalizing s with
  | nil => exact .inl hrow
  | cons sds sources ih =>
      have hadded : Added teiid s (addConnection teiid env s sds true) sds.syndesisConnectionId :=
        addConnection_added hs (hnamed sds List.mem_cons_self) true
      have hnamedRest : ∀ other ∈ sources, Named (addConnection teiid env s sds true) other :=
        fun other hother name hname =>
          (hnamed other (List.mem_cons_of_mem _ hother) name hname).mono hadded.rows
      rcases ih hadded.linked hnamedRest hrow with hold | ⟨other, hother, howned, hsource⟩
      · by_cases hsource : row.sourceId = sds.syndesisConnectionId
        · cases howned : owned s sds.syndesisConnectionId with
          | true =>
              rw [addConnection_of_owned howned] at hold
              exact .inl hold
          | false => exact .inr ⟨sds, List.mem_cons_self, howned, hsource⟩
        · exact .inl (((hadded.same _ hsource).schemas row rfl).mp hold)
      · rw [(addConnection_processed teiid env s sds true).owned] at howned
        exact .inr ⟨other, List.mem_cons_of_mem _ hother, howned, hsource⟩

/-! ## The synchronization -/

/-- A data source is deleted with its own connection only. -/
theorem Removed.mem_iff {s t : Synchronizer} {ids : List String} (h : Removed s t ids)
    (hs : Linked teiid s) {entry : String × TeiidDataSource} (hentry : entry ∈ s.datasources) :
    entry ∈ t.datasources ↔
      (entry.2.syndesisId ∈ ids → ∀ sds, s.cached entry.2.syndesisId = some sds →
        sds.teiidName ≠ some entry.1) := by
  rw [h.datasources]
  constructor
  · rintro ⟨_, hall⟩ hid
    exact hall _ hid
  · refine fun hown => ⟨hentry, fun id hid sds hsds hname => ?_⟩
    have hrow := (hs.cached id sds hsds).2 entry.1 hname
    obtain rfl := id_of_hasRow hs.unique hrow (hs.registered entry hentry)
    exact hown hid sds hsds hname

/-- The data source is that of the connection of the document, which publishes no virtualization, under
the name of its row. -/
structure Provides (s t : Synchronizer) (item : RemoteConnection) (entry : String × TeiidDataSource) :
    Prop where
  id : item.id = some entry.2.syndesisId
  translatorName : item.translatorName = some entry.2.translatorName
  properties : entry.2.properties = item.properties
  name : entry.2.name = entry.1
  unowned : owned s entry.2.syndesisId = false
  row : HasRow t entry.2.syndesisId entry.1

/-- What a synchronization with update makes of the stores. -/
structure Synchronized (s t : Synchronizer) (connections : List RemoteConnection) : Prop where
  /-- those of the list, and those no object is cached for, which cannot be deleted -/
  datasources : ∀ entry, entry ∈ t.datasources ↔
    (∃ item ∈ connections, Provides s t item entry) ∨
      (entry ∈ s.datasources ∧ entry.2.syndesisId ∉ listed connections ∧
        s.cached entry.2.syndesisId = none)
  /-- each listed connection has its row -/
  provided : ∀ id ∈ listed connections, owned s id = false → ∃ name, HasRow t id name
  owners : ∀ id, owned t id = owned s id
  /-- a row goes only with a registered connection that is no longer listed -/
  kept : ∀ row ∈ s.schemas,
    (row.sourceId ∉ listed connections → registered s row.sourceId = true →
      s.cached row.sourceId = none) → row ∈ t.schemas
  /-- a new row is that of a listed connection -/
  added : ∀ row ∈ t.schemas,
    row ∈ s.schemas ∨ (row.sourceId ∈ listed connections ∧ owned s row.sourceId = false)
  cached : ∀ id, id ∉ listed connections → s.cached id = none → t.cached id = none

/-- Deleting connections leaves the virtualizations. -/
theorem handleDeleteConnections_virtualizations (s : Synchronizer) (ids : List String) :
    (ids.foldl handleDeleteConnection s).virtualizations = s.virtualizations := by
  induction ids generalizing s with
  | nil => rfl
  | cons id ids ih =>
      rw [List.foldl_cons, ih]
      unfold handleDeleteConnection
      split <;> rfl

/-- What is cached of a connection with a data source bears its name. -/
theorem Steady.name_of_cached {s : Synchronizer} (hs : Steady teiid s) {entry : String × TeiidDataSource}
    (hentry : entry ∈ s.datasources) {sds : DefaultSyndesisDataSource}
    (hsds : s.cached entry.2.syndesisId = some sds) : sds.teiidName = some entry.1 := by
  cases hname : sds.teiidName with
  | none =>
      obtain ⟨p, hp, _⟩ := hs.named _ sds hsds (hs.unowned entry hentry) hname
      exact absurd hp List.not_mem_nil
  | some name =>
      have hrow := (hs.linked.cached _ sds hsds).2 name hname
      rw [name_of_hasRow hs.linked.unique hrow (hs.linked.registered entry hentry)]

/-- A data source with the fields of the object is the one made of it. -/
theorem eq_dataSourceOf {sds : DefaultSyndesisDataSource} {entry : String × TeiidDataSource}
    (hname : entry.2.name = entry.1) (htranslator : entry.2.translatorName = sds.translatorName)
    (hid : entry.2.syndesisId = sds.syndesisConnectionId) (hproperties : entry.2.properties = sds.properties) :
    entry = dataSourceOf sds entry.1 := by
  obtain ⟨key, name, translatorName, syndesisId, properties⟩ := entry
  simp only [dataSourceOf, Prod.mk.injEq, TeiidDataSource.mk.injEq, true_and]
  exact ⟨hname, htranslator, hid, hproperties⟩

/-- A data source that has been created is that of the item it was built of. -/
theorem BuiltOf.provides_iff {s t : Synchronizer} {item : RemoteConnection}
    {sds : DefaultSyndesisDataSource} (h : BuiltOf s item sds) {entry : String × TeiidDataSource} :
    (owned s sds.syndesisConnectionId = false ∧ entry = dataSourceOf sds entry.1 ∧
        HasRow t sds.syndesisConnectionId entry.1) ↔ Provides s t item entry := by
  have hid := (sourceId_eq_some h.sourceId).2
  constructor
  · rintro ⟨howned, heq, hrow⟩
    have hsource : entry.2.syndesisId = sds.syndesisConnectionId := by rw [heq]; rfl
    refine ⟨by rw [hsource]; exact hid, ?_, ?_, ?_, by rw [hsource]; exact howned, by
      rw [hsource]; exact hrow⟩
    · rw [heq]
      exact h.translatorName
    · rw [heq]
      exact h.properties
    · rw [heq]
      rfl
  · intro hprovides
    have hsource : sds.syndesisConnectionId = entry.2.syndesisId :=
      Option.some.inj (hid.symm.trans hprovides.id)
    refine ⟨hsource ▸ hprovides.unowned, ?_, hsource ▸ hprovides.row⟩
    exact eq_dataSourceOf hprovides.name
      (Option.some.inj (hprovides.translatorName.symm.trans h.translatorName)) hsource.symm
      (hprovides.properties.trans h.properties.symm)

/-- A supported connection that is built has its id for a source id. -/
theorem sourceId_of_builds {item : RemoteConnection} (hbuilds : builds item = true)
    (hsupported : item.translatorName.isSome) : sourceId item = item.id := by
  unfold builds at hbuilds
  unfold sourceId
  cases htranslator : item.translatorName with
  | none => simp [htranslator] at hsupported
  | some translatorName =>
      cases hid : item.id with
      | none => simp [htranslator, hid] at hbuilds
      | some id =>
          simp only [htranslator, hid, Option.isNone_some, Option.isSome_some, Bool.false_or,
            Bool.true_and] at hbuilds
          simp [hbuilds]

/-- A data source that an item provides has the item's id. -/
theorem Provides.sourceId {s t : Synchronizer} {connections : List RemoteConnection}
    {item : RemoteConnection} {entry : String × TeiidDataSource} (h : Provides s t item entry)
    (hbuilds : connections.all builds = true) (hitem : item ∈ connections) :
    sourceId item = some entry.2.syndesisId := by
  rw [sourceId_of_builds (List.all_eq_true.mp hbuilds item hitem)
    (Option.isSome_of_eq_some h.translatorName)]
  exact h.id

/-- A data source that an item of the list provides is that of a listed connection. -/
theorem Provides.mem_listed {s t : Synchronizer} {connections : List RemoteConnection}
    {item : RemoteConnection} {entry : String × TeiidDataSource} (h : Provides s t item entry)
    (hbuilds : connections.all builds = true) (hitem : item ∈ connections) :
    entry.2.syndesisId ∈ listed connections :=
  List.mem_filterMap.mpr ⟨item, hitem, h.sourceId hbuilds hitem⟩

/-- What is built without a name has no row that could give it one. -/
theorem BuiltOf.drawn {s : Synchronizer} {item : RemoteConnection} {sds : DefaultSyndesisDataSource}
    (h : BuiltOf s item sds) : Drawn s sds := by
  intro hnone row hrow
  rw [h.teiidName, Option.map_eq_none_iff] at hnone
  simpa using List.find?_eq_none.mp hnone row hrow

/-- The stores when all of the list have been added, and nothing has been deleted yet. -/
structure ListAdded (teiid : Teiid) (s a : Synchronizer) (connections : List RemoteConnection) : Prop where
  linked : Linked teiid a
  datasources : ∀ entry, entry ∈ a.datasources ↔
    (entry ∈ s.datasources ∧ entry.2.syndesisId ∉ listed connections) ∨
      ∃ item ∈ connections, Provides s a item entry
  provided : ∀ id ∈ listed connections, owned s id = false → ∃ name, HasRow a id name
  owners : ∀ id, owned a id = owned s id
  kept : ∀ row ∈ s.schemas, row ∈ a.schemas
  added : ∀ row ∈ a.schemas,
    row ∈ s.schemas ∨ (row.sourceId ∈ listed connections ∧ owned s row.sourceId = false)
  cached : ∀ id, id ∉ listed connections → a.cached id = s.cached id

/-- Adding what was built from the list gives each listed connection its data source. -/
theorem addsAll_listAdded {s : Synchronizer} {connections : List RemoteConnection}
    {dataSources : List DefaultSyndesisDataSource} (hs : Steady teiid s)
    (hnodup : (listed connections).Nodup) (hbuilds : connections.all builds = true)
    (hperm : dataSources.Perm (getSyndesisSources s connections).2)
    (hadds : addsAll teiid env true (getSyndesisSources s connections).1 dataSources = true) :
    ListAdded teiid s (dataSources.foldl (fun s sds => addConnection teiid env s sds true)
      (getSyndesisSources s connections).1) connections := by
  -- the list is built first, which touches no row and no data source
  obtain ⟨honly, hlists⟩ := getSyndesisSources_effect s connections
  have hbuilt := getSyndesisSources_built hs.linked connections
  have howners := owned_congr honly.virtualizations
  have hids : (dataSources.map (·.syndesisConnectionId)).Perm (listed connections) := by
    rw [← hbuilt.sourceIds]
    exact hperm.map _
  have hnamed : ∀ sds ∈ dataSources, Named (getSyndesisSources s connections).1 sds :=
    fun sds hmem => hbuilt.named_of_mem (hperm.mem_iff.mp hmem)
  have hdrawn : ∀ sds ∈ dataSources, Drawn (getSyndesisSources s connections).1 sds := by
    intro sds hmem hnone row hrow
    obtain ⟨item, _, hof⟩ := hlists.builtOf sds (hperm.mem_iff.mp hmem)
    exact hof.drawn hnone row (honly.schemas ▸ hrow)
  have hprepared : Prepared teiid env true s _ connections :=
    @prepared teiid env s true connections dataSources fun _ hsds => hperm.mem_iff.mp hsds
  obtain ⟨hnames, hentries⟩ := mem_addConnections hbuilt.linked (honly.unowned hs.unowned)
    (hids.nodup_iff.mpr hnodup) hnamed hdrawn hadds
  refine ⟨(addConnections_added true hbuilt.linked hnamed).1, fun entry => ?_, ?_, hprepared.owned,
    hprepared.rows, ?_, hprepared.cached⟩
  · -- an object of the list is built of one item, and each item has its object
    rw [hentries, hids.mem_iff, honly.datasources]
    refine or_congr_right ⟨?_, ?_⟩
    · rintro ⟨sds, hsds, howned, hentry⟩
      obtain ⟨item, hitem, hof⟩ := hlists.builtOf sds (hperm.mem_iff.mp hsds)
      exact ⟨item, hitem, hof.provides_iff.mp ⟨(howners _).symm.trans howned, hentry⟩⟩
    · rintro ⟨item, hitem, hprovides⟩
      obtain ⟨sds, hsds, hof⟩ := hlists.built item hitem _ (hprovides.sourceId hbuilds hitem)
      obtain ⟨howned, hentry⟩ := hof.provides_iff.mpr hprovides
      exact ⟨sds, hperm.mem_iff.mpr hsds, (howners _).trans howned, hentry⟩
  · intro id hid howned
    obtain ⟨item, hitem, hsource⟩ := List.mem_filterMap.mp hid
    obtain ⟨sds, hsds, hof⟩ := hlists.built item hitem id hsource
    obtain rfl : sds.syndesisConnectionId = id := Option.some.inj (hof.sourceId.symm.trans hsource)
    exact hnames sds (hperm.mem_iff.mpr hsds) ((howners _).trans howned)
  · intro row hrow
    rcases row_of_addConnections hbuilt.linked hnamed hrow with hold | ⟨sds, hsds, howned, hsource⟩
    · exact .inl (honly.schemas ▸ hold)
    · rw [hsource]
      exact .inr ⟨hids.mem_iff.mp (List.mem_map_of_mem hsds), (howners _).symm.trans howned⟩

/-- What is deleted then is what is registered, cached and not listed. -/
theorem ListAdded.synchronized {s a : Synchronizer} {connections : List RemoteConnection}
    {removed : List String} (h : ListAdded teiid s a connections) (hs : Steady teiid s)
    (hbuilds : connections.all builds = true)
    (hremoved : ∀ id, id ∈ removed ↔ registered s id = true ∧ id ∉ listed connections) :
    Synchronized s (removed.foldl handleDeleteConnection a) connections := by
  have hgone := handleDeleteConnections_removed h.linked.cachedById removed
  have howners := owned_congr (handleDeleteConnections_virtualizations a removed)
  generalize removed.foldl handleDeleteConnection a = t at hgone howners ⊢
  -- the rows of the listed sources survive: only unlisted ones are handed to the deletion
  have hrow : ∀ id ∈ listed connections, ∀ name, HasRow t id name ↔ HasRow a id name := by
    intro id hid
    exact (hgone.same h.linked fun hmem => ((hremoved id).mp hmem).2 hid).hasRow
  refine ⟨fun entry => ⟨fun hentry => ?_, ?_⟩, ?_, fun id => (howners id).trans (h.owners id), ?_, ?_, ?_⟩
  -- an entry that is left was built of an item of the list, or could not be deleted
  · have hold := ((hgone.datasources entry).mp hentry).1
    rcases (h.datasources entry).mp hold with ⟨hbefore, hunlisted⟩ | ⟨item, hitem, hprovides⟩
    · refine .inr ⟨hbefore, hunlisted, Option.eq_none_iff_forall_ne_some.mpr fun sds hsds => ?_⟩
      have hmem := (hremoved _).mpr ⟨registered_iff.mpr ⟨entry, hbefore, rfl⟩, hunlisted⟩
      have hother := (hgone.mem_iff h.linked hold).mp hentry hmem sds
        ((h.cached _ hunlisted).trans hsds)
      exact hother (hs.name_of_cached hbefore hsds)
    · refine .inl ⟨item, hitem, { hprovides with row := ?_ }⟩
      exact (hrow _ (hprovides.mem_listed hbuilds hitem) entry.1).mpr hprovides.row
  · rintro (⟨item, hitem, hprovides⟩ | ⟨hbefore, hunlisted, hnone⟩)
    · have hlisted := hprovides.mem_listed hbuilds hitem
      have hold : entry ∈ a.datasources := (h.datasources entry).mpr
        (.inr ⟨item, hitem, { hprovides with row := (hrow _ hlisted entry.1).mp hprovides.row }⟩)
      exact (hgone.mem_iff h.linked hold).mpr fun hmem => absurd hlisted ((hremoved _).mp hmem).2
    · have hold : entry ∈ a.datasources := (h.datasources entry).mpr (.inl ⟨hbefore, hunlisted⟩)
      refine (hgone.mem_iff h.linked hold).mpr fun _ sds hsds => ?_
      rw [h.cached _ hunlisted, hnone] at hsds
      cases hsds
  · intro id hid howned
    obtain ⟨name, hname⟩ := h.provided id hid howned
    exact ⟨name, (hrow _ hid name).mpr hname⟩
  · intro row hmem hfound
    refine (hgone.schemas row).mpr ⟨h.kept row hmem, fun hid => ?_⟩
    obtain ⟨hregistered, hunlisted⟩ := (hremoved _).mp hid
    exact (h.cached _ hunlisted).trans (hfound hunlisted hregistered)
  · exact fun row hmem => h.added row ((hgone.schemas row).mp hmem).1
  · intro id hid hnone
    rw [hgone.cached, h.cached id hid, hnone, ite_self]

/-- A synchronization with update, in which no call fails, leaves what `Synchronized` says. -/
theorem synchronizesAll_synchronized {s t : Synchronizer} {connections : List RemoteConnection}
    (hs : Steady teiid s) (hnodup : (listed connections).Nodup)
    (h : synchronizesAll teiid env s true connections t) : Synchronized s t connections := by
  obtain ⟨hbuilds, _, dataSources, removed, hperm, hremoved, hadds, rfl⟩ := h
  exact (addsAll_listAdded hs hnodup hbuilds hperm hadds).synchronized hs hbuilds
    fun id => hremoved.mem_iff.trans mem_removedIds

/-- After any run in which no call fails, a synchronization with update leaves one data source for each
supported connection that is listed and publishes no virtualization, as Syndesis describes it and under the
name of its row, and besides these only the old ones that are neither listed nor found in the cache. -/
theorem synchronized_exactly {s₀ s t : Synchronizer} {tr : List (Synchronizer × SyncLabel)}
    {connections : List RemoteConnection} (hstarted : started teiid s₀)
    (hrun : (unfailingSystem teiid).Run s₀ tr s) (hnodup : (listed connections).Nodup)
    (hstep : (unfailingSystem teiid).step s (.synchronizeConnections true connections env) t) :
    (∀ item ∈ connections, ∀ id, item.id = some id → item.translatorName.isSome → owned s id = false →
        registered t id = true) ∧
      (t.datasources.map (·.1)).Nodup ∧ (t.datasources.map (·.2.syndesisId)).Nodup ∧
      ∀ entry, entry ∈ t.datasources ↔
        (∃ item ∈ connections, Provides s t item entry) ∨
          (entry ∈ s.datasources ∧ entry.2.syndesisId ∉ listed connections ∧
            s.cached entry.2.syndesisId = none) := by
  have hs := steady_of_run hstarted hrun
  have ht := (synchronizesAll_steady hs hstep).linked
  have hsync := synchronizesAll_synchronized hs hnodup hstep
  refine ⟨?_, ht.keys, syndesisIds_nodup ht, hsync.datasources⟩
  intro item hitem id hid hsupported howned
  have hsource := (sourceId_of_builds (List.all_eq_true.mp hstep.1 item hitem) hsupported).trans hid
  obtain ⟨name, hrow⟩ := hsync.provided id (List.mem_filterMap.mpr ⟨item, hitem, hsource⟩) howned
  obtain ⟨translatorName, htranslator⟩ := Option.isSome_iff_exists.mp hsupported
  refine registered_iff.mpr ⟨(name, ⟨name, translatorName, id, item.properties⟩), ?_, rfl⟩
  exact (hsync.datasources _).mpr (.inl ⟨item, hitem, hid, htranslator, rfl, rfl, howned, hrow⟩)

/-- The connection `c1` with another url, and a second one of its name. -/
def relisting : List RemoteConnection :=
  [holding "b", { id := some "c2", name := "my db", translatorName := some "mongodb" }]

/-- The stores after a synchronization with these, its sets iterated in the order of the list. -/
def afterRelisting (s : Synchronizer) : Synchronizer :=
  synchronizeSources (.ascii fun _ => { schema := { name := "parsed" } })
    { createsDatasource := fun _ => true, nextInt := fun _ _ => 0 } (getSyndesisSources s relisting).1 true
    (getSyndesisSources s relisting).2
    (removedIds (getSyndesisSources s relisting).1 (getSyndesisSources s relisting).2)

/-- A connection that was added before is listed again. -/
theorem synchronized_exactly_relisting :
    (∀ item ∈ relisting, ∀ id, item.id = some id → item.translatorName.isSome →
        owned (afterHolding [(.created, "a")]) id = false →
        registered (afterRelisting (afterHolding [(.created, "a")])) id = true) ∧
      ((afterRelisting (afterHolding [(.created, "a")])).datasources.map (·.1)).Nodup ∧
      ((afterRelisting (afterHolding [(.created, "a")])).datasources.map (·.2.syndesisId)).Nodup ∧
      ∀ entry, entry ∈ (afterRelisting (afterHolding [(.created, "a")])).datasources ↔
        (∃ item ∈ relisting, Provides (afterHolding [(.created, "a")])
            (afterRelisting (afterHolding [(.created, "a")])) item entry) ∨
          (entry ∈ (afterHolding [(.created, "a")]).datasources ∧
            entry.2.syndesisId ∉ listed relisting ∧
            (afterHolding [(.created, "a")]).cached entry.2.syndesisId = none) := by
  have hrun : (unfailingSystem (.ascii fun _ => { schema := { name := "parsed" } })).Run {}
      [({}, eventHolding .created "a")] (afterHolding [(.created, "a")]) :=
    .cons ⟨by decide, rfl⟩ (.nil _)
  exact @synchronized_exactly _ { createsDatasource := fun _ => true, nextInt := fun _ _ => 0 } _ _ _ _ _
    ⟨rfl, rfl, List.Pairwise.nil⟩ hrun (by decide)
    ⟨by decide, by decide, _, _, .refl _, .refl _, by decide, rfl⟩

example : (afterRelisting (afterHolding [(.created, "a")])).datasources =
    [ ("mydb", ⟨"mydb", "postgresql", "c1", [("url", "b")]⟩),
      ("mydb_00000", ⟨"mydb_00000", "mongodb", "c2", []⟩) ] := by decide

/-- The same list, synchronized again, leaves the data sources and the rows as they are. -/
theorem synchronized_twice {s₀ s t u : Synchronizer} {tr : List (Synchronizer × SyncLabel)} {env' : Env}
    {connections : List RemoteConnection} (hstarted : started teiid s₀)
    (hrun : (unfailingSystem teiid).Run s₀ tr s) (hnodup : (listed connections).Nodup)
    (hstep : (unfailingSystem teiid).step s (.synchronizeConnections true connections env) t)
    (hagain : (unfailingSystem teiid).step t (.synchronizeConnections true connections env') u) :
    (∀ entry, entry ∈ u.datasources ↔ entry ∈ t.datasources) ∧
      ∀ row, row ∈ u.schemas ↔ row ∈ t.schemas := by
  have hs := steady_of_run hstarted hrun
  have ht := synchronizesAll_steady hs hstep
  have hu := (synchronizesAll_steady ht hagain).linked
  have hfirst := synchronizesAll_synchronized hs hnodup hstep
  have hsecond := synchronizesAll_synchronized ht hnodup hagain
  -- what is left of the other connections is not found by the second either
  have hlost : ∀ id, id ∉ listed connections → registered t id = true → t.cached id = none := by
    intro id hid hregistered
    obtain ⟨entry, hentry, rfl⟩ := registered_iff.mp hregistered
    rcases (hfirst.datasources entry).mp hentry with ⟨item, hitem, hprovides⟩ | ⟨_, _, hnone⟩
    · exact absurd (hprovides.mem_listed hstep.1 hitem) hid
    · exact hfirst.cached _ hid hnone
  have hkept : ∀ row ∈ t.schemas, row ∈ u.schemas :=
    fun row hrow => hsecond.kept row hrow (hlost row.sourceId)
  have hadded : ∀ row ∈ u.schemas, row ∈ t.schemas := by
    intro row hrow
    rcases hsecond.added row hrow with hold | ⟨hlisted, howned⟩
    · exact hold
    · rw [hfirst.owners] at howned
      obtain ⟨name, old, hold, hsource, _⟩ := hfirst.provided _ hlisted howned
      rw [← row_unique hu.unique (hkept old hold) hrow (.inr hsource)]
      exact hold
  refine ⟨fun entry => ?_, fun row => ⟨hadded row, hkept row⟩⟩
  rw [hsecond.datasources]
  constructor
  · rintro (⟨item, hitem, hprovides⟩ | ⟨hold, _⟩)
    · refine (hfirst.datasources entry).mpr (.inl ⟨item, hitem, ?_⟩)
      exact { hprovides with
        unowned := (hfirst.owners _).symm.trans hprovides.unowned
        row := hprovides.row.mono hadded }
    · exact hold
  · intro hentry
    rcases (hfirst.datasources entry).mp hentry with ⟨item, hitem, hprovides⟩ | ⟨_, hunlisted, _⟩
    · refine .inl ⟨item, hitem, ?_⟩
      exact { hprovides with
        unowned := (hfirst.owners _).trans hprovides.unowned
        row := hprovides.row.mono hkept }
    · exact .inr ⟨hentry, hunlisted,
        hlost _ hunlisted (registered_iff.mpr ⟨entry, hentry, rfl⟩)⟩

/-- The same list, synchronized once more. -/
theorem synchronized_twice_relisting :
    (∀ entry, entry ∈ (afterRelisting (afterRelisting (afterHolding [(.created, "a")]))).datasources ↔
        entry ∈ (afterRelisting (afterHolding [(.created, "a")])).datasources) ∧
      ∀ row, row ∈ (afterRelisting (afterRelisting (afterHolding [(.created, "a")]))).schemas ↔
        row ∈ (afterRelisting (afterHolding [(.created, "a")])).schemas := by
  have hrun : (unfailingSystem (.ascii fun _ => { schema := { name := "parsed" } })).Run {}
      [({}, eventHolding .created "a")] (afterHolding [(.created, "a")]) :=
    .cons ⟨by decide, rfl⟩ (.nil _)
  exact @synchronized_twice _ { createsDatasource := fun _ => true, nextInt := fun _ _ => 0 } _ _ _ _ _
    { createsDatasource := fun _ => true, nextInt := fun _ _ => 0 } relisting
    ⟨rfl, rfl, List.Pairwise.nil⟩ hrun (by decide)
    ⟨by decide, by decide, _, _, .refl _, .refl _, by decide, rfl⟩
    ⟨by decide, by decide, _, _, .refl _, .refl _, by decide, rfl⟩

end Synchronizer

end TeiidSyndesis.OpenShift
