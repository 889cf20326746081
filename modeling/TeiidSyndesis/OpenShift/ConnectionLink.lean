/-
# TeiidSyndesis.OpenShift.ConnectionLink — what links the data sources, the schemas and the cache.

Every data source and every name in the cache is that of a schema row, and rows are unique by name and
by source id.  Building and adding connections keeps this link, and leaves the other connections as
they are.

Main results:
* `row_unique`, `id_of_hasRow`, `name_of_hasRow`, `syndesisIds_nodup` — what unique rows make of the link;
* `Same`, `Added` — the frame of an operation: one connection changes, the others stay;
* `build_linked`, `getSyndesisSources_built` — building objects keeps the link;
* `createDataSource_added`, `addConnection_added`, `addConnections_added` — so does adding them.
-/
import Mathlib.Data.List.Nodup
import Mathlib.Data.List.Pairwise
import TeiidSyndesis.Library.Results
import TeiidSyndesis.Library.Tables
import TeiidSyndesis.OpenShift.BuiltConnections

namespace TeiidSyndesis.OpenShift

open TeiidSyndesis.Library TeiidSyndesis.Model

namespace Synchronizer

variable {teiid : Teiid} {env : Env}

/-! ## The link between the stores -/

/-- A schema row gives the connection the name. -/
def HasRow (s : Synchronizer) (id name : String) : Prop :=
  ∃ row ∈ s.schemas, row.sourceId = id ∧ row.name = name

/-- Data sources and cached names are those of the rows. -/
structure Linked (teiid : Teiid) (s : Synchronizer) : Prop where
  /-- no two rows have one name, or one connection -/
  unique : s.schemas.Pairwise (DistinctRows teiid)
  keys : (s.datasources.map (·.1)).Nodup
  /-- a data source bears the name of the row of its connection -/
  registered : ∀ entry ∈ s.datasources, HasRow s entry.2.syndesisId entry.1
  /-- so does a cached object, once it has a name -/
  cached : ∀ id sds, s.cached id = some sds →
    sds.syndesisConnectionId = id ∧ ∀ name, sds.teiidName = some name → HasRow s id name

/-- The object bears no name but that of the row. -/
def Named (s : Synchronizer) (sds : DefaultSyndesisDataSource) : Prop :=
  ∀ name, sds.teiidName = some name → HasRow s sds.syndesisConnectionId name

instance : Std.Symm (DistinctRows teiid) where
  symm _ _ h := ⟨h.1.symm, h.2.symm⟩

/-- Rows that share a name or a source id are one row. -/
theorem row_unique {s : Synchronizer} (hunique : s.schemas.Pairwise (DistinctRows teiid))
    {a b : SourceSchema} (ha : a ∈ s.schemas) (hb : b ∈ s.schemas)
    (h : a.name = b.name ∨ a.sourceId = b.sourceId) : a = b := by
  by_contra hne
  obtain ⟨hname, hsource⟩ := hunique.forall ha hb hne
  rcases h with h | h
  · exact hname (congrArg teiid.toUpperCase h)
  · exact hsource h

/-- A name has one connection. -/
theorem id_of_hasRow {s : Synchronizer} (hunique : s.schemas.Pairwise (DistinctRows teiid))
    {id id' name : String} (h : HasRow s id name) (h' : HasRow s id' name) : id = id' := by
  obtain ⟨row, hrow, rfl, hname⟩ := h
  obtain ⟨row', hrow', rfl, hname'⟩ := h'
  rw [row_unique hunique hrow hrow' (.inl (hname.trans hname'.symm))]

/-- A connection has one name. -/
theorem name_of_hasRow {s : Synchronizer} (hunique : s.schemas.Pairwise (DistinctRows teiid))
    {id name name' : String} (h : HasRow s id name) (h' : HasRow s id name') : name = name' := by
  obtain ⟨row, hrow, hid, rfl⟩ := h
  obtain ⟨row', hrow', hid', rfl⟩ := h'
  rw [row_unique hunique hrow hrow' (.inr (hid.trans hid'.symm))]

/-- Each connection has at most one data source. -/
theorem syndesisIds_nodup {s : Synchronizer} (hs : Linked teiid s) :
    (s.datasources.map (·.2.syndesisId)).Nodup := by
  refine (List.nodup_map_iff_inj_on (List.Nodup.of_map _ hs.keys)).mpr ?_
  intro a ha b hb heq
  have hid : a.2.syndesisId = b.2.syndesisId := heq
  have hrow := hs.registered a ha
  rw [hid] at hrow
  have hkey := name_of_hasRow hs.unique hrow (hs.registered b hb)
  exact List.inj_on_of_nodup_map hs.keys ha hb hkey

/-- The cache is keyed by connection id. -/
theorem Linked.cachedById {s : Synchronizer} (hs : Linked teiid s) : CachedById s :=
  fun id sds hsds => (hs.cached id sds hsds).1

/-! ## What concerns one connection -/

/-- The stores have the same of the connection. -/
structure Same (s t : Synchronizer) (id : String) : Prop where
  schemas : ∀ row, row.sourceId = id → (row ∈ t.schemas ↔ row ∈ s.schemas)
  datasources : ∀ entry, entry.2.syndesisId = id → (entry ∈ t.datasources ↔ entry ∈ s.datasources)
  cached : t.cached id = s.cached id

/-- Nothing has changed for the others at the start. -/
theorem Same.refl (s : Synchronizer) (id : String) : Same s s id :=
  ⟨fun _ _ => Iff.rfl, fun _ _ => Iff.rfl, rfl⟩

/-- Two operations that leave the others leave them together. -/
theorem Same.trans {s t u : Synchronizer} {id : String} (h : Same s t id) (h' : Same t u id) :
    Same s u id where
  schemas row hrow := (h'.schemas row hrow).trans (h.schemas row hrow)
  datasources entry hentry := (h'.datasources entry hentry).trans (h.datasources entry hentry)
  cached := h'.cached.trans h.cached

/-! ## The cache after an operation -/

/-- Deleting a data source drops the object of its connection from the cache, and no other. -/
theorem cached_deleteDataSource (s : Synchronizer) (dsd : DefaultSyndesisDataSource)
    (id : String) :
    (s.deleteDataSource dsd).cached id =
      if id = dsd.syndesisConnectionId then none else s.cached id := by
  show ((s.syndesisSources.filter (·.1 ≠ dsd.syndesisConnectionId)).find? (·.1 = id)).map (·.2) = _
  rw [find?_filter_key Prod.fst]
  split
  · rfl
  · rfl

/-- Naming an object changes at most the cache entry of its connection, and only its name. -/
theorem cached_setTeiidName (s : Synchronizer) (scd : DefaultSyndesisDataSource) (name id : String) :
    (s.setTeiidName scd name).cached id =
      (s.cached id).map fun sds =>
        if id = scd.syndesisConnectionId ∧ sds.object = scd.object then
          { sds with teiidName := some name }
        else sds := by
  have hkeys : ∀ entry : String × DefaultSyndesisDataSource,
      (if entry.1 = scd.syndesisConnectionId ∧ entry.2.object = scd.object then
        (entry.1, { entry.2 with teiidName := some name }) else entry).1 = entry.1 := by
    intro entry
    split <;> rfl
  unfold setTeiidName cached
  rw [find?_map_key Prod.fst hkeys]
  cases hfind : s.syndesisSources.find? (·.1 = id) with
  | none => rfl
  | some entry =>
      obtain rfl := key_of_find? hfind
      by_cases hentry : entry.1 = scd.syndesisConnectionId ∧ entry.2.object = scd.object
      · simp [hentry]
      · simp [hentry]

/-! ## Adding connections keeps the link -/

/-- A row that stays keeps its name. -/
theorem HasRow.mono {s t : Synchronizer} {id name : String} (h : HasRow s id name)
    (hsub : ∀ row ∈ s.schemas, row ∈ t.schemas) : HasRow t id name := by
  obtain ⟨row, hrow, hid, hname⟩ := h
  exact ⟨row, hsub row hrow, hid, hname⟩

/-- Who has which name depends on the rows alone. -/
theorem hasRow_congr {s t : Synchronizer} (h : t.schemas = s.schemas) {id name : String} :
    HasRow t id name ↔ HasRow s id name := by
  unfold HasRow
  rw [h]

/-- A row that is found by source id is the connection's. -/
theorem hasRow_of_find {s : Synchronizer} {id : String} {row : SourceSchema}
    (h : s.findSchemaBySourceId id = some row) : HasRow s id row.name :=
  ⟨row, List.mem_of_find?_eq_some h, by simpa using List.find?_some h, rfl⟩

/-- A name a built data source bears is that of the row of its connection. -/
theorem BuiltOf.hasRow {s : Synchronizer} {item : RemoteConnection} {dsd : DefaultSyndesisDataSource}
    (h : BuiltOf s item dsd) {name : String} (hname : dsd.teiidName = some name) :
    HasRow s dsd.syndesisConnectionId name := by
  rw [h.teiidName] at hname
  obtain ⟨row, hrow, rfl⟩ := Option.map_eq_some_iff.mp hname
  exact hasRow_of_find hrow

/-- An object that was built with a name has it from the row. -/
theorem BuiltOf.named {s : Synchronizer} {item : RemoteConnection} {dsd : DefaultSyndesisDataSource}
    (h : BuiltOf s item dsd) : Named s dsd := fun _ hname => h.hasRow hname

/-- Building one object keeps the link. -/
theorem build_linked {s t : Synchronizer} {item : RemoteConnection} {dsd : DefaultSyndesisDataSource}
    (hs : Linked teiid s) (h : buildSyndesisDataSource s item = .ok (t, some dsd)) :
    Linked teiid t := by
  obtain ⟨hof, honly⟩ := build_effect h
  refine ⟨honly.schemas ▸ hs.unique, honly.datasources ▸ hs.keys, ?_, ?_⟩
  · intro entry hentry
    exact (hasRow_congr honly.schemas).mpr (hs.registered entry (honly.datasources ▸ hentry))
  · intro id sds hsds
    rcases build_cached h hsds with hold | ⟨rfl, rfl⟩
    · obtain ⟨hid, hname⟩ := hs.cached id sds hold
      exact ⟨hid, fun name h => (hasRow_congr honly.schemas).mpr (hname name h)⟩
    · exact ⟨rfl, fun name h => (hasRow_congr honly.schemas).mpr (hof.hasRow h)⟩

/-- Building all that Syndesis lists keeps the link. -/
theorem getSyndesisSources_linked {s : Synchronizer} (hs : Linked teiid s)
    (connections : List RemoteConnection) : Linked teiid (getSyndesisSources s connections).1 := by
  induction connections generalizing s with
  | nil => exact hs
  | cons item items ih =>
      unfold getSyndesisSources
      split
      · rename_i t dsd hbuild
        exact ih (build_linked hs hbuild)
      · exact ih hs

/-- What a synchronization has built of its list. -/
structure Built (teiid : Teiid) (s t : Synchronizer) (ids : List String)
    (sources : List DefaultSyndesisDataSource) : Prop where
  linked : Linked teiid t
  schemas : t.schemas = s.schemas
  datasources : t.datasources = s.datasources
  named : ∀ sds ∈ sources, Named s sds
  sourceIds : sources.map (·.syndesisConnectionId) = ids
  cached : ∀ id, id ∉ ids → t.cached id = s.cached id

/-- The objects that are built are those of the listed connections, each with the name of its row. -/
theorem getSyndesisSources_built {s : Synchronizer} (hs : Linked teiid s)
    (connections : List RemoteConnection) :
    Built teiid s (getSyndesisSources s connections).1 (listed connections)
      (getSyndesisSources s connections).2 := by
  obtain ⟨honly, hlists⟩ := getSyndesisSources_effect s connections
  refine ⟨getSyndesisSources_linked hs connections, honly.schemas, honly.datasources, ?_, hlists.ids,
    honly.cached⟩
  intro sds hsds
  obtain ⟨item, _, hof⟩ := hlists.builtOf sds hsds
  exact hof.named

/-- An object that was built from the list has the name of its row. -/
theorem Built.named_of_mem {s t : Synchronizer} {ids : List String}
    {sources : List DefaultSyndesisDataSource} (h : Built teiid s t ids sources)
    {sds : DefaultSyndesisDataSource} (hsds : sds ∈ sources) : Named t sds :=
  fun name hname => (hasRow_congr h.schemas).mpr (h.named sds hsds name hname)

/-- An operation for one connection has kept the link and the rows, and the other connections. -/
structure Added (teiid : Teiid) (s t : Synchronizer) (id : String) : Prop where
  linked : Linked teiid t
  rows : ∀ row ∈ s.schemas, row ∈ t.schemas
  same : ∀ other, other ≠ id → Same s t other

/-- Nothing added is added. -/
theorem Added.refl {s : Synchronizer} (hs : Linked teiid s) (id : String) : Added teiid s s id :=
  ⟨hs, fun _ hrow => hrow, fun other _ => Same.refl s other⟩

/-- Two additions for one connection are one. -/
theorem Added.trans {s t u : Synchronizer} {id : String} (h : Added teiid s t id)
    (h' : Added teiid t u id) : Added teiid s u id where
  linked := h'.linked
  rows row hrow := h'.rows row (h.rows row hrow)
  same other hne := (h.same other hne).trans (h'.same other hne)

/-- The data source under the object's name goes, the others stay. -/
theorem mem_deleteDataSource {s : Synchronizer} {dsd : DefaultSyndesisDataSource}
    {entry : String × TeiidDataSource} : entry ∈ (s.deleteDataSource dsd).datasources ↔
      entry ∈ s.datasources ∧ dsd.teiidName ≠ some entry.1 := by
  unfold deleteDataSource
  cases dsd.teiidName with
  | none => simp
  | some teiidName =>
      have hcomm : entry.1 = teiidName ↔ teiidName = entry.1 := eq_comm
      simp [hcomm]

/-- Nothing comes in its place. -/
theorem deleteDataSource_sublist (s : Synchronizer) (dsd : DefaultSyndesisDataSource) :
    (s.deleteDataSource dsd).datasources.Sublist s.datasources := by
  unfold deleteDataSource
  cases dsd.teiidName with
  | none => exact List.Sublist.refl _
  | some teiidName => exact List.filter_sublist

/-- The data source that is deleted is that of the connection. -/
theorem deleteDataSource_added {s : Synchronizer} {sds : DefaultSyndesisDataSource}
    (hs : Linked teiid s) (hnamed : Named s sds) :
    Added teiid s (s.deleteDataSource sds) sds.syndesisConnectionId := by
  refine ⟨⟨hs.unique, ?_, ?_, ?_⟩, fun _ hrow => hrow, ?_⟩
  · exact hs.keys.sublist ((deleteDataSource_sublist s sds).map _)
  · intro entry hentry
    exact hs.registered entry (mem_deleteDataSource.mp hentry).1
  · intro id old hold
    rw [cached_deleteDataSource] at hold
    split at hold
    · cases hold
    · exact hs.cached id old hold
  · intro other hne
    refine ⟨fun _ _ => Iff.rfl, ?_, ?_⟩
    · intro entry hid
      rw [mem_deleteDataSource]
      constructor
      · exact fun h => h.1
      · intro hentry
        -- a data source of another connection has another name
        refine ⟨hentry, ?_⟩
        intro hname
        have hrow := hs.registered entry hentry
        rw [hid] at hrow
        exact hne (id_of_hasRow hs.unique hrow (hnamed entry.1 hname))
    · rw [cached_deleteDataSource, if_neg hne]

/-- Naming the object in the cache keeps the link, if the row has that name. -/
theorem setTeiidName_added {s : Synchronizer} {scd : DefaultSyndesisDataSource} {name : String}
    (hs : Linked teiid s) (hrow : HasRow s scd.syndesisConnectionId name) :
    Added teiid s (s.setTeiidName scd name) scd.syndesisConnectionId := by
  refine ⟨⟨hs.unique, hs.keys, hs.registered, ?_⟩, fun _ hrow => hrow, ?_⟩
  · intro id new hnew
    rw [cached_setTeiidName] at hnew
    obtain ⟨old, hold, rfl⟩ := Option.map_eq_some_iff.mp hnew
    obtain ⟨hid, hname⟩ := hs.cached id old hold
    split
    · rename_i hsame
      refine ⟨hid, ?_⟩
      intro other hother
      cases hother
      exact hsame.1 ▸ hrow
    · exact ⟨hid, hname⟩
  · intro other hne
    refine ⟨fun _ _ => Iff.rfl, fun _ _ => Iff.rfl, ?_⟩
    rw [cached_setTeiidName]
    have hother : ∀ sds : DefaultSyndesisDataSource,
        ¬ (other = scd.syndesisConnectionId ∧ sds.object = scd.object) := fun _ h => hne h.1
    simp [hother]

/-- Registering it keeps the link under the same condition. -/
theorem registerDataSource_added {s : Synchronizer} {teiidDS : DefaultSyndesisDataSource}
    {name : String} (hs : Linked teiid s) (hrow : HasRow s teiidDS.syndesisConnectionId name) :
    Added teiid s (registerDataSource env s teiidDS name) teiidDS.syndesisConnectionId := by
  unfold registerDataSource
  split
  · exact Added.refl hs _
  · rename_i hnew
    split
    · -- the data source is added under a name no other bears
      have hkey : ∀ entry ∈ s.datasources, entry.1 ≠ name := by
        intro entry hentry heq
        exact hnew (List.any_eq_true.mpr ⟨entry, hentry, beq_iff_eq.mpr heq⟩)
      refine ⟨⟨hs.unique, ?_, ?_, hs.cached⟩, fun _ hrow => hrow, ?_⟩
      · rw [List.map_append, List.map_cons, List.map_nil, List.nodup_append]
        refine ⟨hs.keys, List.nodup_singleton _, ?_⟩
        intro key hmem key' hmem'
        obtain ⟨entry, hentry, rfl⟩ := List.mem_map.mp hmem
        rw [List.mem_singleton.mp hmem']
        exact hkey entry hentry
      · intro entry hentry
        rcases List.mem_append.mp hentry with hold | hadded
        · exact hs.registered entry hold
        · rw [List.mem_singleton.mp hadded]
          exact hrow
      · intro other hne
        refine ⟨fun _ _ => Iff.rfl, ?_, rfl⟩
        intro entry hid
        constructor
        · intro hentry
          rcases List.mem_append.mp hentry with hold | hadded
          · exact hold
          · rw [List.mem_singleton.mp hadded] at hid
            exact absurd hid.symm hne
        · exact fun hold => List.mem_append_left _ hold
    · exact Added.refl hs _

/-- A schema that is created is a row of its own, with the next id. -/
theorem createSchema_eq_ok {s t : Synchronizer} {id name : String}
    (h : createSchema teiid s id name = .ok t) :
    t = { s with
          schemas := s.schemas ++ [⟨s.nextId, name, id, none⟩]
          nextId := s.nextId + 1 } ∧
      ∀ row ∈ s.schemas, DistinctRows teiid row ⟨s.nextId, name, id, none⟩ := by
  unfold createSchema at h
  split at h
  · cases h
  · rename_i hfree
    simp only [isNameInUse, isSourceIdInUse, Bool.or_eq_true, not_or, List.any_eq_true,
      beq_iff_eq, not_exists, not_and] at hfree
    refine ⟨(Except.ok.inj h).symm, fun row hrow => ?_⟩
    exact ⟨hfree.1.1 row hrow, hfree.2.1 row hrow⟩

/-- The connection has been given a row with the name, or has one; nothing else has changed. -/
structure OnlyNamed (teiid : Teiid) (s t : Synchronizer) (id name : String) : Prop where
  row : HasRow t id name
  rows : ∀ row ∈ s.schemas, row ∈ t.schemas
  added : ∀ row ∈ t.schemas, row ∈ s.schemas ∨ row.sourceId = id
  unique : s.schemas.Pairwise (DistinctRows teiid) → t.schemas.Pairwise (DistinctRows teiid)
  datasources : t.datasources = s.datasources
  virtualizations : t.virtualizations = s.virtualizations
  cached : ∀ other, t.cached other = s.cached other

/-- The new row gives the connection its name. -/
theorem createSchema_named {s t : Synchronizer} {id name : String}
    (h : createSchema teiid s id name = .ok t) : OnlyNamed teiid s t id name := by
  obtain ⟨rfl, hdistinct⟩ := createSchema_eq_ok h
  refine ⟨?_, fun row hrow => List.mem_append_left _ hrow, ?_, ?_, rfl, rfl, fun _ => rfl⟩
  · exact ⟨⟨s.nextId, name, id, none⟩, List.mem_append_right _ (List.mem_singleton_self _), rfl, rfl⟩
  · intro row hrow
    rcases List.mem_append.mp hrow with hold | hnew
    · exact .inl hold
    · rw [List.mem_singleton.mp hnew]
      exact .inr rfl
  · -- the constraints of the table are what keeps the rows distinct
    intro hunique
    refine List.pairwise_append.mpr ⟨hunique, List.pairwise_singleton _ _, ?_⟩
    intro row hrow new hnew
    rw [List.mem_singleton.mp hnew]
    exact hdistinct row hrow

/-- A name is only given once its row is written. -/
theorem getUniqueKomodoName_named {s t : Synchronizer} {scd : DefaultSyndesisDataSource}
    {val : BitVec 32} {name : String} (h : getUniqueKomodoName teiid s scd val = .ok (t, name)) :
    OnlyNamed teiid s t scd.syndesisConnectionId name := by
  unfold getUniqueKomodoName at h
  split at h
  · rename_i ss hfind
    cases h
    exact ⟨hasRow_of_find hfind, fun _ hrow => hrow, fun _ hrow => .inl hrow, fun hunique => hunique,
      rfl, rfl, fun _ => rfl⟩
  · obtain ⟨u, hcreate, heq⟩ := map_eq_ok.mp h
    cases heq
    exact createSchema_named hcreate

/-- A name that `createDataSource` draws is given with its row. -/
theorem uniqueName_named {s t : Synchronizer} {scd : DefaultSyndesisDataSource} {name : String}
    (h : uniqueName teiid env s scd = some (t, name)) :
    OnlyNamed teiid s t scd.syndesisConnectionId name := by
  obtain ⟨attempt, _, hattempt⟩ := List.exists_of_findSome?_eq_some h
  exact getUniqueKomodoName_named (toOption_eq_some.mp hattempt)

/-- A new row for the connection keeps the link. -/
theorem OnlyNamed.added_of_linked {s t : Synchronizer} {id name : String}
    (h : OnlyNamed teiid s t id name) (hs : Linked teiid s) : Added teiid s t id := by
  refine ⟨⟨h.unique hs.unique, h.datasources ▸ hs.keys, ?_, ?_⟩, h.rows, ?_⟩
  · intro entry hentry
    exact (hs.registered entry (h.datasources ▸ hentry)).mono h.rows
  · intro other sds hsds
    obtain ⟨hid, hnames⟩ := hs.cached other sds ((h.cached other).symm.trans hsds)
    exact ⟨hid, fun name hname => (hnames name hname).mono h.rows⟩
  · intro other hne
    refine ⟨?_, fun entry _ => by rw [h.datasources], h.cached other⟩
    intro row hrow
    constructor
    · exact fun hmem => (h.added row hmem).resolve_right fun heq => hne (hrow.symm.trans heq)
    · exact h.rows row

/-- Creating a data source names it as its row says. -/
theorem createDataSource_added {s : Synchronizer} {scd : DefaultSyndesisDataSource}
    (hs : Linked teiid s) (hnamed : Named s scd) :
    Added teiid s (createDataSource teiid env s scd) scd.syndesisConnectionId := by
  unfold createDataSource
  split
  · rename_i name hname
    exact registerDataSource_added hs (hnamed name hname)
  · split
    · rename_i t name hunique
      have hnames := uniqueName_named hunique
      have hadded := hnames.added_of_linked hs
      have hrow := hnames.row
      have hset := setTeiidName_added hadded.linked hrow
      exact hadded.trans (hset.trans (registerDataSource_added hset.linked (hrow.mono hset.rows)))
    · exact Added.refl hs _

/-- Adding or updating one connection keeps the link, and leaves the others. -/
theorem addConnection_added {s : Synchronizer} {sds : DefaultSyndesisDataSource}
    (hs : Linked teiid s) (hnamed : Named s sds) (update : Bool) :
    Added teiid s (addConnection teiid env s sds update) sds.syndesisConnectionId := by
  unfold addConnection
  split
  · exact Added.refl hs _
  · split
    · have hdeleted := deleteDataSource_added hs hnamed
      exact hdeleted.trans (createDataSource_added hdeleted.linked
        fun name hname => (hnamed name hname).mono hdeleted.rows)
    · exact createDataSource_added hs hnamed

/-- Adding all connections of a list leaves the connections that are not on it. -/
theorem addConnections_added {sources : List DefaultSyndesisDataSource} (update : Bool)
    {s : Synchronizer} (hs : Linked teiid s) (hnamed : ∀ sds ∈ sources, Named s sds) :
    Linked teiid (sources.foldl (fun s sds => addConnection teiid env s sds update) s) ∧
      ∀ id, id ∉ sources.map (·.syndesisConnectionId) →
        Same s (sources.foldl (fun s sds => addConnection teiid env s sds update) s) id := by
  induction sources generalizing s with
  | nil => exact ⟨hs, fun id _ => Same.refl s id⟩
  | cons sds sources ih =>
      have hadded : Added teiid s (addConnection teiid env s sds update) _ :=
        addConnection_added hs (hnamed sds List.mem_cons_self) update
      have hrest : ∀ other ∈ sources, Named (addConnection teiid env s sds update) other :=
        fun other hmem name hname =>
          (hnamed other (List.mem_cons_of_mem _ hmem) name hname).mono hadded.rows
      obtain ⟨hlinked, hsame⟩ := ih hadded.linked hrest
      refine ⟨hlinked, ?_⟩
      intro id hid
      rw [List.map_cons, List.mem_cons, not_or] at hid
      exact (hadded.same id hid.1).trans (hsame id hid.2)

end Synchronizer

end TeiidSyndesis.OpenShift
