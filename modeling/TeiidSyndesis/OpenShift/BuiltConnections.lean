/-
# TeiidSyndesis.OpenShift.BuiltConnections — what building connections leaves and yields.

A connection that can be built yields a data source named after its schema row, and an entry of the
cache unless there is one.  The rows and the data sources of the server stay as they are.

Main results:
* `build_effect` — what one connection leaves and yields;
* `getSyndesisSources_effect` — and what a list of them does.
-/
import TeiidSyndesis.OpenShift.ConnectionSynchronizer

namespace TeiidSyndesis.OpenShift

open TeiidSyndesis.Library TeiidSyndesis.Model

namespace Synchronizer

/-- The id of a connection that has a data source. -/
def sourceId (item : RemoteConnection) : Option String :=
  match item.translatorName, item.id with
  | some _, some id => if item.decrypts then some id else none
  | _, _ => none

/-- The ids of the data sources of a list of connections. -/
def listed (connections : List RemoteConnection) : List String := connections.filterMap sourceId

/-- Objects are cached under the id they bear. -/
def CachedById (s : Synchronizer) : Prop :=
  ∀ id sds, s.cached id = some sds → sds.syndesisConnectionId = id

/-! ## One connection -/

/-- A connection that can be built has an id, and is supported. -/
theorem sourceId_eq_some {item : RemoteConnection} {id : String} (h : sourceId item = some id) :
    item.translatorName.isSome ∧ item.id = some id := by
  unfold sourceId at h
  split at h
  · rename_i translatorName itemId htranslator hid
    split at h
    · cases h
      exact ⟨by simp [htranslator], hid⟩
    · cases h
  · cases h

/-- `putIfAbsent` leaves the rows and the data sources alone, and keeps an entry that is there. -/
theorem putIfAbsent_spec (s : Synchronizer) (key : String) (dsd : DefaultSyndesisDataSource) :
    (s.putIfAbsent key dsd).schemas = s.schemas ∧
      (s.putIfAbsent key dsd).datasources = s.datasources ∧
      (s.putIfAbsent key dsd).virtualizations = s.virtualizations ∧
      ∀ id, (s.putIfAbsent key dsd).cached id =
        if id = key then (s.cached key).or (some dsd) else s.cached id := by
  unfold putIfAbsent
  cases hcached : s.cached key with
  | some old =>
      refine ⟨rfl, rfl, rfl, ?_⟩
      intro id
      by_cases hid : id = key
      · rw [if_pos hid, hid, hcached]
        rfl
      · rw [if_neg hid]
  | none =>
      refine ⟨rfl, rfl, rfl, ?_⟩
      intro id
      show ((s.syndesisSources ++ [(key, dsd)]).find? (·.1 = id)).map (·.2) = _
      rw [List.find?_append]
      by_cases hid : id = key
      · have hnone : s.syndesisSources.find? (·.1 = key) = none := Option.map_eq_none_iff.mp hcached
        simp [hid, hnone]
      · have hother : ([(key, dsd)] : List (String × DefaultSyndesisDataSource)).find? (·.1 = id) =
            none := by simp [Ne.symm hid]
        rw [hother, Option.or_none, if_neg hid]
        rfl

/-- The data source that is built of a connection. -/
structure BuiltOf (s : Synchronizer) (item : RemoteConnection) (dsd : DefaultSyndesisDataSource) :
    Prop where
  sourceId : sourceId item = some dsd.syndesisConnectionId
  translatorName : item.translatorName = some dsd.translatorName
  teiidName : dsd.teiidName = (s.findSchemaBySourceId dsd.syndesisConnectionId).map (·.name)
  properties : dsd.properties = item.properties

/-- Only the cache has changed, and there only entries with these ids are new. -/
structure OnlyCached (s t : Synchronizer) (ids : List String) : Prop where
  schemas : t.schemas = s.schemas
  datasources : t.datasources = s.datasources
  virtualizations : t.virtualizations = s.virtualizations
  cached : ∀ id, id ∉ ids → t.cached id = s.cached id
  byId : CachedById s → CachedById t

/-- What is found in the cache was there before, or is what has been built. -/
theorem build_cached {s t : Synchronizer} {item : RemoteConnection} {dsd : DefaultSyndesisDataSource}
    (h : buildSyndesisDataSource s item = .ok (t, some dsd)) {id : String}
    {sds : DefaultSyndesisDataSource} (hsds : t.cached id = some sds) :
    s.cached id = some sds ∨ (sds = dsd ∧ dsd.syndesisConnectionId = id) := by
  unfold buildSyndesisDataSource at h
  split at h
  · cases h
  · split at h
    · cases h
    · rename_i key _
      split at h
      · cases h
        have hget := ((putIfAbsent_spec s key _).2.2.2 id).symm.trans hsds
        split at hget
        · rename_i heq
          rcases Option.or_eq_some_iff.mp hget with hold | ⟨_, hnew⟩
          · exact .inl (heq ▸ hold)
          · exact .inr ⟨(Option.some.inj hnew).symm, heq.symm⟩
        · exact .inl hget
      · cases h

/-- The object is named after the row, and only its entry of the cache may be new. -/
theorem build_effect {s t : Synchronizer} {item : RemoteConnection} {dsd : DefaultSyndesisDataSource}
    (h : buildSyndesisDataSource s item = .ok (t, some dsd)) :
    BuiltOf s item dsd ∧ OnlyCached s t [dsd.syndesisConnectionId] := by
  have hbyId : CachedById s → CachedById t := by
    intro hs id sds hsds
    rcases build_cached h hsds with hold | ⟨rfl, hid⟩
    · exact hs id sds hold
    · exact hid
  unfold buildSyndesisDataSource at h
  split at h
  · cases h
  · rename_i translatorName htranslator
    split at h
    · cases h
    · rename_i id hid
      split at h
      · rename_i hdecrypts
        cases h
        obtain ⟨hschemas, hdatasources, hvirtualizations, hcached⟩ := putIfAbsent_spec s id
          (s.newDataSource id item.name translatorName item.properties)
        refine ⟨⟨?_, htranslator, rfl, rfl⟩, hschemas, hdatasources, hvirtualizations, ?_, hbyId⟩
        · simp [Synchronizer.sourceId, htranslator, hid, hdecrypts, newDataSource]
        · intro other hother
          have hne : other ≠ id := fun heq => hother (heq ▸ List.mem_singleton_self _)
          exact (hcached other).trans (if_neg hne)
      · cases h

/-- What is built depends on the rows alone. -/
theorem BuiltOf.congr {s t : Synchronizer} {item : RemoteConnection} {dsd : DefaultSyndesisDataSource}
    (h : BuiltOf t item dsd) (hschemas : t.schemas = s.schemas) : BuiltOf s item dsd := by
  refine ⟨h.sourceId, h.translatorName, ?_, h.properties⟩
  rw [h.teiidName]
  unfold findSchemaBySourceId
  rw [hschemas]

/-- A connection that is not built has no data source. -/
theorem sourceId_of_not_built {s : Synchronizer} {item : RemoteConnection}
    (h : ∀ t dsd, buildSyndesisDataSource s item ≠ .ok (t, some dsd)) : sourceId item = none := by
  unfold buildSyndesisDataSource at h
  unfold sourceId
  cases htranslator : item.translatorName with
  | none => rfl
  | some translatorName =>
      cases hid : item.id with
      | none => rfl
      | some id =>
          by_cases hdecrypts : item.decrypts = true
          · simp [htranslator, hid, hdecrypts] at h
          · simp [hdecrypts]

/-! ## A list of connections -/

/-- The data sources that are built are those of the connections that can be. -/
structure Lists (s : Synchronizer) (connections : List RemoteConnection)
    (sources : List DefaultSyndesisDataSource) : Prop where
  ids : sources.map (·.syndesisConnectionId) = listed connections
  builtOf : ∀ sds ∈ sources, ∃ item ∈ connections, BuiltOf s item sds
  built : ∀ item ∈ connections, ∀ id, sourceId item = some id → ∃ sds ∈ sources, BuiltOf s item sds

/-- The objects of a list, in its order, by induction over it. -/
theorem getSyndesisSources_effect (s : Synchronizer) (connections : List RemoteConnection) :
    OnlyCached s (getSyndesisSources s connections).1 (listed connections) ∧
      Lists s connections (getSyndesisSources s connections).2 := by
  -- by induction over the list: a connection that is not built is skipped
  induction connections generalizing s with
  | nil =>
      exact ⟨⟨rfl, rfl, rfl, fun _ _ => rfl, fun h => h⟩, rfl, fun _ h => (List.not_mem_nil h).elim,
        fun _ h => (List.not_mem_nil h).elim⟩
  | cons item items ih =>
      unfold getSyndesisSources
      split
      · rename_i t dsd hbuild
        obtain ⟨hof, honly⟩ := build_effect hbuild
        obtain ⟨hrest, hlists⟩ := ih t
        -- a connection that is built is listed
        have hlisted : listed (item :: items) = dsd.syndesisConnectionId :: listed items := by
          unfold listed
          rw [List.filterMap_cons_some hof.sourceId]
        rw [hlisted]
        refine ⟨⟨hrest.schemas.trans honly.schemas, hrest.datasources.trans honly.datasources,
          hrest.virtualizations.trans honly.virtualizations, ?_, fun h => hrest.byId (honly.byId h)⟩,
          hlisted ▸ congrArg (dsd.syndesisConnectionId :: ·) hlists.ids, ?_, ?_⟩
        · intro id hid
          rw [List.mem_cons, not_or] at hid
          exact (hrest.cached id hid.2).trans
            (honly.cached id fun hmem => hid.1 (List.mem_singleton.mp hmem))
        · intro sds hsds
          rcases List.mem_cons.mp hsds with rfl | hsds
          · exact ⟨item, List.mem_cons_self, hof⟩
          · obtain ⟨other, hother, hotherOf⟩ := hlists.builtOf sds hsds
            exact ⟨other, List.mem_cons_of_mem _ hother, hotherOf.congr honly.schemas⟩
        · intro other hother id hid
          rcases List.mem_cons.mp hother with rfl | hother
          · exact ⟨dsd, List.mem_cons_self, hof⟩
          · obtain ⟨sds, hsds, hotherOf⟩ := hlists.built other hother id hid
            exact ⟨sds, List.mem_cons_of_mem _ hsds, hotherOf.congr honly.schemas⟩
      · rename_i hnot
        have hnone := sourceId_of_not_built hnot
        -- one that is not built is not
        have hlisted : listed (item :: items) = listed items := by
          unfold listed
          rw [List.filterMap_cons_none hnone]
        obtain ⟨hrest, hlists⟩ := ih s
        rw [hlisted]
        refine ⟨hrest, hlisted ▸ hlists.ids, ?_, ?_⟩
        · intro sds hsds
          obtain ⟨other, hother, hof⟩ := hlists.builtOf sds hsds
          exact ⟨other, List.mem_cons_of_mem _ hother, hof⟩
        · intro other hother id hid
          rcases List.mem_cons.mp hother with rfl | hother
          · rw [hnone] at hid
            cases hid
          · exact hlists.built other hother id hid

end Synchronizer

end TeiidSyndesis.OpenShift
