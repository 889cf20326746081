/-
# TeiidSyndesis.OpenShift.CircularSources — connections of virtualizations as sources.

A published virtualization has a connection in Syndesis, and Syndesis tells the program of that
connection as of any other.  `addConnection` passes it over by the source id of the virtualization.
The id is stored by a transaction of its own after the POST has returned, while events and
synchronizations are handled on other threads; here all of them interleave step by step.  The calls of
`createDataSource` are those of the pods.

Main results:
* `apart_executePOST`, `apart_storeSourceId`, `apart_addConnection`, `apart_proceed` — one lemma for each
  step, and `apart_next` for all of them;
* `noCircularSource_of_apart` — what is apart has no circular source;
* `circular_of_not_commitsStored` — a source that is committed too early is circular;
* `noCircularSource_iff` — so the condition on a run is exact;
* `event_before_store` — and a run that does not meet it.
-/
import TeiidSyndesis.OpenShift.SourceNames
import Mathlib.Data.List.Nodup

namespace TeiidSyndesis.OpenShift

open TeiidSyndesis.Library TeiidSyndesis.Model TeiidSyndesis.Repository

variable {teiid : Teiid}

/-! ## Publishing -/

/-- The pods, the connections that were posted and the calls that have not stored their id. -/
structure Publishing (teiid : Teiid) where
  pods : Pods teiid
  /-- the connections `createSyndesisConnection` has created in Syndesis -/
  created : List String := []
  /-- its calls that have not stored their id: virtualization and id -/
  storing : List (String × String) := []

namespace Publishing

/-- Whose step is next. -/
inductive PublishLabel
  /-- `createSyndesisConnection` has posted a connection, and this is its id -/
  | executePOST (virtualizationName id : String)
  /-- the transaction of one of its calls -/
  | storeSourceId (i : Nat)
  /-- an event or a synchronization makes an object for a connection -/
  | buildSyndesisDataSource (id syndesisName translatorName : String)
  /-- `addConnection` up to its check -/
  | addConnection (scd : Nat)
  /-- the next step of a call of `createDataSource` -/
  | proceed (call : Nat) (nextInt : BitVec 32) (registers : Bool)
  /-- the schema of a connection that is gone is deleted -/
  | deleteSchema (sourceId : String)
  deriving DecidableEq, Repr

/-- Syndesis has given the id to no other connection. -/
def Fresh (s : Publishing teiid) (id : String) : Prop :=
  id ∉ s.created ∧ id ∉ s.pods.ids ∧ some id ∉ s.pods.table.rows.map (·.sourceId)

instance (s : Publishing teiid) (id : String) : Decidable (s.Fresh id) :=
  inferInstanceAs (Decidable (_ ∧ _ ∧ _))

def setTable (s : Publishing teiid) (table : SharedTable teiid) : Publishing teiid :=
  { s with pods := { s.pods with table := table } }

/-- The transaction of `createSyndesisConnection`; what it raises ends the call. -/
def storeSourceId (s : Publishing teiid) (i : Nat) (virtualizationName id : String) :
    Publishing teiid :=
  let s := { s with storing := s.storing.eraseIdx i }
  match s.pods.table.findDataVirtualization virtualizationName with
  | none => s
  | some dv =>
      match s.pods.table.setSourceId { row := dv, managed := true } (some id) with
      | .ok table => s.setTable table
      | .error _ => s

/-- A connection that publishes a virtualization is not one of its sources. -/
def addConnection (s : Publishing teiid) (k : Nat) (scd : DefaultSyndesisDataSource) :
    Option (Publishing teiid) :=
  match s.pods.table.findDataVirtualizationBySourceId scd.syndesisConnectionId with
  | some _ => some s
  | none => (s.pods.next (.createDataSource k)).map fun pods => { s with pods := pods }

/-- One step of a publish, of an event or of a call. -/
def next (s : Publishing teiid) (label : PublishLabel) : Option (Publishing teiid) :=
  match label with
  | .executePOST virtualizationName id =>
      if s.Fresh id then
        some
          { s with
            created := s.created ++ [id]
            storing := s.storing ++ [(virtualizationName, id)] }
      else none
  | .storeSourceId i =>
      match s.storing[i]? with
      | none => none
      | some entry => some (s.storeSourceId i entry.1 entry.2)
  | .buildSyndesisDataSource id syndesisName translatorName =>
      some { s with pods := s.pods.buildSyndesisDataSource id syndesisName translatorName }
  | .addConnection k =>
      match s.pods.sources[k]? with
      | none => none
      | some scd => s.addConnection k scd
  | .proceed call nextInt registers =>
      (s.pods.next (.proceed call nextInt registers)).map fun pods => { s with pods := pods }
  | .deleteSchema sourceId => some (s.setTable (s.pods.table.deleteSchema sourceId))

/-- The program starts on any table, and has created no connection yet. -/
def started (s : Publishing teiid) : Prop :=
  Pods.started s.pods ∧ s.created = [] ∧ s.storing = []

def publishingSystem (teiid : Teiid) : System (Publishing teiid) PublishLabel := .ofNext started next

/-! ## No circular source -/

/-- A connection the program has created has no schema and no data source, and no call fails to store
its id. -/
def NoCircularSource (s : Publishing teiid) : Prop :=
  (∀ id ∈ s.created, ∀ name, ¬s.pods.table.HasSchema id name ∧ ¬s.pods.Succeeded id name) ∧
    ∀ entry ∈ s.storing, ∀ dv, s.pods.table.findDataVirtualization entry.1 = some dv →
      ∃ table, s.pods.table.setSourceId { row := dv, managed := true } (some entry.2) = .ok table

/-- A row for a connection the program has created is committed when its id is stored already, or its
new name is taken. -/
def CommitsStored (s : Publishing teiid) (label : PublishLabel) : Prop :=
  match label with
  | .proceed i _ _ =>
      ∀ call scd attempt toUse, s.pods.calls[i]? = some call → s.pods.sources[call.scd]? = some scd →
        call.point = .commit attempt toUse → scd.syndesisConnectionId ∈ s.created →
          (∃ row ∈ s.pods.table.rows, row.sourceId = some scd.syndesisConnectionId) ∨
            s.pods.table.isNameInUse toUse = true
  | _ => True

/-- What keeps the connections the program has created apart from its sources. -/
structure Apart (s : Publishing teiid) : Prop where
  schemas : ∀ row ∈ s.pods.table.rows, row.type = .sourceSchema → ∀ id ∈ s.created,
    row.sourceId ≠ some id
  /-- no object or call holds a name for one of them -/
  names : s.pods.NamedBy fun id _ => id ∉ s.created
  storing : ∀ entry ∈ s.storing, entry.2 ∈ s.created ∧
    ∀ row ∈ s.pods.table.rows, row.sourceId ≠ some entry.2
  once : (s.storing.map (·.2)).Nodup

/-- Nothing is published at the start. -/
theorem apart_started {s : Publishing teiid} (h : started s) : s.Apart := by
  obtain ⟨hpods, hcreated, hstoring⟩ := h
  constructor
  · rw [hcreated]
    intro row _ _ id hid
    cases hid
  · exact Pods.namedBy_of_started hpods
  · rw [hstoring]
    intro entry hentry
    cases hentry
  · rw [hstoring]
    exact List.nodup_nil

/-- Apart means that no data source is that of a published virtualization. -/
theorem noCircularSource_of_apart {s : Publishing teiid} (h : s.Apart) : s.NoCircularSource := by
  constructor
  · intro id hid name
    constructor
    · intro hschema
      exact h.schemas _ hschema rfl id hid rfl
    · intro hsucceeded
      exact h.names.of_succeeded hsucceeded hid
  · intro entry hentry dv _
    exact SharedTable.setSourceId_isOk (h.storing entry hentry).2

/-- No row that is found is the schema of a connection the program has created. -/
theorem Apart.not_created {s : Publishing teiid} (h : s.Apart) {id : String} {row : Row}
    (hfind : s.pods.table.findSchemaBySourceId id = some row) : id ∉ s.created := by
  intro hid
  exact h.schemas _ (SharedTable.hasSchema_of_find hfind) rfl id hid rfl

/-! ## The steps -/

/-- A new id is that of no source yet. -/
theorem apart_executePOST {s t : Publishing teiid} {virtualizationName id : String} (h : s.Apart)
    (hstep : s.next (.executePOST virtualizationName id) = some t) : t.Apart := by
  simp only [next] at hstep
  split at hstep
  case isFalse => cases hstep
  case isTrue hfresh =>
    cases hstep
    obtain ⟨hcreated, hids, hrows⟩ := hfresh
    -- the server answers a fresh id: no row, no object and no earlier answer has it
    have hother : ∀ row ∈ s.pods.table.rows, row.sourceId ≠ some id :=
      fun row hmem heq => hrows (heq ▸ List.mem_map_of_mem hmem)
    constructor
    · intro row hmem hschema id' hid'
      rcases List.mem_append.mp hid' with hold | hnew
      · exact h.schemas row hmem hschema id' hold
      · rw [List.mem_singleton.mp hnew]
        exact hother row hmem
    · refine h.names.mono fun id' hid' _ hold => ?_
      simp only [List.mem_append, List.mem_singleton, not_or]
      exact ⟨hold, fun heq => hids (heq ▸ hid')⟩
    · intro entry hentry
      rcases List.mem_append.mp hentry with hold | hnew
      · exact ⟨List.mem_append_left _ (h.storing entry hold).1, (h.storing entry hold).2⟩
      · rw [List.mem_singleton.mp hnew]
        exact ⟨List.mem_append_right _ List.mem_cons_self, hother⟩
    · show ((s.storing ++ [(virtualizationName, id)]).map (·.2)).Nodup
      rw [List.map_append, List.nodup_append]
      refine ⟨h.once, List.nodup_singleton _, ?_⟩
      intro id₁ hid₁ id₂ hid₂ heq
      obtain ⟨entry, hentry, rfl⟩ := List.mem_map.mp hid₁
      rw [List.map_singleton, List.mem_singleton] at hid₂
      have hsame : entry.2 = id := heq.trans hid₂
      exact hcreated (hsame ▸ (h.storing entry hentry).1)

/-- An id is stored: the rows of the schemas stay, and no other call stores the same id. -/
theorem apart_storeSourceId {s : Publishing teiid} (h : s.Apart) {i : Nat}
    {virtualizationName id : String} (hentry : s.storing[i]? = some (virtualizationName, id)) :
    (s.storeSourceId i virtualizationName id).Apart := by
  -- the ids in flight are distinct, so the one stored now leaves the list with its entry
  have hrest : ∀ entry ∈ s.storing.eraseIdx i, entry ∈ s.storing ∧ entry.2 ≠ id := by
    intro entry hmem
    refine ⟨List.mem_of_mem_eraseIdx hmem, ?_⟩
    obtain ⟨j, hne, hj⟩ := List.mem_eraseIdx_iff_getElem?.mp hmem
    intro heq
    have hi' : (s.storing.map (·.2))[i]? = some id := by simp [hentry]
    have hj' : (s.storing.map (·.2))[j]? = some id := by simp [hj, heq]
    obtain ⟨hilt, -⟩ := List.getElem?_eq_some_iff.mp hi'
    exact hne ((List.getElem?_inj hilt h.once).mp (hi'.trans hj'.symm)).symm
  have honce : ((s.storing.eraseIdx i).map (·.2)).Nodup :=
    h.once.sublist ((List.eraseIdx_sublist _ _).map _)
  have hkept : ({ s with storing := s.storing.eraseIdx i } : Publishing teiid).Apart :=
    ⟨h.schemas, h.names, fun entry hmem => h.storing entry (hrest entry hmem).1, honce⟩
  unfold storeSourceId
  dsimp only
  split
  · exact hkept
  · rename_i dv hdv
    obtain ⟨-, hvirtual, -⟩ := SharedTable.mem_of_findDataVirtualization hdv
    split
    · rename_i table hset
      have hrows := SharedTable.rows_of_setSourceId hset
      constructor
      -- a source schema is not the row that is written: that one is a virtualization
      · intro row hmem hschema id' hid'
        change row ∈ table.rows at hmem
        rw [hrows] at hmem
        obtain ⟨old, hold, rfl⟩ := List.mem_map.mp hmem
        unfold SharedTable.writeSourceId at hschema ⊢
        split at hschema
        · rename_i heq
          rw [heq, hvirtual] at hschema
          cases hschema
        · rename_i hne
          rw [if_neg hne]
          exact h.schemas old hold hschema id' hid'
      · exact Pods.namedBy_table h.names table
      · intro entry hmem
        obtain ⟨hold, hne⟩ := hrest entry hmem
        refine ⟨(h.storing entry hold).1, fun row hrow => ?_⟩
        change row ∈ table.rows at hrow
        rw [hrows] at hrow
        obtain ⟨old, hmem', rfl⟩ := List.mem_map.mp hrow
        unfold SharedTable.writeSourceId
        split
        · exact fun heq => hne (Option.some.inj heq).symm
        · exact (h.storing entry hold).2 old hmem'
      · exact honce
    · exact hkept

/-- An object that is built is no data source. -/
theorem apart_buildSyndesisDataSource {s : Publishing teiid} (h : s.Apart)
    (id syndesisName translatorName : String) :
    ({ s with pods := s.pods.buildSyndesisDataSource id syndesisName translatorName } :
      Publishing teiid).Apart :=
  ⟨h.schemas, Pods.namedBy_build h.names syndesisName translatorName fun _ hrow => h.not_created hrow,
    h.storing, h.once⟩

/-- Whether the check passes or not, nothing is named yet. -/
theorem apart_addConnection {s t : Publishing teiid} (h : s.Apart) {k : Nat}
    {scd : DefaultSyndesisDataSource} (hstep : s.addConnection k scd = some t) : t.Apart := by
  unfold addConnection at hstep
  split at hstep
  · cases hstep
    exact h
  · obtain ⟨pods, hpods, rfl⟩ := Option.map_eq_some_iff.mp hstep
    obtain ⟨hnames, htable⟩ := Pods.namedBy_createDataSource h.names hpods
    constructor
    · show ∀ row ∈ pods.table.rows, _
      rw [htable]
      exact h.schemas
    · exact hnames
    · show ∀ entry ∈ s.storing, _ ∧ ∀ row ∈ pods.table.rows, _
      rw [htable]
      exact h.storing
    · exact h.once

/-- A step of a call of `createDataSource` that commits nothing for a connection the program has
created. -/
theorem apart_proceed {s : Publishing teiid} {pods : Pods teiid} {i : Nat} {nextInt : BitVec 32}
    {registers : Bool} (h : s.Apart) (hguard : s.CommitsStored (.proceed i nextInt registers))
    (hstep : s.pods.next (.proceed i nextInt registers) = some pods) :
    ({ s with pods := pods } : Publishing teiid).Apart := by
  obtain ⟨call, scd, hcall, hscd, hproceeded⟩ := Pods.next_proceed_eq_some hstep
  have hcommit : ∀ attempt toUse table, call.point = .commit attempt toUse →
      s.pods.table.createSchema scd.syndesisConnectionId toUse = .ok table →
        scd.syndesisConnectionId ∉ s.created := by
    intro attempt toUse table hpoint hcreate hid
    obtain ⟨hname, hfree⟩ := SharedTable.createSchema_isOk_iff.mp ⟨table, hcreate⟩
    rcases hguard call scd attempt toUse hcall hscd hpoint hid with ⟨row, hrow, heq⟩ | htaken
    · exact hfree row hrow heq
    · rw [hname] at htaken
      cases htaken
  have hnames : pods.NamedBy fun id _ => id ∉ s.created :=
    Pods.namedBy_proceeded hproceeded h.names hcall hscd (fun _ hrow => h.not_created hrow)
      fun attempt toUse hpoint hcreate => hcommit attempt toUse _ hpoint hcreate
  -- the rows are the old ones, or one more for a connection of another origin
  have hrows : ∀ row ∈ pods.table.rows, row ∈ s.pods.table.rows ∨
      ∃ id name, row = SharedTable.schemaRow id name ∧ id ∉ s.created := by
    cases hproceeded with
    | moves point hmoves => exact fun row hrow => .inl hrow
    | commits attempt toUse table hpoint hcreate =>
        intro row hrow
        change row ∈ table.rows at hrow
        rw [SharedTable.rows_of_createSchema hcreate] at hrow
        rcases List.mem_append.mp hrow with hold | hnew
        · exact .inl hold
        · exact .inr ⟨_, _, List.mem_singleton.mp hnew, hcommit attempt toUse table hpoint hcreate⟩
    | names name hpoint => exact fun row hrow => .inl hrow
  constructor
  · intro row hrow hschema id hid
    rcases hrows row hrow with hold | ⟨id', name, rfl, hother⟩
    · exact h.schemas row hold hschema id hid
    · intro heq
      exact hother (Option.some.inj heq ▸ hid)
  · exact hnames
  · intro entry hentry
    obtain ⟨hcreated, hfree⟩ := h.storing entry hentry
    refine ⟨hcreated, fun row hrow => ?_⟩
    rcases hrows row hrow with hold | ⟨id', name, rfl, hother⟩
    · exact hfree row hold
    · intro heq
      exact hother (Option.some.inj heq ▸ hcreated)
  · exact h.once

/-- Deleting a schema adds none. -/
theorem apart_deleteSchema {s : Publishing teiid} (h : s.Apart) (sourceId : String) :
    (s.setTable (s.pods.table.deleteSchema sourceId)).Apart := by
  have hrows : ∀ row ∈ (s.pods.table.deleteSchema sourceId).rows, row ∈ s.pods.table.rows :=
    fun row hrow => List.mem_of_mem_filter hrow
  exact ⟨fun row hrow => h.schemas row (hrows row hrow), Pods.namedBy_table h.names _,
    fun entry hentry => ⟨(h.storing entry hentry).1,
      fun row hrow => (h.storing entry hentry).2 row (hrows row hrow)⟩, h.once⟩

/-- A step that commits what is stored keeps them apart. -/
theorem apart_next {s t : Publishing teiid} {label : PublishLabel} (h : s.Apart)
    (hguard : s.CommitsStored label) (hstep : s.next label = some t) : t.Apart := by
  cases label with
  | executePOST virtualizationName id => exact apart_executePOST h hstep
  | storeSourceId i =>
      simp only [next] at hstep
      split at hstep
      · cases hstep
      · rename_i entry hentry
        cases hstep
        exact apart_storeSourceId h hentry
  | buildSyndesisDataSource id syndesisName translatorName =>
      cases hstep
      exact apart_buildSyndesisDataSource h id syndesisName translatorName
  | addConnection k =>
      simp only [next] at hstep
      split at hstep
      · cases hstep
      · exact apart_addConnection h hstep
  | proceed i nextInt registers =>
      obtain ⟨pods, hpods, rfl⟩ := Option.map_eq_some_iff.mp hstep
      exact apart_proceed h hguard hpods
  | deleteSchema sourceId =>
      cases hstep
      exact apart_deleteSchema h sourceId

/-- A row that is committed for a connection the program has created is there at once. -/
theorem circular_of_not_commitsStored {s t : Publishing teiid} {label : PublishLabel}
    (hguard : ¬s.CommitsStored label) (hstep : s.next label = some t) : ¬t.NoCircularSource := by
  cases label with
  | proceed i nextInt registers =>
      simp only [CommitsStored, not_forall, not_or, Bool.not_eq_true] at hguard
      obtain ⟨call, scd, attempt, toUse, hcall, hscd, hpoint, hid, hfree, hname⟩ := hguard
      have hrows : ∀ row ∈ s.pods.table.rows, row.sourceId ≠ some scd.syndesisConnectionId :=
        fun row hrow heq => hfree ⟨row, hrow, heq⟩
      obtain ⟨table, hcreate⟩ := SharedTable.createSchema_isOk_iff.mpr ⟨hname, hrows⟩
      obtain ⟨pods, hpods, rfl⟩ := Option.map_eq_some_iff.mp hstep
      have htable : pods.table = table := by
        simp only [Pods.next, hcall, hscd, Pods.proceed, hpoint, hcreate, Option.some.injEq] at hpods
        rw [← hpods]
        rfl
      intro hno
      refine (hno.1 scd.syndesisConnectionId hid toUse).1 ?_
      show pods.table.HasSchema _ _
      rw [htable]
      exact (Pods.hasSchema_of_createSchema hcreate).1
  | executePOST virtualizationName id => exact absurd trivial hguard
  | storeSourceId i => exact absurd trivial hguard
  | buildSyndesisDataSource id syndesisName translatorName => exact absurd trivial hguard
  | addConnection k => exact absurd trivial hguard
  | deleteSchema sourceId => exact absurd trivial hguard

/-- No source is made for a connection the program has created, and each of its ids can be stored, in
every state of a run exactly if no row for such a connection is committed before its id is stored. -/
theorem noCircularSource_iff {s t : Publishing teiid} {tr : List (Publishing teiid × PublishLabel)}
    (hs : started s) (hrun : (publishingSystem teiid).Run s tr t) :
    (t.NoCircularSource ∧ ∀ x ∈ tr, x.1.NoCircularSource) ↔ System.Guarded CommitsStored tr := by
  have hkeep : ∀ a label b, Apart a → CommitsStored a label →
      (publishingSystem teiid).step a label b → Apart b :=
    fun _ _ _ ha hguard hst => apart_next ha hguard hst
  have hbreak : ∀ a label b, Apart a → ¬CommitsStored a label →
      (publishingSystem teiid).step a label b → ¬NoCircularSource b :=
    fun _ _ _ _ hguard hst => circular_of_not_commitsStored hguard hst
  exact hrun.visited_iff_of_invariant (fun _ ha => noCircularSource_of_apart ha) hkeep hbreak
    (apart_started hs)

/-! ## An event before the id is stored -/

/-- One row is distinct from all others. -/
theorem distinct_dvRow : [{ type := .virtualization, name := "dv" }].Pairwise
    (Row.Distinct (.ascii fun _ => { schema := { name := "parsed" } })) :=
  List.pairwise_singleton _ _

/-- The virtualization `dv` is published; `event` is handled where the id `x` is not stored yet. -/
def publishingDv : Publishing (.ascii fun _ => { schema := { name := "parsed" } }) :=
  { pods := { table := ⟨[{ type := .virtualization, name := "dv" }], distinct_dvRow⟩ } }

/-- The event of the new connection is handled up to the registration of a data source. -/
def handleCreated : List PublishLabel :=
  [.buildSyndesisDataSource "x" "dv" "teiid", .addConnection 0] ++
    (List.range 7).map fun _ => .proceed 0 0 true

def afterLabels (labels : List PublishLabel) :
    Publishing (.ascii fun _ => { schema := { name := "parsed" } }) :=
  System.after next publishingDv labels

/-- A virtualization that was not published. -/
theorem started_publishingDv : started publishingDv := ⟨⟨rfl, rfl⟩, rfl, rfl⟩

/-- The same event after the id is stored. -/
theorem noCircularSource_iff_stored :
    (afterLabels [.executePOST "dv" "x", .storeSourceId 0, .buildSyndesisDataSource "x" "dv" "teiid",
      .addConnection 0]).NoCircularSource :=
  ((noCircularSource_iff started_publishingDv (System.run_after started next publishingDv
    [.executePOST "dv" "x", .storeSourceId 0, .buildSyndesisDataSource "x" "dv" "teiid",
      .addConnection 0])).mpr (by
      rintro ⟨a, label⟩ hstep
      have hlabel := System.label_mem_of_mem_stepsOf hstep
      simp only [List.mem_cons, List.not_mem_nil, or_false] at hlabel
      rcases hlabel with rfl | rfl | rfl | rfl <;> trivial)).1

/-- The event is handled between the POST and the transaction, and the connection becomes a source. -/
theorem event_before_store :
    ¬ ∀ (teiid : Teiid) (s t : Publishing teiid) (tr : List (Publishing teiid × PublishLabel)),
      started s → (publishingSystem teiid).Run s tr t → t.NoCircularSource := by
  intro h
  have hno := h _ publishingDv (afterLabels (.executePOST "dv" "x" :: handleCreated)) _
    started_publishingDv (System.run_after started next publishingDv _)
  have hschema : SharedTable.schemaRow "x" "dv_00000" ∈
      (afterLabels (.executePOST "dv" "x" :: handleCreated)).pods.table.rows := by decide
  exact (hno.1 "x" (by decide) "dv_00000").1 hschema

end Publishing

end TeiidSyndesis.OpenShift
