/-
# TeiidSyndesis.OpenShift.ConnectionBookkeeping — the connections of published virtualizations.

The end of a publish creates a connection in Syndesis for the virtualization and stores its id as the
source id of the row; the end of an unpublish deletes the connection.  A row that was loaded is changed
in the table only while the transaction that loaded it is open.  Publish and unpublish cycles are steps
here: each runs to its end before the next one begins.

Main results:
* `publish_cases`, `unpublish_cases` — what one cycle does;
* `owned_next` — what the tables always keep;
* `bookkept_next` — a cycle keeps the books exactly if it starts from what was unpublished;
* `bookkept_iff` — so of every run of cycles;
* `unpublish_leaves_sourceId` — and the id that is left behind.
-/
import TeiidSyndesis.Library.Transition
import TeiidSyndesis.Library.Results
import TeiidSyndesis.Repository.SharedTable

namespace TeiidSyndesis.OpenShift

open TeiidSyndesis.Library TeiidSyndesis.Model TeiidSyndesis.Repository

variable {teiid : Teiid}

/-! ## Cycles -/

/-- The connections in Syndesis, and the tables. -/
structure Bookkeeping (teiid : Teiid) where
  table : SharedTable teiid
  /-- the live connections the program has created, each with the virtualization it is for -/
  connections : List (String × String) := []
  /-- the virtualizations OpenShift has a JDBC service for -/
  services : List String := []

namespace Bookkeeping

/-- `createSyndesisConnection`; `id` is what Syndesis answers to the POST. -/
def createSyndesisConnection (s : Bookkeeping teiid) (virtualizationName id : String) :
    Except Failure (Bookkeeping teiid) :=
  if virtualizationName ∈ s.services then
    let s := { s with connections := s.connections ++ [(id, virtualizationName)] }
    match s.table.findDataVirtualization virtualizationName with
    | none => .ok s
    | some dv =>
        (s.table.setSourceId { row := dv, managed := true } (some id)).map fun table =>
          { s with table := table }
  else .ok s

/-- `removeSyndesisConnection`: the entity is changed after its transaction has ended. -/
def removeSyndesisConnection (s : Bookkeeping teiid) (virtualizationName : String) :
    Except Failure (Bookkeeping teiid) :=
  match s.table.findDataVirtualization virtualizationName with
  | none => .ok s
  | some dv =>
      let s := { s with connections := s.connections.filter fun c => some c.1 ≠ dv.sourceId }
      (s.table.setSourceId { row := dv, managed := false } none).map fun table =>
        { s with table := table }

/-- A publish or an unpublish, from beginning to end. -/
inductive Cycle
  /-- publish or re-publish, with the id of the connection that is created -/
  | publish (virtualizationName id : String)
  | unpublish (virtualizationName : String)
  deriving DecidableEq, Repr

/-- Syndesis has given the id to no other connection. -/
def Fresh (s : Bookkeeping teiid) (id : String) : Prop :=
  id ∉ s.connections.map (·.1) ∧ some id ∉ s.table.rows.map (·.sourceId)

instance (s : Bookkeeping teiid) (id : String) : Decidable (s.Fresh id) :=
  inferInstanceAs (Decidable (_ ∧ _))

/-- A cycle from its first step to its last, where nothing fails. -/
def next (s : Bookkeeping teiid) (cycle : Cycle) : Option (Bookkeeping teiid) :=
  match cycle with
  | .publish virtualizationName id =>
      if s.Fresh id then
        (createSyndesisConnection { s with services := s.services.insert virtualizationName }
          virtualizationName id).toOption
      else none
  | .unpublish virtualizationName =>
      (removeSyndesisConnection
        { s with services := s.services.filter (· ≠ virtualizationName) }
        virtualizationName).toOption

/-- A virtualization with a row, before anything was published. -/
structure Started (name : String) (s : Bookkeeping teiid) : Prop where
  stored : (s.table.findDataVirtualization name).isSome
  sourceIds : ∀ row ∈ s.table.rows, row.type = .virtualization → row.sourceId = none
  connections : s.connections = []
  services : s.services = []

def bookkeepingSystem (teiid : Teiid) (name : String) : System (Bookkeeping teiid) Cycle :=
  .ofNext (Started name) next

/-! ## What is kept -/

/-- The live connections created for the virtualization. -/
def live (s : Bookkeeping teiid) (name : String) : List String :=
  (s.connections.filter (·.2 = name)).map (·.1)

/-- The source id of the virtualization's row. -/
def sourceId (s : Bookkeeping teiid) (name : String) : Option String :=
  (s.table.findDataVirtualization name).bind (·.sourceId)

/-- A published virtualization has one connection, whose id is stored; one that is not published has
no connection, and no id is stored. -/
def Bookkept (name : String) (s : Bookkeeping teiid) : Prop :=
  if name ∈ s.services then ∃ id, s.sourceId name = some id ∧ s.live name = [id]
  else s.live name = [] ∧ s.sourceId name = none

/-- What no cycle changes: the virtualization has a row, and no row but its own holds the id of a
connection created for a virtualization. -/
structure Owned (name : String) (s : Bookkeeping teiid) : Prop where
  stored : (s.table.findDataVirtualization name).isSome
  owner : ∀ row ∈ s.table.rows, row.type = .virtualization → ∀ c ∈ s.connections,
    row.sourceId = some c.1 → row.name = c.2

/-- The cycle leaves the virtualization alone, or finds it unpublished. -/
def FromUnpublished (name : String) (s : Bookkeeping teiid) (cycle : Cycle) : Prop :=
  match cycle with
  | .publish virtualizationName _ => virtualizationName = name → name ∉ s.services
  | .unpublish virtualizationName => virtualizationName = name → name ∉ s.services

/-! ## One cycle -/

/-- What a publish cycle leaves. -/
theorem publish_cases {s t : Bookkeeping teiid} {virtualizationName id : String}
    (h : s.next (.publish virtualizationName id) = some t) :
    s.Fresh id ∧ t.services = s.services.insert virtualizationName ∧
      t.connections = s.connections ++ [(id, virtualizationName)] ∧
      ((s.table.findDataVirtualization virtualizationName = none ∧ t.table = s.table) ∨
        ∃ dv, s.table.findDataVirtualization virtualizationName = some dv ∧
          s.table.setSourceId { row := dv, managed := true } (some id) = .ok t.table) := by
  simp only [next] at h
  split at h
  case isFalse => cases h
  case isTrue hfresh =>
    have hservice : virtualizationName ∈ s.services.insert virtualizationName :=
      List.mem_insert_self
    rw [createSyndesisConnection, if_pos hservice] at h
    dsimp only at h
    refine ⟨hfresh, ?_⟩
    split at h
    · rename_i hnone
      cases h
      exact ⟨rfl, rfl, .inl ⟨hnone, rfl⟩⟩
    · rename_i dv hdv
      obtain ⟨table, hset, rfl⟩ := map_eq_ok.mp (toOption_eq_some.mp h)
      exact ⟨rfl, rfl, .inr ⟨dv, hdv, hset⟩⟩

/-- What an unpublish cycle leaves: the table is as it was. -/
theorem unpublish_cases {s t : Bookkeeping teiid} {virtualizationName : String}
    (h : s.next (.unpublish virtualizationName) = some t) :
    t.services = s.services.filter (· ≠ virtualizationName) ∧ t.table = s.table ∧
      ((s.table.findDataVirtualization virtualizationName = none ∧ t.connections = s.connections) ∨
        ∃ dv, s.table.findDataVirtualization virtualizationName = some dv ∧
          t.connections = s.connections.filter fun c => some c.1 ≠ dv.sourceId) := by
  simp only [next, removeSyndesisConnection] at h
  split at h
  · rename_i hnone
    cases h
    exact ⟨rfl, rfl, .inl ⟨hnone, rfl⟩⟩
  · rename_i dv hdv
    obtain ⟨table, hset, rfl⟩ := map_eq_ok.mp (toOption_eq_some.mp h)
    cases hset
    exact ⟨rfl, rfl, .inr ⟨dv, hdv, rfl⟩⟩

/-- A publish stores the id of its own connection. -/
theorem owned_publish {name : String} {s t : Bookkeeping teiid} {virtualizationName id : String}
    (hs : s.Owned name) (h : s.next (.publish virtualizationName id) = some t) : t.Owned name := by
  obtain ⟨⟨hconnection, hrow⟩, -, hconnections, htable⟩ := publish_cases h
  -- the id is new, so no row and no connection has it
  have hother : ∀ row ∈ s.table.rows, row.sourceId ≠ some id :=
    fun row hmem heq => hrow (heq ▸ List.mem_map_of_mem hmem)
  have hnew : ∀ c ∈ s.connections, c.1 ≠ id :=
    fun c hmem heq => hconnection (heq ▸ List.mem_map_of_mem hmem)
  rcases htable with ⟨-, htable⟩ | ⟨dv, hdv, hset⟩
  · refine ⟨by rw [htable]; exact hs.stored, ?_⟩
    rw [htable, hconnections]
    intro row hmem hvirtual c hc heq
    rcases List.mem_append.mp hc with hold | hlast
    · exact hs.owner row hmem hvirtual c hold heq
    · rw [List.mem_singleton.mp hlast] at heq
      exact absurd heq (hother row hmem)
  · constructor
    · rw [SharedTable.findDataVirtualization_setSourceId hset, Option.isSome_map]
      exact hs.stored
    · rw [SharedTable.rows_of_setSourceId hset, hconnections]
      obtain ⟨-, -, hname⟩ := SharedTable.mem_of_findDataVirtualization hdv
      intro row' hrow' hvirtual c hc heq
      obtain ⟨row, hmem, rfl⟩ := List.mem_map.mp hrow'
      unfold SharedTable.writeSourceId at heq hvirtual ⊢
      split at heq
      · -- the row of the virtualization, which holds the id of its new connection
        rename_i hsame
        rw [if_pos hsame, hsame]
        rcases List.mem_append.mp hc with hold | hlast
        · exact absurd (Option.some.inj heq).symm (hnew c hold)
        · rw [List.mem_singleton.mp hlast]
          exact hname
      · rename_i hne
        rw [if_neg hne] at hvirtual ⊢
        rcases List.mem_append.mp hc with hold | hlast
        · exact hs.owner row hmem hvirtual c hold heq
        · rw [List.mem_singleton.mp hlast] at heq
          exact absurd heq (hother row hmem)

/-- An unpublish stores nothing. -/
theorem owned_unpublish {name : String} {s t : Bookkeeping teiid} {virtualizationName : String}
    (hs : s.Owned name) (h : s.next (.unpublish virtualizationName) = some t) : t.Owned name := by
  obtain ⟨-, htable, hconnections⟩ := unpublish_cases h
  have hsub : ∀ c ∈ t.connections, c ∈ s.connections := by
    rcases hconnections with ⟨-, hsame⟩ | ⟨dv, -, hfilter⟩
    · rw [hsame]
      exact fun c hc => hc
    · rw [hfilter]
      exact fun c hc => List.mem_of_mem_filter hc
  refine ⟨by rw [htable]; exact hs.stored, ?_⟩
  rw [htable]
  intro row hmem hvirtual c hc heq
  exact hs.owner row hmem hvirtual c (hsub c hc) heq

/-- Every cycle keeps what is said of stored ids and their connections. -/
theorem owned_next {name : String} {s t : Bookkeeping teiid} {cycle : Cycle} (hs : s.Owned name)
    (h : s.next cycle = some t) : t.Owned name := by
  cases cycle with
  | publish virtualizationName id => exact owned_publish hs h
  | unpublish virtualizationName => exact owned_unpublish hs h

/-- The connections of a virtualization, after one was created. -/
theorem live_append (s : Bookkeeping teiid) (name id virtualizationName : String) :
    ((s.connections ++ [(id, virtualizationName)]).filter (·.2 = name)).map (·.1) =
      s.live name ++ if virtualizationName = name then [id] else [] := by
  unfold live
  rw [List.filter_append, List.map_append]
  by_cases hname : virtualizationName = name
  · simp [hname]
  · simp [hname]

/-- The source id a publish cycle leaves. -/
theorem sourceId_publish {name : String} {s t : Bookkeeping teiid} {virtualizationName id : String}
    (hs : s.Owned name) (h : s.next (.publish virtualizationName id) = some t) :
    t.sourceId name = if virtualizationName = name then some id else s.sourceId name := by
  obtain ⟨-, -, -, htable⟩ := publish_cases h
  obtain ⟨row, hrow⟩ := Option.isSome_iff_exists.mp hs.stored
  unfold sourceId
  rcases htable with ⟨hnone, htable⟩ | ⟨dv, hdv, hset⟩
  · have hne : virtualizationName ≠ name := by
      rintro rfl
      rw [hrow] at hnone
      cases hnone
    rw [htable, if_neg hne]
  · rw [SharedTable.findDataVirtualization_setSourceId hset, hrow]
    by_cases hname : virtualizationName = name
    · subst hname
      obtain rfl : dv = row := Option.some.inj (hdv.symm.trans hrow)
      simp [SharedTable.writeSourceId]
    · have hne : row ≠ dv := by
        rintro rfl
        obtain ⟨-, -, hnamed⟩ := SharedTable.mem_of_findDataVirtualization hdv
        obtain ⟨-, -, hnamed'⟩ := SharedTable.mem_of_findDataVirtualization hrow
        exact hname (hnamed.symm.trans hnamed')
      simp [SharedTable.writeSourceId, hname, hne]

/-- A publish cycle keeps the books exactly if it finds the virtualization unpublished. -/
theorem bookkept_publish {name : String} {s t : Bookkeeping teiid} {virtualizationName id : String}
    (hs : s.Owned name) (hkept : s.Bookkept name)
    (h : s.next (.publish virtualizationName id) = some t) :
    t.Bookkept name ↔ (virtualizationName = name → name ∉ s.services) := by
  obtain ⟨-, hservices, hconnections, -⟩ := publish_cases h
  have hsource := sourceId_publish hs h
  have hlive : t.live name = s.live name ++ if virtualizationName = name then [id] else [] := by
    rw [← live_append, ← hconnections]
    rfl
  unfold Bookkept at hkept ⊢
  simp only [hservices, hsource, hlive, List.mem_insert_iff]
  by_cases hname : virtualizationName = name
  · subst hname
    simp only [if_true, true_or, true_imp_iff, Option.some.injEq]
    split at hkept
    · rename_i hpublished
      obtain ⟨old, -, hlive⟩ := hkept
      simp [hlive, hpublished]
    · rename_i hunpublished
      simp [hkept.1, hunpublished]
  · simp only [if_neg hname, Ne.symm hname, false_or, List.append_nil]
    exact iff_of_true hkept fun heq => absurd heq hname

/-- An unpublish cycle keeps the books exactly if it finds the virtualization unpublished, since it
leaves the stored id. -/
theorem bookkept_unpublish {name : String} {s t : Bookkeeping teiid} {virtualizationName : String}
    (hs : s.Owned name) (hkept : s.Bookkept name)
    (h : s.next (.unpublish virtualizationName) = some t) :
    t.Bookkept name ↔ (virtualizationName = name → name ∉ s.services) := by
  obtain ⟨hservices, htable, hconnections⟩ := unpublish_cases h
  have hsource : t.sourceId name = s.sourceId name := by
    unfold sourceId
    rw [htable]
  unfold Bookkept at hkept ⊢
  rw [hservices, hsource]
  -- the cycle of the virtualization itself, and that of another
  by_cases hname : virtualizationName = name
  · subst hname
    have hgone : virtualizationName ∉ s.services.filter (· ≠ virtualizationName) := by simp
    rw [if_neg hgone]
    split at hkept
    · -- the id that was stored at the publish is still there
      rename_i hpublished
      obtain ⟨id, hid, -⟩ := hkept
      rw [hid]
      simp [hpublished]
    · rename_i hunpublished
      obtain ⟨hlive, hnone⟩ := hkept
      -- a deletion creates no connection
      have hstill : t.live virtualizationName = [] := by
        rcases hconnections with ⟨-, hsame⟩ | ⟨dv, -, hfilter⟩
        · unfold live
          rw [hsame]
          exact hlive
        · unfold live at hlive ⊢
          rw [hfilter]
          rw [List.map_eq_nil_iff, List.filter_eq_nil_iff] at hlive ⊢
          exact fun c hc => hlive c (List.mem_of_mem_filter hc)
      exact iff_of_true ⟨hstill, hnone⟩ fun _ => hunpublished
  · have hservice : name ∈ s.services.filter (· ≠ virtualizationName) ↔ name ∈ s.services := by
      simp [List.mem_filter, Ne.symm hname]
    have hlive : t.live name = s.live name := by
      rcases hconnections with ⟨-, hsame⟩ | ⟨dv, hdv, hfilter⟩
      · unfold live
        rw [hsame]
      · obtain ⟨hmem, hvirtual, hnamed⟩ := SharedTable.mem_of_findDataVirtualization hdv
        unfold live
        rw [hfilter, List.filter_filter]
        congr 1
        refine List.filter_congr fun c hc => ?_
        by_cases hc2 : c.2 = name
        · -- the id that is deleted belongs to a connection of the other virtualization
          have hne : some c.1 ≠ dv.sourceId := by
            intro heq
            have howner := hs.owner dv hmem hvirtual c hc heq.symm
            exact hname (hnamed.symm.trans (howner.trans hc2))
          simp [hc2, hne]
        · simp [hc2]
    simp only [hservice, hlive]
    exact iff_of_true hkept fun heq => absurd heq hname

/-- The condition on a cycle is exact. -/
theorem bookkept_next {name : String} {s t : Bookkeeping teiid} {cycle : Cycle}
    (hs : s.Owned name) (hkept : s.Bookkept name) (h : s.next cycle = some t) :
    t.Bookkept name ↔ s.FromUnpublished name cycle := by
  cases cycle with
  | publish virtualizationName id => exact bookkept_publish hs hkept h
  | unpublish virtualizationName => exact bookkept_unpublish hs hkept h

/-! ## Runs of cycles -/

/-- At the start nothing was published. -/
theorem owned_started {name : String} {s : Bookkeeping teiid} (h : s.Started name) :
    s.Owned name := by
  refine ⟨h.stored, ?_⟩
  rw [h.connections]
  intro row _ _ c hc
  cases hc

/-- The books are kept where nothing was published. -/
theorem bookkept_started {name : String} {s : Bookkeeping teiid} (h : s.Started name) :
    s.Bookkept name := by
  obtain ⟨row, hrow⟩ := Option.isSome_iff_exists.mp h.stored
  obtain ⟨hmem, hvirtual, -⟩ := SharedTable.mem_of_findDataVirtualization hrow
  have hpublished : name ∉ s.services := by
    rw [h.services]
    exact List.not_mem_nil
  unfold Bookkept
  rw [if_neg hpublished]
  constructor
  · unfold live
    rw [h.connections]
    rfl
  · rw [sourceId, hrow]
    exact h.sourceIds row hmem hvirtual

/-- The books are kept after every cycle of a run exactly if each cycle finds the virtualization
unpublished: it is published once, and nothing follows. -/
theorem bookkept_iff {name : String} {s t : Bookkeeping teiid}
    {tr : List (Bookkeeping teiid × Cycle)} (hs : s.Started name)
    (hrun : (bookkeepingSystem teiid name).Run s tr t) :
    (t.Bookkept name ∧ ∀ x ∈ tr, x.1.Bookkept name) ↔
      System.Guarded (FromUnpublished name) tr := by
  have haux : ∀ a cycle b, a.Owned name → (bookkeepingSystem teiid name).step a cycle b →
      b.Owned name :=
    fun _ _ _ ha hst => owned_next ha hst
  have hstep : ∀ a cycle b, a.Owned name → a.Bookkept name →
      (bookkeepingSystem teiid name).step a cycle b →
        (b.Bookkept name ↔ a.FromUnpublished name cycle) :=
    fun _ _ _ ha hkept hst => bookkept_next ha hkept hst
  exact hrun.visited_iff haux hstep (owned_started hs) (bookkept_started hs)

/-- The virtualization `dv` before it is published. -/
def unpublished : Bookkeeping (.ascii fun _ => { schema := { name := "parsed" } }) :=
  { table := ⟨[{ type := .virtualization, name := "dv" }], List.pairwise_singleton _ _⟩ }

/-- A virtualization that was never published. -/
theorem started_unpublished : unpublished.Started "dv" where
  stored := rfl
  sourceIds := by decide
  connections := rfl
  services := rfl

def afterCycles (cycles : List Cycle) :
    Bookkeeping (.ascii fun _ => { schema := { name := "parsed" } }) :=
  System.after next unpublished cycles

theorem bookkept_iff_published : (afterCycles [.publish "dv" "c1"]).Bookkept "dv" :=
  ((bookkept_iff started_unpublished
    (System.run_after (Started "dv") next unpublished [.publish "dv" "c1"])).mpr (by
      intro x hx
      rw [List.mem_singleton.mp hx]
      exact fun _ => List.not_mem_nil)).1

/-- After a publish and an unpublish the id of the deleted connection is still stored. -/
theorem unpublish_leaves_sourceId :
    ¬ ∀ (teiid : Teiid) (name : String) (s t : Bookkeeping teiid)
      (tr : List (Bookkeeping teiid × Cycle)), s.Started name →
        (bookkeepingSystem teiid name).Run s tr t → t.Bookkept name := by
  intro h
  have hkept := h _ "dv" unpublished (afterCycles [.publish "dv" "c1", .unpublish "dv"]) _
    started_unpublished (System.run_after (Started "dv") next unpublished _)
  have hservices : "dv" ∉ (afterCycles [.publish "dv" "c1", .unpublish "dv"]).services := by decide
  rw [Bookkept, if_neg hservices] at hkept
  exact absurd hkept.2 (by decide)

end Bookkeeping

end TeiidSyndesis.OpenShift
