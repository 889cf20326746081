/-
# TeiidSyndesis.Server.TransactionReads — what an open transaction has read, whatever is committed meanwhile.

A transaction works on entities it has loaded, each in a state of the run, while the others commit.  What
it is about to write is what its request makes of those entities.  Both stay true under any commit, so
they hold of every open transaction of a run: the tables may have moved on from the entities, but a row
that still has the version of an entity is the entity.

Main results:
* `readView_of_mem`, `readVirtualization_of_find` — what is read off the tables is an entity;
* `MovedOn` and `ReadView.movedOn`, `ReadVirtualization.movedOn` — a commit of another transaction
  leaves it one;
* `prepared_of_begin`, `prepared_of_readNext` — the work of a transaction follows from what it read;
* `ready_of_next`, `ready_of_run` — both hold of every open transaction in every state of a run.
-/
import TeiidSyndesis.Library.Lists
import TeiidSyndesis.Server.RepeatedImport
import TeiidSyndesis.Server.RepeatedSave
import TeiidSyndesis.Server.VersionedSaves

namespace TeiidSyndesis.Server.Clients

open TeiidSyndesis.Library TeiidSyndesis.Model TeiidSyndesis.Repository

variable {κ : Type} [DecidableEq κ] {teiid : Teiid}

/-! ## Entities that were loaded -/

/-- The view was a row of the tables. -/
def ReadView (store : Store) (view : ViewDefinition) : Prop :=
  view.version.isSome ∧ (viewRows store).Remembered ViewDefinition.id rowVersion view

/-- The rows of the virtualizations; none of them goes. -/
def virtualizationRows (store : Store) : KeyedRows DataVirtualization Nat where
  rows := store.virtualizations
  drawn id := id ∈ store.virtualizations.map (·.id)

/-- A virtualization that was read in some state of the run: a row of its version is the entity. -/
def ReadVirtualization (store : Store) (dv : DataVirtualization) : Prop :=
  (virtualizationRows store).Remembered DataVirtualization.id DataVirtualization.version dv

/-- The primary key of the virtualizations. -/
def DistinctIds (store : Store) : Prop := (store.virtualizations.map (·.id)).Nodup

instance (store : Store) : Decidable (DistinctIds store) := inferInstanceAs (Decidable (List.Nodup _))

/-- Distinct ids make the rows of virtualizations a keyed table. -/
theorem wellKeyed_virtualizationRows {store : Store} (h : DistinctIds store) :
    (virtualizationRows store).WellKeyed DataVirtualization.id :=
  ⟨h, fun _ hrow => List.mem_map_of_mem hrow⟩

/-- The tables have moved on. -/
structure MovedOn (store store' : Store) : Prop where
  views : (viewRows store).Follows ViewDefinition.id rowVersion (viewRows store')
  virtualizations : (virtualizationRows store).Follows DataVirtualization.id DataVirtualization.version
    (virtualizationRows store')

/-- Tables that stay have moved on from themselves. -/
theorem MovedOn.refl (store : Store) : MovedOn store store :=
  ⟨.refl _ _ _, .refl _ _ _⟩

section

variable {store store' : Store} {view : ViewDefinition} {dv : DataVirtualization}

/-- A view that was read stays one that was read. -/
theorem ReadView.movedOn (h : ReadView store view) (hmoved : MovedOn store store') :
    ReadView store' view :=
  ⟨h.1, h.2.follows hmoved.views⟩

/-- A virtualization that was read stays one that was read. -/
theorem ReadVirtualization.movedOn (h : ReadVirtualization store dv) (hmoved : MovedOn store store') :
    ReadVirtualization store' dv :=
  h.follows hmoved.virtualizations

/-- A row is an entity of its own state. -/
theorem readView_of_mem {db : Database teiid} (hversions : Versioned db.store)
    (h : view ∈ db.store.views) : ReadView db.store view :=
  ⟨hversions view h, KeyedRows.remembered_of_mem (wellKeyed_viewRows db) h⟩

/-- A virtualization that is found by name is one that was read. -/
theorem readVirtualization_of_find (hids : DistinctIds store) {name : String}
    (h : store.findDataVirtualization name = some dv) : ReadVirtualization store dv :=
  KeyedRows.remembered_of_mem (wellKeyed_virtualizationRows hids) (List.mem_of_find?_eq_some h)

/-- A view whose row still has its version is that row. -/
theorem ReadView.mem (h : ReadView store view) (hcurrent : Work.viewIsCurrent store view = true) :
    view ∈ store.views := by
  unfold Work.viewIsCurrent at hcurrent
  rw [List.any_eq_true] at hcurrent
  obtain ⟨row, hrow, hsame⟩ := hcurrent
  obtain ⟨hid, hversion⟩ := of_decide_eq_true hsame
  have hrowVersion : rowVersion view = rowVersion row := by
    unfold rowVersion
    rw [hversion]
  rw [← h.2.eq_of_version hrow hid.symm hrowVersion]
  exact hrow

/-- An entity whose version is still current is the row itself. -/
theorem ReadVirtualization.mem (h : ReadVirtualization store dv)
    (hcurrent : Work.virtualizationIsCurrent store dv = true) : dv ∈ store.virtualizations := by
  unfold Work.virtualizationIsCurrent at hcurrent
  rw [List.any_eq_true] at hcurrent
  obtain ⟨row, hrow, hsame⟩ := hcurrent
  obtain ⟨hid, hversion⟩ := of_decide_eq_true hsame
  rw [← h.eq_of_version hrow hid.symm hversion.symm]
  exact hrow

end

/-! ## Work that follows from what was read -/

/-- Whether the virtualization is touched, how far the transaction has got with it, and what is left to
read. -/
inductive Touching (store : Store) (name : String) : Bool → Option DataVirtualization → Reads → Prop
  | untouched : Touching store name false none .none
  | unread : Touching store name true none (.virtualization name)
  | touched {dv : DataVirtualization} : ReadVirtualization store dv → dv.name = name →
      Touching store name true (some dv) .none

/-- The request is about the view, and is not behind it. -/
def Requests (teiid : Teiid) (restViewDefn viewDefn : ViewDefinition) : Prop :=
  match restViewDefn.id with
  | some id =>
      viewDefn.id = some id ∧ (restViewDefn.version.isSome → restViewDefn.version = viewDefn.version)
  | none =>
      viewDefn.dataVirtualizationName = restViewDefn.dataVirtualizationName ∧
        teiid.toUpperCase viewDefn.name = teiid.toUpperCase restViewDefn.name

/-- The work of an import that has gone through the names. -/
inductive ImportedNames (teiid : Teiid) (store : Store) (finder : SchemaFinder)
    (virtualization teiidSourceName : String) (s : Schema) (dv : DataVirtualization) :
    List String → Work → Prop
  | nil : ImportedNames teiid store finder virtualization teiidSourceName s dv [] { touched := some dv }
  | noTable {names : List String} {name : String} {work : Work} :
      ImportedNames teiid store finder virtualization teiidSourceName s dv names work →
      s.getTable teiid name = none →
      ImportedNames teiid store finder virtualization teiidSourceName s dv (names ++ [name]) work
  | changed {names : List String} {name : String} {work : Work} {t : Table} {row updated : ViewDefinition} :
      ImportedNames teiid store finder virtualization teiidSourceName s dv names work →
      s.getTable teiid name = some t → ReadView store row →
      row.dataVirtualizationName = virtualization → teiid.toUpperCase row.name = teiid.toUpperCase name →
      /- the query has returned the row it had returned before, or a later one -/
      ((work.managed row).1 = row ∨ rowVersion (work.managed row).1 < rowVersion row) →
      teiid.equalsIgnoreCase name (work.managed row).2.name = true →
      importedView teiid finder teiidSourceName t (cleared (work.managed row).2) = .ok updated →
      ImportedNames teiid store finder virtualization teiidSourceName s dv (names ++ [name])
        (work.change (work.managed row).1 updated)
  | made {names : List String} {name : String} {work : Work} {t : Table} {created : ViewDefinition} :
      ImportedNames teiid store finder virtualization teiidSourceName s dv names work →
      s.getTable teiid name = some t →
      importedView teiid finder teiidSourceName t
        { name := name, dataVirtualizationName := virtualization } = .ok created →
      ImportedNames teiid store finder virtualization teiidSourceName s dv (names ++ [name])
        { work with made := work.made ++ [(created, created)] }

/-- What an open transaction works on is what its request makes of entities it has loaded. -/
inductive Prepared (teiid : Teiid) (store : Store) : Request → Work → Reads → Prop
  | made {finder : SchemaFinder} {restViewDefn updated : ViewDefinition} {before : Store}
      {updateDv : Bool} {touched : Option DataVirtualization} {reads : Reads} :
      restViewDefn.id = none →
      updateView teiid finder
        (before.createViewDefiniton restViewDefn.dataVirtualizationName restViewDefn.name).2
        restViewDefn true = .ok (updated, updateDv) →
      Touching store updated.dataVirtualizationName updateDv touched reads →
      Prepared teiid store (.upsertViewEditorState finder restViewDefn)
        { made := [((before.createViewDefiniton restViewDefn.dataVirtualizationName
            restViewDefn.name).2, updated)], touched := touched } reads
  | loaded {finder : SchemaFinder} {restViewDefn viewDefn updated : ViewDefinition}
      {updateDv : Bool} {touched : Option DataVirtualization} {reads : Reads} :
      ReadView store viewDefn → Requests teiid restViewDefn viewDefn →
      restViewDefn.name = viewDefn.name →
      restViewDefn.dataVirtualizationName = viewDefn.dataVirtualizationName →
      updateView teiid finder viewDefn restViewDefn false = .ok (updated, updateDv) →
      Touching store updated.dataVirtualizationName updateDv touched reads →
      Prepared teiid store (.upsertViewEditorState finder restViewDefn)
        { loaded := [(viewDefn, updated)], touched := touched } reads
  | removed {id : Nat} {vd : ViewDefinition} {touched : Option DataVirtualization} {reads : Reads} :
      ReadView store vd → vd.id = some id →
      Touching store vd.dataVirtualizationName (vd.complete && vd.parsable) touched reads →
      Prepared teiid store (.removeViewDefinition id) { removed := [vd], touched := touched } reads
  | imported {finder : SchemaFinder} {virtualization teiidSourceName : String}
      {names left : List String} {s : Schema} {dv : DataVirtualization} {work : Work} {reads : Reads} :
      ReadVirtualization store dv → dv.name = virtualization →
      finder.findSchema teiidSourceName = .ok (some s) →
      ImportedNames teiid store finder virtualization teiidSourceName s dv names work →
      (reads = .tables s left ∨ reads = .none ∧ left = []) →
      Prepared teiid store (.importViews finder virtualization teiidSourceName (names ++ left)) work reads

section

variable {store store' : Store} {name : String} {updateDv : Bool} {touched : Option DataVirtualization}
  {reads : Reads} {finder : SchemaFinder} {virtualization teiidSourceName : String} {s : Schema}
  {dv : DataVirtualization} {names : List String} {work : Work} {request : Request}

/-- What has been touched follows from the reads, whatever is committed meanwhile. -/
theorem Touching.movedOn (h : Touching store name updateDv touched reads)
    (hmoved : MovedOn store store') : Touching store' name updateDv touched reads := by
  cases h with
  | untouched => exact .untouched
  | unread => exact .unread
  | touched hdv hname => exact .touched (hdv.movedOn hmoved) hname

/-- What is touched was read. -/
theorem Touching.readVirtualization (h : Touching store name updateDv touched reads) :
    ∀ dv ∈ touched, ReadVirtualization store dv := by
  intro dv hmem
  cases h with
  | untouched => exact absurd hmem (Option.not_mem_none dv)
  | unread => exact absurd hmem (Option.not_mem_none dv)
  | touched hdv _ =>
      obtain rfl := Option.some.inj hmem
      exact hdv

/-- What the loop of an import has made stays what its reads give. -/
theorem ImportedNames.movedOn
    (h : ImportedNames teiid store finder virtualization teiidSourceName s dv names work)
    (hmoved : MovedOn store store') :
    ImportedNames teiid store' finder virtualization teiidSourceName s dv names work := by
  induction h with
  | nil => exact .nil
  | noTable _ ht ih => exact .noTable ih ht
  | changed _ ht hrow hdv hupper hlater hcase himported ih =>
      exact .changed ih ht (hrow.movedOn hmoved) hdv hupper hlater hcase himported
  | made _ ht hcreated ih => exact .made ih ht hcreated

/-- An import touches its virtualization, and removes nothing. -/
theorem ImportedNames.touches
    (h : ImportedNames teiid store finder virtualization teiidSourceName s dv names work) :
    work.touched = some dv ∧ work.removed = [] := by
  induction h with
  | nil => exact ⟨rfl, rfl⟩
  | noTable _ _ ih => exact ih
  | changed _ _ _ _ _ _ _ _ ih => exact ih
  | made _ _ _ ih => exact ih

/-- The managed state of a row is the row, or what was made of it. -/
theorem managed_of_mem_loaded (work : Work) (row : ViewDefinition) :
    work.managed row = (row, row) ∨
      work.managed row ∈ work.loaded ∧ (work.managed row).1.id = row.id := by
  unfold Work.managed
  cases hfind : work.loaded.find? (·.1.id = row.id) with
  | none => exact .inl rfl
  | some pair => exact .inr ⟨List.mem_of_find?_eq_some hfind, by simpa using List.find?_some hfind⟩

/-- A change replaces the pair with its id, or is a new one. -/
theorem mem_loaded_change {pair : ViewDefinition × ViewDefinition} {viewDefn updated : ViewDefinition}
    (h : pair ∈ (work.change viewDefn updated).loaded) :
    pair ∈ work.loaded ∧ pair.1.id ≠ viewDefn.id ∨ pair = (viewDefn, updated) := by
  unfold Work.change at h
  rcases List.mem_append.mp h with hkept | hnew
  · obtain ⟨hmem, hid⟩ := List.mem_filter.mp hkept
    exact .inl ⟨hmem, of_decide_eq_true hid⟩
  · exact .inr (List.mem_singleton.mp hnew)

/-- Every view an import has loaded was read. -/
theorem ImportedNames.readViews
    (h : ImportedNames teiid store finder virtualization teiidSourceName s dv names work) :
    ∀ pair ∈ work.loaded, ReadView store pair.1 := by
  induction h with
  | nil => exact fun pair hpair => absurd hpair List.not_mem_nil
  | noTable _ _ ih => exact ih
  | @changed _ _ work _ row _ _ _ hrow _ _ _ _ _ ih =>
      intro pair hpair
      rcases mem_loaded_change hpair with ⟨hmem, _⟩ | rfl
      · exact ih pair hmem
      · rcases managed_of_mem_loaded work row with hself | ⟨hmem, _⟩
        · rw [hself]
          exact hrow
        · exact ih (work.managed row) hmem
  | made _ _ _ ih => exact ih

/-- The work of a transaction stays what its request makes of the reads. -/
theorem Prepared.movedOn (h : Prepared teiid store request work reads) (hmoved : MovedOn store store') :
    Prepared teiid store' request work reads := by
  cases h with
  | made hid hupdate htouching => exact .made hid hupdate (htouching.movedOn hmoved)
  | loaded hview hrequests hname hdv hupdate htouching =>
      exact .loaded (hview.movedOn hmoved) hrequests hname hdv hupdate (htouching.movedOn hmoved)
  | removed hview hid htouching => exact .removed (hview.movedOn hmoved) hid (htouching.movedOn hmoved)
  | imported hdv hname hschema hnames hreads =>
      exact .imported (hdv.movedOn hmoved) hname hschema (hnames.movedOn hmoved) hreads

/-- The virtualization that is touched was read. -/
theorem Prepared.readVirtualization (h : Prepared teiid store request work reads) :
    ∀ dv ∈ work.touched, ReadVirtualization store dv := by
  cases h with
  | made _ _ htouching => exact htouching.readVirtualization
  | loaded _ _ _ _ _ htouching => exact htouching.readVirtualization
  | removed _ _ htouching => exact htouching.readVirtualization
  | imported hdv _ _ hnames _ =>
      rw [hnames.touches.1]
      intro dv hmem
      obtain rfl := Option.some.inj hmem
      exact hdv

end

/-! ## What a step reads -/

section

variable {db : Database teiid} {request : Request} {work work' : Work} {reads reads' : Reads}

/-- A transaction that touches a virtualization is about to read it. -/
theorem touching_initial (store : Store) (name : String) (updateDv : Bool) :
    Touching store name updateDv none (if updateDv then .virtualization name else .none) := by
  cases updateDv with
  | false => exact .untouched
  | true => exact .unread

/-- A view that is found for a request is a row that answers to it. -/
theorem requests_of_findPersistent {restViewDefn viewDefn : ViewDefinition}
    (h : findPersistent teiid db.store restViewDefn = .ok (some viewDefn)) :
    viewDefn ∈ db.store.views ∧ Requests teiid restViewDefn viewDefn := by
  refine ⟨mem_of_findPersistent h, ?_⟩
  unfold findPersistent at h
  unfold Requests
  -- a request without an id names its view, one with an id may also tell its version
  cases hid : restViewDefn.id with
  | none =>
      rw [hid] at h
      exact (Store.row_of_findByNameIgnoreCase (Except.ok.inj h)).2
  | some id =>
      rw [hid] at h
      dsimp only at h ⊢
      split at h
      · cases h
      · rename_i found hfind
        split at h
        · cases h
        · rename_i hversion
          obtain rfl := Option.some.inj (Except.ok.inj h)
          refine ⟨key_of_find? hfind, ?_⟩
          intro hsome
          by_contra hne
          exact hversion (by simp [hsome, hne])

/-- A save that begins has read its view, and made of it what was requested. -/
theorem prepared_of_beginUpsert {finder : SchemaFinder} {restViewDefn : ViewDefinition}
    (hversions : Versioned db.store)
    (h : beginUpsert teiid finder db.store restViewDefn = .ok (work, reads)) :
    Prepared teiid db.store (.upsertViewEditorState finder restViewDefn) work reads := by
  unfold beginUpsert at h
  obtain ⟨found, hfound, hafter⟩ := bind_eq_ok.mp h
  obtain ⟨⟨base, viewDefn⟩, hload, hloaded⟩ := bind_eq_ok.mp hafter
  obtain ⟨⟨updated, updateDv⟩, hupdate, hwork⟩ := bind_eq_ok.mp hloaded
  clear h hafter hloaded
  cases found with
  | none =>
      cases hload
      cases pure_eq_ok.mp hwork
      exact .made (find?_of_new hfound).1 hupdate (touching_initial _ _ _)
  | some persistent =>
      obtain ⟨hmem, hrequests⟩ := requests_of_findPersistent hfound
      obtain ⟨rfl, rfl, hname, hdv⟩ := viewToUpdate_some hload
      cases pure_eq_ok.mp hwork
      exact .loaded (readView_of_mem hversions hmem) hrequests hname hdv hupdate (touching_initial _ _ _)

/-- Every transaction begins prepared: one case for each kind of request. -/
theorem prepared_of_begin (hversions : Versioned db.store) (hids : DistinctIds db.store)
    (h : begin teiid db.store request = .ok (work, reads)) :
    Prepared teiid db.store request work reads := by
  -- what each request reads first: the view, or the virtualization it imports into
  cases request with
  | upsertViewEditorState finder restViewDefn => exact prepared_of_beginUpsert hversions h
  | removeViewDefinition id =>
      unfold begin beginRemove at h
      dsimp only at h
      split at h
      · cases h
      · rename_i vd hfind
        cases h
        have hmem : vd ∈ db.store.views := List.mem_of_find?_eq_some hfind
        exact .removed (readView_of_mem hversions hmem) (key_of_find? hfind) (touching_initial _ _ _)
  | importViews finder virtualization teiidSourceName tables =>
      unfold begin beginImport at h
      dsimp only at h
      split at h
      · cases h
      · rename_i dv hdv
        obtain ⟨schema, hschema, hwork⟩ := bind_eq_ok.mp h
        clear h
        split at hwork
        · cases hwork
        · rename_i s
          cases pure_eq_ok.mp hwork
          have hnames : ImportedNames teiid db.store finder virtualization teiidSourceName s dv []
            { touched := some dv } := .nil
          exact .imported (readVirtualization_of_find hids hdv)
            (Store.name_of_findDataVirtualization hdv) hschema hnames (.inl rfl)

/-- The virtualization is read last. -/
theorem Touching.readNext {name : String} {updateDv : Bool} {touched : Option DataVirtualization}
    (hids : DistinctIds db.store) (h : Touching db.store name updateDv touched reads)
    (hwork : work.touched = touched)
    (hread : Clients.readNext teiid db.store request work reads = .ok (work', reads')) :
    ∃ touched', work' = { work with touched := touched' } ∧
      Touching db.store name updateDv touched' reads' := by
  cases h with
  | untouched =>
      cases hread
      exact ⟨none, by rw [← hwork], .untouched⟩
  | unread =>
      obtain ⟨dv, hfind, hwork', rfl⟩ := readNext_virtualization_eq_ok.mp hread
      exact ⟨some dv, hwork', .touched (readVirtualization_of_find hids hfind)
        (Store.name_of_findDataVirtualization hfind)⟩
  | @touched dv hdv hname =>
      cases hread
      exact ⟨some dv, by rw [← hwork], .touched hdv hname⟩

/-- One more name. -/
theorem ImportedNames.readTable {finder : SchemaFinder} {virtualization teiidSourceName name : String}
    {s : Schema} {dv : DataVirtualization} {names : List String} (hversions : Versioned db.store)
    (h : ImportedNames teiid db.store finder virtualization teiidSourceName s dv names work)
    (hread : Clients.readTable teiid finder virtualization teiidSourceName s name db.store work =
      .ok work') :
    ImportedNames teiid db.store finder virtualization teiidSourceName s dv (names ++ [name]) work' := by
  unfold Clients.readTable at hread
  split at hread
  · rename_i ht
    cases hread
    exact .noTable h ht
  · rename_i t ht
    split at hread
    · rename_i row hfind
      dsimp only at hread
      split at hread
      · cases hread
      · rename_i hcase
        have hcase : teiid.equalsIgnoreCase name (work.managed row).2.name = true := by simpa using hcase
        obtain ⟨updated, himported, hwork⟩ := bind_eq_ok.mp hread
        cases pure_eq_ok.mp hwork
        obtain ⟨hmem, hdv, hupper⟩ := Store.row_of_findByNameIgnoreCase hfind
        -- an entity read before stays managed, with the version it was read at
        have hlater : (work.managed row).1 = row ∨
            rowVersion (work.managed row).1 < rowVersion row := by
          rcases managed_of_mem_loaded work row with hself | ⟨hloaded, hid⟩
          · rw [hself]
            exact .inl rfl
          · rcases (h.readViews _ hloaded).2.eq_or_lt hmem hid with heq | hlt
            · exact .inl heq.symm
            · exact .inr hlt
        exact .changed h ht (readView_of_mem hversions hmem) hdv hupper hlater hcase himported
    · obtain ⟨created, hcreated, hwork⟩ := bind_eq_ok.mp hread
      cases pure_eq_ok.mp hwork
      exact .made h ht hcreated

/-- The next read of a transaction leaves it prepared. -/
theorem prepared_of_readNext (hversions : Versioned db.store) (hids : DistinctIds db.store)
    (h : Prepared teiid db.store request work reads)
    (hread : readNext teiid db.store request work reads = .ok (work', reads')) :
    Prepared teiid db.store request work' reads' := by
  -- an upsert or a removal reads the virtualization it touches, an import the next table
  cases h with
  | made hid hupdate htouching =>
      obtain ⟨touched', rfl, htouching'⟩ := htouching.readNext hids rfl hread
      exact .made hid hupdate htouching'
  | loaded hview hrequests hname hdv hupdate htouching =>
      obtain ⟨touched', rfl, htouching'⟩ := htouching.readNext hids rfl hread
      exact .loaded hview hrequests hname hdv hupdate htouching'
  | removed hview hid htouching =>
      obtain ⟨touched', rfl, htouching'⟩ := htouching.readNext hids rfl hread
      exact .removed hview hid htouching'
  | @imported finder virtualization teiidSourceName names left s dv _ _ hdv hname hschema hnames hreads =>
      -- tables are left, or the virtualization is all that is still to be read
      rcases hreads with rfl | ⟨rfl, rfl⟩
      · cases left with
        | nil =>
            cases hread
            exact .imported hdv hname hschema hnames (.inr ⟨rfl, rfl⟩)
        | cons name left =>
            obtain ⟨after, htable, hafter⟩ := bind_eq_ok.mp hread
            cases pure_eq_ok.mp hafter
            have hsplit : names ++ name :: left = (names ++ [name]) ++ left := by simp
            rw [hsplit]
            exact .imported hdv hname hschema (hnames.readTable hversions htable) (.inl rfl)
      · cases hread
        exact .imported hdv hname hschema hnames (.inr ⟨rfl, rfl⟩)

end

/-! ## Every open transaction of a run -/

/-- What holds of the clients between any two steps. -/
structure Ready (s : Clients κ teiid) : Prop where
  versions : Versioned s.db.store
  ids : DistinctIds s.db.store
  prepared : ∀ client request work reads, s.sessions client = .running request work reads →
    Prepared teiid s.db.store request work reads

omit [DecidableEq κ] in
/-- No transaction is open at the start. -/
theorem ready_of_initial {s : Clients κ teiid} (hs : Initial s) (hids : DistinctIds s.db.store) :
    Ready s := by
  refine ⟨hs.2, hids, ?_⟩
  intro client request work reads hsession
  rw [hs.1 client] at hsession
  cases hsession

/-- The session of one client changes. -/
theorem Ready.put {s : Clients κ teiid} (hs : Ready s) {client : κ} {session : Session}
    (hsession : ∀ request work reads, session = .running request work reads →
      Prepared teiid s.db.store request work reads) : Ready (s.put client session) := by
  refine ⟨hs.versions, hs.ids, ?_⟩
  intro other request work reads hother
  by_cases hsame : other = client
  · rw [hsame, sessions_put_self] at hother
    exact hsession request work reads hother
  · rw [sessions_put_of_ne s _ hsame] at hother
    exact hs.prepared other request work reads hother

/-- A row of a virtualization is touched. -/
theorem movedOn_touch {db : Database teiid} {store : Store} {dv : DataVirtualization}
    (hstore : store.virtualizations = db.store.virtualizations)
    (hdv : dv ∈ db.store.virtualizations) :
    (Work.touchVirtualization store (some dv)).virtualizations.map (·.id) =
        db.store.virtualizations.map (·.id) ∧
      (virtualizationRows db.store).Follows DataVirtualization.id DataVirtualization.version
        (virtualizationRows (Work.touchVirtualization store (some dv))) := by
  have hnames : (db.store.virtualizations.map DataVirtualization.name).Nodup :=
    (List.Nodup.of_map _ db.consistent.names).of_append_left
  have hname : dv.name = { dv with version := dv.version + 1 }.name := rfl
  -- names are distinct, so exactly one row is written, with the next version
  obtain ⟨front, back, htable, hwritten⟩ := writeRow_split hnames hdv hname
  have hrows : (Work.touchVirtualization store (some dv)).virtualizations =
      front ++ { dv with version := dv.version + 1 } :: back := by
    show writeRow DataVirtualization.name _ store.virtualizations = _
    rw [hstore, hwritten]
  have hids : (Work.touchVirtualization store (some dv)).virtualizations.map (·.id) =
      db.store.virtualizations.map (·.id) := by
    rw [hrows, htable, List.map_append, List.map_append, List.map_cons, List.map_cons]
  refine ⟨hids, ?_, ?_⟩
  · intro row hrow
    have hrow : row ∈ (Work.touchVirtualization store (some dv)).virtualizations := hrow
    rw [hrows] at hrow
    have hkept (hmem : row ∈ front ∨ row ∈ back) : row ∈ db.store.virtualizations := by
      rw [htable]
      simp only [List.mem_append, List.mem_cons]
      tauto
    rcases List.mem_append.mp hrow with hfront | hrest
    · exact .inl (hkept (.inl hfront))
    · rcases List.mem_cons.mp hrest with rfl | hback
      · exact .inr (.inl ⟨dv, hdv, rfl, Nat.lt_succ_self _⟩)
      · exact .inl (hkept (.inr hback))
  · intro id hid
    show id ∈ (Work.touchVirtualization store (some dv)).virtualizations.map (·.id)
    rw [hids]
    exact hid

/-- Before the touch a flush writes views only. -/
theorem virtualizations_flush (work : Work) (store : Store) :
    ∃ mid : Store, mid.virtualizations = store.virtualizations ∧
      work.flush store = Work.touchVirtualization mid work.touched := by
  refine ⟨_, ?_, rfl⟩
  let P (mid : Store) : Prop := mid.virtualizations = store.virtualizations
  have hstart : P store := rfl
  have hinsert (mid : Store) (pair : ViewDefinition × ViewDefinition) (hmid : P mid) :
      P (Work.insertView mid pair) := hmid
  have hmade : P (work.made.foldl Work.insertView store) := foldl_of_inv hinsert hstart
  have hloaded : P (work.loaded.foldl Work.flushView (work.made.foldl Work.insertView store)) := by
    refine foldl_of_inv (fun mid pair hmid => ?_) hmade
    unfold Work.flushView
    split
    · exact hmid
    · exact hmid
  have hdelete (mid : Store) (vd : ViewDefinition) (hmid : P mid) : P (Work.deleteView mid vd) := hmid
  exact foldl_of_inv hdelete hloaded

/-- A commit moves the tables on. -/
theorem movedOn_flush {db : Database teiid} {request : Request} {work : Work} {reads : Reads}
    (hversions : Versioned db.store) (hprepared : Prepared teiid db.store request work reads)
    (hcurrent : work.isCurrent db.store = true) :
    MovedOn db.store (work.flush db.store) ∧
      (work.flush db.store).virtualizations.map (·.id) = db.store.virtualizations.map (·.id) := by
  have hviews := (flushed_flush hversions hcurrent).follows
  obtain ⟨mid, hmid, hflush⟩ := virtualizations_flush work db.store
  -- the virtualizations change only where one is touched, and this one is current
  cases htouched : work.touched with
  | none =>
      have hsame : (work.flush db.store).virtualizations = db.store.virtualizations := by
        rw [hflush, htouched]
        exact hmid
      refine ⟨⟨hviews, ?_⟩, by rw [hsame]⟩
      unfold virtualizationRows
      rw [hsame]
      exact .refl _ _ _
  | some dv =>
      have hread := hprepared.readVirtualization dv htouched
      unfold Work.isCurrent at hcurrent
      rw [htouched, Bool.and_eq_true, Option.all_some] at hcurrent
      obtain ⟨hids, hfollows⟩ := movedOn_touch hmid (hread.mem hcurrent.2)
      rw [← htouched, ← hflush] at hids hfollows
      exact ⟨⟨hviews, hfollows⟩, hids⟩

/-- One step, of any client. -/
theorem ready_of_next {s t : Clients κ teiid} {label : Label κ} (hs : Ready s)
    (h : next s label = some t) : Ready t := by
  -- only a commit changes the tables, and what the other transactions have read moves on with it
  cases stepped_of_next h with
  | begun client request =>
      refine hs.put ?_
      intro request' work reads hopened
      obtain ⟨rfl, hbegin⟩ := opened_eq_running hopened
      exact prepared_of_begin hs.versions hs.ids hbegin
  | @read client request before todo hsession =>
      refine hs.put ?_
      intro request' work reads hopened
      obtain ⟨rfl, hread⟩ := opened_eq_running hopened
      exact prepared_of_readNext hs.versions hs.ids (hs.prepared client _ _ _ hsession) hread
  | @committed client request work db hsession hcommit =>
      obtain ⟨hcurrent, hstore⟩ := commitWork_eq_ok.mp hcommit
      obtain ⟨hmoved, hids⟩ := movedOn_flush hs.versions (hs.prepared client _ _ _ hsession) hcurrent
      rw [← hstore] at hmoved hids
      have hdb : Ready { s with db := db } := by
        refine ⟨?_, ?_, ?_⟩
        · rw [hstore]
          exact (flushed_flush hs.versions hcurrent).versioned
        · unfold DistinctIds
          rw [hids]
          exact hs.ids
        · intro other request' work' reads hother
          exact (hs.prepared other request' work' reads hother).movedOn hmoved
      refine hdb.put ?_
      rintro request' work' reads ⟨⟩
  | refused hsession hcommit =>
      refine hs.put ?_
      rintro request work reads ⟨⟩

/-- In any run, what an open transaction works on follows from what it has read. -/
theorem ready_of_run {s t : Clients κ teiid} {tr : List (Clients κ teiid × Label κ)}
    (hs : Ready s) (hrun : (system κ teiid).Run s tr t) : Ready t := by
  refine hrun.preserves_of_all ?_ hs
  intro before label after hbefore hstep
  exact ready_of_next hbefore hstep

end TeiidSyndesis.Server.Clients
