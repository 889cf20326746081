/-
# TeiidSyndesis.Server.RepeatedImport — imports that name a table more than once.

A table whose view is there is imported into that view, so naming it again, now or in another import,
finds the view as it is to be and changes nothing.  A table without a view has one collected for each
time it is named, and the new views are saved only after the loop: two of one name violate the
constraint on view names.

Main results:
* `fromTable_of_importedView`, `importedView_of_fromTable` — what an import makes of a view, and that
  making it once more changes nothing;
* `looped_of_importTables` — the invariant of the loop: what was met is settled, what is new collected;
* `importTables_settled`, `importTables_met`, `importTables_unseen` — a name that is met again;
* `importTables_isOk_iff` — which loops succeed.
-/
import TeiidSyndesis.Library.FirstOccurrences
import TeiidSyndesis.Server.DataVirtualizationService

namespace TeiidSyndesis.Server

open TeiidSyndesis.Library TeiidSyndesis.Model TeiidSyndesis.Repository

/-! ## What the import makes of a table -/

/-- The DDL that is generated for a view over a table. -/
def tableDdl (teiid : Teiid) (finder : SchemaFinder) (virtualization teiidSourceName viewName : String)
    (t : Table) : Except Failure (Option String) :=
  getODataViewDdl teiid finder
    { name := viewName, dataVirtualizationName := virtualization, complete := true
      sourcePaths := [teiid.fullyQualifiedName teiidSourceName t.name] }

/-- The view is what an import makes of the table. -/
structure FromTable (teiid : Teiid) (finder : SchemaFinder) (virtualization teiidSourceName : String)
    (t : Table) (view : ViewDefinition) : Prop where
  dataVirtualizationName : view.dataVirtualizationName = virtualization
  complete : view.complete = true
  userDefined : view.userDefined = false
  parsable : view.parsable = true
  description : view.description = none
  sourcePaths : view.sourcePaths = [teiid.fullyQualifiedName teiidSourceName t.name]
  /-- the text generated for the path -/
  ddl : tableDdl teiid finder virtualization teiidSourceName view.name t = .ok view.ddl

/-- The identifier and the names of a view. -/
def viewKey (view : ViewDefinition) : Option Nat × String × String :=
  (view.id, view.name, view.dataVirtualizationName)

/-- A flush keeps the key of a view. -/
theorem viewKey_flushed (old view : ViewDefinition) :
    viewKey (Store.flushed old view) = viewKey view := by
  rcases Store.flushed_eq_or old view with heq | heq
  · rw [heq]
  · rw [heq]
    rfl

section Tables

variable {teiid : Teiid} {finder : SchemaFinder} {virtualization teiidSourceName : String} {t : Table}
  {viewDefn imported view : ViewDefinition}

/-- A view as the loop hands it on. -/
def cleared (viewDefn : ViewDefinition) : ViewDefinition :=
  { viewDefn with sourcePaths := [], userDefined := false, ddl := none, description := none }

/-- A view that is imported into says what its table says, and keeps its key. -/
theorem fromTable_of_importedView (hdv : viewDefn.dataVirtualizationName = virtualization)
    (h : importedView teiid finder teiidSourceName t (cleared viewDefn) = .ok imported) :
    FromTable teiid finder virtualization teiidSourceName t imported ∧
      viewKey imported = viewKey viewDefn := by
  obtain ⟨ddl, hddl, hresult⟩ := bind_eq_ok.mp h
  cases pure_eq_ok.mp hresult
  exact ⟨⟨hdv, rfl, rfl, rfl, rfl, rfl, hddl⟩, rfl⟩

/-- A view that is created for its table says what the table says. -/
theorem fromTable_of_created {name : String}
    (h : importedView teiid finder teiidSourceName t
      { name := name, dataVirtualizationName := virtualization } = .ok view) :
    FromTable teiid finder virtualization teiidSourceName t view ∧ view.name = name := by
  obtain ⟨ddl, hddl, hresult⟩ := bind_eq_ok.mp h
  cases pure_eq_ok.mp hresult
  exact ⟨⟨rfl, rfl, rfl, rfl, rfl, rfl, hddl⟩, rfl⟩

/-- A view that has been imported is imported as it is. -/
theorem importedView_of_fromTable
    (h : FromTable teiid finder virtualization teiidSourceName t view) :
    importedView teiid finder teiidSourceName t (cleared view) = .ok view := by
  refine bind_eq_ok.mpr ⟨view.ddl, h.ddl, pure_eq_ok.mpr ?_⟩
  obtain ⟨hdv, hcomplete, huser, hparsable, hdescription, hpaths, _⟩ := h
  obtain ⟨id, name, dvName, ddl, description, complete, userDefined, parsable, paths, version⟩ := view
  simp only [cleared, ViewDefinition.mk.injEq, true_and, and_true, List.nil_append]
  exact ⟨hdescription.symm, hcomplete.symm, huser.symm, hparsable.symm, hpaths.symm⟩

/-- The version does not matter to it. -/
theorem fromTable_flushed (old : ViewDefinition)
    (h : FromTable teiid finder virtualization teiidSourceName t view) :
    FromTable teiid finder virtualization teiidSourceName t (Store.flushed old view) := by
  rcases Store.flushed_eq_or old view with heq | heq
  · rw [heq]
    exact h
  · rw [heq]
    exact ⟨h.dataVirtualizationName, h.complete, h.userDefined, h.parsable, h.description,
      h.sourcePaths, h.ddl⟩

end Tables

/-! ## Stores that differ in what their views hold -/

/-- The stores agree on everything but the content of views. -/
structure SameKeys (store store' : Store) : Prop where
  views : store'.views.map viewKey = store.views.map viewKey
  virtualizations : store'.virtualizations = store.virtualizations
  schemas : store'.schemas = store.schemas
  nextId : store'.nextId = store.nextId

/-- Tables have their own keys. -/
theorem SameKeys.refl (store : Store) : SameKeys store store := ⟨rfl, rfl, rfl, rfl⟩

/-- Keys that stay twice stay. -/
theorem SameKeys.trans {a b c : Store} (h : SameKeys a b) (h' : SameKeys b c) : SameKeys a c :=
  ⟨h'.views.trans h.views, h'.virtualizations.trans h.virtualizations, h'.schemas.trans h.schemas,
    h'.nextId.trans h.nextId⟩

/-- Views with the same keys have the same ids. -/
theorem SameKeys.ids {store store' : Store} (h : SameKeys store store') :
    store'.views.map (·.id) = store.views.map (·.id) := by
  have hmap := congrArg (List.map Prod.fst) h.views
  rwa [List.map_map, List.map_map] at hmap

/-- Writing a view under its key keeps all keys. -/
theorem sameKeys_write {store : Store} {row old : ViewDefinition}
    (hids : (store.views.map (·.id)).Nodup) (hold : old ∈ store.views) (hkey : viewKey row = viewKey old) :
    SameKeys store (store.writeViewDefinition row) := by
  have hid : old.id = row.id := (congrArg Prod.fst hkey).symm
  obtain ⟨front, back, hviews, hwritten⟩ := writeRow_split hids hold hid
  refine ⟨?_, rfl, rfl, rfl⟩
  show (writeRow ViewDefinition.id row store.views).map viewKey = _
  rw [hwritten, hviews, List.map_append, List.map_append, List.map_cons, List.map_cons, hkey]

section Find

variable {teiid : Teiid} {virtualization name : String} {store store' : Store}

/-- A look-up finds the written view where it found the old one. -/
theorem find_write {row old : ViewDefinition} (hids : (store.views.map (·.id)).Nodup)
    (hold : old ∈ store.views) (hkey : viewKey row = viewKey old) :
    (store.writeViewDefinition row).findViewDefinitionByNameIgnoreCase teiid virtualization name =
      (store.findViewDefinitionByNameIgnoreCase teiid virtualization name).map fun other =>
        if other.id = row.id then row else other := by
  obtain ⟨hid, hnames⟩ := Prod.mk.inj hkey
  obtain ⟨hname, hdv⟩ := Prod.mk.inj hnames
  exact find?_writeRow_map hids hold hid.symm (by rw [hname, hdv])

/-- Which view is found by a name depends on the keys of the views. -/
theorem find_viewKey_congr (h : SameKeys store store') :
    (store'.findViewDefinitionByNameIgnoreCase teiid virtualization name).map viewKey =
      (store.findViewDefinitionByNameIgnoreCase teiid virtualization name).map viewKey := by
  have hfind (store : Store) :
      (store.findViewDefinitionByNameIgnoreCase teiid virtualization name).map viewKey =
        (store.views.map viewKey).find? fun key =>
          key.2.2 = virtualization ∧ teiid.toUpperCase key.2.1 = teiid.toUpperCase name := by
    rw [List.find?_map]
    rfl
  rw [hfind, hfind, h.views]

/-- Which names have a view depends on the keys alone. -/
theorem find_isNone_congr (h : SameKeys store store') :
    (store'.findViewDefinitionByNameIgnoreCase teiid virtualization name).isNone =
      (store.findViewDefinitionByNameIgnoreCase teiid virtualization name).isNone := by
  have hkeys := congrArg Option.isNone (@find_viewKey_congr teiid virtualization name _ _ h)
  rwa [Option.isNone_map, Option.isNone_map] at hkeys

/-- A look-up by name depends on the upper case of the name only. -/
theorem find_upperCase {name' : String} (h : teiid.toUpperCase name = teiid.toUpperCase name') :
    store.findViewDefinitionByNameIgnoreCase teiid virtualization name =
      store.findViewDefinitionByNameIgnoreCase teiid virtualization name' := by
  unfold Store.findViewDefinitionByNameIgnoreCase
  rw [h]

end Find

/-! ## The loop -/

section Loop

variable {teiid : Teiid} {finder : SchemaFinder} {virtualization teiidSourceName : String} {s : Schema}

/-- A table of the schema that has no view yet. -/
def isNewView (teiid : Teiid) (virtualization : String) (s : Schema) (store : Store)
    (name : String) : Bool :=
  (s.getTable teiid name).isSome &&
    (store.findViewDefinitionByNameIgnoreCase teiid virtualization name).isNone

/-- Which names are new depends on the keys alone. -/
theorem isNewView_congr {store store' : Store} (h : SameKeys store store') :
    isNewView teiid virtualization s store' = isNewView teiid virtualization s store := by
  funext name
  unfold isNewView
  rw [find_isNone_congr h]

/-- The views there are for the names are what an import makes of their tables. -/
def Settled (teiid : Teiid) (finder : SchemaFinder) (virtualization teiidSourceName : String)
    (s : Schema) (store : Store) (names : List String) : Prop :=
  ∀ name ∈ names, ∀ t, s.getTable teiid name = some t → ∀ view,
    store.findViewDefinitionByNameIgnoreCase teiid virtualization name = some view →
      FromTable teiid finder virtualization teiidSourceName t view ∧
        teiid.equalsIgnoreCase name view.name = true

/-- A table is found under its name in any case. -/
def IgnoresCase (teiid : Teiid) (s : Schema) (tables : List String) : Prop :=
  ∀ a ∈ tables, ∀ b ∈ tables, teiid.toUpperCase a = teiid.toUpperCase b →
    s.getTable teiid a = s.getTable teiid b

instance (teiid : Teiid) (s : Schema) (tables : List String) : Decidable (IgnoresCase teiid s tables) :=
  inferInstanceAs (Decidable (∀ a ∈ tables, ∀ b ∈ tables,
    teiid.toUpperCase a = teiid.toUpperCase b → s.getTable teiid a = s.getTable teiid b))

variable {tables names done : List String} {name : String} {t : Table} {store : Store}
  {viewDefn imported : ViewDefinition}

/-- No table is settled at the start. -/
theorem settled_nil (store : Store) :
    Settled teiid finder virtualization teiidSourceName s store [] := nofun

/-- The step of the loop that changes a view. -/
theorem settled_write (hlookup : IgnoresCase teiid s tables) (hids : (store.views.map (·.id)).Nodup)
    (hdone : ∀ n ∈ done, n ∈ tables) (hname : name ∈ tables) (ht : s.getTable teiid name = some t)
    (hfind : store.findViewDefinitionByNameIgnoreCase teiid virtualization name = some viewDefn)
    (hcase : teiid.equalsIgnoreCase name viewDefn.name = true)
    (himported : importedView teiid finder teiidSourceName t (cleared viewDefn) = .ok imported)
    (hs : Settled teiid finder virtualization teiidSourceName s store done) :
    SameKeys store (store.writeViewDefinition (Store.flushed viewDefn imported)) ∧
      Settled teiid finder virtualization teiidSourceName s
        (store.writeViewDefinition (Store.flushed viewDefn imported)) (name :: done) := by
  obtain ⟨hmem, hdv, hupper⟩ := Store.row_of_findByNameIgnoreCase hfind
  obtain ⟨hfrom, himportedKey⟩ := fromTable_of_importedView hdv himported
  have hrow := fromTable_flushed viewDefn hfrom
  have hkey := (viewKey_flushed viewDefn imported).trans himportedKey
  refine ⟨sameKeys_write hids hmem hkey, ?_⟩
  intro n hn t' ht' view hview
  rw [find_write hids hmem hkey] at hview
  obtain ⟨old, hold, hview⟩ := Option.map_eq_some_iff.mp hview
  obtain ⟨holdMem, _, holdUpper⟩ := Store.row_of_findByNameIgnoreCase hold
  obtain ⟨hid, hnames⟩ := Prod.mk.inj hkey
  by_cases hsame : old.id = (Store.flushed viewDefn imported).id
  · -- the row that was written is also the view of this name
    rw [if_pos hsame] at hview
    obtain rfl : old = viewDefn := List.inj_on_of_nodup_map hids holdMem hmem (hsame.trans hid)
    have hn' : n ∈ tables := by
      rcases List.mem_cons.mp hn with rfl | hn
      · exact hname
      · exact hdone n hn
    have htable := hlookup n hn' name hname (holdUpper.symm.trans hupper)
    rw [ht, ht'] at htable
    obtain rfl := Option.some.inj htable
    rw [← hview, (Prod.mk.inj hnames).1]
    refine ⟨hrow, ?_⟩
    rcases List.mem_cons.mp hn with rfl | hn
    · exact hcase
    · exact (hs n hn t' ht' old hold).2
  -- another row: it is not the view of the name met now, and was settled before
  · rw [if_neg hsame] at hview
    rw [← hview]
    rcases List.mem_cons.mp hn with rfl | hn
    · rw [hfind] at hold
      obtain rfl := Option.some.inj hold
      exact absurd hid.symm hsame
    · exact hs n hn t' ht' old hold

/-- What holds when the loop has gone through the names. -/
structure Looped (teiid : Teiid) (finder : SchemaFinder) (virtualization teiidSourceName : String)
    (s : Schema) (names done : List String) (store store' : Store) (new : List ViewDefinition) :
    Prop where
  keys : SameKeys store store'
  settled : Settled teiid finder virtualization teiidSourceName s store' (names ++ done)
  newNames : new.map (·.name) = names.filter (isNewView teiid virtualization s store)
  newViews : ∀ view ∈ new, ∃ t, s.getTable teiid view.name = some t ∧
    FromTable teiid finder virtualization teiidSourceName t view

/-- A name that is passed over, or whose view is changed. -/
theorem Looped.step {mid store' : Store} {new : List ViewDefinition} (hkeys : SameKeys store mid)
    (hold : isNewView teiid virtualization s store name = false)
    (h : Looped teiid finder virtualization teiidSourceName s names (name :: done) mid store' new) :
    Looped teiid finder virtualization teiidSourceName s (name :: names) done store store' new where
  keys := hkeys.trans h.keys
  settled := fun n hn => h.settled n (by simpa [or_left_comm] using hn)
  newNames := by
    rw [List.filter_cons_of_neg (by simp [hold]), ← isNewView_congr hkeys]
    exact h.newNames
  newViews := h.newViews

/-- A name for which a view is collected. -/
theorem Looped.collect {store' : Store} {created : ViewDefinition} {new : List ViewDefinition}
    (hnew : isNewView teiid virtualization s store name = true) (hname : created.name = name)
    (hcreated : ∃ t, s.getTable teiid created.name = some t ∧
      FromTable teiid finder virtualization teiidSourceName t created)
    (h : Looped teiid finder virtualization teiidSourceName s names (name :: done) store store' new) :
    Looped teiid finder virtualization teiidSourceName s (name :: names) done store store'
      (created :: new) where
  keys := h.keys
  settled := fun n hn => h.settled n (by simpa [or_left_comm] using hn)
  newNames := by
    rw [List.filter_cons_of_pos hnew, List.map_cons, hname, h.newNames]
  newViews := List.forall_mem_cons.mpr ⟨hcreated, h.newViews⟩

/-- A name without a view does not unsettle the others. -/
theorem settled_cons_of_none
    (hnone : ∀ t, s.getTable teiid name = some t →
      store.findViewDefinitionByNameIgnoreCase teiid virtualization name = none)
    (hs : Settled teiid finder virtualization teiidSourceName s store done) :
    Settled teiid finder virtualization teiidSourceName s store (name :: done) := by
  intro n hn t ht view hview
  rcases List.mem_cons.mp hn with rfl | hn
  · rw [hnone t ht] at hview
    cases hview
  · exact hs n hn t ht view hview

/-- The loop keeps its invariant, by induction over the names that are left. -/
theorem looped_of_importTables (hlookup : IgnoresCase teiid s tables)
    (hnames : ∀ n ∈ names, n ∈ tables) (hdone : ∀ n ∈ done, n ∈ tables)
    (hids : (store.views.map (·.id)).Nodup)
    (hs : Settled teiid finder virtualization teiidSourceName s store done) {store' : Store}
    {toSave toSave' : List ViewDefinition}
    (h : importTables teiid finder virtualization teiidSourceName s names store toSave =
      .ok (store', toSave')) :
    ∃ new, toSave' = toSave ++ new ∧
      Looped teiid finder virtualization teiidSourceName s names done store store' new := by
  -- the three ways of one turn: no table, a view of that name, or a view to be created
  induction names generalizing done store toSave with
  | nil =>
      cases h
      exact ⟨[], (List.append_nil _).symm, .refl _, hs, rfl, nofun⟩
  | cons name names ih =>
      rw [List.forall_mem_cons] at hnames
      obtain ⟨hname, hnames⟩ := hnames
      have hdone' : ∀ n ∈ name :: done, n ∈ tables := List.forall_mem_cons.mpr ⟨hname, hdone⟩
      unfold importTables at h
      split at h
      · rename_i hnone
        obtain ⟨new, hnew, hloop⟩ := ih hnames hdone' hids (settled_cons_of_none (by simp [hnone]) hs) h
        exact ⟨new, hnew, hloop.step (.refl _) (by simp [isNewView, hnone])⟩
      · rename_i t ht
        split at h
        · rename_i viewDefn hfind
          split at h
          · cases h
          · rename_i hcase
            have hcase : teiid.equalsIgnoreCase name viewDefn.name = true := by simpa using hcase
            obtain ⟨imported, himported, h⟩ := bind_eq_ok.mp h
            obtain ⟨hkeys, hsettled⟩ :=
              settled_write hlookup hids hdone hname ht hfind hcase himported hs
            have hids' : ((store.writeViewDefinition (Store.flushed viewDefn imported)).views.map
                (·.id)).Nodup := by
              rw [hkeys.ids]
              exact hids
            obtain ⟨new, hnew, hloop⟩ := ih hnames hdone' hids' hsettled h
            exact ⟨new, hnew, hloop.step hkeys (by simp [isNewView, hfind])⟩
        · rename_i hfind
          obtain ⟨created, hcreated, h⟩ := bind_eq_ok.mp h
          -- nothing is written now: the created view is put in the list the caller saves at the end
          obtain ⟨hfrom, hcreatedName⟩ := fromTable_of_created hcreated
          obtain ⟨new, hnew, hloop⟩ := ih hnames hdone' hids
            (settled_cons_of_none (fun _ _ => hfind) hs) h
          refine ⟨created :: new, by rw [hnew, List.append_assoc]; rfl,
            hloop.collect (by simp [isNewView, ht, hfind]) hcreatedName ⟨t, ?_, hfrom⟩⟩
          rw [hcreatedName]
          exact ht

/-! ## Names that are met again -/

/-- A name whose view is what it is to be changes nothing. -/
theorem importTables_settled {view : ViewDefinition} (hids : (store.views.map (·.id)).Nodup)
    (ht : s.getTable teiid name = some t)
    (hfind : store.findViewDefinitionByNameIgnoreCase teiid virtualization name = some view)
    (hfrom : FromTable teiid finder virtualization teiidSourceName t view)
    (hcase : teiid.equalsIgnoreCase name view.name = true) (toSave : List ViewDefinition) :
    importTables teiid finder virtualization teiidSourceName s (name :: names) store toSave =
      importTables teiid finder virtualization teiidSourceName s names store toSave := by
  have himported : importedView teiid finder teiidSourceName t
      { view with sourcePaths := [], userDefined := false, ddl := none, description := none } =
        .ok view := importedView_of_fromTable hfrom
  have hsame : store.writeViewDefinition (Store.flushed view view) = store := by
    have hflushed : Store.flushed view view = view := if_pos rfl
    rw [hflushed]
    unfold Store.writeViewDefinition
    rw [writeRow_self hids (Store.row_of_findByNameIgnoreCase hfind).1]
  rw [importTables, ht]
  dsimp only
  rw [hfind]
  dsimp only
  rw [hcase, if_neg (by simp), himported]
  show importTables _ _ _ _ _ names (store.writeViewDefinition (Store.flushed view view)) toSave = _
  rw [hsame]

/-- No two names are of one new view. -/
def NewOnce (teiid : Teiid) (virtualization : String) (s : Schema) (store : Store)
    (names : List String) : Prop :=
  ((names.filter (isNewView teiid virtualization s store)).map teiid.toUpperCase).Nodup

instance (teiid : Teiid) (virtualization : String) (s : Schema) (store : Store) (names : List String) :
    Decidable (NewOnce teiid virtualization s store names) :=
  inferInstanceAs (Decidable (List.Nodup _))

/-- A name that is met again changes nothing, unless it is of a new view. -/
theorem importTables_met (hequiv : Equivalence fun a b => teiid.equalsIgnoreCase a b = true)
    (hlookup : IgnoresCase teiid s tables) (hname : name ∈ tables) (hdone : ∀ n ∈ done, n ∈ tables)
    (hids : (store.views.map (·.id)).Nodup)
    (hs : Settled teiid finder virtualization teiidSourceName s store done)
    (honce : NewOnce teiid virtualization s store (done ++ name :: names))
    (hseen : teiid.toUpperCase name ∈ done.map teiid.toUpperCase) (toSave : List ViewDefinition) :
    importTables teiid finder virtualization teiidSourceName s (name :: names) store toSave =
      importTables teiid finder virtualization teiidSourceName s names store toSave := by
  obtain ⟨n, hn, hupper⟩ := List.mem_map.mp hseen
  have htable : s.getTable teiid n = s.getTable teiid name :=
    hlookup n (hdone n hn) name hname hupper
  have hfound := @find_upperCase teiid virtualization n store name hupper
  cases ht : s.getTable teiid name with
  | none => rw [importTables, ht]
  | some t =>
      rw [ht] at htable
      cases hfind : store.findViewDefinitionByNameIgnoreCase teiid virtualization name with
      | none =>
          -- both names would be of the new view
          exfalso
          rw [hfind] at hfound
          have hnew : isNewView teiid virtualization s store n = true := by
            simp [isNewView, htable, hfound]
          have hnew' : isNewView teiid virtualization s store name = true := by
            simp [isNewView, ht, hfind]
          unfold NewOnce at honce
          rw [List.filter_append, List.filter_cons_of_pos hnew', List.map_append, List.map_cons] at honce
          refine (List.disjoint_of_nodup_append honce) ?_ List.mem_cons_self
          exact List.mem_map.mpr ⟨n, List.mem_filter.mpr ⟨hn, hnew⟩, hupper⟩
      | some view =>
          rw [hfind] at hfound
          obtain ⟨hfrom, hcase⟩ := hs n hn t htable view hfound
          have hcalled : teiid.equalsIgnoreCase t.name name = true := by
            simpa using List.find?_some ht
          have hcalled' : teiid.equalsIgnoreCase t.name n = true := by
            simpa using List.find?_some htable
          have hsame : teiid.equalsIgnoreCase name view.name = true :=
            hequiv.trans (hequiv.trans (hequiv.symm hcalled) hcalled') hcase
          exact importTables_settled hids ht hfind hfrom hsame toSave

/-- Whether names are new once does not depend on their order. -/
theorem newOnce_middle {names : List String} :
    NewOnce teiid virtualization s store (done ++ name :: names) ↔
      NewOnce teiid virtualization s store (name :: done ++ names) :=
  ((List.perm_middle.filter _).map _).nodup_iff

/-- Unless a new view is met again, the names that are met again can be left out. -/
theorem importTables_unseen
    (hequiv : Equivalence fun a b => teiid.equalsIgnoreCase a b = true)
    (hlookup : IgnoresCase teiid s tables) (hnames : ∀ n ∈ names, n ∈ tables)
    (hdone : ∀ n ∈ done, n ∈ tables) (hids : (store.views.map (·.id)).Nodup)
    (hs : Settled teiid finder virtualization teiidSourceName s store done)
    (honce : NewOnce teiid virtualization s store (done ++ names)) (toSave : List ViewDefinition) :
    importTables teiid finder virtualization teiidSourceName s names store toSave =
      importTables teiid finder virtualization teiidSourceName s
        (unseen teiid.toUpperCase (done.map teiid.toUpperCase) names) store toSave := by
  -- on the names left; `done` grows by each name the loop meets, so that `Settled` speaks of it
  induction names generalizing done store toSave with
  | nil => rfl
  | cons name names ih =>
      rw [List.forall_mem_cons] at hnames
      obtain ⟨hname, hnames⟩ := hnames
      have hdone' : ∀ n ∈ name :: done, n ∈ tables := List.forall_mem_cons.mpr ⟨hname, hdone⟩
      rw [unseen]
      by_cases hseen : teiid.toUpperCase name ∈ done.map teiid.toUpperCase
      -- a second turn of one name writes what the first has written
      · rw [if_pos hseen, importTables_met hequiv hlookup hname hdone hids hs honce hseen]
        refine ih hnames hdone hids hs ?_ toSave
        exact honce.sublist (((List.sublist_cons_self name names).append_left done).filter _ |>.map _)
      · rw [if_neg hseen, importTables, importTables]
        have honce' := newOnce_middle.mp honce
        cases ht : s.getTable teiid name with
        | none =>
            exact ih hnames hdone' hids (settled_cons_of_none (by simp [ht]) hs) honce' toSave
        | some t =>
            dsimp only
            cases hfind : store.findViewDefinitionByNameIgnoreCase teiid virtualization name with
            | none =>
                dsimp only
                cases hcreated : importedView teiid finder teiidSourceName t
                    { name := name, dataVirtualizationName := virtualization } with
                | error failure => rfl
                | ok created =>
                    exact ih hnames hdone' hids (settled_cons_of_none (fun _ _ => hfind) hs) honce' _
            | some viewDefn =>
                dsimp only
                cases hcase : teiid.equalsIgnoreCase name viewDefn.name with
                | false => rfl
                | true =>
                    cases himported : importedView teiid finder teiidSourceName t
                        { viewDefn with
                          sourcePaths := [], userDefined := false, ddl := none, description := none } with
                    | error failure => rfl
                    | ok imported =>
                        -- the row that is written keeps its id and names, so the names still new are the
                        -- same
                        obtain ⟨hkeys, hsettled⟩ :=
                          settled_write hlookup hids hdone hname ht hfind hcase himported hs
                        refine ih hnames hdone' ?_ hsettled ?_ toSave
                        · rw [hkeys.ids]
                          exact hids
                        · unfold NewOnce
                          rw [isNewView_congr hkeys]
                          exact honce'

/-! ## Which imports succeed -/

/-- The name of the view a table is imported into. -/
def importedName (teiid : Teiid) (virtualization : String) (store : Store) (name : String) : String :=
  match store.findViewDefinitionByNameIgnoreCase teiid virtualization name with
  | some view => view.name
  | none => name

/-- The view of a table has its name, ignoring case, and its DDL can be generated. -/
def Importable (teiid : Teiid) (finder : SchemaFinder) (virtualization teiidSourceName : String)
    (s : Schema) (store : Store) (name : String) : Prop :=
  ∀ t, s.getTable teiid name = some t →
    teiid.equalsIgnoreCase name (importedName teiid virtualization store name) = true ∧
      ∃ ddl, tableDdl teiid finder virtualization teiidSourceName
        (importedName teiid virtualization store name) t = .ok ddl

/-- The name of the view an import goes to depends on the keys alone. -/
theorem importedName_congr {store' : Store} (h : SameKeys store store') :
    importedName teiid virtualization store' name = importedName teiid virtualization store name := by
  have hkeys := @find_viewKey_congr teiid virtualization name _ _ h
  unfold importedName
  cases hfind : store.findViewDefinitionByNameIgnoreCase teiid virtualization name with
  | none =>
      rw [hfind] at hkeys
      rw [Option.map_eq_none_iff.mp hkeys]
  | some view =>
      rw [hfind] at hkeys
      obtain ⟨view', hview', hkey⟩ := Option.map_eq_some_iff.mp hkeys
      rw [hview']
      exact (Prod.mk.inj (Prod.mk.inj hkey).2).1

/-- Whether a table can be imported depends on the keys alone. -/
theorem importable_congr {store' : Store} (h : SameKeys store store') :
    Importable teiid finder virtualization teiidSourceName s store' name ↔
      Importable teiid finder virtualization teiidSourceName s store name := by
  unfold Importable
  rw [importedName_congr h]

/-- A table can be imported if its text parses to the view's own name, and has a ddl. -/
theorem importable_iff (ht : s.getTable teiid name = some t) :
    Importable teiid finder virtualization teiidSourceName s store name ↔
      teiid.equalsIgnoreCase name (importedName teiid virtualization store name) = true ∧
        ∃ ddl, tableDdl teiid finder virtualization teiidSourceName
          (importedName teiid virtualization store name) t = .ok ddl := by
  constructor
  · intro h
    exact h t ht
  · intro h t' ht'
    rw [ht] at ht'
    obtain rfl := Option.some.inj ht'
    exact h

/-- The loop returns exactly if every table can be imported. -/
theorem importTables_isOk_iff (hrefl : ∀ name, teiid.equalsIgnoreCase name name = true)
    (hids : (store.views.map (·.id)).Nodup) (toSave : List ViewDefinition) :
    (∃ result, importTables teiid finder virtualization teiidSourceName s names store toSave =
        .ok result) ↔
      ∀ name ∈ names, Importable teiid finder virtualization teiidSourceName s store name := by
  induction names generalizing store toSave with
  | nil => exact iff_of_true ⟨_, rfl⟩ nofun
  | cons name names ih =>
      rw [List.forall_mem_cons, importTables]
      cases ht : s.getTable teiid name with
      | none =>
          have himportable : Importable teiid finder virtualization teiidSourceName s store name := by
            simp [Importable, ht]
          rw [ih hids]
          exact (and_iff_right himportable).symm
      | some t =>
          dsimp only
          cases hfind : store.findViewDefinitionByNameIgnoreCase teiid virtualization name with
          | none =>
              have hviewName : importedName teiid virtualization store name = name := by
                rw [importedName, hfind]
              rw [importable_iff ht, hviewName]
              constructor
              · rintro ⟨result, h⟩
                obtain ⟨created, hcreated, h⟩ := bind_eq_ok.mp h
                obtain ⟨ddl, hddl, _⟩ := bind_eq_ok.mp hcreated
                exact ⟨⟨hrefl name, ddl, hddl⟩, (ih hids _).mp ⟨result, h⟩⟩
              · rintro ⟨⟨_, ddl, hddl⟩, hrest⟩
                obtain ⟨result, hresult⟩ := (ih hids _).mpr hrest
                exact ⟨result, bind_eq_ok.mpr ⟨_, bind_eq_ok.mpr ⟨ddl, hddl, rfl⟩, hresult⟩⟩
          | some viewDefn =>
              have hviewName : importedName teiid virtualization store name = viewDefn.name := by
                rw [importedName, hfind]
              rw [importable_iff ht, hviewName]
              obtain ⟨hmem, hdv, _⟩ := Store.row_of_findByNameIgnoreCase hfind
              -- whatever DDL is generated, the other names are imported as before
              have hrest (imported : ViewDefinition)
                  (himported : importedView teiid finder teiidSourceName t (cleared viewDefn) =
                    .ok imported) :
                  (∃ result, importTables teiid finder virtualization teiidSourceName s names
                    (store.writeViewDefinition (Store.flushed viewDefn imported)) toSave = .ok result) ↔
                  ∀ name ∈ names,
                    Importable teiid finder virtualization teiidSourceName s store name := by
                have hkey := (viewKey_flushed viewDefn imported).trans
                  (fromTable_of_importedView hdv himported).2
                have hkeys := sameKeys_write hids hmem hkey
                rw [ih (by rw [hkeys.ids]; exact hids)]
                exact forall₂_congr fun _ _ => importable_congr hkeys
              dsimp only
              constructor
              · rintro ⟨result, h⟩
                split at h
                · cases h
                · rename_i hcase
                  obtain ⟨imported, himported, h⟩ := bind_eq_ok.mp h
                  obtain ⟨ddl, hddl, _⟩ := bind_eq_ok.mp himported
                  exact ⟨⟨by simpa using hcase, ddl, hddl⟩, (hrest imported himported).mp ⟨result, h⟩⟩
              · rintro ⟨⟨hcase, ddl, hddl⟩, hothers⟩
                obtain ⟨imported, himported⟩ : ∃ imported, importedView teiid finder teiidSourceName t
                    (cleared viewDefn) = .ok imported := ⟨_, bind_eq_ok.mpr ⟨ddl, hddl, rfl⟩⟩
                obtain ⟨result, hresult⟩ := (hrest imported himported).mpr hothers
                rw [hcase, if_neg (by simp)]
                exact ⟨result, bind_eq_ok.mpr ⟨_, himported, hresult⟩⟩

end Loop

end TeiidSyndesis.Server
