/-
# TeiidSyndesis.Server.SerialImports — the commit of an import, and of any transaction.

An import reads a view for each of its tables, and others may commit between two of these reads.  At the
commit every view it has loaded is still the row, if it is written or the condition on the commit is met,
and every view it has made is new; so the loop of an import that is run alone on the tables before the
commit finds the same views, and makes the same of them.

Main results:
* `importTables_replayed` — the loop, run on the tables before the commit, finds the same views and
  makes the same of them;
* `flush_of_import` — what the flush writes is what the transaction of the import has loaded and made;
* `import_of_loaded` — so an import that commits is the import that is run alone on these tables.
-/
import TeiidSyndesis.Server.SerialSaves

namespace TeiidSyndesis.Server.Clients

open TeiidSyndesis.Library TeiidSyndesis.Model TeiidSyndesis.Repository

variable {κ : Type} [DecidableEq κ] {teiid : Teiid}

/-! ## Rows that are written -/

/-- What becomes of a row at the flush. -/
def written (work : Work) (view : ViewDefinition) : ViewDefinition :=
  Store.flushed (work.managed view).1 (work.managed view).2

/-- A change is seen by the view it was made to, and by no other. -/
theorem managed_change (work : Work) (viewDefn updated view : ViewDefinition) :
    (work.change viewDefn updated).managed view =
      if viewDefn.id = view.id then (viewDefn, updated) else work.managed view := by
  have hkept := find?_filter_key (fun pair : ViewDefinition × ViewDefinition => pair.1.id) work.loaded
    viewDefn.id view.id
  unfold Work.managed Work.change
  dsimp only
  rw [List.find?_append, hkept]
  by_cases hid : viewDefn.id = view.id
  · rw [if_pos hid.symm, if_pos hid]
    simp [hid]
  · rw [if_neg (Ne.symm hid), if_neg hid]
    simp [hid]

/-- A managed view keeps its id. -/
theorem managed_id (work : Work) (view : ViewDefinition) : (work.managed view).1.id = view.id := by
  rcases managed_of_mem_loaded work view with hself | ⟨_, hid⟩
  · rw [hself]
  · exact hid

section

variable {finder : SchemaFinder} {virtualization teiidSourceName : String} {s : Schema}
  {dv : DataVirtualization} {names : List String} {work : Work} {store : Store}

/-- A view an import has loaded, and what it has made of it. -/
structure Reimported (teiid : Teiid) (finder : SchemaFinder) (virtualization teiidSourceName : String)
    (s : Schema) (pair : ViewDefinition × ViewDefinition) : Prop where
  key : viewKey pair.2 = viewKey pair.1
  fromTable : ∃ name t, s.getTable teiid name = some t ∧
    teiid.equalsIgnoreCase name pair.2.name = true ∧
    FromTable teiid finder virtualization teiidSourceName t pair.2

/-- Every view the loop has loaded was rewritten by the import once more. -/
theorem ImportedNames.reimported
    (h : ImportedNames teiid store finder virtualization teiidSourceName s dv names work) :
    ∀ pair ∈ work.loaded, Reimported teiid finder virtualization teiidSourceName s pair := by
  -- on the names read so far; a row met again is the entity of its last import
  induction h with
  | nil => exact fun pair hpair => absurd hpair List.not_mem_nil
  | noTable _ _ ih => exact ih
  | @changed names name work t row updated _ ht _ hdv _ _ hcase himported ih =>
      intro pair hpair
      rcases mem_loaded_change hpair with ⟨hmem, _⟩ | rfl
      · exact ih pair hmem
      · have hmanaged : viewKey (work.managed row).2 = viewKey (work.managed row).1 ∧
            (work.managed row).2.dataVirtualizationName = virtualization := by
          rcases managed_of_mem_loaded work row with hself | ⟨hloaded, _⟩
          · rw [hself]
            exact ⟨rfl, hdv⟩
          · obtain ⟨hkey, _, _, _, _, hfrom⟩ := ih _ hloaded
            exact ⟨hkey, hfrom.dataVirtualizationName⟩
        obtain ⟨hfrom, hkey⟩ := fromTable_of_importedView hmanaged.2 himported
        obtain ⟨_, hnames⟩ := Prod.mk.inj hkey
        refine ⟨hkey.trans hmanaged.1, name, t, ht, ?_, hfrom⟩
        show teiid.equalsIgnoreCase name updated.name = true
        rw [(Prod.mk.inj hnames).1]
        exact hcase
  | made _ _ _ ih => exact ih

/-- A view an import has made. -/
theorem ImportedNames.madeViews
    (h : ImportedNames teiid store finder virtualization teiidSourceName s dv names work) :
    ∀ pair ∈ work.made, pair.2 = pair.1 ∧ pair.1.dataVirtualizationName = virtualization := by
  induction h with
  | nil => exact fun pair hpair => absurd hpair List.not_mem_nil
  | noTable _ _ ih => exact ih
  | changed _ _ _ _ _ _ _ _ ih => exact ih
  | made _ _ hcreated ih =>
      intro pair hpair
      rcases List.mem_append.mp hpair with hpair | hpair
      · exact ih pair hpair
      · obtain rfl := List.mem_singleton.mp hpair
        exact ⟨rfl, (fromTable_of_created hcreated).1.dataVirtualizationName⟩

/-- Each view is loaded once. -/
theorem ImportedNames.loadedIds
    (h : ImportedNames teiid store finder virtualization teiidSourceName s dv names work) :
    (work.loaded.map (·.1.id)).Nodup := by
  induction h with
  | nil => exact .nil
  | noTable _ _ ih => exact ih
  | @changed _ _ work _ row updated _ _ _ _ _ _ _ _ ih =>
      show ((work.loaded.filter (·.1.id ≠ (work.managed row).1.id) ++
        [((work.managed row).1, updated)]).map (·.1.id)).Nodup
      rw [List.map_append, List.nodup_append]
      refine ⟨ih.sublist (List.filter_sublist.map _), List.nodup_singleton _, ?_⟩
      rintro id hid _ hnew rfl
      obtain ⟨pair, hpair, rfl⟩ := List.mem_map.mp hid
      have hne := of_decide_eq_true (List.mem_filter.mp hpair).2
      exact hne (List.mem_singleton.mp hnew)
  | made _ _ _ ih => exact ih

end

/-! ## The loop, once more -/

/-- The tables with what the work makes of their views. -/
def rewritten (work : Work) (store : Store) : Store :=
  { store with views := store.views.map (written work) }

/-- A loop over two lists is a loop over the first, and then over the second. -/
theorem importTables_append {finder : SchemaFinder} {virtualization teiidSourceName : String} {s : Schema}
    {names names' : List String} {store mid : Store} {toSave saved : List ViewDefinition}
    (h : importTables teiid finder virtualization teiidSourceName s names store toSave =
      .ok (mid, saved)) :
    importTables teiid finder virtualization teiidSourceName s (names ++ names') store toSave =
      importTables teiid finder virtualization teiidSourceName s names' mid saved := by
  -- on the names of the first part, whose loop returns; each turn hands on what it has collected
  induction names generalizing store toSave with
  | nil =>
      cases h
      rfl
  | cons name names ih =>
      rw [List.cons_append, importTables]
      rw [importTables] at h
      cases ht : s.getTable teiid name with
      | none =>
          rw [ht] at h
          exact ih h
      | some t =>
          rw [ht] at h
          dsimp only at h ⊢
          cases hfind : store.findViewDefinitionByNameIgnoreCase teiid virtualization name with
          | none =>
              rw [hfind] at h
              obtain ⟨created, hcreated, hrest⟩ := bind_eq_ok.mp h
              dsimp only
              rw [hcreated]
              exact ih hrest
          | some viewDefn =>
              rw [hfind] at h
              dsimp only at h ⊢
              split at h
              · cases h
              · rename_i hcase
                obtain ⟨updated, hupdated, hrest⟩ := bind_eq_ok.mp h
                rw [if_neg hcase, hupdated]
                exact ih hrest

section

variable {db : Database teiid} {finder : SchemaFinder} {virtualization teiidSourceName name : String}
  {s : Schema} {dv : DataVirtualization} {names : List String} {work : Work}

/-- The views an import has loaded are rows. -/
def LoadedRows (work : Work) (store : Store) : Prop := ∀ pair ∈ work.loaded, pair.1 ∈ store.views

/-- What is written keeps the key of the row, so look-ups by name still find it. -/
theorem viewKey_written
    (h : ImportedNames teiid db.store finder virtualization teiidSourceName s dv names work)
    (hrows : LoadedRows work db.store) {view : ViewDefinition} (hview : view ∈ db.store.views) :
    viewKey (written work view) = viewKey view := by
  unfold written
  rw [viewKey_flushed]
  rcases managed_of_mem_loaded work view with hself | ⟨hmem, hid⟩
  · rw [hself]
  · rw [(h.reimported _ hmem).key,
      List.inj_on_of_nodup_map db.consistent.ids (hrows _ hmem) hview hid]

/-- The tables after the rewriting have the keys of those before. -/
theorem sameKeys_rewritten
    (h : ImportedNames teiid db.store finder virtualization teiidSourceName s dv names work)
    (hrows : LoadedRows work db.store) : SameKeys db.store (rewritten work db.store) := by
  refine ⟨?_, rfl, rfl, rfl⟩
  show (db.store.views.map (written work)).map viewKey = db.store.views.map viewKey
  rw [List.map_map]
  exact List.map_congr_left fun view hview => viewKey_written h hrows hview

/-- What is found by a name is found as before, and written. -/
theorem find_rewritten
    (h : ImportedNames teiid db.store finder virtualization teiidSourceName s dv names work)
    (hrows : LoadedRows work db.store) :
    (rewritten work db.store).findViewDefinitionByNameIgnoreCase teiid virtualization name =
      (db.store.findViewDefinitionByNameIgnoreCase teiid virtualization name).map (written work) := by
  unfold Store.findViewDefinitionByNameIgnoreCase rewritten
  dsimp only
  rw [List.find?_map]
  congr 1
  refine List.find?_congr ?_
  intro view hview
  obtain ⟨_, hnames⟩ := Prod.mk.inj (viewKey_written h hrows hview)
  obtain ⟨hname, hdv⟩ := Prod.mk.inj hnames
  show decide ((written work view).dataVirtualizationName = virtualization ∧ _) = _
  rw [hname, hdv]

/-- What was loaded before a view is loaded again is a row if what is loaded then is. -/
theorem loadedRows_of_change (hids : (work.loaded.map (·.1.id)).Nodup) {row updated : ViewDefinition}
    {store : Store} (hrows : LoadedRows (work.change (work.managed row).1 updated) store) :
    LoadedRows work store ∧ (work.managed row).1 ∈ store.views := by
  have hnew : (work.managed row).1 ∈ store.views :=
    hrows ((work.managed row).1, updated) (List.mem_append_right _ List.mem_cons_self)
  refine ⟨?_, hnew⟩
  intro pair hpair
  by_cases hid : pair.1.id = (work.managed row).1.id
  · -- the pair is the one that is managed for the row
    rcases managed_of_mem_loaded work row with hself | ⟨hmem, _⟩
    · have hfind : (work.loaded.find? (·.1.id = row.id)).isSome := by
        rw [List.find?_isSome]
        refine ⟨pair, hpair, ?_⟩
        rw [hself] at hid
        simpa using hid
      obtain ⟨found, hfound⟩ := Option.isSome_iff_exists.mp hfind
      have hmanaged : work.managed row = found := by
        unfold Work.managed
        rw [hfound]
        rfl
      have hfoundMem := List.mem_of_find?_eq_some hfound
      rw [← hmanaged] at hfoundMem
      rw [List.inj_on_of_nodup_map hids hpair hfoundMem hid]
      exact hnew
    · rw [List.inj_on_of_nodup_map hids hpair hmem hid]
      exact hnew
  -- another row: its pair has stayed in the list
  · refine hrows pair (List.mem_append_left _ (List.mem_filter.mpr ⟨hpair, ?_⟩))
    simpa using hid

/-- Names that differ in case only find the same table. -/
theorem getTable_congr (hequiv : Equivalence fun a b => teiid.equalsIgnoreCase a b = true)
    {name' : String} (h : teiid.equalsIgnoreCase name name' = true) :
    s.getTable teiid name = s.getTable teiid name' := by
  unfold Schema.getTable
  refine List.find?_congr ?_
  intro t _
  rw [Bool.eq_iff_iff]
  exact ⟨fun ht => hequiv.trans ht h, fun ht => hequiv.trans ht (hequiv.symm h)⟩

/-- The round of a view that had not been loaded before. -/
theorem importTables_first {t : Table} {row updated : ViewDefinition} (toSave : List ViewDefinition)
    (h : ImportedNames teiid db.store finder virtualization teiidSourceName s dv names work)
    (hrows : LoadedRows work db.store) (ht : s.getTable teiid name = some t)
    (hfind : (rewritten work db.store).findViewDefinitionByNameIgnoreCase teiid virtualization name =
      some row)
    (hcase : teiid.equalsIgnoreCase name row.name = true)
    (himported : importedView teiid finder teiidSourceName t (cleared row) = .ok updated) :
    importTables teiid finder virtualization teiidSourceName s [name] (rewritten work db.store) toSave =
      .ok (rewritten (work.change row updated) db.store, toSave) := by
  have hid : (Store.flushed row updated).id = row.id := by
    obtain ⟨ddl, hddl, hresult⟩ := bind_eq_ok.mp himported
    cases pure_eq_ok.mp hresult
    exact id_flushed rfl
  -- writing after the flush is flushing the changed entity
  have hwrite : (rewritten work db.store).writeViewDefinition (Store.flushed row updated) =
      rewritten (work.change row updated) db.store := by
    unfold Store.writeViewDefinition rewritten writeRow
    dsimp only
    rw [List.map_map]
    congr 1
    refine List.map_congr_left ?_
    intro view hview
    obtain ⟨hviewId, _⟩ := Prod.mk.inj (viewKey_written h hrows hview)
    show (if (written work view).id = (Store.flushed row updated).id then Store.flushed row updated
      else written work view) = written (work.change row updated) view
    rw [hviewId, hid]
    unfold written
    rw [managed_change]
    by_cases hsame : view.id = row.id
    · rw [if_pos hsame, if_pos hsame.symm]
    · rw [if_neg hsame, if_neg (Ne.symm hsame)]
  have himported' : importedView teiid finder teiidSourceName t
      { row with sourcePaths := [], userDefined := false, ddl := none, description := none } =
        .ok updated := himported
  rw [importTables, ht]
  dsimp only
  rw [hfind]
  dsimp only
  rw [hcase, if_neg (by simp), himported']
  show importTables teiid finder virtualization teiidSourceName s []
    ((rewritten work db.store).writeViewDefinition (Store.flushed row updated)) toSave = _
  rw [hwrite]
  rfl

/-- The round of a view that is loaded again: it is what the import has made of it. -/
theorem importTables_repeated (hequiv : Equivalence fun a b => teiid.equalsIgnoreCase a b = true)
    {t : Table} {row updated : ViewDefinition} (toSave : List ViewDefinition)
    (h : ImportedNames teiid db.store finder virtualization teiidSourceName s dv names work)
    (hrows : LoadedRows work db.store) (hmem : work.managed row ∈ work.loaded)
    (hrow : row ∈ db.store.views) (hsame : (work.managed row).1 = row)
    (ht : s.getTable teiid name = some t)
    (hfind : (rewritten work db.store).findViewDefinitionByNameIgnoreCase teiid virtualization name =
      some (written work row))
    (hcase : teiid.equalsIgnoreCase name (work.managed row).2.name = true)
    (himported : importedView teiid finder teiidSourceName t (cleared (work.managed row).2) =
      .ok updated) :
    importTables teiid finder virtualization teiidSourceName s [name] (rewritten work db.store) toSave =
      .ok (rewritten (work.change row updated) db.store, toSave) := by
  obtain ⟨_, name', t', ht', hcase', hfrom⟩ := h.reimported _ hmem
  have hnames : teiid.equalsIgnoreCase name' name = true := hequiv.trans hcase' (hequiv.symm hcase)
  rw [getTable_congr hequiv hnames, ht] at ht'
  obtain rfl := Option.some.inj ht'
  rw [importedView_of_fromTable hfrom] at himported
  obtain rfl := Except.ok.inj himported
  have hids : ((rewritten work db.store).views.map (·.id)).Nodup := by
    rw [(sameKeys_rewritten h hrows).ids]
    exact db.consistent.ids
  have hwrittenCase : teiid.equalsIgnoreCase name (written work row).name = true := by
    obtain ⟨_, hkeys⟩ := Prod.mk.inj (viewKey_flushed (work.managed row).1 (work.managed row).2)
    unfold written
    rw [(Prod.mk.inj hkeys).1]
    exact hcase
  -- the row already holds what the import writes, so the loop leaves the tables as they are
  rw [importTables_settled hids ht hfind (fromTable_flushed _ hfrom) hwrittenCase]
  -- and the session, which changes the entity to the same values, flushes the same rows
  have hunchanged : rewritten (work.change row (work.managed row).2) db.store =
      rewritten work db.store := by
    unfold rewritten
    congr 1
    refine List.map_congr_left ?_
    intro view hview
    unfold written
    rw [managed_change]
    split
    · rename_i hid
      obtain rfl := List.inj_on_of_nodup_map db.consistent.ids hrow hview hid
      rw [hsame]
    · rfl
  rw [hunchanged]
  rfl

/-- Run on the tables at the commit, the loop changes the views that were loaded, and makes those that
were made. -/
theorem importTables_replayed (hequiv : Equivalence fun a b => teiid.equalsIgnoreCase a b = true)
    (h : ImportedNames teiid db.store finder virtualization teiidSourceName s dv names work)
    (hrows : LoadedRows work db.store)
    (hnew : ∀ pair ∈ work.made, nameKey teiid pair.1 ∉ db.store.views.map (nameKey teiid)) :
    importTables teiid finder virtualization teiidSourceName s names db.store [] =
      .ok (rewritten work db.store, work.made.map (·.1)) := by
  -- by induction on the reads of the transaction, with the loop cut behind the name of the last one
  induction h with
  | nil =>
      have hsame : rewritten { touched := some dv } db.store = db.store := by
        have hviews : db.store.views.map (written { touched := some dv }) = db.store.views := by
          refine (List.map_congr_left ?_).trans (List.map_id' _)
          intro view _
          exact if_pos rfl
        unfold rewritten
        rw [hviews]
      rw [hsame]
      rfl
  | @noTable names name work _ ht ih =>
      rw [importTables_append (ih hrows hnew), importTables, ht]
      rfl
  | @changed names name work t row updated h ht hread hdv hupper hlater hcase himported ih =>
      obtain ⟨hbefore, hmem⟩ := loadedRows_of_change h.loadedIds hrows
      have hsame : (work.managed row).1 = row := by
        rcases hlater with heq | hlt
        · exact heq
        · -- a row that was read later is not the one at the commit
          rcases hread.2.eq_or_lt hmem (managed_id work row).symm with heq | hlt'
          · exact heq
          · omega
      rw [hsame] at hmem ⊢
      have hfind := @find_rewritten teiid db finder virtualization teiidSourceName name s dv names work
        h hbefore
      rw [find_of_row hmem hdv hupper] at hfind
      rw [importTables_append (ih hbefore hnew)]
      -- the view may have been loaded for an earlier name of the payload
      rcases managed_of_mem_loaded work row with hself | ⟨hloaded, _⟩
      · have hrow : written work row = row := by
          unfold written
          rw [hself]
          exact if_pos rfl
        rw [Option.map_some, hrow] at hfind
        rw [hself] at hcase himported
        exact importTables_first _ h hbefore ht hfind hcase himported
      · exact importTables_repeated hequiv _ h hbefore hloaded hmem hsame ht hfind hcase himported
  | @made names name work t created h ht hcreated ih =>
      rw [List.forall_mem_append] at hnew
      have hbefore := ih hrows hnew.1
      rw [importTables_append hbefore, importTables, ht]
      obtain ⟨hfrom, hname⟩ := fromTable_of_created hcreated
      -- no row bears the name of a view that was made: the constraint on names would be violated
      have hfind : (rewritten work db.store).findViewDefinitionByNameIgnoreCase teiid virtualization
          name = none := by
        rw [find_rewritten h hrows, Option.map_eq_none_iff]
        refine List.find?_eq_none.mpr ?_
        intro view hview hfound
        obtain ⟨hdv, hupper⟩ := of_decide_eq_true hfound
        refine hnew.2 _ List.mem_cons_self (List.mem_map.mpr ⟨view, hview, ?_⟩)
        unfold nameKey
        rw [hupper, hdv, hname, hfrom.dataVirtualizationName]
      dsimp only
      rw [hfind]
      dsimp only
      rw [hcreated, List.map_append]
      rfl

end

/-! ## The flush of an import -/

/-- Every identifier of a view has been drawn. -/
def Drawn (store : Store) : Prop := ∀ view ∈ store.views, ∀ id ∈ view.id, id < store.nextId

/-- A persisted view draws its id from the sequence. -/
theorem drawn_persist {store : Store} (h : Drawn store) (view : ViewDefinition) :
    Drawn (store.persist view) := by
  intro row hrow id hid
  show id < store.nextId + 1
  rcases List.mem_append.mp hrow with hold | hnew
  · have hlt := h row hold id hid
    omega
  · rw [List.mem_singleton.mp hnew] at hid
    obtain rfl : store.nextId = id := Option.some.inj hid
    omega

/-- A view that is as it was made is inserted as it is saved. -/
theorem insertView_self {store : Store} (h : Drawn store) (view : ViewDefinition) :
    Work.insertView store (view, view) = store.persist view := by
  have hflushed : Store.flushed (store.persisted view) (store.persisted view) = store.persisted view :=
    if_pos rfl
  have hwrite : (store.persist view).writeViewDefinition (store.persisted view) = store.persist view := by
    unfold Store.writeViewDefinition
    congr 1
    refine writeRow_append ?_ rfl
    intro row hrow hid
    have hlt := h row hrow store.nextId hid
    omega
  show (store.persist view).writeViewDefinition
    (Store.flushed (store.persisted view) (store.persisted view)) = _
  rw [hflushed, hwrite]

/-- Views that are new go in as `persist` puts them there. -/
theorem foldl_insertView {made : List (ViewDefinition × ViewDefinition)} {store : Store}
    (h : Drawn store) (hmade : ∀ pair ∈ made, pair.2 = pair.1) :
    made.foldl Work.insertView store = (made.map (·.1)).foldl Store.persist store := by
  induction made generalizing store with
  | nil => rfl
  | cons pair made ih =>
      rw [List.forall_mem_cons] at hmade
      obtain ⟨view, made'⟩ := pair
      obtain rfl : made' = view := hmade.1
      rw [List.foldl_cons, List.map_cons, List.foldl_cons, insertView_self h]
      exact ih (drawn_persist h _) hmade.2

/-- Rows that are drawn later are not those of the loaded views. -/
theorem foldl_persist_map {f : ViewDefinition → ViewDefinition} (toSave : List ViewDefinition)
    {store : Store} (hf : ∀ view id, view.id = some id → store.nextId ≤ id → f view = view) :
    toSave.foldl Store.persist { store with views := store.views.map f } =
      { toSave.foldl Store.persist store with
        views := (toSave.foldl Store.persist store).views.map f } := by
  induction toSave generalizing store with
  | nil => rfl
  | cons view toSave ih =>
      have hnew : f (store.persisted view) = store.persisted view :=
        hf (store.persisted view) store.nextId rfl (Nat.le_refl _)
      have hpersist : Store.persist { store with views := store.views.map f } view =
          { store.persist view with views := (store.persist view).views.map f } := by
        unfold Store.persist
        dsimp only
        rw [List.map_append, List.map_singleton, hnew]
        rfl
      rw [List.foldl_cons, List.foldl_cons, hpersist]
      refine ih ?_
      intro other id hid hle
      have hle : store.nextId + 1 ≤ id := hle
      exact hf other id hid (by omega)

/-- What a list of loaded views makes of a row. -/
def writtenBy (loaded : List (ViewDefinition × ViewDefinition)) (view : ViewDefinition) :
    ViewDefinition :=
  written { loaded := loaded } view

/-- A view that was not loaded is written by nothing. -/
theorem writtenBy_of_notMem {loaded : List (ViewDefinition × ViewDefinition)} {view : ViewDefinition}
    (h : ∀ pair ∈ loaded, pair.1.id ≠ view.id) : writtenBy loaded view = view := by
  have hself : ({ loaded := loaded } : Work).managed view = (view, view) := by
    rcases managed_of_mem_loaded { loaded := loaded } view with hself | ⟨hmem, hid⟩
    · exact hself
    · exact absurd hid (h _ hmem)
  unfold writtenBy written
  rw [hself]
  exact if_pos rfl

/-- A pair in front decides for its own id. -/
theorem writtenBy_cons (pair : ViewDefinition × ViewDefinition)
    (loaded : List (ViewDefinition × ViewDefinition)) (view : ViewDefinition) :
    writtenBy (pair :: loaded) view =
      if pair.1.id = view.id then Store.flushed pair.1 pair.2 else writtenBy loaded view := by
  unfold writtenBy written Work.managed
  by_cases hid : pair.1.id = view.id
  · rw [if_pos hid, List.find?_cons_of_pos (by simpa using hid)]
    rfl
  · rw [if_neg hid, List.find?_cons_of_neg (by simpa using hid)]

/-- The flush of one view replaces the row with its id. -/
theorem views_flushView {store : Store} {pair : ViewDefinition × ViewDefinition}
    (hids : (store.views.map (·.id)).Nodup) (hmem : pair.1 ∈ store.views)
    (hid : pair.2.id = pair.1.id) :
    Work.flushView store pair =
      { store with views := store.views.map fun view =>
          if pair.1.id = view.id then Store.flushed pair.1 pair.2 else view } := by
  have hsame : ∀ view ∈ store.views, (if pair.1.id = view.id then Store.flushed pair.1 pair.1 else view) =
      view := by
    intro view hview
    split
    · rename_i heq
      rw [List.inj_on_of_nodup_map hids hmem hview heq]
      exact if_pos rfl
    · rfl
  unfold Work.flushView
  split
  -- an unchanged entity is not written, which is writing it as it is
  · rename_i hunchanged
    rw [hunchanged, (List.map_congr_left hsame).trans (List.map_id' _)]
  · rename_i hchanged
    have hflushed : Store.flushed pair.1 pair.2 =
        { pair.2 with id := pair.1.id, version := pair.1.version.map (· + 1) } := by
      unfold Store.flushed
      rw [if_neg hchanged, ← hid]
    unfold Store.writeViewDefinition writeRow
    rw [← hflushed]
    congr 1
    refine List.map_congr_left ?_
    intro view _
    have hflushedId : (Store.flushed pair.1 pair.2).id = pair.1.id := id_flushed hid
    rw [hflushedId]
    by_cases heq : pair.1.id = view.id
    · rw [if_pos heq, if_pos heq.symm]
    · rw [if_neg heq, if_neg (Ne.symm heq)]

/-- The flush of all loaded views replaces each row by what was written to it. -/
theorem foldl_flushView {loaded : List (ViewDefinition × ViewDefinition)} {store : Store}
    (hids : (store.views.map (·.id)).Nodup) (hloaded : (loaded.map (·.1.id)).Nodup)
    (hrows : ∀ pair ∈ loaded, pair.1 ∈ store.views) (hid : ∀ pair ∈ loaded, pair.2.id = pair.1.id) :
    loaded.foldl Work.flushView store = { store with views := store.views.map (writtenBy loaded) } := by
  -- on the loaded entities: their ids are distinct, so no flush writes over another one's row
  induction loaded generalizing store with
  | nil =>
      have hsame : store.views.map (writtenBy []) = store.views := by
        refine (List.map_congr_left ?_).trans (List.map_id' _)
        exact fun view _ => writtenBy_of_notMem fun pair hpair => absurd hpair List.not_mem_nil
      rw [hsame]
      rfl
  | cons pair loaded ih =>
      rw [List.forall_mem_cons] at hrows hid
      rw [List.map_cons, List.nodup_cons] at hloaded
      have hflushedId : (Store.flushed pair.1 pair.2).id = pair.1.id := id_flushed hid.1
      rw [List.foldl_cons, views_flushView hids hrows.1 hid.1, ih ?_ hloaded.2 ?_ hid.2]
      · congr 1
        dsimp only
        rw [List.map_map]
        refine List.map_congr_left ?_
        intro view _
        show writtenBy loaded (if pair.1.id = view.id then Store.flushed pair.1 pair.2 else view) = _
        rw [writtenBy_cons]
        split
        · refine writtenBy_of_notMem ?_
          intro other hother heq
          rw [hflushedId] at heq
          exact hloaded.1 (List.mem_map.mpr ⟨other, hother, heq⟩)
        · rfl
      -- a flush keeps the ids of the rows, which the next flush needs distinct
      · have hsameIds : (store.views.map fun view =>
            if pair.1.id = view.id then Store.flushed pair.1 pair.2 else view).map (·.id) =
              store.views.map (·.id) := by
          rw [List.map_map]
          refine List.map_congr_left ?_
          intro view _
          show (if pair.1.id = view.id then Store.flushed pair.1 pair.2 else view).id = view.id
          split
          · rename_i heq
            rw [hflushedId, heq]
          · rfl
        dsimp only
        rw [hsameIds]
        exact hids
      · intro other hother
        refine List.mem_map.mpr ⟨other.1, hrows.2 other hother, if_neg ?_⟩
        intro heq
        exact hloaded.1 (List.mem_map.mpr ⟨other, hother, heq.symm⟩)

/-- Ids stay distinct when views are persisted one after another. -/
theorem ids_foldl_persist (toSave : List ViewDefinition) {store : Store} (hdrawn : Drawn store)
    (hids : (store.views.map (·.id)).Nodup) :
    ((toSave.foldl Store.persist store).views.map (·.id)).Nodup := by
  induction toSave generalizing store with
  | nil => exact hids
  | cons view toSave ih =>
      refine ih (drawn_persist hdrawn view) ?_
      show ((store.views ++ [store.persisted view]).map ViewDefinition.id).Nodup
      rw [List.map_append, List.nodup_append]
      refine ⟨hids, List.nodup_singleton _, ?_⟩
      rintro id hid _ hnew rfl
      obtain ⟨row, hrow, hrowId⟩ := List.mem_map.mp hid
      have hnext : id = some store.nextId := List.mem_singleton.mp hnew
      have hlt := hdrawn row hrow store.nextId (hrowId.trans hnext)
      omega

section

variable {db db' : Database teiid} {finder : SchemaFinder} {virtualization teiidSourceName : String}
  {s : Schema} {dv : DataVirtualization} {names : List String} {work : Work}

/-- An import inserts its new views and then writes those it has loaded, which is what writing these
first does. -/
theorem flush_of_import
    (h : ImportedNames teiid db.store finder virtualization teiidSourceName s dv names work)
    (hrows : LoadedRows work db.store) :
    work.flush db.store =
      Work.touchVirtualization ((work.made.map (·.1)).foldl Store.persist (rewritten work db.store))
        (some dv) := by
  obtain ⟨htouched, hremoved⟩ := h.touches
  have hdrawn : Drawn db.store := db.consistent.drawn
  have hids := ids_foldl_persist (work.made.map (·.1)) hdrawn db.consistent.ids
  obtain ⟨⟨rows, hviews, _⟩, _⟩ := foldl_persist (work.made.map (·.1)) db.store
  have hloaded : ∀ pair ∈ work.loaded,
      pair.1 ∈ ((work.made.map (·.1)).foldl Store.persist db.store).views := by
    intro pair hpair
    rw [hviews]
    exact List.mem_append_left _ (hrows pair hpair)
  have hpairIds : ∀ pair ∈ work.loaded, pair.2.id = pair.1.id :=
    fun pair hpair => (Prod.mk.inj (h.reimported pair hpair).key).1
  -- the views that were made have later ids, so no loaded entity writes over them
  have hlater : ∀ view id, view.id = some id → db.store.nextId ≤ id → written work view = view := by
    intro view id hid hle
    show writtenBy work.loaded view = view
    refine writtenBy_of_notMem ?_
    intro pair hpair hsame
    have hlt := hdrawn pair.1 (hrows pair hpair) id (hsame.trans hid)
    omega
  unfold Work.flush rewritten
  rw [htouched, hremoved, foldl_insertView hdrawn (fun pair hpair => (h.madeViews pair hpair).1),
    foldl_flushView hids h.loadedIds hloaded hpairIds, foldl_persist_map _ hlater]
  rfl

/-- The names of the new views were free. -/
theorem nameKey_made
    (h : ImportedNames teiid db.store finder virtualization teiidSourceName s dv names work)
    (hrows : LoadedRows work db.store) (hstore : db'.store = work.flush db.store) :
    ∀ pair ∈ work.made, nameKey teiid pair.1 ∉ db.store.views.map (nameKey teiid) := by
  intro pair hpair hold
  obtain ⟨⟨rows, hviews, hsaved⟩, _⟩ := foldl_persist (work.made.map (·.1)) (rewritten work db.store)
  have hdistinct : (db'.store.views.map (nameKey teiid)).Nodup := db'.consistent.viewNames
  rw [hstore, flush_of_import h hrows, views_touchVirtualization, hviews, List.map_append,
    List.nodup_append] at hdistinct
  obtain ⟨row, hrow, id, rfl⟩ := saved_of_mem hsaved (List.mem_map_of_mem hpair)
  have hnameKey (view : ViewDefinition) :
      nameKey teiid view = (teiid.toUpperCase (viewKey view).2.1, (viewKey view).2.2) := rfl
  have hkeys : (rewritten work db.store).views.map (nameKey teiid) =
      db.store.views.map (nameKey teiid) := by
    show (db.store.views.map (written work)).map (nameKey teiid) = _
    rw [List.map_map]
    refine List.map_congr_left ?_
    intro view hview
    show nameKey teiid (written work view) = nameKey teiid view
    rw [hnameKey, hnameKey, viewKey_written h hrows hview]
  rw [hkeys] at hdistinct
  exact hdistinct.2.2 _ hold _ (List.mem_map_of_mem hrow) rfl

/-- The commit of an import whose loaded views are all rows. -/
theorem import_of_loaded (hequiv : Equivalence fun a b => teiid.equalsIgnoreCase a b = true)
    (hdv : ReadVirtualization db.store dv) (hname : dv.name = virtualization)
    (hschema : finder.findSchema teiidSourceName = .ok (some s))
    (h : ImportedNames teiid db.store finder virtualization teiidSourceName s dv names work)
    (hrows : LoadedRows work db.store) (hcurrent : Work.virtualizationIsCurrent db.store dv = true)
    (hstore : db'.store = work.flush db.store) :
    importViews teiid finder db.store virtualization teiidSourceName names = .ok db'.store := by
  have hfind : db.store.findDataVirtualization virtualization = some dv := by
    unfold Store.findDataVirtualization
    rw [← hname]
    exact find?_of_mem (virtualizationNames_nodup db) (hdv.mem hcurrent)
  obtain ⟨_, hvirtualizations, _⟩ := foldl_persist (work.made.map (·.1)) (rewritten work db.store)
  have hreplayed := importTables_replayed hequiv h hrows (nameKey_made h hrows hstore)
  refine (importViews_eq_ok hschema).mpr ⟨by rw [hfind]; rfl, _, _, hreplayed, ?_⟩
  refine Store.touch_eq_ok.mpr ⟨dv, ?_, ?_⟩
  · unfold Store.findDataVirtualization
    rw [hvirtualizations]
    exact hfind
  · rw [hstore, flush_of_import h hrows]
    rfl

end

end TeiidSyndesis.Server.Clients
