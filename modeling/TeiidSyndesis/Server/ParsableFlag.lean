/-
# TeiidSyndesis.Server.ParsableFlag — what the parsable flag of a view promises.

A VDB is made from the DDL of each view that is complete and parsable, and takes the DDL to be there
and to be accepted.  An upsert decides on the flag where it generates a DDL or parses a new text to a
verdict, and carries it over otherwise, also past a text it has not accepted: `keepsParsable` asks that
such a text is one the parser accepts.  The parser is any function that accepts what is generated.

Main results:
* `parsableSound_iff` — what an upsert leaves is sound exactly where it decides on the flag, or carries
  over one that its text deserves;
* `allSound_upsert`, `allSound_import`, `allSound_step_iff` — so of a step;
* `previewDdl_isOk`, `serviceDdl_ne_nullDdl` — the VDBs of sound views can be generated;
* `acceptsGenerated_parseView` — a parser that accepts what is generated;
* `parsable_sound` — so in every run of such steps both generators find what they need.
-/
import TeiidSyndesis.Server.DvServer
import TeiidSyndesis.Server.ViewRows

namespace TeiidSyndesis.Server

open TeiidSyndesis.Library TeiidSyndesis.Model TeiidSyndesis.Repository

/-! ## Accepted texts -/

/-- The parser raises nothing and finds one object, the table of the view. -/
structure Accepted (teiid : Teiid) (viewName ddl : String) : Prop where
  parses : (teiid.parse ddl).metadataException = none
  /-- the only object of the text is the view -/
  table : ∃ t, (teiid.parse ddl).schema.tables = [t] ∧ teiid.equalsIgnoreCase t.name viewName = true
  procedures : (teiid.parse ddl).schema.procedures = []
  functions : (teiid.parse ddl).schema.functions = []

/-- What the program asks of a text it accepts. -/
def acceptsDdl (teiid : Teiid) (viewName ddl : String) : Bool :=
  (usableTable teiid viewName ddl).isSome && (teiid.parse ddl).metadataException.isNone

/-- The check, and what it checks. -/
theorem acceptsDdl_iff {teiid : Teiid} {viewName ddl : String} :
    acceptsDdl teiid viewName ddl = true ↔ Accepted teiid viewName ddl := by
  unfold acceptsDdl usableTable Schema.getTable definesMultipleObjects
  constructor
  · intro h
    obtain ⟨husable, hparses⟩ := Bool.and_eq_true_iff.mp h
    split at husable
    · cases husable
    · rename_i t hfind
      split at husable
      · cases husable
      · rename_i hsingle
        obtain ⟨⟨htables, hprocedures⟩, hfunctions⟩ :
            ((teiid.parse ddl).schema.tables.length ≤ 1 ∧
              (teiid.parse ddl).schema.procedures = []) ∧
                (teiid.parse ddl).schema.functions = [] := by simpa using hsingle
        have hmem := List.mem_of_find?_eq_some hfind
        have hname := List.find?_some hfind
        refine ⟨by simpa using hparses, ⟨t, ?_, hname⟩, hprocedures, hfunctions⟩
        obtain ⟨other, hother⟩ := List.length_eq_one_iff.mp
          (Nat.le_antisymm htables (List.length_pos_of_mem hmem))
        rw [hother] at hmem ⊢
        rw [List.mem_singleton.mp hmem]
  · rintro ⟨hparses, ⟨t, htables, hname⟩, hprocedures, hfunctions⟩
    simp [hparses, htables, hname, hprocedures, hfunctions]

/-- The parser accepts what is generated for a complete view. -/
def AcceptsGenerated (teiid : Teiid) : Prop :=
  ∀ finder view ddl, view.complete = true → getODataViewDdl teiid finder view = .ok (some ddl) →
    Accepted teiid view.name ddl

/-! ## Sound flags -/

/-- A complete and parsable view has a DDL, and the parser accepts it. -/
def ParsableSound (teiid : Teiid) (view : ViewDefinition) : Prop :=
  view.complete = true → view.parsable = true →
    ∃ ddl, view.ddl = some ddl ∧ Accepted teiid view.name ddl

/-- Every flag is sound. -/
def AllSound (teiid : Teiid) (store : Store) : Prop :=
  ∀ view ∈ store.views, ParsableSound teiid view

/-- A flush leaves flag and text. -/
theorem parsableSound_flushed {teiid : Teiid} {old view : ViewDefinition} :
    ParsableSound teiid (Store.flushed old view) ↔ ParsableSound teiid view := by
  rcases Store.flushed_eq_or old view with h | h
  · rw [h]
  · rw [h]
    exact Iff.rfl

/-- The flag of a view that is not complete promises nothing. -/
theorem parsableSound_of_incomplete {teiid : Teiid} {view : ViewDefinition}
    (h : view.complete = false) : ParsableSound teiid view := by
  intro hcomplete
  rw [h] at hcomplete
  cases hcomplete

/-- An import generates, and sets the flag. -/
theorem parsableSound_of_imported {teiid : Teiid} {finder : SchemaFinder}
    {viewDefn imported : ViewDefinition} (haccepts : AcceptsGenerated teiid)
    (h : Imported teiid finder viewDefn imported) : ParsableSound teiid imported := by
  intro _ _
  obtain ⟨completed, ddl, hcomplete, hname, hddl, himported⟩ := h.generated
  refine ⟨ddl, himported, ?_⟩
  rw [h.name, ← hname]
  exact haccepts finder completed ddl hcomplete hddl

/-! ## Upserts -/

/-- What an upsert asks of a request where it carries the flag over. -/
def keepsSound (teiid : Teiid) (viewDefn restViewDefn : ViewDefinition) : Bool :=
  !restViewDefn.complete || !viewDefn.parsable || decidesParsable teiid viewDefn restViewDefn ||
    restViewDefn.ddl.any (acceptsDdl teiid viewDefn.name)

/-- A flag that is not set promises nothing. -/
theorem parsableSound_of_unparsable {teiid : Teiid} {view : ViewDefinition}
    (h : view.parsable = false) : ParsableSound teiid view := by
  intro _ hparsable
  rw [h] at hparsable
  cases hparsable

/-- An upsert makes a sound row, or carries the flag over without a touch. -/
theorem parsableSound_or_carried {teiid : Teiid} {finder : SchemaFinder}
    {viewDefn restViewDefn updated : ViewDefinition} {created touched : Bool}
    (haccepts : AcceptsGenerated teiid)
    (h : UpdatedView teiid finder viewDefn restViewDefn created updated touched) :
    ParsableSound teiid updated ∨ (updated.parsable = viewDefn.parsable ∧ touched = created) := by
  cases h with
  | incomplete hcomplete => exact .inl (parsableSound_of_incomplete hcomplete)
  | @generated ddl hcomplete _ _ hddl =>
      left
      intro _ _
      exact ⟨ddl, rfl, haccepts finder (copyRequest viewDefn restViewDefn) ddl hcomplete hddl⟩
  | trusted _ _ _ hcreated => exact .inr ⟨rfl, hcreated.symm⟩
  | @accepted ddl t _ _ hddl _ ht hexception =>
      left
      intro _ _
      refine ⟨ddl, hddl, acceptsDdl_iff.mp ?_⟩
      show acceptsDdl teiid viewDefn.name ddl = true
      unfold acceptsDdl
      rw [ht, hexception]
      rfl
  | partlyParsed => exact .inr ⟨rfl, rfl⟩
  | unusable => exact .inl (parsableSound_of_unparsable rfl)
  | unread => exact .inr ⟨rfl, rfl⟩

/-- The row an existing view becomes is sound exactly if the request meets the condition. -/
theorem parsableSound_iff {teiid : Teiid} {finder : SchemaFinder}
    {viewDefn restViewDefn updated : ViewDefinition} {touched : Bool}
    (haccepts : AcceptsGenerated teiid)
    (h : UpdatedView teiid finder viewDefn restViewDefn false updated touched) :
    ParsableSound teiid updated ↔ keepsSound teiid viewDefn restViewDefn = true := by
  obtain ⟨_, hname, _, hupdated⟩ := h.frame
  unfold keepsSound
  cases hcomplete : restViewDefn.complete with
  | false =>
      have hsound : ParsableSound teiid updated :=
        parsableSound_of_incomplete (hupdated.trans hcomplete)
      simp [hsound]
  | true =>
      cases hdecides : decidesParsable teiid viewDefn restViewDefn with
      | true =>
          have hsound : ParsableSound teiid updated := by
            rcases parsableSound_or_carried haccepts h with hsound | ⟨_, htouched⟩
            · exact hsound
            · -- a decision that does not touch has found the view unparsable
              rcases h.decided hcomplete hdecides with htrue | ⟨hflag, _⟩
              · rw [htouched] at htrue
                cases htrue
              · exact parsableSound_of_unparsable hflag
          simp [hsound]
      | false =>
          -- the flag of the row goes with the text of the request
          obtain ⟨hddl, hflag, _⟩ := h.kept hcomplete hdecides
          cases hparsable : viewDefn.parsable with
          | false =>
              have hsound : ParsableSound teiid updated :=
                parsableSound_of_unparsable (hflag.trans hparsable)
              simp [hsound]
          | true =>
              have htext : ParsableSound teiid updated ↔
                  ∃ ddl, restViewDefn.ddl = some ddl ∧ Accepted teiid viewDefn.name ddl := by
                unfold ParsableSound
                rw [hddl, hname, hflag, hparsable, hupdated, hcomplete]
                simp
              rw [htext]
              simp [Option.any_eq_true, acceptsDdl_iff]

/-- A new view is sound. -/
theorem parsableSound_of_created {teiid : Teiid} {finder : SchemaFinder}
    {viewDefn restViewDefn updated : ViewDefinition} {touched : Bool}
    (haccepts : AcceptsGenerated teiid) (hparsable : viewDefn.parsable = false)
    (h : UpdatedView teiid finder viewDefn restViewDefn true updated touched) :
    ParsableSound teiid updated := by
  rcases parsableSound_or_carried haccepts h with hsound | ⟨hcarried, _⟩
  · exact hsound
  · exact parsableSound_of_unparsable (hcarried.trans hparsable)

/-! ## Steps -/

/-- What the upsert of a view asks of the state it meets. -/
def upsertKeepsSound (teiid : Teiid) (store : Store) (restViewDefn : ViewDefinition) : Bool :=
  match findPersistent teiid store restViewDefn with
  | .ok (some viewDefn) => keepsSound teiid viewDefn restViewDefn
  | _ => true

/-- An upsert that keeps its own flag sound keeps all of them. -/
theorem allSound_upsert {teiid : Teiid} {finder : SchemaFinder} {store store' : Store}
    {restViewDefn view : ViewDefinition} (haccepts : AcceptsGenerated teiid)
    (hs : AllSound teiid store)
    (h : upsertViewEditorState teiid finder store restViewDefn = .ok (store', view)) :
    AllSound teiid store' ↔ upsertKeepsSound teiid store restViewDefn = true := by
  have hrow : AllSound teiid store' ↔ ParsableSound teiid view :=
    allRows_upsert (fun _ _ => parsableSound_flushed) hs h
  obtain ⟨base, viewDefn, created, touched, mid, hloaded, hupdated, _⟩ := upsertViewEditorState_ok h
  rw [hrow]
  unfold upsertKeepsSound
  cases hloaded with
  | new hfound =>
      rw [hfound]
      have hsound := parsableSound_of_created haccepts rfl hupdated
      simp [hsound]
  | persistent hfound =>
      rw [hfound]
      exact parsableSound_iff haccepts hupdated

/-- An import keeps them: its views are generated. -/
theorem allSound_import {teiid : Teiid} {finder : SchemaFinder} {store store' : Store}
    {virtualization teiidSourceName : String} {tables : List String}
    (haccepts : AcceptsGenerated teiid) (hs : AllSound teiid store)
    (h : importViews teiid finder store virtualization teiidSourceName tables = .ok store') :
    AllSound teiid store' := by
  show AllRows (ParsableSound teiid) store'
  refine allRows_import (fun old view => parsableSound_flushed) ?_ ?_ hs h
  · intro store view hview
    exact hview
  · intro t viewDefn imported _ himported
    exact parsableSound_of_imported haccepts (imported_of_importedView himported)

/-- A virtualization that is created has no views. -/
theorem views_of_create {teiid : Teiid} {store store' : Store} {rest : RestDataVirtualization}
    (h : createDataVirtualization teiid store rest = .ok store') : store'.views = store.views := by
  unfold createDataVirtualization at h
  obtain ⟨restName, _, h⟩ := bind_eq_ok.mp h
  split at h
  · cases h
  · cases pure_eq_ok.mp h
    rfl

/-- An update of a virtualization writes none. -/
theorem views_of_update {store store' : Store} {virtualization : String}
    {rest : RestDataVirtualization}
    (h : updateDataVirtualization store virtualization rest = .ok store') :
    store'.views = store.views := by
  unfold updateDataVirtualization at h
  obtain ⟨restName, _, h⟩ := bind_eq_ok.mp h
  split at h
  · cases h
  · split at h
    · cases h
    · split at h <;> cases pure_eq_ok.mp h <;> rfl

/-- A deletion leaves the views of the others. -/
theorem views_of_delete {store store' : Store} {virtualization : String}
    (h : deleteDataVirtualization store virtualization = .ok store') :
    ∀ view ∈ store'.views, view ∈ store.views := by
  unfold deleteDataVirtualization Store.deleteDataVirtualization at h
  cases hfind : store.findDataVirtualization virtualization with
  | none =>
      rw [hfind] at h
      cases h
  | some deleted =>
      rw [hfind] at h
      cases h
      intro view hview
      exact (List.mem_filter.mp hview).1

/-! ## VDBs of sound views -/

/-- The loop of a preview meets no missing DDL. -/
theorem previewDdl_isOk {teiid : Teiid} {views : List ViewDefinition}
    (hs : ∀ view ∈ views, ParsableSound teiid view) (allViewDdl : String) :
    ∃ ddl, previewDdl views allViewDdl = .ok ddl := by
  induction views generalizing allViewDdl with
  | nil => exact ⟨allViewDdl, rfl⟩
  | cons view views ih =>
      rw [List.forall_mem_cons] at hs
      unfold previewDdl
      split
      · rename_i husable
        obtain ⟨hcomplete, hparsable⟩ := Bool.and_eq_true_iff.mp husable
        obtain ⟨ddl, hddl, _⟩ := hs.1 hcomplete hparsable
        rw [hddl]
        exact ih hs.2 _
      · exact ih hs.2 _

/-- The loop of a service VDB meets no missing DDL among views that are all parsable. -/
theorem serviceDdl_ne_nullDdl {teiid : Teiid} {getTable : String → Option (List IncomingObject)}
    {views : List ViewDefinition} (hs : ∀ view ∈ views, ParsableSound teiid view)
    (hparsable : ∀ view ∈ views, view.complete = true → view.parsable = true)
    (allViewDdl : String) (schemas : SchemaTableMap) :
    serviceDdl getTable views allViewDdl schemas ≠ .error (.nullPointer "viewDdl") := by
  induction views generalizing allViewDdl schemas with
  | nil => exact nofun
  | cons view views ih =>
      rw [List.forall_mem_cons] at hs hparsable
      unfold serviceDdl
      split
      · rename_i hcomplete
        obtain ⟨ddl, hddl, _⟩ := hs.1 hcomplete (hparsable.1 hcomplete)
        rw [hddl]
        dsimp only
        split
        · intro hrecord
          simp at hrecord
        · exact ih hs.2 hparsable.2 _ _
      · exact ih hs.2 hparsable.2 _ _

/-- Publishing sound views finds a text for each. -/
theorem publishedVdb_ne_nullDdl {teiid : Teiid} {finder : SchemaFinder} {virtualizationName : String}
    {getTable : String → Option (List IncomingObject)} {views : List ViewDefinition}
    (hs : ∀ view ∈ views, ParsableSound teiid view) :
    publishedVdb teiid finder virtualizationName getTable views ≠ .error (.nullPointer "viewDdl") := by
  unfold publishedVdb
  split
  · exact nofun
  · rename_i hall
    have hparsable : ∀ view ∈ views, view.complete = true → view.parsable = true := by
      simpa using hall
    intro h
    -- past the loop nothing dereferences a DDL
    unfold createServiceVdb at h
    cases hddl : serviceDdl getTable views "" [] with
    | error failure =>
        rw [hddl] at h
        cases h
        exact serviceDdl_ne_nullDdl hs hparsable "" [] hddl
    | ok result =>
        rw [hddl] at h
        cases h

/-! ## A parser of view names -/

/-- A quoted name, up to the quote that closes it. -/
def quotedName : List Char → List Char
  | '"' :: '"' :: cs => '"' :: quotedName cs
  | '"' :: _ => []
  | c :: cs => c :: quotedName cs
  | [] => []

/-- The name that a text of SQL starts with. -/
def leadingName : List Char → String
  | '"' :: cs => String.ofList (quotedName cs)
  | cs => String.ofList (cs.takeWhile letterOrDigit)

def createView : List Char := "CREATE VIEW ".toList

/-- A parser that takes every text that starts as a view does, and finds the view in it. -/
def parseView (ddl : String) : ValidationResult :=
  if createView.isPrefixOf ddl.toList then
    { schema := { name := "", tables := [{ name := leadingName (ddl.toList.drop createView.length) }] } }
  else { schema := { name := "" }, metadataException := some "parsing error" }

/-- Doubled quotes are read back. -/
theorem quotedName_doubled (name rest : List Char) :
    quotedName ((name.flatMap fun c => if c = '"' then ['"', '"'] else [c]) ++ '"' :: ' ' :: rest) =
      name := by
  induction name with
  | nil => rfl
  | cons c name ih =>
      by_cases hquote : c = '"'
      · subst hquote
        exact congrArg (List.cons '"') ih
      · rw [List.flatMap_cons, if_neg hquote]
        simp [quotedName, hquote, ih]

/-- The name of a view is read back from where it is escaped. -/
theorem leadingName_escapeAscii (name : String) (rest : List Char) :
    leadingName ((escapeAscii name).toList ++ ' ' :: rest) = name := by
  unfold escapeAscii
  split
  · rename_i hplain
    have hall : ∀ c ∈ name.toList, letterOrDigit c = true := by
      simpa [letterOrDigit] using hplain
    have htake : (name.toList ++ ' ' :: rest).takeWhile letterOrDigit = name.toList := by
      rw [List.takeWhile_append_of_pos hall]
      simp [letterOrDigit]
    unfold leadingName
    split
    · -- no name of letters and digits starts with a quote
      rename_i cs hquote
      cases hname : name.toList with
      | nil => simp [hname] at hquote
      | cons c tail =>
          have hc := hall c (by rw [hname]; exact List.mem_cons_self)
          rw [hname, List.cons_append] at hquote
          rw [(List.cons.inj hquote).1] at hc
          exact absurd hc (by decide)
    · rw [htake, String.ofList_toList]
  -- otherwise the name is quoted, with its quotes doubled
  · have hquote : "\"".toList = ['"'] := rfl
    simp only [String.toList_append, String.toList_ofList, List.append_assoc]
    rw [hquote, List.singleton_append, List.singleton_append, leadingName, quotedName_doubled,
      String.ofList_toList]

/-- A generated DDL starts with the name of the view. -/
theorem startView_of_getODataViewDdl {teiid : Teiid} {finder : SchemaFinder} {view : ViewDefinition}
    {ddl : String} (h : getODataViewDdl teiid finder view = .ok (some ddl)) :
    (startView teiid view.name).toList <+: ddl.toList := by
  unfold getODataViewDdl at h
  split at h
  · obtain ⟨infos, _, hinfos⟩ := bind_eq_ok.mp h
    match infos, hinfos with
    | some [], hinfos =>
        rw [← Option.some.inj (pure_eq_ok.mp hinfos)]
        simp only [String.toList_append, List.append_assoc]
        exact List.prefix_append _ _
    | some (left :: rest), hinfos =>
        rw [← Option.some.inj (pure_eq_ok.mp hinfos)]
        unfold getTablesViewDdl
        simp only [String.toList_append, List.append_assoc]
        exact List.prefix_append _ _
  · cases h

/-- A text that begins as a generated one is a view of its name. -/
theorem parseView_of_startView {name ddl : String}
    (h : (startView (.ascii parseView) name).toList <+: ddl.toList) :
    parseView ddl = { schema := { name := "", tables := [{ name := name }] } } := by
  obtain ⟨rest, hrest⟩ := h
  have hchars : ddl.toList = createView ++ ((escapeAscii name).toList ++ ' ' :: rest) := by
    rw [← hrest]
    have hspace : " ".toList = [' '] := rfl
    unfold startView createView
    rw [String.toList_append, String.toList_append, hspace, List.append_assoc, List.append_assoc,
      List.singleton_append]
    rfl
  unfold parseView
  rw [hchars, List.drop_left, leadingName_escapeAscii, if_pos]
  exact List.isPrefixOf_iff_prefix.mpr (List.prefix_append _ _)

/-- A parser of view names accepts whatever is generated. -/
theorem acceptsGenerated_parseView : AcceptsGenerated (.ascii parseView) := by
  intro finder view ddl _ hddl
  have hparse : (Teiid.ascii parseView).parse ddl =
      { schema := { name := "", tables := [{ name := view.name }] } } :=
    parseView_of_startView (startView_of_getODataViewDdl hddl)
  refine ⟨?_, ?_, ?_, ?_⟩
  · rw [hparse]
  · rw [hparse]
    exact ⟨{ name := view.name }, rfl, beq_self_eq_true _⟩
  · rw [hparse]
  · rw [hparse]

namespace DvServer

variable {teiid : Teiid}

/-! ## Runs -/

/-- An upsert that is made meets the condition. -/
def keepsParsable (s : DvServer teiid) (label : Label) : Bool :=
  match label with
  | .upsertViewEditorState _ restViewDefn => upsertKeepsSound teiid s.db.store restViewDefn
  | _ => true

/-- The condition on a step is exact. -/
theorem allSound_step_iff {s t : DvServer teiid} {label : Label}
    (haccepts : AcceptsGenerated teiid) (hs : AllSound teiid s.db.store)
    (h : next s label = some t) :
    AllSound teiid t.db.store ↔ keepsParsable s label = true := by
  obtain ⟨htransaction, _⟩ := transaction_of_next h
  cases label with
  | upsertViewEditorState finder restViewDefn =>
      obtain ⟨view, hupsert⟩ := upsert_of_transaction htransaction
      exact allSound_upsert haccepts hs hupsert
  | createDataVirtualization =>
      have hviews := views_of_create htransaction
      exact iff_of_true (allRows_of_subset hs fun view hview => hviews ▸ hview) rfl
  | updateDataVirtualization =>
      have hviews := views_of_update htransaction
      exact iff_of_true (allRows_of_subset hs fun view hview => hviews ▸ hview) rfl
  | deleteDataVirtualization =>
      exact iff_of_true (allRows_of_subset hs (views_of_delete htransaction)) rfl
  | removeViewDefinition => exact iff_of_true (allRows_remove hs htransaction) rfl
  | importViews => exact iff_of_true (allSound_import haccepts hs htransaction) rfl
  | updatePreviewVdb =>
      have hsame : s.db.store = t.db.store := Except.ok.inj htransaction
      exact iff_of_true (hsame ▸ hs) rfl

/-- In a run all complete and parsable views are sound in every state exactly if every upsert meets the
condition; then no VDB is made from a missing DDL. -/
theorem parsable_sound {s₀ s : DvServer teiid} {tr : List (DvServer teiid × Label)}
    (haccepts : AcceptsGenerated teiid) (hinit : Initial s₀) (hrun : (system teiid).Run s₀ tr s) :
    ((AllSound teiid s.db.store ∧ ∀ x ∈ tr, AllSound teiid x.1.db.store) ↔
        System.Guarded (fun s label => keepsParsable s label = true) tr) ∧
      (System.Guarded (fun s label => keepsParsable s label = true) tr →
        ∀ finder dvName vdbName getTable,
          (∃ vdb, createPreviewVdb dvName vdbName (s.db.store.findViewDefinitions dvName) = .ok vdb) ∧
            publishedVdb teiid finder dvName getTable (s.db.store.findViewDefinitions dvName) ≠
              .error (.nullPointer "viewDdl")) := by
  -- the first part is a run lemma; the second follows for the views that are stored at the end
  have hvisited : (AllSound teiid s.db.store ∧ ∀ x ∈ tr, AllSound teiid x.1.db.store) ↔
      System.Guarded (fun s label => keepsParsable s label = true) tr := by
    have hstart : AllSound teiid s₀.db.store := by
      intro view hview
      rw [hinit.2.1] at hview
      cases hview
    have hstep : ∀ s label t, True → AllSound teiid s.db.store → (system teiid).step s label t →
        (AllSound teiid t.db.store ↔ keepsParsable s label = true) :=
      fun _ _ _ _ hs hst => allSound_step_iff haccepts hs hst
    exact hrun.visited_iff (fun _ _ _ _ _ => trivial) hstep trivial hstart
  refine ⟨hvisited, ?_⟩
  intro hguard finder dvName vdbName getTable
  obtain ⟨hsound, _⟩ := hvisited.mpr hguard
  have hviews : ∀ view ∈ s.db.store.findViewDefinitions dvName, ParsableSound teiid view :=
    fun view hview => hsound view (List.mem_filter.mp hview).1
  constructor
  · obtain ⟨ddl, hddl⟩ := previewDdl_isOk hviews ""
    unfold createPreviewVdb
    rw [hddl]
    exact ⟨_, rfl⟩
  · exact publishedVdb_ne_nullDdl hviews

/-- A server whose Teiid finds the view in every text that starts as one. -/
def viewTeiid : Teiid := .ascii parseView

/-- A view is generated, set aside, and completed again with a text of the user's own. -/
def editedView : List Label :=
  [.createDataVirtualization { name := some "dv" },
    .upsertViewEditorState noSources generatedRequest,
    .upsertViewEditorState noSources { generatedRequest with complete := false },
    .upsertViewEditorState noSources
      { generatedRequest with userDefined := true, ddl := some "CREATE VIEW v AS SELECT 2 AS col" }]

/-- A view that was generated, set aside and edited. -/
theorem parsable_sound_edited :
    AllSound viewTeiid (System.after (@next viewTeiid) empty editedView).db.store := by
  have hrun := System.run_after Initial (@next viewTeiid) empty editedView
  have hguard : System.Guarded (fun s label => keepsParsable s label = true)
      (System.stepsOf (@next viewTeiid) empty editedView) := by decide
  exact ((parsable_sound acceptsGenerated_parseView initial_empty hrun).1.mpr hguard).1

/-- A view is generated, and then made user defined without a text. -/
def emptiedView : List Label :=
  [.createDataVirtualization { name := some "dv" },
    .upsertViewEditorState noSources generatedRequest,
    .upsertViewEditorState noSources { generatedRequest with userDefined := true }]

theorem parsable_emptied :
    ¬ ∀ (teiid : Teiid), AcceptsGenerated teiid →
      ∀ (s₀ s : DvServer teiid) (tr : List (DvServer teiid × Label)), Initial s₀ →
        (system teiid).Run s₀ tr s → AllSound teiid s.db.store := by
  intro h
  have hrun := System.run_after Initial (@next viewTeiid) empty emptiedView
  have hsound := h viewTeiid acceptsGenerated_parseView empty _ _ initial_empty hrun
  have hview := hsound
    { id := some 1, name := "v", dataVirtualizationName := "dv", complete := true,
      userDefined := true, parsable := true, version := some 2 } (by decide) rfl rfl
  obtain ⟨ddl, hddl, _⟩ := hview
  cases hddl

end DvServer

end TeiidSyndesis.Server
