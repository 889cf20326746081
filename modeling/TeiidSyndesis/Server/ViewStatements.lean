/-
# TeiidSyndesis.Server.ViewStatements — the view models of the preview VDB and the service VDB.

Both generators append the texts of the complete views, the preview VDB with parsable ones only.  When
no complete view is unparsable and the texts are kept apart, the two view models hold the same
statements, one for each complete view.

Main results:
* `WellFormed.exists_statements`, `StatementsOf.creates_iff` — one statement for each complete view;
* `split_previewDdl`, `split_serviceDdl` — and the two view models split into these.
-/
import TeiidSyndesis.Library.Results
import TeiidSyndesis.Server.LoadedVdbs

namespace TeiidSyndesis.Server

open TeiidSyndesis.Library TeiidSyndesis.Model

/-! ## The statements of the views -/

/-- The views that are complete. -/
def completeViews (views : List ViewDefinition) : List ViewDefinition := views.filter (·.complete)

theorem mem_completeViews {views : List ViewDefinition} {viewDef : ViewDefinition} :
    viewDef ∈ completeViews views ↔ viewDef ∈ views ∧ viewDef.complete = true := List.mem_filter

/-- Only the complete views count for either VDB. -/
theorem usableDdls_completeViews (views : List ViewDefinition) :
    usableDdls (completeViews views) = usableDdls views := by
  unfold usableDdls completeViews
  rw [List.filterMap_filter]
  congr 1
  funext viewDef
  unfold usableDdl
  cases viewDef.complete <;> rfl

/-- Their texts are those the service VDB takes. -/
theorem completeDdls_completeViews (views : List ViewDefinition) :
    completeDdls (completeViews views) = completeDdls views := by
  unfold completeDdls completeViews
  rw [List.filterMap_filter]
  congr 1
  funext viewDef
  cases viewDef.complete <;> rfl

/-- Each side of a pairing has its partner on the other. -/
theorem partner_of_forall₂ {α β : Type} {R : α → β → Prop} {as : List α} {bs : List β}
    (h : List.Forall₂ R as bs) :
    (∀ b ∈ bs, ∃ a ∈ as, R a b) ∧ ∀ a ∈ as, ∃ b ∈ bs, R a b := by
  induction h with
  | nil => simp
  | @cons a b as bs hab _ ih =>
      constructor
      · intro b' hb'
        rcases List.mem_cons.mp hb' with rfl | hb'
        · exact ⟨a, List.mem_cons_self, hab⟩
        · obtain ⟨a', ha', hr⟩ := ih.1 b' hb'
          exact ⟨a', List.mem_cons_of_mem _ ha', hr⟩
      · intro a' ha'
        rcases List.mem_cons.mp ha' with rfl | ha'
        · exact ⟨b, List.mem_cons_self, hab⟩
        · obtain ⟨b', hb', hr⟩ := ih.2 a' ha'
          exact ⟨b', List.mem_cons_of_mem _ hb', hr⟩

section

variable {ForeignTable Query : Type} {teiid : Teiid} {loader : DdlLoader ForeignTable Query}
  {views : List ViewDefinition} {statements : List Statement}

/-- The text of the view is one statement, which creates a table of this name. -/
def Creates (loader : DdlLoader ForeignTable Query) (viewDef : ViewDefinition) (name : String)
    (query : Query) : Prop :=
  ∃ viewDdl statement, viewDef.ddl = some viewDdl ∧ split viewDdl = some [statement] ∧
    loader.createView statement = some (name, query)

/-- A text creates one table. -/
theorem Creates.unique {viewDef : ViewDefinition} {name name' : String} {query query' : Query}
    (h : Creates loader viewDef name query) (h' : Creates loader viewDef name' query') :
    name = name' ∧ query = query' := by
  obtain ⟨viewDdl, statement, hddl, hsplit, hcreate⟩ := h
  obtain ⟨viewDdl', statement', hddl', hsplit', hcreate'⟩ := h'
  obtain rfl : viewDdl = viewDdl' := Option.some.inj (hddl.symm.trans hddl')
  rw [hsplit, Option.some.injEq, List.cons.injEq] at hsplit'
  rw [hsplit'.1, hcreate', Option.some.injEq, Prod.mk.injEq] at hcreate
  exact ⟨hcreate.1.symm, hcreate.2.symm⟩

/-- The texts of the complete views, as the generators and Teiid expect them. -/
structure WellFormed (teiid : Teiid) (loader : DdlLoader ForeignTable Query)
    (views : List ViewDefinition) : Prop where
  /-- what a text creates is found under the name of its view, and of no other -/
  created : ∀ viewDef ∈ completeViews views, ∃ name query, Creates loader viewDef name query ∧
    ∀ other ∈ completeViews views, teiid.equalsIgnoreCase name other.name = true ↔ other = viewDef
  /-- the generators keep the statements apart -/
  separated : ((completeViews views).map viewText).IsChain Separated

/-- The statements are those of the views, in order. -/
def StatementsOf (views : List ViewDefinition) (statements : List Statement) : Prop :=
  List.Forall₂ Parsed (completeViews views) statements

/-- Views that are well formed, and all parsable, have their statements. -/
theorem WellFormed.exists_statements (h : WellFormed teiid loader views)
    (hparsable : ∀ viewDef ∈ views, viewDef.complete = true → viewDef.parsable = true) :
    ∃ statements, StatementsOf views statements := by
  have hparsed : ∀ viewDef ∈ completeViews views, ∃ statement, Parsed viewDef statement := by
    intro viewDef hview
    obtain ⟨hmem, hcomplete⟩ := mem_completeViews.mp hview
    obtain ⟨_, _, ⟨viewDdl, statement, hddl, hsplit, _⟩, _⟩ := h.created viewDef hview
    exact ⟨statement, hcomplete, hparsable viewDef hmem hcomplete, viewDdl, hddl, hsplit⟩
  unfold StatementsOf
  revert hparsed
  generalize completeViews views = complete
  intro hparsed
  induction complete with
  | nil => exact ⟨[], .nil⟩
  | cons viewDef rest ih =>
      rw [List.forall_mem_cons] at hparsed
      obtain ⟨statement, hstatement⟩ := hparsed.1
      obtain ⟨statements, hrest⟩ := ih hparsed.2
      exact ⟨statement :: statements, .cons hstatement hrest⟩

/-- The tables the statements create are the tables the views create. -/
theorem StatementsOf.creates_iff (h : StatementsOf views statements) {name : String}
    {query : Query} :
    (∃ statement ∈ statements, loader.createView statement = some (name, query)) ↔
      ∃ viewDef ∈ completeViews views, Creates loader viewDef name query := by
  constructor
  · rintro ⟨statement, hmem, hcreate⟩
    obtain ⟨viewDef, hview, _, _, viewDdl, hddl, hsplit⟩ := (partner_of_forall₂ h).1 statement hmem
    exact ⟨viewDef, hview, viewDdl, statement, hddl, hsplit, hcreate⟩
  · rintro ⟨viewDef, hview, viewDdl, statement, hddl, hsplit, hcreate⟩
    obtain ⟨other, hother, _, _, viewDdl', hddl', hsplit'⟩ := (partner_of_forall₂ h).2 viewDef hview
    obtain rfl : viewDdl = viewDdl' := Option.some.inj (hddl.symm.trans hddl')
    rw [hsplit, Option.some.injEq, List.cons.injEq] at hsplit'
    exact ⟨other, hother, hsplit'.1 ▸ hcreate⟩

/-- The view model of the preview VDB holds the statements of the views. -/
theorem split_previewDdl (hwell : WellFormed teiid loader views) (h : StatementsOf views statements)
    {virtualizationName vdbName : String} {preview : VDBMetaData}
    (hpreview : createPreviewVdb virtualizationName vdbName views = .ok preview) :
    ∃ allViewDdl, split allViewDdl = some statements ∧
      preview =
        { name := vdbName
          models := [serviceModel virtualizationName allViewDdl]
          imports := [previewVdb]
          preview := true } := by
  obtain ⟨husable, -, hone, -⟩ := texts_of_parsed h
  have hitems : ∀ text ∈ (completeViews views).map viewText, itemsOf text = some (textItems text) := by
    intro text hmem
    obtain ⟨s, hs⟩ := hone.of_mem text hmem
    exact (itemsOf_eq hs).1
  obtain ⟨allViewDdl, hddl, hreads⟩ := @reads_appendDdls _ hitems "" [] reads_nil
  rw [createPreviewVdb, previewDdl_eq, ← usableDdls_completeViews, husable, hddl] at hpreview
  refine ⟨allViewDdl, ?_, (Except.ok.inj hpreview).symm⟩
  rw [split_of_reads hreads, List.nil_append, (previewLines_iff hone).mpr]
  exact (separated_iff.mpr hwell.separated).1

/-- Where the loop of `createServiceVdb` returns, each complete view has a table. -/
theorem isSome_of_serviceDdl {getTable : String → Option (List IncomingObject)}
    {allViewDdl : String} {schemas : SchemaTableMap} {result : String × SchemaTableMap}
    (h : serviceDdl getTable views allViewDdl schemas = .ok result) :
    ∀ viewDef ∈ views, viewDef.complete = true →
      viewDef.ddl.isSome ∧ (getTable viewDef.name).isSome := by
  induction views generalizing allViewDdl schemas with
  | nil => exact fun _ hmem => nomatch hmem
  | cons viewDef views ih =>
      rw [List.forall_mem_cons]
      unfold serviceDdl at h
      by_cases hcomplete : viewDef.complete = true
      · rw [if_pos hcomplete] at h
        cases hddl : viewDef.ddl with
        | none =>
            rw [hddl] at h
            cases h
        | some viewDdl =>
            rw [hddl] at h
            cases htable : getTable viewDef.name with
            | none =>
                rw [htable] at h
                cases h
            | some incoming =>
                rw [htable] at h
                exact ⟨fun _ => ⟨rfl, rfl⟩, ih h⟩
      · rw [if_neg hcomplete] at h
        exact ⟨fun hnow => absurd hnow hcomplete, ih h⟩

/-- So does the view model of the service VDB; its source models are for what the views read. -/
theorem split_serviceDdl (hwell : WellFormed teiid loader views) (h : StatementsOf views statements)
    {finder : SchemaFinder} {virtualizationName : String}
    {getTable : String → Option (List IncomingObject)} {service : VDBMetaData}
    (hservice : createServiceVdb teiid finder virtualizationName getTable views = .ok service) :
    ∃ allViewDdl, split allViewDdl = some statements ∧
      service =
        { name := virtualizationName
          models :=
            serviceModel virtualizationName allViewDdl ::
              ((incomingObjects getTable views).foldl addIncoming []).map
                (sourceModel teiid finder) } := by
  obtain ⟨-, hcomplete, hone, -⟩ := texts_of_parsed h
  have hitems : ∀ text ∈ (completeViews views).map viewText, itemsOf text = some (textItems text) := by
    intro text hmem
    obtain ⟨s, hs⟩ := hone.of_mem text hmem
    exact (itemsOf_eq hs).1
  have hreads := @reads_appendViewDdl _ hitems "" [] reads_nil
  obtain ⟨result, hloop, -⟩ := bind_eq_ok.mp hservice
  have hsome := isSome_of_serviceDdl hloop
  rw [createServiceVdb, serviceDdl_eq hsome, ← completeDdls_completeViews, hcomplete] at hservice
  refine ⟨_, ?_, (Except.ok.inj hservice).symm⟩
  rw [split_of_reads hreads, List.nil_append, (serviceLines_iff hone).mpr]
  exact (separated_iff.mpr hwell.separated).2

end

end TeiidSyndesis.Server
