/-
# TeiidSyndesis.Server.ViewDdlStatements — the statements of the generated view DDL.

`createPreviewVdb` puts a semicolon in front of a view text that does not end with one,
`createServiceVdb` puts it behind.  Both look at the last character only.  In front is too early where
the view before is the one that lacks the semicolon, and behind is inside the comment where the text
ends in a line comment.

Main results:
* `reads_appendDdls`, `reads_appendViewDdl` — what either loop writes, line by line;
* `around_previewLine`, `around_serviceLine` — the semicolons of one line;
* `previewLines_iff`, `serviceLines_iff`, `separated_iff` — so when the lines are kept apart;
* `statements_iff` — and when the two models hold the statements of their views;
* `preview_runs_together` — two texts of which only one model keeps both.
-/
import TeiidSyndesis.Library.Statements
import TeiidSyndesis.Server.ServiceVdbGenerator

namespace TeiidSyndesis.Server

open TeiidSyndesis.Library TeiidSyndesis.Model

/-! ## View texts -/

/-- The items of a text. -/
def textItems (text : String) : List Item := (itemsOf text).getD []

/-- A semicolon follows the statement of the text. -/
def SemicolonAfter (text : String) : Prop := Closed (textItems text)

/-- A semicolon stands before the statement of the text. -/
def SemicolonBefore (text : String) : Prop := Leads (textItems text)

/-- Neither generated text runs the statements of two neighbours together. -/
def Separated (text next : String) : Prop :=
  SemicolonAfter text ∨ SemicolonBefore next ∨
    (endsWithSemicolon next = false ∧ ¬EndsInComment text)

instance (text next : String) : Decidable (Separated text next) :=
  inferInstanceAs (Decidable (Closed _ ∨ Leads _ ∨ (_ ∧ _)))

/-- A view with its one statement. -/
def Parsed (viewDef : ViewDefinition) (s : Statement) : Prop :=
  viewDef.complete = true ∧ viewDef.parsable = true ∧
    ∃ viewDdl, viewDef.ddl = some viewDdl ∧ split viewDdl = some [s]

/-- The text of a view that has one. -/
def viewText (viewDef : ViewDefinition) : String := viewDef.ddl.getD ""

/-! ## What the two loops write for a text -/

/-- The items of the line `createPreviewVdb` writes. -/
def previewLine (text : String) : List Item :=
  (if endsWithSemicolon text then [] else [.cut]) ++
    (textItems text ++ if EndsInComment text then [] else [.blank])

/-- The items of the line `createServiceVdb` writes. -/
def serviceLine (text : String) : List Item :=
  textItems text ++
    if EndsInComment text then [] else if endsWithSemicolon text then [.blank] else [.cut, .blank]

/-- A text of one statement has items. -/
theorem itemsOf_eq {text : String} {s : Statement} (h : split text = some [s]) :
    itemsOf text = some (textItems text) ∧ statements (textItems text) = [s] := by
  obtain ⟨items, hitems, hs⟩ := Option.map_eq_some_iff.mp h
  unfold textItems
  rw [hitems]
  exact ⟨rfl, hs⟩

/-- What the loop of the preview writes. -/
theorem reads_appendDdls {texts : List String}
    (h : ∀ text ∈ texts, itemsOf text = some (textItems text)) {allViewDdl : String}
    {items : List Item} (hread : Reads allViewDdl.toList items) :
    ∃ ddl, appendDdls (texts.map some) allViewDdl = .ok ddl ∧
      Reads ddl.toList (items ++ (texts.map previewLine).flatten) := by
  induction texts generalizing allViewDdl items with
  | nil => exact ⟨allViewDdl, rfl, by simpa using hread⟩
  | cons text texts ih =>
      rw [List.forall_mem_cons] at h
      have hline := reads_line h.1
      have hnext : Reads ((if endsWithSemicolon text then allViewDdl else allViewDdl ++ ";") ++
          text ++ "\n").toList (items ++ previewLine text) := by
        unfold previewLine
        by_cases hends : endsWithSemicolon text = true
        · have happend := hread.append hline
          simpa [hends] using happend
        · have happend := hread.append (reads_semicolon.append hline)
          simpa [hends] using happend
      obtain ⟨ddl, hddl, hreads⟩ := ih h.2 hnext
      refine ⟨ddl, hddl, ?_⟩
      rw [List.map_cons, List.flatten_cons, ← List.append_assoc]
      exact hreads

/-- What the loop of the service VDB writes. -/
theorem reads_appendViewDdl {texts : List String}
    (h : ∀ text ∈ texts, itemsOf text = some (textItems text)) {allViewDdl : String}
    {items : List Item} (hread : Reads allViewDdl.toList items) :
    Reads (texts.foldl appendViewDdl allViewDdl).toList
      (items ++ (texts.map serviceLine).flatten) := by
  induction texts generalizing allViewDdl items with
  | nil => simpa using hread
  | cons text texts ih =>
      rw [List.forall_mem_cons] at h
      have hnext : Reads (appendViewDdl allViewDdl text).toList (items ++ serviceLine text) := by
        unfold appendViewDdl serviceLine
        by_cases hends : endsWithSemicolon text = true
        · have happend := hread.append (reads_line h.1)
          simpa [hends] using happend
        · have happend := hread.append (reads_semicolon_line h.1)
          simpa [hends] using happend
      rw [List.foldl_cons, List.map_cons, List.flatten_cons, ← List.append_assoc]
      exact ih h.2 hnext

/-! ## Where the lines are kept apart -/

/-- Semicolons and blanks written around a text count as those in it. -/
theorem around_line {text : String} {s : Statement} (h : statements (textItems text) = [s])
    {front back : List Item} (hfront : ∀ item ∈ front, isGap item) (hback : ∀ item ∈ back, isGap item) :
    ∃ before after, Around (front ++ (textItems text ++ back)) s before after ∧
      (.cut ∈ before ↔ .cut ∈ front ∨ SemicolonBefore text) ∧
      (.cut ∈ after ↔ SemicolonAfter text ∨ .cut ∈ back) := by
  obtain ⟨before, after, haround⟩ := exists_around h
  refine ⟨_, _, haround.append_gap hfront hback, ?_, ?_⟩
  · rw [List.mem_append, SemicolonBefore, haround.leads_iff]
  · rw [List.mem_append, SemicolonAfter, haround.closed_iff]

/-- A line of the preview, and where its semicolons are. -/
theorem around_previewLine {text : String} {s : Statement} (h : statements (textItems text) = [s]) :
    ∃ before after, Around (previewLine text) s before after ∧
      (.cut ∈ before ↔ endsWithSemicolon text = false ∨ SemicolonBefore text) ∧
      (.cut ∈ after ↔ SemicolonAfter text) := by
  have hfront : ∀ item ∈ (if endsWithSemicolon text then [] else [Item.cut]), isGap item := by
    split <;> simp [isGap]
  have hback : ∀ item ∈ (if EndsInComment text then [] else [Item.blank]), isGap item := by
    split <;> simp [isGap]
  obtain ⟨before, after, haround, hbefore, hafter⟩ := around_line h hfront hback
  refine ⟨before, after, haround, hbefore.trans (or_congr ?_ Iff.rfl), hafter.trans ?_⟩
  · cases endsWithSemicolon text <;> simp
  · split <;> simp

/-- A text that ends with a semicolon, and not in a comment, has it after its statement. -/
theorem around_serviceLine {text : String} {s : Statement}
    (hitems : itemsOf text = some (textItems text)) (h : statements (textItems text) = [s]) :
    ∃ before after, Around (serviceLine text) s before after ∧
      (.cut ∈ before ↔ SemicolonBefore text) ∧
      (.cut ∈ after ↔ SemicolonAfter text ∨ ¬EndsInComment text) := by
  have hback : ∀ item ∈ (if EndsInComment text then [] else
      if endsWithSemicolon text then [Item.blank] else [Item.cut, Item.blank]), isGap item := by
    repeat' split
    all_goals simp [isGap]
  obtain ⟨before, after, haround, hbefore, hafter⟩ :=
    @around_line text s h [] _ (List.forall_mem_nil _) hback
  refine ⟨before, after, haround, hbefore.trans (by simp), hafter.trans ?_⟩
  by_cases hcomment : EndsInComment text
  · simp [hcomment]
  · by_cases hends : endsWithSemicolon text = true
    · have hlast : text.toList.getLast? = some ';' := by simpa [endsWithSemicolon] using hends
      have hclosed : SemicolonAfter text := closed_of_getLast? hitems hlast hcomment
      simp [hcomment, hends, hclosed]
    · simp [hcomment, hends]

/-! ## The two generated texts -/

/-- Texts of one statement each. -/
def OneEach (texts : List String) (ss : List Statement) : Prop :=
  List.Forall₂ (fun text s => split text = some [s]) texts ss

/-- Each of the texts has one statement. -/
theorem OneEach.of_mem {texts : List String} {ss : List Statement} (h : OneEach texts ss) :
    ∀ text ∈ texts, ∃ s, split text = some [s] := by
  induction h with
  | nil => exact fun _ hmem => nomatch hmem
  | cons hsplit _ ih =>
      intro text hmem
      rcases List.mem_cons.mp hmem with rfl | hmem
      · exact ⟨_, hsplit⟩
      · exact ih text hmem

/-- The lines written for texts of one statement each hold one statement each. -/
theorem OneEach.around {texts : List String} {ss : List Statement} (h : OneEach texts ss)
    {line : String → List Item}
    (hline : ∀ text s, split text = some [s] → ∃ before after, Around (line text) s before after) :
    List.Forall₂ (fun block s => ∃ before after, Around block s before after) (texts.map line) ss := by
  induction h with
  | nil => exact .nil
  | cons hsplit _ ih => exact .cons (hline _ _ hsplit) ih

/-- The lines keep the statements exactly if between any two there is a semicolon, behind the first or
in front of the second. -/
theorem lines_iff {texts : List String} {ss : List Statement} (h : OneEach texts ss)
    {line : String → List Item} {Before After : String → Prop}
    (hline : ∀ text s, split text = some [s] → ∃ before after, Around (line text) s before after ∧
      (.cut ∈ before ↔ Before text) ∧ (.cut ∈ after ↔ After text)) :
    statements (texts.map line).flatten = ss ↔
      texts.IsChain fun text next => After text ∨ Before next := by
  have haround := h.around fun text s hsplit => by
    obtain ⟨before, after, haround, _⟩ := hline text s hsplit
    exact ⟨before, after, haround⟩
  rw [statements_flatten_iff haround, List.isChain_map]
  refine List.IsChain.iff_of_mem_imp fun text next htext hnext => or_congr ?_ ?_
  · obtain ⟨s, hs⟩ := h.of_mem text htext
    obtain ⟨before, after, haround, _, hafter⟩ := hline text s hs
    rw [haround.closed_iff, hafter]
  · obtain ⟨s, hs⟩ := h.of_mem next hnext
    obtain ⟨before, after, haround, hbefore, _⟩ := hline next s hs
    rw [haround.leads_iff, hbefore]

/-- When the lines of the preview are kept apart. -/
theorem previewLines_iff {texts : List String} {ss : List Statement} (h : OneEach texts ss) :
    statements (texts.map previewLine).flatten = ss ↔
      texts.IsChain fun text next =>
        SemicolonAfter text ∨ (endsWithSemicolon next = false ∨ SemicolonBefore next) :=
  lines_iff h fun _ _ hsplit => around_previewLine (itemsOf_eq hsplit).2

/-- When the lines of the service VDB are kept apart. -/
theorem serviceLines_iff {texts : List String} {ss : List Statement} (h : OneEach texts ss) :
    statements (texts.map serviceLine).flatten = ss ↔
      texts.IsChain fun text next =>
        (SemicolonAfter text ∨ ¬EndsInComment text) ∨ SemicolonBefore next :=
  lines_iff h fun _ _ hsplit => around_serviceLine (itemsOf_eq hsplit).1 (itemsOf_eq hsplit).2

/-- Both texts keep the statements apart exactly if any two neighbours are separated. -/
theorem separated_iff {texts : List String} :
    (texts.IsChain fun text next =>
        SemicolonAfter text ∨ (endsWithSemicolon next = false ∨ SemicolonBefore next)) ∧
      (texts.IsChain fun text next =>
        (SemicolonAfter text ∨ ¬EndsInComment text) ∨ SemicolonBefore next) ↔
      texts.IsChain Separated := by
  simp only [List.isChain_iff_forall_rel_of_append_cons_cons]
  constructor
  · rintro ⟨hpreview, hservice⟩ text next l₁ l₂ heq
    have hp := hpreview heq
    have hs := hservice heq
    unfold Separated
    tauto
  · intro h
    constructor
    · intro text next l₁ l₂ heq
      have hseparated := h heq
      unfold Separated at hseparated
      tauto
    · intro text next l₁ l₂ heq
      have hseparated := h heq
      unfold Separated at hseparated
      tauto

/-- The texts of parsed views have one statement each. -/
theorem texts_of_parsed {views : List ViewDefinition} {ss : List Statement}
    (h : List.Forall₂ Parsed views ss) :
    usableDdls views = (views.map viewText).map some ∧ completeDdls views = views.map viewText ∧
      OneEach (views.map viewText) ss ∧ ∀ viewDef ∈ views, viewDef.ddl.isSome := by
  induction h with
  | nil => exact ⟨rfl, rfl, .nil, fun _ hmem => nomatch hmem⟩
  | @cons viewDef s views ss hview _ ih =>
      obtain ⟨hcomplete, hparsable, viewDdl, hddl, hsplit⟩ := hview
      obtain ⟨husable, hcompletes, hone, hsome⟩ := ih
      have htext : viewText viewDef = viewDdl := by rw [viewText, hddl, Option.getD_some]
      refine ⟨?_, ?_, ?_, ?_⟩
      · rw [List.map_cons, List.map_cons, ← husable, htext]
        simp [usableDdls, usableDdl, hcomplete, hparsable, hddl]
      · rw [List.map_cons, ← hcompletes, htext]
        simp [completeDdls, hcomplete, hddl]
      · rw [List.map_cons, htext]
        exact .cons hsplit hone
      · rw [List.forall_mem_cons, hddl]
        exact ⟨rfl, hsome⟩

/-- The DDL of the view model, the first of a generated VDB. -/
def viewModelDdl (vdb : VDBMetaData) : Option String := vdb.models.head?.map (·.ddl)

/-- From complete and parsable views of one statement each, both generators make a VDB, and its view
model has just the statements of the views, in order, exactly if any two neighbours are separated. -/
theorem statements_iff {teiid : Teiid} {finder : SchemaFinder} {virtualizationName vdbName : String}
    {getTable : String → Option (List IncomingObject)} {views : List ViewDefinition}
    {ss : List Statement} (hviews : List.Forall₂ Parsed views ss)
    (htables : ∀ viewDef ∈ views, (getTable viewDef.name).isSome) :
    ∃ preview service, createPreviewVdb virtualizationName vdbName views = .ok preview ∧
      createServiceVdb teiid finder virtualizationName getTable views = .ok service ∧
      ((viewModelDdl preview).bind split = some ss ∧ (viewModelDdl service).bind split = some ss ↔
        (views.map viewText).IsChain Separated) := by
  obtain ⟨husable, hcomplete, hone, hsome⟩ := texts_of_parsed hviews
  have hitems : ∀ text ∈ views.map viewText, itemsOf text = some (textItems text) := by
    intro text hmem
    obtain ⟨s, hs⟩ := hone.of_mem text hmem
    exact (itemsOf_eq hs).1
  obtain ⟨allPreviewDdl, hpreview, hreads⟩ := @reads_appendDdls _ hitems "" [] reads_nil
  have hreads' := @reads_appendViewDdl _ hitems "" [] reads_nil
  have hservice := @serviceDdl_eq getTable views
    (fun viewDef hmem _ => ⟨hsome viewDef hmem, htables viewDef hmem⟩) "" []
  rw [hcomplete] at hservice
  -- both generators concatenate the same texts, each with separators of its own
  have hcreatePreview : createPreviewVdb virtualizationName vdbName views =
      .ok { name := vdbName
            models := [serviceModel virtualizationName allPreviewDdl]
            imports := [previewVdb]
            preview := true } := by
    rw [createPreviewVdb, previewDdl_eq, husable, hpreview]
    rfl
  have hcreateService : createServiceVdb teiid finder virtualizationName getTable views =
      .ok { name := virtualizationName
            models :=
              serviceModel virtualizationName ((views.map viewText).foldl appendViewDdl "") ::
                ((incomingObjects getTable views).foldl addIncoming []).map
                  (sourceModel teiid finder) } := by
    rw [createServiceVdb, hservice]
    rfl
  refine ⟨_, _, hcreatePreview, hcreateService, ?_⟩
  show split allPreviewDdl = some ss ∧
      split ((views.map viewText).foldl appendViewDdl "") = some ss ↔ _
  rw [split_of_reads hreads, split_of_reads hreads', List.nil_append, List.nil_append,
    Option.some.injEq, Option.some.injEq, previewLines_iff hone, serviceLines_iff hone,
    separated_iff]

/-! ## Two views -/

/-- A complete and parsable view. -/
def plainView (name ddl : String) : ViewDefinition :=
  { name := name, dataVirtualizationName := "dv", ddl := some ddl, complete := true, parsable := true }

/-- The texts as `getODataViewDdl` generates them: over no source, and over one. -/
def constantView : ViewDefinition := plainView "a" "CREATE VIEW a AS \nSELECT 1 as col;"

/-- A text over one table. -/
def tableView : ViewDefinition := plainView "b" "CREATE VIEW b (c) AS \nSELECT c\nFROM s.t"

theorem statements_iff_generated :
    ∃ ss preview service, List.Forall₂ Parsed [constantView, tableView] ss ∧
      createPreviewVdb "dv" "p" [constantView, tableView] = .ok preview ∧
      createServiceVdb (.ascii fun _ => { schema := { name := "dv" } }) noSources "dv"
        (fun _ => some []) [constantView, tableView] = .ok service ∧
      (viewModelDdl preview).bind split = some ss ∧ (viewModelDdl service).bind split = some ss := by
  have hviews : List.Forall₂ Parsed [constantView, tableView] _ :=
    .cons ⟨rfl, rfl, _, rfl, rfl⟩ (.cons ⟨rfl, rfl, _, rfl, rfl⟩ .nil)
  obtain ⟨preview, service, hpreview, hservice, hiff⟩ := @statements_iff
    (.ascii fun _ => { schema := { name := "dv" } }) noSources "dv" "p" (fun _ => some []) _ _ hviews
    fun _ _ => rfl
  have hseparated : ([constantView, tableView].map viewText).IsChain Separated := by decide
  exact ⟨_, preview, service, hviews, hpreview, hservice, hiff.mpr hseparated⟩

/-- A view over a table, and behind it one without sources. -/
theorem preview_runs_together :
    ¬ ∀ (teiid : Teiid) (finder : SchemaFinder) (virtualizationName vdbName : String)
      (getTable : String → Option (List IncomingObject)) (views : List ViewDefinition)
      (ss : List Statement), List.Forall₂ Parsed views ss →
      (∀ viewDef ∈ views, (getTable viewDef.name).isSome) →
      ∃ preview service, createPreviewVdb virtualizationName vdbName views = .ok preview ∧
        createServiceVdb teiid finder virtualizationName getTable views = .ok service ∧
        (viewModelDdl preview).bind split = some ss ∧ (viewModelDdl service).bind split = some ss := by
  intro h
  have hviews : List.Forall₂ Parsed [tableView, constantView] _ :=
    .cons ⟨rfl, rfl, _, rfl, rfl⟩ (.cons ⟨rfl, rfl, _, rfl, rfl⟩ .nil)
  obtain ⟨preview, _, hpreview, _, hsplit, _⟩ := h (.ascii fun _ => { schema := { name := "dv" } })
    noSources "dv" "p" (fun _ => some []) _ _ hviews fun _ _ => rfl
  have hmodel : createPreviewVdb "dv" "p" [tableView, constantView] = .ok preview := hpreview
  cases hmodel
  have hlength := congrArg (Option.map List.length) hsplit
  exact absurd hlength (by decide)

end TeiidSyndesis.Server
