/-
# TeiidSyndesis.Server.ViewAnnotation — the description in the generated view DDL.

`getTableAnnotation` puts the description of a view between two single quotes, as it is.  The names around
it are escaped, so that the rest of a generated text has no literal, whatever tables the view reads; the
description is a literal as long as it has no single quote itself.

Main results:
* `getODataViewDdl_described` — a generated text, as what stands around its annotation;
* `plain_escapeSinglePart`, `plainTable_getSourceTableInfos`, `parted_startView` — nothing around it has a
  literal;
* `sqlTokens_described`, `annotations_described` — so the options of the statement;
* `onlyAnnotated_iff` — they are the one annotation exactly if the description has no single quote;
* `description_apostrophe` — and one that has.
-/
import TeiidSyndesis.Library.SqlTokens
import TeiidSyndesis.Server.ViewColumns

namespace TeiidSyndesis.Server

open TeiidSyndesis.Library TeiidSyndesis.Library.Sql TeiidSyndesis.Model

/-! ## Options of a statement -/

def isLiteral : Token → Bool
  | .quotation .single _ => true
  | _ => false

/-- The literal of an `ANNOTATION` option that starts with a token. -/
def annotationAt : Token → List Token → Option String
  | .word key, .quotation .single text :: _ =>
      if asciiUpperCase (String.ofList key) = "ANNOTATION" then some (String.ofList text) else none
  | _, _ => none

/-- The literals of the `ANNOTATION` options, in order. -/
def annotations : List Token → List String
  | [] => []
  | token :: rest => (annotationAt token rest).toList ++ annotations rest

/-- The tokens of the option clause for a description. -/
def annotationOption (description : String) : List Token :=
  [.word "OPTIONS".toList, .symbol '(', .word "ANNOTATION".toList,
    .quotation .single description.toList, .symbol ')']

/-- A text reads as another one with the description in one option clause more, and it has no other
`ANNOTATION` option. -/
def OnlyAnnotated (ddl plain description : String) : Prop :=
  ∃ before after, sqlTokens plain = some (before ++ after) ∧
    sqlTokens ddl = some (before ++ (annotationOption description ++ after)) ∧
    annotations (before ++ (annotationOption description ++ after)) = [description]

/-! ## Texts without literals -/

/-- The names Teiid leaves as they are have the characters of a word; all others it puts in double quotes,
with the double quotes in them doubled. -/
def EscapesNames (teiid : Teiid) : Prop :=
  ∀ name, (teiid.escapeSinglePart name = name ∧ ∀ c ∈ name.toList, isWordChar c = true) ∨
    teiid.escapeSinglePart name = String.ofList (quote .double name.toList)

/-- A token that is no literal. -/
def NoLiteral (t : Token) : Prop := isLiteral t = false

instance : DecidablePred NoLiteral := fun t => inferInstanceAs (Decidable (isLiteral t = false))

/-- The text has no literal, and a separator ends its last token. -/
abbrev Plain (text : String) : Prop := Consists NoLiteral text

/-- A name that is escaped has no literal. -/
theorem plain_escapeSinglePart {teiid : Teiid} (hnames : EscapesNames teiid) (name : String) :
    Plain (teiid.escapeSinglePart name) := by
  rcases hnames name with ⟨hsame, hword⟩ | hquote
  · rw [hsame]
    exact consists_of_word hword rfl
  · rw [hquote]
    exact consists_quote rfl

/-- A list of texts without literals has none. -/
theorem plain_intercalate {texts : List String} (h : ∀ text ∈ texts, Plain text) :
    Plain (", ".intercalate texts) := consists_intercalate (by decide) (by decide) h

/-! ## Source tables -/

/-- The texts of a source table that go into a DDL. -/
structure PlainTable (info : TableInfo) : Prop where
  fqname : Plain info.fqname
  tableAlias : ∀ tableAlias ∈ info.tableAlias, Plain tableAlias
  names : ∀ column ∈ info.columnInfos, Plain column.name ∧ Plain column.aliasedName

variable {teiid : Teiid}

theorem plain_dotted {qualifier name : String} (hqualifier : Plain qualifier) (hname : Plain name) :
    Plain (qualifier ++ "." ++ name) := by
  have hdot : Parted NoLiteral (qualifier ++ ".") := hqualifier.append (by decide) (by decide)
  exact hdot.append_consists hname

/-- The texts of one table have none. -/
theorem plainTable_tableInfo (hnames : EscapesNames teiid) (schema : Schema) (path : String)
    (table : Table) {tableAlias : Option String} (halias : ∀ text ∈ tableAlias, Plain text) :
    PlainTable (tableInfo teiid schema path table tableAlias) := by
  refine ⟨plain_dotted (plain_escapeSinglePart hnames _) (plain_escapeSinglePart hnames _), halias, ?_⟩
  intro info hinfo
  obtain ⟨column, _, rfl⟩ := List.mem_map.mp hinfo
  have hname := plain_escapeSinglePart hnames column.name
  refine ⟨hname, ?_⟩
  cases tableAlias with
  | none => exact hname
  | some text => exact plain_dotted (halias text rfl) hname

theorem plain_tableAlias (index : Nat) : Plain ("t" ++ toString index) := by
  refine consists_of_word (fun c hc => ?_) rfl
  rw [String.toList_append] at hc
  rcases List.mem_append.mp hc with hc | hc
  · obtain rfl : c = 't' := by simpa using hc
    decide
  · have hdigits : (toString index).toList = Nat.toDigits 10 index := by
      show (Nat.repr index).toList = _
      simp [Nat.repr]
    have hdigit : c.isDigit = true := Nat.isDigit_of_mem_toDigits (by decide) (by decide) (hdigits ▸ hc)
    simp [isWordChar, Char.isAlphanum, hdigit]

/-- The loop over the paths of a view finds tables whose texts have no literal. -/
theorem plainTable_sourceTableInfos (hnames : EscapesNames teiid) {finder : SchemaFinder}
    {aliased : Bool} {paths : List String} {index : Nat} {infos : List TableInfo}
    (h : sourceTableInfos teiid finder aliased paths index = .ok (some infos)) :
    ∀ info ∈ infos, PlainTable info := by
  -- on the paths; the alias of each is `t` and its number
  induction paths generalizing index infos with
  | nil =>
      cases h
      exact nofun
  | cons path paths ih =>
      rw [sourceTableInfos] at h
      obtain ⟨options, _, h⟩ := bind_eq_ok.mp h
      obtain ⟨connectionName, _, h⟩ := bind_eq_ok.mp h
      obtain ⟨schemaModel, _, h⟩ := bind_eq_ok.mp h
      cases schemaModel with
      | none => cases h
      | some schema =>
          obtain ⟨tableName, _, h⟩ := bind_eq_ok.mp h
          split at h
          · cases h
          · rename_i table _
            obtain ⟨rest, hrest, h⟩ := bind_eq_ok.mp h
            cases rest with
            | none => cases h
            | some rest =>
                cases h
                rw [List.forall_mem_cons]
                refine ⟨plainTable_tableInfo hnames schema path table fun text htext => ?_, ih hrest⟩
                cases aliased with
                | false => cases htext
                | true =>
                    cases htext
                    exact plain_tableAlias _

/-- The tables of a view have texts without literals, with or without aliases. -/
theorem plainTable_getSourceTableInfos (hnames : EscapesNames teiid) {finder : SchemaFinder}
    {viewDef : ViewDefinition} {infos : List TableInfo}
    (h : getSourceTableInfos teiid finder viewDef = .ok (some infos)) :
    ∀ info ∈ infos, PlainTable info := by
  unfold getSourceTableInfos at h
  split at h
  · exact plainTable_sourceTableInfos hnames h
  · cases h

/-! ## The text of a view -/

/-- A column that replaces another keeps what holds of all. -/
theorem forall_putColumn {P : ColumnInfo → Prop} {columns : List ColumnInfo}
    (h : ∀ column ∈ columns, P column) {info : ColumnInfo} (hinfo : P info) :
    ∀ column ∈ putColumn columns info, P column := by
  unfold putColumn
  split
  · -- the new column takes the place of one with its name
    intro column hcolumn
    obtain ⟨old, hold, rfl⟩ := List.mem_map.mp hcolumn
    split
    · exact hinfo
    · exact h old hold
  · exact List.forall_mem_append.mpr ⟨h, List.forall_mem_singleton.mpr hinfo⟩

/-- A view projects columns of its first two tables. -/
theorem forall_projectedColumns {P : ColumnInfo → Prop} {left : TableInfo} {right : Option TableInfo}
    (hleft : ∀ info ∈ left.columnInfos, P info)
    (hright : ∀ table ∈ right, ∀ info ∈ table.columnInfos, P info) :
    ∀ info ∈ projectedColumns left right, P info := by
  have hcolumns : ∀ info ∈ left.columnInfos.foldl putColumn [], P info :=
    List.foldlRecOn (motive := fun columns => ∀ info ∈ columns, P info) _ _ nofun
      fun _ h info hinfo => forall_putColumn h (hleft info hinfo)
  cases right with
  | none => exact hcolumns
  | some right =>
      refine List.foldlRecOn (motive := fun columns => ∀ info ∈ columns, P info) _ _ hcolumns ?_
      intro columns h info hinfo
      split
      · exact h
      · exact List.forall_mem_append.mpr ⟨h, List.forall_mem_singleton.mpr (hright right rfl info hinfo)⟩

/-- A list of escaped names has no literal. -/
theorem plain_names {columns : List ColumnInfo} {text : ColumnInfo → String}
    (h : ∀ info ∈ columns, Plain (text info)) : Plain (", ".intercalate (columns.map text)) := by
  apply plain_intercalate
  intro name hname
  obtain ⟨info, hinfo, rfl⟩ := List.mem_map.mp hname
  exact h info hinfo

/-- The names in a key clause are names of columns. -/
theorem plain_keyClause {columns : List ColumnInfo} (h : ∀ info ∈ columns, Plain info.name)
    {text : String} (htext : Plain text) (constraint : Option KeyRecord) :
    Plain (text ++ keyClause columns constraint) := by
  have hempty : Plain (text ++ "") := by
    rw [String.append_empty]
    exact htext
  unfold keyClause
  cases constraint with
  | none => exact hempty
  | some constraint =>
      dsimp only
      split
      · rename_i hall
        -- a name of the key is, as it stands, the escaped name of a column
        have hkeys : ∀ name ∈ constraint.columns.map (·.name), Plain name := by
          intro name hname
          obtain ⟨column, hcolumn, rfl⟩ := List.mem_map.mp hname
          have hcolumn := List.all_eq_true.mp hall column hcolumn
          obtain ⟨info, hinfo, hsame⟩ := List.any_eq_true.mp hcolumn
          rw [← of_decide_eq_true hsame]
          exact h info hinfo
        have hopen : Parted NoLiteral
            (text ++ (", " ++ (if constraint.primary then "PRIMARY KEY" else "UNIQUE") ++ "(")) := by
          cases constraint.primary with
          | false => exact htext.append (by decide) (by decide)
          | true => exact htext.append (by decide) (by decide)
        have hclose : Parted NoLiteral ")" := by decide
        have hclause := (hopen.append_consists (plain_intercalate hkeys)).append hclose (by decide)
        simpa [String.append_assoc] using hclause.consists
      · exact hempty

/-- The beginning of a text has its tokens for itself. -/
theorem parted_startView (hnames : EscapesNames teiid) (viewName : String) :
    Parted NoLiteral (startView teiid viewName) := by
  have hcreate : Parted NoLiteral "CREATE VIEW " := by decide
  exact (hcreate.append_consists (plain_escapeSinglePart hnames viewName)).append (by decide) (by decide)

/-- What stands in front of the description and behind it has no literal. -/
theorem getTablesViewDdl_described (hnames : EscapesNames teiid) (viewDef : ViewDefinition)
    {left : TableInfo} {rest : List TableInfo} (hleft : PlainTable left)
    (hrest : ∀ info ∈ rest, PlainTable info) :
    ∃ head tail, Parted NoLiteral head ∧ Plain tail ∧ ∀ description,
      getTablesViewDdl teiid { viewDef with description := description } left rest =
        head ++ getTableAnnotation description ++ tail := by
  let columns := projectedColumns left rest.head?
  have hcolumns : ∀ info ∈ columns, Plain info.name ∧ Plain info.aliasedName :=
    forall_projectedColumns hleft.names fun table htable => (hrest table (List.mem_of_mem_head? htable)).names
  -- the header, up to where a description may stand
  have hheader : Parted NoLiteral (startView teiid viewDef.name ++ "(" ++
      ", ".intercalate (columns.map (·.name)) ++
      (if rest.isEmpty then keyClause columns left.constraint else "") ++ ") ") := by
    have hopen : Parted NoLiteral (startView teiid viewDef.name ++ "(") :=
      (parted_startView hnames viewDef.name).append (by decide)
    have hcolumnNames := hopen.append_consists (plain_names fun info hinfo => (hcolumns info hinfo).1)
    refine Consists.append ?_ (by decide) (by decide)
    split
    · exact plain_keyClause (fun info hinfo => (hcolumns info hinfo).1) hcolumnNames _
    · rw [String.append_empty]
      exact hcolumnNames
  -- the SELECT list and the FROM clause
  have hfrom : Plain (if rest.isEmpty then left.fqname
      else left.fqname ++ " AS " ++ left.tableAlias.getD "null") := by
    split
    · exact hleft.fqname
    · have has : Parted NoLiteral (left.fqname ++ " AS ") := hleft.fqname.append (by decide) (by decide)
      refine has.append_consists ?_
      cases halias : left.tableAlias with
      | none =>
          have hnull : "null".toList.all isWordChar = true := by decide
          exact consists_of_word (List.all_eq_true.mp hnull) rfl
      | some tableAlias => exact hleft.tableAlias tableAlias halias
  have hselect : Parted NoLiteral ("AS \nSELECT " ++ ", ".intercalate (columns.map (·.aliasedName)) ++
      "\n" ++ "FROM ") := by
    have has : Parted NoLiteral "AS \nSELECT " := by decide
    have hitems := has.append_consists (plain_names fun info hinfo => (hcolumns info hinfo).2)
    exact (hitems.append (by decide) (by decide)).append (by decide)
  refine ⟨_, _, hheader, hselect.append_consists hfrom, fun description => ?_⟩
  simp only [getTablesViewDdl, columns, String.append_assoc]

/-- The same for all generated texts; a view of no table has no columns. -/
theorem getODataViewDdl_described (hnames : EscapesNames teiid) {finder : SchemaFinder}
    {viewDef : ViewDefinition} {ddl : String}
    (h : getODataViewDdl teiid finder viewDef = .ok (some ddl)) :
    ∃ head tail, Parted NoLiteral head ∧ Plain tail ∧ ∀ description,
      getODataViewDdl teiid finder { viewDef with description := description } =
        .ok (some (head ++ getTableAnnotation description ++ tail)) := by
  unfold getODataViewDdl at h
  split at h
  · rename_i hcomplete
    obtain ⟨infos, hinfos, h⟩ := bind_eq_ok.mp h
    unfold getODataViewDdl
    simp only [if_pos hcomplete]
    match infos, hinfos, h with
    | some [], hinfos, _ =>
        refine ⟨startView teiid viewDef.name, "AS \nSELECT 1 as col;", parted_startView hnames _,
          Parted.consists (by decide), fun description => ?_⟩
        exact bind_eq_ok.mpr ⟨some [], hinfos, rfl⟩
    | some (left :: rest), hinfos, _ =>
        have hplain := plainTable_getSourceTableInfos hnames hinfos
        rw [List.forall_mem_cons] at hplain
        obtain ⟨head, tail, hhead, htail, htext⟩ :=
          getTablesViewDdl_described hnames viewDef hplain.1 hplain.2
        refine ⟨head, tail, hhead, htail, fun description => ?_⟩
        exact bind_eq_ok.mpr ⟨some (left :: rest), hinfos, congrArg (pure ∘ some) (htext description)⟩
  · cases h

/-! ## The tokens of the annotation -/

/-- Without a literal behind it a token opens no annotation. -/
theorem annotationAt_eq_none {ts : List Token} (h : ∀ t ∈ ts.head?, NoLiteral t) (t : Token) :
    annotationAt t ts = none := by
  unfold annotationAt
  split
  · exact absurd (h _ rfl) (by simp [NoLiteral, isLiteral])
  · rfl

/-- Tokens without literals have no `ANNOTATION` option, and make none with what follows. -/
theorem annotations_append {ts us : List Token} (h : ∀ t ∈ ts, NoLiteral t)
    (hus : ∀ t ∈ us.head?, NoLiteral t) : annotations (ts ++ us) = annotations us := by
  induction ts with
  | nil => rfl
  | cons t ts ih =>
      rw [List.forall_mem_cons] at h
      have hnext : ∀ t ∈ (ts ++ us).head?, NoLiteral t := by
        cases ts with
        | nil => exact hus
        | cons next ts =>
            rintro _ ⟨⟩
            exact h.2 next List.mem_cons_self
      rw [List.cons_append, annotations, annotationAt_eq_none hnext, ih h.2]
      rfl

/-- Without literals there are no annotations. -/
theorem annotations_of_noLiteral {ts : List Token} (h : ∀ t ∈ ts, NoLiteral t) :
    annotations ts = [] := by
  have hnil := annotations_append h (show ∀ t ∈ ([] : List Token).head?, NoLiteral t from nofun)
  rwa [List.append_nil] at hnil

/-- What the clause for a description starts with, up to the quote. -/
def openOption : List Token := [.word "OPTIONS".toList, .symbol '(', .word "ANNOTATION".toList]

/-- How the description is put in. -/
theorem getTableAnnotation_toList {description : String} (h : description ≠ "") :
    ( getTableAnnotation (some description)).toList =
      "OPTIONS (ANNOTATION '".toList ++ (description.toList ++ "') ".toList) := by
  unfold getTableAnnotation
  simp only [if_neg h, String.toList_append, List.append_assoc]

/-- The reader behind the quote that the clause opens. -/
theorem scan_openOption :
    Reader.scan .between "OPTIONS (ANNOTATION '".toList = (openOption, .inside .single []) := by
  decide

variable {head tail description : String}

/-- The tokens of a text with a description, up to where the description begins. -/
theorem sqlTokens_described (hhead : Parted NoLiteral head) (h : description ≠ "") :
    sqlTokens (head ++ getTableAnnotation (some description) ++ tail) =
      (Reader.tokensFrom (.inside .single [])
        (description.toList ++ '\'' :: ')' :: ' ' :: tail.toList)).map
          ((scanned head).1 ++ openOption ++ ·) := by
  have hclose : "') ".toList = ['\'', ')', ' '] := rfl
  rw [String.append_assoc, hhead.sqlTokens_append, sqlTokens, String.toList_append,
    getTableAnnotation_toList h, hclose, List.append_assoc, Reader.tokensFrom_append, scan_openOption,
    Option.map_map, List.append_assoc]
  refine congrArg (Option.map · _) (funext fun ts => ?_)
  exact (List.append_assoc _ _ _).symm

/-- The option that the clause opens is the first one. -/
theorem annotations_described (hhead : Parted NoLiteral head) (text : List Char) (rest : List Token) :
    annotations ((scanned head).1 ++ openOption ++ .quotation .single text :: rest) =
      String.ofList text :: annotations rest := by
  have hsplit : (scanned head).1 ++ openOption ++ Token.quotation .single text :: rest =
      (scanned head).1 ++ (.word "OPTIONS".toList :: .symbol '(' :: .word "ANNOTATION".toList ::
        .quotation .single text :: rest) := by
    simp [openOption]
  have hkey : asciiUpperCase (String.ofList "ANNOTATION".toList) = "ANNOTATION" := by decide
  rw [hsplit, annotations_append hhead.2 (by rintro _ ⟨⟩; rfl)]
  simp only [annotations, annotationAt, if_pos hkey]
  rfl

/-- Without a single quote the description is the literal, and nothing else changes. -/
theorem onlyAnnotated_of_not_mem (hhead : Parted NoLiteral head) (htail : Plain tail) (h : description ≠ "")
    (hquote : '\'' ∉ description.toList) :
    OnlyAnnotated (head ++ getTableAnnotation (some description) ++ tail)
      (head ++ getTableAnnotation none ++ tail) description := by
  obtain ⟨ts, hts, hplain⟩ := htail.sqlTokens
  have hread : Reader.scan (.inside .single []) description.toList =
      ([], .inside .single description.toList) := by
    have hdoubled := scan_doubled .single description.toList []
    rwa [doubled_of_not_mem hquote] at hdoubled
  have hclosed : Reader.tokensFrom (.inside .single [])
      (description.toList ++ (['\'', ')', ' '] ++ tail.toList)) =
        some (.quotation .single description.toList :: .symbol ')' :: ts) := by
    rw [Reader.tokensFrom_append, hread, Reader.tokensFrom_append]
    show Option.map _ (Option.map _ (sqlTokens tail)) = _
    rw [hts]
    rfl
  have hplainText : sqlTokens (head ++ getTableAnnotation none ++ tail) = some ((scanned head).1 ++ ts) := by
    rw [String.append_assoc, hhead.sqlTokens_append, getTableAnnotation, String.empty_append, hts]
    rfl
  have hoption : annotationOption description ++ ts =
      openOption ++ .quotation .single description.toList :: .symbol ')' :: ts := by
    simp [annotationOption, openOption]
  refine ⟨(scanned head).1, ts, hplainText, ?_, ?_⟩
  · rw [sqlTokens_described hhead h, hoption, ← List.append_assoc]
    exact congrArg (Option.map _) hclosed
  · rw [hoption, ← List.append_assoc, annotations_described hhead, String.ofList_toList]
    refine congrArg (description :: ·) (annotations_of_noLiteral ?_)
    rw [List.forall_mem_cons]
    exact ⟨rfl, hplain⟩

/-- A single quote in the description makes the literal another one. -/
theorem not_mem_of_onlyAnnotated (hhead : Parted NoLiteral head) (h : description ≠ "") {plain : String}
    (honly : OnlyAnnotated (head ++ getTableAnnotation (some description) ++ tail) plain description) :
    '\'' ∉ description.toList := by
  intro hquote
  obtain ⟨before, after, _, hddl, hannotations⟩ := honly
  rw [sqlTokens_described hhead h] at hddl
  obtain ⟨ts, hts, hsame⟩ := Option.map_eq_some_iff.mp hddl
  -- the first literal is the content of the quotation the clause opens
  obtain ⟨rest, rfl⟩ := tokensFrom_inside hts
  rw [← hsame, annotations_described hhead, List.nil_append] at hannotations
  have htext := congrArg String.toList (List.cons.inj hannotations).1
  rw [String.toList_ofList] at htext
  exact content_spliced_ne (by decide) hquote _ htext

/-- A generated text with a description reads as the text without one and the description exactly if the
description has no single quote. -/
theorem onlyAnnotated_iff (hnames : EscapesNames teiid) {finder : SchemaFinder} {viewDef : ViewDefinition}
    (h : description ≠ "") {ddl : String}
    (hddl : getODataViewDdl teiid finder { viewDef with description := some description } =
      .ok (some ddl)) :
    ∃ plain, getODataViewDdl teiid finder { viewDef with description := none } = .ok (some plain) ∧
      (OnlyAnnotated ddl plain description ↔ '\'' ∉ description.toList) := by
  obtain ⟨head, tail, hhead, htail, hdescribed⟩ := getODataViewDdl_described hnames hddl
  have hsame := hddl.symm.trans (hdescribed (some description))
  obtain rfl := Option.some.inj (Except.ok.inj hsame)
  refine ⟨head ++ getTableAnnotation none ++ tail, hdescribed none, ?_⟩
  constructor
  · exact not_mem_of_onlyAnnotated hhead h
  · exact onlyAnnotated_of_not_mem hhead htail h

theorem isWordChar_of_letterOrDigit {c : Char}
    (h : 'a' ≤ c ∧ c ≤ 'z' ∨ 'A' ≤ c ∧ c ≤ 'Z' ∨ '0' ≤ c ∧ c ≤ '9') : isWordChar c = true := by
  have halphanum : c.isAlphanum = true := by
    rcases h with ⟨hfirst, hlast⟩ | ⟨hfirst, hlast⟩ | ⟨hfirst, hlast⟩
    · have hlower : c.isLower = true := Bool.and_eq_true_iff.mpr
        ⟨decide_eq_true hfirst, decide_eq_true hlast⟩
      exact Bool.or_eq_true_iff.mpr (.inl (Bool.or_eq_true_iff.mpr (.inr hlower)))
    · have hupper : c.isUpper = true := decide_eq_true ⟨hfirst, hlast⟩
      exact Bool.or_eq_true_iff.mpr (.inl (Bool.or_eq_true_iff.mpr (.inl hupper)))
    · have hdigit : c.isDigit = true := Bool.and_eq_true_iff.mpr
        ⟨decide_eq_true hfirst, decide_eq_true hlast⟩
      exact Bool.or_eq_true_iff.mpr (.inr hdigit)
  simp [isWordChar, halphanum]

/-- Escaping as it is done here quotes what is no plain name. -/
theorem escapesNames_ascii (parse : String → ValidationResult) : EscapesNames (.ascii parse) := by
  intro name
  show (escapeAscii name = name ∧ _) ∨ escapeAscii name = _
  unfold escapeAscii
  split
  · rename_i hplain
    refine .inl ⟨rfl, fun c hc => ?_⟩
    exact isWordChar_of_letterOrDigit (of_decide_eq_true (List.all_eq_true.mp hplain c hc))
  · right
    have hquote : "\"".toList = ['"'] := rfl
    have hdoubled : (name.toList.flatMap fun c => if c = '"' then ['"', '"'] else [c]) =
        doubled .double name.toList := by
      refine List.flatMap_congr fun c _ => ?_
      split
      · rename_i hc
        rw [hc]
        rfl
      · rename_i hc
        exact (if_neg hc).symm
    rw [hdoubled, ← String.toList_inj]
    simp only [String.toList_append, String.toList_ofList, hquote]
    rfl

/-- A description of the shop that would be two statements outside a literal. -/
def shopDescription : String := "by \"customer\"; DROP VIEW v -- all"

theorem onlyAnnotated_iff_shop :
    ∃ ddl plain,
      getODataViewDdl shopTeiid shopFinder { shopView with description := some shopDescription } =
        .ok (some ddl) ∧
      getODataViewDdl shopTeiid shopFinder { shopView with description := none } = .ok (some plain) ∧
      OnlyAnnotated ddl plain shopDescription := by
  have hddl : getODataViewDdl shopTeiid shopFinder
      { shopView with description := some shopDescription } =
        .ok (some ("CREATE VIEW v (id, \"customer name\", city) " ++
          "OPTIONS (ANNOTATION 'by \"customer\"; DROP VIEW v -- all') " ++
          "AS \nSELECT t1.id, t1.\"customer name\", t2.city\nFROM shop.orders AS t1")) := by
    decide +kernel
  obtain ⟨plain, hplain, honly⟩ := onlyAnnotated_iff (escapesNames_ascii _) (by decide) hddl
  exact ⟨_, plain, hddl, hplain, honly.mpr (by decide)⟩

/-- An apostrophe in the description of a view of no table. -/
theorem description_apostrophe :
    ¬ ∀ (teiid : Teiid), EscapesNames teiid → ∀ (finder : SchemaFinder) (viewDef : ViewDefinition)
      (description ddl : String), description ≠ "" →
        getODataViewDdl teiid finder { viewDef with description := some description } =
          .ok (some ddl) →
        ∃ plain, getODataViewDdl teiid finder { viewDef with description := none } = .ok (some plain) ∧
          OnlyAnnotated ddl plain description := by
  intro h
  have hddl : getODataViewDdl shopTeiid shopFinder
      { name := "v", dataVirtualizationName := "dv", complete := true, description := some "it's mine" } =
        .ok (some "CREATE VIEW v OPTIONS (ANNOTATION 'it's mine') AS \nSELECT 1 as col;") := by
    decide
  obtain ⟨plain, _, before, after, _, htokens, _⟩ :=
    h shopTeiid (escapesNames_ascii _) shopFinder
      { name := "v", dataVirtualizationName := "dv", complete := true } "it's mine" _ (by decide) hddl
  -- the literal that the closing quote opens does not end
  have hnone : sqlTokens "CREATE VIEW v OPTIONS (ANNOTATION 'it's mine') AS \nSELECT 1 as col;" = none := by
    decide
  rw [hnone] at htokens
  cases htokens

end TeiidSyndesis.Server
