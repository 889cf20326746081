/-
# TeiidSyndesis.Server.ViewKeys — the key of a view over one table.

The header of a generated view has the escaped names of its columns.  The key clause is looked up and
written with the names as they are: where a name of the key has to be escaped the clause is left out, or,
where another column is called what this one is escaped to, names that column.

Main results:
* `escapeSinglePart_eq_or_lt`, `length_intercalate` — an escaped name is the name, or longer;
* `preservedKey_eq`, `keyClause_eq_iff` — so which clause is written, and when it is the one asked for;
* `keyPreserved_iff` — the exact condition for the view to keep the key of its table;
* `key_lost` — and a key that is lost.
-/
import TeiidSyndesis.Server.ViewAnnotation

namespace TeiidSyndesis.Server

open TeiidSyndesis.Library TeiidSyndesis.Library.Sql TeiidSyndesis.Model

/-! ## The clause a table asks for -/

/-- What Teiid's metadata promises of the keys of a table. -/
structure WellKeyed (table : Table) : Prop where
  primary : ∀ key ∈ table.primaryKey, key.primary = true
  unique : ∀ key ∈ table.uniqueKeys, key.primary = false
  columns : ∀ key ∈ table.primaryKey.toList ++ table.uniqueKeys, ∀ column ∈ key.columns,
    column ∈ table.columns

/-- The columns of a key as they stand in the header. -/
def headerNames (teiid : Teiid) (key : KeyRecord) : String :=
  ", ".intercalate (key.columns.map fun column => teiid.escapeSinglePart column.name)

/-- The primary key, or else the first unique key. -/
def preservedKey (teiid : Teiid) (table : Table) : String :=
  match table.primaryKey, table.uniqueKeys with
  | some key, _ => ", PRIMARY KEY(" ++ headerNames teiid key ++ ")"
  | none, key :: _ => ", UNIQUE(" ++ headerNames teiid key ++ ")"
  | none, [] => ""

/-- The text of a view over one table with a key clause behind its columns. -/
def keyedDdl (teiid : Teiid) (viewDef : ViewDefinition) (table : TableInfo) (key : String) : String :=
  let columns := projectedColumns table none
  startView teiid viewDef.name ++ "(" ++ ", ".intercalate (columns.map (·.name)) ++ key ++ ") " ++
    getTableAnnotation viewDef.description ++ "AS \nSELECT " ++
    ", ".intercalate (columns.map (·.aliasedName)) ++ "\n" ++ "FROM " ++ table.fqname

/-- The key of the table is the key of the view. -/
def KeyPreserved (teiid : Teiid) (viewDef : ViewDefinition) (path : String) (source : Schema × Table)
    (ddl : String) : Prop :=
  ddl = keyedDdl teiid viewDef (tableInfo teiid source.1 path source.2 none) (preservedKey teiid source.2)

instance (teiid : Teiid) (viewDef : ViewDefinition) (path : String) (source : Schema × Table)
    (ddl : String) : Decidable (KeyPreserved teiid viewDef path source ddl) :=
  inferInstanceAs (Decidable (_ = _))

/-! ## Lengths of names -/

/-- An escaped name is the name itself or longer. -/
theorem escapeSinglePart_eq_or_lt {teiid : Teiid} (hnames : EscapesNames teiid) (name : String) :
    teiid.escapeSinglePart name = name ∨ name.length < (teiid.escapeSinglePart name).length := by
  rcases hnames name with ⟨hsame, _⟩ | hquote
  · exact .inl hsame
  · right
    rw [hquote, String.length_ofList, ← String.length_toList]
    exact lt_length_quote .double name.toList

/-- Lists of names are as long only if no name is escaped. -/
theorem length_intercalate {escape : String → String}
    (h : ∀ name, escape name = name ∨ name.length < (escape name).length) (names : List String) :
    (", ".intercalate names).length ≤ (", ".intercalate (names.map escape)).length ∧
      ((", ".intercalate names).length = (", ".intercalate (names.map escape)).length →
        ∀ name ∈ names, escape name = name) := by
  induction names with
  | nil => exact ⟨le_rfl, fun _ => nofun⟩
  | cons name names ih =>
      have hname : name.length ≤ (escape name).length ∧
          (name.length = (escape name).length → escape name = name) := by
        rcases h name with hsame | hlt
        · rw [hsame]
          exact ⟨le_rfl, fun _ => rfl⟩
        · exact ⟨le_of_lt hlt, fun heq => absurd heq (ne_of_lt hlt)⟩
      cases names with
      | nil => simpa using hname
      | cons next names =>
          simp only [List.map_cons, String.intercalate_cons_cons, String.length_append] at ih ⊢
          refine ⟨by omega, fun heq => ?_⟩
          rw [List.forall_mem_cons]
          exact ⟨hname.2 (by omega), ih.2 (by omega)⟩

/-! ## The clause that is written -/

variable {teiid : Teiid} {table : Table}

/-- The key the generator looks at. -/
theorem preservedKey_eq (hkeys : WellKeyed table) :
    preservedKey teiid table =
      match table.primaryKey.or table.uniqueKeys.head? with
      | none => ""
      | some key => ", " ++ (if key.primary then "PRIMARY KEY" else "UNIQUE") ++ "(" ++
          headerNames teiid key ++ ")" := by
  unfold preservedKey
  cases hprimary : table.primaryKey with
  | some key =>
      have hkey : key.primary = true := hkeys.primary key hprimary
      simp only [Option.some_or, hkey, if_true]
      rfl
  | none =>
      cases hunique : table.uniqueKeys with
      | nil => rfl
      | cons key keys =>
          have hkey : key.primary = false := hkeys.unique key (hunique ▸ List.mem_cons_self)
          simp only [Option.none_or, List.head?_cons, hkey]
          rfl

/-- The columns of the key are columns of the table. -/
theorem columns_of_key (hkeys : WellKeyed table) {key : KeyRecord}
    (h : table.primaryKey.or table.uniqueKeys.head? = some key) {column : Column}
    (hcolumn : column ∈ key.columns) : column ∈ table.columns := by
  apply hkeys.columns key ?_ column hcolumn
  rw [List.mem_append, Option.mem_toList]
  rcases Option.or_eq_some_iff.mp h with hprimary | ⟨_, hunique⟩
  · exact .inl hprimary
  · exact .inr (List.mem_of_mem_head? hunique)

/-- Every column of a table is projected. -/
theorem name_mem_projectedColumns (schema : Schema) (path : String) {column : Column}
    (h : column ∈ table.columns) :
    teiid.escapeSinglePart column.name ∈
      (projectedColumns (tableInfo teiid schema path table none) none).map (·.name) := by
  rw [← values_assembleColumns]
  show _ ∈ (assembleColumns (tableInfo teiid schema path table none) none).keys
  refine LinkedMap.mem_keys_foldl_put.mpr (.inr ?_)
  exact List.mem_map.mpr ⟨_, List.mem_map_of_mem h, rfl⟩

/-- The clause is the one asked for exactly if no name of the key is escaped. -/
theorem keyClause_eq_iff (hnames : EscapesNames teiid) (hkeys : WellKeyed table) (schema : Schema)
    (path : String) :
    keyClause (projectedColumns (tableInfo teiid schema path table none) none)
        (table.primaryKey.or table.uniqueKeys.head?) = preservedKey teiid table ↔
      ∀ key ∈ table.primaryKey.or table.uniqueKeys.head?, ∀ column ∈ key.columns,
        teiid.escapeSinglePart column.name = column.name := by
  rw [preservedKey_eq hkeys]
  cases hkey : table.primaryKey.or table.uniqueKeys.head? with
  | none => exact iff_of_true rfl nofun
  | some key =>
      have hescaped : key.columns.map (fun column => teiid.escapeSinglePart column.name) =
          (key.columns.map (·.name)).map teiid.escapeSinglePart := (List.map_map).symm
      unfold keyClause headerNames
      dsimp only
      rw [hescaped]
      split
      · constructor
        -- an escaped name is the name or longer, so equal texts have no escaped name
        · rintro heq _ ⟨⟩ column hcolumn
          have hlength := congrArg String.length heq
          simp only [String.length_append] at hlength
          obtain ⟨_, hsame⟩ :=
            length_intercalate (escapeSinglePart_eq_or_lt hnames) (key.columns.map (·.name))
          exact hsame (by omega) column.name (List.mem_map_of_mem hcolumn)
        · intro hsame
          have hnames : (key.columns.map (·.name)).map teiid.escapeSinglePart = key.columns.map (·.name) := by
            rw [List.map_map]
            exact List.map_congr_left fun column hcolumn => hsame key rfl column hcolumn
          rw [hnames]
      · rename_i hall
        refine iff_of_false ?_ ?_
        · -- no clause where there is a key
          intro heq
          have hlength := congrArg String.length heq
          simp only [String.length_append] at hlength
          have hclose : ")".length = 1 := rfl
          have hempty : "".length = 0 := rfl
          omega
        · intro hsame
          refine hall (List.all_eq_true.mpr fun column hcolumn => ?_)
          have hmem := @name_mem_projectedColumns teiid _ schema path _
            (columns_of_key hkeys hkey hcolumn)
          rw [hsame key rfl column hcolumn] at hmem
          obtain ⟨info, hinfo, hname⟩ := List.mem_map.mp hmem
          exact List.any_eq_true.mpr ⟨info, hinfo, decide_eq_true hname⟩

/-! ## The view -/

/-- Views that differ in their clauses differ. -/
theorem keyedDdl_inj {viewDef : ViewDefinition} {info : TableInfo} {key key' : String} :
    keyedDdl teiid viewDef info key = keyedDdl teiid viewDef info key' ↔ key = key' := by
  constructor
  · intro h
    simp only [keyedDdl, String.append_left_inj, String.append_right_inj] at h
    exact h
  · exact congrArg _

/-- The text of a view over one table, with its clause. -/
theorem getODataViewDdl_keyed {finder : SchemaFinder} {viewDef : ViewDefinition}
    (hcomplete : viewDef.complete = true) {path : String} {source : Schema × Table}
    (hpaths : viewDef.sourcePaths = [path]) (hsource : SourceTable teiid finder path source) :
    getODataViewDdl teiid finder viewDef =
      .ok (some (keyedDdl teiid viewDef (tableInfo teiid source.1 path source.2 none)
        (keyClause (projectedColumns (tableInfo teiid source.1 path source.2 none) none)
          (source.2.primaryKey.or source.2.uniqueKeys.head?)))) := by
  rw [@getODataViewDdl_tables teiid finder viewDef hcomplete (path, source) none hpaths hsource nofun,
    tablesViewDdl_eq]
  rfl

/-- The key of the table of a complete view is the key of the view exactly if all its names can stand
unescaped. -/
theorem keyPreserved_iff (hnames : EscapesNames teiid) {finder : SchemaFinder} {viewDef : ViewDefinition}
    (hcomplete : viewDef.complete = true) {path : String} {source : Schema × Table}
    (hpaths : viewDef.sourcePaths = [path]) (hsource : SourceTable teiid finder path source)
    (hkeys : WellKeyed source.2) :
    ∃ ddl, getODataViewDdl teiid finder viewDef = .ok (some ddl) ∧
      (KeyPreserved teiid viewDef path source ddl ↔
        ∀ key ∈ source.2.primaryKey.or source.2.uniqueKeys.head?, ∀ column ∈ key.columns,
          teiid.escapeSinglePart column.name = column.name) := by
  refine ⟨_, getODataViewDdl_keyed hcomplete hpaths hsource, ?_⟩
  unfold KeyPreserved
  rw [keyedDdl_inj]
  exact keyClause_eq_iff hnames hkeys source.1 path

/-- A table with a key of two columns, and one whose key has to be escaped. -/
def itemsTable : Table :=
  { name := "items", columns := [{ name := "orderId" }, { name := "line" }, { name := "unit price" }]
    primaryKey := some { primary := true, columns := [{ name := "line" }, { name := "orderId" }] } }

/-- A table whose key has to be escaped. -/
def ratesTable : Table :=
  { name := "rates", columns := [{ name := "rate id" }, { name := "rate" }]
    primaryKey := some { primary := true, columns := [{ name := "rate id" }] } }

/-- The schema of both. -/
def keyedSchema : Schema := { name := "shop", tables := [itemsTable, ratesTable] }

/-- Whose source is registered. -/
def keyedFinder : SchemaFinder where
  findSchema name := .ok (if name = "shop" then some keyedSchema else none)
  findTeiidDatasource _ := none

/-- A view over one of them. -/
def keyedView (table : String) : ViewDefinition :=
  { name := "v", dataVirtualizationName := "dv", complete := true
    sourcePaths := ["schema=shop/table=" ++ table] }

theorem keyPreserved_iff_items :
    ∃ ddl, getODataViewDdl shopTeiid keyedFinder (keyedView "items") = .ok (some ddl) ∧
      KeyPreserved shopTeiid (keyedView "items") "schema=shop/table=items" (keyedSchema, itemsTable) ddl := by
  obtain ⟨ddl, hddl, hkey⟩ :=
    @keyPreserved_iff shopTeiid (escapesNames_ascii _) keyedFinder (keyedView "items") rfl
      "schema=shop/table=items" (keyedSchema, itemsTable) (by decide)
      ⟨[("schema", "shop"), ("table", "items")], "shop", "items", by decide, rfl, rfl, rfl, by decide⟩
      ⟨by decide, by decide, by decide⟩
  exact ⟨ddl, hddl, hkey.mpr (by decide)⟩

/-- The primary key of the rates is lost. -/
theorem key_lost :
    ¬ ∀ (teiid : Teiid), EscapesNames teiid → ∀ (finder : SchemaFinder) (viewDef : ViewDefinition),
      viewDef.complete = true → ∀ (path : String) (source : Schema × Table),
        viewDef.sourcePaths = [path] → SourceTable teiid finder path source → WellKeyed source.2 →
          ∃ ddl, getODataViewDdl teiid finder viewDef = .ok (some ddl) ∧
            KeyPreserved teiid viewDef path source ddl := by
  intro h
  obtain ⟨ddl, hddl, hkey⟩ :=
    h shopTeiid (escapesNames_ascii _) keyedFinder (keyedView "rates") rfl
      "schema=shop/table=rates" (keyedSchema, ratesTable) (by decide)
      ⟨[("schema", "shop"), ("table", "rates")], "shop", "rates", by decide, rfl, rfl, rfl, by decide⟩
      ⟨by decide, by decide, by decide⟩
  have hwritten : getODataViewDdl shopTeiid keyedFinder (keyedView "rates") =
      .ok (some "CREATE VIEW v (\"rate id\", rate) AS \nSELECT \"rate id\", rate\nFROM shop.rates") := by
    decide
  rw [hwritten] at hddl
  cases hddl
  revert hkey
  decide

end TeiidSyndesis.Server
