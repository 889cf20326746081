/-
# TeiidSyndesis.Server.QueryableNodes — which nodes of the schema of a source are queryable.

At the first level the node of a table is marked even if it is there already; further down a table whose
node is there as the parent of others finds the set unchanged and stays unmarked.  So the tables are
reachable, and their order does not matter, exactly if no path of two segments or more is a proper
prefix of another one.

Main results:
* `path_of_queryable`, `marked_schemaForest` — which nodes are marked;
* `labelAt_of_sameUpToOrder`, `label_of_last` — what the order of the tables can change;
* `reachable_of_noTableAbove`, `noTableAbove_of_reachable` — the two directions;
* `schemaReachable_iff` — every table is reachable, in any order, exactly if no table is above another;
* `table_above_unreachable` — and one that is.
-/
import TeiidSyndesis.Server.SchemaNodes

namespace TeiidSyndesis.Server

open TeiidSyndesis.Library TeiidSyndesis.Model

/-! ## Marks -/

variable {sourceName : String}

/-- Only the path of a table leads to a queryable node. -/
theorem path_of_queryable {tables : List LocatedTable} {path : List Segment} {label : SchemaNode}
    (h : Forest.labelAt segmentOf path (schemaForest sourceName tables) = some label)
    (hqueryable : label.queryable = true) : ∃ table ∈ tables, table.path = path := by
  -- on the tables in their order; the last one marks the node at its own path only
  induction tables using List.reverseRecOn generalizing path label with
  | nil =>
      match path with
      | [] => cases h
      | [_] => cases h
      | _ :: _ :: _ => cases h
  | append_singleton tables table ih =>
      have hold : ∀ {path : List Segment} {label : SchemaNode},
          Forest.labelAt segmentOf path (schemaForest sourceName tables) = some label →
          label.queryable = true → ∃ t ∈ tables ++ [table], t.path = path := by
        intro path label hlabel hmarked
        obtain ⟨t, ht, hpath⟩ := ih hlabel hmarked
        exact ⟨t, List.mem_append_left _ ht, hpath⟩
      rw [schemaForest_concat] at h
      by_cases heq : path = table.path
      · exact ⟨table, List.mem_append_right _ (List.mem_singleton_self _), heq.symm⟩
      · by_cases hprefix : path <+: table.path
        · rcases List.eq_nil_or_concat path with rfl | ⟨front, segment, rfl⟩
          · cases h
          · rw [List.concat_eq_append] at h hprefix heq ⊢
            rw [table.labelAt_addTo_of_prefix _ hprefix heq, Option.some.injEq] at h
            cases hlabel : Forest.labelAt segmentOf (front ++ [segment])
                (schemaForest sourceName tables) with
            | none =>
                rw [hlabel] at h
                subst h
                cases hqueryable
            | some old =>
                rw [hlabel] at h
                subst h
                exact hold hlabel hqueryable
        · rw [table.labelAt_addTo_of_not_prefix _ hprefix] at h
          exact hold h hqueryable

/-- No path of two segments or more is a proper prefix of another one. -/
def NoTableAbove (paths : List (List Segment)) : Prop :=
  ∀ path ∈ paths, ∀ whole ∈ paths, 2 ≤ path.length → path <+: whole → path = whole

/-- The node of a table, marked. -/
def marked (sourceName : String) (table : LocatedTable) : SchemaNode :=
  tableNode table.teiidName (freshNode sourceName table.segment)

/-- The labels of tables none of which stands above another one: those of the tables are marked, those
above them are not. -/
structure Marked (sourceName : String) (tables : List LocatedTable) (nodes : List RestSchemaNode) :
    Prop where
  table : ∀ t ∈ tables, Forest.labelAt segmentOf t.path nodes = some (marked sourceName t)
  above : ∀ front segment, front ++ [segment] ∉ tables.map LocatedTable.path →
    (∃ t ∈ tables, front ++ [segment] <+: t.path) →
      Forest.labelAt segmentOf (front ++ [segment]) nodes = some (freshNode sourceName segment)

/-- The node a table finds is none, or a new one at the first level. -/
theorem Marked.markNode_eq {tables : List LocatedTable} {table : LocatedTable}
    (h : Marked sourceName tables (schemaForest sourceName tables))
    (hnew : table.path ∉ tables.map LocatedTable.path)
    (habove : ∀ t ∈ tables, 2 ≤ table.path.length → ¬table.path <+: t.path) :
    markNode sourceName table.teiidName table.atRoot table.segment
        (Forest.labelAt segmentOf table.path (schemaForest sourceName tables)) =
      marked sourceName table := by
  have hsplit : table.path = table.path.dropLast ++ [table.segment] :=
    (List.dropLast_append_getLast table.nonempty).symm
  by_cases hprefix : ∃ t ∈ tables, table.path <+: t.path
  · -- then it is a root
    have hroot : table.atRoot = true := by
      obtain ⟨t, ht, hle⟩ := hprefix
      have hlength : table.path.length ≠ 0 := fun h => table.nonempty (List.length_eq_zero_iff.mp h)
      have hshort : ¬2 ≤ table.path.length := fun hlong => habove t ht hlong hle
      exact decide_eq_true (by omega)
    have hlabel : Forest.labelAt segmentOf table.path (schemaForest sourceName tables) =
        some (freshNode sourceName table.segment) := by
      rw [hsplit] at hnew hprefix ⊢
      exact h.above _ _ hnew hprefix
    rw [hlabel]
    unfold markNode marked
    rw [hroot]
    rfl
  · have hlabel : Forest.labelAt segmentOf table.path (schemaForest sourceName tables) = none := by
      rw [← Option.not_isSome_iff_eq_none]
      rw [hsplit] at hprefix ⊢
      exact fun hsome => hprefix (labelAt_isSome_iff.mp hsome)
    rw [hlabel]
    unfold markNode marked
    split <;> rfl

/-- Where no table is above another, each table has its marked node. -/
theorem marked_schemaForest {tables : List LocatedTable}
    (hnodup : (tables.map LocatedTable.path).Nodup)
    (habove : NoTableAbove (tables.map LocatedTable.path)) :
    Marked sourceName tables (schemaForest sourceName tables) := by
  -- tables are added at the end, so the induction takes the last one
  induction tables using List.reverseRecOn with
  | nil => exact ⟨nofun, fun _ _ _ ⟨_, ht, _⟩ => nomatch ht⟩
  | append_singleton tables table ih =>
      rw [List.map_append, List.map_singleton] at hnodup habove
      obtain ⟨hrest, -, hdisjoint⟩ := List.nodup_append.mp hnodup
      have hnew : table.path ∉ tables.map LocatedTable.path :=
        fun hmem => hdisjoint _ hmem _ (List.mem_singleton_self _) rfl
      have hmarked := ih hrest fun path hpath whole hwhole =>
        habove path (List.mem_append_left _ hpath) whole (List.mem_append_left _ hwhole)
      -- no table is above the last one, so its node is not there yet
      have hnotAbove : ∀ t ∈ tables, 2 ≤ table.path.length → ¬table.path <+: t.path := by
        intro t ht hlong hle
        have hmem : t.path ∈ tables.map LocatedTable.path := List.mem_map_of_mem ht
        have heq := habove _ (List.mem_append_right _ (List.mem_singleton_self _)) _
          (List.mem_append_left _ hmem) hlong hle
        exact hnew (heq ▸ hmem)
      rw [schemaForest_concat]
      constructor
      · intro t ht
        rcases List.mem_append.mp ht with hold | hlast
        · have hne : t.path ≠ table.path := fun heq => hnew (heq ▸ List.mem_map_of_mem hold)
          have hlabel := hmarked.table t hold
          -- a table above the last one keeps its mark, whatever is added below
          by_cases hprefix : t.path <+: table.path
          · have hsplit : t.path = t.path.dropLast ++ [t.segment] :=
              (List.dropLast_append_getLast t.nonempty).symm
            rw [hsplit] at hprefix hne hlabel ⊢
            rw [table.labelAt_addTo_of_prefix _ hprefix hne, hlabel]
            rfl
          · rw [table.labelAt_addTo_of_not_prefix _ hprefix, hlabel]
        · obtain rfl := List.mem_singleton.mp hlast
          rw [t.labelAt_addTo, hmarked.markNode_eq hnew hnotAbove]
      · intro front segment hnotTable hprefixes
        rw [List.map_append, List.map_singleton, List.mem_append, not_or] at hnotTable
        have hne : front ++ [segment] ≠ table.path := fun heq =>
          hnotTable.2 (heq ▸ List.mem_singleton_self _)
        by_cases hprefix : front ++ [segment] <+: table.path
        · rw [table.labelAt_addTo_of_prefix _ hprefix hne]
          cases hlabel : Forest.labelAt segmentOf (front ++ [segment])
              (schemaForest sourceName tables) with
          | none => rfl
          | some label =>
              have hsome := labelAt_isSome_iff.mp (by rw [hlabel]; rfl)
              exact hlabel.symm.trans (hmarked.above front segment hnotTable.1 hsome)
        · rw [table.labelAt_addTo_of_not_prefix _ hprefix]
          refine hmarked.above front segment hnotTable.1 ?_
          obtain ⟨t, ht, hle⟩ := hprefixes
          rcases List.mem_append.mp ht with hold | hlast
          · exact ⟨t, hold, hle⟩
          · rw [List.mem_singleton.mp hlast] at hle
            exact absurd hle hprefix

/-! ## Order -/

/-- Marked forests of the same tables have the same labels. -/
theorem labelAt_of_marked {tables tables' : List LocatedTable} (hperm : tables'.Perm tables)
    (h : Marked sourceName tables (schemaForest sourceName tables))
    (h' : Marked sourceName tables' (schemaForest sourceName tables')) (path : List Segment) :
    Forest.labelAt segmentOf path (schemaForest sourceName tables) =
      Forest.labelAt segmentOf path (schemaForest sourceName tables') := by
  rcases List.eq_nil_or_concat path with rfl | ⟨front, segment, rfl⟩
  · rfl
  · rw [List.concat_eq_append]
    by_cases htable : front ++ [segment] ∈ tables.map LocatedTable.path
    · obtain ⟨t, ht, hpath⟩ := List.mem_map.mp htable
      rw [← hpath, h.table t ht, h'.table t (hperm.mem_iff.mpr ht)]
    · by_cases hprefix : ∃ t ∈ tables, front ++ [segment] <+: t.path
      · have htable' : front ++ [segment] ∉ tables'.map LocatedTable.path :=
          fun hmem => htable ((hperm.map LocatedTable.path).mem_iff.mp hmem)
        obtain ⟨t, ht, hle⟩ := hprefix
        rw [h.above front segment htable ⟨t, ht, hle⟩,
          h'.above front segment htable' ⟨t, hperm.mem_iff.mpr ht, hle⟩]
      · have hnone : ∀ {ts : List LocatedTable}, (¬∃ t ∈ ts, front ++ [segment] <+: t.path) →
            Forest.labelAt segmentOf (front ++ [segment]) (schemaForest sourceName ts) = none := by
          intro ts hts
          rw [← Option.not_isSome_iff_eq_none]
          exact fun hsome => hts (labelAt_isSome_iff.mp hsome)
        rw [hnone hprefix, hnone fun ⟨t, ht, hle⟩ => hprefix ⟨t, hperm.mem_iff.mp ht, hle⟩]

/-- A forest that differs in the order of siblings has the same labels. -/
theorem labelAt_of_sameUpToOrder {tables tables' : List LocatedTable}
    (h : Forest.SameUpToOrder (schemaForest sourceName tables) (schemaForest sourceName tables'))
    {path : List Segment} {label : SchemaNode}
    (hlabel : Forest.labelAt segmentOf path (schemaForest sourceName tables) = some label) :
    Forest.labelAt segmentOf path (schemaForest sourceName tables') = some label := by
  obtain ⟨node, hnode, rfl⟩ := (distinct_schemaForest sourceName tables).labelAt_eq_some.mp hlabel
  exact (distinct_schemaForest sourceName tables').labelAt_eq_some.mpr (h.stands hnode)

/-- A table that comes last finds its node as it is, if it stands above another one. -/
theorem label_of_last {tables : List LocatedTable} {table : LocatedTable}
    (hnew : table.path ∉ tables.map LocatedTable.path) (hlong : 2 ≤ table.path.length)
    (habove : ∃ t ∈ tables, table.path <+: t.path) :
    ∃ label, Forest.labelAt segmentOf table.path (schemaForest sourceName (tables ++ [table])) =
      some label ∧ label.queryable = false := by
  have hsplit : table.path = table.path.dropLast ++ [table.segment] :=
    (List.dropLast_append_getLast table.nonempty).symm
  have hsome : (Forest.labelAt segmentOf table.path (schemaForest sourceName tables)).isSome := by
    rw [hsplit] at habove ⊢
    exact labelAt_isSome_iff.mpr habove
  obtain ⟨label, hlabel⟩ := Option.isSome_iff_exists.mp hsome
  refine ⟨label, ?_, ?_⟩
  · have hroot : table.atRoot = false := decide_eq_false (by omega)
    rw [schemaForest_concat, table.labelAt_addTo, hlabel]
    unfold markNode
    rw [hroot]
    rfl
  · rw [← Bool.not_eq_true]
    intro hqueryable
    obtain ⟨t, ht, hpath⟩ := path_of_queryable hlabel hqueryable
    exact hnew (hpath ▸ List.mem_map_of_mem ht)

/-! ## Reachable tables -/

/-- One node stands at the path of each table; it is queryable and bears the name of the table, and no
other node is queryable. -/
structure TablesReachable (tables : List MetadataTable) (schemaNodes : List RestSchemaNode) : Prop where
  table : ∀ table ∈ tables, ∀ path, Located table path →
    ∃ node, Forest.Stands segmentOf path schemaNodes node ∧ node.label.queryable = true ∧
      node.label.teiidName = some table.name ∧
      ∀ other, Forest.Stands segmentOf path schemaNodes other → other = node
  others : ∀ path node, Forest.Stands segmentOf path schemaNodes node → node.label.queryable = true →
    ∃ table ∈ tables, Located table path

/-- The tables are reachable, and in another order they make the same forest, but for the order of
siblings. -/
def SchemaReachable (sourceName : String) (tables : List MetadataTable) : Prop :=
  ∃ schemaNodes, generateSourceSchema sourceName tables = .ok schemaNodes ∧
    TablesReachable tables schemaNodes ∧
    ∀ tables' : List MetadataTable, tables'.Perm tables → ∃ schemaNodes',
      generateSourceSchema sourceName tables' = .ok schemaNodes' ∧
        Forest.SameUpToOrder schemaNodes schemaNodes'

/-- The paths of the tables, one for each. -/
def tablePaths (tables : List MetadataTable) : List (List Segment) :=
  (tables.filterMap locate).map LocatedTable.path

/-- The paths are those of the located tables. -/
theorem mem_tablePaths {tables : List MetadataTable} (hdecodes : Decodes tables)
    {path : List Segment} : path ∈ tablePaths tables ↔ ∃ table ∈ tables, Located table path := by
  constructor
  · intro h
    obtain ⟨located, hlocated, rfl⟩ := List.mem_map.mp h
    obtain ⟨table, htable, hlocate⟩ := List.mem_filterMap.mp hlocated
    exact ⟨table, htable, (locate_eq_some.mp hlocate).1⟩
  · rintro ⟨table, htable, option, hfqn, hpath⟩
    obtain ⟨path', hpath', hnonempty⟩ := hdecodes table htable option hfqn
    obtain rfl := Except.ok.inj (hpath.symm.trans hpath')
    refine List.mem_map.mpr ⟨⟨table.name, path, hnonempty⟩, List.mem_filterMap.mpr ⟨table, htable, ?_⟩,
      rfl⟩
    exact locate_eq_some.mpr ⟨⟨option, hfqn, hpath⟩, rfl⟩

/-- Tables in another order decode as well. -/
theorem Decodes.perm {tables tables' : List MetadataTable} (h : Decodes tables)
    (hperm : tables'.Perm tables) : Decodes tables' :=
  fun table htable => h table (hperm.mem_iff.mp htable)

/-- Where no table stands above another one, the tables are reachable. -/
theorem reachable_of_noTableAbove {tables : List MetadataTable} (hdecodes : Decodes tables)
    (hnodup : (tablePaths tables).Nodup) (habove : NoTableAbove (tablePaths tables)) :
    SchemaReachable sourceName tables := by
  have hmarked := @marked_schemaForest sourceName _ hnodup habove
  have hdistinct := distinct_schemaForest sourceName (tables.filterMap locate)
  refine ⟨_, generateSourceSchema_eq hdecodes, ⟨?_, ?_⟩, ?_⟩
  · intro table htable path hpath
    have hmem := (mem_tablePaths hdecodes).mpr ⟨table, htable, hpath⟩
    have hnonempty : path ≠ [] := by
      obtain ⟨located, -, rfl⟩ := List.mem_map.mp hmem
      exact located.nonempty
    have hlocate : locate table = some ⟨table.name, path, hnonempty⟩ :=
      locate_eq_some.mpr ⟨hpath, rfl⟩
    have hlabel := hmarked.table _ (List.mem_filterMap.mpr ⟨table, htable, hlocate⟩)
    obtain ⟨node, hnode, hnodeLabel⟩ := hdistinct.labelAt_eq_some.mp hlabel
    refine ⟨node, hnode, ?_, ?_, fun other hother => hdistinct.stands_unique hother hnode⟩
    · rw [hnodeLabel]
      rfl
    · rw [hnodeLabel]
      rfl
  · intro path node hnode hqueryable
    have hlabel := hdistinct.labelAt_eq_some.mpr ⟨node, hnode, rfl⟩
    obtain ⟨located, hlocated, hpath⟩ := path_of_queryable hlabel hqueryable
    exact (mem_tablePaths hdecodes).mp (List.mem_map.mpr ⟨located, hlocated, hpath⟩)
  -- the labels do not depend on the order, so neither does the tree up to order
  · intro tables' hperm
    have hlocated : (tables'.filterMap locate).Perm (tables.filterMap locate) := hperm.filterMap locate
    have hpaths : (tablePaths tables').Perm (tablePaths tables) := hlocated.map LocatedTable.path
    have hmarked' : Marked sourceName (tables'.filterMap locate)
        (schemaForest sourceName (tables'.filterMap locate)) := by
      refine marked_schemaForest (hpaths.nodup_iff.mpr hnodup) fun path hpath whole hwhole => ?_
      exact habove path (hpaths.mem_iff.mp hpath) whole (hpaths.mem_iff.mp hwhole)
    exact ⟨_, generateSourceSchema_eq (hdecodes.perm hperm),
      hdistinct.sameUpToOrder (distinct_schemaForest sourceName _)
        (labelAt_of_marked hlocated hmarked hmarked')⟩

/-- A table above another one cannot come last and be reachable. -/
theorem noTableAbove_of_reachable {tables : List MetadataTable} (hdecodes : Decodes tables)
    (hnodup : (tablePaths tables).Nodup) (h : SchemaReachable sourceName tables) :
    NoTableAbove (tablePaths tables) := by
  obtain ⟨schemaNodes, hnodes, hreachable, horder⟩ := h
  obtain rfl := Except.ok.inj (hnodes.symm.trans (generateSourceSchema_eq hdecodes))
  intro path hpath whole hwhole hlong hprefix
  by_contra hne
  obtain ⟨table, htable, hlocated⟩ := (mem_tablePaths hdecodes).mp hpath
  -- the table is moved to the end
  obtain ⟨front, back, rfl⟩ := List.append_of_mem htable
  have hperm : (front ++ back ++ [table]).Perm (front ++ table :: back) := by
    rw [List.append_assoc]
    exact (@List.perm_append_comm _ back [table]).append_left front
  obtain ⟨schemaNodes', hnodes', hsame⟩ := horder _ hperm
  obtain rfl := Except.ok.inj (hnodes'.symm.trans (generateSourceSchema_eq (hdecodes.perm hperm)))
  have hnonempty : path ≠ [] := by
    rintro rfl
    simp at hlong
  have hlocate : locate table = some ⟨table.name, path, hnonempty⟩ := locate_eq_some.mpr ⟨hlocated, rfl⟩
  have hlast : (front ++ back ++ [table]).filterMap locate =
      (front ++ back).filterMap locate ++ [⟨table.name, path, hnonempty⟩] := by
    rw [List.filterMap_append]
    simp [hlocate]
  have hpaths : (tablePaths (front ++ back) ++ [path]).Perm (tablePaths (front ++ table :: back)) := by
    have hmap := (hperm.filterMap locate).map LocatedTable.path
    rw [hlast, List.map_append] at hmap
    exact hmap
  have hnew : path ∉ tablePaths (front ++ back) := by
    intro hmem
    exact (List.nodup_append.mp (hpaths.nodup_iff.mpr hnodup)).2.2 path hmem path
      (List.mem_singleton_self _) rfl
  have hothers : ∃ t ∈ (front ++ back).filterMap locate, path <+: t.path := by
    rcases List.mem_append.mp (hpaths.mem_iff.mpr hwhole) with hmem | hmem
    · obtain ⟨t, ht, rfl⟩ := List.mem_map.mp hmem
      exact ⟨t, ht, hprefix⟩
    · exact absurd (List.mem_singleton.mp hmem).symm hne
  obtain ⟨label, hlabel, hunmarked⟩ :=
    @label_of_last sourceName _ ⟨table.name, path, hnonempty⟩ hnew hlong hothers
  obtain ⟨node, hnode, hqueryable, -⟩ := hreachable.table table htable path hlocated
  have hmarked := (distinct_schemaForest sourceName _).labelAt_eq_some.mpr ⟨node, hnode, rfl⟩
  have hmoved := labelAt_of_sameUpToOrder hsame hmarked
  rw [hlast] at hmoved
  rw [Option.some.inj (hlabel.symm.trans hmoved)] at hunmarked
  exact absurd (hunmarked.symm.trans hqueryable) (by decide)

/-- All tables are reachable in every order exactly if no table of the second level or below stands
above another one. -/
theorem schemaReachable_iff {tables : List MetadataTable} (hdecodes : Decodes tables)
    (hnodup : (tablePaths tables).Nodup) :
    SchemaReachable sourceName tables ↔ NoTableAbove (tablePaths tables) :=
  ⟨noTableAbove_of_reachable hdecodes hnodup, reachable_of_noTableAbove hdecodes hnodup⟩

/-- Two tables side by side. -/
theorem schemaReachable_iff_orders : SchemaReachable "pg" ordersTables := by
  have hnodup : (tablePaths ordersTables).Nodup := by decide
  refine (schemaReachable_iff decodes_orders hnodup).mpr ?_
  unfold NoTableAbove
  decide

/-- A table and, before it, one that stands below it. -/
def nestedTables : List MetadataTable :=
  [{ name := "lines", fqn := some "schema=s/table=orders/part=lines" },
    { name := "orders", fqn := some "schema=s/table=orders" }]

/-- The table that comes second is not queryable. -/
theorem table_above_unreachable :
    ¬∀ (sourceName : String) (tables : List MetadataTable), Decodes tables →
      (tablePaths tables).Nodup → SchemaReachable sourceName tables := by
  intro h
  have hdecodes : Decodes nestedTables := by
    intro table htable option hoption
    simp only [nestedTables, List.mem_cons, List.not_mem_nil, or_false] at htable
    rcases htable with rfl | rfl
    · obtain rfl := Option.some.inj hoption
      exact ⟨[("schema", "s"), ("table", "orders"), ("part", "lines")], by decide, by decide⟩
    · obtain rfl := Option.some.inj hoption
      exact ⟨[("schema", "s"), ("table", "orders")], by decide, by decide⟩
  have hreachable := h "pg" nestedTables hdecodes (by decide)
  have habove := noTableAbove_of_reachable hdecodes (by decide) hreachable
  exact absurd (habove [("schema", "s"), ("table", "orders")] (by decide)
    [("schema", "s"), ("table", "orders"), ("part", "lines")] (by decide) (by decide) (by decide))
    (by decide)

end TeiidSyndesis.Server
