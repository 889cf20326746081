/-
# TeiidSyndesis.Server.SchemaNodes — the schema of a source as a tree of nodes.

`generateSourceSchema` reads from an option of each table where it stands in the source and adds the
nodes down to it.  At the first level the nodes are a list and the node of a table is looked for; further
down the children are a set, and the node of a table is added unless an equal one is there.  Either way
the nodes become those of the prefixes of the paths, each once.

Main results:
* `withLeafNodeParent_eq`, `addTableNode_eq` — a table is added as a change along its path;
* `labelAt_addTo`, `labelAt_addTo_of_prefix`, `labelAt_addTo_of_not_prefix` — the nodes afterwards;
* `distinct_schemaForest`, `labelAt_isSome_iff` — the nodes of all tables are the prefixes of their paths,
  each once;
* `generateSourceSchema_trie` — so of what `generateSourceSchema` returns.
-/
import TeiidSyndesis.Library.Forest
import TeiidSyndesis.Library.Results
import TeiidSyndesis.Model.PathUtils

namespace TeiidSyndesis.Server

open TeiidSyndesis.Library TeiidSyndesis.Model

/-! ## Nodes -/

/-- What a `RestSchemaNode` has besides its children. -/
structure SchemaNode where
  connectionName : String
  name : String
  type : String
  teiidName : Option String := none
  queryable : Bool := false
  deriving DecidableEq, Repr

/-- A node with its children. -/
abbrev RestSchemaNode := LabelTree SchemaNode

namespace RestSchemaNode

/-- The constructor. -/
def new (connName name type : String) : RestSchemaNode :=
  .node { connectionName := connName, name := name, type := type } []

/-- `equals`; neither the children nor what is set later count. -/
def equals (node other : RestSchemaNode) : Bool :=
  node.label.connectionName == other.label.connectionName && node.label.name == other.label.name &&
    node.label.type == other.label.type

/-- The children are a set: a node stays out if an equal one is there. -/
def addChild (child : RestSchemaNode) (children : List RestSchemaNode) : List RestSchemaNode :=
  if children.any child.equals then children else children ++ [child]

/-- `setTeiidName` and `setQueryable(true)` -/
def ofTable (teiidName : String) (node : RestSchemaNode) : RestSchemaNode :=
  .node { node.label with teiidName := some teiidName, queryable := true } node.children

end RestSchemaNode

/-! ## generateSourceSchema -/

/-- Type and name. -/
abbrev Segment := String × String

/-- A table of the metadata: its name, and where it stands in its source. -/
structure MetadataTable where
  name : String
  /-- property `TABLE_OPTION_FQN` -/
  fqn : Option String
  deriving DecidableEq, Repr

/-- What `getMatchingNode` looks for. -/
def isMatchingNode (sourceName : String) (segment : Segment) (node : RestSchemaNode) : Bool :=
  node.label.connectionName == sourceName && node.label.name == segment.2 &&
    node.label.type == segment.1

/-- `getLeafNodeParent` from some children on, with what is done to the children of the node it returns;
nodes that are missing are added on the way. -/
def withLeafNodeParent (sourceName : String)
    (addLeaf : List RestSchemaNode → List RestSchemaNode) :
    List Segment → List RestSchemaNode → List RestSchemaNode
  | [], nodes => addLeaf nodes
  | segment :: segments, nodes =>
      alterFirst (isMatchingNode sourceName segment)
        (fun matchNode =>
          let parentNode := matchNode.getD (.new sourceName segment.2 segment.1)
          .node parentNode.label
            (withLeafNodeParent sourceName addLeaf segments parentNode.children))
        nodes

/-- The round of a table whose option has been read. -/
def addTableNode (sourceName teiidName : String) (schemaNodes : List RestSchemaNode) :
    List Segment → Except Failure (List RestSchemaNode)
  | [] => .error .indexOutOfBounds
  | [segment] =>
      .ok
        (alterFirst (isMatchingNode sourceName segment)
          (fun matchNode =>
            (matchNode.getD (.new sourceName segment.2 segment.1)).ofTable teiidName)
          schemaNodes)
  | first :: second :: segments =>
      let leaf := (second :: segments).getLast (List.cons_ne_nil second segments)
      .ok
        (withLeafNodeParent sourceName
          (RestSchemaNode.addChild ((RestSchemaNode.new sourceName leaf.2 leaf.1).ofTable teiidName))
          (first :: (second :: segments).dropLast) schemaNodes)

/-- `generateSourceSchema`: the nodes of all tables, one after another. -/
def generateSourceSchema (sourceName : String) (tables : List MetadataTable) :
    Except Failure (List RestSchemaNode) :=
  tables.foldlM
    (fun schemaNodes table =>
      match table.fqn with
      | none => pure schemaNodes
      | some option => do
          let segments ← getOptions option
          addTableNode sourceName table.name schemaNodes segments)
    []

/-! ## Nodes by type and name -/

/-- Siblings are told apart by type and name. -/
def segmentOf (node : SchemaNode) : Segment := (node.type, node.name)

/-- A new node. -/
def freshNode (sourceName : String) (segment : Segment) : SchemaNode :=
  { connectionName := sourceName, name := segment.2, type := segment.1 }

/-- The node of a table. -/
def tableNode (teiidName : String) (node : SchemaNode) : SchemaNode :=
  { node with teiidName := some teiidName, queryable := true }

/-- What becomes of a node at the path of a table: at the first level it is marked, further down only a
new one is. -/
def markNode (sourceName teiidName : String) (atRoot : Bool) (segment : Segment)
    (node : Option SchemaNode) : SchemaNode :=
  if atRoot then tableNode teiidName (node.getD (freshNode sourceName segment))
  else node.getD (tableNode teiidName (freshNode sourceName segment))

/-- All nodes belong to the source. -/
def OfSource (sourceName : String) (nodes : List RestSchemaNode) : Prop :=
  ∀ path node, Forest.Stands segmentOf path nodes node → node.label.connectionName = sourceName

variable {sourceName teiidName : String}

/-- No nodes are of any source. -/
theorem ofSource_nil : OfSource sourceName [] := by
  intro path node hnode
  cases path with
  | nil => exact hnode.elim
  | cons segment path =>
      obtain ⟨t, ht, -⟩ := hnode
      exact nomatch ht

/-- Roots are of the source. -/
theorem OfSource.root {nodes : List RestSchemaNode} (h : OfSource sourceName nodes)
    {node : RestSchemaNode} (hnode : node ∈ nodes) : node.label.connectionName = sourceName :=
  h [segmentOf node.label] node ⟨node, hnode, rfl, .inl ⟨rfl, rfl⟩⟩

/-- The children of a node are of its source. -/
theorem OfSource.children {nodes : List RestSchemaNode} (h : OfSource sourceName nodes)
    {node : RestSchemaNode} (hnode : node ∈ nodes) : OfSource sourceName node.children := by
  intro path inner hinner
  exact h (segmentOf node.label :: path) inner ⟨node, hnode, rfl, .inr hinner⟩

/-- Among the nodes of a source, type and name decide which node matches. -/
theorem isMatchingNode_eq {segment : Segment} {node : RestSchemaNode}
    (h : node.label.connectionName = sourceName) :
    isMatchingNode sourceName segment node = decide (segmentOf node.label = segment) := by
  obtain ⟨type, name⟩ := segment
  unfold isMatchingNode segmentOf
  rw [Bool.eq_iff_iff]
  simp only [h, Bool.and_eq_true, beq_iff_eq, true_and, decide_eq_true_eq, Prod.mk.injEq]
  exact And.comm

/-- Nodes of one source are equal if their type and name are. -/
theorem equals_eq {child node : RestSchemaNode} (hchild : child.label.connectionName = sourceName)
    (hnode : node.label.connectionName = sourceName) :
    child.equals node = decide (segmentOf node.label = segmentOf child.label) := by
  unfold RestSchemaNode.equals segmentOf
  rw [Bool.eq_iff_iff]
  simp only [hchild, hnode, Bool.and_eq_true, beq_iff_eq, true_and, decide_eq_true_eq, Prod.mk.injEq]
  constructor
  · rintro ⟨hname, htype⟩
    exact ⟨htype.symm, hname.symm⟩
  · rintro ⟨htype, hname⟩
    exact ⟨hname.symm, htype.symm⟩

/-- Adding a child to the set alters nothing that is there. -/
theorem addChild_eq {child : RestSchemaNode} (hchild : child.label.connectionName = sourceName)
    {nodes : List RestSchemaNode} (h : OfSource sourceName nodes) :
    RestSchemaNode.addChild child nodes =
      alterFirst (fun node => decide (segmentOf node.label = segmentOf child.label))
        (fun node => node.getD child) nodes := by
  have hkeep : ∀ nodes : List RestSchemaNode,
      (∀ node ∈ nodes, node.label.connectionName = sourceName) →
      RestSchemaNode.addChild child nodes =
        alterFirst (fun node => decide (segmentOf node.label = segmentOf child.label))
          (fun node => node.getD child) nodes := by
    intro nodes hnodes
    unfold RestSchemaNode.addChild
    induction nodes with
    | nil => rfl
    | cons node nodes ih =>
        rw [List.forall_mem_cons] at hnodes
        rw [List.any_cons, equals_eq hchild hnodes.1]
        unfold alterFirst
        by_cases hsame : segmentOf node.label = segmentOf child.label
        · simp [hsame]
        · rw [decide_eq_false hsame, Bool.false_or, if_neg Bool.false_ne_true, ← ih hnodes.2]
          split <;> rfl
  exact hkeep nodes fun node hnode => h.root hnode

/-- Below the first level, the nodes are altered along the path. -/
theorem withLeafNodeParent_eq {path : List Segment} (hpath : path ≠ []) {nodes : List RestSchemaNode}
    (h : OfSource sourceName nodes) :
    withLeafNodeParent sourceName
        (RestSchemaNode.addChild
          ((RestSchemaNode.new sourceName (path.getLast hpath).2 (path.getLast hpath).1).ofTable
            teiidName))
        path.dropLast nodes =
      Forest.alter segmentOf (freshNode sourceName)
        (fun node => node.getD (tableNode teiidName (freshNode sourceName (path.getLast hpath))))
        path nodes := by
  -- on the path: the loop of the code goes down one segment at a time
  induction path generalizing nodes with
  | nil => exact absurd rfl hpath
  | cons segment segments ih =>
      cases segments with
      | nil =>
          show RestSchemaNode.addChild _ nodes = _
          rw [@addChild_eq sourceName _ rfl _ h]
          refine alterFirst_congr (fun _ _ => rfl) rfl fun node _ => ?_
          cases node with
          | node label children => rfl
      | cons next segments =>
          rw [List.dropLast_cons_cons, withLeafNodeParent, Forest.alter]
          refine alterFirst_congr (fun node hnode => isMatchingNode_eq (h.root hnode)) ?_
            fun node hnode => ?_
          · exact congrArg (LabelTree.node _) (ih (List.cons_ne_nil _ _) ofSource_nil)
          · exact congrArg (LabelTree.node _) (ih (List.cons_ne_nil _ _) (h.children hnode))

/-- The round of a table alters the nodes along its path. -/
theorem addTableNode_eq {nodes : List RestSchemaNode} (h : OfSource sourceName nodes)
    {path : List Segment} (hpath : path ≠ []) :
    addTableNode sourceName teiidName nodes path =
      .ok (Forest.alter segmentOf (freshNode sourceName)
        (markNode sourceName teiidName (decide (path.length = 1)) (path.getLast hpath)) path nodes) := by
  cases path with
  | nil => exact absurd rfl hpath
  | cons segment segments =>
      cases segments with
      | nil =>
          refine congrArg Except.ok (alterFirst_congr (fun node hnode => ?_) rfl fun node _ => ?_)
          · exact isMatchingNode_eq (h.root hnode)
          · cases node with
            | node label children => rfl
      | cons next segments =>
          refine congrArg Except.ok
            ((@withLeafNodeParent_eq _ teiidName _ (List.cons_ne_nil segment (next :: segments)) _ h).trans
              ?_)
          have hlevel : decide ((segment :: next :: segments).length = 1) = false := by simp
          rw [hlevel]
          rfl

/-! ## One table after the other -/

/-- A table with its path. -/
structure LocatedTable where
  teiidName : String
  path : List Segment
  nonempty : path ≠ []

namespace LocatedTable

/-- The segment of the table itself. -/
def segment (table : LocatedTable) : Segment := table.path.getLast table.nonempty

/-- Its node is one of the roots. -/
def atRoot (table : LocatedTable) : Bool := decide (table.path.length = 1)

/-- The round of the table. -/
def addTo (sourceName : String) (nodes : List RestSchemaNode) (table : LocatedTable) :
    List RestSchemaNode :=
  Forest.alter segmentOf (freshNode sourceName)
    (markNode sourceName table.teiidName table.atRoot table.segment) table.path nodes

/-- It is the last of its path. -/
theorem getLast?_path (table : LocatedTable) : table.path.getLast? = some table.segment :=
  List.getLast?_eq_some_getLast table.nonempty

/-- What marks a node keeps its type and name. -/
theorem keeps (sourceName : String) (table : LocatedTable) :
    Forest.Keeps segmentOf (markNode sourceName table.teiidName table.atRoot table.segment)
      table.path := by
  intro segment hlast node hnode
  rw [table.getLast?_path, Option.some.injEq] at hlast
  subst hlast
  unfold markNode
  cases node with
  | none => split <;> rfl
  | some label =>
      split
      · exact hnode label rfl
      · exact hnode label rfl

/-! ### Labels after the round of a table -/

variable (table : LocatedTable) (nodes : List RestSchemaNode)

/-- The node of the table is marked. -/
theorem labelAt_addTo :
    Forest.labelAt segmentOf table.path (table.addTo sourceName nodes) =
      some (markNode sourceName table.teiidName table.atRoot table.segment
        (Forest.labelAt segmentOf table.path nodes)) :=
  Forest.labelAt_alter_self (fun _ => rfl) (table.keeps sourceName) table.nonempty nodes

/-- The nodes above it are there, as they were. -/
theorem labelAt_addTo_of_prefix {front : List Segment} {segment : Segment}
    (hstarts : front ++ [segment] <+: table.path) (hne : front ++ [segment] ≠ table.path) :
    Forest.labelAt segmentOf (front ++ [segment]) (table.addTo sourceName nodes) =
      some ((Forest.labelAt segmentOf (front ++ [segment]) nodes).getD (freshNode sourceName segment)) :=
  Forest.labelAt_alter_of_prefix (fun _ => rfl) hstarts hne nodes

/-- Nodes that are not above the table are left alone. -/
theorem labelAt_addTo_of_not_prefix {path : List Segment} (hpath : ¬path <+: table.path) :
    Forest.labelAt segmentOf path (table.addTo sourceName nodes) =
      Forest.labelAt segmentOf path nodes :=
  Forest.labelAt_alter_of_not_prefix (fun _ => rfl) (table.keeps sourceName) hpath nodes

end LocatedTable

/-- The roots after some tables. -/
def schemaForest (sourceName : String) (tables : List LocatedTable) : List RestSchemaNode :=
  tables.foldl (fun nodes table => table.addTo sourceName nodes) []

/-- One table more at the end. -/
theorem schemaForest_concat (tables : List LocatedTable) (table : LocatedTable) :
    schemaForest sourceName (tables ++ [table]) = table.addTo sourceName (schemaForest sourceName tables) := by
  unfold schemaForest
  rw [List.foldl_append]
  rfl

/-- Siblings differ after each round. -/
theorem distinct_schemaForest (sourceName : String) (tables : List LocatedTable) :
    Forest.Distinct segmentOf (schemaForest sourceName tables) := by
  induction tables using List.reverseRecOn with
  | nil => exact Forest.distinct_nil segmentOf
  | append_singleton tables table ih =>
      rw [schemaForest_concat]
      exact ih.alter (fun _ => rfl) (table.keeps sourceName)

/-- There are labels at the prefixes of the paths, and nowhere else. -/
theorem labelAt_isSome_iff {tables : List LocatedTable} {front : List Segment} {segment : Segment} :
    (Forest.labelAt segmentOf (front ++ [segment]) (schemaForest sourceName tables)).isSome ↔
      ∃ table ∈ tables, front ++ [segment] <+: table.path := by
  -- on the tables; the last one adds the nodes along its own path and no others
  induction tables using List.reverseRecOn with
  | nil =>
      refine iff_of_false ?_ (by simp)
      cases front with
      | nil => exact Bool.false_ne_true
      | cons first front =>
          cases front with
          | nil => exact Bool.false_ne_true
          | cons second front => exact Bool.false_ne_true
  | append_singleton tables table ih =>
      rw [schemaForest_concat]
      have hmem : (∃ t ∈ tables ++ [table], front ++ [segment] <+: t.path) ↔
          (∃ t ∈ tables, front ++ [segment] <+: t.path) ∨ front ++ [segment] <+: table.path := by
        simp [or_and_right, exists_or]
      rw [hmem]
      by_cases hstarts : front ++ [segment] <+: table.path
      · refine iff_of_true ?_ (.inr hstarts)
        by_cases heq : front ++ [segment] = table.path
        · rw [heq, table.labelAt_addTo]
          rfl
        · rw [table.labelAt_addTo_of_prefix _ hstarts heq]
          rfl
      · rw [table.labelAt_addTo_of_not_prefix _ hstarts, ih, or_iff_left hstarts]

/-- The nodes belong to the source. -/
theorem connectionName_of_labelAt {tables : List LocatedTable} {path : List Segment} {label : SchemaNode}
    (h : Forest.labelAt segmentOf path (schemaForest sourceName tables) = some label) :
    label.connectionName = sourceName := by
  -- on the tables in the order they are added; every node a table makes names the source
  induction tables using List.reverseRecOn generalizing path label with
  | nil =>
      match path with
      | [] => cases h
      | [_] => cases h
      | _ :: _ :: _ => cases h
  | append_singleton tables table ih =>
      rw [schemaForest_concat] at h
      have hold : ∀ {path : List Segment} {fresh : SchemaNode}, fresh.connectionName = sourceName →
          ((Forest.labelAt segmentOf path (schemaForest sourceName tables)).getD
            fresh).connectionName = sourceName := by
        intro path fresh hfresh
        cases hlabel : Forest.labelAt segmentOf path (schemaForest sourceName tables) with
        | none => exact hfresh
        | some label => exact ih hlabel
      by_cases hstarts : path <+: table.path
      · by_cases heq : path = table.path
        · subst heq
          rw [table.labelAt_addTo, Option.some.injEq] at h
          subst h
          unfold markNode
          split
          · exact @hold table.path (freshNode sourceName table.segment) rfl
          · exact @hold table.path (tableNode table.teiidName (freshNode sourceName table.segment)) rfl
        · rcases List.eq_nil_or_concat path with rfl | ⟨front, segment, rfl⟩
          · cases h
          · rw [List.concat_eq_append] at h hstarts heq
            rw [table.labelAt_addTo_of_prefix _ hstarts heq, Option.some.injEq] at h
            subst h
            exact @hold (front ++ [segment]) (freshNode sourceName segment) rfl
      · rw [table.labelAt_addTo_of_not_prefix _ hstarts] at h
        exact ih h

/-- All nodes are of the source. -/
theorem ofSource_schemaForest (sourceName : String) (tables : List LocatedTable) :
    OfSource sourceName (schemaForest sourceName tables) := by
  intro path node hnode
  exact connectionName_of_labelAt
    ((distinct_schemaForest sourceName tables).labelAt_eq_some.mpr ⟨node, hnode, rfl⟩)

/-! ## The tables of a source -/

/-- The option of the table says where it stands. -/
def Located (table : MetadataTable) (path : List Segment) : Prop :=
  ∃ option, table.fqn = some option ∧ getOptions option = .ok path

/-- The options that are there decode to paths. -/
def Decodes (tables : List MetadataTable) : Prop :=
  ∀ table ∈ tables, ∀ option ∈ table.fqn, ∃ path, getOptions option = .ok path ∧ path ≠ []

/-- Where a table stands, if it says so. -/
def locate (table : MetadataTable) : Option LocatedTable :=
  match table.fqn with
  | none => none
  | some option =>
      match getOptions option with
      | .error _ => none
      | .ok path => if h : path ≠ [] then some ⟨table.name, path, h⟩ else none

theorem locate_eq_some {table : MetadataTable} {located : LocatedTable} :
    locate table = some located ↔ Located table located.path ∧ located.teiidName = table.name := by
  unfold locate Located
  cases hfqn : table.fqn with
  | none => simp
  | some option =>
      cases hpath : getOptions option with
      | error e => simp [hpath]
      | ok path =>
          obtain ⟨teiidName, path', hnonempty⟩ := located
          simp only [Option.some.injEq, exists_eq_left', hpath, Except.ok.injEq]
          constructor
          · intro h
            split at h
            · cases h
              exact ⟨rfl, rfl⟩
            · cases h
          · rintro ⟨rfl, rfl⟩
            rw [dif_pos hnonempty]

/-- The loop is that over the tables with their paths. -/
theorem generateSourceSchema_eq {tables : List MetadataTable} (h : Decodes tables) :
    generateSourceSchema sourceName tables =
      .ok (schemaForest sourceName (tables.filterMap locate)) := by
  -- on the tables in the order of the loop; one without a source name adds nothing
  induction tables using List.reverseRecOn with
  | nil => rfl
  | append_singleton tables table ih =>
      have hrest : Decodes tables := fun t ht => h t (List.mem_append_left _ ht)
      have htable := h table (List.mem_append_right _ (List.mem_singleton_self _))
      have hinit := ih hrest
      unfold generateSourceSchema at hinit ⊢
      rw [List.foldlM_append, hinit, List.filterMap_append]
      cases hfqn : table.fqn with
      | none =>
          have hlocate : [table].filterMap locate = [] := by
            unfold locate
            simp [hfqn]
          rw [hlocate, List.append_nil]
          simp only [List.foldlM_cons, List.foldlM_nil, hfqn]
          rfl
      | some option =>
          obtain ⟨path, hoptions, hpath⟩ := htable option hfqn
          have hlocate : [table].filterMap locate = [⟨table.name, path, hpath⟩] := by
            have hsome : locate table = some ⟨table.name, path, hpath⟩ :=
              locate_eq_some.mpr ⟨⟨option, hfqn, hoptions⟩, rfl⟩
            simp [hsome]
          have hadd := @addTableNode_eq sourceName table.name _
            (ofSource_schemaForest sourceName (tables.filterMap locate)) _ hpath
          rw [hlocate, schemaForest_concat]
          simp only [List.foldlM_cons, List.foldlM_nil, hfqn]
          refine bind_eq_ok.mpr ⟨_, rfl, ?_⟩
          refine bind_eq_ok.mpr ⟨_, bind_eq_ok.mpr ⟨path, hoptions, hadd⟩, rfl⟩

/-- The nodes stand at the prefixes of the paths of the tables, each once. -/
theorem generateSourceSchema_trie {tables : List MetadataTable} (h : Decodes tables) :
    ∃ schemaNodes, generateSourceSchema sourceName tables = .ok schemaNodes ∧
      (∀ path : List Segment, (∃ node, Forest.Stands segmentOf path schemaNodes node) ↔
        path ≠ [] ∧ ∃ table ∈ tables, ∃ whole, Located table whole ∧ path <+: whole) ∧
      Forest.Distinct segmentOf schemaNodes := by
  have hdistinct := distinct_schemaForest sourceName (tables.filterMap locate)
  refine ⟨_, generateSourceSchema_eq h, fun path => ?_, hdistinct⟩
  have hlabel : (∃ node, Forest.Stands segmentOf path
        (schemaForest sourceName (tables.filterMap locate)) node) ↔
      (Forest.labelAt segmentOf path
        (schemaForest sourceName (tables.filterMap locate))).isSome := by
    rw [Option.isSome_iff_exists]
    constructor
    · rintro ⟨node, hnode⟩
      exact ⟨node.label, hdistinct.labelAt_eq_some.mpr ⟨node, hnode, rfl⟩⟩
    · rintro ⟨label, hsome⟩
      obtain ⟨node, hnode, -⟩ := hdistinct.labelAt_eq_some.mp hsome
      exact ⟨node, hnode⟩
  rw [hlabel]
  -- the empty path is that of no node; any other one ends with a segment
  rcases List.eq_nil_or_concat path with rfl | ⟨front, segment, rfl⟩
  · simp [Forest.labelAt]
  · rw [List.concat_eq_append, labelAt_isSome_iff]
    constructor
    · rintro ⟨located, hlocated, hstarts⟩
      obtain ⟨table, htable, hlocate⟩ := List.mem_filterMap.mp hlocated
      exact ⟨by simp, table, htable, located.path, (locate_eq_some.mp hlocate).1, hstarts⟩
    · rintro ⟨-, table, htable, whole, hwhole, hstarts⟩
      have hnonempty : whole ≠ [] := by
        rintro rfl
        simp at hstarts
      refine ⟨⟨table.name, whole, hnonempty⟩, List.mem_filterMap.mpr ⟨table, htable, ?_⟩, hstarts⟩
      exact locate_eq_some.mpr ⟨hwhole, rfl⟩

/-- Two tables of one schema. -/
def ordersTables : List MetadataTable :=
  [{ name := "orders", fqn := some "schema=s%20x/table=orders" },
    { name := "lines", fqn := some "schema=s%20x/table=lines" }]

/-- Both tables say where they stand. -/
theorem decodes_orders : Decodes ordersTables := by
  intro table htable option hoption
  simp only [ordersTables, List.mem_cons, List.not_mem_nil, or_false] at htable
  rcases htable with rfl | rfl
  · obtain rfl := Option.some.inj hoption
    exact ⟨[("schema", "s x"), ("table", "orders")], by decide, by decide⟩
  · obtain rfl := Option.some.inj hoption
    exact ⟨[("schema", "s x"), ("table", "lines")], by decide, by decide⟩

theorem generateSourceSchema_trie_orders :
    ∃ schemaNodes, generateSourceSchema "pg" ordersTables = .ok schemaNodes ∧
      (∃ node, Forest.Stands segmentOf [("schema", "s x"), ("table", "lines")] schemaNodes node) ∧
      Forest.Distinct segmentOf schemaNodes := by
  obtain ⟨schemaNodes, hnodes, hpaths, hdistinct⟩ :=
    @generateSourceSchema_trie "pg" _ decodes_orders
  refine ⟨schemaNodes, hnodes, (hpaths _).mpr ⟨by decide, ?_⟩, hdistinct⟩
  exact ⟨{ name := "lines", fqn := some "schema=s%20x/table=lines" }, by decide,
    [("schema", "s x"), ("table", "lines")], ⟨_, rfl, by decide⟩, List.prefix_refl _⟩

end TeiidSyndesis.Server
