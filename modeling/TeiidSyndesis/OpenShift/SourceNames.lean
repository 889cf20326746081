/-
# TeiidSyndesis.OpenShift.SourceNames — how the pods agree on the name of a source.

Every pod gives a connection a name by `createDataSource` and stores it in the table all pods share.
The look-up by id, the check whether a name is in use and the commit of the new row are steps of their
own, so the steps of other calls, in this pod or another one, may come between them.  Only the unique
columns of the table and the retry of a failed attempt keep the calls together.

Main results:
* `proceed_cases`, `next_proceed_eq_some` — what a step of a call can do;
* `namedBy_proceeded`, `namedBy_build`, `namedBy_createDataSource` — names that are held come from the
  table;
* `next_agreed` — what objects and calls hold agrees with the rows, and every step keeps it;
* `names_agree` — so all pods agree on the name of each source.
-/
import TeiidSyndesis.Library.Lists
import TeiidSyndesis.Library.Transition
import TeiidSyndesis.OpenShift.ConnectionSynchronizer
import TeiidSyndesis.Repository.SharedTable

namespace TeiidSyndesis.OpenShift

open TeiidSyndesis.Library TeiidSyndesis.Model TeiidSyndesis.Repository

variable {teiid : Teiid}

/-! ## Calls -/

namespace Pods

/-- Where a call of `createDataSource` stands. -/
inductive Point
  | createDataSource
  /-- an attempt opens its transaction and looks the source up -/
  | findSchemaBySourceId (attempt : Nat)
  | isNameInUse (attempt : Nat)
  /-- the row of the new name is saved and not yet committed -/
  | commit (attempt : Nat) (toUse : String)
  | setTeiidName (name : String)
  /-- behind the loop -/
  | checkTeiidName
  | registerDataSource
  | returned (teiidName : String)
  | raised
  deriving DecidableEq, Repr

/-- A call on one of the objects that were built. -/
structure Call where
  scd : Nat
  point : Point
  deriving DecidableEq, Repr

end Pods

/-- The pods with the table they share.  The objects and calls of all pods stand in one list each. -/
structure Pods (teiid : Teiid) where
  table : SharedTable teiid
  sources : List DefaultSyndesisDataSource := []
  calls : List Pods.Call := []

namespace Pods

/-- The name with a suffix, where it is taken without one. -/
def nameToUse (table : SharedTable teiid) (syndesisName : String) (nextInt : BitVec 32) : String :=
  let name := Synchronizer.komodoName syndesisName
  if teiid.reservedNames.any (teiid.equalsIgnoreCase name) || table.isNameInUse name then
    name ++ "_" ++ Synchronizer.randomSuffix nextInt
  else name

/-- A call goes on to another point. -/
def setPoint (p : Pods teiid) (i : Nat) (point : Point) : Pods teiid :=
  { p with calls := p.calls.modify i fun call => { call with point := point } }

/-- `buildSyndesisDataSource`: a new object, named after its schema where there is one. -/
def buildSyndesisDataSource (p : Pods teiid) (id syndesisName translatorName : String) :
    Pods teiid :=
  { p with
    sources := p.sources ++
      [{ object := p.sources.length
         syndesisConnectionId := id
         syndesisName := syndesisName
         teiidName := (p.table.findSchemaBySourceId id).map (·.name)
         translatorName := translatorName }] }

/-- The step of call `i` on `scd` from where it stands. -/
def proceed (p : Pods teiid) (i : Nat) (call : Call) (scd : DefaultSyndesisDataSource)
    (nextInt : BitVec 32) (registers : Bool) : Option (Pods teiid) :=
  match call.point with
  | .createDataSource =>
      some (p.setPoint i
        (if scd.teiidName.isNone then .findSchemaBySourceId 0 else .registerDataSource))
  | .findSchemaBySourceId attempt =>
      match p.table.findSchemaBySourceId scd.syndesisConnectionId with
      | some ss => some (p.setPoint i (.setTeiidName ss.name))
      | none => some (p.setPoint i (.isNameInUse attempt))
  | .isNameInUse attempt =>
      some (p.setPoint i (.commit attempt (nameToUse p.table scd.syndesisName nextInt)))
  | .commit attempt toUse =>
      match p.table.createSchema scd.syndesisConnectionId toUse with
      | .ok table => some ({ p with table := table }.setPoint i (.setTeiidName toUse))
      | .error _ =>
          some (p.setPoint i
            (if attempt + 1 < 3 then .findSchemaBySourceId (attempt + 1) else .checkTeiidName))
  | .setTeiidName name =>
      some ({ p with sources := p.sources.modify call.scd ({ · with teiidName := some name }) }.setPoint
        i .checkTeiidName)
  | .checkTeiidName =>
      some (p.setPoint i (if scd.teiidName.isNone then .raised else .registerDataSource))
  | .registerDataSource =>
      match scd.teiidName with
      | some teiidName => some (p.setPoint i (if registers then .returned teiidName else .raised))
      | none => some (p.setPoint i .raised)
  | .returned _ => none
  | .raised => none

/-- Whose step is next. -/
inductive PodLabel
  | buildSyndesisDataSource (id syndesisName translatorName : String)
  /-- some thread calls `createDataSource` on an object of its pod -/
  | createDataSource (scd : Nat)
  /-- the next step of a call, with the number it draws and whether the registration returns -/
  | proceed (call : Nat) (nextInt : BitVec 32) (registers : Bool)
  /-- other transactions change the virtualizations -/
  | virtualizations (rows : List Row)
  deriving DecidableEq, Repr

/-- One step of one call, in one pod. -/
def next (p : Pods teiid) (label : PodLabel) : Option (Pods teiid) :=
  match label with
  | .buildSyndesisDataSource id syndesisName translatorName =>
      some (p.buildSyndesisDataSource id syndesisName translatorName)
  | .createDataSource scd =>
      if scd < p.sources.length then
        some { p with calls := p.calls ++ [{ scd := scd, point := .createDataSource }] }
      else none
  | .proceed i nextInt registers =>
      match p.calls[i]? with
      | none => none
      | some call =>
          match p.sources[call.scd]? with
          | none => none
          | some scd => p.proceed i call scd nextInt registers
  | .virtualizations rows =>
      if rows.all (·.type = .virtualization) then
        match SharedTable.commit teiid (rows ++ p.table.rows.filter (·.type = .sourceSchema)) with
        | .ok table => some { p with table := table }
        | .error _ => none
      else none

/-- The pods start on any table. -/
def started (p : Pods teiid) : Prop := p.sources = [] ∧ p.calls = []

/-- Runs of the pods. -/
def podSystem (teiid : Teiid) : System (Pods teiid) PodLabel := .ofNext started next

/-- A call for the connection succeeded, and this is the name it ended with. -/
def Succeeded (p : Pods teiid) (id teiidName : String) : Prop :=
  ∃ call ∈ p.calls, call.point = .returned teiidName ∧
    ∃ scd, p.sources[call.scd]? = some scd ∧ scd.syndesisConnectionId = id

/-! ## The names objects and calls hold -/

/-- The name a call has got and not yet written, or has ended with. -/
def Point.Names : Point → String → Prop
  | .setTeiidName name, n => n = name
  | .returned teiidName, n => n = teiidName
  | _, _ => False

/-- The connection ids of the objects, which never change. -/
def ids (p : Pods teiid) : List String := p.sources.map (·.syndesisConnectionId)

/-- Every name an object or a call holds for a connection is one the relation allows. -/
structure NamedBy (R : String → String → Prop) (p : Pods teiid) : Prop where
  sources : ∀ scd ∈ p.sources, ∀ n, scd.teiidName = some n → R scd.syndesisConnectionId n
  calls : ∀ call ∈ p.calls, ∃ id, p.ids[call.scd]? = some id ∧ ∀ n, call.point.Names n → R id n

/-- The ids of the objects. -/
theorem ids_getElem? {p : Pods teiid} {k : Nat} {scd : DefaultSyndesisDataSource}
    (h : p.sources[k]? = some scd) : p.ids[k]? = some scd.syndesisConnectionId := by
  simp [ids, h]

variable {R : String → String → Prop}

/-- At the start no object is named. -/
theorem namedBy_of_started {p : Pods teiid} (h : started p) : p.NamedBy R := by
  obtain ⟨hsources, hcalls⟩ := h
  constructor
  · intro scd hscd
    rw [hsources] at hscd
    cases hscd
  · intro call hcall
    rw [hcalls] at hcall
    cases hcall

/-- What names are held for may be weakened. -/
theorem NamedBy.mono {p : Pods teiid} (h : p.NamedBy R) {R' : String → String → Prop}
    (hsub : ∀ id ∈ p.ids, ∀ n, R id n → R' id n) : p.NamedBy R' := by
  constructor
  · intro scd hscd n hn
    exact hsub _ (List.mem_map_of_mem hscd) n (h.sources scd hscd n hn)
  · intro call hcall
    obtain ⟨id, hid, hnames⟩ := h.calls call hcall
    exact ⟨id, hid, fun n hn => hsub id (List.mem_of_getElem? hid) n (hnames n hn)⟩

/-- Names that are held do not depend on the table. -/
theorem namedBy_table {p : Pods teiid} (h : p.NamedBy R) (table : SharedTable teiid) :
    ({ p with table := table } : Pods teiid).NamedBy R :=
  ⟨h.sources, h.calls⟩

/-- A call moves on, with a name the relation allows if it has one. -/
theorem namedBy_setPoint {p : Pods teiid} (h : p.NamedBy R) {i k : Nat} {id : String}
    {point : Point} (hcall : ∀ call, p.calls[i]? = some call → call.scd = k)
    (hid : p.ids[k]? = some id) (hpoint : ∀ n, point.Names n → R id n) :
    (p.setPoint i point).NamedBy R := by
  refine ⟨h.sources, fun c hc => ?_⟩
  rcases mem_modify hc with hold | ⟨a, ha, rfl⟩
  · exact h.calls c hold
  · obtain rfl := hcall a ha
    exact ⟨id, hid, hpoint⟩

/-- Naming an object changes no id. -/
theorem ids_modify (p : Pods teiid) (k : Nat) (name : String) :
    ({ p with sources := p.sources.modify k ({ · with teiidName := some name }) } :
      Pods teiid).ids = p.ids := by
  apply List.ext_getElem?
  intro j
  simp only [ids, List.getElem?_map, List.getElem?_modify]
  cases p.sources[j]? with
  | none => rfl
  | some a =>
      by_cases hkj : k = j
      · simp [hkj]
      · simp [hkj]

/-- An object is given a name the relation allows. -/
theorem namedBy_modify {p : Pods teiid} (h : p.NamedBy R) {k : Nat}
    {scd : DefaultSyndesisDataSource} {name : String} (hscd : p.sources[k]? = some scd)
    (hname : R scd.syndesisConnectionId name) :
    ({ p with sources := p.sources.modify k ({ · with teiidName := some name }) } :
      Pods teiid).NamedBy R := by
  constructor
  · intro c hc n hn
    rcases mem_modify hc with hold | ⟨a, ha, rfl⟩
    · exact h.sources c hold n hn
    · obtain rfl : scd = a := Option.some.inj (hscd.symm.trans ha)
      obtain rfl : name = n := Option.some.inj hn
      exact hname
  · intro call hcall
    rw [ids_modify]
    exact h.calls call hcall

/-! ## What a step can do -/

/-- A step of a call moves it on, perhaps with the name of a row or of the object; or commits a row;
or gives the object its name. -/
inductive Proceeded (p : Pods teiid) (i : Nat) (call : Call) (scd : DefaultSyndesisDataSource) :
    Pods teiid → Prop
  | moves (point : Point)
      (hnames : ∀ n, point.Names n → scd.teiidName = some n ∨
        ∃ row, p.table.findSchemaBySourceId scd.syndesisConnectionId = some row ∧ row.name = n) :
      Proceeded p i call scd (p.setPoint i point)
  | commits (attempt : Nat) (toUse : String) (table : SharedTable teiid)
      (hpoint : call.point = .commit attempt toUse)
      (hcreate : p.table.createSchema scd.syndesisConnectionId toUse = .ok table) :
      Proceeded p i call scd ({ p with table := table }.setPoint i (.setTeiidName toUse))
  | names (name : String) (hpoint : call.point = .setTeiidName name) :
      Proceeded p i call scd
        ({ p with
            sources := p.sources.modify call.scd ({ · with teiidName := some name }) }.setPoint i
          .checkTeiidName)

/-- Every step of a call is one of these. -/
theorem proceed_cases {p p' : Pods teiid} {i : Nat} {call : Call} {scd : DefaultSyndesisDataSource}
    {nextInt : BitVec 32} {registers : Bool}
    (h : p.proceed i call scd nextInt registers = some p') : Proceeded p i call scd p' := by
  -- most calls lead to a point that holds no name
  have hunnamed : ∀ point : Point, (∀ n, ¬point.Names n) →
      Proceeded p i call scd (p.setPoint i point) :=
    fun point hno => .moves point fun n hn => absurd hn (hno n)
  unfold proceed at h
  split at h
  case h_1 =>
    cases h
    apply hunnamed
    intro n
    split <;> exact not_false
  case h_2 =>
    split at h
    · rename_i ss hfind
      cases h
      exact .moves _ fun n hn => .inr ⟨ss, hfind, hn.symm⟩
    · cases h
      exact hunnamed _ fun n => not_false
  case h_3 =>
    cases h
    exact hunnamed _ fun n => not_false
  -- the commit of the drawn name, which the unique index may refuse
  case h_4 attempt toUse hpoint =>
    split at h
    · rename_i table hcreate
      cases h
      exact .commits attempt toUse table hpoint hcreate
    · cases h
      apply hunnamed
      intro n
      split <;> exact not_false
  case h_5 name hpoint =>
    cases h
    exact .names name hpoint
  case h_6 =>
    cases h
    apply hunnamed
    intro n
    split <;> exact not_false
  -- the call returns the name its object already has
  case h_7 =>
    split at h
    · rename_i teiidName hteiid
      cases h
      refine .moves _ fun n hn => .inl ?_
      cases registers with
      | true => exact hteiid.trans (congrArg some hn.symm)
      | false => exact absurd hn not_false
    · cases h
      exact hunnamed _ fun n => not_false
  case h_8 => cases h
  case h_9 => cases h

/-- A step of a call keeps the names to the relation if the names of the rows it reads and of the row
it commits are in it. -/
theorem namedBy_proceeded {p p' : Pods teiid} {i : Nat} {call : Call}
    {scd : DefaultSyndesisDataSource} (hstep : Proceeded p i call scd p') (h : p.NamedBy R)
    (hcall : p.calls[i]? = some call) (hscd : p.sources[call.scd]? = some scd)
    (hfind : ∀ row, p.table.findSchemaBySourceId scd.syndesisConnectionId = some row →
      R scd.syndesisConnectionId row.name)
    (hcommit : ∀ attempt toUse, call.point = .commit attempt toUse →
      p.table.createSchema scd.syndesisConnectionId toUse = .ok p'.table →
        R scd.syndesisConnectionId toUse) : p'.NamedBy R := by
  have hsame : ∀ a, p.calls[i]? = some a → a.scd = call.scd := by
    intro a ha
    rw [Option.some.inj (ha.symm.trans hcall)]
  have hid : p.ids[call.scd]? = some scd.syndesisConnectionId := ids_getElem? hscd
  cases hstep with
  | moves point hnames =>
      refine namedBy_setPoint h hsame hid fun n hn => ?_
      rcases hnames n hn with hteiid | ⟨row, hrow, rfl⟩
      · exact h.sources scd (List.mem_of_getElem? hscd) n hteiid
      · exact hfind row hrow
  | commits attempt toUse table hpoint hcreate =>
      refine namedBy_setPoint (namedBy_table h table) hsame hid fun n hn => ?_
      rw [show n = toUse from hn]
      exact hcommit attempt toUse hpoint hcreate
  | names name hpoint =>
      obtain ⟨id, hid', hnames⟩ := h.calls call (List.mem_of_getElem? hcall)
      obtain rfl : scd.syndesisConnectionId = id := Option.some.inj (hid.symm.trans hid')
      have hname : R scd.syndesisConnectionId name := by
        apply hnames
        rw [hpoint]
        rfl
      -- writing the name keeps the ids of the objects, by which the relation is kept
      have hid'' : ({ p with sources := p.sources.modify call.scd ({ · with teiidName := some name }) }
          : Pods teiid).ids[call.scd]? = some scd.syndesisConnectionId := by
        rw [ids_modify]
        exact hid
      exact namedBy_setPoint (namedBy_modify h hscd hname) hsame hid'' fun n hn =>
        absurd hn not_false

/-- A new object is named after the row of its connection. -/
theorem namedBy_build {p : Pods teiid} (h : p.NamedBy R) {id : String}
    (syndesisName translatorName : String)
    (hfind : ∀ row, p.table.findSchemaBySourceId id = some row → R id row.name) :
    (p.buildSyndesisDataSource id syndesisName translatorName).NamedBy R := by
  constructor
  · intro scd hscd n hn
    rcases List.mem_append.mp hscd with hold | hnew
    · exact h.sources scd hold n hn
    · rw [List.mem_singleton.mp hnew] at hn ⊢
      obtain ⟨row, hrow, rfl⟩ := Option.map_eq_some_iff.mp hn
      exact hfind row hrow
  · intro call hcall
    obtain ⟨id', hid, hnames⟩ := h.calls call hcall
    refine ⟨id', ?_, hnames⟩
    obtain ⟨hlt, -⟩ := List.getElem?_eq_some_iff.mp hid
    show (List.map _ (p.sources ++ _))[call.scd]? = _
    rw [List.map_append]
    exact (List.getElem?_append_left hlt).trans hid

/-- A call that begins has no name yet. -/
theorem namedBy_createDataSource {p p' : Pods teiid} (h : p.NamedBy R) {scd : Nat}
    (hstep : p.next (.createDataSource scd) = some p') : p'.NamedBy R ∧ p'.table = p.table := by
  simp only [next] at hstep
  split at hstep
  · rename_i hlt
    cases hstep
    refine ⟨⟨h.sources, fun call hcall => ?_⟩, rfl⟩
    rcases List.mem_append.mp hcall with hold | hnew
    · exact h.calls call hold
    · rw [List.mem_singleton.mp hnew]
      exact ⟨_, ids_getElem? (List.getElem?_eq_getElem hlt), fun n hn => absurd hn not_false⟩
  · cases hstep

/-- A step proceeds with a call there is. -/
theorem next_proceed_eq_some {p p' : Pods teiid} {i : Nat} {nextInt : BitVec 32} {registers : Bool}
    (h : p.next (.proceed i nextInt registers) = some p') :
    ∃ call scd, p.calls[i]? = some call ∧ p.sources[call.scd]? = some scd ∧
      Proceeded p i call scd p' := by
  simp only [next] at h
  split at h
  · cases h
  · rename_i call hcall
    split at h
    · cases h
    · rename_i scd hscd
      exact ⟨call, scd, hcall, hscd, proceed_cases h⟩

/-- The name of a call that succeeded is one the relation allows. -/
theorem NamedBy.of_succeeded {p : Pods teiid} (h : p.NamedBy R) {id teiidName : String}
    (hs : p.Succeeded id teiidName) : R id teiidName := by
  obtain ⟨call, hcall, hpoint, scd, hscd, rfl⟩ := hs
  obtain ⟨id, hid, hnames⟩ := h.calls call hcall
  obtain rfl : scd.syndesisConnectionId = id :=
    Option.some.inj ((ids_getElem? hscd).symm.trans hid)
  apply hnames
  rw [hpoint]
  rfl

/-! ## What the calls agree on -/

/-- Every name an object or a call holds is the one in the row of its connection. -/
def Agreed (p : Pods teiid) : Prop := p.NamedBy p.table.HasSchema

/-- A committed row adds a schema and keeps those that are there. -/
theorem hasSchema_of_createSchema {table table' : SharedTable teiid} {sourceId name : String}
    (h : table.createSchema sourceId name = .ok table') :
    table'.HasSchema sourceId name ∧ ∀ id n, table.HasSchema id n → table'.HasSchema id n := by
  unfold SharedTable.HasSchema
  rw [SharedTable.rows_of_createSchema h]
  constructor
  · exact List.mem_append_right _ List.mem_cons_self
  · intro id n hn
    exact List.mem_append_left _ hn

/-- A step of a call keeps the agreement: a name is held once its row is written. -/
theorem proceeded_agreed {p p' : Pods teiid} {i : Nat} {call : Call}
    {scd : DefaultSyndesisDataSource} (hstep : Proceeded p i call scd p') (h : p.Agreed)
    (hcall : p.calls[i]? = some call) (hscd : p.sources[call.scd]? = some scd) : p'.Agreed := by
  -- the schemas of the old table are still in the new one
  have hkeep : ∀ id n, p.table.HasSchema id n → p'.table.HasSchema id n := by
    cases hstep with
    | moves point hnames => exact fun id n hn => hn
    | commits attempt toUse table hpoint hcreate => exact (hasSchema_of_createSchema hcreate).2
    | names name hpoint => exact fun id n hn => hn
  refine namedBy_proceeded hstep (h.mono fun id _ n => hkeep id n) hcall hscd ?_ ?_
  · intro row hrow
    exact hkeep _ _ (SharedTable.hasSchema_of_find hrow)
  · intro attempt toUse _ hcreate
    exact (hasSchema_of_createSchema hcreate).1

/-- Every step keeps the agreement between rows, objects and calls. -/
theorem next_agreed {p p' : Pods teiid} {label : PodLabel} (h : p.Agreed)
    (hstep : p.next label = some p') : p'.Agreed := by
  cases label with
  | buildSyndesisDataSource id syndesisName translatorName =>
      cases hstep
      exact namedBy_build h syndesisName translatorName fun row hrow =>
        SharedTable.hasSchema_of_find hrow
  | createDataSource scd =>
      obtain ⟨hnamed, htable⟩ := namedBy_createDataSource h hstep
      rw [Agreed, htable]
      exact hnamed
  | proceed i nextInt registers =>
      obtain ⟨call, scd, hcall, hscd, hproceeded⟩ := next_proceed_eq_some hstep
      exact proceeded_agreed hproceeded h hcall hscd
  | virtualizations rows =>
      simp only [next] at hstep
      split at hstep
      · split at hstep
        · rename_i table hcommit
          cases hstep
          refine namedBy_table (h.mono fun id _ n hn => ?_) table
          show table.HasSchema id n
          unfold SharedTable.HasSchema
          rw [SharedTable.commit_eq_ok.mp hcommit]
          exact List.mem_append_right _ (List.mem_filter.mpr ⟨hn, rfl⟩)
        · cases hstep
      · cases hstep

/-- However the calls of the pods interleave, those that succeed agree on one name for a connection,
which is the one in its row, and on names for two connections that differ in more than case. -/
theorem names_agree {s t : Pods teiid} {tr : List (Pods teiid × PodLabel)} (hs : started s)
    (hrun : (podSystem teiid).Run s tr t) :
    (∀ id name, t.Succeeded id name → t.table.HasSchema id name) ∧
      (∀ id name name', t.Succeeded id name → t.Succeeded id name' → name = name') ∧
      ∀ id id' name name', t.Succeeded id name → t.Succeeded id' name' → id ≠ id' →
        teiid.toUpperCase name ≠ teiid.toUpperCase name' := by
  have hagreed : t.Agreed :=
    hrun.invariant_of_all (fun p hp => namedBy_of_started hp)
      (fun p label p' h hstep => @next_agreed teiid p p' label h hstep) hs
  refine ⟨fun id name h => hagreed.of_succeeded h, ?_, ?_⟩
  · intro id name name' h h'
    exact (hagreed.of_succeeded h).unique (hagreed.of_succeeded h')
  · intro id id' name name' h h' hne
    exact (hagreed.of_succeeded h).upperCase_ne (hagreed.of_succeeded h') hne

/-- Two calls for one connection and one for a connection whose name differs only in case.  All three
have looked at the empty table before the first one commits. -/
def racing : Pods (.ascii fun _ => { schema := { name := "parsed" } }) :=
  System.after next { table := ⟨[], .nil⟩ }
    ([.buildSyndesisDataSource "c1" "my db" "postgresql",
      .buildSyndesisDataSource "c1" "my db" "postgresql",
      .buildSyndesisDataSource "c2" "MyDb" "mysql",
      .createDataSource 0, .createDataSource 1, .createDataSource 2] ++
      [0, 0, 0, 1, 1, 1, 2, 2, 0, 1, 2, 2, 0, 1, 2, 0, 1, 2, 0, 1, 2, 1, 2].map fun call =>
        .proceed call 5 true)

/-- Two pods that name the same two sources at the same time. -/
theorem names_agree_racing :
    racing.Succeeded "c1" "mydb" ∧ racing.Succeeded "c2" "MyDb_50000" ∧
      asciiUpperCase "mydb" ≠ asciiUpperCase "MyDb_50000" := by
  have h₁ : racing.Succeeded "c1" "mydb" :=
    ⟨⟨0, .returned "mydb"⟩, by decide, rfl, _, rfl, rfl⟩
  have h₂ : racing.Succeeded "c2" "MyDb_50000" :=
    ⟨⟨2, .returned "MyDb_50000"⟩, by decide, rfl, _, rfl, rfl⟩
  exact ⟨h₁, h₂,
    (names_agree ⟨rfl, rfl⟩ (System.run_after started next _ _)).2.2 _ _ _ _ h₁ h₂ (by decide)⟩

end Pods

end TeiidSyndesis.OpenShift
