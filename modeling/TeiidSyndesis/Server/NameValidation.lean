/-
# TeiidSyndesis.Server.NameValidation — the name of a new virtualization, asked about and taken.

The user interface asks about a name with the request that reads a virtualization, and takes it with the
request that creates one.  The two agree on the checks of the text, which they share, but not on how
they look for rows with the name: the first runs two queries on the upper-case copies, one in the words
of the database and one in those of Java, and the second leaves it to the unique indexes.

What stands in the way of a name is said here from the names in the table alone: the text, a
virtualization with the name, or a schema with it.  Each request is shown to answer from that, so that
the two agree.

Main results:
* `utf16Length_le_of_accepted`, `isBlank_of_accepted` — what a name that is accepted is like;
* `createDataVirtualization_of_invalid`, `createDataVirtualization_of_taken`,
  `createDataVirtualization_of_free` — how the request that creates answers;
* `getDataVirtualization_of_virtualization`, `getDataVirtualization_of_not_virtualization` — and the one
  that reads;
* `getDataVirtualization_agrees` — so that they agree.
-/
import TeiidSyndesis.Repository.UpperNames
import TeiidSyndesis.Server.DataVirtualizationService

namespace TeiidSyndesis.Server.Names

open TeiidSyndesis.Library TeiidSyndesis.Model TeiidSyndesis.Repository

/-! ## The requests -/

/-- The protocols of a published virtualization. -/
inductive ProtocolType
  | odata
  | sodata
  | jdbc
  | pg
  | jolokia
  | prometheus
  deriving DecidableEq, Repr

/-- What is known of a route. -/
structure RouteStatus where
  protocol : ProtocolType
  host : Option String
  deriving DecidableEq, Repr

/-- What is read of the `BuildStatus` of a virtualization. -/
structure PublishedStatus where
  status : String
  publishPodName : Option String := none
  podNamespace : Option String := none
  routes : List RouteStatus := []
  usedBy : Option (List String) := none
  deriving DecidableEq, Repr

/-- `RestDataVirtualization` as it is answered. -/
structure RestAnswer where
  id : Nat
  name : Option String
  description : Option String
  serviceViewModel : Option String
  publishedState : String
  publishPodName : Option String
  podNamespace : Option String
  odataHostName : Option String
  usedBy : Option (List String)
  empty : Bool
  deriving DecidableEq, Repr

/-- The host of the first route for OData. -/
def getOdataHost (buildStatus : PublishedStatus) : Option String :=
  (buildStatus.routes.find? (·.protocol = .odata)).bind (·.host)

/-- `createRestDataVirtualization`: the answer, with the status that is published. -/
def createRestDataVirtualization (tables : BaseTables)
    (getVirtualizationStatus : Option String → Except String (Option PublishedStatus))
    (virtualization : BaseDataVirtualization) : Except Failure RestAnswer :=
  match getVirtualizationStatus virtualization.name with
  | .error message => .error (.kException message)
  | .ok status =>
      .ok
        { id := virtualization.id
          name := virtualization.name
          description := virtualization.description
          serviceViewModel := virtualization.name
          publishedState := (status.map (·.status)).getD "NOTFOUND"
          publishPodName := status.bind (·.publishPodName)
          podNamespace := status.bind (·.podNamespace)
          odataHostName := status.bind getOdataHost
          usedBy := status.bind (·.usedBy)
          empty := (virtualization.name.elim [] tables.findViewDefinitionsNames).isEmpty }

/-- How reading a virtualization ends when it does not return. -/
inductive LookupFailure
  | seeOther (message : String)
  | raised (failure : Failure)
  deriving DecidableEq, Repr

/-- The queries run in transactions that are rolled back. -/
def getDataVirtualization (teiid : Teiid) (upper : String → String)
    (getVirtualizationStatus : Option String → Except String (Option PublishedStatus))
    (tables : BaseTables) (virtualization : String) : Except LookupFailure RestAnswer :=
  match tables.findByNameIgnoreCase upper virtualization with
  | none =>
      match getValidationMessage teiid virtualization with
      | some validationMessage => .error (.raised (.forbidden validationMessage))
      | none =>
          if tables.isNameInUse teiid virtualization then
            .error (.seeOther "the name matches an existing connection name")
          else .error (.raised (.notFound virtualization))
  | some dv => (createRestDataVirtualization tables getVirtualizationStatus dv).mapError .raised

/-- The request, with the transaction it runs. -/
def createDataVirtualization (teiid : Teiid) (db : BaseDatabase)
    (restDataVirtualization : RestDataVirtualization) : Except Failure BaseDatabase := do
  let restName ← requiredName restDataVirtualization
  match getValidationMessage teiid restName with
  | some message => .error (.forbidden message)
  | none =>
      conflictOnViolation (db.transaction teiid
        [.createDataVirtualization restName restDataVirtualization.description])

/-! ## Names of ASCII characters -/

/-- A name of ASCII characters. -/
def IsAscii (name : String) : Prop := ∀ c ∈ name.toList, c.toNat < 128

instance (name : String) : Decidable (IsAscii name) :=
  List.decidableBAll (fun c : Char => c.toNat < 128) name.toList

/-- `toUpperCase` and the `UPPER` of the database change the letters of an ASCII name alike. -/
structure AsciiUpper (teiid : Teiid) (upper : String → String) : Prop where
  java : ∀ name, IsAscii name → teiid.toUpperCase name = asciiUpperCase name
  database : ∀ name, IsAscii name → upper name = asciiUpperCase name

/-- Upper case changes no length there. -/
theorem length_asciiUpperCase (name : String) : (asciiUpperCase name).length = name.length := by
  unfold asciiUpperCase
  rw [String.length_ofList, List.length_map, String.length_toList]

/-- Such a name has as many units as characters. -/
theorem utf16Length_of_isAscii {name : String} (h : IsAscii name) : utf16Length name = name.length := by
  have hunits : name.toList.map utf16Units = name.toList.map fun _ => 1 := by
    refine List.map_congr_left ?_
    intro c hc
    have hlt := h c hc
    unfold utf16Units
    rw [if_pos (by omega)]
  unfold utf16Length
  rw [hunits, List.map_const', List.sum_replicate_nat, String.length_toList, Nat.mul_one]

/-! ## The text of a name -/

/-- A name has to have one unit, and at most as many as the column takes. -/
theorem checkNameLength_eq_none {name : String} :
    checkNameLength name = none ↔ 1 ≤ utf16Length name ∧ utf16Length name ≤ 255 := by
  unfold checkNameLength
  split
  · simp
    omega
  · split
    · simp
      omega
    · simp
      omega

/-- A text that is accepted is no longer than 255 characters. -/
theorem utf16Length_le_of_accepted {teiid : Teiid} {name : String}
    (h : getValidationMessage teiid name = none) : utf16Length name ≤ 255 := by
  unfold getValidationMessage at h
  split at h
  · cases h
  · rename_i hlength
    exact (checkNameLength_eq_none.mp hlength).2

/-- A name that is accepted matches the pattern. -/
theorem matchesPattern_of_accepted {teiid : Teiid} {name : String}
    (h : getValidationMessage teiid name = none) : matchesPattern name = true := by
  unfold getValidationMessage at h
  split at h
  · cases h
  · split at h
    · cases h
    · rename_i hpattern
      simpa using hpattern

/-- A text that is accepted ends in a letter or digit, so it is not blank. -/
theorem isBlank_of_accepted {teiid : Teiid} {name : String}
    (h : getValidationMessage teiid name = none) : isBlank name = false := by
  have hpattern := matchesPattern_of_accepted h
  unfold matchesPattern at hpattern
  rw [Bool.and_eq_true, Option.any_eq_true] at hpattern
  obtain ⟨_, c, hlast, hc⟩ := hpattern
  unfold isBlank
  rw [List.all_eq_false]
  refine ⟨c, List.mem_of_getLast? hlast, ?_⟩
  unfold letterOrDigit at hc
  simp only [decide_eq_true_eq, Char.le_def, UInt32.le_iff_toNat_le] at hc ⊢
  have hspace : ' '.val.toNat = 32 := rfl
  have ha : 'a'.val.toNat = 97 := rfl
  have hA : 'A'.val.toNat = 65 := rfl
  have h0 : '0'.val.toNat = 48 := rfl
  omega

/-- The entity of an accepted ASCII name fits its columns. -/
theorem fits_newDataVirtualization {teiid : Teiid} {upper : String → String}
    (hupper : AsciiUpper teiid upper) {name : String} (hascii : IsAscii name)
    (haccepted : getValidationMessage teiid name = none) :
    (BaseTables.newDataVirtualization teiid name none).Fits := by
  have hlength : name.length ≤ 255 := by
    have hunits := utf16Length_le_of_accepted haccepted
    rw [utf16Length_of_isAscii hascii] at hunits
    exact hunits
  constructor
  · intro text htext
    obtain rfl : name = text := Option.some.inj htext
    exact hlength
  · intro text htext
    obtain rfl : teiid.toUpperCase name = text := Option.some.inj htext
    rw [hupper.java name hascii, length_asciiUpperCase]
    exact hlength
  · exact nofun
  · exact nofun
  · exact nofun

/-! ## The request that creates -/

section

variable {teiid : Teiid} {db : BaseDatabase} {name : String}

/-- A blank name is refused before anything else. -/
theorem requiredName_of_blank (h : isBlank name = true) (description : Option String) :
    requiredName ⟨some name, description⟩ =
      .error (.forbidden "The DataService name is missing from the URL parameters") := by
  unfold requiredName
  dsimp only
  rw [if_pos h]

/-- Any other is looked at. -/
theorem requiredName_of_not_blank (h : isBlank name = false) (description : Option String) :
    requiredName ⟨some name, description⟩ = .ok name := by
  unfold requiredName
  dsimp only
  rw [if_neg (by simp [h])]

/-- A name whose text is not accepted is refused. -/
theorem createDataVirtualization_of_invalid {message : String}
    (h : getValidationMessage teiid name = some message) (description : Option String) :
    ∃ text, createDataVirtualization teiid db ⟨some name, description⟩ = .error (.forbidden text) := by
  unfold createDataVirtualization
  cases hblank : isBlank name with
  | true =>
      rw [requiredName_of_blank hblank]
      exact ⟨_, rfl⟩
  | false =>
      rw [requiredName_of_not_blank hblank]
      refine ⟨message, ?_⟩
      show (match getValidationMessage teiid name with | some message => _ | none => _) = _
      rw [h]

/-- With a text that is accepted, all depends on the transaction. -/
theorem createDataVirtualization_of_accepted (h : getValidationMessage teiid name = none)
    (description : Option String) :
    createDataVirtualization teiid db ⟨some name, description⟩ =
      conflictOnViolation (db.transaction teiid [.createDataVirtualization name description]) := by
  unfold createDataVirtualization
  rw [requiredName_of_not_blank (isBlank_of_accepted h)]
  show (match getValidationMessage teiid name with | some message => _ | none => _) = _
  rw [h]

/-- A name that is taken, by a virtualization or a schema, is refused. -/
theorem createDataVirtualization_of_taken (hstep : db.tables.InStep teiid)
    (h : getValidationMessage teiid name = none) {type : RowType}
    (htaken : db.tables.TakenBy teiid type name) (description : Option String) :
    ∃ text, createDataVirtualization teiid db ⟨some name, description⟩ = .error (.conflict text) := by
  have hviolated : ¬(db.tables.apply teiid (.createDataVirtualization name description)).Constraints := by
    intro hsaved
    have hnew := BaseTables.inStep_newDataVirtualization teiid name description
    exact ((db.constraints.save_iff hstep rfl hnew rfl).mp hsaved).2 type htaken
  rw [createDataVirtualization_of_accepted h]
  unfold BaseDatabase.transaction
  dsimp only [List.foldl_cons, List.foldl_nil]
  rw [dif_neg hviolated]
  exact ⟨_, rfl⟩

/-- A name that a row has is not taken again, whatever its text. -/
theorem not_created_of_taken (hstep : db.tables.InStep teiid) {type : RowType}
    (htaken : db.tables.TakenBy teiid type name) (description : Option String) :
    ¬∃ db', createDataVirtualization teiid db ⟨some name, description⟩ = .ok db' := by
  rintro ⟨db', hok⟩
  cases hmessage : getValidationMessage teiid name with
  | some message =>
      obtain ⟨text, hfailed⟩ := createDataVirtualization_of_invalid hmessage description
      rw [hfailed] at hok
      cases hok
  | none =>
      obtain ⟨text, hfailed⟩ := createDataVirtualization_of_taken hstep hmessage htaken description
      rw [hfailed] at hok
      cases hok

/-- Under a name that is accepted and free a virtualization is created. -/
theorem createDataVirtualization_of_free {upper : String → String} (hupper : AsciiUpper teiid upper)
    (hascii : IsAscii name) (hstep : db.tables.InStep teiid)
    (h : getValidationMessage teiid name = none)
    (hfree : ∀ type, ¬db.tables.TakenBy teiid type name) :
    ∃ db', createDataVirtualization teiid db ⟨some name, none⟩ = .ok db' := by
  have hnew := BaseTables.inStep_newDataVirtualization teiid name none
  have hsaved : (db.tables.apply teiid (.createDataVirtualization name none)).Constraints :=
    (db.constraints.save_iff hstep rfl hnew rfl).mpr ⟨fits_newDataVirtualization hupper hascii h, hfree⟩
  rw [createDataVirtualization_of_accepted h, BaseDatabase.transaction_eq_ok.mpr]
  · exact ⟨⟨_, hsaved⟩, rfl⟩
  · rfl

end

/-! ## The request that reads -/

section

variable {teiid : Teiid} {tables : BaseTables} {name : String}
  {upper : String → String}

/-- A virtualization that is found is answered, unless its status cannot be had. -/
theorem getDataVirtualization_of_virtualization
    (getVirtualizationStatus : Option String → Except String (Option PublishedStatus))
    (hstep : tables.InStep teiid) (hupper : upper name = teiid.toUpperCase name)
    (h : tables.TakenBy teiid .virtualization name) :
    (∃ answer, getDataVirtualization teiid upper getVirtualizationStatus tables name = .ok answer) ∨
      ∃ message, getDataVirtualization teiid upper getVirtualizationStatus tables name =
        .error (.raised (.kException message)) := by
  obtain ⟨dv, hfind⟩ :=
    Option.isSome_iff_exists.mp ((hstep.isSome_findByNameIgnoreCase hupper).mpr h)
  unfold getDataVirtualization
  rw [hfind]
  dsimp only
  unfold createRestDataVirtualization
  cases getVirtualizationStatus dv.name with
  | error message => exact .inr ⟨message, rfl⟩
  | ok status => exact .inl ⟨_, rfl⟩

/-- Where no virtualization has the name, the second query decides what the text leaves open. -/
theorem getDataVirtualization_of_not_virtualization
    (getVirtualizationStatus : Option String → Except String (Option PublishedStatus))
    (hstep : tables.InStep teiid) (hupper : upper name = teiid.toUpperCase name)
    (h : ¬tables.TakenBy teiid .virtualization name) :
    getDataVirtualization teiid upper getVirtualizationStatus tables name =
      match getValidationMessage teiid name with
      | some message => .error (.raised (.forbidden message))
      | none =>
          if tables.TakenBy teiid .sourceSchema name then
            .error (.seeOther "the name matches an existing connection name")
          else .error (.raised (.notFound name)) := by
  have hfind : tables.findByNameIgnoreCase upper name = none := by
    rw [← Option.not_isSome_iff_eq_none, hstep.isSome_findByNameIgnoreCase hupper]
    exact h
  -- with no virtualization of the name, whatever uses it is a source schema
  have hinUse : tables.isNameInUse teiid name = true ↔ tables.TakenBy teiid .sourceSchema name := by
    rw [hstep.isNameInUse_iff]
    constructor
    · rintro ⟨type, htaken⟩
      cases type with
      | virtualization => exact absurd htaken h
      | sourceSchema => exact htaken
    · intro htaken
      exact ⟨_, htaken⟩
  unfold getDataVirtualization
  rw [hfind]
  dsimp only
  cases getValidationMessage teiid name with
  | some message => rfl
  | none =>
      dsimp only
      by_cases htaken : tables.TakenBy teiid .sourceSchema name
      · rw [if_pos (hinUse.mpr htaken), if_pos htaken]
      · rw [if_neg (mt hinUse.mp htaken), if_neg htaken]

end

/-! ## The two agree -/

/-- What is asked about a name and what is made of it agree, in every state the program reaches: the
name is not found exactly if it can be taken, another resource has it exactly if it is a valid one that
only a source has, and it is forbidden exactly if no virtualization has it and taking it is forbidden. -/
theorem getDataVirtualization_agrees {teiid : Teiid} {upper : String → String}
    (hupper : AsciiUpper teiid upper)
    (getVirtualizationStatus : Option String → Except String (Option PublishedStatus))
    {db : BaseDatabase} (hreachable : db.Reachable teiid) {name : String} (hname : IsAscii name) :
    ((∃ what, getDataVirtualization teiid upper getVirtualizationStatus db.tables name =
        .error (.raised (.notFound what))) ↔
      ∃ db', createDataVirtualization teiid db ⟨some name, none⟩ = .ok db') ∧
    ((∃ message, getDataVirtualization teiid upper getVirtualizationStatus db.tables name =
        .error (.seeOther message)) ↔
      getValidationMessage teiid name = none ∧ db.tables.TakenBy teiid .sourceSchema name ∧
        ¬db.tables.TakenBy teiid .virtualization name) ∧
    ((∃ message, getDataVirtualization teiid upper getVirtualizationStatus db.tables name =
        .error (.raised (.forbidden message))) ↔
      ¬db.tables.TakenBy teiid .virtualization name ∧
        ∃ message, createDataVirtualization teiid db ⟨some name, none⟩ = .error (.forbidden message)) := by
  have hstep := hreachable.inStep
  have hquery : upper name = teiid.toUpperCase name := by
    rw [hupper.database name hname, hupper.java name hname]
  by_cases hvirtualization : db.tables.TakenBy teiid .virtualization name
  · -- the name is answered with its virtualization, and cannot be taken again
    have hcreate := not_created_of_taken hstep hvirtualization none
    have hanswer := getDataVirtualization_of_virtualization getVirtualizationStatus hstep hquery
      hvirtualization
    rcases hanswer with ⟨answer, hget⟩ | ⟨message, hget⟩
    · simp [hget, hcreate, hvirtualization]
    · simp [hget, hcreate, hvirtualization]
  -- the name is of no virtualization: it is invalid, that of a source schema, or free
  · rw [getDataVirtualization_of_not_virtualization getVirtualizationStatus hstep hquery hvirtualization]
    cases hmessage : getValidationMessage teiid name with
    | some message =>
        obtain ⟨text, hcreate⟩ := createDataVirtualization_of_invalid hmessage none
        rw [hcreate]
        simp [hvirtualization]
    | none =>
        by_cases hsource : db.tables.TakenBy teiid .sourceSchema name
        · obtain ⟨text, hcreate⟩ := createDataVirtualization_of_taken hstep hmessage hsource none
          rw [hcreate]
          simp [hvirtualization, hsource]
        · have hfree : ∀ type, ¬db.tables.TakenBy teiid type name := by
            intro type
            cases type with
            | virtualization => exact hvirtualization
            | sourceSchema => exact hsource
          obtain ⟨db', hcreate⟩ :=
            createDataVirtualization_of_free hupper hname hstep hmessage hfree
          rw [hcreate]
          simp [hsource]

/-! ### A store with a virtualization and a source -/

/-- Teiid with a parser that finds nothing. -/
def plainTeiid : Teiid := Teiid.ascii fun _ => { schema := { name := "" } }

/-- Its upper case is that of ASCII. -/
theorem plainTeiid_asciiUpper : AsciiUpper plainTeiid asciiUpperCase :=
  ⟨fun _ _ => rfl, fun _ _ => rfl⟩

def emptyBase : BaseDatabase := ⟨{}, by decide⟩

/-- After the creation of a virtualization and the arrival of a connection. -/
def salesAndOrders : BaseDatabase where
  tables :=
    { rows :=
        [{ id := 0, type := .virtualization, name := some "sales", upperName := some "SALES" },
          { id := 1, type := .sourceSchema, name := some "Orders", upperName := some "ORDERS",
            sourceId := some "7" }]
      nextId := 2 }
  constraints := by decide

theorem reachable_salesAndOrders : salesAndOrders.Reachable plainTeiid := by
  have hstep : emptyBase.transaction plainTeiid
      [.createDataVirtualization "sales" none, .createSchema "7" "Orders" none] =
        .ok salesAndOrders := BaseDatabase.transaction_eq_ok.mpr (by decide)
  exact ⟨emptyBase, _, rfl, .cons hstep (.nil salesAndOrders)⟩

/-- The name of the source, in other letters, is reported as another resource and not as free. -/
theorem getDataVirtualization_agrees_orders :
    (∃ message, getDataVirtualization plainTeiid asciiUpperCase (fun _ => .ok none)
        salesAndOrders.tables "orders" = .error (.seeOther message)) ∧
      ¬∃ what, getDataVirtualization plainTeiid asciiUpperCase (fun _ => .ok none)
        salesAndOrders.tables "orders" = .error (.raised (.notFound what)) := by
  have hascii : IsAscii "orders" := by decide
  obtain ⟨_, hseeOther, _⟩ := getDataVirtualization_agrees plainTeiid_asciiUpper
    (fun _ => .ok none) reachable_salesAndOrders hascii
  have haccepted : getValidationMessage plainTeiid "orders" = none := by decide
  have htaken : salesAndOrders.tables.TakenBy plainTeiid .sourceSchema "orders" := by decide
  have hfree : ¬salesAndOrders.tables.TakenBy plainTeiid .virtualization "orders" := by decide
  have hsource := hseeOther.mpr ⟨haccepted, htaken, hfree⟩
  refine ⟨hsource, ?_⟩
  rintro ⟨what, hget⟩
  obtain ⟨message, hother⟩ := hsource
  rw [hget] at hother
  cases hother

/-! ## The store without the copies -/

/-- A result that is no conflict is the operation's own. -/
theorem ok_of_conflictOnViolation {α : Type} {result : Except Failure α} {value : α}
    (h : conflictOnViolation result = .ok value) : result = .ok value := by
  unfold conflictOnViolation at h
  split at h
  · cases h
  · exact h

/-- What the request creates here it creates in the store without the copies, whose constraints the
indexes on the copies keep. -/
theorem createDataVirtualization_store {teiid : Teiid} {db db' : BaseDatabase}
    {restDataVirtualization : RestDataVirtualization} (hstep : db.tables.InStep teiid)
    (hconsistent : db.tables.store.Consistent teiid)
    (h : createDataVirtualization teiid db restDataVirtualization = .ok db') :
    Server.createDataVirtualization teiid db.tables.store restDataVirtualization =
        .ok db'.tables.store ∧
      db'.tables.store.Consistent teiid := by
  unfold createDataVirtualization at h
  obtain ⟨restName, hrequired, hcreate⟩ := bind_eq_ok.mp h
  cases hmessage : getValidationMessage teiid restName with
  | some message =>
      rw [hmessage] at hcreate
      cases hcreate
  | none =>
      rw [hmessage] at hcreate
      have htables := BaseDatabase.transaction_eq_ok.mp (ok_of_conflictOnViolation hcreate)
      have hstore : db'.tables.store =
          db.tables.store.createDataVirtualization restName restDataVirtualization.description := by
        rw [htables]
        exact BaseTables.store_createDataVirtualization teiid db.tables restName _
      -- the table of the names is in step with the rows, so its index speaks of them
      have hnames : (db'.tables.store.rowNames.map teiid.toUpperCase).Nodup := by
        refine BaseTables.nodup_rowNames_store ?_ db'.constraints.upperNames
        rw [htables]
        exact hstep.applyAll _
      constructor
      · unfold Server.createDataVirtualization
        rw [hrequired, hstore]
        show (match getValidationMessage teiid restName with | some message => _ | none => _) = _
        rw [hmessage]
        rfl
      · rw [hstore] at hnames ⊢
        exact hconsistent.createDataVirtualization hnames

end TeiidSyndesis.Server.Names
