/-
# TeiidSyndesis.OpenShift.KomodoNames — the names `getUniqueKomodoName` gives.

A name is what is left of the Syndesis name after cleaning and truncation, with a random suffix if that
is reserved or taken.  Everything that is expected of it follows, except that something is left: a
Syndesis name may consist of removed characters only, and the empty name is stored like any other.

Main results:
* `mem_komodoName`, `utf16Length_komodoName`, `underscore_not_mem_komodoName` — what cleaning leaves;
* `KomodoName.utf16Length_le`, `KomodoName.clean`, `KomodoName.underscore` — so of every name that is given;
* `getUniqueKomodoName_new`, `komodoName_of_new` — a connection without a row is given such a name;
* `wellNamed_iff` — the whole postcondition, exactly where something is left of the Syndesis name;
* `empty_name_assigned` — and the name that is given where nothing is.
-/
import TeiidSyndesis.OpenShift.ConnectionLink
import TeiidSyndesis.Datasources.Definitions

namespace TeiidSyndesis.OpenShift

open TeiidSyndesis.Library TeiidSyndesis.Model

namespace Synchronizer

/-! ## Truncation -/

/-- Truncation adds a character only where it cuts a pair in two. -/
theorem mem_takeUnits {units : Nat} {cs : List Char} {c : Char} (h : c ∈ takeUnits units cs) :
    c ∈ cs ∨ c = unpaired := by
  induction cs generalizing units with
  | nil => cases h
  | cons d cs ih =>
      unfold takeUnits at h
      split at h
      · rcases List.mem_cons.mp h with rfl | h
        · exact .inl (List.mem_cons_self)
        · rcases ih h with h | h
          · exact .inl (List.mem_cons_of_mem _ h)
          · exact .inr h
      · split at h
        · cases h
        · exact .inr (List.mem_singleton.mp h)

/-- It keeps to its limit. -/
theorem takeUnits_le (units : Nat) (cs : List Char) :
    ((takeUnits units cs).map utf16Units).sum ≤ units := by
  induction cs generalizing units with
  | nil => exact Nat.zero_le _
  | cons c cs ih =>
      unfold takeUnits
      split
      · rename_i hfits
        have hrest := ih (units - utf16Units c)
        rw [List.map_cons, List.sum_cons]
        omega
      · split
        · exact Nat.zero_le _
        · show utf16Units unpaired + 0 ≤ units
          have hone : utf16Units unpaired = 1 := by decide
          omega

/-- It leaves nothing only of nothing. -/
theorem takeUnits_eq_nil {units : Nat} {cs : List Char} (hunits : units ≠ 0) :
    takeUnits units cs = [] ↔ cs = [] := by
  cases cs with
  | nil => simp [takeUnits]
  | cons c cs =>
      refine iff_of_false ?_ (List.cons_ne_nil c cs)
      unfold takeUnits
      rw [if_neg hunits]
      split <;> exact List.cons_ne_nil _ _

/-! ## Cleaning -/

/-- A cleaned name has characters of the Syndesis name, without the problematic ones. -/
theorem mem_komodoName {syndesisName : String} {c : Char} (h : c ∈ (komodoName syndesisName).toList) :
    (c ∈ syndesisName.toList ∨ c = unpaired) ∧ problematic c = false := by
  unfold komodoName at h
  rw [String.toList_ofList] at h
  rcases mem_takeUnits h with hmem | rfl
  · obtain ⟨hmem, hkept⟩ := List.mem_filter.mp hmem
    exact ⟨.inl hmem, by simpa using hkept⟩
  · exact ⟨.inr rfl, by decide⟩

/-- Nothing is left exactly if every character is removed. -/
theorem komodoName_eq_empty {syndesisName : String} :
    komodoName syndesisName = "" ↔ ∀ c ∈ syndesisName.toList, problematic c = true := by
  unfold komodoName
  rw [← String.toList_inj, String.toList_ofList, String.toList_empty, takeUnits_eq_nil (by decide),
    List.filter_eq_nil_iff]
  simp

/-- It leaves room for a suffix. -/
theorem utf16Length_komodoName (syndesisName : String) : utf16Length (komodoName syndesisName) ≤ 249 := by
  unfold utf16Length komodoName
  rw [String.toList_ofList]
  exact takeUnits_le _ _

/-- It has no underscore of its own. -/
theorem underscore_not_mem_komodoName (syndesisName : String) :
    '_' ∉ (komodoName syndesisName).toList := by
  intro h
  exact absurd (mem_komodoName h).2 (by decide)

/-! ## The suffix -/

/-- A digit, or a letter from a to v. -/
def isSuffixChar (c : Char) : Bool := decide ('0' ≤ c ∧ c ≤ '9' ∨ 'a' ≤ c ∧ c ≤ 'v')

/-- A suffix has five characters. -/
theorem toList_randomSuffix (val : BitVec 32) :
    (randomSuffix val).toList.length = 5 ∧ ∀ c ∈ (randomSuffix val).toList, isSuffixChar c = true := by
  have hchars : ∀ low : Fin 32,
      isSuffixChar (if low.val < 10 then Char.ofNat (low + 48) else Char.ofNat (low + 87)) = true := by
    decide
  unfold randomSuffix
  rw [String.toList_ofList]
  refine ⟨by simp, fun c hc => ?_⟩
  obtain ⟨i, -, rfl⟩ := List.mem_map.mp hc
  exact hchars ⟨(val.sshiftRight (5 * i)).toNat % 32, Nat.mod_lt _ (by decide)⟩

/-- None of them is problematic. -/
theorem isSuffixChar_ascii {c : Char} (h : isSuffixChar c = true) :
    problematic c = false ∧ utf16Units c = 1 := by
  simp only [isSuffixChar, decide_eq_true_eq] at h
  have hbounds : 48 ≤ c.toNat ∧ c.toNat ≤ 57 ∨ 97 ≤ c.toNat ∧ c.toNat ≤ 118 := h
  constructor
  · unfold problematic
    rw [decide_eq_false_iff_not]
    intro hc
    have hnat : c.toNat ∈ [46, 63, 95, 32, 9, 10, 11, 12, 13] := List.mem_map_of_mem (f := Char.toNat) hc
    simp only [List.mem_cons, List.not_mem_nil, or_false] at hnat
    omega
  · unfold utf16Units
    rw [if_pos (by omega)]

/-! ## Names -/

/-- What `getUniqueKomodoName` makes of a name: something clean, with or without a suffix. -/
inductive KomodoName (syndesisName : String) : String → Prop
  | plain : KomodoName syndesisName (komodoName syndesisName)
  | suffixed (val : BitVec 32) :
      KomodoName syndesisName (komodoName syndesisName ++ "_" ++ randomSuffix val)

theorem utf16Length_append (a b : String) : utf16Length (a ++ b) = utf16Length a + utf16Length b := by
  unfold utf16Length
  rw [String.toList_append, List.map_append, List.sum_append]

/-- A name fits the column, with its suffix. -/
theorem KomodoName.utf16Length_le {syndesisName name : String} (h : KomodoName syndesisName name) :
    utf16Length name ≤ 255 := by
  have hfront := utf16Length_komodoName syndesisName
  cases h with
  | plain => omega
  | suffixed val =>
      obtain ⟨hlength, hchars⟩ := toList_randomSuffix val
      have hsuffix : utf16Length (randomSuffix val) = 5 := by
        unfold utf16Length
        have hunits : (randomSuffix val).toList.map utf16Units =
            (randomSuffix val).toList.map fun _ => 1 :=
          List.map_congr_left fun c hc => (isSuffixChar_ascii (hchars c hc)).2
        rw [hunits, List.map_const', hlength]
        decide
      have hunderscore : utf16Length "_" = 1 := by decide
      rw [utf16Length_append, utf16Length_append]
      omega

/-- No character that is removed comes back, but for one underscore. -/
theorem KomodoName.clean {syndesisName name : String} (h : KomodoName syndesisName name) :
    ∀ c ∈ name.toList, problematic c = true → c = '_' := by
  intro c hc hproblem
  cases h with
  | plain => exact absurd ((mem_komodoName hc).2.symm.trans hproblem) (by decide)
  | suffixed val =>
      rw [String.toList_append, String.toList_append, List.mem_append, List.mem_append] at hc
      rcases hc with (hc | hc) | hc
      · exact absurd ((mem_komodoName hc).2.symm.trans hproblem) (by decide)
      · exact List.mem_singleton.mp hc
      · have hsuffix := (isSuffixChar_ascii ((toList_randomSuffix val).2 c hc)).1
        exact absurd (hsuffix.symm.trans hproblem) (by decide)

/-- An underscore stands directly before a suffix. -/
def UnderscoreBeforeSuffix (name : String) : Prop :=
  '_' ∉ name.toList ∨
    ∃ front suffix, name = front ++ "_" ++ suffix ∧ '_' ∉ front.toList ∧ suffix.toList.length = 5 ∧
      ∀ c ∈ suffix.toList, isSuffixChar c = true

/-- An underscore stands before a suffix, and nowhere else. -/
theorem KomodoName.underscore {syndesisName name : String} (h : KomodoName syndesisName name) :
    UnderscoreBeforeSuffix name := by
  cases h with
  | plain => exact .inl (underscore_not_mem_komodoName syndesisName)
  | suffixed val =>
      exact .inr ⟨komodoName syndesisName, randomSuffix val, rfl,
        underscore_not_mem_komodoName syndesisName, (toList_randomSuffix val).1,
        (toList_randomSuffix val).2⟩

/-! ## Reserved names -/

/-- Names that differ in case only have their underscores in the same places, and no reserved name has
one where a suffix would begin. -/
structure ReservedNames (teiid : Teiid) : Prop where
  underscores : ∀ a b, teiid.equalsIgnoreCase a b = true →
    a.toList.map (· == '_') = b.toList.map (· == '_')
  reserved : ∀ name ∈ teiid.reservedNames, name.toList.reverse[5]? ≠ some '_'

/-- A name with a suffix is not reserved. -/
theorem unreserved_of_suffixed {teiid : Teiid} (hteiid : ReservedNames teiid) {syndesisName : String}
    {val : BitVec 32} {reserved : String} (h : reserved ∈ teiid.reservedNames) :
    teiid.equalsIgnoreCase (komodoName syndesisName ++ "_" ++ randomSuffix val) reserved = false := by
  rw [← Bool.not_eq_true]
  intro heq
  have hplaces := congrArg List.reverse (hteiid.underscores _ _ heq)
  rw [← List.map_reverse, ← List.map_reverse] at hplaces
  have hfive := congrArg (·[5]?) hplaces
  have hlength := (toList_randomSuffix val).1
  have hunderscore :
      (komodoName syndesisName ++ "_" ++ randomSuffix val).toList.reverse[5]? = some '_' := by
    rw [String.toList_append, String.toList_append, List.reverse_append, List.reverse_append,
      List.getElem?_append_right (by rw [List.length_reverse, hlength]), List.length_reverse, hlength]
    rfl
  simp only [List.getElem?_map, hunderscore, Option.map_some, beq_self_eq_true] at hfive
  cases hplace : reserved.toList.reverse[5]? with
  | none => simp [hplace] at hfive
  | some c =>
      rw [hplace] at hfive
      obtain rfl : c = '_' := by simpa using hfive
      exact hteiid.reserved reserved h hplace

/-! ## Assigned names -/

/-- What `\s` stands for in a regular expression. -/
def isWhiteSpace (c : Char) : Bool :=
  c ∈ [' ', '\t', '\n', Char.ofNat 11, Char.ofNat 12, '\r']

/-- What is expected of a new name. -/
structure Usable (teiid : Teiid) (s t : Synchronizer) (id name : String) : Prop where
  /-- the source is found under this name again -/
  stored : ∃ row, t.findSchemaBySourceId id = some row ∧ row.name = name
  nonempty : name ≠ ""
  /-- it fits the column of the names -/
  short : utf16Length name ≤ 255
  unreserved : ∀ reserved ∈ teiid.reservedNames, teiid.equalsIgnoreCase name reserved = false
  /-- nothing had the name before the call -/
  unused : isNameInUse teiid s name = false
  clean : ∀ c ∈ name.toList, c ≠ '.' ∧ c ≠ '?' ∧ isWhiteSpace c = false
  underscore : UnderscoreBeforeSuffix name

/-- A connection with a row gets its name, any other one a usable name. -/
def WellNamed (teiid : Teiid) (s t : Synchronizer) (id name : String) : Prop :=
  match s.findSchemaBySourceId id with
  | some row => name = row.name ∧ t = s
  | none => Usable teiid s t id name

variable {teiid : Teiid} {s t : Synchronizer} {scd : DefaultSyndesisDataSource} {val : BitVec 32}
  {name : String}

/-- A name gets a suffix exactly if it is reserved or in use. -/
theorem nameToUse_cases (teiid : Teiid) (s : Synchronizer) (syndesisName : String) (val : BitVec 32) :
    (teiid.reservedNames.any (teiid.equalsIgnoreCase (komodoName syndesisName)) ||
          isNameInUse teiid s (komodoName syndesisName)) = true ∧
        nameToUse teiid s syndesisName val = komodoName syndesisName ++ "_" ++ randomSuffix val ∨
      (teiid.reservedNames.any (teiid.equalsIgnoreCase (komodoName syndesisName)) ||
          isNameInUse teiid s (komodoName syndesisName)) = false ∧
        nameToUse teiid s syndesisName val = komodoName syndesisName := by
  unfold nameToUse
  dsimp only
  split
  · rename_i htaken
    exact .inl ⟨htaken, rfl⟩
  · rename_i hfree
    exact .inr ⟨by simpa using hfree, rfl⟩

/-- Either way it is one of the names that are given. -/
theorem komodoName_nameToUse (teiid : Teiid) (s : Synchronizer) (syndesisName : String)
    (val : BitVec 32) : KomodoName syndesisName (nameToUse teiid s syndesisName val) := by
  rcases nameToUse_cases teiid s syndesisName val with ⟨-, h⟩ | ⟨-, h⟩
  · rw [h]
    exact .suffixed val
  · rw [h]
    exact .plain

/-- A name that is given to a connection without a row is a new row of the table. -/
theorem getUniqueKomodoName_new (hrow : s.findSchemaBySourceId scd.syndesisConnectionId = none)
    (h : getUniqueKomodoName teiid s scd val = .ok (t, name)) :
    name = nameToUse teiid s scd.syndesisName val ∧
      createSchema teiid s scd.syndesisConnectionId name = .ok t := by
  unfold getUniqueKomodoName at h
  rw [hrow] at h
  obtain ⟨t', hcreate, heq⟩ := map_eq_ok.mp h
  obtain ⟨rfl, rfl⟩ := Prod.mk.inj heq
  exact ⟨rfl, hcreate⟩

/-- The name of a new connection is given in this way. -/
theorem komodoName_of_new (hrow : s.findSchemaBySourceId scd.syndesisConnectionId = none)
    (h : getUniqueKomodoName teiid s scd val = .ok (t, name)) : KomodoName scd.syndesisName name := by
  rw [(getUniqueKomodoName_new hrow h).1]
  exact komodoName_nameToUse teiid s scd.syndesisName val

/-- A row is created under a name that is in use nowhere. -/
theorem unused_of_createSchema {id : String} (h : createSchema teiid s id name = .ok t) :
    isNameInUse teiid s name = false := by
  unfold createSchema at h
  split at h
  · cases h
  · rename_i hfree
    rw [Bool.or_eq_true, not_or] at hfree
    exact Bool.not_eq_true _ ▸ hfree.1

/-- A row that is created is found by its source id. -/
theorem findSchema_of_createSchema {id : String} (hrow : s.findSchemaBySourceId id = none)
    (h : createSchema teiid s id name = .ok t) :
    ∃ row, t.findSchemaBySourceId id = some row ∧ row.name = name := by
  obtain ⟨rfl, -⟩ := createSchema_eq_ok h
  refine ⟨⟨s.nextId, name, id, none⟩, ?_, rfl⟩
  unfold findSchemaBySourceId at hrow ⊢
  rw [List.find?_append, hrow]
  simp

/-- A new name is usable unless nothing is left of the Syndesis name. -/
theorem usable_of_nonempty (hteiid : ReservedNames teiid)
    (hrow : s.findSchemaBySourceId scd.syndesisConnectionId = none)
    (h : getUniqueKomodoName teiid s scd val = .ok (t, name)) (hname : name ≠ "") :
    Usable teiid s t scd.syndesisConnectionId name := by
  obtain ⟨heq, hcreate⟩ := getUniqueKomodoName_new hrow h
  have hkomodo := komodoName_of_new hrow h
  refine ⟨findSchema_of_createSchema hrow hcreate, hname, hkomodo.utf16Length_le, ?_,
    unused_of_createSchema hcreate, ?_, hkomodo.underscore⟩
  · intro reserved hreserved
    rcases nameToUse_cases teiid s scd.syndesisName val with ⟨-, huse⟩ | ⟨hfree, huse⟩
    · rw [heq, huse]
      exact unreserved_of_suffixed hteiid hreserved
    · rw [Bool.or_eq_false_iff, List.any_eq_false] at hfree
      rw [heq, huse]
      simpa using hfree.1 reserved hreserved
  · intro c hc
    have hclean : problematic c = false ∨ c = '_' := by
      cases hproblem : problematic c with
      | false => exact .inl rfl
      | true => exact .inr (hkomodo.clean c hc hproblem)
    rcases hclean with hclean | rfl
    · simp only [problematic, decide_eq_false_iff_not, List.mem_cons, List.not_mem_nil, or_false,
        not_or] at hclean
      refine ⟨hclean.1, hclean.2.1, ?_⟩
      simp [isWhiteSpace, hclean]
    · decide

/-- An assigned name is usable exactly if the connection has a row, something of its Syndesis name is
left, or the empty name cannot be given. -/
theorem wellNamed_iff (hteiid : ReservedNames teiid)
    (h : getUniqueKomodoName teiid s scd val = .ok (t, name)) :
    WellNamed teiid s t scd.syndesisConnectionId name ↔
      s.findSchemaBySourceId scd.syndesisConnectionId ≠ none ∨
        (∃ c ∈ scd.syndesisName.toList, problematic c = false) ∨
        (teiid.reservedNames.any (teiid.equalsIgnoreCase "") || isNameInUse teiid s "") = true := by
  unfold WellNamed
  cases hrow : s.findSchemaBySourceId scd.syndesisConnectionId with
  | some row =>
      refine iff_of_true ?_ (.inl (Option.some_ne_none row))
      unfold getUniqueKomodoName at h
      rw [hrow] at h
      obtain ⟨rfl, rfl⟩ := Prod.mk.inj (Except.ok.inj h)
      exact ⟨rfl, rfl⟩
  | none =>
      -- all that can be wrong with a new name is that nothing is left of it
      have hempty : name = "" ↔ komodoName scd.syndesisName = "" ∧
          (teiid.reservedNames.any (teiid.equalsIgnoreCase "") || isNameInUse teiid s "") = false := by
        rw [(getUniqueKomodoName_new hrow h).1]
        rcases nameToUse_cases teiid s scd.syndesisName val with ⟨htaken, huse⟩ | ⟨hfree, huse⟩
        · rw [huse]
          refine iff_of_false ?_ ?_
          · intro hnil
            have hmem := congrArg (fun text => '_' ∈ text.toList) hnil
            simp at hmem
          · rintro ⟨hkomodo, hfree⟩
            rw [hkomodo] at htaken
            exact absurd (hfree.symm.trans htaken) (by decide)
        · rw [huse]
          constructor
          · intro hkomodo
            exact ⟨hkomodo, hkomodo ▸ hfree⟩
          · exact And.left
      have husable : Usable teiid s t scd.syndesisConnectionId name ↔ name ≠ "" :=
        ⟨Usable.nonempty, usable_of_nonempty hteiid hrow h⟩
      show Usable teiid s t scd.syndesisConnectionId name ↔ _
      rw [husable, Ne, hempty, komodoName_eq_empty, not_and_or, Bool.not_eq_false]
      simp

/-- Teiid as it is on ASCII names, with a parser that finds nothing. -/
def asciiTeiid : Teiid := .ascii fun _ => { schema := { name := "parsed" } }

theorem reservedNames_ascii : ReservedNames asciiTeiid where
  underscores a b h := by
    have hupper : ∀ text : String,
        (asciiUpperCase text).toList.map (· == '_') = text.toList.map (· == '_') := by
      intro text
      unfold asciiUpperCase
      rw [String.toList_ofList, List.map_map]
      refine List.map_congr_left fun c _ => ?_
      show ((if 'a' ≤ c ∧ c ≤ 'z' then Char.ofNat (c.toNat - 32) else c) == '_') = (c == '_')
      split
      · rename_i hc
        have hbounds : 97 ≤ c.toNat ∧ c.toNat ≤ 122 := hc
        have hletters : ∀ n : Fin 26, Char.ofNat (n + 65) ≠ '_' := by decide
        have hletter := hletters ⟨c.toNat - 97, by omega⟩
        have hnat : c.toNat - 97 + 65 = c.toNat - 32 := by omega
        simp only [hnat] at hletter
        have hne : c ≠ '_' := by
          rintro rfl
          exact absurd hbounds.1 (by decide)
        rw [beq_eq_false_iff_ne.mpr hletter, beq_eq_false_iff_ne.mpr hne]
      · rfl
    have heq : asciiUpperCase a = asciiUpperCase b := by simpa [asciiTeiid, Teiid.ascii] using h
    rw [← hupper a, ← hupper b, heq]
  reserved := by decide

/-- A connection whose name is to be cleaned. -/
def namedSource (syndesisName : String) : DefaultSyndesisDataSource :=
  { object := 0, syndesisConnectionId := "i-1", syndesisName := syndesisName, teiidName := none
    translatorName := "postgresql" }

/-- A Syndesis name with a blank and a question mark. -/
theorem wellNamed_iff_my_db :
    ∃ t, getUniqueKomodoName asciiTeiid {} (namedSource "my db?") 7 = .ok (t, "mydb") ∧
      WellNamed asciiTeiid {} t "i-1" "mydb" := by
  have hname : ∃ t, getUniqueKomodoName asciiTeiid {} (namedSource "my db?") 7 = .ok (t, "mydb") :=
    ⟨_, rfl⟩
  obtain ⟨t, h⟩ := hname
  exact ⟨t, h, (wellNamed_iff reservedNames_ascii h).mpr (.inr (.inl ⟨'m', by decide, by decide⟩))⟩

/-- Of three question marks nothing is left, and the empty name is stored. -/
theorem empty_name_assigned :
    ¬∀ (teiid : Teiid) (s t : Synchronizer) (scd : DefaultSyndesisDataSource) (val : BitVec 32)
        (name : String), ReservedNames teiid → getUniqueKomodoName teiid s scd val = .ok (t, name) →
      WellNamed teiid s t scd.syndesisConnectionId name := by
  intro h
  have hname : ∃ t, getUniqueKomodoName asciiTeiid {} (namedSource "???") 7 = .ok (t, "") := ⟨_, rfl⟩
  obtain ⟨t, hassigned⟩ := hname
  have husable : Usable asciiTeiid {} t "i-1" "" := h _ _ _ _ _ _ reservedNames_ascii hassigned
  exact husable.nonempty rfl

end Synchronizer

end TeiidSyndesis.OpenShift
