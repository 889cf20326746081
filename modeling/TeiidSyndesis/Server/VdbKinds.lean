/-
# TeiidSyndesis.Server.VdbKinds — the kinds of VDBs, told apart by the ends of their names.

The server deploys the main preview VDB, two VDBs for each source and one for each virtualization.  Names
of sources and virtualizations are arbitrary, and a VDB is what its name ends in: `refreshPreviewVdb`
imports what ends as a connection, undeploys what ends as a preview, and leaves the rest;
`finishedDeployment` looks for the end of a VDB that loads.

Main results:
* `eq_of_vdbName_eq`, `endsWith_vdbName` — a name tells its kind, whatever its owner is called;
* `eq_of_toUpperCase_eq`, `apart_of_ne` — also in upper case;
* `refresh_round`, `refreshFrom_loop`, `refreshAlone_returns` — the refresh, one VDB after another;
* `refresh_classifies` — so what it imports, what it undeploys and what it leaves.
-/
import Mathlib.Data.Bool.AllAny
import Mathlib.Data.List.Pairwise
import TeiidSyndesis.Library.Affixes
import TeiidSyndesis.Model.JavaText
import TeiidSyndesis.Server.PreviewDeployment
import TeiidSyndesis.Server.SourceDeployment

namespace TeiidSyndesis.Server

open TeiidSyndesis.Library TeiidSyndesis.Model

/-! ## Kinds -/

/-- The kinds of VDBs. -/
inductive VdbKind
  | preview
  | connection
  | load
  | virtualization
  deriving DecidableEq, Repr

namespace VdbKind

open PreviewServer (endsWith)

/-- The name of the VDB of this kind of a source or a virtualization; the main preview VDB has no owner. -/
def vdbName (kind : VdbKind) (owner : String) : String :=
  match kind with
  | preview => previewVdb
  | connection => getWorkspaceSourceVdbName owner
  | load => getWorkspaceSourceVdbName owner ++ loadSuffix
  | virtualization => getPreviewVdbName owner

/-- The owners of VDBs of this kind. -/
def owners (kind : VdbKind) (sourceNames virtualizationNames : List String) : List String :=
  match kind with
  | preview => [""]
  | connection | load => sourceNames
  | virtualization => virtualizationNames

/-- What the name of the VDB ends in. -/
def suffix : VdbKind → String
  | preview => previewVdb
  | connection => connectionVdbSuffix
  | load => connectionVdbSuffix ++ loadSuffix
  | virtualization => "vdb"

/-- What stands before it. -/
def front (kind : VdbKind) (owner : String) : String :=
  match kind with
  | preview => ""
  | _ => owner

/-- A name is its front and its end. -/
theorem vdbName_eq (kind : VdbKind) (owner : String) :
    kind.vdbName owner = kind.front owner ++ kind.suffix := by
  cases kind with
  | preview => exact String.empty_append.symm
  | load => exact String.append_assoc
  | connection | virtualization => rfl

/-! ## The ends of names -/

/-- The last character of a name tells its kind. -/
def lastChar : VdbKind → Char
  | preview => 'w'
  | connection => 'n'
  | load => 'd'
  | virtualization => 'b'

/-- The kinds end in different characters. -/
theorem lastChar_injective : Function.Injective lastChar := by
  intro kind other h
  cases kind <;> cases other <;> first | rfl | exact absurd h (by decide)

/-- A name ends in the character of its kind. -/
theorem getLast?_vdbName (kind : VdbKind) (owner : String) :
    (kind.vdbName owner).toList.getLast? = some kind.lastChar := by
  have hsuffix : kind.suffix.toList.getLast? = some kind.lastChar := by
    cases kind <;> rfl
  rw [vdbName_eq, String.toList_append, List.getLast?_append, hsuffix]
  rfl

/-- VDBs of one name are of one kind. -/
theorem eq_of_vdbName_eq {kind other : VdbKind} {owner owner' : String}
    (h : kind.vdbName owner = other.vdbName owner') : kind = other := by
  refine lastChar_injective (Option.some.inj ?_)
  rw [← kind.getLast?_vdbName owner, ← other.getLast?_vdbName owner', h]

/-- A word that VDBs of one kind end in is no end of another VDB's name. -/
theorem endsWith_vdbName {other : VdbKind} {word : String}
    (hword : word.toList <:+ other.suffix.toList)
    (hlast : word.toList.getLast? = some other.lastChar) (kind : VdbKind) (owner : String) :
    endsWith (kind.vdbName owner) word = decide (kind = other) := by
  by_cases hkind : kind = other
  · subst hkind
    refine (List.isSuffixOf_iff_suffix.mpr ?_).trans (decide_eq_true rfl).symm
    rw [vdbName_eq, String.toList_append]
    exact hword.trans (List.suffix_append _ _)
  · rw [decide_eq_false hkind, Bool.eq_false_iff]
    intro h
    obtain ⟨start, hstart⟩ := List.isSuffixOf_iff_suffix.mp h
    refine hkind (lastChar_injective (Option.some.inj ?_))
    rw [← kind.getLast?_vdbName owner, ← hstart, List.getLast?_append, hlast]
    rfl

/-- What ends as a connection is one. -/
theorem endsWith_connection (kind : VdbKind) (owner : String) :
    endsWith (kind.vdbName owner) connectionVdbSuffix = decide (kind = connection) :=
  @endsWith_vdbName connection _ (List.suffix_refl _) rfl kind owner

/-- What ends as a preview is one. -/
theorem endsWith_virtualization (kind : VdbKind) (owner : String) :
    endsWith (kind.vdbName owner) "vdb" = decide (kind = virtualization) :=
  @endsWith_vdbName virtualization _ (List.suffix_refl _) rfl kind owner

/-- What ends as a VDB that loads is one. -/
theorem endsWith_load (kind : VdbKind) (owner : String) :
    endsWith (kind.vdbName owner) loadSuffix = decide (kind = load) :=
  @endsWith_vdbName load _ (by decide) rfl kind owner

/-! ## Names that differ -/

/-- The names differ ignoring case. -/
def Apart (java : JavaText) (a b : String) : Prop := java.toUpperCase a ≠ java.toUpperCase b

instance (java : JavaText) (a b : String) : Decidable (Apart java a b) :=
  inferInstanceAs (Decidable (_ ≠ _))

instance (java : JavaText) : Std.Symm (Apart java) where
  symm _ _ h := Ne.symm h

/-- The end of the name in upper case. -/
def upperSuffix : VdbKind → List Char
  | preview => "PREVIEW".toList
  | connection => "CONN".toList
  | load => "CONN-LOAD".toList
  | virtualization => "VDB".toList

/-- No end is the end of another one. -/
def upperSuffixes : List (List Char) :=
  [preview, connection, load, virtualization].map upperSuffix

theorem upperSuffix_mem (kind : VdbKind) : kind.upperSuffix ∈ upperSuffixes := by
  cases kind <;> decide

/-- The ends differ in upper case as well. -/
theorem upperSuffix_injective : Function.Injective upperSuffix := by
  intro kind other h
  cases kind <;> cases other <;> first | rfl | exact absurd h (by decide)

variable {java : JavaText}

/-- A name in upper case ends in that of its suffix. -/
theorem toUpperCase_vdbName (hjava : java.UpperAscii) (kind : VdbKind) (owner : String) :
    (java.toUpperCase (kind.vdbName owner)).toList =
      (java.toUpperCase (kind.front owner)).toList ++ kind.upperSuffix := by
  have hsuffix : java.toUpperCase kind.suffix = String.ofList kind.upperSuffix := by
    have hascii : ∀ c ∈ kind.suffix.toList, c.toNat < 128 := by
      cases kind <;> exact List.all_iff_forall_prop.mp (by decide)
    rw [JavaText.toUpperCase_of_ascii hjava hascii]
    cases kind <;> rfl
  rw [vdbName_eq, JavaText.toUpperCase_append, String.toList_append, hsuffix, String.toList_ofList]

/-- VDBs with one name, ignoring case, are of one kind, and of owners with one name. -/
theorem eq_of_toUpperCase_eq (hjava : java.UpperAscii) {kind other : VdbKind} {owner owner' : String}
    (h : java.toUpperCase (kind.vdbName owner) = java.toUpperCase (other.vdbName owner')) :
    kind = other ∧ java.toUpperCase (kind.front owner) = java.toUpperCase (other.front owner') := by
  have hfree : SuffixFree upperSuffixes := by decide
  have hlists := congrArg String.toList h
  rw [toUpperCase_vdbName hjava, toUpperCase_vdbName hjava] at hlists
  obtain ⟨hfront, hsuffix⟩ := hfree.append_inj kind.upperSuffix_mem other.upperSuffix_mem hlists
  exact ⟨upperSuffix_injective hsuffix, String.toList_inj.mp hfront⟩

/-- Where the names of sources and virtualizations differ, a name is that of one VDB. -/
theorem apart_of_ne (hjava : java.UpperAscii) {sourceNames virtualizationNames : List String}
    (hnames : (sourceNames ++ virtualizationNames).Pairwise (Apart java)) {kind other : VdbKind}
    {owner owner' : String} (howner : owner ∈ kind.owners sourceNames virtualizationNames)
    (howner' : owner' ∈ other.owners sourceNames virtualizationNames)
    (hne : (kind, owner) ≠ (other, owner')) :
    Apart java (kind.vdbName owner) (other.vdbName owner') := by
  intro h
  obtain ⟨rfl, hfront⟩ := eq_of_toUpperCase_eq hjava h
  have hnames_ne : owner ≠ owner' := fun heq => hne (by rw [heq])
  cases kind with
  | preview =>
      rw [List.mem_singleton.mp howner, List.mem_singleton.mp howner'] at hnames_ne
      exact hnames_ne rfl
  | connection | load =>
      exact hnames.forall (List.mem_append_left _ howner) (List.mem_append_left _ howner')
        hnames_ne hfront
  | virtualization =>
      exact hnames.forall (List.mem_append_right _ howner) (List.mem_append_right _ howner')
        hnames_ne hfront

end VdbKind

/-! ## The deployed VDBs -/

/-- A deployed VDB, which bears the name of its kind and its owner. -/
structure KindedVdb where
  kind : VdbKind
  owner : String
  deployed : Deployed
  named : deployed.vdb.name = kind.vdbName owner

/-- A set of VDBs of sources and virtualizations whose names differ ignoring case. -/
structure VdbSet (java : JavaText) where
  sourceNames : List String
  virtualizationNames : List String
  names_apart : (sourceNames ++ virtualizationNames).Pairwise (VdbKind.Apart java)
  vdbs : List KindedVdb
  owned : ∀ v ∈ vdbs, v.owner ∈ v.kind.owners sourceNames virtualizationNames
  nodup : (vdbs.map fun v => (v.kind, v.owner)).Nodup

/-- The names of the VDBs differ ignoring case. -/
theorem VdbSet.pairwise_apart {java : JavaText} (hjava : java.UpperAscii) (set : VdbSet java) :
    (set.vdbs.map (·.deployed.vdb.name)).Pairwise (VdbKind.Apart java) := by
  rw [List.pairwise_map]
  refine (List.pairwise_map.mp set.nodup).imp_of_mem fun {v w} hv hw hne => ?_
  rw [v.named, w.named]
  exact VdbKind.apart_of_ne hjava set.names_apart (set.owned v hv) (set.owned w hw) hne

namespace PreviewServer

/-- `refreshPreviewVdb` alone on the server: at most this many steps to its return. -/
def refreshFrom (succeeds : Bool) : Nat → RefreshPc → PreviewServer → Option PreviewServer
  | 0, _, _ => none
  | steps + 1, pc, s =>
      match refreshPreviewVdb s pc succeeds with
      | (t, none) => some t
      | (t, some next) => refreshFrom succeeds steps next t

/-- A refresh that nothing interferes with. -/
def refreshAlone (succeeds : Bool) (s : PreviewServer) : Option PreviewServer :=
  refreshFrom succeeds (s.deployed.length + 2) .getVdbs s

/-- `finishedDeployment` up to its change of the server: nothing where it returns at once, as for a VDB
that it is removing already. -/
def finishedDeployment (s : PreviewServer) (name : String) (pendingRemoval : Option String) :
    Option PreviewServer :=
  if !endsWith name loadSuffix || pendingRemoval.isSome then none else some (s.undeploy name)

/-- The names of the active connection VDBs. -/
def importedNames (vdbs : List KindedVdb) : List String :=
  (vdbs.filter fun v => decide (v.kind = .connection) && v.deployed.active).map (·.deployed.vdb.name)

/-- The VDBs of sources. -/
def ofSources (vdbs : List KindedVdb) : List Deployed :=
  (vdbs.filter fun v => decide (v.kind = .connection ∨ v.kind = .load)).map (·.deployed)

/-- The server has these VDBs of sources as before, no preview of a virtualization, and a main preview
that imports the active connection VDBs. -/
def Refreshed (vdbs : List KindedVdb) (t : PreviewServer) : Prop :=
  ∃ deployedAt, t.deployed =
    ofSources vdbs ++
      [{ vdb := { name := previewVdb, imports := importedNames vdbs, preview := true }
         active := true
         deployedAt := deployedAt }]

/-! ## What a refresh does -/

/-- The VDBs that a loop over these undeploys are gone. -/
def withoutPreviews (s : PreviewServer) (vdbs : List KindedVdb) : PreviewServer :=
  { s with
    deployed := s.deployed.filter fun d =>
      decide (∀ v ∈ vdbs, v.kind = .virtualization → d.vdb.name ≠ v.deployed.vdb.name) }

/-- A VDB of another kind stays. -/
theorem withoutPreviews_of_other {s : PreviewServer} {v : KindedVdb}
    (h : v.kind ≠ .virtualization) : s.withoutPreviews [v] = s := by
  unfold withoutPreviews
  rw [List.filter_eq_self.mpr]
  simp [h]

/-- A preview is undeployed. -/
theorem withoutPreviews_of_preview {s : PreviewServer} {v : KindedVdb}
    (h : v.kind = .virtualization) : s.withoutPreviews [v] = s.undeploy v.deployed.vdb.name := by
  unfold withoutPreviews undeploy
  simp [h]

theorem withoutPreviews_cons (s : PreviewServer) (v : KindedVdb) (vdbs : List KindedVdb) :
    (s.withoutPreviews [v]).withoutPreviews vdbs = s.withoutPreviews (v :: vdbs) := by
  unfold withoutPreviews
  rw [List.filter_filter]
  congr 1
  refine List.filter_congr fun d _ => ?_
  simp only [List.forall_mem_cons, Bool.decide_and, List.not_mem_nil, false_implies, implies_true,
    decide_true, Bool.and_true]
  exact Bool.and_comm _ _

theorem importedNames_cons (v : KindedVdb) (vdbs : List KindedVdb) :
    importedNames (v :: vdbs) = importedNames [v] ++ importedNames vdbs := by
  unfold importedNames
  rw [← List.map_append, ← List.filter_append, List.singleton_append]

/-- One round of the loop. -/
theorem refresh_round (succeeds : Bool) (s : PreviewServer) (v : KindedVdb) (vdbs : List Deployed)
    (imports : List String) :
    refreshPreviewVdb s (.loop (v.deployed :: vdbs) imports) succeeds =
      (s.withoutPreviews [v], some (.loop vdbs (imports ++ importedNames [v]))) := by
  have hconnection := VdbKind.endsWith_connection v.kind v.owner
  have hpreview := VdbKind.endsWith_virtualization v.kind v.owner
  rw [← v.named] at hconnection hpreview
  simp only [refreshPreviewVdb, hconnection, hpreview, decide_eq_true_eq]
  by_cases hkind : v.kind = .connection
  · rw [if_pos hkind, withoutPreviews_of_other (by simp [hkind])]
    cases hactive : v.deployed.active <;> simp [importedNames, hkind, hactive]
  · have hnone : importedNames [v] = [] := by
      simp [importedNames, hkind]
    rw [if_neg hkind, hnone, List.append_nil]
    by_cases hother : v.kind = .virtualization
    · rw [if_pos hother, withoutPreviews_of_preview hother]
    · rw [if_neg hother, withoutPreviews_of_other hother]

/-- The loop over the VDBs, with the deployment behind it. -/
theorem refreshFrom_loop (succeeds : Bool) (s : PreviewServer) (vdbs : List KindedVdb)
    (imports : List String) :
    refreshFrom succeeds (vdbs.length + 1) (.loop (vdbs.map (·.deployed)) imports) s =
      some
        ((s.withoutPreviews vdbs).deploy
          { name := previewVdb, imports := imports ++ importedNames vdbs, preview := true } true
          succeeds) := by
  induction vdbs generalizing s imports with
  | nil =>
      have hsame : s.withoutPreviews [] = s := by
        unfold withoutPreviews
        rw [List.filter_eq_self.mpr (by simp)]
      rw [hsame]
      show some _ = some (s.deploy { name := _, imports := imports ++ [], preview := _ } _ _)
      rw [List.append_nil]
  | cons v vdbs ih =>
      rw [List.map_cons, List.length_cons, refreshFrom, refresh_round]
      show refreshFrom succeeds (vdbs.length + 1) _ _ = _
      rw [ih, withoutPreviews_cons, importedNames_cons v vdbs, List.append_assoc]

/-- What is left after the loop and the deployment: the VDBs of sources, and the new preview. -/
theorem refreshed_deploy {s : PreviewServer} {vdbs : List KindedVdb}
    (hs : s.deployed = vdbs.map (·.deployed)) :
    Refreshed vdbs
      ((s.withoutPreviews vdbs).deploy
        { name := previewVdb, imports := importedNames vdbs, preview := true } true true) := by
  refine ⟨s.clock, congrArg (· ++ _) ?_⟩
  unfold withoutPreviews ofSources
  rw [hs, List.filter_filter, List.filter_map]
  congr 1
  refine List.filter_congr fun v hv => ?_
  rw [Bool.eq_iff_iff]
  simp only [Function.comp_apply, Bool.and_eq_true, decide_eq_true_eq]
  constructor
  · rintro ⟨hpreview, hother⟩
    rw [v.named] at hpreview
    cases hkind : v.kind with
    | connection => exact .inl rfl
    | load => exact .inr rfl
    | preview => exact absurd (by rw [hkind]; rfl) hpreview
    | virtualization => exact absurd rfl (hother v hv hkind)
  · intro hsource
    constructor
    · intro hname
      have hkind := @VdbKind.eq_of_vdbName_eq v.kind .preview v.owner "" (v.named.symm.trans hname)
      simp [hkind] at hsource
    · intro w hw hpreview hname
      rw [v.named, w.named] at hname
      rw [VdbKind.eq_of_vdbName_eq hname, hpreview] at hsource
      simp at hsource

/-- A refresh alone returns, and has refreshed the VDBs. -/
theorem refreshAlone_returns {s : PreviewServer} {vdbs : List KindedVdb}
    (hs : s.deployed = vdbs.map (·.deployed)) :
    ∃ t, s.refreshAlone true = some t ∧ Refreshed vdbs t := by
  refine ⟨_, ?_, refreshed_deploy hs⟩
  unfold refreshAlone
  rw [refreshFrom]
  show refreshFrom true (s.deployed.length + 1) (.loop s.deployed []) s = _
  have hloop := refreshFrom_loop true s vdbs []
  rw [← hs, ← List.length_map, ← hs] at hloop
  exact hloop

/-- What `finishedDeployment` makes of a VDB: it undeploys one that loads, for the first time only. -/
theorem finishedDeployment_vdbName (s : PreviewServer) (kind : VdbKind) (owner : String)
    (pendingRemoval : Option String) :
    s.finishedDeployment (kind.vdbName owner) pendingRemoval =
      if kind = .load ∧ pendingRemoval = none then some (s.undeploy (kind.vdbName owner))
      else none := by
  unfold finishedDeployment
  rw [VdbKind.endsWith_load]
  by_cases hkind : kind = .load
  · cases pendingRemoval <;> simp [hkind]
  · simp [hkind]

/-- The names tell the kinds: they differ ignoring case, a refresh imports the active connection VDBs,
undeploys the previews of virtualizations and leaves the VDBs of sources, and `finishedDeployment` acts on
VDBs that load alone. -/
theorem refresh_classifies {java : JavaText} (hjava : java.UpperAscii) (set : VdbSet java)
    {s : PreviewServer} (hs : s.deployed = set.vdbs.map (·.deployed)) :
    (s.deployed.map (·.vdb.name)).Pairwise (VdbKind.Apart java) ∧
      (∃ t, s.refreshAlone true = some t ∧ Refreshed set.vdbs t) ∧
        ∀ v ∈ set.vdbs, ∀ pendingRemoval,
          s.finishedDeployment v.deployed.vdb.name pendingRemoval =
            if v.kind = .load ∧ pendingRemoval = none then some (s.undeploy v.deployed.vdb.name)
            else none := by
  refine ⟨?_, refreshAlone_returns hs, ?_⟩
  · rw [hs, List.map_map]
    exact set.pairwise_apart hjava
  · intro v _ pendingRemoval
    rw [v.named]
    exact s.finishedDeployment_vdbName v.kind v.owner pendingRemoval

/-- A VDB of a kind with nothing in it. -/
def emptyVdb (kind : VdbKind) (owner : String) (active : Bool) : KindedVdb where
  kind := kind
  owner := owner
  deployed := { vdb := { name := kind.vdbName owner }, active := active, deployedAt := 0 }
  named := rfl

/-- VDBs of owners whose names look like the ends of other names. -/
def misleadingSet : VdbSet .ascii where
  sourceNames := ["my-load", "Vdb"]
  virtualizationNames := ["conn"]
  names_apart := by decide
  vdbs :=
    [emptyVdb .preview "" true, emptyVdb .connection "my-load" true, emptyVdb .load "my-load" false,
      emptyVdb .connection "Vdb" false, emptyVdb .virtualization "conn" true]
  owned := by decide
  nodup := by decide

theorem refresh_classifies_misleading :
    ∃ t, refreshAlone true { deployed := misleadingSet.vdbs.map (·.deployed) } = some t ∧
      Refreshed misleadingSet.vdbs t :=
  (refresh_classifies JavaText.upperAscii_ascii misleadingSet rfl).2.1

end PreviewServer

end TeiidSyndesis.Server
