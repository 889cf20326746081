/-
# TeiidSyndesis.Server.PreviewVdbs — preview VDBs and the version they are tagged with.

`updatePreviewVdb` keeps a deployed VDB whose tag is the version of its virtualization.  A tag is
sound as long as the version moves on whenever the texts of the complete and parsable views change:
the VDB is then at worst of an older version, and of the same version only with the same texts.
-/
import TeiidSyndesis.Server.ServiceVdbGenerator

namespace TeiidSyndesis.Server

open TeiidSyndesis.Model

theorem getPreviewVdbName_injective {a b : String} (h : getPreviewVdbName a = getPreviewVdbName b) :
    a = b := by
  unfold getPreviewVdbName at h
  have hl := congrArg String.toList h
  rw [String.toList_append, String.toList_append] at hl
  exact String.toList_inj.mp (List.append_cancel_right hl)

/-- A row of the virtualizations with the views that belong to it. -/
structure StoredVirtualization where
  row : DataVirtualization
  views : List ViewDefinition := []
  deriving DecidableEq, Repr

/-- The VDB is there with the version of the virtualization; a VDB without the property makes the
comparison raise. -/
def isCurrent (dv : DataVirtualization) : Option VDBMetaData → Except Failure Bool
  | none => .ok false
  | some vdb =>
      match vdb.versionProperty with
      | none => .error (.illegalArgument "NumberFormatException")
      | some version => .ok (dv.version == version)

/-- The VDB is what `createPreviewVdb` makes of the views the virtualization has now. -/
def Generated (vdb : VDBMetaData) (dvName : String) (stored : StoredVirtualization) : Prop :=
  createPreviewVdb dvName (getPreviewVdbName dvName) stored.views =
    .ok { vdb with versionProperty := none }

/-- The version of the VDB has not overtaken the virtualization, and is sound where it has been
reached. -/
def Matches (vdb : VDBMetaData) (dvName : String) (stored : StoredVirtualization) : Prop :=
  ∀ version, vdb.versionProperty = some version →
    version ≤ stored.row.version ∧ (version = stored.row.version → Generated vdb dvName stored)

/-- A VDB goes on matching a virtualization whose version moves on, or stays with the texts. -/
theorem matches_of_version {vdb : VDBMetaData} {dvName : String}
    {stored stored' : StoredVirtualization} (hs : Matches vdb dvName stored)
    (hversion : stored.row.version < stored'.row.version ∨
      (stored'.row.version = stored.row.version ∧
        usableDdls stored'.views = usableDdls stored.views)) :
    Matches vdb dvName stored' := by
  intro version hv
  obtain ⟨hle, hgenerated⟩ := hs version hv
  rcases hversion with hlt | ⟨hsame, htexts⟩
  · refine ⟨by omega, ?_⟩
    intro heq
    omega
  · refine ⟨by omega, ?_⟩
    intro heq
    have hcongr := createPreviewVdb_congr htexts dvName (getPreviewVdbName dvName)
    exact hcongr.trans (hgenerated (heq.trans hsame))

theorem frame_of_createPreviewVdb {virtualizationName vdbName : String}
    {views : List ViewDefinition} {vdb : VDBMetaData}
    (h : createPreviewVdb virtualizationName vdbName views = .ok vdb) :
    vdb.name = vdbName ∧ vdb.versionProperty = none := by
  unfold createPreviewVdb at h
  cases hddl : previewDdl views "" with
  | error failure =>
      rw [hddl] at h
      cases h
  | ok allViewDdl =>
      rw [hddl] at h
      cases h
      exact ⟨rfl, rfl⟩

/-- The tag is no part of what is generated. -/
theorem generated_of_create {vdb : VDBMetaData} {dvName : String} {stored : StoredVirtualization}
    (h : createPreviewVdb dvName (getPreviewVdbName dvName) stored.views = .ok vdb)
    (version : Option Nat) : Generated { vdb with versionProperty := version } dvName stored := by
  obtain ⟨name, models, imports, preview, versionProperty⟩ := vdb
  obtain ⟨_, rfl⟩ := frame_of_createPreviewVdb h
  exact h

end TeiidSyndesis.Server
