/-
# TeiidSyndesis.Server.VersionedSaves — a save that bears the version its client has read.

The version is looked at twice: against the request when the view is loaded, and against the row when
the changed view is committed.  Between the two any other client may commit, an import and a save
without a version included.  Since a version of a view is the view for good, the second check lets a
change through only where the row is the one the client has read.

A save that leaves the view as it was loaded writes no row of a view, so nothing checks its version at
the commit, and it may return though the view has changed in the meantime.

Main results:
* `Saving` and `saving_of_run` — what an open save with a version has loaded;
* `Saving.current`, `Saving.views_flush`, `Saving.view_eq` — what its commit checks and writes;
* `upsertViewEditorState_noLostUpdate` — so a save that returns, and has changed the view, lost nothing;
* `unchanged_save_returns` — and one that has not changed it.
-/
import TeiidSyndesis.Server.ConcurrentSaves
import TeiidSyndesis.Server.DvServer

namespace TeiidSyndesis.Server.Clients

open TeiidSyndesis.Library TeiidSyndesis.Model TeiidSyndesis.Repository

variable {κ : Type} [DecidableEq κ] {teiid : Teiid}

/-! ## What is loaded -/

/-- An open transaction was opened by the step, or is where it was, or one query further. -/
inductive Ran (s : Clients κ teiid) (client : κ) (request : Request) (work : Work) (reads : Reads) : Prop
  | begun : begin teiid s.db.store request = .ok (work, reads) → Ran s client request work reads
  | waited : s.sessions client = .running request work reads → Ran s client request work reads
  | read {before : Work} {todo : Reads} : s.sessions client = .running request before todo →
      readNext teiid s.db.store request before todo = .ok (work, reads) → Ran s client request work reads

/-- A transaction that is running has begun. -/
theorem opened_eq_running {request request' : Request} {result : Except Failure (Work × Reads)}
    {work : Work} {reads : Reads} (h : opened request result = .running request' work reads) :
    request' = request ∧ result = .ok (work, reads) := by
  unfold opened at h
  split at h
  · cases h
    exact ⟨rfl, rfl⟩
  · cases h

/-- A transaction that runs after a step ran before it, or has just begun. -/
theorem ran_of_next {s t : Clients κ teiid} {label : Label κ} (h : next s label = some t) {client : κ}
    {request : Request} {work : Work} {reads : Reads}
    (hsession : t.sessions client = .running request work reads) : Ran s client request work reads := by
  cases stepped_of_next h with
  | begun actor request' =>
      by_cases hactor : client = actor
      · rw [hactor, sessions_put_self] at hsession
        obtain ⟨rfl, hbegin⟩ := opened_eq_running hsession
        exact .begun hbegin
      · rw [sessions_put_of_ne s _ hactor] at hsession
        exact .waited hsession
  | @read actor request' before todo hbefore =>
      by_cases hactor : client = actor
      · rw [hactor, sessions_put_self] at hsession
        obtain ⟨rfl, hread⟩ := opened_eq_running hsession
        rw [hactor]
        exact .read hbefore hread
      · rw [sessions_put_of_ne s _ hactor] at hsession
        exact .waited hsession
  | @committed actor request' work' db hbefore _ =>
      by_cases hactor : client = actor
      · rw [hactor, sessions_put_self] at hsession
        cases hsession
      · rw [sessions_put_of_ne _ _ hactor] at hsession
        exact .waited hsession
  | @refused actor request' work' exception hbefore _ =>
      by_cases hactor : client = actor
      · rw [hactor, sessions_put_self] at hsession
        cases hsession
      · rw [sessions_put_of_ne s _ hactor] at hsession
        exact .waited hsession

/-- The work of a save with an identifier and a version: it has loaded the view with that version. -/
structure Saving (teiid : Teiid) (finder : SchemaFinder) (restViewDefn : ViewDefinition)
    (id version : Nat) (work : Work) (viewDefn updated : ViewDefinition) : Prop where
  /-- one view is loaded; nothing is created or removed -/
  loaded : work.loaded = [(viewDefn, updated)]
  made : work.made = []
  removed : work.removed = []
  id : viewDefn.id = some id
  version : viewDefn.version = some version
  updated : ∃ updateDv,
    updateView teiid finder viewDefn restViewDefn false = .ok (updated, updateDv)

section

variable {finder : SchemaFinder} {restViewDefn : ViewDefinition} {id version : Nat}

/-- With an identifier and a version only the view with both is found. -/
theorem findPersistent_versioned {store : Store} (hid : restViewDefn.id = some id)
    (hversion : restViewDefn.version = some version) {found : Option ViewDefinition}
    (h : findPersistent teiid store restViewDefn = .ok found) :
    ∃ viewDefn, found = some viewDefn ∧ store.findViewDefinition id = some viewDefn ∧
      viewDefn.version = some version := by
  unfold findPersistent at h
  rw [hid, hversion] at h
  dsimp only at h
  split at h
  · cases h
  · rename_i viewDefn hfind
    split at h
    · cases h
    · rename_i hsame
      cases h
      have hrow : viewDefn.version = some version := by
        by_contra hne
        refine hsame ?_
        rw [Option.isSome_some, Bool.true_and, bne_iff_ne]
        exact fun heq => hne heq.symm
      exact ⟨viewDefn, rfl, hfind, hrow⟩

/-- A save with a version begins only if the view still has it. -/
theorem saving_of_begin {store : Store} (hid : restViewDefn.id = some id)
    (hversion : restViewDefn.version = some version) {work : Work} {reads : Reads}
    (h : beginUpsert teiid finder store restViewDefn = .ok (work, reads)) :
    ∃ viewDefn updated, store.findViewDefinition id = some viewDefn ∧
      Saving teiid finder restViewDefn id version work viewDefn updated := by
  unfold beginUpsert at h
  obtain ⟨found, hfound, h⟩ := bind_eq_ok.mp h
  obtain ⟨viewDefn, rfl, hfind, hrow⟩ := findPersistent_versioned hid hversion hfound
  obtain ⟨⟨base, row⟩, hload, h⟩ := bind_eq_ok.mp h
  obtain ⟨⟨updated, updateDv⟩, hupdate, h⟩ := bind_eq_ok.mp h
  rcases loaded_from hload with ⟨hsame, _⟩ | ⟨hnone, _⟩
  · obtain rfl := Option.some.inj hsame
    cases pure_eq_ok.mp h
    exact ⟨viewDefn, updated, hfind, rfl, rfl, rfl, key_of_find? hfind, hrow, updateDv, hupdate⟩
  · cases hnone

/-- The queries after the first one load no view. -/
theorem Saving.readNext {store : Store} {work before : Work} {reads todo : Reads}
    {viewDefn updated : ViewDefinition}
    (hread : readNext teiid store (.upsertViewEditorState finder restViewDefn) before todo =
      .ok (work, reads))
    (h : Saving teiid finder restViewDefn id version before viewDefn updated) :
    Saving teiid finder restViewDefn id version work viewDefn updated := by
  unfold Clients.readNext at hread
  split at hread
  · cases hread
    exact h
  · split at hread
    · cases hread
    · cases hread
      exact ⟨h.loaded, h.made, h.removed, h.id, h.version, h.updated⟩
  · cases hread
    exact h
  · cases hread
    exact h

/-- In any run, what a save works on it has loaded in a state of the run, if it had not before. -/
theorem saving_of_run {s t : Clients κ teiid} {tr : List (Clients κ teiid × Label κ)}
    (hrun : (system κ teiid).Run s tr t) {client : κ} (hid : restViewDefn.id = some id)
    (hversion : restViewDefn.version = some version) {work : Work} {reads : Reads}
    (hsession : t.sessions client =
      .running (.upsertViewEditorState finder restViewDefn) work reads) :
    (∃ viewDefn updated, Saving teiid finder restViewDefn id version work viewDefn updated ∧
      ∃ x ∈ tr, x.1.view id = some viewDefn) ∨
    ∃ before todo, s.sessions client =
        .running (.upsertViewEditorState finder restViewDefn) before todo ∧
      ∀ viewDefn updated, Saving teiid finder restViewDefn id version before viewDefn updated →
        Saving teiid finder restViewDefn id version work viewDefn updated := by
  induction hrun with
  | nil s => exact .inr ⟨work, reads, hsession, fun _ _ h => h⟩
  | @cons s m t label tr hstep _ ih =>
      rcases ih hsession with ⟨viewDefn, updated, hsaving, x, hx, hview⟩ | ⟨mid, todo, hmid, hkeep⟩
      · exact .inl ⟨viewDefn, updated, hsaving, x, List.mem_cons_of_mem _ hx, hview⟩
      · -- the first step opens the transaction, or runs one of its queries, or is not its own
        cases ran_of_next hstep hmid with
        | begun hbegin =>
            obtain ⟨viewDefn, updated, hview, hsaving⟩ := saving_of_begin hid hversion hbegin
            exact .inl ⟨viewDefn, updated, hkeep viewDefn updated hsaving, _, List.mem_cons_self, hview⟩
        | waited hbefore => exact .inr ⟨mid, todo, hbefore, hkeep⟩
        | @read before first hbefore hread =>
            refine .inr ⟨before, first, hbefore, ?_⟩
            exact fun viewDefn updated h => hkeep viewDefn updated (h.readNext hread)

/-- In a run that begins with no transaction open, it has loaded it in a state of the run. -/
theorem saving_of_initial {s t : Clients κ teiid} {tr : List (Clients κ teiid × Label κ)}
    (hs : Initial s) (hrun : (system κ teiid).Run s tr t) {client : κ}
    (hid : restViewDefn.id = some id) (hversion : restViewDefn.version = some version) {work : Work}
    {reads : Reads}
    (hsession : t.sessions client =
      .running (.upsertViewEditorState finder restViewDefn) work reads) :
    ∃ viewDefn updated, Saving teiid finder restViewDefn id version work viewDefn updated ∧
      ∃ x ∈ tr, x.1.view id = some viewDefn := by
  rcases saving_of_run hrun hid hversion hsession with hsaving | ⟨before, todo, hbefore, _⟩
  · exact hsaving
  · rw [hs.1 client] at hbefore
    cases hbefore

/-! ## The commit of a save -/

/-- The save writes its view if it has changed, and no other row of a view. -/
theorem Saving.views_flush {store : Store} {work : Work} {viewDefn updated : ViewDefinition}
    (h : Saving teiid finder restViewDefn id version work viewDefn updated) :
    (work.flush store).views = (Work.flushView store (viewDefn, updated)).views := by
  unfold Work.flush
  rw [h.loaded, h.made, h.removed]
  cases work.touched <;> rfl

/-- A changed view is committed over the version that was loaded only. -/
theorem Saving.current {db : Database teiid} {work : Work} {viewDefn updated : ViewDefinition}
    (h : Saving teiid finder restViewDefn id version work viewDefn updated)
    (hchanged : updated ≠ viewDefn) (hcurrent : work.isCurrent db.store = true) :
    ∃ row, db.store.findViewDefinition id = some row ∧ row.version = some version := by
  unfold Work.isCurrent at hcurrent
  rw [h.loaded] at hcurrent
  simp only [List.all_cons, List.all_nil, Bool.and_true, Bool.and_eq_true, Bool.or_eq_true,
    decide_eq_true_eq, hchanged, false_or] at hcurrent
  have hview := hcurrent.1.1
  unfold Work.viewIsCurrent at hview
  rw [List.any_eq_true] at hview
  obtain ⟨row, hrow, hsame⟩ := hview
  obtain ⟨hid, hversion⟩ := of_decide_eq_true hsame
  refine ⟨row, ?_, hversion.trans h.version⟩
  have hkey : some id = row.id := by rw [hid, h.id]
  unfold Store.findViewDefinition
  rw [hkey]
  exact find?_of_mem db.consistent.ids hrow

omit [DecidableEq κ] in
/-- A save that leaves its view as it was loaded writes no row of a view. -/
theorem Saving.view_eq {s t : Clients κ teiid} {work : Work} {viewDefn updated : ViewDefinition}
    (h : Saving teiid finder restViewDefn id version work viewDefn updated)
    (hstore : t.db.store = work.flush s.db.store) (hunchanged : updated = viewDefn) (other : Nat) :
    t.view other = s.view other := by
  unfold view Store.findViewDefinition
  rw [hstore, h.views_flush]
  unfold Work.flushView
  rw [if_pos hunchanged]

end

/-! ## No update is lost -/

/-- The step is one the client takes with the request. -/
def Handles (s : Clients κ teiid) (client : κ) (request : Request) : Label κ → Prop
  | .begin actor begun => actor = client ∧ begun = request
  | .read actor => actor = client ∧ ∃ work reads, s.sessions client = .running request work reads
  | .commit actor => actor = client ∧ ∃ work reads, s.sessions client = .running request work reads

/-- The committed view with the identifier has the version. -/
def AtVersion (s : Clients κ teiid) (id version : Nat) : Prop :=
  ∃ row, s.view id = some row ∧ row.version = some version

/-- A view that has the version it had in a state of the run is what it was there. -/
theorem view_of_visited {s₀ s : Clients κ teiid} {tr : List (Clients κ teiid × Label κ)}
    (hs : Initial s₀) (hrun : (system κ teiid).Run s₀ tr s) {x : Clients κ teiid × Label κ} (hx : x ∈ tr)
    {id : Nat} {earlier row : ViewDefinition} (hearlier : x.1.view id = some earlier)
    (hrow : s.view id = some row) (hversion : row.version = earlier.version) : row = earlier := by
  obtain ⟨before, after, t, _, hbefore, hmid, hafter⟩ := hrun.split hx
  have hversions := (follows_of_run hs.2 hbefore).1
  exact view_of_version hversions (.cons hmid hafter) hearlier hrow hversion

omit [DecidableEq κ] in
/-- A save that begins where the view does not have its version raises an exception. -/
theorem begin_raises {s : Clients κ teiid} {finder : SchemaFinder} {restViewDefn : ViewDefinition}
    {id version : Nat} (hid : restViewDefn.id = some id) (hversion : restViewDefn.version = some version)
    (hnot : ¬AtVersion s id version) :
    ∃ failure, begin teiid s.db.store (.upsertViewEditorState finder restViewDefn) =
      .error failure := by
  cases hbegin : begin teiid s.db.store (.upsertViewEditorState finder restViewDefn) with
  | error failure => exact ⟨failure, rfl⟩
  | ok result =>
      -- a save that gets past its first query has found the version
      obtain ⟨viewDefn, _, hfind, hsaving⟩ := saving_of_begin hid hversion hbegin
      exact absurd ⟨viewDefn, hfind, hsaving.version⟩ hnot

/-- Whatever the clients do, and in whatever order: a save with an identifier and a version changes its
view only at its commit, where the view has that version and is what it was whenever it had it.  Where
the view does not have the version, when the save begins or when it commits, the view stays as it is,
and the save raises an exception unless it leaves the view it has loaded unchanged.  A save that raises
an exception has written nothing. -/
theorem upsertViewEditorState_noLostUpdate {s₀ s t : Clients κ teiid}
    {tr : List (Clients κ teiid × Label κ)} {label : Label κ} {client : κ} {finder : SchemaFinder}
    {restViewDefn : ViewDefinition} {id version : Nat} (hs : Initial s₀)
    (hrun : (system κ teiid).Run s₀ tr s) (hstep : next s label = some t)
    (hid : restViewDefn.id = some id) (hversion : restViewDefn.version = some version)
    (hhandles : Handles s client (.upsertViewEditorState finder restViewDefn) label) :
    (t.view id ≠ s.view id →
      label = .commit client ∧
        ∃ row, s.view id = some row ∧ row.version = some version ∧
          ∀ x ∈ tr, ∀ earlier, x.1.view id = some earlier → earlier.version = some version →
            earlier = row) ∧
    (¬AtVersion s id version → label ≠ .read client →
      t.view id = s.view id ∧
        ((∃ exception,
            t.sessions client = .raised (.upsertViewEditorState finder restViewDefn) exception) ∨
          label = .commit client ∧
            ∃ viewDefn updateDv, (∃ x ∈ tr, x.1.view id = some viewDefn) ∧
              viewDefn.version = some version ∧
              updateView teiid finder viewDefn restViewDefn false = .ok (viewDefn, updateDv))) ∧
    ((∃ exception,
        t.sessions client = .raised (.upsertViewEditorState finder restViewDefn) exception) →
      t.db = s.db) := by
  cases stepped_of_next hstep with
  | begun actor request =>
      -- a save without its version in the store is refused when it begins
      obtain ⟨rfl, rfl⟩ := hhandles
      refine ⟨fun hchanged => absurd rfl hchanged, ?_, fun _ => rfl⟩
      intro hnot _
      obtain ⟨failure, hbegin⟩ := begin_raises hid hversion hnot
      rw [sessions_put_self, hbegin]
      exact ⟨rfl, .inl ⟨.failure failure, rfl⟩⟩
  | @read actor request work reads hsession =>
      obtain ⟨rfl, _⟩ := hhandles
      refine ⟨fun hchanged => absurd rfl hchanged, ?_, fun _ => rfl⟩
      intro _ hlabel
      exact absurd rfl hlabel
  | @committed actor request work db hsession hcommit =>
      obtain ⟨rfl, work', reads, hsame⟩ := hhandles
      obtain ⟨rfl, rfl, rfl⟩ := Session.running.inj (hsession.symm.trans hsame)
      obtain ⟨hcurrent, hstore⟩ := commitWork_eq_ok.mp hcommit
      obtain ⟨viewDefn, updated, hsaving, x, hx, hloaded⟩ :=
        saving_of_initial hs hrun hid hversion hsession
      -- only a view that has changed is checked at the commit
      have hrow (hchanged : updated ≠ viewDefn) : AtVersion s id version :=
        hsaving.current hchanged hcurrent
      refine ⟨?_, ?_, ?_⟩
      · intro hchanged
        have hne : updated ≠ viewDefn := by
          intro heq
          exact hchanged (hsaving.view_eq hstore heq id)
        obtain ⟨row, hview, hrowVersion⟩ := hrow hne
        refine ⟨rfl, row, hview, hrowVersion, ?_⟩
        intro y hy earlier hearlier hearlierVersion
        refine (view_of_visited hs hrun hy hearlier hview ?_).symm
        rw [hrowVersion, hearlierVersion]
      · intro hnot _
        -- a commit past another version has changed nothing
        have hsameView : updated = viewDefn := by
          by_contra hne
          exact hnot (hrow hne)
        obtain ⟨updateDv, hupdate⟩ := hsaving.updated
        rw [hsameView] at hupdate
        exact ⟨hsaving.view_eq hstore hsameView id,
          .inr ⟨rfl, viewDefn, updateDv, ⟨x, hx, hloaded⟩, hsaving.version, hupdate⟩⟩
      · rintro ⟨exception, hraised⟩
        rw [sessions_put_self] at hraised
        cases hraised
  | @refused actor request work exception hsession hcommit =>
      obtain ⟨rfl, work', reads, hsame⟩ := hhandles
      obtain ⟨rfl, rfl, rfl⟩ := Session.running.inj (hsession.symm.trans hsame)
      refine ⟨fun hchanged => absurd rfl hchanged, ?_, fun _ => rfl⟩
      intro _ _
      refine ⟨rfl, .inl ⟨exception, ?_⟩⟩
      rw [sessions_put_self]

/-! ### Two clients at one view -/

open DvServer (unparsing)

/-- The row of a view that is not complete. -/
def draftRow : ViewDefinition :=
  { id := some 1, name := "v", dataVirtualizationName := "dv", version := some 0 }

/-- One view, and no transaction open. -/
def twoClients : Clients Bool unparsing where
  db :=
    { store := { virtualizations := [{ id := 0, name := "dv" }], views := [draftRow], nextId := 2 }
      consistent := by decide }
  sessions _ := .idle

/-- Both start without a transaction. -/
theorem initial_twoClients : Initial twoClients := ⟨fun _ => rfl, by decide⟩

/-- A save of the view at version 0 with a description. -/
def describe (description : Option String) : Request :=
  .upsertViewEditorState noSources { draftRow with description := description }

/-- Both clients begin to save the view; the one that describes it commits. -/
def overtaking (second : Option String) : List (Label Bool) :=
  [.begin true (describe (some "first")), .begin false (describe second), .commit true]

/-- The clients when both have had their turns. -/
def overtaken (second : Option String) : Clients Bool unparsing :=
  System.after next twoClients (overtaking second)

theorem run_overtaken (second : Option String) :
    (system Bool unparsing).Run twoClients (System.stepsOf next twoClients (overtaking second))
      (overtaken second) :=
  System.run_after Initial next twoClients (overtaking second)

/-- A client that was overtaken and changes the view gets an exception. -/
theorem upsertViewEditorState_noLostUpdate_overtaken :
    ∃ t exception, next (overtaken (some "second")) (.commit false) = some t ∧
      t.view 1 = (overtaken (some "second")).view 1 ∧
      t.sessions false = .raised (describe (some "second")) exception := by
  have hstep : next (overtaken (some "second")) (.commit false) =
      some (System.after next (overtaken (some "second")) [.commit false]) := rfl
  have hnot : ¬AtVersion (overtaken (some "second")) 1 0 := by
    rintro ⟨row, hview, hversion⟩
    have hrow : (overtaken (some "second")).view 1 =
        some { draftRow with description := some "first", version := some 1 } := by decide
    obtain rfl := Option.some.inj (hrow.symm.trans hview)
    cases hversion
  obtain ⟨_, hotherwise, _⟩ := upsertViewEditorState_noLostUpdate initial_twoClients
    (run_overtaken (some "second")) hstep rfl rfl ⟨rfl, _, _, rfl⟩
  obtain ⟨hview, ⟨exception, hraised⟩ | ⟨_, viewDefn, updateDv, ⟨x, hx, hloaded⟩, _, hupdate⟩⟩ :=
    hotherwise hnot nofun
  · exact ⟨_, exception, hstep, hview, hraised⟩
  · -- what it has loaded is the view without a description
    have hdraft : ∀ x ∈ System.stepsOf next twoClients (overtaking (some "second")),
        x.1.view 1 = some draftRow := by decide
    obtain rfl := Option.some.inj ((hdraft x hx).symm.trans hloaded)
    cases hupdate

/-- A save of what it has loaded returns though another client has changed the view. -/
theorem unchanged_save_returns :
    ¬ ∀ (s₀ s t : Clients Bool unparsing) (tr : List (Clients Bool unparsing × Label Bool))
        (client : Bool) (finder : SchemaFinder) (restViewDefn : ViewDefinition) (id version : Nat),
      Initial s₀ → (system Bool unparsing).Run s₀ tr s → next s (.commit client) = some t →
        restViewDefn.id = some id → restViewDefn.version = some version →
        Handles s client (.upsertViewEditorState finder restViewDefn) (.commit client) →
        ¬AtVersion s id version →
        ∃ exception,
          t.sessions client = .raised (.upsertViewEditorState finder restViewDefn) exception := by
  intro h
  have hnot : ¬AtVersion (overtaken none) 1 0 := by
    rintro ⟨row, hview, hversion⟩
    have hrow : (overtaken none).view 1 =
        some { draftRow with description := some "first", version := some 1 } := by decide
    obtain rfl := Option.some.inj (hrow.symm.trans hview)
    cases hversion
  obtain ⟨exception, hraised⟩ := h twoClients (overtaken none) _ _ false noSources draftRow 1 0
    initial_twoClients (run_overtaken none) rfl rfl rfl ⟨rfl, _, _, rfl⟩ hnot
  cases hraised

end TeiidSyndesis.Server.Clients
