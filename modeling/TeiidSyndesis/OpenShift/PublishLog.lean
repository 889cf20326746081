/-
# TeiidSyndesis.OpenShift.PublishLog — the log of a publishing, and whether a call that writes to it returns.

`addLog` opens the log file of an id when it has no writer for it.  Where that fails it calls `error`, which
logs the failure with two calls of `addLog`, and these have to open the file again.  So a call takes two
nested calls for every attempt that fails, and does not return while all of them do.

Main results:
* `addLog_returns` — a call returns if one of the attempts that follow opens the file;
* `never_returns` — and does not if none does;
* `returns_iff` — so exactly when each of the methods returns;
* `info_never_returns` — an environment in which none does.
-/
import Mathlib.Tactic.ByContra

namespace TeiidSyndesis.OpenShift

/-- What the file system and the clock do in the course of time. -/
structure LogEnvironment where
  /-- what an attempt to open the log file of an id raises, if it raises, by its number -/
  openLog : Nat → String → Option String
  /-- the time when a line is written -/
  getTime : Nat → String

/-- The writers there are, what they have written, and the attempts. -/
structure LogStore where
  /-- the ids that have a writer -/
  logBuffers : List String := []
  /-- what has been written under an id, line by line -/
  lines : List (String × String) := []
  /-- how many attempts to open a file have been made -/
  attempts : Nat := 0
  deriving DecidableEq, Repr

namespace LogStore

variable (env : LogEnvironment)

/-- `pw.write(message)` -/
def write (s : LogStore) (id message : String) : LogStore :=
  { s with
    lines := s.lines ++ [(id, "(" ++ env.getTime s.lines.length ++ ") - " ++ message ++ "\n")] }

/-- The file of the id was opened. -/
def opened (s : LogStore) (id : String) : LogStore :=
  { s with logBuffers := s.logBuffers ++ [id], attempts := s.attempts + 1 }

/-- An attempt has failed. -/
def failed (s : LogStore) : LogStore := { s with attempts := s.attempts + 1 }

mutual

/-- The store a call leaves, or nothing where it needs more than `fuel` nested calls. -/
def addLog : Nat → LogStore → Option String → String → Option LogStore
  | 0, _, _, _ => none
  | _ + 1, s, none, _ => some s
  | fuel + 1, s, some id, message =>
      if id ∈ s.logBuffers then some (s.write env id message)
      else
        match env.openLog s.attempts id with
        | none => some ((s.opened id).write env id message)
        | some cause => errorWith fuel s.failed (some id) "Error with logging to file" cause

/-- `error(id, message, ex)`, by the text of the exception. -/
def errorWith : Nat → LogStore → Option String → String → String → Option LogStore
  | 0, _, _, _, _ => none
  | fuel + 1, s, id, message, cause =>
      match addLog fuel s id message with
      | none => none
      | some t => addLog fuel t id cause

end

/-! ## The methods that log -/

/-- The methods that log. -/
inductive LogCall
  | addLog (message : String)
  | debug (isDebugEnabled : Bool) (message : String)
  | errorWith (message cause : String)
  | error (message : String)
  | info (message : String)
  deriving DecidableEq, Repr

/-- A method, with fuel for its nested calls. -/
def run (fuel : Nat) (s : LogStore) (id : Option String) : LogCall → Option LogStore
  | .addLog message | .error message | .info message => s.addLog env fuel id message
  | .debug isDebugEnabled message => if isDebugEnabled then s.addLog env fuel id message else some s
  | .errorWith message cause => s.errorWith env fuel id message cause

/-- The call returns after finitely many steps. -/
def Returns (s : LogStore) (id : Option String) (call : LogCall) : Prop :=
  ∃ fuel t, s.run env fuel id call = some t

/-- Messages of this id are written: it has a writer, or the file is going to be opened. -/
def Opens (s : LogStore) (id : String) : Prop :=
  id ∈ s.logBuffers ∨ ∃ n, s.attempts ≤ n ∧ env.openLog n id = none

/-! ## Calls that return -/

variable {env} {s : LogStore} {id message : String}

/-- A call with a writer writes. -/
theorem addLog_of_cached (h : id ∈ s.logBuffers) (fuel : Nat) :
    s.addLog env (fuel + 1) (some id) message = some (s.write env id message) := by
  unfold addLog
  exact if_pos h

/-- After `n` attempts that may fail, twice as many nested calls are enough. -/
theorem addLog_of_opens {n : Nat} (h : env.openLog (s.attempts + n) id = none) :
    ∃ t, s.addLog env (2 * n + 1) (some id) message = some t ∧ id ∈ t.logBuffers := by
  induction n generalizing s message with
  | zero =>
      by_cases hcached : id ∈ s.logBuffers
      · exact ⟨_, addLog_of_cached hcached _, hcached⟩
      · have hopen : env.openLog s.attempts id = none := h
        refine ⟨(s.opened id).write env id message, ?_, List.mem_append_right _ List.mem_cons_self⟩
        unfold addLog
        rw [if_neg hcached, hopen]
  | succ n ih =>
      by_cases hcached : id ∈ s.logBuffers
      · exact ⟨_, addLog_of_cached hcached _, hcached⟩
      · unfold addLog
        rw [if_neg hcached]
        cases hopen : env.openLog s.attempts id with
        | none => exact ⟨_, rfl, List.mem_append_right _ List.mem_cons_self⟩
        | some cause =>
            have hlater : env.openLog (s.failed.attempts + n) id = none := by
              rw [← h]
              congr 1
              show s.attempts + 1 + n = s.attempts + (n + 1)
              omega
            obtain ⟨t, ht, hopened⟩ := @ih s.failed "Error with logging to file" hlater
            refine ⟨t.write env id cause, ?_, hopened⟩
            show errorWith env (2 * n + 1 + 1) _ _ _ _ = _
            unfold errorWith
            rw [ht]
            exact addLog_of_cached hopened _

/-- A message of an id that opens is written, and leaves a writer. -/
theorem addLog_returns (h : s.Opens env id) (message : String) :
    ∃ fuel t, s.addLog env (fuel + 1) (some id) message = some t ∧ id ∈ t.logBuffers := by
  rcases h with hcached | ⟨n, hle, hopen⟩
  · exact ⟨0, _, addLog_of_cached hcached 0, hcached⟩
  · obtain ⟨k, rfl⟩ := Nat.exists_eq_add_of_le hle
    exact ⟨2 * k, addLog_of_opens hopen⟩

/-- Logging an error returns under the same condition. -/
theorem errorWith_returns (h : s.Opens env id) (message cause : String) :
    ∃ fuel t, s.errorWith env fuel (some id) message cause = some t := by
  obtain ⟨fuel, t, ht, hopened⟩ := addLog_returns h message
  refine ⟨fuel + 1 + 1, t.write env id cause, ?_⟩
  unfold errorWith
  rw [ht]
  exact addLog_of_cached hopened _

/-! ## Calls that do not return -/

/-- Where no attempt opens the file, none of the next does. -/
theorem opens_failed (h : ¬s.Opens env id) : ¬s.failed.Opens env id := by
  rintro (hcached | ⟨n, hle, hopen⟩)
  · exact h (.inl hcached)
  · exact h (.inr ⟨n, Nat.le_of_succ_le hle, hopen⟩)

/-- While no attempt succeeds, `addLog` and `error` call each other whatever they may nest. -/
theorem never_returns (h : ¬s.Opens env id) (fuel : Nat) :
    (∀ message, s.addLog env fuel (some id) message = none) ∧
      ∀ message cause, s.errorWith env fuel (some id) message cause = none := by
  induction fuel generalizing s with
  | zero =>
      constructor
      · intro message
        rfl
      · intro message cause
        rfl
  | succ fuel ih =>
      constructor
      · intro message
        unfold addLog
        rw [if_neg fun hcached => h (.inl hcached)]
        cases hopen : env.openLog s.attempts id with
        | none => exact absurd (.inr ⟨s.attempts, Nat.le_refl _, hopen⟩) h
        | some cause => exact (ih (opens_failed h)).2 _ _
      · intro message cause
        unfold errorWith
        rw [(ih h).1 message]

/-- Without an id there is nothing to write. -/
theorem addLog_of_null (env : LogEnvironment) (s : LogStore) (fuel : Nat) (message : String) :
    s.addLog env (fuel + 1) none message = some s := by
  unfold addLog
  rfl

/-- Without an id every call returns. -/
theorem returns_of_null (s : LogStore) (call : LogCall) : s.Returns env none call := by
  refine ⟨2, s, ?_⟩
  cases call with
  | addLog message => exact addLog_of_null env s 1 message
  | error message => exact addLog_of_null env s 1 message
  | info message => exact addLog_of_null env s 1 message
  | debug isDebugEnabled message =>
      cases isDebugEnabled with
      | false => rfl
      | true => exact addLog_of_null env s 1 message
  | errorWith message cause =>
      show s.errorWith env 2 none message cause = some s
      unfold errorWith
      rw [addLog_of_null]
      exact addLog_of_null env s 0 cause

/-- With an id a call returns exactly if it does not log, or the log has a writer or gets one. -/
theorem returns_some_iff (s : LogStore) (id : String) (call : LogCall) :
    s.Returns env (some id) call ↔
      (∃ message, call = .debug false message) ∨ s.Opens env id := by
  have haddLog (message : String) :
      (∃ fuel t, s.addLog env fuel (some id) message = some t) ↔ s.Opens env id := by
    constructor
    · rintro ⟨fuel, t, ht⟩
      by_contra hopens
      rw [(never_returns hopens fuel).1 message] at ht
      cases ht
    · intro hopens
      obtain ⟨fuel, t, ht, -⟩ := addLog_returns hopens message
      exact ⟨fuel + 1, t, ht⟩
  -- all calls end in `addLog`, but for a debug message that is not wanted
  cases call with
  | addLog message => exact (haddLog message).trans (or_iff_right (by simp)).symm
  | error message => exact (haddLog message).trans (or_iff_right (by simp)).symm
  | info message => exact (haddLog message).trans (or_iff_right (by simp)).symm
  | debug isDebugEnabled message =>
      cases isDebugEnabled with
      | false => exact iff_of_true ⟨0, s, rfl⟩ (.inl ⟨message, rfl⟩)
      | true => exact (haddLog message).trans (or_iff_right (by simp)).symm
  | errorWith message cause =>
      rw [or_iff_right (by simp)]
      constructor
      · rintro ⟨fuel, t, ht⟩
        by_contra hopens
        have hnone := (never_returns hopens fuel).2 message cause
        rw [show s.errorWith env fuel (some id) message cause = some t from ht] at hnone
        cases hnone
      · intro hopens
        exact errorWith_returns hopens message cause

/-- Every call returns exactly if it has no id or does not log, or the log has a writer or gets one. -/
theorem returns_iff (env : LogEnvironment) (s : LogStore) (id : Option String) (call : LogCall) :
    s.Returns env id call ↔
      (∃ message, call = .debug false message) ∨ ∀ name, id = some name → s.Opens env name := by
  cases id with
  | none => exact iff_of_true (returns_of_null s call) (.inr nofun)
  | some id => simp [returns_some_iff]

/-- Where no log file can be opened, the first message of an id is never done with. -/
theorem info_never_returns :
    ¬∀ (env : LogEnvironment) (s : LogStore) (id : Option String) (call : LogCall),
      s.Returns env id call := by
  intro h
  let env : LogEnvironment :=
    { openLog := fun _ id =>
        some ("java.io.FileNotFoundException: /tmp/" ++ id ++ ".log (No space left on device)")
      getTime := fun _ => "" }
  obtain ⟨fuel, t, ht⟩ := h env {} (some "dv-v") (.info "Publishing - Virtualization: v")
  have hopens : ¬Opens env {} "dv-v" := by
    simp [Opens, env]
  have hnone := (never_returns hopens fuel).1 "Publishing - Virtualization: v"
  rw [show addLog env fuel {} (some "dv-v") "Publishing - Virtualization: v" = some t from ht] at hnone
  cases hnone

end LogStore

end TeiidSyndesis.OpenShift
