import PrAgent.ExecutorPool
import PrAgent.Marshal
import PrAgent.Schedule
import PrAgent.VersionedStore
set_option autoImplicit false

namespace PrAgent

section Session

def codeModeStateMaxBytes : Nat := 64 * 1024

structure CodeModeError where
  code : CodeModeErrorCode
  message : Text
  reason : Option CodeModeCapReason

structure ExecutionSession where
  store : Versioned JsonTree
  admissionOpen : Bool

def createExecutionSessionStore (initial : JsonTree) : ExecutionSession := ⟨⟨1, 0, initial⟩, true⟩

namespace ExecutionSession

def closeAdmission (session : ExecutionSession) : ExecutionSession := { session with admissionOpen := false }

def invalidate (session : ExecutionSession) : ExecutionSession := ⟨session.store.fence, false⟩

def reopenAdmission (session : ExecutionSession) : ExecutionSession := { session with admissionOpen := true }

def stateExceeds : CodeModeError :=
  ⟨.limitExceeded, text "Explicit state exceeds 65536 bytes", some .stateBytes⟩

-- The session with the state in place, or nothing when it is not the one that was expected.
def commit (session : ExecutionSession) (expectedGeneration expectedRevision : Nat) (next : JsonTree) :
    Except CodeModeError (Option ExecutionSession) :=
  if session.store.generation ≠ expectedGeneration then .ok none
  else if session.store.revision ≠ expectedRevision then .ok none
  else if codeModeStateMaxBytes < utf8ByteLength next then .error stateExceeds
  else .ok (some { session with store := session.store.replace next })

end ExecutionSession

end Session

section Scripts

def codeModeHostCancelMessage : Text := text "Code Mode cancelled by host signal"

def codeModeTimedOut : CodeModeError := ⟨.timeout, text "Code Mode exceeded 15000ms", some .cellWall⟩

def hostCancelled : CodeModeError := ⟨.cancelled, codeModeHostCancelMessage, none⟩

def stateConflict : CodeModeError := ⟨.executionError, text "Code Mode session state conflict", none⟩

def toolFailureMarks : List Text :=
  [text "ACCESS_DENIED", text "FILE_NOT_FOUND", text "SEARCH_TRUNCATED", text "TOOL_INPUT_INVALID", text "codemode."]

def isToolFailure (message : Text) : Bool := toolFailureMarks.any fun mark => decide (mark <:+: message)

-- What came of a cell: a result, a halt that was thrown, or any other error that was.
inductive CellOutcome where
  | ok (output stagedState : JsonTree)
  | failed (error : CodeModeError)
  | halted (error : CodeModeError)
  | threw (message : Text)

inductive CodeModeResult where
  | ok (output : JsonTree)
  | failed (error : CodeModeError)

-- The generation and the revision at its start, with the state that its cell was given; `fired` says that the joint
-- signal of the host and of the timeout has been aborted.
structure RunningScript where
  seen : Versioned JsonTree
  hostAborted : Bool
  fired : Bool

def hostCallAdmitted (session : ExecutionSession) (script : RunningScript) : Bool :=
  !(!session.admissionOpen || session.store.generation != script.seen.generation)

def thrownError (script : RunningScript) (message : Text) : CodeModeError :=
  if script.fired then if script.hostAborted then hostCancelled else codeModeTimedOut
  else ⟨if isToolFailure message then .toolFailure else .executionError, message, none⟩

-- What follows the cell, without an await. The bound on the output is left out.
def finishScript (session : ExecutionSession) (script : RunningScript) : CellOutcome → CodeModeResult × ExecutionSession
  | .failed error => (.failed (if script.hostAborted then hostCancelled else error), session)
  | .halted error => (.failed error, session)
  | .threw message => (.failed (thrownError script message), session)
  | .ok output stagedState =>
    match session.commit script.seen.generation script.seen.revision stagedState with
    | .error error => (.failed error, session)
    | .ok none => (.failed (if script.hostAborted then hostCancelled else stateConflict), session)
    | .ok (some committed) => (.ok output, committed)

-- `basis` is the state that the cell was given.
structure ScriptCommit where
  script : Nat
  basis : JsonTree
  staged : JsonTree

-- The scripts of one session. `fenced` and `overtaken` are those that had begun when a script was last
-- aborted and when one last committed.
structure SessionWorld where
  session : ExecutionSession
  running : Nat → Option RunningScript
  begun : List Nat
  fenced : List Nat
  overtaken : List Nat
  commits : List ScriptCommit
  results : List (Nat × CodeModeResult)

def SessionWorld.opened (initial : JsonTree) : SessionWorld :=
  ⟨createExecutionSessionStore initial, fun _ => none, [], [], [], [], []⟩

def SessionWorld.put (world : SessionWorld) (id : Nat) (script : Option RunningScript) : SessionWorld :=
  { world with running := fun other => if other = id then script else world.running other }

inductive SessionEvent where
  | begin (id : Nat) (hostAborted : Bool)
  -- an executor is acquired: the cell is given the state as it is by then
  | run (id : Nat)
  | abort (id : Nat) (byHost : Bool)
  | settle (id : Nat) (cell : CellOutcome)

def beginScript (world : SessionWorld) (id : Nat) (hostAborted : Bool) : SessionWorld :=
  if hostAborted then
    { world with
      session := world.session.closeAdmission.invalidate
      begun := id :: world.begun
      fenced := id :: world.begun
      results := (id, .failed hostCancelled) :: world.results }
  else
    { world.put id (some ⟨world.session.store, false, false⟩) with
      session := world.session.reopenAdmission
      begun := id :: world.begun }

def settleScript (world : SessionWorld) (id : Nat) (script : RunningScript) (cell : CellOutcome) : SessionWorld :=
  let finished := finishScript world.session script cell
  let settled := { world.put id none with session := finished.2, results := (id, finished.1) :: world.results }
  match finished.1, cell with
  | .ok _, .ok _ stagedState =>
    { settled with
      overtaken := world.begun
      commits := ⟨id, script.seen.data, stagedState⟩ :: world.commits }
  | _, _ => settled

-- The listener of the signal runs once; the host's own signal may still be aborted after the timeout.
def sessionStep (world : SessionWorld) : SessionEvent → Option SessionWorld
  | .begin id hostAborted => if id ∈ world.begun then none else some (beginScript world id hostAborted)
  | .run id =>
    (world.running id).map fun script =>
      world.put id (some { script with seen := { script.seen with data := world.session.store.data } })
  | .abort id byHost =>
    match world.running id with
    | none => none
    | some script =>
      if !script.fired then
        some
          { world.put id (some ⟨script.seen, byHost, true⟩) with
            session := world.session.closeAdmission.invalidate
            fenced := world.begun }
      else if byHost && !script.hostAborted then some (world.put id (some ⟨script.seen, true, true⟩))
      else none
  | .settle id cell =>
    match world.running id with
    | none => none
    | some script => some (settleScript world id script cell)

end Scripts

section Finishing

variable {session : ExecutionSession} {script : RunningScript}

-- The staged state is put in place exactly when nothing came between and it is small enough.
def CommitsState (session : ExecutionSession) (script : RunningScript) (stagedState : JsonTree) : Prop :=
  script.seen.generation = session.store.generation ∧ script.seen.revision = session.store.revision ∧
    utf8ByteLength stagedState ≤ codeModeStateMaxBytes

instance (stagedState : JsonTree) : Decidable (CommitsState session script stagedState) :=
  inferInstanceAs (Decidable (_ ∧ _ ∧ _))

theorem finishScript_commits {output stagedState : JsonTree} (commits : CommitsState session script stagedState) :
    finishScript session script (.ok output stagedState) =
      (.ok output, { session with store := session.store.replace stagedState }) := by
  obtain ⟨generation, revision, small⟩ := commits
  have placed : session.commit script.seen.generation script.seen.revision stagedState =
      .ok (some { session with store := session.store.replace stagedState }) := by
    rw [ExecutionSession.commit, if_neg (not_not.mpr generation.symm), if_neg (not_not.mpr revision.symm),
      if_neg (Nat.not_lt.mpr small)]
  simp only [finishScript, placed]

theorem finishScript_refuses (output : JsonTree) {stagedState : JsonTree} (refused : ¬ CommitsState session script stagedState) :
    ∃ error, finishScript session script (.ok output stagedState) = (.failed error, session) := by
  by_cases generation : session.store.generation = script.seen.generation
  · by_cases revision : session.store.revision = script.seen.revision
    · have large : codeModeStateMaxBytes < utf8ByteLength stagedState := by
        by_contra small
        exact refused ⟨generation.symm, revision.symm, Nat.le_of_not_lt small⟩
      have thrown : session.commit script.seen.generation script.seen.revision stagedState =
          .error ExecutionSession.stateExceeds := by
        rw [ExecutionSession.commit, if_neg (not_not.mpr generation), if_neg (not_not.mpr revision), if_pos large]
      exact ⟨_, by simp only [finishScript, thrown]; rfl⟩
    · have conflict : session.commit script.seen.generation script.seen.revision stagedState = .ok none := by
        rw [ExecutionSession.commit, if_neg (not_not.mpr generation), if_pos revision]
      exact ⟨_, by simp only [finishScript, conflict]; rfl⟩
  · have conflict : session.commit script.seen.generation script.seen.revision stagedState = .ok none := by
      rw [ExecutionSession.commit, if_pos generation]
    exact ⟨_, by simp only [finishScript, conflict]; rfl⟩

-- What a settled script does: it commits the state that its cell staged, or it fails and leaves the session alone.
theorem settleScript_cases (world : SessionWorld) (id : Nat) (script : RunningScript) (cell : CellOutcome) :
    (∃ output stagedState, cell = .ok output stagedState ∧ CommitsState world.session script stagedState ∧
      settleScript world id script cell =
        { world.put id none with
          session := { world.session with store := world.session.store.replace stagedState }
          overtaken := world.begun
          commits := ⟨id, script.seen.data, stagedState⟩ :: world.commits
          results := (id, .ok output) :: world.results }) ∨
    ((∀ output stagedState, cell = .ok output stagedState → ¬ CommitsState world.session script stagedState) ∧
      ∃ error, settleScript world id script cell =
        { world.put id none with results := (id, .failed error) :: world.results }) := by
  cases cell with
  | ok output stagedState =>
    by_cases commits : CommitsState world.session script stagedState
    · refine .inl ⟨output, stagedState, rfl, commits, ?_⟩
      simp only [settleScript, finishScript_commits commits]
    · obtain ⟨error, failed⟩ := finishScript_refuses output commits
      refine .inr ⟨?_, error, ?_⟩
      · intro other staged same
        obtain ⟨-, rfl⟩ := CellOutcome.ok.inj same
        exact commits
      · simp only [settleScript, failed, SessionWorld.put]
  | failed error => exact .inr ⟨fun _ _ same => CellOutcome.noConfusion same, _, rfl⟩
  | halted error => exact .inr ⟨fun _ _ same => CellOutcome.noConfusion same, _, rfl⟩
  | threw message => exact .inr ⟨fun _ _ same => CellOutcome.noConfusion same, _, rfl⟩

end Finishing
end PrAgent
