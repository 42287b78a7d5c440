import PrAgent.ProgressCommentForward
set_option autoImplicit false

namespace PrAgent

section Lock

-- What a call under the session lock knows while no ack edits a stub.
def ProgressPhase.Holds (s : ProgressState) (workItemId : Option WorkItemId) : ProgressPhase → Prop
  | .waiting | .locked | .written => True
  | .found current => current = s.comment
  | .owned current owner | .read current owner _ =>
    current = s.comment ∧ (owner.map Prod.fst = s.owner ∨ s.ownerRevision = none)
  | .prepared current | .recorded current => current = s.comment ∧ (workItemId = s.owner ∨ s.ownerRevision = none)

structure LockSound (s : ProgressState) : Prop where
  holder : ∀ {callId call}, s.calls.get? callId = some call → call.phase ≠ .waiting → s.lock = some callId
  holds : ∀ {callId call}, s.calls.get? callId = some call → call.phase.Holds s call.workItemId

variable {s t : ProgressState} {callId : Nat} {call : ProgressCall}

theorem holds_congr (owner : t.owner = s.owner) (comment : t.comment = s.comment) {workItemId : Option WorkItemId}
    {phase : ProgressPhase} (holds : phase.Holds s workItemId) : phase.Holds t workItemId := by
  have revision := ownerRevision_congr owner comment
  cases phase with
  | waiting | locked | written => trivial
  | found current => exact holds.trans comment.symm
  | owned current known => exact ⟨holds.1.trans comment.symm, by rw [owner, revision]; exact holds.2⟩
  | read current known stored => exact ⟨holds.1.trans comment.symm, by rw [owner, revision]; exact holds.2⟩
  | prepared current => exact ⟨holds.1.trans comment.symm, by rw [owner, revision]; exact holds.2⟩
  | recorded current => exact ⟨holds.1.trans comment.symm, by rw [owner, revision]; exact holds.2⟩

-- Ownership leaves for a work item that has no comment there.
theorem holds_unowned (comment : t.comment = s.comment) (unowned : t.ownerRevision = none) {workItemId : Option WorkItemId}
    {phase : ProgressPhase} (holds : phase.Holds s workItemId) : phase.Holds t workItemId := by
  cases phase with
  | waiting | locked | written => trivial
  | found current => exact holds.trans comment.symm
  | owned current known => exact ⟨holds.1.trans comment.symm, .inr unowned⟩
  | read current known stored => exact ⟨holds.1.trans comment.symm, .inr unowned⟩
  | prepared current => exact ⟨holds.1.trans comment.symm, .inr unowned⟩
  | recorded current => exact ⟨holds.1.trans comment.symm, .inr unowned⟩

variable (sound : LockSound s)
include sound

-- Beside the holder of the lock every call still waits.
theorem LockSound.waits (stored : s.calls.get? callId = some call) (busy : call.phase ≠ .waiting)
    {other : Nat} {found : ProgressCall} (ne : other ≠ callId) (storedOther : s.calls.get? other = some found) :
    found.phase = .waiting := by
  by_contra busyOther
  have held := sound.holder stored busy
  rw [sound.holder storedOther busyOther] at held
  exact ne (Option.some.inj held)

-- A step of the holder, whatever it writes.
theorem LockSound.setPhase (stored : s.calls.get? callId = some call) (busy : call.phase ≠ .waiting)
    {phase : ProgressPhase} (calls : t.calls = s.calls.set callId { call with phase }) (lock : t.lock = s.lock)
    (holds : phase.Holds t call.workItemId) : LockSound t := by
  refine ⟨?_, ?_⟩
  · intro other found storedOther busyOther
    rw [calls] at storedOther
    rcases Table.get?_set_cases storedOther with ⟨same, _⟩ | ⟨ne, storedOther⟩
    · rw [lock, same, sound.holder stored busy]
    · exact absurd (sound.waits stored busy ne storedOther) busyOther
  · intro other found storedOther
    rw [calls] at storedOther
    rcases Table.get?_set_cases storedOther with ⟨_, rfl⟩ | ⟨ne, storedOther⟩
    · exact holds
    · rw [sound.waits stored busy ne storedOther]
      trivial

theorem LockSound.finish (stored : s.calls.get? callId = some call) (busy : call.phase ≠ .waiting)
    (calls : t.calls = s.calls.erase callId) : LockSound t := by
  have waits : ∀ {other found}, t.calls.get? other = some found → found.phase = .waiting := by
    intro other found storedOther
    rw [calls] at storedOther
    obtain ⟨ne, storedOther⟩ := Table.get?_erase_cases storedOther
    exact sound.waits stored busy ne storedOther
  refine ⟨fun storedOther busyOther => absurd (waits storedOther) busyOther, ?_⟩
  intro other found storedOther
  rw [waits storedOther]
  trivial

theorem LockSound.leave (callId : Nat) : LockSound (s.leave callId) := by
  refine ⟨?_, ?_⟩
  · intro other found storedOther busyOther
    rw [calls_leave] at storedOther
    split at storedOther
    · cases storedOther
    · next ne =>
      have held := sound.holder storedOther busyOther
      have kept : (s.leave callId).lock = if s.lock = some callId then none else s.lock := rfl
      rw [kept, held, if_neg (by simpa using ne)]
  · intro other found storedOther
    rw [calls_leave] at storedOther
    split at storedOther
    · cases storedOther
    · exact holds_congr rfl rfl (sound.holds storedOther)

-- A step that leaves the comment, the owner, the lock and the calls of others as they are.
theorem LockSound.start {fresh : ProgressCall} (waits : fresh.phase = .waiting)
    (calls : t.calls = s.calls.set callId fresh) (lock : t.lock = s.lock) (owner : t.owner = s.owner)
    (comment : t.comment = s.comment) : LockSound t := by
  refine ⟨?_, ?_⟩
  · intro other found storedOther busyOther
    rw [calls] at storedOther
    rcases Table.get?_set_cases storedOther with ⟨_, rfl⟩ | ⟨_, storedOther⟩
    · exact absurd waits busyOther
    · rw [lock]
      exact sound.holder storedOther busyOther
  · intro other found storedOther
    rw [calls] at storedOther
    rcases Table.get?_set_cases storedOther with ⟨_, rfl⟩ | ⟨_, storedOther⟩
    · rw [waits]
      trivial
    · exact holds_congr owner comment (sound.holds storedOther)

theorem LockSound.acquire (free : s.lock = none) :
    LockSound ((s.hold callId).setPhase callId call .locked) := by
  refine ⟨?_, ?_⟩
  · intro other found storedOther busyOther
    rw [calls_setPhase] at storedOther
    split at storedOther
    · next same =>
      rw [same]
      rfl
    · have held := sound.holder storedOther busyOther
      rw [free] at held
      cases held
  · intro other found storedOther
    rw [calls_setPhase] at storedOther
    split at storedOther
    · cases storedOther
      trivial
    · exact holds_congr rfl rfl (sound.holds storedOther)

end Lock

section Calls

variable {s t : ProgressState} {callId ackId : Nat} {call : ProgressCall} {ack : CancelAck}

theorem ownerRevision_of_unowned (unowned : s.owner = none) : s.ownerRevision = none := by
  unfold ProgressState.ownerRevision
  rw [unowned]

theorem owner_read (s : ProgressState) : (getProgressCommentOwner s.record).map Prod.fst = s.owner := by
  unfold getProgressCommentOwner ProgressState.owner
  rw [Option.map_map]
  rfl

-- A write is prepared for the owner, or while no owner has a comment there.
theorem prepare_owner {approved : Bool} {current : Option ProgressComment} {owner : Option (WorkItemId × Nat)}
    {stored : Option ProgressRevisionState}
    (prepares : preparesWrite call.workItemId call.revision (shouldPublish s call approved) current owner stored = true)
    (known : owner.map Prod.fst = s.owner ∨ s.ownerRevision = none) :
    call.workItemId = s.owner ∨ s.ownerRevision = none := by
  rcases known with known | unowned
  · simp only [preparesWrite, Bool.and_eq_true, Bool.not_eq_true'] at prepares
    obtain ⟨⟨⟨publishes, own⟩, _⟩, _⟩ := prepares
    cases work : call.workItemId with
    | none =>
      have empty : s.record = none := by
        have noRecord : approved = true ∧ s.record.isNone = true := by simpa [shouldPublish, work] using publishes
        exact Option.isNone_iff_eq_none.mp noRecord.2
      exact .inr (ownerRevision_of_unowned (by rw [ProgressState.owner, empty]; rfl))
    | some workItemId =>
      cases owner with
      | none => exact .inr (ownerRevision_of_unowned known.symm)
      | some pair =>
        obtain ⟨ownerId, generation⟩ := pair
        have same : workItemId = ownerId := by simpa [isForeignOwner, work] using own
        exact .inl (by rw [← known, same]; rfl)
  · exact .inr unowned

theorem recordProgressStep_owner {workItemId : WorkItemId} {revision : Nat} {record : Option ProgressRecord}
    {next : ProgressRecord} (recorded : recordProgressStep workItemId revision record = some next) :
    next.workItemId = workItemId := by
  cases record with
  | none =>
    cases recorded
    rfl
  | some row =>
    simp only [recordProgressStep] at recorded
    split at recorded
    · next same =>
      cases recorded
      exact same
    · cases recorded

theorem call_lockSound {action : CallAction} (sound : LockSound s) (stored : s.calls.get? callId = some call)
    (moved : callStep s callId call action = some t) : LockSound t := by
  have holds := sound.holds stored
  unfold callStep at moved
  split at moved
  · split at moved
    · next free =>
      cases moved
      exact sound.acquire free
    · cases moved
  · next phase =>
    cases moved
    exact sound.setPhase stored (by simp [phase]) rfl rfl rfl
  · next current phase =>
    cases moved
    rw [phase] at holds
    exact sound.setPhase stored (by simp [phase]) rfl rfl ⟨holds, .inl (owner_read s)⟩
  · next current owner phase =>
    cases moved
    rw [phase] at holds
    exact sound.setPhase stored (by simp [phase]) rfl rfl holds
  · next approved current owner revision phase =>
    cases moved
    rw [phase] at holds
    unfold prepareCall
    split
    · next prepares =>
      have rightful := prepare_owner prepares holds.2
      cases work : call.workItemId.isSome with
      | true => exact sound.setPhase stored (by simp [phase]) rfl rfl ⟨holds.1, rightful⟩
      | false => exact sound.setPhase stored (by simp [phase]) rfl rfl ⟨holds.1, rightful⟩
    · exact sound.leave callId
  · next current phase =>
    cases moved
    rw [phase] at holds
    unfold recordCall
    split
    · exact sound.setPhase stored (by simp [phase]) rfl rfl holds
    · next workItemId work =>
      split
      · exact sound.leave callId
      · next row recorded =>
        refine sound.setPhase stored (by simp [phase]) rfl rfl ⟨holds.1, .inl ?_⟩
        rw [work, ← recordProgressStep_owner recorded]
        rfl
  · next current phase =>
    cases moved
    exact sound.setPhase stored (by simp [phase]) rfl rfl trivial
  · next phase =>
    cases moved
    unfold finishCall
    split
    · exact sound.leave callId
    · split
      · exact sound.leave callId
      · exact sound.finish stored (by simp [phase]) rfl
  · cases moved
    exact sound.leave callId
  · cases moved

theorem transfer_owner (workItemId : WorkItemId) (record : Option ProgressRecord) :
    (transferProgressCommentOwnership workItemId record).workItemId = workItemId := by
  cases record with
  | none => rfl
  | some row =>
    by_cases same : row.workItemId = workItemId
    · simp [transferProgressCommentOwnership, same]
    · simp [transferProgressCommentOwnership, same]

theorem transfer_lockSound {workItemId : WorkItemId} (sound : LockSound s) (undisturbed : Undisturbed s (.transfer workItemId)) :
    LockSound (s.store (transferProgressCommentOwnership workItemId s.record)) := by
  set t := s.store (transferProgressCommentOwnership workItemId s.record)
  have owned : t.owner = some workItemId := congrArg some (transfer_owner workItemId s.record)
  refine ⟨fun stored busy => sound.holder stored busy, ?_⟩
  intro other found stored
  have holds : found.phase.Holds s found.workItemId := sound.holds stored
  by_cases same : s.owner = some workItemId
  · exact holds_congr (t := t) (owned.trans same.symm) rfl holds
  · refine holds_unowned (s := s) (t := t) rfl ?_ holds
    by_contra shown
    obtain ⟨n, carries⟩ := Option.ne_none_iff_exists'.mp shown
    obtain ⟨owner, owns, marked⟩ := ownerRevision_eq_some.mp carries
    exact undisturbed same _ marked (owns.symm.trans owned)

theorem progress_lockSound {event : ProgressEvent} (sound : LockSound s) (undisturbed : Undisturbed s event)
    (moved : progressStep s event = some t) : LockSound t := by
  cases event with
  | transfer workItemId =>
    cases moved
    exact transfer_lockSound sound undisturbed
  | start callId workItemId revision body =>
    obtain ⟨_, rfl⟩ := startCall_eq_some moved
    exact sound.start rfl rfl rfl rfl rfl
  | call callId action =>
    obtain ⟨call, stored, moved⟩ := Option.bind_eq_some_iff.mp moved
    exact call_lockSound sound stored moved
  | cancel ackId workItemId notice =>
    simp only [progressStep] at moved
    split at moved
    · cases moved
      exact ⟨fun stored busy => sound.holder stored busy, fun stored => holds_congr rfl rfl (sound.holds stored)⟩
    · cases moved
  | ack ackId action =>
    obtain ⟨ack, stored, moved⟩ := Option.bind_eq_some_iff.mp moved
    cases action with
    | edit => exact undisturbed.elim
    | drop =>
      simp only [ackStep, Option.some.injEq] at moved
      subst moved
      exact ⟨fun stored busy => sound.holder stored busy, fun stored => holds_congr rfl rfl (sound.holds stored)⟩
    | read callId =>
      cases phase : ack.phase with
      | owning existing => simp [ackStep, phase] at moved
      | waiting =>
        simp only [ackStep, phase, ackRead] at moved
        split at moved
        · cases moved
          exact ⟨fun stored busy => sound.holder stored busy, fun stored => holds_congr rfl rfl (sound.holds stored)⟩
        · obtain ⟨_, rfl⟩ := startCall_eq_some moved
          exact sound.start rfl rfl rfl rfl rfl

theorem unovertaken_of_lockSound {event : ProgressEvent} (sound : LockSound s) (undisturbed : Undisturbed s event) :
    Unovertaken s event := by
  cases event with
  | transfer | start | cancel => trivial
  | ack ackId action =>
    cases action with
    | edit => exact undisturbed.elim
    | read | drop => trivial
  | call callId action =>
    cases action with
    | write =>
      intro call current stored phase n carries
      have holds := sound.holds stored
      rw [phase] at holds
      obtain ⟨seen, own | unowned⟩ := holds
      · exact ⟨own, .inl (by rw [seen]; rfl)⟩
      · rw [carries] at unowned
        cases unowned
    | acquire | find | readOwner | readRevision | prepare | record | finish | drop => trivial

theorem start_lockSound (record : Option ProgressRecord) (comment : Option ProgressComment) :
    LockSound (startProgress record comment) := by
  refine ⟨?_, ?_⟩
  · intro callId call stored
    cases stored
  · intro callId call stored
    cases stored

end Calls

section Main

theorem reached_sound {allowed : ProgressState → ProgressEvent → Prop} {record : Option ProgressRecord}
    {comment : Option ProgressComment} {s : ProgressState}
    (reached : Reaches progressStep allowed (startProgress record comment) s) : ProgressSound s :=
  reached.invariant ProgressSound (start_sound record comment) fun _ _ _ sound _ moved => progress_sound sound moved

theorem keepsRevision_run {s t : ProgressState} {row : ProgressRecord} {n : Nat} (sound : ProgressSound s)
    (keeps : KeepsRevision row n s) (run : Reaches progressStep Unovertaken s t) : KeepsRevision row n t := by
  refine (run.invariant (fun u => ProgressSound u ∧ KeepsRevision row n u) ⟨sound, keeps⟩ ?_).2
  intro u event v now unovertaken moved
  exact ⟨progress_sound now.1 moved, step_keepsRevision now.2 ((step_forward now.1 moved).mpr unovertaken) moved⟩

theorem progress_forward (record : Option ProgressRecord) (comment : Option ProgressComment) :
    ProgressForward (startProgress record comment) where
  steps := fun reached moved => step_forward (reached_sound reached) moved
  runs := by
    intro s t reached run same n carries
    obtain ⟨owner, owns, _⟩ := ownerRevision_eq_some.mp carries
    obtain ⟨row, stored, _⟩ := Option.map_eq_some_iff.mp owns
    obtain ⟨next, storedNext, standing⟩ :=
      keepsRevision_run (reached_sound reached) ⟨row, stored, .inr ⟨rfl, rfl, n, carries, Nat.le_refl n⟩⟩ run
    have generation : next.progressGeneration = row.progressGeneration := by
      simpa [ProgressState.generation, stored, storedNext] using same
    rcases standing with moved | ⟨_, _, kept⟩
    · omega
    · exact kept
  calls := by
    intro s t event reached undisturbed moved
    have locked : LockSound s := reached.invariant LockSound (start_lockSound record comment)
      fun _ _ _ sound quiet moved => progress_lockSound sound quiet moved
    exact (step_forward (reached_sound reached) moved).mpr (unovertaken_of_lockSound locked undisturbed)

def wholeCall (callId : Nat) (workItemId : WorkItemId) (revision : ProgressCommentRevision) (body : String) : List ProgressEvent :=
  .start callId (some workItemId) revision body ::
    [.acquire, .find, .readOwner, .readRevision, .prepare true, .record, .write, .finish].map (.call callId)

-- A cancel ack reads the stub of its work item, and the run concludes before the ack edits.
def concludedUnderAck : List ProgressEvent :=
  .transfer 1 :: wholeCall 0 1 0 "queued" ++ [.cancel 0 1 "cancelled", .ack 0 (.read 9)] ++ wholeCall 1 1 7 "summary"

def concludedState : ProgressState :=
  runTo progressStep (fun _ _ => true) concludedUnderAck (startProgress none none) (startProgress none none)

theorem stale_ack_turns_back : ¬∀ (record : Option ProgressRecord) (comment : Option ProgressComment) (s t : ProgressState)
    (event : ProgressEvent), Reaches progressStep (fun _ _ => True) (startProgress record comment) s →
      progressStep s event = some t → ForwardStep s event t := by
  intro claim
  have reached : Reaches progressStep (fun _ _ => True) (startProgress none none) concludedState :=
    reaches_runTo concludedUnderAck _ _ (by decide +kernel)
  obtain ⟨t, edited⟩ : ∃ t, progressStep concludedState (.ack 0 .edit) = some t :=
    Option.isSome_iff_exists.mp (by decide +kernel)
  have summary : concludedState.ownerRevision = some 7 := by decide +kernel
  have owner : (progressStep concludedState (.ack 0 .edit)).map ProgressState.owner = some concludedState.owner := by
    decide +kernel
  have revision : (progressStep concludedState (.ack 0 .edit)).map ProgressState.ownerRevision = some (some 0) := by
    decide +kernel
  rw [edited] at owner revision
  obtain ⟨m, carries, raised⟩ := (claim none none concludedState t (.ack 0 .edit) reached edited).revision
    (Option.some.inj owner) 7 summary
  rw [Option.some.inj revision] at carries
  cases carries
  omega

end Main
end PrAgent
