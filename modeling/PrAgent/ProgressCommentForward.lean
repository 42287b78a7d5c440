import PrAgent.ProgressCommentRuns
set_option autoImplicit false

namespace PrAgent

section Steps

variable {s t : ProgressState} {callId ackId : Nat} {call : ProgressCall} {ack : CancelAck}

theorem carries_ownerRevision {owner : WorkItemId} {state : ProgressRevisionState} (owned : t.owner = some owner)
    (shows : t.marker = some state) (own : state.workItemId = some owner) : t.ownerRevision = some state.revision := by
  refine ownerRevision_eq_some.mpr ⟨owner, owned, ?_⟩
  rw [shows, ← own]

theorem revisionForRun_own (n : Nat) (workItemId : Option WorkItemId) : revisionForRun workItemId (some ⟨n, workItemId⟩) = n := by
  exact if_pos rfl

-- A step that writes a revision for a work item.
section Written

variable {event : ProgressEvent} {workItemId : Option WorkItemId} {revision : Nat}
  (shows : t.marker = some ⟨revision, workItemId⟩) (owned : t.owner = s.owner) (writes : writer? s event = some workItemId)
include shows owned writes

theorem ForwardStep.reaches (forward : ForwardStep s event t) {n : Nat} (carries : s.ownerRevision = some n) :
    workItemId = s.owner ∧ n ≤ revision := by
  obtain ⟨owner, owns, marked⟩ := ownerRevision_eq_some.mp carries
  have own : workItemId = s.owner := by
    by_contra other
    have kept := forward.foreign _ writes other (by rw [carries]; rfl)
    have same : some (⟨revision, workItemId⟩ : ProgressRevisionState) = some ⟨n, some owner⟩ := by
      rw [← shows, ← marked, ProgressState.marker, kept, ProgressState.marker]
    exact other ((congrArg ProgressRevisionState.workItemId (Option.some.inj same)).trans owns.symm)
  obtain ⟨m, carried, raised⟩ := forward.revision owned n carries
  have written := carries_ownerRevision (owned.trans owns) shows (own.trans owns)
  obtain rfl := Option.some.inj (carried.symm.trans written)
  exact ⟨own, raised⟩

theorem forward_of_reaches (reaches : ∀ n, s.ownerRevision = some n → workItemId = s.owner ∧ n ≤ revision)
    (ticks : ∀ n, s.ownerRevision = some n → 7 ≤ n → isTick s event = true → t.comment = s.comment) : ForwardStep s event t := by
  refine ⟨fun _ n carries => ?_, fun writer wrote other carries => ?_, ticks⟩
  · obtain ⟨own, below⟩ := reaches n carries
    obtain ⟨owner, owns, _⟩ := ownerRevision_eq_some.mp carries
    exact ⟨_, carries_ownerRevision (owned.trans owns) shows (own.trans owns), below⟩
  · obtain ⟨n, carries⟩ := Option.isSome_iff_exists.mp carries
    obtain rfl := Option.some.inj (writes.symm.trans wrote)
    exact absurd (reaches n carries).1 other

end Written

variable (sound : ProgressSound s)
include sound

theorem write_forward {current : Option ProgressComment}
    (stored : s.calls.get? callId = some call) (phase : call.phase = .recorded current) :
    ForwardStep s (.call callId .write) (writeCall s callId call) ↔ Unovertaken s (.call callId .write) := by
  have shows : (writeCall s callId call).marker = some ⟨call.revision, call.workItemId⟩ := rfl
  have owned : (writeCall s callId call).owner = s.owner := rfl
  have writes : writer? s (.call callId .write) = some call.workItemId := by
    rw [writer?, stored]
    rfl
  have behind := sound.calls stored current (by rw [phase]; rfl)
  constructor
  · intro forward found seen storedFound phaseFound n carries
    obtain rfl : call = found := Option.some.inj (stored.symm.trans storedFound)
    obtain ⟨own, raised⟩ := forward.reaches shows owned writes carries
    exact ⟨own, .inr raised⟩
  · intro unovertaken
    have reaches : ∀ n, s.ownerRevision = some n → call.workItemId = s.owner ∧ n ≤ call.revision.val := by
      intro n carries
      obtain ⟨own, same | below⟩ := unovertaken call current stored phase n carries
      · obtain ⟨owner, owns, marked⟩ := ownerRevision_eq_some.mp carries
        rw [← same, marked, own, owns, revisionForRun_own] at behind
        exact ⟨own, by omega⟩
      · exact ⟨own, below⟩
    refine forward_of_reaches shows owned writes reaches fun n carries concluding tick => ?_
    have ticks : call.revision < 7 := by simpa [isTick, stored] using tick
    have behind : call.revision.val < 7 := ticks
    have below := (reaches n carries).2
    omega

theorem edit_forward {existing : ProgressComment} (stored : s.acks.get? ackId = some ack)
    (phase : ack.phase = .owning existing) :
    ForwardStep s (.ack ackId .edit) (ackEdit s ackId ack existing) ↔ Unovertaken s (.ack ackId .edit) := by
  have shows : (ackEdit s ackId ack existing).marker =
      some ⟨(existing.marker.map ProgressRevisionState.revision).getD 0, some ack.workItemId⟩ := rfl
  have owned : (ackEdit s ackId ack existing).owner = s.owner := rfl
  have writes : writer? s (.ack ackId .edit) = some (some ack.workItemId) := by
    rw [writer?, stored]
    rfl
  have owning := sound.acks stored existing phase
  constructor
  · intro forward found seen storedFound phaseFound n carries
    obtain rfl : ack = found := Option.some.inj (stored.symm.trans storedFound)
    obtain rfl : existing = seen := CancelPhase.owning.inj (phase.symm.trans phaseFound)
    exact .inr (forward.reaches shows owned writes carries)
  · intro unovertaken
    have reaches : ∀ n, s.ownerRevision = some n →
        some ack.workItemId = s.owner ∧ n ≤ (existing.marker.map ProgressRevisionState.revision).getD 0 := by
      intro n carries
      rcases unovertaken ack existing stored phase n carries with same | kept
      · obtain ⟨owner, owns, marked⟩ := ownerRevision_eq_some.mp carries
        rw [marked] at same
        have named : some owner = some ack.workItemId := by
          simpa [ownsStub, ← same] using owning
        refine ⟨named.symm.trans owns.symm, ?_⟩
        rw [← same]
        exact Nat.le_refl n
      · exact kept
    exact forward_of_reaches shows owned writes reaches fun _ _ _ tick => by cases tick

theorem call_forward {action : CallAction} (stored : s.calls.get? callId = some call)
    (moved : callStep s callId call action = some t) :
    ForwardStep s (.call callId action) t ↔ Unovertaken s (.call callId action) := by
  by_cases writes : action = .write
  · subst writes
    cases phase : call.phase with
    | recorded current =>
      simp only [callStep, phase, Option.some.injEq] at moved
      rw [← moved]
      exact write_forward sound stored phase
    | waiting | locked | found _ | owned _ _ | read _ _ _ | prepared _ | written => simp [callStep, phase] at moved
  · refine ⟨fun _ => ?_, fun _ => forward_of_unchanged (call_comment writes moved)⟩
    cases action with
    | write => exact absurd rfl writes
    | acquire | find | readOwner | readRevision | prepare _ | record | finish | drop => trivial

theorem ack_forward {action : AckAction} (stored : s.acks.get? ackId = some ack)
    (moved : ackStep s ackId ack action = some t) :
    ForwardStep s (.ack ackId action) t ↔ Unovertaken s (.ack ackId action) := by
  by_cases edits : action = .edit
  · subst edits
    cases phase : ack.phase with
    | owning existing =>
      simp only [ackStep, phase, Option.some.injEq] at moved
      rw [← moved]
      exact edit_forward sound stored phase
    | waiting => simp [ackStep, phase] at moved
  · refine ⟨fun _ => ?_, fun _ => forward_of_unchanged (ack_comment edits moved)⟩
    cases action with
    | edit => exact absurd rfl edits
    | read _ | drop => trivial

theorem step_forward {event : ProgressEvent} (moved : progressStep s event = some t) :
    ForwardStep s event t ↔ Unovertaken s event := by
  cases event with
  | transfer workItemId =>
    cases moved
    exact ⟨fun _ => trivial, fun _ => forward_of_unchanged rfl⟩
  | start callId workItemId revision body =>
    obtain ⟨_, rfl⟩ := startCall_eq_some moved
    exact ⟨fun _ => trivial, fun _ => forward_of_unchanged rfl⟩
  | call callId action =>
    obtain ⟨call, stored, moved⟩ := Option.bind_eq_some_iff.mp moved
    exact call_forward sound stored moved
  | cancel ackId workItemId notice =>
    simp only [progressStep] at moved
    split at moved
    · cases moved
      exact ⟨fun _ => trivial, fun _ => forward_of_unchanged rfl⟩
    · cases moved
  | ack ackId action =>
    obtain ⟨ack, stored, moved⟩ := Option.bind_eq_some_iff.mp moved
    exact ack_forward sound stored moved

end Steps

section Ownership

-- The row of the record stays, and a new owner has a higher generation.
def RecordKept (before after : Option ProgressRecord) : Prop :=
  ∀ row, before = some row → ∃ next, after = some next ∧
    (row.progressGeneration < next.progressGeneration ∨
      next.progressGeneration = row.progressGeneration ∧ next.workItemId = row.workItemId)

theorem record_same (record : Option ProgressRecord) : RecordKept record record :=
  fun row stored => ⟨row, stored, .inr ⟨rfl, rfl⟩⟩

theorem transfer_kept (workItemId : WorkItemId) (record : Option ProgressRecord) :
    RecordKept record (some (transferProgressCommentOwnership workItemId record)) := by
  intro row stored
  subst stored
  unfold transferProgressCommentOwnership
  refine ⟨_, rfl, ?_⟩
  by_cases same : row.workItemId = workItemId
  · exact .inr (by simp [same])
  · exact .inl (by simp [same])

theorem recordProgressStep_kept {workItemId : WorkItemId} {revision : Nat} {record : Option ProgressRecord} {next : ProgressRecord}
    (recorded : recordProgressStep workItemId revision record = some next) : RecordKept record (some next) := by
  intro row stored
  subst stored
  simp only [recordProgressStep] at recorded
  split at recorded
  · cases recorded
    exact ⟨_, rfl, .inr ⟨rfl, rfl⟩⟩
  · cases recorded

variable {s t : ProgressState} {callId ackId : Nat} {call : ProgressCall} {ack : CancelAck}

theorem call_record {action : CallAction} (moved : callStep s callId call action = some t) : RecordKept s.record t.record := by
  unfold callStep at moved
  split at moved
  · split at moved
    · cases moved
      exact record_same _
    · cases moved
  · cases moved
    exact record_same _
  · cases moved
    exact record_same _
  · cases moved
    exact record_same _
  · cases moved
    unfold prepareCall
    split
    · exact record_same _
    · exact record_same _
  · cases moved
    unfold recordCall
    split
    · exact record_same _
    · split
      · exact record_same _
      · next recorded => exact recordProgressStep_kept recorded
  · cases moved
    exact record_same _
  · cases moved
    unfold finishCall
    split
    · exact record_same _
    · split
      · exact record_same _
      · next recorded => exact recordProgressStep_kept recorded
  · cases moved
    exact record_same _
  · cases moved

theorem ack_record {action : AckAction} (moved : ackStep s ackId ack action = some t) : t.record = s.record := by
  unfold ackStep at moved
  split at moved
  · unfold ackRead at moved
    split at moved
    · cases moved
      rfl
    · rw [(startCall_eq_some moved).2]
  · cases moved
    rfl
  · cases moved
    rfl
  · cases moved

theorem step_record {event : ProgressEvent} (moved : progressStep s event = some t) : RecordKept s.record t.record := by
  cases event with
  | transfer workItemId =>
    cases moved
    exact transfer_kept workItemId s.record
  | start callId workItemId revision body =>
    obtain ⟨_, rfl⟩ := startCall_eq_some moved
    exact record_same _
  | call callId action =>
    obtain ⟨call, _, moved⟩ := Option.bind_eq_some_iff.mp moved
    exact call_record moved
  | cancel ackId workItemId notice =>
    simp only [progressStep] at moved
    split at moved
    · cases moved
      exact record_same _
    · cases moved
  | ack ackId action =>
    obtain ⟨ack, _, moved⟩ := Option.bind_eq_some_iff.mp moved
    rw [ack_record moved]
    exact record_same _

-- As long as the ownership has not moved on, the owner's comment is there, at least at a revision it has had.
def KeepsRevision (row : ProgressRecord) (n : Nat) (t : ProgressState) : Prop :=
  ∃ next, t.record = some next ∧
    (row.progressGeneration < next.progressGeneration ∨
      next.progressGeneration = row.progressGeneration ∧ next.workItemId = row.workItemId ∧
        ∃ m, t.ownerRevision = some m ∧ n ≤ m)

theorem step_keepsRevision {row : ProgressRecord} {n : Nat} {event : ProgressEvent} (keeps : KeepsRevision row n s)
    (forward : ForwardStep s event t) (moved : progressStep s event = some t) : KeepsRevision row n t := by
  obtain ⟨now, stored, standing⟩ := keeps
  obtain ⟨next, storedNext, kept⟩ := step_record moved now stored
  refine ⟨next, storedNext, ?_⟩
  rcases standing with moved | ⟨generation, owner, m, carries, reached⟩
  · left
    omega
  · rcases kept with moved | ⟨sameGeneration, sameOwner⟩
    · left
      omega
    · have owned : t.owner = s.owner := by
        rw [ProgressState.owner, ProgressState.owner, stored, storedNext, Option.map_some, Option.map_some, sameOwner]
      obtain ⟨m', carried, raised⟩ := forward.revision owned m carries
      exact .inr ⟨sameGeneration.trans generation, sameOwner.trans owner, m', carried, Nat.le_trans reached raised⟩

end Ownership
end PrAgent
