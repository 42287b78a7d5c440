import PrAgent.ProgressComment
set_option autoImplicit false

namespace PrAgent

section Forward

def ProgressState.owner (s : ProgressState) : Option WorkItemId := s.record.map ProgressRecord.workItemId

def ProgressState.generation (s : ProgressState) : Option Nat := s.record.map ProgressRecord.progressGeneration

def ProgressState.marker (s : ProgressState) : Option ProgressRevisionState := s.comment.bind ProgressComment.marker

-- The revision that the visible comment carries for the current owner.
def ProgressState.ownerRevision (s : ProgressState) : Option Nat :=
  match s.owner, s.marker with
  | some owner, some state => if state.workItemId = some owner then some state.revision else none
  | _, _ => none

-- Whose body an event puts on the pull request.
def writer? (s : ProgressState) : ProgressEvent → Option (Option WorkItemId)
  | .call callId .write => (s.calls.get? callId).map ProgressCall.workItemId
  | .ack ackId .edit => (s.acks.get? ackId).map fun ack => some ack.workItemId
  | _ => none

def isTick (s : ProgressState) : ProgressEvent → Bool
  | .call callId .write => (s.calls.get? callId).any fun call => call.revision < 7
  | _ => false

structure ForwardStep (s : ProgressState) (event : ProgressEvent) (t : ProgressState) : Prop where
  revision : t.owner = s.owner → ∀ n, s.ownerRevision = some n → ∃ m, t.ownerRevision = some m ∧ n ≤ m
  foreign : ∀ writer, writer? s event = some writer → writer ≠ s.owner → s.ownerRevision.isSome = true →
    t.comment = s.comment
  concluded : ∀ n, s.ownerRevision = some n → 7 ≤ n → isTick s event = true → t.comment = s.comment

-- Since its lookup nothing has overtaken the write: the comment of the owner still has the marker that was found, or
-- one that is not ahead, and the owner is the one who writes.
def Unovertaken (s : ProgressState) : ProgressEvent → Prop
  | .call callId .write => ∀ call current, s.calls.get? callId = some call → call.phase = .recorded current →
      ∀ n, s.ownerRevision = some n →
        call.workItemId = s.owner ∧ (s.marker = current.bind ProgressComment.marker ∨ n ≤ call.revision.val)
  | .ack ackId .edit => ∀ ack existing, s.acks.get? ackId = some ack → ack.phase = .owning existing →
      ∀ n, s.ownerRevision = some n →
        s.marker = existing.marker ∨
          some ack.workItemId = s.owner ∧ n ≤ (existing.marker.map ProgressRevisionState.revision).getD 0
  | _ => True

-- No ack edits a stub, and ownership moves to no work item that the visible comment is of.
def Undisturbed (s : ProgressState) : ProgressEvent → Prop
  | .ack _ .edit => False
  | .transfer workItemId => s.owner ≠ some workItemId → ∀ state, s.marker = some state → state.workItemId ≠ some workItemId
  | _ => True

structure ProgressForward (start : ProgressState) : Prop where
  steps : ∀ {s t event}, Reaches progressStep (fun _ _ => True) start s → progressStep s event = some t →
    (ForwardStep s event t ↔ Unovertaken s event)
  runs : ∀ {s t}, Reaches progressStep Unovertaken start s → Reaches progressStep Unovertaken s t →
    t.generation = s.generation → ∀ n, s.ownerRevision = some n → ∃ m, t.ownerRevision = some m ∧ n ≤ m
  calls : ∀ {s t event}, Reaches progressStep Undisturbed start s → Undisturbed s event → progressStep s event = some t →
    ForwardStep s event t

end Forward

section Owner

variable {s t : ProgressState}

theorem ownerRevision_eq_some {n : Nat} :
    s.ownerRevision = some n ↔ ∃ owner, s.owner = some owner ∧ s.marker = some ⟨n, some owner⟩ := by
  unfold ProgressState.ownerRevision
  cases s.owner with
  | none => simp
  | some owner =>
    cases s.marker with
    | none => simp
    | some state =>
      obtain ⟨revision, workItemId⟩ := state
      by_cases own : workItemId = some owner
      · simp [own]
      · simp [own]

theorem ownerRevision_congr (owner : t.owner = s.owner) (comment : t.comment = s.comment) :
    t.ownerRevision = s.ownerRevision := by
  unfold ProgressState.ownerRevision ProgressState.marker
  rw [owner, comment]

theorem forward_of_unchanged {event : ProgressEvent} (comment : t.comment = s.comment) : ForwardStep s event t := by
  refine ⟨?_, fun _ _ _ _ => comment, fun _ _ _ _ => comment⟩
  intro owner n carries
  exact ⟨n, (ownerRevision_congr owner comment).trans carries, Nat.le_refl n⟩

end Owner

section Moves

variable {s t : ProgressState} {callId ackId : Nat} {call : ProgressCall} {ack : CancelAck}

theorem calls_setPhase (s : ProgressState) (callId : Nat) (call : ProgressCall) (phase : ProgressPhase) (other : Nat) :
    (s.setPhase callId call phase).calls.get? other =
      if other = callId then some { call with phase } else s.calls.get? other :=
  Table.get?_set ..

theorem calls_leave (s : ProgressState) (callId other : Nat) :
    (s.leave callId).calls.get? other = if other = callId then none else s.calls.get? other :=
  Table.get?_erase ..

theorem startCall_eq_some (started : startCall s callId call = some t) :
    s.calls.get? callId = none ∧ t = { s with calls := s.calls.set callId call } := by
  unfold startCall at started
  split at started
  · next fresh => exact ⟨fresh, (Option.some.inj started).symm⟩
  · cases started

theorem call_comment {action : CallAction} (other : action ≠ .write) (moved : callStep s callId call action = some t) :
    t.comment = s.comment := by
  unfold callStep at moved
  split at moved
  · split at moved
    · cases moved
      rfl
    · cases moved
  · cases moved
    rfl
  · cases moved
    rfl
  · cases moved
    rfl
  · cases moved
    unfold prepareCall
    split <;> rfl
  · cases moved
    unfold recordCall
    split
    · rfl
    · split <;> rfl
  · exact absurd rfl other
  · cases moved
    unfold finishCall
    split
    · rfl
    · split <;> rfl
  · cases moved
    rfl
  · cases moved

theorem ack_comment {action : AckAction} (other : action ≠ .edit) (moved : ackStep s ackId ack action = some t) :
    t.comment = s.comment := by
  unfold ackStep at moved
  split at moved
  · unfold ackRead at moved
    split at moved
    · cases moved
      rfl
    · rw [(startCall_eq_some moved).2]
  · exact absurd rfl other
  · cases moved
    rfl
  · cases moved

end Moves

section Sound

-- The comment that a call past its decision has decided on.
def ProgressPhase.decided : ProgressPhase → Option (Option ProgressComment)
  | .prepared current | .recorded current => some current
  | _ => none

-- A decided call has found no revision of its own that its write would not exceed.
def ProgressCall.Sound (call : ProgressCall) : Prop :=
  ∀ current, call.phase.decided = some current →
    revisionForRun call.workItemId (current.bind ProgressComment.marker) < call.revision.val

def CancelAck.Sound (ack : CancelAck) : Prop :=
  ∀ existing, ack.phase = .owning existing → ownsStub ack.workItemId existing = true

structure ProgressSound (s : ProgressState) : Prop where
  calls : ∀ {callId call}, s.calls.get? callId = some call → call.Sound
  acks : ∀ {ackId ack}, s.acks.get? ackId = some ack → ack.Sound

variable {s t : ProgressState} {callId ackId : Nat} {call : ProgressCall} {ack : CancelAck}

theorem ProgressSound.setCall (sound : ProgressSound s) (callId : Nat) {call : ProgressCall} (next : call.Sound)
    (calls : t.calls = s.calls.set callId call) (acks : ∀ {ackId ack}, t.acks.get? ackId = some ack → s.acks.get? ackId = some ack) :
    ProgressSound t := by
  refine ⟨?_, fun stored => sound.acks (acks stored)⟩
  intro other found stored
  rw [calls] at stored
  rcases Table.get?_set_cases stored with ⟨_, rfl⟩ | ⟨_, stored⟩
  · exact next
  · exact sound.calls stored

theorem ProgressSound.leave (sound : ProgressSound s) (callId : Nat) (calls : t.calls = s.calls.erase callId)
    (acks : t.acks = s.acks) : ProgressSound t := by
  refine ⟨?_, fun stored => sound.acks (acks ▸ stored)⟩
  intro other found stored
  rw [calls] at stored
  exact sound.calls (Table.get?_erase_cases stored).2

theorem sound_of_undecided (undecided : call.phase.decided = none) : call.Sound := by
  intro current decided
  rw [undecided] at decided
  cases decided

theorem sound_of_prepares {workItemId : Option WorkItemId} {revision : ProgressCommentRevision} {publishes : Bool}
    {current : Option ProgressComment} {owner : Option (WorkItemId × Nat)} {stored : Option ProgressRevisionState}
    (prepares : preparesWrite workItemId revision publishes current owner stored = true) :
    revisionForRun workItemId (current.bind ProgressComment.marker) < revision.val := by
  unfold preparesWrite at prepares
  cases current with
  | none =>
    have below : (-1 : Int) < revision.val := by omega
    exact below
  | some comment =>
    simp only [Option.isSome_some, Bool.true_and, Bool.and_eq_true, Bool.not_eq_true', decide_eq_false_iff_not] at prepares
    omega

theorem call_sound {action : CallAction} (sound : ProgressSound s) (stored : s.calls.get? callId = some call)
    (moved : callStep s callId call action = some t) : ProgressSound t := by
  unfold callStep at moved
  split at moved
  · split at moved
    · cases moved
      exact sound.setCall callId (sound_of_undecided rfl) rfl id
    · cases moved
  · cases moved
    exact sound.setCall callId (sound_of_undecided rfl) rfl id
  · cases moved
    exact sound.setCall callId (sound_of_undecided rfl) rfl id
  · cases moved
    exact sound.setCall callId (sound_of_undecided rfl) rfl id
  · next current owner revision phase =>
    cases moved
    unfold prepareCall
    split
    · next prepares =>
      refine sound.setCall callId ?_ rfl id
      intro found decided
      have same : some current = some found := by
        cases work : call.workItemId.isSome with
        | true => simpa [work, ProgressPhase.decided] using decided
        | false => simpa [work, ProgressPhase.decided] using decided
      cases same
      exact sound_of_prepares prepares
    · exact sound.leave callId rfl rfl
  · next current phase =>
    cases moved
    have next : ({ call with phase := .recorded current } : ProgressCall).Sound := by
      intro found decided
      cases decided
      exact sound.calls stored current (by rw [phase]; rfl)
    unfold recordCall
    split
    · exact sound.setCall callId next rfl id
    · split
      · exact sound.leave callId rfl rfl
      · exact sound.setCall callId next rfl id
  · cases moved
    exact sound.setCall callId (sound_of_undecided rfl) rfl id
  · cases moved
    unfold finishCall
    split
    · exact sound.leave callId rfl rfl
    · split
      · exact sound.leave callId rfl rfl
      · exact sound.leave callId rfl rfl
  · cases moved
    exact sound.leave callId rfl rfl
  · cases moved

theorem acks_erase {ack : CancelAck} {other : Nat} (stored : (s.acks.erase ackId).get? other = some ack) :
    s.acks.get? other = some ack := (Table.get?_erase_cases stored).2

theorem ProgressSound.setAck (sound : ProgressSound s) (ackId : Nat) {ack : CancelAck} (next : ack.Sound) :
    ProgressSound { s with acks := s.acks.set ackId ack } := by
  refine ⟨fun stored => sound.calls stored, ?_⟩
  intro other found stored
  rcases Table.get?_set_cases stored with ⟨_, rfl⟩ | ⟨_, stored⟩
  · exact next
  · exact sound.acks stored

theorem ack_sound {action : AckAction} (sound : ProgressSound s) (moved : ackStep s ackId ack action = some t) :
    ProgressSound t := by
  unfold ackStep at moved
  split at moved
  · unfold ackRead at moved
    split at moved
    · next existing found =>
      cases moved
      refine sound.setAck ackId ?_
      intro other owning
      cases owning
      exact (Option.filter_eq_some_iff.mp found).2
    · obtain ⟨_, rfl⟩ := startCall_eq_some moved
      exact sound.setCall _ (sound_of_undecided rfl) rfl acks_erase
  · cases moved
    exact ⟨fun stored => sound.calls stored, fun stored => sound.acks (acks_erase stored)⟩
  · cases moved
    exact ⟨fun stored => sound.calls stored, fun stored => sound.acks (acks_erase stored)⟩
  · cases moved

theorem progress_sound {event : ProgressEvent} (sound : ProgressSound s) (moved : progressStep s event = some t) :
    ProgressSound t := by
  cases event with
  | transfer workItemId =>
    cases moved
    exact ⟨fun stored => sound.calls stored, fun stored => sound.acks stored⟩
  | start callId workItemId revision body =>
    obtain ⟨_, rfl⟩ := startCall_eq_some moved
    exact sound.setCall callId (sound_of_undecided rfl) rfl id
  | call callId action =>
    obtain ⟨call, stored, moved⟩ := Option.bind_eq_some_iff.mp moved
    exact call_sound sound stored moved
  | cancel ackId workItemId notice =>
    simp only [progressStep] at moved
    split at moved
    · cases moved
      refine sound.setAck ackId ?_
      intro existing owning
      cases owning
    · cases moved
  | ack ackId action =>
    obtain ⟨ack, stored, moved⟩ := Option.bind_eq_some_iff.mp moved
    exact ack_sound sound moved

theorem start_sound (record : Option ProgressRecord) (comment : Option ProgressComment) :
    ProgressSound (startProgress record comment) := by
  refine ⟨?_, ?_⟩
  · intro callId call stored
    cases stored
  · intro ackId ack stored
    cases stored

end Sound
end PrAgent
