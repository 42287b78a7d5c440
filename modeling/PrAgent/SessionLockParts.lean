import PrAgent.SessionLock
set_option autoImplicit false

namespace PrAgent

variable {E T : Type}

section Calls

variable {call : LockCall E T}

def LockPhase.early : LockPhase E T → Bool
  | .applying _ => false
  | .unlocking _ _ => false
  | .ended _ => false
  | _ => true

variable {phase : LockPhase E T} {client : Nat}

theorem retained_client (retained : phase.retained = some client) : phase.client = some client := by
  cases phase with
  | applying other => exact retained
  | unlocking other result => exact retained
  | _ => cases retained

theorem client_reserves (here : phase.client = some client) : phase.reserves = true := by
  cases phase with
  | connecting => rfl
  | sleeping => cases here
  | ended outcome => cases here
  | _ => rfl

-- What one call has done with its connections, its lock and its error.
structure CallOk (call : LockCall E T) : Prop where
  balanced : call.obtained = call.released.map LockRelease.client ++ call.phase.client.toList
  destroyed : ∀ release ∈ call.released, release.holding = true → release.destroyed = true
  once : call.applied ≤ 1
  fresh : call.phase.early = true → call.applied = 0
  failed : ∀ error, call.applyFailure = some error →
    (∃ client, call.phase = .unlocking client (.error error)) ∨ call.phase = .ended (.error error)

-- A call between two attempts.
structure BetweenAttempts (call : LockCall E T) : Prop where
  balanced : call.obtained = call.released.map LockRelease.client
  destroyed : ∀ release ∈ call.released, release.holding = true → release.destroyed = true
  unused : call.applied = 0
  unfailed : call.applyFailure = none

theorem CallOk.unfailed (ok : CallOk call) (early : call.phase.early = true) : call.applyFailure = none := by
  cases failed : call.applyFailure with
  | none => rfl
  | some error =>
      rcases ok.failed error failed with ⟨client, here⟩ | here
      · rw [here] at early
        cases early
      · rw [here] at early
        cases early

theorem CallOk.settled (ok : CallOk call) (early : call.phase.early = true) (unconnected : call.phase.client = none) : BetweenAttempts call where
  balanced := by simpa [unconnected] using ok.balanced
  destroyed := ok.destroyed
  unused := ok.fresh early
  unfailed := ok.unfailed early

theorem settled_new (request : SessionLockRequest E) (phase : LockPhase E T) : BetweenAttempts ⟨request, phase, [], [], 0, none⟩ where
  balanced := rfl
  destroyed := by
    intro release listed
    cases listed
  unused := rfl
  unfailed := rfl

theorem BetweenAttempts.to (settled : BetweenAttempts call) (unconnected : phase.client = none) : CallOk { call with phase := phase } where
  balanced := by simpa [unconnected] using settled.balanced
  destroyed := settled.destroyed
  once := by simp [settled.unused]
  fresh := fun _ => settled.unused
  failed := by
    intro error failed
    rw [settled.unfailed] at failed
    cases failed

theorem BetweenAttempts.endWith (settled : BetweenAttempts call) (outcome : Except E (Option T)) : CallOk (call.endWith outcome) := settled.to rfl

theorem goOn_shape (call : LockCall E T) (expired : Bool) :
    ∃ phase, call.goOn expired = { call with phase := phase } ∧ (phase = .sleeping ∨ ∃ outcome, phase = .ended outcome) := by
  rw [LockCall.goOn]
  cases call.request.mode with
  | tryOnce options => exact ⟨_, rfl, .inr ⟨_, rfl⟩⟩
  | wait options =>
      cases expired with
      | false => exact ⟨_, rfl, .inl rfl⟩
      | true => exact ⟨_, rfl, .inr ⟨_, rfl⟩⟩

-- A call that has a connection no more.
theorem CallOk.released (ok : CallOk call) (connected : call.phase.client = some client) {destroy holding : Bool}
    (careful : holding = true → destroy = true) :
    (call.release client destroy holding).obtained = (call.release client destroy holding).released.map LockRelease.client ∧
      ∀ release ∈ (call.release client destroy holding).released, release.holding = true → release.destroyed = true := by
  constructor
  · rw [LockCall.release, ok.balanced, connected, List.map_append]
    rfl
  · intro release listed
    rcases List.mem_append.mp listed with before | here
    · exact ok.destroyed release before
    · cases List.mem_singleton.mp here
      exact careful

theorem CallOk.settle (ok : CallOk call) (early : call.phase.early = true) (connected : call.phase.client = some client)
    {destroy holding : Bool} (careful : holding = true → destroy = true) : BetweenAttempts (call.release client destroy holding) where
  balanced := (ok.released connected careful).1
  destroyed := (ok.released connected careful).2
  unused := ok.fresh early
  unfailed := ok.unfailed early

theorem BetweenAttempts.obtain (settled : BetweenAttempts call) (connected : phase.client = some client) :
    CallOk { call with phase := phase, obtained := call.obtained ++ [client] } where
  balanced := by
    rw [settled.balanced]
    simp only [connected]
    rfl
  destroyed := settled.destroyed
  once := by simp [settled.unused]
  fresh := fun _ => settled.unused
  failed := by
    intro error failed
    rw [settled.unfailed] at failed
    cases failed

end Calls

section Slots

variable {max : Option Nat} {count : Nat} {reserved : List Nat} {calls : Nat → Option (LockCall E T)} {i : Nat} {call : LockCall E T}

-- The capacity of all calls that a pool admits.
def sessionCapacity (max : Option Nat) : Nat := Nat.max 1 (max.getD 10 / 2)

theorem admitted_capacity {request : SessionLockRequest E} (admitted : request.refused max = none) :
    request.capacity max = sessionCapacity max := by
  have waits (options : WaitSessionLockOptions E) (low : ¬Nat.max 0 (max.getD 0 / 2) < 1) : Nat.max 0 (max.getD 0 / 2) = sessionCapacity max := by
    cases max with
    | none => exact absurd (by decide) low
    | some m =>
        simp only [Option.getD_some, sessionCapacity] at low ⊢
        have zero : Nat.max 0 (m / 2) = m / 2 := Nat.zero_max _
        have one : Nat.max 1 (m / 2) = m / 2 := Nat.max_eq_right (by omega)
        omega
  cases request with
  | ownVerdict workItemId reviewLens options => rfl
  | progress resourceKey reviewLens options =>
      simp only [SessionLockRequest.refused, SessionLockRequest.mode] at admitted
      by_cases low : SessionLockRequest.capacity max (.progress resourceKey reviewLens options) < 1
      · rw [if_pos low] at admitted
        cases admitted
      · exact waits options low
  | threadMutation resourceKey options =>
      simp only [SessionLockRequest.refused, SessionLockRequest.mode] at admitted
      by_cases low : SessionLockRequest.capacity max (.threadMutation resourceKey options) < 1
      · rw [if_pos low] at admitted
        cases admitted
      · exact waits options low

theorem setCall_same : setCall calls i call i = some call := if_pos rfl

theorem setCall_other {j : Nat} (other : j ≠ i) : setCall calls i call j = calls j := if_neg other

structure SlotsOk (max : Option Nat) (count : Nat) (reserved : List Nat) (calls : Nat → Option (LockCall E T)) : Prop where
  counted : count = reserved.length
  distinct : reserved.Nodup
  reserving : ∀ i, i ∈ reserved ↔ ((calls i).any fun call => call.phase.reserves) = true
  bound : count ≤ sessionCapacity max
  admitted : ∀ i call, calls i = some call → call.phase.isEnded = false → call.request.capacity max = sessionCapacity max

variable (ok : SlotsOk max count reserved calls)
include ok

theorem SlotsOk.admits (admitted : call.phase.isEnded = false → call.request.capacity max = sessionCapacity max)
    {j : Nat} {other : LockCall E T} (here : setCall calls i call j = some other) (running : other.phase.isEnded = false) :
    other.request.capacity max = sessionCapacity max := by
  by_cases same : j = i
  · subst same
    rw [setCall_same] at here
    cases here
    exact admitted running
  · rw [setCall_other same] at here
    exact ok.admitted j other here running

theorem SlotsOk.put (kept : i ∈ reserved ↔ call.phase.reserves = true)
    (admitted : call.phase.isEnded = false → call.request.capacity max = sessionCapacity max) :
    SlotsOk max count reserved (setCall calls i call) where
  counted := ok.counted
  distinct := ok.distinct
  reserving := by
    intro j
    by_cases same : j = i
    · subst same
      rw [setCall_same]
      exact kept
    · rw [setCall_other same]
      exact ok.reserving j
  bound := ok.bound
  admitted := fun _ _ => ok.admits admitted

theorem SlotsOk.reserve (unreserved : i ∉ reserved) (room : count < sessionCapacity max)
    (reserves : call.phase.reserves = true) (admitted : call.request.capacity max = sessionCapacity max) :
    SlotsOk max (count + 1) (i :: reserved) (setCall calls i call) where
  counted := congrArg Nat.succ ok.counted
  distinct := List.nodup_cons.mpr ⟨unreserved, ok.distinct⟩
  reserving := by
    intro j
    by_cases same : j = i
    · subst same
      rw [setCall_same]
      exact ⟨fun _ => reserves, fun _ => List.mem_cons_self⟩
    · rw [setCall_other same, List.mem_cons, ← ok.reserving j]
      exact ⟨fun either => either.resolve_left same, .inr⟩
  bound := room
  admitted := fun _ _ => ok.admits fun _ => admitted

theorem SlotsOk.giveBack (listed : i ∈ reserved) (done : call.phase.reserves = false)
    (admitted : call.phase.isEnded = false → call.request.capacity max = sessionCapacity max) :
    SlotsOk max (count - 1) (reserved.erase i) (setCall calls i call) where
  counted := by rw [List.length_erase_of_mem listed, ok.counted]
  distinct := ok.distinct.erase i
  reserving := by
    intro j
    by_cases same : j = i
    · subst same
      rw [setCall_same]
      constructor
      · intro still
        exact absurd still ok.distinct.not_mem_erase
      · intro reserves
        rw [Option.any_some, done] at reserves
        cases reserves
    · rw [setCall_other same, List.mem_erase_of_ne same]
      exact ok.reserving j
  bound := Nat.le_trans (Nat.sub_le count 1) ok.bound
  admitted := fun _ _ => ok.admits admitted

end Slots
section Clients

variable {calls : Nat → Option (LockCall E T)} {discarded : List Nat} {i client : Nat} {call : LockCall E T}

def clientOf (calls : Nat → Option (LockCall E T)) (i : Nat) : Option Nat := (calls i).bind fun call => call.phase.client

theorem clientOf_same : clientOf (setCall calls i call) i = call.phase.client := by
  rw [clientOf, setCall_same]
  rfl

theorem clientOf_other {j : Nat} (other : j ≠ i) : clientOf (setCall calls i call) j = clientOf calls j := by
  rw [clientOf, setCall_other other]
  rfl

structure ClientsOk (calls : Nat → Option (LockCall E T)) (discarded : List Nat) : Prop where
  apart : ∀ i j client, clientOf calls i = some client → clientOf calls j = some client → i = j
  kept : ∀ i client, clientOf calls i = some client → client ∉ discarded

theorem ClientsOk.put (ok : ClientsOk calls discarded) (same : ∀ client, call.phase.client = some client → clientOf calls i = some client) :
    ClientsOk (setCall calls i call) discarded := by
  have before (j client : Nat) (here : clientOf (setCall calls i call) j = some client) : clientOf calls j = some client := by
    by_cases own : j = i
    · subst own
      rw [clientOf_same] at here
      exact same client here
    · rw [clientOf_other own] at here
      exact here
  constructor
  · intro j k client first second
    exact ok.apart j k client (before j client first) (before k client second)
  · intro j client here
    exact ok.kept j client (before j client here)

theorem ClientsOk.obtain (ok : ClientsOk calls discarded) (connected : call.phase.client = some client) (whole : client ∉ discarded)
    (unused : ∀ j, clientOf calls j ≠ some client) : ClientsOk (setCall calls i call) discarded := by
  have before (j other : Nat) (here : clientOf (setCall calls i call) j = some other) : j = i ∧ other = client ∨ clientOf calls j = some other := by
    by_cases own : j = i
    · subst own
      rw [clientOf_same, connected] at here
      cases here
      exact .inl ⟨rfl, rfl⟩
    · rw [clientOf_other own] at here
      exact .inr here
  constructor
  · intro j k other first second
    rcases before j other first with ⟨here, same⟩ | first
    · rcases before k other second with ⟨there, _⟩ | second
      · rw [here, there]
      · rw [same] at second
        exact absurd second (unused k)
    · rcases before k other second with ⟨_, same⟩ | second
      · rw [same] at first
        exact absurd first (unused j)
      · exact ok.apart j k other first second
  · intro j other here
    rcases before j other here with ⟨_, same⟩ | here
    · rw [same]
      exact whole
    · exact ok.kept j other here

-- Only the call itself had the connection that it hands back.
theorem ClientsOk.handBack (ok : ClientsOk calls discarded) (alone : ∀ j, j ≠ i → clientOf calls j ≠ some client)
    (unconnected : call.phase.client = none) (destroy : Bool) :
    ClientsOk (setCall calls i call) (if destroy then client :: discarded else discarded) := by
  have without : ClientsOk (setCall calls i call) discarded := by
    apply ok.put
    intro other here
    rw [unconnected] at here
    cases here
  constructor
  · exact without.apart
  · intro j other here
    have whole := without.kept j other here
    cases destroy with
    | false => exact whole
    | true =>
        intro listed
        rcases List.mem_cons.mp listed with same | before
        · have different : j ≠ i := by
            intro own
            rw [own, clientOf_same, unconnected] at here
            cases here
          rw [clientOf_other different, same] at here
          exact alone j different here
        · exact whole before

end Clients

section Locks

variable {hashtextextended : Text → Int} {calls : Nat → Option (LockCall E T)} {held : List (Nat × Int)} {discarded : List Nat}
variable {i client : Nat} {call : LockCall E T}

-- The lock on a connection that is not discarded is that of the call which has the connection.
structure LocksOk (hashtextextended : Text → Int) (calls : Nat → Option (LockCall E T)) (held : List (Nat × Int)) (discarded : List Nat) :
    Prop where
  exclusive : (held.map Prod.snd).Nodup
  holder : ∀ entry ∈ held, entry.1 ∈ discarded ∨
    ∃ i call, calls i = some call ∧ call.phase.retained = some entry.1 ∧ call.lock hashtextextended = entry.2
  holds : ∀ i call client, calls i = some call → call.phase.retained = some client → (client, call.lock hashtextextended) ∈ held

theorem retained_clientOf {j : Nat} {other : LockCall E T} (here : calls j = some other) (retained : other.phase.retained = some client) :
    clientOf calls j = some client := by
  rw [clientOf, here]
  exact retained_client retained

theorem nodup_grant {lock : Int} (exclusive : (held.map Prod.snd).Nodup)
    (free : (held.all fun entry => entry.2 ≠ lock || entry.1 = client) = true) (none_own : ∀ entry ∈ held, entry.1 ≠ client) :
    (((client, lock) :: held).map Prod.snd).Nodup := by
  rw [List.map_cons, List.nodup_cons]
  constructor
  · intro listed
    obtain ⟨entry, inside, same⟩ := List.mem_map.mp listed
    have either := List.all_eq_true.mp free entry inside
    rw [Bool.or_eq_true, decide_eq_true_iff, decide_eq_true_iff] at either
    exact either.elim (fun other => other same) (none_own entry inside)
  · exact exclusive

theorem LocksOk.put (ok : LocksOk hashtextextended calls held discarded) (before : ∀ client, call.phase.retained = some client →
      ∃ old, calls i = some old ∧ old.phase.retained = some client ∧ old.lock hashtextextended = call.lock hashtextextended)
    (after : ∀ old client, calls i = some old → old.phase.retained = some client →
      call.phase.retained = some client ∧ old.lock hashtextextended = call.lock hashtextextended) :
    LocksOk hashtextextended (setCall calls i call) held discarded where
  exclusive := ok.exclusive
  holder := by
    intro entry listed
    rcases ok.holder entry listed with gone | ⟨j, old, here, retained, same⟩
    · exact .inl gone
    · by_cases own : j = i
      · subst own
        have still := after old entry.1 here retained
        exact .inr ⟨j, call, setCall_same, still.1, still.2.symm.trans same⟩
      · exact .inr ⟨j, old, (setCall_other own).trans here, retained, same⟩
  holds := by
    intro j other client here retained
    by_cases own : j = i
    · subst own
      rw [setCall_same] at here
      cases here
      obtain ⟨old, there, kept, same⟩ := before client retained
      rw [← same]
      exact ok.holds j old client there kept
    · rw [setCall_other own] at here
      exact ok.holds j other client here retained

variable {old : LockCall E T}

-- Nothing is held on a connection before its lock is won.
theorem LocksOk.clear (ok : LocksOk hashtextextended calls held discarded) (clients : ClientsOk calls discarded)
    (here : calls i = some old) (connected : old.phase.client = some client) (unretained : old.phase.retained = none) :
    ∀ entry ∈ held, entry.1 ≠ client := by
  intro entry listed same
  have own : clientOf calls i = some client := by
    rw [clientOf, here]
    exact connected
  rcases ok.holder entry listed with gone | ⟨j, other, there, retained, _⟩
  · rw [same] at gone
    exact clients.kept i client own gone
  · rw [same] at retained
    have first := clients.apart j i client (retained_clientOf there retained) own
    subst first
    rw [here] at there
    cases there
    rw [unretained] at retained
    cases retained

theorem LocksOk.win (ok : LocksOk hashtextextended calls held discarded) (clients : ClientsOk calls discarded)
    (here : calls i = some old) (connected : old.phase.client = some client) (unretained : old.phase.retained = none)
    (free : (held.all fun entry => entry.2 ≠ call.lock hashtextextended || entry.1 = client) = true) (retained : call.phase.retained = some client) :
    LocksOk hashtextextended (setCall calls i call) ((client, call.lock hashtextextended) :: held) discarded where
  exclusive := nodup_grant ok.exclusive free (ok.clear clients here connected unretained)
  holder := by
    intro entry listed
    rcases List.mem_cons.mp listed with same | before
    · cases same
      exact .inr ⟨i, call, setCall_same, retained, rfl⟩
    · rcases ok.holder entry before with gone | ⟨j, other, there, kept, same⟩
      · exact .inl gone
      · have different : j ≠ i := by
          intro own
          subst own
          rw [here] at there
          cases there
          rw [unretained] at kept
          cases kept
        exact .inr ⟨j, other, (setCall_other different).trans there, kept, same⟩
  holds := by
    intro j other who there kept
    by_cases own : j = i
    · subst own
      rw [setCall_same] at there
      cases there
      rw [retained] at kept
      cases kept
      exact List.mem_cons_self
    · rw [setCall_other own] at there
      exact List.mem_cons_of_mem _ (ok.holds j other who there kept)

-- The locks while one call hands back its connection.
structure Loose (hashtextextended : Text → Int) (calls : Nat → Option (LockCall E T)) (held : List (Nat × Int)) (discarded : List Nat)
    (i client : Nat) (destroy : Bool) : Prop where
  exclusive : (held.map Prod.snd).Nodup
  holder : ∀ entry ∈ held, entry.1 ∈ discarded ∨ entry.1 = client ∧ destroy = true ∨
    ∃ j call, j ≠ i ∧ calls j = some call ∧ call.phase.retained = some entry.1 ∧ call.lock hashtextextended = entry.2
  holds : ∀ j call client, j ≠ i → calls j = some call → call.phase.retained = some client → (client, call.lock hashtextextended) ∈ held

theorem Loose.handedBack {destroy : Bool} (loose : Loose hashtextextended calls held discarded i client destroy) (unretained : call.phase.retained = none) :
    LocksOk hashtextextended (setCall calls i call) held (if destroy then client :: discarded else discarded) where
  exclusive := loose.exclusive
  holder := by
    intro entry listed
    rcases loose.holder entry listed with gone | ⟨same, destroyed⟩ | ⟨j, other, different, there, kept, lock⟩
    · cases destroy with
      | false => exact .inl gone
      | true => exact .inl (List.mem_cons_of_mem _ gone)
    · rw [destroyed, same]
      exact .inl List.mem_cons_self
    · exact .inr ⟨j, other, (setCall_other different).trans there, kept, lock⟩
  holds := by
    intro j other who there kept
    by_cases own : j = i
    · subst own
      rw [setCall_same] at there
      cases there
      rw [unretained] at kept
      cases kept
    · rw [setCall_other own] at there
      exact loose.holds j other who own there kept

-- A connection that still holds a lock is destroyed.
theorem Loose.careful {destroy : Bool} (loose : Loose hashtextextended calls held discarded i client destroy) (whole : client ∉ discarded)
    (alone : ∀ j, j ≠ i → clientOf calls j ≠ some client) (holding : (held.any fun entry => entry.1 = client) = true) : destroy = true := by
  obtain ⟨entry, listed, same⟩ := List.any_eq_true.mp holding
  have own : entry.1 = client := of_decide_eq_true same
  rcases loose.holder entry listed with gone | ⟨_, destroyed⟩ | ⟨j, other, different, there, kept, _⟩
  · rw [own] at gone
    exact absurd gone whole
  · exact destroyed
  · rw [own] at kept
    exact absurd (retained_clientOf there kept) (alone j different)

theorem LocksOk.loose (ok : LocksOk hashtextextended calls held discarded) {destroy : Bool}
    (unretained : ∀ old, calls i = some old → old.phase.retained = none) : Loose hashtextextended calls held discarded i client destroy where
  exclusive := ok.exclusive
  holder := by
    intro entry listed
    rcases ok.holder entry listed with gone | ⟨j, other, there, kept, lock⟩
    · exact .inl gone
    · have different : j ≠ i := by
        intro own
        subst own
        rw [unretained other there] at kept
        cases kept
      exact .inr (.inr ⟨j, other, different, there, kept, lock⟩)
  holds := fun j other who _ there kept => ok.holds j other who there kept

-- The server may have given the lock, although the call does not know it.
theorem LocksOk.loose_granted (ok : LocksOk hashtextextended calls held discarded) (clients : ClientsOk calls discarded)
    {lock : Int} (here : calls i = some old) (connected : old.phase.client = some client) (unretained : old.phase.retained = none)
    (free : (held.all fun entry => entry.2 ≠ lock || entry.1 = client) = true) :
    Loose hashtextextended calls ((client, lock) :: held) discarded i client true := by
  have loose : Loose hashtextextended calls held discarded i client true := by
    apply ok.loose
    intro other there
    rw [here] at there
    cases there
    exact unretained
  constructor
  · exact nodup_grant ok.exclusive free (ok.clear clients here connected unretained)
  · intro entry listed
    rcases List.mem_cons.mp listed with same | before
    · cases same
      exact .inr (.inl ⟨rfl, rfl⟩)
    · exact loose.holder entry before
  · intro j other who different there kept
    exact List.mem_cons_of_mem _ (loose.holds j other who different there kept)

-- The unlock query takes away the lock of the call, or the connection is destroyed.
theorem LocksOk.loose_unlocked (ok : LocksOk hashtextextended calls held discarded) (clients : ClientsOk calls discarded)
    {destroy : Bool} {left : List (Nat × Int)} (here : calls i = some old) (retained : old.phase.retained = some client)
    (left_eq : left = held.erase (client, old.lock hashtextextended) ∨ left = held ∧ destroy = true) :
    Loose hashtextextended calls left discarded i client destroy := by
  have own := retained_clientOf here retained
  have inside : ∀ entry ∈ left, entry ∈ held := by
    intro entry listed
    rcases left_eq with same | ⟨same, _⟩
    · rw [same] at listed
      exact List.mem_of_mem_erase listed
    · rw [same] at listed
      exact listed
  constructor
  · rcases left_eq with same | ⟨same, _⟩
    · rw [same]
      exact ok.exclusive.sublist (List.erase_sublist.map _)
    · rw [same]
      exact ok.exclusive
  · intro entry listed
    rcases ok.holder entry (inside entry listed) with gone | ⟨j, other, there, kept, lock⟩
    · exact .inl gone
    · by_cases same : j = i
      · subst same
        rw [here] at there
        cases there
        have first : client = entry.1 := Option.some.inj (retained.symm.trans kept)
        rcases left_eq with erased | ⟨_, destroyed⟩
        · rw [erased, first, lock] at listed
          exact absurd listed (List.Nodup.of_map Prod.snd ok.exclusive).not_mem_erase
        · exact .inr (.inl ⟨first.symm, destroyed⟩)
      · exact .inr (.inr ⟨j, other, same, there, kept, lock⟩)
  · intro j other who different there kept
    have before := ok.holds j other who there kept
    rcases left_eq with same | ⟨same, _⟩
    · rw [same]
      apply (List.mem_erase_of_ne _).mpr before
      intro equal
      have first : who = client := congrArg Prod.fst equal
      rw [first] at kept
      exact different (clients.apart j i client (retained_clientOf there kept) own)
    · rw [same]
      exact before

end Locks
end PrAgent
