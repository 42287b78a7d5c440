import PrAgent.SessionLockParts
set_option autoImplicit false

namespace PrAgent

variable {E T : Type} {max : Option Nat} {hashtextextended : Text → Int}

section Invariant

structure LockOk (max : Option Nat) (hashtextextended : Text → Int) (state : LockState E T) : Prop where
  each : ∀ i call, state.calls i = some call → CallOk call
  slots : SlotsOk max state.count state.reserved state.calls
  clients : ClientsOk state.calls state.discarded
  locks : LocksOk hashtextextended state.calls state.held state.discarded

variable {state : LockState E T} {i client : Nat} {call next : LockCall E T}

theorem lockOk_empty : LockOk max hashtextextended (.empty : LockState E T) where
  each := by
    intro i call here
    cases here
  slots := ⟨rfl, List.nodup_nil, fun i => ⟨fun listed => absurd listed List.not_mem_nil, fun reserves => by cases reserves⟩, Nat.zero_le _,
    fun i call here => by cases here⟩
  clients := ⟨fun i j client here => (by cases here), fun i client here => by cases here⟩
  locks := ⟨List.nodup_nil, fun entry listed => absurd listed List.not_mem_nil, fun i call client here => by cases here⟩

theorem each_put (each : ∀ i call, state.calls i = some call → CallOk call) (good : CallOk next) :
    ∀ j call, setCall state.calls i next j = some call → CallOk call := by
  intro j call here
  by_cases own : j = i
  · subst own
    rw [setCall_same] at here
    cases here
    exact good
  · rw [setCall_other own] at here
    exact each j call here

theorem unreserved_idle {phase : LockPhase E T} (done : phase.reserves = false) : phase.client = none ∧ phase.retained = none := by
  cases phase with
  | sleeping => exact ⟨rfl, rfl⟩
  | ended outcome => exact ⟨rfl, rfl⟩
  | _ => cases done

variable (ok : LockOk max hashtextextended state)
include ok

theorem LockOk.reserved (here : state.calls i = some call) (reserves : call.phase.reserves = true) :
    i ∈ state.reserved := by
  apply (ok.slots.reserving i).mpr
  rw [here]
  exact reserves

theorem LockOk.unreserved (done : ((state.calls i).any fun call => call.phase.reserves) = false) :
    i ∉ state.reserved := by
  intro listed
  rw [(ok.slots.reserving i).mp listed] at done
  cases done

theorem LockOk.alone (here : state.calls i = some call) (connected : call.phase.client = some client) :
    ∀ j, j ≠ i → clientOf state.calls j ≠ some client := by
  intro j different other
  apply different
  apply ok.clients.apart j i client other
  rw [clientOf, here]
  exact connected

theorem available_alone (available : state.available client) (j : Nat) :
    clientOf state.calls j ≠ some client := by
  intro other
  cases here : state.calls j with
  | none =>
      rw [clientOf, here] at other
      cases other
  | some call =>
      have connected : call.phase.client = some client := by
        rw [clientOf, here] at other
        exact other
      exact available.2 j (ok.reserved here (client_reserves connected)) other

theorem LockOk.handBack {left : List (Nat × Int)} {destroy : Bool}
    (loose : Loose hashtextextended state.calls left state.discarded i client destroy) (alone : ∀ j, j ≠ i → clientOf state.calls j ≠ some client)
    (listed : i ∈ state.reserved) (good : CallOk next) (done : next.phase.reserves = false)
    (admitted : next.phase.isEnded = false → next.request.capacity max = sessionCapacity max) :
    LockOk max hashtextextended ((({ state with held := left }.discard client destroy).giveBack i).put i next) where
  each := each_put ok.each good
  slots := ok.slots.giveBack listed done admitted
  clients := ok.clients.handBack alone (unreserved_idle done).1 destroy
  locks := loose.handedBack (unreserved_idle done).2

end Invariant

section Actions

variable {state : LockState E T} {i client : Nat} {call : LockCall E T}

variable {left : List (Nat × Int)}

variable (ok : LockOk max hashtextextended state)
include ok

theorem LockOk.abandon {destroy : Bool}
    (loose : Loose hashtextextended state.calls left state.discarded i client destroy) (alone : ∀ j, j ≠ i → clientOf state.calls j ≠ some client)
    (listed : i ∈ state.reserved) (admitted : call.request.capacity max = sessionCapacity max)
    (settled : BetweenAttempts (call.release client destroy (left.any fun entry => entry.1 = client))) (acquireFailure releaseError : Option E) (expired : Bool) :
    LockOk max hashtextextended (({ state with held := left } : LockState E T).abandon i call client destroy acquireFailure releaseError expired) := by
  rw [LockState.abandon]
  cases acquireFailure.or releaseError with
  | some error => exact ok.handBack loose alone listed (settled.endWith _) rfl (fun running => by cases running)
  | none =>
      simp only
      obtain ⟨phase, same, shape⟩ := goOn_shape (call.release client destroy (left.any fun entry => entry.1 = client)) expired
      have idle : phase.reserves = false ∧ phase.client = none := by
        rcases shape with rfl | ⟨outcome, rfl⟩
        · exact ⟨rfl, rfl⟩
        · exact ⟨rfl, rfl⟩
      have released := ok.handBack loose alone listed (settled.to idle.2) idle.1 (fun _ => admitted)
      rw [← same] at released
      exact released

-- A call that does not reserve, before and after.
theorem LockOk.rest (idle : ∀ old, state.calls i = some old → old.phase.reserves = false)
    (settled : BetweenAttempts call) {phase : LockPhase E T} (quiet : phase.reserves = false)
    (admitted : phase.isEnded = false → call.request.capacity max = sessionCapacity max) :
    LockOk max hashtextextended (state.put i { call with phase := phase }) := by
  obtain ⟨unconnected, unretained⟩ := unreserved_idle quiet
  have unreserved : i ∉ state.reserved := by
    apply ok.unreserved
    cases here : state.calls i with
    | none => rfl
    | some old => exact idle old here
  constructor
  · exact each_put ok.each (settled.to unconnected)
  · apply ok.slots.put
    · exact ⟨fun listed => absurd listed unreserved, fun reserves => absurd (quiet.symm.trans reserves) Bool.false_ne_true⟩
    · exact admitted
  · apply ok.clients.put
    intro client here
    rw [unconnected] at here
    cases here
  · apply ok.locks.put
    · intro client here
      rw [unretained] at here
      cases here
    · intro old client here retained
      rw [(unreserved_idle (idle old here)).2] at retained
      cases retained

theorem LockOk.goOn (idle : ∀ old, state.calls i = some old → old.phase.reserves = false)
    (admitted : call.request.capacity max = sessionCapacity max) (settled : BetweenAttempts call) (expired : Bool) :
    LockOk max hashtextextended (state.put i (call.goOn expired)) := by
  obtain ⟨phase, same, shape⟩ := goOn_shape call expired
  have quiet : phase.reserves = false := by rcases shape with rfl | ⟨outcome, rfl⟩ <;> rfl
  rw [same]
  exact ok.rest idle settled quiet (fun _ => admitted)

theorem LockOk.attempt (idle : ∀ old, state.calls i = some old → old.phase.reserves = false)
    (admitted : call.request.capacity max = sessionCapacity max) (settled : BetweenAttempts call) (expired : Bool) :
    LockOk max hashtextextended (state.attempt max i call expired) := by
  rw [LockState.attempt]
  by_cases room : state.count < call.request.capacity max
  · have unreserved : i ∉ state.reserved := by
      apply ok.unreserved
      cases here : state.calls i with
      | none => rfl
      | some old => exact idle old here
    rw [if_pos room]
    rw [admitted] at room
    constructor
    · exact each_put ok.each (settled.to rfl)
    · exact ok.slots.reserve unreserved room rfl admitted
    · apply ok.clients.put
      intro client here
      cases here
    · apply ok.locks.put
      · intro client here
        cases here
      · intro old client here retained
        rw [(unreserved_idle (idle old here)).2] at retained
        cases retained
  · rw [if_neg room]
    exact ok.goOn idle admitted settled expired

theorem LockOk.start (absent : state.calls i = none) (request : SessionLockRequest E) (expired : Bool) :
    LockOk max hashtextextended (state.start max i request expired) := by
  have idle (old : LockCall E T) (here : state.calls i = some old) : old.phase.reserves = false := by
    rw [absent] at here
    cases here
  rw [LockState.start]
  cases refused : request.refused max with
  | none => exact ok.attempt idle (admitted_capacity refused) (settled_new request _) expired
  | some error => exact ok.rest idle (settled_new request .sleeping) rfl (fun running => by cases running)

section Known

variable (here : state.calls i = some call)
include here

theorem LockOk.admitted (running : call.phase.isEnded = false) :
    call.request.capacity max = sessionCapacity max := ok.slots.admitted i call here running

-- What the phase of the call says of it, for a step that takes no connection and no lock.
theorem LockOk.change {phase : LockPhase E T} {applied : Nat}
    {applyFailure : Option E} (good : CallOk { call with phase := phase, applied := applied, applyFailure := applyFailure })
    (connected : phase.client = call.phase.client) (retained : phase.retained = call.phase.retained) (reserves : phase.reserves = call.phase.reserves)
    (admitted : call.request.capacity max = sessionCapacity max) :
    LockOk max hashtextextended (state.put i { call with phase := phase, applied := applied, applyFailure := applyFailure }) where
  each := each_put ok.each good
  slots := by
    apply ok.slots.put
    · rw [ok.slots.reserving i, here, Option.any_some, reserves]
    · intro _
      exact admitted
  clients := by
    apply ok.clients.put
    intro client own
    rw [clientOf, here, Option.bind_some, ← connected]
    exact own
  locks := by
    apply ok.locks.put
    · intro client own
      rw [retained] at own
      exact ⟨call, here, own, rfl⟩
    · intro old client there own
      rw [here] at there
      cases there
      exact ⟨retained.trans own, rfl⟩

theorem LockOk.connectFailed (phase : call.phase = .connecting) (error : E) :
    LockOk max hashtextextended ((state.giveBack i).put i (call.endWith (.error error))) := by
  have settled : BetweenAttempts call := (ok.each i call here).settled (by rw [phase]; rfl) (by rw [phase]; rfl)
  constructor
  · exact each_put ok.each (settled.endWith _)
  · exact ok.slots.giveBack (ok.reserved here (by rw [phase]; rfl)) rfl (fun running => by cases running)
  · apply ok.clients.put
    intro client own
    cases own
  · apply ok.locks.put
    · intro client own
      cases own
    · intro old client there own
      rw [here] at there
      cases there
      rw [phase] at own
      cases own

theorem LockOk.loose (unretained : call.phase.retained = none)
    {destroy : Bool} : Loose hashtextextended state.calls state.held state.discarded i client destroy := by
  apply ok.locks.loose
  intro old there
  rw [here] at there
  cases there
  exact unretained

theorem LockOk.onConnected (phase : call.phase = .connecting)
    (available : state.available client) (late : Bool) (releaseError : Option E) :
    LockOk max hashtextextended (state.onConnected i call client late releaseError) := by
  have settled : BetweenAttempts call := (ok.each i call here).settled (by rw [phase]; rfl) (by rw [phase]; rfl)
  have admitted := ok.admitted here (by rw [phase]; rfl)
  have listed := ok.reserved here (by rw [phase]; rfl)
  have unretained : call.phase.retained = none := by rw [phase]; rfl
  rw [LockState.onConnected]
  cases call.request.timedOut late with
  | some error =>
      have obtained : CallOk { call with phase := .querying client, obtained := call.obtained ++ [client] } := settled.obtain rfl
      have released : BetweenAttempts (LockCall.release { call with phase := .querying client, obtained := call.obtained ++ [client] } client true
          (state.held.any fun entry => entry.1 = client)) := obtained.settle rfl rfl (fun _ => rfl)
      have settled' : BetweenAttempts (LockCall.release { call with obtained := call.obtained ++ [client] } client true
          (state.held.any fun entry => entry.1 = client)) := ⟨released.balanced, released.destroyed, released.unused, released.unfailed⟩
      have admitted' : ({ call with obtained := call.obtained ++ [client] } : LockCall E T).request.capacity max = sessionCapacity max := admitted
      exact ok.abandon (ok.loose here unretained) (fun j _ => available_alone ok available j) listed admitted' settled' _ _ _
  | none =>
      constructor
      · exact each_put ok.each (settled.obtain rfl)
      · exact ok.slots.put ⟨fun _ => rfl, fun _ => listed⟩ (fun _ => admitted)
      · exact ok.clients.obtain rfl available.1 (available_alone ok available)
      · apply ok.locks.put
        · intro client own
          cases own
        · intro old client there own
          rw [here] at there
          cases there
          rw [unretained] at own
          cases own

-- An attempt that ends without the lock.
theorem LockOk.giveUp (connected : call.phase.client = some client)
    (early : call.phase.early = true) (running : call.phase.isEnded = false) {destroy : Bool}
    (loose : Loose hashtextextended state.calls left state.discarded i client destroy) (acquireFailure releaseError : Option E) (expired : Bool) :
    LockOk max hashtextextended (({ state with held := left } : LockState E T).abandon i call client destroy acquireFailure releaseError expired) := by
  have alone := ok.alone here connected
  have whole : client ∉ state.discarded := by
    apply ok.clients.kept i
    rw [clientOf, here]
    exact connected
  exact ok.abandon loose alone (ok.reserved here (client_reserves connected)) (ok.admitted here running)
    ((ok.each i call here).settle early connected (loose.careful whole alone)) _ _ _

omit ok here in
theorem querying_call (phase : call.phase = .querying client) : call.phase.client = some client ∧
    call.phase.retained = none ∧ call.phase.early = true ∧ call.phase.isEnded = false := by
  rw [phase]
  exact ⟨rfl, rfl, rfl, rfl⟩

theorem LockOk.onTried (phase : call.phase = .querying client)
    (locked late : Bool) (free : locked = true → state.free client (call.lock hashtextextended) = true) (releaseError : Option E) (expired : Bool) :
    LockOk max hashtextextended
      ((if locked then state.grant client (call.lock hashtextextended) else state).onTried i call client locked late releaseError expired) := by
  obtain ⟨connected, unretained, early, running⟩ := querying_call phase
  rw [LockState.onTried]
  cases locked with
  | false =>
      cases call.request.timedOut late with
      | some error => exact ok.giveUp here connected early running (ok.loose here unretained) _ _ _
      | none =>
          simp only [Bool.false_eq_true, if_false]
          cases call.request.mode with
          | tryOnce options =>
              have fresh := ok.each i call here
              have good : CallOk ({ call with phase := .contending client } : LockCall E T) := by
                constructor
                · rw [fresh.balanced, connected]
                  rfl
                · exact fresh.destroyed
                · exact fresh.once
                · exact fun _ => fresh.fresh early
                · intro error failed
                  have none_failed := fresh.unfailed early
                  rw [none_failed] at failed
                  cases failed
              exact ok.change here good (by rw [phase]; rfl) (by rw [phase]; rfl) (by rw [phase]; rfl) (ok.admitted here running)
          | wait options => exact ok.giveUp here connected early running (ok.loose here unretained) _ _ _
  | true =>
      have granted := free rfl
      cases call.request.timedOut late with
      | some error =>
          exact ok.giveUp here connected early running (ok.locks.loose_granted ok.clients here connected unretained granted) _ _ _
      | none =>
          have fresh := ok.each i call here
          have good : CallOk ({ call with phase := .applying client, applied := call.applied + 1 } : LockCall E T) := by
            constructor
            · rw [fresh.balanced, connected]
              rfl
            · exact fresh.destroyed
            · rw [fresh.fresh early]
            · intro still
              cases still
            · intro error failed
              have none_failed := fresh.unfailed early
              rw [none_failed] at failed
              cases failed
          have admitted := ok.admitted here running
          constructor
          · exact each_put ok.each good
          · exact ok.slots.put ⟨fun _ => rfl, fun _ => ok.reserved here (client_reserves connected)⟩ (fun _ => admitted)
          · apply ok.clients.put
            intro other own
            rw [clientOf, here]
            exact connected.trans own
          · exact ok.locks.win ok.clients here connected unretained granted rfl

theorem LockOk.tryFailed (phase : call.phase = .querying client)
    (granted : Bool) (free : granted = true → state.free client (call.lock hashtextextended) = true) (acquireFailure releaseError : Option E) :
    LockOk max hashtextextended
      ((if granted then state.grant client (call.lock hashtextextended) else state).abandon i call client true acquireFailure releaseError false) := by
  obtain ⟨connected, unretained, early, running⟩ := querying_call phase
  cases granted with
  | true => exact ok.giveUp here connected early running (ok.locks.loose_granted ok.clients here connected unretained (free rfl)) _ _ _
  | false => exact ok.giveUp here connected early running (ok.loose here unretained) _ _ _

theorem LockOk.applied (phase : call.phase = .applying client)
    (result : Except E T) : LockOk max hashtextextended (state.put i (call.onApplied client result)) := by
  have before := ok.each i call here
  have good : CallOk (call.onApplied client result) := by
    constructor
    · have same : (call.onApplied client result).obtained = call.obtained := rfl
      rw [same, before.balanced, phase]
      rfl
    · exact before.destroyed
    · exact before.once
    · intro still
      cases still
    · intro error failed
      cases result with
      | error failure =>
          cases failed
          exact .inl ⟨client, rfl⟩
      | ok value => cases failed
  exact ok.change here good (by rw [phase]; rfl) (by rw [phase]; rfl) (by rw [phase]; rfl) (ok.admitted here (by rw [phase]; rfl))

theorem LockOk.finish {result : Except E T}
    (phase : call.phase = .unlocking client result) {destroy : Bool}
    (left_eq : left = state.held.erase (client, call.lock hashtextextended) ∨ left = state.held ∧ destroy = true) (unlockError releaseError : Option E) :
    LockOk max hashtextextended (({ state with held := left } : LockState E T).finish i call client result destroy unlockError releaseError) := by
  have connected : call.phase.client = some client := by rw [phase]; rfl
  have alone := ok.alone here connected
  have whole : client ∉ state.discarded := by
    apply ok.clients.kept i
    rw [clientOf, here]
    exact connected
  have loose := ok.locks.loose_unlocked ok.clients here (by rw [phase]; rfl) left_eq
  have before := ok.each i call here
  have released := before.released connected (loose.careful whole alone)
  apply ok.handBack loose alone (ok.reserved here (client_reserves connected))
  · constructor
    · exact released.1.trans (List.append_nil _).symm
    · exact released.2
    · exact before.once
    · intro still
      cases still
    · intro error failed
      rcases before.failed error failed with ⟨other, unlocking⟩ | ended
      · rw [phase] at unlocking
        cases unlocking
        exact .inr rfl
      · rw [phase] at ended
        cases ended
  · rfl
  · intro running
    cases running

end Known

theorem LockOk.discardedTakes {lock : Int} (gone : client ∈ state.discarded)
    (free : ∀ entry ∈ state.held, entry.2 ≠ lock) : LockOk max hashtextextended (state.grant client lock) where
  each := ok.each
  slots := ok.slots
  clients := ok.clients
  locks := by
    constructor
    · rw [LockState.grant, List.map_cons, List.nodup_cons]
      constructor
      · intro listed
        obtain ⟨entry, inside, same⟩ := List.mem_map.mp listed
        exact free entry inside same
      · exact ok.locks.exclusive
    · intro entry listed
      rcases List.mem_cons.mp listed with same | before
      · cases same
        exact .inl gone
      · exact ok.locks.holder entry before
    · exact fun i call client here retained => List.mem_cons_of_mem _ (ok.locks.holds i call client here retained)

theorem LockOk.discardedDrops {lock : Int} (gone : client ∈ state.discarded) :
    LockOk max hashtextextended (state.drop client lock) where
  each := ok.each
  slots := ok.slots
  clients := ok.clients
  locks := by
    constructor
    · exact ok.locks.exclusive.sublist (List.erase_sublist.map _)
    · exact fun entry listed => ok.locks.holder entry (List.mem_of_mem_erase listed)
    · intro i call other here retained
      apply (List.mem_erase_of_ne _).mpr (ok.locks.holds i call other here retained)
      intro equal
      have same : other = client := congrArg Prod.fst equal
      rw [same] at retained
      exact ok.clients.kept i client (retained_clientOf here retained) gone

end Actions

section Runs

theorem sessionLockStep_ok {state next : LockState E T} (event : LockEvent E T) (ok : LockOk max hashtextextended state)
    (moved : sessionLockStep max hashtextextended state event = some next) : LockOk max hashtextextended next := by
  -- The call that an answer is for, and where it awaits.
  cases event with
  | start i request expired =>
      obtain ⟨absent, made⟩ := Option.ite_none_right_eq_some.mp moved
      cases made
      exact ok.start (Option.isNone_iff_eq_none.mp absent) request expired
  | connected i client late releaseError =>
      obtain ⟨call, here, moved⟩ := Option.bind_eq_some_iff.mp moved
      cases phase : call.phase <;> simp only [phase] at moved <;> try cases moved
      obtain ⟨available, made⟩ := Option.ite_none_right_eq_some.mp moved
      cases made
      exact ok.onConnected here phase available late releaseError
  | connectFailed i error =>
      obtain ⟨call, here, moved⟩ := Option.bind_eq_some_iff.mp moved
      cases phase : call.phase <;> simp only [phase] at moved <;> try cases moved
      exact ok.connectFailed here phase _
  | tried i locked late releaseError expired =>
      obtain ⟨call, here, moved⟩ := Option.bind_eq_some_iff.mp moved
      cases phase : call.phase <;> simp only [phase] at moved <;> try cases moved
      cases locked with
      | true =>
          obtain ⟨free, made⟩ := Option.ite_none_right_eq_some.mp moved
          cases made
          exact ok.onTried here phase true late (fun _ => free) releaseError expired
      | false =>
          cases moved
          exact ok.onTried here phase false late (fun locked => by cases locked) releaseError expired
  | tryFailed i error granted releaseError =>
      obtain ⟨call, here, moved⟩ := Option.bind_eq_some_iff.mp moved
      cases phase : call.phase <;> simp only [phase] at moved <;> try cases moved
      cases granted with
      | true =>
          obtain ⟨free, made⟩ := Option.ite_none_right_eq_some.mp moved
          cases made
          exact ok.tryFailed here phase true (fun _ => free) (some error) releaseError
      | false =>
          cases moved
          exact ok.tryFailed here phase false (fun granted => by cases granted) (some error) releaseError
  | contended i error releaseError =>
      obtain ⟨call, here, moved⟩ := Option.bind_eq_some_iff.mp moved
      cases phase : call.phase <;> simp only [phase] at moved <;> try cases moved
      exact ok.giveUp here (by rw [phase]; rfl) (by rw [phase]; rfl) (by rw [phase]; rfl) (ok.loose here (by rw [phase]; rfl)) error releaseError false
  | woken i late expired =>
      obtain ⟨call, here, moved⟩ := Option.bind_eq_some_iff.mp moved
      cases phase : call.phase <;> simp only [phase] at moved <;> try cases moved
      have settled : BetweenAttempts call := (ok.each i call here).settled (by rw [phase]; rfl) (by rw [phase]; rfl)
      have admitted := ok.admitted here (by rw [phase]; rfl)
      have idle (old : LockCall E T) (there : state.calls i = some old) : old.phase.reserves = false := by
        rw [here] at there
        cases there
        rw [phase]
        rfl
      cases late with
      | true => exact ok.goOn idle admitted settled true
      | false => exact ok.attempt idle admitted settled expired
  | applied i result =>
      obtain ⟨call, here, moved⟩ := Option.bind_eq_some_iff.mp moved
      cases phase : call.phase <;> simp only [phase] at moved <;> try cases moved
      exact ok.applied here phase result
  | unlocked i releaseError =>
      obtain ⟨call, here, moved⟩ := Option.bind_eq_some_iff.mp moved
      cases phase : call.phase <;> simp only [phase] at moved <;> try cases moved
      exact ok.finish here phase (.inl rfl) none releaseError
  | unlockFailed i error done releaseError =>
      obtain ⟨call, here, moved⟩ := Option.bind_eq_some_iff.mp moved
      cases phase : call.phase <;> simp only [phase] at moved <;> try cases moved
      cases done with
      | true => exact ok.finish here phase (.inl rfl) (some error) releaseError
      | false => exact ok.finish here phase (.inr ⟨rfl, rfl⟩) (some error) releaseError
  | discardedTakes client lock =>
      obtain ⟨⟨gone, free⟩, made⟩ := Option.ite_none_right_eq_some.mp moved
      cases made
      exact ok.discardedTakes gone free
  | discardedDrops client lock =>
      obtain ⟨gone, made⟩ := Option.ite_none_right_eq_some.mp moved
      cases made
      exact ok.discardedDrops gone

abbrev LockRun (max : Option Nat) (hashtextextended : Text → Int) (state : LockState E T) : Prop :=
  Reaches (sessionLockStep max hashtextextended) (fun _ _ => True) .empty state

theorem lockRun_ok {state : LockState E T} (reached : LockRun max hashtextextended state) : LockOk max hashtextextended state :=
  reached.invariant (LockOk max hashtextextended) lockOk_empty fun _ event _ ok _ moved => sessionLockStep_ok event ok moved

-- What a call holds of the pool and of the server at any time.
structure CallSafe (max : Option Nat) (hashtextextended : Text → Int) (state : LockState E T) (i : Nat) (call : LockCall E T) : Prop where
  reserving : i ∈ state.reserved ↔ call.phase.reserves = true
  bound : call.phase.isEnded = false → state.count ≤ call.request.capacity max
  released : call.obtained = call.released.map LockRelease.client ++ call.phase.client.toList
  destroyed : ∀ release ∈ call.released, release.holding = true → release.destroyed = true
  once : call.applied ≤ 1
  locked : ∀ client, call.phase = .applying client →
    (client, call.lock hashtextextended) ∈ state.held ∧ ∀ entry ∈ state.held, entry.2 = call.lock hashtextextended → entry.1 = client
  ended : ∀ outcome, call.phase = .ended outcome → i ∉ state.reserved ∧ call.obtained = call.released.map LockRelease.client ∧
    ∀ error, call.applyFailure = some error → outcome = .error error

theorem lockOk_safe {state : LockState E T} (ok : LockOk max hashtextextended state) {i : Nat} {call : LockCall E T}
    (here : state.calls i = some call) : CallSafe max hashtextextended state i call := by
  have own := ok.each i call here
  have reserving : i ∈ state.reserved ↔ call.phase.reserves = true := by rw [ok.slots.reserving i, here, Option.any_some]
  constructor
  · exact reserving
  · intro running
    rw [ok.admitted here running]
    exact ok.slots.bound
  · exact own.balanced
  · exact own.destroyed
  · exact own.once
  · intro client phase
    have holds := ok.locks.holds i call client here (by rw [phase]; rfl)
    constructor
    · exact holds
    · intro entry listed same
      exact congrArg Prod.fst (List.inj_on_of_nodup_map ok.locks.exclusive listed holds same)
  · intro outcome phase
    have balanced := own.balanced
    rw [phase] at reserving balanced
    refine ⟨fun listed => absurd (reserving.mp listed) Bool.false_ne_true, balanced.trans (List.append_nil _), ?_⟩
    intro error failed
    rcases own.failed error failed with ⟨client, unlocking⟩ | ended
    · rw [phase] at unlocking
      cases unlocking
    · rw [phase] at ended
      cases ended
      rfl

-- The reservations held are those of the calls that have one; each call is safe at any time.
theorem session_lock_leaks_nothing {state : LockState E T} (reached : LockRun max hashtextextended state) :
    state.count = state.reserved.length ∧ state.reserved.Nodup ∧
      ∀ i call, state.calls i = some call → CallSafe max hashtextextended state i call := by
  have ok := lockRun_ok reached
  exact ⟨ok.slots.counted, ok.slots.distinct, fun i call here => lockOk_safe ok here⟩

-- `apply`, the unlock query and the release all fail.
def failingCall : List (LockEvent Nat Nat) :=
  [.start 0 (.ownVerdict (text "w1") (text "general") ⟨true, id⟩) false, .connected 0 1 false none, .tried 0 true false none false,
    .applied 0 (.error 5), .unlockFailed 0 6 false (some 7)]

theorem failing_call_safe :
    ∃ state : LockState Nat Nat, state.count = state.reserved.length ∧
      ∃ call, CallSafe (some 10) (fun key => key.length) state 0 call ∧ call.released = [⟨1, true, true⟩] := by
  have reached : LockRun (some 10) (fun key => key.length)
      (runTo (sessionLockStep (some 10) fun key => key.length) (fun _ _ => decide True) failingCall .empty .empty) := reaches_runTo _ _ _ (by decide +kernel)
  have safe := session_lock_leaks_nothing reached
  exact ⟨_, safe.1, _, safe.2.2 0 _ rfl, rfl⟩

end Runs
end PrAgent
