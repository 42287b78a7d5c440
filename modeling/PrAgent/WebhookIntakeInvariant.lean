import PrAgent.WebhookIntake
import PrAgent.Run
set_option autoImplicit false

namespace PrAgent

section Invariant

variable {Work Ci : Type} (features : IntakeFeatures) (sha256 : String → String)

def WebhookHeaders.key (headers : WebhookHeaders) : String := (webhookEventKeys sha256 headers).dedupeKey

def WebhookHeaders.body (headers : WebhookHeaders) : String := (webhookEventKeys sha256 headers).bodySha256

-- Two deliveries of one delivery id or of one body.
def SameDelivery (left right : WebhookHeaders) : Prop :=
  left.key sha256 = right.key sha256 ∨ left.body sha256 = right.body sha256

def IntakeTx.waiting (tx : IntakeTx) : List String :=
  match tx.phase with
  | .locking waiting => waiting
  | .inserted .. | .accepted .. | .duplicate _ | .written .. => []

def IntakeReading.Current (job : IntakeJob) (lifecycles : ReviewLifecycles) (reading : IntakeReading) : Prop :=
  reading.lifecycle = loadReviewLifecycle lifecycles reading.resourceKey ∧
    reading.accepted = job.observation.any (reviewLifecycleObservationAccepted lifecycles reading.resourceKey)

-- What an open transaction holds, against the committed tables.
structure IntakeTx.Sound (db : IntakeDb Work Ci) (accepted : List WebhookHeaders) (tx : IntakeTx) : Prop where
  locks : tx.job.lockKeys features = tx.readings.map IntakeReading.resourceKey ++ tx.waiting
  readings : ∀ reading ∈ tx.readings, reading.Current tx.job db.lifecycles
  keys : ∀ key, tx.pendingKey? = some key → db.webhookEvents.get? key = none ∧
    ∃ headers command, tx.job = .delivery headers command ∧ key = headers.key sha256
  bodies : ∀ body, tx.pendingBody? = some body → db.replays.get? body = none
  events : ∀ key event headers command, tx.job = .delivery headers command →
    (tx.phase = .inserted key event ∨ tx.phase = .accepted key event ∨
      ∃ lifecycle reviews, tx.phase = .written (some (key, event)) lifecycle reviews) →
    event.bodySha256 = headers.body sha256
  unrecorded : ∀ lifecycle reviews headers command, tx.phase = .written none lifecycle reviews →
    tx.job ≠ .delivery headers command
  duplicate : ∀ row, tx.phase = .duplicate row → ∃ headers command, tx.job = .delivery headers command ∧
    ∃ first ∈ accepted, SameDelivery sha256 first headers
  lifecycle : ∀ event key row reviews, tx.phase = .written event (some (key, row)) reviews → tx.holds key = true
  reviews : ∀ event lifecycle reviews, tx.phase = .written event lifecycle reviews →
    ∀ review ∈ reviews, review ∈ allowedReviews features tx.job tx.readings

-- Two open transactions have no unique key and no lock in common.
structure IntakeTx.Apart (left right : IntakeTx) : Prop where
  keys : ∀ key, left.pendingKey? = some key → right.pendingKey? ≠ some key
  bodies : ∀ body, left.pendingBody? = some body → right.pendingBody? ≠ some body
  locks : ∀ resourceKey, left.holds resourceKey = true → right.holds resourceKey = false

theorem IntakeTx.Apart.symm {left right : IntakeTx} (apart : left.Apart right) : right.Apart left where
  keys := fun key here there => apart.keys key there here
  bodies := fun body here there => apart.bodies body there here
  locks := fun resourceKey here => by
    cases there : left.holds resourceKey with
    | false => rfl
    | true => rw [apart.locks resourceKey there] at here; cases here

structure IntakeInvariant (s : IntakeState Work Ci) : Prop where
  sound : ∀ n tx, s.transactions.get? n = some tx → tx.Sound features sha256 s.db s.acceptedDeliveries
  apart : ∀ n m tx other, n ≠ m → s.transactions.get? n = some tx → s.transactions.get? m = some other → tx.Apart other
  stored : ∀ headers ∈ s.acceptedDeliveries, (s.db.webhookEvents.get? (headers.key sha256)).isSome = true ∧
    (s.db.replays.get? (headers.body sha256)).isSome = true
  keys : ∀ key, (s.db.webhookEvents.get? key).isSome = true → ∃ headers ∈ s.acceptedDeliveries, headers.key sha256 = key
  bodies : ∀ body, (s.db.replays.get? body).isSome = true → ∃ headers ∈ s.acceptedDeliveries, headers.body sha256 = body
  distinct : s.acceptedDeliveries.Pairwise fun left right => ¬SameDelivery sha256 left right

end Invariant

section Preserved

variable {Work Ci : Type} {features : IntakeFeatures} {sha256 : String → String} {s : IntakeState Work Ci}

variable {n : Nat}

theorem otherHas_false {p : IntakeTx → Bool} (none : s.otherHas n p = false) {m : Nat} {other : IntakeTx}
    (ne : m ≠ n) (stored : s.transactions.get? m = some other) : p other = false := by
  cases held : p other with
  | false => rfl
  | true =>
    have present : s.otherHas n p = true := (Table.any_iff _ _).mpr ⟨m, other, stored, by simp [ne, held]⟩
    rw [none] at present
    cases present

variable {tx : IntakeTx}

-- A transaction takes a step of its own.
theorem IntakeInvariant.advance (inv : IntakeInvariant features sha256 s) (sound : tx.Sound features sha256 s.db s.acceptedDeliveries)
    (apart : ∀ m other, m ≠ n → s.transactions.get? m = some other → tx.Apart other) :
    IntakeInvariant features sha256 { s with transactions := s.transactions.set n tx } where
  sound := by
    intro m other stored
    rcases Table.get?_set_cases stored with ⟨_, rfl⟩ | ⟨_, stored⟩
    · exact sound
    · exact inv.sound m other stored
  apart := by
    intro m k first second ne stored stored'
    rcases Table.get?_set_cases stored with ⟨rfl, rfl⟩ | ⟨away, kept⟩
    · rw [Table.get?_set_of_ne _ _ _ (Ne.symm ne)] at stored'
      exact apart k second (Ne.symm ne) stored'
    · rcases Table.get?_set_cases stored' with ⟨rfl, rfl⟩ | ⟨_, kept'⟩
      · exact (apart m first away kept).symm
      · exact inv.apart m k first second ne kept kept'
  stored := inv.stored
  keys := inv.keys
  bodies := inv.bodies
  distinct := inv.distinct

theorem IntakeInvariant.erase (inv : IntakeInvariant features sha256 s) (n : Nat) :
    IntakeInvariant features sha256 { s with transactions := s.transactions.erase n } where
  sound := by
    intro m tx stored
    exact inv.sound m tx (Table.get?_erase_cases stored).2
  apart := by
    intro m k first second ne stored stored'
    exact inv.apart m k first second ne (Table.get?_erase_cases stored).2 (Table.get?_erase_cases stored').2
  stored := inv.stored
  keys := inv.keys
  bodies := inv.bodies
  distinct := inv.distinct

-- What a step leaves pending or locked was so before.
theorem apart_of_kept (inv : IntakeInvariant features sha256 s) {tx tx' : IntakeTx}
    (stored : s.transactions.get? n = some tx) (keys : ∀ key, tx'.pendingKey? = some key → tx.pendingKey? = some key)
    (bodies : ∀ body, tx'.pendingBody? = some body → tx.pendingBody? = some body) (readings : tx'.readings = tx.readings) :
    ∀ m other, m ≠ n → s.transactions.get? m = some other → tx'.Apart other := by
  intro m other ne stored'
  have apart := inv.apart n m tx other (Ne.symm ne) stored stored'
  refine ⟨fun key here => apart.keys key (keys key here), fun body here => apart.bodies body (bodies body here), ?_⟩
  intro resourceKey here
  exact apart.locks resourceKey (by rwa [IntakeTx.holds, readings] at here)

-- A phase in which no unique key is pending and nothing is written.
def IntakePhase.IsQuiet (tx : IntakeTx) (accepted : List WebhookHeaders) (sha256 : String → String) : IntakePhase → Prop
  | .locking _ => True
  | .duplicate _ => ∃ headers command, tx.job = .delivery headers command ∧
      ∃ first ∈ accepted, SameDelivery sha256 first headers
  | .inserted .. | .accepted .. | .written .. => False

theorem quiet_pending {accepted : List WebhookHeaders} (quiet : tx.phase.IsQuiet tx accepted sha256) :
    tx.pendingKey? = none ∧ tx.pendingBody? = none := by
  unfold IntakeTx.pendingKey? IntakeTx.pendingBody?
  cases phase : tx.phase with
  | locking | duplicate => exact ⟨rfl, rfl⟩
  | inserted | accepted | written => rw [phase] at quiet; exact quiet.elim

theorem quiet_sound {db : IntakeDb Work Ci} {accepted : List WebhookHeaders} (quiet : tx.phase.IsQuiet tx accepted sha256)
    (locks : tx.job.lockKeys features = tx.readings.map IntakeReading.resourceKey ++ tx.waiting)
    (readings : ∀ reading ∈ tx.readings, reading.Current tx.job db.lifecycles) : tx.Sound features sha256 db accepted := by
  obtain ⟨noKey, noBody⟩ := quiet_pending quiet
  refine ⟨locks, readings, ?_, ?_, ?_, ?_, ?_, ?_, ?_⟩
  · intro key pending
    rw [noKey] at pending
    cases pending
  · intro body pending
    rw [noBody] at pending
    cases pending
  · rintro key event headers command _ (same | same | ⟨_, _, same⟩) <;> rw [same] at quiet <;> exact quiet.elim
  · intro lifecycle reviews headers command same
    rw [same] at quiet
    exact quiet.elim
  · intro row same
    rw [same] at quiet
    exact quiet
  · intro event key row reviews same
    rw [same] at quiet
    exact quiet.elim
  · intro event lifecycle reviews same
    rw [same] at quiet
    exact quiet.elim

-- A step to a quiet phase with no lock but those held before.
theorem IntakeInvariant.quiet (inv : IntakeInvariant features sha256 s) {tx tx' : IntakeTx}
    (stored : s.transactions.get? n = some tx) (quiet : tx'.phase.IsQuiet tx' s.acceptedDeliveries sha256)
    (locks : tx'.job.lockKeys features = tx'.readings.map IntakeReading.resourceKey ++ tx'.waiting)
    (job : tx'.job = tx.job) (readings : tx'.readings = tx.readings) :
    IntakeInvariant features sha256 { s with transactions := s.transactions.set n tx' } := by
  obtain ⟨noKey, noBody⟩ := quiet_pending quiet
  refine inv.advance (quiet_sound quiet locks ?_) (apart_of_kept inv stored ?_ ?_ readings)
  · rw [job, readings]
    exact (inv.sound n tx stored).readings
  · intro key pending
    rw [noKey] at pending
    cases pending
  · intro body pending
    rw [noBody] at pending
    cases pending

theorem begin_invariant (inv : IntakeInvariant features sha256 s) (n : Nat) (job : IntakeJob) (id : String) :
    IntakeInvariant features sha256
      { s with transactions := s.transactions.set n { job, id, phase := .locking (job.lockKeys features) } } := by
  refine inv.advance (quiet_sound trivial rfl ?_) ?_
  · intro reading listed
    cases listed
  · intro m other _ _
    refine ⟨?_, ?_, ?_⟩
    · intro key pending
      cases pending
    · intro body pending
      cases pending
    · intro resourceKey held
      cases held

variable {t : IntakeState Work Ci}

theorem lock_invariant (inv : IntakeInvariant features sha256 s) {resourceKey : String}
    {rest : List String} {awaiting : Option Bool} (stored : s.transactions.get? n = some tx)
    (phase : tx.phase = .locking (resourceKey :: rest)) (moved : lockStep s n tx resourceKey rest awaiting = some t) :
    IntakeInvariant features sha256 t := by
  have sound := inv.sound n tx stored
  unfold lockStep at moved
  split at moved
  · cases moved
  · next unlocked =>
    obtain rfl := Option.some.inj moved
    refine inv.advance (quiet_sound trivial ?_ ?_) ?_
    · have locks := sound.locks
      simp only [IntakeTx.waiting, phase] at locks
      simp [IntakeTx.waiting, locks]
    · intro reading listed
      rcases List.mem_append.mp listed with before | last
      · exact sound.readings reading before
      · obtain rfl := List.mem_singleton.mp last
        exact ⟨rfl, rfl⟩
    · intro m other ne stored'
      refine ⟨?_, ?_, ?_⟩
      · intro key pending
        cases pending
      · intro body pending
        cases pending
      · intro key held
        simp only [IntakeTx.holds, List.any_append, List.any_cons, List.any_nil, Bool.or_false, Bool.or_eq_true,
          decide_eq_true_eq] at held
        rcases held with before | rfl
        · exact (inv.apart n m tx other (Ne.symm ne) stored stored').locks key before
        · exact otherHas_false (by simpa using unlocked) ne stored'

theorem insertEvent_invariant (inv : IntakeInvariant features sha256 s) {headers : WebhookHeaders}
    {command : IntakeCommand} {seed : Bool} (stored : s.transactions.get? n = some tx)
    (phase : tx.phase = .locking []) (job : tx.job = .delivery headers command)
    (moved : insertEventStep features sha256 s n tx headers command seed = some t) : IntakeInvariant features sha256 t := by
  have sound := inv.sound n tx stored
  have locks : tx.job.lockKeys features = tx.readings.map IntakeReading.resourceKey := by
    simpa [IntakeTx.waiting, phase] using sound.locks
  unfold insertEventStep at moved
  simp only at moved
  split at moved
  · next known =>
    obtain rfl := Option.some.inj moved
    refine inv.quiet stored ?_ (by simpa [IntakeTx.waiting] using locks) rfl rfl
    obtain ⟨first, listed, same⟩ := inv.keys _ known
    exact ⟨headers, command, job, first, listed, .inl same⟩
  · next fresh =>
    split at moved
    · cases moved
    · next free =>
      obtain rfl := Option.some.inj moved
      refine inv.advance ⟨?_, sound.readings, ?_, ?_, ?_, ?_, ?_, ?_, ?_⟩ ?_
      · simpa [IntakeTx.waiting] using locks
      · intro key pending
        obtain rfl := Option.some.inj pending
        exact ⟨by simpa using fresh, headers, command, job, rfl⟩
      · intro body pending
        cases pending
      · rintro key event headers' command' job' (same | same | ⟨_, _, same⟩)
        · rw [job] at job'
          cases job'
          cases same
          rfl
        · cases same
        · cases same
      · intro lifecycle reviews headers command same
        cases same
      · intro row same
        cases same
      · intro event key row reviews same
        cases same
      · intro event lifecycle reviews same
        cases same
      · intro m other ne stored'
        refine ⟨?_, ?_, (inv.apart n m tx other (Ne.symm ne) stored stored').locks⟩
        · intro key pending there
          obtain rfl := Option.some.inj pending
          have none := otherHas_false (by simpa using free) ne stored'
          simp [there] at none
        · intro body pending
          cases pending

theorem insertReplay_invariant (inv : IntakeInvariant features sha256 s) {headers : WebhookHeaders}
    {command : IntakeCommand} {key : String} {event : WebhookEvent}
    (stored : s.transactions.get? n = some tx) (phase : tx.phase = .inserted key event)
    (job : tx.job = .delivery headers command) (moved : insertReplayStep sha256 s n tx headers key event = some t) :
    IntakeInvariant features sha256 t := by
  have sound := inv.sound n tx stored
  have locks : tx.job.lockKeys features = tx.readings.map IntakeReading.resourceKey := by
    simpa [IntakeTx.waiting, phase] using sound.locks
  have pendingKey : tx.pendingKey? = some key := by simp [IntakeTx.pendingKey?, phase]
  have body : event.bodySha256 = (webhookEventKeys sha256 headers).bodySha256 :=
    sound.events key event headers command job (.inl phase)
  unfold insertReplayStep at moved
  simp only at moved
  split at moved
  · next known =>
    obtain rfl := Option.some.inj moved
    refine inv.quiet stored ?_ (by simpa [IntakeTx.waiting] using locks) rfl rfl
    obtain ⟨first, listed, same⟩ := inv.bodies _ known
    exact ⟨headers, command, job, first, listed, .inr same⟩
  · next fresh =>
    split at moved
    · cases moved
    · next free =>
      obtain rfl := Option.some.inj moved
      refine inv.advance ⟨?_, sound.readings, ?_, ?_, ?_, ?_, ?_, ?_, ?_⟩ ?_
      · simpa [IntakeTx.waiting] using locks
      · intro key' pending
        obtain rfl := Option.some.inj pending
        exact sound.keys _ pendingKey
      · intro body' pending
        obtain rfl := Option.some.inj pending
        rw [body]
        simpa using fresh
      · rintro key' event' headers' command' job' (same | same | ⟨_, _, same⟩)
        · cases same
        · cases same
          exact sound.events key event headers' command' job' (.inl phase)
        · cases same
      · intro lifecycle reviews headers command same
        cases same
      · intro row same
        cases same
      · intro event key row reviews same
        cases same
      · intro event lifecycle reviews same
        cases same
      · intro m other ne stored'
        have apart := inv.apart n m tx other (Ne.symm ne) stored stored'
        refine ⟨?_, ?_, apart.locks⟩
        · intro key' pending
          obtain rfl := Option.some.inj pending
          exact apart.keys _ pendingKey
        · intro body' pending there
          obtain rfl := Option.some.inj pending
          have none := otherHas_false (by simpa using free) ne stored'
          rw [there, body] at none
          simp at none

theorem lifecycleWrite_holds {lifecycles : ReviewLifecycles} {eventId resourceKey : String}
    {row : ReviewLifecycle} (write : lifecycleWrite lifecycles tx eventId = some (some (resourceKey, row))) :
    tx.holds resourceKey = true := by
  unfold lifecycleWrite at write
  split at write
  · next observation reading rest _ readings =>
    split at write
    · cases write
    · split at write
      · cases write
        simp [IntakeTx.holds, readings]
      · cases write
  · cases write

variable {reviews : List CreatedReview}

theorem write_invariant (inv : IntakeInvariant features sha256 s) {event : Option (String × WebhookEvent)}
    (stored : s.transactions.get? n = some tx) (noLocks : tx.waiting = [])
    (phase : (∃ key row headers command, event = some (key, row) ∧ tx.phase = .accepted key row ∧
        tx.job = .delivery headers command) ∨
      (event = none ∧ ∀ headers command, tx.job ≠ .delivery headers command))
    (moved : writeStep features s n tx event reviews = some t) : IntakeInvariant features sha256 t := by
  have sound := inv.sound n tx stored
  have locks : tx.job.lockKeys features = tx.readings.map IntakeReading.resourceKey := by
    simpa [noLocks] using sound.locks
  unfold writeStep at moved
  split at moved
  · next allowed =>
    split at moved
    · obtain rfl := Option.some.inj moved
      exact inv.erase n
    · next lifecycle write =>
      obtain rfl := Option.some.inj moved
      have keys : ∀ key, IntakeTx.pendingKey? { tx with phase := .written event lifecycle reviews } = some key →
          tx.pendingKey? = some key := by
        intro key pending
        rcases phase with ⟨_, row, _, _, rfl, accepted, _⟩ | ⟨rfl, _⟩
        · simpa [IntakeTx.pendingKey?, accepted] using pending
        · cases pending
      have bodies : ∀ body, IntakeTx.pendingBody? { tx with phase := .written event lifecycle reviews } = some body →
          tx.pendingBody? = some body := by
        intro body pending
        rcases phase with ⟨_, row, _, _, rfl, accepted, _⟩ | ⟨rfl, _⟩
        · simpa [IntakeTx.pendingBody?, accepted] using pending
        · cases pending
      refine inv.advance ⟨?_, sound.readings, ?_, ?_, ?_, ?_, ?_, ?_, ?_⟩ (apart_of_kept inv stored keys bodies rfl)
      · simpa [IntakeTx.waiting] using locks
      · intro key pending
        exact sound.keys key (keys key pending)
      · intro body pending
        exact sound.bodies body (bodies body pending)
      · rintro key row headers command job (same | same | ⟨_, _, same⟩)
        · cases same
        · cases same
        · cases same
          rcases phase with ⟨_, _, _, _, same, accepted, _⟩ | ⟨same, _⟩
          · cases same
            exact sound.events key row headers command job (.inr (.inl accepted))
          · cases same
      · intro lifecycle' reviews' headers command same
        cases same
        rcases phase with ⟨_, _, _, _, same, _, _⟩ | ⟨_, other⟩
        · cases same
        · exact other headers command
      · intro row same
        cases same
      · intro event' key row reviews' same
        cases same
        exact lifecycleWrite_holds write
      · intro event' lifecycle' reviews' same review listed
        cases same
        exact of_decide_eq_true (List.all_eq_true.mp allowed review listed)
  · cases moved

theorem observation_accepted_congr {lifecycles lifecycles' : ReviewLifecycles} {resourceKey : String}
    (same : lifecycles'.get? resourceKey = lifecycles.get? resourceKey) (observation : ReviewLifecycleObservation) :
    reviewLifecycleObservationAccepted lifecycles' resourceKey observation =
      reviewLifecycleObservationAccepted lifecycles resourceKey observation := by
  rw [Bool.eq_iff_iff, observation_accepted_iff, observation_accepted_iff, same]

-- A commit elsewhere leaves a transaction sound when it spares its keys and its locks.
theorem IntakeTx.Sound.transfer {db db' : IntakeDb Work Ci} {accepted accepted' : List WebhookHeaders}
    (sound : tx.Sound features sha256 db accepted)
    (keys : ∀ key, tx.pendingKey? = some key → db'.webhookEvents.get? key = db.webhookEvents.get? key)
    (bodies : ∀ body, tx.pendingBody? = some body → db'.replays.get? body = db.replays.get? body)
    (locks : ∀ resourceKey, tx.holds resourceKey = true →
      db'.lifecycles.get? resourceKey = db.lifecycles.get? resourceKey)
    (grown : accepted ⊆ accepted') : tx.Sound features sha256 db' accepted' where
  locks := sound.locks
  readings := by
    intro reading listed
    have held : tx.holds reading.resourceKey = true := List.any_eq_true.mpr ⟨reading, listed, by simp⟩
    obtain ⟨lifecycle, accepts⟩ := sound.readings reading listed
    refine ⟨?_, ?_⟩
    · rw [lifecycle, loadReviewLifecycle, loadReviewLifecycle, locks _ held]
    · rw [accepts]
      congr 1
      funext observation
      exact (observation_accepted_congr (locks _ held) observation).symm
  keys := by
    intro key pending
    rw [keys key pending]
    exact sound.keys key pending
  bodies := by
    intro body pending
    rw [bodies body pending]
    exact sound.bodies body pending
  events := sound.events
  unrecorded := sound.unrecorded
  duplicate := by
    intro row same
    obtain ⟨headers, command, job, first, listed, twin⟩ := sound.duplicate row same
    exact ⟨headers, command, job, first, grown listed, twin⟩
  lifecycle := sound.lifecycle
  reviews := sound.reviews

section Invariant

variable (inv : IntakeInvariant features sha256 s)
include inv

theorem duplicate_commit_invariant (n : Nat) (row : WebhookDuplicate) :
    IntakeInvariant features sha256
      { s with db := { s.db with duplicates := s.db.duplicates ++ [row] }, transactions := s.transactions.erase n } := by
  have erased := inv.erase n
  refine ⟨?_, erased.apart, inv.stored, inv.keys, inv.bodies, inv.distinct⟩
  intro m tx stored
  exact (erased.sound m tx stored).transfer (fun _ _ => rfl) (fun _ _ => rfl) (fun _ _ => rfl) (List.Subset.refl _)

variable {lifecycle : Option (String × ReviewLifecycle)}

-- The lifecycle that a commit writes is one whose lock it holds.
theorem lifecycles_of_commit {event : Option (String × WebhookEvent)}
    (stored : s.transactions.get? n = some tx) (phase : tx.phase = .written event lifecycle reviews) (work : Work) (ci : Ci)
    {resourceKey : String} (free : tx.holds resourceKey = false) :
    (commitWritten s.db event lifecycle reviews work ci).lifecycles.get? resourceKey =
      s.db.lifecycles.get? resourceKey := by
  cases lifecycle with
  | none => rfl
  | some write =>
    obtain ⟨key, row⟩ := write
    have held := (inv.sound n tx stored).lifecycle event key row reviews phase
    refine Table.get?_set_of_ne _ _ _ ?_
    intro same
    rw [same, held] at free
    cases free

theorem recorded_commit_invariant {key : String} {row : WebhookEvent}
    {headers : WebhookHeaders} {command : IntakeCommand} (stored : s.transactions.get? n = some tx)
    (phase : tx.phase = .written (some (key, row)) lifecycle reviews) (job : tx.job = .delivery headers command)
    (work : Work) (ci : Ci) :
    IntakeInvariant features sha256
      { db := commitWritten s.db (some (key, row)) lifecycle reviews work ci, transactions := s.transactions.erase n
        acceptedDeliveries := s.acceptedDeliveries ++ [headers] } := by
  have sound := inv.sound n tx stored
  have pendingKey : tx.pendingKey? = some key := by simp [IntakeTx.pendingKey?, phase]
  have pendingBody : tx.pendingBody? = some row.bodySha256 := by simp [IntakeTx.pendingBody?, phase]
  have body : row.bodySha256 = headers.body sha256 :=
    sound.events key row headers command job (.inr (.inr ⟨lifecycle, reviews, phase⟩))
  obtain ⟨freshKey, headers', command', job', named⟩ := sound.keys key pendingKey
  have freshBody := sound.bodies _ pendingBody
  rw [job] at job'
  cases job'
  have erased := inv.erase n
  refine ⟨?_, erased.apart, ?_, ?_, ?_, ?_⟩
  · intro m other stored'
    obtain ⟨ne, before⟩ := Table.get?_erase_cases stored'
    have apart := inv.apart n m tx other (Ne.symm ne) stored before
    refine (erased.sound m other stored').transfer ?_ ?_ ?_ (List.subset_append_left _ _)
    · intro key' pending
      refine Table.get?_set_of_ne _ _ _ ?_
      rintro rfl
      exact apart.keys _ pendingKey pending
    · intro body' pending
      refine Table.get?_set_of_ne _ _ _ ?_
      rintro rfl
      exact apart.bodies _ pendingBody pending
    · intro resourceKey held
      exact lifecycles_of_commit inv stored phase work ci (apart.symm.locks resourceKey held)
  · intro first listed
    refine (and_congr Table.isSome_set Table.isSome_set).mpr ?_
    rcases List.mem_append.mp listed with before | last
    · exact (inv.stored first before).imp .inr .inr
    · obtain rfl := List.mem_singleton.mp last
      exact ⟨.inl named.symm, .inl body.symm⟩
  · intro key' present
    rcases Table.isSome_set.mp present with same | present
    · exact ⟨headers, List.mem_append_right _ (List.mem_singleton_self _), (same.trans named).symm⟩
    · obtain ⟨first, listed, same⟩ := inv.keys key' present
      exact ⟨first, List.mem_append_left _ listed, same⟩
  · intro body' present
    rcases Table.isSome_set.mp present with same | present
    · exact ⟨headers, List.mem_append_right _ (List.mem_singleton_self _), (same.trans body).symm⟩
    · obtain ⟨first, listed, same⟩ := inv.bodies body' present
      exact ⟨first, List.mem_append_left _ listed, same⟩
  · refine List.pairwise_append.mpr ⟨inv.distinct, List.pairwise_singleton _ _, ?_⟩
    intro first listed last here
    obtain rfl := List.mem_singleton.mp here
    obtain ⟨keyed, replayed⟩ := inv.stored first listed
    rintro (same | same)
    · rw [same, ← named, freshKey] at keyed
      cases keyed
    · rw [same, ← body, freshBody] at replayed
      cases replayed

theorem unrecorded_commit_invariant
    (stored : s.transactions.get? n = some tx) (phase : tx.phase = .written none lifecycle reviews) (work : Work) (ci : Ci) :
    IntakeInvariant features sha256
      { s with db := commitWritten s.db none lifecycle reviews work ci, transactions := s.transactions.erase n } := by
  have erased := inv.erase n
  refine ⟨?_, erased.apart, inv.stored, inv.keys, inv.bodies, inv.distinct⟩
  intro m other stored'
  obtain ⟨ne, before⟩ := Table.get?_erase_cases stored'
  have apart := inv.apart n m tx other (Ne.symm ne) stored before
  refine (erased.sound m other stored').transfer (fun _ _ => rfl) (fun _ _ => rfl) ?_ (List.Subset.refl _)
  intro resourceKey held
  exact lifecycles_of_commit inv stored phase work ci (apart.symm.locks resourceKey held)

theorem commit_invariant {work : Work} {ci : Ci} (stored : s.transactions.get? n = some tx) (moved : commitStep s n tx work ci = some t) :
    IntakeInvariant features sha256 t := by
  have sound := inv.sound n tx stored
  unfold commitStep at moved
  split at moved
  · next row _ =>
    obtain rfl := Option.some.inj moved
    exact duplicate_commit_invariant inv n row
  · next event lifecycle reviews phase =>
    obtain rfl := Option.some.inj moved
    cases event with
    | some entry =>
      obtain ⟨key, row⟩ := entry
      obtain ⟨_, headers, command, job, _⟩ := sound.keys key (by simp [IntakeTx.pendingKey?, phase])
      rw [job]
      exact recorded_commit_invariant inv stored phase job work ci
    | none =>
      cases job : tx.job with
      | delivery headers command => exact absurd job (sound.unrecorded lifecycle reviews headers command phase)
      | staleHeadReplacement | pushFollowUp => exact unrecorded_commit_invariant inv stored phase work ci
  · cases moved
  · cases moved
  · cases moved

theorem intake_invariant {move : Nat × IntakeEvent Work Ci}
    (moved : intakeStep features sha256 s move = some t) : IntakeInvariant features sha256 t := by
  obtain ⟨n, event⟩ := move
  unfold intakeStep at moved
  simp only at moved
  split at moved
  · next job id _ =>
    split at moved
    · obtain rfl := Option.some.inj moved
      exact begin_invariant inv n job id
    · cases moved
  · cases moved
  · cases moved
  · next tx awaiting stored =>
    split at moved
    · next phase => exact lock_invariant inv stored phase moved
    · cases moved
  · next tx seed stored =>
    split at moved
    · next phase job => exact insertEvent_invariant inv stored phase job moved
    · cases moved
  · next tx stored =>
    split at moved
    · next phase job => exact insertReplay_invariant inv stored phase job moved
    · cases moved
  · next tx reviews stored =>
    split at moved
    · next key row headers command phase job =>
      refine write_invariant inv stored (by simp [IntakeTx.waiting, phase]) (.inl ?_) moved
      exact ⟨key, row, headers, command, rfl, phase, job⟩
    · next resourceKey phase job =>
      refine write_invariant inv stored (by simp [IntakeTx.waiting, phase]) (.inr ⟨rfl, ?_⟩) moved
      intro headers command other
      rw [job] at other
      cases other
    · next resourceKey phase job =>
      refine write_invariant inv stored (by simp [IntakeTx.waiting, phase]) (.inr ⟨rfl, ?_⟩) moved
      intro headers command other
      rw [job] at other
      cases other
    · cases moved
  · next tx work ci stored => exact commit_invariant inv stored moved
  · obtain rfl := Option.some.inj moved
    exact inv.erase n

end Invariant

theorem start_intake_invariant (lifecycles : ReviewLifecycles) (work : Work) (ci : Ci) :
    IntakeInvariant features sha256 (startIntake lifecycles work ci) := by
  refine ⟨?_, ?_, ?_, ?_, ?_, List.Pairwise.nil⟩
  · intro n tx stored
    cases stored
  · intro n m tx other _ stored
    cases stored
  · intro headers listed
    cases listed
  · intro key present
    cases present
  · intro body present
    cases present

theorem reached_intake_invariant {lifecycles : ReviewLifecycles} {work : Work} {ci : Ci}
    {allowed : IntakeState Work Ci → Nat × IntakeEvent Work Ci → Prop}
    (reached : Reaches (intakeStep features sha256) allowed (startIntake lifecycles work ci) t) :
    IntakeInvariant features sha256 t :=
  reached.invariant _ (start_intake_invariant lifecycles work ci) fun _ _ _ inv _ moved => intake_invariant inv moved

-- Only a commit changes the committed tables.
theorem step_db {event : IntakeEvent Work Ci} (moved : intakeStep features sha256 s (n, event) = some t) :
    (t.db = s.db ∧ t.acceptedDeliveries = s.acceptedDeliveries) ∨
      ∃ tx work ci, s.transactions.get? n = some tx ∧ event = .commit work ci ∧ commitStep s n tx work ci = some t := by
  unfold intakeStep at moved
  simp only at moved
  split at moved
  · split at moved
    · obtain rfl := Option.some.inj moved
      exact .inl ⟨rfl, rfl⟩
    · cases moved
  · cases moved
  · cases moved
  · split at moved
    · unfold lockStep at moved
      split at moved
      · cases moved
      · obtain rfl := Option.some.inj moved
        exact .inl ⟨rfl, rfl⟩
    · cases moved
  · split at moved
    · unfold insertEventStep at moved
      simp only at moved
      split at moved
      · obtain rfl := Option.some.inj moved
        exact .inl ⟨rfl, rfl⟩
      · split at moved
        · cases moved
        · obtain rfl := Option.some.inj moved
          exact .inl ⟨rfl, rfl⟩
    · cases moved
  · split at moved
    · unfold insertReplayStep at moved
      simp only at moved
      split at moved
      · obtain rfl := Option.some.inj moved
        exact .inl ⟨rfl, rfl⟩
      · split at moved
        · cases moved
        · obtain rfl := Option.some.inj moved
          exact .inl ⟨rfl, rfl⟩
    · cases moved
  · have written {tx : IntakeTx} {entry : Option (String × WebhookEvent)} {reviews : List CreatedReview}
        (wrote : writeStep features s n tx entry reviews = some t) :
        t.db = s.db ∧ t.acceptedDeliveries = s.acceptedDeliveries := by
      unfold writeStep at wrote
      split at wrote
      · split at wrote
        · obtain rfl := Option.some.inj wrote
          exact ⟨rfl, rfl⟩
        · obtain rfl := Option.some.inj wrote
          exact ⟨rfl, rfl⟩
      · cases wrote
    split at moved
    · exact .inl (written moved)
    · exact .inl (written moved)
    · exact .inl (written moved)
    · cases moved
  · next tx work ci stored => exact .inr ⟨tx, work, ci, stored, rfl, moved⟩
  · obtain rfl := Option.some.inj moved
    exact .inl ⟨rfl, rfl⟩

end Preserved
end PrAgent
