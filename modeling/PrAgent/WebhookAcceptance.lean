import PrAgent.WebhookIntakeInvariant
set_option autoImplicit false

namespace PrAgent

section Keys

variable {sha256 : String → String}

theorem headers_key_eq_iff (left right : WebhookHeaders) :
    left.key sha256 = right.key sha256 ↔ (∃ id, left.deliveryId = some id ∧ right.deliveryId = some id) ∨
      (left.deliveryId = none ∧ right.deliveryId = none ∧ sha256 left.rawBody = sha256 right.rawBody) := by
  have apart (id body : String) : "delivery:" ++ id ≠ "body:" ++ body := by
    intro same
    have letters := congrArg String.toList same
    simp [String.toList_append] at letters
  unfold WebhookHeaders.key webhookEventKeys
  cases left.deliveryId with
  | none =>
    cases right.deliveryId with
    | none => simp
    | some id => simpa using Ne.symm (apart id (sha256 left.rawBody))
  | some id =>
    cases right.deliveryId with
    | none => simpa using apart id (sha256 right.rawBody)
    | some id' =>
      simp only [String.append_right_inj, Option.some.injEq, exists_eq_left', reduceCtorEq, false_and, or_false]
      exact eq_comm

theorem sameDelivery_iff (left right : WebhookHeaders) :
    SameDelivery sha256 left right ↔ (∃ id, left.deliveryId = some id ∧ right.deliveryId = some id) ∨
      sha256 left.rawBody = sha256 right.rawBody := by
  rw [SameDelivery, headers_key_eq_iff]
  constructor
  · rintro ((same | ⟨_, _, same⟩) | same)
    · exact .inl same
    · exact .inr same
    · exact .inr same
  · rintro (same | same)
    · exact .inl (.inl same)
    · exact .inr same

end Keys

section Acceptance

variable {Work Ci : Type} (features : IntakeFeatures) (sha256 : String → String)

-- Whether the tables make a delivery a duplicate.
def KnownDelivery (db : IntakeDb Work Ci) (headers : WebhookHeaders) : Prop :=
  (db.webhookEvents.get? (headers.key sha256)).isSome = true ∨ (db.replays.get? (headers.body sha256)).isSome = true

-- The work items, the lifecycles and the CI state are the same.
structure SameWork (before after : IntakeDb Work Ci) : Prop where
  reviews : after.reviews = before.reviews
  work : after.work = before.work
  lifecycles : after.lifecycles = before.lifecycles
  ci : after.ci = before.ci

structure AcceptedOnce (s : IntakeState Work Ci) : Prop where
  deliveries : ∀ id, (s.acceptedDeliveries.filter fun headers => headers.deliveryId = some id).length ≤ 1
  bodies : ∀ body, (s.acceptedDeliveries.filter fun headers => sha256 headers.rawBody = body).length ≤ 1
  -- what a delivery does whose id or body was accepted before
  duplicate : ∀ n tx headers command, s.transactions.get? n = some tx → tx.job = .delivery headers command →
    (∃ first ∈ s.acceptedDeliveries, SameDelivery sha256 first headers) →
    ∀ event t, intakeStep features sha256 s (n, event) = some t → SameWork s.db t.db
  rollback : ∀ n t, intakeStep features sha256 s (n, .rollback) = some t →
    t.db = s.db ∧ t.transactions.get? n = none ∧ t.acceptedDeliveries = s.acceptedDeliveries
  -- a delivery is a duplicate for an accepted one, and for nothing else
  known : ∀ headers, KnownDelivery sha256 s.db headers ↔ ∃ first ∈ s.acceptedDeliveries, SameDelivery sha256 first headers
  treated : ∀ n tx headers command row, s.transactions.get? n = some tx → tx.job = .delivery headers command →
    tx.phase = .duplicate row → ∃ first ∈ s.acceptedDeliveries, SameDelivery sha256 first headers

variable {features sha256} {s : IntakeState Work Ci}

-- Two elements that pass a test are two that the list keeps apart.
theorem filter_length_le_one {α : Type} {related : α → α → Prop} {test : α → Bool} {list : List α}
    (apart : list.Pairwise fun left right => ¬related left right)
    (twins : ∀ left right, test left = true → test right = true → related left right) :
    (list.filter test).length ≤ 1 := by
  have kept := apart.filter test
  cases passed : list.filter test with
  | nil => exact Nat.zero_le 1
  | cons first rest =>
    cases rest with
    | nil => exact Nat.le_refl 1
    | cons second rest =>
      rw [passed] at kept
      have one : first ∈ list.filter test := by rw [passed]; exact List.mem_cons_self
      have two : second ∈ list.filter test := by rw [passed]; simp
      have related := twins first second (List.mem_filter.mp one).2 (List.mem_filter.mp two).2
      exact absurd related ((List.pairwise_cons.mp kept).1 second List.mem_cons_self)

-- A delivery that comes to be accepted has no twin among those accepted before.
theorem no_twin (inv : IntakeInvariant features sha256 s) {n : Nat} {tx : IntakeTx} {headers : WebhookHeaders}
    {command : IntakeCommand} {body : String} (stored : s.transactions.get? n = some tx)
    (job : tx.job = .delivery headers command) (pendingBody : tx.pendingBody? = some body) :
    ¬∃ first ∈ s.acceptedDeliveries, SameDelivery sha256 first headers := by
  have sound := inv.sound n tx stored
  have freshBody := sound.bodies body pendingBody
  obtain ⟨key, event, pendingKey, same, phase⟩ : ∃ key event, tx.pendingKey? = some key ∧ event.bodySha256 = body ∧
      (tx.phase = .inserted key event ∨ tx.phase = .accepted key event ∨
        ∃ lifecycle reviews, tx.phase = .written (some (key, event)) lifecycle reviews) := by
    unfold IntakeTx.pendingBody? at pendingBody
    split at pendingBody
    · next key event phase =>
      exact ⟨key, event, by simp [IntakeTx.pendingKey?, phase], Option.some.inj pendingBody, .inr (.inl phase)⟩
    · next key event lifecycle reviews phase =>
      exact ⟨key, event, by simp [IntakeTx.pendingKey?, phase], Option.some.inj pendingBody,
        .inr (.inr ⟨lifecycle, reviews, phase⟩)⟩
    all_goals cases pendingBody
  obtain ⟨freshKey, headers', command', job', named⟩ := sound.keys key pendingKey
  have hashed := sound.events key event headers command job phase
  rw [job] at job'
  cases job'
  rintro ⟨first, listed, twin | twin⟩
  · have present := (inv.stored first listed).1
    rw [twin, ← named, freshKey] at present
    cases present
  · have present := (inv.stored first listed).2
    rw [twin, ← hashed, same, freshBody] at present
    cases present

theorem duplicate_keeps (inv : IntakeInvariant features sha256 s) {n : Nat} {tx : IntakeTx} {headers : WebhookHeaders}
    {command : IntakeCommand} (stored : s.transactions.get? n = some tx) (job : tx.job = .delivery headers command)
    (twin : ∃ first ∈ s.acceptedDeliveries, SameDelivery sha256 first headers) {event : IntakeEvent Work Ci}
    {t : IntakeState Work Ci} (moved : intakeStep features sha256 s (n, event) = some t) : SameWork s.db t.db := by
  rcases step_db moved with ⟨same, _⟩ | ⟨tx', work, ci, stored', _, committed⟩
  · rw [same]
    exact ⟨rfl, rfl, rfl, rfl⟩
  · obtain rfl : tx = tx' := Option.some.inj (stored.symm.trans stored')
    unfold commitStep at committed
    split at committed
    · obtain rfl := Option.some.inj committed
      exact ⟨rfl, rfl, rfl, rfl⟩
    · next entry lifecycle reviews phase =>
      cases entry with
      | none => exact absurd job ((inv.sound n tx stored).unrecorded lifecycle reviews headers command phase)
      | some entry =>
        obtain ⟨key, row⟩ := entry
        have pendingBody : tx.pendingBody? = some row.bodySha256 := by rw [IntakeTx.pendingBody?, phase]
        exact absurd twin (no_twin inv stored job pendingBody)
    all_goals cases committed

theorem known_iff (inv : IntakeInvariant features sha256 s) (headers : WebhookHeaders) :
    KnownDelivery sha256 s.db headers ↔ ∃ first ∈ s.acceptedDeliveries, SameDelivery sha256 first headers := by
  constructor
  · rintro (present | present)
    · obtain ⟨first, listed, same⟩ := inv.keys _ present
      exact ⟨first, listed, .inl same⟩
    · obtain ⟨first, listed, same⟩ := inv.bodies _ present
      exact ⟨first, listed, .inr same⟩
  · rintro ⟨first, listed, same | same⟩
    · exact .inl (same ▸ (inv.stored first listed).1)
    · exact .inr (same ▸ (inv.stored first listed).2)

variable (features sha256)

theorem webhook_accepted_once (lifecycles : ReviewLifecycles) (work : Work) (ci : Ci) {s : IntakeState Work Ci}
    (reached : Reaches (intakeStep features sha256) (fun _ _ => True) (startIntake lifecycles work ci) s) :
    AcceptedOnce features sha256 s := by
  have inv := reached_intake_invariant reached
  refine ⟨?_, ?_, ?_, ?_, known_iff inv, ?_⟩
  · intro id
    refine filter_length_le_one inv.distinct ?_
    intro left right here there
    exact (sameDelivery_iff left right).mpr (.inl ⟨id, of_decide_eq_true here, of_decide_eq_true there⟩)
  · intro body
    refine filter_length_le_one inv.distinct ?_
    intro left right here there
    exact (sameDelivery_iff left right).mpr (.inr ((of_decide_eq_true here).trans (of_decide_eq_true there).symm))
  · intro n tx headers command stored job twin event t moved
    exact duplicate_keeps inv stored job twin moved
  · intro n t moved
    rcases step_db moved with ⟨same, accepted⟩ | ⟨_, _, _, _, other, _⟩
    · refine ⟨same, ?_, accepted⟩
      unfold intakeStep at moved
      simp only at moved
      cases stored : s.transactions.get? n with
      | none => simp [stored] at moved
      | some tx =>
        simp only [stored, Option.some.injEq] at moved
        rw [← moved, Table.get?_erase, if_pos rfl]
    · cases other
  · intro n tx headers command row stored job phase
    obtain ⟨headers', command', job', twin⟩ := (inv.sound n tx stored).duplicate row phase
    rw [job] at job'
    cases job'
    exact twin

-- A delivery whose first try rolls back, its redelivery, and a delivery of the same body under another id.
def reviewDelivery (id : String) : IntakeJob :=
  .delivery { delivery := some id, rawBody := "review" } (.slash "review" "owner/repo#1")

def redelivery : List (Nat × IntakeEvent Nat Unit) :=
  [(0, .begin (reviewDelivery "first") "e0"), (0, .lock none), (0, .insertEvent false),
    (1, .begin (reviewDelivery "first") "e1"), (0, .rollback), (1, .lock none), (1, .insertEvent false), (1, .insertReplay),
    (1, .write [{ resourceKey := "owner/repo#1", path := .slash }]), (1, .commit 1 ()),
    (2, .begin (reviewDelivery "second") "e2"), (2, .lock none), (2, .insertEvent false), (2, .insertReplay),
    (2, .commit 2 ())]

def automaticFeatures : IntakeFeatures := { review := .auto, reviewCadence := .once, describe := .off, verification := .off }

def redelivered : IntakeState Nat Unit :=
  runTo (intakeStep automaticFeatures id) (fun _ _ => decide True) redelivery (startIntake .empty 0 ())
    (startIntake .empty 0 ())

theorem redelivery_accepted_once :
    redelivered.acceptedDeliveries = [{ delivery := some "first", rawBody := "review" }] ∧ redelivered.db.work = 1 ∧
      redelivered.db.duplicates.length = 1 ∧ AcceptedOnce automaticFeatures id redelivered :=
  ⟨by decide +kernel, by decide +kernel, by decide +kernel,
    webhook_accepted_once automaticFeatures id .empty 0 () (reaches_runTo redelivery _ _ (by decide +kernel))⟩

end Acceptance
end PrAgent
