import PrAgent.WebhookIntakeInvariant
set_option autoImplicit false

namespace PrAgent

section Admission

variable {features : IntakeFeatures}

variable {readings : List IntakeReading}

theorem findSome?_refused (none : (readings.findSome? IntakeReading.refused).isNone = true)
    {reading : IntakeReading} (listed : reading ∈ readings) : reading.refused = .none :=
  List.findSome?_eq_none_iff.mp (Option.isNone_iff_eq_none.mp none) reading listed

theorem reading_of_key {resourceKey : String} (locked : [resourceKey] = readings.map IntakeReading.resourceKey) :
    ∃ reading ∈ readings, reading.resourceKey = resourceKey := by
  have listed : resourceKey ∈ readings.map IntakeReading.resourceKey := by rw [← locked]; exact List.mem_singleton_self _
  exact List.mem_map.mp listed

-- A plan that is carried out with a review in it was read for an open pull request.
theorem admittedPlan_open {plan : AutomatedPrIntakePlan}
    (review : (admittedPlan plan readings).review = some .review ∨ .reviewSupersede ∈ (admittedPlan plan readings).kinds) :
    plan.readsLifecycle = true ∧ ∀ reading ∈ readings, reading.refused = none := by
  unfold admittedPlan at review
  split at review
  · rcases review with same | listed
    · cases same
    · simp [AutomatedPrIntakePlan.refuseReview, AutomatedPrIntakeKind.isReview] at listed
  · next unrefused =>
    refine ⟨?_, ?_⟩
    · unfold AutomatedPrIntakePlan.readsLifecycle
      rcases review with same | listed
      · rw [same]
        rfl
      · have reads : plan.kinds.any AutomatedPrIntakeKind.isReview = true := List.any_eq_true.mpr ⟨_, listed, rfl⟩
        rw [reads, Bool.or_true]
    · intro reading listed
      by_contra refused
      refine unrefused (List.any_eq_true.mpr ⟨reading, listed, ?_⟩)
      exact Option.isSome_iff_ne_none.mpr refused

-- Every path creates a review only for a pull request that it read as open, or as never closed, behind its lock.
theorem allowed_open {job : IntakeJob} (locked : job.lockKeys features = readings.map IntakeReading.resourceKey) {review : CreatedReview}
    (allowed : review ∈ allowedReviews features job readings) :
    ∃ reading ∈ readings, reading.resourceKey = review.resourceKey ∧ reading.refused = none := by
  have single {resourceKey : String} {path : ReviewPath} (same : review = { resourceKey, path })
      (keys : [resourceKey] = readings.map IntakeReading.resourceKey)
      (none : (readings.findSome? IntakeReading.refused).isNone = true) :
      ∃ reading ∈ readings, reading.resourceKey = review.resourceKey ∧ reading.refused = .none := by
    obtain ⟨reading, listed, named⟩ := reading_of_key keys
    exact ⟨reading, listed, by rw [named, same], findSome?_refused none listed⟩
  cases job with
  | delivery headers command =>
    cases command with
    | pullRequest intake =>
      have named : review.resourceKey = intake.resourceKey ∧
          ((admittedPlan (intake.plan features) readings).review = some .review ∨
            .reviewSupersede ∈ (admittedPlan (intake.plan features) readings).kinds) := by
        rcases List.mem_append.mp allowed with opened | pushed
        · split at opened
          · next admits => exact ⟨by rw [List.mem_singleton.mp opened], .inl admits⟩
          · cases opened
        · split at pushed
          · next admits => exact ⟨by rw [List.mem_singleton.mp pushed], .inr admits⟩
          · cases pushed
      obtain ⟨reads, unrefused⟩ := admittedPlan_open named.2
      have keys : [intake.resourceKey] = readings.map IntakeReading.resourceKey := by
        rw [← locked, IntakeJob.lockKeys, if_pos (.inr (.inr reads))]
      obtain ⟨reading, listed, same⟩ := reading_of_key keys
      exact ⟨reading, listed, same.trans named.1.symm, unrefused reading listed⟩
    | reviewApproved resourceKeys workflowRun =>
      obtain ⟨reading, admitted, rfl⟩ := List.mem_map.mp allowed
      obtain ⟨listed, admits⟩ := List.mem_filter.mp admitted
      have unrefused := (Bool.and_eq_true_iff.mp admits).1
      exact ⟨reading, listed, rfl, Option.isNone_iff_eq_none.mp unrefused⟩
    | slash command resourceKey =>
      simp only [allowedReviews] at allowed
      split at allowed
      · next condition =>
        refine single (List.mem_singleton.mp allowed) ?_ condition.2
        rw [← locked, IntakeJob.lockKeys, if_pos condition.1]
      · cases allowed
    | ignored | ciRefresh | ciState => cases allowed
  | staleHeadReplacement resourceKey =>
    simp only [allowedReviews] at allowed
    split at allowed
    · next none => exact single (List.mem_singleton.mp allowed) locked none
    · cases allowed
  | pushFollowUp resourceKey =>
    simp only [allowedReviews] at allowed
    split at allowed
    · next none => exact single (List.mem_singleton.mp allowed) locked none
    · cases allowed

end Admission

section Runs

variable {Work Ci : Type} {features : IntakeFeatures} {sha256 : String → String} {s : IntakeState Work Ci}

def IsClosed (lifecycles : ReviewLifecycles) (resourceKey : String) : Prop :=
  loadReviewLifecycle lifecycles resourceKey = some .closed ∨ loadReviewLifecycle lifecycles resourceKey = some .merged

theorem written_open (inv : IntakeInvariant features sha256 s) {n : Nat} {tx : IntakeTx}
    {event : Option (String × WebhookEvent)} {lifecycle : Option (String × ReviewLifecycle)} {reviews : List CreatedReview}
    (stored : s.transactions.get? n = some tx) (phase : tx.phase = .written event lifecycle reviews)
    {review : CreatedReview} (listed : review ∈ reviews) : ¬IsClosed s.db.lifecycles review.resourceKey := by
  have sound := inv.sound n tx stored
  have locked : tx.job.lockKeys features = tx.readings.map IntakeReading.resourceKey := by
    simpa [IntakeTx.waiting, phase] using sound.locks
  obtain ⟨reading, read, named, unrefused⟩ := allowed_open locked (sound.reviews event lifecycle reviews phase review listed)
  have current := (sound.readings reading read).1
  rw [named] at current
  rintro (closed | merged)
  · rw [closed] at current
    simp [IntakeReading.refused, current] at unrefused
  · rw [merged] at current
    simp [IntakeReading.refused, current] at unrefused

-- The reviews that a commit adds are those its transaction wrote.
theorem commit_reviews {n : Nat} {tx : IntakeTx} {work : Work} {ci : Ci} {t : IntakeState Work Ci}
    (moved : commitStep s n tx work ci = some t) :
    t.db.reviews = s.db.reviews ∨ ∃ event lifecycle reviews, tx.phase = .written event lifecycle reviews ∧
      t.db.reviews = s.db.reviews ++ reviews := by
  unfold commitStep at moved
  split at moved
  · obtain rfl := Option.some.inj moved
    exact .inl rfl
  · next event lifecycle reviews phase =>
    obtain rfl := Option.some.inj moved
    exact .inr ⟨event, lifecycle, reviews, phase, rfl⟩
  all_goals cases moved

variable (features sha256)

-- Neither a transaction that waits for its commit nor the commit itself creates a review of a closed pull request.
structure NoReviewWhileClosed (s : IntakeState Work Ci) : Prop where
  pending : ∀ n tx event lifecycle reviews, s.transactions.get? n = some tx →
    tx.phase = .written event lifecycle reviews → ∀ review ∈ reviews, ¬IsClosed s.db.lifecycles review.resourceKey
  committed : ∀ n event t, intakeStep features sha256 s (n, event) = some t →
    ∃ created, t.db.reviews = s.db.reviews ++ created ∧
      ∀ review ∈ created, ¬IsClosed s.db.lifecycles review.resourceKey

-- Any order of the observations of a pull request that has no row yet stores the last of them.
def ObservationsConverge (lifecycles : ReviewLifecycles) (resourceKey : String) : Prop :=
  ∀ history : List ObservedEvent, NoneAfterMerged (history.map Prod.fst) →
    (storedObservation (recordObservations lifecycles resourceKey history) resourceKey).map
        ReviewLifecycleObservation.position = (positions history).maximum ∧
      ∀ history', history.Perm history' →
        storedObservation (recordObservations lifecycles resourceKey history') resourceKey =
          storedObservation (recordObservations lifecycles resourceKey history) resourceKey

theorem review_lifecycle_converges :
    (∀ lifecycles resourceKey, lifecycles.get? resourceKey = none → ObservationsConverge lifecycles resourceKey) ∧
      (∀ lifecycles resourceKey observation webhookEventId,
        reviewLifecycleObservationAccepted lifecycles resourceKey observation =
          (recordReviewLifecycleObservation lifecycles resourceKey observation webhookEventId).1) ∧
      ∀ (lifecycles : ReviewLifecycles) (work : Work) (ci : Ci) (s : IntakeState Work Ci),
        Reaches (intakeStep features sha256) (fun _ _ => True) (startIntake lifecycles work ci) s →
          NoReviewWhileClosed features sha256 s := by
  refine ⟨?_, ?_, ?_⟩
  · intro lifecycles resourceKey fresh history none
    exact ⟨stored_maximum fresh history none, fun history' same => stored_perm fresh none same⟩
  · intro lifecycles resourceKey observation webhookEventId
    rw [Bool.eq_iff_iff, observation_accepted_iff, recorded_iff]
  · intro lifecycles work ci s reached
    have inv := reached_intake_invariant reached
    refine ⟨fun n tx event lifecycle reviews stored phase review listed => written_open inv stored phase listed, ?_⟩
    intro n event t moved
    rcases step_db moved with ⟨same, _⟩ | ⟨tx, work', ci', stored, _, committed⟩
    · refine ⟨[], by rw [same, List.append_nil], ?_⟩
      intro review listed
      cases listed
    · rcases commit_reviews committed with same | ⟨entry, lifecycle, reviews, phase, added⟩
      · refine ⟨[], by rw [same, List.append_nil], ?_⟩
        intro review listed
        cases listed
      · exact ⟨reviews, added, fun review listed => written_open inv stored phase listed⟩

end Runs
end PrAgent
