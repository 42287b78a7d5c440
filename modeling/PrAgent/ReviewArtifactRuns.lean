import PrAgent.ReviewArtifactInvariant
set_option autoImplicit false

namespace PrAgent

variable {reviewArtifactHash : ReviewArtifactEnvelope → Digest} {workItemId : WorkItemId}

section Steps

variable {db later : ArtifactDb} {event : ArtifactEvent}

theorem save_rows_cases (binding : ReviewArtifactBinding) (leaseEpoch : Option Nat) (value : Option ReviewArtifactEnvelope)
    (db : ArtifactDb) :
    (saveReviewArtifact reviewArtifactHash workItemId binding leaseEpoch value db).2.rows = db.rows ∨
      ∃ envelope, db.rows.get? envelope.logicalKey = none ∧ Supported reviewArtifactHash db.rows envelope ∧
        Inserted reviewArtifactHash db.rows envelope
          (saveReviewArtifact reviewArtifactHash workItemId binding leaseEpoch value db).2.rows := by
  unfold saveReviewArtifact
  cases value with
  | none => exact .inl rfl
  | some envelope =>
      by_cases own : envelope.binding = binding
      · simp only [ne_eq, own, not_true_eq_false, if_false]
        cases lockRunningReview workItemId db binding leaseEpoch with
        | error error => exact .inl rfl
        | ok locked =>
            cases saved : saveLocked reviewArtifactHash db.rows envelope with
            | error error => exact .inl rfl
            | ok outcome =>
                obtain ⟨result, rows⟩ := outcome
                rcases save_locked_cases saved with unchanged | ⟨fresh, supported, inserted⟩
                · exact .inl unchanged
                · exact .inr ⟨envelope, fresh, supported, inserted⟩
      · simp only [ne_eq, own, not_false_eq_true, if_true]
        exact .inl trivial

variable (reviewArtifactHash workItemId) in
theorem save_keeps_rest (binding : ReviewArtifactBinding) (leaseEpoch : Option Nat)
    (value : Option ReviewArtifactEnvelope) (db : ArtifactDb) :
    (saveReviewArtifact reviewArtifactHash workItemId binding leaseEpoch value db).2.toLeaseState = db.toLeaseState ∧
      (saveReviewArtifact reviewArtifactHash workItemId binding leaseEpoch value db).2.item = db.item := by
  unfold saveReviewArtifact
  cases value with
  | none => exact ⟨rfl, rfl⟩
  | some envelope =>
      by_cases own : envelope.binding = binding
      · simp only [ne_eq, own, not_true_eq_false, if_false]
        cases lockRunningReview workItemId db binding leaseEpoch with
        | error error => exact ⟨rfl, rfl⟩
        | ok locked =>
            cases saveLocked reviewArtifactHash db.rows envelope with
            | error error => exact ⟨rfl, rfl⟩
            | ok outcome => exact ⟨rfl, rfl⟩
      · simp only [ne_eq, own, not_false_eq_true, if_true, and_self]

theorem artifact_step_keeps (kept : ArtifactsKept reviewArtifactHash db.rows)
    (moved : artifactStep reviewArtifactHash workItemId db event = some later) :
    ArtifactsKept reviewArtifactHash later.rows ∧ Extends db.rows later.rows := by
  cases event with
  | elsewhere leases item =>
      obtain rfl := Option.some.inj moved
      exact ⟨kept, .refl _⟩
  | save binding leaseEpoch value =>
      obtain rfl := Option.some.inj moved
      rcases save_rows_cases binding leaseEpoch value db with unchanged | ⟨envelope, fresh, supported, inserted⟩
      · rw [unchanged]
        exact ⟨kept, .refl _⟩
      · exact ⟨kept_insert kept fresh supported inserted, inserted_extends fresh inserted⟩

theorem artifact_run_keeps (kept : ArtifactsKept reviewArtifactHash db.rows)
    (run : Reaches (artifactStep reviewArtifactHash workItemId) (fun _ _ => True) db later) :
    ArtifactsKept reviewArtifactHash later.rows ∧ Extends db.rows later.rows := by
  induction run with
  | start => exact ⟨kept, .refl _⟩
  | next _ _ moved ih =>
      obtain ⟨keptLater, extend⟩ := artifact_step_keeps ih.1 moved
      exact ⟨keptLater, ih.2.trans extend⟩

theorem kept_of_empty (empty : db.rows = Table.empty) : ArtifactsKept reviewArtifactHash db.rows := by
  refine ⟨?_, ?_⟩
  · intro key row stored
    rw [empty, Table.get?_empty] at stored
    cases stored
  · rw [empty]
    exact Nat.zero_le _

end Steps

section Chain

variable {rows : Table LogicalKey ArtifactRow}

theorem previous_decision (kept : ArtifactsKept reviewArtifactHash rows) {sequence : Nat}
    (stored : (rows.get? (.prepared (sequence + 1))).isSome = true) :
    (rows.get? (.prepared sequence)).isSome = true ∧ (rows.get? (.settled sequence)).isSome = true := by
  obtain ⟨row, found⟩ := Option.isSome_iff_exists.mp stored
  have keptRow := kept.each _ row found
  obtain ⟨prepared, kind, same⟩ := prepared_of_key keptRow.key_eq.symm
  obtain ⟨prior, ⟨settledRow, settled, _⟩, _⟩ := keptRow.supported.previous prepared kind (by omega)
  rw [same, Nat.add_sub_cancel] at settled
  obtain ⟨other, preparedRow, before, _⟩ := prepared_of_settled kept settled
  rw [before, settled]
  exact ⟨rfl, rfl⟩

-- The prepared decisions are those up to the last one, and each before it is settled.
theorem decisions_chain (kept : ArtifactsKept reviewArtifactHash rows) {last sequence : Nat}
    (stored : (rows.get? (.prepared last)).isSome = true) (before : sequence < last) :
    (rows.get? (.prepared sequence)).isSome = true ∧ (rows.get? (.settled sequence)).isSome = true := by
  induction last with
  | zero => omega
  | succ last ih =>
      have previous := previous_decision kept stored
      by_cases here : sequence = last
      · rw [here]
        exact previous
      · exact ih previous.1 (by omega)

end Chain

section Size

variable {least most : Nat} {allowed : Char → Bool}

theorem identity_bytes_le (identity : BoundedText allowed least most) : jsonStringBytes identity.text ≤ 2 + 6 * most := by
  have bytes := json_string_bytes_le identity.text
  have units := identity.le_most
  omega

theorem plain_bytes_le (identity : BoundedText allowed least most)
    (ascii : ∀ c, allowed c = true → c.toNat < 128)
    (plain : ∀ n < 128, allowed (Char.ofNat n) = true → jsonCharBytes (Char.ofNat n) = 1) :
    jsonStringBytes identity.text ≤ 2 + most := by
  have bytes := json_plain_bytes_le identity.text fun c listed =>
    plain_of_ascii ascii plain c (List.all_eq_true.mp identity.pattern c listed)
  have units := identity.le_most
  omega

theorem identifier_ascii (c : Char) (allowed : identifierChar c = true) : c.toNat < 128 := by
  have alphanum : c.isAlphanum = ((decide (c.val ≥ 65 ∧ c.val ≤ 90) || (decide (c.val ≥ 97) && decide (c.val ≤ 122))) ||
      (decide (c.val ≥ 48) && decide (c.val ≤ 57))) := rfl
  simp only [identifierChar, alphanum, Bool.or_eq_true,
    decide_eq_true_eq, Bool.and_eq_true, List.mem_cons, List.not_mem_nil, UInt32.le_iff_toNat_le, ge_iff_le] at allowed
  have val : c.toNat = c.val.toNat := rfl
  rcases allowed with ((⟨_, le⟩ | ⟨_, le⟩) | ⟨_, le⟩) | rfl | rfl | rfl | rfl | rfl | rfl | no
  · exact val ▸ lt_of_le_of_lt le (by decide)
  · exact val ▸ lt_of_le_of_lt le (by decide)
  · exact val ▸ lt_of_le_of_lt le (by decide)
  all_goals first | decide | cases no

theorem uuid_ascii (c : Char) (allowed : uuidChar c = true) : c.toNat < 128 := by
  simp only [uuidChar, Char.isDigit, Bool.or_eq_true, decide_eq_true_eq, Bool.and_eq_true, UInt32.le_iff_toNat_le,
    ge_iff_le, Char.le_def] at allowed
  have val : c.toNat = c.val.toNat := rfl
  rcases allowed with ((⟨_, le⟩ | ⟨_, le⟩) | ⟨_, le⟩) | rfl
  · exact val ▸ lt_of_le_of_lt le (by decide)
  · exact val ▸ lt_of_le_of_lt le (by decide)
  · exact val ▸ lt_of_le_of_lt le (by decide)
  · decide

theorem hex_ascii (c : Char) (allowed : hexDigit c = true) : c.toNat < 128 := by
  refine uuid_ascii c ?_
  unfold hexDigit at allowed
  rw [uuidChar, allowed]
  rfl

theorem identifier_bytes_le (identifier : Identifier) : jsonStringBytes identifier.text ≤ 130 :=
  plain_bytes_le identifier identifier_ascii (by decide +kernel)

theorem uuid_bytes_le (uuid : Uuid) : jsonStringBytes uuid.text ≤ 38 := plain_bytes_le uuid uuid_ascii (by decide +kernel)

theorem digest_bytes_le (digest : Digest) : jsonStringBytes digest.text ≤ 66 :=
  plain_bytes_le digest hex_ascii (by decide +kernel)

theorem safe_bytes_le (n : SafeNat) : decimalLength n.value ≤ 16 := by
  have safe := n.safe
  refine decimal_length_le (by omega) ?_
  unfold maxSafeNat at safe
  omega

-- The name of a resource takes what its owner and repository take, and a number.
theorem resource_key_bytes_le {binding : ReviewArtifactBinding}
    (named : binding.resourceKey.text = prResourceKey binding.owner.text binding.repo.text binding.prNumber.value) :
    jsonStringBytes binding.resourceKey.text ≤ 1220 := by
  have owner := identity_bytes_le binding.owner
  have repo := identity_bytes_le binding.repo
  have number := safe_bytes_le binding.prNumber
  have slash : jsonStringBytes "/" = 3 := by decide +kernel
  have hash : jsonStringBytes "#" = 3 := by decide +kernel
  have first := json_string_append binding.owner.text "/"
  have second := json_string_append (binding.owner.text ++ "/") binding.repo.text
  have third := json_string_append (binding.owner.text ++ "/" ++ binding.repo.text) "#"
  have fourth := json_string_append (binding.owner.text ++ "/" ++ binding.repo.text ++ "#")
    (Nat.repr binding.prNumber.value)
  rw [json_decimal_bytes] at fourth
  rw [named, prResourceKey]
  omega

theorem settled_key_bytes_le {sequence : Nat} (bounded : sequence ≤ 100000) :
    jsonStringBytes (LogicalKey.settled sequence).text ≤ 25 := by
  have digits : decimalLength sequence ≤ 6 := decimal_length_le (by omega) (by omega)
  have pathStart : jsonStringBytes "decision/" = 11 := by decide +kernel
  have pathEnd : jsonStringBytes "/settled" = 10 := by decide +kernel
  have first := json_string_append "decision/" (Nat.repr sequence)
  have second := json_string_append ("decision/" ++ Nat.repr sequence) "/settled"
  rw [json_decimal_bytes] at first
  rw [LogicalKey.text]
  omega

theorem outcome_bytes_le (outcome : SettlementOutcome) : jsonStringBytes outcome.text ≤ 11 := by
  cases outcome with
  | accepted => decide +kernel
  | recovered => decide +kernel
  | stopped => decide +kernel

theorem settled_bytes_le {binding : ReviewArtifactBinding}
    (named : binding.resourceKey.text = prResourceKey binding.owner.text binding.repo.text binding.prNumber.value)
    (prepared : PreparedPublication) (preparedHash : Digest) (settlement : PublicationSettlement) :
    (settledEnvelope binding prepared preparedHash settlement).encodedBytes ≤ reviewSettlementReserveBytes := by
  have fixed : jsonStringBytes "artifact" + jsonStringBytes "binding" + jsonStringBytes "contractVersion" +
      jsonStringBytes "review-3" + jsonStringBytes "logicalKey" + jsonStringBytes "order" +
      jsonStringBytes "schemaVersion" + jsonStringBytes "baseSha" + jsonStringBytes "headSha" +
      jsonStringBytes "inputFingerprint" + jsonStringBytes "installationId" + jsonStringBytes "mode" +
      jsonStringBytes "review" + jsonStringBytes "owner" + jsonStringBytes "prNumber" + jsonStringBytes "repo" +
      jsonStringBytes "resourceKey" + jsonStringBytes "workItemId" + jsonStringBytes "decisionId" +
      jsonStringBytes "kind" + jsonStringBytes "publication_settled" + jsonStringBytes "outcome" +
      jsonStringBytes "preparedHash" + jsonStringBytes "remote" + jsonStringBytes "sequence" +
      jsonStringBytes "githubId" + jsonStringBytes "operationKey" ≤ 350 := by decide +kernel
  have version : decimalLength 8 = 1 := by decide +kernel
  have base := identity_bytes_le binding.baseSha
  have head := identity_bytes_le binding.headSha
  have fingerprint := digest_bytes_le binding.inputFingerprint
  have installation := safe_bytes_le binding.installationId
  have owner := identity_bytes_le binding.owner
  have number := safe_bytes_le binding.prNumber
  have repo := identity_bytes_le binding.repo
  have resource := resource_key_bytes_le named
  have uuid := uuid_bytes_le binding.workItemId
  have decision := identifier_bytes_le prepared.decisionId
  have outcome := outcome_bytes_le settlement.outcome
  have hash := digest_bytes_le preparedHash
  have key := settled_key_bytes_le prepared.sequence_le
  have operation := identity_bytes_le prepared.operationKey
  have bounded := prepared.sequence_le
  have sequence : decimalLength prepared.sequence ≤ 6 := decimal_length_le (by omega) (by omega)
  have order : decimalLength (101 + prepared.sequence * 2) ≤ 6 := decimal_length_le (by omega) (by omega)
  simp only [ReviewArtifactEnvelope.encodedBytes, ReviewArtifactEnvelope.json, settledEnvelope, ReviewArtifact.json,
    ReviewArtifactBinding.json, ReviewArtifactEnvelope.order, ReviewArtifactEnvelope.logicalKey,
    ReviewArtifact.logicalKey, LogicalKey.order, ArtifactKind.text, Json.bytes, Json.fieldsBytes, List.cons_append,
    List.nil_append, reviewSettlementReserveBytes]
  cases settlement.githubId with
  | none =>
      simp only [Option.map_none, optionalField, List.nil_append, Json.fieldsBytes, Json.bytes]
      omega
  | some githubId =>
      have github := safe_bytes_le githubId
      simp only [Option.map_some, optionalField, SettledRemote.json, List.cons_append, List.nil_append, Json.fieldsBytes,
        Json.bytes]
      omega

end Size

-- The execution that holds the lease of a running review which was not cancelled, and whose binding is that of the row.
structure RightfulExecution (workItemId : WorkItemId) (db : ArtifactDb) (binding : ReviewArtifactBinding)
    (leaseEpoch : Nat) : Prop where
  safe : 0 < leaseEpoch ∧ leaseEpoch ≤ maxSafeNat
  held : db.held workItemId leaseEpoch = true
  running : ∃ item, db.item = some item ∧ item.status = .running ∧ item.cancelRequestedAt = none ∧
    item.executionEpoch = some leaseEpoch ∧ item.matchesBinding binding = true

section Settling

variable {db : ArtifactDb} {binding : ReviewArtifactBinding} {leaseEpoch : Nat} {rows : Table LogicalKey ArtifactRow}
  {prepared : PreparedPublication} {row : ArtifactRow}

theorem lock_rightful (rightful : RightfulExecution workItemId db binding leaseEpoch) :
    lockRunningReview workItemId db binding (some leaseEpoch) = .ok () := by
  obtain ⟨item, found, running, uncancelled, epoch, identity⟩ := rightful.running
  have safe := rightful.safe
  have inRange : ¬(leaseEpoch = 0 ∨ maxSafeNat < leaseEpoch) := by omega
  simp [lockRunningReview, inRange, rightful.held, found, running, uncancelled, epoch, identity]

theorem rightful_named (rightful : RightfulExecution workItemId db binding leaseEpoch) :
    binding.resourceKey.text = prResourceKey binding.owner.text binding.repo.text binding.prNumber.value := by
  obtain ⟨item, _, _, _, _, identity⟩ := rightful.running
  simp only [ReviewItemRow.matchesBinding, Bool.and_eq_true, decide_eq_true_eq] at identity
  obtain ⟨⟨⟨⟨⟨⟨_, resource⟩, owner⟩, repo⟩, number⟩, _⟩, _⟩ := identity
  rw [← resource, ← owner, ← repo, ← number]
  exact item.resourceKey_eq

theorem provided_of_stored (kept : ArtifactsKept reviewArtifactHash rows) {key : LogicalKey}
    (stored : rows.get? key = some row) :
    Provided reviewArtifactHash rows row.envelope.binding key row.envelope :=
  ⟨row, stored, (kept.each key row stored).decodes⟩

theorem supported_of_provided (kept : ArtifactsKept reviewArtifactHash rows) {key : LogicalKey}
    {prior : ReviewArtifactEnvelope} (provided : Provided reviewArtifactHash rows binding key prior) :
    Supported reviewArtifactHash rows prior := by
  obtain ⟨row, stored, found⟩ := provided
  exact (decoded found).1 ▸ (kept.each key row stored).supported

-- Of what is used, the reserve of an unsettled decision is not encoded.
theorem encoded_with_reserve {key : LogicalKey} (stored : rows.get? key = some row) :
    (rows.sum fun _ row => row.envelope.encodedBytes) + row.reservedBytes ≤ usedBytes rows := by
  have apart : ∀ entries : List (LogicalKey × ArtifactRow),
      (entries.map fun entry => entry.2.envelope.encodedBytes + entry.2.reservedBytes).sum =
        (entries.map fun entry => entry.2.envelope.encodedBytes).sum +
          (entries.map fun entry => entry.2.reservedBytes).sum := by
    intro entries
    induction entries with
    | nil => rfl
    | cons entry rest ih =>
        simp only [List.map_cons, List.sum_cons, ih]
        omega
  have reserved := Table.le_sum stored fun _ row => row.reservedBytes
  have total := apart rows.rows
  simp only [usedBytes, Table.sum] at reserved ⊢
  omega

theorem settled_envelope_key (preparedHash : Digest) (settlement : PublicationSettlement) :
    (settledEnvelope binding prepared preparedHash settlement).logicalKey = .settled prepared.sequence := rfl

section Kept

variable (kept : ArtifactsKept reviewArtifactHash rows)
include kept

theorem settlement_supported
    (stored : rows.get? (.prepared prepared.sequence) = some row)
    (envelope : row.envelope = ⟨binding, .publicationPrepared prepared⟩) (settlement : PublicationSettlement) :
    Supported reviewArtifactHash rows (settledEnvelope binding prepared
      (reviewArtifactHash ⟨binding, .publicationPrepared prepared⟩) settlement) := by
  have provided := provided_of_stored kept stored
  rw [envelope] at provided
  refine ⟨List.nodup_nil, nofun, nofun, ?_⟩
  intro settled kind
  injection kind with kind
  subst kind
  exact ⟨prepared, provided, rfl, rfl⟩

theorem settlement_reserved (stored : rows.get? (.prepared prepared.sequence) = some row)
    (envelope : row.envelope = ⟨binding, .publicationPrepared prepared⟩)
    (unsettled : rows.get? (.settled prepared.sequence) = none) : row.reservedBytes = reviewSettlementReserveBytes := by
  rw [(kept.each _ row stored).reserved, envelope]
  simp only [reservedFor, unsettled, Option.isSome_none, Bool.false_eq_true, if_false]

theorem settlement_fits
    (named : binding.resourceKey.text = prResourceKey binding.owner.text binding.repo.text binding.prNumber.value)
    (stored : rows.get? (.prepared prepared.sequence) = some row)
    (envelope : row.envelope = ⟨binding, .publicationPrepared prepared⟩)
    (unsettled : rows.get? (.settled prepared.sequence) = none) (settlement : PublicationSettlement) :
    dependencyMismatch reviewArtifactHash rows (settledEnvelope binding prepared
      (reviewArtifactHash ⟨binding, .publicationPrepared prepared⟩) settlement) = none := by
  have supported := settlement_supported kept stored envelope settlement
  have reserved := settlement_reserved kept stored envelope unsettled
  have used := encoded_with_reserve stored
  have budget := kept.budget
  have size := settled_bytes_le named prepared (reviewArtifactHash ⟨binding, .publicationPrepared prepared⟩) settlement
  refine no_mismatch_of_supported ?_ ⟨?_, ?_, ?_, rfl⟩
  · rintro other (rfl | ⟨key, provided⟩)
    · exact supported
    · exact supported_of_provided kept provided
  · intro key prior loaded
    simp only [initialSearch, Table.get?_set, Table.get?_empty, settled_envelope_key] at loaded
    by_cases same : key = .settled prepared.sequence
    · exact .inr (same ▸ unsettled)
    · rw [if_neg same] at loaded
      cases loaded
  · intro other listed
    exact .inl (List.mem_singleton.mp listed)
  · have unread := sum_deleted_le rows (fun _ row => row.envelope.encodedBytes) fun key _ =>
      ((initialSearch (settledEnvelope binding prepared (reviewArtifactHash ⟨binding, .publicationPrepared prepared⟩)
        settlement)).loaded.get? key).isSome
    simp only [DependencySearch.unread, initialSearch] at unread ⊢
    omega

-- A stored artifact takes its place in the budget.
theorem stored_fits {key : LogicalKey}
    (stored : rows.get? key = some row) : dependencyMismatch reviewArtifactHash rows row.envelope = none := by
  have provided := provided_of_stored kept stored
  obtain rfl := provided.key_eq
  refine no_mismatch_of_supported ?_ ⟨?_, ?_, ?_, rfl⟩
  · rintro other (rfl | ⟨key, provided⟩)
    · exact (kept.each _ row stored).supported
    · exact supported_of_provided kept provided
  · intro key prior loaded
    rw [initialSearch, Table.get?_set, Table.get?_empty] at loaded
    obtain ⟨own, loaded⟩ := Option.ite_none_right_eq_some.mp loaded
    exact .inl (own ▸ Option.some.inj loaded ▸ provided)
  · exact fun other listed => .inl (List.mem_singleton.mp listed)
  · have others := Table.sum_erase stored fun _ row => row.envelope.encodedBytes
    have used := encoded_with_reserve stored
    have budget := kept.budget
    have unread : (initialSearch row.envelope).unread rows =
        (rows.deleteWhere fun _ _ => false).erase row.envelope.logicalKey :=
      unread_load rows ⟨[], Table.empty, 0, false⟩ _ _
    have all : rows.deleteWhere (fun _ _ => false) = rows := by simp [Table.deleteWhere]
    rw [unread, all]
    simp only [initialSearch]
    omega

theorem order_of_row {key : LogicalKey}
    (stored : rows.get? key = some row) : row.artifactOrder = key.order ∧ key.Bounded := by
  have decodes := (kept.each key row stored).decodes
  have same := (kept.each key row stored).key_eq
  unfold decodeArtifact at decodes
  split at decodes
  · rename_i valid
    refine ⟨?_, same ▸ logical_key_bounded _⟩
    rw [valid.2.1, ReviewArtifactEnvelope.order, ← valid.1]
  · cases decodes

theorem settlement_permitted
    (stored : rows.get? (.prepared prepared.sequence) = some row)
    (unsettled : rows.get? (.settled prepared.sequence) = none) (envelope : ReviewArtifactEnvelope)
    {settled : SettledPublication} (kind : envelope.artifact = .publicationSettled settled)
    (sequence : settled.sequence = prepared.sequence)
    (size : envelope.encodedBytes ≤ reviewSettlementReserveBytes) (preparedKey : LogicalKey) :
    (newArtifactRow reviewArtifactHash envelope 0 (some preparedKey)).permitted
      (rows.set (.prepared prepared.sequence) { row with reservedBytes := 0 }) = true := by
  have key : envelope.logicalKey = .settled prepared.sequence := by
    rw [ReviewArtifactEnvelope.logicalKey, kind, ← sequence]
    rfl
  have unique : (rows.set (.prepared prepared.sequence) { row with reservedBytes := 0 }).any (fun _ other =>
      other.artifactOrder = envelope.order) = false := by
    rw [Bool.eq_false_iff]
    intro taken
    obtain ⟨other, otherRow, here, same⟩ := (Table.any_iff _ _).mp taken
    have order : otherRow.artifactOrder = other.order ∧ other.Bounded := by
      rcases Table.get?_set_cases here with ⟨own, rfl⟩ | ⟨_, here⟩
      · obtain ⟨order, bounded⟩ := order_of_row kept stored
        exact own ▸ ⟨order, bounded⟩
      · exact order_of_row kept here
    have sameOrder : other.order = envelope.logicalKey.order := order.1.symm.trans (of_decide_eq_true same)
    have sameKey := order_injective order.2 (logical_key_bounded envelope.artifact) sameOrder
    change other = envelope.logicalKey at sameKey
    have apart : LogicalKey.settled prepared.sequence ≠ .prepared prepared.sequence := by
      intro same
      cases same
    rw [sameKey, key, Table.get?_set_of_ne _ _ _ apart, unsettled] at here
    cases here
  unfold reviewSettlementReserveBytes at size
  simp only [ArtifactRow.permitted, newArtifactRow, kind, ReviewArtifact.kind, unique]
  simp
  omega

theorem settlement_inserted
    (named : binding.resourceKey.text = prResourceKey binding.owner.text binding.repo.text binding.prNumber.value)
    (stored : rows.get? (.prepared prepared.sequence) = some row)
    (envelope : row.envelope = ⟨binding, .publicationPrepared prepared⟩)
    (unsettled : rows.get? (.settled prepared.sequence) = none) (settlement : PublicationSettlement) :
    ∃ later, insertWithinBudget reviewArtifactHash rows (settledEnvelope binding prepared
      (reviewArtifactHash ⟨binding, .publicationPrepared prepared⟩) settlement) = .ok (.stored, later) := by
  have keptRow := kept.each _ row stored
  have reserved := settlement_reserved kept stored envelope unsettled
  have decodes : decodeArtifact reviewArtifactHash (.prepared prepared.sequence) row binding =
      some ⟨binding, .publicationPrepared prepared⟩ := by
    have decodes := keptRow.decodes
    rwa [envelope] at decodes
  have hashed := (decoded decodes).2.2.2
  have size := settled_bytes_le named prepared (reviewArtifactHash ⟨binding, .publicationPrepared prepared⟩) settlement
  have permitted := settlement_permitted kept stored unsettled (settledEnvelope binding prepared
    (reviewArtifactHash ⟨binding, .publicationPrepared prepared⟩) settlement) rfl rfl size (.prepared prepared.sequence)
  have budget := kept.budget
  have fits : ¬reviewArtifactBudgetBytes + reviewSettlementReserveBytes < usedBytes rows +
      (settledEnvelope binding prepared (reviewArtifactHash ⟨binding, .publicationPrepared prepared⟩)
        settlement).encodedBytes := by omega
  have matching : ¬(prepared.decisionId ≠ prepared.decisionId ∨
      row.payloadHash ≠ reviewArtifactHash ⟨binding, .publicationPrepared prepared⟩ ∨
      row.reservedBytes ≠ reviewSettlementReserveBytes ∨
      reviewSettlementReserveBytes < (settledEnvelope binding prepared
        (reviewArtifactHash ⟨binding, .publicationPrepared prepared⟩) settlement).encodedBytes) := by
    rintro (other | other | other | large)
    · exact other rfl
    · exact other hashed
    · exact other reserved
    · omega
  refine ⟨(rows.set (.prepared prepared.sequence) { row with reservedBytes := 0 }).set (.settled prepared.sequence)
    (newArtifactRow reviewArtifactHash (settledEnvelope binding prepared
      (reviewArtifactHash ⟨binding, .publicationPrepared prepared⟩) settlement) 0
      (some (.prepared prepared.sequence))), ?_⟩
  generalize whole : settledEnvelope binding prepared (reviewArtifactHash ⟨binding, .publicationPrepared prepared⟩)
    settlement = target at size permitted fits matching ⊢
  have parts : target.binding = binding ∧ target.logicalKey = .settled prepared.sequence := by
    rw [← whole]
    exact ⟨rfl, rfl⟩
  have kind : target.artifact = .publicationSettled ⟨prepared.sequence, prepared.sequence_le, prepared.decisionId,
      reviewArtifactHash ⟨binding, .publicationPrepared prepared⟩, settlement.outcome,
      settlement.githubId.map fun githubId => ⟨prepared.operationKey, githubId⟩⟩ := by
    rw [← whole]
    rfl
  unfold insertWithinBudget
  simp only [kind, parts.1, stored, decodes, Option.map_some, matching, fits, if_false]
  rw [insertArtifact, parts.2]
  exact if_pos permitted

theorem settlement_saved
    (named : binding.resourceKey.text = prResourceKey binding.owner.text binding.repo.text binding.prNumber.value)
    (stored : rows.get? (.prepared prepared.sequence) = some row)
    (envelope : row.envelope = ⟨binding, .publicationPrepared prepared⟩) (settlement : PublicationSettlement) :
    (saveLocked reviewArtifactHash rows (settledEnvelope binding prepared
        (reviewArtifactHash ⟨binding, .publicationPrepared prepared⟩) settlement)).map Prod.fst =
      match rows.get? (.settled prepared.sequence) with
      | none => .ok .stored
      | some settledRow =>
        if settledRow.envelope = settledEnvelope binding prepared
            (reviewArtifactHash ⟨binding, .publicationPrepared prepared⟩) settlement then .ok .existing
        else .error (.invalid "artifact_conflict") := by
  unfold saveLocked
  rw [settled_envelope_key]
  cases settled : rows.get? (.settled prepared.sequence) with
  | some settledRow =>
      have keptSettled := kept.each _ settledRow settled
      have sameBinding : settledRow.envelope.binding = binding := by
        obtain ⟨other, before, found, decodes⟩ := prepared_of_settled kept settled
        rw [stored] at found
        obtain rfl := Option.some.inj found
        have same := (decoded decodes).1
        rw [envelope] at same
        injection same with same
        exact same.symm
      have decodes : decodeArtifact reviewArtifactHash (.settled prepared.sequence) settledRow binding =
          some settledRow.envelope := sameBinding ▸ keptSettled.decodes
      have hashed := (decoded decodes).2.2.2
      by_cases same : settledRow.envelope = settledEnvelope binding prepared
          (reviewArtifactHash ⟨binding, .publicationPrepared prepared⟩) settlement
      · have fits := stored_fits kept settled
        simp only [← same]
        have agrees : ¬(settledRow.payloadHash ≠ reviewArtifactHash settledRow.envelope ∨
            settledRow.envelope ≠ settledRow.envelope) := by
          rintro (other | other)
          · exact other hashed
          · exact other rfl
        simp only [sameBinding, decodes, Option.isNone_some, Bool.false_eq_true, if_false, agrees, fits, if_true]
        rfl
      · have conflict : settledRow.payloadHash ≠ reviewArtifactHash (settledEnvelope binding prepared
            (reviewArtifactHash ⟨binding, .publicationPrepared prepared⟩) settlement) ∨
            settledRow.envelope ≠ settledEnvelope binding prepared
              (reviewArtifactHash ⟨binding, .publicationPrepared prepared⟩) settlement := .inr same
        have sameDecodes : decodeArtifact reviewArtifactHash (.settled prepared.sequence) settledRow
            (settledEnvelope binding prepared (reviewArtifactHash ⟨binding, .publicationPrepared prepared⟩)
              settlement).binding = some settledRow.envelope := decodes
        simp only [sameDecodes, Option.isNone_some, Bool.false_eq_true, if_false, conflict, if_true, same]
        rfl
  | none =>
      obtain ⟨later, inserted⟩ := settlement_inserted kept named stored envelope settled settlement
      simp only [settlement_fits kept named stored envelope settled settlement, inserted]
      rfl

end Kept

theorem decision_settles (kept : ArtifactsKept reviewArtifactHash db.rows)
    (rightful : RightfulExecution workItemId db binding leaseEpoch)
    (stored : db.rows.get? (.prepared prepared.sequence) = some row)
    (envelope : row.envelope = ⟨binding, .publicationPrepared prepared⟩) (settlement : PublicationSettlement) :
    (settleDecision reviewArtifactHash workItemId binding (some leaseEpoch) prepared settlement db).1 =
      match db.rows.get? (.settled prepared.sequence) with
      | none => .ok ()
      | some settled =>
        if settled.envelope = settledEnvelope binding prepared
            (reviewArtifactHash ⟨binding, .publicationPrepared prepared⟩) settlement then .ok ()
        else .error (.invalid "artifact_conflict") := by
  have saved := settlement_saved kept (rightful_named rightful) stored envelope settlement
  have own : (settledEnvelope binding prepared (reviewArtifactHash ⟨binding, .publicationPrepared prepared⟩)
      settlement).binding = binding := rfl
  unfold settleDecision saveReviewArtifact
  simp only [own, ne_eq, not_true_eq_false, if_false, lock_rightful rightful]
  generalize saveLocked reviewArtifactHash db.rows (settledEnvelope binding prepared
    (reviewArtifactHash ⟨binding, .publicationPrepared prepared⟩) settlement) = outcome at saved
  cases outcome with
  | error error =>
      cases settled : db.rows.get? (.settled prepared.sequence) with
      | none =>
          rw [settled] at saved
          cases saved
      | some settledRow =>
          rw [settled] at saved
          simp only at saved
          split at saved
          · cases saved
          · rename_i other
            injection saved with same
            simp only [other, if_false, same]
  | ok outcome =>
      obtain ⟨result, rows⟩ := outcome
      cases settled : db.rows.get? (.settled prepared.sequence) with
      | none =>
          rw [settled] at saved
          injection saved with same
          change result = .stored at same
          simp [same]
      | some settledRow =>
          rw [settled] at saved
          simp only at saved
          split at saved
          · rename_i same
            injection saved with existing
            change result = .existing at existing
            simp [same, existing]
          · cases saved

end Settling

section Answered

variable {rows later : Table LogicalKey ArtifactRow} {envelope : ReviewArtifactEnvelope} {result : ReviewArtifactWriteResult}

theorem insert_saves (ok : insertWithinBudget reviewArtifactHash rows envelope = .ok (result, later))
    (saved : result ≠ .capacity) : ∃ row, later.get? envelope.logicalKey = some row ∧ row.envelope = envelope := by
  have written : ∀ {base : Table LogicalKey ArtifactRow} {reserve : Nat} {preparedKey : Option LogicalKey},
      insertArtifact reviewArtifactHash base envelope reserve preparedKey = .ok (result, later) →
        ∃ row, later.get? envelope.logicalKey = some row ∧ row.envelope = envelope := fun inserted =>
    ⟨_, insert_ok inserted ▸ Table.get?_set_self .., rfl⟩
  unfold insertWithinBudget at ok
  simp only at ok
  repeat' split at ok
  all_goals first
    | exact written ok
    | cases ok
  all_goals exact absurd rfl saved

theorem save_stores (ok : saveLocked reviewArtifactHash rows envelope = .ok (result, later))
    (saved : result = .stored ∨ result = .existing) :
    ∃ row, later.get? envelope.logicalKey = some row ∧ row.envelope = envelope := by
  have answer : result ≠ .capacity ∧ result ≠ .incompatible := by
    rcases saved with rfl | rfl <;> simp
  unfold saveLocked at ok
  cases stored : rows.get? envelope.logicalKey with
  | some existing =>
    simp only [stored] at ok
    split at ok
    · cases ok
      exact absurd rfl answer.2
    · split at ok
      · cases ok
      · rename_i agrees
        split at ok
        · cases ok
          exact absurd rfl answer.2
        · cases ok
          exact ⟨existing, stored, not_not.mp (not_or.mp agrees).2⟩
  | none =>
    simp only [stored] at ok
    split at ok
    · cases ok
      exact absurd rfl answer.1
    · cases ok
    · exact insert_saves ok answer.1

-- What a save answers as stored or existing is stored.
theorem saved_stored {binding : ReviewArtifactBinding} {leaseEpoch : Option Nat} {db saved : ArtifactDb}
    (answered : saveReviewArtifact reviewArtifactHash workItemId binding leaseEpoch (some envelope) db = (.ok result, saved))
    (success : result = .stored ∨ result = .existing) :
    envelope.binding = binding ∧ ∃ row, saved.rows.get? envelope.logicalKey = some row ∧ row.envelope = envelope := by
  unfold saveReviewArtifact at answered
  simp only at answered
  split at answered
  · cases answered
  · rename_i own
    split at answered
    · cases answered
    · split at answered
      · cases answered
      · rename_i written
        cases answered
        exact ⟨not_not.mp own, save_stores written success⟩

theorem settled_stored {binding : ReviewArtifactBinding} {leaseEpoch : Option Nat} {db : ArtifactDb}
    {prepared : PreparedPublication} {settlement : PublicationSettlement}
    (ok : (settleDecision reviewArtifactHash workItemId binding leaseEpoch prepared settlement db).1 = .ok ()) :
    ∃ row, (settleDecision reviewArtifactHash workItemId binding leaseEpoch prepared settlement db).2.rows.get?
        (.settled prepared.sequence) = some row ∧
      row.envelope = settledEnvelope binding prepared (reviewArtifactHash ⟨binding, .publicationPrepared prepared⟩) settlement := by
  simp only [settleDecision] at ok ⊢
  cases answered : saveReviewArtifact reviewArtifactHash workItemId binding leaseEpoch (some (settledEnvelope binding prepared
      (reviewArtifactHash ⟨binding, .publicationPrepared prepared⟩) settlement)) db with
  | mk outcome saved =>
    rw [answered] at ok
    cases outcome with
    | error error => cases ok
    | ok result =>
      simp only at ok ⊢
      by_cases success : result = .stored ∨ result = .existing
      · rw [if_neg (not_and_or.mpr (success.imp not_not.mpr not_not.mpr))]
        exact (saved_stored answered success).2
      · simp only [if_pos (not_or.mp success)] at ok
        cases ok

end Answered

theorem review_artifacts_kept (reviewArtifactHash : ReviewArtifactEnvelope → Digest) (workItemId : WorkItemId)
    (start db : ArtifactDb) (empty : start.rows = Table.empty)
    (run : Reaches (artifactStep reviewArtifactHash workItemId) (fun _ _ => True) start db) :
    usedBytes db.rows ≤ reviewArtifactBudgetBytes ∧
    (∀ last sequence, (db.rows.get? (.prepared last)).isSome = true → sequence < last →
      (db.rows.get? (.prepared sequence)).isSome = true ∧ (db.rows.get? (.settled sequence)).isSome = true) ∧
    (∀ later, Reaches (artifactStep reviewArtifactHash workItemId) (fun _ _ => True) db later →
      Extends db.rows later.rows) ∧
    (∀ binding leaseEpoch prepared settlement row, RightfulExecution workItemId db binding leaseEpoch →
      db.rows.get? (.prepared prepared.sequence) = some row → row.envelope = ⟨binding, .publicationPrepared prepared⟩ →
      (settleDecision reviewArtifactHash workItemId binding (some leaseEpoch) prepared settlement db).1 =
        match db.rows.get? (.settled prepared.sequence) with
        | none => .ok ()
        | some settled =>
          if settled.envelope = settledEnvelope binding prepared
              (reviewArtifactHash ⟨binding, .publicationPrepared prepared⟩) settlement then .ok ()
          else .error (.invalid "artifact_conflict")) ∧
    ∀ binding leaseEpoch prepared settlement,
      let settled := settleDecision reviewArtifactHash workItemId binding leaseEpoch prepared settlement db
      settled.1 = .ok () → ∃ row, settled.2.rows.get? (.settled prepared.sequence) = some row ∧
        row.envelope = settledEnvelope binding prepared (reviewArtifactHash ⟨binding, .publicationPrepared prepared⟩) settlement := by
  have kept := (artifact_run_keeps (kept_of_empty empty) run).1
  refine ⟨kept.budget, fun last sequence stored before => decisions_chain kept stored before, ?_, ?_,
    fun _ _ _ _ ok => settled_stored ok⟩
  · intro later rest
    exact (artifact_run_keeps kept rest).2
  · intro binding leaseEpoch prepared settlement row rightful stored envelope
    exact decision_settles kept rightful stored envelope settlement

section Histories

def preparedDigest : Digest where
  text := "aaaaaaaaaaaaaaaaaaaaaaaaaaaaaaaaaaaaaaaaaaaaaaaaaaaaaaaaaaaaaaaa"
  pattern := by decide +kernel
  least_le := by decide +kernel
  le_most := by decide +kernel

def otherDigest : Digest where
  text := "bbbbbbbbbbbbbbbbbbbbbbbbbbbbbbbbbbbbbbbbbbbbbbbbbbbbbbbbbbbbbbbb"
  pattern := by decide +kernel
  least_le := by decide +kernel
  le_most := by decide +kernel

def digestByKind (envelope : ReviewArtifactEnvelope) : Digest :=
  if envelope.artifact.kind = .publicationPrepared then preparedDigest else otherDigest

def identityText {most : Nat} (text : String) (least : 1 ≤ utf16Length text) (fits : utf16Length text ≤ most) :
    IdentityText most := ⟨text, by simp, least, fits⟩

def artifactBinding : ReviewArtifactBinding where
  workItemId := ⟨"01234567-0123-0123-0123-0123456789ab", by decide +kernel, by decide +kernel, by decide +kernel⟩
  resourceKey := identityText "o/r#7" (by decide +kernel) (by decide +kernel)
  owner := identityText "o" (by decide +kernel) (by decide +kernel)
  repo := identityText "r" (by decide +kernel) (by decide +kernel)
  prNumber := ⟨7, by decide⟩
  installationId := ⟨3, by decide⟩
  baseSha := identityText "base" (by decide +kernel) (by decide +kernel)
  headSha := identityText "head" (by decide +kernel) (by decide +kernel)
  inputFingerprint := otherDigest

def artifactItem : ReviewItemRow where
  type := .review
  status := .running
  cancelRequestedAt := none
  executionEpoch := some 1
  owner := artifactBinding.owner
  repo := artifactBinding.repo
  prNumber := artifactBinding.prNumber
  resourceKey := artifactBinding.resourceKey
  resourceKey_eq := by decide +kernel
  installationId := artifactBinding.installationId
  headSha := artifactBinding.headSha
  reviewLens := some .review

def emptyArtifacts : ArtifactDb where
  toLeaseState := LeaseMove.apply (fun _ => ⟨0, .review⟩) ⟨0, Table.empty⟩ (.acquire 1 0 30)
  item := some artifactItem
  rows := Table.empty

def firstPrepared : PreparedPublication where
  sequence := 0
  sequence_le := by decide
  decisionId := ⟨"decision-0", by decide +kernel, by decide +kernel, by decide +kernel⟩
  operationKey := identityText "review:inline:0" (by decide +kernel) (by decide +kernel)
  target := .threads
  payload := "[]"
  dependencies := []
  canonical := none

def prepareFirst : ArtifactEvent :=
  .save artifactBinding (some 1) (some ⟨artifactBinding, .publicationPrepared firstPrepared⟩)

def preparedArtifacts : ArtifactDb := (artifactStep digestByKind 1 emptyArtifacts prepareFirst).getD emptyArtifacts

theorem preparedArtifacts_eq : preparedArtifacts = (saveReviewArtifact digestByKind 1 artifactBinding (some 1)
    (some ⟨artifactBinding, .publicationPrepared firstPrepared⟩) emptyArtifacts).2 := by
  rw [preparedArtifacts, prepareFirst, artifactStep, Option.getD_some]

theorem prepare_first_step : artifactStep digestByKind 1 emptyArtifacts prepareFirst = some preparedArtifacts := by
  rw [preparedArtifacts_eq, prepareFirst, artifactStep]

theorem preparedArtifacts_holds : preparedArtifacts.held 1 1 = true ∧
    (preparedArtifacts.rows.get? (.prepared 0)).map ArtifactRow.envelope =
      some ⟨artifactBinding, .publicationPrepared firstPrepared⟩ ∧
    (preparedArtifacts.rows.get? (.settled 0)).isNone = true := by
  decide +kernel

theorem preparedArtifacts_rightful : RightfulExecution 1 preparedArtifacts artifactBinding 1 := by
  obtain ⟨held, _⟩ := preparedArtifacts_holds
  have sameItem : preparedArtifacts.item = emptyArtifacts.item := by
    rw [preparedArtifacts_eq]
    exact (save_keeps_rest digestByKind 1 _ _ _ emptyArtifacts).2
  have matching : artifactItem.matchesBinding artifactBinding = true := by
    simp [ReviewItemRow.matchesBinding, artifactItem]
  exact ⟨by decide, held, artifactItem, sameItem, rfl, rfl, rfl, matching⟩

-- A decision is prepared and then settled.
theorem prepared_decision_settles :
    (settleDecision digestByKind 1 artifactBinding (some 1) firstPrepared (.published (some ⟨5, by decide⟩) false)
      preparedArtifacts).1 = .ok () := by
  have run : Reaches (artifactStep digestByKind 1) (fun _ _ => True) emptyArtifacts preparedArtifacts :=
    .next .start trivial prepare_first_step
  obtain ⟨_, stored, unsettled⟩ := preparedArtifacts_holds
  obtain ⟨row, found, envelope⟩ := Option.map_eq_some_iff.mp stored
  have settles := (review_artifacts_kept digestByKind 1 emptyArtifacts preparedArtifacts rfl run).2.2.2.1 artifactBinding 1
    firstPrepared (.published (some ⟨5, by decide⟩) false) row preparedArtifacts_rightful found envelope
  have absent : preparedArtifacts.rows.get? (.settled firstPrepared.sequence) = none := Option.isNone_iff_eq_none.mp unsettled
  simpa only [absent] using settles

end Histories

section Loading

theorem stored_loads {db : ArtifactDb} (kept : ArtifactsKept reviewArtifactHash db.rows) (binding : ReviewArtifactBinding)
    (key : LogicalKey) : loadReviewArtifact reviewArtifactHash binding key db =
      ((db.rows.get? key).map ArtifactRow.envelope).filter fun envelope => envelope.binding = binding := by
  cases stored : db.rows.get? key with
  | none => simp [loadReviewArtifact, stored]
  | some row =>
    have decodes := (kept.each key row stored).decodes
    by_cases own : row.envelope.binding = binding
    · rw [own] at decodes
      simp [loadReviewArtifact, stored, decodes, Option.filter_some, stored_fits kept stored, own]
    · have foreign : decodeArtifact reviewArtifactHash key row binding = none := by simp [decodeArtifact, own]
      simp [loadReviewArtifact, stored, foreign, Option.filter_some, own]

-- A load returns what is stored for its binding; and once a save is answered as stored or existing, every later load
-- returns the saved artifact.
theorem saved_artifact_loads (reviewArtifactHash : ReviewArtifactEnvelope → Digest) (workItemId : WorkItemId)
    (start db : ArtifactDb) (empty : start.rows = Table.empty)
    (run : Reaches (artifactStep reviewArtifactHash workItemId) (fun _ _ => True) start db) :
    (∀ binding key, loadReviewArtifact reviewArtifactHash binding key db =
      ((db.rows.get? key).map ArtifactRow.envelope).filter fun envelope => envelope.binding = binding) ∧
    ∀ binding leaseEpoch envelope result saved,
      saveReviewArtifact reviewArtifactHash workItemId binding leaseEpoch (some envelope) db = (.ok result, saved) →
      (result = .stored ∨ result = .existing) →
      ∀ later, Reaches (artifactStep reviewArtifactHash workItemId) (fun _ _ => True) saved later →
        loadReviewArtifact reviewArtifactHash binding envelope.logicalKey later = some envelope := by
  have kept := (artifact_run_keeps (kept_of_empty empty) run).1
  refine ⟨stored_loads kept, ?_⟩
  intro binding leaseEpoch envelope result saved answered success later rest
  have moved : artifactStep reviewArtifactHash workItemId db (.save binding leaseEpoch (some envelope)) = some saved := by
    rw [artifactStep, answered]
  obtain ⟨keptLater, extend⟩ := artifact_run_keeps (artifact_step_keeps kept moved).1 rest
  obtain ⟨own, row, found, same⟩ := saved_stored answered success
  obtain ⟨reserved, still⟩ := extend _ row found
  rw [stored_loads keptLater, still]
  simp [same, own]

theorem prepared_artifact_loads :
    loadReviewArtifact digestByKind artifactBinding (.prepared 0) preparedArtifacts =
      some ⟨artifactBinding, .publicationPrepared firstPrepared⟩ := by
  have stored : (saveReviewArtifact digestByKind 1 artifactBinding (some 1)
      (some ⟨artifactBinding, .publicationPrepared firstPrepared⟩) emptyArtifacts).1 = .ok .stored := by decide +kernel
  exact (saved_artifact_loads digestByKind 1 emptyArtifacts emptyArtifacts rfl .start).2 artifactBinding (some 1) _ _ _
    (Prod.ext stored preparedArtifacts_eq.symm) (.inl rfl) preparedArtifacts .start

end Loading
end PrAgent
