import PrAgent.ReviewArtifactSearch
set_option autoImplicit false

namespace PrAgent

variable {reviewArtifactHash : ReviewArtifactEnvelope → Digest} {rows : Table LogicalKey ArtifactRow}

def newArtifactRow (reviewArtifactHash : ReviewArtifactEnvelope → Digest) (envelope : ReviewArtifactEnvelope)
    (reserve : Nat) (preparedKey : Option LogicalKey) : ArtifactRow :=
  ⟨envelope.order, envelope.artifact.kind, envelope.binding.inputFingerprint, reviewArtifactHash envelope, envelope,
    reserve, preparedKey⟩

-- A prepared decision holds its reserve until it is settled.
def reservedFor (rows : Table LogicalKey ArtifactRow) (artifact : ReviewArtifact) : Nat :=
  match artifact with
  | .publicationPrepared prepared =>
    if (rows.get? (.settled prepared.sequence)).isSome then 0 else reviewSettlementReserveBytes
  | _ => 0

structure ArtifactRowKept (reviewArtifactHash : ReviewArtifactEnvelope → Digest) (rows : Table LogicalKey ArtifactRow)
    (key : LogicalKey) (row : ArtifactRow) : Prop where
  decodes : decodeArtifact reviewArtifactHash key row row.envelope.binding = some row.envelope
  supported : Supported reviewArtifactHash rows row.envelope
  reserved : row.reservedBytes = reservedFor rows row.envelope.artifact

structure ArtifactsKept (reviewArtifactHash : ReviewArtifactEnvelope → Digest) (rows : Table LogicalKey ArtifactRow) :
    Prop where
  each : ∀ key row, rows.get? key = some row → ArtifactRowKept reviewArtifactHash rows key row
  budget : usedBytes rows ≤ reviewArtifactBudgetBytes

-- Rows are added, and of a stored row only the reserve changes.
def Extends (rows later : Table LogicalKey ArtifactRow) : Prop :=
  ∀ key row, rows.get? key = some row → ∃ reservedBytes, later.get? key = some { row with reservedBytes }

section Extension

theorem Extends.refl (rows : Table LogicalKey ArtifactRow) : Extends rows rows :=
  fun _ row stored => ⟨row.reservedBytes, stored⟩

theorem Extends.trans {rows middle later : Table LogicalKey ArtifactRow} (first : Extends rows middle)
    (second : Extends middle later) : Extends rows later := by
  intro key row stored
  obtain ⟨reserved, kept⟩ := first key row stored
  obtain ⟨later, keptLater⟩ := second key _ kept
  exact ⟨later, keptLater⟩

variable {later : Table LogicalKey ArtifactRow} {binding : ReviewArtifactBinding} {key : LogicalKey}
  {envelope prior : ReviewArtifactEnvelope}

theorem Provided.extend (extend : Extends rows later) (provided : Provided reviewArtifactHash rows binding key prior) :
    Provided reviewArtifactHash later binding key prior := by
  obtain ⟨row, stored, decodes⟩ := provided
  obtain ⟨reserved, kept⟩ := extend key row stored
  exact ⟨_, kept, decodes⟩

theorem Supported.extend (extend : Extends rows later) (supported : Supported reviewArtifactHash rows envelope) :
    Supported reviewArtifactHash later envelope := by
  refine ⟨supported.distinct, ?_, ?_, ?_⟩
  · intro dependency listed
    obtain ⟨prior, provided, rest⟩ := supported.dependencies dependency listed
    exact ⟨prior, provided.extend extend, rest⟩
  · intro prepared kind positive
    obtain ⟨prior, provided, settled⟩ := supported.previous prepared kind positive
    exact ⟨prior, provided.extend extend, settled⟩
  · intro settled kind
    obtain ⟨prepared, provided, rest⟩ := supported.prepared settled kind
    exact ⟨prepared, provided.extend extend, rest⟩

end Extension

-- What one insertion does.
inductive Inserted (reviewArtifactHash : ReviewArtifactEnvelope → Digest) (rows : Table LogicalKey ArtifactRow)
    (envelope : ReviewArtifactEnvelope) : Table LogicalKey ArtifactRow → Prop
  | settles (settled : SettledPublication) (row : ArtifactRow) (kind : envelope.artifact = .publicationSettled settled)
      (stored : rows.get? (.prepared settled.sequence) = some row)
      (reserve : row.reservedBytes = reviewSettlementReserveBytes)
      (fits : usedBytes rows + envelope.encodedBytes ≤ reviewArtifactBudgetBytes + reviewSettlementReserveBytes) :
      Inserted reviewArtifactHash rows envelope ((rows.set (.prepared settled.sequence) { row with reservedBytes := 0 }).set
        envelope.logicalKey (newArtifactRow reviewArtifactHash envelope 0 (some (.prepared settled.sequence))))
  | prepares (prepared : PreparedPublication) (kind : envelope.artifact = .publicationPrepared prepared)
      (fits : usedBytes rows + envelope.encodedBytes + reviewSettlementReserveBytes ≤ reviewArtifactBudgetBytes) :
      Inserted reviewArtifactHash rows envelope (rows.set envelope.logicalKey
        (newArtifactRow reviewArtifactHash envelope reviewSettlementReserveBytes none))
  | plain (kind : envelope.artifact.kind ∉ [.publicationSettled, .publicationPrepared])
      (fits : usedBytes rows + envelope.encodedBytes ≤ reviewArtifactBudgetBytes) :
      Inserted reviewArtifactHash rows envelope (rows.set envelope.logicalKey
        (newArtifactRow reviewArtifactHash envelope 0 none))

section Inversion

variable {envelope : ReviewArtifactEnvelope} {result : ReviewArtifactWriteResult} {later : Table LogicalKey ArtifactRow}

theorem insert_ok {base : Table LogicalKey ArtifactRow} {reserve : Nat} {preparedKey : Option LogicalKey}
    (ok : insertArtifact reviewArtifactHash base envelope reserve preparedKey = .ok (result, later)) :
    later = base.set envelope.logicalKey (newArtifactRow reviewArtifactHash envelope reserve preparedKey) := by
  unfold insertArtifact at ok
  simp only at ok
  split at ok
  · injection ok with same
    exact (Prod.mk.inj same).2.symm
  · cases ok

theorem insert_within_budget_cases (ok : insertWithinBudget reviewArtifactHash rows envelope = .ok (result, later)) :
    later = rows ∨ Inserted reviewArtifactHash rows envelope later := by
  unfold insertWithinBudget at ok
  cases kind : envelope.artifact with
  | publicationSettled settled =>
      simp only [kind] at ok
      cases stored : rows.get? (.prepared settled.sequence) with
      | none =>
          rw [stored] at ok
          cases ok
      | some row =>
          rw [stored] at ok
          simp only at ok
          split at ok
          · split at ok
            · cases ok
            · rename_i right
              simp only [not_or, not_not, Nat.not_lt] at right
              split at ok
              · injection ok with same
                exact .inl (Prod.mk.inj same).2.symm
              · rename_i fits
                rw [insert_ok ok]
                exact .inr (.settles settled row kind stored right.2.2.1 (Nat.not_lt.mp fits))
          · cases ok
  | publicationPrepared prepared =>
      simp only [kind] at ok
      split at ok
      · injection ok with same
        exact .inl (Prod.mk.inj same).2.symm
      · rename_i fits
        rw [insert_ok ok]
        exact .inr (.prepares prepared kind (Nat.not_lt.mp fits))
  | brief value paths | report specialist value evidence paths | openedPaths paths | finalSummary payload dependencies inputs =>
      simp only [kind] at ok
      split at ok
      · injection ok with same
        exact .inl (Prod.mk.inj same).2.symm
      · rename_i fits
        rw [insert_ok ok]
        exact .inr (.plain (by rw [kind]; simp [ReviewArtifact.kind]) (Nat.not_lt.mp fits))

-- A save leaves the rows alone, or adds an artifact that is supported and was not there.
theorem save_locked_cases (ok : saveLocked reviewArtifactHash rows envelope = .ok (result, later)) :
    later = rows ∨ (rows.get? envelope.logicalKey = none ∧ Supported reviewArtifactHash rows envelope ∧
      Inserted reviewArtifactHash rows envelope later) := by
  unfold saveLocked at ok
  cases stored : rows.get? envelope.logicalKey with
  | some existing =>
      rw [stored] at ok
      simp only at ok
      split at ok
      · injection ok with same
        exact .inl (Prod.mk.inj same).2.symm
      · split at ok
        · cases ok
        · split at ok
          · injection ok with same
            exact .inl (Prod.mk.inj same).2.symm
          · injection ok with same
            exact .inl (Prod.mk.inj same).2.symm
  | none =>
      rw [stored] at ok
      simp only at ok
      cases fits : dependencyMismatch reviewArtifactHash rows envelope with
      | none =>
          rw [fits] at ok
          rcases insert_within_budget_cases ok with unchanged | inserted
          · exact .inl unchanged
          · exact .inr ⟨rfl, supported_of_no_mismatch fits, inserted⟩
      | some reason =>
          rw [fits] at ok
          cases reason with
          | artifactBudget =>
              injection ok with same
              exact .inl (Prod.mk.inj same).2.symm
          | artifactDependency | decisionOrder | preparedDecisionMissing | preparedDecisionMismatch => cases ok

end Inversion

section Keys

variable {artifact : ReviewArtifact} {sequence : Nat}

theorem prepared_of_key (key : artifact.logicalKey = .prepared sequence) :
    ∃ prepared, artifact = .publicationPrepared prepared ∧ prepared.sequence = sequence := by
  cases artifact with
  | publicationPrepared prepared =>
      injection key with same
      exact ⟨prepared, rfl, same⟩
  | brief value paths | report specialist value evidence paths | openedPaths paths | publicationSettled settled
  | finalSummary payload dependencies inputs => cases key

theorem settled_of_key (key : artifact.logicalKey = .settled sequence) :
    ∃ settled, artifact = .publicationSettled settled ∧ settled.sequence = sequence := by
  cases artifact with
  | publicationSettled settled =>
      injection key with same
      exact ⟨settled, rfl, same⟩
  | brief value paths | report specialist value evidence paths | openedPaths paths | publicationPrepared prepared
  | finalSummary payload dependencies inputs => cases key

variable {key : LogicalKey} {row : ArtifactRow}

theorem ArtifactRowKept.key_eq (kept : ArtifactRowKept reviewArtifactHash rows key row) : key = row.envelope.artifact.logicalKey :=
  (decoded kept.decodes).2.2.1

theorem reserved_for_congr {later : Table LogicalKey ArtifactRow}
    (same : ∀ prepared, artifact = .publicationPrepared prepared →
      (later.get? (.settled prepared.sequence)).isSome = (rows.get? (.settled prepared.sequence)).isSome) :
    reservedFor later artifact = reservedFor rows artifact := by
  cases artifact with
  | publicationPrepared prepared => simp only [reservedFor, same prepared rfl]
  | brief value paths | report specialist value evidence paths | openedPaths paths | publicationSettled settled
  | finalSummary payload dependencies inputs => rfl

-- A settled decision has its prepared one beside it.
theorem prepared_of_settled (kept : ArtifactsKept reviewArtifactHash rows)
    (stored : rows.get? (.settled sequence) = some row) : ∃ prepared,
      Provided reviewArtifactHash rows row.envelope.binding (.prepared sequence)
        ⟨row.envelope.binding, .publicationPrepared prepared⟩ := by
  have keptRow := kept.each _ row stored
  obtain ⟨settled, kind, rfl⟩ := settled_of_key keptRow.key_eq.symm
  obtain ⟨prepared, provided, _⟩ := keptRow.supported.prepared settled kind
  exact ⟨prepared, provided⟩

end Keys

section Insertion

variable {envelope : ReviewArtifactEnvelope} {later : Table LogicalKey ArtifactRow}

theorem inserted_extends (fresh : rows.get? envelope.logicalKey = none)
    (inserted : Inserted reviewArtifactHash rows envelope later) : Extends rows later := by
  intro key row stored
  have ne := Table.ne_of_stored stored fresh
  cases inserted with
  | settles settled prepared kind storedPrepared reserve fits =>
      rw [Table.get?_set_of_ne _ _ _ ne, Table.get?_set]
      by_cases same : key = .prepared settled.sequence
      · rw [if_pos same]
        rw [same, storedPrepared] at stored
        obtain rfl := Option.some.inj stored
        exact ⟨0, rfl⟩
      · rw [if_neg same]
        exact ⟨row.reservedBytes, stored⟩
  | prepares prepared kind fits =>
      rw [Table.get?_set_of_ne _ _ _ ne]
      exact ⟨row.reservedBytes, stored⟩
  | plain kind fits =>
      rw [Table.get?_set_of_ne _ _ _ ne]
      exact ⟨row.reservedBytes, stored⟩

theorem new_row_decodes (reserve : Nat) (preparedKey : Option LogicalKey) :
    decodeArtifact reviewArtifactHash envelope.logicalKey (newArtifactRow reviewArtifactHash envelope reserve preparedKey)
      envelope.binding = some envelope := by
  simp [decodeArtifact, newArtifactRow]

-- An insertion that frees no reserve: the rows that were there keep theirs.
theorem kept_plain_insert (kept : ArtifactsKept reviewArtifactHash rows)
    (fresh : rows.get? envelope.logicalKey = none) (supported : Supported reviewArtifactHash rows envelope)
    (unsettled : ∀ sequence, envelope.logicalKey ≠ .settled sequence) {reserve : Nat}
    (reserved : reserve = reservedFor rows envelope.artifact)
    (extend : Extends rows (rows.set envelope.logicalKey (newArtifactRow reviewArtifactHash envelope reserve none)))
    (fits : usedBytes rows + envelope.encodedBytes + reserve ≤ reviewArtifactBudgetBytes) :
    ArtifactsKept reviewArtifactHash
      (rows.set envelope.logicalKey (newArtifactRow reviewArtifactHash envelope reserve none)) := by
  have sameSettled : ∀ artifact, reservedFor
      (rows.set envelope.logicalKey (newArtifactRow reviewArtifactHash envelope reserve none)) artifact =
        reservedFor rows artifact := fun artifact =>
    reserved_for_congr fun prepared _ => by rw [Table.get?_set_of_ne _ _ _ (unsettled _).symm]
  refine ⟨?_, ?_⟩
  · intro key row here
    rcases Table.get?_set_cases here with ⟨same, rfl⟩ | ⟨_, here⟩
    · exact ⟨same ▸ new_row_decodes reserve none, supported.extend extend, reserved.trans (sameSettled _).symm⟩
    · have before := kept.each key row here
      exact ⟨before.decodes, before.supported.extend extend, before.reserved.trans (sameSettled _).symm⟩
  · have added := Table.sum_set_fresh fresh (newArtifactRow reviewArtifactHash envelope reserve none) fun _ row =>
      row.envelope.encodedBytes + row.reservedBytes
    simp only [usedBytes, newArtifactRow] at added fits ⊢
    omega

theorem kept_settling_insert (kept : ArtifactsKept reviewArtifactHash rows)
    (fresh : rows.get? envelope.logicalKey = none) (supported : Supported reviewArtifactHash rows envelope)
    {settled : SettledPublication} {row : ArtifactRow} (kind : envelope.artifact = .publicationSettled settled)
    (stored : rows.get? (.prepared settled.sequence) = some row)
    (reserve : row.reservedBytes = reviewSettlementReserveBytes)
    (fits : usedBytes rows + envelope.encodedBytes ≤ reviewArtifactBudgetBytes + reviewSettlementReserveBytes)
    (extend : Extends rows ((rows.set (.prepared settled.sequence) { row with reservedBytes := 0 }).set
      envelope.logicalKey (newArtifactRow reviewArtifactHash envelope 0 (some (.prepared settled.sequence))))) :
    ArtifactsKept reviewArtifactHash ((rows.set (.prepared settled.sequence) { row with reservedBytes := 0 }).set
      envelope.logicalKey (newArtifactRow reviewArtifactHash envelope 0 (some (.prepared settled.sequence)))) := by
  have settledKey : envelope.logicalKey = .settled settled.sequence := by
    rw [ReviewArtifactEnvelope.logicalKey, kind]
    rfl
  have preparedKept := kept.each _ row stored
  obtain ⟨prepared, preparedKind, sameSequence⟩ := prepared_of_key preparedKept.key_eq.symm
  refine ⟨?_, ?_⟩
  · intro key stored' here
    rcases Table.get?_set_cases here with ⟨new, rfl⟩ | ⟨_, here⟩
    · refine ⟨new ▸ new_row_decodes 0 _, supported.extend extend, ?_⟩
      simp only [newArtifactRow, kind, reservedFor]
    · rcases Table.get?_set_cases here with ⟨own, rfl⟩ | ⟨own, here⟩
      · refine ⟨own ▸ preparedKept.decodes, preparedKept.supported.extend extend, ?_⟩
        simp only [preparedKind, reservedFor, sameSequence, settledKey, Table.get?_set_self, Option.isSome_some, if_true]
      · have before := kept.each key stored' here
        refine ⟨before.decodes, before.supported.extend extend, before.reserved.trans (reserved_for_congr ?_).symm⟩
        intro other otherKind
        have otherKey : key = .prepared other.sequence := by
          have key := before.key_eq
          rwa [otherKind] at key
        have apart : LogicalKey.settled other.sequence ≠ envelope.logicalKey := by
          rw [settledKey]
          intro same
          injection same with same
          exact own (otherKey.trans (congrArg LogicalKey.prepared same))
        rw [Table.get?_set_of_ne _ _ _ apart, Table.get?_set_of_ne _ _ _ fun same => by cases same]
  · have freed := Table.sum_set_stored stored { row with reservedBytes := 0 } fun _ row =>
      row.envelope.encodedBytes + row.reservedBytes
    have freshAfter : (rows.set (.prepared settled.sequence) { row with reservedBytes := 0 }).get? envelope.logicalKey =
        none := by
      rw [Table.get?_set_of_ne _ _ _ fun same => by rw [settledKey] at same; cases same]
      exact fresh
    have added := Table.sum_set_fresh freshAfter
      (newArtifactRow reviewArtifactHash envelope 0 (some (.prepared settled.sequence))) fun _ row =>
        row.envelope.encodedBytes + row.reservedBytes
    simp only [usedBytes, newArtifactRow] at freed added fits ⊢
    omega

theorem kept_insert (kept : ArtifactsKept reviewArtifactHash rows) (fresh : rows.get? envelope.logicalKey = none)
    (supported : Supported reviewArtifactHash rows envelope)
    (inserted : Inserted reviewArtifactHash rows envelope later) : ArtifactsKept reviewArtifactHash later := by
  have extend := inserted_extends fresh inserted
  cases inserted with
  | settles settled row kind stored reserve fits =>
      exact kept_settling_insert kept fresh supported kind stored reserve fits extend
  | prepares prepared kind fits =>
      have key : envelope.logicalKey = .prepared prepared.sequence := by
        rw [ReviewArtifactEnvelope.logicalKey, kind]
        rfl
      refine kept_plain_insert kept fresh supported (fun sequence same => by rw [key] at same; cases same) ?_ extend fits
      cases stored : rows.get? (.settled prepared.sequence) with
      | none => simp only [kind, reservedFor, stored, Option.isSome_none, Bool.false_eq_true, if_false]
      | some row =>
          obtain ⟨other, row', found, _⟩ := prepared_of_settled kept stored
          rw [← key, fresh] at found
          cases found
  | plain kind fits =>
      have unsettled : ∀ sequence, envelope.logicalKey ≠ .settled sequence := by
        intro sequence key
        obtain ⟨settled, settles, _⟩ := settled_of_key key
        exact kind (by simp [settles, ReviewArtifact.kind])
      refine kept_plain_insert kept fresh supported unsettled ?_ extend fits
      cases artifact : envelope.artifact with
      | publicationPrepared prepared => exact absurd (by simp [artifact, ReviewArtifact.kind]) kind
      | brief value paths | report specialist value evidence paths | openedPaths paths | publicationSettled settled
      | finalSummary payload dependencies inputs => rfl

end Insertion
end PrAgent
