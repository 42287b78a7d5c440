import PrAgent.StaleHeadReschedule
set_option autoImplicit false

namespace PrAgent.StaleHead

section Ids

variable {payload patch : JsonObject}

-- The id that the code reads in a payload.
def readId (payload : JsonObject) : Option String := (normalizeStaleHeadReplacement payload).map PayloadReplacement.replacementWorkItemId

def replacementKeys : List String := "staleHeadReplacement" :: legacyKeys

theorem lookup_merge (payload patch : JsonObject) (key : String) :
    (mergePayload payload patch).lookup key = (patch.lookup key).or (payload.lookup key) := by
  rw [mergePayload, List.lookup_append, lookup_filter_keys fun key => (patch.lookup key).isNone]
  cases patch.lookup key with
  | none => rfl
  | some value => rfl

theorem merge_saved {key : String} {value : RawJson} (saved : patch.lookup key = some value) (payload : JsonObject) :
    (mergePayload payload patch).lookup key = some value := by
  rw [lookup_merge, saved]
  rfl

theorem merge_other {key : String} (apart : patch.lookup key = none) (payload : JsonObject) :
    (mergePayload payload patch).lookup key = payload.lookup key := by
  rw [lookup_merge, apart]
  rfl

-- Where the code finds no id for certain: SQL finds none.
theorem readId_none (none_stored : staleHeadReplacementIdSql payload = none) : readId payload = none := by
  rw [sql_reader_id, Option.or_eq_none_iff] at none_stored
  rw [readId, normalized_id]
  have nested : nonEmptyString (nestedReplacementId payload) = none := by
    cases found : nestedReplacementId payload with
    | none => rfl
    | some value =>
        rw [found] at none_stored
        cases value with
        | null => rfl
        | _ => cases none_stored.1
  have legacy : nonEmptyString (legacyReplacementId payload) = none := by
    cases found : legacyReplacementId payload with
    | none => rfl
    | some value =>
        rw [found] at none_stored
        cases value with
        | null => rfl
        | string id =>
            have dropped := none_stored.2
            rw [sqlText, nullIf] at dropped
            rw [nonEmptyString_string]
            by_cases empty : id = ""
            · rw [if_pos empty]
            · rw [if_neg (by simp [empty])] at dropped
              cases dropped
        | bool value => simp [sqlText, nullIf, jsonText_ne_empty] at none_stored
        | number value => simp [sqlText, nullIf, jsonText_ne_empty] at none_stored
        | array elements => simp [sqlText, nullIf, jsonText_ne_empty] at none_stored
        | object members => simp [sqlText, nullIf, jsonText_ne_empty] at none_stored
  rw [nested, legacy]
  cases rescheduled payload with
  | true => rfl
  | false => rfl

theorem readId_nonempty {id : String} (found : readId payload = some id) : id ≠ "" := by
  obtain ⟨replacement, normalized, rfl⟩ := Option.map_eq_some_iff.mp found
  exact normalized_nonempty normalized

-- The payload where a merge leaves the keys of the id alone.
theorem sql_same (apart : ∀ key ∈ replacementKeys, patch.lookup key = none) (payload : JsonObject) :
    staleHeadReplacementIdSql (mergePayload payload patch) = staleHeadReplacementIdSql payload := by
  have nested := merge_other (apart "staleHeadReplacement" (by decide)) payload
  have legacy := merge_other (apart "staleHeadReplacementWorkItemId" (by decide)) payload
  rw [sql_reader_id, sql_reader_id, nestedReplacementId, nestedReplacementId, legacyReplacementId, legacyReplacementId, nested, legacy]

theorem readId_same (apart : ∀ key ∈ "staleHeadRescheduled" :: replacementKeys, patch.lookup key = none) (payload : JsonObject) :
    readId (mergePayload payload patch) = readId payload := by
  have nested := merge_other (apart "staleHeadReplacement" (by decide)) payload
  have legacy := merge_other (apart "staleHeadReplacementWorkItemId" (by decide)) payload
  have mark := merge_other (apart "staleHeadRescheduled" (by decide)) payload
  rw [readId, readId, normalized_id, normalized_id, nestedReplacementId, nestedReplacementId, legacyReplacementId, legacyReplacementId, rescheduled,
    rescheduled, nested, legacy, mark]

-- What is merged under a payload gives it no id.
theorem sql_under (apart : ∀ key ∈ replacementKeys, patch.lookup key = none) (payload : JsonObject) :
    staleHeadReplacementIdSql (mergePayload patch payload) = staleHeadReplacementIdSql payload := by
  have under (key : String) (listed : key ∈ replacementKeys) : (mergePayload patch payload).lookup key = payload.lookup key := by
    rw [lookup_merge, apart key listed, Option.or_none]
  rw [sql_reader_id, sql_reader_id, nestedReplacementId, nestedReplacementId, legacyReplacementId, legacyReplacementId,
    under _ (by decide), under _ (by decide)]

theorem readId_under (apart : ∀ key ∈ replacementKeys, patch.lookup key = none) {id : String}
    (found : readId (mergePayload patch payload) = some id) : readId payload = some id := by
  have under (key : String) (listed : key ∈ replacementKeys) : (mergePayload patch payload).lookup key = payload.lookup key := by
    rw [lookup_merge, apart key listed, Option.or_none]
  have marked : rescheduled payload = true → rescheduled (mergePayload patch payload) = true := by
    intro mark
    rw [rescheduled, lookup_merge]
    cases own : payload.lookup "staleHeadRescheduled" with
    | none =>
        rw [rescheduled, own] at mark
        cases mark
    | some value =>
        rw [rescheduled, own] at mark
        exact mark
  rw [readId, normalized_id] at found ⊢
  rw [nestedReplacementId, legacyReplacementId, under _ (by decide), under _ (by decide)] at found
  rcases Option.or_eq_some_iff.mp found with nested | ⟨none_nested, legacy⟩
  · exact Option.or_eq_some_iff.mpr (.inl nested)
  · cases after : rescheduled (mergePayload patch payload) with
    | true =>
        rw [after, if_pos rfl] at legacy
        cases legacy
    | false =>
        rw [after, if_neg Bool.false_ne_true] at legacy
        have before : rescheduled payload = false := by
          by_contra mark
          rw [Bool.not_eq_false] at mark
          rw [marked mark] at after
          cases after
        rw [before, if_neg Bool.false_ne_true]
        exact Option.or_eq_some_iff.mpr (.inr ⟨none_nested, legacy⟩)

theorem stamped_ids {id : String} (nonempty : id ≠ "") (payload : JsonObject) (state : ReplacementState) :
    staleHeadReplacementIdSql (stampPayload payload id state) = some id ∧ readId (stampPayload payload id state) = some id := by
  have nested : nestedReplacementId (stampPayload payload id state) = some (.string id) := by
    rw [nestedReplacementId, stampPayload, lookup_merge]
    rfl
  constructor
  · rw [sql_reader_id, nested]
    rfl
  · rw [readId, normalized_id, nested, nonEmptyString_string, if_neg nonempty]
    rfl

end Ids

section Writes

variable {fields : JsonObject → Option JsonObject} {parentId : String} {db : RescheduleDb}

-- What the parent's row says of the one id that may be given: what the code reads is that id, and SQL finds some id once there is one.
def Fits (parentId : String) (anchor : Option String) (items : Table String ReviewRow) : Prop :=
  ∃ row, items.get? parentId = some row ∧ (∀ id, readId row.payload = some id → anchor = some id) ∧
    (anchor.isSome = true → staleHeadReplacementIdSql row.payload ≠ none)

-- No row goes, and what a row other than the parent's has saved stays.
structure Extends (parentId : String) (items items' : Table String ReviewRow) : Prop where
  rows : ∀ id, (items.get? id).isSome = true → (items'.get? id).isSome = true
  saved : ∀ id row, id ≠ parentId → items.get? id = some row →
    ∃ row', items'.get? id = some row' ∧ ∀ key value, row.payload.lookup key = some value → row'.payload.lookup key = some value

theorem Extends.refl (items : Table String ReviewRow) : Extends parentId items items :=
  ⟨fun _ here => here, fun _ row _ here => ⟨row, here, fun _ _ saved => saved⟩⟩

theorem Extends.trans {a b c : Table String ReviewRow} (first : Extends parentId a b) (second : Extends parentId b c) : Extends parentId a c where
  rows id here := second.rows id (first.rows id here)
  saved id row apart here := by
    obtain ⟨row', here', kept⟩ := first.saved id row apart here
    obtain ⟨row'', here'', kept'⟩ := second.saved id row' apart here'
    exact ⟨row'', here'', fun key value saved => kept' key value (kept key value saved)⟩

-- Writing the parent's row.
theorem extends_parent (items : Table String ReviewRow) (row : ReviewRow) : Extends parentId items (items.set parentId row) where
  rows _ here := Table.isSome_set.mpr (.inr here)
  saved id old apart here := ⟨old, by rw [Table.get?_set, if_neg apart]; exact here, fun _ _ saved => saved⟩

-- Writing another row, with what it had.
theorem extends_row {items : Table String ReviewRow} {id : String} (row : ReviewRow)
    (kept : ∀ old, items.get? id = some old → ∀ key value, old.payload.lookup key = some value → row.payload.lookup key = some value) :
    Extends parentId items (items.set id row) where
  rows _ here := Table.isSome_set.mpr (.inr here)
  saved other old apart here := by
    rw [Table.get?_set]
    by_cases same : other = id
    · subst same
      exact ⟨row, if_pos rfl, kept old here⟩
    · exact ⟨old, by rw [if_neg same]; exact here, fun _ _ saved => saved⟩

theorem parsed_replacement {payload : JsonObject} {parsed : ReviewWorkPayload} (read : parseReviewPayload fields payload = some parsed) :
    parsed.staleHeadReplacement = normalizeStaleHeadReplacement payload := by
  obtain ⟨_, _, rfl⟩ := Option.map_eq_some_iff.mp read
  rfl

theorem nameReplacement_fits {payload : ReviewWorkPayload} {randomUUID id : String} {named : RescheduleDb} {anchor : Option String}
    (fresh : randomUUID ≠ "") (fits : Fits parentId anchor db.items)
    (loaded : ∀ replacement, payload.staleHeadReplacement = some replacement → anchor = some replacement.replacementWorkItemId)
    (given : nameReplacement fields parentId db payload randomUUID = some (id, named)) :
    id ≠ "" ∧ (anchor = some id ∨ anchor = none ∧ id = randomUUID) ∧ Fits parentId (some id) named.items ∧
      Extends parentId db.items named.items ∧ ∀ key, (named.items.get? key).isSome = (db.items.get? key).isSome := by
  obtain ⟨row, here, reads, kept⟩ := fits
  rw [nameReplacement] at given
  cases own : payload.staleHeadReplacement with
  | some replacement =>
      rw [own] at given
      cases given
      have same := loaded replacement own
      refine ⟨payload.nonempty replacement own, .inl same, ⟨row, here, ?_, ?_⟩, .refl db.items, fun _ => rfl⟩
      · rw [← same]
        exact reads
      · rw [← same]
        exact kept
  | none =>
      rw [own] at given
      simp only [here, Option.bind_some] at given
      by_cases absent : staleHeadReplacementIdSql row.payload = none
      · rw [if_pos absent] at given
        obtain ⟨found, stored, made⟩ := Option.map_eq_some_iff.mp given
        obtain ⟨sql, read⟩ := stamped_ids fresh row.payload .pendingEnqueue
        rw [sql] at stored
        cases stored
        cases made
        have none_given : anchor = none := by
          cases given : anchor with
          | none => rfl
          | some other => exact absurd absent (kept (by rw [given]; rfl))
        refine ⟨fresh, .inr ⟨none_given, rfl⟩, ⟨_, Table.get?_set_self db.items parentId _, ?_, ?_⟩, extends_parent db.items _, ?_⟩
        · intro id' found
          exact read.symm.trans found
        · intro _ gone
          rw [sql] at gone
          cases gone
        · intro key
          rw [Table.get?_set]
          by_cases same : key = parentId
          · rw [if_pos same, same, here]
            rfl
          · rw [if_neg same]
      · rw [if_neg absent] at given
        obtain ⟨refreshed, read, given⟩ := Option.bind_eq_some_iff.mp given
        obtain ⟨persisted, stored, made⟩ := Option.map_eq_some_iff.mp given
        cases made
        rw [parsed_replacement read] at stored
        have found : readId row.payload = some persisted.replacementWorkItemId := by rw [readId, stored, Option.map_some]
        have same := reads _ found
        refine ⟨readId_nonempty found, .inl same, ⟨row, here, ?_, ?_⟩, .refl db.items, fun _ => rfl⟩
        · rw [← same]
          exact reads
        · rw [← same]
          exact kept

theorem insertReplacement_fits {id : String} {source : WorkSource} {payload : JsonObject}
    (apart : ∀ key ∈ replacementKeys, payload.lookup key = none) (fits : Fits parentId (some id) db.items) :
    Fits parentId (some id) (insertReplacement db id source payload).2.items ∧
      Extends parentId db.items (insertReplacement db id source payload).2.items ∧
      ((insertReplacement db id source payload).2.items.get? id).isSome = true := by
  obtain ⟨row, here, reads, kept⟩ := fits
  rw [insertReplacement]
  cases stored : db.items.get? id with
  | none =>
      have other := Table.ne_of_stored here stored
      refine ⟨⟨row, by rw [Table.get?_set_of_ne _ _ _ other]; exact here, reads, kept⟩, extends_row _ ?_, by rw [Table.get?_set_self]; rfl⟩
      intro old found
      rw [stored] at found
      cases found
  | some old =>
      refine ⟨?_, extends_row _ ?_, by rw [Table.get?_set_self]; rfl⟩
      · by_cases same : parentId = id
        · subst same
          rw [here] at stored
          cases stored
          refine ⟨_, Table.get?_set_self db.items parentId _, ?_, ?_⟩
          · intro id' found
            exact reads id' (readId_under apart found)
          · intro some_id gone
            rw [sql_under apart] at gone
            exact kept some_id gone
        · exact ⟨row, by rw [Table.get?_set_of_ne _ _ _ same]; exact here, reads, kept⟩
      · intro before found key value saved
        rw [stored] at found
        cases found
        exact merge_saved saved payload

theorem markEnqueued_fits {id : String} (nonempty : id ≠ "") (fits : Fits parentId (some id) db.items) :
    Fits parentId (some id) (markStaleHeadReplacementEnqueued parentId db id).items ∧
      Extends parentId db.items (markStaleHeadReplacementEnqueued parentId db id).items ∧
      ∀ key, ((markStaleHeadReplacementEnqueued parentId db id).items.get? key).isSome = (db.items.get? key).isSome := by
  obtain ⟨row, here, reads, kept⟩ := fits
  have rows (key : String) : ((markStaleHeadReplacementEnqueued parentId db id).items.get? key).isSome = (db.items.get? key).isSome := by
    rw [markStaleHeadReplacementEnqueued, Table.get?_updateWhere, Option.isSome_map]
  refine ⟨?_, ⟨fun key here => (rows key).trans here, ?_⟩, rows⟩
  · refine ⟨_, by rw [markStaleHeadReplacementEnqueued, Table.get?_updateWhere, here, Option.map_some], ?_⟩
    by_cases own : staleHeadReplacementIdSql row.payload = some id
    · obtain ⟨sql, read⟩ := stamped_ids nonempty row.payload .enqueued
      rw [if_pos (by rw [decide_eq_true rfl, decide_eq_true own]; rfl)]
      refine ⟨fun id' found => read.symm.trans found, ?_⟩
      intro _ gone
      rw [sql] at gone
      cases gone
    · rw [if_neg (by simp [own])]
      exact ⟨reads, kept⟩
  · intro key old apart found
    refine ⟨old, ?_, fun _ _ saved => saved⟩
    rw [markStaleHeadReplacementEnqueued, Table.get?_updateWhere, found, Option.map_some, if_neg (by simp [apart])]

theorem writeJobs_fits {id : String} (nonempty : id ≠ "") (fits : Fits parentId (some id) db.items) :
    Fits parentId (some id) (writeReviewRescheduleJobs parentId db id).items ∧ Extends parentId db.items (writeReviewRescheduleJobs parentId db id).items ∧
      ∀ key, ((writeReviewRescheduleJobs parentId db id).items.get? key).isSome = (db.items.get? key).isSome :=
  @markEnqueued_fits parentId
    { db with reviewJobs := ensureDeterministicJob db.reviewJobs id, ackJobs := ensureDeterministicJob db.ackJobs id } id nonempty fits

theorem nextPayload_apart (source : WorkSource) (payload : ReviewWorkPayload) : ∀ key ∈ replacementKeys, (nextPayload source payload).lookup key = none := by
  intro key listed
  rw [nextPayload, lookup_merge, payload.plain key listed, Option.or_none]
  simp only [replacementKeys, legacyKeys, List.mem_cons, List.not_mem_nil, or_false] at listed
  rcases listed with rfl | rfl | rfl
  · rfl
  · rfl
  · rfl

-- All that a transaction writes.
theorem writeReplacement_fits {source : WorkSource} {payload : ReviewWorkPayload} {boss : Bool} {randomUUID id : String} {headSha : HeadSha}
    {written : RescheduleDb} {anchor : Option String} (fresh : randomUUID ≠ "") (fits : Fits parentId anchor db.items)
    (loaded : ∀ replacement, payload.staleHeadReplacement = some replacement → anchor = some replacement.replacementWorkItemId)
    (given : writeReplacement fields parentId db source payload boss randomUUID = some (id, headSha, written)) :
    id ≠ "" ∧ (anchor = some id ∨ anchor = none ∧ id = randomUUID) ∧ Fits parentId (some id) written.items ∧
      Extends parentId db.items written.items ∧ (written.items.get? id).isSome = true := by
  obtain ⟨⟨found, named⟩, name, made⟩ := Option.map_eq_some_iff.mp given
  cases made
  obtain ⟨nonempty, which, fits, before, _⟩ := nameReplacement_fits fresh fits loaded name
  obtain ⟨fits, inserts, here⟩ := insertReplacement_fits (nextPayload_apart source payload) fits
  refine ⟨nonempty, which, ?_⟩
  cases boss with
  | false => exact ⟨fits, before.trans inserts, here⟩
  | true =>
      obtain ⟨fits, marks, rows⟩ := @writeJobs_fits parentId
        { (insertReplacement named id source (nextPayload source payload)).2 with
          progress := some (transferProgressCommentOwnership id (insertReplacement named id source (nextPayload source payload)).2.progress) } id nonempty fits
      exact ⟨fits, (before.trans inserts).trans marks, (rows id).trans here⟩

end Writes

section Invariant

variable {fields : JsonObject → Option JsonObject} {parentId : String} {s t : RescheduleState}

def ReschedulePhase.holdsIntake : ReschedulePhase → Bool
  | .locked | .permitted | .leased | .held => true
  | _ => false

def ReschedulePhase.isPermitted : ReschedulePhase → Bool
  | .permitted | .leased | .held => true
  | _ => false

def isClosed (lifecycle : Option ReviewState) : Bool := lifecycle = some .closed || lifecycle = some .merged

-- The parent may still be rescheduled.
def ParentLive (parentId : String) (items : Table String ReviewRow) : Prop :=
  ∃ row, items.get? parentId = some row ∧ row.status = .running ∧ row.cancelRequested = false

-- What an attempt holds, and what it has seen that its locks keep.
structure AttemptOk (parentId : String) (s : RescheduleState) (i : Nat) (phase : ReschedulePhase) : Prop where
  intake : phase.holdsIntake = true → s.intake = some i
  parentRow : phase = .held → s.parentRow = some i
  permitted : phase.isPermitted = true → isClosed s.db.lifecycle = false
  running : phase = .held → ParentLive parentId s.db.items

-- One id, if any, is what every reader of the parent's row finds, every attempt gave and every attempt inserted.
structure Anchored (parentId : String) (s : RescheduleState) (anchor : Option String) : Prop where
  parent : Fits parentId anchor s.db.items
  loaded : ∀ i attempt, s.attempts i = some attempt →
    ∀ replacement, attempt.payload.staleHeadReplacement = some replacement → anchor = some replacement.replacementWorkItemId
  named : ∀ id ∈ s.named, anchor = some id
  created : ∀ id ∈ s.created, anchor = some id

structure RescheduleOk (parentId : String) (s : RescheduleState) : Prop where
  anchored : ∃ anchor, Anchored parentId s anchor
  rows : ∀ id ∈ s.created, (s.db.items.get? id).isSome = true
  once : s.created.Nodup
  attempts : ∀ i attempt, s.attempts i = some attempt → AttemptOk parentId s i attempt.phase

variable {i : Nat} {phase : ReschedulePhase}

-- The locks of an attempt keep what it has seen from changing.
theorem AttemptOk.keep (ok : AttemptOk parentId s i phase)
    (intake : s.intake = some i → t.intake = some i ∧ t.db.lifecycle = s.db.lifecycle)
    (row : s.parentRow = some i → t.parentRow = some i ∧ (ParentLive parentId s.db.items → ParentLive parentId t.db.items)) :
    AttemptOk parentId t i phase where
  intake holds := (intake (ok.intake holds)).1
  parentRow held := (row (ok.parentRow held)).1
  permitted may := by
    have holds : phase.holdsIntake = true := by
      cases phase with
      | permitted => rfl
      | leased => rfl
      | held => rfl
      | _ => cases may
    rw [(intake (ok.intake holds)).2]
    exact ok.permitted may
  running held := (row (ok.parentRow held)).2 (ok.running held)

theorem attemptOk_loose (loose : phase.holdsIntake = false) : AttemptOk parentId s i phase where
  intake holds := by
    rw [loose] at holds
    cases holds
  parentRow held := by
    rw [held] at loose
    cases loose
  permitted may := by
    cases phase with
    | permitted => cases loose
    | leased => cases loose
    | held => cases loose
    | _ => cases may
  running held := by
    rw [held] at loose
    cases loose

theorem attemptOk_waiting (apart : phase ≠ .held) (intake : s.intake = some i)
    (permitted : phase.isPermitted = true → isClosed s.db.lifecycle = false) : AttemptOk parentId s i phase :=
  ⟨fun _ => intake, fun held => absurd held apart, permitted, fun held => absurd held apart⟩

variable {attempt : RescheduleAttempt}

-- A statement that writes no row yet.
theorem RescheduleOk.go (ok : RescheduleOk parentId s)
    (stored : s.attempts i = some attempt) (attempts : t.attempts = Function.update s.attempts i (some { attempt with phase })) (db : t.db = s.db)
    (created : t.created = s.created) (named : t.named = s.named) (own : AttemptOk parentId t i phase)
    (locks : ∀ j, j ≠ i → (s.intake = some j → t.intake = some j) ∧ (s.parentRow = some j → t.parentRow = some j)) : RescheduleOk parentId t := by
  obtain ⟨anchor, anchored⟩ := ok.anchored
  constructor
  · refine ⟨anchor, ⟨by rw [db]; exact anchored.parent, ?_, by rw [named]; exact anchored.named, by rw [created]; exact anchored.created⟩⟩
    intro j other found
    rw [attempts, Function.update_apply] at found
    by_cases same : j = i
    · rw [if_pos same] at found
      cases found
      exact anchored.loaded i attempt stored
    · rw [if_neg same] at found
      exact anchored.loaded j other found
  · rw [db, created]
    exact ok.rows
  · rw [created]
    exact ok.once
  · intro j other found
    rw [attempts, Function.update_apply] at found
    by_cases same : j = i
    · rw [if_pos same] at found
      cases found
      rw [same]
      exact own
    · rw [if_neg same] at found
      obtain ⟨intake, row⟩ := locks j same
      exact (ok.attempts j other found).keep (fun holds => ⟨intake holds, by rw [db]⟩) (fun holds => ⟨row holds, by rw [db]; exact id⟩)

theorem RescheduleOk.rollback (ok : RescheduleOk parentId s) (stored : s.attempts i = some attempt)
    (failure : RescheduleFailure) : RescheduleOk parentId (s.rollback i attempt failure) := by
  refine ok.go stored rfl rfl rfl rfl (attemptOk_loose rfl) ?_
  intro j other
  constructor
  · intro holds
    have apart : s.intake ≠ some i := by
      rw [holds]
      exact fun same => other (Option.some.inj same)
    rw [RescheduleState.rollback, if_neg apart]
    exact holds
  · intro holds
    have apart : s.parentRow ≠ some i := by
      rw [holds]
      exact fun same => other (Option.some.inj same)
    rw [RescheduleState.rollback]
    simp only [if_neg apart]
    exact holds

-- Ids are fresh, and others leave the keys of the replacement in the parent's payload alone.
def allowed (s : RescheduleState) : RescheduleEvent → Bool
  | .run _ (.commit randomUUID) => randomUUID ≠ "" && (s.db.items.get? randomUUID).isNone
  | .updateParent _ _ patch => ("staleHeadRescheduled" :: replacementKeys).all fun key => (patch.lookup key).isNone
  | _ => true

theorem commit_ok {randomUUID id : String} {headSha : HeadSha} {db : RescheduleDb}
    (ok : RescheduleOk parentId s) (stored : s.attempts i = some attempt) (held : attempt.phase = .held) (fresh : randomUUID ≠ "")
    (given : writeReplacement fields parentId s.db attempt.source attempt.payload attempt.boss randomUUID = some (id, headSha, db)) :
    RescheduleOk parentId
      { s.setPhase i attempt (.rescheduled id headSha) with
        db, intake := none, parentRow := none, named := s.named ++ [id]
        created := if (s.db.items.get? id).isNone then s.created ++ [id] else s.created } := by
  obtain ⟨anchor, anchored⟩ := ok.anchored
  obtain ⟨_, which, fits, extends_, here⟩ := writeReplacement_fits fresh anchored.parent (anchored.loaded i attempt stored) given
  have grows {x : String} (before : anchor = some x) : some id = some x := by
    rcases which with same | ⟨none_given, _⟩
    · exact same.symm.trans before
    · rw [none_given] at before
      cases before
  have holds := (ok.attempts i attempt stored).intake (by rw [held]; rfl)
  constructor
  · refine ⟨some id, fits, ?_, ?_, ?_⟩
    · intro j other found replacement named
      rw [RescheduleState.setPhase] at found
      simp only [Function.update_apply] at found
      by_cases same : j = i
      · rw [if_pos same] at found
        cases found
        exact grows (anchored.loaded i attempt stored replacement named)
      · rw [if_neg same] at found
        exact grows (anchored.loaded j other found replacement named)
    · intro x listed
      rcases List.mem_append.mp listed with before | last
      · exact grows (anchored.named x before)
      · rw [List.mem_singleton.mp last]
    · intro x listed
      by_cases absent : (s.db.items.get? id).isNone = true
      · rw [if_pos absent] at listed
        rcases List.mem_append.mp listed with before | last
        · exact grows (anchored.created x before)
        · rw [List.mem_singleton.mp last]
      · rw [if_neg absent] at listed
        exact grows (anchored.created x listed)
  · intro x listed
    by_cases absent : (s.db.items.get? id).isNone = true
    · simp only [if_pos absent] at listed
      rcases List.mem_append.mp listed with before | last
      · exact extends_.rows x (ok.rows x before)
      · rw [List.mem_singleton.mp last]
        exact here
    · simp only [if_neg absent] at listed
      exact extends_.rows x (ok.rows x listed)
  · by_cases absent : (s.db.items.get? id).isNone = true
    · simp only [if_pos absent]
      refine List.nodup_append.mpr ⟨ok.once, List.nodup_singleton id, ?_⟩
      intro x before y last same
      rw [List.mem_singleton.mp last] at same
      have present := ok.rows x before
      rw [same, Option.isSome_iff_ne_none] at present
      exact present (Option.isNone_iff_eq_none.mp absent)
    · simp only [if_neg absent]
      exact ok.once
  · intro j other found
    rw [RescheduleState.setPhase] at found
    simp only [Function.update_apply] at found
    by_cases same : j = i
    · rw [if_pos same] at found
      cases found
      exact attemptOk_loose rfl
    · rw [if_neg same] at found
      have loose : other.phase.holdsIntake = false := by
        by_contra intake
        rw [Bool.not_eq_false] at intake
        have own := (ok.attempts j other found).intake intake
        rw [holds] at own
        exact same (Option.some.inj own).symm
      exact attemptOk_loose loose

theorem runStatement_ok {statement : RescheduleStatement} (ok : RescheduleOk parentId s)
    (stored : s.attempts i = some attempt) (may : allowed s (.run i statement) = true)
    (moved : runStatement fields parentId s i attempt statement = some t) : RescheduleOk parentId t := by
  have own := ok.attempts i attempt stored
  cases statement with
  | acquireIntakeLock =>
      obtain ⟨⟨phase, free⟩, made⟩ := Option.ite_none_right_eq_some.mp moved
      cases made
      refine ok.go stored rfl rfl rfl rfl (attemptOk_waiting (by decide) rfl ?_) ?_
      · intro may
        cases may
      · intro j other
        refine ⟨?_, id⟩
        intro holds
        rw [free] at holds
        cases holds
  | readLifecycle =>
      obtain ⟨phase, moved⟩ := Option.ite_none_right_eq_some.mp moved
      by_cases shut : s.db.lifecycle = some .closed ∨ s.db.lifecycle = some .merged
      · rw [if_pos shut] at moved
        cases moved
        exact ok.rollback stored _
      · rw [if_neg shut] at moved
        cases moved
        rw [not_or] at shut
        have opened : isClosed s.db.lifecycle = false := Bool.or_eq_false_iff.mpr ⟨decide_eq_false shut.1, decide_eq_false shut.2⟩
        exact ok.go stored rfl rfl rfl rfl (attemptOk_waiting (by decide) (own.intake (by rw [phase]; rfl)) fun _ => opened) fun _ _ => ⟨id, id⟩
  | lockLease =>
      obtain ⟨phase, moved⟩ := Option.ite_none_right_eq_some.mp moved
      by_cases leased : s.db.lease = some attempt.leaseEpoch
      · rw [if_pos leased] at moved
        cases moved
        have opened := own.permitted (by rw [phase]; rfl)
        exact ok.go stored rfl rfl rfl rfl (attemptOk_waiting (by decide) (own.intake (by rw [phase]; rfl)) fun _ => opened) fun _ _ => ⟨id, id⟩
      · rw [if_neg leased] at moved
        cases moved
        exact ok.rollback stored _
  | lockParent =>
      obtain ⟨⟨phase, free⟩, moved⟩ := Option.ite_none_right_eq_some.mp moved
      by_cases live : ((s.db.items.get? parentId).any fun row => row.status = .running && !row.cancelRequested) = true
      · rw [if_pos live] at moved
        cases moved
        refine ok.go stored rfl rfl rfl rfl
          ⟨fun _ => own.intake (by rw [phase]; rfl), fun _ => rfl, fun _ => own.permitted (by rw [phase]; rfl), fun _ => ?_⟩ ?_
        · cases here : s.db.items.get? parentId with
          | none =>
              rw [here] at live
              cases live
          | some row =>
              rw [here, Option.any_some, Bool.and_eq_true, decide_eq_true_iff, Bool.not_eq_true'] at live
              exact ⟨row, here, live⟩
        · intro j other
          refine ⟨id, ?_⟩
          intro holds
          rw [free] at holds
          cases holds
      · rw [if_neg live] at moved
        cases moved
        exact ok.rollback stored _
  | commit randomUUID =>
      rw [allowed, Bool.and_eq_true, decide_eq_true_iff] at may
      obtain ⟨phase, moved⟩ := Option.ite_none_right_eq_some.mp moved
      cases given : writeReplacement fields parentId s.db attempt.source attempt.payload attempt.boss randomUUID with
      | none =>
          rw [given] at moved
          cases moved
          exact ok.rollback stored _
      | some written =>
          obtain ⟨id, headSha, db⟩ := written
          rw [given] at moved
          cases moved
          exact commit_ok ok stored phase may.1 given
  | crash =>
      rw [runStatement] at moved
      obtain ⟨_, moved⟩ := Option.ite_none_left_eq_some.mp moved
      cases moved
      exact ok.rollback stored _

-- A change of the rows that no attempt makes.
theorem RescheduleOk.rewrite {items : Table String ReviewRow} (ok : RescheduleOk parentId s)
    (fits : ∀ anchor, Fits parentId anchor s.db.items → Fits parentId anchor items)
    (rows : ∀ id, (s.db.items.get? id).isSome = true → (items.get? id).isSome = true)
    (live : s.parentRow ≠ none → ParentLive parentId s.db.items → ParentLive parentId items) :
    RescheduleOk parentId { s with db := { s.db with items } } := by
  obtain ⟨anchor, anchored⟩ := ok.anchored
  constructor
  · exact ⟨anchor, fits anchor anchored.parent, anchored.loaded, anchored.named, anchored.created⟩
  · intro id listed
    exact rows id (ok.rows id listed)
  · exact ok.once
  · intro i attempt stored
    refine (ok.attempts i attempt stored).keep (fun holds => ⟨holds, rfl⟩) fun holds => ⟨holds, live ?_⟩
    rw [holds]
    exact Option.some_ne_none i

theorem rescheduleStep_ok {event : RescheduleEvent} (ok : RescheduleOk parentId s) (may : allowed s event = true)
    (moved : rescheduleStep fields parentId s event = some t) : RescheduleOk parentId t := by
  cases event with
  | load i leaseEpoch boss =>
      rw [rescheduleStep] at moved
      obtain ⟨_, moved⟩ := Option.ite_none_left_eq_some.mp moved
      obtain ⟨row, here, moved⟩ := Option.bind_eq_some_iff.mp moved
      obtain ⟨payload, read, made⟩ := Option.map_eq_some_iff.mp moved
      cases made
      obtain ⟨anchor, anchored⟩ := ok.anchored
      constructor
      · refine ⟨anchor, anchored.parent, ?_, anchored.named, anchored.created⟩
        intro j other found replacement named
        simp only [Function.update_apply] at found
        by_cases same : j = i
        · rw [if_pos same] at found
          cases found
          obtain ⟨own, there, reads, _⟩ := anchored.parent
          rw [here] at there
          cases there
          rw [parsed_replacement read] at named
          exact reads _ (by rw [readId, named, Option.map_some])
        · rw [if_neg same] at found
          exact anchored.loaded j other found replacement named
      · exact ok.rows
      · exact ok.once
      · intro j other found
        simp only [Function.update_apply] at found
        by_cases same : j = i
        · rw [if_pos same] at found
          cases found
          exact attemptOk_loose rfl
        · rw [if_neg same] at found
          exact (ok.attempts j other found).keep (fun holds => ⟨holds, rfl⟩) fun holds => ⟨holds, id⟩
  | run i statement =>
      obtain ⟨attempt, stored, moved⟩ := Option.bind_eq_some_iff.mp moved
      exact runStatement_ok ok stored may moved
  | updateParent status requestCancel patch =>
      obtain ⟨free, moved⟩ := Option.ite_none_right_eq_some.mp moved
      obtain ⟨row, here, made⟩ := Option.map_eq_some_iff.mp moved
      cases made
      have apart : ∀ key ∈ "staleHeadRescheduled" :: replacementKeys, patch.lookup key = none := fun key listed =>
        Option.isNone_iff_eq_none.mp (List.all_eq_true.mp may key listed)
      refine ok.rewrite ?_ (fun _ here => Table.isSome_set.mpr (.inr here)) (fun held => absurd free held)
      rintro anchor ⟨own, there, reads, kept⟩
      rw [here] at there
      cases there
      refine ⟨_, Table.get?_set_self _ _ _, ?_, ?_⟩
      · intro id found
        rw [ReviewRow.change, readId_same apart] at found
        exact reads id found
      · intro some_id
        rw [ReviewRow.change, sql_same fun key listed => apart key (List.mem_cons_of_mem _ listed)]
        exact kept some_id
  | updateItem id status requestCancel headSha patch =>
      rw [rescheduleStep] at moved
      obtain ⟨own, moved⟩ := Option.ite_none_left_eq_some.mp moved
      obtain ⟨row, here, made⟩ := Option.map_eq_some_iff.mp moved
      cases made
      refine ok.rewrite ?_ (fun _ here => Table.isSome_set.mpr (.inr here)) ?_
      · rintro anchor ⟨parent, there, same⟩
        exact ⟨parent, by rw [Table.get?_set_of_ne _ _ _ (Ne.symm own)]; exact there, same⟩
      · rintro _ ⟨parent, there, same⟩
        exact ⟨parent, by rw [Table.get?_set_of_ne _ _ _ (Ne.symm own)]; exact there, same⟩
  | recordLifecycle lifecycle =>
      obtain ⟨free, made⟩ := Option.ite_none_right_eq_some.mp moved
      cases made
      obtain ⟨anchor, anchored⟩ := ok.anchored
      refine ⟨⟨anchor, anchored.parent, anchored.loaded, anchored.named, anchored.created⟩, ok.rows, ok.once, ?_⟩
      intro i attempt stored
      refine (ok.attempts i attempt stored).keep ?_ fun holds => ⟨holds, id⟩
      intro holds
      rw [free] at holds
      cases holds
  | changeLease lease =>
      cases moved
      obtain ⟨anchor, anchored⟩ := ok.anchored
      refine ⟨⟨anchor, anchored.parent, anchored.loaded, anchored.named, anchored.created⟩, ok.rows, ok.once, ?_⟩
      intro i attempt stored
      exact (ok.attempts i attempt stored).keep (fun holds => ⟨holds, rfl⟩) fun holds => ⟨holds, id⟩

end Invariant
section Runs

variable {fields : JsonObject → Option JsonObject} {parentId : String} {start s t : RescheduleState}

-- Before the first attempt, with any payload of the parent.
structure Starts (parentId : String) (s : RescheduleState) : Prop where
  parent : (s.db.items.get? parentId).isSome = true
  attempts : ∀ i, s.attempts i = none
  created : s.created = []
  named : s.named = []

def RescheduleEvent.patches (id key : String) : RescheduleEvent → Bool
  | .updateItem other _ _ _ patch => other = id && (patch.lookup key).isSome
  | _ => false

-- The payload of an item has a value under a key.
def Saved (id key : String) (value : RawJson) (s : RescheduleState) : Prop :=
  ∃ row, s.db.items.get? id = some row ∧ row.payload.lookup key = some value

abbrev RescheduleRun (fields : JsonObject → Option JsonObject) (parentId : String) (start s : RescheduleState) : Prop :=
  Reaches (rescheduleStep fields parentId) (fun s event => allowed s event = true) start s

theorem starts_ok (starts : Starts parentId s) : RescheduleOk parentId s := by
  obtain ⟨row, here⟩ := Option.isSome_iff_exists.mp starts.parent
  constructor
  · refine ⟨readId row.payload, ⟨row, here, fun _ found => found, ?_⟩, ?_, ?_, ?_⟩
    · intro some_id none_stored
      rw [readId_none none_stored] at some_id
      cases some_id
    · intro i attempt stored
      rw [starts.attempts i] at stored
      cases stored
    · rw [starts.named]
      exact fun _ listed => absurd listed List.not_mem_nil
    · rw [starts.created]
      exact fun _ listed => absurd listed List.not_mem_nil
  · rw [starts.created]
    exact fun _ listed => absurd listed List.not_mem_nil
  · rw [starts.created]
    exact List.nodup_nil
  · intro i attempt stored
    rw [starts.attempts i] at stored
    cases stored

theorem reached_ok (starts : Starts parentId start) (reached : RescheduleRun fields parentId start s) : RescheduleOk parentId s :=
  reached.invariant (RescheduleOk parentId) (starts_ok starts) fun _ _ _ ok may moved => rescheduleStep_ok ok may moved

theorem RescheduleOk.single (ok : RescheduleOk parentId s) :
    s.created.length ≤ 1 ∧ ∀ a ∈ s.created ++ s.named, ∀ b ∈ s.created ++ s.named, a = b := by
  obtain ⟨anchor, anchored⟩ := ok.anchored
  have one : ∀ a ∈ s.created ++ s.named, anchor = some a := by
    intro a listed
    rcases List.mem_append.mp listed with made | given
    · exact anchored.created a made
    · exact anchored.named a given
  have same : ∀ a ∈ s.created ++ s.named, ∀ b ∈ s.created ++ s.named, a = b := fun a here b there =>
    Option.some.inj ((one a here).symm.trans (one b there))
  refine ⟨?_, same⟩
  cases shape : s.created with
  | nil => exact Nat.zero_le 1
  | cons a rest =>
      cases rest with
      | nil => exact Nat.le_refl 1
      | cons b rest =>
          have once := ok.once
          rw [shape] at once
          have twice := same a (by rw [shape]; simp) b (by rw [shape]; simp)
          rw [twice] at once
          exact absurd List.mem_cons_self (List.nodup_cons.mp once).1

-- What a statement leaves: all rows, or what a commit writes.
theorem runStatement_rows {i : Nat} {attempt : RescheduleAttempt} {statement : RescheduleStatement}
    (moved : runStatement fields parentId s i attempt statement = some t) :
    (t.db = s.db ∧ t.created = s.created) ∨ ∃ randomUUID id headSha, statement = .commit randomUUID ∧ attempt.phase = .held ∧
      writeReplacement fields parentId s.db attempt.source attempt.payload attempt.boss randomUUID = some (id, headSha, t.db) := by
  cases statement with
  | acquireIntakeLock =>
      obtain ⟨_, made⟩ := Option.ite_none_right_eq_some.mp moved
      cases made
      exact .inl ⟨rfl, rfl⟩
  | readLifecycle =>
      obtain ⟨_, moved⟩ := Option.ite_none_right_eq_some.mp moved
      by_cases shut : s.db.lifecycle = some .closed ∨ s.db.lifecycle = some .merged
      · rw [if_pos shut] at moved
        cases moved
        exact .inl ⟨rfl, rfl⟩
      · rw [if_neg shut] at moved
        cases moved
        exact .inl ⟨rfl, rfl⟩
  | lockLease =>
      obtain ⟨_, moved⟩ := Option.ite_none_right_eq_some.mp moved
      by_cases leased : s.db.lease = some attempt.leaseEpoch
      · rw [if_pos leased] at moved
        cases moved
        exact .inl ⟨rfl, rfl⟩
      · rw [if_neg leased] at moved
        cases moved
        exact .inl ⟨rfl, rfl⟩
  | lockParent =>
      obtain ⟨_, moved⟩ := Option.ite_none_right_eq_some.mp moved
      by_cases live : ((s.db.items.get? parentId).any fun row => row.status = .running && !row.cancelRequested) = true
      · rw [if_pos live] at moved
        cases moved
        exact .inl ⟨rfl, rfl⟩
      · rw [if_neg live] at moved
        cases moved
        exact .inl ⟨rfl, rfl⟩
  | commit randomUUID =>
      obtain ⟨phase, moved⟩ := Option.ite_none_right_eq_some.mp moved
      cases given : writeReplacement fields parentId s.db attempt.source attempt.payload attempt.boss randomUUID with
      | none =>
          rw [given] at moved
          cases moved
          exact .inl ⟨rfl, rfl⟩
      | some written =>
          obtain ⟨id, headSha, db⟩ := written
          rw [given] at moved
          cases moved
          exact .inr ⟨randomUUID, id, headSha, rfl, phase, given⟩
  | crash =>
      rw [runStatement] at moved
      obtain ⟨_, moved⟩ := Option.ite_none_left_eq_some.mp moved
      cases moved
      exact .inl ⟨rfl, rfl⟩

variable {event : RescheduleEvent}

-- What an event does to the rows: an attempt runs a statement, or others change nothing, the parent's row or another one.
theorem step_rows (moved : rescheduleStep fields parentId s event = some t) :
    (∃ i statement attempt, event = .run i statement ∧ s.attempts i = some attempt ∧
      runStatement fields parentId s i attempt statement = some t) ∨
    t.created = s.created ∧
      (t.db.items = s.db.items ∨ (∃ row, t.db.items = s.db.items.set parentId row) ∨
        ∃ id status requestCancel headSha patch row, event = .updateItem id status requestCancel headSha patch ∧
          s.db.items.get? id = some row ∧
          t.db.items = s.db.items.set id { row.change status requestCancel patch with headSha }) := by
  cases event with
  | run i statement =>
      obtain ⟨attempt, stored, moved⟩ := Option.bind_eq_some_iff.mp moved
      exact .inl ⟨i, statement, attempt, rfl, stored, moved⟩
  | load i leaseEpoch boss =>
      rw [rescheduleStep] at moved
      obtain ⟨_, moved⟩ := Option.ite_none_left_eq_some.mp moved
      obtain ⟨row, _, moved⟩ := Option.bind_eq_some_iff.mp moved
      obtain ⟨payload, _, made⟩ := Option.map_eq_some_iff.mp moved
      cases made
      exact .inr ⟨rfl, .inl rfl⟩
  | updateParent status requestCancel patch =>
      obtain ⟨_, moved⟩ := Option.ite_none_right_eq_some.mp moved
      obtain ⟨row, _, made⟩ := Option.map_eq_some_iff.mp moved
      cases made
      exact .inr ⟨rfl, .inr (.inl ⟨_, rfl⟩)⟩
  | updateItem id status requestCancel headSha patch =>
      rw [rescheduleStep] at moved
      obtain ⟨_, moved⟩ := Option.ite_none_left_eq_some.mp moved
      obtain ⟨row, here, made⟩ := Option.map_eq_some_iff.mp moved
      cases made
      exact .inr ⟨rfl, .inr (.inr ⟨id, status, requestCancel, headSha, patch, row, rfl, here, rfl⟩)⟩
  | recordLifecycle lifecycle =>
      obtain ⟨_, made⟩ := Option.ite_none_right_eq_some.mp moved
      cases made
      exact .inr ⟨rfl, .inl rfl⟩
  | changeLease lease =>
      cases moved
      exact .inr ⟨rfl, .inl rfl⟩

-- A row comes only while the parent runs uncancelled and its pull request is open.
theorem created_live (ok : RescheduleOk parentId s) (moved : rescheduleStep fields parentId s event = some t)
    (grown : t.created ≠ s.created) : ParentLive parentId s.db.items ∧ isClosed s.db.lifecycle = false := by
  obtain ⟨i, statement, attempt, _, stored, ran⟩ := (step_rows moved).resolve_right fun others => grown others.1
  rcases runStatement_rows ran with ⟨_, same⟩ | ⟨randomUUID, id, headSha, _, phase, _⟩
  · exact absurd same grown
  · have own := ok.attempts i attempt stored
    exact ⟨own.running phase, own.permitted (by rw [phase]; rfl)⟩

theorem saved_rows {id key : String} {value : RawJson} (apart : id ≠ parentId) (extends_ : Extends parentId s.db.items t.db.items)
    (saved : Saved id key value s) : Saved id key value t := by
  obtain ⟨row, here, own⟩ := saved
  obtain ⟨row', here', kept⟩ := extends_.saved id row apart here
  exact ⟨row', here', kept key value own⟩

-- What an item has under a key stays until someone else patches the key.
theorem saved_step {id key : String} {value : RawJson} (ok : RescheduleOk parentId s) (may : allowed s event = true)
    (apart : id ≠ parentId) (other : event.patches id key = false) (moved : rescheduleStep fields parentId s event = some t)
    (saved : Saved id key value s) : Saved id key value t := by
  rcases step_rows moved with ⟨i, statement, attempt, rfl, stored, ran⟩ | ⟨_, same | ⟨row, parent⟩ | ⟨id', _, _, _, patch, row, rfl, here, changed⟩⟩
  · rcases runStatement_rows ran with ⟨same, _⟩ | ⟨randomUUID, id', headSha, rfl, _, given⟩
    · rw [Saved, same]
      exact saved
    · rw [allowed, Bool.and_eq_true, decide_eq_true_iff] at may
      obtain ⟨anchor, anchored⟩ := ok.anchored
      obtain ⟨_, _, _, extends_, _⟩ := writeReplacement_fits may.1 anchored.parent (anchored.loaded i attempt stored) given
      exact saved_rows apart extends_ saved
  · rw [Saved, same]
    exact saved
  · exact saved_rows apart (parent ▸ extends_parent s.db.items row) saved
  · obtain ⟨old, there, value_there⟩ := saved
    rw [Saved, changed]
    by_cases same : id = id'
    · subst same
      rw [RescheduleEvent.patches, decide_eq_true rfl, Bool.true_and, Option.isSome_eq_false_iff, Option.isNone_iff_eq_none] at other
      rw [here] at there
      cases there
      exact ⟨_, Table.get?_set_self _ _ _, (merge_other other row.payload).trans value_there⟩
    · exact ⟨old, by rw [Table.get?_set_of_ne _ _ _ same]; exact there, value_there⟩

theorem saved_run {id key : String} {value : RawJson} (ok : RescheduleOk parentId s) (apart : id ≠ parentId) (saved : Saved id key value s)
    (reached : Reaches (rescheduleStep fields parentId) (fun s event => allowed s event = true ∧ event.patches id key = false) s t) :
    Saved id key value t := by
  have both := reached.invariant (fun s => RescheduleOk parentId s ∧ Saved id key value s) ⟨ok, saved⟩
    fun _ _ _ held may moved => ⟨rescheduleStep_ok held.1 may.1 moved, saved_step held.1 may.1 apart may.2 moved held.2⟩
  exact both.2

-- Over every run of attempts, crashes, cancellations, closings and edits, from any payload of the parent.
theorem stale_head_replacement_once (fields : JsonObject → Option JsonObject) (parentId : String) {start s : RescheduleState} (starts : Starts parentId start)
    (reached : RescheduleRun fields parentId start s) :
    (s.created.length ≤ 1 ∧ ∀ a ∈ s.created ++ s.named, ∀ b ∈ s.created ++ s.named, a = b) ∧
    (∀ id key value t, id ≠ parentId → Saved id key value s →
      Reaches (rescheduleStep fields parentId) (fun s event => allowed s event = true ∧ event.patches id key = false) s t → Saved id key value t) ∧
    (∀ event t, rescheduleStep fields parentId s event = some t → t.created ≠ s.created →
      ParentLive parentId s.db.items ∧ isClosed s.db.lifecycle = false) := by
  have ok := reached_ok starts reached
  exact ⟨ok.single, fun _ _ _ _ apart saved further => saved_run ok apart saved further, fun _ _ moved grown => created_live ok moved grown⟩

def parentPayload : JsonObject := [("mode", .string "review"), ("source", .string "auto")]

def freshStart : RescheduleState where
  db :=
    { items := Table.empty.set "parent" ⟨.auto, .running, false, .deferred, parentPayload⟩
      lifecycle := none, lease := some 7, progress := none, reviewJobs := [], ackJobs := [] }
  attempts := fun _ => none
  intake := none
  parentRow := none
  created := []
  named := []

def attemptEvents (i : Nat) (randomUUID : String) : List RescheduleEvent :=
  [.acquireIntakeLock, .readLifecycle, .lockLease, .lockParent, .commit randomUUID].map (.run i)

-- Both attempts have loaded the parent before its marker; the replacement is edited between their commits.
def twoAttempts : List RescheduleEvent :=
  [.load 0 7 true, .load 1 7 true] ++ attemptEvents 0 "r1" ++ [.updateItem "r1" .running false .deferred [("publishDegraded", .bool true)]] ++
    attemptEvents 1 "r2"

def afterTwo : RescheduleState := runTo (rescheduleStep some "parent") (fun s event => decide (allowed s event = true)) twoAttempts freshStart freshStart

theorem two_attempts_once : afterTwo.created = ["r1"] ∧ afterTwo.named = ["r1", "r1"] ∧ afterTwo.created.length ≤ 1 := by
  have starts : Starts "parent" freshStart := ⟨by decide +kernel, fun _ => rfl, rfl, rfl⟩
  have reached : RescheduleRun some "parent" freshStart afterTwo :=
    reaches_runTo twoAttempts freshStart freshStart (by decide +kernel)
  exact ⟨by decide +kernel, by decide +kernel, (stale_head_replacement_once some "parent" starts reached).1.1⟩

end Runs
end PrAgent.StaleHead
