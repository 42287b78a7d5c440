import PrAgent.AskReplyInvariant
set_option autoImplicit false

namespace PrAgent

section Statements

variable {item : AskWorkItem} {bot : Login} {leaseKeyOf : WorkItemId → LeaseKey} {fact : AskState → Prop}
  {key : OperationKey} {row : Option (OperationIntent CommentId) → Prop}

theorem store_statement {op : PublishOp CommentId} {before : AskState → Prop}
    {normal : (publishInterface CommentId).Ans op → AskState → Prop} {exceptional : Thrown → AskState → Prop}
    (effect : PublishState CommentId → (publishInterface CommentId).Ans op × PublishState CommentId)
    (acts : ∀ reply db, publishAct leaseKeyOf ⟨item.id, none, key⟩ op reply db = statement reply db (effect db))
    (stable : Stable (askContract item bot leaseKeyOf) before)
    (keeps : ∀ s, before s → AskInv item bot leaseKeyOf s →
      AskInv item bot leaseKeyOf { s with db := (effect s.db).2 } ∧ normal (effect s.db).1 { s with db := (effect s.db).2 } ∧
        exceptional .database { s with db := (effect s.db).2 } ∧ exceptional .database s) :
    Triple (askContract item bot leaseKeyOf) before (await (.store key op)) normal exceptional := by
  refine Triple.perform stable ?_
  rintro s answer t holds inv ⟨reply, _, acted⟩
  obtain ⟨kept, done, failed, untouched⟩ := keeps s holds inv
  cases reply with
  | store reply =>
    simp only [askAct] at acted
    rw [acts reply s.db] at acted
    obtain ⟨⟨answered, db⟩, served, moved⟩ := Option.map_eq_some_iff.mp acted
    obtain ⟨rfl, rfl⟩ := Prod.mk.inj moved
    rcases statement_cases served with ⟨rfl, rfl⟩ | ⟨rfl, rfl | rfl⟩
    · exact ⟨kept, done⟩
    · exact ⟨kept, failed⟩
    · exact ⟨inv, untouched⟩
  | served | failed | listed | posted | lost | refused => cases acted

-- An operation that leaves the state as it is.
theorem await_reads {op : AskOp} {before : AskState → Prop} {normal : askInterface.Ans op → AskState → Prop}
    {exceptional : Thrown → AskState → Prop} (stable : Stable (askContract item bot leaseKeyOf) before)
    (reads : ∀ s reply answer t, before s → AskInv item bot leaseKeyOf s → AskStepOk item bot s op reply →
      askAct item bot leaseKeyOf op reply s = some (answer, t) → t = s ∧
        (match answer with | .ok value => normal value s | .error error => exceptional error s)) :
    Triple (askContract item bot leaseKeyOf) before (await op) normal exceptional := by
  refine Triple.perform stable ?_
  rintro s answer t holds inv ⟨reply, ok, acted⟩
  obtain ⟨rfl, after⟩ := reads s reply answer t holds inv ok acted
  refine ⟨inv, ?_⟩
  cases answer with
  | ok value => exact after
  | error error => exact after

def AnyRow (_ : Option (OperationIntent CommentId)) : Prop := True

-- A write of one row, whatever the statement.
theorem Surface.of_db {s : AskState} (surface : Surface bot fact) (db : PublishState CommentId) (holds : fact s) :
    fact { s with db } :=
  surface s { s with db } holds id fun _ => rfl

variable {patch : IntentDetail CommentId}

theorem store_persist (harmless : patch.Harmless) (surface : Surface bot fact) :
    Triple (askContract item bot leaseKeyOf) (Known item key fact row) (await (.store key (.persist patch)))
      (fun answer => Known item key fact fun r =>
        r = answer ∧ (∀ stored ∈ r, stored.Sound) ∧ ∃ r₀, row r₀ ∧ answer = some (persistRow patch r₀))
      (fun _ => Known item key fact AnyRow) := by
  refine store_statement (fun db => persistStatement db ⟨item.id, none, key⟩ patch) (fun _ _ => rfl)
    (Known.stable surface row) ?_
  intro s known inv
  simp only [@persist_intent item _ s patch]
  have here := @intent_write item key s (persistRow patch (s.intent item key))
    (s.db.write ⟨item.id, key⟩ (persistRow patch (s.intent item key))) rfl
  have after := here key
  rw [if_pos rfl] at after
  have kept : AskInv item bot leaseKeyOf
      { s with db := s.db.write ⟨item.id, key⟩ (persistRow patch (s.intent item key)) } := by
    refine @AskInv.write _ _ _ _ _ key inv rfl rfl rfl (fun other ne => by rw [here other, if_neg ne]) ?_ ?_
    · intro stored at_key
      rw [after] at at_key
      obtain rfl := Option.some.inj at_key
      cases old : s.intent item key with
      | none => exact ⟨harmless.result, fun settled => (nomatch settled), harmless.unleased⟩
      | some old' => exact inv.rows key old' old
    · intro posted
      obtain ⟨old, stored, guarded⟩ := inv.covered key posted
      exact ⟨old, by rw [after, stored, persistRow], guarded⟩
  refine ⟨kept, ⟨surface.of_db _ known.1, after, kept.rows key, s.intent item key, known.2, rfl⟩,
    ⟨surface.of_db _ known.1, trivial⟩, ⟨known.1, trivial⟩⟩

theorem store_merge (harmless : patch.Harmless) (held : patch.mutating = some true ∨ patch.result.isSome) (surface : Surface bot fact) :
    Triple (askContract item bot leaseKeyOf) (Known item key fact row) (await (.store key (.merge patch)))
      (fun _ => Known item key fact fun r => ∃ r₀, row r₀ ∧ (∀ old ∈ r₀, old.Sound) ∧ r = r₀.map (mergeRow patch))
      (fun _ => Known item key fact AnyRow) := by
  refine store_statement (fun db => mergeStatement db ⟨item.id, none, key⟩ patch) (fun _ _ => rfl)
    (Known.stable surface row) ?_
  intro s known inv
  obtain ⟨leases, here⟩ := @merge_intent item key s patch
  have after := here key
  rw [if_pos rfl] at after
  refine ⟨?_, ⟨surface.of_db _ known.1, s.intent item key, known.2, inv.rows key, after⟩,
    ⟨surface.of_db _ known.1, trivial⟩, ⟨known.1, trivial⟩⟩
  refine @AskInv.write _ _ _ _ _ key inv leases rfl rfl (fun other ne => by rw [here other, if_neg ne]) ?_ ?_
  · intro stored at_key
    rw [after] at at_key
    obtain ⟨old, before, rfl⟩ := Option.map_eq_some_iff.mp at_key
    exact mergeRow_sound harmless (inv.rows key old before)
  · intro posted
    obtain ⟨old, stored, guarded⟩ := inv.covered key posted
    exact ⟨mergeRow patch old, by rw [after, stored, Option.map_some], mergeRow_guarded harmless (inv.rows key old stored) held⟩

theorem store_reconcile {status : OperationIntentStatus}
    {publishRecordId : Option Nat} (harmless : patch.Harmless) (settles : status = .reconciled → patch.result.isSome)
    (surface : Surface bot fact)
    (clear : status ≠ .reconciled ∧ status ≠ .outcomeUnknown → ∀ s, fact s → Unposted bot key s) :
    Triple (askContract item bot leaseKeyOf) (Known item key fact row)
      (await (.store key (.reconcile ⟨item.id, key⟩ item.id none status publishRecordId patch)))
      (fun _ => Known item key fact fun r => ∃ r₀, row r₀ ∧ r = r₀.map (reconcileRow patch status publishRecordId))
      (fun _ => Known item key fact AnyRow) := by
  refine store_statement (fun db => reconcileStatement db ⟨item.id, key⟩ item.id none status publishRecordId patch)
    (fun _ _ => rfl) (Known.stable surface row) ?_
  intro s known inv
  obtain ⟨leases, here⟩ := @reconcile_intent item key s patch status publishRecordId
  have after := here key
  rw [if_pos rfl] at after
  refine ⟨?_, ⟨surface.of_db _ known.1, s.intent item key, known.2, after⟩, ⟨surface.of_db _ known.1, trivial⟩,
    ⟨known.1, trivial⟩⟩
  refine @AskInv.write _ _ _ _ _ key inv leases rfl rfl (fun other ne => by rw [here other, if_neg ne]) ?_ ?_
  · intro stored at_key
    rw [after] at at_key
    obtain ⟨old, before, rfl⟩ := Option.map_eq_some_iff.mp at_key
    exact reconcileRow_sound harmless settles (inv.rows key old before)
  · intro posted
    obtain ⟨old, stored, guarded⟩ := inv.covered key posted
    refine ⟨reconcileRow patch status publishRecordId old, by rw [after, stored, Option.map_some], ?_⟩
    by_cases settled : status = .reconciled ∨ status = .outcomeUnknown
    · exact reconcileRow_guarded settled guarded
    · exact absurd (clear (not_or.mp settled) s known.1) posted

end Statements

section Calls

variable {item : AskWorkItem} {bot : Login} {leaseKeyOf : WorkItemId → LeaseKey} {fact : AskState → Prop}
  {key : OperationKey} {row : Option (OperationIntent CommentId) → Prop} {params : PublishOnceParams CommentId}
  {mutate : AskProgram (Unknown CommentId)} {recover : AskProgram (Option (Recovery CommentId))}

-- The call of `publishOnce` is made for the item, under this key, without a lease.
structure ForItem (item : AskWorkItem) (key : OperationKey) (params : PublishOnceParams CommentId) : Prop where
  workItem : params.workItemId = item.id
  operationKey : params.operationKey = key
  unleased : params.leaseEpoch = none

theorem ForItem.slotKey (own : ForItem item key params) : params.slot.key = ⟨item.id, key⟩ := by
  rw [← own.workItem, ← own.operationKey]
  rfl

theorem handled_store {op : PublishOp CommentId} {before : AskState → Prop}
    {normal : (publishInterface CommentId).Ans op → AskState → Prop} {exceptional : Thrown → AskState → Prop}
    (stores : publishHandler key mutate recover op = (await (.store key op)).attempt)
    (body : Triple (askContract item bot leaseKeyOf) before (await (.store key op)) normal exceptional) :
    Handled (askContract item bot leaseKeyOf) (publishHandler key mutate recover) before (ask op) normal exceptional := by
  refine Handled.perform ?_
  rw [stores]
  refine Triple.attempt ?_
  exact body

theorem ask_ready_keeps {before : AskState → Prop} {exceptional : Thrown → AskState → Prop} (own : ForItem item key params) :
    Handled (askContract item bot leaseKeyOf) (publishHandler key mutate recover) before (assertMutationReady params)
      (fun _ => before) exceptional := by
  intro s holds
  simp only [assertMutationReady, own.unleased]
  exact holds

theorem persistOperationIntent_reserves_row (own : ForItem item key params) (surface : Surface bot fact) :
    Handled (askContract item bot leaseKeyOf) (publishHandler key mutate recover) (Known item key fact row)
      (persistOperationIntent params)
      (fun reserved => Known item key fact fun r => r = some reserved ∧ reserved.Sound ∧
        ∃ r₀, row r₀ ∧ reserved = persistRow { fields := params.detail } r₀)
      (fun _ => Known item key fact AnyRow) := by
  rw [persistOperationIntent, own.unleased]
  refine Handled.bind (m := fun answer => Known item key fact fun r => r = answer ∧ (∀ stored ∈ r, stored.Sound) ∧
    ∃ r₀, row r₀ ∧ answer = some (persistRow { fields := params.detail } r₀)) ?_ fun answer => ?_
  · exact handled_store rfl (store_persist ⟨nofun, rfl⟩ surface)
  · cases answer with
    | none => exact Handled.throw fun s known => ⟨known.1, trivial⟩
    | some reserved =>
      refine Handled.pure fun s known => ⟨known.1, ?_⟩
      obtain ⟨same, sound, r₀, before, answered⟩ := known.2
      exact ⟨same, sound reserved same, r₀, before, Option.some.inj answered⟩

theorem mergeOperationIntentDetail_merges {patch : IntentDetail CommentId} (own : ForItem item key params)
    (harmless : patch.Harmless) (held : patch.mutating = some true ∨ patch.result.isSome) (surface : Surface bot fact) :
    Handled (askContract item bot leaseKeyOf) (publishHandler key mutate recover) (Known item key fact row)
      (mergeOperationIntentDetail params patch)
      (fun _ => Known item key fact fun r => ∃ r₀, row r₀ ∧ (∀ old ∈ r₀, old.Sound) ∧ r = r₀.map (mergeRow patch))
      (fun _ => Known item key fact AnyRow) := by
  rw [mergeOperationIntentDetail, own.unleased]
  exact handled_store rfl (store_merge harmless held surface)

theorem store_select (surface : Surface bot fact) (target : IntentKey) :
    Triple (askContract item bot leaseKeyOf) (Known item key fact row) (await (.store key (.selectReconciled target)))
      (fun _ => Known item key fact row) (fun _ => Known item key fact row) :=
  store_statement (fun db => (selectReconciledStatement db target, db)) (fun _ _ => rfl) (Known.stable surface row)
    fun _ known inv => ⟨inv, known, known, known⟩

theorem reconcileAskIntent_settles {patch : IntentDetail CommentId} {status : OperationIntentStatus}
    {publishRecordId : Option Nat} (own : ForItem item key params) (harmless : patch.Harmless)
    (settles : status = .reconciled → patch.result.isSome) (surface : Surface bot fact)
    (clear : status ≠ .reconciled ∧ status ≠ .outcomeUnknown → ∀ s, fact s → Unposted bot key s) :
    Handled (askContract item bot leaseKeyOf) (publishHandler key mutate recover) (Known item key fact AnyRow)
      (reconcileOperationIntent params ⟨item.id, key⟩ status publishRecordId patch)
      (fun _ => Known item key fact AnyRow) (fun _ => Known item key fact AnyRow) := by
  rw [reconcileOperationIntent, own.unleased, own.workItem]
  refine Handled.bind (m := fun _ => Known item key fact AnyRow) ?_ fun updated => ?_
  · refine (handled_store rfl (store_reconcile harmless settles surface clear)).weaken ?_
      fun _ _ known => known
    exact fun _ _ known => ⟨known.1, trivial⟩
  · refine Handled.ite (fun _ => Handled.pure fun _ known => known) fun _ => ?_
    refine Handled.ite (fun _ => Handled.pure fun _ known => known) fun _ => ?_
    exact handled_store rfl (store_select surface _)

theorem finishWithStashedResult_settles {intent : OperationIntent CommentId} {stashed : Option CommentId}
    (own : ForItem item key params) (usable : stashed ≠ none) (surface : Surface bot fact) :
    Handled (askContract item bot leaseKeyOf) (publishHandler key mutate recover) (Known item key fact AnyRow)
      (finishWithStashedResult params ⟨item.id, key⟩ intent stashed) (fun _ _ => True) (fun _ _ => True) := by
  refine Handled.ofExcept_bind (fun _ _ _ _ => trivial) fun value _ => ?_
  refine Handled.ite (fun _ => ?_) fun _ => Handled.pure fun _ _ => trivial
  refine Handled.bind (m := fun _ => Known item key fact AnyRow) (ask_ready_keeps own) fun _ => ?_
  refine Handled.ofExcept_bind (fun _ _ _ _ => trivial) fun fields _ => ?_
  refine Handled.bind (m := fun _ _ => True) ?_ fun _ => Handled.pure fun _ _ => trivial
  refine (reconcileAskIntent_settles own ⟨?_, rfl⟩ (fun _ => rfl) surface ?_).weaken
    (fun _ _ _ => trivial) fun _ _ _ => trivial
  · exact fun same => usable (Option.some.inj same)
  · exact fun ne => absurd rfl ne.1

end Calls
end PrAgent
