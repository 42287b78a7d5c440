import PrAgent.RateLimitCircuit
set_option autoImplicit false

namespace PrAgent

section Shared

structure SharedRateLimitCircuitRow where
  openUntil : Nat
  lastErrorKind : RateLimitFailureClass

-- The upsert of the row of an installation.
def upsertSharedRateLimitCircuit (row : Option SharedRateLimitCircuitRow) (written : SharedRateLimitCircuitRow) :
    SharedRateLimitCircuitRow :=
  match row with
  | none => written
  | some stored => ⟨max stored.openUntil written.openUntil, written.lastErrorKind⟩

def openSharedRateLimitCircuit (now : Nat) (lastErrorKind : RateLimitFailureClass) : SharedRateLimitCircuitRow :=
  ⟨now + sharedRateLimitCircuitCooldownMs, lastErrorKind⟩

-- The circuit that a run starts with; a read of the row that fails counts as no row.
def openRunRateLimitCircuit (now : Nat) (read : Option SharedRateLimitCircuitRow) : RateLimitCircuit :=
  let circuit := createRateLimitCircuit rateLimitCircuitThreshold
  match read with
  | none => circuit
  | some shared =>
    if now < shared.openUntil then circuit.hydrateOpenFromShared now (some shared.openUntil) else circuit

-- The runs of one installation, in any number of workers. `writes` are the upserts under way and `landed` those done.
structure SharedCircuitWorld where
  now : Nat
  row : Option SharedRateLimitCircuitRow
  runs : Nat → Option RateLimitCircuit
  writes : List SharedRateLimitCircuitRow
  landed : List SharedRateLimitCircuitRow

def SharedCircuitWorld.start (now : Nat) : SharedCircuitWorld := ⟨now, none, fun _ => none, [], []⟩

inductive SharedCircuitEvent where
  | elapse (ms : Nat)
  | begin (run : Nat) (readFails : Bool)
  | outcome (run : Nat) (outcome : RequestOutcome)
  | land (write : Nat)
  | lose (write : Nat)

def SharedCircuitWorld.put (world : SharedCircuitWorld) (run : Nat) (circuit : RateLimitCircuit) : SharedCircuitWorld :=
  { world with runs := fun other => if other = run then some circuit else world.runs other }

def recordOutcome (world : SharedCircuitWorld) (run : Nat) (circuit : RateLimitCircuit) : RequestOutcome → SharedCircuitWorld
  | .success => world.put run (circuit.recordSuccess world.now)
  | .failed kind =>
    let recorded := circuit.recordFailure world.now
    let noted := world.put run recorded.1
    if recorded.2 then { noted with writes := world.writes ++ [openSharedRateLimitCircuit world.now kind] } else noted

def sharedCircuitStep (world : SharedCircuitWorld) : SharedCircuitEvent → Option SharedCircuitWorld
  | .elapse ms => some { world with now := world.now + ms }
  | .begin run readFails =>
    match world.runs run with
    | some _ => none
    | none => some (world.put run (openRunRateLimitCircuit world.now (if readFails then none else world.row)))
  | .outcome run outcome =>
    match world.runs run with
    | some circuit => some (recordOutcome world run circuit outcome)
    | none => none
  | .land write =>
    match world.writes[write]? with
    | some written =>
      some
        { world with
          row := some (upsertSharedRateLimitCircuit world.row written)
          writes := world.writes.eraseIdx write
          landed := world.landed ++ [written] }
    | none => none
  | .lose write =>
    if write < world.writes.length then some { world with writes := world.writes.eraseIdx write } else none

end Shared

section Row

variable {world next : SharedCircuitWorld}

-- The row holds the latest time that any upsert has asked for.
structure RowOk (world : SharedCircuitWorld) : Prop where
  covers : ∀ written ∈ world.landed, ∃ row, world.row = some row ∧ written.openUntil ≤ row.openUntil
  asked : ∀ row, world.row = some row → ∃ written ∈ world.landed, written.openUntil = row.openUntil

theorem rowOk_start (now : Nat) : RowOk (.start now) := ⟨by simp [SharedCircuitWorld.start], by simp [SharedCircuitWorld.start]⟩

theorem RowOk.land (ok : RowOk world) (written : SharedRateLimitCircuitRow) {writes : List SharedRateLimitCircuitRow} :
    RowOk
      { world with
        row := some (upsertSharedRateLimitCircuit world.row written)
        writes
        landed := world.landed ++ [written] } := by
  constructor
  · intro other inside
    refine ⟨_, rfl, ?_⟩
    cases List.mem_append.mp inside with
    | inl before =>
      obtain ⟨row, stored, less⟩ := ok.covers other before
      rw [stored]
      exact Nat.le_trans less (Nat.le_max_left _ _)
    | inr here =>
      obtain rfl := List.mem_singleton.mp here
      cases world.row with
      | none => exact Nat.le_refl _
      | some row => exact Nat.le_max_right _ _
  · intro row same
    obtain rfl := Option.some.inj same
    cases stored : world.row with
    | none => exact ⟨written, by simp, rfl⟩
    | some before =>
      obtain ⟨older, inside, equal⟩ := ok.asked before stored
      by_cases less : before.openUntil ≤ written.openUntil
      · exact ⟨written, by simp, by simp [upsertSharedRateLimitCircuit, less]⟩
      · refine ⟨older, List.mem_append_left _ inside, ?_⟩
        simp [upsertSharedRateLimitCircuit, equal, Nat.le_of_not_le less]

theorem recordOutcome_row (world : SharedCircuitWorld) (run : Nat) (circuit : RateLimitCircuit) (outcome : RequestOutcome) :
    (recordOutcome world run circuit outcome).row = world.row ∧
      (recordOutcome world run circuit outcome).landed = world.landed ∧
      (recordOutcome world run circuit outcome).now = world.now := by
  cases outcome with
  | success => exact ⟨rfl, rfl, rfl⟩
  | failed kind =>
    rw [recordOutcome]
    split
    · exact ⟨rfl, rfl, rfl⟩
    · exact ⟨rfl, rfl, rfl⟩

theorem sharedCircuitStep_row (event : SharedCircuitEvent) (ok : RowOk world)
    (moved : sharedCircuitStep world event = some next) : RowOk next := by
  cases event with
  | elapse ms =>
    cases moved
    exact ⟨ok.covers, ok.asked⟩
  | begin run readFails =>
    cases begun : world.runs run with
    | some circuit => simp [sharedCircuitStep, begun] at moved
    | none =>
      simp only [sharedCircuitStep, begun, Option.some.injEq] at moved
      exact moved ▸ ⟨ok.covers, ok.asked⟩
  | outcome run outcome =>
    cases begun : world.runs run with
    | none => simp [sharedCircuitStep, begun] at moved
    | some circuit =>
      simp only [sharedCircuitStep, begun, Option.some.injEq] at moved
      obtain ⟨row, landed, -⟩ := recordOutcome_row world run circuit outcome
      rw [← moved]
      exact ⟨by rw [row, landed]; exact ok.covers, by rw [row, landed]; exact ok.asked⟩
  | land write =>
    cases found : world.writes[write]? with
    | none => simp [sharedCircuitStep, found] at moved
    | some written =>
      simp only [sharedCircuitStep, found, Option.some.injEq] at moved
      exact moved ▸ ok.land written
  | lose write =>
    by_cases inside : write < world.writes.length
    · rw [sharedCircuitStep, if_pos inside, Option.some.injEq] at moved
      exact moved ▸ ⟨ok.covers, ok.asked⟩
    · rw [sharedCircuitStep, if_neg inside] at moved
      cases moved

end Row

section Barred

variable {world next : SharedCircuitWorld} {run limit : Nat}

-- A run that is kept from nonessential requests until some time at least.
def BarredUntil (run limit : Nat) (world : SharedCircuitWorld) : Prop :=
  limit ≤ world.now ∨ ∃ consecutive untilMs, limit ≤ untilMs ∧
    world.runs run = some ⟨rateLimitCircuitThreshold, consecutive, true, some untilMs⟩

theorem recordOutcome_other (world : SharedCircuitWorld) {other : Nat} (circuit : RateLimitCircuit)
    (outcome : RequestOutcome) (different : run ≠ other) :
    (recordOutcome world other circuit outcome).runs run = world.runs run := by
  cases outcome with
  | success => exact if_neg different
  | failed kind =>
    rw [recordOutcome]
    split
    · exact if_neg different
    · exact if_neg different

theorem recordOutcome_early (world : SharedCircuitWorld) (run consecutive : Nat) {untilMs : Nat} (early : world.now < untilMs)
    (outcome : RequestOutcome) : ∃ counted, (recordOutcome world run
      ⟨rateLimitCircuitThreshold, consecutive, true, some untilMs⟩ outcome).runs run =
        some ⟨rateLimitCircuitThreshold, counted, true, some untilMs⟩ := by
  cases outcome with
  | success =>
    refine ⟨0, ?_⟩
    simp [recordOutcome, SharedCircuitWorld.put, RateLimitCircuit.recordSuccess, Nat.not_le.mpr early]
  | failed kind =>
    refine ⟨consecutive, ?_⟩
    simp [recordOutcome, SharedCircuitWorld.put, RateLimitCircuit.recordFailure, RateLimitCircuit.clearExpiredSharedOpen,
      early]

theorem sharedCircuitStep_barred (event : SharedCircuitEvent) (barred : BarredUntil run limit world)
    (moved : sharedCircuitStep world event = some next) : BarredUntil run limit next := by
  cases event with
  | elapse ms =>
    cases moved
    cases barred with
    | inl passed => exact .inl (Nat.le_add_right_of_le passed)
    | inr honoured => exact .inr honoured
  | begin other readFails =>
    cases begun : world.runs other with
    | some circuit => simp [sharedCircuitStep, begun] at moved
    | none =>
      simp only [sharedCircuitStep, begun, Option.some.injEq] at moved
      cases barred with
      | inl passed => exact moved ▸ .inl passed
      | inr honoured =>
        obtain ⟨consecutive, untilMs, less, runs⟩ := honoured
        have different : run ≠ other := by
          rintro rfl
          exact absurd (runs.symm.trans begun) (by simp)
        exact moved ▸ .inr ⟨consecutive, untilMs, less, (if_neg different).trans runs⟩
  | outcome other outcome =>
    cases begun : world.runs other with
    | none => simp [sharedCircuitStep, begun] at moved
    | some circuit =>
      simp only [sharedCircuitStep, begun, Option.some.injEq] at moved
      have now := (recordOutcome_row world other circuit outcome).2.2
      rw [← moved]
      cases barred with
      | inl passed => exact .inl (by rw [now]; exact passed)
      | inr honoured =>
        obtain ⟨consecutive, untilMs, less, runs⟩ := honoured
        by_cases same : run = other
        · subst same
          obtain rfl := Option.some.inj (begun.symm.trans runs)
          by_cases early : world.now < untilMs
          · obtain ⟨counted, kept⟩ := recordOutcome_early world run consecutive early outcome
            exact .inr ⟨counted, untilMs, less, kept⟩
          · exact .inl (by rw [now]; omega)
        · exact .inr ⟨consecutive, untilMs, less, (recordOutcome_other world circuit outcome same).trans runs⟩
  | land write =>
    cases found : world.writes[write]? with
    | none => simp [sharedCircuitStep, found] at moved
    | some written =>
      simp only [sharedCircuitStep, found, Option.some.injEq] at moved
      exact moved ▸ barred
  | lose write =>
    by_cases inside : write < world.writes.length
    · rw [sharedCircuitStep, if_pos inside, Option.some.injEq] at moved
      exact moved ▸ barred
    · rw [sharedCircuitStep, if_neg inside] at moved
      cases moved

theorem begin_barred {row : SharedRateLimitCircuitRow} (fresh : world.runs run = none) (stored : world.row = some row)
    (less : limit ≤ row.openUntil) : ∃ begun, sharedCircuitStep world (.begin run false) = some begun ∧
      BarredUntil run limit begun := by
  refine ⟨_, by simp only [sharedCircuitStep, fresh]; rfl, ?_⟩
  by_cases early : world.now < row.openUntil
  · refine .inr ⟨rateLimitCircuitThreshold, row.openUntil, less, ?_⟩
    simp [SharedCircuitWorld.put, stored, openRunRateLimitCircuit, early, RateLimitCircuit.hydrateOpenFromShared,
      createRateLimitCircuit, Nat.not_le.mpr early]
  · exact .inl (Nat.le_trans less (Nat.le_of_not_lt early))

-- Once the opening of some run's circuit is stored, a run of the installation that begins later may search no code until
-- the time that was stored, whatever the requests of any run come to, while its essential tools are never refused.
theorem stored_opening_honoured (start : Nat) (before after : List SharedCircuitEvent) (run : Nat)
    (written : SharedRateLimitCircuitRow) (circuit : RateLimitCircuit)
    (landed : written ∈ (schedule sharedCircuitStep (.start start) before).landed)
    (fresh : (schedule sharedCircuitStep (.start start) before).runs run = none)
    (running : (schedule sharedCircuitStep (.start start) (before ++ .begin run false :: after)).runs run = some circuit)
    (early : (schedule sharedCircuitStep (.start start) (before ++ .begin run false :: after)).now < written.openUntil) :
    let now := (schedule sharedCircuitStep (.start start) (before ++ .begin run false :: after)).now
    shouldShortCircuitGithubTool circuit now "searchCode" = true ∧
      ∀ tool ∈ essentialGithubToolNames, shouldShortCircuitGithubTool circuit now tool = false := by
  intro now
  have row : RowOk (schedule sharedCircuitStep (.start start) before) :=
    schedule_invariant RowOk (fun _ event _ ok moved => sharedCircuitStep_row event ok moved) before (rowOk_start start)
  obtain ⟨stored, found, less⟩ := row.covers written landed
  obtain ⟨begun, moved, barred⟩ := begin_barred fresh found less
  have final : BarredUntil run written.openUntil
      (schedule sharedCircuitStep (.start start) (before ++ .begin run false :: after)) := by
    rw [schedule_append, schedule_cons, moved]
    exact schedule_invariant (BarredUntil run written.openUntil)
      (fun _ event _ ok moved => sharedCircuitStep_barred event ok moved) after barred
  constructor
  · cases final with
    | inl passed => omega
    | inr honoured =>
      obtain ⟨consecutive, untilMs, later, runs⟩ := honoured
      obtain rfl := Option.some.inj (running.symm.trans runs)
      have stays : now < untilMs := Nat.lt_of_lt_of_le early later
      simp [shouldShortCircuitGithubTool, RateLimitCircuit.isOpen, RateLimitCircuit.clearExpiredSharedOpen, stays,
        githubApiToolNames, essentialGithubToolNames]
  · intro tool essential
    have listed : tool ∈ githubApiToolNames := List.mem_append_left _ essential
    simp [shouldShortCircuitGithubTool, listed, essential]

-- Three failures of run 0 open its circuit; run 1 begins a second after that was stored.
def stormedInstallation : List SharedCircuitEvent :=
  [.begin 0 false, .outcome 0 (.failed .primary), .outcome 0 (.failed .secondary), .outcome 0 (.failed .primary),
    .land 0, .elapse 1000]

theorem stormed_installation_honoured :
    shouldShortCircuitGithubTool ⟨3, 0, true, some 60000⟩ 31000 "searchCode" = true ∧
      ∀ tool ∈ essentialGithubToolNames, shouldShortCircuitGithubTool ⟨3, 0, true, some 60000⟩ 31000 tool = false :=
  stored_opening_honoured 0 stormedInstallation [.elapse 30000, .outcome 1 .success] 1 ⟨60000, .primary⟩
    ⟨3, 0, true, some 60000⟩ (List.mem_singleton.mpr rfl) rfl rfl (by decide)

end Barred
end PrAgent
