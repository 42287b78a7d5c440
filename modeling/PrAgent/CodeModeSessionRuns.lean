import PrAgent.CodeModeSession
set_option autoImplicit false

namespace PrAgent

section Invariant

def SessionWorld.links (world : SessionWorld) : List (Nat × JsonTree × JsonTree) :=
  world.commits.map fun commit => (commit.script, commit.basis, commit.staged)

def SessionWorld.committed (world : SessionWorld) : List Nat := world.commits.map ScriptCommit.script

structure ScriptSessionOk (initial : JsonTree) (world : SessionWorld) : Prop where
  seen : ∀ id script, world.running id = some script → script.seen.Earlier world.session.store
  admits : ∀ id script, world.running id = some script →
    script.seen.generation = world.session.store.generation → world.session.admissionOpen = true
  fenced : ∀ id script, world.running id = some script →
    (id ∈ world.fenced ↔ script.seen.generation ≠ world.session.store.generation)
  overtaken : ∀ id script, world.running id = some script →
    (id ∈ world.overtaken ↔ script.seen.revision ≠ world.session.store.revision)
  known : ∀ id script, world.running id = some script → id ∈ world.begun
  fencedKnown : ∀ id ∈ world.fenced, id ∈ world.begun
  overtakenKnown : ∀ id ∈ world.overtaken, id ∈ world.begun
  committedKnown : ∀ id ∈ world.committed, id ∈ world.begun
  settled : ∀ id ∈ world.committed, world.running id = none
  once : world.committed.Nodup
  count : world.session.store.revision = world.commits.length
  chained : Chained initial (world.links.map Prod.snd) world.session.store.data
  reported : ∀ id, (∃ output, (id, CodeModeResult.ok output) ∈ world.results) ↔ id ∈ world.committed
  bounded : utf8ByteLength initial ≤ codeModeStateMaxBytes →
    utf8ByteLength world.session.store.data ≤ codeModeStateMaxBytes

theorem scriptSessionOk_opened (initial : JsonTree) : ScriptSessionOk initial (.opened initial) := by
  constructor
  case chained => exact rfl
  case count => rfl
  case bounded => exact id
  all_goals simp [SessionWorld.opened, SessionWorld.committed]

variable {initial : JsonTree} {world : SessionWorld}

@[simp] theorem put_running (id other : Nat) (script : Option RunningScript) :
    (world.put id script).running other = if other = id then script else world.running other := rfl

variable {id : Nat} {results : List (Nat × CodeModeResult)}

theorem reported_failed {error : CodeModeError} {committed : List Nat}
    (reported : ∀ other, (∃ output, (other, CodeModeResult.ok output) ∈ results) ↔ other ∈ committed) (other : Nat) :
    (∃ output, (other, CodeModeResult.ok output) ∈ (id, CodeModeResult.failed error) :: results) ↔ other ∈ committed := by
  rw [← reported other]
  constructor
  · rintro ⟨output, inside⟩
    cases List.mem_cons.mp inside with
    | inl here => exact CodeModeResult.noConfusion (Prod.ext_iff.mp here).2
    | inr before => exact ⟨output, before⟩
  · rintro ⟨output, inside⟩
    exact ⟨output, List.mem_cons_of_mem _ inside⟩

-- What runs began when it did before, and its cell was given a state that the session had since.
def ScriptsKept (world : SessionWorld) (running : Nat → Option RunningScript) : Prop :=
  ∀ id script, running id = some script → script.seen.Earlier world.session.store ∧
    ∃ before, world.running id = some before ∧ before.seen.generation = script.seen.generation ∧
      before.seen.revision = script.seen.revision

-- A fence leaves no running script with the generation of the store.
theorem ScriptSessionOk.fence (ok : ScriptSessionOk initial world) {running : Nat → Option RunningScript} {begun fenced : List Nat}
    (same : ScriptsKept world running) (kept : ∀ id ∈ world.committed, running id = none) (grown : ∀ id ∈ world.begun, id ∈ begun)
    (covers : ∀ id ∈ world.begun, id ∈ fenced) (within : ∀ id ∈ fenced, id ∈ begun)
    (reported : ∀ id, (∃ output, (id, CodeModeResult.ok output) ∈ results) ↔ id ∈ world.committed) :
    ScriptSessionOk initial
      { world with session := world.session.closeAdmission.invalidate, running, begun, fenced, results } := by
  have behind : ∀ id script, running id = some script → script.seen.generation ≠ world.session.store.generation + 1 := by
    intro id script runs
    have earlier := (same id script runs).1.generation
    omega
  constructor
  case seen => exact fun id script runs => (same id script runs).1.fence
  case admits =>
    intro id script runs generation
    exact absurd generation (behind id script runs)
  case fenced =>
    intro id script runs
    obtain ⟨-, before, ran, -⟩ := same id script runs
    exact ⟨fun _ => behind id script runs, fun _ => covers id (ok.known id before ran)⟩
  case overtaken =>
    intro id script runs
    obtain ⟨-, before, ran, -, revision⟩ := same id script runs
    exact revision ▸ ok.overtaken id before ran
  case known =>
    intro id script runs
    obtain ⟨-, before, ran, -⟩ := same id script runs
    exact grown id (ok.known id before ran)
  case fencedKnown => exact within
  case overtakenKnown => exact fun id inside => grown id (ok.overtakenKnown id inside)
  case committedKnown => exact fun id inside => grown id (ok.committedKnown id inside)
  case settled => exact kept
  case once => exact ok.once
  case count => exact ok.count
  case chained => exact ok.chained
  case reported => exact reported
  case bounded => exact ok.bounded

theorem ScriptSessionOk.begin (ok : ScriptSessionOk initial world) (fresh : id ∉ world.begun) (hostAborted : Bool) :
    ScriptSessionOk initial (beginScript world id hostAborted) := by
  cases hostAborted with
  | true =>
    exact ok.fence (fun id script runs => ⟨ok.seen id script runs, script, runs, rfl, rfl⟩) ok.settled (fun _ inside => List.mem_cons_of_mem _ inside)
      (fun _ inside => List.mem_cons_of_mem _ inside) (fun _ inside => inside) (reported_failed ok.reported)
  | false =>
    have others : ∀ other script, (world.put id (some ⟨world.session.store, false, false⟩)).running other = some script →
        (other = id ∧ script.seen = world.session.store) ∨ (other ≠ id ∧ world.running other = some script) := by
      intro other script runs
      by_cases same : other = id
      · rw [put_running, if_pos same, Option.some.injEq] at runs
        exact .inl ⟨same, runs ▸ rfl⟩
      · rw [put_running, if_neg same] at runs
        exact .inr ⟨same, runs⟩
    constructor
    case seen =>
      intro other script runs
      cases others other script runs with
      | inl new => exact new.2 ▸ Versioned.Earlier.refl _
      | inr old => exact ok.seen other script old.2
    case admits => exact fun _ _ _ _ => rfl
    case fenced =>
      intro other script runs
      cases others other script runs with
      | inl new =>
        refine ⟨fun inside => absurd (ok.fencedKnown other inside) (new.1 ▸ fresh), fun differs => ?_⟩
        exact absurd (congrArg Versioned.generation new.2) differs
      | inr old => exact ok.fenced other script old.2
    case overtaken =>
      intro other script runs
      cases others other script runs with
      | inl new =>
        refine ⟨fun inside => absurd (ok.overtakenKnown other inside) (new.1 ▸ fresh), fun differs => ?_⟩
        exact absurd (congrArg Versioned.revision new.2) differs
      | inr old => exact ok.overtaken other script old.2
    case known =>
      intro other script runs
      cases others other script runs with
      | inl new => exact new.1 ▸ List.mem_cons_self
      | inr old => exact List.mem_cons_of_mem _ (ok.known other script old.2)
    case fencedKnown => exact fun other inside => List.mem_cons_of_mem _ (ok.fencedKnown other inside)
    case overtakenKnown => exact fun other inside => List.mem_cons_of_mem _ (ok.overtakenKnown other inside)
    case committedKnown => exact fun other inside => List.mem_cons_of_mem _ (ok.committedKnown other inside)
    case settled =>
      intro other inside
      have different : other ≠ id := fun same => fresh (same ▸ ok.committedKnown other inside)
      exact (if_neg different).trans (ok.settled other inside)
    case once => exact ok.once
    case count => exact ok.count
    case chained => exact ok.chained
    case reported => exact ok.reported
    case bounded => exact ok.bounded

theorem ScriptSessionOk.put_kept (ok : ScriptSessionOk initial world) {script other : RunningScript}
    (runs : world.running id = some script) (seen : other.seen.Earlier world.session.store)
    (generation : script.seen.generation = other.seen.generation) (revision : script.seen.revision = other.seen.revision) :
    ScriptsKept world (world.put id (some other)).running := by
  intro key found stored
  by_cases same : key = id
  · rw [put_running, if_pos same, Option.some.injEq] at stored
    exact stored ▸ ⟨seen, script, same ▸ runs, generation, revision⟩
  · rw [put_running, if_neg same] at stored
    exact ⟨ok.seen key found stored, found, stored, rfl, rfl⟩

theorem ScriptSessionOk.put_settled (ok : ScriptSessionOk initial world) {script : RunningScript}
    (runs : world.running id = some script) (found : Option RunningScript) (other : Nat) (inside : other ∈ world.committed) :
    (world.put id found).running other = none := by
  have different : other ≠ id := by
    rintro rfl
    exact absurd (runs.symm.trans (ok.settled other inside)) (by simp)
  rw [put_running, if_neg different]
  exact ok.settled other inside

theorem put_none {id key : Nat} {found : RunningScript} (stored : (world.put id none).running key = some found) :
    key ≠ id ∧ world.running key = some found := by
  by_cases same : key = id
  · rw [put_running, if_pos same] at stored
    cases stored
  · rw [put_running, if_neg same] at stored
    exact ⟨same, stored⟩

-- Only what runs and what it saw of the store matters to the invariant, besides the results.
theorem ScriptSessionOk.keep (ok : ScriptSessionOk initial world) {running : Nat → Option RunningScript}
    (same : ScriptsKept world running) (kept : ∀ id ∈ world.committed, running id = none)
    (reported : ∀ id, (∃ output, (id, CodeModeResult.ok output) ∈ results) ↔ id ∈ world.committed) :
    ScriptSessionOk initial { world with running, results } := by
  constructor
  case seen => exact fun id script runs => (same id script runs).1
  case admits =>
    intro id script runs generation
    obtain ⟨-, before, ran, began, -⟩ := same id script runs
    exact ok.admits id before ran (began.trans generation)
  case fenced =>
    intro id script runs
    obtain ⟨-, before, ran, began, -⟩ := same id script runs
    exact began ▸ ok.fenced id before ran
  case overtaken =>
    intro id script runs
    obtain ⟨-, before, ran, -, revision⟩ := same id script runs
    exact revision ▸ ok.overtaken id before ran
  case known =>
    intro id script runs
    obtain ⟨-, before, ran, -⟩ := same id script runs
    exact ok.known id before ran
  case fencedKnown => exact ok.fencedKnown
  case overtakenKnown => exact ok.overtakenKnown
  case committedKnown => exact ok.committedKnown
  case settled => exact kept
  case once => exact ok.once
  case count => exact ok.count
  case chained => exact ok.chained
  case reported => exact reported
  case bounded => exact ok.bounded

theorem ScriptSessionOk.commit (ok : ScriptSessionOk initial world) {script : RunningScript} {output stagedState : JsonTree}
    (runs : world.running id = some script) (commits : CommitsState world.session script stagedState) :
    ScriptSessionOk initial
      { world.put id none with
        session := { world.session with store := world.session.store.replace stagedState }
        overtaken := world.begun
        commits := ⟨id, script.seen.data, stagedState⟩ :: world.commits
        results := (id, .ok output) :: world.results } := by
  constructor
  case seen =>
    intro other found stored
    exact (ok.seen other found (put_none stored).2).replace stagedState
  case admits => exact fun other found stored => ok.admits other found (put_none stored).2
  case fenced => exact fun other found stored => ok.fenced other found (put_none stored).2
  case overtaken =>
    intro other found stored
    have runsStill := (put_none stored).2
    have earlier := (ok.seen other found runsStill).revision
    exact ⟨fun _ => Nat.ne_of_lt (Nat.lt_succ_of_le earlier), fun _ => ok.known other found runsStill⟩
  case known => exact fun other found stored => ok.known other found (put_none stored).2
  case fencedKnown => exact ok.fencedKnown
  case overtakenKnown => exact fun _ inside => inside
  case committedKnown =>
    intro other inside
    cases List.mem_cons.mp inside with
    | inl here => exact here ▸ ok.known id script runs
    | inr before => exact ok.committedKnown other before
  case settled =>
    intro other inside
    cases List.mem_cons.mp inside with
    | inl here => exact if_pos here
    | inr before => exact ok.put_settled runs none other before
  case once =>
    refine List.nodup_cons.mpr ⟨fun inside => ?_, ok.once⟩
    exact absurd (runs.symm.trans (ok.settled id inside)) (by simp)
  case count => exact congrArg (· + 1) ok.count
  case chained =>
    -- No other script committed since this one began, so its cell was given the state in place.
    have given : script.seen.data = world.session.store.data := (ok.seen id script runs).data commits.2.1
    exact given ▸ ok.chained.push stagedState
  case reported =>
    intro other
    have before := ok.reported other
    constructor
    · rintro ⟨result, inside⟩
      cases List.mem_cons.mp inside with
      | inl here => exact List.mem_cons.mpr (.inl (Prod.ext_iff.mp here).1)
      | inr older => exact List.mem_cons_of_mem _ (before.mp ⟨result, older⟩)
    · intro inside
      cases List.mem_cons.mp inside with
      | inl here => exact ⟨output, List.mem_cons.mpr (.inl (Prod.ext here rfl))⟩
      | inr older =>
        obtain ⟨result, known⟩ := before.mpr older
        exact ⟨result, List.mem_cons_of_mem _ known⟩
  case bounded => exact fun _ => commits.2.2

theorem ScriptSessionOk.settle (ok : ScriptSessionOk initial world) {script : RunningScript}
    (runs : world.running id = some script) (cell : CellOutcome) : ScriptSessionOk initial (settleScript world id script cell) := by
  cases settleScript_cases world id script cell with
  | inl committed =>
    obtain ⟨output, stagedState, -, commits, settled⟩ := committed
    rw [settled]
    exact ok.commit runs commits
  | inr failed =>
    obtain ⟨-, error, settled⟩ := failed
    rw [settled]
    exact ok.keep
      (fun key found stored => ⟨ok.seen key found (put_none stored).2, found, (put_none stored).2, rfl, rfl⟩)
      (ok.put_settled runs none) (reported_failed ok.reported)

theorem sessionStep_ok (event : SessionEvent) (next : SessionWorld) (ok : ScriptSessionOk initial world)
    (moved : sessionStep world event = some next) : ScriptSessionOk initial next := by
  cases event with
  | begin id hostAborted =>
    by_cases begun : id ∈ world.begun
    · simp [sessionStep, begun] at moved
    · simp only [sessionStep, if_neg begun, Option.some.injEq] at moved
      exact moved ▸ ok.begin begun hostAborted
  | run id =>
    obtain ⟨script, runs, rfl⟩ := Option.map_eq_some_iff.mp moved
    have earlier := ok.seen id script runs
    exact ok.keep (ok.put_kept runs ⟨earlier.generation, earlier.revision, fun _ => rfl⟩ rfl rfl) (ok.put_settled runs _)
      ok.reported
  | abort id byHost =>
    cases runs : world.running id with
    | none => simp [sessionStep, runs] at moved
    | some script =>
      simp only [sessionStep, runs] at moved
      by_cases idle : (!script.fired) = true
      · rw [if_pos idle, Option.some.injEq] at moved
        exact moved ▸ ok.fence (ok.put_kept runs (ok.seen id script runs) rfl rfl) (ok.put_settled runs _) (fun _ inside => inside) (fun _ inside => inside)
          (fun _ inside => inside) ok.reported
      · rw [if_neg idle] at moved
        by_cases late : (byHost && !script.hostAborted) = true
        · rw [if_pos late, Option.some.injEq] at moved
          exact moved ▸ ok.keep (ok.put_kept runs (ok.seen id script runs) rfl rfl) (ok.put_settled runs _) ok.reported
        · rw [if_neg late] at moved
          cases moved
  | settle id cell =>
    cases runs : world.running id with
    | none => simp [sessionStep, runs] at moved
    | some script =>
      simp only [sessionStep, runs, Option.some.injEq] at moved
      exact moved ▸ ok.settle runs cell

theorem scriptSessionOk_schedule (initial : JsonTree) (events : List SessionEvent) :
    ScriptSessionOk initial (schedule sessionStep (.opened initial) events) :=
  schedule_invariant (ScriptSessionOk initial) (fun _ event next ok moved => sessionStep_ok event next ok moved) events
    (scriptSessionOk_opened initial)

end Invariant

section Sessions

-- However the scripts of a session overlap, each committed state was made from the one committed before it.
theorem session_state_serial (initial : JsonTree) (events : List SessionEvent) :
    let world := schedule sessionStep (.opened initial) events
    Chained initial (world.links.map Prod.snd) world.session.store.data ∧
      world.committed.Nodup ∧ world.session.store.revision = world.commits.length ∧
      (∀ id, (∃ output, (id, CodeModeResult.ok output) ∈ world.results) ↔ id ∈ world.committed) ∧
      (∀ effect : Nat → JsonTree → JsonTree, (∀ commit ∈ world.commits, commit.staged = effect commit.script commit.basis) →
        world.session.store.data = world.committed.foldr effect initial) ∧
      (utf8ByteLength initial ≤ codeModeStateMaxBytes →
        utf8ByteLength world.session.store.data ≤ codeModeStateMaxBytes) := by
  intro world
  have ok : ScriptSessionOk initial world := scriptSessionOk_schedule initial events
  refine ⟨ok.chained, ok.once, ok.count, ok.reported, ?_, ok.bounded⟩
  intro effect made
  have writers : world.links.map Prod.fst = world.committed := by
    simp [SessionWorld.links, SessionWorld.committed]
  rw [← writers]
  refine ok.chained.serial effect world.links fun writer inside => ?_
  obtain ⟨commit, known, rfl⟩ := List.mem_map.mp inside
  exact made commit known

-- A running script reaches the host exactly when no abort of the session came after it began, and it commits
-- exactly when, besides, no other script committed since and its cell staged a state of the allowed size.
theorem running_script_fenced (initial : JsonTree) (events : List SessionEvent) (id : Nat) (script : RunningScript)
    (runs : (schedule sessionStep (.opened initial) events).running id = some script) :
    let world := schedule sessionStep (.opened initial) events
    (hostCallAdmitted world.session script = true ↔ id ∉ world.fenced) ∧
      ∀ cell, ∃ next, sessionStep world (.settle id cell) = some next ∧
        (id ∈ next.committed ↔ id ∉ world.fenced ∧ id ∉ world.overtaken ∧
          ∃ output stagedState, cell = .ok output stagedState ∧ utf8ByteLength stagedState ≤ codeModeStateMaxBytes) ∧
        (id ∉ next.committed → next.session = world.session) := by
  intro world
  have ok : ScriptSessionOk initial world := scriptSessionOk_schedule initial events
  have fenced := ok.fenced id script runs
  have overtaken := ok.overtaken id script runs
  have fresh : id ∉ world.committed := fun inside => absurd (runs.symm.trans (ok.settled id inside)) (by simp)
  refine ⟨?_, fun cell => ⟨settleScript world id script cell, ?_, ?_⟩⟩
  · rw [fenced, not_not]
    constructor
    · intro admitted
      have same : world.session.store.generation = script.seen.generation := by
        by_contra differs
        simp [hostCallAdmitted, differs] at admitted
      exact same.symm
    · intro same
      simp [hostCallAdmitted, ok.admits id script runs same, same]
  · simp only [sessionStep, world, runs]
  · cases settleScript_cases world id script cell with
    | inl committed =>
      obtain ⟨output, stagedState, rfl, commits, settled⟩ := committed
      obtain ⟨generation, revision, small⟩ := commits
      rw [settled]
      refine ⟨⟨fun _ => ?_, fun _ => List.mem_cons_self⟩, fun outside => absurd List.mem_cons_self outside⟩
      exact ⟨fun inside => fenced.mp inside generation, fun inside => overtaken.mp inside revision, output, stagedState,
        rfl, small⟩
    | inr failed =>
      obtain ⟨refused, error, settled⟩ := failed
      rw [settled]
      refine ⟨⟨fun inside => absurd inside fresh, ?_⟩, fun _ => rfl⟩
      rintro ⟨current, latest, output, stagedState, rfl, small⟩
      refine absurd ⟨?_, ?_, small⟩ (refused output stagedState rfl)
      · by_contra differs
        exact current (fenced.mpr differs)
      · by_contra differs
        exact latest (overtaken.mpr differs)

def overlappingScripts : List SessionEvent :=
  [.begin 0 false, .begin 1 false, .settle 0 (.ok .null (.object [(text "seen", .bool true)]))]

theorem overlapping_script_refused :
    ∃ next, sessionStep (schedule sessionStep (.opened (.object [])) overlappingScripts)
        (.settle 1 (.ok .null (.object []))) = some next ∧ 1 ∉ next.committed := by
  have running : (schedule sessionStep (.opened (.object [])) overlappingScripts).running 1 =
      some ⟨⟨1, 0, .object []⟩, false, false⟩ := rfl
  obtain ⟨next, moved, commits, -⟩ :=
    (running_script_fenced (.object []) overlappingScripts 1 _ running).2 (.ok .null (.object []))
  have late : 1 ∈ (schedule sessionStep (.opened (.object [])) overlappingScripts).overtaken := by decide
  exact ⟨next, moved, fun inside => (commits.mp inside).2.1 late⟩

end Sessions
end PrAgent
