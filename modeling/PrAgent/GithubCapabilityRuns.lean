import PrAgent.GithubCapabilities
set_option autoImplicit false

namespace PrAgent

section Order

-- What later writes may make of a row: its generation never falls, and what one generation denied stays denied.
def RowFollows {R ι : Type} (generation : R → Int) (Denied : R → ι → Prop) (old new : Option R) : Prop :=
  ∀ row, old = some row → ∃ row', new = some row' ∧ generation row ≤ generation row' ∧
    (generation row = generation row' → ∀ i, Denied row i → Denied row' i)

theorem RowFollows.refl {R ι : Type} {generation : R → Int} {Denied : R → ι → Prop} (row : Option R) :
    RowFollows generation Denied row row :=
  fun row stored => ⟨row, stored, Int.le_refl _, fun _ _ denied => denied⟩

theorem RowFollows.trans {R ι : Type} {generation : R → Int} {Denied : R → ι → Prop} {a b c : Option R}
    (first : RowFollows generation Denied a b) (second : RowFollows generation Denied b c) :
    RowFollows generation Denied a c := by
  intro row stored
  obtain ⟨row', stored', later, kept⟩ := first row stored
  obtain ⟨row'', stored'', later', kept'⟩ := second row' stored'
  have whole : generation row ≤ generation row'' := Int.le_trans later later'
  have denied : generation row = generation row'' → ∀ i, Denied row i → Denied row'' i := by
    intro same i before
    have middle : generation row = generation row' := by omega
    exact kept' (by omega) i (kept middle i before)
  exact ⟨row'', stored'', whole, denied⟩

abbrev ScopeFollows : Option GithubCapabilityObservation → Option GithubCapabilityObservation → Prop :=
  RowFollows GithubCapabilityObservation.generation fun row operation => row.capabilities operation = some .denied

abbrev SourceFollows : Option CiSourceRow → Option CiSourceRow → Prop :=
  RowFollows CiSourceRow.generation fun row (_ : Unit) => row.access = .denied

-- What a reader of a source sees of its row.
def CapabilityDb.visible (db : CapabilityDb) (key : CiSourceKey) : Option (CiSourceAccess × Bool) :=
  (db.sources.get? key).map fun row => (row.access, row.listingRequired)

def CapabilityDb.headVersion (db : CapabilityDb) (head : CiHeadKey) : Option Nat :=
  (db.heads.get? head).map CiHeadVersion.version

-- Some source of the head is new, or reads otherwise than before.
def SourcesChanged (db db' : CapabilityDb) (head : CiHeadKey) : Prop :=
  ∃ key : CiSourceKey, key.head = head ∧ db.visible key ≠ db'.visible key

structure VersionFollows (db db' : CapabilityDb) (head : CiHeadKey) : Prop where
  grows : ∀ v, db.headVersion head = some v → ∃ v', db'.headVersion head = some v' ∧ v ≤ v'
  raised : SourcesChanged db db' head → ∃ v', db'.headVersion head = some v' ∧ ∀ v, db.headVersion head = some v → v < v'

theorem VersionFollows.refl (db : CapabilityDb) (head : CiHeadKey) : VersionFollows db db head where
  grows v stored := ⟨v, stored, Nat.le_refl v⟩
  raised := fun ⟨_, _, differs⟩ => absurd rfl differs

variable {head : CiHeadKey}

theorem VersionFollows.trans {a b c : CapabilityDb} (first : VersionFollows a b head)
    (second : VersionFollows b c head) : VersionFollows a c head where
  grows := by
    intro v stored
    obtain ⟨v', stored', later⟩ := first.grows v stored
    obtain ⟨v'', stored'', later'⟩ := second.grows v' stored'
    exact ⟨v'', stored'', Nat.le_trans later later'⟩
  raised := by
    intro changed
    obtain ⟨key, here, differs⟩ := changed
    by_cases early : a.visible key = b.visible key
    · rw [early] at differs
      obtain ⟨v'', stored'', above⟩ := second.raised ⟨key, here, differs⟩
      have beyond : ∀ v, a.headVersion head = some v → v < v'' := by
        intro v stored
        obtain ⟨v', stored', later⟩ := first.grows v stored
        exact Nat.lt_of_le_of_lt later (above v' stored')
      exact ⟨v'', stored'', beyond⟩
    · obtain ⟨v', stored', above⟩ := first.raised ⟨key, here, early⟩
      obtain ⟨v'', stored'', later⟩ := second.grows v' stored'
      exact ⟨v'', stored'', fun v stored => Nat.lt_of_lt_of_le (above v stored) later⟩

structure CapabilitiesFollow (db db' : CapabilityDb) : Prop where
  scopes : ∀ scope, ScopeFollows (db.capabilities.get? scope) (db'.capabilities.get? scope)
  sources : ∀ key, SourceFollows (db.sources.get? key) (db'.sources.get? key)
  versions : ∀ head, VersionFollows db db' head

theorem CapabilitiesFollow.refl (db : CapabilityDb) : CapabilitiesFollow db db where
  scopes _ := RowFollows.refl _
  sources _ := RowFollows.refl _
  versions head := VersionFollows.refl db head

theorem CapabilitiesFollow.trans {a b c : CapabilityDb} (first : CapabilitiesFollow a b) (second : CapabilitiesFollow b c) :
    CapabilitiesFollow a c where
  scopes scope := (first.scopes scope).trans (second.scopes scope)
  sources key := (first.sources key).trans (second.sources key)
  versions head := (first.versions head).trans (second.versions head)

theorem headVersion_isSome {db : CapabilityDb} :
    (∃ v, db.headVersion head = some v) ↔ (db.heads.get? head).isSome := by
  cases stored : db.heads.get? head with
  | none => simp [CapabilityDb.headVersion, stored]
  | some row => simp [CapabilityDb.headVersion, stored]

theorem CapabilitiesFollow.present {a b : CapabilityDb} (follows : CapabilitiesFollow a b)
    (present : (a.heads.get? head).isSome) : (b.heads.get? head).isSome := by
  obtain ⟨v, stored⟩ := headVersion_isSome.mpr present
  obtain ⟨v', stored', _⟩ := (follows.versions head).grows v stored
  exact headVersion_isSome.mp ⟨v', stored'⟩

-- The version of a head rises exactly when one of its sources reads otherwise.
def VersionExact (db db' : CapabilityDb) (head : CiHeadKey) : Prop :=
  ∀ v, db.headVersion head = some v → ∃ v', db'.headVersion head = some v' ∧
    ((SourcesChanged db db' head ∧ v < v') ∨ (¬SourcesChanged db db' head ∧ v' = v))

theorem VersionExact.follows {db db' : CapabilityDb} (exact' : VersionExact db db' head)
    (present : SourcesChanged db db' head → (db.heads.get? head).isSome) : VersionFollows db db' head where
  grows := by
    intro v stored
    obtain ⟨v', stored', ⟨_, above⟩ | ⟨_, same⟩⟩ := exact' v stored
    · exact ⟨v', stored', Nat.le_of_lt above⟩
    · exact ⟨v', stored', Nat.le_of_eq same.symm⟩
  raised := by
    intro changed
    obtain ⟨v, stored⟩ := headVersion_isSome.mpr (present changed)
    obtain ⟨v', stored', ⟨_, above⟩ | ⟨unchanged, _⟩⟩ := exact' v stored
    · have only : ∀ w, db.headVersion head = some w → w < v' := by
        intro w stored''
        rw [stored] at stored''
        cases stored''
        exact above
      exact ⟨v', stored', only⟩
    · exact absurd changed unchanged

end Order

section Sync

variable {result : SyncResult} {key : CiSourceKey} {generation : Int} {access : CiSourceAccess}

theorem syncSource_kept (result : SyncResult) (key : CiSourceKey) (generation : Int) (access : CiSourceAccess) :
    (syncSource result key generation access).db.capabilities = result.db.capabilities ∧
      (syncSource result key generation access).db.heads = result.db.heads := by
  rw [syncSource]
  cases result.db.sources.get? key with
  | none => exact ⟨rfl, rfl⟩
  | some row =>
    by_cases accepted : row.accepts generation access
    · simp [accepted]
    · simp [accepted]

theorem syncSource_other (result : SyncResult) {key key' : CiSourceKey} (other : key' ≠ key) (generation : Int)
    (access : CiSourceAccess) : (syncSource result key generation access).db.sources.get? key' = result.db.sources.get? key' := by
  rw [syncSource]
  cases result.db.sources.get? key with
  | none => exact Table.get?_set_of_ne _ _ _ other
  | some row =>
    by_cases accepted : row.accepts generation access
    · simp [accepted, Table.get?_set_of_ne _ _ _ other]
    · simp [accepted]

-- The row of the source once the statement has run.
def syncedRow (generation : Int) (access : CiSourceAccess) : Option CiSourceRow → CiSourceRow
  | none => { generation, access }
  | some row => if row.accepts generation access then row.synced generation access else row

theorem syncSource_self (result : SyncResult) (key : CiSourceKey) (generation : Int) (access : CiSourceAccess) :
    (syncSource result key generation access).db.sources.get? key =
      some (syncedRow generation access (result.db.sources.get? key)) := by
  rw [syncSource]
  cases stored : result.db.sources.get? key with
  | none => simp [syncedRow]
  | some row =>
    by_cases accepted : row.accepts generation access
    · simp [syncedRow, accepted]
    · simp [syncedRow, accepted, stored]

theorem synced_follows (row : CiSourceRow) (generation : Int) (access : CiSourceAccess) :
    SourceFollows (some row) (some (if row.accepts generation access then row.synced generation access else row)) := by
  intro stored same
  cases same
  by_cases accepted : row.accepts generation access
  · rw [if_pos accepted]
    rcases (Bool.or_eq_true _ _).mp accepted with newer | denial
    · have newer : row.generation < generation := of_decide_eq_true newer
      exact ⟨_, rfl, Int.le_of_lt newer, fun same => absurd same (Int.ne_of_lt newer)⟩
    · simp only [Bool.and_eq_true, decide_eq_true_eq] at denial
      exact ⟨_, rfl, Int.le_of_eq denial.1.1, fun _ _ _ => denial.1.2⟩
  · rw [if_neg accepted]
    exact (RowFollows.refl (some row) : SourceFollows _ _) row rfl

theorem syncSource_follows (result : SyncResult) (key : CiSourceKey) (generation : Int) (access : CiSourceAccess) (key' : CiSourceKey) :
    SourceFollows (result.db.sources.get? key') ((syncSource result key generation access).db.sources.get? key') := by
  by_cases same : key' = key
  · subst same
    rw [syncSource_self]
    cases stored : result.db.sources.get? key' with
    | none =>
      intro row absent
      cases absent
    | some row => exact synced_follows row generation access
  · rw [syncSource_other result same]
    exact RowFollows.refl _

-- What the statement returns as `changed`.
theorem syncSource_changed (result : SyncResult) (key : CiSourceKey) (generation : Int) (access : CiSourceAccess) :
    (syncSource result key generation access).changed =
      (result.changed || decide (result.db.visible key ≠ (syncSource result key generation access).db.visible key)) := by
  rw [CapabilityDb.visible, CapabilityDb.visible, syncSource_self, syncSource]
  cases stored : result.db.sources.get? key with
  | none => simp
  | some row =>
    by_cases accepted : row.accepts generation access
    · by_cases same : row.access = access
      · simp [syncedRow, accepted, CiSourceRow.synced, same]
      · simp [syncedRow, accepted, CiSourceRow.synced, same]
    · simp [syncedRow, accepted]

variable (db : CapabilityDb) (installationId : Nat) (head : CiHeadKey) (observation : Option GithubCapabilityObservation)

theorem syncRows_kept : (syncRows db installationId head observation).db.capabilities = db.capabilities ∧
    (syncRows db installationId head observation).db.heads = db.heads := by
  simp only [syncRows, List.foldl_cons, List.foldl_nil]
  obtain ⟨scopes, heads⟩ := syncSource_kept { db } ⟨installationId, head, .checks⟩
    ((observation.map GithubCapabilityObservation.generation).getD 0) (observedAccess observation .checks)
  obtain ⟨scopes', heads'⟩ := syncSource_kept (syncSource { db } ⟨installationId, head, .checks⟩
    ((observation.map GithubCapabilityObservation.generation).getD 0) (observedAccess observation .checks))
    ⟨installationId, head, .statuses⟩ ((observation.map GithubCapabilityObservation.generation).getD 0)
    (observedAccess observation .statuses)
  exact ⟨scopes'.trans scopes, heads'.trans heads⟩

theorem syncRows_follows (key : CiSourceKey) :
    SourceFollows (db.sources.get? key) ((syncRows db installationId head observation).db.sources.get? key) := by
  simp only [syncRows, List.foldl_cons, List.foldl_nil]
  exact (syncSource_follows { db } _ _ _ key).trans (syncSource_follows _ _ _ _ key)

theorem syncRows_elsewhere {key : CiSourceKey} (elsewhere : key.head ≠ head) :
    (syncRows db installationId head observation).db.sources.get? key = db.sources.get? key := by
  have other : ∀ source, key ≠ ⟨installationId, head, source⟩ := by
    intro source same
    exact elsewhere (congrArg CiSourceKey.head same)
  simp only [syncRows, List.foldl_cons, List.foldl_nil]
  rw [syncSource_other _ (other .statuses), syncSource_other _ (other .checks)]

-- The two sources of a head are two rows: what one statement changes the other leaves.
theorem syncRows_changed : (syncRows db installationId head observation).changed = true ↔
    SourcesChanged db (syncRows db installationId head observation).db head := by
  simp only [syncRows, List.foldl_cons, List.foldl_nil]
  generalize (observation.map GithubCapabilityObservation.generation).getD 0 = generation
  generalize hc : (⟨installationId, head, .checks⟩ : CiSourceKey) = checks
  generalize hs : (⟨installationId, head, .statuses⟩ : CiSourceKey) = statuses
  have apart : checks ≠ statuses := by
    subst hc hs
    simp
  generalize observedAccess observation .checks = access
  generalize observedAccess observation .statuses = access'
  have first := syncSource_changed { db } checks generation access
  have second := syncSource_changed (syncSource { db } checks generation access) statuses generation access'
  have keptLater : (syncSource (syncSource { db } checks generation access) statuses generation access').db.visible checks =
      (syncSource { db } checks generation access).db.visible checks := by
    rw [CapabilityDb.visible, syncSource_other _ apart, CapabilityDb.visible]
  have keptEarlier : (syncSource { db } checks generation access).db.visible statuses = db.visible statuses := by
    rw [CapabilityDb.visible, syncSource_other _ (Ne.symm apart), CapabilityDb.visible]
  rw [second, first, Bool.false_or, Bool.or_eq_true, decide_eq_true_eq, decide_eq_true_eq, keptEarlier, ← keptLater]
  constructor
  · intro changed
    cases changed with
    | inl here => exact ⟨checks, hc ▸ rfl, here⟩
    | inr here => exact ⟨statuses, hs ▸ rfl, here⟩
  · intro changed
    obtain ⟨key, _, differs⟩ := changed
    by_cases isChecks : key = checks
    · exact .inl (isChecks ▸ differs)
    · by_cases isStatuses : key = statuses
      · exact .inr (isStatuses ▸ differs)
      · apply absurd _ differs
        rw [CapabilityDb.visible, CapabilityDb.visible, syncSource_other _ isStatuses, syncSource_other _ isChecks]

theorem headVersion_bump (db : CapabilityDb) (head : CiHeadKey) (changed : Bool) (head' : CiHeadKey) :
    (bumpHead db head changed).headVersion head' =
      if head' = head then (db.headVersion head).map (· + if changed then 1 else 0) else db.headVersion head' := by
  by_cases same : head' = head
  · subst same
    cases stored : db.heads.get? head' with
    | none => simp [bumpHead, CapabilityDb.headVersion, stored]
    | some row => simp [bumpHead, CapabilityDb.headVersion, stored]
  · cases stored : db.heads.get? head with
    | none => simp [bumpHead, CapabilityDb.headVersion, stored, same]
    | some row => simp [bumpHead, CapabilityDb.headVersion, stored, same, Table.get?_set_of_ne]

theorem bumpHead_kept (db : CapabilityDb) (head : CiHeadKey) (changed : Bool) :
    (bumpHead db head changed).capabilities = db.capabilities ∧ (bumpHead db head changed).sources = db.sources := by
  rw [bumpHead]
  cases db.heads.get? head with
  | none => exact ⟨rfl, rfl⟩
  | some row => exact ⟨rfl, rfl⟩

theorem syncSources_kept : (syncSources db installationId head observation).capabilities = db.capabilities ∧
    (syncSources db installationId head observation).sources = (syncRows db installationId head observation).db.sources := by
  have kept := (syncRows_kept db installationId head observation).1
  simp only [syncSources]
  split
  · exact ⟨(bumpHead_kept _ _ _).1.trans kept, (bumpHead_kept _ _ _).2⟩
  · exact ⟨kept, rfl⟩

theorem headVersion_sync (head' : CiHeadKey) : (syncSources db installationId head observation).headVersion head' =
    if head' = head then
      (db.headVersion head).map (· + if (syncRows db installationId head observation).changed then 1 else 0)
    else db.headVersion head' := by
  have heads : ∀ head', (syncRows db installationId head observation).db.headVersion head' = db.headVersion head' := by
    intro head'
    rw [CapabilityDb.headVersion, (syncRows_kept db installationId head observation).2, CapabilityDb.headVersion]
  simp only [syncSources]
  split
  · rw [headVersion_bump, heads, heads]
  · next quiet =>
    have unchanged : (syncRows db installationId head observation).changed = false := by
      cases changed : (syncRows db installationId head observation).changed with
      | false => rfl
      | true => simp [changed] at quiet
    by_cases same : head' = head
    · subst same
      simp [unchanged, heads]
    · simp [same, heads]

theorem sourcesChanged_congr {a b c : CapabilityDb} {head : CiHeadKey} (same : b.sources = c.sources) :
    SourcesChanged a b head ↔ SourcesChanged a c head := by
  simp only [SourcesChanged, CapabilityDb.visible, same]

theorem syncSources_elsewhere {head' : CiHeadKey} (elsewhere : head' ≠ head) :
    ¬SourcesChanged db (syncSources db installationId head observation) head' := by
  intro changed
  obtain ⟨key, rfl, differs⟩ := changed
  apply differs
  rw [CapabilityDb.visible, CapabilityDb.visible, (syncSources_kept db installationId head observation).2,
    syncRows_elsewhere db installationId head observation elsewhere]

theorem syncSources_exact (head' : CiHeadKey) :
    VersionExact db (syncSources db installationId head observation) head' := by
  intro v stored
  rw [headVersion_sync]
  by_cases same : head' = head
  · subst same
    rw [if_pos rfl, stored, sourcesChanged_congr (syncSources_kept db installationId head' observation).2,
      ← syncRows_changed]
    by_cases changed : (syncRows db installationId head' observation).changed = true
    · exact ⟨v + 1, by simp [changed], .inl ⟨changed, Nat.lt_succ_self v⟩⟩
    · exact ⟨v, by simp [changed], .inr ⟨changed, rfl⟩⟩
  · rw [if_neg same]
    exact ⟨v, stored, .inr ⟨syncSources_elsewhere db installationId head observation same, rfl⟩⟩

theorem syncSources_follows (present : (db.heads.get? head).isSome) :
    CapabilitiesFollow db (syncSources db installationId head observation) where
  scopes scope := by
    rw [(syncSources_kept db installationId head observation).1]
    exact RowFollows.refl _
  sources key := by
    rw [(syncSources_kept db installationId head observation).2]
    exact syncRows_follows db installationId head observation key
  versions head' := by
    apply (syncSources_exact db installationId head observation head').follows
    intro changed
    by_cases same : head' = head
    · exact same ▸ present
    · exact absurd changed (syncSources_elsewhere db installationId head observation same)

end Sync

section Update

variable (db : CapabilityDb) (read : SourceRead)

theorem updates_iff {row : CiSourceRow} : read.updates row = true ↔ row.generation = read.generation ∧
    ¬(row.access = .denied ∧ read.access ≠ .denied) ∧
    ((row.access, row.listingRequired) ≠ (read.access, read.listingRequired) ∨ read.access = .unknown) := by
  simp [SourceRead.updates, and_assoc]
  tauto

-- The row that the update leaves.
def SourceRead.updated (row : CiSourceRow) : CiSourceRow :=
  { row with
    access := read.access
    listingRequired := read.listingRequired
    unknownReadCount := if read.access = .unknown then row.unknownReadCount + 1 else 0 }

theorem updateSource_rejected {row : CiSourceRow} (stored : db.sources.get? read.key = some row)
    (rejected : read.updates row = false) : updateSource db read = (false, db) := by
  simp [updateSource, stored, rejected]

theorem updateSource_source (key : CiSourceKey) : (updateSource db read).2.sources.get? key =
    if key = read.key then (db.sources.get? key).map fun row => if read.updates row then read.updated row else row
    else db.sources.get? key := by
  cases stored : db.sources.get? read.key with
  | none =>
    by_cases same : key = read.key
    · subst same
      simp [updateSource, stored]
    · simp [updateSource, stored, same]
  | some row =>
    by_cases accepted : read.updates row = true
    · have written : (updateSource db read).2.sources = db.sources.set read.key (read.updated row) := by
        simp only [updateSource, stored, accepted, if_true]
        split
        · cases db.heads.get? read.key.head <;> rfl
        · rfl
      rw [written, Table.get?_set]
      by_cases same : key = read.key
      · subst same
        simp [stored, accepted]
      · simp [same]
    · have rejected : read.updates row = false := by simpa using accepted
      rw [updateSource_rejected db read stored rejected]
      by_cases same : key = read.key
      · subst same
        simp [stored, rejected]
      · simp [same]

theorem updateSource_capabilities : (updateSource db read).2.capabilities = db.capabilities := by
  cases stored : db.sources.get? read.key with
  | none => simp [updateSource, stored]
  | some row =>
    by_cases accepted : read.updates row = true
    · simp only [updateSource, stored, accepted, if_true]
      split
      · cases db.heads.get? read.key.head <;> rfl
      · rfl
    · simp [updateSource, stored, accepted]

theorem updated_follows (row : CiSourceRow) :
    SourceFollows (some row) (some (if read.updates row then read.updated row else row)) := by
  intro stored same
  cases same
  by_cases accepted : read.updates row = true
  · obtain ⟨_, kept, _⟩ := (updates_iff read).mp accepted
    have denied : row.access = .denied → read.access = .denied := by
      intro before
      by_cases after : read.access = .denied
      · exact after
      · exact absurd ⟨before, after⟩ kept
    rw [if_pos accepted]
    exact ⟨_, rfl, Int.le_refl _, fun _ _ before => denied before⟩
  · rw [if_neg accepted]
    exact ⟨row, rfl, Int.le_refl _, fun _ _ before => before⟩

-- The update is seen by readers exactly when it returns true.
theorem updateSource_visible (head : CiHeadKey) : SourcesChanged db (updateSource db read).2 head ↔
    head = read.key.head ∧ (updateSource db read).1 = true := by
  have elsewhere : ∀ key, key ≠ read.key → db.visible key = (updateSource db read).2.visible key := by
    intro key other
    rw [CapabilityDb.visible, CapabilityDb.visible, updateSource_source, if_neg other]
  have here : db.visible read.key ≠ (updateSource db read).2.visible read.key ↔ (updateSource db read).1 = true := by
    rw [CapabilityDb.visible, CapabilityDb.visible, updateSource_source, if_pos rfl]
    cases stored : db.sources.get? read.key with
    | none => simp [updateSource, stored]
    | some row =>
      by_cases accepted : read.updates row = true
      · by_cases same : (row.access, row.listingRequired) = (read.access, read.listingRequired)
        · simp [updateSource, stored, accepted, same, SourceRead.updated]
        · simp [updateSource, stored, accepted, same, SourceRead.updated]
      · simp [updateSource, stored, accepted]
  constructor
  · intro changed
    obtain ⟨key, rfl, differs⟩ := changed
    by_cases same : key = read.key
    · exact ⟨congrArg CiSourceKey.head same, here.mp (same ▸ differs)⟩
    · exact absurd (elsewhere key same) differs
  · intro changed
    exact ⟨read.key, changed.1.symm, here.mpr changed.2⟩

theorem headVersion_update (head : CiHeadKey) : (updateSource db read).2.headVersion head =
    if head = read.key.head ∧ (updateSource db read).1 = true then (db.headVersion head).map (· + 1)
    else db.headVersion head := by
  cases stored : db.sources.get? read.key with
  | none => simp [updateSource, stored]
  | some row =>
    by_cases accepted : read.updates row = true
    · by_cases same : (row.access, row.listingRequired) = (read.access, read.listingRequired)
      · simp [updateSource, stored, accepted, same, CapabilityDb.headVersion]
      · simp only [updateSource, stored, accepted, same, if_true, ne_eq, not_false_eq_true, and_true]
        by_cases here : head = read.key.head
        · subst here
          cases row' : db.heads.get? read.key.head with
          | none => simp [CapabilityDb.headVersion, row']
          | some version => simp [CapabilityDb.headVersion, row']
        · cases row' : db.heads.get? read.key.head with
          | none => simp [CapabilityDb.headVersion, here]
          | some version => simp [CapabilityDb.headVersion, here, Table.get?_set_of_ne]
    · simp [updateSource, stored, accepted]

theorem updateSource_exact (head : CiHeadKey) : VersionExact db (updateSource db read).2 head := by
  intro v stored
  rw [headVersion_update, updateSource_visible, stored]
  by_cases changed : head = read.key.head ∧ (updateSource db read).1 = true
  · exact ⟨v + 1, by simp [changed], .inl ⟨changed, Nat.lt_succ_self v⟩⟩
  · exact ⟨v, by simp [changed], .inr ⟨changed, rfl⟩⟩

theorem updateSource_follows (present : (db.heads.get? read.key.head).isSome) :
    CapabilitiesFollow db (updateSource db read).2 where
  scopes scope := by
    rw [updateSource_capabilities]
    exact RowFollows.refl _
  sources key := by
    rw [updateSource_source]
    by_cases same : key = read.key
    · rw [if_pos same]
      cases stored : db.sources.get? key with
      | none =>
        intro row absent
        cases absent
      | some row => exact updated_follows read row
    · rw [if_neg same]
      exact RowFollows.refl _
  versions head := by
    apply (updateSource_exact db read head).follows
    intro changed
    obtain ⟨rfl, _⟩ := (updateSource_visible db read head).mp changed
    exact present

end Update

section Calls

variable (collation : String → String → Prop) [DecidableRel collation]

theorem syncHeads_follow (installationId : Nat) (observation : Option GithubCapabilityObservation) (heads : List CiHeadKey)
    (db : CapabilityDb) (present : ∀ head ∈ heads, (db.heads.get? head).isSome) :
    CapabilitiesFollow db (heads.foldl (fun db head => syncSources db installationId head observation) db) := by
  induction heads generalizing db with
  | nil => exact CapabilitiesFollow.refl db
  | cons head rest ih =>
    have first := syncSources_follows db installationId head observation (present head List.mem_cons_self)
    apply first.trans
    apply ih
    intro later listed
    exact first.present (present later (List.mem_cons_of_mem head listed))

variable {db : CapabilityDb}

variable {scope : GithubRepositoryScope}

theorem fanoutHeads_present {head : CiHeadKey} (listed : head ∈ fanoutHeads collation db scope) : (db.heads.get? head).isSome := by
  have selected := (List.mem_insertionSort _).mp (List.mem_of_mem_take listed)
  obtain ⟨⟨key, row⟩, found, rfl⟩ := List.mem_map.mp selected
  rw [((Table.mem_select _ _ key row).mp found).1]
  rfl

theorem fanout_follows (db : CapabilityDb) (scope : GithubRepositoryScope) (observation : GithubCapabilityObservation) :
    CapabilitiesFollow db (fanoutObservation collation db scope observation) :=
  syncHeads_follow scope.installationId (some observation) _ db fun _ listed => fanoutHeads_present collation listed

theorem setScope_follows {saved : GithubCapabilityObservation} (follows : ScopeFollows (db.capabilities.get? scope) (some saved)) :
    CapabilitiesFollow db { db with capabilities := db.capabilities.set scope saved } where
  scopes other := by
    simp only [Table.get?_set]
    by_cases same : other = scope
    · rw [if_pos same, same]
      exact follows
    · rw [if_neg same]
      exact RowFollows.refl _
  sources _ := RowFollows.refl _
  versions head := ⟨(VersionFollows.refl db head).grows, (VersionFollows.refl db head).raised⟩

theorem savedObservation_follows
    {observation saved : GithubCapabilityObservation} (saves : savedObservation db scope observation = some saved) :
    ScopeFollows (db.capabilities.get? scope) (some saved) := by
  intro row stored
  rw [savedObservation, stored] at saves
  by_cases newer : row.generation < observation.generation
  · simp only [newer, if_true, Option.some.injEq] at saves
    subst saves
    exact ⟨_, rfl, Int.le_of_lt newer, fun same => absurd same (Int.ne_of_lt newer)⟩
  · simp [newer] at saves

theorem save_follows (db : CapabilityDb) (scope : GithubRepositoryScope) (observation : GithubCapabilityObservation) :
    CapabilitiesFollow db (saveGithubCapabilityObservation collation db scope observation).2 := by
  rw [saveGithubCapabilityObservation]
  split
  · exact CapabilitiesFollow.refl db
  · cases saves : savedObservation db scope observation with
    | none => exact CapabilitiesFollow.refl db
    | some saved =>
      exact (setScope_follows (savedObservation_follows saves)).trans (fanout_follows collation _ scope saved)

theorem denial_follows (db : CapabilityDb) (scope : GithubRepositoryScope) (generation : Int) (operation : InstallationOperation) :
    CapabilitiesFollow db (recordGithubCapabilityDenial collation db scope generation operation).2 := by
  rw [recordGithubCapabilityDenial]
  cases stored : db.capabilities.get? scope with
  | none => exact CapabilitiesFollow.refl db
  | some row =>
    simp only
    split
    · have follows : ScopeFollows (db.capabilities.get? scope) (some (withDenied row operation)) := by
        intro row' same
        rw [stored] at same
        cases same
        have denied : ∀ other, row.capabilities other = some .denied →
            (withDenied row operation).capabilities other = some .denied := by
          intro other before
          simp [withDenied, before]
        exact ⟨_, rfl, Int.le_refl _, fun _ => denied⟩
      exact (setScope_follows follows).trans (fanout_follows collation _ scope _)
    · exact CapabilitiesFollow.refl db

theorem load_follows (db : CapabilityDb) (installationId : Nat) (head : CiHeadKey) :
    CapabilitiesFollow db (loadGithubCiSourceAvailability db installationId head) := by
  rw [loadGithubCiSourceAvailability]
  split
  · next present => exact syncSources_follows db installationId head _ present
  · exact CapabilitiesFollow.refl db

theorem recordRead_eq {read : SourceRead} (present : (db.heads.get? read.key.head).isSome) :
    recordGithubCiSourceRead db read =
      updateSource (loadGithubCiSourceAvailability db read.key.installationId read.key.head) read := by
  rw [recordGithubCiSourceRead, if_pos present, loadGithubCiSourceAvailability, if_pos present]

theorem read_follows (db : CapabilityDb) (read : SourceRead) :
    CapabilitiesFollow db (recordGithubCiSourceRead db read).2 := by
  by_cases present : (db.heads.get? read.key.head).isSome
  · have loaded := load_follows db read.key.installationId read.key.head
    rw [recordRead_eq present]
    exact loaded.trans (updateSource_follows _ read (loaded.present present))
  · rw [recordGithubCiSourceRead, if_neg present]
    exact CapabilitiesFollow.refl db

-- The other writers of a head leave the capabilities and the sources.
theorem heads_follow {heads : Table CiHeadKey CiHeadVersion}
    (grows : ∀ head row, db.heads.get? head = some row → ∃ row', heads.get? head = some row' ∧ row.version ≤ row'.version) :
    CapabilitiesFollow db { db with heads } where
  scopes _ := RowFollows.refl _
  sources _ := RowFollows.refl _
  versions head := by
    constructor
    · intro v stored
      obtain ⟨row, found, rfl⟩ := Option.map_eq_some_iff.mp stored
      obtain ⟨row', found', later⟩ := grows head row found
      exact ⟨row'.version, by simp [CapabilityDb.headVersion, found'], later⟩
    · intro changed
      obtain ⟨key, _, differs⟩ := changed
      exact absurd rfl differs

theorem seed_follows (db : CapabilityDb) (head : CiHeadKey) : CapabilitiesFollow db (seedHead db head) := by
  rw [seedHead]
  split
  · exact CapabilitiesFollow.refl db
  · next absent =>
    apply heads_follow
    intro other row stored
    have ne : other ≠ head := by
      intro same
      subst same
      simp [stored] at absent
    exact ⟨row, (Table.get?_set_of_ne _ _ _ ne).trans stored, Nat.le_refl _⟩

theorem fact_follows (db : CapabilityDb) (head : CiHeadKey) : CapabilitiesFollow db (acceptFact db head) := by
  rw [acceptFact]
  cases stored : db.heads.get? head with
  | none => exact CapabilitiesFollow.refl db
  | some row =>
    apply heads_follow
    intro other row' stored'
    rw [Table.get?_set]
    by_cases same : other = head
    · subst same
      rw [stored] at stored'
      cases stored'
      exact ⟨_, if_pos rfl, Nat.le_succ _⟩
    · exact ⟨row', (if_neg same).trans stored', Nat.le_refl _⟩

theorem capabilityStep_follows {db db' : CapabilityDb} {event : CapabilityEvent}
    (moved : capabilityStep collation db event = some db') : CapabilitiesFollow db db' := by
  cases event with
  | save scope observation =>
    cases moved
    exact save_follows collation db scope observation
  | deny scope generation operation =>
    cases moved
    exact denial_follows collation db scope generation operation
  | load installationId head =>
    cases moved
    exact load_follows db installationId head
  | read read =>
    cases moved
    exact read_follows db read
  | seed head =>
    cases moved
    exact seed_follows db head
  | fact head =>
    cases moved
    exact fact_follows db head

end Calls

section Main

variable (collation : String → String → Prop) [DecidableRel collation]

structure CapabilitiesMonotone (s t : CapabilityDb) : Prop where
  follows : CapabilitiesFollow s t
  -- an observation that is not newer is answered with false, or is no generation
  observations : ∀ scope observation row, t.capabilities.get? scope = some row → observation.generation ≤ row.generation →
    (saveGithubCapabilityObservation collation t scope observation).1 ≠ .ok true ∧
      (saveGithubCapabilityObservation collation t scope observation).2 = t
  denials : ∀ scope generation operation row, t.capabilities.get? scope = some row → generation ≠ row.generation →
    recordGithubCapabilityDenial collation t scope generation operation = (false, t)
  syncs : ∀ key row observation, t.sources.get? key = some row →
    (observation.map GithubCapabilityObservation.generation).getD 0 < row.generation →
      (syncSources t key.installationId key.head observation).sources.get? key = some row
  reads : ∀ (read : SourceRead) row, t.sources.get? read.key = some row → read.generation < row.generation →
    recordGithubCiSourceRead t read = (false, loadGithubCiSourceAvailability t read.key.installationId read.key.head)
  syncVersions : ∀ installationId head observation head',
    VersionExact t (syncSources t installationId head observation) head'
  readVersions : ∀ read head, VersionExact t (updateSource t read).2 head

variable {collation}

variable {db : CapabilityDb}

theorem olderObservation_ignored {scope : GithubRepositoryScope}
    {observation row : GithubCapabilityObservation} (stored : db.capabilities.get? scope = some row)
    (older : observation.generation ≤ row.generation) :
    (saveGithubCapabilityObservation collation db scope observation).1 ≠ .ok true ∧
      (saveGithubCapabilityObservation collation db scope observation).2 = db := by
  have unsaved : savedObservation db scope observation = none := by
    have notNewer : ¬row.generation < observation.generation := by omega
    simp [savedObservation, stored, notNewer]
  rw [saveGithubCapabilityObservation, unsaved]
  split
  · exact ⟨by simp, rfl⟩
  · exact ⟨by simp, rfl⟩

theorem otherDenial_ignored {scope : GithubRepositoryScope} {generation : Int}
    {operation : InstallationOperation} {row : GithubCapabilityObservation} (stored : db.capabilities.get? scope = some row)
    (other : generation ≠ row.generation) :
    recordGithubCapabilityDenial collation db scope generation operation = (false, db) := by
  have mismatch : ¬(row.generation = generation ∧ row.capabilities operation ≠ some .denied) :=
    fun same => other same.1.symm
  simp only [recordGithubCapabilityDenial, stored, if_neg mismatch]

theorem accepts_older {row : CiSourceRow} {generation : Int} (older : generation < row.generation) (access : CiSourceAccess) :
    row.accepts generation access = false := by
  have notNewer : ¬row.generation < generation := by omega
  have notSame : row.generation ≠ generation := by omega
  simp [CiSourceRow.accepts, notNewer, notSame]

theorem olderSync_ignored {key : CiSourceKey} {row : CiSourceRow}
    {observation : Option GithubCapabilityObservation} (stored : db.sources.get? key = some row)
    (older : (observation.map GithubCapabilityObservation.generation).getD 0 < row.generation) :
    (syncSources db key.installationId key.head observation).sources.get? key = some row := by
  have kept : ∀ (result : SyncResult) key' access, result.db.sources.get? key = some row →
      (syncSource result key' ((observation.map GithubCapabilityObservation.generation).getD 0) access).db.sources.get? key =
        some row := by
    intro result key' access before
    by_cases same : key = key'
    · subst same
      rw [syncSource_self, before, syncedRow, accepts_older older]
      rfl
    · rw [syncSource_other result same, before]
  rw [(syncSources_kept db key.installationId key.head observation).2]
  simp only [syncRows, List.foldl_cons, List.foldl_nil]
  exact kept _ _ _ (kept _ _ _ stored)

-- What an older read leaves is what the sync that precedes every read leaves.
theorem olderRead_ignored {read : SourceRead} {row : CiSourceRow}
    (stored : db.sources.get? read.key = some row) (older : read.generation < row.generation) :
    recordGithubCiSourceRead db read = (false, loadGithubCiSourceAvailability db read.key.installationId read.key.head) := by
  by_cases present : (db.heads.get? read.key.head).isSome
  · obtain ⟨row', stored', later, _⟩ := (load_follows db read.key.installationId read.key.head).sources read.key row stored
    have rejected : read.updates row' = false := by
      have notSame : row'.generation ≠ read.generation := by omega
      simp [SourceRead.updates, notSame]
    rw [recordRead_eq present, updateSource_rejected _ read stored' rejected]
  · rw [recordGithubCiSourceRead, if_neg present, loadGithubCiSourceAvailability, if_neg present]

theorem capability_generations_monotone {s t : CapabilityDb}
    (reached : Reaches (capabilityStep collation) (fun _ _ => True) s t) : CapabilitiesMonotone collation s t where
  follows := by
    apply reached.invariant (CapabilitiesFollow s) (CapabilitiesFollow.refl s)
    intro a event b before _ moved
    exact before.trans (capabilityStep_follows collation moved)
  observations _ _ _ stored older := olderObservation_ignored stored older
  denials _ _ _ _ stored other := otherDenial_ignored stored other
  syncs _ _ _ stored older := olderSync_ignored stored older
  reads _ _ stored older := olderRead_ignored stored older
  syncVersions installationId head observation head' := syncSources_exact t installationId head observation head'
  readVersions read head := updateSource_exact t read head

end Main

section Examples

def acmeScope : GithubRepositoryScope := ⟨7, "acme", "api"⟩

def acmeHead : CiHeadKey := ⟨"acme", "api", "c0ffee"⟩

def noCapabilities : CapabilityDb := ⟨.empty, .empty, .empty⟩

def allGranted (generation : Int) : GithubCapabilityObservation := ⟨generation, fun _ => some .available⟩

-- A head seen by the installation, with everything granted.
def grantedEvents : List CapabilityEvent := [.seed acmeHead, .save acmeScope (allGranted 1), .load 7 acmeHead]

def grantedDb : CapabilityDb :=
  runTo (capabilityStep (· ≤ ·)) (fun _ _ => true) grantedEvents noCapabilities noCapabilities

theorem granted_monotone : CapabilitiesMonotone (· ≤ ·) noCapabilities grantedDb :=
  capability_generations_monotone (reaches_runTo grantedEvents _ _ (by decide +kernel))

-- A newer observation of the same access writes both sources and leaves the version of the head.
theorem renewed_grant_keeps_version :
    (saveGithubCapabilityObservation (· ≤ ·) grantedDb acmeScope (allGranted 2)).1 = .ok true ∧
      (saveGithubCapabilityObservation (· ≤ ·) grantedDb acmeScope (allGranted 2)).2.sources.get? ⟨7, acmeHead, .checks⟩ ≠
        grantedDb.sources.get? ⟨7, acmeHead, .checks⟩ ∧
      (saveGithubCapabilityObservation (· ≤ ·) grantedDb acmeScope (allGranted 2)).2.headVersion acmeHead =
        grantedDb.headVersion acmeHead := by
  decide +kernel

end Examples
end PrAgent
