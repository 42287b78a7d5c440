import PrAgent.ReviewVerdict
import PrAgent.JsonSize
set_option autoImplicit false

namespace PrAgent

-- A text of a schema: its characters by a pattern, its code units between bounds.
structure BoundedText (allowed : Char → Bool) (least most : Nat) where
  text : String
  pattern : text.toList.all allowed = true
  least_le : least ≤ utf16Length text
  le_most : utf16Length text ≤ most

def hexDigit (c : Char) : Bool := c.isDigit || ('a' ≤ c && c ≤ 'f')

def uuidChar (c : Char) : Bool := c.isDigit || ('a' ≤ c && c ≤ 'f') || ('A' ≤ c && c ≤ 'F') || c = '-'

def identifierChar (c : Char) : Bool := c.isAlphanum || c ∈ ['_', ':', '.', '/', '#', '-']

abbrev IdentityText (most : Nat) := BoundedText (fun _ => true) 1 most
abbrev Digest := BoundedText hexDigit 64 64
abbrev Uuid := BoundedText uuidChar 36 36
abbrev Identifier := BoundedText identifierChar 1 128

def maxSafeNat : Nat := 9007199254740991

structure SafeNat where
  value : Nat
  safe : value ≤ maxSafeNat
  deriving DecidableEq

def prResourceKey (owner repo : String) (prNumber : Nat) : String :=
  owner ++ "/" ++ repo ++ "#" ++ Nat.repr prNumber

section Equality

variable {allowed : Char → Bool} {least most : Nat}

instance : DecidableEq (BoundedText allowed least most) := fun first second =>
  decidable_of_iff (first.text = second.text) (by
    cases first
    cases second
    simp)

end Equality

-- `workItemId` is also part of the binding; the store of a work item holds no other.
structure ReviewArtifactBinding where
  workItemId : Uuid
  resourceKey : IdentityText 512
  owner : IdentityText 100
  repo : IdentityText 100
  prNumber : SafeNat
  installationId : SafeNat
  baseSha : IdentityText 128
  headSha : IdentityText 128
  inputFingerprint : Digest
  deriving DecidableEq

inductive LogicalKey
  | brief
  | openedPaths
  | report (specialist : SpecialistId)
  | prepared (sequence : Nat)
  | settled (sequence : Nat)
  | finalSummary
  deriving DecidableEq, Repr

structure ArtifactDependency where
  logicalKey : LogicalKey
  payloadHash : Digest
  deriving DecidableEq

inductive SettlementOutcome
  | accepted | recovered | stopped
  deriving DecidableEq, Repr

def SettlementOutcome.text : SettlementOutcome → String
  | .accepted => "accepted"
  | .recovered => "recovered"
  | .stopped => "stopped"

inductive PublicationTarget
  | threads | summary
  deriving DecidableEq, Repr

def PublicationTarget.text : PublicationTarget → String
  | .threads => "threads"
  | .summary => "summary"

-- `payload`, `canonical`, `dependencies` stand as the JSON text of the stored value where no statement reads it.
structure PreparedPublication where
  sequence : Nat
  sequence_le : sequence ≤ 100000
  decisionId : Identifier
  operationKey : IdentityText 512
  target : PublicationTarget
  payload : String
  dependencies : List ArtifactDependency
  canonical : Option String
  deriving DecidableEq

structure SettledRemote where
  operationKey : IdentityText 512
  githubId : SafeNat
  deriving DecidableEq

structure SettledPublication where
  sequence : Nat
  sequence_le : sequence ≤ 100000
  decisionId : Identifier
  preparedHash : Digest
  outcome : SettlementOutcome
  remote : Option SettledRemote
  deriving DecidableEq

inductive ReviewArtifact
  | brief (brief : String) (openedPaths : Option String)
  | report (specialist : SpecialistId) (report evidence : String) (openedPaths : Option String)
  | openedPaths (paths : String)
  | publicationPrepared (prepared : PreparedPublication)
  | publicationSettled (settled : SettledPublication)
  | finalSummary (payload : String) (dependencies : List ArtifactDependency) (inputs : Option String)
  deriving DecidableEq

inductive ArtifactKind
  | brief | report | openedPaths | publicationPrepared | publicationSettled | finalSummary
  deriving DecidableEq, Repr

def ArtifactKind.text : ArtifactKind → String
  | .brief => "brief"
  | .report => "report"
  | .openedPaths => "opened_paths"
  | .publicationPrepared => "publication_prepared"
  | .publicationSettled => "publication_settled"
  | .finalSummary => "final_summary"

def ReviewArtifact.kind : ReviewArtifact → ArtifactKind
  | .brief _ _ => .brief
  | .report _ _ _ _ => .report
  | .openedPaths _ => .openedPaths
  | .publicationPrepared _ => .publicationPrepared
  | .publicationSettled _ => .publicationSettled
  | .finalSummary _ _ _ => .finalSummary

-- An envelope that `parseReviewArtifactEnvelope` accepts: key and order are those of `logicalIdentity`.
structure ReviewArtifactEnvelope where
  binding : ReviewArtifactBinding
  artifact : ReviewArtifact
  deriving DecidableEq

def specialistIndex : SpecialistId → Nat
  | .correctness => 0
  | .security => 1
  | .quality => 2
  | .tests => 3

def LogicalKey.order : LogicalKey → Nat
  | .brief => 0
  | .openedPaths => 5
  | .report specialist => 10 + specialistIndex specialist
  | .prepared sequence => 100 + sequence * 2
  | .settled sequence => 101 + sequence * 2
  | .finalSummary => 1000000

def LogicalKey.text : LogicalKey → String
  | .brief => "brief"
  | .openedPaths => "opened-paths"
  | .report specialist => "report/" ++ specialist.text
  | .prepared sequence => "decision/" ++ Nat.repr sequence ++ "/prepared"
  | .settled sequence => "decision/" ++ Nat.repr sequence ++ "/settled"
  | .finalSummary => "final-summary"

def ReviewArtifact.logicalKey : ReviewArtifact → LogicalKey
  | .brief _ _ => .brief
  | .report specialist _ _ _ => .report specialist
  | .openedPaths _ => .openedPaths
  | .publicationPrepared prepared => .prepared prepared.sequence
  | .publicationSettled settled => .settled settled.sequence
  | .finalSummary _ _ _ => .finalSummary

namespace ReviewArtifactEnvelope

variable (envelope : ReviewArtifactEnvelope)

def logicalKey : LogicalKey := envelope.artifact.logicalKey

def order : Nat := envelope.logicalKey.order

def reviewArtifactDependencies : List ArtifactDependency :=
  match envelope.artifact with
  | .publicationPrepared prepared => prepared.dependencies
  | .finalSummary _ dependencies _ => dependencies
  | _ => []

end ReviewArtifactEnvelope

section Encoding

def optionalField (key : String) : Option Json → List (String × Json)
  | none => []
  | some value => [(key, value)]

def ReviewArtifactBinding.json (binding : ReviewArtifactBinding) : Json :=
  .object [("baseSha", .string binding.baseSha.text), ("headSha", .string binding.headSha.text),
    ("inputFingerprint", .string binding.inputFingerprint.text), ("installationId", .number binding.installationId.value),
    ("mode", .string "review"), ("owner", .string binding.owner.text), ("prNumber", .number binding.prNumber.value),
    ("repo", .string binding.repo.text), ("resourceKey", .string binding.resourceKey.text),
    ("workItemId", .string binding.workItemId.text)]

def dependenciesText (dependencies : List ArtifactDependency) : String :=
  "[" ++ ",".intercalate (dependencies.map fun dependency =>
    "\x7b\"logicalKey\":\"" ++ dependency.logicalKey.text ++ "\",\"payloadHash\":\"" ++
      dependency.payloadHash.text ++ "\"\x7d") ++ "]"

def SettledRemote.json (remote : SettledRemote) : Json :=
  .object [("githubId", .number remote.githubId.value), ("operationKey", .string remote.operationKey.text)]

def ReviewArtifact.json : ReviewArtifact → Json
  | .brief value paths =>
    .object ([("brief", .canonical value), ("kind", .string ArtifactKind.brief.text)] ++
      optionalField "openedPaths" (paths.map .canonical))
  | .report specialist value evidence paths =>
    .object ([("evidence", .canonical evidence), ("kind", .string ArtifactKind.report.text)] ++
      optionalField "openedPaths" (paths.map .canonical) ++
      [("report", .canonical value), ("specialist", .string specialist.text)])
  | .openedPaths paths => .object [("kind", .string ArtifactKind.openedPaths.text), ("paths", .canonical paths)]
  | .publicationPrepared prepared =>
    .object (optionalField "canonical" (prepared.canonical.map .canonical) ++
      [("decisionId", .string prepared.decisionId.text), ("dependencies", .canonical (dependenciesText prepared.dependencies)),
        ("kind", .string ArtifactKind.publicationPrepared.text), ("operationKey", .string prepared.operationKey.text),
        ("payload", .canonical prepared.payload), ("sequence", .number prepared.sequence),
        ("target", .string prepared.target.text)])
  | .publicationSettled settled =>
    .object ([("decisionId", .string settled.decisionId.text), ("kind", .string ArtifactKind.publicationSettled.text),
        ("outcome", .string settled.outcome.text), ("preparedHash", .string settled.preparedHash.text)] ++
      optionalField "remote" (settled.remote.map SettledRemote.json) ++ [("sequence", .number settled.sequence)])
  | .finalSummary payload dependencies inputs =>
    .object ([("dependencies", .canonical (dependenciesText dependencies))] ++
      optionalField "inputs" (inputs.map .canonical) ++
      [("kind", .string ArtifactKind.finalSummary.text), ("payload", .canonical payload)])

-- `encodeReviewArtifact` sorts the keys of every object.
def ReviewArtifactEnvelope.json (envelope : ReviewArtifactEnvelope) : Json :=
  .object [("artifact", envelope.artifact.json), ("binding", envelope.binding.json),
    ("contractVersion", .string "review-3"), ("logicalKey", .string envelope.logicalKey.text),
    ("order", .number envelope.order), ("schemaVersion", .number 8)]

def ReviewArtifactEnvelope.encodedBytes (envelope : ReviewArtifactEnvelope) : Nat := envelope.json.bytes

end Encoding

-- The sequences of a key stay below the order of a final summary.
def LogicalKey.Bounded : LogicalKey → Prop
  | .prepared sequence | .settled sequence => sequence ≤ 100000
  | _ => True

theorem logical_key_bounded (artifact : ReviewArtifact) : artifact.logicalKey.Bounded := by
  cases artifact with
  | brief brief openedPaths => trivial
  | report specialist report evidence openedPaths => trivial
  | openedPaths paths => trivial
  | publicationPrepared prepared => exact prepared.sequence_le
  | publicationSettled settled => exact settled.sequence_le
  | finalSummary payload dependencies inputs => trivial

theorem specialist_index_injective {first second : SpecialistId}
    (same : specialistIndex first = specialistIndex second) : first = second := by
  cases first <;> cases second <;> first | rfl | cases same

theorem specialist_index_lt (specialist : SpecialistId) : specialistIndex specialist < 4 := by
  cases specialist <;> decide

theorem order_injective {first second : LogicalKey} (firstBounded : first.Bounded) (secondBounded : second.Bounded)
    (same : first.order = second.order) : first = second := by
  cases first with
  | brief =>
      cases second <;> simp only [LogicalKey.order, LogicalKey.Bounded] at * <;> first | rfl | omega
  | openedPaths =>
      cases second <;> simp only [LogicalKey.order, LogicalKey.Bounded] at * <;> first | rfl | omega
  | report specialist =>
      have small := specialist_index_lt specialist
      cases second with
      | report other =>
          have index : specialistIndex specialist = specialistIndex other := by
            simp only [LogicalKey.order] at same
            omega
          rw [specialist_index_injective index]
      | brief | openedPaths | prepared sequence | settled sequence | finalSummary =>
          simp only [LogicalKey.order, LogicalKey.Bounded] at *
          omega
  | prepared sequence =>
      cases second with
      | prepared other =>
          simp only [LogicalKey.order] at same
          rw [show sequence = other by omega]
      | report other =>
          have small := specialist_index_lt other
          simp only [LogicalKey.order] at same
          omega
      | brief | openedPaths | settled other | finalSummary =>
          simp only [LogicalKey.order, LogicalKey.Bounded] at *
          omega
  | settled sequence =>
      cases second with
      | settled other =>
          simp only [LogicalKey.order] at same
          rw [show sequence = other by omega]
      | report other =>
          have small := specialist_index_lt other
          simp only [LogicalKey.order] at same
          omega
      | brief | openedPaths | prepared other | finalSummary =>
          simp only [LogicalKey.order, LogicalKey.Bounded] at *
          omega
  | finalSummary =>
      cases second with
      | finalSummary => rfl
      | report other =>
          have small := specialist_index_lt other
          simp only [LogicalKey.order] at same
          omega
      | brief | openedPaths | prepared other | settled other =>
          simp only [LogicalKey.order, LogicalKey.Bounded] at *
          omega

end PrAgent
