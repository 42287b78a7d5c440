import PrAgent.AskQuota
import PrAgent.FindingLedger
import Mathlib.Data.List.Infix
import Mathlib.Data.List.Perm.Basic
set_option autoImplicit false

namespace PrAgent

inductive InventoryCompleteness
  | complete | partialRead | unavailable | permissionDenied
  deriving DecidableEq, Repr

inductive FindingPlace
  | thread | summary
  deriving DecidableEq, Repr

inductive FindingState
  | «open» | resolved
  deriving DecidableEq, Repr

-- `FindingSeverity | "unknown"`.
inductive HeldSeverity
  | known (severity : FindingSeverity)
  | unknown
  deriving DecidableEq, Repr

structure InventoryFinding where
  id : String
  source : FindingPlace
  threadId : Option String := none
  rootCommentId : Option Nat := none
  url : String
  path : String
  previousPath : Option String := none
  startLine : Option Nat
  line : Option Nat
  positionStale : Bool
  state : FindingState
  aliasOf : Option String := none
  severity : HeldSeverity
  createdAt : String
  hasHumanReplies : Bool
  commentsComplete : Bool
  deriving DecidableEq, Repr

inductive FindingReceipt
  | duplicate (id canonical : String)
  | fixed (id : String)
  | dismissed (id : String)
  deriving DecidableEq, Repr

def FindingReceipt.id : FindingReceipt → String
  | .duplicate id _ => id
  | .fixed id => id
  | .dismissed id => id

structure FindingMarker where
  id : String
  severity : FindingSeverity
  deriving DecidableEq, Repr

-- A comment of a thread, with what the marker parsers read in its body.
structure ReviewThreadComment where
  authorLogin : Option String
  url : String := ""
  createdAt : String := ""
  marker : Option FindingMarker := none
  heading : Option FindingSeverity := none
  receipts : List FindingReceipt := []
  deriving DecidableEq, Repr

structure ReviewThreadSnapshot where
  threadNodeId : String
  rootCommentId : Nat
  isResolved : Bool
  isOutdated : Bool := false
  path : Option String
  line : Option Nat
  startLine : Option Nat := none
  comments : List ReviewThreadComment
  commentsComplete : Bool := true
  deriving DecidableEq, Repr

def normalizedLogin (login : String) : String :=
  let name := (normalizedName login).toList
  if "[bot]".toList <:+ name then String.ofList (name.take (name.length - 5)) else String.ofList name

def isBotAuthor (authorLogin : Option String) (botLogin : String) : Bool :=
  authorLogin.any fun login => normalizedLogin login = normalizedLogin botLogin

def parseOwnedReceipts (comments : List ReviewThreadComment) (botLogin : String) : List FindingReceipt :=
  comments.flatMap fun comment => if isBotAuthor comment.authorLogin botLogin then comment.receipts else []

def hasHumanReplies (comments : List ReviewThreadComment) (botLogin : String) : Bool :=
  (comments.drop 1).any fun reply => !isBotAuthor reply.authorLogin botLogin

def duplicateReceipt? : FindingReceipt → Option String
  | .duplicate _ canonical => some canonical
  | .fixed _ | .dismissed _ => none

-- The canonical finding that the first duplicate receipt of a thread names.
def aliasIn (comments : List ReviewThreadComment) (botLogin id : String) : Option String :=
  (((parseOwnedReceipts comments botLogin).filter fun receipt => receipt.id = id).findSome? duplicateReceipt?).filter
    fun canonical => canonical ≠ id

section Assembly

structure InventoryContext where
  renames : Table String String
  botLogin : String
  legacyFindingId : String → String

def placePath (context : InventoryContext) (rawPath : String) : String × Option String :=
  let path := (context.renames.get? rawPath).getD rawPath
  (path, if path ≠ rawPath then some rawPath else none)

def threadFinding (context : InventoryContext) (thread : ReviewThreadSnapshot) : Option InventoryFinding :=
  match thread.comments, thread.path with
  | root :: _, some rawPath =>
    if !isBotAuthor root.authorLogin context.botLogin then none
    else if root.marker.isNone && root.heading.isNone then none
    else
      let id := (root.marker.map FindingMarker.id).getD (context.legacyFindingId thread.threadNodeId)
      let (path, previousPath) := placePath context rawPath
      some
        { id, source := .thread, threadId := some thread.threadNodeId, rootCommentId := some thread.rootCommentId
          url := root.url, path, previousPath, startLine := thread.startLine.or thread.line, line := thread.line
          positionStale := thread.isOutdated || thread.line.isNone
          state := if thread.isResolved then .resolved else .open
          aliasOf := aliasIn thread.comments context.botLogin id
          severity := match (root.marker.map FindingMarker.severity).or root.heading with
            | some severity => .known severity
            | none => .unknown
          createdAt := root.createdAt
          hasHumanReplies := hasHumanReplies thread.comments context.botLogin
          commentsComplete := thread.commentsComplete }
  | _, _ => none

def isOlder (left right : InventoryFinding) : Bool :=
  if left.createdAt ≠ right.createdAt then left.createdAt < right.createdAt
  else left.rootCommentId.getD 0 < right.rootCommentId.getD 0

structure FindingRowMarker where
  id : String
  severity : FindingSeverity
  path : String
  line : Option Nat

def summaryFinding (context : InventoryContext) (url : String) (row : FindingRowMarker) : InventoryFinding :=
  let (path, previousPath) := placePath context row.path
  { id := row.id, source := .summary, url, path, previousPath, startLine := row.line, line := row.line
    positionStale := row.line.isNone, state := .open, severity := .known row.severity, createdAt := ""
    hasHumanReplies := false, commentsComplete := true }

def Table.values {K R : Type} (table : Table K R) : List R := table.rows.map Prod.snd

def heldThreads (findings : Table String InventoryFinding) (sameIdCopies : List InventoryFinding) : List String :=
  (findings.values ++ sameIdCopies).filterMap InventoryFinding.threadId

structure FindingInventory where
  completeness : InventoryCompleteness
  findings : Table String InventoryFinding
  sameIdCopies : List InventoryFinding
  keyed : ∀ id finding, findings.get? id = some finding → finding.id = id
  copied : ∀ copy ∈ sameIdCopies, (findings.get? copy.id).isSome = true
  -- no thread is held by two findings
  threads : (heldThreads findings sameIdCopies).Nodup

-- The findings of the threads read so far.
structure ReadThreads where
  findings : Table String InventoryFinding
  sameIdCopies : List InventoryFinding

def ReadThreads.add (read : ReadThreads) (finding : InventoryFinding) : ReadThreads :=
  match read.findings.get? finding.id with
  | none => { read with findings := read.findings.set finding.id finding }
  | some existing =>
    if isOlder finding existing then
      { findings := read.findings.set finding.id finding, sameIdCopies := read.sameIdCopies ++ [existing] }
    else { read with sameIdCopies := read.sameIdCopies ++ [finding] }

def addSummaryRow (context : InventoryContext) (url : String) (findings : Table String InventoryFinding)
    (row : FindingRowMarker) : Table String InventoryFinding :=
  if (findings.get? row.id).isSome then findings else findings.set row.id (summaryFinding context url row)

structure SummaryRows where
  url : String
  rows : List FindingRowMarker

-- The threads of a listing, each with a node id of its own.
structure ReviewThreadListing where
  threads : List ReviewThreadSnapshot
  distinct : (threads.map ReviewThreadSnapshot.threadNodeId).Nodup

def readThreads (context : InventoryContext) (threads : List ReviewThreadSnapshot) : ReadThreads :=
  (threads.filterMap (threadFinding context)).foldl ReadThreads.add { findings := .empty, sameIdCopies := [] }

def readFindings (context : InventoryContext) (threads : List ReviewThreadSnapshot) (summary : Option SummaryRows) :
    Table String InventoryFinding :=
  match summary with
  | none => (readThreads context threads).findings
  | some summary => summary.rows.foldl (addSummaryRow context summary.url) (readThreads context threads).findings

theorem Table.rows_set {K R : Type} [DecidableEq K] (table : Table K R) (key : K) (row : R) :
    (table.set key row).rows = Table.write key row table.rows := rfl

theorem write_values_perm {K R : Type} [DecidableEq K] {key : K} {old : R} (row : R) (rows : List (K × R))
    (stored : Table.lookup key rows = some old) :
    (row :: rows.map Prod.snd).Perm (old :: (Table.write key row rows).map Prod.snd) := by
  induction rows with
  | nil => cases stored
  | cons head rest ih =>
    obtain ⟨k, first⟩ := head
    by_cases same : k = key
    · simp only [Table.lookup, same, if_true, Option.some.injEq] at stored
      subst stored
      simp only [Table.write, same, if_true, List.map_cons]
      exact List.Perm.swap ..
    · simp only [Table.lookup, same, if_false] at stored
      simp only [Table.write, same, if_false, List.map_cons]
      exact ((List.Perm.swap ..).trans ((ih stored).cons first)).trans (List.Perm.swap ..)

theorem write_values_fresh {K R : Type} [DecidableEq K] {key : K} (row : R) (rows : List (K × R))
    (fresh : Table.lookup key rows = none) : (Table.write key row rows).map Prod.snd = rows.map Prod.snd ++ [row] := by
  induction rows with
  | nil => rfl
  | cons head rest ih =>
    obtain ⟨k, first⟩ := head
    by_cases same : k = key
    · simp [Table.lookup, same] at fresh
    · simp only [Table.lookup, same, if_false] at fresh
      simp only [Table.write, same, if_false, List.map_cons, ih fresh, List.cons_append]

-- Each finding read is kept, in the map or among the copies.
theorem ReadThreads.add_perm (read : ReadThreads) (finding : InventoryFinding) :
    ((read.add finding).findings.values ++ (read.add finding).sameIdCopies).Perm
      (finding :: (read.findings.values ++ read.sameIdCopies)) := by
  unfold ReadThreads.add
  split
  · next fresh =>
    have values := write_values_fresh finding read.findings.rows fresh
    rw [Table.values, Table.rows_set, values, List.append_assoc]
    exact List.perm_middle
  · next existing stored =>
    have values := write_values_perm finding read.findings.rows stored
    split
    · rw [Table.values, Table.rows_set, ← List.append_assoc]
      have moved := values.symm.append_right read.sameIdCopies
      rw [List.cons_append, List.cons_append] at moved
      exact List.perm_append_comm.trans moved
    · rw [← List.append_assoc]
      exact List.perm_append_comm

theorem threadFinding_threadId {context : InventoryContext} {thread : ReviewThreadSnapshot} {finding : InventoryFinding}
    (found : threadFinding context thread = some finding) : finding.threadId = some thread.threadNodeId := by
  unfold threadFinding at found
  split at found
  · simp only at found
    split at found
    · cases found
    · split at found
      · cases found
      · obtain rfl := Option.some.inj found
        rfl
  · cases found

structure ReadThreads.Kept (read : ReadThreads) : Prop where
  keyed : ∀ id finding, read.findings.get? id = some finding → finding.id = id
  copied : ∀ copy ∈ read.sameIdCopies, (read.findings.get? copy.id).isSome = true

theorem ReadThreads.Kept.add {read : ReadThreads} (kept : read.Kept) (finding : InventoryFinding) :
    (read.add finding).Kept := by
  have keyedSet : ∀ id other, (read.findings.set finding.id finding).get? id = some other → other.id = id := by
    intro id other stored
    rcases Table.get?_set_cases stored with ⟨same, rfl⟩ | ⟨_, stored⟩
    · exact same.symm
    · exact kept.keyed id other stored
  have stillCopied : ∀ copy ∈ read.sameIdCopies, ((read.findings.set finding.id finding).get? copy.id).isSome = true := by
    intro copy listed
    exact Table.isSome_set.mpr (.inr (kept.copied copy listed))
  unfold ReadThreads.add
  split
  · exact ⟨keyedSet, stillCopied⟩
  · next existing stored =>
    split
    · refine ⟨keyedSet, ?_⟩
      intro copy listed
      rcases List.mem_append.mp listed with before | last
      · exact stillCopied copy before
      · obtain rfl := List.mem_singleton.mp last
        rw [kept.keyed finding.id copy stored, Table.get?_set_self]
        rfl
    · refine ⟨kept.keyed, ?_⟩
      intro copy listed
      rcases List.mem_append.mp listed with before | last
      · exact kept.copied copy before
      · obtain rfl := List.mem_singleton.mp last
        rw [stored]
        rfl

theorem readThreads_perm (findings : List InventoryFinding) (read : ReadThreads) :
    ((findings.foldl ReadThreads.add read).findings.values ++ (findings.foldl ReadThreads.add read).sameIdCopies).Perm
      (findings.reverse ++ (read.findings.values ++ read.sameIdCopies)) := by
  induction findings generalizing read with
  | nil => exact List.Perm.refl _
  | cons finding findings ih =>
    rw [List.foldl_cons, List.reverse_cons, List.append_assoc]
    exact (ih (read.add finding)).trans ((read.add_perm finding).append_left _)

theorem readThreads_kept (findings : List InventoryFinding) (read : ReadThreads) (kept : read.Kept) :
    (findings.foldl ReadThreads.add read).Kept := by
  induction findings generalizing read with
  | nil => exact kept
  | cons finding findings ih => exact ih _ (kept.add finding)

theorem threadIds_of_threads (context : InventoryContext) (threads : List ReviewThreadSnapshot) :
    ((threads.filterMap (threadFinding context)).filterMap InventoryFinding.threadId).Sublist
      (threads.map ReviewThreadSnapshot.threadNodeId) := by
  induction threads with
  | nil => exact List.Sublist.refl _
  | cons thread threads ih =>
    cases found : threadFinding context thread with
    | none =>
      rw [List.filterMap_cons, found]
      exact ih.cons _
    | some finding =>
      rw [List.filterMap_cons, found]
      simp only [List.filterMap_cons, threadFinding_threadId found, List.map_cons]
      exact ih.cons_cons _

structure SummaryKept (findings findings' : Table String InventoryFinding) : Prop where
  stored : ∀ id finding, findings'.get? id = some finding → finding.id = id
  present : ∀ id, (findings.get? id).isSome = true → (findings'.get? id).isSome = true
  threads : findings'.values.filterMap InventoryFinding.threadId = findings.values.filterMap InventoryFinding.threadId

theorem SummaryKept.add {findings findings' : Table String InventoryFinding} (kept : SummaryKept findings findings')
    (context : InventoryContext) (url : String) (row : FindingRowMarker) :
    SummaryKept findings (addSummaryRow context url findings' row) := by
  unfold addSummaryRow
  split
  · exact kept
  · next absent =>
    refine ⟨?_, ?_, ?_⟩
    · intro id finding stored
      rcases Table.get?_set_cases stored with ⟨same, rfl⟩ | ⟨_, stored⟩
      · exact same.symm
      · exact kept.stored id finding stored
    · intro id present
      exact Table.isSome_set.mpr (.inr (kept.present id present))
    · have fresh : Table.lookup row.id findings'.rows = none := by simpa [Table.get?] using absent
      rw [← kept.threads, Table.values, Table.rows_set, write_values_fresh _ _ fresh, List.filterMap_append]
      exact List.append_nil _

theorem addSummaryRows_kept (context : InventoryContext) (url : String) (rows : List FindingRowMarker)
    (findings : Table String InventoryFinding) (keyed : ∀ id finding, findings.get? id = some finding → finding.id = id) :
    SummaryKept findings (rows.foldl (addSummaryRow context url) findings) := by
  induction rows using List.reverseRecOn with
  | nil => exact ⟨keyed, fun _ => id, rfl⟩
  | append_singleton rows row ih =>
    rw [List.foldl_append, List.foldl_cons, List.foldl_nil]
    exact ih.add context url row

theorem readThreads_keeps (context : InventoryContext) (threads : List ReviewThreadSnapshot) :
    (readThreads context threads).Kept := by
  refine readThreads_kept _ _ ⟨?_, ?_⟩
  · intro id finding stored
    cases stored
  · intro copy listed
    cases listed

theorem readFindings_kept (context : InventoryContext) (threads : List ReviewThreadSnapshot) (summary : Option SummaryRows) :
    SummaryKept (readThreads context threads).findings (readFindings context threads summary) := by
  have kept := readThreads_keeps context threads
  cases summary with
  | none => exact ⟨kept.keyed, fun _ => id, rfl⟩
  | some summary => exact addSummaryRows_kept context summary.url summary.rows _ kept.keyed

theorem readFindings_threads (context : InventoryContext) (listing : ReviewThreadListing) (summary : Option SummaryRows) :
    (heldThreads (readFindings context listing.threads summary) (readThreads context listing.threads).sameIdCopies).Nodup := by
  have perm := (readThreads_perm (listing.threads.filterMap (threadFinding context))
    { findings := .empty, sameIdCopies := [] }).filterMap InventoryFinding.threadId
  rw [heldThreads, List.filterMap_append, (readFindings_kept context listing.threads summary).threads,
    ← List.filterMap_append]
  refine perm.nodup_iff.mpr ?_
  have nothing : (Table.empty : Table String InventoryFinding).values ++ [] = [] := rfl
  rw [nothing, List.append_nil, List.filterMap_reverse, List.nodup_reverse]
  exact (threadIds_of_threads context listing.threads).nodup listing.distinct

def buildFindingInventory (context : InventoryContext) (completeness : InventoryCompleteness)
    (listing : ReviewThreadListing) (summary : Option SummaryRows) : FindingInventory where
  completeness := completeness
  findings := readFindings context listing.threads summary
  sameIdCopies := (readThreads context listing.threads).sameIdCopies
  keyed := (readFindings_kept context listing.threads summary).stored
  copied := fun copy listed => (readFindings_kept context listing.threads summary).present _
    ((readThreads_keeps context listing.threads).copied copy listed)
  threads := readFindings_threads context listing summary

end Assembly
end PrAgent
