import PrAgent.FindingView
import Mathlib.Data.List.Sort
set_option autoImplicit false

namespace PrAgent

section Planning

inductive DuplicateCleanupRefusal
  | inventoryIncomplete | tooFew | unknownFinding | notOpen | notThread | commentsIncomplete | aliased | differentFile
  | notOverlapping
  deriving DecidableEq, Repr

structure DuplicateCleanupEntry where
  finding : InventoryFinding
  resolve : Bool
  deriving DecidableEq

structure DuplicateCleanupPlan where
  canonical : InventoryFinding
  duplicates : List DuplicateCleanupEntry
  deriving DecidableEq

def compareAge (left right : InventoryFinding) : Int :=
  if left.createdAt ≠ right.createdAt then (if left.createdAt < right.createdAt then -1 else 1)
  else if left.id ≠ right.id then (if left.id < right.id then -1 else 1)
  else (left.rootCommentId.getD 0 : Int) - right.rootCommentId.getD 0

def compareCanonical (left right : InventoryFinding) : Int :=
  firstNonZero
    [(left.aliasOf.isSome.toNat : Int) - right.aliasOf.isSome.toNat,
      (right.hasHumanReplies.toNat : Int) - left.hasHumanReplies.toNat, compareAge left right]

-- `none` where the source throws, on an empty group.
def selectCanonical (group : List InventoryFinding) : Option InventoryFinding :=
  (group.insertionSort fun left right => compareCanonical left right ≤ 0).head?

def memberRefusal (groupIds : List String) (finding : InventoryFinding) : Option DuplicateCleanupRefusal :=
  if finding.state ≠ .open then some .notOpen
  else if finding.source ≠ .thread ∨ finding.threadId = none ∨ finding.rootCommentId = none then some .notThread
  else if !finding.commentsComplete then some .commentsIncomplete
  else if finding.aliasOf.any fun canonical => canonical ∉ groupIds then some .aliased
  else none

def overlapWindowLines : Nat := 10

structure FindingSpan where
  file : String
  startLine : Nat
  endLine : Nat
  deriving DecidableEq, Repr

def FindingSpan.rangesNear (observation : FindingSpan) (start last : Nat) : Bool :=
  observation.startLine ≤ last + overlapWindowLines && start ≤ observation.endLine + overlapWindowLines

def FindingSpan.overlaps (observation : FindingSpan) (finding : InventoryFinding) : Bool :=
  if finding.path ≠ observation.file ∧ finding.previousPath ≠ some observation.file then false
  else match finding.positionStale, finding.line with
    | false, some line =>
      let first := finding.startLine.getD line
      observation.rangesNear (min first line) (max first line)
    | _, _ => true

def placementRefusal (canonical duplicate : InventoryFinding) : Option DuplicateCleanupRefusal :=
  if duplicate.path ≠ canonical.path then some .differentFile
  else match canonical.positionStale, canonical.line with
    | false, some line =>
      let first := canonical.startLine.getD line
      let span : FindingSpan := { file := canonical.path, startLine := min first line, endLine := max first line }
      if span.overlaps duplicate then none else some .notOverlapping
    | _, _ => none

def cleanupEntries (canonical : InventoryFinding) (members : List InventoryFinding) : List DuplicateCleanupEntry :=
  ((members.filter fun member => member ≠ canonical).insertionSort fun left right => compareAge left right ≤ 0).map
    fun finding => { finding, resolve := !finding.hasHumanReplies }

def planMembers (groupIds : List String) (members : List InventoryFinding) :
    Except DuplicateCleanupRefusal DuplicateCleanupPlan :=
  match members.findSome? (memberRefusal groupIds) with
  | some refused => .error refused
  | none =>
    match selectCanonical members with
    | none => .error .unknownFinding
    | some canonical =>
      if canonical.aliasOf.isSome then .error .aliased
      else match (members.filter fun member => member ≠ canonical).findSome? (placementRefusal canonical) with
        | some refused => .error refused
        | none => .ok { canonical, duplicates := cleanupEntries canonical members }

def planDuplicateCleanup (ids : List String) (inventory : FindingInventory) :
    Except DuplicateCleanupRefusal DuplicateCleanupPlan :=
  if inventory.completeness ≠ .complete then .error .inventoryIncomplete
  else
    let groupIds := firsts id ids
    if groupIds.length < 2 then .error .tooFew
    else match groupIds.mapM inventory.findings.get? with
      | none => .error .unknownFinding
      | some members => planMembers groupIds members

-- The copies of a finding id that cleanup may close.
def isCleanableCopy (copy : InventoryFinding) : Bool :=
  copy.state = .open && copy.threadId.isSome && copy.rootCommentId.isSome && copy.commentsComplete

def sameIdPlan (inventory : FindingInventory) (copies : List InventoryFinding) (id : String) :
    Option DuplicateCleanupPlan :=
  match inventory.findings.get? id with
  | none => none
  | some canonical =>
    if canonical.source ≠ .thread then none
    else some { canonical, duplicates := cleanupEntries canonical (copies.filter fun copy => copy.id = id) }

def planSameIdCleanup (inventory : FindingInventory) : List DuplicateCleanupPlan :=
  if inventory.completeness ≠ .complete then []
  else
    let copies := inventory.sameIdCopies.filter isCleanableCopy
    (firsts id (copies.map InventoryFinding.id)).filterMap (sameIdPlan inventory copies)

end Planning

section Declaring

def planIds (plan : DuplicateCleanupPlan) : List String :=
  plan.canonical.id :: plan.duplicates.map fun entry => entry.finding.id

def isDeclared (ids : List String) (plan : DuplicateCleanupPlan) : Bool := (planIds plan).any fun id => id ∈ ids

-- `declare`: a declared group absorbs the accepted ones it shares an id with.
def declareDuplicates (inventory : FindingInventory) (accepted : List DuplicateCleanupPlan) (ids : List String) :
    List DuplicateCleanupPlan :=
  match planDuplicateCleanup (ids ++ (accepted.filter (isDeclared ids)).flatMap planIds) inventory with
  | .error _ => accepted
  | .ok plan => accepted.filter (fun existing => !isDeclared ids existing) ++ [plan]

-- What `clean` carries out after a run of declarations.
def cleanupPlans (inventory : FindingInventory) (declared : List (List String)) : List DuplicateCleanupPlan :=
  declared.foldl (declareDuplicates inventory) [] ++ planSameIdCleanup inventory

end Declaring

section Plans

variable {inventory : FindingInventory}

theorem eq_of_threadId {findings : List InventoryFinding} (distinct : (findings.filterMap InventoryFinding.threadId).Nodup)
    {left right : InventoryFinding} (listed : left ∈ findings) (listed' : right ∈ findings) {threadId : String}
    (thread : left.threadId = some threadId) (thread' : right.threadId = some threadId) : left = right := by
  induction findings with
  | nil => cases listed
  | cons first rest ih =>
    have apart : ∀ {finding}, first.threadId = some threadId → finding ∈ rest → finding.threadId = some threadId →
        False := by
      intro finding here later same
      rw [List.filterMap_cons, here] at distinct
      exact (List.nodup_cons.mp distinct).1 (List.mem_filterMap.mpr ⟨finding, later, same⟩)
    have distinctRest : (rest.filterMap InventoryFinding.threadId).Nodup := by
      rw [List.filterMap_cons] at distinct
      split at distinct
      · exact distinct
      · exact (List.nodup_cons.mp distinct).2
    rcases List.mem_cons.mp listed with rfl | later
    · rcases List.mem_cons.mp listed' with rfl | later'
      · rfl
      · exact absurd (apart thread later' thread') id
    · rcases List.mem_cons.mp listed' with rfl | later'
      · exact absurd (apart thread' later thread) id
      · exact ih distinctRest later later'

-- The findings that an inventory holds, copies included.
def FindingInventory.held (inventory : FindingInventory) : List InventoryFinding :=
  inventory.findings.values ++ inventory.sameIdCopies

-- No duplicate of a plan shares its thread with the canonical finding.
structure DuplicateCleanupPlan.Sound (inventory : FindingInventory) (plan : DuplicateCleanupPlan) : Prop where
  canonical : plan.canonical ∈ inventory.held
  duplicates : ∀ entry ∈ plan.duplicates, entry.finding ∈ inventory.held ∧ entry.finding ≠ plan.canonical

variable {members : List InventoryFinding}

theorem mem_cleanupEntries {canonical : InventoryFinding} {entry : DuplicateCleanupEntry}
    (listed : entry ∈ cleanupEntries canonical members) : entry.finding ∈ members ∧ entry.finding ≠ canonical := by
  obtain ⟨finding, sorted, rfl⟩ := List.mem_map.mp listed
  have kept := List.mem_filter.mp ((List.mem_insertionSort _).mp sorted)
  exact ⟨kept.1, of_decide_eq_true kept.2⟩

theorem selectCanonical_mem {group : List InventoryFinding} {canonical : InventoryFinding}
    (selected : selectCanonical group = some canonical) : canonical ∈ group :=
  (List.mem_insertionSort _).mp (List.mem_of_mem_head? selected)

theorem mem_held_of_get? {id : String} {finding : InventoryFinding} (stored : inventory.findings.get? id = some finding) :
    finding ∈ inventory.held := by
  refine List.mem_append_left _ (List.mem_map.mpr ⟨(id, finding), ?_, rfl⟩)
  exact (Table.get?_eq_some_iff _ _ _).mp stored

variable {plan : DuplicateCleanupPlan}

theorem planMembers_sound {groupIds : List String}
    (held : ∀ member ∈ members, member ∈ inventory.held) (planned : planMembers groupIds members = .ok plan) :
    plan.Sound inventory := by
  unfold planMembers at planned
  split at planned
  · cases planned
  · split at planned
    · cases planned
    · next canonical selected =>
      split at planned
      · cases planned
      · split at planned
        · cases planned
        · obtain rfl := Except.ok.inj planned
          refine ⟨held canonical (selectCanonical_mem selected), ?_⟩
          intro entry listed
          have found := mem_cleanupEntries listed
          exact ⟨held entry.finding found.1, found.2⟩

theorem mapM_held {ids : List String}
    (found : ids.mapM inventory.findings.get? = some members) : ∀ member ∈ members, member ∈ inventory.held := by
  induction ids generalizing members with
  | nil =>
    obtain rfl : [] = members := by simpa using found
    intro member listed
    cases listed
  | cons id ids ih =>
    rw [List.mapM_cons] at found
    simp only [Option.bind_eq_bind, Option.bind_eq_some_iff, Option.pure_def, Option.some.injEq] at found
    obtain ⟨first, stored, rest, later, rfl⟩ := found
    intro member listed
    rcases List.mem_cons.mp listed with rfl | after
    · exact mem_held_of_get? stored
    · exact ih later member after

theorem planDuplicateCleanup_sound {ids : List String}
    (planned : planDuplicateCleanup ids inventory = .ok plan) : plan.Sound inventory := by
  unfold planDuplicateCleanup at planned
  split at planned
  · cases planned
  · simp only at planned
    split at planned
    · cases planned
    · split at planned
      · cases planned
      · next members found => exact planMembers_sound (mapM_held found) planned

theorem planSameIdCleanup_sound (planned : plan ∈ planSameIdCleanup inventory) :
    plan.Sound inventory := by
  unfold planSameIdCleanup at planned
  split at planned
  · cases planned
  · obtain ⟨id, _, copied⟩ := List.mem_filterMap.mp planned
    unfold sameIdPlan at copied
    split at copied
    · cases copied
    · next canonical stored =>
      split at copied
      · cases copied
      · obtain rfl := Option.some.inj copied
        refine ⟨mem_held_of_get? stored, ?_⟩
        intro entry listed
        have found := mem_cleanupEntries listed
        have copy := (List.mem_filter.mp (List.mem_filter.mp found.1).1).1
        exact ⟨List.mem_append_right _ copy, found.2⟩

theorem cleanupPlans_sound {declared : List (List String)} (planned : plan ∈ cleanupPlans inventory declared) : plan.Sound inventory := by
  rcases List.mem_append.mp planned with accepted | copied
  · induction declared using List.reverseRecOn with
    | nil => cases accepted
    | append_singleton declared ids ih =>
      have before {existing : DuplicateCleanupPlan}
          (listed : existing ∈ declared.foldl (declareDuplicates inventory) []) (same : existing = plan) :
          plan.Sound inventory := by
        subst same
        exact ih (List.mem_append_left _ listed) listed
      rw [List.foldl_append, List.foldl_cons, List.foldl_nil, declareDuplicates] at accepted
      split at accepted
      · exact before accepted rfl
      · next new made =>
        rcases List.mem_append.mp accepted with kept | last
        · exact before (List.mem_filter.mp kept).1 rfl
        · obtain rfl := List.mem_singleton.mp last
          exact planDuplicateCleanup_sound made
  · exact planSameIdCleanup_sound copied

theorem DuplicateCleanupPlan.Sound.apart (sound : plan.Sound inventory)
    {entry : DuplicateCleanupEntry} (listed : entry ∈ plan.duplicates) {threadId : String}
    (thread : entry.finding.threadId = some threadId) : plan.canonical.threadId ≠ some threadId := by
  intro same
  obtain ⟨held, other⟩ := sound.duplicates entry listed
  exact other (eq_of_threadId inventory.threads held sound.canonical thread same)

end Plans
end PrAgent
