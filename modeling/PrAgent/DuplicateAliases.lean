import PrAgent.DuplicateCleanupRuns
import Mathlib.Data.List.Forall2
set_option autoImplicit false

namespace PrAgent

section Folding

variable {related : InventoryFinding → InventoryFinding → Prop}

-- What `ReadThreads.add` compares of two findings.
structure SameSlot (finding finding' : InventoryFinding) : Prop where
  id : finding'.id = finding.id
  createdAt : finding'.createdAt = finding.createdAt
  rootCommentId : finding'.rootCommentId = finding.rootCommentId

def RelatedTables (related : InventoryFinding → InventoryFinding → Prop) (findings findings' : Table String InventoryFinding) :
    Prop :=
  ∀ id, Option.Rel related (findings.get? id) (findings'.get? id)

theorem related_set {findings findings' : Table String InventoryFinding} (tables : RelatedTables related findings findings')
    {key : String} {finding finding' : InventoryFinding} (pair : related finding finding') :
    RelatedTables related (findings.set key finding) (findings'.set key finding') := by
  intro id
  rw [Table.get?_set, Table.get?_set]
  split
  · exact .some pair
  · exact tables id

theorem related_add (slots : ∀ {finding finding'}, related finding finding' → SameSlot finding finding')
    {read read' : ReadThreads} (tables : RelatedTables related read.findings read'.findings)
    {finding finding' : InventoryFinding} (pair : related finding finding') :
    RelatedTables related (read.add finding).findings (read'.add finding').findings := by
  have slot := slots pair
  have here := tables finding.id
  unfold ReadThreads.add
  rw [slot.id]
  cases stored : read.findings.get? finding.id with
  | none =>
    rw [stored] at here
    cases stored' : read'.findings.get? finding.id with
    | none => exact related_set tables pair
    | some existing' =>
      rw [stored'] at here
      cases here
  | some existing =>
    rw [stored] at here
    cases stored' : read'.findings.get? finding.id with
    | none =>
      rw [stored'] at here
      cases here
    | some existing' =>
      rw [stored'] at here
      cases here with
      | some both =>
        have old := slots both
        have older : isOlder finding' existing' = isOlder finding existing := by
          unfold isOlder
          rw [slot.createdAt, slot.rootCommentId, old.createdAt, old.rootCommentId]
        simp only [older]
        split
        · exact related_set tables pair
        · exact tables

theorem related_readThreads (slots : ∀ {finding finding'}, related finding finding' → SameSlot finding finding')
    {findings findings' : List InventoryFinding} (pairs : List.Forall₂ related findings findings') {read read' : ReadThreads}
    (tables : RelatedTables related read.findings read'.findings) :
    RelatedTables related (findings.foldl ReadThreads.add read).findings (findings'.foldl ReadThreads.add read').findings := by
  induction pairs generalizing read read' with
  | nil => exact tables
  | cons pair _ ih => exact ih (related_add slots tables pair)

theorem related_filterMap {find : ReviewThreadSnapshot → Option InventoryFinding} {edit : ReviewThreadSnapshot → ReviewThreadSnapshot}
    (threads : List ReviewThreadSnapshot) (pairs : ∀ thread, Option.Rel related (find thread) (find (edit thread))) :
    List.Forall₂ related (threads.filterMap find) ((threads.map edit).filterMap find) := by
  induction threads with
  | nil => exact .nil
  | cons thread rest ih =>
    have pair := pairs thread
    rw [List.map_cons]
    cases found : find thread with
    | none =>
      rw [found] at pair
      cases found' : find (edit thread) with
      | none =>
        rw [List.filterMap_cons_none found, List.filterMap_cons_none found']
        exact ih
      | some finding' =>
        rw [found'] at pair
        cases pair
    | some finding =>
      rw [found] at pair
      cases found' : find (edit thread) with
      | none =>
        rw [found'] at pair
        cases pair
      | some finding' =>
        rw [found'] at pair
        rw [List.filterMap_cons_some found, List.filterMap_cons_some found']
        cases pair with
        | some both => exact .cons both ih

end Folding

section Aliases

variable (context : InventoryContext)

-- The alias that `canonicalOf` follows, in an inventory read now.
def aliasNow (listing : ReviewThreadListing) (id : String) : Option String :=
  ((readThreads context listing.threads).findings.get? id).bind InventoryFinding.aliasOf

-- The receipt of `duplicateId` may give its finding an alias that it had not.
structure SameAlias (duplicateId canonicalId : String) (finding finding' : InventoryFinding) : Prop where
  slot : SameSlot finding finding'
  aliased : finding'.aliasOf = finding.aliasOf ∨
    (finding.id = duplicateId ∧ finding.aliasOf = none ∧ finding'.aliasOf = some canonicalId ∧ canonicalId ≠ duplicateId)

variable {context} {duplicateId canonicalId : String}

theorem SameAlias.refl (finding : InventoryFinding) : SameAlias duplicateId canonicalId finding finding :=
  ⟨⟨rfl, rfl, rfl⟩, .inl rfl⟩

theorem aliasIn_reply (comments : List ReviewThreadComment) (id : String) :
    aliasIn (comments ++ [{ authorLogin := some context.botLogin, receipts := [.duplicate duplicateId canonicalId] }])
        context.botLogin id = aliasIn comments context.botLogin id ∨
      (id = duplicateId ∧ aliasIn comments context.botLogin id = none ∧
        aliasIn (comments ++ [{ authorLogin := some context.botLogin, receipts := [.duplicate duplicateId canonicalId] }])
          context.botLogin id = some canonicalId ∧ canonicalId ≠ duplicateId) := by
  have bot : isBotAuthor (some context.botLogin) context.botLogin = true := by simp [isBotAuthor]
  unfold aliasIn parseOwnedReceipts
  simp only [List.flatMap_append, List.filter_append, List.findSome?_append, List.flatMap_cons, List.flatMap_nil,
    List.append_nil, bot, if_true]
  cases ((comments.flatMap fun comment => if isBotAuthor comment.authorLogin context.botLogin then comment.receipts else
      []).filter fun receipt => receipt.id = id).findSome? duplicateReceipt? with
  | some canonical => exact .inl rfl
  | none =>
    by_cases named : duplicateId = id
    · subst named
      by_cases self : canonicalId = duplicateId
      · left
        simp [FindingReceipt.id, duplicateReceipt?, self]
      · right
        simp [FindingReceipt.id, duplicateReceipt?, self]
    · left
      simp [FindingReceipt.id, named]

theorem threadFinding_reply (shown : Bool) (thread : ReviewThreadSnapshot) :
    Option.Rel (SameAlias duplicateId canonicalId) (threadFinding context thread)
      (threadFinding context (withReply shown
        { authorLogin := some context.botLogin, receipts := [.duplicate duplicateId canonicalId] } thread)) := by
  have bot : isBotAuthor (some context.botLogin) context.botLogin = true := by simp [isBotAuthor]
  unfold withReply
  cases shown with
  | false =>
    simp only [Bool.false_eq_true, if_false]
    unfold threadFinding
    cases thread.comments with
    | nil => exact .none
    | cons root rest =>
      cases thread.path with
      | none => exact .none
      | some rawPath =>
        simp only
        split
        · exact .none
        · split
          · exact .none
          · exact .some ⟨⟨rfl, rfl, rfl⟩, .inl rfl⟩
  | true =>
    simp only [if_true]
    unfold threadFinding
    cases comments : thread.comments with
    | nil =>
      cases thread.path with
      | none => exact .none
      | some rawPath =>
        simp [bot]
    | cons root rest =>
      cases thread.path with
      | none => exact .none
      | some rawPath =>
        simp only [List.cons_append]
        split
        · exact .none
        · split
          · exact .none
          · refine .some ⟨⟨rfl, rfl, rfl⟩, ?_⟩
            exact aliasIn_reply (root :: rest) _

theorem threadFinding_resolution (thread : ReviewThreadSnapshot) :
    Option.Rel (SameAlias duplicateId canonicalId) (threadFinding context thread)
      (threadFinding context (withResolution thread)) := by
  unfold withResolution threadFinding
  cases thread.comments with
  | nil => exact .none
  | cons root rest =>
    cases thread.path with
    | none => exact .none
    | some rawPath =>
      simp only
      split
      · exact .none
      · split
        · exact .none
        · exact .some ⟨⟨rfl, rfl, rfl⟩, .inl rfl⟩

variable {edit : ReviewThreadSnapshot → ReviewThreadSnapshot}

-- What an edit does to one finding it does to the aliases.
theorem aliasNow_edit {threadId : String} (listing : ReviewThreadListing)
    (edits : ∀ thread, Option.Rel (SameAlias duplicateId canonicalId) (threadFinding context thread)
      (threadFinding context (editThread threadId edit thread))) (id : String) :
    aliasNow context (listing.edit threadId edit) id = aliasNow context listing id ∨
      (id = duplicateId ∧ aliasNow context listing id = none ∧
        aliasNow context (listing.edit threadId edit) id = some canonicalId ∧ canonicalId ≠ duplicateId) := by
  have pairs := related_filterMap listing.threads edits
  have empty : RelatedTables (SameAlias duplicateId canonicalId) (ReadThreads.mk .empty []).findings
      (ReadThreads.mk .empty []).findings := fun _ => .none
  have tables : Option.Rel (SameAlias duplicateId canonicalId)
      ((readThreads context listing.threads).findings.get? id)
      ((readThreads context (listing.edit threadId edit).threads).findings.get? id) :=
    related_readThreads (fun pair => pair.slot) pairs empty id
  unfold aliasNow
  cases stored : (readThreads context listing.threads).findings.get? id with
  | none =>
    rw [stored] at tables
    cases stored' : (readThreads context (listing.edit threadId edit).threads).findings.get? id with
    | none => exact .inl rfl
    | some finding' =>
      rw [stored'] at tables
      cases tables
  | some finding =>
    rw [stored] at tables
    have named := (readThreads_keeps context listing.threads).keyed id finding stored
    cases stored' : (readThreads context (listing.edit threadId edit).threads).findings.get? id with
    | none =>
      rw [stored'] at tables
      cases tables
    | some finding' =>
      rw [stored'] at tables
      cases tables with
      | some same =>
        rcases same.aliased with kept | ⟨duplicate, before, after, apart⟩
        · exact .inl kept
        · exact .inr ⟨named.symm.trans duplicate, before, after, apart⟩

theorem editThread_related {threadId : String} (keeps : ∀ thread, (edit thread).threadNodeId = thread.threadNodeId)
    (edits : ∀ thread, Option.Rel (SameAlias duplicateId canonicalId) (threadFinding context thread)
      (threadFinding context (edit thread))) (thread : ReviewThreadSnapshot) :
    Option.Rel (SameAlias duplicateId canonicalId) (threadFinding context thread)
      (threadFinding context (editThread threadId edit thread)) := by
  unfold editThread
  split
  · have same : { edit thread with threadNodeId := thread.threadNodeId } = edit thread := by rw [← keeps thread]
    rw [same]
    exact edits thread
  · cases threadFinding context thread with
    | none => exact .none
    | some finding => exact .some (SameAlias.refl finding)

def AliasesAcyclic (context : InventoryContext) (listing : ReviewThreadListing) : Prop :=
  Acyclic (PointsTo (aliasNow context listing))

-- A receipt closes no cycle unless the canonical finding is itself marked, step by step, as a copy of the duplicate.
theorem acyclic_edit {threadId : String} {listing : ReviewThreadListing}
    (edits : ∀ thread, Option.Rel (SameAlias duplicateId canonicalId) (threadFinding context thread)
      (threadFinding context (editThread threadId edit thread)))
    (apart : aliasNow context listing duplicateId = none → canonicalId ≠ duplicateId →
      ¬Leads (aliasNow context listing) canonicalId duplicateId)
    (acyclic : AliasesAcyclic context listing) : AliasesAcyclic context (listing.edit threadId edit) := by
  have changed := aliasNow_edit listing edits
  by_cases added : aliasNow context (listing.edit threadId edit) duplicateId = aliasNow context listing duplicateId
  · refine acyclic_mono acyclic ?_
    intro a b points
    rcases changed a with same | ⟨rfl, before, after, _⟩
    · exact same.symm.trans points
    · rw [before, after] at added
      cases added
  · rcases changed duplicateId with same | ⟨_, before, _, other⟩
    · exact absurd same added
    · refine acyclic_of_new_edge acyclic ?_ (apart before other)
      intro a b points
      rcases changed a with same | ⟨rfl, _, after, _⟩
      · exact .inl (same.symm.trans points)
      · exact .inr ⟨rfl, Option.some.inj (points.symm.trans after)⟩

end Aliases
end PrAgent
