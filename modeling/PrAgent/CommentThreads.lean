import PrAgent.PointerChains
import PrAgent.Table
import Mathlib.Data.List.Chain
import Mathlib.Data.List.Sort
set_option autoImplicit false

namespace PrAgent

structure ReviewCommentGraphNode where
  id : Nat
  inReplyToId : Option Nat
  deriving DecidableEq

section Resolve

abbrev RootById := Nat → Option Nat

-- A `Map` keeps the last comment of an id.
def commentById (nodes : List ReviewCommentGraphNode) (id : Nat) : Option ReviewCommentGraphNode :=
  nodes.reverse.find? fun node => node.id = id

-- How the walk of a chain ends.
structure RootWalk where
  rootId : Nat
  path : List Nat
  cached : Bool
  deriving DecidableEq

-- The loop of `resolveCommentRootId`; `seen` has the ids of `path`.
def walkToRoot (nodes : List ReviewCommentGraphNode) (rootById : RootById) :
    Nat → List Nat → ReviewCommentGraphNode → Option RootWalk
  | 0, _, _ => none
  | fuel + 1, path, current =>
    match current.inReplyToId with
    | none => some ⟨current.id, path, false⟩
    | some parentId =>
      match rootById current.id with
      | some root => some ⟨root, path, true⟩
      | none =>
        if current.id ∈ path then some ⟨current.id, path, false⟩
        else
          match commentById nodes parentId with
          | none => some ⟨current.id, path ++ [current.id], false⟩
          | some parent => walkToRoot nodes rootById fuel (path ++ [current.id]) parent

def RootWalk.remember (walk : RootWalk) (rootById : RootById) : RootById := fun id =>
  if id ∈ walk.path then some walk.rootId
  else if !walk.cached && id = walk.rootId then some walk.rootId
  else rootById id

-- The root and the memo after it; `none` would be a walk that does not end.
def resolveCommentRootId (nodes : List ReviewCommentGraphNode) (rootById : RootById) (comment : ReviewCommentGraphNode) :
    Option (Nat × RootById) :=
  match rootById comment.id with
  | some root => some (root, rootById)
  | none =>
    (walkToRoot nodes rootById (nodes.length + 1) [] comment).map fun walk => (walk.rootId, walk.remember rootById)

-- Without a memo.
def resolveReviewThreadRootId (nodes : List ReviewCommentGraphNode) (commentId : Nat) : Option Nat :=
  (commentById nodes commentId).bind fun start => (resolveCommentRootId nodes (fun _ => none) start).map Prod.fst

end Resolve

section Group

variable {T : Type} (node : T → ReviewCommentGraphNode)

structure CommentThread (T : Type) where
  rootId : Nat
  root : T
  comments : List T

structure Grouping (T : Type) where
  rootById : RootById := fun _ => none
  threads : Table Nat (List T) := .empty

def groupStep (nodes : List ReviewCommentGraphNode) (state : Grouping T) (comment : T) : Option (Grouping T) :=
  (resolveCommentRootId nodes state.rootById (node comment)).map fun result =>
    { rootById := result.2
      threads := state.threads.set result.1 ((state.threads.get? result.1).getD [] ++ [comment]) }

-- The root comment of a thread.
def threadRoot (comments : List T) : Option T :=
  (comments.find? fun comment => (node comment).inReplyToId = none).or
    (comments.mergeSort fun a b => (node a).id ≤ (node b).id).head?

def groupCommentsByThreadRoot (comments : List T) : Option (List (CommentThread T)) :=
  (comments.foldlM (groupStep node (comments.map node)) {}).map fun state =>
    state.threads.rows.filterMap fun entry => (threadRoot node entry.2).map fun root => ⟨entry.1, root, entry.2⟩

end Group
section Chains

-- The listed comment that a listed comment replies to.
def replyTo (nodes : List ReviewCommentGraphNode) (id : Nat) : Option Nat :=
  ((commentById nodes id).bind fun node => node.inReplyToId).filter fun parent => (commentById nodes parent).isSome

variable {nodes : List ReviewCommentGraphNode} {memo : RootById}

theorem commentById_eq_some_iff (distinct : (nodes.map ReviewCommentGraphNode.id).Nodup) {id : Nat} {found : ReviewCommentGraphNode} :
    commentById nodes id = some found ↔ found ∈ nodes ∧ found.id = id := by
  constructor
  · intro here
    exact ⟨List.mem_reverse.mp (List.mem_of_find?_eq_some here), by simpa using List.find?_some here⟩
  · intro ⟨listed, same⟩
    cases here : commentById nodes id with
    | none =>
        have absent := List.find?_eq_none.mp here found (List.mem_reverse.mpr listed)
        exact absurd same (by simpa using absent)
    | some other =>
        have inside : other ∈ nodes := List.mem_reverse.mp (List.mem_of_find?_eq_some here)
        have keyed : other.id = id := by simpa using List.find?_some here
        rw [List.inj_on_of_nodup_map distinct inside listed (keyed.trans same.symm)]

theorem replyTo_eq_some_iff (distinct : (nodes.map ReviewCommentGraphNode.id).Nodup) {id parent : Nat} :
    replyTo nodes id = some parent ↔
      ∃ node ∈ nodes, node.id = id ∧ node.inReplyToId = some parent ∧ ∃ other ∈ nodes, other.id = parent := by
  constructor
  · intro here
    obtain ⟨linked, known⟩ := Option.filter_eq_some_iff.mp here
    obtain ⟨node, found, reply⟩ := Option.bind_eq_some_iff.mp linked
    obtain ⟨listed, same⟩ := (commentById_eq_some_iff distinct).mp found
    obtain ⟨other, found'⟩ := Option.isSome_iff_exists.mp known
    exact ⟨node, listed, same, reply, other, (commentById_eq_some_iff distinct).mp found'⟩
  · intro ⟨node, listed, same, reply, other, inside, keyed⟩
    have found := (commentById_eq_some_iff distinct).mpr ⟨listed, same⟩
    have found' := (commentById_eq_some_iff distinct).mpr ⟨inside, keyed⟩
    rw [replyTo, found, Option.bind_some, reply]
    simp [found']

theorem replyTo_perm {others : List ReviewCommentGraphNode} (distinct : (nodes.map ReviewCommentGraphNode.id).Nodup)
    (perm : nodes.Perm others) : replyTo others = replyTo nodes := by
  have distinct' : (others.map ReviewCommentGraphNode.id).Nodup := (perm.map _).nodup_iff.mp distinct
  funext id
  apply Option.ext
  intro parent
  rw [replyTo_eq_some_iff distinct, replyTo_eq_some_iff distinct']
  simp only [perm.mem_iff]

-- Two chains that have a comment in common.
def ChainsMeet (next : Nat → Option Nat) (a b : Nat) : Prop := ∃ meeting, Leads next a meeting ∧ Leads next b meeting

def ChainCycles (next : Nat → Option Nat) (a : Nat) : Prop :=
  ∃ again, Leads next a again ∧ Relation.TransGen (PointsTo next) again again

variable (nodes memo) in
-- The memo of ids that lead to their root, with all that they lead to.
structure MemoOk : Prop where
  leads : ∀ id root, memo id = some root → Leads (replyTo nodes) id root
  closed : ∀ id root parent, memo id = some root → replyTo nodes id = some parent → memo parent = some root

theorem memoOk_empty (nodes : List ReviewCommentGraphNode) : MemoOk nodes fun _ => none := by
  constructor
  · intro id root known
    cases known
  · intro id root parent known
    cases known

theorem MemoOk.along (ok : MemoOk nodes memo) {a b root : Nat} (known : memo a = some root) (leads : Leads (replyTo nodes) a b) :
    memo b = some root := by
  induction leads with
  | refl => exact known
  | tail _ points ih => exact ok.closed _ root _ ih points

-- Known ids have one root just when their chains meet.
theorem MemoOk.root_iff (ok : MemoOk nodes memo) {a b r s : Nat} (left : memo a = some r) (right : memo b = some s) :
    r = s ↔ ChainsMeet (replyTo nodes) a b := by
  constructor
  · intro same
    exact ⟨r, ok.leads a r left, same ▸ ok.leads b s right⟩
  · intro ⟨meeting, first, second⟩
    have here := ok.along left first
    rw [ok.along right second] at here
    exact (Option.some.inj here).symm

theorem MemoOk.root_of_end (ok : MemoOk nodes memo) {a r last : Nat} (known : memo a = some r) (leads : Leads (replyTo nodes) a last)
    (ends : replyTo nodes last = none) : r = last := leads_of_end (ok.leads last r (ok.along known leads)) ends

end Chains

section Walk

variable {nodes : List ReviewCommentGraphNode} {memo : RootById} {walk : RootWalk} {ids : List Nat} {last : Nat}

theorem chain_next {next : Nat → Option Nat} {ids : List Nat} {last id : Nat} (chain : (ids ++ [last]).IsChain (PointsTo next))
    (listed : id ∈ ids) : ∃ after ∈ ids ++ [last], next id = some after := by
  obtain ⟨before, rest, split⟩ := List.append_of_mem listed
  cases rest with
  | nil =>
      have whole : ids ++ [last] = before ++ id :: last :: [] := by simp [split]
      exact ⟨last, by simp, List.isChain_iff_forall_rel_of_append_cons_cons.mp chain whole⟩
  | cons after rest =>
      have whole : ids ++ [last] = before ++ id :: after :: (rest ++ [last]) := by simp [split]
      exact ⟨after, by simp [split], List.isChain_iff_forall_rel_of_append_cons_cons.mp chain whole⟩

theorem chain_leads {next : Nat → Option Nat} {ids : List Nat} {last id : Nat} (chain : (ids ++ [last]).IsChain (PointsTo next))
    (listed : id ∈ ids ++ [last]) : Leads next id last := by
  induction ids generalizing id with
  | nil =>
      obtain rfl := List.mem_singleton.mp listed
      exact .refl
  | cons first ids ih =>
      have rest : (ids ++ [last]).IsChain (PointsTo next) := List.IsChain.of_cons chain
      cases List.mem_cons.mp listed with
      | inr later => exact ih rest later
      | inl same =>
          subst same
          cases ids with
          | nil => exact .single (List.isChain_cons_cons.mp chain).1
          | cons after ids => exact .head (List.isChain_cons_cons.mp chain).1 (ih rest List.mem_cons_self)

variable (nodes memo) in
-- Where a walk that starts with the ids of `ids` stops, and what the memo is after it.
structure Walked (walk : RootWalk) (ids : List Nat) (last : Nat) : Prop where
  remembers : ∀ id, walk.remember memo id = if id ∈ ids ++ [last] then some walk.rootId else memo id
  chain : (ids ++ [last]).IsChain (PointsTo (replyTo nodes))
  fresh : ∀ id ∈ ids, memo id = none
  ends : memo last = some walk.rootId ∨
    walk.rootId = last ∧ (replyTo nodes last = none ∨ memo last = none ∧ last ∈ ids)

theorem Walked.root_last (walked : Walked nodes memo walk ids last) (ok : MemoOk nodes memo) {root : Nat}
    (known : memo last = some root) : root = walk.rootId := by
  rcases walked.ends with cached | ⟨same, ends | ⟨unknown, _⟩⟩
  · rw [known] at cached
    exact Option.some.inj cached
  · rw [same]
    exact leads_of_end (ok.leads last root known) ends
  · rw [known] at unknown
    cases unknown

-- Earlier entries stay.
theorem Walked.extends (walked : Walked nodes memo walk ids last) (ok : MemoOk nodes memo) {id root : Nat}
    (known : memo id = some root) : walk.remember memo id = some root := by
  rw [walked.remembers]
  by_cases inside : id ∈ ids ++ [last]
  · rw [if_pos inside]
    cases List.mem_append.mp inside with
    | inl before =>
        rw [walked.fresh id before] at known
        cases known
    | inr here =>
        obtain rfl := List.mem_singleton.mp here
        rw [walked.root_last ok known]
  · rw [if_neg inside]
    exact known

theorem Walked.ok (walked : Walked nodes memo walk ids last) (ok : MemoOk nodes memo) : MemoOk nodes (walk.remember memo) := by
  have toRoot : Leads (replyTo nodes) last walk.rootId := by
    cases walked.ends with
    | inl cached => exact ok.leads last _ cached
    | inr here =>
        rw [here.1]
        exact .refl
  constructor
  · intro id root known
    rw [walked.remembers] at known
    by_cases inside : id ∈ ids ++ [last]
    · rw [if_pos inside] at known
      cases known
      exact (chain_leads walked.chain inside).trans toRoot
    · rw [if_neg inside] at known
      exact ok.leads id root known
  · intro id root parent known points
    by_cases inside : id ∈ ids ++ [last]
    · have same : walk.remember memo id = some walk.rootId := by
        rw [walked.remembers]
        exact if_pos inside
      have rooted : root = walk.rootId := by
        rw [known] at same
        exact Option.some.inj same
      have next (before : id ∈ ids) : walk.remember memo parent = some root := by
        obtain ⟨after, listed, points'⟩ := chain_next walked.chain before
        rw [points] at points'
        rw [Option.some.inj points', walked.remembers, rooted]
        exact if_pos listed
      cases List.mem_append.mp inside with
      | inl before => exact next before
      | inr here =>
          obtain rfl := List.mem_singleton.mp here
          rcases walked.ends with cached | ⟨_, ends | ⟨_, before⟩⟩
          · rw [rooted]
            exact walked.extends ok (ok.closed _ _ _ cached points)
          · rw [ends] at points
            cases points
          · exact next before
    · rw [walked.remembers] at known
      rw [if_neg inside] at known
      exact walked.extends ok (ok.closed id root parent known points)

variable (nodes memo) in
-- The ids before the comment that a walk looks at.
structure Walking (path : List Nat) (current : ReviewCommentGraphNode) : Prop where
  listed : current ∈ nodes
  known : ∀ id ∈ path, ∃ node ∈ nodes, node.id = id
  distinct : path.Nodup
  chain : (path ++ [current.id]).IsChain (PointsTo (replyTo nodes))
  fresh : ∀ id ∈ path, memo id = none

variable (memo) in
theorem walking_start {comment : ReviewCommentGraphNode} (listed : comment ∈ nodes) : Walking nodes memo [] comment := by
  constructor
  · exact listed
  · intro id inside
    cases inside
  · exact List.nodup_nil
  · exact List.isChain_singleton _
  · intro id inside
    cases inside

theorem replyTo_of_node (distinct : (nodes.map ReviewCommentGraphNode.id).Nodup) {current : ReviewCommentGraphNode}
    (listed : current ∈ nodes) {parentId : Nat} (reply : current.inReplyToId = some parentId) :
    replyTo nodes current.id = (commentById nodes parentId).map ReviewCommentGraphNode.id := by
  have found := (commentById_eq_some_iff distinct).mpr ⟨listed, rfl⟩
  rw [replyTo, found, Option.bind_some, reply]
  cases parent : commentById nodes parentId with
  | none => simp [parent]
  | some other =>
      have keyed := ((commentById_eq_some_iff distinct).mp parent).2
      simp [parent, keyed]

theorem remember_ended (memo : RootById) (path : List Nat) (last id : Nat) :
    RootWalk.remember ⟨last, path, false⟩ memo id = if id ∈ path ++ [last] then some last else memo id := by
  by_cases before : id ∈ path
  · simp [RootWalk.remember, before]
  · by_cases here : id = last <;> simp [RootWalk.remember, before, here]

theorem walk_ends (distinct : (nodes.map ReviewCommentGraphNode.id).Nodup) (fuel : Nat) (path : List Nat)
    (current : ReviewCommentGraphNode) (walking : Walking nodes memo path current) (enough : nodes.length < fuel + path.length) :
    ∃ walk ids last, walkToRoot nodes memo fuel path current = some walk ∧ Walked nodes memo walk ids last ∧
      path ++ [current.id] <+: ids ++ [last] := by
  induction fuel generalizing path current with
  | zero =>
      have inside : path ⊆ nodes.map ReviewCommentGraphNode.id := by
        intro id listed
        obtain ⟨node, here, same⟩ := walking.known id listed
        exact List.mem_map.mpr ⟨node, here, same⟩
      have short := (List.subperm_of_subset walking.distinct inside).length_le
      rw [List.length_map] at short
      omega
  | succ fuel ih =>
      rw [walkToRoot]
      cases reply : current.inReplyToId with
      | none =>
          have ends : replyTo nodes current.id = none := by
            have found := (commentById_eq_some_iff distinct).mpr ⟨walking.listed, rfl⟩
            rw [replyTo, found, Option.bind_some, reply]
            rfl
          refine ⟨⟨current.id, path, false⟩, path, current.id, rfl, ?_, List.prefix_refl _⟩
          exact ⟨remember_ended memo path current.id, walking.chain, walking.fresh, .inr ⟨rfl, .inl ends⟩⟩
      | some parentId =>
          simp only
          cases cached : memo current.id with
          | some root =>
              refine ⟨⟨root, path, true⟩, path, current.id, rfl, ?_, List.prefix_refl _⟩
              refine ⟨?_, walking.chain, walking.fresh, .inl cached⟩
              intro id
              by_cases before : id ∈ path
              · simp [RootWalk.remember, before]
              · by_cases here : id = current.id
                · subst here
                  simp [RootWalk.remember, before, cached]
                · simp [RootWalk.remember, before, here]
          | none =>
              simp only
              by_cases again : current.id ∈ path
              · rw [if_pos again]
                refine ⟨⟨current.id, path, false⟩, path, current.id, rfl, ?_, List.prefix_refl _⟩
                exact ⟨remember_ended memo path current.id, walking.chain, walking.fresh, .inr ⟨rfl, .inr ⟨cached, again⟩⟩⟩
              · rw [if_neg again]
                have points := replyTo_of_node distinct walking.listed reply
                cases found : commentById nodes parentId with
                | none =>
                    rw [found] at points
                    refine ⟨⟨current.id, path ++ [current.id], false⟩, path, current.id, rfl, ?_, List.prefix_refl _⟩
                    refine ⟨?_, walking.chain, walking.fresh, .inr ⟨rfl, .inl points⟩⟩
                    intro id
                    simp [remember_ended]
                | some parent =>
                    rw [found] at points
                    have next : Walking nodes memo (path ++ [current.id]) parent := by
                      constructor
                      · exact ((commentById_eq_some_iff distinct).mp found).1
                      · intro id inside
                        cases List.mem_append.mp inside with
                        | inl before => exact walking.known id before
                        | inr here => exact ⟨current, walking.listed, (List.mem_singleton.mp here).symm⟩
                      · rw [List.nodup_append]
                        refine ⟨walking.distinct, List.nodup_singleton _, ?_⟩
                        intro id before other here same
                        rw [List.mem_singleton.mp here] at same
                        exact again (same ▸ before)
                      · rw [List.append_assoc]
                        exact List.isChain_append_cons_cons.mpr ⟨walking.chain, points, List.isChain_singleton _⟩
                      · intro id inside
                        cases List.mem_append.mp inside with
                        | inl before => exact walking.fresh id before
                        | inr here => exact List.mem_singleton.mp here ▸ cached
                    obtain ⟨walk, ids, last, result, walked, starts⟩ := ih (path ++ [current.id]) parent next (by
                      rw [List.length_append, List.length_singleton]
                      omega)
                    exact ⟨walk, ids, last, result, walked, (List.prefix_append _ _).trans starts⟩

end Walk
section Resolved

variable {nodes : List ReviewCommentGraphNode} {memo : RootById}

variable {comment : ReviewCommentGraphNode}

theorem resolveCommentRootId_ends (distinct : (nodes.map ReviewCommentGraphNode.id).Nodup) (ok : MemoOk nodes memo)
    (listed : comment ∈ nodes) :
    ∃ root after, resolveCommentRootId nodes memo comment = some (root, after) ∧ MemoOk nodes after ∧
      after comment.id = some root ∧ ∀ id root, memo id = some root → after id = some root := by
  rw [resolveCommentRootId]
  cases cached : memo comment.id with
  | some root => exact ⟨root, memo, rfl, ok, cached, fun _ _ known => known⟩
  | none =>
      obtain ⟨walk, ids, last, result, walked, starts⟩ :=
        walk_ends distinct (nodes.length + 1) [] comment (walking_start memo listed) (by simp)
      have inside : comment.id ∈ ids ++ [last] := starts.subset (by simp)
      refine ⟨walk.rootId, walk.remember memo, by simp [result], walked.ok ok, ?_, fun id root known => walked.extends ok known⟩
      rw [walked.remembers]
      exact if_pos inside

-- A chain without a cycle has an end.
theorem chain_end (distinct : (nodes.map ReviewCommentGraphNode.id).Nodup)
    (listed : comment ∈ nodes) (straight : ¬ChainCycles (replyTo nodes) comment.id) :
    ∃ last, Leads (replyTo nodes) comment.id last ∧ replyTo nodes last = none := by
  obtain ⟨walk, ids, last, _, walked, starts⟩ :=
    walk_ends distinct (nodes.length + 1) [] comment (walking_start (fun _ => none) listed) (by simp)
  have leads : Leads (replyTo nodes) comment.id last := chain_leads walked.chain (starts.subset (by simp))
  rcases walked.ends with cached | ⟨_, ends | ⟨_, before⟩⟩
  · cases cached
  · exact ⟨last, leads, ends⟩
  · obtain ⟨after, inside, points⟩ := chain_next walked.chain before
    exact absurd ⟨last, leads, Relation.TransGen.head' points (chain_leads walked.chain inside)⟩ straight

-- Where a chain ends, the walk without a memo finds the end.
theorem resolveReviewThreadRootId_end (distinct : (nodes.map ReviewCommentGraphNode.id).Nodup)
    (listed : comment ∈ nodes) {last : Nat} (leads : Leads (replyTo nodes) comment.id last) (ends : replyTo nodes last = none) :
    resolveReviewThreadRootId nodes comment.id = some last := by
  obtain ⟨root, after, result, ok, known, _⟩ := resolveCommentRootId_ends distinct (memoOk_empty nodes) listed
  have found := (commentById_eq_some_iff distinct).mpr ⟨listed, rfl⟩
  rw [resolveReviewThreadRootId, found, Option.bind_some, result, Option.map_some, ok.root_of_end known leads ends]

end Resolved

section Threads

variable {T : Type} {node : T → ReviewCommentGraphNode} {comments done : List T} {state : Grouping T} {memo : RootById}

variable (node comments) in
structure Grouped (done : List T) (state : Grouping T) : Prop where
  ok : MemoOk (comments.map node) state.rootById
  known : ∀ c ∈ done, ∃ root, state.rootById (node c).id = some root
  threads : ∀ root, (state.threads.get? root).getD [] = done.filter fun c => state.rootById (node c).id = some root
  filled : ∀ root, state.threads.get? root ≠ some []

theorem group_step (distinct : ((comments.map node).map ReviewCommentGraphNode.id).Nodup) (grouped : Grouped node comments done state)
    {comment : T} (listed : comment ∈ comments) :
    ∃ next, groupStep node (comments.map node) state comment = some next ∧ Grouped node comments (done ++ [comment]) next := by
  obtain ⟨root, after, result, ok, here, extends_⟩ :=
    resolveCommentRootId_ends distinct grouped.ok (List.mem_map_of_mem listed)
  refine ⟨_, by rw [groupStep, result, Option.map_some], ?_⟩
  have same : ∀ other, (done.filter fun c => after (node c).id = some other) =
      done.filter fun c => state.rootById (node c).id = some other := by
    intro other
    apply List.filter_congr
    intro c inside
    obtain ⟨r, known⟩ := grouped.known c inside
    rw [known, extends_ _ _ known]
  constructor
  · exact ok
  · intro c inside
    cases List.mem_append.mp inside with
    | inl before =>
        obtain ⟨r, known⟩ := grouped.known c before
        exact ⟨r, extends_ _ _ known⟩
    | inr last =>
        obtain rfl := List.mem_singleton.mp last
        exact ⟨root, here⟩
  · intro other
    simp only
    rw [List.filter_append, same other, ← grouped.threads other, Table.get?_set]
    by_cases keyed : other = root
    · subst keyed
      rw [if_pos rfl, Option.getD_some]
      simp [here]
    · have apart : root ≠ other := fun eq => keyed eq.symm
      rw [if_neg keyed]
      simp [here, apart]
  · intro other empty
    rw [Table.get?_set] at empty
    by_cases keyed : other = root
    · rw [if_pos keyed] at empty
      simp at empty
    · rw [if_neg keyed] at empty
      exact grouped.filled other empty

theorem group_all (distinct : ((comments.map node).map ReviewCommentGraphNode.id).Nodup) (rest : List T)
    (grouped : Grouped node comments done state) (whole : done ++ rest = comments) :
    ∃ last, rest.foldlM (groupStep node (comments.map node)) state = some last ∧ Grouped node comments comments last := by
  induction rest generalizing done state with
  | nil =>
      rw [List.append_nil] at whole
      subst whole
      exact ⟨state, rfl, grouped⟩
  | cons comment rest ih =>
      have listed : comment ∈ comments := by
        rw [← whole]
        simp
      obtain ⟨next, stepped, grouped'⟩ := group_step distinct grouped listed
      obtain ⟨last, folded, final⟩ := ih grouped' (by rw [List.append_assoc]; exact whole)
      refine ⟨last, ?_, final⟩
      rw [List.foldlM_cons, stepped]
      exact folded

variable (node) in
theorem threadRoot_some {members : List T} (filled : members ≠ []) : ∃ root, threadRoot node members = some root := by
  rw [threadRoot]
  cases members.find? fun comment => decide ((node comment).inReplyToId = none) with
  | some root => exact ⟨root, rfl⟩
  | none =>
      cases sorted : members.mergeSort fun a b => decide ((node a).id ≤ (node b).id) with
      | nil =>
          have perm := List.mergeSort_perm members fun a b => decide ((node a).id ≤ (node b).id)
          rw [sorted] at perm
          exact absurd perm.symm.eq_nil filled
      | cons root rest => exact ⟨root, rfl⟩

theorem threadRoot_mem {members : List T} {root : T} (rooted : threadRoot node members = some root) : root ∈ members := by
  rw [threadRoot] at rooted
  cases Option.or_eq_some_iff.mp rooted with
  | inl found => exact List.mem_of_find?_eq_some found
  | inr first => exact (List.mergeSort_perm members _).mem_iff.mp (List.mem_of_head? first.2)

variable (node) in
-- The root comment does not depend on the order of the comments.
theorem threadRoot_perm {members others : List T} (perm : members.Perm others)
    (distinct : ∀ a ∈ members, ∀ b ∈ members, (node a).id = (node b).id → a = b)
    (alone : ∀ a ∈ members, ∀ b ∈ members, (node a).inReplyToId = none → (node b).inReplyToId = none → a = b) :
    threadRoot node members = threadRoot node others := by
  rw [threadRoot, threadRoot]
  cases found : members.find? fun comment => decide ((node comment).inReplyToId = none) with
  | some root =>
      have inside := List.mem_of_find?_eq_some found
      have first : (node root).inReplyToId = none := by simpa using List.find?_some found
      cases found' : others.find? fun comment => decide ((node comment).inReplyToId = none) with
      | none =>
          have absent := List.find?_eq_none.mp found' root (perm.mem_iff.mp inside)
          exact absurd first (by simpa using absent)
      | some other =>
          have first' : (node other).inReplyToId = none := by simpa using List.find?_some found'
          have inside' := perm.mem_iff.mpr (List.mem_of_find?_eq_some found')
          rw [alone root inside other inside' first first']
          rfl
  | none =>
      have absent : (others.find? fun comment => decide ((node comment).inReplyToId = none)) = none := by
        apply List.find?_eq_none.mpr
        intro other listed
        exact List.find?_eq_none.mp found other (perm.mem_iff.mpr listed)
      have total : ∀ a b : T, (decide ((node a).id ≤ (node b).id) || decide ((node b).id ≤ (node a).id)) = true := by
        intro a b
        simp [Nat.le_total]
      have trans : ∀ a b c : T, decide ((node a).id ≤ (node b).id) = true → decide ((node b).id ≤ (node c).id) = true →
          decide ((node a).id ≤ (node c).id) = true := by
        intro a b c first second
        exact decide_eq_true (Nat.le_trans (of_decide_eq_true first) (of_decide_eq_true second))
      have sorted : members.mergeSort (fun a b => decide ((node a).id ≤ (node b).id)) =
          others.mergeSort fun a b => decide ((node a).id ≤ (node b).id) := by
        have left := List.pairwise_mergeSort trans total members
        have right := List.pairwise_mergeSort trans total others
        have same := (List.mergeSort_perm members fun a b => decide ((node a).id ≤ (node b).id)).trans
          (perm.trans (List.mergeSort_perm others fun a b => decide ((node a).id ≤ (node b).id)).symm)
        apply same.eq_of_pairwise _ left right
        intro a b inside inside' first second
        have inA : a ∈ members := (List.mergeSort_perm members _).mem_iff.mp inside
        have inB : b ∈ members := perm.mem_iff.mpr ((List.mergeSort_perm others _).mem_iff.mp inside')
        exact distinct a inA b inB (Nat.le_antisymm (of_decide_eq_true first) (of_decide_eq_true second))
      rw [absent, sorted]

variable (node comments) in
-- The threads that a finished memo gives.
structure Threaded (memo : RootById) (groups : List (CommentThread T)) : Prop where
  ok : MemoOk (comments.map node) memo
  known : ∀ c ∈ comments, ∃ root, memo (node c).id = some root
  mem_iff : ∀ g, g ∈ groups ↔ g.comments ≠ [] ∧ g.comments = (comments.filter fun c => memo (node c).id = some g.rootId) ∧
    threadRoot node g.comments = some g.root
  apart : (groups.map CommentThread.rootId).Nodup

theorem distinct_nodes (distinct : (comments.map fun c => (node c).id).Nodup) :
    ((comments.map node).map ReviewCommentGraphNode.id).Nodup := by
  rw [List.map_map]
  exact distinct

theorem group_threads (distinct : (comments.map fun c => (node c).id).Nodup) :
    ∃ memo groups, groupCommentsByThreadRoot node comments = some groups ∧ Threaded node comments memo groups := by
  have start : Grouped node comments [] {} := by
    constructor
    · exact memoOk_empty _
    · intro c inside
      cases inside
    · intro root
      rfl
    · intro root empty
      cases empty
  obtain ⟨last, folded, grouped⟩ := group_all (distinct_nodes distinct) comments start rfl
  refine ⟨last.rootById, _, by rw [groupCommentsByThreadRoot, folded, Option.map_some], ?_⟩
  constructor
  · exact grouped.ok
  · exact grouped.known
  · intro g
    rw [List.mem_filterMap]
    constructor
    · intro ⟨entry, stored, built⟩
      obtain ⟨root, rooted, rfl⟩ := Option.map_eq_some_iff.mp built
      have stored' : last.threads.get? entry.1 = some entry.2 := (last.threads.get?_eq_some_iff _ _).mpr stored
      have members := grouped.threads entry.1
      rw [stored', Option.getD_some] at members
      refine ⟨?_, members, rooted⟩
      intro empty
      simp only at empty
      rw [empty] at stored'
      exact grouped.filled entry.1 stored'
    · intro ⟨filled, members, rooted⟩
      have read := grouped.threads g.rootId
      rw [← members] at read
      cases stored : last.threads.get? g.rootId with
      | none =>
          rw [stored] at read
          exact absurd read.symm filled
      | some list =>
          rw [stored, Option.getD_some] at read
          refine ⟨(g.rootId, list), (last.threads.get?_eq_some_iff _ _).mp stored, ?_⟩
          rw [read, rooted]
          rfl
  · have keys : (last.threads.rows.map Prod.fst).Nodup := last.threads.unique
    rw [List.Nodup, List.pairwise_map] at keys ⊢
    rw [List.pairwise_filterMap]
    apply keys.imp
    intro a b differ g built h built'
    obtain ⟨_, _, rfl⟩ := Option.map_eq_some_iff.mp built
    obtain ⟨_, _, rfl⟩ := Option.map_eq_some_iff.mp built'
    exact differ

section Facts

variable {groups : List (CommentThread T)}

section Grouped

variable (threaded : Threaded node comments memo groups)
include threaded

theorem Threaded.mem {g : CommentThread T} (listed : g ∈ groups) {c : T} :
    c ∈ g.comments ↔ c ∈ comments ∧ memo (node c).id = some g.rootId := by
  have members := ((threaded.mem_iff g).mp listed).2.1
  rw [members, List.mem_filter, decide_eq_true_iff]

theorem Threaded.meets {g : CommentThread T} (listed : g ∈ groups) {c d : T} (inside : c ∈ g.comments) :
    d ∈ g.comments ↔ d ∈ comments ∧ ChainsMeet (replyTo (comments.map node)) (node c).id (node d).id := by
  rw [threaded.mem listed]
  apply and_congr_right
  intro here
  obtain ⟨root, known⟩ := threaded.known d here
  rw [← threaded.ok.root_iff ((threaded.mem listed).mp inside).2 known, known, Option.some.injEq, eq_comm]

theorem Threaded.exists_of {c : T} (inside : c ∈ comments) :
    ∃ g ∈ groups, c ∈ g.comments := by
  obtain ⟨root, known⟩ := threaded.known c inside
  have here : c ∈ comments.filter fun d => memo (node d).id = some root := by
    rw [List.mem_filter]
    exact ⟨inside, decide_eq_true known⟩
  have filled := List.ne_nil_of_mem here
  obtain ⟨first, rooted⟩ := threadRoot_some node filled
  exact ⟨⟨root, first, _⟩, (threaded.mem_iff _).mpr ⟨filled, rfl, rooted⟩, here⟩

-- The threads are a partition of the comments.
theorem Threaded.parts (nodup : comments.Nodup) :
    (groups.flatMap CommentThread.comments).Perm comments := by
  rw [List.perm_ext_iff_of_nodup _ nodup]
  · intro c
    rw [List.mem_flatMap]
    constructor
    · intro ⟨g, listed, inside⟩
      exact ((threaded.mem listed).mp inside).1
    · exact threaded.exists_of
  · rw [List.nodup_flatMap]
    constructor
    · intro g listed
      rw [((threaded.mem_iff g).mp listed).2.1]
      exact nodup.filter _
    · have apart := threaded.apart
      rw [List.Nodup, List.pairwise_map] at apart
      apply apart.imp_of_mem
      intro g h listed listed' differ c inside inside'
      have left := ((threaded.mem listed).mp inside).2
      rw [((threaded.mem listed').mp inside').2] at left
      exact differ (Option.some.inj left).symm

end Grouped

theorem same_of_id (distinct : (comments.map fun c => (node c).id).Nodup) {c d : T} (inside : c ∈ comments) (inside' : d ∈ comments)
    (same : (node c).id = (node d).id) : c = d := List.inj_on_of_nodup_map distinct inside inside' same

-- At most one comment of a thread replies to nothing.
theorem Threaded.one_start (threaded : Threaded node comments memo groups) (distinct : (comments.map fun c => (node c).id).Nodup)
    {g : CommentThread T} (listed : g ∈ groups) {c d : T} (inside : c ∈ g.comments) (inside' : d ∈ g.comments)
    (first : (node c).inReplyToId = none) (first' : (node d).inReplyToId = none) : c = d := by
  have stops (e : T) (here : e ∈ comments) (starts : (node e).inReplyToId = none) :
      replyTo (comments.map node) (node e).id = none := by
    have found := (commentById_eq_some_iff (distinct_nodes distinct)).mpr ⟨List.mem_map_of_mem here, rfl⟩
    rw [replyTo, found, Option.bind_some, starts]
    rfl
  have here := ((threaded.mem listed).mp inside).1
  obtain ⟨here', meeting, leads, leads'⟩ := (threaded.meets listed inside).mp inside'
  apply same_of_id distinct here here'
  rw [← leads_of_end leads (stops c here first), leads_of_end leads' (stops d here' first')]

-- The same threads: their roots, and their comments in any order.
def ThreadsWithin (groups others : List (CommentThread T)) : Prop :=
  ∀ g ∈ groups, ∃ other ∈ others, other.root = g.root ∧ other.comments.Perm g.comments

theorem Threaded.within {others : List T} {memo' : RootById} {groups' : List (CommentThread T)}
    (threaded : Threaded node comments memo groups) (threaded' : Threaded node others memo' groups')
    (distinct : (comments.map fun c => (node c).id).Nodup) (perm : comments.Perm others) : ThreadsWithin groups groups' := by
  intro g listed
  obtain ⟨filled, members, rooted⟩ := (threaded.mem_iff g).mp listed
  obtain ⟨c, inside⟩ := List.exists_mem_of_ne_nil _ filled
  have here := ((threaded.mem listed).mp inside).1
  obtain ⟨other, listed', inside'⟩ := threaded'.exists_of (perm.mem_iff.mp here)
  obtain ⟨_, members', rooted'⟩ := (threaded'.mem_iff other).mp listed'
  have distinct' := (perm.map fun c => (node c).id).nodup_iff.mp distinct
  have nodup : g.comments.Nodup := by
    rw [members]
    exact (List.Nodup.of_map _ distinct).filter _
  have nodup' : other.comments.Nodup := by
    rw [members']
    exact (List.Nodup.of_map _ distinct').filter _
  have same : g.comments.Perm other.comments := by
    rw [List.perm_ext_iff_of_nodup nodup nodup']
    intro d
    rw [threaded.meets listed inside, threaded'.meets listed' inside', perm.mem_iff,
      replyTo_perm (distinct_nodes distinct) (perm.map node)]
  refine ⟨other, listed', ?_, same.symm⟩
  have roots := threadRoot_perm node same (fun a left b right =>
    same_of_id distinct ((threaded.mem listed).mp left).1 ((threaded.mem listed).mp right).1)
    (fun a left b right => threaded.one_start distinct listed left right)
  rw [rooted, rooted'] at roots
  exact (Option.some.inj roots).symm

end Facts

variable (node) in
-- Grouping terminates, for any reply links, and does not depend on the order of the comments.
theorem thread_grouping (comments : List T) (distinct : (comments.map fun c => (node c).id).Nodup) :
    ∃ groups, groupCommentsByThreadRoot node comments = some groups ∧
      (groups.flatMap CommentThread.comments).Perm comments ∧
      (∀ g ∈ groups, g.root ∈ g.comments ∧ ∀ c ∈ g.comments,
        (∀ d ∈ comments, d ∈ g.comments ↔ ChainsMeet (replyTo (comments.map node)) (node c).id (node d).id) ∧
        (¬ChainCycles (replyTo (comments.map node)) (node c).id →
          resolveReviewThreadRootId (comments.map node) (node c).id = some g.rootId)) ∧
      ∀ others, comments.Perm others → ∃ groups', groupCommentsByThreadRoot node others = some groups' ∧
        ThreadsWithin groups groups' ∧ ThreadsWithin groups' groups := by
  obtain ⟨memo, groups, grouped, threaded⟩ := group_threads distinct
  refine ⟨groups, grouped, threaded.parts (List.Nodup.of_map _ distinct), ?_, ?_⟩
  · intro g listed
    constructor
    · obtain ⟨_, _, rooted⟩ := (threaded.mem_iff g).mp listed
      exact threadRoot_mem rooted
    · intro c inside
      constructor
      · intro d here
        rw [threaded.meets listed inside]
        exact and_iff_right here
      · intro straight
        obtain ⟨listed', known⟩ := (threaded.mem listed).mp inside
        have node_listed : node c ∈ comments.map node := List.mem_map_of_mem listed'
        obtain ⟨last, leads, ends⟩ := chain_end (distinct_nodes distinct) node_listed straight
        rw [resolveReviewThreadRootId_end (distinct_nodes distinct) node_listed leads ends,
          threaded.ok.root_of_end known leads ends]
  · intro others perm
    have distinct' := (perm.map fun c => (node c).id).nodup_iff.mp distinct
    obtain ⟨memo', groups', grouped', threaded'⟩ := group_threads distinct'
    exact ⟨groups', grouped', threaded.within threaded' distinct perm, threaded'.within threaded distinct' perm.symm⟩

end Threads

-- A cycle of two comments, a reply to one that is not listed with a reply of its own, and a comment alone.
def tangledReplies : List ReviewCommentGraphNode := [⟨4, some 3⟩, ⟨1, some 2⟩, ⟨3, some 9⟩, ⟨2, some 1⟩, ⟨5, none⟩]

theorem tangled_replies_grouped :
    ∃ groups, groupCommentsByThreadRoot id tangledReplies = some groups ∧
      (groups.flatMap CommentThread.comments).Perm tangledReplies := by
  obtain ⟨groups, grouped, parts, _⟩ := thread_grouping id tangledReplies (by decide)
  exact ⟨groups, grouped, parts⟩

end PrAgent
