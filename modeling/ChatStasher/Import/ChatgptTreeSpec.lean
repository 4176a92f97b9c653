import ChatStasher.Import.ChatgptTree
import ChatStasher.Library.ParentChain
import Mathlib.Data.List.Dedup

/-! What the reading of a tree says: the links of a mapping, its walks, and that the reading is
exactly what they are. -/
namespace ChatStasher.ChatgptExport
open Inbox (Text)
open ParentChain (Climb Ascent)

section Links

variable (nodes : List NodeRecord)

/-- The link under a key. -/
def parentLink (id : Text) : ParentChain.Node Text :=
  match nodeAt nodes id with
  | none => .absent
  | some node =>
    match node.parent with
    | .node p => .link p
    | .unreadable _ => .broken
    | _ => .root

def Present (id : Text) : Prop := id ∈ nodes.map NodeRecord.id

instance (id : Text) : Decidable (Present nodes id) :=
  inferInstanceAs (Decidable (id ∈ nodes.map NodeRecord.id))

def ReachesRoot (id : Text) : Prop :=
  ∃ below root, Climb (parentLink nodes) id below root ∧ parentLink nodes root = .root

def Circles (id : Text) : Prop :=
  ∃ passed again, Climb (parentLink nodes) id passed again ∧ again ∈ passed

/-- The nodes from an end to the root that following its parents leads to. -/
def IsWalk (id : Text) (walk : List NodeRecord) : Prop :=
  (∃ below root, Climb (parentLink nodes) id below root ∧ parentLink nodes root = .root ∧
    walk.map NodeRecord.id = below ++ [root]) ∧ ∀ node ∈ walk, node ∈ nodes

def IsLeaf (node : NodeRecord) : Prop := ∀ other ∈ nodes, other.parent.key ≠ some node.id

instance (node : NodeRecord) : Decidable (IsLeaf nodes node) :=
  inferInstanceAs (Decidable (∀ other ∈ nodes, other.parent.key ≠ some node.id))

variable {nodes}

lemma nodeAt_isSome {id : Text} : (nodeAt nodes id).isSome ↔ Present nodes id := by
  unfold nodeAt Present
  rw [List.find?_isSome]
  simp

lemma nodeAt_eq_none {id : Text} : nodeAt nodes id = none ↔ ¬ Present nodes id := by
  rw [← nodeAt_isSome]
  cases nodeAt nodes id <;> simp

lemma present_of_mem {node : NodeRecord} (h : node ∈ nodes) : Present nodes node.id :=
  List.mem_map_of_mem h

lemma nodeAt_of_mem (hkeys : (nodes.map NodeRecord.id).Nodup) {node : NodeRecord}
    (h : node ∈ nodes) : nodeAt nodes node.id = some node := by
  obtain ⟨found, hfound⟩ := Option.isSome_iff_exists.mp (nodeAt_isSome.mpr (present_of_mem h))
  obtain ⟨hmem, hid⟩ := nodeAt_spec hfound
  rw [hfound, List.inj_on_of_nodup_map hkeys hmem h hid]

lemma parentLink_absent {id : Text} : parentLink nodes id = .absent ↔ ¬ Present nodes id := by
  rw [← nodeAt_eq_none]
  unfold parentLink
  cases nodeAt nodes id with
  | none => simp
  | some node =>
    simp only [reduceCtorEq, iff_false]
    split <;> exact nofun

lemma parentLink_ne_absent {id : Text} : parentLink nodes id ≠ .absent ↔ Present nodes id := by
  rw [ne_eq, parentLink_absent, not_not]

lemma parentLink_eq_link {id p : Text} :
    parentLink nodes id = .link p ↔
      ∃ node, nodeAt nodes id = some node ∧ node.parent.key = some p := by
  unfold parentLink
  cases nodeAt nodes id with
  | none => simp
  | some node =>
    simp only [Option.some.injEq, exists_eq_left']
    cases node.parent <;> simp [ParentLink.key]

lemma parentLink_of_none {id : Text} {node : NodeRecord} (h : nodeAt nodes id = some node)
    (hkey : node.parent.key = none) (p : Text) : parentLink nodes id ≠ .link p := by
  intro hlink
  obtain ⟨node', hnode', hkey'⟩ := parentLink_eq_link.mp hlink
  rw [h] at hnode'
  obtain rfl := Option.some.inj hnode'
  rw [hkey] at hkey'
  exact nomatch hkey'

end Links

section Steps

variable {nodes : List NodeRecord} {seen : List Text} {id : Text}

@[simp] lemma revisits_none : revisits nodes seen none = false := by rw [revisits]

lemma revisits_absent (h : nodeAt nodes id = none) : revisits nodes seen (some id) = false := by
  rw [revisits]
  split
  · rfl
  · next heq => cases h.symm.trans heq

lemma revisits_node {node : NodeRecord} (h : nodeAt nodes id = some node) :
    revisits nodes seen (some id) =
      if id ∈ seen then true else revisits nodes (id :: seen) node.parent.key := by
  rw [revisits]
  split
  · next heq => cases h.symm.trans heq
  · next found heq =>
    obtain rfl := Option.some.inj (h.symm.trans heq)
    split <;> rfl

@[simp] lemma chainFrom_none : chainFrom nodes seen none = [] := by rw [chainFrom]

lemma chainFrom_node {node : NodeRecord} (h : nodeAt nodes id = some node) :
    chainFrom nodes seen (some id) =
      if id ∈ seen then [] else node :: chainFrom nodes (id :: seen) node.parent.key := by
  rw [chainFrom]
  split
  · next heq => cases h.symm.trans heq
  · next found heq =>
    obtain rfl := Option.some.inj (h.symm.trans heq)
    split <;> rfl

end Steps

section Circles

variable {nodes : List NodeRecord} {start id top : Text} {chain seen passed : List Text}

lemma circles_of_revisits {cursor : Option Text} (hseen : ∀ x ∈ seen, x ∈ chain)
    (hclimb : ∀ id, cursor = some id → Climb (parentLink nodes) start chain id)
    (h : revisits nodes seen cursor = true) : Circles nodes start := by
  induction seen, cursor using revisits.induct nodes generalizing chain with
  | case1 seen => simp at h
  | case2 seen id hnode => simp [revisits_absent hnode] at h
  | case3 seen id node hnode hmem => exact ⟨chain, id, hclimb id rfl, hseen id hmem⟩
  | case4 seen id node hnode hmem ih =>
    rw [revisits_node hnode, if_neg hmem] at h
    refine @ih (chain ++ [id]) ?_ ?_ h
    · intro x hx
      rcases List.mem_cons.mp hx with rfl | hx
      · exact List.mem_append_right _ List.mem_cons_self
      · exact List.mem_append_left _ (hseen x hx)
    · intro p hp
      exact (hclimb id rfl).up (parentLink_eq_link.mpr ⟨node, hnode, hp⟩)

lemma ascent_of_not_revisits (h : revisits nodes seen (some id) = false) :
    ∃ passed top, Ascent (parentLink nodes) id passed top := by
  obtain ⟨cursor, hcursor⟩ : ∃ cursor, cursor = some id := ⟨_, rfl⟩
  rw [← hcursor] at h
  induction seen, cursor using revisits.induct nodes generalizing id with
  | case1 seen => exact nomatch hcursor
  | case2 seen key hnode =>
    obtain rfl := Option.some.inj hcursor
    refine ⟨_, _, .stop fun p hp => ?_⟩
    obtain ⟨node, hsome, -⟩ := parentLink_eq_link.mp hp
    exact nomatch hnode.symm.trans hsome
  | case3 seen key node hnode hmem => simp [revisits_node hnode, hmem] at h
  | case4 seen key node hnode hmem ih =>
    obtain rfl := Option.some.inj hcursor
    rw [revisits_node hnode, if_neg hmem] at h
    cases hkey : node.parent.key with
    | none => exact ⟨_, _, .stop (parentLink_of_none hnode hkey)⟩
    | some p =>
      obtain ⟨passed, top, hascent⟩ := ih h hkey
      exact ⟨_, _, .up (parentLink_eq_link.mpr ⟨node, hnode, hkey⟩) hascent⟩

variable (hkeys : (nodes.map NodeRecord.id).Nodup)
include hkeys

lemma revisits_iff_circles {node : NodeRecord} (h : node ∈ nodes) :
    revisits nodes [node.id] node.parent.key = true ↔ Circles nodes node.id := by
  have hnode := nodeAt_of_mem hkeys h
  constructor
  · intro hrevisits
    have hclimb : ∀ p, node.parent.key = some p →
        Climb (parentLink nodes) node.id [node.id] p := fun p hp =>
      Climb.here.up (parentLink_eq_link.mpr ⟨node, hnode, hp⟩)
    exact circles_of_revisits (fun x hx => hx) hclimb hrevisits
  · rintro ⟨passed, again, hclimb, hmem⟩
    by_contra hnot
    have hfirst : revisits nodes [] (some node.id) = false := by
      rw [revisits_node hnode, if_neg List.not_mem_nil]
      exact Bool.eq_false_iff.mpr hnot
    obtain ⟨passed', top, hascent⟩ := ascent_of_not_revisits hfirst
    exact hascent.not_mem_of_climb hclimb hmem

theorem hasACycle_iff : hasACycle nodes = true ↔ ∃ node ∈ nodes, Circles nodes node.id := by
  rw [hasACycle, List.any_eq_true]
  constructor
  · rintro ⟨node, hmem, h⟩
    exact ⟨node, hmem, (revisits_iff_circles hkeys hmem).mp h⟩
  · rintro ⟨node, hmem, h⟩
    exact ⟨node, hmem, (revisits_iff_circles hkeys hmem).mpr h⟩

lemma ascent_of_acyclic (h : hasACycle nodes = false) {node : NodeRecord} (hmem : node ∈ nodes) :
    ∃ passed top, Ascent (parentLink nodes) node.id passed top := by
  have hnot : revisits nodes [] (some node.id) = false := by
    rw [revisits_node (nodeAt_of_mem hkeys hmem), if_neg List.not_mem_nil]
    exact Bool.eq_false_iff.mpr fun hrevisits =>
      absurd (List.any_eq_true.mpr ⟨node, hmem, hrevisits⟩) (Bool.eq_false_iff.mp h)
  exact ascent_of_not_revisits hnot

end Circles

section Walks

variable {nodes : List NodeRecord} {start id top : Text} {seen passed : List Text}

lemma chainFrom_ascent (h : Ascent (parentLink nodes) id passed top)
    (htop : parentLink nodes top ≠ .absent) (hnew : ∀ x ∈ passed, x ∉ seen) :
    (chainFrom nodes seen (some id)).map NodeRecord.id = passed ∧
      ∀ node ∈ chainFrom nodes seen (some id), node ∈ nodes := by
  induction h generalizing seen with
  | @stop x hstop =>
    obtain ⟨node, hnode⟩ := Option.isSome_iff_exists.mp
      (nodeAt_isSome.mpr (parentLink_ne_absent.mp htop))
    obtain ⟨hmem, hid⟩ := nodeAt_spec hnode
    have hkey : node.parent.key = none := by
      cases hkey : node.parent.key with
      | none => rfl
      | some p => exact absurd (parentLink_eq_link.mpr ⟨node, hnode, hkey⟩) (hstop p)
    rw [chainFrom_node hnode, if_neg (hnew x (List.mem_singleton_self x)), hkey, chainFrom_none]
    exact ⟨by rw [List.map_singleton, hid], fun other hother => List.mem_singleton.mp hother ▸ hmem⟩
  | @up x p top passed hlink habove ih =>
    obtain ⟨node, hnode, hkey⟩ := parentLink_eq_link.mp hlink
    obtain ⟨hmem, hid⟩ := nodeAt_spec hnode
    have hnodup := (Ascent.up hlink habove).nodup
    have hnew' : ∀ y ∈ passed, y ∉ x :: seen := by
      intro y hy hmem
      rcases List.mem_cons.mp hmem with rfl | hmem
      · exact (List.nodup_cons.mp hnodup).1 hy
      · exact hnew y (List.mem_cons_of_mem x hy) hmem
    have hrest := ih htop hnew'
    rw [chainFrom_node hnode, if_neg (hnew x List.mem_cons_self), hkey]
    constructor
    · rw [List.map_cons, hid, hrest.1]
    · intro other hother
      rcases List.mem_cons.mp hother with rfl | hother
      · exact hmem
      · exact hrest.2 other hother

lemma reachesRoot_iff : ReachesRoot nodes id ↔
    ∃ passed top, Ascent (parentLink nodes) id passed top ∧ parentLink nodes top = .root := by
  constructor
  · rintro ⟨below, root, hclimb, hroot⟩
    have hstop : ∀ p, parentLink nodes root ≠ .link p := by
      rw [hroot]
      exact fun p => nofun
    exact ⟨_, root, hclimb.ascent (.stop hstop), hroot⟩
  · rintro ⟨passed, top, h, hroot⟩
    obtain ⟨below, hclimb, -⟩ := h.climb
    exact ⟨below, top, hclimb, hroot⟩

def measure (id : Text) (walk : List NodeRecord) : Branch where
  «end» := id
  nodes := walk.length
  turns := (walk.filterMap NodeRecord.turnText).length
  characters := ((walk.filterMap NodeRecord.turnText).map List.length).sum

lemma foldl_countTurn (chain : List NodeRecord) (counts : ℕ × ℕ) :
    chain.foldl countTurn counts = (counts.1 + (chain.filterMap NodeRecord.turnText).length,
      counts.2 + ((chain.filterMap NodeRecord.turnText).map List.length).sum) := by
  induction chain generalizing counts with
  | nil => rfl
  | cons node chain ih =>
    rw [List.foldl_cons, List.filterMap_cons, ih, countTurn]
    cases node.turnText with
    | none => rfl
    | some text =>
      simp only [List.length_cons, List.map_cons, List.sum_cons, Prod.mk.injEq]
      omega

lemma branchOf_eq (nodes : List NodeRecord) (id : Text) :
    branchOf nodes id = measure id (chainFrom nodes [] (some id)) := by
  rw [branchOf, foldl_countTurn, measure]
  simp

lemma branchOf_ascent (h : Ascent (parentLink nodes) id passed top)
    (hroot : parentLink nodes top = .root) :
    ∃ walk, IsWalk nodes id walk ∧ walk.map NodeRecord.id = passed ∧
      branchOf nodes id = measure id walk := by
  have hpresent : parentLink nodes top ≠ .absent := by
    rw [hroot]
    exact nofun
  obtain ⟨hmap, hmem⟩ := chainFrom_ascent h hpresent fun x _ => @List.not_mem_nil _ x
  obtain ⟨below, hclimb, hpassed⟩ := h.climb
  exact ⟨_, ⟨⟨below, top, hclimb, hroot, hmap.trans hpassed⟩, hmem⟩, hmap, branchOf_eq nodes id⟩

lemma branchOf_walk (h : ReachesRoot nodes id) :
    ∃ walk, IsWalk nodes id walk ∧ branchOf nodes id = measure id walk := by
  obtain ⟨passed, top, hascent, hroot⟩ := reachesRoot_iff.mp h
  obtain ⟨walk, hwalk, -, hbranch⟩ := branchOf_ascent hascent hroot
  exact ⟨walk, hwalk, hbranch⟩

lemma IsWalk.unique (hkeys : (nodes.map NodeRecord.id).Nodup) {walk walk' : List NodeRecord}
    (h : IsWalk nodes id walk) (h' : IsWalk nodes id walk') : walk = walk' := by
  have hascent : ∀ {w}, IsWalk nodes id w →
      ∃ top, Ascent (parentLink nodes) id (w.map NodeRecord.id) top := by
    rintro w ⟨⟨below, root, hclimb, hroot, hmap⟩, -⟩
    have hstop : ∀ p, parentLink nodes root ≠ .link p := by
      rw [hroot]
      exact fun p => nofun
    exact ⟨root, hmap ▸ hclimb.ascent (.stop hstop)⟩
  obtain ⟨top, ha⟩ := hascent h
  obtain ⟨top', ha'⟩ := hascent h'
  have hback : ∀ {w}, IsWalk nodes id w →
      (w.map NodeRecord.id).filterMap (nodeAt nodes) = w := by
    intro w hw
    rw [List.filterMap_map]
    exact (List.filterMap_congr fun node hnode => nodeAt_of_mem hkeys (hw.2 node hnode)).trans
      (List.filterMap_some)
  rw [← hback h, ← hback h', (ha.unique ha').1]

end Walks

section Counts

variable (nodes : List NodeRecord)

/-- The parent is not there, or it was not read as a key. -/
def ParentUnresolved (node : NodeRecord) : Bool :=
  match node.parent with
  | .node id => ¬ Present nodes id
  | .unreadable _ => true
  | _ => false

def unresolvedChildren (node : NodeRecord) : List Text :=
  match node.children with
  | .value children => children.filter fun child => ¬ Present nodes child
  | _ => []

variable {nodes}

lemma countParent_spec (counts : LinkCounts) (node : NodeRecord) :
    (counts.countParent nodes node.parent).unresolvedParents =
        counts.unresolvedParents + (ParentUnresolved nodes node).toNat ∧
      (counts.countParent nodes node.parent).unresolvedChildren = counts.unresolvedChildren ∧
      ∀ id, Present nodes id → (id ∈ (counts.countParent nodes node.parent).namedAsParent ↔
        id ∈ counts.namedAsParent ∨ node.parent.key = some id) := by
  unfold ParentUnresolved LinkCounts.countParent
  cases node.parent with
  | node parent =>
    simp only [nodeAt_isSome, ParentLink.key, Option.some.injEq]
    by_cases hparent : Present nodes parent
    · simp only [hparent, if_true, not_true, decide_false, Bool.toNat_false, Nat.add_zero, true_and,
        List.mem_cons]
      intro id _
      rw [or_comm, eq_comm]
    · simp only [hparent, if_false, not_false_iff, decide_true, Bool.toNat_true, true_and]
      intro id hid
      have hne : parent ≠ id := by
        rintro rfl
        exact hparent hid
      simp [hne]
  | root => simp [ParentLink.key]
  | absent => simp [ParentLink.key]
  | unreadable why => simp [ParentLink.key]

lemma countChildren_spec (counts : LinkCounts) (node : NodeRecord) :
    (counts.countChildren nodes node.children).unresolvedParents = counts.unresolvedParents ∧
      (counts.countChildren nodes node.children).unresolvedChildren =
        counts.unresolvedChildren + (unresolvedChildren nodes node).length ∧
      (counts.countChildren nodes node.children).namedAsParent = counts.namedAsParent := by
  unfold unresolvedChildren LinkCounts.countChildren
  cases node.children with
  | value children =>
    dsimp only
    induction children generalizing counts with
    | nil => exact ⟨rfl, rfl, rfl⟩
    | cons child children ih =>
      rw [List.foldl_cons, List.filter_cons]
      simp only [nodeAt_isSome] at ih ⊢
      by_cases hchild : Present nodes child
      · simpa [hchild] using ih counts
      · obtain ⟨hparents, hchildren, hnamed⟩ :=
          ih { counts with unresolvedChildren := counts.unresolvedChildren + 1 }
        simp only [hchild, if_false, not_false_iff, decide_true, if_true, List.length_cons]
        refine ⟨hparents, hchildren.trans ?_, hnamed⟩
        dsimp only
        omega
  | null => exact ⟨rfl, rfl, rfl⟩
  | absent => exact ⟨rfl, rfl, rfl⟩
  | unreadable why => exact ⟨rfl, rfl, rfl⟩

lemma foldl_counts_spec (l : List NodeRecord) (counts : LinkCounts) :
    let total := l.foldl (fun counts node =>
      (counts.countParent nodes node.parent).countChildren nodes node.children) counts
    total.unresolvedParents = counts.unresolvedParents + l.countP (ParentUnresolved nodes) ∧
      total.unresolvedChildren = counts.unresolvedChildren +
        (l.map fun node => (unresolvedChildren nodes node).length).sum ∧
      ∀ id, Present nodes id → (id ∈ total.namedAsParent ↔
        id ∈ counts.namedAsParent ∨ ∃ node ∈ l, node.parent.key = some id) := by
  induction l generalizing counts with
  | nil => simp
  | cons node l ih =>
    obtain ⟨hparents, hchildren, hnamed⟩ := @countParent_spec nodes counts node
    obtain ⟨hparents', hchildren', hnamed'⟩ :=
      @countChildren_spec nodes (counts.countParent nodes node.parent) node
    obtain ⟨ihparents, ihchildren, ihnamed⟩ :=
      ih ((counts.countParent nodes node.parent).countChildren nodes node.children)
    dsimp only
    rw [List.foldl_cons]
    refine ⟨?_, ?_, fun id hid => ?_⟩
    · rw [ihparents, hparents', hparents, List.countP_cons]
      cases ParentUnresolved nodes node with
      | false => rfl
      | true =>
        simp only [Bool.toNat_true, if_true]
        omega
    · rw [ihchildren, hchildren', hchildren, List.map_cons, List.sum_cons, Nat.add_assoc]
    · rw [ihnamed id hid, hnamed', hnamed id hid]
      simp only [List.mem_cons, exists_eq_or_imp, or_assoc]

lemma linkCounts_spec (nodes : List NodeRecord) :
    (linkCounts nodes).unresolvedParents = nodes.countP (ParentUnresolved nodes) ∧
      (linkCounts nodes).unresolvedChildren =
        (nodes.map fun node => (unresolvedChildren nodes node).length).sum ∧
      ∀ id, Present nodes id → (id ∈ (linkCounts nodes).namedAsParent ↔
        ∃ node ∈ nodes, node.parent.key = some id) := by
  obtain ⟨hparents, hchildren, hnamed⟩ := @foldl_counts_spec nodes nodes ⟨0, 0, []⟩
  refine ⟨hparents.trans (Nat.zero_add _), hchildren.trans (Nat.zero_add _), fun id hid => ?_⟩
  exact (hnamed id hid).trans (or_iff_right List.not_mem_nil)

lemma foldl_max_spec (branches : List Branch) (best : Branch) :
    ∃ greatest, branches.foldl (fun best branch =>
        match best with
        | none => some branch
        | some left => if branch.rank < left.rank then some left else some branch) (some best) =
          some greatest ∧
      greatest ∈ best :: branches ∧ ∀ branch ∈ best :: branches, branch.rank ≤ greatest.rank := by
  induction branches generalizing best with
  | nil => exact ⟨best, rfl, List.mem_singleton_self _, fun b hb => by
      rw [List.mem_singleton.mp hb]⟩
  | cons branch branches ih =>
    rw [List.foldl_cons]
    dsimp only
    by_cases hlt : branch.rank < best.rank
    · rw [if_pos hlt]
      obtain ⟨greatest, heq, hmem, hmax⟩ := ih best
      refine ⟨greatest, heq, ?_, fun b hb => ?_⟩
      · rcases List.mem_cons.mp hmem with rfl | hmem
        · exact List.mem_cons_self
        · exact List.mem_cons_of_mem _ (List.mem_cons_of_mem _ hmem)
      · rcases List.mem_cons.mp hb with rfl | hb
        · exact hmax _ List.mem_cons_self
        · rcases List.mem_cons.mp hb with rfl | hb
          · exact hlt.le.trans (hmax _ List.mem_cons_self)
          · exact hmax _ (List.mem_cons_of_mem _ hb)
    · rw [if_neg hlt]
      obtain ⟨greatest, heq, hmem, hmax⟩ := ih branch
      refine ⟨greatest, heq, List.mem_cons_of_mem _ hmem, fun b hb => ?_⟩
      rcases List.mem_cons.mp hb with rfl | hb
      · exact (not_lt.mp hlt).trans (hmax _ List.mem_cons_self)
      · exact hmax _ hb

lemma maxByRank_spec {branches : List Branch} (h : branches ≠ []) :
    ∃ greatest, maxByRank branches = some greatest ∧ greatest ∈ branches ∧
      ∀ branch ∈ branches, branch.rank ≤ greatest.rank := by
  cases branches with
  | nil => exact absurd rfl h
  | cons branch branches => exact foldl_max_spec branches branch

end Counts

section Reading

variable (nodes : List NodeRecord) (current : CurrentNodeReading)

/-- There are nodes, all that is named is there, and every node's parents lead to a root. -/
structure Resolved : Prop where
  nonempty : nodes ≠ []
  parents : ∀ node ∈ nodes, ∀ parent, node.parent = .node parent → Present nodes parent
  children : ∀ node ∈ nodes, ∀ children, node.children = .value children →
    ∀ child ∈ children, Present nodes child
  current : ∀ id, current = .named id → Present nodes id
  rooted : ∀ node ∈ nodes, ReachesRoot nodes node.id

/-- The exact numbers of what is missing. -/
structure IsMissing (missing : MissingNodes) : Prop where
  nodeCount : missing.nodes = nodes.length
  messages : missing.messages = nodes.countP fun node => node.message.isMessage
  unresolvedParents : missing.unresolvedParents = nodes.countP (ParentUnresolved nodes)
  unresolvedChildren : missing.unresolvedChildren =
    (nodes.map fun node => (unresolvedChildren nodes node).length).sum
  unresolvedCurrentNode : missing.unresolvedCurrentNode = true ↔
    ∃ id, current = .named id ∧ ¬ Present nodes id
  cyclic : missing.cyclic = true ↔ ∃ node ∈ nodes, Circles nodes node.id

/-- The facts of a tree, its branches measured along walks that end at roots. -/
structure IsFacts (facts : TreeFacts) : Prop where
  nodeCount : facts.nodes = nodes.length
  messages : facts.messages = nodes.countP fun node => node.message.isMessage
  roots : facts.roots = nodes.countP fun node => node.parent.isRoot
  leaves : facts.leaves = nodes.countP fun node => IsLeaf nodes node
  leaf : 0 < facts.leaves
  longest : ∃ leaf ∈ nodes, IsLeaf nodes leaf ∧ ∃ walk, IsWalk nodes leaf.id walk ∧
    facts.longestBranch = measure leaf.id walk
  greatest : ∀ leaf ∈ nodes, IsLeaf nodes leaf → ∀ walk, IsWalk nodes leaf.id walk →
    (measure leaf.id walk).rank ≤ facts.longestBranch.rank
  covered : ∀ node ∈ nodes, ∃ leaf ∈ nodes, IsLeaf nodes leaf ∧
    ∃ walk, IsWalk nodes leaf.id walk ∧ node ∈ walk
  currentNamed : ∀ id, current = .named id → ∃ walk, IsWalk nodes id walk ∧
    facts.currentBranch = some (measure id walk)
  currentUnnamed : (∀ id, current ≠ .named id) → facts.currentBranch = none

structure IsReading (reading : TreeReading) : Prop where
  consistent_iff : (∃ facts, reading = .consistent facts) ↔ Resolved nodes current
  noNodes_iff : reading = .noNodes ↔ nodes = [] ∧ ∀ id, current = .named id → Present nodes id
  missing : ∀ missing, reading = .missingNodes missing → IsMissing nodes current missing
  facts : ∀ facts, reading = .consistent facts → IsFacts nodes current facts

variable {nodes current}

lemma leaf_iff {node : NodeRecord} (h : node ∈ nodes) :
    node.id ∉ (linkCounts nodes).namedAsParent ↔ IsLeaf nodes node := by
  rw [(linkCounts_spec nodes).2.2 _ (present_of_mem h), IsLeaf]
  simp

lemma mem_leaves {id : Text} :
    id ∈ (keys nodes).filter (fun id => id ∉ (linkCounts nodes).namedAsParent) ↔
      ∃ node ∈ nodes, node.id = id ∧ IsLeaf nodes node := by
  rw [List.mem_filter, keys, List.mem_insertionSort, List.mem_dedup]
  constructor
  · rintro ⟨hmem, hnot⟩
    obtain ⟨node, hnode, rfl⟩ := List.mem_map.mp hmem
    exact ⟨node, hnode, rfl, (leaf_iff hnode).mp (of_decide_eq_true hnot)⟩
  · rintro ⟨node, hnode, rfl, hleaf⟩
    exact ⟨present_of_mem hnode, decide_eq_true ((leaf_iff hnode).mpr hleaf)⟩

/-- The facts as the code puts them together. -/
def treeFacts (nodes : List NodeRecord) (current : CurrentNodeReading) (longest : Branch) :
    TreeFacts where
  nodes := nodes.length
  messages := (nodes.filter fun node => node.message.isMessage).length
  roots := (nodes.filter fun node => node.parent.isRoot).length
  leaves := ((keys nodes).filter fun id => id ∉ (linkCounts nodes).namedAsParent).length
  longestBranch := longest
  currentBranch :=
    match current with
    | .named id => some (branchOf nodes id)
    | _ => none

variable (hkeys : (nodes.map NodeRecord.id).Nodup)
include hkeys

lemma length_leaves :
    ((keys nodes).filter fun id => id ∉ (linkCounts nodes).namedAsParent).length =
      nodes.countP fun node => IsLeaf nodes node := by
  have hperm : (keys nodes).Perm (nodes.map NodeRecord.id) := by
    rw [keys, List.dedup_eq_self.mpr hkeys]
    exact List.perm_insertionSort _ _
  rw [← List.countP_eq_length_filter, hperm.countP_eq, List.countP_map]
  apply List.countP_congr
  intro node hnode
  simp only [Function.comp_apply, decide_eq_true_eq]
  exact leaf_iff hnode

lemma resolved_iff : Resolved nodes current ↔
    nodes ≠ [] ∧ (linkCounts nodes).unresolvedParents = 0 ∧
      (linkCounts nodes).unresolvedChildren = 0 ∧
      (∀ id, current = .named id → Present nodes id) ∧ hasACycle nodes = false := by
  obtain ⟨hparents, hchildren, -⟩ := linkCounts_spec nodes
  rw [hparents, hchildren, List.countP_eq_zero, List.sum_eq_zero_iff_forall_eq_nat]
  constructor
  · intro h
    refine ⟨h.nonempty, ?_, ?_, h.current, ?_⟩
    · intro node hnode hunresolved
      unfold ParentUnresolved at hunresolved
      split at hunresolved
      · next parent hparent =>
        exact of_decide_eq_true hunresolved (h.parents node hnode parent hparent)
      · next why hparent =>
        obtain ⟨passed, top, hascent, hroot⟩ := reachesRoot_iff.mp (h.rooted node hnode)
        have hbroken : parentLink nodes node.id = .broken := by
          rw [parentLink, nodeAt_of_mem hkeys hnode]
          simp only [hparent]
        have hstop : ∀ p, parentLink nodes node.id ≠ .link p := by
          rw [hbroken]
          exact fun p => nofun
        obtain ⟨-, rfl⟩ := hascent.unique (.stop hstop)
        rw [hbroken] at hroot
        exact nomatch hroot
      · exact nomatch hunresolved
    · intro n hn
      obtain ⟨node, hnode, rfl⟩ := List.mem_map.mp hn
      unfold unresolvedChildren
      split
      · next children hlist =>
        rw [List.length_eq_zero_iff, List.filter_eq_nil_iff]
        intro child hchild
        simpa using h.children node hnode children hlist child hchild
      · rfl
    · rw [← Bool.not_eq_true, hasACycle_iff hkeys]
      rintro ⟨node, hnode, passed, again, hclimb, hmem⟩
      obtain ⟨passed', top, hascent, -⟩ := reachesRoot_iff.mp (h.rooted node hnode)
      exact hascent.not_mem_of_climb hclimb hmem
  · rintro ⟨hne, hnoParents, hnoChildren, hcurrent, hacyclic⟩
    have hresolved : ∀ node ∈ nodes, ∀ p, node.parent.key = some p → Present nodes p := by
      intro node hnode p hp
      have hnot := hnoParents node hnode
      unfold ParentUnresolved at hnot
      cases hparent : node.parent with
      | node parent =>
        rw [hparent] at hp hnot
        obtain rfl := Option.some.inj hp
        simpa using hnot
      | root => simp [hparent, ParentLink.key] at hp
      | absent => simp [hparent, ParentLink.key] at hp
      | unreadable why => simp [hparent, ParentLink.key] at hp
    refine ⟨hne, ?_, ?_, hcurrent, ?_⟩
    · intro node hnode parent hparent
      exact hresolved node hnode parent (by rw [hparent]; rfl)
    · intro node hnode children hlist child hchild
      have hlength := hnoChildren _ (List.mem_map_of_mem hnode)
      rw [unresolvedChildren, hlist] at hlength
      have hnone := List.filter_eq_nil_iff.mp (List.length_eq_zero_iff.mp hlength) child hchild
      simpa using hnone
    · intro node hnode
      obtain ⟨passed, top, hascent⟩ := ascent_of_acyclic hkeys hacyclic hnode
      have hpresent : parentLink nodes top ≠ .absent := by
        refine hascent.top_present ?_ (parentLink_ne_absent.mpr (present_of_mem hnode))
        intro x p hlink
        obtain ⟨found, hfound, hkey⟩ := parentLink_eq_link.mp hlink
        exact parentLink_ne_absent.mpr (hresolved found (nodeAt_spec hfound).1 p hkey)
      refine reachesRoot_iff.mpr ⟨passed, top, hascent, ?_⟩
      obtain ⟨found, hfound⟩ := Option.isSome_iff_exists.mp
        (nodeAt_isSome.mpr (parentLink_ne_absent.mp hpresent))
      have hstop := hascent.top_stop
      have hnot := hnoParents found (nodeAt_spec hfound).1
      unfold ParentUnresolved at hnot
      unfold parentLink at hstop ⊢
      simp only [hfound] at hstop ⊢
      cases hparent : found.parent with
      | node parent => exact absurd (by rw [hparent]) (hstop parent)
      | root => rfl
      | absent => rfl
      | unreadable why =>
        rw [hparent] at hnot
        exact absurd rfl hnot

lemma exists_leaf (h : Resolved nodes current) {node : NodeRecord} (hnode : node ∈ nodes) :
    ∃ leaf ∈ nodes, IsLeaf nodes leaf ∧ ∃ walk, IsWalk nodes leaf.id walk ∧ node ∈ walk := by
  have hstock : ∀ x, parentLink nodes x ≠ .absent → x ∈ nodes.map NodeRecord.id := fun x hx =>
    parentLink_ne_absent.mp hx
  have hascent : ∀ x, parentLink nodes x ≠ .absent →
      ∃ passed top, Ascent (parentLink nodes) x passed top ∧ parentLink nodes top = .root := by
    intro x hx
    obtain ⟨found, hfound, rfl⟩ := List.mem_map.mp (hstock x hx)
    exact reachesRoot_iff.mp (h.rooted found hfound)
  obtain ⟨key, passed, top, hpresent, hleaf, hup, hroot, hmem⟩ :=
    Ascent.exists_leaf hstock hascent (parentLink_ne_absent.mpr (present_of_mem hnode))
  obtain ⟨leaf, hleafMem, rfl⟩ := List.mem_map.mp (hstock key hpresent)
  obtain ⟨walk, hwalk, hmap, -⟩ := branchOf_ascent hup hroot
  refine ⟨leaf, hleafMem, fun other hother hkey => ?_, walk, hwalk, ?_⟩
  · exact hleaf other.id (parentLink_eq_link.mpr ⟨other, nodeAt_of_mem hkeys hother, hkey⟩)
  · rw [← hmap] at hmem
    obtain ⟨same, hsame, hid⟩ := List.mem_map.mp hmem
    rwa [← List.inj_on_of_nodup_map hkeys (hwalk.2 same hsame) hnode hid]

lemma isFacts_of_resolved (h : Resolved nodes current) {longest : Branch}
    (hlongest : maxByRank (((keys nodes).filter fun id =>
      id ∉ (linkCounts nodes).namedAsParent).map (branchOf nodes)) = some longest) :
    IsFacts nodes current (treeFacts nodes current longest) := by
  obtain ⟨first, hfirst⟩ := List.exists_mem_of_ne_nil nodes h.nonempty
  obtain ⟨leaf, hleafMem, hleaf, -⟩ := exists_leaf hkeys h hfirst
  have hleaves : leaf.id ∈ (keys nodes).filter fun id =>
      id ∉ (linkCounts nodes).namedAsParent := mem_leaves.mpr ⟨leaf, hleafMem, rfl, hleaf⟩
  obtain ⟨greatest, heq, hgreatest, hmax⟩ := maxByRank_spec
    (List.ne_nil_of_mem (List.mem_map_of_mem (f := branchOf nodes) hleaves))
  obtain rfl : greatest = longest := Option.some.inj (heq.symm.trans hlongest)
  constructor
  · rfl
  · exact List.countP_eq_length_filter.symm
  · exact List.countP_eq_length_filter.symm
  · exact length_leaves hkeys
  · exact List.length_pos_of_mem hleaves
  · obtain ⟨id, hid, rfl⟩ := List.mem_map.mp hgreatest
    obtain ⟨end', hend, rfl, hendLeaf⟩ := mem_leaves.mp hid
    obtain ⟨walk, hwalk, hbranch⟩ := branchOf_walk (h.rooted end' hend)
    exact ⟨end', hend, hendLeaf, walk, hwalk, hbranch⟩
  · intro other hother hotherLeaf walk hwalk
    obtain ⟨walk', hwalk', hbranch⟩ := branchOf_walk (h.rooted other hother)
    rw [hwalk.unique hkeys hwalk', ← hbranch]
    exact hmax _ (List.mem_map_of_mem (mem_leaves.mpr ⟨other, hother, rfl, hotherLeaf⟩))
  · exact fun node hnode => exists_leaf hkeys h hnode
  · rintro id rfl
    obtain ⟨found, hfound, rfl⟩ := List.mem_map.mp (h.current id rfl)
    obtain ⟨walk, hwalk, hbranch⟩ := branchOf_walk (h.rooted found hfound)
    exact ⟨walk, hwalk, congrArg some hbranch⟩
  · intro hunnamed
    cases current with
    | named id => exact absurd rfl (hunnamed id)
    | absent => rfl
    | null => rfl
    | unreadable why => rfl
    | unresolved id => rfl

/-- Whether a current node is named that is not there. -/
def currentAbsent (nodes : List NodeRecord) (current : CurrentNodeReading) : Bool :=
  match current with
  | .named id => (nodeAt nodes id).isNone
  | _ => false

omit hkeys in
lemma currentAbsent_iff : currentAbsent nodes current = true ↔
    ∃ id, current = .named id ∧ ¬ Present nodes id := by
  cases current <;> simp [currentAbsent, nodeAt_eq_none]

omit hkeys in
lemma not_currentAbsent_iff : currentAbsent nodes current = false ↔
    ∀ id, current = .named id → Present nodes id := by
  rw [← Bool.not_eq_true, currentAbsent_iff]
  simp

def resolvedCurrent (nodes : List NodeRecord) (current : CurrentNodeReading) :
    CurrentNodeReading :=
  match current with
  | .named id => if (nodeAt nodes id).isNone then .unresolved id else .named id
  | other => other

def SomeMissing (nodes : List NodeRecord) (current : CurrentNodeReading) : Prop :=
  (linkCounts nodes).unresolvedParents > 0 ∨ (linkCounts nodes).unresolvedChildren > 0 ∨
    currentAbsent nodes current ∨ hasACycle nodes

instance : Decidable (SomeMissing nodes current) := by
  unfold SomeMissing
  infer_instance

omit hkeys in
lemma readTree_eq : readTree nodes current =
    if SomeMissing nodes current then
      (.missingNodes
        { nodes := nodes.length
          messages := (nodes.filter fun node => node.message.isMessage).length
          unresolvedParents := (linkCounts nodes).unresolvedParents
          unresolvedChildren := (linkCounts nodes).unresolvedChildren
          unresolvedCurrentNode := currentAbsent nodes current
          cyclic := hasACycle nodes }, resolvedCurrent nodes current)
    else if nodes.isEmpty then (.noNodes, resolvedCurrent nodes current)
    else
      match maxByRank (((keys nodes).filter fun id =>
        id ∉ (linkCounts nodes).namedAsParent).map (branchOf nodes)) with
      | none => (.noNodes, resolvedCurrent nodes current)
      | some longest =>
        (.consistent (treeFacts nodes (resolvedCurrent nodes current) longest),
          resolvedCurrent nodes current) := by
  cases current <;> rfl

lemma not_someMissing_iff (hne : nodes ≠ []) :
    ¬ SomeMissing nodes current ↔ Resolved nodes current := by
  rw [resolved_iff hkeys, SomeMissing, ← not_currentAbsent_iff]
  simp only [not_or, gt_iff_lt, Nat.not_lt, Nat.le_zero, Bool.not_eq_true]
  exact (and_iff_right hne).symm

omit hkeys in
lemma not_someMissing_nil (h : ∀ id, current = .named id → Present [] id) :
    ¬ SomeMissing [] current := by
  rw [SomeMissing, not_currentAbsent_iff.mpr h]
  simp [linkCounts, hasACycle]

theorem readTree_exact (current : CurrentNodeReading) :
    IsReading nodes current (readTree nodes current).1 ∧
      (readTree nodes current).2 = resolvedCurrent nodes current := by
  rw [readTree_eq]
  by_cases hmissing : SomeMissing nodes current
  · obtain ⟨hparents, hchildren, -⟩ := linkCounts_spec nodes
    rw [if_pos hmissing]
    refine ⟨⟨⟨?_, ?_⟩, ⟨nofun, ?_⟩, ?_, fun facts => nofun⟩, rfl⟩
    · exact fun ⟨facts, h⟩ => nomatch h
    · exact fun h => absurd hmissing ((not_someMissing_iff hkeys h.nonempty).mpr h)
    · rintro ⟨rfl, hnamed⟩
      exact absurd hmissing (not_someMissing_nil hnamed)
    · rintro missing hmissing'
      obtain rfl := TreeReading.missingNodes.inj hmissing'
      exact ⟨rfl, List.countP_eq_length_filter.symm, hparents, hchildren, currentAbsent_iff,
        hasACycle_iff hkeys⟩
  · rw [if_neg hmissing]
    by_cases hempty : nodes = []
    · subst hempty
      rw [if_pos List.isEmpty_nil]
      refine ⟨⟨⟨?_, ?_⟩, ⟨fun _ => ⟨rfl, ?_⟩, fun _ => rfl⟩, fun missing => nofun,
        fun facts => nofun⟩, rfl⟩
      · exact fun ⟨facts, h⟩ => nomatch h
      · exact fun h => absurd rfl h.nonempty
      · simp only [SomeMissing, not_or, Bool.not_eq_true] at hmissing
        exact not_currentAbsent_iff.mp hmissing.2.2.1
    · have hresolved := (not_someMissing_iff hkeys hempty).mp hmissing
      obtain ⟨first, hfirst⟩ := List.exists_mem_of_ne_nil nodes hempty
      obtain ⟨leaf, hleafMem, hleaf, -⟩ := exists_leaf hkeys hresolved hfirst
      have hleaves : leaf.id ∈ (keys nodes).filter fun id =>
          id ∉ (linkCounts nodes).namedAsParent := mem_leaves.mpr ⟨leaf, hleafMem, rfl, hleaf⟩
      obtain ⟨longest, hlongest, -⟩ := maxByRank_spec
        (List.ne_nil_of_mem (List.mem_map_of_mem (f := branchOf nodes) hleaves))
      have hcurrent : resolvedCurrent nodes current = current := by
        cases current with
        | named id =>
          have hnot : (nodeAt nodes id).isNone = false := by
            rw [← Option.not_isSome, nodeAt_isSome.mpr (hresolved.current id rfl)]
            rfl
          rw [resolvedCurrent, hnot]
          rfl
        | absent => rfl
        | null => rfl
        | unreadable why => rfl
        | unresolved id => rfl
      rw [if_neg (by simpa using hempty), hlongest, hcurrent]
      refine ⟨⟨⟨fun _ => hresolved, fun _ => ⟨_, rfl⟩⟩, ⟨nofun, ?_⟩, fun missing => nofun, ?_⟩, rfl⟩
      · exact fun h => absurd h.1 hempty
      · rintro facts hfacts
        obtain rfl := TreeReading.consistent.inj hfacts
        exact isFacts_of_resolved hkeys hresolved hlongest

end Reading

end ChatStasher.ChatgptExport
