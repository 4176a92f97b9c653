import ChatStasher.Backfill.DetailTrees
import Mathlib.Order.WithBot

/-! Which answers about a conversation tree are right: a response that leaves messages of a tree out,
and what the walk to the root makes of it. -/
namespace ChatStasher.DetailTrees
open JsonText ParentChain

section ClaudeLookup

variable {N : Type*} {messages : List (ClaudeMessage N)} {uuid : Units} {m : ClaudeMessage N}

lemma mem_of_byUuid (h : byUuid messages uuid = some m) : m ∈ messages ∧ m.uuid = uuid := by
  unfold byUuid at h
  exact ⟨List.mem_reverse.mp (List.mem_of_find?_eq_some h), by simpa using List.find?_some h⟩

lemma byUuid_eq_none : byUuid messages uuid = none ↔ ∀ m ∈ messages, m.uuid ≠ uuid := by
  simp [byUuid, List.find?_eq_none]

lemma claudeNode_link {parent : Units} (h : claudeNode messages uuid = .link parent) :
    ∃ m, byUuid messages uuid = some m ∧ m.parent = some parent := by
  unfold claudeNode at h
  split at h
  · exact nomatch h
  next m hm =>
    split at h
    · exact nomatch h
    next p hp =>
      obtain rfl := Node.link.inj h
      exact ⟨m, hm, hp⟩

lemma claudeNode_root (h : claudeNode messages uuid = .root) :
    ∃ m, byUuid messages uuid = some m ∧ m.parent = none := by
  unfold claudeNode at h
  split at h
  · exact nomatch h
  next m hm =>
    split at h
    next hp => exact ⟨m, hm, hp⟩
    · exact nomatch h

lemma claudeNode_absent : claudeNode messages uuid = .absent ↔ byUuid messages uuid = none := by
  unfold claudeNode
  constructor
  · intro h
    split at h
    next hnone => exact hnone
    next =>
      split at h
      · exact nomatch h
      · exact nomatch h
  · intro h
    rw [h]

lemma claudeNode_ne_broken : claudeNode messages uuid ≠ .broken := by
  unfold claudeNode
  split
  · exact nofun
  · split
    · exact nofun
    · exact nofun

lemma claude_walk_isSome (messages : List (ClaudeMessage N)) (leaf : Units) :
    ∃ s, walk (claudeNode messages) (messages.length + 1) [] leaf = some s := by
  have hcarried : ∀ x, claudeNode messages x ≠ .absent → x ∈ messages.map ClaudeMessage.uuid := by
    intro x hx
    obtain ⟨m, hm⟩ := Option.ne_none_iff_exists'.mp (fun hnone => hx (claudeNode_absent.mpr hnone))
    obtain ⟨hmem, rfl⟩ := mem_of_byUuid hm
    exact List.mem_map_of_mem hmem
  exact walk_isSome hcarried (fun x hx => absurd hx List.not_mem_nil) List.nodup_nil (by simp)

end ClaudeLookup

section ClaudePages

variable {N : Type*} {num : Units → N} {text leaf : Units} {fuel : ℕ}
  {messages : List (ClaudeMessage N)}

/-- The response carries the messages and names the leaf. -/
def ClaudeReads (num : Units → N) (text : Units) (messages : List (ClaudeMessage N))
    (leaf : Units) : Prop :=
  ∃ members values, JsonText.parse text = some (.object members) ∧
    (Value.object members).field "chat_messages" = some (.array values) ∧
    List.Forall₂ (fun v m => claudeMessage num v = .ok m) values messages ∧
    nonEmptyString? ((Value.object members).field "current_leaf_message_uuid") = some leaf

lemma claudeMessages_eq_ok {values : List Value} :
    claudeMessages num values = .ok messages ↔
      List.Forall₂ (fun v m => claudeMessage num v = .ok m) values messages := by
  induction values generalizing messages with
  | nil =>
    rw [List.forall₂_nil_left_iff, claudeMessages]
    exact ⟨fun h => (Except.ok.inj h).symm, fun h => by rw [h]⟩
  | cons v vs ih =>
    rw [List.forall₂_cons_left_iff, claudeMessages]
    constructor
    · intro h
      split at h
      · exact nomatch h
      next m hm =>
        split at h
        · exact nomatch h
        next ms hms =>
          obtain rfl := Except.ok.inj h
          exact ⟨m, ms, hm, ih.mp hms, rfl⟩
    · rintro ⟨m, ms, hm, hms, rfl⟩
      rw [hm, ih.mpr hms]

variable [LinearOrder N] [Zero N]

def ClaudeAnswered (num : Units → N) (text : Units) : Prop :=
  ∃ fuel, parseClaudeDetailPage num fuel text = some (some .nonEmpty)

lemma claudeAnswered_iff (h : ClaudeReads num text messages leaf) :
    parseClaudeDetailPage num fuel text = some (some .nonEmpty) ↔
      byUuid messages leaf ≠ none ∧ ∃ chain, claudeBranch fuel messages leaf = some (.ok chain) := by
  obtain ⟨members, values, hparse, hvalues, hmessages, hleaf⟩ := h
  unfold parseClaudeDetailPage parseClaudeDetailTree
  simp only [hparse, hvalues, claudeMessages_eq_ok.mpr hmessages, hleaf]
  cases hmessages with
  | nil => simp [byUuid]
  | @cons v m vs ms hv hvs =>
    dsimp only
    cases hfind : byUuid (m :: ms) leaf with
    | none => simp
    | some top =>
      simp only [Option.isNone_some, Bool.false_eq_true, if_false, ne_eq, reduceCtorEq,
        not_false_eq_true, true_and]
      cases hbranch : claudeBranch fuel (m :: ms) leaf with
      | none => simp
      | some result => cases result <;> simp

lemma reads_of_claudeAnswered (h : parseClaudeDetailPage num fuel text = some (some .nonEmpty)) :
    ∃ messages leaf, ClaudeReads num text messages leaf := by
  unfold parseClaudeDetailPage parseClaudeDetailTree at h
  split at h
  next members hparse =>
    rw [hparse] at h
    dsimp only at h
    split at h
    · exact nomatch Option.some.inj (Option.some.inj h)
    next values hne hvalues =>
      simp only [hvalues] at h
      split at h
      · simp at h
      next messages hmessages =>
        split at h
        · simp at h
        next leaf hleaf =>
          exact ⟨messages, leaf, members, values, hparse, hvalues,
            claudeMessages_eq_ok.mp hmessages, hleaf⟩
    · exact nomatch Option.some.inj h
  · exact nomatch Option.some.inj h

lemma claudeTree_isSome (num : Units → N) (text : Units) :
    ∃ fuel result, parseClaudeDetailTree num fuel text = some result := by
  have hbranch : ∀ (messages : List (ClaudeMessage N)) (leaf : Units),
      ∃ fuel result, claudeBranch fuel messages leaf = some result := by
    intro messages leaf
    obtain ⟨s, hs⟩ := claude_walk_isSome messages leaf
    exact ⟨_, _, by rw [claudeBranch, hs]; rfl⟩
  unfold parseClaudeDetailTree
  split
  · exact ⟨0, _, rfl⟩
  · split
    · split
      · exact ⟨0, _, rfl⟩
      · split
        · exact ⟨0, _, rfl⟩
        · split
          · exact ⟨0, _, rfl⟩
          · exact hbranch _ _
    · exact ⟨0, _, rfl⟩
  · exact ⟨0, _, rfl⟩

lemma claude_isSome (num : Units → N) (text : Units) :
    ∃ fuel result, parseClaudeDetailPage num fuel text = some result := by
  obtain ⟨fuel, result, hresult⟩ := claudeTree_isSome num text
  refine ⟨fuel, ?_⟩
  unfold parseClaudeDetailPage
  split
  · split
    · exact ⟨_, rfl⟩
    · exact ⟨_, by rw [hresult]; rfl⟩
    · exact ⟨_, rfl⟩
  · exact ⟨_, rfl⟩

end ClaudePages

section ClaudeTrees

/-- A message of a conversation tree, as claude.ai writes it. -/
structure TreeMessage (N : Type*) where
  uuid : Units
  parent : Option Units
  index : N

/-- A conversation: each message names an earlier one, and the roots all name one parent that is no
message, or none. -/
structure ClaudeTree (N : Type*) [LinearOrder N] [Zero N] where
  messages : List (TreeMessage N)
  sentinel : Option Units
  distinct : (messages.map TreeMessage.uuid).Nodup
  linked : ∀ m ∈ messages, m.parent = sentinel ∨
    ∃ p ∈ messages, m.parent = some p.uuid ∧ p.index < m.index
  foreign : ∀ s ∈ sentinel, ∀ m ∈ messages, m.uuid ≠ s
  counted : ∀ m ∈ messages, 0 ≤ m.index
  first : messages ≠ [] → ∃ m ∈ messages, m.index = 0

abbrev TreeMessage.read {N : Type*} (m : TreeMessage N) : ClaudeMessage N :=
  ⟨m.uuid, m.parent, some m.index⟩

/-- A response that carries some of a conversation's messages and names a leaf. -/
structure ClaudeResponse {N : Type*} [LinearOrder N] [Zero N] (num : Units → N) where
  tree : ClaudeTree N
  carried : List (TreeMessage N)
  leaf : Units
  text : Units
  subset : ∀ m ∈ carried, m ∈ tree.messages
  reads : ClaudeReads num text (carried.map TreeMessage.read) leaf

variable {N : Type*} [LinearOrder N] [Zero N]

def ClaudeTree.Above (t : ClaudeTree N) (x y : Units) : Prop :=
  ∃ m ∈ t.messages, m.uuid = x ∧ m.parent = some y ∧ ∃ p ∈ t.messages, p.uuid = y

variable {num : Units → N}

namespace ClaudeResponse

variable (r : ClaudeResponse num)

def Carries (uuid : Units) : Prop := ∃ m ∈ r.carried, m.uuid = uuid

def Names (x y : Units) : Prop := ∃ m ∈ r.carried, m.uuid = x ∧ m.parent = some y

/-- The answer is right: non-empty only with every ancestor of the leaf, and with the whole
conversation always. -/
def RightlyAnswered : Prop :=
  (ClaudeAnswered num r.text →
      ∀ a, Relation.ReflTransGen r.tree.Above r.leaf a → r.Carries a) ∧
    ((∀ m ∈ r.tree.messages, m ∈ r.carried) → r.Carries r.leaf → ClaudeAnswered num r.text)

/-- The response is cut just above a regenerated turn: the one parent that is missing has two
children in the response, and the leaf stands under the later one. -/
def CutAboveSiblings : Prop :=
  ∃ cut ∈ r.tree.messages, ¬ r.Carries cut.uuid ∧
    (∀ m ∈ r.carried, ∀ p, m.parent = some p → r.Carries p ∨ p = cut.uuid) ∧
    ∃ top ∈ r.carried, ∃ sibling ∈ r.carried, top.parent = some cut.uuid ∧
      sibling.parent = some cut.uuid ∧ sibling.index < top.index ∧
      Relation.ReflTransGen r.Names r.leaf top.uuid

abbrev messages : List (ClaudeMessage N) := r.carried.map TreeMessage.read

end ClaudeResponse

lemma ClaudeTree.eq_of_uuid (t : ClaudeTree N) {m m' : TreeMessage N} (hm : m ∈ t.messages)
    (hm' : m' ∈ t.messages) (h : m.uuid = m'.uuid) : m = m' :=
  List.inj_on_of_nodup_map t.distinct hm hm' h

/-- How far down a message stands; what is no message stands below all. -/
def ClaudeTree.rank (t : ClaudeTree N) (uuid : Units) : WithBot N :=
  match t.messages.find? fun m => m.uuid = uuid with
  | some m => m.index
  | none => ⊥

lemma ClaudeTree.rank_of_mem (t : ClaudeTree N) {m : TreeMessage N} (hm : m ∈ t.messages) :
    t.rank m.uuid = m.index := by
  unfold ClaudeTree.rank
  cases hfind : t.messages.find? fun m' => m'.uuid = m.uuid with
  | none =>
    have hnone := List.find?_eq_none.mp hfind m hm
    exact absurd (decide_eq_true rfl) hnone
  | some m' =>
    have hmem := List.mem_of_find?_eq_some hfind
    have huuid : m'.uuid = m.uuid := by simpa using List.find?_some hfind
    rw [t.eq_of_uuid hmem hm huuid]

lemma ClaudeTree.rank_of_foreign (t : ClaudeTree N) {s : Units} (hs : s ∈ t.sentinel) :
    t.rank s = ⊥ := by
  unfold ClaudeTree.rank
  rw [List.find?_eq_none.mpr fun m hm => by simpa using t.foreign s hs m hm]

lemma ClaudeTree.rank_lt (t : ClaudeTree N) {m : TreeMessage N} (hm : m ∈ t.messages)
    {p : Units} (hp : m.parent = some p) : t.rank p < t.rank m.uuid := by
  rw [t.rank_of_mem hm]
  rcases t.linked m hm with hsentinel | ⟨parent, hparent, hlink, hlt⟩
  · rw [t.rank_of_foreign (hsentinel ▸ hp)]
    exact WithBot.bot_lt_coe _
  · obtain rfl := Option.some.inj (hp.symm.trans hlink)
    rw [t.rank_of_mem hparent]
    exact WithBot.coe_lt_coe.mpr hlt

namespace ClaudeResponse

variable {r : ClaudeResponse num} {m : TreeMessage N} {uuid : Units}

lemma byUuid_messages (hm : m ∈ r.carried) : byUuid r.messages m.uuid = some m.read := by
  cases hfind : byUuid r.messages m.uuid with
  | none => exact absurd rfl (byUuid_eq_none.mp hfind m.read (List.mem_map_of_mem hm))
  | some x =>
    obtain ⟨hx, huuid⟩ := mem_of_byUuid hfind
    obtain ⟨m', hm', rfl⟩ := List.mem_map.mp hx
    rw [r.tree.eq_of_uuid (r.subset m' hm') (r.subset m hm) huuid]

lemma carries_iff : r.Carries uuid ↔ byUuid r.messages uuid ≠ none := by
  constructor
  · rintro ⟨m, hm, rfl⟩
    rw [byUuid_messages hm]
    exact nofun
  · intro h
    obtain ⟨x, hx⟩ := Option.ne_none_iff_exists'.mp h
    obtain ⟨hmem, rfl⟩ := mem_of_byUuid hx
    obtain ⟨m, hm, rfl⟩ := List.mem_map.mp hmem
    exact ⟨m, hm, rfl⟩

lemma node_of_names {p : Units} (h : r.Names uuid p) : claudeNode r.messages uuid = .link p := by
  obtain ⟨m, hm, rfl, hp⟩ := h
  unfold claudeNode
  rw [byUuid_messages hm]
  simp only [TreeMessage.read, hp]

lemma names_of_node {p : Units} (h : claudeNode r.messages uuid = .link p) : r.Names uuid p := by
  obtain ⟨x, hx, hp⟩ := claudeNode_link h
  obtain ⟨hmem, rfl⟩ := mem_of_byUuid hx
  obtain ⟨m, hm, rfl⟩ := List.mem_map.mp hmem
  exact ⟨m, hm, rfl, hp⟩

lemma rank_of_node (x p : Units) (h : claudeNode r.messages x = .link p) :
    r.tree.rank p < r.tree.rank x := by
  obtain ⟨m, hm, rfl, hp⟩ := names_of_node h
  exact r.tree.rank_lt (r.subset m hm) hp

lemma above_of_node (x p : Units) (h : claudeNode r.messages x = .link p) (y : Units)
    (hy : r.tree.Above x y) : y = p := by
  obtain ⟨m, hm, rfl, hp⟩ := names_of_node h
  obtain ⟨m', hm', huuid, hparent, -⟩ := hy
  rw [r.tree.eq_of_uuid hm' (r.subset m hm) huuid] at hparent
  exact Option.some.inj (hparent.symm.trans hp)

lemma not_above_of_root (x : Units) (h : claudeNode r.messages x = .root) (y : Units) :
    ¬ r.tree.Above x y := by
  rintro ⟨m', hm', huuid, hparent, -⟩
  obtain ⟨z, hz, hnone⟩ := claudeNode_root h
  obtain ⟨hmem, rfl⟩ := mem_of_byUuid hz
  obtain ⟨m, hm, rfl⟩ := List.mem_map.mp hmem
  rw [r.tree.eq_of_uuid hm' (r.subset m hm) huuid] at hparent
  exact nomatch hparent.symm.trans hnone

lemma mem_of_above {x a : Units} (hx : ∃ m ∈ r.tree.messages, m.uuid = x)
    (h : Relation.ReflTransGen r.tree.Above x a) : ∃ m ∈ r.tree.messages, m.uuid = a := by
  induction h with
  | refl => exact hx
  | tail _ hy =>
    obtain ⟨-, -, -, -, hmem⟩ := hy
    exact hmem

lemma exists_climb {x y : Units} (h : Relation.ReflTransGen r.Names x y) :
    ∃ chain, Climb (claudeNode r.messages) x chain y := by
  induction h with
  | refl => exact ⟨[], .here⟩
  | tail _ hy ih =>
    obtain ⟨chain, hclimb⟩ := ih
    exact ⟨_, hclimb.up (node_of_names hy)⟩

/-- A climb that stops at a parent that is not carried came through a carried message that names
it. -/
lemma exists_top {leaf p : Units} {chain : List Units} (hleaf : r.Carries leaf)
    (h : Climb (claudeNode r.messages) leaf chain p) (hp : ¬ r.Carries p) :
    ∃ top ∈ r.carried, top.parent = some p ∧ chain.getLast? = some top.uuid ∧
      Relation.ReflTransGen r.Names leaf top.uuid := by
  cases h with
  | here => exact absurd hleaf hp
  | up hbelow hlink =>
    obtain ⟨top, htop, rfl, hparent⟩ := names_of_node hlink
    exact ⟨top, htop, hparent, List.getLast?_concat, hbelow.above fun x p h => names_of_node h⟩

lemma answered_iff : ClaudeAnswered num r.text ↔
    r.Carries r.leaf ∧ ∃ fuel chain, claudeBranch fuel r.messages r.leaf = some (.ok chain) := by
  unfold ClaudeAnswered
  simp only [claudeAnswered_iff r.reads, carries_iff]
  exact exists_and_left

lemma branch_eq_ok {fuel : ℕ} {out : List Units}
    (h : claudeBranch fuel r.messages r.leaf = some (.ok out)) :
    (∃ chain, walk (claudeNode r.messages) fuel [] r.leaf = some (.root chain)) ∨
      ∃ chain p, walk (claudeNode r.messages) fuel [] r.leaf = some (.absent chain p) ∧
        absentParentIsBranchRoot r.messages chain p := by
  unfold claudeBranch at h
  cases hwalk : walk (claudeNode r.messages) fuel [] r.leaf with
  | none =>
    rw [hwalk] at h
    exact nomatch h
  | some s =>
    rw [hwalk] at h
    cases s with
    | revisit => exact nomatch Option.some.inj h
    | root chain => exact .inl ⟨chain, rfl⟩
    | absent chain p =>
      refine .inr ⟨chain, p, rfl, ?_⟩
      simp only [Option.map_some, Option.some.injEq] at h
      split at h
      next hroot => exact hroot
      next => exact nomatch h
    | broken => exact nomatch Option.some.inj h

lemma branchRoot_iff {chain : List Units} {p : Units} {top : TreeMessage N}
    (htop : top ∈ r.carried) (hlast : chain.getLast? = some top.uuid) :
    absentParentIsBranchRoot r.messages chain p ↔
      (∀ m ∈ r.carried, ∀ q, m.parent = some q → r.Carries q ∨ q = p) ∧
        (top.index = 0 ∨ 0 < top.index ∧ ∃ sibling ∈ r.carried, sibling.uuid ≠ top.uuid ∧
          sibling.parent = some p ∧ sibling.index < top.index) := by
  unfold absentParentIsBranchRoot
  rw [hlast, Option.bind_some, byUuid_messages htop]
  have hall : (r.messages.all fun m => m.parent.all fun parent =>
      (byUuid r.messages parent).isSome || parent = p) ↔
      ∀ m ∈ r.carried, ∀ q, m.parent = some q → r.Carries q ∨ q = p := by
    simp [Option.all_eq_true, carries_iff, Option.isSome_iff_ne_none]
  rw [Bool.and_eq_true, hall]
  simp [and_assoc]

lemma parent_cases {p : Units} (hm : m ∈ r.carried) (hp : m.parent = some p) :
    (p ∈ r.tree.sentinel) ∨ ∃ cut ∈ r.tree.messages, cut.uuid = p ∧ cut.index < m.index := by
  rcases r.tree.linked m (r.subset m hm) with hsentinel | ⟨cut, hcut, hlink, hlt⟩
  · exact .inl (hsentinel ▸ hp)
  · exact .inr ⟨cut, hcut, Option.some.inj (hlink.symm.trans hp), hlt⟩

lemma carries_of_answered (hcut : ¬ r.CutAboveSiblings) (h : ClaudeAnswered num r.text)
    (a : Units) (ha : Relation.ReflTransGen r.tree.Above r.leaf a) : r.Carries a := by
  obtain ⟨hleaf, fuel, out, hbranch⟩ := answered_iff.mp h
  rcases branch_eq_ok hbranch with ⟨chain, hwalk⟩ | ⟨chain, p, hwalk, hroot⟩
  · have hmem := mem_of_root above_of_node not_above_of_root hwalk ha
    exact carries_iff.mpr fun hnone =>
      not_absent_of_root hwalk hmem (claudeNode_absent.mpr hnone)
  · obtain ⟨hclimb, habsent⟩ := walk_holds .here hwalk
    have hp : ¬ r.Carries p := fun hp => carries_iff.mp hp (claudeNode_absent.mp habsent)
    obtain ⟨top, htop, hparent, hlast, hnames⟩ := exists_top hleaf hclimb hp
    obtain ⟨hshared, hindex⟩ := (branchRoot_iff htop hlast).mp hroot
    rcases parent_cases htop hparent with hsentinel | ⟨cut, hcutMem, rfl, hlt⟩
    · -- The walk stopped at the parent of the roots: all that lies above the leaf has been passed.
      obtain ⟨b, hb, rfl⟩ := mem_of_above
        (by obtain ⟨l, hl, huuid⟩ := hleaf; exact ⟨l, r.subset l hl, huuid⟩) ha
      rcases hclimb.passed_or_above above_of_node ha with hmem | habove
      · obtain ⟨q, hq⟩ := hclimb.of_mem hmem
        obtain ⟨m, hm, huuid, -⟩ := names_of_node hq
        exact ⟨m, hm, huuid⟩
      · rcases habove.cases_head with heq | ⟨y, ⟨m, hm, huuid, -⟩, -⟩
        · exact absurd heq.symm (r.tree.foreign p hsentinel b hb)
        · exact absurd huuid (r.tree.foreign p hsentinel m hm)
    · -- A dropped message: its index is not negative, so an accepted one has a sibling before it.
      have hpositive := (r.tree.counted cut hcutMem).trans_lt hlt
      obtain ⟨-, sibling, hsibling, -, hlink, hbefore⟩ :=
        hindex.resolve_left (ne_of_gt hpositive)
      exact absurd ⟨cut, hcutMem, hp, hshared, top, htop, sibling, hsibling, hparent, hlink,
        hbefore, hnames⟩ hcut

lemma answered_of_whole (hwhole : ∀ m ∈ r.tree.messages, m ∈ r.carried)
    (hleaf : r.Carries r.leaf) : ClaudeAnswered num r.text := by
  refine answered_iff.mpr ⟨hleaf, ?_⟩
  obtain ⟨s, hwalk⟩ := claude_walk_isSome r.messages r.leaf
  refine ⟨r.messages.length + 1, ?_⟩
  unfold claudeBranch
  rw [hwalk]
  cases s with
  | revisit => exact absurd hwalk (not_revisit rank_of_node)
  | root chain => exact ⟨_, rfl⟩
  | broken =>
    obtain ⟨-, x, -, hx⟩ := walk_holds .here hwalk
    exact absurd hx claudeNode_ne_broken
  | absent chain p =>
    obtain ⟨hclimb, habsent⟩ := walk_holds .here hwalk
    have hp : ¬ r.Carries p := fun hp => carries_iff.mp hp (claudeNode_absent.mp habsent)
    obtain ⟨top, htop, hparent, hlast, -⟩ := exists_top hleaf hclimb hp
    have hforeign : ∀ m ∈ r.carried, ∀ q, m.parent = some q → ¬ r.Carries q →
        q ∈ r.tree.sentinel := by
      intro m hm q hq hnot
      refine (parent_cases hm hq).resolve_right ?_
      rintro ⟨cut, hcut, rfl, -⟩
      exact hnot ⟨cut, hwhole cut hcut, rfl⟩
    have hsentinel := hforeign top htop p hparent hp
    have hroot : absentParentIsBranchRoot r.messages chain p := by
      refine (branchRoot_iff htop hlast).mpr ⟨fun m hm q hq => ?_, ?_⟩
      · by_cases hnot : r.Carries q
        · exact .inl hnot
        · exact .inr (Option.mem_unique (hforeign m hm q hq hnot) hsentinel)
      · rcases (r.tree.counted top (r.subset top htop)).eq_or_lt with hzero | hpositive
        · exact .inl hzero.symm
        · obtain ⟨first, hfirst, hzero⟩ :=
            r.tree.first (List.ne_nil_of_mem (r.subset top htop))
          refine .inr ⟨hpositive, first, hwhole first hfirst, ?_, ?_, by rwa [hzero]⟩
          · intro huuid
            rw [r.tree.eq_of_uuid hfirst (r.subset top htop) huuid] at hzero
            exact hpositive.ne' hzero
          · rcases r.tree.linked first hfirst with hlink | ⟨q, hq, -, hlt⟩
            · exact hlink.trans hsentinel
            · exact absurd ((r.tree.counted q hq).trans_lt hlt) (by rw [hzero]; exact lt_irrefl _)
    exact ⟨chain.reverse, by rw [Option.map_some]; simp only [hroot, if_true]⟩

/-- A response that is cut above siblings is answered non-empty, without the ancestor that was
cut. -/
lemma not_rightly_of_cut (hcut : r.CutAboveSiblings) : ¬ r.RightlyAnswered := by
  obtain ⟨cut, hcutMem, hnot, hshared, top, htop, sibling, hsibling, hparent, hlink, hbefore,
    hnames⟩ := hcut
  rintro ⟨hright, -⟩
  have habsent : claudeNode r.messages cut.uuid = .absent :=
    claudeNode_absent.mpr (not_not.mp fun h => hnot (carries_iff.mpr h))
  have habove : Relation.ReflTransGen r.tree.Above r.leaf top.uuid := by
    refine hnames.head_induction_on .refl fun {x y} hxy hrest ih => .head ?_ ih
    obtain ⟨m, hm, huuid, hp⟩ := hxy
    refine ⟨m, r.subset m hm, huuid, hp, ?_⟩
    rcases hrest.cases_head with heq | ⟨z, ⟨m', hm', huuid', -⟩, -⟩
    · exact ⟨top, r.subset top htop, heq.symm⟩
    · exact ⟨m', r.subset m' hm', huuid'⟩
  have hleaf : r.Carries r.leaf := by
    rcases hnames.cases_head with heq | ⟨z, ⟨m, hm, huuid, -⟩, -⟩
    · exact ⟨top, htop, heq.symm⟩
    · exact ⟨m, hm, huuid⟩
  obtain ⟨chain, hclimb⟩ := exists_climb hnames
  have hclimb' := hclimb.up (node_of_names ⟨top, htop, rfl, hparent⟩)
  have hwalk := walk_climb (n := 1) rank_of_node hclimb'
  have hnew : cut.uuid ∉ chain ++ [top.uuid] := by
    intro hmem
    obtain ⟨p, hp⟩ := hclimb'.of_mem hmem
    exact nomatch hp.symm.trans habsent
  have hstop : walk (claudeNode r.messages) 1 (chain ++ [top.uuid]) cut.uuid =
      some (.absent (chain ++ [top.uuid]) cut.uuid) := by
    rw [walk, if_neg hnew, habsent]
  rw [hstop] at hwalk
  have hroot : absentParentIsBranchRoot r.messages (chain ++ [top.uuid]) cut.uuid := by
    refine (branchRoot_iff htop List.getLast?_concat).mpr ⟨hshared, .inr ⟨?_, sibling, hsibling,
      ?_, hlink, hbefore⟩⟩
    · exact (r.tree.counted sibling (r.subset sibling hsibling)).trans_lt hbefore
    · intro huuid
      rw [r.tree.eq_of_uuid (r.subset sibling hsibling) (r.subset top htop) huuid] at hbefore
      exact lt_irrefl _ hbefore
  have hanswered : ClaudeAnswered num r.text := by
    refine answered_iff.mpr ⟨hleaf, 1 + (chain ++ [top.uuid]).length,
      (chain ++ [top.uuid]).reverse, ?_⟩
    unfold claudeBranch
    rw [hwalk, Option.map_some]
    simp only [hroot, if_true]
  refine hnot (hright hanswered cut.uuid (habove.tail ?_))
  exact ⟨top, r.subset top htop, rfl, hparent, cut, hcutMem, rfl⟩

theorem rightlyAnswered_iff (r : ClaudeResponse num) :
    r.RightlyAnswered ↔ ¬ r.CutAboveSiblings :=
  ⟨fun hright hcut => not_rightly_of_cut hcut hright,
    fun hcut => ⟨carries_of_answered hcut, answered_of_whole⟩⟩

end ClaudeResponse

end ClaudeTrees

end ChatStasher.DetailTrees
