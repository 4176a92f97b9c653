import ChatStasher.Backfill.WholeTrees

/-! The DeepSeek walk, which knows a root by its null parent; and what both walks answer about
responses that are no part of any tree. -/
namespace ChatStasher.DetailTrees
open JsonText ParentChain

section DeepSeekLookup

variable {N : Type*} [DecidableEq N] {messages : List (DeepSeekMessage N)} {messageId : N}
  {m : DeepSeekMessage N}

lemma mem_of_byId (h : byId messages messageId = some m) :
    m ∈ messages ∧ m.messageId = messageId := by
  unfold byId at h
  exact ⟨List.mem_of_find?_eq_some h, by simpa using List.find?_some h⟩

lemma byId_eq_none : byId messages messageId = none ↔ ∀ m ∈ messages, m.messageId ≠ messageId := by
  simp [byId, List.find?_eq_none]

lemma deepSeekNode_cases (h : deepSeekNode messages messageId ≠ .absent) :
    ∃ m ∈ messages, m.messageId = messageId ∧ m.parent = deepSeekNode messages messageId := by
  unfold deepSeekNode at h ⊢
  cases hfind : byId messages messageId with
  | none =>
    rw [hfind] at h
    exact absurd rfl h
  | some m => exact ⟨m, (mem_of_byId hfind).1, (mem_of_byId hfind).2, rfl⟩

lemma deepSeek_walk_isSome (messages : List (DeepSeekMessage N)) (leaf : N) :
    ∃ s, walk (deepSeekNode messages) (messages.length + 1) [] leaf = some s := by
  have hcarried : ∀ x, deepSeekNode messages x ≠ .absent →
      x ∈ messages.map DeepSeekMessage.messageId := by
    intro x hx
    obtain ⟨m, hm, rfl, -⟩ := deepSeekNode_cases hx
    exact List.mem_map_of_mem hm
  exact walk_isSome hcarried (fun x hx => absurd hx List.not_mem_nil) List.nodup_nil (by simp)

end DeepSeekLookup

section DeepSeekPages

variable {N : Type*} [DecidableEq N] {num : Units → N} {finite : N → Bool} {text : Units}
  {leaf : N} {fuel : ℕ} {messages : List (DeepSeekMessage N)} {values : List Value}

/-- The value is an object with this id and this parent. -/
def DeepSeekReadsAs (num : Units → N) (finite : N → Bool) (v : Value)
    (m : DeepSeekMessage N) : Prop :=
  ∃ members, v = .object members ∧
    finiteNumber? num finite (v.field "message_id") = some m.messageId ∧
    deepSeekParentOf num finite v = m.parent

/-- The response carries the messages and names the leaf. -/
def DeepSeekReads (num : Units → N) (finite : N → Bool) (text : Units)
    (messages : List (DeepSeekMessage N)) (leaf : N) : Prop :=
  ∃ biz values session, (JsonText.parse text).bind bizData = some biz ∧
    biz.field "chat_messages" = some (.array values) ∧
    biz.field "chat_session" = some (.object session) ∧
    List.Forall₂ (DeepSeekReadsAs num finite) values messages ∧
    finiteNumber? num finite ((Value.object session).field "current_message_id") = some leaf

def DeepSeekAnswered (num : Units → N) (finite : N → Bool) (text : Units) : Prop :=
  ∃ fuel, parseDeepSeekDetailPage num finite fuel text = some (some .nonEmpty)

lemma deepSeekMessages_of_reads {read : List (DeepSeekMessage N)}
    (h : List.Forall₂ (DeepSeekReadsAs num finite) values messages)
    (hnodup : ((read ++ messages).map DeepSeekMessage.messageId).Nodup) :
    deepSeekMessages num finite read values = .ok (read ++ messages) := by
  induction h generalizing read with
  | nil => rw [deepSeekMessages, List.append_nil]
  | @cons v m vs ms hv _ ih =>
    obtain ⟨members, rfl, hid, hparent⟩ := hv
    have hnew : byId read m.messageId = none := by
      refine byId_eq_none.mpr fun m' hm' heq => ?_
      rw [List.map_append, List.nodup_append] at hnodup
      exact hnodup.2.2 _ (List.mem_map_of_mem hm') _ (List.mem_map_of_mem List.mem_cons_self) heq
    rw [deepSeekMessages, hid, hparent]
    dsimp only
    rw [hnew, if_neg (by simp), ih (by simpa using hnodup)]
    simp

lemma reads_of_deepSeekMessages {read out : List (DeepSeekMessage N)}
    (h : deepSeekMessages num finite read values = .ok out) :
    ∃ messages, out = read ++ messages ∧
      List.Forall₂ (DeepSeekReadsAs num finite) values messages := by
  induction values generalizing read with
  | nil =>
    obtain rfl := Except.ok.inj h
    exact ⟨[], (List.append_nil _).symm, .nil⟩
  | cons v vs ih =>
    cases v with
    | object members =>
      rw [deepSeekMessages] at h
      split at h
      · exact nomatch h
      next messageId hid =>
        split at h
        · exact nomatch h
        · obtain ⟨messages, rfl, hmessages⟩ := ih h
          exact ⟨⟨messageId, deepSeekParentOf num finite (.object members)⟩ :: messages, by simp,
            .cons ⟨members, rfl, hid, rfl⟩ hmessages⟩
    | _ => exact nomatch h

lemma deepSeekAnswered_iff (h : DeepSeekReads num finite text messages leaf)
    (hnodup : (messages.map DeepSeekMessage.messageId).Nodup) :
    parseDeepSeekDetailPage num finite fuel text = some (some .nonEmpty) ↔
      byId messages leaf ≠ none ∧ deepSeekBranch fuel messages leaf = some (.ok ()) := by
  obtain ⟨biz, values, session, hbiz, hvalues, hsession, hmessages, hleaf⟩ := h
  have hread : deepSeekMessages num finite [] values = .ok ([] ++ messages) :=
    deepSeekMessages_of_reads hmessages (by simpa using hnodup)
  rw [List.nil_append] at hread
  unfold parseDeepSeekDetailPage parseDeepSeekDetailTree
  simp only [hbiz, hvalues, hsession, hleaf, hread]
  cases hmessages with
  | nil => simp [byId]
  | @cons v m vs ms hv hvs =>
    dsimp only
    cases hfind : byId (m :: ms) leaf with
    | none => simp
    | some top =>
      simp only [Option.isNone_some, Bool.false_eq_true, if_false, ne_eq, reduceCtorEq,
        not_false_eq_true, true_and]
      cases hbranch : deepSeekBranch fuel (m :: ms) leaf with
      | none => simp
      | some result =>
        cases result with
        | ok _ => simp
        | error e => cases e <;> simp

lemma reads_of_deepSeekAnswered
    (h : parseDeepSeekDetailPage num finite fuel text = some (some .nonEmpty)) :
    ∃ messages leaf, DeepSeekReads num finite text messages leaf ∧
      byId messages leaf ≠ none ∧ deepSeekBranch fuel messages leaf = some (.ok ()) := by
  unfold parseDeepSeekDetailPage at h
  split at h
  · exact nomatch Option.some.inj h
  next biz hbiz =>
    split at h
    · exact nomatch Option.some.inj (Option.some.inj h)
    next values hne hvalues =>
      obtain ⟨result, hresult, hok⟩ := Option.map_eq_some_iff.mp h
      unfold parseDeepSeekDetailTree at hresult
      rw [hbiz] at hresult
      dsimp only at hresult
      rw [hvalues] at hresult
      cases result with
      | error e => cases e <;> exact absurd hok nofun
      | ok u =>
        split at hresult
        next values' session hvalues' hsession =>
          obtain rfl := Value.array.inj (Option.some.inj hvalues')
          split at hresult
          · exact nomatch Option.some.inj hresult
          next leaf hleaf =>
            split at hresult
            · exact nomatch Option.some.inj hresult
            next messages hmessages =>
              split at hresult
              · exact nomatch Option.some.inj hresult
              next hfound =>
                obtain ⟨ms, hms, hreads⟩ := reads_of_deepSeekMessages hmessages
                obtain rfl : messages = ms := hms
                refine ⟨messages, leaf, ⟨biz, values, session, hbiz, hvalues, hsession, hreads, hleaf⟩,
                  ?_, hresult⟩
                simpa using hfound
        · exact nomatch Option.some.inj hresult
    · exact nomatch Option.some.inj h

def DeepSeekEndsAtRoot (messages : List (DeepSeekMessage N)) (leaf : N) : Prop :=
  ∃ below top, Climb (deepSeekNode messages) leaf below top ∧ deepSeekNode messages top = .root

lemma deepSeek_endsAtRoot (h : deepSeekBranch fuel messages leaf = some (.ok ())) :
    DeepSeekEndsAtRoot messages leaf := by
  unfold deepSeekBranch at h
  obtain ⟨s, hwalk, hok⟩ := Option.map_eq_some_iff.mp h
  cases s with
  | root chain =>
    obtain ⟨below, top, -, hclimb, htop⟩ := walk_holds .here hwalk
    exact ⟨below, top, hclimb, htop⟩
  | _ => exact nomatch hok

lemma deepSeek_isSome (num : Units → N) (finite : N → Bool) (text : Units) :
    ∃ fuel result, parseDeepSeekDetailPage num finite fuel text = some result := by
  have hbranch : ∀ (messages : List (DeepSeekMessage N)) (leaf : N),
      ∃ fuel result, deepSeekBranch fuel messages leaf = some result := by
    intro messages leaf
    obtain ⟨s, hs⟩ := deepSeek_walk_isSome messages leaf
    exact ⟨_, _, by rw [deepSeekBranch, hs]; rfl⟩
  have htree : ∃ fuel result, parseDeepSeekDetailTree num finite fuel text = some result := by
    unfold parseDeepSeekDetailTree
    split
    · exact ⟨0, _, rfl⟩
    · split
      · split
        · exact ⟨0, _, rfl⟩
        · split
          · exact ⟨0, _, rfl⟩
          · split
            · exact ⟨0, _, rfl⟩
            · exact hbranch _ _
      · exact ⟨0, _, rfl⟩
  obtain ⟨fuel, result, hresult⟩ := htree
  refine ⟨fuel, ?_⟩
  unfold parseDeepSeekDetailPage
  split
  · exact ⟨_, rfl⟩
  · split
    · exact ⟨_, rfl⟩
    · exact ⟨_, by rw [hresult]; rfl⟩
    · exact ⟨_, rfl⟩

end DeepSeekPages

section DeepSeekTrees

structure DeepSeekTreeMessage (N : Type*) where
  messageId : N
  parent : Option N

/-- A conversation: a message has null for its parent or names one that is nearer to a root. -/
structure DeepSeekTree (N : Type*) where
  messages : List (DeepSeekTreeMessage N)
  depth : N → ℕ
  distinct : (messages.map DeepSeekTreeMessage.messageId).Nodup
  linked : ∀ m ∈ messages, ∀ p, m.parent = some p →
    (∃ q ∈ messages, q.messageId = p) ∧ depth p < depth m.messageId

abbrev DeepSeekTreeMessage.read {N : Type*} (m : DeepSeekTreeMessage N) : DeepSeekMessage N :=
  ⟨m.messageId, m.parent.elim .root .link⟩

/-- A response that carries some of a conversation's messages and names a leaf. -/
structure DeepSeekResponse {N : Type*} (num : Units → N) (finite : N → Bool) where
  tree : DeepSeekTree N
  carried : List (DeepSeekTreeMessage N)
  leaf : N
  text : Units
  subset : ∀ m ∈ carried, m ∈ tree.messages
  once : carried.Nodup
  reads : DeepSeekReads num finite text (carried.map DeepSeekTreeMessage.read) leaf

variable {N : Type*}

def DeepSeekTree.Above (t : DeepSeekTree N) (x y : N) : Prop :=
  ∃ m ∈ t.messages, m.messageId = x ∧ m.parent = some y

variable [DecidableEq N] {num : Units → N} {finite : N → Bool}

namespace DeepSeekResponse

variable (r : DeepSeekResponse num finite)

def Carries (messageId : N) : Prop := ∃ m ∈ r.carried, m.messageId = messageId

/-- The answer is right: non-empty only with every ancestor of the leaf, and with the whole
conversation always. -/
def RightlyAnswered : Prop :=
  (DeepSeekAnswered num finite r.text →
      ∀ a, Relation.ReflTransGen r.tree.Above r.leaf a → r.Carries a) ∧
    ((∀ m ∈ r.tree.messages, m ∈ r.carried) → r.Carries r.leaf →
      DeepSeekAnswered num finite r.text)

abbrev messages : List (DeepSeekMessage N) := r.carried.map DeepSeekTreeMessage.read

variable {r} {m : DeepSeekTreeMessage N} {messageId : N}

omit [DecidableEq N] in
lemma eq_of_id {m' : DeepSeekTreeMessage N} (hm : m ∈ r.tree.messages)
    (hm' : m' ∈ r.tree.messages) (h : m.messageId = m'.messageId) : m = m' :=
  List.inj_on_of_nodup_map r.tree.distinct hm hm' h

omit [DecidableEq N] in
lemma apart : (r.messages.map DeepSeekMessage.messageId).Nodup := by
  rw [List.map_map]
  exact List.Nodup.map_on
    (fun m hm m' hm' heq => eq_of_id (r.subset m hm) (r.subset m' hm') heq) r.once

lemma carries_iff : r.Carries messageId ↔ byId r.messages messageId ≠ none := by
  constructor
  · rintro ⟨m, hm, rfl⟩ hnone
    exact byId_eq_none.mp hnone m.read (List.mem_map_of_mem hm) rfl
  · intro h
    obtain ⟨x, hx⟩ := Option.ne_none_iff_exists'.mp h
    obtain ⟨hmem, rfl⟩ := mem_of_byId hx
    obtain ⟨m, hm, rfl⟩ := List.mem_map.mp hmem
    exact ⟨m, hm, rfl⟩

lemma node_cases (h : deepSeekNode r.messages messageId ≠ .absent) :
    ∃ m ∈ r.carried, m.messageId = messageId ∧
      deepSeekNode r.messages messageId = m.parent.elim .root .link := by
  obtain ⟨x, hx, hid, hparent⟩ := deepSeekNode_cases h
  obtain ⟨m, hm, rfl⟩ := List.mem_map.mp hx
  exact ⟨m, hm, hid, hparent.symm⟩

lemma node_link {p : N} (h : deepSeekNode r.messages messageId = .link p) :
    ∃ m ∈ r.carried, m.messageId = messageId ∧ m.parent = some p := by
  obtain ⟨m, hm, hid, hnode⟩ := node_cases (r := r) (by rw [h]; exact nofun)
  rw [h] at hnode
  cases hparent : m.parent with
  | none =>
    rw [hparent] at hnode
    exact nomatch hnode
  | some q =>
    rw [hparent] at hnode
    obtain rfl := Node.link.inj hnode
    exact ⟨m, hm, hid, hparent⟩

lemma node_ne_broken : deepSeekNode r.messages messageId ≠ .broken := by
  intro h
  obtain ⟨m, -, -, hnode⟩ := node_cases (r := r) (by rw [h]; exact nofun)
  rw [h] at hnode
  cases hparent : m.parent with
  | none =>
    rw [hparent] at hnode
    exact nomatch hnode
  | some q =>
    rw [hparent] at hnode
    exact nomatch hnode

lemma rank_of_node (x p : N) (h : deepSeekNode r.messages x = .link p) :
    r.tree.depth p < r.tree.depth x := by
  obtain ⟨m, hm, rfl, hparent⟩ := node_link h
  exact (r.tree.linked m (r.subset m hm) p hparent).2

lemma above_of_node (x p : N) (h : deepSeekNode r.messages x = .link p) (y : N)
    (hy : r.tree.Above x y) : y = p := by
  obtain ⟨m, hm, rfl, hparent⟩ := node_link h
  obtain ⟨m', hm', hid, hparent'⟩ := hy
  rw [eq_of_id hm' (r.subset m hm) hid] at hparent'
  exact Option.some.inj (hparent'.symm.trans hparent)

lemma not_above_of_root (x : N) (h : deepSeekNode r.messages x = .root) (y : N) :
    ¬ r.tree.Above x y := by
  rintro ⟨m', hm', hid, hparent'⟩
  obtain ⟨m, hm, hid', hnode⟩ := node_cases (r := r) (by rw [h]; exact nofun)
  rw [eq_of_id hm' (r.subset m hm) (hid.trans hid'.symm)] at hparent'
  rw [h, hparent'] at hnode
  exact nomatch hnode

lemma carries_of_answered (h : DeepSeekAnswered num finite r.text) (a : N)
    (ha : Relation.ReflTransGen r.tree.Above r.leaf a) : r.Carries a := by
  obtain ⟨fuel, hpage⟩ := h
  obtain ⟨-, hbranch⟩ := (deepSeekAnswered_iff r.reads apart).mp hpage
  unfold deepSeekBranch at hbranch
  obtain ⟨s, hwalk, hok⟩ := Option.map_eq_some_iff.mp hbranch
  cases s with
  | root chain =>
    have hmem := mem_of_root above_of_node not_above_of_root hwalk ha
    obtain ⟨m, hm, hid, -⟩ := node_cases (not_absent_of_root hwalk hmem)
    exact ⟨m, hm, hid⟩
  | _ => exact nomatch hok

lemma carries_of_climb (hwhole : ∀ m ∈ r.tree.messages, m ∈ r.carried) {start current : N}
    {chain : List N} (hstart : r.Carries start)
    (h : Climb (deepSeekNode r.messages) start chain current) : r.Carries current := by
  cases h with
  | here => exact hstart
  | up _ hlink =>
    obtain ⟨m, hm, -, hparent⟩ := node_link hlink
    obtain ⟨⟨q, hq, hid⟩, -⟩ := r.tree.linked m (r.subset m hm) _ hparent
    exact ⟨q, hwhole q hq, hid⟩

lemma answered_of_whole (hwhole : ∀ m ∈ r.tree.messages, m ∈ r.carried)
    (hleaf : r.Carries r.leaf) : DeepSeekAnswered num finite r.text := by
  obtain ⟨s, hwalk⟩ := deepSeek_walk_isSome r.messages r.leaf
  refine ⟨r.messages.length + 1,
    (deepSeekAnswered_iff r.reads apart).mpr ⟨carries_iff.mp hleaf, ?_⟩⟩
  unfold deepSeekBranch
  rw [hwalk]
  cases s with
  | revisit => exact absurd hwalk (not_revisit rank_of_node)
  | root chain => rfl
  | broken =>
    obtain ⟨-, x, -, hx⟩ := walk_holds .here hwalk
    exact absurd hx node_ne_broken
  | absent chain p =>
    obtain ⟨hclimb, habsent⟩ := walk_holds .here hwalk
    have hfound := carries_iff.mp (carries_of_climb hwhole hleaf hclimb)
    unfold deepSeekNode at habsent
    cases hfind : byId r.messages p with
    | none => exact absurd hfind hfound
    | some x =>
      obtain ⟨hmem, rfl⟩ := mem_of_byId hfind
      obtain ⟨m, -, rfl⟩ := List.mem_map.mp hmem
      rw [hfind] at habsent
      cases hparent : m.parent <;> simp [hparent] at habsent

theorem rightlyAnswered (r : DeepSeekResponse num finite) : r.RightlyAnswered :=
  ⟨carries_of_answered, answered_of_whole⟩

end DeepSeekResponse

end DeepSeekTrees

section Finding

variable {N : Type*} [LinearOrder N] [Zero N]

/-- The chain from a leaf ends at a message without a parent, or at one that names the single parent
that the messages name and do not carry. -/
def ClaudeEndsAtRoot (messages : List (ClaudeMessage N)) (leaf : Units) : Prop :=
  ∃ below top m, Climb (claudeNode messages) leaf below top ∧ byUuid messages top = some m ∧
    (m.parent = none ∨ ∃ p, m.parent = some p ∧ byUuid messages p = none ∧
      ∀ m' ∈ messages, ∀ q, m'.parent = some q → byUuid messages q = none → q = p)

lemma claude_endsAtRoot {messages : List (ClaudeMessage N)} {leaf : Units} {fuel : ℕ}
    {out : List Units} (hleaf : byUuid messages leaf ≠ none)
    (h : claudeBranch fuel messages leaf = some (.ok out)) : ClaudeEndsAtRoot messages leaf := by
  unfold claudeBranch at h
  obtain ⟨s, hwalk, hok⟩ := Option.map_eq_some_iff.mp h
  have hholds := walk_holds .here hwalk
  cases s with
  | revisit => exact nomatch hok
  | broken => exact nomatch hok
  | root chain =>
    obtain ⟨below, top, -, hclimb, htop⟩ := hholds
    obtain ⟨m, hm, hparent⟩ := claudeNode_root htop
    exact ⟨below, top, m, hclimb, hm, .inl hparent⟩
  | absent chain p =>
    obtain ⟨hclimb, habsent⟩ := hholds
    have hnone := claudeNode_absent.mp habsent
    have hroot : absentParentIsBranchRoot messages chain p := by
      by_contra hnot
      simp [hnot] at hok
    unfold absentParentIsBranchRoot at hroot
    have hall := List.all_eq_true.mp (Bool.and_eq_true_iff.mp hroot).1
    cases hclimb with
    | here => exact absurd hnone hleaf
    | up hbelow hlink =>
      obtain ⟨m, hm, hparent⟩ := claudeNode_link hlink
      refine ⟨_, _, m, hbelow, hm, .inr ⟨p, hparent, hnone, fun m' hm' q hq hmissing => ?_⟩⟩
      have hshared := hall m' hm'
      rw [hq] at hshared
      simpa [hmissing] using hshared

/-- What holds of every text: an answer comes, and it is non-empty only if the chain that the text
names ends at a root. -/
def AnyTextAnswered (num : Units → N) (finite : N → Bool) (text : Units) : Prop :=
  ((∃ fuel result, parseClaudeDetailPage num fuel text = some result) ∧
    (ClaudeAnswered num text → ∃ messages leaf, ClaudeReads num text messages leaf ∧
      ClaudeEndsAtRoot messages leaf)) ∧
  (∃ fuel result, parseDeepSeekDetailPage num finite fuel text = some result) ∧
    (DeepSeekAnswered num finite text → ∃ messages leaf,
      DeepSeekReads num finite text messages leaf ∧ DeepSeekEndsAtRoot messages leaf)

lemma anyTextAnswered (num : Units → N) (finite : N → Bool) (text : Units) :
    AnyTextAnswered num finite text := by
  refine ⟨⟨claude_isSome num text, ?_⟩, deepSeek_isSome num finite text, ?_⟩
  · rintro ⟨fuel, hpage⟩
    obtain ⟨messages, leaf, hreads⟩ := reads_of_claudeAnswered hpage
    obtain ⟨hleaf, out, hbranch⟩ := (claudeAnswered_iff hreads).mp hpage
    exact ⟨messages, leaf, hreads, claude_endsAtRoot hleaf hbranch⟩
  · rintro ⟨fuel, hpage⟩
    obtain ⟨messages, leaf, hreads, -, hbranch⟩ := reads_of_deepSeekAnswered hpage
    exact ⟨messages, leaf, hreads, deepSeek_endsAtRoot hbranch⟩

/-- A response of claude.ai is answered rightly just if it is not cut above siblings; a response of
DeepSeek always is, and no text is answered non-empty whose chain ends at no root. -/
theorem tree_answers_iff (num : Units → N) (finite : N → Bool) :
    (∀ r : ClaudeResponse num, r.RightlyAnswered ↔ ¬ r.CutAboveSiblings) ∧
      (∀ r : DeepSeekResponse num finite, r.RightlyAnswered) ∧
      ∀ text, AnyTextAnswered num finite text :=
  ⟨fun r => r.rightlyAnswered_iff, fun r => r.rightlyAnswered, anyTextAnswered num finite⟩

def decimal (digits : Units) : ℕ := digits.foldl (fun n c => 10 * n + (c - unit '0').toNat) 0

/-- What a response carries and names, where it can be read. -/
def claudeRead {N : Type*} (num : Units → N) (text : Units) :
    Option (List (ClaudeMessage N) × Units) :=
  match JsonText.parse text with
  | some (.object members) =>
    match (Value.object members).field "chat_messages",
      nonEmptyString? ((Value.object members).field "current_leaf_message_uuid") with
    | some (.array values), some leaf =>
      (claudeMessages num values).toOption.map fun messages => (messages, leaf)
    | _, _ => none
  | _ => none

omit [LinearOrder N] [Zero N] in
lemma reads_of_claudeRead {num : Units → N} {text leaf : Units}
    {messages : List (ClaudeMessage N)} (h : claudeRead num text = some (messages, leaf)) :
    ClaudeReads num text messages leaf := by
  unfold claudeRead at h
  split at h
  next members hparse =>
    split at h
    next values leaf' hvalues hleaf =>
      cases hmessages : claudeMessages num values with
      | error e =>
        rw [hmessages] at h
        exact nomatch h
      | ok messages' =>
        rw [hmessages] at h
        obtain ⟨rfl, rfl⟩ := Prod.mk.inj (Option.some.inj h)
        exact ⟨members, values, hparse, hvalues, claudeMessages_eq_ok.mp hmessages, hleaf⟩
    · exact nomatch h
  · exact nomatch h

/-- A question with two answers, the second one regenerated, and its response without the
question. -/
def cutResponse : ClaudeResponse decimal where
  tree := {
    messages := [⟨units "q", some (units "s"), 0⟩, ⟨units "a", some (units "q"), 1⟩,
      ⟨units "b", some (units "q"), 2⟩]
    sentinel := some (units "s")
    distinct := by decide
    linked := by decide
    foreign := by decide
    counted := by decide
    first := by decide }
  carried := [⟨units "a", some (units "q"), 1⟩, ⟨units "b", some (units "q"), 2⟩]
  leaf := units "b"
  text := units ("\x7b\"current_leaf_message_uuid\":\"b\",\"chat_messages\":[" ++
    "\x7b\"uuid\":\"a\",\"parent_message_uuid\":\"q\",\"index\":1\x7d," ++
    "\x7b\"uuid\":\"b\",\"parent_message_uuid\":\"q\",\"index\":2\x7d]\x7d")
  subset := by simp
  reads := reads_of_claudeRead (by decide +kernel)

/-- The question is missing, and the response is answered non-empty. -/
theorem cut_response_answered :
    ClaudeAnswered decimal cutResponse.text ∧ ¬ cutResponse.Carries (units "q") ∧
      ¬ cutResponse.RightlyAnswered := by
  have hcut : ¬ cutResponse.Carries (units "q") := by
    rintro ⟨m, hm, huuid⟩
    have hnone : ∀ m ∈ cutResponse.carried, m.uuid ≠ units "q" := by decide
    exact hnone m hm huuid
  have hanswered : ClaudeAnswered decimal cutResponse.text := ⟨3, by decide +kernel⟩
  refine ⟨hanswered, hcut, fun hright => hcut ?_⟩
  refine hright.1 hanswered (units "q") (.single ?_)
  exact ⟨⟨units "b", some (units "q"), 2⟩, by simp [cutResponse], rfl, rfl,
    ⟨units "q", some (units "s"), 0⟩, by simp [cutResponse], rfl⟩

end Finding

end ChatStasher.DetailTrees
