import ChatStasher.Backfill.ClosedTrees
import ChatStasher.Normalize.Accounting
import ChatStasher.Normalize.Alike

/-! The reader takes the branch that the check of the response has walked, and accounts for what an
archived body carries. -/
namespace ChatStasher.Normalize
open Inbox (Text)
open GrokBot (Value ReplicaReader)
open JsonText (Units)
open ParentChain (walk Stop)
open DetailTrees (ClaudeMessage ClaudeReads byUuid claudeNode claudeBranch parseClaudeDetailTree
  parseClaudeDetailPage)
open Utf16 (encode encode_injective)

section Walk

variable {N : Type*} {messages : List Value} {ms : List (ClaudeMessage N)} {chain out : List Text}

lemma claudeChainFrom_isPrefix {cursor : Option Text}
    (h : claudeChainFrom messages chain cursor = some out) : chain <+: out := by
  induction chain, cursor using claudeChainFrom.induct messages with
  | case1 chain =>
    rw [claudeChainFrom_none] at h
    exact Option.some.inj h ▸ List.prefix_rfl
  | case2 chain id hnode =>
    rw [claudeChainFrom_absent hnode] at h
    exact Option.some.inj h ▸ List.prefix_rfl
  | case3 chain id message hnode hmem =>
    rw [claudeChainFrom_message hnode, if_pos hmem] at h
    cases h
  | case4 chain id message hnode hmem ih =>
    rw [claudeChainFrom_message hnode, if_neg hmem] at h
    exact (List.prefix_append chain [id]).trans (ih h)

/-- How a walk ends that is no refusal: at a root, or at a parent that is not carried. -/
def Stop.passed {α : Type*} : Stop α → Option (List α)
  | .root chain => some chain
  | .absent chain _ => some chain
  | _ => none

lemma claudeNode_cases (h : List.Forall₂ MessageAlike messages ms) (id : Text) :
    (claudeById messages id = none ∧ claudeNode ms (encode id) = .absent) ∨
      ∃ message, claudeById messages id = some message ∧
        claudeNode ms (encode id) =
          match claudeParent message with
          | none => .root
          | some parent => .link (encode parent) := by
  have hrel := byUuid_rel h id
  unfold claudeNode
  generalize claudeById messages id = found, byUuid ms (encode id) = read at hrel ⊢
  cases hrel with
  | none => exact Or.inl ⟨rfl, rfl⟩
  | some hmessage =>
    refine Or.inr ⟨_, rfl, ?_⟩
    dsimp only
    rw [← hmessage.parent]
    cases claudeParent _ <;> rfl

lemma chain_of_walk (h : List.Forall₂ MessageAlike messages ms) {n : ℕ} {id : Text}
    {s : Stop Units} {passed : List Units}
    (hwalk : walk (claudeNode ms) n (chain.map encode) (encode id) = some s)
    (hpassed : Stop.passed s = some passed) :
    ∃ out, claudeChainFrom messages chain (some id) = some out ∧ passed = out.map encode := by
  induction n generalizing chain id with
  | zero => cases hwalk
  | succ n ih =>
    rw [walk] at hwalk
    split at hwalk
    · obtain rfl := Option.some.inj hwalk
      cases hpassed
    · next hnew =>
      rcases claudeNode_cases h id with ⟨habsent, hnode⟩ | ⟨message, hmessage, hnode⟩
      · rw [hnode] at hwalk
        obtain rfl := Option.some.inj hwalk
        exact ⟨chain, claudeChainFrom_absent habsent, (Option.some.inj hpassed).symm⟩
      · have hmem : id ∉ chain := fun hmem => hnew (List.mem_map_of_mem hmem)
        rw [claudeChainFrom_message hmessage, if_neg hmem]
        have hpush : chain.map encode ++ [encode id] = (chain ++ [id]).map encode := by
          rw [List.map_append]
          rfl
        cases hparent : claudeParent message with
        | none =>
          rw [hnode, hparent] at hwalk
          obtain rfl := Option.some.inj hwalk
          refine ⟨chain ++ [id], claudeChainFrom_none, ?_⟩
          rw [← hpush]
          exact (Option.some.inj hpassed).symm
        | some parent =>
          rw [hnode, hparent] at hwalk
          dsimp only at hwalk
          rw [hpush] at hwalk
          exact ih hwalk

variable [LinearOrder N] [Zero N]

lemma claudeChain_of_branch (h : List.Forall₂ MessageAlike messages ms) {fuel : ℕ} {leaf : Text}
    {ordered : List Units} (hleaf : byUuid ms (encode leaf) ≠ none)
    (hbranch : claudeBranch fuel ms (encode leaf) = some (.ok ordered)) :
    ∃ ids, claudeChain messages leaf = some ids ∧ ordered = ids.map encode := by
  obtain ⟨s, hwalk, hs⟩ := Option.map_eq_some_iff.mp hbranch
  have hpassed : Stop.passed s = some ordered.reverse := by
    cases s with
    | revisit => exact nomatch hs
    | broken => exact nomatch hs
    | root chain =>
      obtain rfl := Except.ok.inj hs
      exact congrArg some (List.reverse_reverse chain).symm
    | absent chain parent =>
      dsimp only at hs
      split at hs
      · obtain rfl := Except.ok.inj hs
        exact congrArg some (List.reverse_reverse chain).symm
      · exact nomatch hs
  obtain ⟨out, hout, hmap⟩ := @chain_of_walk _ _ _ [] h _ _ _ _ hwalk hpassed
  have hnonempty : out ≠ [] := by
    cases hnode : claudeById messages leaf with
    | none =>
      have hrel := byUuid_rel h leaf
      rw [hnode] at hrel
      generalize byUuid ms (encode leaf) = read at hrel hleaf
      cases hrel
      exact absurd rfl hleaf
    | some message =>
      rw [claudeChainFrom_message hnode, if_neg List.not_mem_nil] at hout
      rintro rfl
      exact absurd (claudeChainFrom_isPrefix hout) (by simp)
  refine ⟨out.reverse, ?_, ?_⟩
  · unfold claudeChain
    rw [hout]
    dsimp only
    rw [if_neg (by simpa using hnonempty)]
  · rw [List.map_reverse, ← hmap, List.reverse_reverse]

end Walk

section Body

variable {N : Type*} [LinearOrder N] [Zero N] {num : Units → N} {R : ReplicaReader} {fuel : ℕ}
  {text : Units} {v : JsonText.Value} {line raw : Value}

/-- The thread is the branch that the check has walked, root first; where no message names a parent
it is the whole body. -/
structure Follows (num : Units → N) (fuel : ℕ) (text : Units) (messages thread : List Value) :
    Prop where
  branch : (∃ message ∈ messages, claudeParent message ≠ none) →
    ∃ ids, parseClaudeDetailTree num fuel text = some (.ok (ids.map encode)) ∧
      List.Forall₂ (fun id message => claudeById messages id = some message) ids thread
  flat : (∀ message ∈ messages, claudeParent message = none) → thread = messages

lemma tree_of_answered (h : parseClaudeDetailPage num fuel text = some (some .nonEmpty)) :
    ∃ ms leaf ordered, ClaudeReads num text ms leaf ∧ byUuid ms leaf ≠ none ∧
      claudeBranch fuel ms leaf = some (.ok ordered) ∧
      parseClaudeDetailTree num fuel text = some (.ok ordered) := by
  obtain ⟨ms, leaf, hreads⟩ := DetailTrees.reads_of_claudeAnswered h
  obtain ⟨hleaf, ordered, hbranch⟩ := (DetailTrees.claudeAnswered_iff hreads).mp h
  refine ⟨ms, leaf, ordered, hreads, hleaf, hbranch, ?_⟩
  obtain ⟨members, values, hparse, hvalues, hms, hnamed⟩ := hreads
  unfold parseClaudeDetailTree
  simp only [hparse, hvalues, DetailTrees.claudeMessages_eq_ok.mpr hms, hnamed, hbranch]
  exact if_neg (by simpa using hleaf)

lemma body_of_answered (hparse : JsonText.parse text = some v) (halike : alike raw v)
    (h : parseClaudeDetailPage num fuel text = some (some .nonEmpty)) :
    ∃ messages leaf ids, raw.get "chat_messages" = some (.array messages) ∧
      filled (raw.get "current_leaf_message_uuid") = some leaf ∧
      claudeChain messages leaf = some ids ∧
      parseClaudeDetailTree num fuel text = some (.ok (ids.map encode)) := by
  obtain ⟨ms, leaf, ordered, hreads, hleaf, hbranch, htree⟩ := tree_of_answered h
  obtain ⟨members, values, hmembers, hvalues, hms, hnamed⟩ := hreads
  obtain rfl := Option.some.inj (hparse.symm.trans hmembers)
  obtain ⟨messages, hget, hmessages⟩ := alike_get_array (by decide) halike hvalues
  have hfilled := nonEmptyString_of_alike
    (alike_get "current_leaf_message_uuid" (by decide) halike)
  obtain ⟨leaf, hleafText, rfl⟩ := Option.map_eq_some_iff.mp (hfilled.symm.trans hnamed)
  obtain ⟨ids, hids, rfl⟩ := claudeChain_of_branch (messagesAlike hmessages hms) hleaf hbranch
  exact ⟨messages, leaf, ids, hget, hleafText, hids, htree⟩

lemma forall₂_filterMap {α β : Type*} {find : α → Option β} {chain : List α}
    (h : ∀ a ∈ chain, (find a).isSome) :
    List.Forall₂ (fun a b => find a = some b) chain (chain.filterMap find) := by
  induction chain with
  | nil => exact List.Forall₂.nil
  | cons a chain ih =>
    obtain ⟨ha, hchain⟩ := List.forall_mem_cons.mp h
    obtain ⟨b, hb⟩ := Option.isSome_iff_exists.mp ha
    rw [List.filterMap_cons_some hb]
    exact List.Forall₂.cons hb (ih hchain)

lemma follows_of_answered (hparse : JsonText.parse text = some v) (halike : alike raw v)
    (h : parseClaudeDetailPage num fuel text = some (some .nonEmpty))
    (conversation : Conversation) :
    ∃ messages, raw.get "chat_messages" = some (.array messages) ∧
      (claudeActiveThread raw messages conversation).2.canonicalFollowsActive =
        conversation.canonicalFollowsActive ∧
      Follows num fuel text messages (claudeActiveThread raw messages conversation).1 := by
  obtain ⟨messages, leaf, ids, hget, hleaf, hids, htree⟩ := body_of_answered hparse halike h
  refine ⟨messages, hget, ?_⟩
  have hchain : (((raw.get "current_leaf_message_uuid").bind Value.asStr).filter
      fun leaf => !leaf.isEmpty).bind (claudeChain messages) = some ids := by
    change (filled (raw.get "current_leaf_message_uuid")).bind _ = _
    rw [hleaf]
    exact hids
  unfold claudeActiveThread
  split
  · next hnone =>
    refine ⟨rfl, fun hsome => ?_, fun _ => rfl⟩
    obtain ⟨message, hmem, hparent⟩ := hsome
    have hany : messages.any (fun message => (claudeParent message).isSome) :=
      List.any_eq_true.mpr ⟨message, hmem, Option.isSome_iff_ne_none.mpr hparent⟩
    rw [hany] at hnone
    exact nomatch hnone
  · next hsome =>
    dsimp only
    rw [hchain]
    refine ⟨rfl, fun _ => ⟨ids, htree, forall₂_filterMap (claudeChain_spec hids).2⟩,
      fun hflat => ?_⟩
    have hany : messages.any (fun message => (claudeParent message).isSome) = false :=
      List.any_eq_false.mpr fun message hmem => by rw [hflat message hmem]; exact nofun
    rw [hany] at hsome
    exact absurd rfl hsome

lemma shown_of_thread (R : ReplicaReader) {messages : List Value}
    (hpayload : payload R line = some raw)
    (hmessages : raw.get "chat_messages" = some (.array messages)) (conversation : Conversation) :
    (normalizeClaudeWeb R line conversation).messages = conversation.messages ++
      (claudeActiveThread raw messages conversation).1.filterMap
        fun item => (claudeMessage R item).1 := by
  have hshows := normalizeClaudeWeb_shows R hpayload hmessages conversation
  obtain ⟨-, -, -, hbefore, -⟩ := claudeActiveThread_spec raw messages conversation
  rw [hshows.messages, hbefore, List.filterMap_map]
  congr 2
  funext item
  simp only [Function.comp_apply, claudeFate]
  cases (claudeMessage R item).1 <;> rfl

end Body

section Claim

variable (R : ReplicaReader) {N : Type*} [LinearOrder N] [Zero N] (num : Units → N)

/-- The reader follows what was answered non-empty, each walk comes to an end, and every message of
a claude.ai body is accounted for, as is every node of a ChatGPT body that names its current node; one
that names none is counted as one line, and its branch is not taken for the conversation. -/
theorem reader_follows_capture {line raw : Value} (hpayload : payload R line = some raw)
    (conversation : Conversation) :
    (∀ text v fuel, JsonText.parse text = some v → alike raw v →
      parseClaudeDetailPage num fuel text = some (some .nonEmpty) →
      ∃ messages, raw.get "chat_messages" = some (.array messages) ∧
        (normalizeClaudeWeb R line conversation).canonicalFollowsActive =
          conversation.canonicalFollowsActive ∧
        (normalizeClaudeWeb R line conversation).messages = conversation.messages ++
          (claudeActiveThread raw messages conversation).1.filterMap
            (fun item => (claudeMessage R item).1) ∧
        Follows num fuel text messages (claudeActiveThread raw messages conversation).1) ∧
    (∀ text, ∃ fuel result, parseClaudeDetailTree num fuel text = some result) ∧
    (∀ messages, raw.get "chat_messages" = some (.array messages) →
      ∃ fates, Accounted messages (claudeFate R) conversation
        (normalizeClaudeWeb R line conversation) fates) ∧
    (∀ mapping current, raw.get "mapping" = some (.object mapping) →
      raw.get "current_node" = some (.string current) →
      ∃ fates, Accounted mapping (chatgptFate R) conversation
        (normalizeChatgpt R line conversation) fates ∧
        ∀ (i : ℕ) node fate, mapping[i]? = some node → fates[i]? = some fate → fate ≠ .branch →
          node.1 ∈ (chatgptChain mapping [] (some current)).1) ∧
    ∀ mapping, raw.get "mapping" = some (.object mapping) →
      (raw.get "current_node").bind Value.asStr = none →
      normalizeChatgpt R line conversation = conversation.countUnrendered.lostActive := by
  refine ⟨fun text v fuel hparse halike h => ?_, DetailTrees.claudeTree_isSome num,
    fun messages hmessages => claude_accounted R hpayload hmessages conversation,
    fun mapping current hmapping hcurrent =>
      chatgpt_accounted R hpayload hmapping hcurrent conversation,
    fun mapping hmapping hcurrent =>
      chatgpt_without_current R hpayload hmapping hcurrent conversation⟩
  obtain ⟨messages, hget, hactive, hfollows⟩ := follows_of_answered hparse halike h conversation
  refine ⟨messages, hget, ?_, shown_of_thread R hpayload hget conversation, hfollows⟩
  rw [(normalizeClaudeWeb_shows R hpayload hget conversation).active, hactive]

end Claim

section Finding

/-- A question and its answer, as claude.ai writes them. -/
def pairText : Units := JsonText.units
  ("\x7b\"current_leaf_message_uuid\":\"b\",\"chat_messages\":[" ++
    "\x7b\"uuid\":\"a\",\"sender\":\"human\",\"text\":\"Why?\"\x7d," ++
    "\x7b\"uuid\":\"b\",\"sender\":\"assistant\",\"text\":\"So.\"," ++
    "\"parent_message_uuid\":\"a\"\x7d]\x7d")

def claudeRecord (uuid sender text : String) : Members :=
  [("uuid".toList, .string uuid.toList), ("sender".toList, .string sender.toList),
    ("text".toList, .string text.toList)]

def pairMessages : List Value :=
  [.object (claudeRecord "a" "human" "Why?"),
    .object (claudeRecord "b" "assistant" "So." ++
      [("parent_message_uuid".toList, .string "a".toList)])]

def pairBody : Value :=
  .object [("current_leaf_message_uuid".toList, .string "b".toList),
    ("chat_messages".toList, .array pairMessages)]

/-- A reader that no text of a record is given to. -/
def bareReader : ReplicaReader where
  parse _ := none
  rfc3339 _ := none
  truncated _ := none

/-- The pair is answered non-empty, and the reader takes the branch that was walked. -/
theorem pair_follows_capture :
    (normalizeClaudeWeb bareReader pairBody Conversation.new).canonicalFollowsActive = true ∧
      ∃ ids, parseClaudeDetailTree DetailTrees.decimal 3 pairText = some (.ok (ids.map encode)) ∧
        List.Forall₂ (fun id message => claudeById pairMessages id = some message) ids
          (claudeActiveThread pairBody pairMessages Conversation.new).1 := by
  have hpayload : payload bareReader pairBody = some pairBody := rfl
  obtain ⟨v, hparse, halike⟩ : ∃ v, JsonText.parse pairText = some v ∧ alike pairBody v :=
    (Option.any_eq_true (fun v => alike pairBody v) (JsonText.parse pairText)).mp
      (by decide +kernel)
  obtain ⟨messages, hmessages, hactive, -, hfollows⟩ :=
    (reader_follows_capture bareReader DetailTrees.decimal hpayload Conversation.new).1 pairText v 3
      hparse halike (by decide +kernel)
  obtain rfl : pairMessages = messages :=
    Value.array.inj (Option.some.inj hmessages)
  refine ⟨hactive, hfollows.branch ⟨_, List.mem_cons_of_mem _ List.mem_cons_self, ?_⟩⟩
  decide +kernel

def chatgptRecord (id role text : String) : Text × Value :=
  (id.toList, .object [("message".toList, .object [
    ("author".toList, .object [("role".toList, .string role.toList)]),
    ("content".toList, .object [("parts".toList, .array [.string text.toList])])])])

def unplacedMapping : Members :=
  [chatgptRecord "x" "user" "Why?", chatgptRecord "y" "assistant" "So."]

def unplacedBody : Value := .object [("mapping".toList, .object unplacedMapping)]

/-- Neither node is rendered, counted or taken off the branch: the body is counted once. -/
theorem unplaced_nodes_not_accounted :
    payload bareReader unplacedBody = some unplacedBody ∧
      unplacedBody.get "mapping" = some (.object unplacedMapping) ∧
      ¬ ∃ fates, Accounted unplacedMapping (chatgptFate bareReader) Conversation.new
        (normalizeChatgpt bareReader unplacedBody Conversation.new) fates := by
  have hpayload : payload bareReader unplacedBody = some unplacedBody := rfl
  refine ⟨hpayload, rfl, fun ⟨fates, h⟩ => ?_⟩
  have hcounted : fates.count .unrendered = 0 := by
    refine List.count_eq_zero.mpr fun hmem => ?_
    obtain ⟨i, hi⟩ := List.mem_iff_getElem?.mp hmem
    obtain ⟨hlt, -⟩ := List.getElem?_eq_some_iff.mp hi
    rw [h.length] at hlt
    have hread : ∀ node ∈ unplacedMapping, chatgptFate bareReader node ≠ .unrendered := by
      decide +kernel
    rcases h.read i _ _ (List.getElem?_eq_getElem hlt) hi with hfate | hfate
    · exact nomatch hfate
    · exact hread _ (List.getElem_mem hlt) hfate.symm
  have hunrendered := h.unrendered
  rw [chatgpt_without_current bareReader hpayload rfl rfl, hcounted] at hunrendered
  exact nomatch hunrendered

end Finding

end ChatStasher.Normalize
