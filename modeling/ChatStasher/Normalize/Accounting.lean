import ChatStasher.Normalize.WebBodies
import Mathlib.Data.List.Perm.Basic

/-! What becomes of every element of an archived web body: each is rendered, counted, known to be
empty or off the active branch, and the counts of the reader are the counts of these. -/
namespace ChatStasher.Normalize
open Inbox (Text)
open GrokBot (Value ReplicaReader AttachmentRef)

section Positions

variable {α β : Type}

lemma exists_positions {items : List α} {find : β → Option α} {key : α → β}
    (hfind : ∀ b a, find b = some a → a ∈ items ∧ key a = b) {chain : List β}
    (hnodup : chain.Nodup) :
    ∃ positions : List ℕ, positions.Nodup ∧
      List.Forall₂ (fun i a => items[i]? = some a) positions (chain.filterMap find) := by
  induction chain with
  | nil => exact ⟨[], List.nodup_nil, List.Forall₂.nil⟩
  | cons b chain ih =>
    obtain ⟨hnew, hnodup⟩ := List.nodup_cons.mp hnodup
    obtain ⟨positions, hpositions, hall⟩ := ih hnodup
    rw [List.filterMap_cons]
    cases hb : find b with
    | none => exact ⟨positions, hpositions, hall⟩
    | some a =>
      obtain ⟨hmem, hkey⟩ := hfind b a hb
      obtain ⟨i, hi⟩ := List.mem_iff_getElem?.mp hmem
      refine ⟨i :: positions, List.nodup_cons.mpr ⟨fun hin => ?_, hpositions⟩,
        List.Forall₂.cons hi hall⟩
      -- A second element at the position would be found under the same key.
      obtain ⟨a', ha', hi'⟩ := Traverse.exists_mem_right hall hin
      obtain ⟨b', hb', hfind'⟩ := List.mem_filterMap.mp ha'
      have heq : a' = a := Option.some.inj (hi'.symm.trans hi)
      rw [← (hfind b' a' hfind').2, heq, hkey] at hb'
      exact hnew hb'

lemma range_perm {n : ℕ} {positions : List ℕ} (hnodup : positions.Nodup)
    (hlt : ∀ i ∈ positions, i < n) (f : ℕ → β) (b : β) :
    ((List.range n).map fun i => if i ∈ positions then f i else b).Perm
      (positions.map f ++ List.replicate (n - positions.length) b) := by
  have hin : ((List.range n).filter (· ∈ positions)).Perm positions := by
    apply (List.perm_ext_iff_of_nodup (List.nodup_range.filter _) hnodup).mpr
    intro i
    simp only [List.mem_filter, List.mem_range, decide_eq_true_eq]
    exact ⟨And.right, fun hi => ⟨hlt i hi, hi⟩⟩
  have hsplit := List.filter_append_perm (· ∈ positions) (List.range n)
  have hlength : ((List.range n).filter fun i => !decide (i ∈ positions)).length =
      n - positions.length := by
    have htotal := hsplit.length_eq
    rw [List.length_append, hin.length_eq, List.length_range] at htotal
    omega
  refine (hsplit.symm.map _).trans ?_
  rw [List.map_append]
  apply List.Perm.append
  · refine (List.Perm.of_eq (List.map_congr_left fun i hi => ?_)).trans (hin.map f)
    exact if_pos (by simpa using (List.mem_filter.mp hi).2)
  · rw [← hlength, ← List.map_const']
    refine List.Perm.of_eq (List.map_congr_left fun i hi => ?_)
    exact if_neg (by simpa using (List.mem_filter.mp hi).2)

end Positions

section Fates

/-- What becomes of an element of a body. -/
inductive Fate
  | rendered (message : Message)
  | unrendered
  | empty
  | branch
  deriving DecidableEq

def Fate.message? : Fate → Option Message
  | rendered message => some message
  | _ => none

def readFate : Option Message → Fate
  | some message => .rendered message
  | none => .unrendered

lemma readFate_ne_branch (read : Option Message) : readFate read ≠ .branch := by
  cases read <;> exact nofun

/-- Every element has one fate: off the branch, or what reading it gives; and the messages and the
counts of the reader are those of the fates. -/
structure Accounted {α : Type} (items : List α) (fateOf : α → Fate)
    (before after : Conversation) (fates : List Fate) : Prop where
  length : fates.length = items.length
  read : ∀ (i : ℕ) item fate, items[i]? = some item → fates[i]? = some fate →
    fate = .branch ∨ fate = fateOf item
  messages : ∃ shown, after.messages = before.messages ++ shown ∧
    shown.Perm (fates.filterMap Fate.message?)
  unrendered : after.unrenderedLines = before.unrenderedLines + fates.count .unrendered
  branch : after.branchNodes = before.branchNodes + fates.count .branch

/-- What reading some elements one after the other adds. -/
structure Shows (before after : Conversation) (fates : List Fate) : Prop where
  messages : after.messages = before.messages ++ fates.filterMap Fate.message?
  unrendered : after.unrenderedLines = before.unrenderedLines + fates.count .unrendered
  branch : after.branchNodes = before.branchNodes
  active : after.canonicalFollowsActive = before.canonicalFollowsActive

lemma Shows.refl (conversation : Conversation) : Shows conversation conversation [] :=
  ⟨(List.append_nil _).symm, rfl, rfl, rfl⟩

lemma Shows.cons {a b c : Conversation} {fate : Fate} {fates : List Fate} (h : Shows a b [fate])
    (h' : Shows b c fates) : Shows a c (fate :: fates) where
  messages := by
    rw [h'.messages, h.messages, List.append_assoc, ← List.filterMap_append]
    rfl
  unrendered := by
    rw [h'.unrendered, h.unrendered, Nat.add_assoc, ← List.count_append]
    rfl
  branch := h'.branch.trans h.branch
  active := h'.active.trans h.active

lemma Shows.foldl {α : Type} {step : Conversation → α → Conversation} {fateOf : α → Fate}
    (hstep : ∀ conversation item, Shows conversation (step conversation item) [fateOf item])
    (items : List α) (conversation : Conversation) :
    Shows conversation (items.foldl step conversation) (items.map fateOf) := by
  induction items generalizing conversation with
  | nil => exact Shows.refl conversation
  | cons item items ih => exact (hstep conversation item).cons (ih (step conversation item))

lemma add_shows (conversation : Conversation) (read : Option Message × List AttachmentRef) :
    Shows conversation (conversation.add read) [readFate read.1] := by
  obtain ⟨message, attachments⟩ := read
  cases message with
  | none => exact ⟨(List.append_nil _).symm, rfl, rfl, rfl⟩
  | some message => exact ⟨rfl, rfl, rfl, rfl⟩

/-- Reading the elements at some positions, with the rest counted as off the branch, accounts for
every element. -/
theorem accounted_of_shows {α : Type} {items thread : List α} {fateOf : α → Fate}
    (hfate : ∀ item, fateOf item ≠ .branch) {positions : List ℕ} (hnodup : positions.Nodup)
    (hthread : List.Forall₂ (fun i item => items[i]? = some item) positions thread)
    {before after : Conversation} {counted : Conversation}
    (hmessages : counted.messages = before.messages)
    (hunrendered : counted.unrenderedLines = before.unrenderedLines)
    (hbranch : counted.branchNodes = before.branchNodes + (items.length - thread.length))
    (hshows : Shows counted after (thread.map fateOf)) :
    ∃ fates, Accounted items fateOf before after fates ∧
      ∀ (i : ℕ) fate, fates[i]? = some fate → (fate ≠ .branch ↔ i ∈ positions) := by
  let fateAt : ℕ → Fate := fun i => (items[i]?.map fateOf).getD .branch
  let fates : List Fate :=
    (List.range items.length).map fun i => if i ∈ positions then fateAt i else .branch
  have hlt : ∀ i ∈ positions, i < items.length := by
    intro i hi
    obtain ⟨item, -, hitem⟩ := Traverse.exists_mem_right hthread hi
    exact (List.getElem?_eq_some_iff.mp hitem).1
  have hperm : fates.Perm (thread.map fateOf ++
      List.replicate (items.length - thread.length) .branch) := by
    have hmap : positions.map fateAt = thread.map fateOf := by
      clear hnodup hlt hshows hbranch
      induction hthread with
      | nil => rfl
      | cons hi _ ih =>
        rw [List.map_cons, List.map_cons, ih]
        simp only [fateAt, hi, Option.map_some, Option.getD_some]
    rw [← hmap, ← hthread.length_eq]
    exact range_perm hnodup hlt fateAt .branch
  have hnone : (thread.map fateOf).count .branch = 0 :=
    List.count_eq_zero.mpr fun hmem => by
      obtain ⟨item, -, hitem⟩ := List.mem_map.mp hmem
      exact hfate item hitem
  have hat : ∀ (i : ℕ) fate, fates[i]? = some fate →
      i < items.length ∧ fate = if i ∈ positions then fateAt i else .branch := by
    intro i fate h
    rw [List.getElem?_map, Option.map_eq_some_iff] at h
    obtain ⟨j, hj, rfl⟩ := h
    obtain ⟨hlt', rfl⟩ := List.getElem?_eq_some_iff.mp hj
    rw [List.getElem_range] at *
    exact ⟨by simpa using hlt', rfl⟩
  refine ⟨fates, ⟨?_, ?_, ?_, ?_, ?_⟩, ?_⟩
  · rw [List.length_map, List.length_range]
  · intro i item fate hitem h
    obtain ⟨-, rfl⟩ := hat i fate h
    split
    · exact Or.inr (by simp only [fateAt, hitem, Option.map_some, Option.getD_some])
    · exact Or.inl rfl
  · refine ⟨_, hmessages ▸ hshows.messages, ?_⟩
    refine List.Perm.trans ?_ (hperm.filterMap Fate.message?).symm
    rw [List.filterMap_append, List.filterMap_replicate_of_none rfl, List.append_nil]
  · rw [hshows.unrendered, hunrendered, hperm.count_eq, List.count_append, List.count_replicate]
    rfl
  · rw [hshows.branch, hbranch, hperm.count_eq, List.count_append, hnone,
      List.count_replicate_self, Nat.zero_add]
  · intro i fate h
    obtain ⟨hlt', rfl⟩ := hat i fate h
    by_cases hi : i ∈ positions
    · simp only [hi, if_true, iff_true, fateAt, List.getElem?_eq_getElem hlt', Option.map_some,
        Option.getD_some]
      exact hfate _
    · simp [hi]

end Fates

section Claude

variable {messages : List Value} {chain out : List Text} {id : Text}

@[simp] lemma claudeChainFrom_none : claudeChainFrom messages chain none = some chain := by
  rw [claudeChainFrom]

lemma claudeChainFrom_absent (h : claudeById messages id = none) :
    claudeChainFrom messages chain (some id) = some chain := by
  rw [claudeChainFrom]
  split
  · rfl
  · next heq => cases h.symm.trans heq

lemma claudeChainFrom_message {message : Value} (h : claudeById messages id = some message) :
    claudeChainFrom messages chain (some id) =
      if id ∈ chain then none
      else claudeChainFrom messages (chain ++ [id]) (claudeParent message) := by
  rw [claudeChainFrom]
  split
  · next heq => cases h.symm.trans heq
  · next found heq =>
    obtain rfl := Option.some.inj (h.symm.trans heq)
    split <;> rfl

lemma claudeChainFrom_spec {cursor : Option Text}
    (h : claudeChainFrom messages chain cursor = some out) (hnodup : chain.Nodup)
    (hfound : ∀ id ∈ chain, (claudeById messages id).isSome) :
    out.Nodup ∧ ∀ id ∈ out, (claudeById messages id).isSome := by
  induction chain, cursor using claudeChainFrom.induct messages with
  | case1 chain =>
    rw [claudeChainFrom_none] at h
    obtain rfl := Option.some.inj h
    exact ⟨hnodup, hfound⟩
  | case2 chain id hnode =>
    rw [claudeChainFrom_absent hnode] at h
    obtain rfl := Option.some.inj h
    exact ⟨hnodup, hfound⟩
  | case3 chain id message hnode hmem =>
    rw [claudeChainFrom_message hnode, if_pos hmem] at h
    exact nomatch h
  | case4 chain id message hnode hmem ih =>
    rw [claudeChainFrom_message hnode, if_neg hmem] at h
    refine ih h (List.nodup_append_comm.mp (List.nodup_cons.mpr ⟨hmem, hnodup⟩)) fun x hx => ?_
    rcases List.mem_append.mp hx with hx | hx
    · exact hfound x hx
    · rw [List.mem_singleton.mp hx, hnode]
      rfl

lemma claudeChain_spec {leaf : Text} (h : claudeChain messages leaf = some out) :
    out.Nodup ∧ ∀ id ∈ out, (claudeById messages id).isSome := by
  unfold claudeChain at h
  split at h
  · exact nomatch h
  · next chain hchain =>
    split at h
    · exact nomatch h
    · obtain rfl := Option.some.inj h
      obtain ⟨hnodup, hfound⟩ := claudeChainFrom_spec hchain List.nodup_nil
        fun id hid => absurd hid List.not_mem_nil
      exact ⟨List.nodup_reverse.mpr hnodup, fun id hid => hfound id (List.mem_reverse.mp hid)⟩

/-- The thread stands at positions of the body, each once, and what stands at none is counted as off
the branch. -/
lemma claudeActiveThread_spec (raw : Value) (messages : List Value)
    (conversation : Conversation) :
    ∃ positions : List ℕ, positions.Nodup ∧
      List.Forall₂ (fun i item => messages[i]? = some item) positions
        (claudeActiveThread raw messages conversation).1 ∧
      (claudeActiveThread raw messages conversation).2.messages = conversation.messages ∧
      (claudeActiveThread raw messages conversation).2.unrenderedLines =
        conversation.unrenderedLines ∧
      (claudeActiveThread raw messages conversation).2.branchNodes = conversation.branchNodes +
        (messages.length - (claudeActiveThread raw messages conversation).1.length) := by
  have hall : List.Forall₂ (fun i item => messages[i]? = some item)
      (List.range messages.length) messages := by
    rw [List.forall₂_iff_get]
    refine ⟨List.length_range, fun i hi hi' => ?_⟩
    simp
  unfold claudeActiveThread
  split
  · exact ⟨_, List.nodup_range, hall, rfl, rfl, by simp⟩
  · dsimp only
    split
    · exact ⟨_, List.nodup_range, hall, rfl, rfl, by simp [Conversation.lostActive]⟩
    · next chain hchain =>
      obtain ⟨leaf, -, hchain⟩ := Option.bind_eq_some_iff.mp hchain
      have hfind : ∀ id message, claudeById messages id = some message →
          message ∈ messages ∧ (uuidOf message).getD [] = id := by
        intro id message h
        obtain ⟨hmem, huuid⟩ := claudeById_spec h
        exact ⟨hmem, by rw [huuid]; rfl⟩
      obtain ⟨positions, hnodup, hpositions⟩ :=
        exists_positions hfind (claudeChain_spec hchain).1
      exact ⟨positions, hnodup, hpositions, rfl, rfl, rfl⟩

variable (R : ReplicaReader)

def claudeFate (item : Value) : Fate := readFate (claudeMessage R item).1

lemma normalizeClaudeWeb_shows {value raw : Value} {messages : List Value}
    (hpayload : payload R value = some raw)
    (hmessages : raw.get "chat_messages" = some (.array messages)) (conversation : Conversation) :
    Shows (claudeActiveThread raw messages conversation).2 (normalizeClaudeWeb R value conversation)
      ((claudeActiveThread raw messages conversation).1.map (claudeFate R)) := by
  have hnormalize : normalizeClaudeWeb R value conversation =
      (claudeActiveThread raw messages conversation).1.foldl
        (fun conversation item => conversation.add (claudeMessage R item))
        (claudeActiveThread raw messages conversation).2 := by
    rw [normalizeClaudeWeb, hpayload]
    dsimp only
    rw [hmessages]
  rw [hnormalize]
  exact Shows.foldl (fun conversation item => add_shows conversation (claudeMessage R item)) _ _

theorem claude_accounted {value raw : Value} {messages : List Value}
    (hpayload : payload R value = some raw)
    (hmessages : raw.get "chat_messages" = some (.array messages)) (conversation : Conversation) :
    ∃ fates, Accounted messages (claudeFate R) conversation
      (normalizeClaudeWeb R value conversation) fates := by
  obtain ⟨positions, hnodup, hthread, hshown, hunrendered, hbranch⟩ :=
    claudeActiveThread_spec raw messages conversation
  obtain ⟨fates, haccounted, -⟩ := accounted_of_shows
    (fun item => readFate_ne_branch (claudeMessage R item).1) hnodup hthread hshown hunrendered
    hbranch (normalizeClaudeWeb_shows R hpayload hmessages conversation)
  exact ⟨fates, haccounted⟩

end Claude

section ChatGpt

variable {mapping : Members} {chain : List Text} {id : Text}

@[simp] lemma chatgptChain_none : chatgptChain mapping chain none = (chain, true) := by
  rw [chatgptChain]

lemma chatgptChain_some (mapping : Members) (chain : List Text) (id : Text) :
    chatgptChain mapping chain (some id) =
      if id ∈ chain then (chain, false)
      else
        match mapping.lookup id with
        | none => (chain, false)
        | some node =>
          chatgptChain mapping (chain ++ [id]) ((node.get "parent").bind Value.asStr) := by
  rw [chatgptChain]
  split
  · rfl
  · split
    · next heq => rw [heq]
    · next heq => rw [heq]

lemma chatgptChain_spec {cursor : Option Text} (hnodup : chain.Nodup)
    (hfound : ∀ id ∈ chain, (mapping.lookup id).isSome) :
    (chatgptChain mapping chain cursor).1.Nodup ∧
      ∀ id ∈ (chatgptChain mapping chain cursor).1, (mapping.lookup id).isSome := by
  induction chain, cursor using chatgptChain.induct mapping with
  | case1 chain =>
    rw [chatgptChain_none]
    exact ⟨hnodup, hfound⟩
  | case2 chain id hmem =>
    rw [chatgptChain_some, if_pos hmem]
    exact ⟨hnodup, hfound⟩
  | case3 chain id hmem hnode =>
    rw [chatgptChain_some, if_neg hmem, hnode]
    exact ⟨hnodup, hfound⟩
  | case4 chain id hmem node hnode ih =>
    rw [chatgptChain_some, if_neg hmem, hnode]
    refine ih (List.nodup_append_comm.mp (List.nodup_cons.mpr ⟨hmem, hnodup⟩)) fun x hx => ?_
    rcases List.mem_append.mp hx with hx | hx
    · exact hfound x hx
    · rw [List.mem_singleton.mp hx, hnode]
      rfl

lemma chatgptChain_found (mapping : Members) (current : Text) :
    (chatgptChain mapping [] (some current)).1.Nodup ∧
      ∀ id ∈ (chatgptChain mapping [] (some current)).1, (mapping.lookup id).isSome :=
  chatgptChain_spec List.nodup_nil fun _ hid => absurd hid List.not_mem_nil

variable (R : ReplicaReader)

def chatgptFate (node : Text × Value) : Fate :=
  match (node.2.get "message").filter fun message => !message.isNull with
  | none => .empty
  | some message => readFate (chatgptMessage R message).1

lemma chatgptFate_ne_branch (node : Text × Value) : chatgptFate R node ≠ .branch := by
  unfold chatgptFate
  split
  · exact nofun
  · exact readFate_ne_branch _

lemma chatgptNode_shows {node : Value} (h : mapping.lookup id = some node)
    (conversation : Conversation) :
    Shows conversation (chatgptNode R mapping conversation id) [chatgptFate R (id, node)] := by
  simp only [chatgptNode, h, chatgptFate]
  cases (node.get "message").filter fun message => !message.isNull with
  | none => exact ⟨(List.append_nil _).symm, rfl, rfl, rfl⟩
  | some message => exact add_shows conversation (chatgptMessage R message)

def chatgptFind (mapping : Members) (id : Text) : Option (Text × Value) :=
  (mapping.lookup id).map fun node => (id, node)

lemma chatgptFind_spec {node : Text × Value} (h : chatgptFind mapping id = some node) :
    node ∈ mapping ∧ node.1 = id := by
  obtain ⟨value, hvalue, rfl⟩ := Option.map_eq_some_iff.mp h
  obtain ⟨before, after, rfl, -⟩ := List.lookup_eq_some_iff.mp hvalue
  exact ⟨by simp, rfl⟩

lemma chatgptNodes_shows (chain : List Text) (hfound : ∀ id ∈ chain, (mapping.lookup id).isSome)
    (conversation : Conversation) :
    Shows conversation (chain.foldl (chatgptNode R mapping) conversation)
      ((chain.filterMap (chatgptFind mapping)).map (chatgptFate R)) := by
  induction chain generalizing conversation with
  | nil => exact Shows.refl conversation
  | cons id chain ih =>
    obtain ⟨node, hnode⟩ := Option.isSome_iff_exists.mp (hfound id (List.mem_cons_self ..))
    have hfind : chatgptFind mapping id = some (id, node) := by rw [chatgptFind, hnode]; rfl
    rw [List.filterMap_cons_some hfind, List.map_cons]
    exact (chatgptNode_shows R hnode conversation).cons
      (ih (fun id hid => hfound id (List.mem_cons_of_mem _ hid)) _)

/-- Every node of a ChatGPT body that names its current node is accounted for, and only the nodes of
the active branch are read or known to be empty. -/
theorem chatgpt_accounted {value raw : Value} {current : Text}
    (hpayload : payload R value = some raw) (hmapping : raw.get "mapping" = some (.object mapping))
    (hcurrent : raw.get "current_node" = some (.string current)) (conversation : Conversation) :
    ∃ fates, Accounted mapping (chatgptFate R) conversation
      (normalizeChatgpt R value conversation) fates ∧
      ∀ (i : ℕ) node fate, mapping[i]? = some node → fates[i]? = some fate → fate ≠ .branch →
        node.1 ∈ (chatgptChain mapping [] (some current)).1 := by
  obtain ⟨hnodup, hfound⟩ := chatgptChain_found mapping current
  set walk := chatgptChain mapping [] (some current) with hwalk
  let opened := if walk.2 then conversation else conversation.lostActive
  let counted :=
    { opened with branchNodes := opened.branchNodes + (mapping.length - walk.1.length) }
  have hnormalize : normalizeChatgpt R value conversation =
      walk.1.reverse.foldl (chatgptNode R mapping) counted := by
    rw [normalizeChatgpt, hpayload]
    dsimp only
    rw [hmapping]
    dsimp only
    rw [hcurrent]
    rfl
  have hfound' : ∀ id ∈ walk.1.reverse, (mapping.lookup id).isSome :=
    fun id hid => hfound id (List.mem_reverse.mp hid)
  obtain ⟨positions, hpositions, hthread⟩ := exists_positions
    (fun id node (h : chatgptFind mapping id = some node) => chatgptFind_spec h)
    (List.nodup_reverse.mpr hnodup)
  have hlength : (walk.1.reverse.filterMap (chatgptFind mapping)).length = walk.1.length := by
    refine (List.filterMap_length_eq_length.mpr fun id hid => ?_).trans List.length_reverse
    rw [chatgptFind, Option.isSome_map]
    exact hfound' id hid
  have hcounted : counted.messages = conversation.messages ∧
      counted.unrenderedLines = conversation.unrenderedLines ∧
      counted.branchNodes = conversation.branchNodes + (mapping.length - walk.1.length) := by
    simp only [counted, opened]
    split
    · exact ⟨rfl, rfl, rfl⟩
    · exact ⟨rfl, rfl, rfl⟩
  obtain ⟨fates, haccounted, hin⟩ := accounted_of_shows (chatgptFate_ne_branch R) hpositions hthread
    hcounted.1 hcounted.2.1 (hlength.symm ▸ hcounted.2.2)
    (chatgptNodes_shows R walk.1.reverse hfound' counted)
  refine ⟨fates, hnormalize ▸ haccounted, fun i node fate hnode hfate hread => ?_⟩
  obtain ⟨node', hmem, hnode'⟩ := Traverse.exists_mem_right hthread ((hin i fate hfate).mp hread)
  obtain rfl := Option.some.inj (hnode.symm.trans hnode')
  obtain ⟨id, hid, hfind⟩ := List.mem_filterMap.mp hmem
  rw [(chatgptFind_spec hfind).2]
  exact List.mem_reverse.mp hid

theorem chatgpt_without_current {value raw : Value} (hpayload : payload R value = some raw)
    (hmapping : raw.get "mapping" = some (.object mapping))
    (hcurrent : (raw.get "current_node").bind Value.asStr = none) (conversation : Conversation) :
    normalizeChatgpt R value conversation = conversation.countUnrendered.lostActive := by
  rw [normalizeChatgpt, hpayload]
  dsimp only
  rw [hmapping]
  dsimp only
  rw [hcurrent]

end ChatGpt

end ChatStasher.Normalize
