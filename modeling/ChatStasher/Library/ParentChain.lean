import Mathlib.Data.List.Nodup
import Mathlib.Data.List.Perm.Subperm
import Mathlib.Order.Defs.PartialOrder

/-! Walks along parent links that may lead nowhere or round in a circle. -/
namespace ParentChain

variable {α : Type*}

/-- What stands under an identifier: nothing, a root, a link to a parent, or a link that cannot be
followed. -/
inductive Node (α : Type*)
  | absent
  | root
  | link (parent : α)
  | broken

/-- How a walk ends. -/
inductive Stop (α : Type*)
  | revisit
  | root (chain : List α)
  | absent (chain : List α) (parent : α)
  | broken

/-- The walk from an identifier that has come along a chain; `none` without fuel. -/
def walk [DecidableEq α] (node : α → Node α) : ℕ → List α → α → Option (Stop α)
  | 0, _, _ => none
  | n + 1, chain, current =>
    if current ∈ chain then some .revisit
    else
      match node current with
      | .absent => some (.absent chain current)
      | .root => some (.root (chain ++ [current]))
      | .link parent => walk node n (chain ++ [current]) parent
      | .broken => some .broken

/-- The links from a start lead along a chain to an identifier. -/
inductive Climb (node : α → Node α) (start : α) : List α → α → Prop
  | here : Climb node start [] start
  | up {chain : List α} {current parent : α} (h : Climb node start chain current)
      (hlink : node current = .link parent) : Climb node start (chain ++ [current]) parent

/-- What a walk's end says about the links from its start. -/
def Stop.Holds (node : α → Node α) (start : α) : Stop α → Prop
  | .revisit => ∃ chain x, Climb node start chain x ∧ x ∈ chain
  | .root chain => ∃ below x, chain = below ++ [x] ∧ Climb node start below x ∧ node x = .root
  | .absent chain x => Climb node start chain x ∧ node x = .absent
  | .broken => ∃ chain x, Climb node start chain x ∧ node x = .broken

section Climbs

variable {node : α → Node α} {start current a : α} {chain : List α}

lemma Climb.of_mem (h : Climb node start chain current) {x : α} (hx : x ∈ chain) :
    ∃ p, node x = .link p := by
  induction h with
  | here => exact absurd hx List.not_mem_nil
  | up _ hlink ih =>
    rcases List.mem_append.mp hx with hx | hx
    · exact ih hx
    · exact ⟨_, List.mem_singleton.mp hx ▸ hlink⟩

lemma Climb.passed_or_above {above : α → α → Prop}
    (hnode : ∀ x p, node x = .link p → ∀ y, above x y → y = p)
    (h : Climb node start chain current) (ha : Relation.ReflTransGen above start a) :
    a ∈ chain ∨ Relation.ReflTransGen above current a := by
  induction h with
  | here => exact .inr ha
  | up _ hlink ih =>
    rcases ih with hmem | habove
    · exact .inl (List.mem_append_left _ hmem)
    · rcases habove.cases_head with rfl | ⟨y, hy, hrest⟩
      · exact .inl (List.mem_append_right _ List.mem_cons_self)
      · exact .inr (hnode _ _ hlink y hy ▸ hrest)

lemma Climb.above {above : α → α → Prop} (hnode : ∀ x p, node x = .link p → above x p)
    (h : Climb node start chain current) : Relation.ReflTransGen above start current := by
  induction h with
  | here => exact .refl
  | up _ hlink ih => exact ih.tail (hnode _ _ hlink)

lemma Climb.rank_lt {β : Type*} [Preorder β] {rank : α → β}
    (hrank : ∀ x p, node x = .link p → rank p < rank x) (h : Climb node start chain current) :
    ∀ x ∈ chain, rank current < rank x := by
  induction h with
  | here => exact fun x hx => absurd hx List.not_mem_nil
  | up _ hlink ih =>
    intro x hx
    rcases List.mem_append.mp hx with hx | hx
    · exact lt_trans (hrank _ _ hlink) (ih x hx)
    · exact List.mem_singleton.mp hx ▸ hrank _ _ hlink

end Climbs

section Walks

variable [DecidableEq α] {node : α → Node α} {start current x : α} {chain : List α} {n : ℕ}
  {s : Stop α}

theorem walk_holds (hclimb : Climb node start chain current)
    (h : walk node n chain current = some s) : s.Holds node start := by
  induction n generalizing chain current with
  | zero => exact nomatch h
  | succ n ih =>
    rw [walk] at h
    split at h
    next hmem =>
      obtain rfl := Option.some.inj h
      exact ⟨chain, current, hclimb, hmem⟩
    next =>
      split at h
      next hnode =>
        obtain rfl := Option.some.inj h
        exact ⟨hclimb, hnode⟩
      next hnode =>
        obtain rfl := Option.some.inj h
        exact ⟨chain, current, rfl, hclimb, hnode⟩
      next parent hnode => exact ih (hclimb.up hnode) h
      next hnode =>
        obtain rfl := Option.some.inj h
        exact ⟨chain, current, hclimb, hnode⟩

/-- A walk comes to an end after as many links as there are identifiers that something stands
under. -/
theorem walk_isSome {carried : List α} (hcarried : ∀ x, node x ≠ .absent → x ∈ carried)
    (hchain : ∀ x ∈ chain, x ∈ carried) (hnodup : chain.Nodup)
    (hn : carried.length < n + chain.length) : ∃ s, walk node n chain current = some s := by
  induction n generalizing chain current with
  | zero =>
    have hle := (hnodup.subperm hchain).length_le
    omega
  | succ n ih =>
    rw [walk]
    split
    next => exact ⟨_, rfl⟩
    next hnew =>
      split
      next => exact ⟨_, rfl⟩
      next => exact ⟨_, rfl⟩
      next parent hnode =>
        have hmem : current ∈ carried := hcarried current (by rw [hnode]; exact nofun)
        refine ih (fun x hx => ?_) ?_ ?_
        · rcases List.mem_append.mp hx with hx | hx
          · exact hchain x hx
          · exact List.mem_singleton.mp hx ▸ hmem
        · exact List.nodup_append_comm.mp (List.nodup_cons.mpr ⟨hnew, hnodup⟩)
        · rw [List.length_append, List.length_singleton]
          omega
      next => exact ⟨_, rfl⟩

lemma walk_climb {β : Type*} [Preorder β] {rank : α → β}
    (hrank : ∀ x p, node x = .link p → rank p < rank x) (h : Climb node start chain current) :
    walk node (n + chain.length) [] start = walk node n chain current := by
  induction h generalizing n with
  | here => rfl
  | up hbelow hlink ih =>
    have hnew := hbelow.rank_lt hrank
    rw [List.length_append, List.length_singleton, Nat.add_comm _ 1, ← Nat.add_assoc, ih, walk,
      if_neg (fun hmem => lt_irrefl _ (hnew _ hmem)), hlink]

lemma not_revisit {β : Type*} [Preorder β] {rank : α → β}
    (hrank : ∀ x p, node x = .link p → rank p < rank x) :
    walk node n [] start ≠ some .revisit := by
  intro h
  obtain ⟨chain, x, hclimb, hmem⟩ := walk_holds .here h
  exact lt_irrefl _ (hclimb.rank_lt hrank x hmem)

lemma mem_of_root {above : α → α → Prop}
    (hnode : ∀ x p, node x = .link p → ∀ y, above x y → y = p)
    (hroot : ∀ x, node x = .root → ∀ y, ¬ above x y) (h : walk node n [] start = some (.root chain))
    {a : α} (ha : Relation.ReflTransGen above start a) : a ∈ chain := by
  obtain ⟨below, x, rfl, hclimb, hx⟩ := walk_holds .here h
  rcases hclimb.passed_or_above hnode ha with hmem | habove
  · exact List.mem_append_left _ hmem
  · rcases habove.cases_head with rfl | ⟨y, hy, -⟩
    · exact List.mem_append_right _ List.mem_cons_self
    · exact absurd hy (hroot x hx y)

lemma not_absent_of_root (h : walk node n [] start = some (.root chain)) {a : α} (ha : a ∈ chain) :
    node a ≠ .absent := by
  obtain ⟨below, x, rfl, hclimb, hx⟩ := walk_holds .here h
  rcases List.mem_append.mp ha with ha | ha
  · obtain ⟨p, hp⟩ := hclimb.of_mem ha
    rw [hp]
    exact nofun
  · rw [List.mem_singleton.mp ha, hx]
    exact nofun

end Walks

end ParentChain

/-! Ascents along parent links, from a start to where no link leads on: there is at most one, it
comes to nothing twice, and where every start has one, each start lies on the ascent of a leaf. -/
namespace ParentChain

variable {α : Type*} {node : α → Node α}

/-- The links lead from a start through a sequence of identifiers, the start and the top among them,
to a top with no link. -/
inductive Ascent (node : α → Node α) : α → List α → α → Prop
  | stop {x : α} (h : ∀ p, node x ≠ .link p) : Ascent node x [x] x
  | up {x p top : α} {passed : List α} (hlink : node x = .link p) (h : Ascent node p passed top) :
      Ascent node x (x :: passed) top

variable {start top x y : α} {passed passed' chain : List α}

lemma Ascent.top_stop (h : Ascent node start passed top) (p : α) : node top ≠ .link p := by
  induction h with
  | stop h => exact h p
  | up _ _ ih => exact ih

lemma Ascent.cons (h : Ascent node start passed top) : ∃ rest, passed = start :: rest := by
  cases h with
  | stop => exact ⟨[], rfl⟩
  | up _ _ => exact ⟨_, rfl⟩

lemma Ascent.start_mem (h : Ascent node start passed top) : start ∈ passed := by
  obtain ⟨rest, rfl⟩ := h.cons
  exact List.mem_cons_self

theorem Ascent.unique {top' : α} (h : Ascent node start passed top)
    (h' : Ascent node start passed' top') : passed = passed' ∧ top = top' := by
  induction h generalizing passed' top' with
  | stop hstop =>
    cases h' with
    | stop => exact ⟨rfl, rfl⟩
    | up hlink => exact absurd hlink (hstop _)
  | up hlink _ ih =>
    cases h' with
    | stop hstop => exact absurd hlink (hstop _)
    | up hlink' h' =>
      rw [hlink] at hlink'
      obtain rfl := Node.link.inj hlink'
      obtain ⟨rfl, rfl⟩ := ih h'
      exact ⟨rfl, rfl⟩

lemma Ascent.from_mem (h : Ascent node start passed top) (hx : x ∈ passed) :
    ∃ before rest, passed = before ++ rest ∧ Ascent node x rest top := by
  induction h with
  | stop hstop =>
    obtain rfl := List.mem_singleton.mp hx
    exact ⟨[], _, rfl, .stop hstop⟩
  | @up a p top passed hlink habove ih =>
    rcases List.mem_cons.mp hx with rfl | hx
    · exact ⟨[], _, rfl, .up hlink habove⟩
    · obtain ⟨before, rest, rfl, hrest⟩ := ih hx
      exact ⟨a :: before, rest, rfl, hrest⟩

theorem Ascent.nodup (h : Ascent node start passed top) : passed.Nodup := by
  induction h with
  | stop => exact List.nodup_singleton _
  | @up a p top passed hlink habove ih =>
    refine List.nodup_cons.mpr ⟨fun hmem => ?_, ih⟩
    obtain ⟨before, rest, hpassed, hrest⟩ := habove.from_mem hmem
    have hlength := congrArg List.length ((Ascent.up hlink habove).unique hrest).1
    rw [hpassed, List.length_cons, List.length_append] at hlength
    omega

lemma Ascent.of_climb (h : Ascent node start passed top) (hclimb : Climb node start chain x) :
    ∃ rest, passed = chain ++ rest ∧ Ascent node x rest top := by
  induction hclimb with
  | here => exact ⟨passed, rfl, h⟩
  | up _ hlink ih =>
    obtain ⟨rest, hpassed, hrest⟩ := ih
    cases hrest with
    | stop hstop => exact absurd hlink (hstop _)
    | up hlink' hrest =>
      rw [hlink] at hlink'
      obtain rfl := Node.link.inj hlink'
      exact ⟨_, by rw [hpassed, List.append_assoc]; rfl, hrest⟩

lemma Ascent.not_mem_of_climb (h : Ascent node start passed top)
    (hclimb : Climb node start chain x) : x ∉ chain := by
  obtain ⟨rest, hpassed, hrest⟩ := h.of_climb hclimb
  have hnodup := h.nodup
  rw [hpassed] at hnodup
  intro hmem
  exact (List.nodup_append.mp hnodup).2.2 _ hmem _ hrest.start_mem rfl

lemma Ascent.climb_from (h : Ascent node x passed top) (hclimb : Climb node start chain x) :
    ∃ below, Climb node start (chain ++ below) top ∧ passed = below ++ [top] := by
  induction h generalizing chain with
  | stop => exact ⟨[], by rwa [List.append_nil], rfl⟩
  | @up a p top passed hlink _ ih =>
    obtain ⟨below, hbelow, rfl⟩ := ih (hclimb.up hlink)
    rw [List.append_assoc] at hbelow
    exact ⟨a :: below, hbelow, rfl⟩

lemma Ascent.climb (h : Ascent node start passed top) :
    ∃ below, Climb node start below top ∧ passed = below ++ [top] := h.climb_from .here

lemma Climb.ascent (hclimb : Climb node start chain x) (h : Ascent node x passed top) :
    Ascent node start (chain ++ passed) top := by
  induction hclimb generalizing passed with
  | here => exact h
  | up _ hlink ih =>
    rw [List.append_assoc]
    exact ih (.up hlink h)

lemma Ascent.top_present (h : Ascent node start passed top)
    (hlinks : ∀ x p, node x = .link p → node p ≠ .absent) (hstart : node start ≠ .absent) :
    node top ≠ .absent := by
  induction h with
  | stop => exact hstart
  | up hlink _ ih => exact ih (hlinks _ _ hlink)

lemma Ascent.mem_present (h : Ascent node start passed top) (htop : node top ≠ .absent)
    (hx : x ∈ passed) : node x ≠ .absent := by
  induction h with
  | stop => exact List.mem_singleton.mp hx ▸ htop
  | up hlink _ ih =>
    rcases List.mem_cons.mp hx with rfl | hx
    · rw [hlink]
      exact nofun
    · exact ih htop hx

def IsLeaf (node : α → Node α) (x : α) : Prop := ∀ y, node y ≠ .link x

/-- Where every identifier of a finite stock ascends within it, each lies on the ascent of a leaf:
an ascent that has no leaf at its start can be begun lower, and no ascent is longer than the
stock. -/
theorem Ascent.exists_leaf {stock : List α} (hstock : ∀ x, node x ≠ .absent → x ∈ stock)
    (hascent : ∀ x, node x ≠ .absent → ∃ passed top, Ascent node x passed top ∧ node top = .root)
    (hx : node x ≠ .absent) :
    ∃ leaf passed top, node leaf ≠ .absent ∧ IsLeaf node leaf ∧ Ascent node leaf passed top ∧
      node top = .root ∧ x ∈ passed := by
  have hlower : ∀ n start passed top, Ascent node start passed top → node top = .root →
      x ∈ passed → stock.length ≤ passed.length + n →
      ∃ leaf passed top, node leaf ≠ .absent ∧ IsLeaf node leaf ∧ Ascent node leaf passed top ∧
        node top = .root ∧ x ∈ passed := by
    intro n
    induction n with
    | zero =>
      intro start passed top h htop hmem hle
      have hroot : node top ≠ .absent := by
        rw [htop]
        exact nofun
      refine ⟨start, passed, top, h.mem_present hroot h.start_mem, fun y hy => ?_, h, htop, hmem⟩
      have hlonger := Ascent.up hy h
      have hsub : ∀ z ∈ y :: passed, z ∈ stock := fun z hz =>
        hstock z (hlonger.mem_present hroot hz)
      have hbound := (hlonger.nodup.subperm hsub).length_le
      rw [List.length_cons] at hbound
      omega
    | succ n ih =>
      intro start passed top h htop hmem hle
      have hroot : node top ≠ .absent := by
        rw [htop]
        exact nofun
      by_cases hleaf : IsLeaf node start
      · exact ⟨start, passed, top, h.mem_present hroot h.start_mem, hleaf, h, htop, hmem⟩
      · simp only [IsLeaf, not_forall, not_not] at hleaf
        obtain ⟨y, hy⟩ := hleaf
        refine ih y (y :: passed) top (.up hy h) htop (List.mem_cons_of_mem y hmem) ?_
        rw [List.length_cons]
        omega
  obtain ⟨passed, top, h, htop⟩ := hascent x hx
  exact hlower stock.length x passed top h htop h.start_mem (Nat.le_add_left _ _)

end ParentChain
