import ChatStasher.Collect.Facts
import ChatStasher.Store.ShardList

/-! Archived snapshots as the storage library lists them: the entries of a tree with their paths, the
trees that a listing reads, and what the readers take a path for. -/
namespace ChatStasher.Readback

abbrev TreeId := List Char

abbrev Path := List FileName

inductive Node
  | file (bytes : Bytes) (content : Option (List (List Char)))
  | dir (subtree : TreeId)
  | other
  deriving DecidableEq

def Node.subtree : Node → Option TreeId
  | .dir subtree => some subtree
  | _ => none

/-- A snapshot: its tree as the entries of a recursive listing, each below the directories before it. -/
structure Snapshot where
  hostname : Ident
  time : ℤ
  paths : List Path
  tree : TreeId
  entries : List (Path × Node)
  paths_nodup : (entries.map Prod.fst).Nodup
  within : ∀ e ∈ entries, ∀ at_, at_ <+: e.1 → at_ ≠ [] → at_ ≠ e.1 →
    ∃ subtree, (at_, Node.dir subtree) ∈ entries
  deriving DecidableEq

namespace Snapshot

/-- The tree root and the subtree of every directory, in the order a listing reads them. -/
def trees (snap : Snapshot) : List TreeId :=
  snap.tree :: snap.entries.filterMap fun e => e.2.subtree

/-- The recursive listing of the root, or the first tree that it cannot read. -/
def ls (readable : TreeId → Bool) (snap : Snapshot) : Except TreeId (List (Path × Node)) :=
  match snap.trees.find? fun tree => !readable tree with
  | some tree => .error tree
  | none => .ok snap.entries

/-- Follow the components of a path from a node, reading the tree of each directory on the way. -/
def nodeFrom (readable : TreeId → Bool) (snap : Snapshot) : Node → Path → Path → Option Node
  | node, _, [] => some node
  | node, at_, name :: rest =>
    match node.subtree with
    | none => none
    | some subtree =>
      if readable subtree then
        (snap.entries.lookup (at_ ++ [name])).bind fun next =>
          nodeFrom readable snap next (at_ ++ [name]) rest
      else none

def nodeAt (readable : TreeId → Bool) (snap : Snapshot) (path : Path) : Option Node :=
  snap.nodeFrom readable (.dir snap.tree) [] path

variable {readable : TreeId → Bool} {snap : Snapshot}

lemma ls_eq_ok (h : ∀ tree ∈ snap.trees, readable tree = true) :
    snap.ls readable = .ok snap.entries := by
  rw [ls, List.find?_eq_none.mpr fun tree htree => by simp [h tree htree]]

lemma lookup_of_mem {path : Path} {node : Node} (h : (path, node) ∈ snap.entries) :
    snap.entries.lookup path = some node :=
  (KeyedList.lookup_eq_some_iff_mem snap.paths_nodup).mpr h

lemma nodeFrom_eq_some (h : ∀ tree ∈ snap.trees, readable tree = true) {rest at_ : Path}
    {subtree : TreeId} (hread : readable subtree = true) {node : Node} (hrest : rest ≠ [])
    (hmem : (at_ ++ rest, node) ∈ snap.entries) :
    snap.nodeFrom readable (.dir subtree) at_ rest = some node := by
  induction rest generalizing at_ subtree with
  | nil => exact absurd rfl hrest
  | cons name rest ih =>
    rw [nodeFrom]
    simp only [Node.subtree, hread, if_true]
    cases rest with
    | nil =>
      rw [lookup_of_mem hmem, Option.bind_some]
      rfl
    | cons next rest =>
      rw [show at_ ++ name :: next :: rest = (at_ ++ [name]) ++ next :: rest by simp] at hmem
      obtain ⟨inner, hinner⟩ := snap.within _ hmem (at_ ++ [name]) ⟨_, rfl⟩ (by simp) (by simp)
      rw [lookup_of_mem hinner, Option.bind_some]
      refine ih (h inner ?_) (by simp) hmem
      exact List.mem_cons_of_mem _ (List.mem_filterMap.mpr ⟨_, hinner, rfl⟩)

lemma nodeAt_eq_some (h : ∀ tree ∈ snap.trees, readable tree = true) {path : Path} {node : Node}
    (hpath : path ≠ []) (hmem : (path, node) ∈ snap.entries) :
    snap.nodeAt readable path = some node :=
  nodeFrom_eq_some h (h _ List.mem_cons_self) hpath hmem

end Snapshot

section Paths

def sessionsDir : FileName := "sessions".toList

def metaDir : FileName := "meta".toList

def afterLast (name : FileName) (path : Path) : Option Path :=
  if name ∈ path then some (path.reverse.takeWhile (· ≠ name)).reverse else none

/-- `bucket_shard_path`: machine, session and shard of a path below the last `sessions`. -/
def bucketShardPath (path : Path) : Option (Ident × Ident × FileName) :=
  match afterLast sessionsDir path with
  | some [machine, session, shard] | some [machine, session, _, shard] =>
    if shardSuffix <:+ shard then some (machine, session, shard) else none
  | _ => none

/-- The last three components, last first. -/
def trailing (path : Path) : Option (FileName × FileName × FileName) :=
  match path.reverse with
  | file :: parent :: dir :: _ => some (file, parent, dir)
  | _ => none

def isProvenancePath (path : Path) (machine : Ident) : Bool :=
  trailing path = some ("provenance-v1.jsonl".toList, machine, metaDir)

/-- `activity_index_machine`. -/
def activityIndexMachine (path : Path) : Option Ident :=
  match trailing path with
  | some (file, machine, dir) =>
    if file = "activity-v1.jsonl".toList ∧ dir = metaDir ∧ machine ≠ [] then some machine else none
  | none => none

def pathText (path : Path) : FileName := ['/'].intercalate path

end Paths

def snapshotsByHostNewestFirst (snaps : List Snapshot) : List (Ident × List Snapshot) :=
  let hosts := ((snaps.map Snapshot.hostname).dedup).insertionSort (· ≤ ·)
  hosts.map fun host =>
    (host, (snaps.filter fun snap => snap.hostname = host).insertionSort fun a b => b.time ≤ a.time)

end ChatStasher.Readback
