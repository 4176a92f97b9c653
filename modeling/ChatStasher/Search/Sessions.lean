import ChatStasher.Activity.TimeAnalysis
import ChatStasher.Search.SnapshotCache

/-! The metadata search over one destination: every snapshot of each host walked, or answered from the
cache, and the sessions placed by the activity indexes. -/
namespace ChatStasher.Search
open Readback
open Activity (TimeSource)

/-- A row of an activity index as the search reads it. -/
structure IndexRow (AccountKey Title Extra : Type) where
  machine : Ident
  sessionId : Ident
  firstUnix : Option ℤ
  lastUnix : Option ℤ
  lineCount : ℕ
  timeSource : TimeSource
  title : Option Title
  accountKeys : List AccountKey
  extra : Extra

/-- What the activity index said about one session's conversation time. -/
structure IndexedTime (Title Extra : Type) where
  firstUnix : Option ℤ
  lastUnix : Option ℤ
  why : Option String
  lineCount : ℕ
  source : TimeSource
  title : Option Title
  extra : Extra
  deriving DecidableEq

inductive SessionLabel (Title : Type)
  | known (title : Title)
  | legacyIndex
  | unknown (why : String)
  deriving DecidableEq

inductive UnplacedBy
  | time
  | harness
  | surface
  | noContent
  deriving DecidableEq

inductive Verdict
  | selected
  | notSelected
  | unevaluated (dimension : UnplacedBy) (why : String)

structure SessionMeta (Extra : Type) where
  machine : Ident
  sessionId : Ident
  harness : Option Ident
  firstUnix : Option ℤ
  lastUnix : Option ℤ
  boundsPartial : Bool
  timeWhy : Option String
  extra : Option Extra

/-- A session as a single snapshot holds it. -/
structure SessionSlot (Id : Type) where
  shardCount : ℕ
  bytes : ℕ
  dataBlobs : ℕ
  snapshotId : Id
  archiveTimeUnix : ℤ
  deriving DecidableEq

structure SessionHit (Id AccountKey Title Extra : Type) where
  machine : Ident
  sessionId : Ident
  harness : Option Ident
  slot : SessionSlot Id
  firstUnix : Option ℤ
  lastUnix : Option ℤ
  timeWhy : Option String
  lineCount : ℕ
  timeSource : TimeSource
  title : SessionLabel Title
  extra : Option Extra
  accountKeys : List AccountKey
  deriving DecidableEq

structure UnplacedSession (Id Extra : Type) where
  machine : Ident
  sessionId : Ident
  harness : Option Ident
  slot : SessionSlot Id
  dimension : UnplacedBy
  why : String
  lineCount : ℕ
  timeSource : TimeSource
  extra : Option Extra
  deriving DecidableEq

structure HostSnapshot (Id : Type) where
  hostname : Ident
  snapshotId : Id
  archiveTimeUnix : ℤ
  hasActivityIndex : Bool
  indexReadOk : Bool
  indexTrusted : Bool
  deriving DecidableEq

/-- How index lines are read and sessions selected. -/
structure SearchRules where
  AccountKey : Type
  Title : Type
  Extra : Type
  textLines : Bytes → List Bytes
  isBlank : Bytes → Bool
  parseRow : Bytes → Except String (IndexRow AccountKey Title Extra)
  inferHarness : Ident → Option Ident
  select : SessionMeta Extra → Verdict

variable (format : CacheFormat) (rules : SearchRules)

abbrev SearchRules.Row : Type := IndexRow rules.AccountKey rules.Title rules.Extra

abbrev SearchRules.Indexed : Type := IndexedTime rules.Title rules.Extra

/-- The report of a search but for the snapshots it took from the cache. -/
structure ReportFields where
  snapshotsInRepo : ℕ
  snapshotsScanned : ℕ
  sessionsSeen : ℕ
  hits : List (SessionHit format.Id rules.AccountKey rules.Title rules.Extra)
  unplaced : List (UnplacedSession format.Id rules.Extra)
  allRecall : List (Ident × ℕ × ℕ)
  notMatched : ℕ
  machinesWithoutIndex : List Ident
  machinesWithLegacyIndex : List Ident
  hosts : List (HostSnapshot format.Id)
  unreadable : List String
  indexFilesRead : ℕ

structure SearchReport extends ReportFields format rules where
  snapshotsFromCache : ℕ

variable {format rules}

def noBound : String := "the activity index row carries no conversation-time bound and records " ++
  "no reason for that, so the time is unknown rather than zero"

/-- Turn one index row into what the search needs; a row without bounds is of unknown time. -/
def indexedTime (row : rules.Row) : rules.Indexed :=
  let why :=
    match row.timeSource with
    | .unknown why => some why
    | .partialRange _ why => some why
    | _ => none
  let make (first last : Option ℤ) (why : Option String) (source : TimeSource) : rules.Indexed :=
    ⟨first, last, why, row.lineCount, source, row.title, row.extra⟩
  match row.firstUnix, row.lastUnix, why with
  | some first, some last, some why =>
    if row.timeSource matches .partialRange .. then
      make (some first) (some last) (some why) row.timeSource
    else make (some first) (some last) none row.timeSource
  | some first, some last, none => make (some first) (some last) none row.timeSource
  | first, last, some why => make first last (some why) (.unknown why)
  | first, last, none =>
    if first = none ∧ last = none ∧ row.timeSource = .noConversationContent then
      make none none none .noConversationContent
    else make first last (some noBound) (.unknown noBound)

/-- What the destination answers: its snapshots, where its index places a tree, the packs that can be
read there and those in the library's local cache, and the nodes that cannot be dumped. -/
structure Destination where
  snapshots : List Readback.Snapshot
  indexEntry : TreeId → Option (List Char)
  held : List Char → Bool
  localCopy : List Char → Bool
  treeError : TreeId → String
  dumpError : Node → Option String
  controlPolicy : Except String (Ident → Ident → Bool)

/-- The library reads a tree from the pack its index names, at the destination or in its local copy. -/
def Destination.readable (dest : Destination) (tree : TreeId) : Bool :=
  (dest.indexEntry tree).any fun pack => dest.held pack || dest.localCopy pack

/-- `repo.dump`. -/
def Destination.dump (dest : Destination) (node : Node) : Except String Bytes :=
  match dest.dumpError node, node with
  | some e, _ => .error e
  | none, .file bytes _ => .ok bytes
  | none, _ => .error "not a file"

/-- The packs already asked about, and whether the destination could read them. -/
abbrev TreeAvailability := List (List Char × Bool)

/-- Whether every tree is still in the index with its pack readable at the destination. -/
def TreeAvailability.holdsAll (dest : Destination) :
    List TreeId → TreeAvailability → Bool × TreeAvailability
  | [], packs => (true, packs)
  | tree :: trees, packs =>
    match dest.indexEntry tree with
    | none => (false, packs)
    | some pack =>
      match packs.lookup pack with
      | some true => holdsAll dest trees packs
      | some false => (false, packs)
      | none =>
        if dest.held pack then holdsAll dest trees ((pack, true) :: packs)
        else (false, (pack, false) :: packs)

def TreeAvailability.holds (dest : Destination) (trees : List TreeId) (packs : TreeAvailability) :
    Bool × TreeAvailability :=
  let (readable, packs) := TreeAvailability.holdsAll dest trees packs
  (readable && !trees.isEmpty, packs)

/-- What the search has of one host's snapshots so far. -/
structure HostWalk (format : CacheFormat) where
  snapshotsScanned : ℕ
  snapshotsFromCache : ℕ
  unreadable : List String
  sessions : List ((Ident ×ₗ Ident) × SessionSlot format.Id)
  indexNodes : List (Ident × Node)
  cache : Option (CacheDir format)
  treesAvailable : TreeAvailability

/-- Merge what one snapshot holds: hidden sessions are left out, the newest appearance stays. -/
def mergeSessions (omitted : Ident → Ident → Bool) (id : format.Id) (time : ℤ)
    (rows : List CachedSession) (sessions : List ((Ident ×ₗ Ident) × SessionSlot format.Id)) :
    List ((Ident ×ₗ Ident) × SessionSlot format.Id) :=
  rows.foldl (fun sessions row =>
    if omitted row.machine row.session then sessions
    else KeyedList.orInsert sessions (toLex (row.machine, row.session),
      ⟨row.shardCount, row.bytes, row.dataBlobs, id, time⟩)) sessions

def fetchIndexNodes (dest : Destination) (snap : Readback.Snapshot) :
    List CachedIndexFile → Option (List (Ident × Node))
  | [] => some []
  | file :: files => do
    let node ← snap.nodeAt dest.readable file.path
    let nodes ← fetchIndexNodes dest snap files
    some ((file.machine, node) :: nodes)

/-- A hit that may stand in for the walk, with the index nodes it found. -/
def usableHit (dest : Destination) (depth : ℕ) (snap : Readback.Snapshot) (walk : HostWalk format) :
    Option (SnapshotEntry format.Id × List (Ident × Node)) × HostWalk format :=
  match walk.cache with
  | none => (none, walk)
  | some cache =>
    let (loaded, cache) := cache.load (format.idOf snap)
    let walk := { walk with cache := some cache }
    match loaded with
    | none => (none, walk)
    | some entry =>
      let (held, treesAvailable) := walk.treesAvailable.holds dest entry.trees
      let walk := { walk with treesAvailable }
      if !held then (none, walk)
      else if depth = 0 then
        ((fetchIndexNodes dest snap entry.indexFiles).map fun nodes => (entry, nodes), walk)
      else (some (entry, []), walk)

/-- The report of a snapshot whose tree cannot be read. -/
def walkFailure (format : CacheFormat) (dest : Destination) (host : Ident) (snap : Readback.Snapshot)
    (tree : TreeId) : String :=
  "host `" ++ String.ofList host ++ "`: snapshot " ++ format.short (format.idOf snap) ++
    " tree walk failed: " ++ dest.treeError tree

def visitSnapshot (dest : Destination) (omitted : Ident → Ident → Bool) (host : Ident)
    (walk : HostWalk format) (visited : Readback.Snapshot × ℕ) : HostWalk format :=
  let (snap, depth) := visited
  let id := format.idOf snap
  let (hit, walk) := usableHit dest depth snap walk
  match hit with
  | some (entry, nodes) => { walk with
      snapshotsScanned := walk.snapshotsScanned + 1
      snapshotsFromCache := walk.snapshotsFromCache + 1
      indexNodes := nodes.foldl KeyedList.put walk.indexNodes
      sessions := mergeSessions omitted id snap.time entry.sessions walk.sessions }
  | none =>
    match snap.ls dest.readable with
    | .error tree =>
      { walk with unreadable := walk.unreadable ++ [walkFailure format dest host snap tree] }
    | .ok _ => { walk with
        snapshotsScanned := walk.snapshotsScanned + 1
        indexNodes :=
          if depth = 0 then
            ((indexEntries snap).map fun e => (e.1.machine, e.2)).foldl KeyedList.put
              walk.indexNodes
          else walk.indexNodes
        cache := walk.cache.map fun cache => cache.store (walkEntry format snap)
        sessions := mergeSessions omitted id snap.time (bucketSessions snap) walk.sessions }

section Sidecars

/-- What the activity sidecars of one host said. -/
structure Sidecars (rules : SearchRules) where
  times : List ((Ident ×ₗ Ident) × rules.Indexed)
  accounts : List ((Ident ×ₗ Ident) × List rules.AccountKey)
  machinesWithIndex : List Ident
  partialIndexes : List Ident
  legacyMachines : List Ident
  indexFilesRead : ℕ
  unreadable : List String

/-- One line of an index: a row, or an error that is counted and the first of which is kept. -/
def readIndexLine (machine : Ident) (read : Sidecars rules × ℕ × String) (line : Bytes) :
    Sidecars rules × ℕ × String :=
  if rules.isBlank line then read
  else
    let (sidecars, malformed, firstError) := read
    match rules.parseRow line with
    | .error e => (sidecars, malformed + 1, if malformed = 0 then e else firstError)
    | .ok row =>
      let key := toLex (row.machine, row.sessionId)
      ({ sidecars with
        legacyMachines :=
          if row.title.isNone ∧ machine ∉ sidecars.legacyMachines then
            sidecars.legacyMachines ++ [machine]
          else sidecars.legacyMachines
        times := KeyedList.put sidecars.times (key, indexedTime row)
        accounts :=
          if row.accountKeys.isEmpty then sidecars.accounts
          else KeyedList.put sidecars.accounts (key, row.accountKeys) }, malformed, firstError)

/-- One machine's index: dumped and parsed on every run. -/
def readSidecar (dest : Destination) (host : Ident) (sidecars : Sidecars rules)
    (indexed : Ident × Node) : Sidecars rules :=
  let (machine, node) := indexed
  let where_ := "host `" ++ String.ofList host ++ "` machine `" ++ String.ofList machine ++ "`: "
  match dest.dump node with
  | .error e => { sidecars with
      partialIndexes := machine :: sidecars.partialIndexes
      unreadable := sidecars.unreadable ++ [where_ ++ "activity index exists but could not be " ++
        "read: " ++ e ++ " — that machine's sessions cannot be placed in time, which is NOT the " ++
        "same as having none"] }
  | .ok bytes =>
    let opened := { sidecars with
      indexFilesRead := sidecars.indexFilesRead + 1
      machinesWithIndex := machine :: sidecars.machinesWithIndex }
    let (sidecars, malformed, firstError) :=
      (rules.textLines bytes).foldl (readIndexLine machine) (opened, 0, "")
    if malformed = 0 then sidecars
    else { sidecars with
      partialIndexes := machine :: sidecars.partialIndexes
      unreadable := sidecars.unreadable ++ [where_ ++ toString malformed ++
        " malformed activity index line(s) (first: " ++ firstError ++ ") — the index is partial, " ++
        "so some sessions may be listed as time-unknown that are not"] }

def SessionLabel.fromIndexed (indexed : Option rules.Indexed) (machine : Ident)
    (machineHasIndex : Bool) : SessionLabel rules.Title :=
  let name := String.ofList machine
  match indexed with
  | some t => t.title.elim .legacyIndex .known
  | none => .unknown (if machineHasIndex then
      "machine `" ++ name ++ "`'s activity index in this snapshot has no row for this session, " ++
        "so its label was never recorded"
    else "machine `" ++ name ++ "` has no activity index (`meta/" ++ name ++
      "/activity-v1.jsonl`) in this snapshot, so its label was never recorded")

def missingRowWhy (machine : Ident) (machineHasIndex : Bool) : String :=
  let name := String.ofList machine
  if machineHasIndex then
    "machine `" ++ name ++ "`'s activity index in this snapshot has no row for this session"
  else "machine `" ++ name ++ "` has no activity index (`meta/" ++ name ++
    "/activity-v1.jsonl`) in this snapshot, so its conversation time was never recorded"

def noContentWhy : String := "this session holds no conversation content (no user or assistant " ++
  "message); there is nothing to place in a time bucket"

/-- Place one session by its index row and the selector. -/
def placeSession (sidecars : Sidecars rules) (report : ReportFields format rules)
    (held : (Ident ×ₗ Ident) × SessionSlot format.Id) : ReportFields format rules :=
  let (key, slot) := held
  let machine := (ofLex key).1
  let sessionId := (ofLex key).2
  let harness := rules.inferHarness sessionId
  let indexed := sidecars.times.lookup key
  let accountKeys := (sidecars.accounts.lookup key).getD []
  let hasIndex := decide (machine ∈ sidecars.machinesWithIndex)
  let missing := missingRowWhy machine hasIndex
  let firstUnix := indexed.bind fun t => t.firstUnix
  let lastUnix := indexed.bind fun t => t.lastUnix
  let timeWhy := indexed.elim (some missing) fun t => t.why
  let lineCount := indexed.elim 0 fun t => t.lineCount
  let timeSource := indexed.elim (.unknown missing) fun t => t.source
  let noContent := timeSource matches .noConversationContent
  let extra := indexed.map fun t => t.extra
  let placed := (report.allRecall.lookup machine).getD (0, 0)
  let placed :=
    if firstUnix.isSome && lastUnix.isSome then (placed.1 + 1, placed.2)
    else if !noContent then (placed.1, placed.2 + 1)
    else placed
  let report := { report with
    sessionsSeen := report.sessionsSeen + 1
    allRecall := KeyedList.put report.allRecall (machine, placed) }
  match rules.select ⟨machine, sessionId, harness, firstUnix, lastUnix,
      timeSource matches .partialRange .., timeWhy, extra⟩ with
  | .selected => { report with hits := report.hits ++ [⟨machine, sessionId, harness, slot, firstUnix,
      lastUnix, timeWhy, lineCount, timeSource, .fromIndexed indexed machine hasIndex, extra,
      accountKeys⟩] }
  | .notSelected => { report with notMatched := report.notMatched + 1 }
  | .unevaluated dimension why =>
    let (dimension, why) :=
      if dimension = .time ∧ noContent then (.noContent, noContentWhy) else (dimension, why)
    { report with unplaced := report.unplaced ++ [⟨machine, sessionId, harness, slot, dimension, why,
      lineCount, timeSource, extra⟩] }

end Sidecars

/-- What the search has done so far. -/
structure Searching (format : CacheFormat) (rules : SearchRules) where
  report : ReportFields format rules
  snapshotsFromCache : ℕ
  legacyMachines : List Ident
  cache : Option (CacheDir format)
  treesAvailable : TreeAvailability

/-- The sidecars and verdicts of one host, once its snapshots were visited. -/
def placeHost (dest : Destination) (host : Ident) (newest : HostSnapshot format.Id)
    (report : ReportFields format rules) (legacyMachines : List Ident)
    (sessions : List ((Ident ×ₗ Ident) × SessionSlot format.Id)) (indexNodes : List (Ident × Node)) :
    ReportFields format rules × List Ident :=
  let nodes := KeyedList.inKeyOrder indexNodes
  let sessions := KeyedList.inKeyOrder sessions
  let sidecars := nodes.foldl (readSidecar dest host)
    (⟨[], [], [], [], legacyMachines, report.indexFilesRead, report.unreadable⟩ : Sidecars rules)
  let withIndex := sidecars.machinesWithIndex
  let hasIndex := decide (host ∈ nodes.map Prod.fst)
  let missingRows := (sessions.filter fun e =>
    (ofLex e.1).1 ∈ withIndex && (sidecars.times.lookup e.1).isNone).map fun e => (ofLex e.1).1
  let newest := { newest with
    hasActivityIndex := hasIndex
    indexReadOk := decide (host ∈ withIndex)
    indexTrusted := hasIndex && decide (host ∈ withIndex) &&
      decide (host ∉ sidecars.partialIndexes) && decide (host ∉ missingRows) }
  let report := { report with
    indexFilesRead := sidecars.indexFilesRead
    unreadable := sidecars.unreadable
    hosts := report.hosts ++ [newest]
    machinesWithoutIndex := (sessions.map fun e => (ofLex e.1).1).foldl (fun named machine =>
      if machine ∈ withIndex ∨ machine ∈ named then named else named ++ [machine])
        report.machinesWithoutIndex }
  (sessions.foldl (placeSession sidecars) report, sidecars.legacyMachines)

/-- One host: its snapshots newest first, then its sidecars and verdicts. -/
def searchHost (dest : Destination) (omitted : Ident → Ident → Bool) (s : Searching format rules)
    (grouped : Ident × List Readback.Snapshot) : Searching format rules :=
  let (host, snaps) := grouped
  match snaps.head? with
  | none => s
  | some newest =>
    let walk := snaps.zipIdx.foldl (visitSnapshot dest omitted host)
      ⟨s.report.snapshotsScanned, s.snapshotsFromCache, s.report.unreadable, [], [], s.cache,
        s.treesAvailable⟩
    let report := { s.report with
      snapshotsScanned := walk.snapshotsScanned
      unreadable := walk.unreadable }
    let (report, legacyMachines) := placeHost dest host
      ⟨host, format.idOf newest, newest.time, false, false, false⟩ report s.legacyMachines
        walk.sessions walk.indexNodes
    ⟨report, walk.snapshotsFromCache, legacyMachines, walk.cache, walk.treesAvailable⟩

/-- The report in its final order. -/
def finishReport (report : ReportFields format rules) (legacyMachines : List Ident) :
    ReportFields format rules :=
  { report with
    allRecall := KeyedList.inKeyOrder report.allRecall
    machinesWithoutIndex := report.machinesWithoutIndex.insertionSort (· ≤ ·)
    hits := report.hits.insertionSort fun a b =>
      toLex (a.machine, a.sessionId) ≤ toLex (b.machine, b.sessionId)
    unplaced := report.unplaced.insertionSort fun a b =>
      toLex (a.machine, a.sessionId) ≤ toLex (b.machine, b.sessionId)
    machinesWithLegacyIndex := legacyMachines.insertionSort (· ≤ ·) }

/-- `search_sessions_with_progress`: the report, or why there is none, and the cache it leaves. -/
def searchSessions (rules : SearchRules) (dest : Destination) (cache : Option (CacheDir format)) :
    Except String (SearchReport format rules) × Option (CacheDir format) :=
  let listed := dest.snapshots.map format.idOf
  let cache := cache.map fun cache => cache.retain listed
  match dest.controlPolicy with
  | .error e => (.error e, cache)
  | .ok omitted =>
    let s := (snapshotsByHostNewestFirst dest.snapshots).foldl (searchHost dest omitted)
      (⟨⟨dest.snapshots.length, 0, 0, [], [], [], 0, [], [], [], [], 0⟩, 0, [], cache, []⟩ :
        Searching format rules)
    (.ok ⟨finishReport s.report s.legacyMachines, s.snapshotsFromCache⟩, s.cache)

end ChatStasher.Search
