import ChatStasher.Backfill.DebtRecords
import ChatStasher.Backfill.Ledger
import ChatStasher.Library.StepRun

/-! The move of ChatGPT's ledgers from scopes that name a workspace to scopes that name its
fingerprint: the debt records first, then the state record, and the old key last. -/
namespace ChatStasher.ScopeMigration
open DebtRecords

section Scopes

def scopePrefix : Ident := "chatgpt:".toList

/-- What stands before the digest in a scope that is marked as a fingerprint. -/
def markedPrefix : Ident := "chatgpt:fp1:".toList

def isHexDigit (c : Char) : Bool := ('0' ≤ c && c ≤ '9') || ('a' ≤ c && c ≤ 'f')

def isChatGptScope (scope : Ident) : Bool := scopePrefix.isPrefixOf scope

def isFingerprintedChatGptScope (scope : Ident) : Bool :=
  markedPrefix.isPrefixOf scope && decide ((scope.drop markedPrefix.length).length = 64) &&
    (scope.drop markedPrefix.length).all isHexDigit

def chatGptScopeWorkspace (scope : Ident) : Ident := scope.drop scopePrefix.length

def fingerprintedChatGptScope (fingerprint : Ident) : Ident := markedPrefix ++ fingerprint

def isRaw (scope : Ident) : Bool := isChatGptScope scope && !isFingerprintedChatGptScope scope

/-- The account key of an installation, which makes a digest of each workspace. -/
structure AccountKey where
  fingerprintAccountId : Ident → Ident
  length_fingerprint : ∀ workspace, (fingerprintAccountId workspace).length = 64
  hex : ∀ workspace, (fingerprintAccountId workspace).all isHexDigit

def AccountKey.nextScope (key : AccountKey) (scope : Ident) : Ident :=
  fingerprintedChatGptScope (key.fingerprintAccountId (chatGptScopeWorkspace scope))

lemma isFingerprinted_nextScope (key : AccountKey) (scope : Ident) :
    isFingerprintedChatGptScope (key.nextScope scope) := by
  have hdrop : (key.nextScope scope).drop markedPrefix.length =
      key.fingerprintAccountId (chatGptScopeWorkspace scope) := List.drop_left
  rw [isFingerprintedChatGptScope, hdrop, key.hex, key.length_fingerprint, Bool.and_eq_true,
    Bool.and_eq_true]
  exact ⟨⟨List.isPrefixOf_iff_prefix.mpr (List.prefix_append _ _), rfl⟩, rfl⟩

lemma not_isRaw_nextScope (key : AccountKey) (scope : Ident) :
    isRaw (key.nextScope scope) = false := by
  rw [isRaw, isFingerprinted_nextScope, Bool.not_true, Bool.and_false]

end Scopes

section Rekey

/-- `localeCompare` of two ids: an order in which different ids may tie. -/
structure LocaleOrder where
  le : Ident → Ident → Bool
  total : ∀ a b, le a b || le b a
  trans : ∀ a b c, le a b → le b c → le a c

/-- Pending is the conservative state when two ledgers contain one id. -/
def keptRow (prior row : DebtRecord) : DebtRecord :=
  if prior.state = .pending ∨ row.state = .pending then
    if prior.state = .pending then prior else row
  else prior

variable (locale : LocaleOrder)

def rekeyLe (a b : Ident × DebtRecord) : Prop :=
  a.2.seq < b.2.seq ∨ a.2.seq = b.2.seq ∧ locale.le a.1 b.1

instance rekeyLe.decidable : DecidableRel (rekeyLe locale) :=
  fun _ _ => inferInstanceAs (Decidable (_ ∨ _))

/-- The rows by id, those of the destination first; an index answers in the order of the ids. -/
def rowsById (source destination : Rows) : Rows :=
  (KeyedList.inKeyOrder destination ++ KeyedList.inKeyOrder source).foldl
    (PlacedMap.set keptRow) []

def renumbered (rows : Rows) : Rows :=
  rows.zipIdx.map fun e => (e.1.1, { e.1.2 with seq := e.2 + 1 })

def mergedRows (source destination : Rows) : Rows :=
  renumbered ((rowsById source destination).insertionSort (rekeyLe locale))

/-- The transaction of `rekeyDebtScope`: the rows of the source are deleted, the merged ones put. -/
def rekeyDebtScope (rows : Ident → Rows) (src dst : Ident) : Ident → Rows :=
  if src = dst then rows
  else fun scope =>
    if scope = src then (rows src).filter fun e => e.1 ∉ (rows src).map Prod.fst
    else if scope = dst then
      (mergedRows locale (rows src) (rows dst)).foldl KeyedList.put (rows dst)
    else rows scope

end Rekey

section Migration

inductive Layout
  | current
  | legacy
  deriving DecidableEq

/-- The key of a state record of ChatGPT: its layout's prefix and its scope. -/
abbrev StateKey := Layout × Ident

/-- What is stored under such a key: a header, a record of the old layout, or anything else. -/
inductive StoredState
  | header (header : BackfillHeader) (scope : Ident)
  | legacyState (state : LegacyBackfillState) (scope : Ident)
  | other
  deriving DecidableEq

/-- ChatGPT's debt records by scope, its state records, and the scopes of its registered targets. -/
structure Store where
  rows : Ident → Rows
  records : List (StateKey × StoredState)
  targets : List Ident

def Store.load (s : Store) (key : StateKey) : Option StoredState := s.records.lookup key

def Store.save (s : Store) (key : StateKey) (value : StoredState) : Store :=
  { s with records := KeyedList.put s.records (key, value) }

def Store.remove (s : Store) (key : StateKey) : Store :=
  { s with records := s.records.filter fun r => r.1 ≠ key }

/-- One write of a migration. -/
inductive Turn
  | rekeyDebts (scope : Ident)
  | saveRecord (layout : Layout) (scope : Ident)
  | removeRecord (layout : Layout) (scope : Ident)
  | saveTargets

variable (key : AccountKey) (locale : LocaleOrder)

/-- The record under the new key: a header that is there already is kept. -/
def saveRecord (s : Store) (layout : Layout) (scope : Ident) : Store :=
  let nextScope := key.nextScope scope
  match layout, s.load (layout, scope) with
  | .current, some (.header header _) =>
    match s.load (.current, nextScope) with
    | some (.header destination there) =>
      s.save (.current, nextScope) (.header destination there)
    | _ => s.save (.current, nextScope) (.header header nextScope)
  | .legacy, some (.legacyState state _) =>
    s.save (.legacy, nextScope) (.legacyState state nextScope)
  | _, _ => s

def turn (s : Store) : Turn → Store
  | .rekeyDebts scope =>
    { s with rows := rekeyDebtScope locale s.rows scope (key.nextScope scope) }
  | .saveRecord layout scope => saveRecord key s layout scope
  | .removeRecord layout scope => s.remove (layout, scope)
  | .saveTargets =>
    { s with targets := s.targets.map fun scope =>
        if isRaw scope then key.nextScope scope else scope }

/-- The keys that are moved: those that the storage lists, or, where it lists none, the keys of the
targets. -/
def candidates (listable : Bool) (s : Store) : List StateKey :=
  if listable then (s.records.map Prod.fst).filter fun k => isRaw k.2
  else (s.targets.filter isRaw).map fun scope => (.current, scope)

def keyTurns (k : StateKey) : List Turn :=
  [.rekeyDebts k.2, .saveRecord k.1 k.2, .removeRecord k.1 k.2]

/-- The writes of `migrateChatGptWorkspaceScopes`, as they are planned at its start. -/
def migrationTurns (listable : Bool) (s : Store) : List Turn :=
  (candidates listable s).flatMap keyTurns ++ [.saveTargets]

def migrateChatGptWorkspaceScopes (listable : Bool) (s : Store) : Store :=
  StepRun.exec (turn key locale) s (migrationTurns listable s)

/-- A migration that dies after some of its writes, and one that comes to its end. -/
def migrateAfterCrash (listable : Bool) (s : Store) (writes : ℕ) : Store :=
  migrateChatGptWorkspaceScopes key locale listable
    (StepRun.exec (turn key locale) s ((migrationTurns listable s).take writes))

end Migration

section Opening

def debtRows (rows : Rows) : DebtRows := rows.map fun e => (e.1, ⟨e.2.state, e.2.seq⟩)

def scopeKey (scope : Ident) : ScopeKey := ⟨"chatgpt", String.ofList scope⟩

/-- A record that cannot be read, or that names another scope, refuses the run. -/
def unreadableRecord (stateKey : String) : LedgerOpen :=
  .refused ⟨.stateUnreadable, "the saved state at " ++ stateKey ++ " could not be read; " ++
    "it has been left untouched and this leg will not run against it"⟩

/-- `openLedger` on a scope: a header is checked against the debts; where there is no record, one of
the old layout is moved. -/
def openScope (s : Store) (scope : Ident) : LedgerOpen :=
  let rows := debtRows (s.rows scope)
  match s.load (.current, scope) with
  | some (.header header _) =>
    openHeaderLedger (scopeKey scope) none ⟨rows, some header, none⟩ header
  | some _ => unreadableRecord (stateKey (scopeKey scope))
  | none =>
    match s.load (.legacy, scope) with
    | none => (openFromLegacy (scopeKey scope) none ⟨rows, none, none⟩).2
    | some (.legacyState state there) =>
      if there = scope then (openFromLegacy (scopeKey scope) none ⟨rows, none, some state⟩).2
      else unreadableRecord (legacyStateKey (scopeKey scope))
    | some _ => unreadableRecord (legacyStateKey (scopeKey scope))

/-- The run is refused as one whose ledger does not hold what its header records. -/
def Mismatched : LedgerOpen → Prop
  | .refused r => r.reason = .ledgerMismatch
  | _ => False

end Opening

end ChatStasher.ScopeMigration
