import ChatStasher.Publish.Sweep
import ChatStasher.Readback.Cumulative

/-! The names of session directories: the conversation ids that the producers accept, the identities
of local sessions, and the producer that is read off an archived id. -/
namespace ChatStasher.Inbox
open Readback (inferHarness)
open Sweep (isHexChar)

section Accepted

def isPathUnsafe (c : Char) : Bool := c.toNat < 0x20 || "/\\:*?\"<>| ".toList.contains c

def sanitizePathSegment (s : Text) : Text := s.map fun c => if isPathUnsafe c then '_' else c

/-- A conversation id as a part of a file name: the id itself, or none. -/
def pathSafeSessionId (id : Text) : Option Text :=
  if id.isEmpty then none
  else if sanitizePathSegment id ≠ id then none
  else if ".".toList.isPrefixOf id then none
  else some id

/-- `NAME_RE`: lower-case letters and digits, a dash, and a name with no path separator that ends in
`.json`. -/
def isValidDeliverName (name : Text) : Bool :=
  let isSlug := fun c : Char => c.isLower || c.isDigit
  match name.dropWhile isSlug with
  | '-' :: rest =>
    !(name.takeWhile isSlug).isEmpty &&
      match stripSuffix ".json".toList rest with
      | some stem => !stem.isEmpty && stem.all fun c => c ≠ '/' && c ≠ '\\'
      | none => false
  | _ => false

def deliverName (platform named : Text) : Text := platform ++ '-' :: (named ++ ".json".toList)

/-- The ids that the extension delivers. -/
def extensionAccepts (platform id : Text) : Bool :=
  match pathSafeSessionId id with
  | some named => isValidDeliverName (deliverName platform named)
  | none => false

/-- The ids that the importers carry into a session id. -/
def conversationIdIsSafe (id : Text) : Bool :=
  match id with
  | [] => false
  | first :: rest =>
    first.isAlphanum && (utf8 id).length ≤ 255 &&
      rest.all fun c => c.isAlphanum || c == '-' || c == '_'

/-- A platform slug and a conversation id that a producer accepts. -/
structure Conversation where
  platform : Text
  id : Text
  platform_ne : platform ≠ []
  lower : ∀ c ∈ platform, c.isLower
  accepted : extensionAccepts platform id || conversationIdIsSafe id

@[ext] lemma Conversation.ext {c c' : Conversation} (hplatform : c.platform = c'.platform)
    (hid : c.id = c'.id) : c = c' := by
  cases c
  cases c'
  cases hplatform
  cases hid
  rfl

end Accepted

section Local

inductive HarnessSource
  | claudeCode
  | codex
  | geminiCli
  | googleAntigravity
  | openCode
  | openClaw
  | hermesAgent
  | cursor
  | grok
  | grokBot
  | copilotCli
  | aider
  | crush
  | zed
  | «continue»
  | kimiCode
  | deepSeekHarness
  | codebuff
  | workBuddy
  | codeBuddy
  deriving DecidableEq

def HarnessSource.short : HarnessSource → Text
  | claudeCode => "claude-code".toList
  | codex => "codex".toList
  | geminiCli => "gemini-cli".toList
  | googleAntigravity => "google-antigravity".toList
  | openCode => "opencode".toList
  | openClaw => "openclaw".toList
  | hermesAgent => "hermes-agent".toList
  | cursor => "cursor".toList
  | grok => "grok".toList
  | grokBot => "grok-bot".toList
  | copilotCli => "github-copilot-cli".toList
  | aider => "aider".toList
  | crush => "crush".toList
  | zed => "zed".toList
  | «continue» => "continue".toList
  | kimiCode => "kimi-code".toList
  | deepSeekHarness => "deepseek-harness".toList
  | codebuff => "codebuff".toList
  | workBuddy => "workbuddy".toList
  | codeBuddy => "codebuddy".toList

def collapseDashes : Bool → Text → Text
  | _, [] => []
  | previousDash, c :: rest =>
    if c = '-' then
      if previousDash then collapseDashes true rest else '-' :: collapseDashes true rest
    else c :: collapseDashes false rest

/-- A host name as the machine component; `lower` is `str::to_lowercase`. -/
def normalizeMachine (lower : Text → Text) (raw : Text) : Text :=
  let dashed := (lower raw).map fun c => if c.isAlphanum || c == '-' then c else '-'
  (collapseDashes false dashed).take 40

/-- What the id of a local session is made of; the machine has been normalized. -/
structure SessionIdentity (lower : Text → Text) where
  source : HarnessSource
  machine : Text
  nativeId : Text
  normalized : ∃ raw, normalizeMachine lower raw = machine

def SessionIdentity.id {lower : Text → Text} (hexPrefix : Text → ℕ → Text)
    (identity : SessionIdentity lower) : Text :=
  boundedPathComponent hexPrefix
    (identity.source.short ++ '.' :: (identity.machine ++ '.' :: identity.nativeId))
    maxPathComponentBytes

end Local

section Producers

inductive IdProducer
  | webCapture
  | localHarness
  deriving DecidableEq

/-- The display form of an id: fifteen bytes with the separator after the eighth. -/
def isDisplayShortId (sessionId : Text) : Bool :=
  let bytes := utf8 sessionId
  bytes.length == 15 && bytes[8]? == some 0x7E

/-- The producer of an archived id, read off the number of its segments. -/
def idProducer (sessionId : Text) : Option IdProducer :=
  if (inferHarness sessionId).isNone then none
  else if isDisplayShortId sessionId then none
  else
    let separators := sessionId.count '.'
    if separators = 0 then none
    else some (if separators ≥ 2 then .localHarness else .webCapture)

end Producers

/-- The hexadecimal prefixes of the digest of a text. -/
structure HexDigest where
  hexPrefix : Text → ℕ → Text
  length_hexPrefix : ∀ value n, n ≤ 64 → (hexPrefix value n).length = n
  hex : ∀ value n, ∀ c ∈ hexPrefix value n, isHexChar c

end ChatStasher.Inbox
