import CbclPairing.Calls
import CbclPairing.Wire
import CbclPairing.Wire.Grammar

/-! The nine wire types of version 1, with their recognisers and deterministic
encoders. An encoder checks that the recogniser accepts what it wrote. -/
namespace CbclPairing
namespace Wire
open Codec Codec.Cbor Codec.Cddl

/-- A Rust string: octets that are UTF-8. -/
abbrev Text := {s : Bytes // validUtf8 s = true}

structure Invitation where
  application : Text
  relayOrigin : Text
  locator : Locator
  secret : Bytes
  expectedAllocatorKey : Option (Octets 32)
  expectedClaimantKey : Option (Octets 32)
  deriving DecidableEq

/-- A CPace share and the sender's exact associated data. -/
structure CpaceMessage where
  side : Side
  share : Octets 32
  associatedData : Bytes
  deriving DecidableEq

inductive ChannelFrame where
  | cpace (side : Side) (control message : Bytes)
  | finished (side : Side) (control : Bytes) (value : Octets 64)
  | sealed (direction : Direction) (counter : UInt64) (ciphertext : Bytes)
  deriving DecidableEq

structure SealedPlaintext where
  control : Bytes
  body : Option Bytes
  deriving DecidableEq

structure PairingIntent where
  application : Text
  action : Text
  allocatorClaim : Bytes
  claimantClaim : Bytes
  authoritySummary : Text
  intentNonce : Octets 32
  deriving DecidableEq

inductive Decision where
  | approve
  | decline
  deriving DecidableEq, Repr

structure PairingDecision where
  intentDigest : Octets 32
  decision : Decision
  deriving DecidableEq

structure ApplicationPayload where
  intentDigest : Octets 32
  payloadType : Text
  body : Bytes
  deriving DecidableEq

/-! ### Recognition -/

mutual

def hasDuplicateKey : Value → Except RecognitionError Bool
  | .array items => duplicateInItems items
  | .map entries => duplicateInEntries [] entries
  | .tag _ item => hasDuplicateKey item
  | .integer _ | .bytes _ | .text _ | .bool _ | .null | .float _ => .ok false
  termination_by structural v => v

def duplicateInItems : List Value → Except RecognitionError Bool
  | [] => .ok false
  | item :: items => do
    if ← hasDuplicateKey item then .ok true else duplicateInItems items
  termination_by structural items => items

/-- The loop over a map, with the encoded keys met so far. -/
def duplicateInEntries (keys : List Bytes) :
    List (Value × Value) → Except RecognitionError Bool
  | [] => .ok false
  | entry :: entries =>
    match canonicalVec? entry.1 with
    | none => .error .nonDeterministic
    | some key =>
      if key ∈ keys then .ok true
      else do
        if ← duplicateInEntry entry then .ok true else duplicateInEntries (key :: keys) entries
  termination_by structural entries => entries

def duplicateInEntry : Value × Value → Except RecognitionError Bool
  | (key, item) => do
    if ← hasDuplicateKey key then .ok true else hasDuplicateKey item
  termination_by structural entry => entry

end

def recogniseValue (input : Bytes) (rule : Rule) : Except RecognitionError Value :=
  match decodeItem maxDepth input with
  | .error _ => .error .malformedCbor
  | .ok (value, rest) =>
    if rest ≠ [] then .error .trailingBytes
    else
      match canonicalVec? value with
      | some canonical =>
        if canonical ≠ input then .error .nonDeterministic
        else do
          if ← hasDuplicateKey value then .error .duplicateKey
          else if rule value then .ok value else .error .schema
      | none => do
        if ← hasDuplicateKey value then .error .duplicateKey else .error .nonDeterministic

def orTyped {α : Type} : Option α → Except RecognitionError α
  | some a => .ok a
  | none => .error .typedValue

def deterministicBytes (value : Value) : Except RecognitionError Bytes :=
  orTyped (canonicalVec? value)

/-- How one wire type is recognised and written: its rule, the typed reading of
a recognised item, and the item a value is encoded as. -/
structure Format (α : Type) where
  rule : Rule
  read : Value → Except RecognitionError α
  value : α → Value

namespace Format

variable {α : Type}

def decode (f : Format α) (input : Bytes) : Except RecognitionError α := do
  f.read (← recogniseValue input f.rule)

def encode (f : Format α) (x : α) : Except RecognitionError Bytes := do
  let encoded ← deterministicBytes (f.value x)
  let _ ← f.decode encoded
  .ok encoded

end Format

/-! ### Field readers -/

def mapEntries : Value → Except RecognitionError Fields
  | .map entries => .ok (fieldsOf entries)
  | _ => .error .typedValue

def field (entries : Fields) (name : String) : Except RecognitionError Value :=
  orTyped (entries name)

def textValue : Value → Except RecognitionError Text
  | .text s => if h : validUtf8 s = true then .ok ⟨s, h⟩ else .error .typedValue
  | _ => .error .typedValue

def bytesValue (value : Value) : Except RecognitionError Bytes := orTyped value.asBytes

def uintValue (value : Value) : Except RecognitionError ℕ := orTyped value.asUint

def fixedBytes (n : ℕ) (value : Value) : Except RecognitionError (Octets n) := do
  orTyped (Octets.ofList? n (← bytesValue value))

/-- `u8::try_from`. -/
def u8Value (value : Value) : Except RecognitionError UInt8 := do
  let n ← uintValue value
  if n < 2 ^ 8 then .ok (UInt8.ofNat n) else .error .typedValue

/-- `try_from` into an unsigned type of `bits` bits. -/
def narrowValue (bits : ℕ) (value : Value) : Except RecognitionError ℕ := do
  let n ← uintValue value
  if n < 2 ^ bits then .ok n else .error .typedValue

def u64Value (value : Value) : Except RecognitionError UInt64 := do
  .ok (UInt64.ofNat (← uintValue value))

def optionally {α : Type} (read : Value → Except RecognitionError α) :
    Option Value → Except RecognitionError (Option α)
  | none => .ok none
  | some value => do .ok (some (← read value))

/-- The branch that a type text selects, in the order of the `match`. -/
def dispatch {α : Type} (branches : List (String × (Fields → Except RecognitionError α)))
    (kind : Bytes) (entries : Fields) : Except RecognitionError α :=
  match branches.find? fun branch => ascii branch.1 == kind with
  | some branch => branch.2 entries
  | none => .error .typedValue

def locatorValue : Value → Except RecognitionError Locator
  | .array [mode, payload] => do
    match ← uintValue mode with
    | 0 => .ok (.direct (← fixedBytes 32 payload))
    | 1 => .ok (.nameplate (← narrowValue 32 payload))
    | _ => .error .typedValue
  | _ => .error .typedValue

def encodedLocator : Locator → Value
  | .direct mailboxId => .array [.integer 0, .bytes mailboxId.val]
  | .nameplate nameplate => .array [.integer 1, .integer nameplate]

def side (value : Value) : Except RecognitionError Side := do
  match ← uintValue value with
  | 0 => .ok .allocator
  | 1 => .ok .claimant
  | _ => .error .typedValue

def direction (value : Value) : Except RecognitionError Direction := do
  match ← uintValue value with
  | 0 => .ok .allocatorToClaimant
  | 1 => .ok .claimantToAllocator
  | _ => .error .typedValue

def encodedSide : Side → Value
  | .allocator => .integer 0
  | .claimant => .integer 1

def encodedDirection : Direction → Value
  | .allocatorToClaimant => .integer 0
  | .claimantToAllocator => .integer 1

def map (entries : List (String × Value)) : Value := .map (named entries)

/-- The entry an encoder pushes only when there is a value. -/
def pushed {α : Type} (name : String) (encoded : α → Value) : Option α → List (String × Value)
  | none => []
  | some a => [(name, encoded a)]

/-! ### Identifiers and origins -/

def isAsciiAlphabetic (b : UInt8) : Bool := (65 ≤ b && b ≤ 90) || (97 ≤ b && b ≤ 122)
def isAsciiDigit (b : UInt8) : Bool := 48 ≤ b && b ≤ 57
def isAsciiAlphanumeric (b : UInt8) : Bool := isAsciiAlphabetic b || isAsciiDigit b

def validDnsLabel (label : Bytes) : Bool :=
  label.head?.any isAsciiAlphabetic &&
    (label.length == 1 ||
      ((label.drop 1).dropLast.all (fun b => isAsciiAlphanumeric b || b == 45) &&
        label.getLast?.any isAsciiAlphanumeric))

/-- `domain "/" profile "/" "v" 1*2DIGIT`, with at least two labels in the domain. -/
def validApplicationId (application : Bytes) : Bool :=
  isAscii application &&
    match application.splitOn 47 with
    | [domain, profile, version] =>
      let labels := domain.splitOn 46
      2 ≤ labels.length && labels.all validDnsLabel &&
        profile.head?.any isAsciiAlphabetic &&
        profile.all (fun b => isAsciiAlphanumeric b || b == 45) &&
        match version with
        | 118 :: digits => 1 ≤ digits.length && digits.length ≤ 2 && digits.all isAsciiDigit
        | _ => false
    | _ => false

/-- `isRootOrigin` is the URL parser's answer: the text parses, has no user
information, query or fragment, stands at the root path, and is the ASCII
serialisation of its own origin. -/
def validRelayOrigin (isRootOrigin : Bytes → Bool) (origin : Bytes) : Bool :=
  isAscii origin &&
    ((ascii "https://").isPrefixOf origin || (ascii "wss://").isPrefixOf origin) &&
    isRootOrigin origin

def validateApplication (application : Bytes) : Except RecognitionError Unit :=
  if validApplicationId application then .ok () else .error .applicationId

def validateOrigin (isRootOrigin : Bytes → Bool) (origin : Bytes) : Except RecognitionError Unit :=
  if validRelayOrigin isRootOrigin origin then .ok () else .error .relayOrigin

/-! ### Invitations -/

def readInvitation (isRootOrigin : Bytes → Bool) (value : Value) :
    Except RecognitionError Invitation := do
  let entries ← mapEntries value
  let application ← textValue (← field entries "application")
  let relayOrigin ← textValue (← field entries "relay-origin")
  validateApplication application.val
  validateOrigin isRootOrigin relayOrigin.val
  let locator ← locatorValue (← field entries "locator")
  let secret ← bytesValue (← field entries "secret")
  let expectedAllocatorKey ← optionally (fixedBytes 32) (entries "expected-allocator-key")
  let expectedClaimantKey ← optionally (fixedBytes 32) (entries "expected-claimant-key")
  .ok { application, relayOrigin, locator, secret, expectedAllocatorKey, expectedClaimantKey }

def Invitation.entries (i : Invitation) : List (String × Value) :=
  [("version", .integer 1),
    ("suite", .text suiteId),
    ("application", .text i.application.val),
    ("relay-origin", .text i.relayOrigin.val),
    ("locator", encodedLocator i.locator),
    ("secret", .bytes i.secret)] ++
    pushed "expected-allocator-key" (fun key : Octets 32 => .bytes key.val) i.expectedAllocatorKey ++
    pushed "expected-claimant-key" (fun key : Octets 32 => .bytes key.val) i.expectedClaimantKey

def invitation (isRootOrigin : Bytes → Bool) : Format Invitation where
  rule := Grammar.pairingInvitation
  read := readInvitation isRootOrigin
  value i := map i.entries

def decodeInvitation (isRootOrigin : Bytes → Bool) := (invitation isRootOrigin).decode
def encodeInvitation (isRootOrigin : Bytes → Bool) := (invitation isRootOrigin).encode

/-! ### Client messages -/

def clientBranches : List (String × (Fields → Except RecognitionError ClientMessage)) :=
  [("bind", fun _ => .ok .bind),
    ("allocate", fun entries => do
      let locatorMode ← u8Value (← field entries "locator-mode")
      let ttlSeconds ← optionally (narrowValue 32) (entries "ttl-seconds")
      .ok (.allocate locatorMode ttlSeconds)),
    ("claim", fun entries => do
      let locator ← locatorValue (← field entries "locator")
      .ok (.claim locator)),
    ("allocate-v2", fun entries => do
      let mailboxId ← fixedBytes 32 (← field entries "mailbox-id")
      let claimCommitment ← fixedBytes 32 (← field entries "claim-commitment")
      let ttlSeconds ← optionally (narrowValue 16) (entries "ttl-seconds")
      .ok (.allocateV2 mailboxId claimCommitment ttlSeconds)),
    ("claim-v2", fun entries => do
      let mailboxId ← fixedBytes 32 (← field entries "mailbox-id")
      let claimToken ← fixedBytes 16 (← field entries "claim-token")
      .ok (.claimV2 mailboxId claimToken)),
    ("open", fun entries => do
      let mailboxId ← fixedBytes 32 (← field entries "mailbox-id")
      let membershipToken ← fixedBytes 32 (← field entries "membership-token")
      .ok (.openMailbox mailboxId membershipToken)),
    ("put", fun entries => do
      let seq ← u8Value (← field entries "seq")
      let body ← bytesValue (← field entries "body")
      .ok (.put seq body)),
    ("ack", fun entries => do
      let peerSeq ← u8Value (← field entries "peer-seq")
      .ok (.ack peerSeq)),
    ("close", fun _ => .ok .close),
    ("ping", fun _ => .ok .ping)]

def readClientMessage (value : Value) : Except RecognitionError ClientMessage := do
  let entries ← mapEntries value
  let kind ← textValue (← field entries "type")
  dispatch clientBranches kind.val entries

def clientEntries : ClientMessage → List (String × Value)
  | .bind => [("type", .text (ascii "bind")), ("version", .integer 1)]
  | .allocate locatorMode ttlSeconds =>
    [("type", .text (ascii "allocate")), ("locator-mode", .integer locatorMode.toNat)] ++
      pushed "ttl-seconds" (fun ttl : ℕ => .integer ttl) ttlSeconds
  | .claim locator => [("type", .text (ascii "claim")), ("locator", encodedLocator locator)]
  | .allocateV2 mailboxId claimCommitment ttlSeconds =>
    [("type", .text (ascii "allocate-v2")), ("mailbox-id", .bytes mailboxId.val),
      ("claim-commitment", .bytes claimCommitment.val)] ++
      pushed "ttl-seconds" (fun ttl : ℕ => .integer ttl) ttlSeconds
  | .claimV2 mailboxId claimToken =>
    [("type", .text (ascii "claim-v2")), ("mailbox-id", .bytes mailboxId.val),
      ("claim-token", .bytes claimToken.val)]
  | .openMailbox mailboxId membershipToken =>
    [("type", .text (ascii "open")), ("mailbox-id", .bytes mailboxId.val),
      ("membership-token", .bytes membershipToken.val)]
  | .put seq body =>
    [("type", .text (ascii "put")), ("seq", .integer seq.toNat), ("body", .bytes body)]
  | .ack peerSeq => [("type", .text (ascii "ack")), ("peer-seq", .integer peerSeq.toNat)]
  | .close => [("type", .text (ascii "close"))]
  | .ping => [("type", .text (ascii "ping"))]

def clientMessage : Format ClientMessage where
  rule := Grammar.clientMessage
  read := readClientMessage
  value message := map (clientEntries message)

def decodeClientMessage := clientMessage.decode
def encodeClientMessage := clientMessage.encode

/-! ### Server messages -/

def closeReason (value : Value) : Except RecognitionError CloseReason := do
  let reason ← textValue value
  if reason.val = ascii "closed" then .ok .closed
  else if reason.val = ascii "crowded" then .ok .crowded
  else if reason.val = ascii "expired" then .ok .expired
  else if reason.val = ascii "conflict" then .ok .conflict
  else .error .typedValue

def encodedReason : CloseReason → Value
  | .closed => .text (ascii "closed")
  | .crowded => .text (ascii "crowded")
  | .expired => .text (ascii "expired")
  | .conflict => .text (ascii "conflict")

/-- The fields of a membership granted without a nameplate. -/
def readGranted (reply : Octets 32 → Octets 32 → UInt64 → ServerMessage) (entries : Fields) :
    Except RecognitionError ServerMessage := do
  let mailboxId ← fixedBytes 32 (← field entries "mailbox-id")
  let membershipToken ← fixedBytes 32 (← field entries "membership-token")
  let expiresAt ← u64Value (← field entries "expires-at")
  .ok (reply mailboxId membershipToken expiresAt)

def serverBranches : List (String × (Fields → Except RecognitionError ServerMessage)) :=
  [("welcome", fun _ => .ok .welcome),
    ("allocated", fun entries => do
      let mailboxId ← fixedBytes 32 (← field entries "mailbox-id")
      let membershipToken ← fixedBytes 32 (← field entries "membership-token")
      let nameplate ← optionally (narrowValue 32) (entries "nameplate")
      let expiresAt ← u64Value (← field entries "expires-at")
      .ok (.allocated mailboxId membershipToken nameplate expiresAt)),
    ("claimed", readGranted .claimed),
    ("allocated-v2", readGranted .allocatedV2),
    ("claimed-v2", readGranted .claimedV2),
    ("frame", fun entries => do
      let peerSeq ← u8Value (← field entries "peer-seq")
      let body ← bytesValue (← field entries "body")
      .ok (.frame peerSeq body)),
    ("acknowledged", fun entries => do
      let seq ← u8Value (← field entries "seq")
      .ok (.acknowledged seq)),
    ("closed", fun entries => do
      let reason ← closeReason (← field entries "reason")
      .ok (.closed reason)),
    ("error", fun entries => do
      let code ← narrowValue 16 (← field entries "code")
      .ok (.error code)),
    ("pong", fun _ => .ok .pong)]

def readServerMessage (value : Value) : Except RecognitionError ServerMessage := do
  let entries ← mapEntries value
  let kind ← textValue (← field entries "type")
  dispatch serverBranches kind.val entries

def grantedEntries (kind : String) (mailboxId membershipToken : Octets 32) (expiresAt : UInt64) :
    List (String × Value) :=
  [("type", .text (ascii kind)), ("mailbox-id", .bytes mailboxId.val),
    ("membership-token", .bytes membershipToken.val), ("expires-at", .integer expiresAt.toNat)]

def serverEntries : ServerMessage → List (String × Value)
  | .welcome => [("type", .text (ascii "welcome")), ("version", .integer 1)]
  | .allocated mailboxId membershipToken nameplate expiresAt =>
    grantedEntries "allocated" mailboxId membershipToken expiresAt ++
      pushed "nameplate" (fun number : ℕ => .integer number) nameplate
  | .claimed mailboxId membershipToken expiresAt =>
    grantedEntries "claimed" mailboxId membershipToken expiresAt
  | .allocatedV2 mailboxId membershipToken expiresAt =>
    grantedEntries "allocated-v2" mailboxId membershipToken expiresAt
  | .claimedV2 mailboxId membershipToken expiresAt =>
    grantedEntries "claimed-v2" mailboxId membershipToken expiresAt
  | .frame peerSeq body =>
    [("type", .text (ascii "frame")), ("peer-seq", .integer peerSeq.toNat), ("body", .bytes body)]
  | .acknowledged seq => [("type", .text (ascii "acknowledged")), ("seq", .integer seq.toNat)]
  | .closed reason => [("type", .text (ascii "closed")), ("reason", encodedReason reason)]
  | .error code => [("type", .text (ascii "error")), ("code", .integer code)]
  | .pong => [("type", .text (ascii "pong"))]

def serverMessage : Format ServerMessage where
  rule := Grammar.serverMessage
  read := readServerMessage
  value message := map (serverEntries message)

def decodeServerMessage := serverMessage.decode
def encodeServerMessage := serverMessage.encode

/-! ### CPace messages and channel frames -/

def readCpaceMessage : Value → Except RecognitionError CpaceMessage
  | .array [version, role, share, associatedData] => do
    if (← uintValue version) ≠ 1 then .error .typedValue
    else do
      let side ← side role
      let share ← fixedBytes 32 share
      let associatedData ← bytesValue associatedData
      .ok { side, share, associatedData }
  | _ => .error .typedValue

def cpaceMessage : Format CpaceMessage where
  rule := Grammar.cpaceMessage
  read := readCpaceMessage
  value m := .array
    [.integer 1, encodedSide m.side, .bytes m.share.val, .bytes m.associatedData]

def decodeCpaceMessage := cpaceMessage.decode
def encodeCpaceMessage := cpaceMessage.encode

def frameBranches : List (String × (Fields → Except RecognitionError ChannelFrame)) :=
  [("cpace", fun entries => do
      let outerSide ← side (← field entries "role")
      let message ← bytesValue (← field entries "message")
      let nested ← decodeCpaceMessage message
      if nested.side ≠ outerSide then .error .typedValue
      else do
        let control ← bytesValue (← field entries "control")
        .ok (.cpace outerSide control message)),
    ("finished", fun entries => do
      let side ← side (← field entries "role")
      let control ← bytesValue (← field entries "control")
      let value ← fixedBytes 64 (← field entries "value")
      .ok (.finished side control value)),
    ("sealed", fun entries => do
      let direction ← direction (← field entries "direction")
      let counter ← u64Value (← field entries "counter")
      let ciphertext ← bytesValue (← field entries "ciphertext")
      .ok (.sealed direction counter ciphertext))]

def readChannelFrame (value : Value) : Except RecognitionError ChannelFrame := do
  let entries ← mapEntries value
  let kind ← textValue (← field entries "kind")
  dispatch frameBranches kind.val entries

def frameEntries : ChannelFrame → List (String × Value)
  | .cpace side control message =>
    [("v", .integer 1), ("kind", .text (ascii "cpace")), ("role", encodedSide side),
      ("control", .bytes control), ("message", .bytes message)]
  | .finished side control value =>
    [("v", .integer 1), ("kind", .text (ascii "finished")), ("role", encodedSide side),
      ("control", .bytes control), ("value", .bytes value.val)]
  | .sealed direction counter ciphertext =>
    [("v", .integer 1), ("kind", .text (ascii "sealed")),
      ("direction", encodedDirection direction), ("counter", .integer counter.toNat),
      ("ciphertext", .bytes ciphertext)]

def channelFrame : Format ChannelFrame where
  rule := Grammar.cpaceChannelFrame
  read := readChannelFrame
  value frame := map (frameEntries frame)

def decodeChannelFrame := channelFrame.decode
def encodeChannelFrame := channelFrame.encode

/-! ### Application values -/

def readSealedPlaintext (value : Value) : Except RecognitionError SealedPlaintext := do
  let entries ← mapEntries value
  let control ← bytesValue (← field entries "control")
  let body ← optionally bytesValue (entries "body")
  .ok { control, body }

def SealedPlaintext.entries (p : SealedPlaintext) : List (String × Value) :=
  [("control", .bytes p.control)] ++ pushed "body" Value.bytes p.body

def sealedPlaintext : Format SealedPlaintext where
  rule := Grammar.sealedPlaintext
  read := readSealedPlaintext
  value p := map p.entries

def decodeSealedPlaintext := sealedPlaintext.decode
def encodeSealedPlaintext := sealedPlaintext.encode

def readPairingIntent (value : Value) : Except RecognitionError PairingIntent := do
  let entries ← mapEntries value
  let application ← textValue (← field entries "application")
  validateApplication application.val
  let action ← textValue (← field entries "action")
  let allocatorClaim ← bytesValue (← field entries "allocator-claim")
  let claimantClaim ← bytesValue (← field entries "claimant-claim")
  let authoritySummary ← textValue (← field entries "authority-summary")
  let intentNonce ← fixedBytes 32 (← field entries "intent-nonce")
  .ok { application, action, allocatorClaim, claimantClaim, authoritySummary, intentNonce }

def PairingIntent.entries (i : PairingIntent) : List (String × Value) :=
  [("type", .text (ascii "intent")),
    ("application", .text i.application.val),
    ("action", .text i.action.val),
    ("allocator-claim", .bytes i.allocatorClaim),
    ("claimant-claim", .bytes i.claimantClaim),
    ("authority-summary", .text i.authoritySummary.val),
    ("intent-nonce", .bytes i.intentNonce.val)]

def pairingIntent : Format PairingIntent where
  rule := Grammar.pairingIntent
  read := readPairingIntent
  value i := map i.entries

def decodePairingIntent := pairingIntent.decode
def encodePairingIntent := pairingIntent.encode

def decision (value : Value) : Except RecognitionError Decision := do
  let decision ← textValue value
  if decision.val = ascii "approve" then .ok .approve
  else if decision.val = ascii "decline" then .ok .decline
  else .error .typedValue

def encodedDecision : Decision → Value
  | .approve => .text (ascii "approve")
  | .decline => .text (ascii "decline")

def readPairingDecision (value : Value) : Except RecognitionError PairingDecision := do
  let entries ← mapEntries value
  let intentDigest ← fixedBytes 32 (← field entries "intent-digest")
  let decision ← decision (← field entries "decision")
  .ok { intentDigest, decision }

def PairingDecision.entries (d : PairingDecision) : List (String × Value) :=
  [("type", .text (ascii "decision")),
    ("intent-digest", .bytes d.intentDigest.val),
    ("decision", encodedDecision d.decision)]

def pairingDecision : Format PairingDecision where
  rule := Grammar.pairingDecision
  read := readPairingDecision
  value d := map d.entries

def decodePairingDecision := pairingDecision.decode
def encodePairingDecision := pairingDecision.encode

def readApplicationPayload (value : Value) : Except RecognitionError ApplicationPayload := do
  let entries ← mapEntries value
  let intentDigest ← fixedBytes 32 (← field entries "intent-digest")
  let payloadType ← textValue (← field entries "payload-type")
  let body ← bytesValue (← field entries "body")
  .ok { intentDigest, payloadType, body }

def ApplicationPayload.entries (p : ApplicationPayload) : List (String × Value) :=
  [("type", .text (ascii "payload")),
    ("intent-digest", .bytes p.intentDigest.val),
    ("payload-type", .text p.payloadType.val),
    ("body", .bytes p.body)]

def applicationPayload : Format ApplicationPayload where
  rule := Grammar.applicationPayload
  read := readApplicationPayload
  value p := map p.entries

def decodeApplicationPayload := applicationPayload.decode
def encodeApplicationPayload := applicationPayload.encode

end Wire
end CbclPairing
