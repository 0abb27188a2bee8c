import CbclPairing.Contracts
import CbclPairing.Primitives
import Mathlib.Data.List.Sort

/-! The adapter between an endpoint and the CBCL engine: signed controls, the
bootstrap history that binds one ceremony key to each role, and the session
history under the opened role cast. The engine itself is a parameter. -/
namespace CbclPairing
namespace Pairing
open Codec Codec.Cbor Calls

def maxControlOctets : ℕ := 2048
def maxControlDepth : ℕ := 8
def maxAdjacentBodyOctets : ℕ := 65536
def keyPrefix : Bytes := ascii "@ed25519:"
def sha256Prefix : Bytes := ascii "sha256:"

def sessionDialectHash : Bytes :=
  ascii "sha256:465e218843248ed867dfa385e498169607daf49c031fca7173891578e60fab3c"

/-! ### Expressions and messages -/

/-- The atoms the adapter builds or matches; `other` is any other one. -/
inductive Atom where
  | symbol (s : Bytes)
  | str (s : Bytes)
  | num (n : ℤ)
  | keyword (s : Bytes)
  | other (text : Bytes)
  deriving DecidableEq

inductive SExpr where
  | atom (a : Atom)
  | list (items : List SExpr)

mutual

def SExpr.decEq : (a b : SExpr) → Decidable (a = b)
  | .atom a, .atom b => decidable_of_iff (a = b) (by simp)
  | .list a, .list b =>
    match SExpr.decEqItems a b with
    | isTrue h => isTrue (congrArg SExpr.list h)
    | isFalse h => isFalse fun h' => h (SExpr.list.inj h')
  | .atom _, .list _ => isFalse nofun
  | .list _, .atom _ => isFalse nofun
  termination_by structural a => a

def SExpr.decEqItems : (a b : List SExpr) → Decidable (a = b)
  | [], [] => isTrue rfl
  | x :: xs, y :: ys =>
    match SExpr.decEq x y, SExpr.decEqItems xs ys with
    | isTrue h, isTrue h' => isTrue (by rw [h, h'])
    | isFalse h, _ => isFalse fun h' => h (List.cons.inj h').1
    | _, isFalse h => isFalse fun h' => h (List.cons.inj h').2
  | [], _ :: _ => isFalse nofun
  | _ :: _, [] => isFalse nofun
  termination_by structural a => a

end

instance : DecidableEq SExpr := SExpr.decEq

inductive CausedBy where
  | begin
  | single (hash : Bytes)
  | multiple (hashes : List Bytes)
  deriving DecidableEq

/-- A core performative, or one that a dialect defines, with its name. -/
structure Performative where
  core : Bool
  name : Bytes
  deriving DecidableEq

structure SimpleMessage where
  performative : Performative
  recipient : Option (List Bytes)
  content : SExpr
  params : List SExpr
  thread : Option Bytes
  sender : Option Bytes
  causedBy : Option CausedBy
  deriving DecidableEq

inductive WrapperType where
  | signed
  | withRoles
  | other (name : Bytes)
  deriving DecidableEq

/-- Simple and wrapped messages; `other` is any message of another kind. -/
inductive Message where
  | simple (m : SimpleMessage)
  | wrapped (wrapper : WrapperType) (params : List SExpr) (content : Message)
  | other (text : Bytes)
  deriving DecidableEq

inductive PairingRole where
  | allocator
  | claimant
  deriving DecidableEq, Repr

inductive ProtocolVerdict where
  | valid
  | unknown
  | violation
  deriving DecidableEq, Repr

/-- The functions of the CBCL engine and of the Ed25519 library that the adapter
calls. Their answers are arbitrary. -/
class Cbcl where
  /-- `str::parse::<SExpr>`, then `Message::try_from`. -/
  parse : Bytes → Option Message
  /-- `SExpr::from(message).to_string()`. -/
  display : Message → Bytes
  canonicalEncode : Message → Bytes
  innermostSimple : Message → Option Message
  recipientSet : Message → List Bytes
  causedBy : Message → Option CausedBy
  Registry : Type
  /-- The registry with the two embedded dialects, when they install. -/
  install : Option Registry
  evaluate : Message → Registry → Bool
  Protocol : Type
  bootstrapProtocol : Registry → Option Protocol
  Store : Type
  emptyStore : Store
  append : (contentHash thread : Bytes) → Message → Store → Bool × Store
  verifyCausal : (performative : Bytes) → Option CausedBy → Store → Protocol → (thread : Bytes) →
    ProtocolVerdict
  Cast : Type
  parseWrapperCast : List SExpr → Registry → Option Cast
  singleton : Cast → List (Bytes × Bytes)
  indexedIsEmpty : Cast → Bool
  dialectPin : Cast → Option Bytes
  r6Violated : Registry → Cast → Bool
  Projection : Type
  project : Registry → PairingRole → Cast → Projection
  hasStep : Projection → Bytes → Bool
  verifyCausalForRole : Message → PairingRole → Registry → Cast → Store → (thread root : Bytes) →
    ProtocolVerdict
  verifyingKey : Octets 32 → Octets 32
  isVerifyingKey : Octets 32 → Bool
  sign : (secret : Octets 32) → Bytes → Octets 64
  verifyStrict : (key : Octets 32) → Bytes → Octets 64 → Bool

/-! ### Hexadecimal text -/

def hexDigit (n : UInt8) : UInt8 := if n < 10 then 48 + n else 87 + n

def lowerHex (bytes : Bytes) : Bytes :=
  bytes.flatMap fun b : UInt8 => [hexDigit (b >>> 4), hexDigit (b &&& 0x0f)]

def lowerHexNibble (b : UInt8) : Option UInt8 :=
  if 48 ≤ b ∧ b ≤ 57 then some (b - 48)
  else if 97 ≤ b ∧ b ≤ 102 then some (b - 97 + 10)
  else none

def decodePairs : Bytes → Option Bytes
  | high :: low :: rest => do
    let high ← lowerHexNibble high
    let low ← lowerHexNibble low
    some (((high <<< 4) ||| low) :: (← decodePairs rest))
  | _ => some []

def decodeLowerHex (n : ℕ) (value : Bytes) : Option (Octets n) :=
  if value.length ≠ n * 2 then none else do Octets.ofList? n (← decodePairs value)

def sha256Hex [Primitives] (bytes : Bytes) : Bytes := lowerHex (sha256 bytes).val

/-- The ceremony identifier of the exact invitation octets. -/
def ceremonyId [Primitives] (invitation : Bytes) : Bytes := sha256Hex invitation

/-! ### Keys -/

/-- Errors of the adapter. -/
inductive ProtocolError where
  | dialect
  | malformedControl
  | signature
  | thread
  | performative
  | bodyBinding
  | keyBinding
  | roleOpener
  deriving DecidableEq, Repr

/-- The text of a public ceremony key. -/
structure CeremonyKeyId where
  text : Bytes
  deriving DecidableEq

structure CeremonySigningKey where
  secret : Octets 32
  deriving DecidableEq

/-- `strip_prefix`. -/
def strip (pre value : Bytes) : Option Bytes :=
  if pre.isPrefixOf value then some (value.drop pre.length) else none

def orError {α : Type} (e : ProtocolError) : Option α → Except ProtocolError α
  | some a => .ok a
  | none => .error e

def CeremonyKeyId.publicKeyBytes (key : CeremonyKeyId) : Except ProtocolError (Octets 32) := do
  let hex ← orError .signature (strip keyPrefix key.text)
  orError .signature (decodeLowerHex 32 hex)

variable [Cbcl]
open Cbcl

def CeremonyKeyId.parse (value : Bytes) : Except ProtocolError CeremonyKeyId := do
  let hex ← orError .signature (strip keyPrefix value)
  let bytes ← orError .signature (decodeLowerHex 32 hex)
  if isVerifyingKey bytes then .ok ⟨value⟩ else .error .signature

/-- The key of a signing key is always a verifying key. -/
def CeremonySigningKey.keyId (key : CeremonySigningKey) : CeremonyKeyId :=
  ⟨keyPrefix ++ lowerHex (verifyingKey key.secret).val⟩

def CeremonySigningKey.signMessage (key : CeremonySigningKey) (inner : Message) : Message :=
  .wrapped .signed
    [.atom (.symbol key.keyId.text),
      .atom (.str (lowerHex (sign key.secret (canonicalEncode inner)).val))] inner

/-! ### Controls -/

/-- One octet of the scanner; the state is the depth, whether it stands inside a
string, and whether the octet before was a backslash. -/
def scanOctet (maxDepth : ℕ) : ℕ × Bool × Bool → UInt8 → Option (ℕ × Bool × Bool)
  | (depth, true, true), _ => some (depth, true, false)
  | (depth, true, false), byte =>
    if byte = 92 then some (depth, true, true)
    else if byte = 34 then some (depth, false, false)
    else some (depth, true, false)
  | (depth, false, escaped), byte =>
    if byte = 34 then some (depth, true, escaped)
    else if byte = 40 then
      if maxDepth < depth + 1 then none else some (depth + 1, false, escaped)
    else if byte = 41 then
      if depth = 0 then none else some (depth - 1, false, escaped)
    else if 0x20 ≤ byte ∧ byte ≤ 0x7e then some (depth, false, escaped)
    else none

def boundedAsciiSexpr (input : Bytes) (maxDepth : ℕ) : Bool :=
  isAscii input &&
    match input.foldlM (scanOctet maxDepth) (0, false, false) with
    | some (depth, inString, escaped) => depth == 0 && !inString && !escaped
    | none => false

def validateCeremony (value : Bytes) : Except ProtocolError Unit :=
  if value.length = 64 ∧ value.all (fun b => (48 ≤ b && b ≤ 57) || (97 ≤ b && b ≤ 102)) then .ok ()
  else .error .thread

structure VerifiedControl where
  message : Message
  signer : CeremonyKeyId
  contentHash : Bytes

variable [Primitives]

/-- The message a signature covers: the control, or what its role wrapper holds. -/
def signedPart (requireRoleWrapper : Bool) (message : Message) : Except ProtocolError Message :=
  if requireRoleWrapper then
    match message with
    | .wrapped .withRoles _ content => .ok content
    | _ => .error .roleOpener
  else .ok message

/-- The key and the signature of a signed wrapper, with the message inside. -/
def signedWrapper : Message → Except ProtocolError (Bytes × Bytes × Message)
  | .wrapped .signed [.atom (.symbol key), .atom (.str signatureHex)] inner =>
    .ok (key, signatureHex, inner)
  | _ => .error .signature

def recogniseSignedControl (control : Bytes) (requireRoleWrapper : Bool) :
    Except ProtocolError VerifiedControl :=
  if control = [] ∨ maxControlOctets < control.length then .error .malformedControl
  else if ¬ validUtf8 control then .error .malformedControl
  else if ¬ boundedAsciiSexpr control maxControlDepth then .error .malformedControl
  else do
    let message ← orError .malformedControl (parse control)
    if display message ≠ control then .error .malformedControl
    else do
      let signed ← signedPart requireRoleWrapper message
      let (key, signatureHex, inner) ← signedWrapper signed
      let signer ← CeremonyKeyId.parse key
      let signature ← orError .signature (decodeLowerHex 64 signatureHex)
      let bytes ← signer.publicKeyBytes
      if ¬ isVerifyingKey bytes then .error .signature
      else if ¬ verifyStrict bytes (canonicalEncode inner) signature then .error .signature
      else
        .ok { message, signer, contentHash := sha256Prefix ++ sha256Hex (canonicalEncode message) }

/-- Encode a message in its canonical text, which must parse back to it. -/
def encodeControl (message : Message) : Except ProtocolError Bytes :=
  let text := display message
  if text = [] ∨ maxControlOctets < text.length ∨ ¬ boundedAsciiSexpr text maxControlDepth then
    .error .malformedControl
  else if parse text ≠ some message then .error .malformedControl
  else .ok text

def canonicalCausedBy : CausedBy → CausedBy
  | .multiple hashes => .multiple (hashes.insertionSort (· ≤ ·))
  | other => other

def buildBoundControl (key : CeremonySigningKey) (performativeName : Bytes)
    (recipient : Option CeremonyKeyId) (ceremony body : Bytes) (causedBy : CausedBy) :
    Except ProtocolError Bytes := do
  validateCeremony ceremony
  if maxAdjacentBodyOctets < body.length then .error .bodyBinding
  else
    encodeControl (key.signMessage (.simple
      { performative := ⟨false, performativeName⟩
        recipient := recipient.map fun r => [r.text]
        content := .atom (.str ceremony)
        params := [.atom (.str (sha256Prefix ++ sha256Hex body)), .atom (.num body.length)]
        thread := some ceremony
        sender := none
        causedBy := some (canonicalCausedBy causedBy) }))

def validateBoundControl (message : Message) (expectedPerformative ceremony body : Bytes) :
    Except ProtocolError Unit :=
  if maxAdjacentBodyOctets < body.length then .error .bodyBinding
  else do
    match ← orError .malformedControl (innermostSimple message) with
    | .simple m =>
      if m.performative.name ≠ expectedPerformative then .error .performative
      else do
        validateCeremony ceremony
        if m.thread ≠ some ceremony then .error .thread
        else if m.sender.isSome ∨ m.causedBy.isNone then .error .malformedControl
        else
          match m.params with
          | [.atom (.str digest), .atom (.num bodyLen)] =>
            if m.content ≠ .atom (.str ceremony) then .error .thread
            else if digest ≠ sha256Prefix ++ sha256Hex body ∨ bodyLen ≠ body.length then
              .error .bodyBinding
            else .ok ()
          | _ => .error .malformedControl
    | _ => .error .malformedControl

/-! ### Bootstrap -/

/-- A recognised control with the causal verdict on it. -/
structure Admission where
  verdict : ProtocolVerdict
  contentHash : Bytes
  signer : CeremonyKeyId

def VerifiedControl.admission (verified : VerifiedControl) (verdict : ProtocolVerdict) :
    Admission :=
  { verdict, contentHash := verified.contentHash, signer := verified.signer }

inductive BootstrapPerformative where
  | cpaceA
  | cpaceB
  | finishedA
  | finishedB
  deriving DecidableEq, Repr

namespace BootstrapPerformative

def name : BootstrapPerformative → Bytes
  | .cpaceA => ascii "cpace-a"
  | .cpaceB => ascii "cpace-b"
  | .finishedA => ascii "finished-a"
  | .finishedB => ascii "finished-b"

def roleIndex : BootstrapPerformative → Fin 2
  | .cpaceA | .finishedA => 0
  | .cpaceB | .finishedB => 1

def isCpace : BootstrapPerformative → Bool
  | .cpaceA | .cpaceB => true
  | .finishedA | .finishedB => false

end BootstrapPerformative

def buildBootstrapControl (key : CeremonySigningKey) (performative : BootstrapPerformative)
    (ceremony body : Bytes) (causedBy : CausedBy) : Except ProtocolError Bytes :=
  buildBoundControl key performative.name none ceremony body causedBy

/-- The history of the role-free bootstrap. -/
structure BootstrapMonitor where
  dialects : Registry
  store : Store
  thread : Bytes
  roleKeys : Fin 2 → Option CeremonyKeyId
  stored : ℕ

namespace BootstrapMonitor

def new (invitation : Bytes) : Except ProtocolError BootstrapMonitor := do
  let dialects ← orError .dialect install
  .ok { dialects, store := emptyStore, thread := ceremonyId invitation
        roleKeys := fun _ => none, stored := 0 }

/-- Keep a valid control; a CPace control binds the key of its role. -/
def keep (expected : BootstrapPerformative) (verified : VerifiedControl) :
    Call ProtocolError BootstrapMonitor PUnit := do
  let m ← get
  let bound := m.roleKeys expected.roleIndex
  if ¬ expected.isCpace ∧ bound.isNone then throw .keyBinding
  else do
    let (added, store) := append verified.contentHash m.thread verified.message m.store
    set
      { m with
        roleKeys :=
          if expected.isCpace ∧ bound.isNone then
            Function.update m.roleKeys expected.roleIndex (some verified.signer)
          else m.roleKeys
        store
        stored := if added then m.stored + 1 else m.stored }

/-- Recognise, authenticate, verify and conditionally store one control. -/
def admitControl (expected : BootstrapPerformative) (control adjacentBody : Bytes) :
    Call ProtocolError BootstrapMonitor Admission := do
  let m ← get
  let verified ← Call.ofExcept (recogniseSignedControl control false)
  Call.ofExcept (validateBoundControl verified.message expected.name m.thread adjacentBody)
  let simple ← Call.orThrow .malformedControl (innermostSimple verified.message)
  if recipientSet simple ≠ [] then throw .malformedControl
  else if ¬ evaluate verified.message m.dialects then throw .malformedControl
  else if (m.roleKeys expected.roleIndex).any (· ≠ verified.signer) then throw .keyBinding
  else do
    let protocol ← Call.orThrow .dialect (bootstrapProtocol m.dialects)
    match verifyCausal expected.name (causedBy simple) m.store protocol m.thread with
    | .valid => do
      keep expected verified
      pure (verified.admission .valid)
    | verdict => pure (verified.admission verdict)

def roleKey (m : BootstrapMonitor) : PairingRole → Option CeremonyKeyId
  | .allocator => m.roleKeys 0
  | .claimant => m.roleKeys 1

end BootstrapMonitor

/-! ### Session -/

inductive SessionPerformative where
  | intent
  | approve
  | decline
  | payload
  deriving DecidableEq, Repr

def SessionPerformative.name : SessionPerformative → Bytes
  | .intent => ascii "pairing-intent"
  | .approve => ascii "pairing-approve"
  | .decline => ascii "pairing-decline"
  | .payload => ascii "pairing-payload"

def buildSessionControl (key : CeremonySigningKey) (performative : SessionPerformative)
    (ceremony : Bytes) (recipient : CeremonyKeyId) (body : Bytes) (causedBy : CausedBy) :
    Except ProtocolError Bytes :=
  buildBoundControl key performative.name (some recipient) ceremony body causedBy

def exactOpenerParams (allocator claimant : CeremonyKeyId) : List SExpr :=
  [.list
    [.list [.atom (.symbol (ascii "allocator")), .atom (.symbol allocator.text)],
      .list [.atom (.symbol (ascii "claimant")), .atom (.symbol claimant.text)]],
    .atom (.keyword (ascii "dialect")),
    .atom (.symbol sessionDialectHash)]

/-- The bodyless opener of the session, signed by the allocator. -/
def buildSessionOpener (allocatorKey : CeremonySigningKey) (claimant : CeremonyKeyId)
    (ceremony : Bytes) : Except ProtocolError Bytes := do
  validateCeremony ceremony
  let hello : Message := .simple
    { performative := ⟨true, ascii "hello"⟩
      recipient := none
      content := .list []
      params := []
      thread := some ceremony
      sender := none
      causedBy := some .begin }
  encodeControl (.wrapped .withRoles (exactOpenerParams allocatorKey.keyId claimant)
    (allocatorKey.signMessage hello))

def validateOpenerSimple (message : Message) (ceremony : Bytes) : Except ProtocolError Unit :=
  match message with
  | .wrapped .withRoles _ (.wrapped .signed _ (.simple m)) =>
    if m.performative.name ≠ ascii "hello" ∨ m.recipient.isSome ∨ m.content ≠ .list [] ∨
        m.params ≠ [] ∨ m.thread ≠ some ceremony ∨ m.sender.isSome ∨
        m.causedBy ≠ some .begin then
      .error .roleOpener
    else .ok ()
  | _ => .error .roleOpener

def validateExactCast (cast : Cast) (allocator claimant : CeremonyKeyId) :
    Except ProtocolError Unit :=
  if singleton cast ≠
      [(ascii "allocator", allocator.text), (ascii "claimant", claimant.text)] ∨
      ¬ indexedIsEmpty cast ∨ dialectPin cast ≠ some sessionDialectHash then .error .roleOpener
  else .ok ()

/-- The parameters of a role wrapper. -/
def roleParams : Message → Except ProtocolError (List SExpr)
  | .wrapped .withRoles params _ => .ok params
  | _ => .error .roleOpener

/-- The history of one opened session. -/
structure SessionMonitor where
  dialects : Registry
  store : Store
  thread : Bytes
  cast : Cast
  root : Bytes
  endpoint : PairingRole
  projection : Projection
  stored : ℕ

def sessionReferenceIsAnchored (performative : SessionPerformative) (causedBy : Option CausedBy)
    (root : Bytes) : Bool :=
  match performative, causedBy with
  | .intent, some (.single hash) => hash == root
  | .approve, some (.single _) | .decline, some (.single _) | .payload, some (.single _) => true
  | _, _ => false

namespace SessionMonitor

/-- Verify and admit the opener against the two authenticated keys. -/
def openForCeremony (ceremony : Bytes) (localRole : PairingRole)
    (allocator claimant : CeremonyKeyId) (control : Bytes) :
    Except ProtocolError (SessionMonitor × Admission) := do
  validateCeremony ceremony
  let dialects ← orError .dialect install
  let verified ← recogniseSignedControl control true
  if verified.signer ≠ allocator then .error .roleOpener
  else do
    validateOpenerSimple verified.message ceremony
    let params ← roleParams verified.message
    if params ≠ exactOpenerParams allocator claimant then .error .roleOpener
    else do
      let cast ← orError .roleOpener (parseWrapperCast params dialects)
      validateExactCast cast allocator claimant
      if r6Violated dialects cast then .error .roleOpener
      else if ¬ evaluate verified.message dialects then .error .malformedControl
      else
        let root := verified.contentHash
        let verdict := verifyCausalForRole verified.message localRole dialects cast emptyStore
          ceremony root
        if verdict ≠ .valid then .error .roleOpener
        else
          let (added, store) := append root ceremony verified.message emptyStore
          .ok
            ({ dialects, store, thread := ceremony, cast, root, endpoint := localRole
               projection := project dialects localRole cast
               stored := if added then 1 else 0 },
              verified.admission verdict)

/-- Recognise, authenticate, project, verify and conditionally store one control. -/
def admitControl (expected : SessionPerformative) (control adjacentBody : Bytes) :
    Call ProtocolError SessionMonitor Admission := do
  let m ← get
  let verified ← Call.ofExcept (recogniseSignedControl control false)
  Call.ofExcept (validateBoundControl verified.message expected.name m.thread adjacentBody)
  if ¬ evaluate verified.message m.dialects then throw .malformedControl
  else do
    let simple ← Call.orThrow .malformedControl (innermostSimple verified.message)
    if ¬ sessionReferenceIsAnchored expected (causedBy simple) m.root then
      pure (verified.admission .violation)
    else if ¬ hasStep m.projection expected.name then pure (verified.admission .violation)
    else
      match verifyCausalForRole verified.message m.endpoint m.dialects m.cast m.store m.thread
        m.root with
      | .valid => do
        let (added, store) := append verified.contentHash m.thread verified.message m.store
        set { m with store, stored := if added then m.stored + 1 else m.stored }
        pure (verified.admission .valid)
      | verdict => pure (verified.admission verdict)

def rootHash (m : SessionMonitor) : Bytes := m.root

end SessionMonitor
end Pairing
end CbclPairing

/-! ### An engine that can be evaluated -/

namespace CbclPairing
namespace Pairing
open Codec

def Atom.text : Atom → Bytes
  | .symbol s | .other s => s
  | .str s => [34] ++ s ++ [34]
  | .num n => (Nat.toDigits 10 n.toNat).map fun c => UInt8.ofNat c.toNat
  | .keyword s => [58] ++ s

mutual

def SExpr.text : SExpr → Bytes
  | .atom a => a.text
  | .list items => [40] ++ (SExpr.spacedText items).drop 1 ++ [41]
  termination_by structural e => e

def SExpr.spacedText : List SExpr → Bytes
  | [] => []
  | item :: items => [32] ++ item.text ++ SExpr.spacedText items
  termination_by structural items => items

end

def CausedBy.expr : CausedBy → SExpr
  | .begin => .atom (.symbol (ascii "begin"))
  | .single hash => .atom (.symbol hash)
  | .multiple hashes => .list (hashes.map fun hash => .atom (.symbol hash))

def SimpleMessage.expr (m : SimpleMessage) : SExpr :=
  .list ([.atom (.symbol m.performative.name)] ++
    (m.recipient.getD []).map (fun r => .atom (.symbol r)) ++ [m.content] ++ m.params ++
    (m.thread.map fun t => [.atom (.keyword (ascii "thread")), .atom (.str t)]).getD [] ++
    (m.causedBy.map fun c => [.atom (.keyword (ascii "caused-by")), c.expr]).getD [])

def WrapperType.name : WrapperType → Bytes
  | .signed => ascii "signed"
  | .withRoles => ascii "with-roles"
  | .other name => name

def Message.expr : Message → SExpr
  | .simple m => m.expr
  | .wrapped wrapper params content =>
    .list ([.atom (.symbol wrapper.name)] ++ params ++ [content.expr])
  | .other text => .atom (.other text)

def Message.innermost : Message → Option SimpleMessage
  | .simple m => some m
  | .wrapped _ _ content => content.innermost
  | .other _ => none

def castEntries : List SExpr → List (Bytes × Bytes)
  | .list [.atom (.symbol role), .atom (.symbol key)] :: entries =>
    (role, key) :: castEntries entries
  | _ => []

/-- An engine that prints messages, reads some of them back, and finds every control
valid; a signature repeats the key and the head of the message. -/
@[reducible] def Cbcl.transparent (known : List Message) : Cbcl where
  parse text := known.find? fun m => m.expr.text = text
  display m := m.expr.text
  canonicalEncode m := m.expr.text
  innermostSimple m := m.innermost.map .simple
  recipientSet m := (m.innermost.bind (·.recipient)).getD []
  causedBy m := m.innermost.bind (·.causedBy)
  Registry := Unit
  install := some ()
  evaluate _ _ := true
  Protocol := Unit
  bootstrapProtocol _ := some ()
  Store := List (Bytes × Message)
  emptyStore := []
  append hash _ m store := (true, (hash, m) :: store)
  verifyCausal _ _ _ _ _ := .valid
  Cast := List (Bytes × Bytes) × Option Bytes
  parseWrapperCast params _ :=
    match params with
    | [.list entries, .atom (.keyword _), .atom (.symbol pin)] =>
      some (castEntries entries, some pin)
    | _ => none
  singleton cast := cast.1
  indexedIsEmpty _ := true
  dialectPin cast := cast.2
  r6Violated _ _ := false
  Projection := Unit
  project _ _ _ := ()
  hasStep _ _ := true
  verifyCausalForRole _ _ _ _ _ _ _ := .valid
  verifyingKey secret := secret
  isVerifyingKey _ := true
  sign secret message := fill 64 (secret.val ++ message)
  verifyStrict key message signature := signature = fill 64 (key.val ++ message)

end Pairing
end CbclPairing
