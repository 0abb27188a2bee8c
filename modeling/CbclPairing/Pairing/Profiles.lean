import CbclPairing.Pairing.Endpoint
import CbclPairing.Wire.Formats

/-! The built-in application profiles: what they recognise of an intent and display of
it, and the grants they recognise under what is kept of that intent. -/
namespace CbclPairing
namespace Pairing
namespace Profile
open Codec Codec.Cbor Codec.Cddl Calls Wire

/-! ### Bounded fields -/

/-- Some character of a UTF-8 text is a control: below U+0020, U+007F, or one of
U+0080 to U+009F, which are the octet 0xc2 and another below 0xa0. -/
def hasControl : Bytes → Bool
  | [] => false
  | b :: rest => b < 0x20 || b == 0x7f || (b == 0xc2 && rest.head?.any (· < 0xa0)) ||
    hasControl rest

def boundedText (value : Bytes) (max : ℕ) : Except Unit Unit :=
  if value = [] ∨ max < value.length ∨ hasControl value = true then .error () else .ok ()

def boundedBytes (value : Bytes) (min max : ℕ) : Except Unit Unit :=
  if value.length < min ∨ max < value.length then .error () else .ok ()

/-- The parts of a parsed URL that the origin check reads. -/
structure Url where
  scheme : Bytes
  username : Bytes
  password : Option Bytes
  query : Option Bytes
  fragment : Option Bytes
  path : Bytes
  hostStr : Option Bytes
  port : Option UInt16

/-- The URL parser, a library function. -/
class UrlParser where
  parse : Bytes → Option Url

def canonicalHttpsOrigin [UrlParser] (value : Bytes) : Except Unit Unit :=
  match UrlParser.parse value with
  | none => .error ()
  | some parsed =>
    if parsed.scheme ≠ ascii "https" ∨ parsed.username ≠ [] ∨ parsed.password.isSome ∨
        parsed.query.isSome ∨ parsed.fragment.isSome ∨ parsed.path ≠ ascii "/" then .error ()
    else
      match parsed.hostStr with
      | none => .error ()
      | some host =>
        let canonical :=
          match parsed.port with
          | some port => ascii "https://" ++ host ++ ascii ":" ++ ascii (toString port.toNat)
          | none => ascii "https://" ++ host
        if value ≠ canonical then .error () else .ok ()

/-! ### Canonical maps -/

def encodeMap (fields : List (String × Value)) : Except ProfileError Bytes :=
  match canonicalVec? (.map (named fields)) with
  | none => .error .invalidClaim
  | some encoded => .ok encoded

def canonicalMap (input : Bytes) (expectedFields : ℕ) (error : ProfileError) :
    Except ProfileError (List (Value × Value)) :=
  match decodeItem maxDepth input with
  | .error _ => .error error
  | .ok (value, rest) =>
    if rest ≠ [] then .error error
    else
      match canonicalVec? value with
      | none => .error error
      | some canonical =>
        if canonical ≠ input then .error error
        else
          match value with
          | .map fields => if fields.length ≠ expectedFields then .error error else .ok fields
          | _ => .error error

/-- The value of the one entry under a name. -/
def singleField (fields : List (Value × Value)) (name : String) (error : ProfileError) :
    Except ProfileError Value :=
  match fields.filter fun field => field.1.asText == some (ascii name) with
  | [field] => .ok field.2
  | _ => .error error

def textField (fields : List (Value × Value)) (name : String) (max : ℕ) (error : ProfileError) :
    Except ProfileError Text := do
  let value ← singleField fields name error
  let text ← (textValue value).mapError fun _ => error
  (boundedText text.val max).mapError fun _ => error
  .ok text

def bytesField (fields : List (Value × Value)) (name : String) (max : ℕ) (error : ProfileError) :
    Except ProfileError Bytes := do
  let value ← singleField fields name error
  let bytes ← (bytesValue value).mapError fun _ => error
  (boundedBytes bytes 1 max).mapError fun _ => error
  .ok bytes

/-- The array whose digest is kept of an intent. -/
def bindingValue (fields : List Text) : Value := .array (fields.map fun field => .text field.val)

def binding [Primitives] (fields : List Text) : Except ProfileError (Octets 32) :=
  match canonicalVec? (bindingValue fields) with
  | none => .error .invalidClaim
  | some encoded => .ok (sha256 encoded)

/-! ### Descriptors -/

inductive LocatorKind where
  | direct
  | nameplate
  deriving DecidableEq

def LocatorKind.matches : LocatorKind → Locator → Bool
  | .direct, .direct _ => true
  | .nameplate, .nameplate _ => true
  | _, _ => false

/-- The part of a profile's description that recognition reads. -/
structure ProfileDescriptor where
  application : Text
  payloadType : Text
  locator : LocatorKind

def agentApplication : Text := ⟨ascii "anuna.io/agent/v1", by decide⟩
def agentAction : Text := ⟨ascii "pair-agent", by decide⟩
def agentPayload : Text := ⟨ascii "anuna.io/agent-grant/v1", by decide⟩
def credentialApplication : Text := ⟨ascii "anuna.io/credential/v1", by decide⟩
def credentialAction : Text := ⟨ascii "transfer-credential", by decide⟩
def credentialPayload : Text := ⟨ascii "anuna.io/account-credential/v1", by decide⟩
def syntheticApplication : Text := ⟨ascii "example.test/synthetic/v1", by decide⟩
def syntheticAction : Text := ⟨ascii "exercise-profile", by decide⟩
def syntheticPayload : Text := ⟨ascii "example.test/synthetic-grant/v1", by decide⟩

def agentDescriptor : ProfileDescriptor := ⟨agentApplication, agentPayload, .nameplate⟩

def credentialDescriptor : ProfileDescriptor := ⟨credentialApplication, credentialPayload, .direct⟩

def syntheticDescriptor : ProfileDescriptor := ⟨syntheticApplication, syntheticPayload, .direct⟩

def commonInvitation (descriptor : ProfileDescriptor) (invitation : Invitation) :
    Except ProfileError Unit :=
  if invitation.application ≠ descriptor.application then .error .wrongApplication
  else if descriptor.locator.matches invitation.locator = false then .error .invalidInvitation
  else .ok ()

def commonIntent (descriptor : ProfileDescriptor) (action : Text) (intent : PairingIntent) :
    Except ProfileError Unit :=
  if intent.application ≠ descriptor.application then .error .wrongApplication
  else if intent.action ≠ action then .error .invalidAction
  else .ok ()

def payloadType (descriptor : ProfileDescriptor) (payload : ApplicationPayload) :
    Except ProfileError Unit :=
  if payload.payloadType ≠ descriptor.payloadType then .error .invalidPayloadType else .ok ()

def displayIntent (intent : PairingIntent) (fields : List DisplayField) : DisplayIntent :=
  ⟨intent.application.val, intent.action.val, intent.authoritySummary.val, fields⟩

def display (label : String) (value : Text) : DisplayField := ⟨ascii label, value.val, true⟩

def recognised (descriptor : ProfileDescriptor) (payload : ApplicationPayload) :
    RecognisedPayload :=
  ⟨descriptor.application.val, payload.payloadType.val, payload.body⟩

/-! ### Agent claims and grants -/

structure AgentIntentClaims where
  channel : Text
  claimedPrincipal : Text
  agentHandle : Text
  requestedGrant : Text

structure AgentGrant where
  claimedPrincipal : Text
  agentHandle : Text
  requestedGrant : Text
  grant : Bytes

def validateAgentTexts (principal handle requestedGrant : Text) : Except ProfileError Unit := do
  (boundedText principal.val 255).mapError fun _ => .invalidClaim
  (boundedText handle.val 128).mapError fun _ => .invalidClaim
  (boundedText requestedGrant.val 128).mapError fun _ => .invalidClaim

def validateAgentClaims (value : AgentIntentClaims) : Except ProfileError Unit := do
  (boundedText value.channel.val 64).mapError fun _ => .invalidClaim
  validateAgentTexts value.claimedPrincipal value.agentHandle value.requestedGrant

namespace AgentIntentClaims

def allocatorEntries (value : AgentIntentClaims) : List (String × Value) :=
  [("principal", .text value.claimedPrincipal.val), ("agent-handle", .text value.agentHandle.val),
    ("requested-grant", .text value.requestedGrant.val)]

def claimantEntries (value : AgentIntentClaims) : List (String × Value) :=
  [("channel", .text value.channel.val)]

def encode (value : AgentIntentClaims) : Except ProfileError (Bytes × Bytes) := do
  validateAgentClaims value
  let allocator ← encodeMap value.allocatorEntries
  let claimant ← encodeMap value.claimantEntries
  .ok (allocator, claimant)

end AgentIntentClaims

namespace AgentGrant

def entries (value : AgentGrant) : List (String × Value) :=
  [("principal", .text value.claimedPrincipal.val), ("agent-handle", .text value.agentHandle.val),
    ("requested-grant", .text value.requestedGrant.val), ("grant", .bytes value.grant)]

def encode (value : AgentGrant) : Except ProfileError Bytes := do
  validateAgentTexts value.claimedPrincipal value.agentHandle value.requestedGrant
  (boundedBytes value.grant 1 63000).mapError fun _ => .invalidPayload
  (encodeMap value.entries).mapError fun _ => .invalidPayload

/-- The claims a grant repeats. The channel is displayed only. -/
def claims (value : AgentGrant) : AgentIntentClaims where
  channel := ⟨[], validUtf8_nil⟩
  claimedPrincipal := value.claimedPrincipal
  agentHandle := value.agentHandle
  requestedGrant := value.requestedGrant

end AgentGrant

def decodeAgentClaims (allocator claimant : Bytes) : Except ProfileError AgentIntentClaims := do
  let allocator ← canonicalMap allocator 3 .invalidClaim
  let claimant ← canonicalMap claimant 1 .invalidClaim
  let channel ← textField claimant "channel" 64 .invalidClaim
  let claimedPrincipal ← textField allocator "principal" 255 .invalidClaim
  let agentHandle ← textField allocator "agent-handle" 128 .invalidClaim
  let requestedGrant ← textField allocator "requested-grant" 128 .invalidClaim
  let result : AgentIntentClaims := { channel, claimedPrincipal, agentHandle, requestedGrant }
  validateAgentClaims result
  .ok result

def decodeAgentGrant (input : Bytes) : Except ProfileError AgentGrant := do
  let fields ← canonicalMap input 4 .invalidPayload
  let claimedPrincipal ← textField fields "principal" 255 .invalidPayload
  let agentHandle ← textField fields "agent-handle" 128 .invalidPayload
  let requestedGrant ← textField fields "requested-grant" 128 .invalidPayload
  let grant ← bytesField fields "grant" 63000 .invalidPayload
  let result : AgentGrant := { claimedPrincipal, agentHandle, requestedGrant, grant }
  validateAgentTexts result.claimedPrincipal result.agentHandle result.requestedGrant
  .ok result

/-- The texts an agent binding digests. -/
def AgentIntentClaims.bound (value : AgentIntentClaims) : List Text :=
  [agentApplication, agentAction, value.claimedPrincipal, value.agentHandle, value.requestedGrant]

def agentBinding [Primitives] (value : AgentIntentClaims) : Except ProfileError (Octets 32) :=
  binding value.bound

def agentPayloadBinding [Primitives] (value : AgentIntentClaims) :
    Except ProfileError (Octets 32) :=
  binding value.bound

/-! ### Credential claims and grants -/

structure CredentialIntentClaims where
  applicationId : Text
  origin : Text
  scope : Text
  recipient : Text

structure CredentialGrant where
  applicationId : Text
  origin : Text
  scope : Text
  recipient : Text
  credential : Bytes

def validateCredentialClaims [UrlParser] (value : CredentialIntentClaims) :
    Except ProfileError Unit := do
  (boundedText value.applicationId.val 255).mapError fun _ => .invalidClaim
  (canonicalHttpsOrigin value.origin.val).mapError fun _ => .invalidClaim
  (boundedText value.scope.val 255).mapError fun _ => .invalidClaim
  (boundedText value.recipient.val 255).mapError fun _ => .invalidClaim

namespace CredentialIntentClaims

def allocatorEntries (value : CredentialIntentClaims) : List (String × Value) :=
  [("application-id", .text value.applicationId.val), ("origin", .text value.origin.val),
    ("scope", .text value.scope.val)]

def claimantEntries (value : CredentialIntentClaims) : List (String × Value) :=
  [("recipient", .text value.recipient.val)]

def encode [UrlParser] (value : CredentialIntentClaims) :
    Except ProfileError (Bytes × Bytes) := do
  validateCredentialClaims value
  let allocator ← encodeMap value.allocatorEntries
  let claimant ← encodeMap value.claimantEntries
  .ok (allocator, claimant)

end CredentialIntentClaims

namespace CredentialGrant

def entries (value : CredentialGrant) : List (String × Value) :=
  [("application-id", .text value.applicationId.val), ("origin", .text value.origin.val),
    ("scope", .text value.scope.val), ("recipient", .text value.recipient.val),
    ("credential", .bytes value.credential)]

def claims (value : CredentialGrant) : CredentialIntentClaims where
  applicationId := value.applicationId
  origin := value.origin
  scope := value.scope
  recipient := value.recipient

def encode [UrlParser] (value : CredentialGrant) : Except ProfileError Bytes := do
  validateCredentialClaims value.claims
  (boundedBytes value.credential 1 62000).mapError fun _ => .invalidPayload
  (encodeMap value.entries).mapError fun _ => .invalidPayload

end CredentialGrant

def decodeCredentialClaims [UrlParser] (allocator claimant : Bytes) :
    Except ProfileError CredentialIntentClaims := do
  let allocator ← canonicalMap allocator 3 .invalidClaim
  let claimant ← canonicalMap claimant 1 .invalidClaim
  let applicationId ← textField allocator "application-id" 255 .invalidClaim
  let origin ← textField allocator "origin" 255 .invalidClaim
  let scope ← textField allocator "scope" 255 .invalidClaim
  let recipient ← textField claimant "recipient" 255 .invalidClaim
  let result : CredentialIntentClaims := { applicationId, origin, scope, recipient }
  validateCredentialClaims result
  .ok result

def decodeCredentialGrant [UrlParser] (input : Bytes) : Except ProfileError CredentialGrant := do
  let fields ← canonicalMap input 5 .invalidPayload
  let applicationId ← textField fields "application-id" 255 .invalidPayload
  let origin ← textField fields "origin" 255 .invalidPayload
  let scope ← textField fields "scope" 255 .invalidPayload
  let recipient ← textField fields "recipient" 255 .invalidPayload
  let credential ← bytesField fields "credential" 62000 .invalidPayload
  let result : CredentialGrant := { applicationId, origin, scope, recipient, credential }
  (validateCredentialClaims result.claims).mapError fun _ => .invalidPayload
  .ok result

/-- The texts a credential binding digests. -/
def CredentialIntentClaims.bound (value : CredentialIntentClaims) : List Text :=
  [credentialApplication, credentialAction, value.applicationId, value.origin, value.scope,
    value.recipient]

def credentialBinding [Primitives] (value : CredentialIntentClaims) :
    Except ProfileError (Octets 32) :=
  binding value.bound

/-! ### Synthetic claims and grants -/

structure SyntheticIntentClaims where
  subject : Text
  audience : Text

structure SyntheticGrant where
  subject : Text
  audience : Text
  grant : Bytes

def validateSyntheticClaims (value : SyntheticIntentClaims) : Except ProfileError Unit := do
  (boundedText value.subject.val 128).mapError fun _ => .invalidClaim
  (boundedText value.audience.val 128).mapError fun _ => .invalidClaim

namespace SyntheticIntentClaims

def allocatorEntries (value : SyntheticIntentClaims) : List (String × Value) :=
  [("subject", .text value.subject.val)]

def claimantEntries (value : SyntheticIntentClaims) : List (String × Value) :=
  [("audience", .text value.audience.val)]

def encode (value : SyntheticIntentClaims) : Except ProfileError (Bytes × Bytes) := do
  validateSyntheticClaims value
  let allocator ← encodeMap value.allocatorEntries
  let claimant ← encodeMap value.claimantEntries
  .ok (allocator, claimant)

end SyntheticIntentClaims

namespace SyntheticGrant

def entries (value : SyntheticGrant) : List (String × Value) :=
  [("subject", .text value.subject.val), ("audience", .text value.audience.val),
    ("grant", .bytes value.grant)]

def claims (value : SyntheticGrant) : SyntheticIntentClaims where
  subject := value.subject
  audience := value.audience

def encode (value : SyntheticGrant) : Except ProfileError Bytes := do
  validateSyntheticClaims value.claims
  (boundedBytes value.grant 1 63000).mapError fun _ => .invalidPayload
  (encodeMap value.entries).mapError fun _ => .invalidPayload

end SyntheticGrant

def decodeSyntheticClaims (allocator claimant : Bytes) :
    Except ProfileError SyntheticIntentClaims := do
  let allocator ← canonicalMap allocator 1 .invalidClaim
  let claimant ← canonicalMap claimant 1 .invalidClaim
  let subject ← textField allocator "subject" 128 .invalidClaim
  let audience ← textField claimant "audience" 128 .invalidClaim
  let result : SyntheticIntentClaims := { subject, audience }
  validateSyntheticClaims result
  .ok result

def decodeSyntheticGrant (input : Bytes) : Except ProfileError SyntheticGrant := do
  let fields ← canonicalMap input 3 .invalidPayload
  let subject ← textField fields "subject" 128 .invalidPayload
  let audience ← textField fields "audience" 128 .invalidPayload
  let grant ← bytesField fields "grant" 63000 .invalidPayload
  let result : SyntheticGrant := { subject, audience, grant }
  (validateSyntheticClaims result.claims).mapError fun _ => .invalidPayload
  .ok result

/-- The texts a synthetic binding digests. -/
def SyntheticIntentClaims.bound (value : SyntheticIntentClaims) : List Text :=
  [syntheticApplication, syntheticAction, value.subject, value.audience]

def syntheticBinding [Primitives] (value : SyntheticIntentClaims) :
    Except ProfileError (Octets 32) :=
  binding value.bound

/-! ### Recognition -/

/-- What one built-in profile brings to the recognition of intents and payloads: its
claims `C`, its grants `G`, the display of the claims, and the two bindings. -/
structure Recogniser (C G : Type) where
  descriptor : ProfileDescriptor
  action : Text
  decodeClaims : Bytes → Bytes → Except ProfileError C
  fields : C → List DisplayField
  binding : C → Except ProfileError (Octets 32)
  decodeGrant : Bytes → Except ProfileError G
  claims : G → C
  payloadBinding : C → Except ProfileError (Octets 32)

namespace Recogniser

variable {C G : Type}

def recogniseIntent (p : Recogniser C G) (intent : PairingIntent) :
    Except ProfileError (DisplayIntent × ProfileBinding) := do
  commonIntent p.descriptor p.action intent
  let claims ← p.decodeClaims intent.allocatorClaim intent.claimantClaim
  let digest ← p.binding claims
  .ok (displayIntent intent (p.fields claims), ⟨digest⟩)

def recognisePayload (p : Recogniser C G) (binding : ProfileBinding)
    (payload : ApplicationPayload) : Except ProfileError RecognisedPayload := do
  payloadType p.descriptor payload
  let grant ← p.decodeGrant payload.body
  let digest ← p.payloadBinding (p.claims grant)
  if digest ≠ binding.digest then .error .invalidPayload
  else .ok (recognised p.descriptor payload)

end Recogniser

section Profiles

variable [Primitives] [UrlParser]

def agentRecogniser : Recogniser AgentIntentClaims AgentGrant where
  descriptor := agentDescriptor
  action := agentAction
  decodeClaims := decodeAgentClaims
  fields claims := [display "channel" claims.channel,
    display "claimed principal" claims.claimedPrincipal,
    display "agent handle" claims.agentHandle, display "requested grant" claims.requestedGrant]
  binding := agentBinding
  decodeGrant := decodeAgentGrant
  claims := AgentGrant.claims
  payloadBinding := agentPayloadBinding

def credentialRecogniser : Recogniser CredentialIntentClaims CredentialGrant where
  descriptor := credentialDescriptor
  action := credentialAction
  decodeClaims := decodeCredentialClaims
  fields claims := [display "applicationId" claims.applicationId,
    display "HTTPS origin" claims.origin, display "requested scope" claims.scope,
    display "recipient" claims.recipient]
  binding := credentialBinding
  decodeGrant := decodeCredentialGrant
  claims := CredentialGrant.claims
  payloadBinding := credentialBinding

def syntheticRecogniser : Recogniser SyntheticIntentClaims SyntheticGrant where
  descriptor := syntheticDescriptor
  action := syntheticAction
  decodeClaims := decodeSyntheticClaims
  fields claims := [display "synthetic subject" claims.subject,
    display "synthetic audience" claims.audience]
  binding := syntheticBinding
  decodeGrant := decodeSyntheticGrant
  claims := SyntheticGrant.claims
  payloadBinding := syntheticBinding

/-- An application's verifier of recognised payloads, with its own state. -/
class GrantVerifier (ν : Type) where
  verify : RecognisedPayload → Call ProfileError ν Unit

structure AgentProfile (ν : Type) where
  verifier : ν

structure CredentialProfile (ν : Type) where
  verifier : ν

structure SyntheticProfile where
  authorize : Bool

def grant (payload : RecognisedPayload) : AuthorisedGrant :=
  ⟨payload.application, payload.payloadType, payload.body⟩

/-- Two word-list indices as four octets. -/
def encodeAgentWordIndices (first second : ℕ) : Except ProfileError Bytes :=
  if 2047 < first ∨ 2047 < second then .error .invalidInvitation
  else .ok (beBytes 2 first ++ beBytes 2 second)

instance {ν : Type} [GrantVerifier ν] : ApplicationProfile (AgentProfile ν) where
  recogniseInvitation _ invitation := do
    commonInvitation agentDescriptor invitation
    if invitation.secret.length ≠ 4 then .error .invalidInvitation
    else do
      let _ ← encodeAgentWordIndices (ofBe (invitation.secret.take 2))
        (ofBe (invitation.secret.drop 2))
      .ok ()
  recogniseIntent intent := Call.ofExcept (agentRecogniser.recogniseIntent intent)
  recognisePayload _ := agentRecogniser.recognisePayload
  authorizePayload payload := do
    Call.zoom AgentProfile.verifier (fun verifier _ => ⟨verifier⟩) (GrantVerifier.verify payload)
    pure (grant payload)

instance {ν : Type} [GrantVerifier ν] : ApplicationProfile (CredentialProfile ν) where
  recogniseInvitation _ invitation := do
    commonInvitation credentialDescriptor invitation
    if invitation.secret.length ≠ 16 then .error .invalidInvitation else .ok ()
  recogniseIntent intent := Call.ofExcept (credentialRecogniser.recogniseIntent intent)
  recognisePayload _ := credentialRecogniser.recognisePayload
  authorizePayload payload := do
    Call.zoom CredentialProfile.verifier (fun verifier _ => ⟨verifier⟩)
      (GrantVerifier.verify payload)
    pure (grant payload)

instance : ApplicationProfile SyntheticProfile where
  recogniseInvitation _ invitation := do
    commonInvitation syntheticDescriptor invitation
    if invitation.secret.length ≠ 16 then .error .invalidInvitation else .ok ()
  recogniseIntent intent := Call.ofExcept (syntheticRecogniser.recogniseIntent intent)
  recognisePayload _ := syntheticRecogniser.recognisePayload
  authorizePayload payload := do
    if (← get).authorize = false then throw .unauthorized else pure (grant payload)

end Profiles

end Profile
end Pairing
end CbclPairing
