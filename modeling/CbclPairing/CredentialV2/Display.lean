import CbclPairing.CredentialV2.Channel

/-! Claims of a signed offer, the authority they are compared with, and the
consent display that only a verified offer yields. -/
namespace CbclPairing
namespace CredentialV2
open Codec

structure AccountProvenance where
  accountPrincipalDigest : Octets 32
  accountScopeId : Octets 32
  deriving DecidableEq

structure DeviceBinding where
  deviceDid : Bytes
  deviceKeyDigest : Octets 32
  deriving DecidableEq

inductive TofuState where
  | ceremonyGesture
  | newPair
  | trustedPair
  deriving DecidableEq, Repr

structure PathAToBDisplay where
  legacyHandle : Bytes
  legacyKeyDigest : Octets 32
  migrationRooms : List Bytes
  roomSetDigest : Octets 32
  migrationSnapshotDigest : Octets 32
  snapshotNonce : Octets 32
  deriving DecidableEq

inductive Transition where
  | noTransition
  | pathAToB (display : PathAToBDisplay)
  deriving DecidableEq

structure IntentClaims where
  applicationId : Bytes
  httpsOrigin : Bytes
  relayOrigin : Bytes
  carrierCeremonyId : Octets 32
  accountProvenance : AccountProvenance
  permissions : List Bytes
  deviceBinding : DeviceBinding
  transition : Transition
  offerCoreDigest : Octets 32
  deriving DecidableEq

/-- The base58 alphabet of a did:key. -/
def isBase58btc (b : UInt8) : Bool :=
  (49 ≤ b && b ≤ 57) || (65 ≤ b && b ≤ 72) || (74 ≤ b && b ≤ 78) || (80 ≤ b && b ≤ 90) ||
    (97 ≤ b && b ≤ 107) || (109 ≤ b && b ≤ 122)

def validLegacyHandle : Bytes → Bool
  | [] => false
  | at_ :: rest => at_ == 64 && 1 ≤ rest.length && rest.length ≤ 32 &&
      rest.all fun b => isLowercase b || isDigit b || b == 95 || b == 45

/-- Alphanumerics and `_ - . / ! ? + * < > = @`. -/
def isRoomOctet (b : UInt8) : Bool :=
  isAlphanumeric b || [95, 45, 46, 47, 33, 63, 43, 42, 60, 62, 61, 64].contains b

def validRoom : Bytes → Bool
  | [] => false
  | at_ :: rest => at_ == 64 && 0 < rest.length && Cbor.isAscii (at_ :: rest) &&
      rest.length + 1 ≤ 129 && rest.all isRoomOctet

def roomArrayOctets (rooms : List Bytes) : ℕ :=
  2 + (rooms.map fun room => room.length + 2).sum + (rooms.length - 1)

def bytesLt (a b : Bytes) : Bool := decide (a.map UInt8.toNat < b.map UInt8.toNat)

/-- No two neighbours out of strict byte order. -/
def strictlyAscending : List Bytes → Bool
  | a :: b :: rest => bytesLt a b && strictlyAscending (b :: rest)
  | _ => true

def PathAToBDisplay.validate (d : PathAToBDisplay) : Except Error Unit :=
  if !validLegacyHandle d.legacyHandle ∨ 256 < d.migrationRooms.length then .error .schema
  else if !d.migrationRooms.all validRoom ∨ !strictlyAscending d.migrationRooms ∨
      33793 < roomArrayOctets d.migrationRooms then .error .schema
  else .ok ()

def Transition.validate : Transition → Except Error Unit
  | .noTransition => .ok ()
  | .pathAToB display => display.validate

def DeviceBinding.validate (d : DeviceBinding) : Except Error Unit :=
  if !(ascii "did:key:z6Mk").isPrefixOf d.deviceDid then .error .schema
  else if d.deviceDid.length ≠ 56 ∨ !(d.deviceDid.drop 12).all isBase58btc then .error .schema
  else .ok ()

def recogniseOrigin (value : Bytes) (maximum : ℕ) : Except Error Unit :=
  if value = [] ∨ maximum < value.length then .error .origin
  else do
    let (origin, path) ← splitHttps value
    if origin ≠ value ∨ path ≠ [] then .error .origin else .ok ()

def IntentClaims.validate (claims : IntentClaims) : Except Error Unit := do
  let origin ← recogniseApplicationId claims.applicationId
  recogniseOrigin claims.httpsOrigin 272
  recogniseOrigin claims.relayOrigin 272
  if origin ≠ claims.httpsOrigin then .error .schema
  else if claims.permissions = [] ∨ 4 < claims.permissions.length ∨
      claims.permissions.any (fun p => p == [] || 128 < p.length) ∨
      !strictlyAscending claims.permissions then .error .schema
  else do
    claims.deviceBinding.validate
    claims.transition.validate

variable [Primitives]

def intentDigestOf (offerCoreDigest : Octets 32) : Octets 32 :=
  sha256 (ascii "selfsame credential/v2 intent" ++ [0] ++ offerCoreDigest.val)

/-- The peer's offer, as the verifier sees it. -/
structure IntentInput where
  claims : IntentClaims
  intentDigest : Octets 32
  deriving DecidableEq

/-- What the consumer authenticated apart from the peer. -/
structure IntentAuthority where
  claims : IntentClaims
  tofuState : TofuState
  deriving DecidableEq

namespace IntentAuthority

def new (claims : IntentClaims) (tofuState : TofuState) : Except Error IntentAuthority := do
  claims.validate
  pure ⟨claims, tofuState⟩

def intentDigest (authority : IntentAuthority) : Octets 32 :=
  intentDigestOf authority.claims.offerCoreDigest

end IntentAuthority

structure Display where
  claims : IntentClaims
  tofuState : TofuState
  deriving DecidableEq

/-- The consumer's answers while one offer is recognised. -/
structure OfferCheck where
  authority : IntentAuthority
  parseSignedOffer : Bytes → Except Error IntentClaims
  verify : IntentInput → IntentAuthority → Except Error Unit

def recogniseIntent (object : Object) (check : OfferCheck) : Except Error Display :=
  if object.kind ≠ .offer then .error .schema
  else do
    let claims ← check.parseSignedOffer object.body
    (claims.validate).mapError fun _ => .profile
    if object.intentDigest ≠ intentDigestOf claims.offerCoreDigest then .error .profile
    else if claims ≠ check.authority.claims ∨
        intentDigestOf claims.offerCoreDigest ≠ check.authority.intentDigest then .error .profile
    else do
      check.verify ⟨claims, intentDigestOf claims.offerCoreDigest⟩ check.authority
      pure ⟨check.authority.claims, check.authority.tofuState⟩

end CredentialV2
end CbclPairing
