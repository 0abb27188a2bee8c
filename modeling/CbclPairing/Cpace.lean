import CbclPairing.CredentialV2.Frame

/-! CPace over Curve25519: the generator from the password-related secret, the
two shares, and the intermediate session key. -/
namespace CbclPairing
namespace Cpace
open Codec CredentialV2

/-! ### The generator map -/

def fieldPrime : ℕ := 2 ^ 255 - 19

def ofLe (bytes : Bytes) : ℕ := ofBe bytes.reverse

def toLe (n x : ℕ) : Octets n := ⟨(beBytes n x).reverse, by simp⟩

def fieldAdd (a b : ℕ) : ℕ := (a + b) % fieldPrime
def fieldSub (a b : ℕ) : ℕ := (a + (fieldPrime - b % fieldPrime)) % fieldPrime
def fieldMul (a b : ℕ) : ℕ := a * b % fieldPrime
def fieldSquare (a : ℕ) : ℕ := fieldMul a a
def fieldNeg (a : ℕ) : ℕ := fieldSub 0 a

/-- The bits of a little-endian exponent, most significant first. -/
def exponentBits (exponent : Bytes) : List Bool :=
  exponent.reverse.flatMap fun b => (List.range 8).reverse.map fun i => b.toNat.testBit i

def fieldPow (x : ℕ) (exponent : Bytes) : ℕ :=
  (exponentBits exponent).foldl
    (fun r bit => if bit then fieldMul (fieldSquare r) x else fieldSquare r) 1

def primeMinusTwo : Bytes := 0xeb :: (List.replicate 30 0xff ++ [0x7f])
def primeMinusOneOverTwo : Bytes := 0xf6 :: (List.replicate 30 0xff ++ [0x3f])

def fieldInvert (x : ℕ) : ℕ := fieldPow x primeMinusTwo

def curveA : ℕ := 486662
def curveAOverTwo : ℕ := 243331

/-- Clear the top bit of the last of 32 octets. -/
def clearTopBit (bytes : Octets 32) : Octets 32 :=
  ⟨bytes.val.modify 31 (· &&& 0x7f), by simp⟩

def elligator2Curve25519 (representative : Octets 32) : Octets 32 :=
  let r := ofLe (clearTopBit representative).val
  let denominator := fieldAdd 1 (fieldMul (fieldAdd 1 1) (fieldSquare r))
  let v := fieldMul (fieldNeg curveA) (fieldInvert denominator)
  let curveEquation := fieldMul v (fieldAdd (fieldAdd (fieldSquare v) (fieldMul curveA v)) 1)
  let epsilon := fieldPow curveEquation primeMinusOneOverTwo
  toLe 32 (fieldSub (fieldMul epsilon v) (fieldMul (fieldSub 1 epsilon) curveAOverTwo))

/-! ### Length-value encoding -/

def leb128Size (value : ℕ) : ℕ := if value < 128 then 1 else leb128Size (value / 128) + 1

def leb128 (value : ℕ) : Bytes :=
  if value < 128 then [UInt8.ofNat value]
  else UInt8.ofNat (value % 128 + 128) :: leb128 (value / 128)

def lengthValue (value : Bytes) : Bytes := leb128 value.length ++ value

def prependLenSize (value : Bytes) : ℕ := leb128Size value.length + value.length

def cpaceDsi : Bytes := ascii "CPace255"
def cpaceIskDsi : Bytes := ascii "CPace255_ISK"

def generatorString (prs channelIdentifier sessionId : Bytes) : Bytes :=
  let padding := 128 - (prependLenSize cpaceDsi + prependLenSize prs + 1)
  lengthValue cpaceDsi ++ lengthValue prs ++ leb128 padding ++ List.replicate padding 0 ++
    lengthValue channelIdentifier ++ lengthValue sessionId

variable [Primitives]

def calculateGenerator (prs channelIdentifier sessionId : Bytes) : Octets 32 :=
  let digest := sha512 (generatorString prs channelIdentifier sessionId)
  elligator2Curve25519 (clearTopBit ⟨digest.val.take 32, by simp⟩)

/-! ### The two messages -/

inductive CpaceError where
  | sameSide
  | invalidPeerPoint
  | associatedData
  deriving DecidableEq, Repr

/-- X25519 without the neutral element. -/
def x25519ScalarMultVfy (scalar point : Octets 32) : Except CpaceError (Octets 32) :=
  if x25519 scalar point = Octets.replicate 32 0 then .error .invalidPeerPoint
  else .ok (x25519 scalar point)

structure CpaceState where
  side : Side
  scalar : Octets 32
  localMessage : CpaceMessage
  sid : Bytes
  expectedPeerAssociatedData : Option Bytes
  deriving DecidableEq

def start (side : Side) (prs channelIdentifier sessionId associatedData : Bytes)
    (freshScalar : Octets 32) : Except CpaceError (CpaceState × CpaceMessage) := do
  let generator := calculateGenerator prs channelIdentifier sessionId
  let share ← x25519ScalarMultVfy freshScalar generator
  let message : CpaceMessage := ⟨side, share, associatedData⟩
  pure (⟨side, freshScalar, message, sessionId, none⟩, message)

/-- Start with the peer's exact associated data pinned. -/
def startBound (side : Side) (prs channelIdentifier sessionId localAssociatedData
    expectedPeerAssociatedData : Bytes) (freshScalar : Octets 32) :
    Except CpaceError (CpaceState × CpaceMessage) := do
  let (state, message) ← start side prs channelIdentifier sessionId localAssociatedData freshScalar
  pure ({ state with expectedPeerAssociatedData := some expectedPeerAssociatedData }, message)

/-- The hashed key input names both shares in role order. -/
def keyInput (sid : Bytes) (sharedPoint : Octets 32) (allocator claimant : CpaceMessage) : Bytes :=
  lengthValue cpaceIskDsi ++ lengthValue sid ++ lengthValue sharedPoint.val ++
    lengthValue allocator.share.val ++ lengthValue allocator.associatedData ++
    lengthValue claimant.share.val ++ lengthValue claimant.associatedData

def finish (state : CpaceState) (peer : CpaceMessage) : Except CpaceError (Octets 64) :=
  if state.side = peer.side then .error .sameSide
  else if state.expectedPeerAssociatedData.any (· != peer.associatedData) then
    .error .associatedData
  else do
    let sharedPoint ← x25519ScalarMultVfy state.scalar peer.share
    match state.side with
    | .allocator => pure (sha512 (keyInput state.sid sharedPoint state.localMessage peer))
    | .claimant => pure (sha512 (keyInput state.sid sharedPoint peer state.localMessage))

end Cpace
end CbclPairing
