import CbclPairing.Cpace
import CbclPairing.PrefixCodes

/-! Both sides of CPace derive one key, and the two hashed inputs are unambiguous. -/
namespace CbclPairing
namespace Cpace
open Codec CredentialV2 PrefixCodes

/-! ### Length-value encoding -/

theorem leb128_small {value : ℕ} (h : value < 128) : leb128 value = [UInt8.ofNat value] := by
  rw [leb128, if_pos h]

theorem leb128_large {value : ℕ} (h : ¬ value < 128) :
    leb128 value = UInt8.ofNat (value % 128 + 128) :: leb128 (value / 128) := by
  rw [leb128, if_neg h]

theorem octet_injective {m n : ℕ} (hm : m < 256) (hn : n < 256)
    (h : UInt8.ofNat m = UInt8.ofNat n) : m = n := by
  have hvalue := congrArg UInt8.toNat h
  simpa [UInt8.toNat_ofNat', Nat.mod_eq_of_lt hm, Nat.mod_eq_of_lt hn] using hvalue

/-- Every octet but the last carries the continuation bit, so a length cannot be read
as the beginning of another one. -/
theorem leb128_prefixFree : PrefixFree leb128 := by
  intro a
  induction a using leb128.induct with
  | case1 a hsmall =>
    intro b rest rest' hab
    rw [leb128_small hsmall] at hab
    by_cases hsmall' : b < 128
    · rw [leb128_small hsmall'] at hab
      obtain ⟨hhead, hrest⟩ := List.cons_eq_cons.mp hab
      exact ⟨octet_injective (by omega) (by omega) hhead, hrest⟩
    · rw [leb128_large hsmall'] at hab
      have hdigit := octet_injective (by omega) (by omega) (List.cons_eq_cons.mp hab).1
      omega
  | case2 a hlarge ih =>
    intro b rest rest' hab
    rw [leb128_large hlarge] at hab
    by_cases hsmall' : b < 128
    · rw [leb128_small hsmall'] at hab
      have hdigit := octet_injective (by omega) (by omega) (List.cons_eq_cons.mp hab).1
      omega
    · rw [leb128_large hsmall'] at hab
      obtain ⟨hhead, htail⟩ := List.cons_eq_cons.mp hab
      have hdigit := octet_injective (by omega) (by omega) hhead
      obtain ⟨hhigh, hrest⟩ := ih htail
      exact ⟨by omega, hrest⟩

theorem lengthValue_prefixFree : PrefixFree lengthValue := leb128_prefixFree.lengthValue

/-- The zeros that fill the first hash block after the secret. -/
def zeroPadding (prs : Bytes) : Bytes :=
  let padding := 128 - (prependLenSize cpaceDsi + prependLenSize prs + 1)
  leb128 padding ++ List.replicate padding 0

/-- The padding stands after the secret and depends on its length alone. -/
theorem generatorString_injective {prs channelIdentifier sessionId prs' channelIdentifier'
    sessionId' : Bytes}
    (h : generatorString prs channelIdentifier sessionId =
      generatorString prs' channelIdentifier' sessionId') :
    prs = prs' ∧ channelIdentifier = channelIdentifier' ∧ sessionId = sessionId' := by
  have hcode := lengthValue_prefixFree.padded
    (lengthValue_prefixFree.pair lengthValue_prefixFree) zeroPadding
  unfold generatorString at h
  simp only [List.append_assoc] at h
  have hinputs := List.append_cancel_left h
  have hpairs : (prs, channelIdentifier, sessionId) = (prs', channelIdentifier', sessionId') := by
    apply hcode.injective
    simpa only [zeroPadding, List.append_assoc] using hinputs
  simpa only [Prod.mk.injEq] using hpairs

theorem keyInput_injective {sid sid' : Bytes} {sharedPoint sharedPoint' : Octets 32}
    {allocator claimant allocator' claimant' : CpaceMessage}
    (h : keyInput sid sharedPoint allocator claimant =
      keyInput sid' sharedPoint' allocator' claimant') :
    sid = sid' ∧ sharedPoint = sharedPoint' ∧ allocator.share = allocator'.share ∧
      allocator.associatedData = allocator'.associatedData ∧
      claimant.share = claimant'.share ∧ claimant.associatedData = claimant'.associatedData := by
  unfold keyInput at h
  simp only [List.append_assoc] at h
  obtain ⟨hsid, h⟩ := lengthValue_prefixFree (List.append_cancel_left h)
  obtain ⟨hpoint, h⟩ := lengthValue_prefixFree h
  obtain ⟨hallocator, h⟩ := lengthValue_prefixFree h
  obtain ⟨hallocatorData, h⟩ := lengthValue_prefixFree h
  obtain ⟨hclaimant, h⟩ := lengthValue_prefixFree h
  have hclaimantData := lengthValue_prefixFree.injective h
  exact ⟨hsid, Subtype.ext hpoint, Subtype.ext hallocator, hallocatorData, Subtype.ext hclaimant,
    hclaimantData⟩

/-! ### Agreement -/

section Agreement

variable [Primitives]

/-- One side has begun, with or without the peer's data pinned. -/
def Begun (side : Side) (prs channelIdentifier sessionId localData peerData : Bytes)
    (scalar : Octets 32) (state : CpaceState) (message : CpaceMessage) : Prop :=
  start side prs channelIdentifier sessionId localData scalar = .ok (state, message) ∨
    startBound side prs channelIdentifier sessionId localData peerData scalar =
      .ok (state, message)

theorem start_eq_ok {side : Side} {prs channelIdentifier sessionId localData : Bytes}
    {scalar : Octets 32} {state : CpaceState} {message : CpaceMessage}
    (h : start side prs channelIdentifier sessionId localData scalar = .ok (state, message)) :
    message = ⟨side, x25519 scalar (calculateGenerator prs channelIdentifier sessionId),
        localData⟩ ∧ state = ⟨side, scalar, message, sessionId, none⟩ := by
  unfold start x25519ScalarMultVfy at h
  simp only [Calls.except_bind_eq_ok, Calls.guard_eq_ok] at h
  obtain ⟨share, ⟨-, hshare⟩, h⟩ := h
  obtain rfl := Except.ok.inj hshare
  obtain ⟨rfl, rfl⟩ := Prod.mk.inj (Except.ok.inj h)
  exact ⟨rfl, rfl⟩

/-- The message and the state of a side that has begun; the pinned data, if any, is the
peer's. -/
theorem Begun.state {side : Side} {prs channelIdentifier sessionId localData peerData : Bytes}
    {scalar : Octets 32} {state : CpaceState} {message : CpaceMessage}
    (h : Begun side prs channelIdentifier sessionId localData peerData scalar state message) :
    message = ⟨side, x25519 scalar (calculateGenerator prs channelIdentifier sessionId),
        localData⟩ ∧
      ∃ pinned, (pinned = none ∨ pinned = some peerData) ∧
        state = ⟨side, scalar, message, sessionId, pinned⟩ := by
  obtain h | h := h
  · obtain ⟨hmessage, hstate⟩ := start_eq_ok h
    exact ⟨hmessage, none, .inl rfl, hstate⟩
  · unfold startBound at h
    simp only [Calls.except_bind_eq_ok] at h
    obtain ⟨⟨unbound, message'⟩, hstart, h⟩ := h
    obtain ⟨rfl, rfl⟩ := Prod.mk.inj (Except.ok.inj h)
    obtain ⟨hmessage, rfl⟩ := start_eq_ok hstart
    exact ⟨hmessage, some peerData, .inr rfl, rfl⟩

/-- The key of a shared point, unless the point is neutral. -/
def sharedKey (sid : Bytes) (sharedPoint : Octets 32) (allocator claimant : CpaceMessage) :
    Except CpaceError (Octets 64) :=
  if sharedPoint = Octets.replicate 32 0 then .error .invalidPeerPoint
  else .ok (sha512 (keyInput sid sharedPoint allocator claimant))

/-- A peer of the other side with the pinned data is only refused for its point; the
roles, not the sides' points of view, order the messages. -/
theorem finish_eq {side : Side} {scalar : Octets 32} {message peer : CpaceMessage} {sid : Bytes}
    {pinned : Option Bytes} (hside : side ≠ peer.side)
    (hpinned : pinned = none ∨ pinned = some peer.associatedData) :
    finish ⟨side, scalar, message, sid, pinned⟩ peer =
      match side with
      | .allocator => sharedKey sid (x25519 scalar peer.share) message peer
      | .claimant => sharedKey sid (x25519 scalar peer.share) peer message := by
  have hdata : ¬ pinned.any (· != peer.associatedData) = true := by
    obtain rfl | rfl := hpinned
    · simp
    · simp
  unfold finish sharedKey x25519ScalarMultVfy
  dsimp only
  rw [if_neg hside, if_neg hdata]
  cases side with
  | allocator =>
    split_ifs
    · rfl
    · rfl
  | claimant =>
    split_ifs
    · rfl
    · rfl

end Agreement

section Sample

attribute [local instance] Primitives.transparent

def sampleAllocator : CpaceState × CpaceMessage :=
  Calls.value (startBound .allocator [1] [2] [3] [4] [5] (fill 32 [6])) (by decide +kernel)

def sampleClaimant : CpaceState × CpaceMessage :=
  Calls.value (start .claimant [1] [2] [3] [5] (fill 32 [7])) (by decide +kernel)

end Sample

end Cpace
end CbclPairing
