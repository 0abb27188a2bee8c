import CbclPairing.CredentialV2.Channel
import CbclPairing.Pairing.Channel
import CbclPairing.Relay.Mailbox
import CbclPairing.Wire.ServerReplies

/-! Sealed frames of both channels on the transport: every frame a channel seals has
an encoding that fits one relay message in either direction, and everything the
endpoints seal is a plaintext of the channel. -/
namespace CbclPairing
open Codec Codec.Cbor Calls

/-! ### Version 1 sealing -/

section Sealing

variable [Primitives]

theorem Pairing.SecureChannel.sealFrame_eq_ok {c c' : Pairing.SecureChannel} {plaintext : Bytes}
    {frame : Wire.ChannelFrame} :
    Pairing.SecureChannel.sealFrame plaintext c = .ok frame c' ↔
      c.terminal = false ∧ plaintext ≠ [] ∧ plaintext.length ≤ Pairing.maxSealedPlaintext ∧
      ∃ counter, c.nextSendCounter = some counter ∧
        frame = .sealed (Pairing.sendDirection c.localSide) counter
          (aesGcmEncrypt c.sendKey (Pairing.deriveNonce c.sendIv counter)
            (Pairing.sealedAad (Pairing.sendDirection c.localSide) counter c.transcriptHash)
            plaintext) ∧
        c' = { c with nextSendCounter := checkedSucc64 counter } := by
  rw [sealFrame, Call.run_bind (Call.run_get c)]
  by_cases hterminal : c.terminal = true
  · simp [hterminal]
  by_cases hsize : plaintext = [] ∨ Pairing.maxSealedPlaintext < plaintext.length
  · rw [if_neg hterminal, if_pos hsize]
    simp only [Call.throw_eq_ok, false_iff]
    rintro ⟨_, hne, hle, _⟩
    exact hsize.elim hne (not_lt.mpr hle)
  · rw [if_neg hterminal, if_neg hsize]
    simp only [Bool.not_eq_true] at hterminal
    simp only [not_or, not_lt] at hsize
    simp only [Call.bind_eq_ok, Call.orThrow_eq_ok, Call.set_eq_ok, Call.pure_eq_ok, hterminal,
      hsize, true_and, ne_eq, not_false_eq_true]
    aesop

/-- The ciphertext of an accepted plaintext has a length of the frame schema. -/
theorem ciphertext_bounds (key : Octets 32) (nonce : Octets 12) (aad : Bytes) {plaintext : Bytes}
    (hne : plaintext ≠ []) (hle : plaintext.length ≤ 69556) :
    17 ≤ (aesGcmEncrypt key nonce aad plaintext).length ∧
      (aesGcmEncrypt key nonce aad plaintext).length ≤ 69572 := by
  have hpos := List.length_pos_iff.mpr hne
  rw [Primitives.encrypt_length]
  omega

end Sealing

/-! ### One relay message -/

/-- What a relay gives a frame body: a put at every sequence is encoded, no mailbox
refuses its size, and so is its delivery. -/
structure Carried [Primitives] (body : Bytes) : Prop where
  length_le : body.length ≤ 69632
  put : ∀ seq : UInt8, seq.toNat ≤ 15 →
    ∃ message, Wire.encodeClientMessage (.put seq body) = .ok message
  sized : ∀ (m : Mailbox) (now : UInt64) (sender : Membership) (seq : UInt8),
    m.transition now (.put sender seq body) ≠ .error (.error .bodySize)
  frame : ∀ peerSeq : UInt8, peerSeq.toNat ≤ 15 →
    ∃ message, Wire.encodeServerMessage (.frame peerSeq body) = .ok message

theorem expect_eq_error {ε α : Type} {o : Option α} {fault : Fault ε}
    (h : (expect o : Except (Fault ε) α) = .error fault) : fault = .panicked := by
  cases o with
  | none => exact (Except.error.inj h).symm
  | some a => cases h

namespace Mailbox

/-- Everything that can go wrong while bodies are taken out is an overflow. -/
theorem deleteFrames_eq_error {owner : Membership} {frames : List FrameRecord} {queue : ℕ}
    {fault : Fault MailboxError} (h : deleteFrames owner queue frames = .error fault) :
    fault = .panicked := by
  induction frames generalizing queue with
  | nil => cases h
  | cons frame rest ih =>
    unfold deleteFrames at h
    cases hbody : frame.body with
    | none =>
      simp only [hbody, except_bind_eq_error] at h
      obtain h | ⟨_, -, h⟩ := h
      · exact ih h
      · cases h
    | some body =>
      simp only [hbody, except_bind_eq_error] at h
      obtain h | ⟨_, -, h | ⟨_, -, h⟩⟩ := h
      · exact expect_eq_error h
      · exact ih h
      · cases h

theorem deleteBodies_eq_error {m : Mailbox} {fault : Fault MailboxError}
    (h : m.deleteBodies = .error fault) : fault = .panicked := by
  simp only [deleteBodies, except_bind_eq_error] at h
  obtain h | ⟨_, -, h⟩ := h
  · exact deleteFrames_eq_error h
  cases hclaimant : m.claimant with
  | none =>
    simp only [hclaimant] at h
    cases h
  | some claimant =>
    simp only [hclaimant, except_bind_eq_error] at h
    obtain h | ⟨_, -, h⟩ := h
    · exact deleteFrames_eq_error h
    · cases h

theorem terminate_eq_error {m : Mailbox} {reason : CloseReason} {fault : Fault MailboxError}
    (h : m.terminate reason = .error fault) : fault = .panicked := by
  simp only [terminate, except_bind_eq_error] at h
  obtain h | ⟨_, -, h⟩ := h
  · exact deleteBodies_eq_error h
  · cases h

theorem reap_eq_error {m : Mailbox} {now : UInt64} {fault : Fault MailboxError}
    (h : m.reap now = .error fault) : fault = .panicked := by
  unfold reap at h
  split_ifs at h
  simp only [except_bind_eq_error] at h
  obtain h | ⟨_, -, h⟩ := h
  · exact deleteBodies_eq_error h
  · cases h

variable [Primitives]

theorem store_eq_error {m : Mailbox} {sender : Membership} {member : MemberState} {seq : UInt8}
    {body : Bytes} {fault : Fault MailboxError}
    (h : m.store sender member seq body = .error fault) : fault = .panicked := by
  simp only [store, except_bind_eq_error] at h
  obtain h | ⟨_, -, h | ⟨_, -, h⟩⟩ := h
  · exact expect_eq_error h
  · exact expect_eq_error h
  · cases h

/-- Only the size check of a put refuses a body for its size. -/
theorem put_bodySize {m : Mailbox} {sender : Membership} {seq : UInt8} {body : Bytes}
    (h : m.put sender seq body = .error (.error .bodySize)) :
    body = [] ∨ maxFrameBodyBytes < body.length := by
  unfold put at h
  split at h
  · assumption
  · split at h
    · cases h
    · split_ifs at h
      · split at h
        · cases h
        · split_ifs at h
          cases terminate_eq_error h
      · cases h
      · cases h
      · cases store_eq_error h

theorem transition_put_bodySize {m : Mailbox} {now : UInt64} {sender : Membership} {seq : UInt8}
    {body : Bytes} (h : m.transition now (.put sender seq body) = .error (.error .bodySize)) :
    body = [] ∨ maxFrameBodyBytes < body.length := by
  unfold transition at h
  split_ifs at h
  · cases reap_eq_error h
  · split at h
    · cases h
    · exact put_bodySize h

end Mailbox

section Channels

variable [Primitives]

theorem carried {body : Bytes} (hne : body ≠ []) (hle : body.length ≤ 69632) : Carried body where
  length_le := hle
  put _ hseq := ⟨_, Wire.encodeClientMessage_put hseq ⟨List.length_pos_iff.mpr hne, hle⟩⟩
  sized _ _ _ _ hsize := by
    obtain hempty | hlong := Mailbox.transition_put_bodySize hsize
    · exact hne hempty
    · exact absurd hle (not_le.mpr hlong)
  frame _ hseq := ⟨_, Wire.encodeServerMessage_bounded ⟨hseq, List.length_pos_iff.mpr hne, hle⟩⟩

omit [Primitives] in
/-- The octets of a sealed frame, with none to spare for the longest plaintext. -/
theorem sealed_octets_le {n : ℕ} (counter : UInt64) (h : n ≤ 69572) :
    46 + headSize counter.toNat + headSize n + n ≤ 69632 := by
  have hcounter : headSize counter.toNat ≤ 9 := by
    unfold headSize
    split_ifs <;> omega
  have hlength : headSize n ≤ 5 := headSize_le h
  omega

example : 46 + headSize (2 ^ 64 - 1) + headSize 69572 + 69572 = 69632 := by decide

/-! ### Frames -/

theorem Pairing.SecureChannel.sealFrame_carried {c c' : Pairing.SecureChannel} {plaintext : Bytes}
    {frame : Wire.ChannelFrame}
    (h : Pairing.SecureChannel.sealFrame plaintext c = .ok frame c') :
    ∃ body, Wire.encodeChannelFrame frame = .ok body ∧
      Wire.decodeChannelFrame body = .ok frame ∧ Carried body := by
  obtain ⟨-, hne, hle, counter, -, rfl, -⟩ := sealFrame_eq_ok.mp h
  have hbounds := ciphertext_bounds c.sendKey (deriveNonce c.sendIv counter)
    (sealedAad (sendDirection c.localSide) counter c.transcriptHash) hne hle
  have hencoded := Wire.encodeChannelFrame_sealed (sendDirection c.localSide) counter hbounds
  refine ⟨_, hencoded, Wire.channelFrame_faithful.decode_of_encode hencoded, ?_⟩
  refine carried (Wire.map_ne_nil _) ?_
  rw [Wire.sealedFrame_length]
  exact sealed_octets_le counter hbounds.2

theorem CredentialV2.SecureChannel.sealFrame_carried {c c' : CredentialV2.SecureChannel}
    {plaintext : Bytes} {frame : CredentialV2.Frame}
    (h : CredentialV2.SecureChannel.sealFrame plaintext c = .ok frame c') :
    ∃ body, CredentialV2.encodeFrame frame = .ok body ∧
      CredentialV2.decodeFrame body = .ok frame ∧ Carried body := by
  obtain ⟨hseal, counter, -, rfl, -⟩ := sealFrame_eq_ok.mp h
  obtain ⟨-, hne, hle, -⟩ := canSeal_eq_ok.mp hseal
  have hbounds := ciphertext_bounds c.sendKey (deriveNonce c.sendIv counter)
    (sealedAad (sendDirection c.localSide) counter c.transcriptHash) hne hle
  have hadmissible : (Frame.sealed (sendDirection c.localSide) counter
      (c.ciphertext counter plaintext)).admissible = true := by
    simp only [Frame.admissible, Bool.and_eq_true, decide_eq_true_eq]
    exact hbounds
  have hencoded := Frame.encodeFrame_ok hadmissible
  have hlength := Frame.sealed_length (sendDirection c.localSide) counter
    (c.ciphertext counter plaintext)
  refine ⟨_, hencoded, Frame.decodeFrame_of_encodeFrame hencoded, carried ?_ ?_⟩
  · rw [← List.length_pos_iff, hlength]
    omega
  · rw [hlength]
    exact sealed_octets_le counter hbounds.2

/-! ### Plaintexts -/

omit [Primitives] in
/-- A control and a body inside the schema are encoded to a plaintext of the channel. -/
theorem Wire.sealedPlaintext_accepted {p : Wire.SealedPlaintext} (h : p.Bounded) :
    ∃ plaintext, Wire.encodeSealedPlaintext p = .ok plaintext ∧ plaintext ≠ [] ∧
      plaintext.length ≤ Pairing.maxSealedPlaintext := by
  have hlength := Wire.sealedPlaintext_length_le h
  refine ⟨_, Wire.encodeSealedPlaintext_bounded h, Wire.map_ne_nil _, ?_⟩
  unfold Pairing.maxSealedPlaintext
  omega

omit [Primitives] in
theorem CredentialV2.Object.bytes_accepted (o : CredentialV2.Object) :
    o.bytes ≠ [] ∧ o.bytes.length ≤ CredentialV2.maxPlaintext := by
  have hlength := o.bytes_length
  have hle := o.bytes_length_le
  have hcapacity : CredentialV2.capacity o.kind ≤ 64512 := by cases o.kind <;> decide
  refine ⟨?_, ?_⟩
  · rw [← List.length_pos_iff]
    omega
  · unfold CredentialV2.maxPlaintext
    omega

end Channels

section Sample

attribute [local instance] Primitives.transparent

/-- A channel before its last counter. -/
def lastCounter : Pairing.SecureChannel where
  localSide := .claimant
  transcriptHash := fill 64 []
  sendKey := fill 32 []
  receiveKey := fill 32 []
  sendIv := fill 12 []
  receiveIv := fill 12 []
  exporter := fill 32 []
  nextSendCounter := some 0xffffffffffffffff
  nextReceiveCounter := some 0
  terminal := false

def smallPlaintext : Wire.SealedPlaintext := ⟨[40, 41], some [1]⟩

end Sample
end CbclPairing
