import CbclPairing.CredentialV2.Guess

/-! No nonce is used twice: over every crash, an allocator session numbers its puts
without a gap, and what it puts again under a number it repeats to the byte. -/
namespace CbclPairing
namespace CredentialV2
open Codec Codec.Cbor Calls

variable [Primitives] {V : Type}

namespace AllocatorSession
open AllocatorState AllocatorEffect

/-- Every sequence below the next one has been put. -/
def Contiguous (sent : List (UInt8 × Bytes)) (state : AllocatorState V) : Prop :=
  ∀ n < state.nextLocal, ∃ p ∈ sent, p.1.toNat = n

theorem Contiguous.append {sent more : List (UInt8 × Bytes)} {state : AllocatorState V}
    (h : Contiguous sent state) : Contiguous (sent ++ more) state := by
  intro n hn
  obtain ⟨p, hp, hsequence⟩ := h n hn
  exact ⟨p, List.mem_append_left _ hp, hsequence⟩

theorem contiguous_congr {sent : List (UInt8 × Bytes)} {state state' : AllocatorState V}
    (h : state'.nextLocal = state.nextLocal) :
    Contiguous sent state' ↔ Contiguous sent state := by
  rw [Contiguous, Contiguous, h]

variable [BodyVerifier V]

theorem Contiguous.moved {sent : List (UInt8 × Bytes)} {s s₁ : AllocatorSession V} {cause : Cause}
    {after : List AllocatorEffect} (h : Contiguous sent s.state) (hbounded : s.state.Bounded)
    (htransition : Transition s cause s₁ after) : Contiguous (sent ++ puts after) s₁.state := by
  rcases htransition.puts hbounded with ⟨-, hlocal⟩ | ⟨q, -, -, hlocal⟩ | ⟨q, hq, hseq, hlocal, -⟩
  · exact (contiguous_congr hlocal).mpr h.append
  · exact (contiguous_congr hlocal).mpr h.append
  · -- the new put has the sequence that was next
    intro n hn
    rw [hlocal] at hn
    rcases Nat.lt_succ_iff_lt_or_eq.mp hn with hbelow | rfl
    · exact h.append n hbelow
    · refine ⟨q, List.mem_append_right _ ?_, hseq⟩
      rw [hq]
      exact List.mem_singleton_self q

theorem contiguous_invariant (host : AllocatorHost) :
    HistoryInvariant (V := V) host Contiguous where
  awaitWelcome n hn := absurd hn (Nat.not_lt_zero n)
  awaitAllocation n hn := absurd hn (Nat.not_lt_zero n)
  replayed h _ := h.append
  moved _ hsettled h htransition := h.moved hsettled.bounded htransition
  sealed_ := by
    intro sent key now generation nonce checkpoint carrier state state' hseals h
    refine (contiguous_congr ?_).mpr h
    cases hseals with
    | bootstrap hseal =>
      obtain ⟨-, -, -, rfl⟩ := Bootstrap.sealCheckpoint_eq_ok.mp hseal
      rfl
    | established => rfl
  resumed := by
    intro sent state state' hresumes
    cases hresumes <;> exact contiguous_congr rfl

/-- Two records of what was put are kept together. -/
theorem HistoryInvariant.and {host : AllocatorHost}
    {F G : List (UInt8 × Bytes) → AllocatorState V → Prop} (hF : HistoryInvariant host F)
    (hG : HistoryInvariant host G) :
    HistoryInvariant host fun sent state => F sent state ∧ G sent state where
  awaitWelcome := ⟨hF.awaitWelcome, hG.awaitWelcome⟩
  awaitAllocation := ⟨hF.awaitAllocation, hG.awaitAllocation⟩
  replayed h hcontains := ⟨hF.replayed h.1 hcontains, hG.replayed h.2 hcontains⟩
  moved hcoherent hsettled h htransition :=
    ⟨hF.moved hcoherent hsettled h.1 htransition, hG.moved hcoherent hsettled h.2 htransition⟩
  sealed_ hseals h := ⟨hF.sealed_ hseals h.1, hG.sealed_ hseals h.2⟩
  resumed hresumes := and_congr (hF.resumed hresumes) (hG.resumed hresumes)

/-- In every run with crashes that each return to the latest confirmed checkpoint: a
sequence, or a channel counter, that is put twice is put with the same octets; the
sequence says which frame it is; and the sequences are put without a gap. -/
theorem no_nonce_reuse {input : AllocatorInput} {v : V} {s₀ : AllocatorSession V}
    (hnew : AllocatorSession.new input v = .ok s₀)
    (acts : List (Recovery.Act AllocatorCall (AllocatorReturn V))) :
    let sent := AllocatorEffect.puts (Runs.released ((machine input.host).step .confirmed)
      (.start s₀) acts)
    (∀ p ∈ sent, ∀ p' ∈ sent, p.1 = p'.1 → p = p') ∧
    (∀ p ∈ sent, ∃ frame, decodeFrame p.2 = .ok frame ∧ p.1.toNat = frame.slot) ∧
    (∀ p ∈ sent, ∀ p' ∈ sent, ∀ side counter ciphertext side' ciphertext',
      decodeFrame p.2 = .ok (.sealed side counter ciphertext) →
      decodeFrame p'.2 = .ok (.sealed side' counter ciphertext') → p = p') ∧
    (∀ p ∈ sent, ∀ side counter ciphertext,
      decodeFrame p.2 = .ok (.sealed side counter ciphertext) → ∃ channel plaintext,
        ciphertext = SecureChannel.ciphertext channel counter plaintext) ∧
    ∀ p ∈ sent, ∀ n < p.1.toNat, ∃ p' ∈ sent, p'.1.toNat = n := by
  intro sent
  obtain hnil | ⟨state, hrecorded, hcontiguous⟩ : sent = [] ∨ ∃ state : AllocatorState V,
      Recorded sent state ∧ Contiguous sent state := by
    have htracked := ((recorded_invariant input.host).and
      (contiguous_invariant input.host)).run hnew acts
    cases hconfirmed : (Runs.after ((machine input.host).step .confirmed) (.start s₀)
        acts).confirmed with
    | none => exact .inl (htracked.unconfirmed hconfirmed)
    | some stored =>
      obtain ⟨state, -, hkept⟩ := htracked.confirmed stored hconfirmed
      exact .inr ⟨state, hkept⟩
  · rw [hnil]
    simp
  have hframe : ∀ p ∈ sent, ∃ frame, decodeFrame p.2 = .ok frame ∧ p.1.toNat = frame.slot ∧
      ∀ side counter ciphertext, frame = .sealed side counter ciphertext → ∃ channel plaintext,
        ciphertext = SecureChannel.ciphertext channel counter plaintext := by
    intro p hp
    obtain ⟨frame, hbody, hslot, hsealed⟩ := hrecorded.numbered p (.inl hp)
    exact ⟨frame, encodeFrame_iff.mp hbody, hslot, hsealed⟩
  refine ⟨fun p hp p' hp' => hrecorded.unique p p' (.inl hp) (.inl hp'), fun p hp => ?_, ?_, ?_, ?_⟩
  · obtain ⟨frame, hbody, hslot, -⟩ := hframe p hp
    exact ⟨frame, hbody, hslot⟩
  · intro p hp p' hp' side counter ciphertext side' ciphertext' hbody hbody'
    exact hrecorded.same_slot hp hp' hbody hbody' rfl
  · intro p hp side counter ciphertext hbody
    obtain ⟨frame, hframe', -, hsealed⟩ := hframe p hp
    exact hsealed side counter ciphertext (Except.ok.inj (hframe'.symm.trans hbody))
  · intro p hp n hn
    have hbelow := hrecorded.below p (.inl hp)
    exact hcontiguous n (hn.trans hbelow)

end AllocatorSession

end CredentialV2

namespace CredentialV2
open Codec Calls

attribute [local instance] Primitives.transparent

namespace AllocatorSession

theorem no_nonce_reuse_sample :
    let sent := AllocatorEffect.puts (Runs.released
      ((machine AllocatorInput.sample.host).step .confirmed) (.start sample) rehearsal)
    sent.map (fun p => p.1) = [0, 1] ∧ ∀ p ∈ sent, ∀ p' ∈ sent, p.1 = p'.1 → p = p' := by
  refine ⟨by decide +kernel, ?_⟩
  exact (no_nonce_reuse new_sample rehearsal).1

end AllocatorSession
end CredentialV2
end CbclPairing
