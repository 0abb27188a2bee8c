import CbclPairing.CredentialV2.ClaimantFailures

/-! When a failed claimant call has changed nothing or has ended the session. -/
namespace CbclPairing
namespace CredentialV2
open Codec Codec.Cbor Calls

variable [Primitives] {V : Type} [BodyVerifier V]

namespace ClaimantSession
open Established

variable {s : ClaimantSession V}

/-- A call that fails has changed nothing or has ended the session. -/
def Atomic (a : ClaimantAct) (s : ClaimantSession V) : Prop :=
  ∀ e s', act a s = .error e s' → s.Same s' ∨ s'.phase = .terminal

omit [BodyVerifier V] in
/-- A torn application state is not the one before. -/
theorem not_same_of_torn {e e' : Established V} (h : Torn e e') (he : s.application = some e) :
    ¬s.Same (s.withApplication e') := by
  obtain ⟨hendpoint, hchannel, hrelay⟩ := application_eq_some.mp he
  rintro (hsame | ⟨v, hsame⟩)
  · have happlication := congrArg application hsame
    rw [withApplication_application, he] at happlication
    obtain rfl := Option.some.inj happlication
    exact h.moved.elim (fun h => h rfl) fun h => h.elim (fun h => h rfl) fun h => h rfl
  · have hendpoint' := congrArg endpoint hsame
    have hrelay' := congrArg relay hsame
    simp only [withApplication, withVerifier, hendpoint, hrelay, Option.map_some,
      Option.some.injEq] at hendpoint' hrelay'
    obtain hphase | hlast | hmoved := h.moved
    · exact hphase (by rw [hendpoint'])
    · exact hlast (by rw [hendpoint'])
    · exact hmoved hrelay'

/-- A call is atomic exactly when it is not one of those that fail halfway. -/
theorem atomic_iff (a : ClaimantAct) (s : ClaimantSession V) (hs : s.Stage) :
    Atomic a s ↔ ¬s.Tears a.2 := by
  have hfails : (call a.1 a.2).Meets (fun _ _ => ¬s.Tears a.2) (fun _ => s.Failed a.2) s :=
    call_fails hs a.2
  constructor
  · intro hatomic htears
    cases hcall : act a s with
    | ok effects s' => exact hfails.ok hcall htears
    | error e s' =>
      cases hfails.error hcall with
      | same htears' => exact htears' htears
      | ended htears' => exact htears' htears
      | torn _ he hphase _ htorn =>
        obtain hsame | hterminal := hatomic e _ hcall
        · exact not_same_of_torn htorn he hsame
        · cases hphase.symm.trans hterminal
  · intro htears e s' hcall
    cases hfails.error hcall with
    | same _ hsame => exact .inl hsame
    | ended => exact .inr rfl
    | torn htears' => exact absurd htears' htears

end ClaimantSession
end CredentialV2

/-! ### A nonce used twice -/

namespace CredentialV2
open Codec Calls

attribute [local instance] Primitives.transparent

namespace ClaimantSession

/-- An acknowledgement of the cached payload. -/
def acknowledge (nonce : Octets 12) : ClaimantAct :=
  (fill 32 [14], .receiveDurable
    (.ok ⟨.acknowledged 0, ServerMessage.recognised_acknowledged_zero⟩) 50 nonce)

def waiting : Established Unit := sample.application.get (by decide +kernel)

theorem waiting_facts : (sample.persistenceGate = none ∧ sample.phase = .established) ∧
    (durable waiting.endpoint.phase = true ∧
      ¬(waiting.endpoint.phase = .finalApproved ∧ waiting.endpoint.carrier.relayExpiresAt ≤ 50) ∧
      waiting.endpoint.checkpointNonce = some (fill 12 [15])) ∧
    waiting.relay.awaitingAck = true ∧ waiting.relay.cachedOutbound.isSome = true ∧
      checkedPred waiting.relay.nextLocalSequence = some 0 := by
  decide +kernel

/-- The nonce is the one of the last checkpoint. -/
theorem tears_acknowledge : sample.Tears (acknowledge (fill 12 [15])).2 := by
  obtain ⟨⟨hgate, hphase⟩, ⟨hdurable, hlive, hnonce⟩, hcached⟩ := waiting_facts
  have happlication : sample.application = some waiting := (Option.some_get _).symm
  exact .acknowledges happlication hgate hphase hdurable
    ⟨hlive, RelayState.cachedApplicationSequence_eq_ok.mpr hcached, .inl hnonce⟩

end ClaimantSession
end CredentialV2
end CbclPairing
