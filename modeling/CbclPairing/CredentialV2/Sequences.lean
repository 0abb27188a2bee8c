import CbclPairing.CredentialV2.Relay
import CbclPairing.StopAndWait

/-! The relay projection as one side of a stop-and-wait exchange: bootstrap frames and
application frames share its numbers. -/
namespace CbclPairing
namespace CredentialV2
open Codec Calls StopAndWait

namespace RelayState

/-- The ways a session moves its projection. -/
inductive Step (r : RelayState) : Event → RelayState → Prop
  | queued {r' : RelayState} {n : UInt8} : queueBootstrapFrame r = .ok n r' →
      Step r (.issue n.toNat) r'
  | cached {r' : RelayState} {frame : Frame} : cacheApplicationFrame frame r = .ok () r' →
      Step r (.issue r.nextLocalSequence.toNat) r'
  | confirmed {r' : RelayState} {n : UInt8} : acknowledgeBootstrapFrame n r = .ok () r' →
      Step r (.acknowledge n.toNat) r'
  | delivered {r' : RelayState} {n : UInt8} : acknowledgeApplicationFrame n r = .ok () r' →
      Step r (.acknowledge n.toNat) r'
  | accepted {r' : RelayState} {n : UInt8} : acceptPeerSequence n r = .ok () r' →
      Step r (.take n.toNat) r'

/-- The numbers of a projection. -/
def sequences (r : RelayState) : State :=
  ⟨r.nextLocalSequence.toNat, r.nextPeerSequence.toNat, r.awaitingAck⟩

/-- Each move of a projection is a step of the exchange. -/
theorem Step.sequences {r r' : RelayState} {e : Event} (h : r.Step e r') :
    StopAndWait.Step r.sequences e r'.sequences := by
  cases h with
  | queued h =>
    obtain ⟨hwaiting, -, rfl, next, hnext, rfl⟩ := queueBootstrapFrame_eq_ok.mp h
    have hissue := StopAndWait.Step.issue (s := r.sequences) hwaiting
    rwa [RelayState.sequences, ← checkedSucc_eq_some.mp hnext] at hissue
  | cached h =>
    obtain ⟨hwaiting, -, next, hnext, rfl⟩ := cacheApplicationFrame_eq_ok.mp h
    have hissue := StopAndWait.Step.issue (s := r.sequences) hwaiting
    rwa [RelayState.sequences, ← checkedSucc_eq_some.mp hnext] at hissue
  | confirmed h =>
    obtain ⟨hlast, hwaiting, -, rfl⟩ := acknowledgeBootstrapFrame_eq_ok.mp h
    exact .acknowledge hwaiting (checkedPred_eq_some.mp hlast)
  | delivered h =>
    obtain ⟨hcached, rfl⟩ := acknowledgeApplicationFrame_eq_ok.mp h
    obtain ⟨hwaiting, -, hlast⟩ := cachedApplicationSequence_eq_ok.mp hcached
    exact .acknowledge hwaiting (checkedPred_eq_some.mp hlast)
  | accepted h =>
    obtain ⟨rfl, next, hnext, rfl⟩ := acceptPeerSequence_eq_ok.mp h
    have htake := StopAndWait.Step.take (s := r.sequences)
    rwa [RelayState.sequences, ← checkedSucc_eq_some.mp hnext] at htake

/-- A cached application frame is the last issued one, and outstanding. -/
structure Regular (r : RelayState) : Prop where
  cached : r.cachedOutbound.isSome = true → r.awaitingAck = true
  valid : r.sequences.Valid

theorem regular_new (membershipToken : Octets 32) : (RelayState.new membershipToken).Regular :=
  ⟨(by intros; contradiction), (by intro h; cases h)⟩

theorem Step.regular {r r' : RelayState} {e : Event} (h : r.Step e r') (hr : r.Regular) :
    r'.Regular := by
  refine ⟨?_, h.sequences.valid hr.valid⟩
  cases h with
  | queued h =>
    obtain ⟨-, -, -, next, -, rfl⟩ := queueBootstrapFrame_eq_ok.mp h
    exact fun _ => rfl
  | cached h =>
    obtain ⟨-, -, next, -, rfl⟩ := cacheApplicationFrame_eq_ok.mp h
    exact fun _ => rfl
  | confirmed h =>
    obtain ⟨-, -, huncached, rfl⟩ := acknowledgeBootstrapFrame_eq_ok.mp h
    intro hcached
    rw [huncached] at hcached
    cases hcached
  | delivered h =>
    obtain ⟨-, rfl⟩ := acknowledgeApplicationFrame_eq_ok.mp h
    intros
    contradiction
  | accepted h =>
    obtain ⟨-, next, -, rfl⟩ := acceptPeerSequence_eq_ok.mp h
    exact hr.cached

/-- A projection along a run: absent, moved along, or joined on the way. -/
inductive Follows : Option RelayState → List Event → Option RelayState → Prop
  | absent : Follows none [] none
  | moved {r r' : RelayState} {events : List Event} : Path Step r events r' →
      Follows (some r) events (some r')
  | joined {membershipToken : Octets 32} {r' : RelayState} {events : List Event} :
      Path Step (RelayState.new membershipToken) events r' → Follows none events (some r')

theorem follows_self (relay : Option RelayState) : Follows relay [] relay := by
  cases relay with
  | none => exact .absent
  | some r => exact .moved (.nil r)

theorem follows_step {relay relay' : Option RelayState} {r r' : RelayState} {e : Event}
    (hrelay : relay = some r) (hrelay' : relay' = some r') (h : r.Step e r') :
    Follows relay [e] relay' := by
  rw [hrelay, hrelay']
  exact .moved (.one h)

theorem Follows.append {relay relay' relay'' : Option RelayState} {events more : List Event}
    (h : Follows relay events relay') (h' : Follows relay' more relay'') :
    Follows relay (events ++ more) relay'' := by
  cases h with
  | absent => exact h'
  | moved hpath =>
    cases h' with
    | moved hpath' => exact .moved (hpath.append hpath')
  | joined hpath =>
    cases h' with
    | moved hpath' => exact .joined (hpath.append hpath')

end RelayState
end CredentialV2
end CbclPairing
