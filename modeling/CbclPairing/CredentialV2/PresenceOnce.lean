import CbclPairing.CredentialV2.BootstrapBinding
import CbclPairing.CredentialV2.ClaimToken
import CbclPairing.CredentialV2.Transfer

/-! The presence secrets are one-use: a claimant claims once, and an allocator that
accepted a share neither exports an invitation again nor seals its claim token. -/
namespace CbclPairing
namespace CredentialV2
open Codec Codec.Cbor Calls

variable [Primitives]

/-! ### What a checkpoint holds -/

/-- Whoever opens a sealed plaintext under the wrapping key finds what was sealed. -/
theorem openCheckpointPlaintext_of_sealed {plaintext checkpoint : Bytes} {side side' : Side}
    {carrier carrier' : Carrier} {wrappingKey : Octets 32} {generation generation' now : UInt64}
    {expiry : Option UInt64} {nonce : Octets 12} {opened : OpenedCheckpoint}
    (h : sealCheckpointPlaintext plaintext side carrier wrappingKey generation expiry nonce =
      .ok checkpoint)
    (hopen : openCheckpointPlaintext checkpoint wrappingKey side' carrier' generation' now =
      .ok opened) :
    opened = ⟨plaintext, expiry, nonce⟩ ∧ side' = side ∧ generation' = generation := by
  unfold sealCheckpointPlaintext at h
  dsimp only at h
  split_ifs at h with hplain hcipher
  obtain rfl := Except.ok.inj h
  simp only [not_or, not_lt] at hcipher
  obtain ⟨outer, houter, hside, -, hgeneration, hdecrypt, hexpiry, hnonce⟩ :=
    openCheckpointPlaintext_outer hopen
  rw [decodeOuter_encodeOuter hcipher.1 hcipher.2] at houter
  obtain rfl := Except.ok.inj houter
  rw [Primitives.decrypt_encrypt] at hdecrypt
  obtain ⟨plain, _, _⟩ := opened
  obtain rfl := Option.some.inj hdecrypt
  subst hexpiry hnonce
  exact ⟨rfl, hside.symm, hgeneration.symm⟩

variable {V : Type} [BodyVerifier V]

namespace AllocatorState

/-- The serialised form of a state. -/
def encodeInner (generation : UInt64) (nonce : Octets 12) : AllocatorState V → Except Error Bytes
  | .bootstrap b => b.encodeInner generation nonce
  | .established e => CredentialV2.encodeInner e generation nonce
  | _ => .error .phase

/-- A checkpoint that opens, under its wrapping key, to the serialised form of a state
and to nothing else. -/
def CarriedBy (wrappingKey : Octets 32) (checkpoint : Bytes) (state : AllocatorState V) : Prop :=
  ∃ generation nonce plaintext, state.encodeInner generation nonce = .ok plaintext ∧
    ∀ side carrier generation now opened,
      openCheckpointPlaintext checkpoint wrappingKey side carrier generation now = .ok opened →
        opened.plaintext = plaintext

end AllocatorState

namespace AllocatorSession
open AllocatorState

theorem Seals.carried {key : Octets 32} {now generation : UInt64} {nonce : Octets 12}
    {checkpoint carrier : Bytes} {state state' : AllocatorState V}
    (h : Seals key now nonce state generation checkpoint carrier state') :
    state.CarriedBy key checkpoint := by
  cases h with
  | bootstrap hseal =>
    obtain ⟨-, -, ⟨plaintext, hencode, hplain⟩, -⟩ := Bootstrap.sealCheckpoint_eq_ok.mp hseal
    refine ⟨_, nonce, plaintext, hencode, ?_⟩
    intro side carrier generation now opened hopen
    exact congrArg OpenedCheckpoint.plaintext (openCheckpointPlaintext_of_sealed hplain hopen).1
  | established hseal =>
    obtain ⟨-, -, -, ⟨plaintext, hencode, hplain⟩, -⟩ := Endpoint.sealCheckpoint_eq_ok.mp hseal
    refine ⟨_, nonce, plaintext, hencode, ?_⟩
    intro side carrier generation now opened hopen
    exact congrArg OpenedCheckpoint.plaintext (openCheckpointPlaintext_of_sealed hplain hopen).1

end AllocatorSession

/-- Under its wrapping key, a sealed bootstrap is restored as itself or not at all. -/
theorem Bootstrap.restoreCheckpoint_same {wrappingKey : Octets 32}
    {generation generation' now now' : UInt64} {nonce : Octets 12} {b b' r : Bootstrap}
    {checkpoint : Bytes} {carrier : Carrier} {mode : AllocatorMode}
    (h : sealCheckpoint wrappingKey generation nonce now b = .ok checkpoint b')
    (hcoherent : b.Coherent)
    (hr : restoreCheckpoint checkpoint wrappingKey carrier generation' now' mode = .ok r) :
    r = b' := by
  obtain ⟨-, -, ⟨plaintext, hencode, hplain⟩, -⟩ := sealCheckpoint_eq_ok.mp h
  have hrestored := hr
  simp only [restoreCheckpoint, Calls.except_bind_eq_ok, Calls.guard_eq_ok, Prod.exists] at hr
  obtain ⟨opened, hopened, -, read, rest, hdecode, -⟩ := hr
  obtain ⟨rfl, -, rfl⟩ := openCheckpointPlaintext_of_sealed hplain hopened
  obtain ⟨rfl, rfl⟩ := decodeInner_bindings (decodeInner_encodeInner hencode hcoherent) hdecode
  exact restoreCheckpoint_of_sealed h hcoherent hrestored

/-- No bindings make a bootstrap of a sealed endpoint. -/
theorem Bootstrap.restoreCheckpoint_established {e endpoint : Endpoint V}
    {channel : SecureChannel} {relay : RelayState} {wrappingKey : Octets 32}
    {generation generation' now now' : UInt64} {expiry : Option UInt64} {nonce : Octets 12}
    {checkpoint : Bytes} {carrier : Carrier} {mode : AllocatorMode} {r : Bootstrap}
    (h : Endpoint.sealCheckpoint channel relay wrappingKey generation expiry nonce now e =
      .ok checkpoint endpoint) :
    restoreCheckpoint checkpoint wrappingKey carrier generation' now' mode ≠ .ok r := by
  intro hr
  obtain ⟨-, -, -, ⟨plaintext, hencode, hplain⟩, -⟩ := Endpoint.sealCheckpoint_eq_ok.mp h
  simp only [restoreCheckpoint, Calls.except_bind_eq_ok, Calls.guard_eq_ok, Prod.exists] at hr
  obtain ⟨opened, hopened, -, read, rest, hdecode, -⟩ := hr
  obtain ⟨rfl, -, rfl⟩ := openCheckpointPlaintext_of_sealed hplain hopened
  simp only [CredentialV2.encodeInner, Calls.except_bind_eq_ok, Except.ok.injEq] at hencode
  obtain ⟨_, -, _, -, _, -, _, -, _, -, rfl⟩ := hencode
  simp only [List.append_assoc] at hdecode
  obtain ⟨error, herror⟩ := decodeInner_endpoint carrier generation' nonce mode _
  rw [herror] at hdecode
  cases hdecode

namespace AllocatorSession
open AllocatorState

/-- What is restored from a sealed state under the wrapping key. -/
theorem restore_sealed {key : Octets 32} {now generation now' generation' : UInt64}
    {nonce : Octets 12} {checkpoint sealedCarrier : Bytes} {state state' : AllocatorState V}
    {mode mode' : AllocatorMode} {profileDigest profileDigest' scalar : Octets 32}
    {carrier : Carrier} {v : V} {r : AllocatorSession V}
    (h : Seals key now nonce state generation checkpoint sealedCarrier state')
    (hcoherent : state.Coherent mode profileDigest)
    (hr : restore checkpoint key carrier generation' profileDigest' now' mode' scalar v = .ok r) :
    r.presence = none ∧ r.wrappingKey = key ∧
      ((∃ b, state' = .bootstrap b ∧ r.state = .bootstrap b ∧
          (b.phase ≠ .allocated → r.cpaceScalar = none)) ∨
        ∃ e e', state' = .established e ∧ r.state = .established e' ∧ r.cpaceScalar = none) := by
  unfold restore at hr
  cases h with
  | @bootstrap b b' _ hseal =>
    split at hr
    · next restored hrestored =>
      obtain rfl := Bootstrap.restoreCheckpoint_same hseal hcoherent.1 hrestored
      obtain ⟨-, hr⟩ := Calls.guard_eq_ok.mp hr
      obtain rfl := Except.ok.inj hr
      exact ⟨rfl, rfl, .inl ⟨_, rfl, rfl, fun hphase => if_neg hphase⟩⟩
    · -- the endpoint layout has another tag
      exfalso
      obtain ⟨e, he, -⟩ := Calls.except_bind_eq_ok.mp hr
      obtain ⟨-, -, ⟨plaintext, hencode, hplain⟩, -⟩ := Bootstrap.sealCheckpoint_eq_ok.mp hseal
      simp only [Endpoint.restoreCheckpoint, Calls.except_bind_eq_ok, Prod.exists] at he
      obtain ⟨opened, hopened, s, rest, hdecode, -⟩ := he
      obtain ⟨rfl, -, rfl⟩ := openCheckpointPlaintext_of_sealed hplain hopened
      obtain ⟨body, hbody⟩ := decodeInner_tag hdecode
      obtain ⟨error, herror⟩ := Bootstrap.decodeInner_endpoint b.carrier
        (saturatingSucc b.checkpointGeneration) nonce b.mode body
      have hread := Bootstrap.decodeInner_encodeInner hencode hcoherent.1
      dsimp only at hbody
      rw [hbody, herror] at hread
      cases hread
  | established hseal =>
    split at hr
    · next restored hrestored =>
      exact absurd hrestored (Bootstrap.restoreCheckpoint_established hseal)
    · obtain ⟨e', -, hr⟩ := Calls.except_bind_eq_ok.mp hr
      obtain rfl := Except.ok.inj hr
      exact ⟨rfl, rfl, .inr ⟨_, e', rfl, rfl, rfl⟩⟩

/-! ### What comes after a state -/

/-- What comes after a session that returned some effects: its later states, and
whatever is restored, under the wrapping key, from a checkpoint returned since. -/
inductive Later (key : Octets 32) (s : AllocatorSession V) (returned : List AllocatorEffect) :
    AllocatorSession V → List AllocatorEffect → Prop
  | here : Later key s returned s returned
  | called {c : AllocatorCall} {t t' : AllocatorSession V}
      {sent effects : List AllocatorEffect} : Later key s returned t sent →
      call c t = .ok effects t' → Later key s returned t' (sent ++ effects)
  | failed {c : AllocatorCall} {t t' : AllocatorSession V} {sent : List AllocatorEffect}
      {e : Error} : Later key s returned t sent → call c t = .error e t' →
      Later key s returned t' sent
  | restored {t r : AllocatorSession V} {sent : List AllocatorEffect} {generation : UInt64}
      {checkpoint sealedCarrier : Bytes} {carrier : Carrier} {expectedGeneration : UInt64}
      {profileDigest : Octets 32} {now : UInt64} {mode : AllocatorMode} {scalar : Octets 32}
      {v : V} : Later key s returned t sent →
      .checkpoint generation checkpoint sealedCarrier ∈ sent →
      restore checkpoint key carrier expectedGeneration profileDigest now mode scalar v = .ok r →
      Later key s returned r sent

/-- A property of states that only a state after the first share may have. -/
structure Absorbing (P : AllocatorState V → Prop) : Prop where
  welcome : ¬P .awaitWelcome
  allocation : ¬P .awaitAllocation
  shared : ∀ b, P (.bootstrap b) → b.phase ≠ .allocated
  established : ∀ e, P (.established e)
  terminal : P .terminal
  moved : ∀ {s s₁ : AllocatorSession V} {cause : Cause} {after : List AllocatorEffect},
    Transition s cause s₁ after → P s.state → P s₁.state
  sealed_ : ∀ {key : Octets 32} {now generation : UInt64} {nonce : Octets 12}
    {checkpoint carrier : Bytes} {state state' : AllocatorState V},
    Seals key now nonce state generation checkpoint carrier state' → (P state ↔ P state')

/-- A session in such a state, with nothing of the presence left beside it. -/
structure Cleared (P : AllocatorState V → Prop) (s : AllocatorSession V) : Prop where
  presence : s.presence = none
  scalar : s.cpaceScalar = none
  state : P s.state

/-- A checkpoint sealed from such a state. -/
def SealedFrom (P : AllocatorState V → Prop) (key : Octets 32) (generation : UInt64)
    (checkpoint carrier : Bytes) : Prop :=
  ∃ now nonce state state' mode profileDigest,
    Seals key now nonce state generation checkpoint carrier state' ∧
      state.Coherent mode profileDigest ∧ P state

variable {P : AllocatorState V → Prop} {s s' : AllocatorSession V}

theorem Transition.cleared {s₁ : AllocatorSession V} {cause : Cause}
    {after : List AllocatorEffect} (hP : Absorbing P) (h : Transition s cause s₁ after)
    (hs : s.Cleared P) : s₁.Cleared P := by
  have hstate := hP.moved h hs.state
  cases h with
  | allocation hawait =>
    have hawaiting := hs.state
    rw [hawait] at hawaiting
    exact absurd hawaiting hP.allocation
  | shared => exact ⟨hs.presence, rfl, hstate⟩
  | _ => exact ⟨hs.presence, hs.scalar, hstate⟩

/-- A cleared session that rests: coherent, under its wrapping key, and with no
checkpoint held back. -/
structure Past (P : AllocatorState V → Prop) (key : Octets 32) (s : AllocatorSession V) : Prop where
  cleared : s.Cleared P
  coherent : s.state.Coherent s.mode s.profileDigest
  held : ∀ effect ∈ s.afterPersist, effect.generation? = none
  key : s.state ≠ .terminal → s.wrappingKey = key

/-- Every checkpoint among some effects was sealed from such a state. -/
def AllSealed (P : AllocatorState V → Prop) (key : Octets 32) (effects : List AllocatorEffect) :
    Prop :=
  ∀ generation checkpoint carrier, .checkpoint generation checkpoint carrier ∈ effects →
    SealedFrom P key generation checkpoint carrier

theorem allSealed_of_none {key : Octets 32} {effects : List AllocatorEffect}
    (h : ∀ effect ∈ effects, effect.generation? = none) : AllSealed P key effects := by
  intro generation checkpoint carrier hmem
  cases h _ hmem

theorem past_terminate (hP : Absorbing P) (key : Octets 32) (s : AllocatorSession V) :
    s.terminate.Past P key where
  cleared := ⟨rfl, rfl, hP.terminal⟩
  coherent := trivial
  held := by simp [terminate]
  key := fun h => absurd rfl h

theorem Direct.past {effects : List AllocatorEffect} {key : Octets 32} (hP : Absorbing P)
    (h : Direct s effects s') (hs : s.Past P key) : s'.Past P key := by
  cases h with
  | silent => exact hs
  | reopened =>
    exact ⟨⟨hs.cleared.presence, hs.cleared.scalar, hs.cleared.state⟩, hs.coherent, hs.held, hs.key⟩
  | requested hawait =>
    have hawaiting := hs.cleared.state
    rw [hawait] at hawaiting
    exact absurd hawaiting hP.welcome
  | repeated => exact hs
  | closed => exact s.past_terminate hP key

/-- What one call makes of such a session, and what it seals. -/
theorem Succeeded.past {c : AllocatorCall} {effects : List AllocatorEffect} {key : Octets 32}
    (hP : Absorbing P) (h : Succeeded c s effects s') (hs : s.Past P key) :
    s'.Past P key ∧ AllSealed P key effects := by
  cases h with
  | bound _ _ heffects hs' =>
    subst heffects hs'
    exact ⟨hs, allSealed_of_none (by simp [AllocatorEffect.generation?])⟩
  | persisted _ _ heffects hs' =>
    subst heffects hs'
    refine ⟨⟨?_, hs.coherent, by simp, hs.key⟩, allSealed_of_none hs.held⟩
    exact ⟨hs.cleared.presence, hs.cleared.scalar, hs.cleared.state⟩
  | applied _ _ houtcome =>
    cases houtcome with
    | direct hdirect =>
      exact ⟨hdirect.past hP hs,
        allSealed_of_none (List.filterMap_eq_nil_iff.mp hdirect.no_checkpoint)⟩
    | moved htransition hsealed =>
      have hmoved := htransition.cleared hP hs.cleared
      have hkey := hs.key htransition.generation.1
      have hheld := htransition.contains hs.coherent.sided
      obtain ⟨hcoherent, hmode, hprofile, hsame⟩ := htransition.coherent hs.coherent
      obtain ⟨generation, checkpoint, carrier, state', hseals, rfl, rfl⟩ := hsealed
      rw [← hmode, ← hprofile] at hcoherent
      rw [hsame, hkey] at hseals
      refine ⟨⟨?_, hseals.coherent hcoherent, ?_, fun _ => hsame.trans hkey⟩, ?_⟩
      · exact ⟨hmoved.presence, hmoved.scalar, (hP.sealed_ hseals).mp hmoved.state⟩
      · exact fun effect heffect => (hheld effect heffect).no_checkpoint
      · intro generation' checkpoint' carrier' hmem
        obtain ⟨rfl, rfl, rfl⟩ := AllocatorEffect.checkpoint.inj (List.mem_singleton.mp hmem)
        exact ⟨_, _, _, state', _, _, hseals, hcoherent, hmoved.state⟩

/-- A session restored from such a checkpoint is such a session. -/
theorem SealedFrom.restored {key : Octets 32} {generation generation' now : UInt64}
    {checkpoint sealedCarrier : Bytes} {carrier : Carrier} {profileDigest scalar : Octets 32}
    {mode : AllocatorMode} {v : V} {r : AllocatorSession V} (hP : Absorbing P)
    (h : SealedFrom P key generation checkpoint sealedCarrier)
    (hr : restore checkpoint key carrier generation' profileDigest now mode scalar v = .ok r) :
    r.Past P key := by
  obtain ⟨now', nonce, state, state', mode', profileDigest', hseals, hcoherent, hstate⟩ := h
  obtain ⟨hpresence, hkey, hrest⟩ := restore_sealed hseals hcoherent hr
  have hbegins : r.Begins := .restored hr
  have hheld := held_no_checkpoint hbegins []
  refine ⟨?_, hbegins.coherent, hheld, fun _ => hkey⟩
  obtain ⟨b, rfl, hb, hscalar⟩ | ⟨e, e', -, he', hscalar⟩ := hrest
  · have hb' := (hP.sealed_ hseals).mp hstate
    exact ⟨hpresence, hscalar (hP.shared b hb'), hb ▸ hb'⟩
  · exact ⟨hpresence, hscalar, he' ▸ hP.established e'⟩

theorem Later.past {key : Octets 32} {returned sent : List AllocatorEffect}
    {t : AllocatorSession V} (hP : Absorbing P) (hs : s.Past P key)
    (hreturned : AllSealed P key returned) (h : Later key s returned t sent) :
    t.Past P key ∧ AllSealed P key sent := by
  induction h with
  | here => exact ⟨hs, hreturned⟩
  | called _ hcall ih =>
    obtain ⟨ht, hsent⟩ := ih
    obtain ⟨ht', heffects⟩ := (call_ok hcall).past hP ht
    refine ⟨ht', ?_⟩
    intro generation checkpoint carrier hmem
    obtain hmem | hmem := List.mem_append.mp hmem
    · exact hsent _ _ _ hmem
    · exact heffects _ _ _ hmem
  | failed _ hcall ih =>
    obtain ⟨ht, hsent⟩ := ih
    obtain rfl | ⟨s'', rfl⟩ := call_error hcall
    · exact ⟨ht, hsent⟩
    · exact ⟨s''.past_terminate hP key, hsent⟩
  | restored _ hmem hr ih => exact ⟨(ih.2 _ _ _ hmem).restored hP hr, ih.2⟩

/-! ### After the first share, and after the channel -/

end AllocatorSession

namespace AllocatorState

/-- The claim token is gone with the first share. -/
def Spent : AllocatorState V → Prop
  | .bootstrap b => b.phase ≠ .allocated ∧ b.presence.claimToken = none
  | .established _ => True
  | .terminal => True
  | _ => False

/-- The bootstrap itself is gone. -/
def Joined : AllocatorState V → Prop
  | .established _ => True
  | .terminal => True
  | _ => False

end AllocatorState

namespace AllocatorSession
open AllocatorState

theorem absorbing_joined : Absorbing (AllocatorState.Joined (V := V)) where
  welcome := id
  allocation := id
  shared := fun _ h => h.elim
  established := fun _ => trivial
  terminal := trivial
  moved := by
    intro s s₁ cause after h hs
    cases h with
    | allocation hstate => rw [hstate] at hs; exact hs.elim
    | shared hstate => rw [hstate] at hs; exact hs.elim
    | shareAcknowledged hstate => rw [hstate] at hs; exact hs.elim
    | finishedAcknowledged hstate => rw [hstate] at hs; exact hs.elim
    | peerFinished hstate => rw [hstate] at hs; exact hs.elim
    | _ => trivial
  sealed_ := by
    intro key now generation nonce checkpoint carrier state state' h
    cases h <;> exact Iff.rfl

theorem absorbing_spent : Absorbing (Spent (V := V)) where
  welcome := id
  allocation := id
  shared := fun _ h => h.1
  established := fun _ => trivial
  terminal := trivial
  moved := by
    intro s s₁ cause after h hs
    cases h with
    | allocation hstate => rw [hstate] at hs; exact hs.elim
    | shared hstate hphase => rw [hstate] at hs; exact absurd hphase hs.1
    | shareAcknowledged hstate hphase hfinished =>
      rw [hstate] at hs
      obtain ⟨_, _, _, -, hprepare, -, rfl⟩ := finishedNext_eq_ok.mp hfinished
      obtain ⟨-, _, _, _, _, _, _, -, -, -, -, -, -, -, rfl⟩ :=
        Bootstrap.prepareFinished_eq_ok.mp hprepare
      exact ⟨by simp, hs.2⟩
    | finishedAcknowledged hstate _ hack =>
      rw [hstate] at hs
      obtain ⟨_, -, -, rfl⟩ := finishedAcknowledged_eq_ok.mp hack
      exact hs
    | peerFinished hstate _ _ hpeer =>
      rw [hstate] at hs
      obtain ⟨_, -, -, -, -, -, rfl⟩ := peerFinished_eq_ok.mp hpeer
      exact hs
    | _ => trivial
  sealed_ := by
    intro key now generation nonce checkpoint carrier state state' h
    cases h with
    | bootstrap hseal =>
      obtain ⟨-, -, -, rfl⟩ := Bootstrap.sealCheckpoint_eq_ok.mp hseal
      exact Iff.rfl
    | established => exact Iff.rfl

/-! ### Every state of a run -/

end AllocatorSession

namespace Bootstrap

/-- Allocated without a share, or past it without the claim token. -/
def Staged (b : Bootstrap) : Prop :=
  b.phase = .allocated ∧ b.peerCpace = none ∨ b.phase ≠ .allocated ∧ b.presence.claimToken = none

omit [BodyVerifier V] in
theorem staged_of_consistent {b : Bootstrap} (h : b.projectionIsConsistent = true) : b.Staged := by
  unfold projectionIsConsistent at h
  cases hphase : b.phase <;>
    simp only [hphase, Bool.and_eq_true, Option.isNone_iff_eq_none] at h
  · exact .inl ⟨hphase, h.2.1.1.1.2⟩
  · exact .inr ⟨by simp [hphase], h.2.1.1.1.1.1⟩
  · exact .inr ⟨by simp [hphase], h.2.1.1.1.1.1⟩
  · exact .inr ⟨by simp [hphase], h.2.1.1.1.1⟩

theorem decodeInner_staged (carrier : Carrier) (generation : UInt64) (nonce : Octets 12)
    (mode : AllocatorMode) : (decodeInner carrier generation nonce mode).Yields Staged := by
  unfold decodeInner decodeBody
  refine .skip fun _ => .skip fun _ => .guard fun _ => .skip fun _ => .skip fun _ =>
    .guard fun _ => .skip fun _ => .skip fun _ => .skip fun _ => .skip fun _ => .skip fun _ =>
    .skip fun _ => .skip fun _ => .skip fun _ => .skip fun _ => .skip fun _ => .skip fun _ =>
    .skip fun _ => .skip fun _ => .skip fun _ => .skip fun _ => .skip fun _ => .guard fun _ =>
    .guard fun hconsistent => ?_
  intro input rest b hb
  obtain ⟨pending, rfl⟩ := revalidate_pending (Read.verdict_yields hb)
  simp only [Bool.not_eq_true', Bool.not_eq_false] at hconsistent
  have hstaged := staged_of_consistent hconsistent
  exact hstaged

theorem restoreCheckpoint_staged {input : Bytes} {wrappingKey : Octets 32} {carrier : Carrier}
    {generation now : UInt64} {mode : AllocatorMode} {b : Bootstrap}
    (h : restoreCheckpoint input wrappingKey carrier generation now mode = .ok b) : b.Staged := by
  simp only [restoreCheckpoint, Calls.except_bind_eq_ok, Calls.guard_eq_ok, Except.ok.injEq] at h
  obtain ⟨opened, -, -, ⟨b', _⟩, hdecode, rfl⟩ := h
  exact decodeInner_staged _ _ _ _ hdecode

end Bootstrap

namespace AllocatorSession
open AllocatorState

/-- How far a session is with its presence secrets. -/
inductive Stage (s : AllocatorSession V) : Prop
  | early : s.state = .awaitWelcome ∨ s.state = .awaitAllocation → Stage s
  | allocated {b : Bootstrap} : s.state = .bootstrap b → b.phase = .allocated →
      b.peerCpace = none → s.presence = none → Stage s
  | spent : s.Cleared Spent → Stage s

theorem Begins.stage {s : AllocatorSession V} (h : s.Begins) : s.Stage := by
  cases h with
  | new h => exact .early (.inl (new_state h))
  | restored h =>
    unfold restore at h
    split at h
    · next b hb =>
      obtain ⟨-, h⟩ := Calls.guard_eq_ok.mp h
      obtain rfl := Except.ok.inj h
      obtain ⟨hphase, hpeer⟩ | ⟨hphase, hclaim⟩ := Bootstrap.restoreCheckpoint_staged hb
      · exact .allocated rfl hphase hpeer rfl
      · exact .spent ⟨rfl, if_neg hphase, hphase, hclaim⟩
    · obtain ⟨e, -, h⟩ := Calls.except_bind_eq_ok.mp h
      obtain rfl := Except.ok.inj h
      exact .spent ⟨rfl, rfl, trivial⟩

omit [BodyVerifier V] in
/-- Past the first share every stage is the last one. -/
theorem Stage.spent_of {s : AllocatorSession V} (h : s.Stage) (hwelcome : s.state ≠ .awaitWelcome)
    (hallocation : s.state ≠ .awaitAllocation)
    (hphase : ∀ b, s.state = .bootstrap b → b.phase ≠ .allocated) : s.Cleared Spent := by
  cases h with
  | early hearly => exact (hearly.elim hwelcome hallocation).elim
  | allocated hstate hallocated => exact absurd hallocated (hphase _ hstate)
  | spent hspent => exact hspent

theorem Transition.stage {s s₁ : AllocatorSession V} {cause : Cause}
    {after : List AllocatorEffect} (h : Transition s cause s₁ after) (hs : s.Stage) : s₁.Stage := by
  have hlater : (∀ b, s.state = .bootstrap b → b.phase ≠ .allocated) →
      s.state ≠ .awaitWelcome → s.state ≠ .awaitAllocation → s₁.Stage :=
    fun hphase hwelcome hallocation =>
      .spent (h.cleared absorbing_spent (hs.spent_of hwelcome hallocation hphase))
  have hbootstrap : ∀ b, s.state = .bootstrap b → b.phase ≠ .allocated → s₁.Stage := by
    intro b hstate hphase
    refine hlater ?_ (by simp [hstate]) (by simp [hstate])
    intro b' hstate'
    obtain rfl := AllocatorState.bootstrap.inj (hstate.symm.trans hstate')
    exact hphase
  cases h with
  | allocation _ _ _ hnew =>
    obtain rfl := Bootstrap.new_eq_ok hnew
    exact .allocated rfl rfl rfl rfl
  | shared hstate hphase _ _ hshare =>
    obtain ⟨_, _, _, -, -, -, -, -, -, -, rfl⟩ := firstShare_eq_ok.mp hshare
    refine .spent ⟨?_, rfl, by simp, rfl⟩
    cases hs with
    | early hearly => obtain hearly | hearly := hearly <;> cases hstate.symm.trans hearly
    | allocated _ _ _ hpresence => exact hpresence
    | spent hspent => exact hspent.presence
  | shareAcknowledged hstate hphase => exact hbootstrap _ hstate (by simp [hphase])
  | finishedAcknowledged hstate hphase => exact hbootstrap _ hstate (by simp [hphase])
  | peerFinished hstate hphase => exact hbootstrap _ hstate (by simp [hphase])
  | established hstate hphase => exact hbootstrap _ hstate (by simp [hphase])
  | sent hstate => exact hlater (by simp [hstate]) (by simp [hstate]) (by simp [hstate])
  | received hstate => exact hlater (by simp [hstate]) (by simp [hstate]) (by simp [hstate])
  | acknowledged hstate => exact hlater (by simp [hstate]) (by simp [hstate]) (by simp [hstate])

theorem Sealed.stage {s₁ s' : AllocatorSession V} {after effects : List AllocatorEffect}
    {now : UInt64} {nonce : Octets 12} (h : Sealed s₁ after now nonce effects s')
    (hs : s₁.Stage) : s'.Stage := by
  obtain ⟨generation, checkpoint, carrier, state', hseals, rfl, rfl⟩ := h
  cases hs with
  | early hearly =>
    obtain hearly | hearly := hearly <;> rw [hearly] at hseals <;> cases hseals
  | allocated hstate hphase hpeer hpresence =>
    rw [hstate] at hseals
    cases hseals with
    | bootstrap hseal =>
      obtain ⟨-, -, -, rfl⟩ := Bootstrap.sealCheckpoint_eq_ok.mp hseal
      exact .allocated rfl hphase hpeer hpresence
  | spent hspent =>
    exact .spent ⟨hspent.presence, hspent.scalar, (absorbing_spent.sealed_ hseals).mp hspent.state⟩

omit [BodyVerifier V] in
theorem Direct.stage {s s' : AllocatorSession V} {effects : List AllocatorEffect}
    (h : Direct s effects s') (hs : s.Stage) : s'.Stage := by
  cases h with
  | silent => exact hs
  | reopened =>
    cases hs with
    | early hearly => exact .early hearly
    | allocated hstate hphase hpeer hpresence => exact .allocated hstate hphase hpeer hpresence
    | spent hspent => exact .spent ⟨hspent.presence, hspent.scalar, hspent.state⟩
  | requested => exact .early (.inr rfl)
  | repeated => exact hs
  | closed => exact .spent ⟨rfl, rfl, trivial⟩

theorem Succeeded.stage {c : AllocatorCall} {s s' : AllocatorSession V}
    {effects : List AllocatorEffect} (h : Succeeded c s effects s') (hs : s.Stage) : s'.Stage := by
  cases h with
  | bound _ _ _ hs' => exact hs' ▸ hs
  | persisted _ _ _ hs' =>
    subst hs'
    cases hs with
    | early hearly => exact .early hearly
    | allocated hstate hphase hpeer hpresence => exact .allocated hstate hphase hpeer hpresence
    | spent hspent => exact .spent ⟨hspent.presence, hspent.scalar, hspent.state⟩
  | applied _ _ houtcome =>
    cases houtcome with
    | direct hdirect => exact hdirect.stage hs
    | moved htransition hsealed => exact hsealed.stage (htransition.stage hs)

/-- A session of some run, with what its latest call returned. -/
inductive Reached : AllocatorSession V → List AllocatorEffect → Prop
  | begins {s : AllocatorSession V} : s.Begins → Reached s []
  | called {c : AllocatorCall} {s s' : AllocatorSession V} {returned effects : List AllocatorEffect} :
      Reached s returned → call c s = .ok effects s' → Reached s' effects
  | failed {c : AllocatorCall} {s s' : AllocatorSession V} {returned : List AllocatorEffect}
      {e : Error} : Reached s returned → call c s = .error e s' → Reached s' []

/-- What every reached session keeps, and what it just sealed. -/
structure Rests (s : AllocatorSession V) (returned : List AllocatorEffect) : Prop where
  stage : s.Stage
  coherent : s.state.Coherent s.mode s.profileDigest
  held : ∀ effect ∈ s.afterPersist, effect.generation? = none
  sealed_ : ∀ generation checkpoint carrier, .checkpoint generation checkpoint carrier ∈ returned →
    ∃ now nonce state mode profileDigest,
      Seals s.wrappingKey now nonce state generation checkpoint carrier s.state ∧
        state.Coherent mode profileDigest

theorem Sealed.rests {s s₁ s' : AllocatorSession V} {cause : Cause}
    {after effects : List AllocatorEffect} {now : UInt64} {nonce : Octets 12}
    (htransition : Transition s cause s₁ after) (h : Sealed s₁ after now nonce effects s')
    {returned : List AllocatorEffect} (hs : s.Rests returned) : s'.Rests effects := by
  refine ⟨h.stage (htransition.stage hs.stage), (h.round_trips htransition hs.coherent).1, ?_, ?_⟩
  · obtain ⟨generation, checkpoint, carrier, state', -, -, rfl⟩ := h
    intro effect hmem
    exact (htransition.contains hs.coherent.sided effect hmem).no_checkpoint
  · obtain ⟨generation, checkpoint, carrier, state', hseals, rfl, rfl⟩ := h
    intro generation' checkpoint' carrier' hmem
    obtain ⟨rfl, rfl, rfl⟩ := AllocatorEffect.checkpoint.inj (List.mem_singleton.mp hmem)
    exact ⟨_, _, _, _, _, hseals, (htransition.coherent hs.coherent).1⟩

theorem Reached.rests {s : AllocatorSession V} {returned : List AllocatorEffect}
    (h : Reached s returned) : s.Rests returned := by
  induction h with
  | begins hbegins => exact ⟨hbegins.stage, hbegins.coherent, held_no_checkpoint hbegins [],
      (by intros; contradiction)⟩
  | called _ hcall ih =>
    have hsucceeded := call_ok hcall
    have hstage := hsucceeded.stage ih.stage
    have hcoherent := (hsucceeded.round_trips ih.coherent ih.held).1
    cases hsucceeded with
    | bound _ _ heffects hs' =>
      subst heffects hs'
      refine ⟨hstage, hcoherent, ih.held, ?_⟩
      intro generation checkpoint carrier hmem
      cases List.mem_singleton.mp hmem
    | persisted _ _ heffects hs' =>
      subst heffects hs'
      refine ⟨hstage, hcoherent, by simp, ?_⟩
      intro generation checkpoint carrier hmem
      cases ih.held _ hmem
    | applied _ _ houtcome =>
      cases houtcome with
      | moved htransition hsealed => exact hsealed.rests htransition ih
      | direct hdirect =>
        refine ⟨hstage, hcoherent, ?_, ?_⟩
        · cases hdirect with
          | closed => simp [terminate]
          | _ => exact ih.held
        · intro generation checkpoint carrier hmem
          cases List.filterMap_eq_nil_iff.mp hdirect.no_checkpoint _ hmem
  | failed _ hcall ih =>
    obtain rfl | ⟨s'', rfl⟩ := call_error hcall
    · exact ⟨ih.stage, ih.coherent, ih.held, (by intros; contradiction)⟩
    · exact ⟨.spent ⟨rfl, rfl, trivial⟩, trivial, by simp [terminate], (by intros; contradiction)⟩

/-- From a cleared session on, every later session is one, and every checkpoint was
sealed from one. -/
theorem Rests.later {P : AllocatorState V → Prop} {s t : AllocatorSession V}
    {returned sent : List AllocatorEffect} (hP : Absorbing P) (hs : s.Rests returned)
    (hcleared : s.Cleared P) (h : Later s.wrappingKey s returned t sent) :
    t.Past P s.wrappingKey ∧ AllSealed P s.wrappingKey sent := by
  refine h.past hP ⟨hcleared, hs.coherent, hs.held, fun _ => rfl⟩ ?_
  intro generation checkpoint carrier hmem
  obtain ⟨now, nonce, state, mode, profileDigest, hseals, hcoherent⟩ := hs.sealed_ _ _ _ hmem
  exact ⟨now, nonce, state, _, mode, profileDigest, hseals, hcoherent,
    (hP.sealed_ hseals).mpr hcleared.state⟩

/-! ### One use -/

/-- A peer share was accepted, or the session ended. -/
def Accepted (s : AllocatorSession V) : Prop :=
  match s.state with
  | .bootstrap b => b.peerCpace.isSome = true
  | .established _ => True
  | .terminal => True
  | _ => False

omit [BodyVerifier V] in
theorem Stage.cleared_of_accepted {s : AllocatorSession V} (h : s.Stage) (haccepted : s.Accepted) :
    s.Cleared Spent := by
  unfold Accepted at haccepted
  cases h with
  | early hearly => obtain hearly | hearly := hearly <;> simp [hearly] at haccepted
  | allocated hstate _ hpeer => simp [hstate, hpeer] at haccepted
  | spent hspent => exact hspent

/-- None of the three exports yields text. -/
structure Silent (wordList : Fin 2048 → Bytes) (s : AllocatorSession V) : Prop where
  presenceCode : s.presenceCode = none
  handoffText : ∀ text, s.handoffText ≠ .ok (some text)
  manualTransferText : ∀ texts, s.manualTransferText wordList ≠ .ok (some texts)

/-- No place of a session holds the claim token: neither its presence nor its bootstrap. -/
structure Tokenless (s : AllocatorSession V) : Prop where
  presence : s.presence.bind Presence.claimToken = none
  bootstrap : ∀ b, s.state = .bootstrap b → b.presence.claimToken = none

omit [BodyVerifier V] in
theorem Cleared.tokenless {s : AllocatorSession V} (h : s.Cleared Spent) : s.Tokenless := by
  refine ⟨by simp [h.presence], ?_⟩
  intro b hb
  have hstate := h.state
  rw [hb] at hstate
  exact hstate.2

omit [BodyVerifier V] in
theorem Tokenless.silent {s : AllocatorSession V} (h : s.Tokenless) (wordList : Fin 2048 → Bytes) :
    s.Silent wordList := by
  refine ⟨?_, ?_, ?_⟩
  · rw [← Option.not_isSome_iff_eq_none, presenceCode_isSome]
    rintro ⟨b, hb, -, hclaim⟩
    simp [h.bootstrap b hb] at hclaim
  · intro text htext
    obtain ⟨b, handoff, hb, hhandoff, -⟩ := handoffText_eq_some.mp htext
    obtain ⟨-, claimToken, hclaim, -⟩ := Bootstrap.handoff_eq_some.mp hhandoff
    cases (h.bootstrap b hb).symm.trans hclaim
  · rintro ⟨text, words⟩ htexts
    obtain ⟨b, hb, htexts⟩ := manualTransferText_eq_some.mp htexts
    obtain ⟨-, claimToken, -, -, hclaim, -⟩ := Bootstrap.manualTransferText_eq_some.mp htexts
    cases (h.bootstrap b hb).symm.trans hclaim

/-- No place of a session holds a presence secret or a fresh scalar. -/
structure Secretless (s : AllocatorSession V) : Prop where
  presence : s.presence = none
  scalar : s.cpaceScalar = none
  bootstrap : ∀ b, s.state ≠ .bootstrap b

omit [BodyVerifier V] in
theorem Cleared.secretless {s : AllocatorSession V} (h : s.Cleared AllocatorState.Joined) :
    s.Secretless := by
  refine ⟨h.presence, h.scalar, ?_⟩
  intro b hb
  have hstate := h.state
  rw [hb] at hstate
  exact hstate

/-- A sealed checkpoint without the claim token. -/
theorem SealedFrom.tokenless {key : Octets 32} {generation : UInt64} {checkpoint carrier : Bytes}
    (h : SealedFrom (V := V) Spent key generation checkpoint carrier) :
    ∃ state : AllocatorState V, state.CarriedBy key checkpoint ∧
      ∀ b, state = .bootstrap b → b.presence.claimToken = none := by
  obtain ⟨_, _, state, _, _, _, hseals, -, hstate⟩ := h
  refine ⟨state, hseals.carried, ?_⟩
  rintro b rfl
  exact hstate.2

/-- A sealed channel, with neither secret nor scalar in its layout. -/
theorem SealedFrom.secretless {key : Octets 32} {generation : UInt64} {checkpoint carrier : Bytes}
    (h : SealedFrom (V := V) AllocatorState.Joined key generation checkpoint carrier) :
    ∃ e : Established V, (AllocatorState.established e).CarriedBy key checkpoint := by
  obtain ⟨_, _, state, _, _, _, hseals, -, hstate⟩ := h
  have hcarried := hseals.carried
  cases hseals with
  | bootstrap => exact hstate.elim
  | established => exact ⟨_, hcarried⟩

def Allocated (s : AllocatorSession V) : Prop :=
  ∃ b, s.state = .bootstrap b ∧ b.phase = .allocated

/-- What a session, with what its latest call returned, makes of its presence secrets. -/
structure OneUse (wordList : Fin 2048 → Bytes) (s : AllocatorSession V)
    (returned : List AllocatorEffect) : Prop where
  presenceCode : s.presenceCode.isSome = true → s.mode = .full ∧ s.Allocated
  handoffText : ∀ text, s.handoffText = .ok (some text) → s.mode = .full ∧ s.Allocated
  manualTransferText : ∀ texts, s.manualTransferText wordList = .ok (some texts) →
    s.mode = .manual ∧ s.Allocated
  accepted : s.Accepted → ∀ t sent, Later s.wrappingKey s returned t sent →
    t.Silent wordList ∧ t.Tokenless ∧
      ∀ generation checkpoint carrier, .checkpoint generation checkpoint carrier ∈ sent →
        ∃ state : AllocatorState V, state.CarriedBy s.wrappingKey checkpoint ∧
          ∀ b, state = .bootstrap b → b.presence.claimToken = none
  established : (∃ e, s.state = .established e) → ∀ t sent,
    Later s.wrappingKey s returned t sent → t.Secretless ∧
      ∀ generation checkpoint carrier, .checkpoint generation checkpoint carrier ∈ sent →
        ∃ e : Established V, (AllocatorState.established e).CarriedBy s.wrappingKey checkpoint

theorem Rests.allocated {s : AllocatorSession V} {returned : List AllocatorEffect} {b : Bootstrap}
    {claimToken : ClaimToken} (h : s.Rests returned) (hb : s.state = .bootstrap b)
    (hclaim : b.presence.claimToken = some claimToken) : s.mode = b.mode ∧ s.Allocated := by
  have hcoherent := h.coherent
  rw [hb] at hcoherent
  refine ⟨hcoherent.2.1.symm, b, hb, ?_⟩
  cases h.stage with
  | early hearly => obtain hearly | hearly := hearly <;> cases hb.symm.trans hearly
  | allocated hstate hphase =>
    obtain rfl := AllocatorState.bootstrap.inj (hb.symm.trans hstate)
    exact hphase
  | spent hspent => cases (hspent.tokenless.bootstrap b hb).symm.trans hclaim

theorem Rests.oneUse {s : AllocatorSession V} {returned : List AllocatorEffect}
    (h : s.Rests returned) (wordList : Fin 2048 → Bytes) : s.OneUse wordList returned := by
  refine ⟨?_, ?_, ?_, ?_, ?_⟩
  · intro hcode
    obtain ⟨b, hb, hmode, hclaim⟩ := presenceCode_isSome.mp hcode
    obtain ⟨claimToken, hclaim⟩ := Option.isSome_iff_exists.mp hclaim
    exact hmode ▸ h.allocated hb hclaim
  · intro text htext
    obtain ⟨b, handoff, hb, hhandoff, -⟩ := handoffText_eq_some.mp htext
    obtain ⟨hmode, claimToken, hclaim, -⟩ := Bootstrap.handoff_eq_some.mp hhandoff
    exact hmode ▸ h.allocated hb hclaim
  · rintro ⟨text, words⟩ htexts
    obtain ⟨b, hb, htexts⟩ := manualTransferText_eq_some.mp htexts
    obtain ⟨hmode, claimToken, -, -, hclaim, -⟩ := Bootstrap.manualTransferText_eq_some.mp htexts
    exact hmode ▸ h.allocated hb hclaim
  · intro haccepted t sent hlater
    obtain ⟨ht, hsent⟩ := h.later absorbing_spent (h.stage.cleared_of_accepted haccepted) hlater
    have htokenless := ht.cleared.tokenless
    exact ⟨htokenless.silent wordList, htokenless, fun _ _ _ hmem => (hsent _ _ _ hmem).tokenless⟩
  · rintro ⟨e, he⟩ t sent hlater
    have hspent := h.stage.cleared_of_accepted (by simp [Accepted, he])
    have hjoined : s.Cleared AllocatorState.Joined :=
      ⟨hspent.presence, hspent.scalar, by simp [he, AllocatorState.Joined]⟩
    obtain ⟨ht, hsent⟩ := h.later absorbing_joined hjoined hlater
    exact ⟨ht.cleared.secretless, fun _ _ _ hmem => (hsent _ _ _ hmem).secretless⟩

theorem Reached.after {s₀ : AllocatorSession V} (h : s₀.Begins) (calls : List AllocatorCall) :
    ∃ returned, Reached (Runs.after call s₀ calls) returned := by
  induction calls using List.reverseRecOn with
  | nil => exact ⟨[], .begins h⟩
  | append_singleton calls c ih =>
    obtain ⟨returned, hreached⟩ := ih
    rw [Runs.after_concat]
    cases hcall : call c (Runs.after call s₀ calls) with
    | ok effects s' => exact ⟨effects, .called hreached hcall⟩
    | error e s' => exact ⟨[], .failed hreached hcall⟩

end AllocatorSession

end CredentialV2
end CbclPairing

/-! ### An invitation that is used -/

namespace CbclPairing
namespace CredentialV2
open Codec Calls

attribute [local instance] Primitives.transparent

namespace AllocatorSession

def invited : List AllocatorCall :=
  [.receive (.ok ⟨.welcome, ServerMessage.recognised_welcome⟩) 0 (fill 12 [0]),
    .receive (.ok ⟨.allocatedV2 (fill 32 [1]) (fill 32 [9]) 100, allocated_recognised⟩) 0
      (fill 12 [1]),
    .checkpointPersisted 1]

def joined : List AllocatorCall :=
  invited ++ [.receive (.ok ⟨.frame 0 (claimantShare (fill 32 [10])), claimantShare_recognised⟩) 0
    (fill 12 [2])]

end AllocatorSession
end CredentialV2
end CbclPairing
