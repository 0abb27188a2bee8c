import CbclPairing.CredentialV2.AllocatorSteps
import CbclPairing.CredentialV2.Restored
import CbclPairing.Runs

/-! Runs of an allocator session: its public calls, how a failed call ends, and
what every state of a run keeps. -/
namespace CbclPairing
namespace CredentialV2
open Codec Codec.Cbor Calls

/-- The public calls of an allocator session. -/
inductive AllocatorCall where
  | start
  | receive (input : ServerInput) (now : UInt64) (nonce : Octets 12)
  | checkpointPersisted (generation : UInt64)
  | prepareApplicationObject (object : Object) (now : UInt64) (nonce : Octets 12)

/-- What a call asks the session to act on. -/
def AllocatorCall.cause : AllocatorCall → Option AllocatorSession.Cause
  | .receive (.ok message) _ _ => some (.message message.val)
  | .prepareApplicationObject object _ _ => some (.object object)
  | _ => none

variable [Primitives] {V : Type} [BodyVerifier V]

namespace AllocatorSession

def call : AllocatorCall → Call Error (AllocatorSession V) (List AllocatorEffect)
  | .start => do
    let s ← get
    let message ← Call.ofExcept s.start
    pure [.send message]
  | .receive input now nonce => receive input now nonce
  | .checkpointPersisted generation => checkpointPersisted generation
  | .prepareApplicationObject object now nonce => prepareApplicationObject object now nonce

/-- How a session comes to be: new, or restored from a checkpoint. -/
inductive Begins : AllocatorSession V → Prop
  | new {input : AllocatorInput} {v : V} {s : AllocatorSession V} :
      AllocatorSession.new input v = .ok s → Begins s
  | restored {checkpoint : Bytes} {wrappingKey : Octets 32} {carrier : Carrier}
      {generation : UInt64} {profileDigest : Octets 32} {now : UInt64} {mode : AllocatorMode}
      {scalar : Octets 32} {v : V} {s : AllocatorSession V} :
      restore checkpoint wrappingKey carrier generation profileDigest now mode scalar v = .ok s →
      Begins s

/-! ### Failed calls -/

omit [BodyVerifier V] in
theorem guarded_error {α : Type} {m : Call Error (AllocatorSession V) α}
    {s s' : AllocatorSession V} {e : Error} (h : guarded m s = .error e s') :
    ∃ s'' : AllocatorSession V, s' = s''.terminate := by
  unfold guarded at h
  cases hm : m s with
  | ok a t => simp [hm] at h
  | error e' t =>
    simp only [hm, EStateM.Result.error.injEq] at h
    exact ⟨t, h.2.symm⟩

/-- A failed call leaves the session alone or terminates it. -/
theorem call_error {c : AllocatorCall} {s s' : AllocatorSession V} {e : Error}
    (h : call c s = .error e s') : s' = s ∨ ∃ s'' : AllocatorSession V, s' = s''.terminate := by
  cases c with
  | start =>
    simp only [call, Call.bind_eq_error, Call.get_eq_error, Call.get_eq_ok, Call.ofExcept_eq_error,
      Call.ofExcept_eq_ok, Call.pure_eq_error, and_false, exists_false, or_false, false_or] at h
    obtain ⟨_, _, ⟨rfl, rfl⟩, -, rfl⟩ := h
    exact .inl rfl
  | receive input now nonce =>
    simp only [call, receive] at h
    rw [Call.run_bind (Call.run_get s)] at h
    split_ifs at h
    · exact .inl (Call.throw_eq_error.mp h).2.symm
    · exact .inr (guarded_error h)
  | checkpointPersisted generation =>
    simp only [call, checkpointPersisted] at h
    rw [Call.run_bind (Call.run_get s)] at h
    split_ifs at h
    · exact .inl (Call.throw_eq_error.mp h).2.symm
    · cases h
  | prepareApplicationObject object now nonce =>
    simp only [call, prepareApplicationObject] at h
    rw [Call.run_bind (Call.run_get s)] at h
    split_ifs at h
    · exact .inl (Call.throw_eq_error.mp h).2.symm
    · exact .inr (guarded_error h)

/-! ### Failed calls leave no gate -/

section Frames

omit [BodyVerifier V] in
/-- A call leaves the gate and what is behind it alone. -/
def Frames {α : Type} (m : Call Error (AllocatorSession V) α) (s : AllocatorSession V) : Prop :=
  (Call.after (m s)).persistenceGate = s.persistenceGate ∧
    (Call.after (m s)).afterPersist = s.afterPersist

omit [BodyVerifier V] in
/-- A failed call leaves the session without a gate. -/
def Closes {α : Type} (m : Call Error (AllocatorSession V) α) (s : AllocatorSession V) : Prop :=
  ∀ e s', m s = .error e s' → s'.persistenceGate = none

variable {α β : Type} {s : AllocatorSession V}

omit [BodyVerifier V] in
theorem Frames.bind {x : Call Error (AllocatorSession V) α}
    {f : α → Call Error (AllocatorSession V) β} (hx : Frames x s)
    (hf : ∀ a s', x s = .ok a s' → Frames (f a) s') : Frames (x >>= f) s := by
  unfold Frames at hx ⊢
  cases h : x s with
  | ok a s' =>
    rw [h, Call.after_ok] at hx
    rw [Call.run_bind h, ← hx.1, ← hx.2]
    exact hf a s' h
  | error e s' =>
    rw [h, Call.after_error] at hx
    rw [Call.run_bind_error h]
    exact hx

omit [BodyVerifier V] in
theorem Closes.bind {x : Call Error (AllocatorSession V) α}
    {f : α → Call Error (AllocatorSession V) β} (hs : s.Idle) (hx : Frames x s)
    (hf : ∀ a s', x s = .ok a s' → s'.Idle → Closes (f a) s') : Closes (x >>= f) s := by
  unfold Frames at hx
  intro e t h
  rcases Call.bind_eq_error.mp h with h | ⟨a, s', h, h'⟩
  · rw [h, Call.after_error] at hx
    exact hx.1.trans hs.ungated
  · rw [h, Call.after_ok] at hx
    exact hf a s' h ⟨hx.1.trans hs.ungated, hx.2.trans hs.empty⟩ e t h'

omit [BodyVerifier V] in
theorem Frames.closes {m : Call Error (AllocatorSession V) α} (h : Frames m s) (hs : s.Idle) :
    Closes m s := by
  intro e s' herror
  unfold Frames at h
  rw [herror, Call.after_error] at h
  exact h.1.trans hs.ungated

omit [BodyVerifier V] in
theorem frames_ofExcept (x : Except Error α) : Frames (Call.ofExcept x) s := by
  cases x <;> exact ⟨rfl, rfl⟩

omit [BodyVerifier V] in
theorem frames_orThrow (e : Error) (x : Option α) : Frames (Call.orThrow e x) s := by
  cases x <;> exact ⟨rfl, rfl⟩

omit [BodyVerifier V] in
theorem frames_throw (e : Error) : Frames (throw e : Call Error (AllocatorSession V) α) s :=
  ⟨rfl, rfl⟩

omit [BodyVerifier V] in
theorem frames_onBootstrap (m : Call Error Bootstrap α) : Frames (onBootstrap m) s := by
  unfold Frames onBootstrap Call.zoom?
  cases bootstrap? s with
  | none => exact ⟨rfl, rfl⟩
  | some b => cases h : m b <;> simp [h]

omit [BodyVerifier V] in
theorem frames_onEstablished (m : Call Error (Established V) α) : Frames (onEstablished m) s := by
  unfold Frames onEstablished Call.zoom?
  cases established? s with
  | none => exact ⟨rfl, rfl⟩
  | some e => cases h : m e <;> simp [h]

omit [BodyVerifier V] in
theorem closes_gate {generation : UInt64} {checkpoint carrier : Bytes}
    {after : List AllocatorEffect} (hs : s.Idle) :
    Closes (gate generation checkpoint carrier after) s := by
  intro e s' h
  rw [gate_eq_ok.mpr ⟨hs.ungated, hs.empty, rfl, rfl⟩] at h
  cases h

omit [BodyVerifier V] in
theorem closes_get {f : AllocatorSession V → Call Error (AllocatorSession V) β}
    (h : Closes (f s) s) : Closes (get >>= f) s := by
  intro e s' herror
  rw [Call.run_bind (Call.run_get s)] at herror
  exact h e s' herror

omit [BodyVerifier V] in
theorem closes_checkpointBootstrap {now : UInt64} {nonce : Octets 12}
    {after : List AllocatorEffect} (hs : s.Idle) : Closes (checkpointBootstrap now nonce after) s :=
  closes_get <| .bind hs (frames_orThrow _ _) fun _ _ _ hs =>
    .bind hs (frames_onBootstrap _) fun _ _ _ hs => closes_gate hs

theorem closes_checkpointEstablished {now : UInt64} {nonce : Octets 12}
    {after : List AllocatorEffect} (hs : s.Idle) :
    Closes (checkpointEstablished now nonce after) s :=
  closes_get <| .bind hs (frames_orThrow _ _) fun _ _ _ hs =>
    .bind hs (frames_onEstablished _) fun _ _ _ hs => closes_gate hs

omit [BodyVerifier V] in
theorem closes_guard {c : Prop} [Decidable c] {e : Error}
    {m : Call Error (AllocatorSession V) α} (hs : s.Idle) (h : Closes m s) :
    Closes (if c then throw e else m) s := by
  split_ifs
  · exact (frames_throw e).closes hs
  · exact h

theorem closes_establish {now : UInt64} {nonce : Octets 12} {ack : Option AllocatorEffect}
    (hs : s.Idle) : Closes (establish now nonce ack) s := by
  refine closes_get <| .bind hs ⟨rfl, rfl⟩ fun _ _ _ hs => .bind hs (frames_orThrow _ _)
    fun _ _ _ hs => .bind hs (frames_orThrow _ _) fun _ _ _ hs => .bind hs (frames_ofExcept _)
    fun confirmed _ _ hs => ?_
  obtain ⟨channel, relay⟩ := confirmed
  refine closes_guard hs <| .bind hs (frames_orThrow _ _)
    fun v _ _ hs => .bind hs ⟨rfl, rfl⟩ fun _ _ _ hs => ?_
  dsimp only
  split
  · exact (frames_throw _).closes hs
  · exact .bind hs ⟨rfl, rfl⟩ fun _ _ _ hs => closes_gate hs

theorem closes_peerFrame {peerSeq : UInt8} {body : Bytes} {now : UInt64} {nonce : Octets 12}
    (hs : s.Idle) : Closes (peerFrame peerSeq body now nonce) s := by
  refine .bind hs (frames_ofExcept _) fun frame s _ hs => closes_get ?_
  cases hstate : s.state with
  | established e =>
    exact .bind hs (frames_onEstablished _) fun _ _ _ hs => .bind hs (frames_ofExcept _)
      fun _ _ _ hs => closes_checkpointEstablished hs
  | bootstrap b =>
    dsimp only
    split_ifs
    · exact (frames_ofExcept _).closes hs
    cases b.phase with
    | allocated =>
      exact .bind hs (frames_orThrow _ _) fun _ _ _ hs => .bind hs ⟨rfl, rfl⟩ fun _ _ _ hs =>
        .bind hs (frames_onBootstrap _) fun _ _ _ hs => .bind hs (frames_ofExcept _)
        fun _ _ _ hs => .bind hs (frames_ofExcept _) fun _ _ _ hs => closes_checkpointBootstrap hs
    | finishedSent =>
      refine .bind hs (frames_onBootstrap _) fun waiting _ _ hs => .bind hs (frames_ofExcept _)
        fun _ _ _ hs => ?_
      split_ifs
      · exact closes_checkpointBootstrap hs
      · exact closes_establish hs
    | claimed => exact (frames_throw _).closes hs
    | shareSent => exact (frames_throw _).closes hs
  | _ => exact (frames_throw _).closes hs

theorem closes_localAcknowledged {sequence : UInt8} {now : UInt64} {nonce : Octets 12}
    (hs : s.Idle) : Closes (localAcknowledged sequence now nonce) s := by
  refine closes_get ?_
  cases hstate : s.state with
  | established e =>
    dsimp only
    split_ifs
    · exact (frames_ofExcept _).closes hs
    · exact .bind hs (frames_onEstablished _) fun _ _ _ hs => closes_checkpointEstablished hs
  | bootstrap b =>
    dsimp only
    split_ifs
    · exact (frames_ofExcept _).closes hs
    cases b.phase with
    | shareSent =>
      exact .bind hs (frames_onBootstrap _) fun _ _ _ hs => .bind hs (frames_ofExcept _)
        fun _ _ _ hs => closes_checkpointBootstrap hs
    | finishedSent =>
      refine .bind hs (frames_onBootstrap _) fun hasPeer _ _ hs => ?_
      split_ifs
      · exact closes_establish hs
      · exact closes_checkpointBootstrap hs
    | allocated => exact (frames_throw _).closes hs
    | claimed => exact (frames_throw _).closes hs
  | _ => exact (frames_throw _).closes hs

theorem closes_applyServer {message : ServerMessage} {now : UInt64} {nonce : Octets 12}
    (hs : s.Idle) : Closes (applyServer message now nonce) s := by
  cases message with
  | welcome =>
    refine closes_get ?_
    split_ifs
    · exact .bind hs ⟨rfl, rfl⟩ fun _ _ _ hs => (frames_ofExcept _).closes hs
    cases s.state with
    | awaitWelcome =>
      exact .bind hs ⟨rfl, rfl⟩ fun _ _ _ hs => .bind hs (frames_ofExcept _) fun _ _ _ hs =>
        Frames.closes ⟨rfl, rfl⟩ hs
    | _ => exact (frames_throw _).closes hs
  | allocatedV2 mailboxId membershipToken expiresAt =>
    refine closes_get ?_
    cases s.state with
    | awaitAllocation =>
      exact closes_get <| closes_guard hs <| .bind hs (frames_ofExcept _) fun _ _ _ hs =>
        .bind hs (frames_orThrow _ _) fun _ _ _ hs => .bind hs (frames_ofExcept _) fun _ _ _ hs₁ =>
        .bind hs₁ ⟨‹s.Idle›.ungated.trans hs₁.ungated.symm, ‹s.Idle›.empty.trans hs₁.empty.symm⟩
        fun _ _ _ hs => closes_checkpointBootstrap hs
    | _ => exact (frames_throw _).closes hs
  | frame peerSeq body => exact closes_peerFrame hs
  | acknowledged seq => exact closes_localAcknowledged hs
  | closed reason =>
    intro e s' h
    cases h
  | error code =>
    intro e s' h
    cases h
  | pong =>
    intro e s' h
    cases h
  | _ => exact (frames_throw _).closes hs

theorem closes_prepareApplicationObjectInner {object : Object} {now : UInt64} {nonce : Octets 12}
    (hs : s.Idle) : Closes (prepareApplicationObjectInner object now nonce) s :=
  .bind hs (frames_onEstablished _) fun _ _ _ hs => .bind hs (frames_ofExcept _)
    fun _ _ _ hs => closes_checkpointEstablished hs

omit [BodyVerifier V] in
theorem guarded_closes {m : Call Error (AllocatorSession V) α} {s' : AllocatorSession V} {e : Error}
    (hm : Closes m s) (h : guarded m s = .error e s') :
    s'.state = .terminal ∧ s'.persistenceGate = none ∧ s'.afterPersist = [] := by
  unfold guarded at h
  cases hs : m s with
  | ok a t => simp [hs] at h
  | error e' t =>
    simp only [hs, EStateM.Result.error.injEq] at h
    obtain rfl := h.2
    exact ⟨rfl, hm e' t hs, rfl⟩

/-- A failed call of an idle session leaves it alone or ends it without a gate. -/
theorem call_error_idle {c : AllocatorCall} {s' : AllocatorSession V} {e : Error} (hs : s.Idle)
    (h : call c s = .error e s') :
    s' = s ∨ (s'.state = .terminal ∧ s'.persistenceGate = none ∧ s'.afterPersist = []) := by
  have hgate := hs.ungated
  cases c with
  | receive input now nonce =>
    simp only [call, receive] at h
    rw [Call.run_bind (Call.run_get s), if_neg (by simp [hgate])] at h
    refine .inr (guarded_closes ?_ h)
    cases input with
    | error e => exact (frames_throw _).closes hs
    | ok message => exact closes_applyServer hs
  | prepareApplicationObject object now nonce =>
    simp only [call, prepareApplicationObject] at h
    rw [Call.run_bind (Call.run_get s), if_neg (by simp [hgate])] at h
    exact .inr (guarded_closes (closes_prepareApplicationObjectInner hs) h)
  | start =>
    simp only [call, Call.bind_eq_error, Call.get_eq_error, Call.get_eq_ok, Call.ofExcept_eq_error,
      Call.ofExcept_eq_ok, Call.pure_eq_error, and_false, exists_false, or_false, false_or] at h
    obtain ⟨_, _, ⟨rfl, rfl⟩, -, h⟩ := h
    exact .inl h.symm
  | checkpointPersisted generation =>
    simp only [call, checkpointPersisted] at h
    rw [Call.run_bind (Call.run_get s), if_pos (by simp [hgate])] at h
    exact .inl (Call.throw_eq_error.mp h).2.symm

end Frames

/-! ### Successful calls -/

omit [BodyVerifier V] in
theorem start_eq_ok {s : AllocatorSession V} {message : ClientMessage}
    (h : s.start = .ok message) : message = .bind ∧ s.persistenceGate = none := by
  unfold start at h
  cases hstate : s.state <;> simp only [hstate] at h
  case awaitWelcome =>
    obtain ⟨hgate, h⟩ := Calls.guard_eq_ok.mp h
    exact ⟨(relayMessage_eq_ok.mp h).2.symm, by simpa using hgate⟩
  all_goals
    obtain ⟨hgate, h⟩ := Calls.guard_eq_ok.mp h
    simp only [not_or, Bool.not_eq_true, Option.isSome_eq_false_iff,
      Option.isNone_iff_eq_none] at hgate
    exact ⟨(relayMessage_eq_ok.mp h).2.symm, hgate.2⟩

/-- The three ways a call succeeds. -/
inductive Succeeded (c : AllocatorCall) (s : AllocatorSession V) (effects : List AllocatorEffect)
    (s' : AllocatorSession V) : Prop
  | bound : c = .start → s.persistenceGate = none → effects = [.send .bind] → s' = s →
      Succeeded c s effects s'
  | persisted {generation : UInt64} : c = .checkpointPersisted generation →
      s.persistenceGate = some generation → effects = s.afterPersist →
      s' = { s with persistenceGate := none, afterPersist := [] } → Succeeded c s effects s'
  | applied {cause : Cause} {now : UInt64} {nonce : Octets 12} : c.cause = some cause →
      s.persistenceGate = none → Outcome s cause now nonce effects s' → Succeeded c s effects s'

theorem call_ok {c : AllocatorCall} {s s' : AllocatorSession V} {effects : List AllocatorEffect}
    (h : call c s = .ok effects s') : Succeeded c s effects s' := by
  cases c with
  | start =>
    simp only [call, Call.bind_eq_ok, Call.get_eq_ok, Call.ofExcept_eq_ok, Call.pure_eq_ok] at h
    obtain ⟨_, _, ⟨rfl, rfl⟩, message, _, ⟨hstart, rfl⟩, rfl, rfl⟩ := h
    obtain ⟨rfl, hgate⟩ := start_eq_ok hstart
    exact .bound rfl hgate rfl rfl
  | receive input now nonce =>
    obtain ⟨hgate, message, rfl, houtcome⟩ := receive_outcome h
    exact .applied rfl hgate houtcome
  | checkpointPersisted generation =>
    obtain ⟨hgate, heffects, hs'⟩ := checkpointPersisted_eq_ok.mp h
    exact .persisted rfl hgate heffects hs'
  | prepareApplicationObject object now nonce =>
    obtain ⟨hgate, houtcome⟩ := prepareApplicationObject_outcome h
    exact .applied rfl hgate houtcome

end AllocatorSession
end CredentialV2

/-! ### A session to evaluate -/

namespace CredentialV2
open Codec Calls

attribute [local instance] Primitives.transparent

/-- A verifier without state that takes every body. -/
instance : BodyVerifier Unit where
  verify v _ := (.ok (), v)
  checkpointState _ := .ok []
  restoreCheckpointState v _ := (.ok (), v)

def CarrierInput.sample : CarrierInput where
  applicationContext := ascii "https://issuer.example/card"
  relayOrigin := ascii "https://relay.example"
  mailboxId := fill 32 [1]
  carrierCeremonyId := fill 32 [2]
  carrierNonce := fill 32 [3]
  claimCommitment := fill 32 [4]
  relayExpiresAt := 100
  expectedAllocatorKey := none

def Carrier.sample : Carrier := value (Carrier.new .sample) (by decide +kernel)

def AllocatorInput.sample : AllocatorInput where
  mode := .full
  applicationContext := ascii "https://issuer.example/card"
  relayOrigin := ascii "https://relay.example"
  mailboxId := fill 32 [1]
  carrierCeremonyId := fill 32 [2]
  carrierNonce := fill 32 [3]
  cpaceSecret := fill 16 [4]
  claimToken := fill 16 [5]
  cpaceScalar := fill 32 [6]
  profileDigest := fill 32 [7]
  expectedAllocatorKey := none
  checkpointWrappingKey := fill 32 [8]

def AllocatorSession.sample : AllocatorSession Unit :=
  value (AllocatorSession.new .sample ()) (by decide +kernel)

theorem AllocatorSession.new_sample : AllocatorSession.new .sample () = .ok sample :=
  eq_ok_value _ _

end CredentialV2
end CbclPairing
