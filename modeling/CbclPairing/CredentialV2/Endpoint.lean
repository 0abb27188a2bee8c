import CbclPairing.CredentialV2.Display

/-! The sender-, predecessor- and intent-bound endpoint reducer. -/
namespace CbclPairing
namespace CredentialV2
open Codec Codec.Cbor Calls

inductive Phase where
  | begin
  | accountSelected
  | offered
  | intentApproved
  | prepared
  | confirmed
  | finalApproved
  | payloadSent
  | terminal
  deriving DecidableEq, Repr

/-- The result of applying one object. -/
inductive Advance where
  | advanced
  | displayIntent (display : Display)
  | exactRetransmission
  deriving DecidableEq

/-- The view of a successor object the consumer's verifier gets. -/
structure LogicalBody where
  kind : Kind
  carrierCeremonyId : Octets 32
  predecessorDigest : Octets 32
  bytes : Bytes
  deriving DecidableEq

/-- The consumer's verifier of successor bodies. Verification may change its
state; that state goes into checkpoints and comes back from them. -/
class BodyVerifier (V : Type) where
  verify : V → LogicalBody → Except Error Unit × V
  checkpointState : V → Except Error Bytes
  restoreCheckpointState : V → Bytes → Except Error Unit × V

structure LastObject where
  sender : Side
  bytes : Option Bytes
  kind : Kind
  intentDigest : Octets 32
  contentHash : Octets 32
  deriving DecidableEq

/-! ### Recognising successor bodies -/

/-- Three non-empty base64url parts. -/
def validCompactJws (value : Bytes) : Bool :=
  let parts := value.splitOn 46
  parts.length == 3 && parts.all fun part =>
    0 < part.length && part.all fun b => isAlphanumeric b || b == 45 || b == 95

def validateReceipt (entries : List (Value × Value)) : Except Error Unit :=
  if entries.length ≠ 4 then .error .schema
  else do
    let jws ← textField entries "finalStatusJws"
    let _ ← bytesField 32 entries "finalStatusDigest"
    if jws.length < 1 ∨ 8192 < jws.length ∨ !validCompactJws jws then .error .schema else .ok ()

def recogniseLogicalBody (object : Object) : Except Error LogicalBody :=
  if object.kind = .offer then .error .schema
  else do
    let value ← decodeCanonical object.body
    let entries ← mapEntries value
    let carrierCeremonyId ← bytesField 32 entries "carrierCeremonyId"
    let predecessorDigest ← bytesField 32 entries "predecessorDigest"
    if object.kind = .receipt then validateReceipt entries else .ok ()
    .ok ⟨object.kind, carrierCeremonyId, predecessorDigest, object.body⟩

def receiptFinalStatusDigest (input : Bytes) : Except Error (Octets 32) := do
  let value ← decodeCanonical input
  let entries ← mapEntries value
  validateReceipt entries
  bytesField 32 entries "finalStatusDigest"

/-! ### The state machine -/

def validSender (kind : Kind) (sender : Side) : Bool :=
  match kind with
  | .offer | .comparisonConfirmed | .bindingConfirmed | .receipt => sender == .allocator
  | .intentApprove | .intentDecline | .preparation | .finalApprove | .finalDecline | .payload
  | .accountSelect => sender == .claimant
  | .refusal => true

def preOffer : Phase → Bool
  | .begin | .accountSelected => true
  | _ => false

def nextPhase (phase : Phase) (kind : Kind) : Option Phase :=
  if kind = .refusal ∧ phase ≠ .payloadSent then some .terminal
  else
    match phase, kind with
    | .offered, .intentApprove => some .intentApproved
    | .offered, .intentDecline => some .terminal
    | .confirmed, .finalDecline => some .terminal
    | .intentApproved, .preparation => some .prepared
    | .prepared, .comparisonConfirmed => some .confirmed
    | .prepared, .bindingConfirmed => some .confirmed
    | .confirmed, .finalApprove => some .finalApproved
    | .finalApproved, .payload => some .payloadSent
    | .payloadSent, .receipt => some .terminal
    | _, _ => none

variable [Primitives]

/-! ### Account selection -/

def accountSelectDomain : Bytes := ascii "selfsame-account-select/v1"

/-- The fixed digest an account selection carries in place of an intent. -/
def accountSelectIntentDigest : Octets 32 :=
  sha256 (ascii "cbcl-pairing credential/v2 account-select intent/v1")

structure AccountSelect where
  carrierCeremonyId : Octets 32
  applicationId : Bytes
  accountScope : Option (Octets 32)
  deriving DecidableEq

namespace AccountSelect

omit [Primitives] in
def new (carrierCeremonyId : Octets 32) (applicationId : Bytes) (accountScope : Option (Octets 32)) :
    Except Error AccountSelect :=
  if applicationId = [] ∨ 2048 < applicationId.length then .error .schema
  else .ok ⟨carrierCeremonyId, applicationId, accountScope⟩

def encode (s : AccountSelect) : Bytes :=
  toCanonicalVec (.array [.text accountSelectDomain, .bytes s.carrierCeremonyId.val,
    .text s.applicationId,
    match s.accountScope with
    | none => .array [.integer 0]
    | some scope => .array [.integer 1, .bytes scope.val]])

def decodeSelection : Value → Except Error (Option (Octets 32))
  | .array [tag] => do
    let tag ← uint tag
    if tag = 0 then .ok none else .error .schema
  | .array [tag, scope] => do
    let tag ← uint tag
    if tag = 1 then some <$> fixedBytes 32 scope else .error .schema
  | _ => .error .schema

def decode (body : Bytes) : Except Error AccountSelect := do
  match ← decodeCanonical body with
  | .array [domain, ceremony, application, selection] =>
    if domain.asText ≠ some accountSelectDomain then .error .schema
    else do
      let carrierCeremonyId ← fixedBytes 32 ceremony
      let applicationId ← orSchema application.asText
      let accountScope ← decodeSelection selection
      new carrierCeremonyId applicationId accountScope
  | _ => .error .schema

def object (s : AccountSelect) : Except Error Object :=
  Object.new .accountSelect accountSelectIntentDigest s.encode

def recognise (object : Object) (carrierCeremonyId : Octets 32) (applicationId : Bytes) :
    Except Error AccountSelect :=
  if object.kind ≠ .accountSelect ∨ object.intentDigest ≠ accountSelectIntentDigest then
    .error .schema
  else do
    let selection ← decode object.body
    if selection.carrierCeremonyId ≠ carrierCeremonyId ∨ selection.applicationId ≠ applicationId
    then .error .profile
    else .ok selection

theorem recognise_intentDigest {object : Object} {carrierCeremonyId : Octets 32}
    {applicationId : Bytes} {selection : AccountSelect}
    (h : recognise object carrierCeremonyId applicationId = .ok selection) :
    object.intentDigest = accountSelectIntentDigest := by
  unfold recognise at h
  split_ifs at h with hshape
  simp only [not_or, ne_eq, not_not] at hshape
  exact hshape.2

end AccountSelect

/-! ### The endpoint -/

structure Endpoint (V : Type) where
  side : Side
  carrier : Carrier
  phase : Phase
  intentDigest : Option (Octets 32)
  last : Option LastObject
  bodyVerifier : V
  checkpointGeneration : UInt64
  checkpointNonce : Option (Octets 12)

/-- One-use authority of an authenticated recovery receipt. -/
structure RecoveredReceiptAuthority where
  applicationContext : Bytes
  carrierCeremonyId : Octets 32
  intentDigest : Octets 32
  payloadContentHash : Octets 32
  finalStatusDigest : Octets 32
  receiptBodyDigest : Octets 32
  deriving DecidableEq

namespace Endpoint

variable {V : Type}

def new (side : Side) (carrier : Carrier) (bodyVerifier : V) : Endpoint V :=
  { side, carrier, phase := .begin, intentDigest := none, last := none, bodyVerifier,
    checkpointGeneration := 0, checkpointNonce := none }

/-- The exact latest object, seen again from its own sender. -/
def exactRetransmission (e : Endpoint V) (object : Object) (sender : Side) : Bool :=
  e.last.any fun last =>
    last.sender == sender && last.kind == object.kind && last.intentDigest == object.intentDigest &&
      last.contentHash == object.contentHash && last.bytes.all (· == object.bytes)

def accept (object : Object) (sender : Side) (next : Phase) (e : Endpoint V) : Endpoint V :=
  { e with
    intentDigest :=
      if e.intentDigest.isNone ∧ object.kind ≠ .accountSelect then some object.intentDigest
      else e.intentDigest
    last := some ⟨sender, some object.bytes, object.kind, object.intentDigest, object.contentHash⟩
    phase := next }

/-- Every refusal after the terminal checks ends the ceremony. -/
def fail {α : Type} (e : Error) : Call Error (Endpoint V) α := do
  modify fun s => { s with phase := .terminal }
  throw e

/-- The one object before the Offer, admitted once and only at the start. -/
def applyAccountSelect (object : Object) (sender : Side) : Call Error (Endpoint V) Advance := do
  let e ← get
  if e.phase ≠ .begin ∨ e.last.isSome then fail .phase
  else
    match AccountSelect.recognise object e.carrier.carrierCeremonyId e.carrier.applicationContext with
    | .error error => fail error
    | .ok _ => do
      set (e.accept object sender .accountSelected)
      pure .advanced

def applyOffer (object : Object) (sender : Side) : Call Error (Endpoint V) Advance := do
  let e ← get
  if sender ≠ .allocator ∨ e.side ≠ .allocator ∨ !preOffer e.phase then fail .phase
  else do
    set ({ e with intentDigest := some object.intentDigest }.accept object sender .offered)
    pure .advanced

variable [BodyVerifier V]

/-- Every later object names the intent, the ceremony and its predecessor. -/
def applySuccessor (object : Object) (sender : Side) : Call Error (Endpoint V) Advance := do
  let e ← get
  match e.intentDigest with
  | none => fail .phase
  | some expectedIntent =>
    if object.intentDigest ≠ expectedIntent then fail .profile
    else
      match nextPhase e.phase object.kind with
      | none => fail .phase
      | some next =>
        match recogniseLogicalBody object with
        | .error error => fail error
        | .ok logical =>
          if logical.carrierCeremonyId ≠ e.carrier.carrierCeremonyId then fail .profile
          else
            match e.last with
            | none => fail .phase
            | some last =>
              if logical.predecessorDigest ≠ last.contentHash then fail .predecessor
              else
                match BodyVerifier.verify e.bodyVerifier logical with
                | (.error error, v) => do
                  set { e with bodyVerifier := v }
                  fail error
                | (.ok (), v) => do
                  set ({ e with bodyVerifier := v }.accept object sender next)
                  pure .advanced

def apply (object : Object) (sender : Side) : Call Error (Endpoint V) Advance := do
  let e ← get
  if e.exactRetransmission object sender then pure .exactRetransmission
  else if e.phase = .terminal then throw .terminal
  else if e.phase = .payloadSent ∧ object.kind = .refusal then throw .phase
  else if !validSender object.kind sender then fail .direction
  else if object.kind = .accountSelect then applyAccountSelect object sender
  else if object.kind = .offer then applyOffer object sender
  else applySuccessor object sender

def send (object : Object) : Call Error (Endpoint V) Advance := do
  let e ← get
  apply object e.side

def receive (object : Object) : Call Error (Endpoint V) Advance := do
  let e ← get
  apply object e.side.opposite

/-- The claimant's only way past the Offer. -/
def receiveOffer (object : Object) (check : OfferCheck) : Call Error (Endpoint V) Advance := do
  let e ← get
  if e.exactRetransmission object .allocator then pure .exactRetransmission
  else if e.side ≠ .claimant ∨ !preOffer e.phase ∨ object.kind ≠ .offer then fail .phase
  else if check.authority.claims.carrierCeremonyId ≠ e.carrier.carrierCeremonyId ∨
      check.authority.claims.applicationId ≠ e.carrier.applicationContext then fail .profile
  else
    match recogniseIntent object check with
    | .error error => fail error
    | .ok display => do
      set (e.accept object .allocator .offered)
      pure (.displayIntent display)

/-- Authenticate a receipt without advancing; a refusal changes only what the
verifier keeps for itself. -/
def authenticateRecoveredReceipt (receipt : Object) :
    Call Error (Endpoint V) RecoveredReceiptAuthority := do
  let e ← get
  if e.side ≠ .claimant ∨ e.phase ≠ .payloadSent ∨ receipt.kind ≠ .receipt then throw .phase
  else do
    let intentDigest ← Call.orThrow .phase e.intentDigest
    if receipt.intentDigest ≠ intentDigest then throw .profile
    else do
      let logical ← Call.ofExcept (recogniseLogicalBody receipt)
      if logical.carrierCeremonyId ≠ e.carrier.carrierCeremonyId then throw .profile
      else do
        let payload ← Call.orThrow .phase e.last
        if logical.predecessorDigest ≠ payload.contentHash then throw .predecessor
        else do
          let (verdict, v) := BodyVerifier.verify e.bodyVerifier logical
          set { e with bodyVerifier := v }
          Call.ofExcept verdict
          let finalStatusDigest ← Call.ofExcept (receiptFinalStatusDigest receipt.body)
          pure
            { applicationContext := e.carrier.applicationContext
              carrierCeremonyId := e.carrier.carrierCeremonyId
              intentDigest
              payloadContentHash := payload.contentHash
              finalStatusDigest
              receiptBodyDigest := sha256 receipt.body }

/-- Consume the authority of a receipt through the ordinary terminal edge. -/
def recoverReceipt (receipt : Object) (authority : RecoveredReceiptAuthority) :
    Call Error (Endpoint V) Advance := do
  let e ← get
  if e.side ≠ .claimant ∨ e.phase ≠ .payloadSent ∨ receipt.kind ≠ .receipt then throw .phase
  else do
    let logical ← Call.ofExcept (recogniseLogicalBody receipt)
    let payload ← Call.orThrow .phase e.last
    let intentDigest ← Call.orThrow .phase e.intentDigest
    let finalStatusDigest ← Call.ofExcept (receiptFinalStatusDigest receipt.body)
    if authority.applicationContext = e.carrier.applicationContext ∧
        authority.carrierCeremonyId = e.carrier.carrierCeremonyId ∧
        authority.intentDigest = intentDigest ∧
        authority.payloadContentHash = payload.contentHash ∧
        authority.finalStatusDigest = finalStatusDigest ∧
        authority.receiptBodyDigest = sha256 receipt.body ∧
        receipt.intentDigest = intentDigest ∧
        logical.carrierCeremonyId = e.carrier.carrierCeremonyId ∧
        logical.predecessorDigest = payload.contentHash then do
      set (e.accept receipt .allocator .terminal)
      pure .advanced
    else throw .profile

/-! ### What an accepted object asks for -/

/-- A successor fits the state it is applied in: the intent, the phase, the
ceremony and the predecessor. -/
structure Succeeds (e : Endpoint V) (object : Object) (next : Phase) : Prop where
  open_ : e.phase ≠ .terminal
  intent : e.intentDigest = some object.intentDigest
  step : nextPhase e.phase object.kind = some next
  body : ∃ logical last, recogniseLogicalBody object = .ok logical ∧
    logical.carrierCeremonyId = e.carrier.carrierCeremonyId ∧ e.last = some last ∧
    logical.predecessorDigest = last.contentHash

/-- The states that may follow the acceptance of one object. -/
inductive Accepts (object : Object) (sender : Side) (e : Endpoint V) : Endpoint V → Prop
  | accountSelect : object.kind = .accountSelect →
      object.intentDigest = accountSelectIntentDigest → sender = .claimant → e.phase = .begin →
      e.last = none → Accepts object sender e (e.accept object sender .accountSelected)
  | sentOffer : object.kind = .offer → sender = .allocator → e.side = .allocator →
      preOffer e.phase = true → Accepts object sender e
        ({ e with intentDigest := some object.intentDigest }.accept object sender .offered)
  | receivedOffer : object.kind = .offer → sender = .allocator → e.side = .claimant →
      preOffer e.phase = true → Accepts object sender e (e.accept object sender .offered)
  | successor (v : V) (next : Phase) : validSender object.kind sender = true →
      e.Succeeds object next →
      Accepts object sender e ({ e with bodyVerifier := v }.accept object sender next)

omit [BodyVerifier V] in
/-- A refusal leaves the endpoint alone or ends it; only the verifier may have
moved. -/
def Refused (e e' : Endpoint V) : Prop :=
  ∃ v, e' = { e with bodyVerifier := v } ∨ e' = { e with bodyVerifier := v, phase := .terminal }

omit [BodyVerifier V] in
@[simp] theorem fail_run {α : Type} (error : Error) (e : Endpoint V) :
    (fail error : Call Error (Endpoint V) α) e = .error error { e with phase := .terminal } := rfl

omit [BodyVerifier V] in
theorem refused_self (e : Endpoint V) : Refused e e := ⟨e.bodyVerifier, .inl rfl⟩

omit [BodyVerifier V] in
theorem refused_terminal (e : Endpoint V) : Refused e { e with phase := .terminal } :=
  ⟨e.bodyVerifier, .inr rfl⟩

/-- The three outcomes of applying one object. -/
inductive Outcome (e : Endpoint V) (object : Object) (sender : Side) :
    EStateM.Result Error (Endpoint V) Advance → Prop
  | retransmission : e.exactRetransmission object sender = true →
      Outcome e object sender (.ok .exactRetransmission e)
  | accepted {advance : Advance} {e' : Endpoint V} : advance ≠ .exactRetransmission →
      e.exactRetransmission object sender = false → Accepts object sender e e' →
      Outcome e object sender (.ok advance e')
  | refused {error : Error} {e' : Endpoint V} : Refused e e' →
      Outcome e object sender (.error error e')

omit [BodyVerifier V] in
theorem applyAccountSelect_outcome {e : Endpoint V} {object : Object} {sender : Side}
    (hfresh : e.exactRetransmission object sender = false) (hkind : object.kind = .accountSelect)
    (hsender : validSender object.kind sender = true) :
    Outcome e object sender (applyAccountSelect object sender e) := by
  unfold applyAccountSelect
  rw [Call.run_bind (Call.run_get e)]
  split_ifs with hstart
  · exact .refused e.refused_terminal
  · cases hrecognise : AccountSelect.recognise object e.carrier.carrierCeremonyId
      e.carrier.applicationContext with
    | error error => exact .refused e.refused_terminal
    | ok selection =>
      simp only [not_or, ne_eq, not_not, Bool.not_eq_true, Option.isSome_eq_false_iff,
        Option.isNone_iff_eq_none] at hstart
      refine .accepted (by decide) hfresh (.accountSelect hkind
        (AccountSelect.recognise_intentDigest hrecognise) ?_ hstart.1 hstart.2)
      simpa [hkind, validSender] using hsender

omit [BodyVerifier V] in
theorem applyOffer_outcome {e : Endpoint V} {object : Object} {sender : Side}
    (hfresh : e.exactRetransmission object sender = false) (hkind : object.kind = .offer) :
    Outcome e object sender (applyOffer object sender e) := by
  unfold applyOffer
  rw [Call.run_bind (Call.run_get e)]
  split_ifs with hroles
  · exact .refused e.refused_terminal
  · simp only [not_or, ne_eq, not_not, Bool.not_eq_true', Bool.not_eq_false] at hroles
    exact .accepted (by decide) hfresh (.sentOffer hkind hroles.1 hroles.2.1 hroles.2.2)

theorem applySuccessor_outcome {e : Endpoint V} {object : Object} {sender : Side}
    (hfresh : e.exactRetransmission object sender = false) (hopen : e.phase ≠ .terminal)
    (hsender : validSender object.kind sender = true) :
    Outcome e object sender (applySuccessor object sender e) := by
  unfold applySuccessor
  rw [Call.run_bind (Call.run_get e)]
  cases hintent : e.intentDigest with
  | none => exact .refused e.refused_terminal
  | some expectedIntent =>
    dsimp only
    split_ifs with hdigest
    · exact .refused e.refused_terminal
    cases hnext : nextPhase e.phase object.kind with
    | none => exact .refused e.refused_terminal
    | some next =>
      cases hlogical : recogniseLogicalBody object with
      | error error => exact .refused e.refused_terminal
      | ok logical =>
        dsimp only
        split_ifs with hceremony
        · exact .refused e.refused_terminal
        cases hlast : e.last with
        | none => exact .refused e.refused_terminal
        | some last =>
          dsimp only
          split_ifs with hpredecessor
          · exact .refused e.refused_terminal
          rw [← hintent, ← hlast]
          rcases BodyVerifier.verify e.bodyVerifier logical with ⟨error | _, v⟩
          · exact .refused ⟨v, .inr rfl⟩
          · refine .accepted (by decide) hfresh (.successor v next hsender ⟨hopen, ?_, hnext,
              logical, last, hlogical, not_not.mp hceremony, hlast, not_not.mp hpredecessor⟩)
            rw [hintent, not_not.mp hdigest]

theorem apply_outcome (e : Endpoint V) (object : Object) (sender : Side) :
    Outcome e object sender (apply object sender e) := by
  unfold apply
  rw [Call.run_bind (Call.run_get e)]
  split_ifs with hagain hterminal hrefusal hsender hselect hoffer
  · exact .retransmission hagain
  · exact .refused e.refused_self
  · exact .refused e.refused_self
  · exact .refused e.refused_terminal
  all_goals
    simp only [Bool.not_eq_true] at hagain
    simp only [Bool.not_eq_true', Bool.not_eq_false] at hsender
  · exact applyAccountSelect_outcome hagain hselect hsender
  · exact applyOffer_outcome hagain hoffer
  · exact applySuccessor_outcome hagain hterminal hsender

omit [BodyVerifier V] in
theorem receiveOffer_outcome (e : Endpoint V) (object : Object) (check : OfferCheck) :
    Outcome e object .allocator (receiveOffer object check e) := by
  unfold receiveOffer
  rw [Call.run_bind (Call.run_get e)]
  split_ifs with hagain hroles hauthority
  · exact .retransmission hagain
  · exact .refused e.refused_terminal
  · exact .refused e.refused_terminal
  · simp only [not_or, ne_eq, not_not, Bool.not_eq_true', Bool.not_eq_false] at hroles
    cases recogniseIntent object check with
    | error error => exact .refused e.refused_terminal
    | ok display =>
      exact .accepted (by simp) (by simpa using hagain)
        (.receivedOffer hroles.2.2 rfl hroles.1 hroles.2.1)

omit [BodyVerifier V] in
theorem recoverReceipt_outcome {e e' : Endpoint V} {receipt : Object}
    {authority : RecoveredReceiptAuthority} {advance : Advance}
    (h : recoverReceipt receipt authority e = .ok advance e') :
    advance = .advanced ∧ receipt.kind = .receipt ∧ Accepts receipt .allocator e e' := by
  unfold recoverReceipt at h
  rw [Call.run_bind (Call.run_get e)] at h
  split_ifs at h with hroles
  · simp at h
  simp only [Call.bind_eq_ok, Call.ofExcept_eq_ok, Call.orThrow_eq_ok] at h
  obtain ⟨logical, _, ⟨hlogical, rfl⟩, payload, _, ⟨hlast, rfl⟩, intent, _, ⟨hintent, rfl⟩,
    _, _, ⟨-, rfl⟩, h⟩ := h
  simp only [not_or, ne_eq, not_not] at hroles
  obtain ⟨hside, hphase, hkind⟩ := hroles
  split_ifs at h with hauthority
  · obtain ⟨-, -, -, -, -, -, hdigest, hceremony, hpredecessor⟩ := hauthority
    simp only [Call.bind_eq_ok, Call.set_eq_ok, Call.pure_eq_ok] at h
    obtain ⟨_, _, rfl, rfl, rfl⟩ := h
    refine ⟨rfl, hkind, .successor e.bodyVerifier .terminal (by rw [hkind]; rfl) ⟨?_, ?_, ?_,
      logical, payload, hlogical, hceremony, hlast, hpredecessor⟩⟩
    · rw [hphase]
      decide
    · rw [hintent, hdigest]
    · rw [hphase, hkind]
      rfl
  · simp at h

omit [BodyVerifier V] in
theorem recoverReceipt_error {e e' : Endpoint V} {receipt : Object}
    {authority : RecoveredReceiptAuthority} {error : Error}
    (h : recoverReceipt receipt authority e = .error error e') : e' = e := by
  unfold recoverReceipt at h
  rw [Call.run_bind (Call.run_get e)] at h
  split_ifs at h
  · exact (Call.throw_eq_error.mp h).2.symm
  · simp only [Call.bind_eq_error, Call.ofExcept_eq_error, Call.ofExcept_eq_ok,
      Call.orThrow_eq_error, Call.orThrow_eq_ok] at h
    obtain ⟨-, rfl⟩ | ⟨_, _, ⟨-, rfl⟩, ⟨-, -, rfl⟩ | ⟨_, _, ⟨-, rfl⟩, ⟨-, -, rfl⟩ |
      ⟨_, _, ⟨-, rfl⟩, ⟨-, rfl⟩ | ⟨_, _, ⟨-, rfl⟩, h⟩⟩⟩⟩ := h
    · rfl
    · rfl
    · rfl
    · rfl
    split_ifs at h
    · simp only [Call.bind_eq_error, Call.set_eq_error, Call.pure_eq_error, and_false,
        exists_false, or_false] at h
    · exact (Call.throw_eq_error.mp h).2.symm

theorem send_run (e : Endpoint V) (object : Object) : send object e = apply object e.side e := rfl

theorem receive_run (e : Endpoint V) (object : Object) :
    receive object e = apply object e.side.opposite e := rfl

omit [BodyVerifier V] in
/-- Acceptance records the object and keeps whose endpoint it is and the last
checkpoint it stands on. -/
theorem Accepts.kept {object : Object} {sender : Side} {e e' : Endpoint V}
    (h : Accepts object sender e e') :
    e'.last = some ⟨sender, some object.bytes, object.kind, object.intentDigest,
        object.contentHash⟩ ∧
      e'.side = e.side ∧ e'.carrier = e.carrier ∧
      e'.checkpointGeneration = e.checkpointGeneration ∧ e'.checkpointNonce = e.checkpointNonce := by
  cases h <;> exact ⟨rfl, rfl, rfl, rfl, rfl⟩

theorem send_advanced {e e' : Endpoint V} {object : Object}
    (h : send object e = .ok .advanced e') : Accepts object e.side e e' := by
  have houtcome := apply_outcome e object e.side
  rw [← send_run, h] at houtcome
  cases houtcome with
  | accepted _ _ haccepts => exact haccepts

theorem receive_ok {e e' : Endpoint V} {object : Object} {advance : Advance}
    (h : receive object e = .ok advance e') :
    (e.exactRetransmission object e.side.opposite = true ∧ e' = e) ∨
      Accepts object e.side.opposite e e' := by
  have houtcome := apply_outcome e object e.side.opposite
  rw [← receive_run, h] at houtcome
  cases houtcome with
  | retransmission hagain => exact .inl ⟨hagain, rfl⟩
  | accepted _ _ haccepts => exact .inr haccepts

/-- The last accepted object is the allocator's own Receipt. -/
def receiptReleased (e : Endpoint V) : Bool :=
  e.side == .allocator &&
    e.last.any fun last => last.sender == .allocator && last.kind == .receipt

end Endpoint

/-- An endpoint with the channel and relay projection it drives. -/
structure Established (V : Type) where
  endpoint : Endpoint V
  channel : SecureChannel
  relay : RelayState

namespace Established

variable {V : Type}

def onEndpoint {α : Type} (m : Call Error (Endpoint V) α) : Call Error (Established V) α :=
  Call.zoom endpoint (fun endpoint s => { s with endpoint }) m

def onChannel {α : Type} (m : Call Error SecureChannel α) : Call Error (Established V) α :=
  Call.zoom channel (fun channel s => { s with channel }) m

def onRelay {α : Type} (m : Call Error RelayState α) : Call Error (Established V) α :=
  Call.zoom relay (fun relay s => { s with relay }) m

/-- Advance and cache one sealed frame before any network effect. -/
def prepareOutbound [BodyVerifier V] (object : Object) : Call Error (Established V) Frame := do
  let s ← get
  if s.channel.localSide ≠ s.endpoint.side then throw .direction
  else
    match s.relay.cachedOutbound with
    | some cached =>
      if s.endpoint.exactRetransmission object s.endpoint.side then pure cached
      else throw .phase
    | none => do
      Call.ofExcept (s.channel.canSeal object.bytes)
      let advance ← onEndpoint (Endpoint.send object)
      if advance ≠ .advanced then throw .phase
      else do
        let frame ← onChannel (SecureChannel.sealFrame object.bytes)
        onRelay (RelayState.cacheApplicationFrame frame)
        pure frame

end Established
end CredentialV2
end CbclPairing
