import Mathlib.Data.List.Induction
import CbclPairing.HashChain
import CbclPairing.CredentialV2.Endpoint

/-! The list of objects one endpoint accepts over a whole run, the session
projection it follows, and the agreement of two endpoints that end on one hash. -/
namespace CbclPairing
namespace CredentialV2
open Codec Codec.Cbor Calls

/-- An accepted object and the role it came from. -/
structure Entry where
  sender : Side
  object : Object
  deriving DecidableEq

/-! ### The session projection -/

/-- One position of the projection: the speaking role and its alternatives. -/
structure Position where
  speaker : Side
  kinds : List Kind

def projection : List Position :=
  [⟨.allocator, [.offer]⟩,
    ⟨.claimant, [.intentApprove, .intentDecline]⟩,
    ⟨.claimant, [.preparation]⟩,
    ⟨.allocator, [.comparisonConfirmed, .bindingConfirmed]⟩,
    ⟨.claimant, [.finalApprove, .finalDecline]⟩,
    ⟨.claimant, [.payload]⟩,
    ⟨.allocator, [.receipt]⟩]

def Entry.Fits (x : Entry) (position : Position) : Prop :=
  x.sender = position.speaker ∧ x.object.kind ∈ position.kinds

/-- The kinds nothing may follow. -/
def ends : Kind → Bool
  | .intentDecline | .finalDecline | .receipt | .refusal => true
  | _ => false

/-- An initial part of the projection, position by position. -/
def Projected (body : List Entry) : Prop :=
  List.Forall₂ Entry.Fits body (projection.take body.length)

/-- An initial part that reaches the Offer and not the Payload, ended by one
Refusal of either role. -/
def CutShort (body : List Entry) : Prop :=
  ∃ before refusal, body = before ++ [refusal] ∧ refusal.object.kind = .refusal ∧
    Projected before ∧ 1 ≤ before.length ∧ before.length ≤ 5

def beforeOffer (history : List Entry) : List Entry :=
  history.takeWhile fun x => x.object.kind != .offer

def fromOffer (history : List Entry) : List Entry :=
  history.dropWhile fun x => x.object.kind != .offer

def AtMostOneSelection (selection : List Entry) : Prop :=
  selection = [] ∨ ∃ x, selection = [x] ∧ x.sender = .claimant ∧ x.object.kind = .accountSelect

variable [Primitives]

def ceremonyOf (object : Object) : Option (Octets 32) :=
  (recogniseLogicalBody object).toOption.map LogicalBody.carrierCeremonyId

def predecessorOf (object : Object) : Option (Octets 32) :=
  (recogniseLogicalBody object).toOption.map LogicalBody.predecessorDigest

/-- Objects, newest first, each naming the content hash of the one before it,
back to an Offer. -/
def Linked (objects : List Object) : Prop :=
  HashChain.Chain (fun o : Object => o.kind = .offer) (fun o d => predecessorOf o = some d)
    Object.contentHash objects

/-- What the projection asks of a whole history. -/
structure Follows (carrier : Carrier) (history : List Entry) : Prop where
  selection : AtMostOneSelection (beforeOffer history)
  order : Projected (fromOffer history) ∨ CutShort (fromOffer history)
  closed : ∀ x ∈ history.dropLast, ends x.object.kind = false
  intent : ∀ offer ∈ (fromOffer history).head?, ∀ x ∈ (fromOffer history).tail,
    x.object.intentDigest = offer.object.intentDigest
  ceremony : ∀ x ∈ (fromOffer history).tail, ceremonyOf x.object = some carrier.carrierCeremonyId
  linked : fromOffer history ≠ [] → Linked ((fromOffer history).map Entry.object).reverse

/-! ### Runs -/

/-- The calls that may accept an object. -/
inductive Operation where
  | send (object : Object)
  | receive (object : Object)
  | receiveOffer (object : Object) (check : OfferCheck)
  | recoverReceipt (receipt : Object) (authority : RecoveredReceiptAuthority)

namespace Operation

def object : Operation → Object
  | send object | receive object | receiveOffer object _ | recoverReceipt object _ => object

def sender (side : Side) : Operation → Side
  | send _ => side
  | receive _ => side.opposite
  | receiveOffer _ _ | recoverReceipt _ _ => .allocator

def perform {V : Type} [BodyVerifier V] : Operation → Call Error (Endpoint V) Advance
  | send object => Endpoint.send object
  | receive object => Endpoint.receive object
  | receiveOffer object check => Endpoint.receiveOffer object check
  | recoverReceipt receipt authority => Endpoint.recoverReceipt receipt authority

end Operation

/-- An endpoint with everything it has accepted, oldest first. -/
structure Ledger (V : Type) where
  endpoint : Endpoint V
  accepted : List Entry

namespace Ledger

variable {V : Type}

def new (side : Side) (carrier : Carrier) (bodyVerifier : V) : Ledger V :=
  ⟨Endpoint.new side carrier bodyVerifier, []⟩

def record (l : Ledger V) (x : Entry) : EStateM.Result Error (Endpoint V) Advance → Ledger V
  | .ok .exactRetransmission e => ⟨e, l.accepted⟩
  | .ok _ e => ⟨e, l.accepted ++ [x]⟩
  | .error _ e => ⟨e, l.accepted⟩

variable [BodyVerifier V]

def step (l : Ledger V) (operation : Operation) : Ledger V :=
  l.record ⟨operation.sender l.endpoint.side, operation.object⟩ (operation.perform l.endpoint)

def run (l : Ledger V) (operations : List Operation) : Ledger V := operations.foldl step l

end Ledger

/-! ### One step -/

/-- How much of the projection a phase has behind it. -/
def stage : Phase → Option ℕ
  | .begin | .accountSelected => some 0
  | .offered => some 1
  | .intentApproved => some 2
  | .prepared => some 3
  | .confirmed => some 4
  | .finalApproved => some 5
  | .payloadSent => some 6
  | .terminal => none

omit [Primitives] in
theorem stage_preOffer {phase : Phase} (h : preOffer phase = true) : stage phase = some 0 := by
  cases phase <;> first | rfl | simp [preOffer] at h

omit [Primitives] in
/-- A step of the reducer is a step along the projection, or a Refusal. -/
theorem nextPhase_projection {phase next : Phase} {kind : Kind} {n : ℕ} {sender : Side}
    (h : nextPhase phase kind = some next) (hstage : stage phase = some n) (hn : 0 < n)
    (hsender : validSender kind sender = true) :
    (kind = .refusal ∧ next = .terminal ∧ n ≤ 5) ∨
    (∃ position, projection[n]? = some position ∧ sender = position.speaker ∧
      kind ∈ position.kinds ∧
      (next = .terminal ∨ (stage next = some (n + 1) ∧ ends kind = false))) := by
  cases phase <;> cases kind <;> simp [nextPhase] at h <;> subst h <;>
    simp [stage] at hstage <;> subst hstage <;> simp [projection, validSender, ends, stage] at * <;>
    exact hsender

def Entry.record (x : Entry) : LastObject :=
  ⟨x.sender, some x.object.bytes, x.object.kind, x.object.intentDigest, x.object.contentHash⟩

namespace Ledger

variable {V : Type} [BodyVerifier V]

/-- The part of the projection a ledger has behind it, and what may still come. -/
structure Ordered (phase : Phase) (body : List Entry) : Prop where
  order : Projected body ∨ CutShort body
  closed : ∀ x ∈ body.dropLast, ends x.object.kind = false
  staged : ∀ n, stage phase = some n →
    Projected body ∧ body.length = n ∧ ∀ x ∈ body, ends x.object.kind = false

structure Inv (carrier : Carrier) (l : Ledger V) (selection body : List Entry) : Prop where
  carrier_eq : l.endpoint.carrier = carrier
  accepted : l.accepted = selection ++ body
  last : l.endpoint.last = l.accepted.getLast?.map Entry.record
  selection : AtMostOneSelection selection
  ordered : Ordered l.endpoint.phase body
  unbound : body = [] → l.endpoint.intentDigest = none
  intent : ∀ x ∈ body, l.endpoint.intentDigest = some x.object.intentDigest
  ceremony : ∀ x ∈ body.tail, ceremonyOf x.object = some carrier.carrierCeremonyId
  linked : body ≠ [] → Linked (body.map Entry.object).reverse

omit [Primitives] in
theorem projected_nil : Projected [] := List.Forall₂.nil

omit [Primitives] in
theorem Projected.concat {body : List Entry} {x : Entry} {position : Position}
    (h : Projected body) (hnext : projection[body.length]? = some position)
    (hx : x.Fits position) : Projected (body ++ [x]) := by
  unfold Projected
  rw [List.length_append, List.length_singleton, List.take_add_one, hnext, Option.toList_some]
  exact List.rel_append h (.cons hx .nil)

omit [Primitives] [BodyVerifier V] in
/-- Ending the ceremony keeps the order it has come to. -/
theorem Ordered.terminal {phase : Phase} {body : List Entry} (h : Ordered phase body) :
    Ordered .terminal body where
  order := h.order
  closed := h.closed
  staged := by simp [stage]

omit [Primitives] [BodyVerifier V] in
theorem Ordered.concat {phase next : Phase} {body : List Entry} {x : Entry}
    (h : Ordered phase body) (hopen : phase ≠ .terminal) (hne : body ≠ [])
    (hnext : nextPhase phase x.object.kind = some next)
    (hsender : validSender x.object.kind x.sender = true) : Ordered next (body ++ [x]) := by
  obtain ⟨n, hn⟩ : ∃ n, stage phase = some n := by
    cases phase <;> first | exact ⟨_, rfl⟩ | exact absurd rfl hopen
  obtain ⟨hbody, hlen, hends⟩ := h.staged n hn
  have hpos : 0 < n := hlen ▸ List.length_pos_iff.mpr hne
  have hclosed : ∀ y ∈ (body ++ [x]).dropLast, ends y.object.kind = false := by
    simpa using hends
  obtain ⟨hkind, rfl, hle⟩ | ⟨position, hposition, hspeaker, hkind, hafter⟩ :=
    nextPhase_projection hnext hn hpos hsender
  · refine ⟨.inr ⟨body, x, rfl, hkind, hbody, ?_, ?_⟩, hclosed, by simp [stage]⟩ <;> omega
  · have hlonger : Projected (body ++ [x]) :=
      Projected.concat hbody (hlen ▸ hposition) ⟨hspeaker, hkind⟩
    refine ⟨.inl hlonger, hclosed, fun m hm => ⟨hlonger, ?_, ?_⟩⟩
    · obtain rfl | ⟨hstage, -⟩ := hafter
      · simp [stage] at hm
      · rw [hstage, Option.some.injEq] at hm
        simp [hlen, hm]
    · obtain rfl | ⟨-, hlast⟩ := hafter
      · simp [stage] at hm
      · simpa [or_imp, forall_and] using ⟨hends, hlast⟩

omit [BodyVerifier V] in
theorem linked_concat {body : List Entry} {x last : Entry} {logical : LogicalBody}
    (h : Linked (body.map Entry.object).reverse) (hlast : body.getLast? = some last)
    (hlogical : recogniseLogicalBody x.object = .ok logical)
    (hpredecessor : logical.predecessorDigest = last.object.contentHash) :
    Linked ((body ++ [x]).map Entry.object).reverse := by
  obtain ⟨before, rfl⟩ := List.getLast?_eq_some_iff.mp hlast
  simp only [List.map_append, List.map_cons, List.map_nil, List.reverse_append,
    List.reverse_cons, List.reverse_nil, List.nil_append, List.cons_append] at h ⊢
  refine .link ?_ ?_ h
  · intro hoffer
    simp [recogniseLogicalBody, hoffer] at hlogical
  · simp [predecessorOf, hlogical, Except.toOption, hpredecessor]

omit [BodyVerifier V] in
/-- The Offer opens the body of the history, whoever accepts it. -/
theorem Inv.offered {carrier : Carrier} {l : Ledger V} {selection : List Entry}
    (h : Inv carrier l selection []) {x : Entry} {e' : Endpoint V} (hkind : x.object.kind = .offer)
    (hsender : x.sender = .allocator) (hcarrier : e'.carrier = l.endpoint.carrier)
    (hphase : e'.phase = .offered) (hintent : e'.intentDigest = some x.object.intentDigest)
    (hlast : e'.last = some x.record) :
    Inv carrier (⟨e', l.accepted ++ [x]⟩ : Ledger V) selection [x] := by
  have hprojected : Projected [x] :=
    Projected.concat projected_nil rfl ⟨hsender, by simp [hkind]⟩
  have hends : ends x.object.kind = false := by rw [hkind]; rfl
  refine ⟨hcarrier.trans h.carrier_eq, by simp [h.accepted], by simp [hlast], h.selection,
    ⟨.inl hprojected, by simp, ?_⟩, by simp, by simp [hintent], by simp, fun _ => .root hkind⟩
  intro n hn
  simp only [hphase, stage, Option.some.injEq] at hn
  exact ⟨hprojected, hn, by simpa using hends⟩

omit [BodyVerifier V] in
/-- Accepting one object keeps the invariant, whichever path accepted it. -/
theorem Inv.accept {carrier : Carrier} {l : Ledger V} {selection body : List Entry}
    (h : Inv carrier l selection body) {x : Entry} {e' : Endpoint V}
    (haccept : Endpoint.Accepts x.object x.sender l.endpoint e') :
    ∃ selection' body', Inv carrier (⟨e', l.accepted ++ [x]⟩ : Ledger V) selection' body' := by
  have hlast : some x.record = (l.accepted ++ [x]).getLast?.map Entry.record := by simp
  cases haccept with
  | accountSelect hkind _ hsender hphase hnone =>
    have hempty : l.accepted = [] := by
      have := h.last
      rw [hnone] at this
      simpa using this.symm
    have hparts : selection = [] ∧ body = [] := by
      have := h.accepted
      rw [hempty] at this
      simpa using this.symm
    obtain ⟨rfl, rfl⟩ := hparts
    refine ⟨[x], [], h.carrier_eq, by simp [hempty], hlast, .inr ⟨x, rfl, hsender, hkind⟩,
      ⟨.inl projected_nil, by simp, ?_⟩, ?_, by simp, by simp, by simp⟩
    · intro n hn
      simp only [Endpoint.accept, stage, Option.some.injEq] at hn
      simpa [← hn] using projected_nil
    · simp [Endpoint.accept, hkind, h.unbound]
  | sentOffer hkind hsender _ hpre =>
    obtain ⟨-, hlen, -⟩ := h.ordered.staged 0 (stage_preOffer hpre)
    obtain rfl := List.length_eq_zero_iff.mp hlen
    exact ⟨selection, [x], h.offered hkind hsender rfl rfl rfl rfl⟩
  | receivedOffer hkind hsender _ hpre =>
    obtain ⟨-, hlen, -⟩ := h.ordered.staged 0 (stage_preOffer hpre)
    obtain rfl := List.length_eq_zero_iff.mp hlen
    refine ⟨selection, [x], h.offered hkind hsender rfl rfl ?_ rfl⟩
    simp [Endpoint.accept, hkind, h.unbound]
  | successor v next hsender hsucceeds =>
    obtain ⟨logical, last, hlogical, hceremony, hprevious, hpredecessor⟩ := hsucceeds.body
    have hintent := hsucceeds.intent
    have hne : body ≠ [] := by
      intro hnil
      simp [h.unbound hnil] at hintent
    -- the predecessor is the newest entry of the body, since the body is not empty
    obtain ⟨y, hy⟩ : ∃ y, body.getLast? = some y := ⟨_, List.getLast?_eq_getLast_of_ne_nil hne⟩
    have hrecord : last = y.record := by
      have := h.last
      rw [hprevious, h.accepted, List.getLast?_append_of_ne_nil _ hne, hy] at this
      simpa using this
    refine ⟨selection, body ++ [x], h.carrier_eq, by simp [h.accepted], hlast, h.selection,
      h.ordered.concat hsucceeds.open_ hne hsucceeds.step hsender, by simp, ?_, ?_, ?_⟩
    · intro z hz
      simp only [Endpoint.accept, hintent, Option.isNone_some, Bool.false_eq_true, false_and,
        if_false]
      rcases List.mem_append.mp hz with hz | hz
      · rw [← hintent, h.intent z hz]
      · rw [List.mem_singleton.mp hz]
    · intro z hz
      rw [List.tail_append_of_ne_nil hne] at hz
      rcases List.mem_append.mp hz with hz | hz
      · exact h.ceremony z hz
      · rw [List.mem_singleton.mp hz, ceremonyOf, hlogical]
        simp [Except.toOption, hceremony, h.carrier_eq]
    · intro _
      exact linked_concat (h.linked hne) hy hlogical (by rw [hpredecessor, hrecord]; rfl)

omit [BodyVerifier V] in
theorem Inv.refused {carrier : Carrier} {l : Ledger V} {selection body : List Entry}
    (h : Inv carrier l selection body) {e' : Endpoint V} (hrefused : l.endpoint.Refused e') :
    Inv carrier (⟨e', l.accepted⟩ : Ledger V) selection body := by
  obtain ⟨v, rfl | rfl⟩ := hrefused
  · exact ⟨h.carrier_eq, h.accepted, h.last, h.selection, h.ordered, h.unbound, h.intent,
      h.ceremony, h.linked⟩
  · exact ⟨h.carrier_eq, h.accepted, h.last, h.selection, h.ordered.terminal, h.unbound, h.intent,
      h.ceremony, h.linked⟩

omit [BodyVerifier V] in
theorem Inv.record {carrier : Carrier} {l : Ledger V} {selection body : List Entry} {x : Entry}
    (h : Inv carrier l selection body) {result : EStateM.Result Error (Endpoint V) Advance}
    (houtcome : l.endpoint.Outcome x.object x.sender result) :
    ∃ selection' body', Inv carrier (l.record x result) selection' body' := by
  cases houtcome with
  | retransmission => exact ⟨selection, body, h⟩
  | @accepted advance e' hne _ haccept =>
    have hinv := h.accept haccept
    cases advance with
    | exactRetransmission => exact absurd rfl hne
    | advanced => exact hinv
    | displayIntent => exact hinv
  | refused hrefused => exact ⟨selection, body, h.refused hrefused⟩

theorem Inv.step {carrier : Carrier} {l : Ledger V} {selection body : List Entry}
    (h : Inv carrier l selection body) (operation : Operation) :
    ∃ selection' body', Inv carrier (l.step operation) selection' body' := by
  cases operation with
  | send object => exact h.record (x := ⟨_, object⟩) (l.endpoint.apply_outcome object _)
  | receive object => exact h.record (x := ⟨_, object⟩) (l.endpoint.apply_outcome object _)
  | receiveOffer object check =>
    exact h.record (x := ⟨_, object⟩) (l.endpoint.receiveOffer_outcome object check)
  | recoverReceipt receipt authority =>
    -- no retransmission short cut here: the receipt is accepted or nothing changes
    unfold Ledger.step
    cases hresult : Operation.perform (.recoverReceipt receipt authority) l.endpoint with
    | ok advance e' =>
      obtain ⟨rfl, -, haccept⟩ := Endpoint.recoverReceipt_outcome hresult
      exact h.accept (x := ⟨.allocator, receipt⟩) haccept
    | error error e' =>
      obtain rfl := Endpoint.recoverReceipt_error hresult
      exact ⟨selection, body, h⟩

/-! ### Whole runs -/

omit [BodyVerifier V] in
theorem inv_new (side : Side) (carrier : Carrier) (bodyVerifier : V) :
    Inv carrier (new side carrier bodyVerifier) [] [] where
  carrier_eq := rfl
  accepted := rfl
  last := rfl
  selection := .inl rfl
  ordered := ⟨.inl projected_nil, by simp, fun n hn => ⟨projected_nil, Option.some.inj hn, by simp⟩⟩
  unbound _ := rfl
  intent := by simp
  ceremony := by simp
  linked := by simp

theorem inv_run (side : Side) (carrier : Carrier) (bodyVerifier : V)
    (operations : List Operation) :
    ∃ selection body, Inv carrier ((new side carrier bodyVerifier).run operations)
      selection body := by
  induction operations using List.reverseRecOn with
  | nil => exact ⟨[], [], inv_new side carrier bodyVerifier⟩
  | append_singleton operations operation ih =>
    obtain ⟨selection, body, h⟩ := ih
    simpa [run, List.foldl_append] using h.step operation

omit [BodyVerifier V] in
theorem Inv.offer_head {carrier : Carrier} {l : Ledger V} {selection body : List Entry}
    (h : Inv carrier l selection body) : body = [] ∨ ∃ offer rest, body = offer :: rest ∧
      offer.object.kind = .offer := by
  have hfirst {x : Entry} {rest : List Entry} (hprojected : Projected (x :: rest)) :
      x.object.kind = .offer := by
    rw [Projected, List.length_cons, projection, List.take_succ_cons, List.forall₂_cons] at hprojected
    simpa using hprojected.1.2
  cases body with
  | nil => exact .inl rfl
  | cons offer rest =>
    refine .inr ⟨offer, rest, rfl, ?_⟩
    rcases h.ordered.order with hprojected | ⟨before, refusal, hbody, -, hprojected, hpos, -⟩
    · exact hfirst hprojected
    · cases before with
      | nil => simp at hpos
      | cons first others =>
        obtain ⟨rfl, -⟩ : offer = first ∧ _ := by simpa using hbody
        exact hfirst hprojected

omit [BodyVerifier V] in
theorem Inv.parts {carrier : Carrier} {l : Ledger V} {selection body : List Entry}
    (h : Inv carrier l selection body) :
    beforeOffer l.accepted = selection ∧ fromOffer l.accepted = body := by
  have hselection : ∀ x ∈ selection, (x.object.kind != .offer) = true := by
    rcases h.selection with rfl | ⟨x, rfl, -, hkind⟩
    · simp
    · simp [hkind]
  rw [beforeOffer, fromOffer, h.accepted, List.takeWhile_append_of_pos hselection,
    List.dropWhile_append_of_pos hselection]
  rcases h.offer_head with rfl | ⟨offer, rest, rfl, hoffer⟩
  · simp
  · simp [hoffer]

omit [BodyVerifier V] in
theorem Inv.follows {carrier : Carrier} {l : Ledger V} {selection body : List Entry}
    (h : Inv carrier l selection body) : Follows carrier l.accepted := by
  obtain ⟨hbefore, hfrom⟩ := h.parts
  refine ⟨hbefore ▸ h.selection, hfrom ▸ h.ordered.order, ?_, ?_, hfrom ▸ h.ceremony,
    hfrom ▸ h.linked⟩
  · intro x hx
    rw [h.accepted] at hx
    have hx' : x ∈ selection ∨ x ∈ body.dropLast := by
      by_cases hnil : body = []
      · subst hnil
        exact .inl (List.dropLast_subset _ (by simpa using hx))
      · rw [List.dropLast_append_of_ne_nil hnil] at hx
        exact List.mem_append.mp hx
    rcases hx' with hx' | hx'
    · rcases h.selection with rfl | ⟨y, rfl, -, hkind⟩
      · simp at hx'
      · rw [List.mem_singleton.mp hx', hkind]
        rfl
    · exact h.ordered.closed x hx'
  · rw [hfrom]
    intro offer hoffer x hx
    have h1 := h.intent offer (List.mem_of_mem_head? hoffer)
    have h2 := h.intent x (List.mem_of_mem_tail hx)
    rw [h1] at h2
    exact (Option.some.inj h2).symm

omit [BodyVerifier V] in
/-- The last record of an endpoint past the Offer heads its linked objects. -/
theorem Inv.newest {carrier : Carrier} {l : Ledger V} {selection body : List Entry}
    (h : Inv carrier l selection body) {last : LastObject} (hlast : l.endpoint.last = some last)
    (hkind : last.kind ≠ .accountSelect) :
    body ≠ [] ∧ (body.map Entry.object).reverse.head?.map Object.contentHash =
      some last.contentHash := by
  have hrecorded := h.last
  rw [hlast, h.accepted] at hrecorded
  have hne : body ≠ [] := by
    rintro rfl
    rcases h.selection with rfl | ⟨x, rfl, -, hx⟩
    · simp at hrecorded
    · simp only [List.append_nil, List.getLast?_singleton, Option.map_some, Option.some.injEq]
        at hrecorded
      exact hkind (by rw [hrecorded]; exact hx)
  refine ⟨hne, ?_⟩
  rw [List.getLast?_append_of_ne_nil _ hne] at hrecorded
  obtain ⟨y, hy, hyrecord⟩ := Option.map_eq_some_iff.mp hrecorded.symm
  rw [List.head?_reverse, List.getLast?_map, hy, ← hyrecord]
  rfl

end Ledger
end CredentialV2
end CbclPairing
