import CbclPairing.Pairing.EndpointSteps
import CbclPairing.Runs

/-! What one operation on a live reducer can do: go on, fall, or be declined; and
which operations admit the Finished values and the opener that activate it. -/
namespace CbclPairing
namespace Pairing
open Codec Codec.Cbor Calls Wire

/-- An effect that carries application traffic. -/
def EndpointEffect.isTraffic : EndpointEffect → Bool
  | .sendFrame _ | .displayIntent _ | .deliverGrant _ => true
  | .closeMailbox => false

namespace EndpointReducer

variable [Cbcl] [Primitives] {π : Type} {s t u : EndpointReducer π}

/-! ### The operations that activate an endpoint -/

/-- The operation admits this endpoint's own Finished control as valid. -/
structure AdmitsFinished (pending : PendingChannel) (s : EndpointReducer π) (op : Operation) :
    Prop where
  operation : op = .localFinishedFrame
  live : s.terminal = none
  pinned : s.Pinned
  localFinished : s.localFinished = none
  pendingChannel : s.pendingChannel = some pending
  admitted : ∃ key monitor monitor' control admission,
    s.ceremonyKey = some key ∧ s.bootstrap = some monitor ∧
    buildBootstrapControl key (finishedPerformative s.side) s.ceremony pending.localFinished.val
      (.multiple [s.allocatorCpaceHash, s.claimantCpaceHash]) = .ok control ∧
    BootstrapMonitor.admitControl (finishedPerformative s.side) control pending.localFinished.val
      monitor = .ok admission monitor' ∧
    admission.verdict = .valid

/-- The operation presents a peer Finished frame, directly or once more. -/
def Presents (s : EndpointReducer π) (op : Operation) (frame : FinishedFrame) : Prop :=
  op = .receiveFrame frame.frame ∨ op = .retryPendingFinished ∧ s.pendingFinished = some frame

/-- The reducer confirms the peer's Finished value of a frame. -/
structure ConfirmsFrame (pending : PendingChannel) (s : EndpointReducer π)
    (frame : FinishedFrame) : Prop where
  live : s.terminal = none
  side : frame.side ≠ s.side
  localFinished : s.localFinished.isSome
  pendingChannel : s.pendingChannel = some pending
  channel : s.channel = none
  pinned : s.Pinned
  admitted : ∃ monitor monitor' admission, s.bootstrap = some monitor ∧
    BootstrapMonitor.admitControl (finishedPerformative frame.side) frame.control frame.value.val
      monitor = .ok admission monitor' ∧ admission.verdict = .valid
  value : frame.value = pending.peerFinished

/-- The operation confirms the peer's Finished value. -/
def Confirms (pending : PendingChannel) (s : EndpointReducer π) (op : Operation) : Prop :=
  ∃ frame, Presents s op frame ∧ ConfirmsFrame pending s frame

/-- The control is a role opener signed by the allocator's key, for exactly the two
keys. -/
def OpensUnder (allocator claimant : CeremonyKeyId) (control : Bytes) : Prop :=
  ∃ verified content, recogniseSignedControl control true = .ok verified ∧
    verified.signer = allocator ∧
    verified.message = .wrapped .withRoles (exactOpenerParams allocator claimant) content

theorem openForCeremony_opensUnder {ceremony control : Bytes} {role : PairingRole}
    {allocator claimant : CeremonyKeyId} {opened : SessionMonitor × Admission}
    (h : SessionMonitor.openForCeremony ceremony role allocator claimant control = .ok opened) :
    OpensUnder allocator claimant control := by
  unfold SessionMonitor.openForCeremony at h
  simp only [except_bind_eq_ok, Calls.guard_eq_ok, ne_eq, not_not] at h
  obtain ⟨_, -, _, -, verified, hverified, hsigner, _, -, params, hparams, hexact, -⟩ := h
  subst hexact
  refine ⟨verified, ?_⟩
  unfold roleParams at hparams
  split at hparams
  · rename_i content hmessage
    obtain rfl := Except.ok.inj hparams
    exact ⟨content, hverified, hsigner, hmessage⟩
  · cases hparams

/-- The operation opens the claimant's session with an opener under the two bound
keys. -/
structure AdmitsOpener (s : EndpointReducer π) (op : Operation) : Prop where
  live : s.terminal = none
  side : s.side = .claimant
  session : s.session = none
  admitted : ∃ frame channel channel' plaintextBytes control allocator claimant session admission,
    op = .receiveFrame frame ∧ s.channel = some channel ∧
    SecureChannel.openFrame frame channel = .ok plaintextBytes channel' ∧
    decodeSealedPlaintext plaintextBytes = .ok { control, body := none } ∧
    s.roleKey .allocator = some allocator ∧ s.roleKey .claimant = some claimant ∧
    SessionMonitor.openForCeremony s.ceremony .claimant allocator claimant control =
      .ok (session, admission) ∧
    admission.verdict = .valid ∧ OpensUnder allocator claimant control

/-! ### Pins -/

theorem pinned_of_keys (hexpected : t.expectedRoleKeys = s.expectedRoleKeys)
    (hkeys : ∀ role, t.roleKey role = s.roleKey role) (h : s.Pinned) : t.Pinned := by
  intro role
  have hrole := h role
  unfold mismatched at hrole ⊢
  rw [hexpected, hkeys role]
  exact hrole

theorem pinned_of_erased (h : Erased s) : s.Pinned := by
  intro role
  have hkey : s.roleKey role = none := by simp [roleKey, h.bootstrap]
  unfold mismatched
  rw [hkey]
  cases s.expectedRoleKeys (roleIndex role) <;> rfl

theorem Undisturbed.pinned (h : Undisturbed s t) (hpinned : s.Pinned) : t.Pinned :=
  pinned_of_keys h.expectedRoleKeys (fun role => by simp only [roleKey, h.bootstrap]) hpinned

/-! ### What one operation can do -/

/-- The reducer goes on. -/
structure Lives (op : Operation) (s t : EndpointReducer π) : Prop
    extends Kept s t, Unmarked s t where
  live : t.terminal = none
  pinned : s.Pinned → t.Pinned
  localFinished : t.localFinished = s.localFinished ∨ ∃ pending, AdmitsFinished pending s op
  channel : t.pendingChannel = s.pendingChannel ∧ t.channel.isSome = s.channel.isSome ∧
      t.record = s.record ∨
    ∃ pending, Confirms pending s op ∧ t.pendingChannel = none ∧ t.channel.isSome ∧
      t.record = s.record.spend
  session : t.session.isSome = s.session.isSome ∨
    s.side = .allocator ∧ (∃ pending, Confirms pending s op) ∨
    s.side = .claimant ∧ s.channel.isSome ∧ AdmitsOpener s op

/-- The reducer declined, or took the peer's decline. -/
inductive Declined (op : Operation) (s t : EndpointReducer π) : Prop
  | taken {frame : ChannelFrame} {digest : Octets 32} (hop : op = .receiveFrame frame)
      (hside : s.side = .allocator) (hdigest : channelFrameDigest frame = .ok digest)
      (hreplay : t.terminalReplayFrameDigest = some digest)
      (hcommitted : t.localDeclineCommitted = s.localDeclineCommitted)
  | given (hop : op = .decide .decline) (hside : s.side = .claimant)
      (hcommitted : t.localDeclineCommitted = true)
      (hreplay : t.terminalReplayFrameDigest = s.terminalReplayFrameDigest)

/-- What one operation on a live reducer can do. -/
inductive Step (op : Operation) (s t : EndpointReducer π) : Prop
  | lives (h : Lives op s t)
  | falls (h : Fallen s t)
  | declined (hkept : Kept s t) (hterminal : t.terminal = some .declined) (herased : Erased t)
      (h : Declined op s t)

theorem Undisturbed.lives {op : Operation} (hlive : s.terminal = none) (h : Undisturbed s t) :
    Lives op s t :=
  { h.toKept, h.toUnmarked with
    live := h.terminal.trans hlive
    pinned := h.pinned
    localFinished := .inl h.localFinished
    channel := .inl ⟨h.pendingChannel, h.channel, h.record⟩
    session := .inl h.session }

theorem Stays.step {op : Operation} (hlive : s.terminal = none) (h : Stays s t) : Step op s t :=
  h.elim (fun h => .lives (h.lives hlive)) .falls

/-- A reply that carries application traffic. -/
def Reply.Traffic : Reply → Prop
  | .effects emitted => ∃ e ∈ emitted, e.isTraffic = true
  | .frame _ => True
  | .verdict _ | .finished _ => False

/-- Traffic leaves a reducer whose session is open, or the allocator that opens it. -/
def Ready (s : EndpointReducer π) (op : Operation) : Prop :=
  s.session.isSome ∨ s.side = .allocator ∧ ∃ pending, Confirms pending s op

/-! ### Key confirmation -/

theorem admitBootstrapControl_meets (performative : BootstrapPerformative) (control body : Bytes)
    {op : Operation} (hlive : s.terminal = none) :
    (admitBootstrapControl performative control body).Meets (fun _ t => Step op s t)
      (fun _ t => Step op s t) s := by
  have hself := undisturbed_self s
  unfold admitBootstrapControl
  rw [meets_ensureLive_bind hlive, Call.meets_bind, meets_admitBootstrap]
  refine ⟨fun _ => hself.stays.step hlive, fun m _ => ?_⟩
  -- whatever the monitor answers, only the bootstrap history has changed
  have hfallen : ∀ m', Fallen s (terminate .protocolViolation { s with bootstrap := some m' }) :=
    fun m' => .of_terminate ⟨rfl, rfl, rfl, rfl⟩ ⟨rfl, rfl⟩ (by decide)
  refine Call.meets_iff.mpr ⟨fun admission m' _ => ?_, fun error m' _ => .falls (hfallen m')⟩
  simp only [Call.meets_ite, meets_fail, Call.meets_bind, meets_validateExpectedRoleKeys,
    Call.meets_pure]
  refine ⟨fun _ => .falls (hfallen m'), fun _ => ⟨fun _ => .falls (hfallen m'), fun hpinned => ?_⟩⟩
  exact .lives
    { hself.toKept, hself.toUnmarked with
      live := hlive
      pinned := fun _ => hpinned
      localFinished := .inl rfl
      channel := .inl ⟨rfl, rfl, rfl⟩
      session := .inl rfl }

/-- Only the bootstrap history moved, and it binds the same keys. -/
structure Rebooted (s t : EndpointReducer π) : Prop where
  keys : ∀ role, t.roleKey role = s.roleKey role
  others : ∃ bootstrap, t = { s with bootstrap := bootstrap }

theorem admitBootstrap_finished (side : Side) (control body : Bytes) (s : EndpointReducer π) :
    (admitBootstrap (finishedPerformative side) control body).Meets
      (fun verdict t => Rebooted s t ∧ ∀ admission, verdict = .ok admission →
        ∃ monitor monitor', s.bootstrap = some monitor ∧
          BootstrapMonitor.admitControl (finishedPerformative side) control body monitor =
            .ok admission monitor')
      (fun _ t => t = s) s := by
  rw [meets_admitBootstrap]
  refine ⟨fun _ => rfl, fun m hm => ?_⟩
  have hkeys := BootstrapMonitor.admitControl_finished_meets (finishedPerformative_isCpace side)
    control body m
  have hrole : ∀ m' : BootstrapMonitor, m'.roleKeys = m.roleKeys → ∀ role,
      ({ s with bootstrap := some m' } : EndpointReducer π).roleKey role = s.roleKey role := by
    intro m' h role
    simp only [roleKey, hm, Option.bind_some]
    cases role <;> simp only [BootstrapMonitor.roleKey, h]
  refine Call.meets_iff.mpr ⟨fun admission m' hadmit => ?_, fun error m' hadmit => ?_⟩
  · refine ⟨⟨hrole m' (hkeys.ok hadmit), some m', rfl⟩, ?_⟩
    rintro _ ⟨⟩
    exact ⟨m, m', hm, hadmit⟩
  · refine ⟨⟨hrole m' (hkeys.error hadmit), some m', rfl⟩, ?_⟩
    rintro _ ⟨⟩

theorem localFinishedFrame_meets (hlive : s.terminal = none) :
    localFinishedFrame.Meets (fun _ t => Step .localFinishedFrame s t)
      (fun _ t => Step .localFinishedFrame s t) s := by
  have hself := undisturbed_self s
  have hstays : Step .localFinishedFrame s s := hself.stays.step hlive
  unfold localFinishedFrame
  rw [meets_ensureLive_bind hlive, Call.meets_bind, meets_validateExpectedRoleKeys]
  refine ⟨fun _ => .falls (hself.fallen (by decide)), fun hpinned => ?_⟩
  rw [Call.meets_bind, Call.meets_get]
  cases hlocal : s.localFinished with
  | some frame => exact hstays
  | none =>
    simp only [Call.meets_bind, Call.meets_orThrow, Call.meets_ofExcept]
    refine ⟨fun pending hpending => ⟨fun key hkey => ⟨fun control hcontrol => ?_,
      fun _ _ => hstays⟩, fun _ => hstays⟩, fun _ => hstays⟩
    refine (admitBootstrap_finished s.side control pending.localFinished.val s).mono ?_
      fun _ _ h => h ▸ hstays
    rintro verdict t ⟨⟨hkeys, bootstrap, rfl⟩, hadmitted⟩
    have hfallen : Fallen s (terminate .protocolViolation { s with bootstrap := bootstrap }) :=
      .of_terminate ⟨rfl, rfl, rfl, rfl⟩ ⟨rfl, rfl⟩ (by decide)
    have hlives : Lives .localFinishedFrame s { s with bootstrap := bootstrap } :=
      { hself.toKept, hself.toUnmarked with
        live := hlive
        pinned := pinned_of_keys rfl hkeys
        localFinished := .inl rfl
        channel := .inl ⟨rfl, rfl, rfl⟩
        session := .inl rfl }
    rcases verdict with _ | admission
    · exact .falls hfallen
    dsimp only
    cases hvalid : admission.verdict with
    | unknown => exact .lives hlives
    | violation => exact .falls hfallen
    | valid =>
      obtain ⟨monitor, monitor', hmonitor, hadmit⟩ := hadmitted admission rfl
      have hadmits : AdmitsFinished pending s .localFinishedFrame :=
        { operation := rfl, live := hlive, pinned := hpinned, localFinished := hlocal
          pendingChannel := hpending
          admitted := ⟨key, monitor, monitor', control, admission, hkey, hmonitor,
            mapError_eq_ok.mp hcontrol, hadmit, hvalid⟩ }
      exact .lives { hlives with pinned := hlives.pinned, localFinished := .inr ⟨pending, hadmits⟩ }

/-- The peer's value was good: the invitation is spent, and the channel is there as
long as the reducer lives. -/
structure Confirmed (s t : EndpointReducer π) : Prop extends Kept s t, Unmarked s t where
  record : t.record = s.record.spend
  bootstrap : t.bootstrap = s.bootstrap
  pendingChannel : t.pendingChannel = none
  channel : t.channel.isSome
  localFinished : t.localFinished = s.localFinished
  terminal : t.terminal = s.terminal
  session : t.session.isSome = s.session.isSome ∨ s.side = .allocator

omit [Primitives] in
theorem Confirmed.then (h : Confirmed s t) (h' : Undisturbed t u) : Confirmed s u :=
  { h.toKept.trans h'.toKept, h.toUnmarked.trans h'.toUnmarked with
    record := h'.record.trans h.record
    bootstrap := h'.bootstrap.trans h.bootstrap
    pendingChannel := h'.pendingChannel.trans h.pendingChannel
    channel := h'.channel.trans h.channel
    localFinished := h'.localFinished.trans h.localFinished
    terminal := h'.terminal.trans h.terminal
    session := h.session.imp_left h'.session.trans }

/-- Once the channel is there the allocator opens the session; a refusal of the
opener leaves the confirmed channel. -/
theorem openAllocatorSession_meets (hside : s.side = .allocator) (h : Confirmed s t) :
    openAllocatorSession.Meets (fun _ u => Confirmed s u)
      (fun _ u => Confirmed s u ∨ Fallen s u) t := by
  unfold openAllocatorSession
  simp only [Call.meets_bind, Call.meets_get, Call.meets_orThrow, Call.meets_ofExcept,
    Call.meets_ite, meets_fail, Call.meets_modify, Call.meets_pure]
  refine ⟨fun allocator _ => ⟨fun claimant _ => ⟨fun key _ => ⟨fun opener _ =>
    ⟨fun opened _ => ?_, fun _ _ => .inl h⟩,
    fun _ _ => .inl h⟩, fun _ => .inl h⟩, fun _ => .inl h⟩, fun _ => .inl h⟩
  obtain ⟨session, admission⟩ := opened
  refine ⟨fun _ => ?_, fun _ => ?_⟩
  · exact .inr (.of_terminate h.toKept h.toUnmarked (by decide))
  · have hopened : Confirmed s { t with session := some session } :=
      { h with session := .inr hside }
    refine (sealControl_meets opener none _).mono (fun _ _ h' => hopened.then h') ?_
    rintro _ u (h' | h')
    · exact .inl (hopened.then h')
    · exact .inr (h'.after hopened.toKept hopened.toUnmarked)

theorem confirmPeer_meets {pending : PendingChannel} {value : Octets 64} :
    (confirmPeer pending value).Meets
      (fun emitted t => Confirmed s t ∧ value = pending.peerFinished ∧
        ((∃ e ∈ emitted, e.isTraffic = true) → s.side = .allocator))
      (fun _ t => Fallen s t ∨ Confirmed s t ∧ value = pending.peerFinished) s := by
  unfold confirmPeer
  rw [Call.meets_bind, Call.meets_modify]
  cases hconfirm : pending.confirm value.val with
  | error e => exact .inl (.of_terminate ⟨rfl, rfl, rfl, rfl⟩ ⟨rfl, rfl⟩ (by decide))
  | ok channel =>
    have hvalue := PendingChannel.confirm_isOk.mp ⟨channel, hconfirm⟩
    simp only [Call.meets_bind, Call.meets_modify, Call.meets_get, Call.meets_ite,
      Call.meets_pure]
    have hconfirmed : Confirmed s
        { s with
          pendingFinished := none, pendingChannel := none, channel := some channel
          record := s.record.spend } :=
      { kept_self s with
        localDeclineCommitted := rfl, replay := rfl, record := rfl, bootstrap := rfl
        pendingChannel := rfl, channel := rfl, localFinished := rfl, terminal := rfl
        session := .inl rfl }
    refine ⟨fun hside => ?_, fun _ => ⟨hconfirmed, hvalue, (by rintro ⟨_, h, _⟩; cases h)⟩⟩
    exact (openAllocatorSession_meets hside hconfirmed).mono
      (fun _ _ h => ⟨h, hvalue, fun _ => hside⟩)
      fun _ _ h => h.symm.imp_right fun h => ⟨h, hvalue⟩

theorem receiveFinished_meets {op : Operation} {frame : FinishedFrame}
    (hpresents : Presents s op frame) (hlive : s.terminal = none) :
    (receiveFinished frame).Meets
      (fun emitted t => Step op s t ∧ ((∃ e ∈ emitted, e.isTraffic = true) → Ready s op))
      (fun _ t => Step op s t) s := by
  have hself := undisturbed_self s
  have hfalls : Step op s (terminate .protocolViolation s) := .falls (hself.fallen (by decide))
  unfold receiveFinished
  simp only [Call.meets_bind, Call.meets_get, Call.meets_ite, meets_fail]
  refine ⟨fun _ => hfalls, fun hside => ⟨fun _ => hfalls, fun hfinished => ?_⟩⟩
  rcases hpending : s.pendingChannel with _ | pending
  · exact hfalls
  rcases hchannel : s.channel with _ | channel
  swap
  · exact hfalls
  simp only [Call.meets_bind, meets_validateExpectedRoleKeys]
  refine ⟨fun _ => hfalls, fun hpinned => ?_⟩
  refine (admitBootstrap_finished frame.side frame.control frame.value.val s).mono ?_ ?_
  swap
  · rintro _ _ rfl
    exact hself.stays.step hlive
  rintro verdict t ⟨⟨hkeys, bootstrap, rfl⟩, hadmitted⟩
  have hkept : Kept s { s with bootstrap := bootstrap } := ⟨rfl, rfl, rfl, rfl⟩
  have hfallen : Fallen s (terminate .protocolViolation { s with bootstrap := bootstrap }) :=
    .of_terminate hkept ⟨rfl, rfl⟩ (by decide)
  rcases verdict with _ | admission
  · exact .falls hfallen
  dsimp only
  cases hvalid : admission.verdict with
  | violation => exact .falls hfallen
  | unknown =>
    simp only [Call.meets_ite, meets_fail, Call.meets_bind, Call.meets_modify, Call.meets_pure]
    refine ⟨fun _ => .falls hfallen, fun _ => ⟨.lives ?_, (by rintro ⟨_, h, _⟩; cases h)⟩⟩
    exact
      { hself.toKept, hself.toUnmarked with
        live := hlive
        pinned := pinned_of_keys rfl hkeys
        localFinished := .inl rfl
        channel := .inl ⟨rfl, rfl, rfl⟩
        session := .inl rfl }
  | valid =>
    obtain ⟨monitor, monitor', hmonitor, hadmit⟩ := hadmitted admission rfl
    have hconfirms : frame.value = pending.peerFinished → ∃ pending, Confirms pending s op :=
      fun hvalue => ⟨pending, frame, hpresents,
        { live := hlive, side := hside
          localFinished := Option.isSome_iff_ne_none.mpr (by simpa using hfinished)
          pendingChannel := hpending, channel := hchannel, pinned := hpinned
          admitted := ⟨monitor, monitor', admission, hmonitor, hadmit, hvalid⟩, value := hvalue }⟩
    have hlives : ∀ {u}, Confirmed { s with bootstrap := bootstrap } u →
        frame.value = pending.peerFinished → Step op s u := by
      intro u h hvalue
      obtain ⟨expected, hconfirm⟩ := hconfirms hvalue
      refine .lives
        { hkept.trans h.toKept with
          localDeclineCommitted := h.localDeclineCommitted, replay := h.replay
          live := h.terminal.trans hlive
          pinned := pinned_of_keys h.expectedRoleKeys fun role => ?_
          localFinished := .inl h.localFinished
          channel := .inr ⟨expected, hconfirm, h.pendingChannel, h.channel, h.record⟩
          session := h.session.imp_right fun hallocator => .inl ⟨hallocator, expected, hconfirm⟩ }
      rw [← hkeys role]
      simp only [roleKey, h.bootstrap]
    refine confirmPeer_meets.mono ?_ ?_
    · rintro emitted u ⟨h, hvalue, htraffic⟩
      exact ⟨hlives h hvalue, fun he => .inr ⟨htraffic he, hconfirms hvalue⟩⟩
    · rintro _ u (h | ⟨h, hvalue⟩)
      · exact .falls (h.after hkept ⟨rfl, rfl⟩)
      · exact hlives h hvalue

/-! ### Sealed frames -/

theorem openChannel_meets (frame : ChannelFrame) (s : EndpointReducer π) :
    (openChannel frame).Meets
      (fun verdict t => ∃ channel channel', s.channel = some channel ∧
        t = { s with channel := some channel' } ∧ ∀ plaintextBytes, verdict = .ok plaintextBytes →
          SecureChannel.openFrame frame channel = .ok plaintextBytes channel')
      (fun _ t => t = s) s := by
  simp only [openChannel, Call.meets_zoom?, Call.meets_attempt]
  refine ⟨fun _ => trivial, fun channel hchannel => ?_⟩
  refine Call.meets_iff.mpr ⟨fun plaintextBytes channel' hopen => ?_, fun error channel' _ => ?_⟩
  · refine ⟨channel, channel', hchannel, rfl, ?_⟩
    rintro _ ⟨⟩
    exact hopen
  · refine ⟨channel, channel', hchannel, rfl, ?_⟩
    rintro _ ⟨⟩

/-- An opener that is accepted was checked against the two bound keys. -/
theorem receiveOpener_meets (plaintext : SealedPlaintext) (s : EndpointReducer π) :
    (receiveOpener plaintext).Meets
      (fun emitted t => emitted = [] ∧ s.side = .claimant ∧ plaintext.body = none ∧
        ∃ allocator claimant session admission, s.roleKey .allocator = some allocator ∧
          s.roleKey .claimant = some claimant ∧
          SessionMonitor.openForCeremony s.ceremony .claimant allocator claimant
            plaintext.control = .ok (session, admission) ∧
          admission.verdict = .valid ∧ t = { s with session := some session })
      (fun _ t => Stays s t) s := by
  have hself := undisturbed_self s
  unfold receiveOpener
  simp only [Call.meets_bind, Call.meets_get, Call.meets_ite, meets_fail, Call.meets_orThrow,
    not_or, ne_eq, not_not, Option.not_isSome_iff_eq_none]
  refine ⟨fun _ => .inr (hself.fallen (by decide)), fun hcall =>
    ⟨fun allocator hallocator => ⟨fun claimant hclaimant => ?_, fun _ => hself.stays⟩,
      fun _ => hself.stays⟩⟩
  obtain ⟨hside, hbody⟩ := hcall
  rcases hopen : SessionMonitor.openForCeremony s.ceremony .claimant allocator claimant
    plaintext.control with _ | ⟨session, admission⟩
  · exact .inr (hself.fallen (by decide))
  simp only [Call.meets_ite, meets_fail, Call.meets_bind, Call.meets_modify, Call.meets_pure,
    not_not]
  refine ⟨fun _ => .inr (hself.fallen (by decide)), fun hvalid => ⟨trivial, hside, hbody, ?_⟩⟩
  exact ⟨allocator, claimant, session, admission, hallocator, hclaimant, hopen, hvalid, rfl⟩

section Profile

variable [ApplicationProfile π]

theorem receiveApplication_meets {frame : ChannelFrame} {frameDigest : Octets 32}
    (hdigest : channelFrameDigest frame = .ok frameDigest) (plaintext : SealedPlaintext)
    (hlive : s.terminal = none) (hundisturbed : Undisturbed s t) :
    (receiveApplication plaintext frameDigest).Meets (fun _ u => Step (.receiveFrame frame) s u)
      (fun _ u => Step (.receiveFrame frame) s u) t := by
  have hstays : ∀ {u}, Stays t u → Step (.receiveFrame frame) s u :=
    fun h => (hundisturbed.then h).step hlive
  have hself := undisturbed_self t
  unfold receiveApplication
  rcases plaintext.body with _ | body
  · exact hstays (.inr (hself.fallen (by decide)))
  dsimp only
  rcases decodeApplication body with _ | decoded
  · exact hstays (.inr (hself.fallen (by decide)))
  simp only [Call.meets_bind, Call.meets_modify, Call.meets_pure]
  refine (admitApplication_meets plaintext decoded t).mono ?_ fun _ _ h => hstays h
  rintro emitted u (h | ⟨h, -⟩)
  · have hterminal : u.terminal = none := (h.terminal.trans hundisturbed.terminal).trans hlive
    rw [hterminal, if_neg (by decide)]
    exact hstays h.stays
  · rw [h.terminal, if_pos rfl]
    refine .declined (hundisturbed.toKept.trans { h.toKept with }) rfl { h.erased with } ?_
    exact .taken rfl (hundisturbed.side.symm.trans h.allocator) hdigest rfl
      (h.localDeclineCommitted.trans hundisturbed.localDeclineCommitted)

theorem receiveSealed_meets (frame : ChannelFrame) (hlive : s.terminal = none) :
    (receiveSealed frame).Meets
      (fun emitted t => Step (.receiveFrame frame) s t ∧
        ((∃ e ∈ emitted, e.isTraffic = true) → Ready s (.receiveFrame frame)))
      (fun _ t => Step (.receiveFrame frame) s t) s := by
  unfold receiveSealed
  simp only [Call.meets_bind, Call.meets_ofExcept]
  refine ⟨fun frameDigest hdigest => ?_, fun _ _ => (undisturbed_self s).stays.step hlive⟩
  refine (openChannel_meets frame s).mono ?_ ?_
  swap
  · rintro _ _ rfl
    exact (undisturbed_self _).stays.step hlive
  rintro verdict t ⟨channel, channel', hchannel, rfl, hopened⟩
  have hsome : s.channel.isSome := by rw [hchannel]; rfl
  have hundisturbed := undisturbed_channel channel' hsome
  have hstays : ∀ {u}, Stays _ u → Step (.receiveFrame frame) s u :=
    fun h => (hundisturbed.then h).step hlive
  rcases verdict with _ | plaintextBytes
  · exact .falls (hundisturbed.fallen (by decide))
  dsimp only
  rcases hplaintext : decodeSealedPlaintext plaintextBytes with _ | plaintext
  · exact .falls (hundisturbed.fallen (by decide))
  simp only [Call.meets_bind, Call.meets_get, Call.meets_ite]
  refine ⟨fun hsession => ?_, fun hsession => ?_⟩
  · refine (receiveOpener_meets plaintext _).mono ?_ fun _ _ => hstays
    rintro emitted u ⟨rfl, hside, hbody, allocator, claimant, session, admission, hallocator,
      hclaimant, hopen, hvalid, rfl⟩
    refine ⟨.lives ?_, (by rintro ⟨_, h, _⟩; cases h)⟩
    have hplain : plaintext = { control := plaintext.control, body := none } := by
      rw [← hbody]
    have hadmits : AdmitsOpener s (.receiveFrame frame) :=
      { live := hlive, side := hside, session := Option.isNone_iff_eq_none.mp hsession
        admitted := ⟨frame, channel, channel', plaintextBytes, plaintext.control, allocator,
          claimant, session, admission, rfl, hchannel, hopened _ rfl, hplain ▸ hplaintext,
          hallocator, hclaimant, hopen, hvalid, openForCeremony_opensUnder hopen⟩ }
    exact
      { hundisturbed.toKept, hundisturbed.toUnmarked with
        live := hlive
        pinned := hundisturbed.pinned
        localFinished := .inl rfl
        channel := .inl ⟨rfl, hsome.symm, rfl⟩
        session := .inr (.inr ⟨hside, hsome, hadmits⟩) }
  · have hready : Ready s (.receiveFrame frame) :=
      .inl (Option.isSome_iff_ne_none.mpr (by simpa using hsession))
    exact (receiveApplication_meets hdigest plaintext hlive hundisturbed).mono
      (fun _ _ h => ⟨h, fun _ => hready⟩) fun _ _ => id

/-! ### Local calls -/

theorem sendIntent_meets (intent : PairingIntent) (hlive : s.terminal = none) :
    (sendIntent intent).Meets (fun _ t => s.session.isSome ∧ Undisturbed s t)
      (fun _ t => Stays s t) s := by
  have hself := undisturbed_self s
  unfold sendIntent
  rw [meets_ensureLive_bind hlive]
  simp only [Call.meets_bind, Call.meets_get, Call.meets_ite, Call.meets_throw, meets_fail]
  refine ⟨fun _ => hself.stays, fun _ => ⟨fun _ => .inr (hself.fallen (by decide)), fun _ => ?_⟩⟩
  refine (recogniseIntent_meets intent s).mono ?_ fun _ _ => False.elim
  rintro verdict t ⟨profile, rfl⟩
  have hasked : Undisturbed s { s with profile } := { hself with }
  rcases verdict with _ | ⟨_, profileBinding⟩
  · exact hasked.stays
  simp only [Call.meets_bind, Call.meets_ofExcept, Call.meets_orThrow, Call.meets_modify,
    Call.meets_pure]
  refine ⟨fun body _ => ⟨fun session _ => ⟨fun claimant _ => ⟨fun key _ => ⟨fun control _ => ?_,
    fun _ _ => hasked.stays⟩, fun _ => hasked.stays⟩, fun _ => hasked.stays⟩,
    fun _ => hasked.stays⟩, fun _ _ => hasked.stays⟩
  refine (admitLocalSession_meets _ control body _).mono ?_ fun _ _ h => hasked.then h
  rintro controlHash t ⟨hsession, hadmitted⟩
  have hadmitted := hasked.trans hadmitted
  refine (sealControl_meets control (some body) t).mono ?_ fun _ _ h => hadmitted.then h
  intro frame u hsealed
  exact ⟨hsession, { hadmitted.trans hsealed with }⟩

theorem sendPayload_meets (payload : ApplicationPayload) (hlive : s.terminal = none) :
    (sendPayload payload).Meets (fun _ t => s.session.isSome ∧ Undisturbed s t)
      (fun _ t => Stays s t) s := by
  have hself := (undisturbed_self s).stays
  unfold sendPayload
  rw [meets_ensureLive_bind hlive]
  simp only [Call.meets_bind, Call.meets_get, Call.meets_ite, Call.meets_throw,
    Call.meets_orThrow, Call.meets_ofExcept, Call.meets_modify, Call.meets_pure]
  refine ⟨fun _ => hself, fun _ => ⟨fun intent _ => ⟨fun decision _ => ⟨fun _ => hself, fun _ =>
    ⟨fun _ => hself, fun _ => ⟨fun _ => hself, fun _ => ⟨fun _ _ => ⟨fun body _ =>
    ⟨fun claimant _ => ⟨fun key _ => ⟨fun control _ => ?_, fun _ _ => hself⟩, fun _ => hself⟩,
    fun _ => hself⟩, fun _ _ => hself⟩, fun _ _ => hself⟩⟩⟩⟩, fun _ => hself⟩, fun _ => hself⟩⟩
  refine (admitLocalSession_meets .payload control body s).mono ?_ fun _ _ => id
  rintro controlHash t ⟨hsession, hadmitted⟩
  refine (sealControl_meets control (some body) t).mono ?_ fun _ _ h => hadmitted.then h
  intro frame u hsealed
  exact ⟨hsession, { hadmitted.trans hsealed with }⟩

omit [ApplicationProfile π] in
theorem commitDecision_meets (decision : Decision) (intent : IntentRecord)
    (hlive : s.terminal = none) (hside : s.side = .claimant) :
    (commitDecision decision intent).Meets
      (fun _ t => s.session.isSome ∧ Step (.decide decision) s t)
      (fun _ t => Step (.decide decision) s t) s := by
  have hself : Step (.decide decision) s s := (undisturbed_self s).stays.step hlive
  unfold commitDecision
  simp only [Call.meets_bind, Call.meets_get, Call.meets_orThrow, Call.meets_ofExcept,
    Call.meets_modify]
  refine ⟨fun body _ => ⟨fun allocator _ => ⟨fun key _ => ⟨fun control _ => ?_,
    fun _ _ => hself⟩, fun _ => hself⟩, fun _ => hself⟩, fun _ _ => hself⟩
  refine (admitLocalSession_meets _ control body s).mono ?_ fun _ _ h => h.step hlive
  rintro controlHash t ⟨hsession, hadmitted⟩
  refine (sealControl_meets control (some body) t).mono ?_
    fun _ _ h => (hadmitted.then h).step hlive
  intro frame u hsealed
  have hcommitted : Undisturbed s u := hadmitted.trans hsealed
  cases decision with
  | approve =>
    have hdecided : Undisturbed s { u with decision := some ⟨.approve, controlHash⟩ } :=
      { hcommitted with decision := fun _ => rfl }
    exact ⟨hsession, hdecided.stays.step hlive⟩
  | decline =>
    refine ⟨hsession, .declined { hcommitted.toKept with } rfl (terminate_erased _ _) ?_⟩
    exact .given rfl hside rfl hcommitted.replay

omit [ApplicationProfile π] in
theorem decide_meets (decision : Decision) (hlive : s.terminal = none) :
    (decide decision).Meets
      (fun emitted t => Step (.decide decision) s t ∧ (emitted = [] ∨ s.session.isSome))
      (fun _ t => Step (.decide decision) s t) s := by
  have hself := undisturbed_self s
  unfold EndpointReducer.decide
  simp only [Call.meets_bind, Call.meets_get]
  rw [hlive, if_neg (by decide)]
  simp only [Call.meets_ite, Call.meets_throw]
  refine ⟨fun _ => hself.stays.step hlive, fun hside => ?_⟩
  rcases s.decision with _ | existing
  · simp only [Call.meets_bind, Call.meets_orThrow]
    refine ⟨fun intent _ => ?_, fun _ => hself.stays.step hlive⟩
    exact (commitDecision_meets decision intent hlive (not_not.mp hside)).mono
      (fun _ _ h => ⟨h.2, .inr h.1⟩) fun _ _ => id
  · dsimp only
    split_ifs
    · exact ⟨hself.stays.step hlive, .inl rfl⟩
    · exact .falls (hself.fallen (by decide))

theorem receiveFrame_meets (frame : ChannelFrame) (hlive : s.terminal = none) :
    (receiveFrame frame).Meets
      (fun emitted t => Step (.receiveFrame frame) s t ∧
        ((∃ e ∈ emitted, e.isTraffic = true) → Ready s (.receiveFrame frame)))
      (fun _ t => Step (.receiveFrame frame) s t) s := by
  unfold receiveFrame
  simp only [Call.meets_bind, Call.meets_get]
  rw [hlive, if_neg (by decide)]
  cases frame with
  | cpace side control message => exact .falls ((undisturbed_self s).fallen (by decide))
  | finished side control value => exact receiveFinished_meets (.inl rfl) hlive
  | «sealed» direction counter ciphertext => exact receiveSealed_meets _ hlive

/-- What one operation on a live reducer can do, and what its reply says. -/
theorem run_live (op : Operation) (hlive : s.terminal = none) :
    (run op).Meets (fun reply t => Step op s t ∧ (reply.Traffic → Ready s op))
      (fun _ t => Step op s t) s := by
  have hself := undisturbed_self s
  cases op with
  | admitBootstrapControl performative control body =>
    rw [run, Call.meets_map]
    exact (admitBootstrapControl_meets performative control body hlive).mono
      (fun _ _ h => ⟨h, False.elim⟩) fun _ _ => id
  | localFinishedFrame =>
    rw [run, Call.meets_map]
    exact (localFinishedFrame_meets hlive).mono (fun _ _ h => ⟨h, False.elim⟩) fun _ _ => id
  | receiveFrame frame =>
    rw [run, Call.meets_map]
    exact receiveFrame_meets frame hlive
  | cancel =>
    rw [run, Call.meets_map, cancel, meets_ensureLive_bind hlive]
    refine ⟨.falls (hself.fallen (by decide)), ?_⟩
    rintro ⟨e, he, htraffic⟩
    obtain rfl := List.mem_singleton.mp he
    cases htraffic
  | relayClosed reason =>
    rw [run, Call.meets_map, relayClosed, meets_ensureLive_bind hlive]
    refine ⟨.falls (hself.fallen (by cases reason <;> decide)), ?_⟩
    rintro ⟨e, he, htraffic⟩
    obtain rfl := List.mem_singleton.mp he
    cases htraffic
  | retryPendingFinished =>
    rw [run, Call.meets_map, retryPendingFinished, meets_ensureLive_bind hlive, Call.meets_bind,
      Call.meets_get]
    rcases hpending : s.pendingFinished with _ | frame
    · exact ⟨hself.stays.step hlive, (by rintro ⟨_, h, _⟩; cases h)⟩
    · exact receiveFinished_meets (.inr ⟨rfl, hpending⟩) hlive
  | sendIntent intent =>
    rw [run, Call.meets_map]
    exact (sendIntent_meets intent hlive).mono
      (fun _ _ h => ⟨h.2.stays.step hlive, fun _ => .inl h.1⟩) fun _ _ h => h.step hlive
  | decide decision =>
    rw [run, Call.meets_map]
    refine (decide_meets decision hlive).mono ?_ fun _ _ => id
    rintro emitted t ⟨hstep, rfl | hsession⟩
    · exact ⟨hstep, (by rintro ⟨_, h, _⟩; cases h)⟩
    · exact ⟨hstep, fun _ => .inl hsession⟩
  | sendPayload payload =>
    rw [run, Call.meets_map]
    exact (sendPayload_meets payload hlive).mono
      (fun _ _ h => ⟨h.2.stays.step hlive, fun _ => .inl h.1⟩) fun _ _ h => h.step hlive

/-! ### After the end -/

omit [Primitives] [ApplicationProfile π] in
theorem ensureLive_over {reason : TerminalReason} (hover : s.terminal = some reason) :
    ensureLive s = .error .terminal s := by
  unfold ensureLive
  rw [Call.run_bind (Call.run_get s), hover, if_pos Option.isSome_some, Call.run_throw]

theorem receiveFrame_over {reason : TerminalReason} (frame : ChannelFrame)
    (hover : s.terminal = some reason) :
    receiveFrame frame s = if reason = .declined ∧ s.replays frame then .ok [] s
      else .error .terminal s := by
  unfold receiveFrame
  rw [Call.run_bind (Call.run_get s), hover, if_pos Option.isSome_some]
  simp only [Option.some.injEq]
  split_ifs <;> rfl

omit [ApplicationProfile π] in
theorem decide_over {reason : TerminalReason} (decision : Decision)
    (hover : s.terminal = some reason) :
    decide decision s = if reason = .declined ∧ s.localDeclineCommitted ∧ decision = .decline then
      .ok [] s else .error .terminal s := by
  unfold EndpointReducer.decide
  rw [Call.run_bind (Call.run_get s), hover, if_pos Option.isSome_some]
  simp only [Option.some.injEq]
  split_ifs <;> rfl

/-- A reducer that is over answers without changing anything. -/
theorem run_over {reason : TerminalReason} (op : Operation) (hover : s.terminal = some reason) :
    run op s = .error .terminal s ∨ reason = .declined ∧ run op s = .ok (.effects []) s ∧
      ((∃ frame, op = .receiveFrame frame ∧ s.replays frame) ∨
        op = .decide .decline ∧ s.localDeclineCommitted = true) := by
  have hensured : ∀ {α β : Type} (f : α → β) (g : PUnit → Call ReducerError (EndpointReducer π) α),
      (f <$> (ensureLive >>= g)) s = .error .terminal s := by
    intro α β f g
    have hbind : (ensureLive >>= g) s = .error .terminal s :=
      Call.run_bind_error (ensureLive_over hover)
    simp only [Functor.map, EStateM.map, hbind]
  cases op with
  | receiveFrame frame =>
    simp only [run, Functor.map, EStateM.map, receiveFrame_over frame hover]
    split_ifs with h
    · exact .inr ⟨h.1, rfl, .inl ⟨frame, rfl, h.2⟩⟩
    · exact .inl rfl
  | decide decision =>
    simp only [run, Functor.map, EStateM.map, decide_over decision hover]
    split_ifs with h
    · exact .inr ⟨h.1, rfl, .inr ⟨h.2.2 ▸ rfl, h.2.1⟩⟩
    · exact .inl rfl
  | _ => exact .inl (hensured _ _)

end Profile

end EndpointReducer
end Pairing
end CbclPairing
