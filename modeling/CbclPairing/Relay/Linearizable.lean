import CbclPairing.Relay.ProcessRuns
import CbclPairing.Wire.ServerReplies

/-! The relay process is linearizable: its threads call the service as one sequential
caller would, and each connection gets its own requests through in its own order. -/
namespace CbclPairing
open Codec Calls Tables

namespace History

variable {h more : History} {c : ConnectionId} {thread : ThreadId}

@[simp] theorem arrivedAt_append : arrivedAt (h ++ more) c = h.arrivedAt c ++ arrivedAt more c :=
  List.flatMap_append

@[simp] theorem readAt_append : readAt (h ++ more) c = h.readAt c ++ readAt more c :=
  List.filterMap_append

@[simp] theorem answers_append : answers (h ++ more) = h.answers ++ answers more :=
  List.filterMap_append

@[simp] theorem calls_append : calls (h ++ more) = h.calls ++ calls more := by
  simp [calls]

@[simp] theorem callsBy_append :
    callsBy (h ++ more) thread = h.callsBy thread ++ callsBy more thread :=
  List.filterMap_append

@[simp] theorem asksAt_append : asksAt (h ++ more) c = h.asksAt c ++ asksAt more c := by
  rw [asksAt, readAt_append, List.filterMap_append]
  rfl

end History

namespace RelayProcess

variable {s₀ s' : RelayService} {p p' : RelayProcess}
  {h : History} {events : List ProcessEvent} {thread : ThreadId} {call : RelayCall}
  {messages : List RoutedMessage} {c : ConnectionId} {t t' : Connection}

/-! ### One caller -/

section Calls

variable [Primitives] [PeerAddresses]

/-- The service is as one caller after another leaves it, and has answered as to one. -/
structure Serves (s₀ : RelayService) (h : History) (p : RelayProcess) : Prop where
  sane : p.poisoned = false
  service : p.service = Runs.after RelayService.serve s₀ h.calls
  answered : h.answers = (Runs.trace RelayService.serve s₀ h.calls).map answerOf

theorem Serves.sound (hs : Serves s₀ h p) (hstart : s₀.relay.Sound) : p.service.relay.Sound := by
  rw [hs.service, (RelayService.run_relay s₀ h.calls).2]
  exact Relay.run_sound hstart h.calls

/-- No call is made. -/
theorem Serves.quiet (hs : Serves s₀ h p) (halike : p'.poisoned = p.poisoned ∧
    p'.service = p.service) (hnone : History.answers events = []) :
    Serves s₀ (h ++ events) p' := by
  have hcalls : History.calls (h ++ events) = h.calls := by
    simp [History.calls, hnone]
  refine ⟨halike.1.trans hs.sane, ?_, ?_⟩
  · rw [halike.2, hcalls, hs.service]
  · rw [hcalls, History.answers_append, hnone, List.append_nil, hs.answered]

/-- A call is made and settled. -/
theorem Serves.calls (hs : Serves s₀ h p) (thread : ThreadId)
    (hsettle : settle (fallback call) (RelayService.serve call) p.service = .ok messages s') :
    Serves s₀ (h ++ [.called thread call messages]) { p with service := s' } := by
  obtain ⟨rfl, hverdict⟩ := settle_ok hsettle
  have hcalls : History.calls (h ++ [.called thread call messages]) = h.calls ++ [call] := by
    rw [History.calls_append]
    rfl
  have hanswer : answerOf (call, Call.verdict (RelayService.serve call p.service)) =
      (call, messages) := by
    rcases hverdict with hok | ⟨⟨e, herror⟩, rfl⟩
    · rw [hok]
      rfl
    · rw [herror]
      rfl
  refine ⟨hs.sane, ?_, ?_⟩
  · rw [hcalls, Runs.after_concat, ← hs.service]
  · rw [hcalls, Runs.trace_concat, List.map_append, ← hs.service, List.map_singleton, hanswer,
      History.answers_append, hs.answered]
    rfl

/-- A connection leaves; the service has nothing to say to that. -/
theorem disconnect_settled (c : ConnectionId) (s : RelayService) :
    settle [] (RelayService.serve (.disconnect c)) s =
      .ok [] (Call.after (RelayService.serve (.disconnect c) s)) := by
  have hverdict := (RelayService.serve_relay (.disconnect c) s).1
  have hquiet : Call.verdict (Relay.serve (.disconnect c) s.relay) = .ok [] := by
    show Call.verdict (Relay.disconnect c s.relay) = .ok []
    unfold Relay.disconnect
    cases s.relay.connections.lookup c <;> rfl
  rw [hquiet] at hverdict
  unfold settle
  cases hserve : RelayService.serve (.disconnect c) s with
  | ok answer s' =>
    rw [hserve] at hverdict
    cases hverdict
    rfl
  | error fault s' =>
    rw [hserve] at hverdict
    cases hverdict

theorem Serves.moved (hs : Serves s₀ h p) (hm : Moves p events p') :
    Serves s₀ (h ++ events) p' := by
  cases hm with
  | aborted | accepted | arrived | finished | closed | failed | refused | asked | rested
  | unregistered => exact hs.quiet ⟨rfl, rfl⟩ rfl
  | looked | dropped =>
    exact hs.quiet ⟨setOutbox_alike.poisoned, setOutbox_alike.service⟩ rfl
  | wrote room hsends houtbox => exact hs.quiet ⟨wrote_alike.poisoned, wrote_alike.service⟩ rfl
  | @served c t now randomness message expired replies s s' hlookup hstage hsweep hhandle =>
    have hfirst := hs.calls (some c) hsweep
    have hsecond := hfirst.calls (some c) hhandle
    rw [List.append_assoc] at hsecond
    exact ⟨hsecond.sane, hsecond.service, hsecond.answered⟩
  | @disconnected c t hlookup hstage =>
    have hcall := hs.calls (some c) (disconnect_settled c p.service)
    exact ⟨hcall.sane, hcall.service, hcall.answered⟩
  | @woke now messages s hempty hsweep =>
    have hcall := hs.calls none hsweep
    exact ⟨hcall.sane, hcall.service, hcall.answered⟩

end Calls

/-! ### The requests of a connection -/

/-- What has arrived at a connection is what was read and what is left, and the requests
that were read have been called in their order, up to one that is still to be asked. -/
structure Serial (h : History) (c : ConnectionId) (t : Connection) : Prop where
  admitted : .accepted c t.peer ∈ h
  stream : h.arrivedAt c = Streams.frames lengthOctets ((h.readAt c).map Prod.fst) ++ t.input
  meant : ∀ x ∈ h.readAt c, x.2.Meant x.1
  served : ∃ served, h.asksAt c = served ++ t.stage.pending ∧
    h.callsBy (some c) = served.flatMap (requestCalls c t.peer) ++
      if t.stage.active then [] else [.disconnect c]

/-- Nothing that is recorded concerns a connection. -/
structure Silent (events : List ProcessEvent) (c : ConnectionId) : Prop where
  arrived : History.arrivedAt events c = []
  read : History.readAt events c = []
  calls : History.callsBy events (some c) = []

theorem Silent.append (hs : Silent h c) (hmore : Silent events c) : Silent (h ++ events) c := by
  constructor
  · rw [History.arrivedAt_append, hs.arrived, hmore.arrived, List.append_nil]
  · rw [History.readAt_append, hs.read, hmore.read, List.append_nil]
  · rw [History.callsBy_append, hs.calls, hmore.calls, List.append_nil]

/-- The stream moves on by octets that arrive and messages that are read. -/
theorem Serial.step (hs : Serial h c t) (hpeer : t'.peer = t.peer)
    (hstream : t.input ++ History.arrivedAt events c =
      Streams.frames lengthOctets ((History.readAt events c).map Prod.fst) ++ t'.input)
    (hmeant : ∀ x ∈ History.readAt events c, x.2.Meant x.1)
    (hasked : ∃ served, t.stage.pending ++ History.asksAt events c = served ++ t'.stage.pending ∧
      History.callsBy events (some c) = served.flatMap (requestCalls c t.peer) ++
        if t'.stage.active then [] else [.disconnect c])
    (hactive : t.stage.active = true) : Serial (h ++ events) c t' := by
  obtain ⟨served, hasks, hcalls⟩ := hs.served
  obtain ⟨more, hmore, hcalled⟩ := hasked
  rw [if_pos hactive, List.append_nil] at hcalls
  constructor
  · rw [hpeer]
    exact List.mem_append_left events hs.admitted
  · rw [History.arrivedAt_append, hs.stream, List.append_assoc, hstream, History.readAt_append,
      List.map_append, Streams.frames_append, List.append_assoc]
  · intro x hx
    rw [History.readAt_append] at hx
    rcases List.mem_append.mp hx with hx | hx
    · exact hs.meant x hx
    · exact hmeant x hx
  · refine ⟨served ++ more, ?_, ?_⟩
    · rw [History.asksAt_append, hasks, List.append_assoc, hmore, List.append_assoc]
    · rw [History.callsBy_append, hcalls, hcalled, List.flatMap_append, List.append_assoc, hpeer]

/-- Nothing happens to a connection, but to what it has still to send. -/
theorem Serial.quiet (hs : Serial h c t) (hpeer : t'.peer = t.peer) (hinput : t'.input = t.input)
    (hpending : t'.stage.pending = t.stage.pending) (hactive : t'.stage.active = t.stage.active)
    (hsilent : Silent events c) : Serial (h ++ events) c t' := by
  obtain ⟨served, hasks, hcalls⟩ := hs.served
  have hasked : History.asksAt events c = [] := by
    rw [History.asksAt, hsilent.read]
    rfl
  constructor
  · rw [hpeer]
    exact List.mem_append_left events hs.admitted
  · rw [History.arrivedAt_append, History.readAt_append, hsilent.arrived, hsilent.read,
      List.append_nil, List.append_nil, hs.stream, hinput]
  · rw [History.readAt_append, hsilent.read, List.append_nil]
    exact hs.meant
  · refine ⟨served, ?_, ?_⟩
    · rw [History.asksAt_append, hasked, List.append_nil, hasks, hpending]
    · rw [History.callsBy_append, hsilent.calls, List.append_nil, hcalls, hactive, hpeer]

/-- Every connection is served in its order, and no other is recorded. -/
structure Ordered (h : History) (p : RelayProcess) : Prop where
  serial : ∀ c t, p.connections.lookup c = some t → Serial h c t
  unknown : ∀ c, p.connections.lookup c = none → Silent h c

/-- One connection moves on. -/
theorem Ordered.set (hs : Ordered h p) (hconnections : p'.connections = p.connections.insert c t')
    (hserial : Serial (h ++ events) c t') (helse : ∀ x, x ≠ c → Silent events x) :
    Ordered (h ++ events) p' := by
  have hlookup : ∀ x, p'.connections.lookup x =
      if x = c then some t' else p.connections.lookup x := by
    intro x
    rw [hconnections, Table.lookup_insert_if]
  constructor
  · intro x u hu
    rw [hlookup] at hu
    split_ifs at hu with hx
    · obtain rfl := Option.some.inj hu
      rw [hx]
      exact hserial
    · exact (hs.serial x u hu).quiet rfl rfl rfl rfl (helse x hx)
  · intro x hx
    rw [hlookup] at hx
    split_ifs at hx with hne
    exact (hs.unknown x hx).append (helse x hne)

/-- What a thread sends is nothing to the requests. -/
theorem Ordered.alike (hs : Ordered h p) {f : ConnectionId → Connection → Connection}
    (hlookup : ∀ c, p'.connections.lookup c = (p.connections.lookup c).map (f c))
    (hf : ∀ c t, (f c t).peer = t.peer ∧ (f c t).input = t.input ∧ (f c t).stage = t.stage)
    (hsilent : ∀ c, Silent events c) : Ordered (h ++ events) p' := by
  constructor
  · intro c u hu
    rw [hlookup] at hu
    obtain ⟨t, ht, rfl⟩ := Option.map_eq_some_iff.mp hu
    obtain ⟨hpeer, hinput, hstage⟩ := hf c t
    exact (hs.serial c t ht).quiet hpeer hinput (by rw [hstage]) (by rw [hstage]) (hsilent c)
  · intro c hc
    rw [hlookup, Option.map_eq_none_iff] at hc
    exact (hs.unknown c hc).append (hsilent c)

theorem silent_arrived {x : ConnectionId} (hx : x ≠ c) {octets : Bytes} :
    Silent [.arrived c octets] x := by
  refine ⟨?_, rfl, rfl⟩
  simp [History.arrivedAt, ProcessEvent.arrived?, hx.symm]

theorem silent_read {x : ConnectionId} (hx : x ≠ c) {octets : Bytes} {request : Request} :
    Silent [.read c octets request] x := by
  refine ⟨rfl, ?_, rfl⟩
  simp [History.readAt, ProcessEvent.read?, hx.symm]

theorem silent_called {x : ConnectionId} (hx : thread ≠ some x) :
    Silent [.called thread call messages] x := by
  refine ⟨rfl, rfl, ?_⟩
  simp [History.callsBy, ProcessEvent.calledBy?, hx]

theorem Ordered.moved [Primitives] [PeerAddresses] (hs : Ordered h p) (hm : Moves p events p')
    (hnew : p.connections.lookup p.nextConnection = none) : Ordered (h ++ events) p' := by
  cases hm with
  | aborted =>
    rw [List.append_nil]
    exact ⟨hs.serial, hs.unknown⟩
  | accepted peer =>
    refine hs.set rfl ?_ (fun x hx => ⟨rfl, rfl, rfl⟩)
    have hunknown := (hs.unknown _ hnew).append
      (⟨rfl, rfl, rfl⟩ : Silent [.accepted p.nextConnection peer] p.nextConnection)
    refine ⟨by simp, ?_, ?_, [], ?_, ?_⟩
    · rw [hunknown.arrived, hunknown.read]
      rfl
    · rw [hunknown.read]
      simp
    · rw [History.asksAt, hunknown.read]
      rfl
    · rw [hunknown.calls]
      rfl
  | @arrived c t octets hlookup =>
    refine hs.set rfl ?_ (fun x hx => silent_arrived hx)
    have hserial := hs.serial c t hlookup
    have hoctets : History.arrivedAt [.arrived c octets] c = octets := by
      simp [History.arrivedAt, ProcessEvent.arrived?]
    have hread : History.readAt (h ++ [.arrived c octets]) c = h.readAt c := by
      rw [History.readAt_append]
      exact List.append_nil _
    have hcalls : History.callsBy (h ++ [.arrived c octets]) (some c) = h.callsBy (some c) := by
      rw [History.callsBy_append]
      exact List.append_nil _
    refine ⟨List.mem_append_left _ hserial.admitted, ?_, ?_, ?_⟩
    · rw [History.arrivedAt_append, hoctets, hread, hserial.stream, List.append_assoc]
    · rw [hread]
      exact hserial.meant
    · rw [History.asksAt, hread, hcalls]
      exact hserial.served
  | @finished c t ending hlookup =>
    refine hs.set rfl ?_ (fun x hx => ⟨rfl, rfl, rfl⟩)
    exact (hs.serial c t hlookup).quiet rfl rfl rfl rfl ⟨rfl, rfl, rfl⟩
  | @closed c t hlookup hstage =>
    refine hs.set rfl ?_ (fun x hx => ⟨rfl, rfl, rfl⟩)
    refine (hs.serial c t hlookup).quiet rfl rfl ?_ ?_ ⟨rfl, rfl, rfl⟩ <;> rw [hstage] <;> rfl
  | @failed c t hlookup hstage =>
    refine hs.set rfl ?_ (fun x hx => ⟨rfl, rfl, rfl⟩)
    refine (hs.serial c t hlookup).quiet rfl rfl ?_ ?_ ⟨rfl, rfl, rfl⟩ <;> rw [hstage] <;> rfl
  | @refused c t octets rest request code hlookup hstage hinput hmeant hcode =>
    have hread : History.readAt [.read c octets request, .refused c code] c =
        [(octets, request)] := by
      simp [History.readAt, ProcessEvent.read?]
    have hasks : History.asksAt [.read c octets request, .refused c code] c = [] := by
      rw [History.asksAt, hread]
      rcases hcode with ⟨rfl, -⟩ | ⟨rfl, -⟩ <;> rfl
    refine hs.set rfl ?_ (fun x hx => (silent_read hx).append ⟨rfl, rfl, rfl⟩)
    refine (hs.serial c t hlookup).step rfl ?_ ?_ ⟨[], ?_, rfl⟩ (by rw [hstage]; rfl)
    · refine (List.append_nil _).trans ?_
      rw [hread]
      simpa using hinput
    · rw [hread]
      simpa using hmeant
    · rw [hstage, hasks]
      rfl
  | @asked c t octets rest message now randomness hlookup hstage hinput hdecode =>
    have hread : History.readAt [.read c octets (.asked now randomness message)] c =
        [(octets, .asked now randomness message)] := by
      simp [History.readAt, ProcessEvent.read?]
    refine hs.set rfl ?_ (fun x hx => silent_read hx)
    refine (hs.serial c t hlookup).step rfl ?_ ?_ ⟨[], ?_, rfl⟩ (by rw [hstage]; rfl)
    · refine (List.append_nil _).trans ?_
      rw [hread]
      simpa using hinput
    · rw [hread, List.forall_mem_singleton]
      exact hdecode
    · rw [hstage, History.asksAt, hread]
      rfl
  | @served c t now randomness message expired replies s s' hlookup hstage hsweep hhandle =>
    refine hs.set rfl ?_ (fun x hx => ?_)
    · refine (hs.serial c t hlookup).step rfl (List.append_nil _) (by simp [History.readAt,
        ProcessEvent.read?]) ⟨[(now, randomness, message)], ?_, ?_⟩ (by rw [hstage]; rfl)
      · rw [hstage]
        rfl
      · simp [History.callsBy, ProcessEvent.calledBy?, requestCalls, Stage.active]
    · have hne : some c ≠ some x := by simpa using hx.symm
      exact (silent_called hne).append (silent_called hne)
  | @rested c t leaving hlookup hstage hempty =>
    refine hs.set rfl ?_ (fun x hx => ⟨rfl, rfl, rfl⟩)
    refine (hs.serial c t hlookup).quiet rfl rfl ?_ ?_ ⟨rfl, rfl, rfl⟩ <;> rw [hstage] <;>
      cases leaving <;> rfl
  | @disconnected c t hlookup hstage =>
    refine hs.set rfl ?_ (fun x hx => silent_called (by simpa using hx.symm))
    refine (hs.serial c t hlookup).step rfl (List.append_nil _) (by simp [History.readAt,
      ProcessEvent.read?]) ⟨[], ?_, ?_⟩ (by rw [hstage]; rfl)
    · rw [hstage]
      rfl
    · simp [History.callsBy, ProcessEvent.calledBy?, Stage.active]
  | @unregistered c t hlookup hstage =>
    refine hs.set rfl ?_ (fun x hx => ⟨rfl, rfl, rfl⟩)
    refine (hs.serial c t hlookup).quiet rfl rfl ?_ ?_ ⟨rfl, rfl, rfl⟩ <;> rw [hstage] <;> rfl
  | woke hempty hsweep =>
    refine ⟨fun c t hlookup => (hs.serial c t hlookup).quiet rfl rfl rfl rfl ?_,
      fun c hlookup => (hs.unknown c hlookup).append ?_⟩ <;> exact silent_called (by simp)
  | @wrote thread queue message octets room hsends houtbox =>
    refine hs.alike (fun c => lookup_wrote) (fun c t => ?_) (fun c => ⟨rfl, rfl, rfl⟩)
    dsimp only
    unfold Connection.write
    split_ifs <;> exact ⟨rfl, rfl, rfl⟩
  | looked hsends houtbox hregistered hencode =>
    refine hs.alike (fun c => lookup_setOutbox) (fun c t => ?_) (fun c => ⟨rfl, rfl, rfl⟩)
    split_ifs <;> exact ⟨rfl, rfl, rfl⟩
  | dropped hsends houtbox hnone =>
    refine hs.alike (fun c => lookup_setOutbox) (fun c t => ?_) (fun c => ⟨rfl, rfl, rfl⟩)
    split_ifs <;> exact ⟨rfl, rfl, rfl⟩

/-! ### The sweeper -/

/-- The thread that belongs to no connection only sweeps. -/
theorem Moves.swept [Primitives] [PeerAddresses] (hm : Moves p events p') :
    ∀ call ∈ History.callsBy events none, ∃ now, call = .sweep now := by
  cases hm with
  | woke => simp [History.callsBy, ProcessEvent.calledBy?]
  | _ => simp [History.callsBy, ProcessEvent.calledBy?]

/-! ### Identifiers -/

/-- Every connection got its identifier from the counter. -/
def Numbered (p : RelayProcess) : Prop :=
  ∀ c ∈ p.connections, 0 < c.toNat ∧ c.toNat ≤ p.accepted

theorem mem_setConnection (hlookup : p.connections.lookup c = some t) {x : ConnectionId} :
    x ∈ (p.setConnection c t').connections ↔ x ∈ p.connections := by
  have hc : c ∈ p.connections := Finmap.mem_of_lookup_eq_some hlookup
  rw [setConnection, Finmap.mem_insert]
  constructor
  · rintro (rfl | hx)
    · exact hc
    · exact hx
  · exact Or.inr

theorem mem_iff_of_map {f : Connection → Connection} {x : ConnectionId}
    (hlookup : p'.connections.lookup x = (p.connections.lookup x).map f) :
    x ∈ p'.connections ↔ x ∈ p.connections := by
  rw [← Finmap.lookup_isSome, ← Finmap.lookup_isSome, hlookup, Option.isSome_map]

/-- Connections come from the counter, and none is forgotten. -/
theorem Moves.connections [Primitives] [PeerAddresses] (hm : Moves p events p') :
    (p'.accepted = p.accepted ∧ ∀ x, x ∈ p'.connections ↔ x ∈ p.connections) ∨
    (p'.accepted = p.accepted + 1 ∧
      ∀ x, x ∈ p'.connections ↔ x = p.nextConnection ∨ x ∈ p.connections) := by
  cases hm with
  | aborted | woke => exact .inl ⟨rfl, fun x => Iff.rfl⟩
  | accepted peer => exact .inr ⟨rfl, fun x => Finmap.mem_insert⟩
  | arrived _ hlookup | finished _ hlookup => exact .inl ⟨rfl, fun x => mem_setConnection hlookup⟩
  | asked _ _ hlookup => exact .inl ⟨rfl, fun x => mem_setConnection hlookup⟩
  | closed hlookup | failed hlookup | refused hlookup | served hlookup | rested hlookup
  | disconnected hlookup | unregistered hlookup =>
    exact .inl ⟨rfl, fun x => mem_setConnection hlookup⟩
  | looked | dropped =>
    exact .inl ⟨setOutbox_alike.accepted, fun x => mem_iff_of_map lookup_setOutbox⟩
  | wrote => exact .inl ⟨wrote_alike.accepted, fun x => mem_iff_of_map lookup_wrote⟩

theorem Numbered.fresh (hp : Numbered p) (hfew : p.accepted < 2 ^ 64) :
    p.connections.lookup p.nextConnection = none := by
  rw [Finmap.lookup_eq_none]
  intro hmem
  obtain ⟨hpos, hle⟩ := hp _ hmem
  rw [nextConnection, UInt64.toNat_ofNat'] at hpos hle
  omega

theorem Numbered.moved [Primitives] [PeerAddresses] (hp : Numbered p) (hm : Moves p events p')
    (hfew : p'.accepted < 2 ^ 64) : Numbered p' := by
  intro x hx
  obtain ⟨haccepted, hsame⟩ | ⟨haccepted, hmore⟩ := hm.connections
  · rw [haccepted]
    exact hp x ((hsame x).mp hx)
  · rw [haccepted] at hfew ⊢
    rcases (hmore x).mp hx with rfl | hx
    · rw [nextConnection, UInt64.toNat_ofNat', Nat.mod_eq_of_lt (by omega)]
      omega
    · obtain ⟨hpos, hle⟩ := hp x hx
      omega

/-! ### Runs -/

section Runs

variable [Primitives] [PeerAddresses] {config : RelayConfig LimiterConfig} {store : MailboxStore}

/-- What holds of the history of a process and of its state. -/
structure Coherent (s₀ : RelayService) (h : History) (p : RelayProcess) : Prop
    extends Serves s₀ h p, Ordered h p, Sending h p where
  swept : ∀ call ∈ h.callsBy none, ∃ now, call = .sweep now
  numbered : Numbered p

theorem Coherent.start (s₀ : RelayService) : Coherent s₀ [] { service := s₀ } where
  sane := rfl
  service := rfl
  answered := rfl
  serial c t hlookup := by cases hlookup
  unknown c _ := ⟨rfl, rfl, rfl⟩
  kept thread := by cases thread <;> rfl
  held thread x hx := by cases thread <;> cases hx
  encoded thread message octets hmem := by cases hmem
  rested c t hlookup := by cases hlookup
  swept call hcall := by cases hcall
  numbered c hc := absurd hc Finmap.notMem_empty

theorem Coherent.moved (hp : Coherent s₀ h p) (hm : Moves p events p')
    (hfew : p'.accepted < 2 ^ 64) : Coherent s₀ (h ++ events) p' := by
  have hbefore : p.accepted < 2 ^ 64 := by
    obtain ⟨haccepted, -⟩ | ⟨haccepted, -⟩ := hm.connections <;> omega
  have hnew := hp.numbered.fresh hbefore
  refine ⟨hp.toServes.moved hm, hp.toOrdered.moved hm hnew, hp.toSending.moved hm hnew,
    fun call hcall => ?_, hp.numbered.moved hm hfew⟩
  rw [History.callsBy_append] at hcall
  rcases List.mem_append.mp hcall with hcall | hcall
  · exact hp.swept call hcall
  · exact hm.swept call hcall

omit [Primitives] [PeerAddresses] in
theorem flush_accepted (thread : ThreadId) (outbox : Outbox) (room : ℕ) :
    (Call.after (flush thread outbox room p)).accepted = p.accepted := by
  unfold flush
  split
  · exact wrote_alike.accepted
  · split
    · rfl
    · split_ifs
      · split <;> exact setOutbox_alike.accepted
      · exact setOutbox_alike.accepted

/-- The counter never goes back. -/
theorem step_accepted (act : ProcessAct) (p : RelayProcess) :
    p.accepted ≤ (Call.after (step act p)).accepted := by
  unfold step
  split_ifs
  · exact le_rfl
  cases act with
  | accept peer => exact Nat.le_succ p.accepted
  | arrive connection octets | finish connection ending =>
    dsimp only [arrive, finish]
    split
    · exact le_rfl
    · split_ifs <;> exact le_rfl
  | run connection now randomness room =>
    dsimp only [serveConnection]
    split
    · exact le_rfl
    · split
      · unfold readMessage
        split
        · exact le_rfl
        · exact le_rfl
        · exact le_rfl
        · dsimp only
          split
          · exact le_rfl
          · split <;> exact le_rfl
      · unfold serveRequest
        split_ifs
        · exact le_rfl
        · split <;> exact le_rfl
      · unfold sendNext
        split
        · exact le_rfl
        · exact (flush_accepted _ _ _).ge
      · unfold disconnect
        split_ifs <;> exact le_rfl
      · exact le_rfl
      · exact le_rfl
  | wake now =>
    dsimp only [wake]
    split
    · split_ifs
      · exact le_rfl
      · split <;> exact le_rfl
    · exact le_rfl
  | drain room => exact (flush_accepted _ _ _).ge

/-- A step either moves a process or leaves it as it is. -/
theorem step_cases (act : ProcessAct) (hsane : p.poisoned = false)
    (hsound : p.service.relay.Sound) :
    Moves p (Runs.effects (step act p)) (Call.after (step act p)) ∨
      Runs.effects (step act p) = [] ∧ Call.after (step act p) = p := by
  cases hstep : step act p with
  | ok events p' => exact .inl (step_moves hsane hsound hstep)
  | error u p' => exact .inr ⟨rfl, step_error hstep⟩

theorem run_coherent (hstart : s₀.relay.Sound) (acts : List ProcessAct)
    (hfew : (Runs.after step { service := s₀ } acts).accepted < 2 ^ 64) :
    Coherent s₀ (Runs.released step { service := s₀ } acts)
      (Runs.after step { service := s₀ } acts) := by
  revert hfew
  refine Runs.invariant (P := fun acts p => p.accepted < 2 ^ 64 →
    Coherent s₀ (Runs.released step { service := s₀ } acts) p) step
    (fun _ => Coherent.start s₀) (fun acts act ih hfew => ?_) acts
  have hcoherent := ih ((step_accepted act _).trans_lt hfew)
  rw [Runs.released_concat]
  rcases step_cases act hcoherent.sane (hcoherent.toServes.sound hstart) with
    hm | ⟨heffects, hafter⟩
  · exact hcoherent.moved hm hfew
  · rw [heffects, hafter, List.append_nil]
    exact hcoherent

/-- Whatever the threads and the network do, up to 2^64 connections: no thread panics under
the lock, and the service is in the state, and has given the answers, of one caller that
makes the calls one after another. Each connection has read its stream in whole messages,
was understood as the recogniser says, and had exactly its requests called, in their
order and under its own identifier and address, with one `disconnect` when it left; besides
these the sweeper sweeps. -/
theorem linearizable (hstart : RelayService.withStore config store = .ok s₀)
    (acts : List ProcessAct) (hfew : (Runs.after step { service := s₀ } acts).accepted < 2 ^ 64) :
    let p := Runs.after step { service := s₀ } acts
    let h : History := Runs.released step { service := s₀ } acts
    p.poisoned = false ∧
    p.service = Runs.after RelayService.serve s₀ h.calls ∧
    h.answers = (Runs.trace RelayService.serve s₀ h.calls).map answerOf ∧
    (∀ c t, p.connections.lookup c = some t →
      .accepted c t.peer ∈ h ∧
      h.arrivedAt c = Streams.frames lengthOctets ((h.readAt c).map Prod.fst) ++ t.input ∧
      (∀ x ∈ h.readAt c, x.2.Meant x.1) ∧
      ∃ served, h.asksAt c = served ++ t.stage.pending ∧
        h.callsBy (some c) = served.flatMap (requestCalls c t.peer) ++
          if t.stage.active then [] else [.disconnect c]) ∧
    (∀ c, p.connections.lookup c = none → h.callsBy (some c) = []) ∧
    ∀ call ∈ h.callsBy none, ∃ now, call = .sweep now := by
  intro p h
  have hsound := (Relay.withStore_sound (RelayService.withStore_ok hstart).1).1
  have hcoherent := run_coherent hsound acts hfew
  refine ⟨hcoherent.sane, hcoherent.service, hcoherent.answered, fun c t hlookup => ?_,
    fun c hlookup => (hcoherent.unknown c hlookup).calls, hcoherent.swept⟩
  have hserial := hcoherent.serial c t hlookup
  exact ⟨hserial.admitted, hserial.stream, hserial.meant, hserial.served⟩

end Runs

section Sample

attribute [local instance] Primitives.transparent PeerAddresses.transparent

/-- The encoding of `bind`. -/
def bindOctets : Bytes :=
  [162, 100, 116, 121, 112, 101, 100, 98, 105, 110, 100, 103, 118, 101, 114, 115, 105, 111, 110, 1]

/-- One connection binds, and is welcomed. -/
def joining : List ProcessAct :=
  [.accept [1], .arrive 1 (Streams.framed lengthOctets bindOctets),
    .run 1 0 (some (Relay.randomnessSample 1)) 0, .run 1 0 none 0, .run 1 0 none 0,
    .run 1 0 none 100]

theorem linearizable_joining :
    let p := Runs.after step { service := RelayService.observed } joining
    let h : History := Runs.released step { service := RelayService.observed } joining
    p.service = Runs.after RelayService.serve RelayService.observed h.calls ∧
      h.calls.length = 2 ∧ (h.readAt 1).map Prod.fst = [bindOctets] := by
  have hrun := linearizable RelayService.withStore_observed joining (by decide +kernel)
  obtain ⟨-, hservice, -⟩ := hrun
  exact ⟨hservice, by decide +kernel, by decide +kernel⟩

end Sample

end RelayProcess
end CbclPairing
