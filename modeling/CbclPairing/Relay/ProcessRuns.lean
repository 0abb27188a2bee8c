import CbclPairing.Relay.Addressees
import CbclPairing.Relay.Process

/-! Runs of the relay process: whatever the threads and the network do, the service is
called one call at a time, and every message it answers goes where it is addressed. -/
namespace CbclPairing
open Codec Calls Tables

/-! ### What a history shows -/

namespace ProcessEvent

variable {connection : ConnectionId} {thread : ThreadId}

def arrived? (connection : ConnectionId) : ProcessEvent → Bytes
  | .arrived c octets => if c = connection then octets else []
  | _ => []

def read? (connection : ConnectionId) : ProcessEvent → Option (Bytes × Request)
  | .read c octets request => if c = connection then some (octets, request) else none
  | _ => none

/-- A call with the messages it came to. -/
def called? : ProcessEvent → Option (RelayCall × List RoutedMessage)
  | .called _ call messages => some (call, messages)
  | _ => none

def calledBy? (thread : ThreadId) : ProcessEvent → Option RelayCall
  | .called t call _ => if t = thread then some call else none
  | _ => none

/-- The messages a thread took over to send. -/
def taken (thread : ThreadId) : ProcessEvent → List RoutedMessage
  | .called t _ messages => if t = thread then messages else []
  | .refused c code => if some c = thread then [⟨c, .error code⟩] else []
  | _ => []

/-- The messages a thread is done with. -/
def settled? (thread : ThreadId) : ProcessEvent → Option RoutedMessage
  | .sent t message _ | .dropped t message => if t = thread then some message else none
  | _ => none

/-- A message that was written to a socket, with the thread that wrote it. -/
def written? (target : ConnectionId) : ProcessEvent → Option (ThreadId × RoutedMessage)
  | .sent t message _ => if message.connection = target then some (t, message) else none
  | _ => none

/-- What was written to a socket. -/
def sentTo? (target : ConnectionId) : ProcessEvent → Option Bytes
  | .sent _ message octets => if message.connection = target then some octets else none
  | _ => none

end ProcessEvent

abbrev History := List ProcessEvent

namespace History

open ProcessEvent

def arrivedAt (h : History) (connection : ConnectionId) : Bytes := h.flatMap (arrived? connection)

def readAt (h : History) (connection : ConnectionId) : List (Bytes × Request) :=
  h.filterMap (read? connection)

def answers (h : History) : List (RelayCall × List RoutedMessage) := h.filterMap called?

def calls (h : History) : List RelayCall := h.answers.map Prod.fst

def callsBy (h : History) (thread : ThreadId) : List RelayCall := h.filterMap (calledBy? thread)

def takenBy (h : History) (thread : ThreadId) : List RoutedMessage := h.flatMap (taken thread)

def settledBy (h : History) (thread : ThreadId) : List RoutedMessage :=
  h.filterMap (settled? thread)

def writtenTo (h : History) (target : ConnectionId) : List (ThreadId × RoutedMessage) :=
  h.filterMap (written? target)

/-- The part of a thread in what was written to a socket. -/
def sentBy (h : History) (thread : ThreadId) (target : ConnectionId) : List RoutedMessage :=
  (h.writtenTo target).filterMap fun (t, message) => if t = thread then some message else none

def sentTo (h : History) (target : ConnectionId) : List Bytes := h.filterMap (sentTo? target)

/-- The requests of a connection that were recognised. -/
def asksAt (h : History) (connection : ConnectionId) :
    List (UInt64 × RelayRandomness × ClientMessage) :=
  (h.readAt connection).filterMap fun
    | (_, .asked now randomness message) => some (now, randomness, message)
    | _ => none

end History

/-- The octets of a message still unsent. -/
def Outbox.unsent (outbox : Outbox) : List RoutedMessage :=
  (outbox.held.map Prod.fst).toList ++ outbox.queue

/-- What a message is taken for, by what the recogniser makes of it. -/
def Request.Meant (octets : Bytes) : Request → Prop
  | .malformed => ∃ e, Wire.decodeClientMessage octets = .error e
  | .starved => ∃ message, Wire.decodeClientMessage octets = .ok message
  | .asked _ _ message => Wire.decodeClientMessage octets = .ok message

/-- A request that was recognised and not asked yet. -/
def Stage.pending : Stage → List (UInt64 × RelayRandomness × ClientMessage)
  | .asking now randomness message => [(now, randomness, message)]
  | _ => []

/-- The thread has not left the service. -/
def Stage.active : Stage → Bool
  | .unregistering | .gone => false
  | _ => true

/-- The calls a request comes to. -/
def requestCalls (connection : ConnectionId) (peer : Bytes) :
    UInt64 × RelayRandomness × ClientMessage → List RelayCall
  | (now, randomness, message) =>
    [.sweep now, .handle connection peer now randomness message]

namespace RelayProcess

/-- What a thread sends when the service refuses a call. -/
def fallback : RelayCall → List RoutedMessage
  | .handle connection .. => unavailable connection
  | _ => []

/-- What a thread sends for the verdict of a call. -/
def answerOf (entry : RelayCall × Except (Fault RelayError) (List RoutedMessage)) :
    RelayCall × List RoutedMessage :=
  (entry.1, entry.2.toOption.getD (fallback entry.1))

def outbox (p : RelayProcess) : ThreadId → Outbox
  | none => p.sweeper
  | some connection => (p.connections.lookup connection).elim {} Connection.outbox

/-! ### Updates -/

section Updates

variable {p : RelayProcess} {connection c : ConnectionId} {t : Connection} {o : Outbox}
  {thread th : ThreadId} {octets : Bytes} {room : ℕ}

@[simp] theorem lookup_setConnection :
    (p.setConnection connection t).connections.lookup c =
      if c = connection then some t else p.connections.lookup c :=
  Table.lookup_insert_if p.connections connection c t

@[simp] theorem outbox_setConnection :
    (p.setConnection connection t).outbox thread =
      if thread = some connection then t.outbox else p.outbox thread := by
  cases thread with
  | none => rfl
  | some c =>
    simp only [outbox, lookup_setConnection, Option.some.injEq]
    split_ifs <;> rfl

theorem lookup_transmit : (p.transmit connection octets room).connections.lookup c =
    (p.connections.lookup c).map fun t =>
      if c = connection then Connection.write t octets room else t := by
  unfold transmit
  cases hlookup : p.connections.lookup connection with
  | none =>
    by_cases hc : c = connection
    · rw [hc, hlookup]
      rfl
    · simp [hc]
  | some t =>
    rw [lookup_setConnection]
    split_ifs with hc
    · rw [hc, hlookup]
      rfl
    · simp

theorem write_outbox (t : Connection) (octets : Bytes) (room : ℕ) :
    (Connection.write t octets room).outbox = t.outbox := by
  unfold Connection.write
  split_ifs <;> rfl

@[simp] theorem outbox_transmit :
    (p.transmit connection octets room).outbox thread = p.outbox thread := by
  cases thread with
  | none =>
    unfold transmit
    cases p.connections.lookup connection <;> rfl
  | some c =>
    simp only [outbox, lookup_transmit]
    cases p.connections.lookup c with
    | none => rfl
    | some t =>
      simp only [Option.map_some, Option.elim_some]
      split_ifs
      · exact write_outbox t octets room
      · rfl

theorem lookup_setOutbox : (p.setOutbox thread o).connections.lookup c =
    (p.connections.lookup c).map fun t =>
      if some c = thread then { t with outbox := o } else t := by
  cases thread with
  | none =>
    show p.connections.lookup c = _
    simp
  | some connection =>
    dsimp only [setOutbox]
    cases hlookup : p.connections.lookup connection with
    | none =>
      by_cases hc : c = connection
      · rw [hc, hlookup]
        rfl
      · simp [hc]
    | some t =>
      dsimp only
      simp only [lookup_setConnection, Option.some.injEq]
      split_ifs with hc
      · rw [hc, hlookup]
        rfl
      · simp

theorem lookup_wrote :
    ((p.setOutbox thread o).transmit connection octets room).connections.lookup c =
    (p.connections.lookup c).map fun t =>
      let t' := if some c = thread then { t with outbox := o } else t
      if c = connection then Connection.write t' octets room else t' := by
  rw [lookup_transmit, lookup_setOutbox, Option.map_map]
  rfl

/-- What two processes share that differ in their connections and outboxes only. -/
structure Alike (p q : RelayProcess) : Prop where
  service : q.service = p.service
  poisoned : q.poisoned = p.poisoned
  accepted : q.accepted = p.accepted
  writers : q.writers = p.writers

theorem transmit_alike : Alike p (p.transmit connection octets room) := by
  unfold transmit
  split <;> exact ⟨rfl, rfl, rfl, rfl⟩

theorem setOutbox_alike : Alike p (p.setOutbox thread o) := by
  cases thread with
  | none => exact ⟨rfl, rfl, rfl, rfl⟩
  | some connection =>
    dsimp only [setOutbox]
    split <;> exact ⟨rfl, rfl, rfl, rfl⟩

theorem Alike.trans {q r : RelayProcess} (h : Alike p q) (h' : Alike q r) : Alike p r :=
  ⟨h'.service.trans h.service, h'.poisoned.trans h.poisoned, h'.accepted.trans h.accepted,
    h'.writers.trans h.writers⟩

theorem wrote_alike : Alike p ((p.setOutbox thread o).transmit connection octets room) :=
  setOutbox_alike.trans transmit_alike

end Updates

/-! ### Calls of a sound service -/

section Service

variable [Primitives] [PeerAddresses] {s s' : RelayService} {call : RelayCall}
  {messages otherwise : List RoutedMessage}

theorem serve_sound (h : s.relay.Sound) (call : RelayCall) :
    (Call.after (RelayService.serve call s)).relay.Sound := by
  rw [(RelayService.serve_relay call s).2]
  exact (Relay.serve_changes h call).sound h

/-- A call that is settled has the state it left, and its messages or the others. -/
theorem settle_ok (h : settle otherwise (RelayService.serve call) s = .ok messages s') :
    s' = Call.after (RelayService.serve call s) ∧
      (Call.verdict (RelayService.serve call s) = .ok messages ∨
        (∃ e, Call.verdict (RelayService.serve call s) = .error (.error e)) ∧
          messages = otherwise) := by
  unfold settle at h
  cases hserve : RelayService.serve call s with
  | ok answer t =>
    rw [hserve] at h
    cases h
    exact ⟨rfl, .inl rfl⟩
  | error fault t =>
    rw [hserve] at h
    cases fault with
    | error e =>
      cases h
      exact ⟨rfl, .inr ⟨⟨e, rfl⟩, rfl⟩⟩
    | panicked | aborted | diverged => cases h

/-- Of the faults that are not settled only a lack of memory can occur. -/
theorem settle_error (h : s.relay.Sound) {fault : Fault RelayError}
    (herror : settle otherwise (RelayService.serve call) s = .error fault s') :
    fault = .aborted := by
  unfold settle at herror
  cases hserve : RelayService.serve call s with
  | ok answer t =>
    rw [hserve] at herror
    cases herror
  | error found t =>
    have hverdict : Call.verdict (Relay.serve call s.relay) = .error found := by
      rw [← (RelayService.serve_relay call s).1, hserve]
      rfl
    rw [hserve] at herror
    obtain rfl | rfl | rfl := Relay.serve_foreseen h call hverdict
    · cases herror
    · cases herror
    · cases herror
      rfl

variable {c : ConnectionId} {peer : Bytes} {now : UInt64} {randomness : RelayRandomness}
  {message : ClientMessage} {expired replies : List RoutedMessage}

theorem ask_ok (h : ask c peer now randomness message s = .ok (expired, replies) s') :
    ∃ t, settle [] (RelayService.serve (.sweep now)) s = .ok expired t ∧
      settle (unavailable c) (RelayService.serve (.handle c peer now randomness message)) t =
        .ok replies s' := by
  simp only [ask, Call.bind_eq_ok, Call.pure_eq_ok] at h
  obtain ⟨expired', t, hsweep, replies', t', hhandle, hpair, rfl⟩ := h
  obtain ⟨rfl, rfl⟩ := Prod.mk.inj hpair
  exact ⟨t, hsweep, hhandle⟩

theorem ask_error (h : s.relay.Sound) {fault : Fault RelayError}
    (herror : ask c peer now randomness message s = .error fault s') : fault = .aborted := by
  unfold ask at herror
  cases hsweep : settle [] (RelayService.sweep now) s with
  | error found t =>
    rw [Call.run_bind_error hsweep] at herror
    cases herror
    have hsettle : settle [] (RelayService.serve (.sweep now)) s = .error fault s' := hsweep
    exact settle_error h hsettle
  | ok expired t =>
    rw [Call.run_bind hsweep] at herror
    have hsettle : settle [] (RelayService.serve (.sweep now)) s = .ok expired t := hsweep
    have hsound : t.relay.Sound := by
      rw [(settle_ok hsettle).1]
      exact serve_sound h _
    cases hhandle : settle (unavailable c)
        (RelayService.handle c peer now randomness message) t with
    | error found t' =>
      rw [Call.run_bind_error hhandle] at herror
      cases herror
      have hsettle' : settle (unavailable c)
        (RelayService.serve (.handle c peer now randomness message)) t = .error fault s' := hhandle
      exact settle_error hsound hsettle'
    | ok replies t' =>
      rw [Call.run_bind hhandle] at herror
      cases herror

end Service

/-! ### What a step can do -/

/-- A thread that is sending. -/
def Sends (p : RelayProcess) (thread : ThreadId) : Prop :=
  ∀ c, thread = some c → ∃ t leaving, p.connections.lookup c = some t ∧ t.stage = .sending leaving

section Moves

variable [Primitives] [PeerAddresses]

/-- The moves of a process whose lock nobody has poisoned. -/
inductive Moves (p : RelayProcess) : List ProcessEvent → RelayProcess → Prop
  | aborted : Moves p [] { p with aborted := true }
  | accepted (peer : Bytes) : Moves p [.accepted p.nextConnection peer]
      { p.setConnection p.nextConnection { peer } with
        accepted := p.accepted + 1
        writers := insert p.nextConnection p.writers }
  | arrived {c : ConnectionId} {t : Connection} (octets : Bytes) :
      p.connections.lookup c = some t →
      Moves p [.arrived c octets] (p.setConnection c { t with input := t.input ++ octets })
  | finished {c : ConnectionId} {t : Connection} (ending : Streams.Ending) :
      p.connections.lookup c = some t →
      Moves p [] (p.setConnection c { t with ending := some ending })
  | closed {c : ConnectionId} {t : Connection} : p.connections.lookup c = some t →
      t.stage = .reading → Moves p [] (p.setConnection c { t with stage := .disconnecting })
  | failed {c : ConnectionId} {t : Connection} : p.connections.lookup c = some t →
      t.stage = .reading → Moves p [.refused c 400] (p.refuse c t 400 true)
  | refused {c : ConnectionId} {t : Connection} {octets rest : Bytes} {request : Request}
      {code : ℕ} : p.connections.lookup c = some t → t.stage = .reading →
      t.input = Streams.framed lengthOctets octets ++ rest →
      request.Meant octets →
      request = .malformed ∧ code = 400 ∨ request = .starved ∧ code = 503 →
      Moves p [.read c octets request, .refused c code]
        (p.refuse c { t with input := rest } code false)
  | asked {c : ConnectionId} {t : Connection} {octets rest : Bytes} {message : ClientMessage}
      (now : UInt64) (randomness : RelayRandomness) : p.connections.lookup c = some t →
      t.stage = .reading → t.input = Streams.framed lengthOctets octets ++ rest →
      Wire.decodeClientMessage octets = .ok message →
      Moves p [.read c octets (.asked now randomness message)] (p.setConnection c
        { t with input := rest, stage := .asking now randomness message })
  | served {c : ConnectionId} {t : Connection} {now : UInt64} {randomness : RelayRandomness}
      {message : ClientMessage} {expired replies : List RoutedMessage} {s s' : RelayService} :
      p.connections.lookup c = some t → t.stage = .asking now randomness message →
      settle [] (RelayService.serve (.sweep now)) p.service = .ok expired s →
      settle (unavailable c)
        (RelayService.serve (.handle c t.peer now randomness message)) s = .ok replies s' →
      Moves p [.called (some c) (.sweep now) expired,
          .called (some c) (.handle c t.peer now randomness message) replies]
        ({ p with service := s' }.setConnection c
          { t with stage := .sending false, outbox := ⟨expired ++ replies, none⟩ })
  | rested {c : ConnectionId} {t : Connection} {leaving : Bool} :
      p.connections.lookup c = some t → t.stage = .sending leaving → t.outbox.unsent = [] →
      Moves p [] (p.setConnection c
        { t with stage := if leaving then .disconnecting else .reading })
  | disconnected {c : ConnectionId} {t : Connection} : p.connections.lookup c = some t →
      t.stage = .disconnecting →
      Moves p [.called (some c) (.disconnect c) []]
        { p.setConnection c { t with stage := .unregistering } with
          service := Call.after (RelayService.serve (.disconnect c) p.service) }
  | unregistered {c : ConnectionId} {t : Connection} : p.connections.lookup c = some t →
      t.stage = .unregistering →
      Moves p [.left c] { p.setConnection c { t with stage := .gone } with
        writers := p.writers.erase c }
  | woke {now : UInt64} {messages : List RoutedMessage} {s : RelayService} :
      p.sweeper.unsent = [] →
      settle [] (RelayService.serve (.sweep now)) p.service = .ok messages s →
      Moves p [.called none (.sweep now) messages]
        { p with service := s, sweeper := ⟨messages, none⟩ }
  | wrote {thread : ThreadId} {queue : List RoutedMessage} {message : RoutedMessage}
      {octets : Bytes} (room : ℕ) : p.Sends thread →
      p.outbox thread = ⟨queue, some (message, octets)⟩ →
      Moves p [.sent thread message octets] ((p.setOutbox thread ⟨queue, none⟩).transmit
        message.connection (Streams.framed lengthOctets octets) room)
  | looked {thread : ThreadId} {queue : List RoutedMessage} {message : RoutedMessage}
      {octets : Bytes} : p.Sends thread → p.outbox thread = ⟨message :: queue, none⟩ →
      message.connection ∈ p.writers → Wire.encodeServerMessage message.message = .ok octets →
      Moves p [] (p.setOutbox thread ⟨queue, some (message, octets)⟩)
  | dropped {thread : ThreadId} {queue : List RoutedMessage} {message : RoutedMessage} :
      p.Sends thread → p.outbox thread = ⟨message :: queue, none⟩ →
      (message.connection ∈ p.writers →
        ∃ e, Wire.encodeServerMessage message.message = .error e) →
      Moves p [.dropped thread message] (p.setOutbox thread ⟨queue, none⟩)

variable {p p' : RelayProcess} {events : List ProcessEvent} {c : ConnectionId} {t : Connection}

theorem flush_moves {thread : ThreadId} {room : ℕ} (hsends : p.Sends thread)
    (h : flush thread (p.outbox thread) room p = .ok events p') : Moves p events p' := by
  generalize houtbox : p.outbox thread = outbox at h
  obtain ⟨queue, held⟩ := outbox
  unfold flush at h
  cases held with
  | some pair =>
    obtain ⟨message, octets⟩ := pair
    cases h
    exact .wrote room hsends houtbox
  | none =>
    cases queue with
    | nil => cases h
    | cons message rest =>
      dsimp only at h
      split_ifs at h with hregistered
      · cases hencode : Wire.encodeServerMessage message.message with
        | ok octets =>
          rw [hencode] at h
          cases h
          exact .looked hsends houtbox hregistered hencode
        | error e =>
          rw [hencode] at h
          cases h
          exact .dropped hsends houtbox fun _ => ⟨e, hencode⟩
      · cases h
        exact .dropped hsends houtbox fun hmem => absurd hmem hregistered

theorem readMessage_moves {now : UInt64} {randomness : Option RelayRandomness}
    (hlookup : p.connections.lookup c = some t) (hstage : t.stage = .reading)
    (h : readMessage c t now randomness p = .ok events p') : Moves p events p' := by
  unfold readMessage at h
  cases hread : Streams.read lengthOctets maxWireMessage t.input t.ending with
  | waiting =>
    rw [hread] at h
    cases h
  | closed =>
    rw [hread] at h
    cases h
    exact .closed hlookup hstage
  | failed =>
    rw [hread] at h
    cases h
    exact .failed hlookup hstage
  | message octets rest =>
    have hinput := ((Streams.read_eq_message (by decide)).mp hread).1
    rw [hread] at h
    dsimp only at h
    cases hdecode : Wire.decodeClientMessage octets with
    | error e =>
      rw [hdecode] at h
      cases h
      exact .refused hlookup hstage hinput ⟨e, hdecode⟩ (.inl ⟨rfl, rfl⟩)
    | ok message =>
      rw [hdecode] at h
      cases randomness with
      | none =>
        cases h
        exact .refused hlookup hstage hinput ⟨message, hdecode⟩ (.inr ⟨rfl, rfl⟩)
      | some randomness =>
        cases h
        exact .asked now randomness hlookup hstage hinput hdecode

theorem serveRequest_moves {now : UInt64} {randomness : RelayRandomness} {message : ClientMessage}
    (hsane : p.poisoned = false) (hsound : p.service.relay.Sound)
    (hlookup : p.connections.lookup c = some t) (hstage : t.stage = .asking now randomness message)
    (h : serveRequest c t now randomness message p = .ok events p') : Moves p events p' := by
  unfold serveRequest at h
  rw [if_neg (by simp [hsane])] at h
  cases hask : ask c t.peer now randomness message p.service with
  | error fault s =>
    obtain rfl := ask_error hsound hask
    rw [hask] at h
    cases h
    exact .aborted
  | ok answer s' =>
    obtain ⟨expired, replies⟩ := answer
    obtain ⟨s, hsweep, hhandle⟩ := ask_ok hask
    rw [hask] at h
    cases h
    exact .served hlookup hstage hsweep hhandle

theorem sendNext_moves {leaving : Bool} {room : ℕ} (hlookup : p.connections.lookup c = some t)
    (hstage : t.stage = .sending leaving) (h : sendNext c t leaving room p = .ok events p') :
    Moves p events p' := by
  have houtbox : p.outbox (some c) = t.outbox := by
    rw [outbox, hlookup]
    rfl
  have hsends : p.Sends (some c) := by
    rintro _ ⟨⟩
    exact ⟨t, leaving, hlookup, hstage⟩
  unfold sendNext at h
  split at h
  · rename_i hempty
    cases h
    refine .rested hlookup hstage ?_
    rw [hempty]
    rfl
  · rw [← houtbox] at h
    exact flush_moves hsends h

omit [Primitives] [PeerAddresses] in
theorem flush_error {thread : ThreadId} {outbox : Outbox} {room : ℕ} {u : Unit}
    (h : flush thread outbox room p = .error u p') : p' = p := by
  unfold flush at h
  split at h
  · cases h
  · split at h
    · cases h
      rfl
    · split_ifs at h
      split at h <;> cases h

omit [Primitives] [PeerAddresses] in
theorem readMessage_error {now : UInt64} {randomness : Option RelayRandomness} {u : Unit}
    (h : readMessage c t now randomness p = .error u p') : p' = p := by
  unfold readMessage at h
  split at h
  · cases h
    rfl
  · cases h
  · cases h
  · dsimp only at h
    split at h
    · cases h
    · split at h <;> cases h

theorem serveRequest_error {now : UInt64} {randomness : RelayRandomness} {message : ClientMessage}
    {u : Unit} (h : serveRequest c t now randomness message p = .error u p') : p' = p := by
  unfold serveRequest at h
  split_ifs at h
  cases hask : ask c t.peer now randomness message p.service with
  | ok answer s =>
    rw [hask] at h
    cases h
  | error fault s =>
    rw [hask] at h
    cases fault <;> cases h

/-- A step that cannot be made changes nothing. -/
theorem step_error {act : ProcessAct} {u : Unit} (h : step act p = .error u p') : p' = p := by
  unfold step at h
  split_ifs at h
  · cases h
    rfl
  cases act with
  | accept peer => cases h
  | arrive connection octets | finish connection ending =>
    dsimp only [arrive, finish] at h
    split at h
    · cases h
      rfl
    · split_ifs at h
      cases h
      rfl
  | run connection now randomness room =>
    dsimp only [serveConnection] at h
    split at h
    · cases h
      rfl
    · split at h
      · exact readMessage_error h
      · exact serveRequest_error h
      · unfold sendNext at h
        split at h
        · cases h
        · exact flush_error h
      · dsimp only [disconnect] at h
        split_ifs at h
      · cases h
      · cases h
        rfl
  | wake now =>
    dsimp only [wake] at h
    split at h
    · split_ifs at h
      · cases h
        rfl
      · split at h <;> cases h
    · cases h
      rfl
  | drain room => exact flush_error h

/-- Every step of a process with a sound service is one of the moves. -/
theorem step_moves {act : ProcessAct} (hsane : p.poisoned = false) (hsound : p.service.relay.Sound)
    (h : step act p = .ok events p') : Moves p events p' := by
  unfold step at h
  split_ifs at h
  · cases h
  cases act with
  | accept peer =>
    cases h
    exact .accepted peer
  | arrive connection octets =>
    dsimp only [arrive] at h
    cases hlookup : p.connections.lookup connection with
    | none =>
      rw [hlookup] at h
      cases h
    | some t =>
      rw [hlookup] at h
      dsimp only at h
      split_ifs at h
      · cases h
      · cases h
        exact .arrived octets hlookup
  | finish connection ending =>
    dsimp only [finish] at h
    cases hlookup : p.connections.lookup connection with
    | none =>
      rw [hlookup] at h
      cases h
    | some t =>
      rw [hlookup] at h
      dsimp only at h
      split_ifs at h
      · cases h
      · cases h
        exact .finished ending hlookup
  | run connection now randomness room =>
    dsimp only [serveConnection] at h
    cases hlookup : p.connections.lookup connection with
    | none =>
      rw [hlookup] at h
      cases h
    | some t =>
      rw [hlookup] at h
      dsimp only at h
      cases hstage : t.stage with
      | reading =>
        rw [hstage] at h
        exact readMessage_moves hlookup hstage h
      | asking now randomness message =>
        rw [hstage] at h
        exact serveRequest_moves hsane hsound hlookup hstage h
      | sending leaving =>
        rw [hstage] at h
        exact sendNext_moves hlookup hstage h
      | disconnecting =>
        rw [hstage] at h
        dsimp only [disconnect] at h
        rw [if_neg (by simp [hsane])] at h
        cases h
        exact .disconnected hlookup hstage
      | unregistering =>
        rw [hstage] at h
        cases h
        exact .unregistered hlookup hstage
      | gone =>
        rw [hstage] at h
        cases h
  | wake now =>
    dsimp only [wake] at h
    split at h
    · rename_i hempty
      rw [if_neg (by simp [hsane])] at h
      have hunsent : p.sweeper.unsent = [] := by
        rw [hempty]
        rfl
      cases hsweep : settle [] (RelayService.serve (.sweep now)) p.service with
      | error fault s =>
        obtain rfl := settle_error hsound hsweep
        rw [show settle [] (RelayService.sweep now) p.service = _ from hsweep] at h
        cases h
        exact .aborted
      | ok messages s =>
        rw [show settle [] (RelayService.sweep now) p.service = _ from hsweep] at h
        cases h
        exact .woke hunsent hsweep
    · cases h
  | drain room => exact flush_moves (by rintro _ ⟨⟩) h

end Moves

/-! ### What the threads have sent -/

section Outboxes

variable {p p' : RelayProcess} {h : History} {events : List ProcessEvent} {c : ConnectionId}
  {t : Connection} {thread : ThreadId}

@[simp] theorem takenBy_append (h more : History) (thread : ThreadId) :
    History.takenBy (h ++ more) thread = h.takenBy thread ++ History.takenBy more thread := by
  simp [History.takenBy]

@[simp] theorem settledBy_append (h more : History) (thread : ThreadId) :
    History.settledBy (h ++ more) thread = h.settledBy thread ++ History.settledBy more thread := by
  simp [History.settledBy]

/-- Every message a thread took over is settled or in its outbox, in this order. -/
structure Sending (h : History) (p : RelayProcess) : Prop where
  kept : ∀ thread, h.settledBy thread ++ (p.outbox thread).unsent = h.takenBy thread
  held : ∀ thread, ∀ x ∈ (p.outbox thread).held,
    Wire.encodeServerMessage x.1.message = .ok x.2
  encoded : ∀ thread message octets, .sent thread message octets ∈ h →
    Wire.encodeServerMessage message.message = .ok octets
  rested : ∀ c t, p.connections.lookup c = some t → (∀ leaving, t.stage ≠ .sending leaving) →
    t.outbox.unsent = []

theorem outbox_of_lookup (hlookup : p.connections.lookup c = some t) :
    p.outbox (some c) = t.outbox := by
  rw [outbox, hlookup]
  rfl

/-- Nothing is taken over, settled or sent. -/
theorem Sending.quiet (hs : Sending h p) (houtbox : ∀ thread, p'.outbox thread = p.outbox thread)
    (hrested : ∀ c t, p'.connections.lookup c = some t → (∀ leaving, t.stage ≠ .sending leaving) →
      t.outbox.unsent = [])
    (htaken : ∀ thread, History.takenBy events thread = [])
    (hsettled : ∀ thread, History.settledBy events thread = [])
    (hsent : ∀ thread message octets, .sent thread message octets ∉ events) :
    Sending (h ++ events) p' where
  kept thread := by
    rw [settledBy_append, takenBy_append, hsettled, htaken, List.append_nil, List.append_nil,
      houtbox]
    exact hs.kept thread
  held thread x hx := by
    rw [houtbox] at hx
    exact hs.held thread x hx
  encoded thread message octets hmem := by
    rcases List.mem_append.mp hmem with hmem | hmem
    · exact hs.encoded thread message octets hmem
    · exact absurd hmem (hsent thread message octets)
  rested := hrested

/-- One connection changes, and keeps its outbox. -/
theorem Sending.kept_outbox (hs : Sending h p) {t' : Connection}
    (hlookup : p.connections.lookup c = some t) (houtbox : t'.outbox = t.outbox)
    (hrested : (∀ leaving, t'.stage ≠ .sending leaving) → t.outbox.unsent = [])
    (htaken : ∀ thread, History.takenBy events thread = [])
    (hsettled : ∀ thread, History.settledBy events thread = [])
    (hsent : ∀ thread message octets, .sent thread message octets ∉ events) :
    Sending (h ++ events) (p.setConnection c t') := by
  refine hs.quiet (fun thread => ?_) (fun c' u hu hstage => ?_) htaken hsettled hsent
  · rw [outbox_setConnection]
    split_ifs with hthread
    · rw [hthread, outbox_of_lookup hlookup, houtbox]
    · rfl
  · rw [lookup_setConnection] at hu
    split_ifs at hu with hc
    · obtain rfl := Option.some.inj hu
      rw [houtbox]
      exact hrested hstage
    · exact hs.rested c' u hu hstage

/-- A thread with nothing unsent takes messages over. -/
theorem Sending.takes (hs : Sending h p) (thread : ThreadId) (messages : List RoutedMessage)
    (hempty : (p.outbox thread).unsent = [])
    (houtbox : ∀ th, p'.outbox th = if th = thread then ⟨messages, none⟩ else p.outbox th)
    (hrested : ∀ c t, p'.connections.lookup c = some t → (∀ leaving, t.stage ≠ .sending leaving) →
      t.outbox.unsent = [])
    (htaken : ∀ th, History.takenBy events th = if th = thread then messages else [])
    (hsettled : ∀ th, History.settledBy events th = [])
    (hsent : ∀ th message octets, .sent th message octets ∉ events) :
    Sending (h ++ events) p' where
  kept th := by
    have hkept := hs.kept th
    rw [settledBy_append, takenBy_append, hsettled, htaken, houtbox, List.append_nil]
    split_ifs with hth
    · rw [hth, hempty, List.append_nil] at hkept
      rw [hth, hkept]
      rfl
    · rw [hkept, List.append_nil]
  held th x hx := by
    rw [houtbox] at hx
    split_ifs at hx with hth
    · cases hx
    · exact hs.held th x hx
  encoded th message octets hmem := by
    rcases List.mem_append.mp hmem with hmem | hmem
    · exact hs.encoded th message octets hmem
    · exact absurd hmem (hsent th message octets)
  rested := hrested

theorem outbox_setOutbox (hsends : p.Sends thread) (o : Outbox) (th : ThreadId) :
    (p.setOutbox thread o).outbox th = if th = thread then o else p.outbox th := by
  cases thread with
  | none => cases th <;> rfl
  | some c =>
    obtain ⟨t, leaving, hlookup, -⟩ := hsends c rfl
    dsimp only [setOutbox]
    rw [hlookup]
    exact outbox_setConnection

/-- An outbox that changes leaves the rest of its connection alone. -/
theorem stage_setOutbox {o : Outbox}
    (hlookup : (p.setOutbox thread o).connections.lookup c = some t) :
    ∃ u, p.connections.lookup c = some u ∧ u.stage = t.stage ∧
      t.outbox = if some c = thread then o else u.outbox := by
  rw [lookup_setOutbox] at hlookup
  obtain ⟨u, hu, rfl⟩ := Option.map_eq_some_iff.mp hlookup
  refine ⟨u, hu, ?_, ?_⟩ <;> split_ifs <;> rfl

/-- A thread sends: its outbox changes, and what it is done with is settled. -/
theorem Sending.sends (hs : Sending h p) (hsends : p.Sends thread) {o : Outbox}
    (done : List RoutedMessage) (hkept : done ++ o.unsent = (p.outbox thread).unsent)
    (hheld : ∀ x ∈ o.held, Wire.encodeServerMessage x.1.message = .ok x.2)
    (htaken : ∀ th, History.takenBy events th = [])
    (hsettled : ∀ th, History.settledBy events th = if th = thread then done else [])
    (hsent : ∀ th message octets, .sent th message octets ∈ events →
      Wire.encodeServerMessage message.message = .ok octets) :
    Sending (h ++ events) (p.setOutbox thread o) where
  kept th := by
    rw [settledBy_append, takenBy_append, hsettled, htaken, outbox_setOutbox hsends,
      List.append_nil, ← hs.kept th]
    split_ifs with hth
    · rw [hth, List.append_assoc, hkept]
    · rw [List.append_nil]
  held th x hx := by
    rw [outbox_setOutbox hsends] at hx
    split_ifs at hx with hth
    · exact hheld x hx
    · exact hs.held th x hx
  encoded th message octets hmem := by
    rcases List.mem_append.mp hmem with hmem | hmem
    · exact hs.encoded th message octets hmem
    · exact hsent th message octets hmem
  rested c t hlookup hstage := by
    obtain ⟨u, hu, hstages, houtbox⟩ := stage_setOutbox hlookup
    rw [← hstages] at hstage
    split_ifs at houtbox with hthread
    · -- the thread that sends is not at rest
      obtain ⟨u', leaving, hu', hsending⟩ := hsends c hthread.symm
      obtain rfl := Option.some.inj (hu.symm.trans hu')
      exact absurd hsending (hstage leaving)
    · rw [houtbox]
      exact hs.rested c u hu hstage

theorem Sending.transmit (hs : Sending h p) (target : ConnectionId) (octets : Bytes) (room : ℕ) :
    Sending h (p.transmit target octets room) where
  kept th := by
    rw [outbox_transmit]
    exact hs.kept th
  held th x hx := by
    rw [outbox_transmit] at hx
    exact hs.held th x hx
  encoded := hs.encoded
  rested c t hlookup hstage := by
    rw [lookup_transmit] at hlookup
    obtain ⟨u, hu, rfl⟩ := Option.map_eq_some_iff.mp hlookup
    have hsame : (if c = target then Connection.write u octets room else u).stage = u.stage ∧
        (if c = target then Connection.write u octets room else u).outbox = u.outbox := by
      unfold Connection.write
      split_ifs <;> exact ⟨rfl, rfl⟩
    rw [hsame.1] at hstage
    rw [hsame.2]
    exact hs.rested c u hu hstage

/-- A connection that is not sending takes messages over. -/
theorem Sending.starts (hs : Sending h p) {t' : Connection} {leaving : Bool}
    {messages : List RoutedMessage} (hlookup : p.connections.lookup c = some t)
    (hstage : ∀ leaving, t.stage ≠ .sending leaving) (hstage' : t'.stage = .sending leaving)
    (houtbox : t'.outbox = ⟨messages, none⟩)
    (htaken : ∀ th, History.takenBy events th = if th = some c then messages else [])
    (hsettled : ∀ th, History.settledBy events th = [])
    (hsent : ∀ th message octets, .sent th message octets ∉ events) :
    Sending (h ++ events) (p.setConnection c t') := by
  refine hs.takes (some c) messages ?_ (fun th => ?_) (fun c' u hu hrest => ?_) htaken hsettled
    hsent
  · rw [outbox_of_lookup hlookup]
    exact hs.rested c t hlookup hstage
  · rw [outbox_setConnection, houtbox]
  · rw [lookup_setConnection] at hu
    split_ifs at hu with hc
    · obtain rfl := Option.some.inj hu
      exact absurd hstage' (hrest leaving)
    · exact hs.rested c' u hu hrest

/-- What changes besides the connections is nothing to the threads that send. -/
theorem Sending.elsewhere (hs : Sending h p)
    (hconnections : p'.connections = p.connections) (hsweeper : p'.sweeper = p.sweeper) :
    Sending h p' := by
  have houtbox : ∀ thread, p'.outbox thread = p.outbox thread := by
    intro thread
    cases thread with
    | none => exact hsweeper
    | some c => rw [outbox, outbox, hconnections]
  refine ⟨fun thread => ?_, fun thread x hx => ?_, hs.encoded, ?_⟩
  · rw [houtbox]
    exact hs.kept thread
  · rw [houtbox] at hx
    exact hs.held thread x hx
  · rw [hconnections]
    exact hs.rested

theorem Sending.moved [Primitives] [PeerAddresses] (hs : Sending h p) (hm : Moves p events p')
    (hnew : p.connections.lookup p.nextConnection = none) :
    Sending (h ++ events) p' := by
  cases hm with
  | aborted =>
    exact hs.quiet (fun _ => rfl) hs.rested (fun _ => rfl) (fun _ => rfl) (by simp)
  | accepted peer =>
    have hempty : p.outbox (some p.nextConnection) = {} := by
      rw [outbox, hnew]
      rfl
    have hset : Sending (h ++ [.accepted p.nextConnection peer])
        (p.setConnection p.nextConnection { peer }) := by
      refine hs.quiet (fun th => ?_) (fun c t hlookup hrest => ?_) (fun _ => rfl) (fun _ => rfl)
        (by simp)
      · rw [outbox_setConnection]
        split_ifs with hth
        · rw [hth, hempty]
        · rfl
      · rw [lookup_setConnection] at hlookup
        split_ifs at hlookup with hc
        · obtain rfl := Option.some.inj hlookup
          rfl
        · exact hs.rested c t hlookup hrest
    exact hset.elsewhere rfl rfl
  | @arrived c t octets hlookup =>
    have hrested := hs.rested c t hlookup
    exact hs.kept_outbox hlookup rfl hrested (fun _ => rfl) (fun _ => rfl) (by simp)
  | @finished c t ending hlookup =>
    have hrested := hs.rested c t hlookup
    exact hs.kept_outbox hlookup rfl hrested (fun _ => rfl) (fun _ => rfl) (by simp)
  | closed hlookup hstage =>
    have hstill := hs.rested _ _ hlookup (by simp [hstage])
    exact hs.kept_outbox hlookup rfl (fun _ => hstill) (fun _ => rfl) (fun _ => rfl) (by simp)
  | failed hlookup hstage =>
    refine hs.starts hlookup (by simp [hstage]) rfl rfl (fun th => ?_) (fun _ => rfl) (by simp)
    simp [History.takenBy, ProcessEvent.taken, eq_comm]
  | refused hlookup hstage hinput hrequest hcode =>
    refine hs.starts hlookup (by simp [hstage]) rfl rfl (fun th => ?_) (fun _ => rfl) (by simp)
    simp [History.takenBy, ProcessEvent.taken, eq_comm]
  | asked now randomness hlookup hstage hinput hdecode =>
    have hstill := hs.rested _ _ hlookup (by simp [hstage])
    exact hs.kept_outbox hlookup rfl (fun _ => hstill) (fun _ => rfl) (fun _ => rfl) (by simp)
  | @served c t now randomness message expired replies s s' hlookup hstage hsweep hhandle =>
    have hservice : Sending h { p with service := s' } := hs.elsewhere rfl rfl
    refine hservice.starts hlookup (by simp [hstage]) rfl rfl (fun th => ?_) (fun _ => rfl)
      (by simp)
    by_cases hth : some c = th
    · simp [History.takenBy, ProcessEvent.taken, hth]
    · rw [if_neg fun h => hth h.symm]
      simp [History.takenBy, ProcessEvent.taken, hth]
  | rested hlookup hstage hempty =>
    exact hs.kept_outbox hlookup rfl (fun _ => hempty) (fun _ => rfl) (fun _ => rfl) (by simp)
  | @disconnected c t hlookup hstage =>
    have hstill := hs.rested _ _ hlookup (by simp [hstage])
    have hkept : Sending (h ++ [.called (some c) (.disconnect c) []])
        (p.setConnection c { t with stage := .unregistering }) := by
      refine hs.kept_outbox hlookup rfl (fun _ => hstill) (fun th => ?_) (fun _ => rfl) (by simp)
      simp [History.takenBy, ProcessEvent.taken]
    exact hkept.elsewhere rfl rfl
  | @unregistered c t hlookup hstage =>
    have hstill := hs.rested _ _ hlookup (by simp [hstage])
    have hkept : Sending (h ++ [.left c]) (p.setConnection c { t with stage := .gone }) :=
      hs.kept_outbox hlookup rfl (fun _ => hstill) (fun _ => rfl) (fun _ => rfl) (by simp)
    exact hkept.elsewhere rfl rfl
  | @woke now messages s hempty hsweep =>
    refine hs.takes none messages hempty (fun th => ?_) hs.rested (fun th => ?_) (fun _ => rfl)
      (by simp)
    · cases th <;> rfl
    · simp [History.takenBy, ProcessEvent.taken, eq_comm]
  | @wrote thread queue message octets room hsends houtbox =>
    have hheld := hs.held thread
    rw [houtbox] at hheld
    have hencode := hheld (message, octets) rfl
    refine (hs.sends hsends [message] ?_ (by simp) (fun _ => rfl) (fun th => ?_) ?_).transmit
      _ _ _
    · rw [houtbox]
      rfl
    · by_cases hth : thread = th
      · simp [History.settledBy, ProcessEvent.settled?, hth]
      · simp [History.settledBy, ProcessEvent.settled?, hth, eq_comm]
    · intro th other written hmem
      obtain ⟨rfl, rfl, rfl⟩ := ProcessEvent.sent.inj (List.mem_singleton.mp hmem)
      exact hencode
  | @looked thread queue message octets hsends houtbox hregistered hencode =>
    refine hs.sends hsends [] ?_ ?_ (fun _ => rfl) (fun th => ?_) (by simp)
    · rw [houtbox]
      rfl
    · rintro _ ⟨⟩
      exact hencode
    · split_ifs <;> rfl
  | @dropped thread queue message hsends houtbox hnone =>
    refine hs.sends hsends [message] ?_ (by simp) (fun _ => rfl) (fun th => ?_) (by simp)
    · rw [houtbox]
      rfl
    · by_cases hth : thread = th
      · simp [History.settledBy, ProcessEvent.settled?, hth]
      · simp [History.settledBy, ProcessEvent.settled?, hth, eq_comm]

end Outboxes

end RelayProcess
end CbclPairing
