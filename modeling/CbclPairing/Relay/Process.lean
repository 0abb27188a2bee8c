import CbclPairing.Relay.Observability
import CbclPairing.Streams
import CbclPairing.Wire.Codecs

/-! The relay behind its TCP listener: one thread for each connection and one that
sweeps. They share the service behind a lock, and the writers of all connections; what a
thread does under a lock is one step, and between two steps any other thread may run. -/
namespace CbclPairing
open Codec Calls Tables

/-- `MAX_WIRE_MESSAGE`. -/
def maxWireMessage : ℕ := 70000

/-- The octets before a message that say how long it is. -/
def lengthOctets : ℕ := 4

/-- The messages a thread has yet to send, and the frame it has a writer for. -/
structure Outbox where
  queue : List RoutedMessage := []
  held : Option (RoutedMessage × Bytes) := none

/-- Where the thread of a connection stands. -/
inductive Stage where
  | reading
  | asking (now : UInt64) (randomness : RelayRandomness) (message : ClientMessage)
  | sending (leaving : Bool)
  | disconnecting
  | unregistering
  | gone

/-- A connection: what has arrived and has not been read, what its socket has taken, and
its thread. -/
structure Connection where
  peer : Bytes
  input : Bytes := []
  ending : Option Streams.Ending := none
  output : Bytes := []
  broken : Bool := false
  stage : Stage := .reading
  outbox : Outbox := {}

/-- The process. A thread that panics under the lock of the service poisons it. -/
structure RelayProcess where
  service : RelayService
  poisoned : Bool := false
  aborted : Bool := false
  accepted : ℕ := 0
  connections : Table ConnectionId Connection := ∅
  writers : Finset ConnectionId := ∅
  sweeper : Outbox := {}

/-- A thread: that of a connection, or the sweeper. -/
abbrev ThreadId := Option ConnectionId

/-- What becomes of a message that was read. -/
inductive Request where
  | malformed
  | starved
  | asked (now : UInt64) (randomness : RelayRandomness) (message : ClientMessage)

/-- What can be seen of a step. -/
inductive ProcessEvent where
  | accepted (connection : ConnectionId) (peer : Bytes)
  | arrived (connection : ConnectionId) (octets : Bytes)
  | read (connection : ConnectionId) (octets : Bytes) (request : Request)
  | refused (connection : ConnectionId) (code : ℕ)
  | called (thread : ThreadId) (call : RelayCall) (messages : List RoutedMessage)
  | sent (thread : ThreadId) (message : RoutedMessage) (octets : Bytes)
  | dropped (thread : ThreadId) (message : RoutedMessage)
  | left (connection : ConnectionId)

/-- What happens next: the world outside acts, or one thread takes its next step. A step
is given the time, the random values it may ask for, and how many octets a socket takes. -/
inductive ProcessAct where
  | accept (peer : Bytes)
  | arrive (connection : ConnectionId) (octets : Bytes)
  | finish (connection : ConnectionId) (ending : Streams.Ending)
  | run (connection : ConnectionId) (now : UInt64) (randomness : Option RelayRandomness)
      (room : ℕ)
  | wake (now : UInt64)
  | drain (room : ℕ)

namespace RelayProcess

variable [Primitives] [PeerAddresses]

abbrev Step := Call Unit RelayProcess (List ProcessEvent)

/-- Nothing can happen here. -/
def idle : Step := fun p => .error () p

def setConnection (p : RelayProcess) (connection : ConnectionId) (t : Connection) : RelayProcess :=
  { p with connections := p.connections.insert connection t }

/-! ### Sending -/

/-- A socket takes the octets it has room for, and breaks if these are not all. -/
def Connection.write (t : Connection) (octets : Bytes) (room : ℕ) : Connection :=
  if t.broken then t
  else { t with output := t.output ++ octets.take room, broken := room < octets.length }

/-- What writing a frame leaves of the sockets. -/
def transmit (target : ConnectionId) (octets : Bytes) (room : ℕ) (p : RelayProcess) :
    RelayProcess :=
  match p.connections.lookup target with
  | none => p
  | some t => p.setConnection target (Connection.write t octets room)

def setOutbox (thread : ThreadId) (outbox : Outbox) (p : RelayProcess) : RelayProcess :=
  match thread with
  | none => { p with sweeper := outbox }
  | some connection =>
    match p.connections.lookup connection with
    | none => p
    | some t => p.setConnection connection { t with outbox }

/-- The next step of a thread that sends: look a writer up, or write to it. -/
def flush (thread : ThreadId) (outbox : Outbox) (room : ℕ) : Step := fun p =>
  match outbox.held with
  | some (message, octets) =>
    .ok [.sent thread message octets]
      ((p.setOutbox thread { outbox with held := none }).transmit message.connection
        (Streams.framed lengthOctets octets) room)
  | none =>
    match outbox.queue with
    | [] => idle p
    | message :: rest =>
      if message.connection ∈ p.writers then
        match Wire.encodeServerMessage message.message with
        | .ok octets => .ok [] (p.setOutbox thread ⟨rest, some (message, octets)⟩)
        | .error _ => .ok [.dropped thread message] (p.setOutbox thread ⟨rest, none⟩)
      else .ok [.dropped thread message] (p.setOutbox thread ⟨rest, none⟩)

/-! ### Calls under the lock -/

/-- The messages a thread sends for the answer of the service. -/
def settle (otherwise : List RoutedMessage)
    (call : Call (Fault RelayError) RelayService (List RoutedMessage)) :
    Call (Fault RelayError) RelayService (List RoutedMessage) := fun s =>
  match call s with
  | .ok messages s' => .ok messages s'
  | .error (.error _) s' => .ok otherwise s'
  | .error fault s' => .error fault s'

def unavailable (connection : ConnectionId) : List RoutedMessage := [⟨connection, .error 503⟩]

/-- A request of a connection, with the sweep before it. -/
def ask (connection : ConnectionId) (peer : Bytes) (now : UInt64) (randomness : RelayRandomness)
    (message : ClientMessage) :
    Call (Fault RelayError) RelayService (List RoutedMessage × List RoutedMessage) := do
  let expired ← settle [] (RelayService.sweep now)
  let replies ← settle (unavailable connection)
    (RelayService.handle connection peer now randomness message)
  pure (expired, replies)

/-! ### The thread of a connection -/

/-- Answer with one error of its own. -/
def refuse (connection : ConnectionId) (t : Connection) (code : ℕ) (leaving : Bool)
    (p : RelayProcess) : RelayProcess :=
  p.setConnection connection
    { t with stage := .sending leaving, outbox := ⟨[⟨connection, .error code⟩], none⟩ }

/-- Read a message and recognise it. -/
def readMessage (connection : ConnectionId) (t : Connection) (now : UInt64)
    (randomness : Option RelayRandomness) : Step := fun p =>
  match Streams.read lengthOctets maxWireMessage t.input t.ending with
  | .waiting => idle p
  | .closed => .ok [] (p.setConnection connection { t with stage := .disconnecting })
  | .failed => .ok [.refused connection 400] (p.refuse connection t 400 true)
  | .message octets rest =>
    let t := { t with input := rest }
    match Wire.decodeClientMessage octets with
    | .error _ =>
      .ok [.read connection octets .malformed, .refused connection 400]
        (p.refuse connection t 400 false)
    | .ok message =>
      match randomness with
      | none =>
        .ok [.read connection octets .starved, .refused connection 503]
          (p.refuse connection t 503 false)
      | some randomness =>
        .ok [.read connection octets (.asked now randomness message)]
          (p.setConnection connection { t with stage := .asking now randomness message })

def serveRequest (connection : ConnectionId) (t : Connection) (now : UInt64)
    (randomness : RelayRandomness) (message : ClientMessage) : Step := fun p =>
  if p.poisoned then .ok [] (p.setConnection connection { t with stage := .disconnecting })
  else
    match ask connection t.peer now randomness message p.service with
    | .ok (expired, replies) service =>
      .ok [.called (some connection) (.sweep now) expired,
          .called (some connection) (.handle connection t.peer now randomness message) replies]
        ({ p with service }.setConnection connection
          { t with stage := .sending false, outbox := ⟨expired ++ replies, none⟩ })
    -- out of memory ends the process; any other fault takes the lock with it
    | .error .aborted _ => .ok [] { p with aborted := true }
    | .error _ _ =>
      .ok [] ({ p with poisoned := true }.setConnection connection { t with stage := .gone })

def sendNext (connection : ConnectionId) (t : Connection) (leaving : Bool) (room : ℕ) : Step :=
  fun p =>
    match t.outbox with
    | ⟨[], none⟩ =>
      .ok [] (p.setConnection connection
        { t with stage := if leaving then .disconnecting else .reading })
    | outbox => flush (some connection) outbox room p

def disconnect (connection : ConnectionId) (t : Connection) : Step := fun p =>
  let p' := p.setConnection connection { t with stage := .unregistering }
  if p.poisoned then .ok [] p'
  else
    .ok [.called (some connection) (.disconnect connection) []]
      { p' with service := Call.after (RelayService.disconnect connection p.service) }

def unregister (connection : ConnectionId) (t : Connection) : Step := fun p =>
  .ok [.left connection]
    { p.setConnection connection { t with stage := .gone } with
      writers := p.writers.erase connection }

/-- The next step of the thread of a connection. -/
def serveConnection (connection : ConnectionId) (now : UInt64)
    (randomness : Option RelayRandomness) (room : ℕ) : Step := fun p =>
  match p.connections.lookup connection with
  | none => idle p
  | some t =>
    match t.stage with
    | .reading => readMessage connection t now randomness p
    | .asking asked randomness message => serveRequest connection t asked randomness message p
    | .sending leaving => sendNext connection t leaving room p
    | .disconnecting => disconnect connection t p
    | .unregistering => unregister connection t p
    | .gone => idle p

/-! ### All threads -/

/-- The identifier `AtomicU64` gives out next. -/
def nextConnection (p : RelayProcess) : ConnectionId := UInt64.ofNat (1 + p.accepted)

def accept (peer : Bytes) : Step := fun p =>
  let connection := p.nextConnection
  .ok [.accepted connection peer]
    { p.setConnection connection { peer } with
      accepted := p.accepted + 1
      writers := insert connection p.writers }

def arrive (connection : ConnectionId) (octets : Bytes) : Step := fun p =>
  match p.connections.lookup connection with
  | none => idle p
  | some t =>
    if t.ending.isSome then idle p
    else .ok [.arrived connection octets]
      (p.setConnection connection { t with input := t.input ++ octets })

def finish (connection : ConnectionId) (ending : Streams.Ending) : Step := fun p =>
  match p.connections.lookup connection with
  | none => idle p
  | some t =>
    if t.ending.isSome then idle p
    else .ok [] (p.setConnection connection { t with ending := some ending })

/-- The sweeper wakes: it sweeps, unless it is still sending. -/
def wake (now : UInt64) : Step := fun p =>
  match p.sweeper with
  | ⟨[], none⟩ =>
    if p.poisoned then idle p
    else
      match settle [] (RelayService.sweep now) p.service with
      | .ok messages service =>
        .ok [.called none (.sweep now) messages]
          { p with service, sweeper := ⟨messages, none⟩ }
      | .error .aborted _ => .ok [] { p with aborted := true }
      | .error _ _ => .ok [] { p with poisoned := true }
  | _ => idle p

def drain (room : ℕ) : Step := fun p => flush none p.sweeper room p

/-- One step of the process. -/
def step (act : ProcessAct) : Step := fun p =>
  if p.aborted then idle p
  else
    match act with
    | .accept peer => accept peer p
    | .arrive connection octets => arrive connection octets p
    | .finish connection ending => finish connection ending p
    | .run connection now randomness room => serveConnection connection now randomness room p
    | .wake now => wake now p
    | .drain room => drain room p

end RelayProcess
end CbclPairing
