import CbclPairing.Relay.Limiter
import CbclPairing.Relay.Restart
import CbclPairing.Relay.Sweeps

/-! What the relay counts and gauges, beside what it does: closed dimensions only, and
nothing that feeds back into an answer. -/
namespace CbclPairing
open Codec Calls Tables

inductive RelayOutcome where
  | success
  | invalid
  | notFound
  | conflict
  | closed
  | crowded
  | expired
  | tooLarge
  | rateLimited
  | unavailable
  deriving DecidableEq

namespace RelayOutcome

/-- Every outcome in the order of the metrics. -/
def all : List RelayOutcome :=
  [.success, .invalid, .notFound, .conflict, .closed, .crowded, .expired, .tooLarge,
    .rateLimited, .unavailable]

def index : RelayOutcome → ℕ
  | .success => 0
  | .invalid => 1
  | .notFound => 2
  | .conflict => 3
  | .closed => 4
  | .crowded => 5
  | .expired => 6
  | .tooLarge => 7
  | .rateLimited => 8
  | .unavailable => 9

theorem index_injective : Function.Injective index := by
  intro a b h
  cases a <;> cases b <;> first | rfl | cases h

theorem mem_all (outcome : RelayOutcome) : outcome ∈ all := by
  cases outcome <;> decide

end RelayOutcome

structure RelayLogEvent where
  operation : Operation
  outcome : RelayOutcome
  deriving DecidableEq

structure OperationMetric where
  operation : Operation
  outcome : RelayOutcome
  count : UInt64
  deriving DecidableEq

structure RelayGauges where
  openMailboxes : UInt64
  queueBytes : UInt64
  limiterEntries : UInt64
  limiterClockReversals : UInt64
  deriving DecidableEq

/-- Alerts at four fifths of a configured cap. -/
structure CapacityAlerts where
  openMailboxes : Bool
  queueBytes : Bool
  limiterEntries : Bool
  deriving DecidableEq

structure RelayMetrics where
  operations : List OperationMetric
  gauges : RelayGauges
  alerts : CapacityAlerts

structure RelayObservability where
  caps : CapacityCaps
  /-- One row an operation, one column an outcome. -/
  counters : ℕ → ℕ → UInt64
  gauges : RelayGauges

def atEightyPercent (value cap : UInt64) : Bool :=
  cap != 0 && decide (cap.toNat * 4 ≤ value.toNat * 5)

namespace RelayObservability

def new (caps : CapacityCaps) : RelayObservability where
  caps := caps
  counters _ _ := 0
  gauges := ⟨0, 0, 0, 0⟩

def record (operation : Operation) (outcome : RelayOutcome) (s : RelayObservability) :
    RelayLogEvent × RelayObservability :=
  (⟨operation, outcome⟩,
    { s with counters := fun row column =>
        if row = operation.index ∧ column = outcome.index then
          saturatingSucc (s.counters row column)
        else s.counters row column })

def count (s : RelayObservability) (event : RelayLogEvent) : UInt64 :=
  s.counters event.operation.index event.outcome.index

def metrics (s : RelayObservability) : RelayMetrics where
  operations := Operation.all.flatMap fun operation =>
    RelayOutcome.all.filterMap fun outcome =>
      let count := s.counters operation.index outcome.index
      if count ≠ 0 then some ⟨operation, outcome, count⟩ else none
  gauges := s.gauges
  alerts :=
    { openMailboxes := atEightyPercent s.gauges.openMailboxes s.caps.openMailboxes
      queueBytes := atEightyPercent s.gauges.queueBytes s.caps.queueBytes
      limiterEntries := atEightyPercent s.gauges.limiterEntries s.caps.limiterEntries }

/-- A metric is listed when its counter has moved. -/
theorem mem_operations (s : RelayObservability) (m : OperationMetric) :
    m ∈ s.metrics.operations ↔ s.count ⟨m.operation, m.outcome⟩ = m.count ∧ m.count ≠ 0 := by
  obtain ⟨operation, outcome, count⟩ := m
  simp only [metrics, List.mem_flatMap, List.mem_filterMap]
  constructor
  · rintro ⟨operation', -, outcome', -, hlisted⟩
    split_ifs at hlisted with hmoved
    obtain ⟨rfl, rfl, rfl⟩ := OperationMetric.mk.inj (Option.some.inj hlisted)
    exact ⟨rfl, hmoved⟩
  · rintro ⟨rfl, hmoved⟩
    exact ⟨operation, operation.mem_all, outcome, outcome.mem_all, if_pos hmoved⟩

/-- One event moves its own counter and no other. -/
theorem count_record (operation : Operation) (outcome : RelayOutcome) (s : RelayObservability)
    (event : RelayLogEvent) : (s.record operation outcome).2.count event =
      if event = ⟨operation, outcome⟩ then saturatingSucc (s.count event) else s.count event := by
  obtain ⟨operation', outcome'⟩ := event
  have hsame : operation'.index = operation.index ∧ outcome'.index = outcome.index ↔
      (⟨operation', outcome'⟩ : RelayLogEvent) = ⟨operation, outcome⟩ := by
    rw [Operation.index_injective.eq_iff, RelayOutcome.index_injective.eq_iff,
      RelayLogEvent.mk.injEq]
  simp only [record, count, hsame]

end RelayObservability

/-- The outcome the acting connection is told. -/
def actorOutcome (connection : ConnectionId) (messages : List RoutedMessage) : RelayOutcome :=
  match (messages.find? (·.connection == connection)).map RoutedMessage.message with
  | some (.error 404) => .notFound
  | some (.error 409) => .conflict
  | some (.error 413) => .tooLarge
  | some (.error 429) => .rateLimited
  | some (.error 503) => .unavailable
  | some (.error _) => .invalid
  | some (.closed .closed) => .closed
  | some (.closed .crowded) => .crowded
  | some (.closed .expired) => .expired
  | some (.closed .conflict) => .conflict
  | _ => .success

/-- The relay with its counters. -/
structure RelayService where
  relay : Relay LimiterConfig Limiter
  observability : RelayObservability
  lastLog : Option RelayLogEvent

namespace RelayService

/-- The gauges of a state. -/
def currentGauges (s : Relay LimiterConfig Limiter) : RelayGauges where
  openMailboxes := UInt64.ofNat s.mailboxes.size
  queueBytes := UInt64.ofNat s.queueBytes
  limiterEntries := UInt64.ofNat s.limiter.entries.size
  limiterClockReversals := s.limiter.clockReversals

def refreshGauges (s : RelayService) : RelayService :=
  { s with observability := { s.observability with gauges := currentGauges s.relay } }

/-- Record the outcome of a command, and bring the gauges up to date. -/
def finish (operation : Operation) (outcome : RelayOutcome) (s : RelayService) : RelayService :=
  let (event, observability) := s.observability.record operation outcome
  { s with observability := observability, lastLog := some event }.refreshGauges

variable [Primitives] [PeerAddresses]

def withStore (config : RelayConfig LimiterConfig) (store : MailboxStore) :
    Except RelayError RelayService := do
  let relay : Relay LimiterConfig Limiter ← Relay.withStore config store
  .ok (refreshGauges ⟨relay, .new config.capacity, none⟩)

def handle (connection : ConnectionId) (peerAddress : Bytes) (now : UInt64)
    (randomness : RelayRandomness) (message : ClientMessage) :
    Call (Fault RelayError) RelayService (List RoutedMessage) := fun s =>
  match Relay.handle connection peerAddress now randomness message s.relay with
  | .error e relay => .error e { s with relay }
  | .ok messages relay =>
    -- a refusal of the limiter is the one answer the outcome of which is not looked up
    let limited := match RateLimiter.check (Relay.operation message) peerAddress now
        s.relay.limiter with
      | .ok (.cooldown _) _ => true
      | _ => false
    let outcome := if limited then .rateLimited else actorOutcome connection messages
    .ok messages ({ s with relay }.finish (Relay.operation message) outcome)

omit [Primitives] [PeerAddresses] in
/-- A call that is neither counted nor gauged. -/
def onRelay (call : Call (Fault RelayError) (Relay LimiterConfig Limiter) (List RoutedMessage)) :
    Call (Fault RelayError) RelayService (List RoutedMessage) :=
  Call.zoom relay (fun relay s => { s with relay }) call

omit [Primitives] [PeerAddresses] in
def disconnect (connection : ConnectionId) :
    Call (Fault RelayError) RelayService (List RoutedMessage) :=
  onRelay (Relay.disconnect connection)

omit [Primitives] [PeerAddresses] in
/-- A call after which the gauges are brought up to date, if it answers. -/
def gauged (call : Call (Fault RelayError) (Relay LimiterConfig Limiter) (List RoutedMessage)) :
    Call (Fault RelayError) RelayService (List RoutedMessage) := fun s =>
  match call s.relay with
  | .error e relay => .error e { s with relay }
  | .ok messages relay => .ok messages { s with relay }.refreshGauges

def sweep (now : UInt64) : Call (Fault RelayError) RelayService (List RoutedMessage) :=
  gauged (Relay.sweep now)

omit [Primitives] [PeerAddresses] in
def disableAllocation : Call (Fault RelayError) RelayService (List RoutedMessage) :=
  onRelay Relay.disableAllocation

def emergencyClose (now : UInt64) :
    Call (Fault RelayError) RelayService (List RoutedMessage) :=
  gauged (Relay.emergencyClose now)

def metrics (s : RelayService) : RelayMetrics := s.observability.metrics

def mailboxCount (s : RelayService) : ℕ := s.relay.mailboxes.size

def serve : RelayCall → Call (Fault RelayError) RelayService (List RoutedMessage)
  | .handle connection peerAddress now randomness message =>
    handle connection peerAddress now randomness message
  | .disconnect connection => disconnect connection
  | .sweep now => sweep now
  | .disableAllocation => disableAllocation
  | .emergencyClose now => emergencyClose now

/-! ### Observing changes nothing -/

section Observed

variable (call : Call (Fault RelayError) (Relay LimiterConfig Limiter) (List RoutedMessage))

omit [Primitives] [PeerAddresses] in
theorem onRelay_run (s : RelayService) : Call.verdict (onRelay call s) =
    Call.verdict (call s.relay) ∧
      Call.after (onRelay call s) = { s with relay := Call.after (call s.relay) } := by
  unfold onRelay Call.zoom
  cases call s.relay <;> exact ⟨rfl, rfl⟩

omit [Primitives] [PeerAddresses] in
/-- A gauged call counts nothing, and gauges what it leaves if it answers. -/
theorem gauged_run (s : RelayService) : Call.verdict (gauged call s) =
    Call.verdict (call s.relay) ∧
      Call.after (gauged call s) = { s with
        relay := Call.after (call s.relay)
        observability := { s.observability with
          gauges := if (Call.verdict (call s.relay)).isOk then
              currentGauges (Call.after (call s.relay))
            else s.observability.gauges } } := by
  unfold gauged
  cases call s.relay <;> exact ⟨rfl, rfl⟩

end Observed

theorem serve_relay (call : RelayCall) (s : RelayService) :
    Call.verdict (serve call s) = Call.verdict (Relay.serve call s.relay) ∧
      (Call.after (serve call s)).relay = Call.after (Relay.serve call s.relay) := by
  cases call with
  | handle connection peerAddress now randomness message =>
    show Call.verdict (handle connection peerAddress now randomness message s) =
        Call.verdict (Relay.handle connection peerAddress now randomness message s.relay) ∧
      (Call.after (handle connection peerAddress now randomness message s)).relay =
        Call.after (Relay.handle connection peerAddress now randomness message s.relay)
    unfold handle
    cases Relay.handle connection peerAddress now randomness message s.relay <;> exact ⟨rfl, rfl⟩
  | disconnect connection =>
    obtain ⟨hverdict, hafter⟩ := onRelay_run (Relay.disconnect connection) s
    exact ⟨hverdict, congrArg relay hafter⟩
  | sweep now =>
    obtain ⟨hverdict, hafter⟩ := gauged_run (Relay.sweep now) s
    exact ⟨hverdict, congrArg relay hafter⟩
  | disableAllocation =>
    obtain ⟨hverdict, hafter⟩ := onRelay_run Relay.disableAllocation s
    exact ⟨hverdict, congrArg relay hafter⟩
  | emergencyClose now =>
    obtain ⟨hverdict, hafter⟩ := gauged_run (Relay.emergencyClose now) s
    exact ⟨hverdict, congrArg relay hafter⟩

theorem run_relay (s : RelayService) (calls : List RelayCall) :
    Runs.trace serve s calls = Runs.trace Relay.serve s.relay calls ∧
      (Runs.after serve s calls).relay = Runs.after Relay.serve s.relay calls := by
  induction calls generalizing s with
  | nil => exact ⟨rfl, rfl⟩
  | cons call calls ih =>
    obtain ⟨hverdict, hrelay⟩ := serve_relay call s
    obtain ⟨htrace, hafter⟩ := ih (Call.after (serve call s))
    rw [hrelay] at htrace hafter
    rw [Runs.trace, Runs.trace, hverdict, htrace]
    exact ⟨rfl, hafter⟩

/-! ### Counters -/

/-- The answer of one call, with the call. -/
abbrev Answer := RelayCall × Except (Fault RelayError) (List RoutedMessage)

/-- What an answered command is counted as. -/
def event? : Answer → Option RelayLogEvent
  | (.handle connection _ _ _ message, .ok messages) =>
    some ⟨Relay.operation message, actorOutcome connection messages⟩
  | _ => none

omit [Primitives] [PeerAddresses] in
theorem actorOutcome_limited (connection : ConnectionId) :
    actorOutcome connection [route connection (.error 429)] = .rateLimited := by
  have hfirst : List.find? (fun m : RoutedMessage => m.connection == connection)
      [route connection (.error 429)] = some (route connection (.error 429)) := by
    rw [List.find?_cons_of_pos]
    exact beq_self_eq_true connection
  simp only [actorOutcome, hfirst, Option.map_some]
  rfl

/-- An answered command is counted as what its actor is told. -/
theorem handle_ok {connection : ConnectionId} {peerAddress : Bytes} {now : UInt64}
    {randomness : RelayRandomness} {message : ClientMessage} {s s' : RelayService}
    {messages : List RoutedMessage}
    (h : handle connection peerAddress now randomness message s = .ok messages s') :
    ∃ relay, s' = { s with relay }.finish (Relay.operation message)
      (actorOutcome connection messages) := by
  unfold handle at h
  cases hresult : Relay.handle connection peerAddress now randomness message s.relay with
  | error e relay =>
    rw [hresult] at h
    cases h
  | ok messages' relay =>
    rw [hresult] at h
    dsimp only at h
    cases h
    refine ⟨relay, ?_⟩
    unfold Relay.handle at hresult
    cases hcheck : RateLimiter.check (Relay.operation message) peerAddress now
        s.relay.limiter with
    | error e limiter => rw [if_neg (by simp)]
    | ok decision limiter =>
      cases decision with
      | allowed remaining => rw [if_neg (by simp)]
      | cooldown retryAt =>
        rw [hcheck] at hresult
        cases hresult
        rw [if_pos rfl, actorOutcome_limited]

omit [Primitives] [PeerAddresses] in
theorem finish_count (operation : Operation) (outcome : RelayOutcome) (s : RelayService)
    (event : RelayLogEvent) : (s.finish operation outcome).observability.count event =
      if event = ⟨operation, outcome⟩ then saturatingSucc (s.observability.count event)
      else s.observability.count event :=
  s.observability.count_record operation outcome event

/-- What one call does to the counters and the log. -/
theorem serve_counts (call : RelayCall) (s : RelayService) :
    (∀ event, (Call.after (serve call s)).observability.count event =
      if event? (call, Call.verdict (serve call s)) = some event then
        saturatingSucc (s.observability.count event)
      else s.observability.count event) ∧
    (Call.after (serve call s)).lastLog =
      (event? (call, Call.verdict (serve call s))).or s.lastLog ∧
    (Call.after (serve call s)).observability.caps = s.observability.caps := by
  have hquiet : ∀ t : RelayService, t.observability.counters = s.observability.counters →
      t.lastLog = s.lastLog → t.observability.caps = s.observability.caps → ∀ answer : Answer,
      event? answer = none → (∀ event, t.observability.count event =
        if event? answer = some event then saturatingSucc (s.observability.count event)
        else s.observability.count event) ∧ t.lastLog = (event? answer).or s.lastLog ∧
        t.observability.caps = s.observability.caps := by
    intro t hcounters hlog hcaps answer hnone
    refine ⟨fun event => ?_, ?_, hcaps⟩
    · rw [if_neg (by simp [hnone]), RelayObservability.count, hcounters]
      rfl
    · rw [hnone, hlog]
      rfl
  cases call with
  | handle connection peerAddress now randomness message =>
    show (∀ event,
        (Call.after (handle connection peerAddress now randomness message s)).observability.count
          event = if event? (.handle connection peerAddress now randomness message,
            Call.verdict (handle connection peerAddress now randomness message s)) = some event
          then _ else _) ∧
      (Call.after (handle connection peerAddress now randomness message s)).lastLog =
        (event? (.handle connection peerAddress now randomness message,
          Call.verdict (handle connection peerAddress now randomness message s))).or _ ∧
      (Call.after (handle connection peerAddress now randomness message s)).observability.caps = _
    cases hresult : handle connection peerAddress now randomness message s with
    | ok messages s' =>
      obtain ⟨relay, rfl⟩ := handle_ok hresult
      refine ⟨fun event => ?_, rfl, rfl⟩
      rw [Call.after_ok, Call.verdict_ok, finish_count]
      simp only [event?, Option.some.injEq, eq_comm]
    | error e s' =>
      unfold handle at hresult
      cases hrelay : Relay.handle connection peerAddress now randomness message s.relay with
      | ok messages relay =>
        rw [hrelay] at hresult
        cases hresult
      | error e' relay =>
        rw [hrelay] at hresult
        cases hresult
        exact hquiet _ rfl rfl rfl _ rfl
  | disconnect connection =>
    obtain ⟨-, hafter⟩ := onRelay_run (Relay.disconnect connection) s
    exact hquiet _ (by rw [serve, disconnect, hafter]) (by rw [serve, disconnect, hafter])
      (by rw [serve, disconnect, hafter]) _ rfl
  | sweep now =>
    obtain ⟨-, hafter⟩ := gauged_run (Relay.sweep now) s
    exact hquiet _ (by rw [serve, sweep, hafter]) (by rw [serve, sweep, hafter])
      (by rw [serve, sweep, hafter]) _ rfl
  | disableAllocation => exact hquiet _ rfl rfl rfl _ rfl
  | emergencyClose now =>
    obtain ⟨-, hafter⟩ := gauged_run (Relay.emergencyClose now) s
    exact hquiet _ (by rw [serve, emergencyClose, hafter]) (by rw [serve, emergencyClose, hafter])
      (by rw [serve, emergencyClose, hafter]) _ rfl

omit [Primitives] [PeerAddresses] in
theorem saturatingSucc_min (n : UInt64) {k : ℕ} (h : n.toNat = min (2 ^ 64 - 1) k) :
    (saturatingSucc n).toNat = min (2 ^ 64 - 1) (k + 1) := by
  by_cases hfull : n.toNat < 2 ^ 64 - 1
  · rw [saturatingSucc_toNat hfull]
    omega
  · have hn := n.toNat_lt
    have hlast : n = 0xffffffffffffffff := by
      rw [← UInt64.toNat_inj]
      simp only [UInt64.reduceToNat]
      omega
    rw [saturatingSucc, if_pos hlast]
    omega

/-- The events of some answers, in order. -/
def events (answers : List Answer) : List RelayLogEvent := answers.filterMap event?

omit [Primitives] [PeerAddresses] in
theorem events_concat (answers : List Answer) (answer : Answer) :
    events (answers ++ [answer]) = events answers ++ (event? answer).toList := by
  rw [events, List.filterMap_append, events]
  cases hevent : event? answer <;> simp [hevent]

/-- Every counter is the number of its events, as far as it can count, and the log holds
the last of them. -/
theorem run_counts {s₀ : RelayService} (hzero : ∀ event, s₀.observability.count event = 0)
    (hlog : s₀.lastLog = none) (calls : List RelayCall) :
    (∀ event, ((Runs.after serve s₀ calls).observability.count event).toNat =
      min (2 ^ 64 - 1) ((events (Runs.trace serve s₀ calls)).count event)) ∧
    (Runs.after serve s₀ calls).lastLog = (events (Runs.trace serve s₀ calls)).getLast? ∧
    (Runs.after serve s₀ calls).observability.caps = s₀.observability.caps := by
  induction calls using List.reverseRecOn with
  | nil =>
    refine ⟨fun event => ?_, hlog, rfl⟩
    rw [Runs.after_nil, hzero event]
    rfl
  | append_singleton calls call ih =>
    obtain ⟨hcounted, hlogged, hcaps⟩ := ih
    obtain ⟨hcount, hlast, hkept⟩ := serve_counts call (Runs.after serve s₀ calls)
    rw [Runs.after_concat, Runs.trace_concat, events_concat]
    refine ⟨fun event => ?_, ?_, hkept.trans hcaps⟩
    · rw [hcount event, List.count_append]
      split_ifs with hevent
      · rw [saturatingSucc_min _ (hcounted event), hevent]
        simp
      · have hnone : (event? (call, Call.verdict (serve call
            (Runs.after serve s₀ calls)))).toList.count event = 0 := by
          rw [List.count_eq_zero]
          intro hmem
          exact hevent (Option.mem_toList.mp hmem)
        rw [hcounted event, hnone, Nat.add_zero]
    · rw [hlast, hlogged]
      cases event? (call, Call.verdict (serve call (Runs.after serve s₀ calls))) with
      | none => simp
      | some event => simp

/-! ### Gauges -/

/-- The calls after which the gauges are brought up to date. -/
def refreshes : RelayCall → Bool
  | .handle .. | .sweep _ | .emergencyClose _ => true
  | .disconnect _ | .disableAllocation => false

/-- The last call that should have brought the gauges up to date has done so. -/
def upToDate (answers : List Answer) : Bool :=
  (answers.reverse.find? fun answer => refreshes answer.1).all fun answer => answer.2.isOk

omit [Primitives] [PeerAddresses] in
theorem upToDate_concat (answers : List Answer) (answer : Answer) :
    upToDate (answers ++ [answer]) =
      if refreshes answer.1 then answer.2.isOk else upToDate answers := by
  unfold upToDate
  rw [List.reverse_append, List.reverse_singleton, List.singleton_append, List.find?_cons]
  cases refreshes answer.1 <;> rfl

/-- A call that refreshes and answers leaves exact gauges; the calls that do not refresh
keep them exact. -/
theorem serve_gauges (call : RelayCall) (s : RelayService) :
    (refreshes call = true → (Call.verdict (serve call s)).isOk = true →
      (Call.after (serve call s)).observability.gauges =
        currentGauges (Call.after (serve call s)).relay) ∧
    (refreshes call = false → s.observability.gauges = currentGauges s.relay →
      (Call.after (serve call s)).observability.gauges =
        currentGauges (Call.after (serve call s)).relay) := by
  have hgauged : ∀ call : Call (Fault RelayError) (Relay LimiterConfig Limiter)
      (List RoutedMessage), (Call.verdict (gauged call s)).isOk = true →
      (Call.after (gauged call s)).observability.gauges =
        currentGauges (Call.after (gauged call s)).relay := by
    intro call hok
    obtain ⟨hverdict, hafter⟩ := gauged_run call s
    rw [hverdict] at hok
    rw [hafter]
    exact if_pos hok
  cases call with
  | handle connection peerAddress now randomness message =>
    refine ⟨fun _ hok => ?_, fun hno => (by cases hno)⟩
    change (Call.verdict (handle connection peerAddress now randomness message s)).isOk = true
      at hok
    show (Call.after (handle connection peerAddress now randomness message s)).observability.gauges
      = currentGauges (Call.after (handle connection peerAddress now randomness message s)).relay
    cases hresult : handle connection peerAddress now randomness message s with
    | ok messages s' =>
      obtain ⟨relay, rfl⟩ := handle_ok hresult
      rfl
    | error e s' =>
      rw [hresult] at hok
      cases hok
  | disconnect connection =>
    refine ⟨fun hno => (by cases hno), fun _ hexact => ?_⟩
    show (Call.after (disconnect connection s)).observability.gauges =
      currentGauges (Call.after (disconnect connection s)).relay
    unfold disconnect onRelay Call.zoom Relay.disconnect
    cases s.relay.connections.lookup connection <;> exact hexact
  | sweep now => exact ⟨fun _ => hgauged (Relay.sweep now), fun hno => (by cases hno)⟩
  | disableAllocation => exact ⟨fun hno => (by cases hno), fun _ hexact => hexact⟩
  | emergencyClose now =>
    exact ⟨fun _ => hgauged (Relay.emergencyClose now), fun hno => (by cases hno)⟩

theorem run_gauges {s₀ : RelayService}
    (hstart : s₀.observability.gauges = currentGauges s₀.relay) (calls : List RelayCall)
    (hcurrent : upToDate (Runs.trace serve s₀ calls) = true) :
    (Runs.after serve s₀ calls).observability.gauges =
      currentGauges (Runs.after serve s₀ calls).relay := by
  induction calls using List.reverseRecOn with
  | nil => exact hstart
  | append_singleton calls call ih =>
    obtain ⟨hfresh, hkept⟩ := serve_gauges call (Runs.after serve s₀ calls)
    rw [Runs.trace_concat, upToDate_concat] at hcurrent
    rw [Runs.after_concat]
    split_ifs at hcurrent with hrefreshes
    · exact hfresh hrefreshes hcurrent
    · rw [Bool.not_eq_true] at hrefreshes
      exact hkept hrefreshes (ih hcurrent)

theorem run_capacity {s : Relay LimiterConfig Limiter} (h : s.Sound) (calls : List RelayCall) :
    (Runs.after Relay.serve s calls).config.capacity = s.config.capacity := by
  refine Runs.invariant (P := fun _ t => t.config.capacity = s.config.capacity) Relay.serve rfl
    ?_ calls
  intro calls call hcapacity
  have hchanges := Relay.serve_changes (Relay.run_sound h calls) call
  exact hchanges.capacity.trans hcapacity

omit [Primitives] [PeerAddresses] in
theorem atEightyPercent_iff {value cap : UInt64} (h : cap ≠ 0) :
    atEightyPercent value cap = true ↔ cap.toNat * 4 ≤ value.toNat * 5 := by
  simp [atEightyPercent, h]

omit [PeerAddresses] in
/-- The gauges of a sound relay do not overflow. -/
theorem currentGauges_exact {s : Relay LimiterConfig Limiter} (h : s.Sound) :
    (currentGauges s).openMailboxes.toNat = s.mailboxes.size ∧
      (currentGauges s).queueBytes.toNat = Table.total Mailbox.queueBytes s.mailboxes := by
  refine ⟨UInt64.toNat_ofNat_of_lt' (h.size.trans_lt s.config.capacity.openMailboxes.toNat_lt), ?_⟩
  rw [← h.queued]
  exact UInt64.toNat_ofNat_of_lt' (h.room.trans_lt s.config.capacity.queueBytes.toNat_lt)

/-- A new service has counted nothing, and its gauges are those of what it loaded. -/
theorem withStore_ok {config : RelayConfig LimiterConfig} {store : MailboxStore}
    {s : RelayService} (h : withStore config store = .ok s) :
    Relay.withStore config store = .ok s.relay ∧
      (∀ event, s.observability.count event = 0) ∧ s.lastLog = none ∧
      s.observability.gauges = currentGauges s.relay ∧ s.observability.caps = config.capacity := by
  obtain ⟨relay, hrelay, hinit⟩ := except_bind_eq_ok.mp h
  obtain rfl := Except.ok.inj hinit
  exact ⟨hrelay, fun _ => rfl, rfl, rfl, rfl⟩

/-- What an operator reads off a service: the relay answers as it does unobserved, every
command is counted once under what its actor was told, and after a call that has not failed
the gauges and alerts are those of the state. -/
theorem metrics_exact {config : RelayConfig LimiterConfig} {store : MailboxStore}
    {s₀ : RelayService} (hstart : withStore config store = .ok s₀) (calls : List RelayCall) :
    let s := Runs.after serve s₀ calls
    let answers := Runs.trace serve s₀ calls
    answers = Runs.trace Relay.serve s₀.relay calls ∧
    s.relay = Runs.after Relay.serve s₀.relay calls ∧
    s.lastLog = (events answers).getLast? ∧
    (∀ m : OperationMetric, m ∈ s.metrics.operations ↔ m.count ≠ 0 ∧ m.count.toNat =
      min (2 ^ 64 - 1) ((events answers).count ⟨m.operation, m.outcome⟩)) ∧
    (upToDate answers = true →
      s.metrics.gauges.openMailboxes.toNat = s.mailboxCount ∧
      s.metrics.gauges.queueBytes.toNat = Table.total Mailbox.queueBytes s.relay.mailboxes ∧
      s.metrics.gauges = currentGauges s.relay ∧
      (s.metrics.alerts.openMailboxes = true ↔
        config.capacity.openMailboxes.toNat * 4 ≤ s.mailboxCount * 5) ∧
      (s.metrics.alerts.queueBytes = true ↔ config.capacity.queueBytes.toNat * 4 ≤
        Table.total Mailbox.queueBytes s.relay.mailboxes * 5)) := by
  obtain ⟨hrelay, hzero, hempty, hgauged, hcaps₀⟩ := withStore_ok hstart
  obtain ⟨hsound₀, hconfig, -⟩ := Relay.withStore_sound hrelay
  obtain ⟨htrace, hafter⟩ := run_relay s₀ calls
  obtain ⟨hcounted, hlogged, hcaps⟩ := run_counts hzero hempty calls
  refine ⟨htrace, hafter, hlogged, fun m => ?_, fun hcurrent => ?_⟩
  · rw [metrics, RelayObservability.mem_operations, and_comm]
    refine and_congr_right fun _ => ?_
    rw [← hcounted, UInt64.toNat_inj]
    exact eq_comm
  · have hgauges := run_gauges hgauged calls hcurrent
    have hsound := Relay.run_sound hsound₀ calls
    have hcapacity := run_capacity hsound₀ calls
    rw [hconfig] at hcapacity
    obtain ⟨-, -, hnonzero, -⟩ := Relay.withStore_eq_ok.mp hrelay
    obtain ⟨hopen, hqueue⟩ := currentGauges_exact hsound
    rw [mailboxCount, metrics, RelayObservability.metrics, hgauges, hcaps, hcaps₀, hafter]
    refine ⟨hopen, hqueue, rfl, ?_, ?_⟩
    · rw [atEightyPercent_iff (not_or.mp hnonzero).1, hopen]
    · rw [atEightyPercent_iff (not_or.mp (not_or.mp hnonzero).2).1, hqueue]

end RelayService

section Sample

attribute [local instance] Primitives.transparent PeerAddresses.transparent

namespace RelayService

/-- The relay that is used below, before its first call. -/
def observed : RelayService where
  relay := Relay.unloaded RelayConfig.long Limiter.long ⟨∅, []⟩
  observability :=
    { RelayObservability.new RelayConfig.long.capacity with
      gauges := currentGauges (Relay.unloaded RelayConfig.long Limiter.long ⟨∅, []⟩) }
  lastLog := none

theorem withStore_observed : withStore RelayConfig.long ⟨∅, []⟩ = .ok observed := by
  unfold withStore
  rw [Relay.withStore_long]
  rfl

theorem metrics_exact_observed :
    let s := Runs.after serve observed Relay.allocating
    s.mailboxCount = 1 ∧ s.metrics.gauges.openMailboxes.toNat = 1 := by
  have hone : (Runs.after serve observed Relay.allocating).mailboxCount = 1 := by decide +kernel
  obtain ⟨-, -, -, -, hcurrent⟩ := metrics_exact withStore_observed Relay.allocating
  obtain ⟨hopen, -⟩ := hcurrent (by decide +kernel)
  exact ⟨hone, hopen.trans hone⟩

end RelayService

end Sample
end CbclPairing
