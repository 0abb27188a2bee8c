import CbclPairing.Relay.Linearizable

/-! What the relay process sends: as long as a connection is registered, every message a
thread has for it reaches its socket, in the order the thread got them, and can be read. -/
namespace CbclPairing
open Codec Calls Tables

namespace History

variable {h more : History} {c : ConnectionId}

@[simp] theorem sentTo_append : sentTo (h ++ more) c = h.sentTo c ++ sentTo more c :=
  List.filterMap_append

end History

namespace RelayProcess

variable {s₀ s s' : RelayService} {p p' : RelayProcess} {h : History}
  {events : List ProcessEvent} {thread : ThreadId} {call : RelayCall}
  {messages : List RoutedMessage} {c : ConnectionId} {t : Connection} {x : RoutedMessage}

/-! ### Whom the answers are for -/

section Addressees

variable [Primitives] [PeerAddresses]

omit [Primitives] [PeerAddresses] in
theorem fallback_addressed (hx : x ∈ fallback call) :
    call.actor? = some x.connection ∧ x.message.Bounded := by
  cases call with
  | handle connection peer now randomness message =>
    rw [List.mem_singleton.mp hx]
    have hcode : 503 ∈ errorCodes := by decide
    exact ⟨rfl, hcode⟩
  | _ => cases hx

theorem settle_mem
    (hsettle : settle (fallback call) (RelayService.serve call) s = .ok messages s')
    (hx : x ∈ messages) : x ∈ Runs.effects (Relay.serve call s.relay) ∨ x ∈ fallback call := by
  obtain ⟨-, hok | ⟨-, rfl⟩⟩ := settle_ok hsettle
  · rw [(RelayService.serve_relay call s).1] at hok
    left
    cases hserve : Relay.serve call s.relay with
    | ok answer t =>
      rw [hserve] at hok
      cases hok
      exact hx
    | error fault t =>
      rw [hserve] at hok
      cases hok
  · exact .inr hx

/-- A message the encoder accepts, for a connection that acts or that there is a route to. -/
def Addressed (s : RelayService) (call : RelayCall) (x : RoutedMessage) : Prop :=
  (call.actor? = some x.connection ∨ s.relay.Routed x.connection) ∧ x.message.Bounded

theorem sweep_addressed (h : s.relay.Sound) {now : UInt64}
    (hsettle : settle [] (RelayService.serve (.sweep now)) s = .ok messages s')
    (hx : x ∈ messages) : Addressed s (.sweep now) x := by
  have hmem : x ∈ Runs.effects (Relay.serve (.sweep now) s.relay) :=
    (settle_mem hsettle hx).resolve_right List.not_mem_nil
  exact ⟨.inr (Relay.sweep_addressees h hmem), Relay.serve_bounded h (.sweep now) hmem⟩

theorem handle_addressed (h : s.relay.Sound) {peer : Bytes} {now : UInt64}
    {randomness : RelayRandomness} {message : ClientMessage}
    (hsettle : settle (unavailable c)
      (RelayService.serve (.handle c peer now randomness message)) s = .ok messages s')
    (hx : x ∈ messages) : Addressed s (.handle c peer now randomness message) x := by
  rcases settle_mem hsettle hx with hmem | hmem
  · refine ⟨?_, Relay.serve_bounded h _ hmem⟩
    rcases Relay.handle_addressees h hmem with rfl | hroute
    · exact .inl rfl
    · exact .inr hroute
  · obtain ⟨hactor, hbounded⟩ := fallback_addressed hmem
    exact ⟨.inl hactor, hbounded⟩

theorem settle_routed (h : s.relay.Sound)
    (hsettle : settle (fallback call) (RelayService.serve call) s = .ok messages s')
    (hroute : s'.relay.Routed c) : call.actor? = some c ∨ s.relay.Routed c := by
  rw [(settle_ok hsettle).1, (RelayService.serve_relay call s).2] at hroute
  exact Relay.serve_routed h call hroute

end Addressees

/-! ### Sockets and writers -/

/-- Every message taken over is for a connection there is, and the sockets have taken what
was written to them. -/
structure Reaches (h : History) (p : RelayProcess) : Prop where
  routed : ∀ c, p.service.relay.Routed c → c ∈ p.connections
  addressed : ∀ thread, ∀ x ∈ h.takenBy thread, x.connection ∈ p.connections ∧ x.message.Bounded
  registered : ∀ c ∈ p.writers, c ∈ p.connections
  dropped : ∀ thread x, .dropped thread x ∈ h → x.connection ∉ p.writers
  written : ∀ c t, p.connections.lookup c = some t →
    t.output <+: Streams.frames lengthOctets (h.sentTo c) ∧
      (t.broken = false → t.output = Streams.frames lengthOctets (h.sentTo c))
  unknown : ∀ c, c ∉ p.connections → h.sentTo c = []

/-- Nothing is written or dropped, and the sockets and writers stay as they are. -/
theorem Reaches.quiet (hr : Reaches h p) (hkeys : ∀ x, x ∈ p'.connections ↔ x ∈ p.connections)
    (houtput : ∀ c t', p'.connections.lookup c = some t' → ∃ t, p.connections.lookup c = some t ∧
      t'.output = t.output ∧ t'.broken = t.broken)
    (hrouted : ∀ c, p'.service.relay.Routed c → c ∈ p.connections)
    (htaken : ∀ thread, ∀ x ∈ History.takenBy events thread,
      x.connection ∈ p.connections ∧ x.message.Bounded)
    (hwriters : p'.writers ⊆ p.writers)
    (hsent : ∀ c, History.sentTo events c = [])
    (hdropped : ∀ thread x, .dropped thread x ∈ events → x.connection ∉ p.writers) :
    Reaches (h ++ events) p' where
  routed c hroute := (hkeys c).mpr (hrouted c hroute)
  addressed thread x hx := by
    rw [takenBy_append] at hx
    rw [hkeys]
    rcases List.mem_append.mp hx with hx | hx
    · exact hr.addressed thread x hx
    · exact htaken thread x hx
  registered c hc := (hkeys c).mpr (hr.registered c (hwriters hc))
  dropped thread x hx hmem := by
    rcases List.mem_append.mp hx with hx | hx
    · exact hr.dropped thread x hx (hwriters hmem)
    · exact hdropped thread x hx (hwriters hmem)
  written c t' hlookup := by
    obtain ⟨t, ht, hout, hbroken⟩ := houtput c t' hlookup
    rw [History.sentTo_append, hsent, List.append_nil, hout, hbroken]
    exact hr.written c t ht
  unknown c hc := by
    rw [History.sentTo_append, hsent, List.append_nil]
    exact hr.unknown c fun hmem => hc ((hkeys c).mpr hmem)

theorem output_of_set {t' u : Connection} {x : ConnectionId}
    (hlookup : p.connections.lookup c = some t)
    (hu : (p.setConnection c t').connections.lookup x = some u)
    (hsame : t'.output = t.output ∧ t'.broken = t.broken) :
    ∃ t, p.connections.lookup x = some t ∧ u.output = t.output ∧ u.broken = t.broken := by
  rw [lookup_setConnection] at hu
  split_ifs at hu with hx
  · obtain rfl := Option.some.inj hu
    rw [hx]
    exact ⟨t, hlookup, hsame⟩
  · exact ⟨u, hu, rfl, rfl⟩

/-- One connection changes, and its socket does not. -/
theorem Reaches.set (hr : Reaches h p) {t' : Connection}
    (hlookup : p.connections.lookup c = some t)
    (hsame : t'.output = t.output ∧ t'.broken = t.broken)
    (htaken : ∀ thread, ∀ x ∈ History.takenBy events thread,
      x.connection = c ∧ x.message.Bounded)
    (hsent : ∀ c, History.sentTo events c = [])
    (hdropped : ∀ thread x, .dropped thread x ∉ events) :
    Reaches (h ++ events) (p.setConnection c t') := by
  refine hr.quiet (fun x => mem_setConnection hlookup)
    (fun x u hu => output_of_set hlookup hu hsame) hr.routed (fun thread x hx => ?_) (Finset.Subset.refl _) hsent
    (fun thread x hx => absurd hx (hdropped thread x))
  obtain ⟨rfl, hbounded⟩ := htaken thread x hx
  exact ⟨Finmap.mem_of_lookup_eq_some hlookup, hbounded⟩

/-- A thread changes its outbox, and no socket. -/
theorem Reaches.outbox (hr : Reaches h p) {o : Outbox}
    (htaken : ∀ th, History.takenBy events th = []) (hsent : ∀ c, History.sentTo events c = [])
    (hdropped : ∀ th x, .dropped th x ∈ events → x.connection ∉ p.writers) :
    Reaches (h ++ events) (p.setOutbox thread o) := by
  refine hr.quiet (fun x => mem_iff_of_map lookup_setOutbox) (fun x u hu => ?_) (fun x hroute => ?_)
    (fun th x hx => ?_) setOutbox_alike.writers.subset hsent hdropped
  · rw [lookup_setOutbox] at hu
    obtain ⟨t, ht, rfl⟩ := Option.map_eq_some_iff.mp hu
    refine ⟨t, ht, ?_⟩
    split_ifs <;> exact ⟨rfl, rfl⟩
  · rw [setOutbox_alike.service] at hroute
    exact hr.routed x hroute
  · rw [htaken] at hx
    cases hx

theorem taken_refused {code : ℕ} (hcode : code ∈ errorCodes)
    (hx : x ∈ History.takenBy [.refused c code] thread) :
    x.connection = c ∧ x.message.Bounded := by
  have hmem : x ∈ ProcessEvent.taken thread (.refused c code) := by
    simpa [History.takenBy] using hx
  dsimp only [ProcessEvent.taken] at hmem
  split_ifs at hmem
  · rw [List.mem_singleton.mp hmem]
    exact ⟨rfl, hcode⟩
  · cases hmem

/-- A message a thread is done with, or has still to send, was taken over. -/
theorem Sending.taken_of_settled (hs : Sending h p) (hx : x ∈ h.settledBy thread) :
    x ∈ h.takenBy thread := by
  rw [← hs.kept thread]
  exact List.mem_append_left _ hx

theorem Sending.taken_of_unsent (hs : Sending h p) (hx : x ∈ (p.outbox thread).unsent) :
    x ∈ h.takenBy thread := by
  rw [← hs.kept thread]
  exact List.mem_append_right _ hx

theorem mem_settledBy_of_dropped (hx : .dropped thread x ∈ h) : x ∈ h.settledBy thread :=
  List.mem_filterMap.mpr ⟨.dropped thread x, hx, if_pos rfl⟩

/-- A connection is accepted under an identifier nothing was sent to. -/
theorem Reaches.accepted (hr : Reaches h p) (hs : Sending h p)
    (hnew : p.nextConnection ∉ p.connections) (peer : Bytes) :
    Reaches (h ++ [.accepted p.nextConnection peer])
      { p.setConnection p.nextConnection { peer } with
        accepted := p.accepted + 1
        writers := insert p.nextConnection p.writers } := by
  have hkeys : ∀ x, x ∈ (p.setConnection p.nextConnection { peer }).connections ↔
      x = p.nextConnection ∨ x ∈ p.connections := fun x => Finmap.mem_insert
  constructor
  · intro x hroute
    exact (hkeys x).mpr (.inr (hr.routed x hroute))
  · intro thread x hx
    have hbefore : x ∈ h.takenBy thread := by
      simpa [History.takenBy, ProcessEvent.taken] using hx
    obtain ⟨hknown, hbounded⟩ := hr.addressed thread x hbefore
    exact ⟨(hkeys _).mpr (.inr hknown), hbounded⟩
  · intro x hx
    rcases Finset.mem_insert.mp hx with rfl | hx
    · exact (hkeys _).mpr (.inl rfl)
    · exact (hkeys x).mpr (.inr (hr.registered x hx))
  · intro thread x hx hmem
    have hbefore : .dropped thread x ∈ h := by simpa using hx
    have hknown := (hr.addressed thread x
      (hs.taken_of_settled (mem_settledBy_of_dropped hbefore))).1
    rcases Finset.mem_insert.mp hmem with heq | hmem
    · exact hnew (heq ▸ hknown)
    · exact hr.dropped thread x hbefore hmem
  · intro x u hlookup
    have hsent : History.sentTo (h ++ [.accepted p.nextConnection peer]) x = h.sentTo x := by
      rw [History.sentTo_append]
      exact List.append_nil _
    have hlookup' : (p.setConnection p.nextConnection { peer }).connections.lookup x = some u :=
      hlookup
    rw [lookup_setConnection] at hlookup'
    rw [hsent]
    split_ifs at hlookup' with hx
    · obtain rfl := Option.some.inj hlookup'
      rw [hx, hr.unknown _ hnew]
      exact ⟨List.prefix_rfl, fun _ => rfl⟩
    · exact hr.written x u hlookup'
  · intro x hx
    rw [History.sentTo_append, hr.unknown x fun hmem => hx ((hkeys x).mpr (.inr hmem))]
    rfl

/-- A socket takes what it has room for, and no more once it is broken. -/
theorem write_written {t : Connection} {frames frame : Bytes} (room : ℕ)
    (hpart : t.output <+: frames) (hwhole : t.broken = false → t.output = frames) :
    (Connection.write t frame room).output <+: frames ++ frame ∧
      ((Connection.write t frame room).broken = false →
        (Connection.write t frame room).output = frames ++ frame) := by
  unfold Connection.write
  split_ifs with hbroken
  · refine ⟨hpart.trans (List.prefix_append frames frame), fun hsane => ?_⟩
    rw [hbroken] at hsane
    cases hsane
  · rw [hwhole (by simpa using hbroken)]
    refine ⟨(List.prefix_append_right_inj frames).mpr (List.take_prefix room frame),
      fun hsane => ?_⟩
    have hroom : frame.length ≤ room := by simpa using hsane
    rw [List.take_of_length_le hroom]

theorem Reaches.wrote (hr : Reaches h p) {message : RoutedMessage} {octets : Bytes} {o : Outbox}
    (room : ℕ) (hknown : message.connection ∈ p.connections) :
    Reaches (h ++ [.sent thread message octets]) ((p.setOutbox thread o).transmit
      message.connection (Streams.framed lengthOctets octets) room) := by
  have hkeys : ∀ x, x ∈ ((p.setOutbox thread o).transmit message.connection
      (Streams.framed lengthOctets octets) room).connections ↔ x ∈ p.connections :=
    fun x => mem_iff_of_map lookup_wrote
  constructor
  · intro x hroute
    rw [wrote_alike.service] at hroute
    exact (hkeys x).mpr (hr.routed x hroute)
  · intro th x hx
    have hbefore : x ∈ h.takenBy th := by
      simpa [History.takenBy, ProcessEvent.taken] using hx
    rw [hkeys]
    exact hr.addressed th x hbefore
  · intro x hx
    rw [wrote_alike.writers] at hx
    exact (hkeys x).mpr (hr.registered x hx)
  · intro th x hx
    rw [wrote_alike.writers]
    exact hr.dropped th x (by simpa using hx)
  · intro x u hlookup
    rw [lookup_wrote] at hlookup
    obtain ⟨t, ht, rfl⟩ := Option.map_eq_some_iff.mp hlookup
    dsimp only
    generalize hu : (if some x = thread then { t with outbox := o } else t) = u
    have hsame : u.output = t.output ∧ u.broken = t.broken := by
      rw [← hu]
      split_ifs <;> exact ⟨rfl, rfl⟩
    obtain ⟨hpart, hwhole⟩ := hr.written x t ht
    rw [← hsame.1] at hpart hwhole
    rw [← hsame.2] at hwhole
    split_ifs with hx
    · have hsent : History.sentTo (h ++ [.sent thread message octets]) x =
          h.sentTo x ++ [octets] := by
        simp [History.sentTo, ProcessEvent.sentTo?, hx]
      rw [hsent, Streams.frames_append, Streams.frames_cons, Streams.frames_nil, List.append_nil]
      exact write_written room hpart hwhole
    · have hsent : History.sentTo (h ++ [.sent thread message octets]) x = h.sentTo x := by
        have hne : message.connection ≠ x := fun heq => hx heq.symm
        simp [History.sentTo, ProcessEvent.sentTo?, hne]
      rw [hsent]
      exact ⟨hpart, hwhole⟩
  · intro x hx
    have hne : message.connection ≠ x := by
      rintro rfl
      exact hx ((hkeys _).mpr hknown)
    rw [History.sentTo_append, hr.unknown x fun hmem => hx ((hkeys x).mpr hmem)]
    simp [History.sentTo, ProcessEvent.sentTo?, hne]

theorem Reaches.moved [Primitives] [PeerAddresses] (hr : Reaches h p) (hc : Coherent s₀ h p)
    (hsound : p.service.relay.Sound) (hm : Moves p events p') (hfew : p.accepted < 2 ^ 64) :
    Reaches (h ++ events) p' := by
  cases hm with
  | aborted =>
    rw [List.append_nil]
    exact ⟨hr.routed, hr.addressed, hr.registered, hr.dropped, hr.written, hr.unknown⟩
  | accepted peer =>
    have hnew := Finmap.lookup_eq_none.mp (hc.numbered.fresh hfew)
    exact hr.accepted hc.toSending hnew peer
  | arrived octets hlookup =>
    exact hr.set hlookup ⟨rfl, rfl⟩ (by simp [History.takenBy, ProcessEvent.taken])
      (fun _ => rfl) (by simp)
  | finished ending hlookup =>
    exact hr.set hlookup ⟨rfl, rfl⟩ (by simp [History.takenBy]) (fun _ => rfl) (by simp)
  | closed hlookup hstage =>
    exact hr.set hlookup ⟨rfl, rfl⟩ (by simp [History.takenBy]) (fun _ => rfl) (by simp)
  | failed hlookup hstage =>
    exact hr.set hlookup ⟨rfl, rfl⟩ (fun _ _ => taken_refused (by decide)) (fun _ => rfl) (by simp)
  | @refused c t octets rest request code hlookup hstage hinput hmeant hcode =>
    have hknown : code ∈ errorCodes := by
      rcases hcode with ⟨-, rfl⟩ | ⟨-, rfl⟩ <;> decide
    exact hr.set hlookup ⟨rfl, rfl⟩ (fun _ _ hx => taken_refused hknown hx) (fun _ => rfl) (by simp)
  | asked now randomness hlookup hstage hinput hdecode =>
    exact hr.set hlookup ⟨rfl, rfl⟩ (by simp [History.takenBy, ProcessEvent.taken])
      (fun _ => rfl) (by simp)
  | @served c t now randomness message expired replies s s' hlookup hstage hsweep hhandle =>
    have hknown : c ∈ p.connections := Finmap.mem_of_lookup_eq_some hlookup
    have hsound' : s.relay.Sound := by
      rw [(settle_ok hsweep).1]
      exact serve_sound hsound _
    have hbetween : ∀ x, s.relay.Routed x → x ∈ p.connections := by
      intro x hroute
      rcases settle_routed hsound hsweep hroute with hactor | hroute
      · cases hactor
      · exact hr.routed x hroute
    refine hr.quiet (fun x => mem_setConnection hlookup)
      (fun x u hu => output_of_set hlookup hu ⟨rfl, rfl⟩) (fun x hroute => ?_)
      (fun thread x hx => ?_) (Finset.Subset.refl _) (fun _ => rfl) (by simp)
    · rcases settle_routed hsound' hhandle hroute with hactor | hroute
      · exact Option.some.inj hactor ▸ hknown
      · exact hbetween x hroute
    · have hmem : x ∈ expired ∨ x ∈ replies := by
        simp only [History.takenBy, ProcessEvent.taken, List.flatMap_cons, List.flatMap_nil,
          List.append_nil] at hx
        split_ifs at hx
        · exact List.mem_append.mp hx
        · cases hx
      rcases hmem with hmem | hmem
      · obtain ⟨hactor | hroute, hbounded⟩ := sweep_addressed hsound hsweep hmem
        · cases hactor
        · exact ⟨hr.routed _ hroute, hbounded⟩
      · obtain ⟨hactor | hroute, hbounded⟩ := handle_addressed hsound' hhandle hmem
        · exact ⟨Option.some.inj hactor ▸ hknown, hbounded⟩
        · exact ⟨hbetween _ hroute, hbounded⟩
  | rested hlookup hstage hempty =>
    exact hr.set hlookup ⟨rfl, rfl⟩ (by simp [History.takenBy]) (fun _ => rfl) (by simp)
  | @disconnected c t hlookup hstage =>
    refine hr.quiet (fun x => mem_setConnection hlookup)
      (fun x u hu => output_of_set hlookup hu ⟨rfl, rfl⟩) (fun x hroute => ?_)
      (by simp [History.takenBy, ProcessEvent.taken]) (Finset.Subset.refl _) (fun _ => rfl)
      (by simp)
    rcases settle_routed hsound (disconnect_settled c p.service) hroute with hactor | hroute
    · cases hactor
    · exact hr.routed x hroute
  | @unregistered c t hlookup hstage =>
    exact hr.quiet (fun x => mem_setConnection hlookup)
      (fun x u hu => output_of_set hlookup hu ⟨rfl, rfl⟩) hr.routed
      (by simp [History.takenBy, ProcessEvent.taken]) (Finset.erase_subset c p.writers)
      (fun _ => rfl) (by simp)
  | @woke now messages s hempty hsweep =>
    refine hr.quiet (fun x => Iff.rfl) (fun x u hu => ⟨u, hu, rfl, rfl⟩) (fun x hroute => ?_)
      (fun thread x hx => ?_) (Finset.Subset.refl _) (fun _ => rfl) (by simp)
    · rcases settle_routed hsound hsweep hroute with hactor | hroute
      · cases hactor
      · exact hr.routed x hroute
    · have hmem : x ∈ messages := by
        simp only [History.takenBy, ProcessEvent.taken, List.flatMap_cons, List.flatMap_nil,
          List.append_nil] at hx
        split_ifs at hx
        · exact hx
        · cases hx
      obtain ⟨hactor | hroute, hbounded⟩ := sweep_addressed hsound hsweep hmem
      · cases hactor
      · exact ⟨hr.routed _ hroute, hbounded⟩
  | @wrote thread queue message octets room hsends houtbox =>
    have hunsent : message ∈ (p.outbox thread).unsent := by
      rw [houtbox]
      exact List.mem_cons_self
    exact hr.wrote room (hr.addressed thread message (hc.toSending.taken_of_unsent hunsent)).1
  | @looked thread queue message octets hsends houtbox hregistered hencode =>
    exact hr.outbox (by simp [History.takenBy]) (fun _ => rfl) (by simp)
  | @dropped thread queue message hsends houtbox hnone =>
    have hunsent : message ∈ (p.outbox thread).unsent := by
      rw [houtbox]
      exact List.mem_cons_self
    have hbounded := (hr.addressed thread message (hc.toSending.taken_of_unsent hunsent)).2
    refine hr.outbox (by simp [History.takenBy, ProcessEvent.taken]) (fun _ => rfl) ?_
    intro th x hx hmem
    obtain ⟨rfl, rfl⟩ := ProcessEvent.dropped.inj (List.mem_singleton.mp hx)
    -- the encoder does not refuse what the relay answers
    obtain ⟨e, herror⟩ := hnone hmem
    rw [Wire.encodeServerMessage_bounded hbounded] at herror
    cases herror

/-! ### What a reader gets -/

/-- To a connection that is registered nothing was dropped. -/
theorem sentBy_eq (hr : Reaches h p) (hregistered : c ∈ p.writers) (thread : ThreadId) :
    h.sentBy thread c = (h.settledBy thread).filter (·.connection = c) := by
  rw [History.sentBy, History.writtenTo, List.filterMap_filterMap, History.settledBy,
    List.filter_filterMap]
  refine List.filterMap_congr fun event hevent => ?_
  cases event with
  | sent th message octets =>
    by_cases hth : th = thread <;> by_cases hc : message.connection = c <;>
      simp [ProcessEvent.written?, ProcessEvent.settled?, Option.filter, hth, hc]
  | dropped th message =>
    have hne : message.connection ≠ c := by
      rintro rfl
      exact hr.dropped th message hevent hregistered
    by_cases hth : th = thread <;>
      simp [ProcessEvent.written?, ProcessEvent.settled?, Option.filter, hth, hne]
  | _ => rfl

/-- Every frame that was written is the encoding of its message. -/
theorem sentTo_decoded [Primitives] (hs : Sending h p) (c : ConnectionId) :
    (h.sentTo c).map Wire.decodeServerMessage =
      (h.writtenTo c).map fun x => .ok x.2.message := by
  rw [History.sentTo, History.writtenTo, List.map_filterMap, List.map_filterMap]
  refine List.filterMap_congr fun event hevent => ?_
  cases event with
  | sent th message octets =>
    have hencode := hs.encoded th message octets hevent
    have hdecode : Wire.decodeServerMessage octets = .ok message.message :=
      Wire.serverMessage_faithful.decode_of_encode hencode
    by_cases hc : message.connection = c <;>
      simp [ProcessEvent.sentTo?, ProcessEvent.written?, hc, hdecode]
  | _ => rfl

theorem sentTo_admissible (hr : Reaches h p) (hs : Sending h p) {octets : Bytes}
    (hmem : octets ∈ h.sentTo c) : Streams.Admissible maxWireMessage octets := by
  obtain ⟨event, hevent, hsent⟩ := List.mem_filterMap.mp hmem
  cases event with
  | sent thread message written =>
    have htaken := hs.taken_of_settled (List.mem_filterMap.mpr
      ⟨.sent thread message written, hevent, if_pos rfl⟩)
    have hbounded := (hr.addressed thread message htaken).2
    have hencode := hs.encoded thread message written hevent
    rw [Wire.encodeServerMessage_bounded hbounded] at hencode
    dsimp only [ProcessEvent.sentTo?] at hsent
    split_ifs at hsent
    obtain rfl := Option.some.inj hsent
    obtain rfl := Except.ok.inj hencode
    exact Wire.server_length hbounded
  | _ => cases hsent

/-! ### Runs -/

section Runs

variable [Primitives] [PeerAddresses] {config : RelayConfig LimiterConfig} {store : MailboxStore}

omit [Primitives] [PeerAddresses] in
theorem Reaches.start (hstart : s₀.relay.routes = ∅) : Reaches [] { service := s₀ } where
  routed c hroute := by
    obtain ⟨key, hkey⟩ := hroute
    rw [show RelayProcess.service { service := s₀ } = s₀ from rfl, hstart] at hkey
    cases hkey
  addressed thread x hx := by cases hx
  registered c hc := absurd hc (Finset.notMem_empty c)
  dropped thread x hx := by cases hx
  written c t hlookup := by cases hlookup
  unknown c _ := rfl

theorem run_reaches (hsound : s₀.relay.Sound) (hstart : s₀.relay.routes = ∅)
    (acts : List ProcessAct) (hfew : (Runs.after step { service := s₀ } acts).accepted < 2 ^ 64) :
    Reaches (Runs.released step { service := s₀ } acts)
      (Runs.after step { service := s₀ } acts) := by
  induction acts using List.reverseRecOn with
  | nil => exact Reaches.start hstart
  | append_singleton acts act ih =>
    rw [Runs.after_concat] at hfew ⊢
    have hbefore := (step_accepted act _).trans_lt hfew
    have hcoherent := run_coherent hsound acts hbefore
    have hservice := hcoherent.toServes.sound hsound
    rw [Runs.released_concat]
    rcases step_cases act hcoherent.sane hservice with hm | ⟨heffects, hafter⟩
    · exact (ih hbefore).moved hcoherent hservice hm hbefore
    · rw [heffects, hafter, List.append_nil]
      exact ih hbefore

/-- As long as a connection is registered, no message for it is lost, doubled, or overtaken
by a later one of the same thread: what each thread wrote to it and has left to write is
what the thread got for it. What was written decodes to these messages, and a reader that
frames as the relay does reads, from whatever part of the octets it has, the first of
them, and all of them from an unbroken socket. -/
theorem delivers (hstart : RelayService.withStore config store = .ok s₀)
    (acts : List ProcessAct) (hfew : (Runs.after step { service := s₀ } acts).accepted < 2 ^ 64) :
    let p := Runs.after step { service := s₀ } acts
    let h : History := Runs.released step { service := s₀ } acts
    ∀ c t, p.connections.lookup c = some t → c ∈ p.writers →
      (∀ thread, h.sentBy thread c ++ (p.outbox thread).unsent.filter (·.connection = c) =
        (h.takenBy thread).filter (·.connection = c)) ∧
      ((h.sentTo c).map Wire.decodeServerMessage = (h.writtenTo c).map fun x => .ok x.2.message) ∧
      (∀ received, received <+: t.output →
        Streams.messages lengthOctets maxWireMessage received <+: h.sentTo c) ∧
      (t.broken = false → Streams.messages lengthOctets maxWireMessage t.output = h.sentTo c) := by
  intro p h c t hlookup hregistered
  obtain ⟨hsound, -, -, -, hroutes⟩ := Relay.withStore_sound (RelayService.withStore_ok hstart).1
  have hcoherent := run_coherent hsound acts hfew
  have hreaches := run_reaches hsound hroutes acts hfew
  have hadmissible : ∀ octets ∈ h.sentTo c, Streams.Admissible maxWireMessage octets :=
    fun octets hmem => sentTo_admissible hreaches hcoherent.toSending hmem
  have hwidth : maxWireMessage < 256 ^ lengthOctets := by decide
  obtain ⟨hpart, hwhole⟩ := hreaches.written c t hlookup
  refine ⟨fun thread => ?_, sentTo_decoded hcoherent.toSending c, fun received hreceived => ?_,
    fun hsane => ?_⟩
  · have hkept := hcoherent.kept thread
    rw [sentBy_eq hreaches hregistered, ← List.filter_append]
    exact congrArg _ hkept
  · exact (Streams.messages_of_prefix hwidth hadmissible (hreceived.trans hpart)).1
  · exact (Streams.messages_of_prefix hwidth hadmissible hpart).2.2 (hwhole hsane)

end Runs

section Sample

attribute [local instance] Primitives.transparent PeerAddresses.transparent

theorem delivers_joining :
    let p := Runs.after step { service := RelayService.observed } joining
    let h : History := Runs.released step { service := RelayService.observed } joining
    ∃ t, p.connections.lookup 1 = some t ∧
      Streams.messages lengthOctets maxWireMessage t.output = h.sentTo 1 ∧
      (h.sentTo 1).length = 1 := by
  have hsane : ((Runs.after step { service := RelayService.observed } joining).connections.lookup
      1).map Connection.broken = some false := by
    decide +kernel
  obtain ⟨t, hlookup, hbroken⟩ := Option.map_eq_some_iff.mp hsane
  obtain ⟨-, -, -, hall⟩ := delivers RelayService.withStore_observed joining (by decide +kernel) 1 t
    hlookup (by decide +kernel)
  exact ⟨t, hlookup, hall hbroken, by decide +kernel⟩

end Sample

end RelayProcess
end CbclPairing
