import CbclPairing.CredentialV2.Capacity

/-! What an allocator session has ever put on the wire, across crashes that each
return to the latest confirmed checkpoint. -/
namespace CbclPairing
namespace CredentialV2
open Codec Codec.Cbor Calls

variable [Primitives] {V : Type}

namespace AllocatorEffect

def put? : AllocatorEffect → Option (UInt8 × Bytes)
  | .send (.put sequence body) => some (sequence, body)
  | _ => none

omit [Primitives] in
theorem put?_eq_some {effect : AllocatorEffect} {sequence : UInt8} {body : Bytes} :
    effect.put? = some (sequence, body) ↔ effect = .send (.put sequence body) := by
  cases effect with
  | send message => cases message <;> simp [put?]
  | _ => simp [put?]

/-- The puts among some effects, in order. -/
def puts (effects : List AllocatorEffect) : List (UInt8 × Bytes) := effects.filterMap put?

omit [Primitives] in
theorem puts_append (effects more : List AllocatorEffect) :
    puts (effects ++ more) = puts effects ++ puts more := List.filterMap_append

end AllocatorEffect

namespace AllocatorSession
open AllocatorState AllocatorEffect

variable [BodyVerifier V]

/-- A property of everything put so far and the state it is put from: replays of
the cached put keep it, every transition extends it by its own put, and sealing
and restoring do not touch it. -/
structure HistoryInvariant (host : AllocatorHost)
    (F : List (UInt8 × Bytes) → AllocatorState V → Prop) : Prop where
  awaitWelcome : F [] .awaitWelcome
  awaitAllocation : F [] .awaitAllocation
  replayed : ∀ {sent : List (UInt8 × Bytes)} {state : AllocatorState V} {sequence : UInt8}
    {body : Bytes}, F sent state → state.Contains (.send (.put sequence body)) →
    F (sent ++ [(sequence, body)]) state
  moved : ∀ {sent : List (UInt8 × Bytes)} {s s₁ : AllocatorSession V} {cause : Cause}
    {after : List AllocatorEffect}, s.state.Coherent host.mode host.profileDigest →
    s.state.Settled → F sent s.state → Transition s cause s₁ after → F (sent ++ puts after) s₁.state
  sealed_ : ∀ {sent : List (UInt8 × Bytes)} {key : Octets 32} {now generation : UInt64}
    {nonce : Octets 12} {checkpoint carrier : Bytes} {state state' : AllocatorState V},
    Seals key now nonce state generation checkpoint carrier state' → F sent state → F sent state'
  resumed : ∀ {sent : List (UInt8 × Bytes)} {state state' : AllocatorState V},
    state.Resumes state' → (F sent state' ↔ F sent state)

/-- The state a stored checkpoint holds. -/
def Holds (host : AllocatorHost) (stored : StoredCheckpoint) (state' : AllocatorState V) : Prop :=
  ∃ now nonce state, Seals host.wrappingKey now nonce state stored.generation stored.checkpoint
    stored.carrier state' ∧ state.Coherent host.mode host.profileDigest

/-- A live session beside what was put: at rest it stands on the confirmed
checkpoint, behind a gate its puts are still to come. -/
inductive Stands (host : AllocatorHost) (F : List (UInt8 × Bytes) → AllocatorState V → Prop)
    (sent : List (UInt8 × Bytes)) (w : Recovery.World (AllocatorSession V) StoredCheckpoint)
    (s : AllocatorSession V) : Prop
  | ended : s.state = .terminal → s.Idle → Stands host F sent w s
  | resting : s.state ≠ .terminal → s.Idle → F sent s.state →
      (∀ stored ∈ w.confirmed, ∃ state, Holds host stored state ∧
        (s.state = state ∨ state.Resumes s.state)) →
      (w.confirmed = none → s.state = .awaitWelcome ∨ s.state = .awaitAllocation) →
      Stands host F sent w s
  | gated {stored : StoredCheckpoint} : s.persistenceGate = some stored.generation →
      w.emitted = some stored → Holds host stored s.state →
      F (sent ++ puts s.afterPersist) s.state → Stands host F sent w s

structure Tracked (host : AllocatorHost) (F : List (UInt8 × Bytes) → AllocatorState V → Prop)
    (sent : List (UInt8 × Bytes)) (w : Recovery.World (AllocatorSession V) StoredCheckpoint) :
    Prop where
  confirmed : ∀ stored ∈ w.confirmed, ∃ state, Holds host stored state ∧ F sent state
  unconfirmed : w.confirmed = none → sent = []
  live : ∀ s ∈ w.live, Stands host F sent w s

theorem HistoryInvariant.replays {host : AllocatorHost}
    {F : List (UInt8 × Bytes) → AllocatorState V → Prop} (hF : HistoryInvariant host F)
    {state : AllocatorState V} {effects : List AllocatorEffect}
    (heffects : ∀ effect ∈ effects, effect.Announces → effect.Transfer ∧ state.Contains effect)
    {sent : List (UInt8 × Bytes)} (h : F sent state) : F (sent ++ puts effects) state := by
  induction effects generalizing sent with
  | nil => simpa [puts] using h
  | cons effect effects ih =>
    have hrest := fun effect heffect => heffects effect (List.mem_cons_of_mem _ heffect)
    cases hput : effect.put? with
    | none => simpa [puts, hput] using ih hrest h
    | some p =>
      obtain ⟨sequence, body⟩ := p
      obtain rfl := put?_eq_some.mp hput
      have hcontains := (heffects _ List.mem_cons_self trivial).2
      have := ih hrest (hF.replayed h hcontains)
      simpa [puts, put?] using this

omit [BodyVerifier V] in
/-- A state that accounts for no put releases none directly. -/
theorem Direct.no_puts {s s' : AllocatorSession V} {effects : List AllocatorEffect}
    (h : Direct s effects s')
    (hstate : ∀ sequence body, ¬s.state.Contains (.send (.put sequence body))) :
    puts effects = [] := by
  refine List.filterMap_eq_nil_iff.mpr fun effect heffect => ?_
  cases hput : effect.put? with
  | none => rfl
  | some p =>
    obtain ⟨sequence, body⟩ := p
    obtain rfl := put?_eq_some.mp hput
    exact absurd (h.contained _ heffect trivial).2 (hstate sequence body)

theorem Seals.shape {key : Octets 32} {now generation : UInt64} {nonce : Octets 12}
    {checkpoint carrier : Bytes} {state state' : AllocatorState V}
    (h : Seals key now nonce state generation checkpoint carrier state') :
    (∃ b, state' = .bootstrap b) ∨ ∃ e, state' = .established e := by
  cases h with
  | bootstrap => exact .inl ⟨_, rfl⟩
  | established => exact .inr ⟨_, rfl⟩

omit [BodyVerifier V] in
theorem stored_of_uncheckpointed [BodyVerifier V] {host : AllocatorHost} {c : AllocatorCall}
    {effects : List AllocatorEffect} {s : AllocatorSession V}
    {w : Recovery.World (AllocatorSession V) StoredCheckpoint}
    (heffects : ∀ effect ∈ effects, effect.generation? = none)
    (hc : ∀ generation, c ≠ .checkpointPersisted generation) :
    (machine host).stored c effects s w = { w with live := some s } := by
  have hnone : effects.filterMap (machine host (V := V)).checkpoint? = [] :=
    List.filterMap_eq_nil_iff.mpr fun effect heffect => checkpoint?_eq_none (heffects effect heffect)
  have hconfirms : w.emitted.any ((machine host (V := V)).confirms c) = false := by
    cases c with
    | checkpointPersisted generation => exact absurd rfl (hc generation)
    | _ => cases w.emitted <;> rfl
  simp [Recovery.Machine.stored, hnone, hconfirms]

variable {host : AllocatorHost} {F : List (UInt8 × Bytes) → AllocatorState V → Prop}
  {sent : List (UInt8 × Bytes)} {w : Recovery.World (AllocatorSession V) StoredCheckpoint}
  {s s' : AllocatorSession V}

/-- A direct release keeps the record: it replays what the state accounts for. -/
theorem Tracked.direct (hF : HistoryInvariant host F) (h : Tracked host F sent w)
    (hlive : w.live = some s) (hgate : s.persistenceGate = none) {effects : List AllocatorEffect}
    (hdirect : Direct s effects s') :
    Tracked host F (sent ++ puts effects) { w with live := some s' } := by
  obtain ⟨hkeeps, hgate', hempty'⟩ := hdirect.keeps
  cases h.live s hlive with
  | ended hterminal hidle =>
    have hnone := hdirect.no_puts (by rw [hterminal]; exact fun _ _ h => (by cases h))
    rw [hnone, List.append_nil]
    refine ⟨h.confirmed, h.unconfirmed, fun t ht => ?_⟩
    obtain rfl := Option.some.inj ht
    refine .ended ?_ ⟨hgate'.trans hidle.ungated, hempty' hidle.empty⟩
    rw [hterminal] at hkeeps
    rcases hkeeps with hsame | ⟨hne, -⟩ | hsame
    · exact hsame
    · cases hne
    · exact hsame
  | resting hopen hidle hsent hstands hearly =>
    have hreplayed := hF.replays hdirect.contained hsent
    have hidle' : s'.Idle := ⟨hgate'.trans hidle.ungated, hempty' hidle.empty⟩
    refine ⟨fun stored hstored => ?_, fun hnone => ?_, fun t ht => ?_⟩
    · obtain ⟨state, hholds, rfl | hresumes⟩ := hstands stored hstored
      · exact ⟨_, hholds, hreplayed⟩
      · exact ⟨state, hholds, (hF.resumed hresumes).mp hreplayed⟩
    · rw [h.unconfirmed hnone, hdirect.no_puts, List.append_nil]
      rcases hearly hnone with hstate | hstate <;> rw [hstate] <;> exact fun _ _ h => (by cases h)
    · obtain rfl := Option.some.inj ht
      rcases hkeeps with hsame | ⟨hwelcome, hallocation⟩ | hterminal
      · exact .resting (hsame ▸ hopen) hidle' (hsame ▸ hreplayed) (hsame ▸ hstands)
          (hsame ▸ hearly)
      · have hnone : w.confirmed = none := by
          refine Option.eq_none_iff_forall_not_mem.mpr fun stored hstored => ?_
          obtain ⟨state, ⟨_, _, _, hseals, -⟩, hsame⟩ := hstands stored hstored
          rw [hwelcome] at hsame
          rcases hsame with hsame | hresumes
          · rcases hseals.shape with ⟨b, hb⟩ | ⟨e, he⟩
            · cases hsame.trans hb
            · cases hsame.trans he
          · cases hresumes
        refine .resting (by simp [hallocation]) hidle' ?_ (by simp [hnone])
          fun _ => .inr hallocation
        rw [hallocation, h.unconfirmed hnone,
          hdirect.no_puts (by rw [hwelcome]; exact fun _ _ h => (by cases h))]
        exact hF.awaitAllocation
      · exact .ended hterminal hidle'
  | gated hgated => exact absurd (hgate.symm.trans hgated) (by simp)

/-- A sealed move leaves its puts behind the gate of the checkpoint it returns. -/
theorem Tracked.moved (hF : HistoryInvariant host F) (h : Tracked host F sent w)
    (hlive : w.live = some s) (hgate : s.persistenceGate = none) (hkept : Kept host Settled s)
    {c : AllocatorCall} {cause : Cause} (hcause : c.cause = some cause) {s₁ : AllocatorSession V}
    {now : UInt64} {nonce : Octets 12} {after effects : List AllocatorEffect}
    (htransition : Transition s cause s₁ after) (hsealed : Sealed s₁ after now nonce effects s') :
    Tracked host F (sent ++ puts effects) ((machine host).stored c effects s' w) := by
  have hrunning := hkept.running htransition.generation.1
  obtain ⟨generation, checkpoint, carrier, state', hseals, rfl, rfl⟩ := hsealed
  have hconfirms : w.emitted.any ((machine host (V := V)).confirms c) = false := by
    cases c with
    | checkpointPersisted generation => cases hcause
    | _ => cases w.emitted <;> rfl
  have hconfirmed : ((machine host).stored c [.checkpoint generation checkpoint carrier]
      { s₁ with state := state', persistenceGate := some generation, afterPersist := after }
      w).confirmed = w.confirmed := by
    simp [Recovery.Machine.stored, hconfirms]
  rw [show puts [AllocatorEffect.checkpoint generation checkpoint carrier] = [] from rfl,
    List.append_nil]
  refine ⟨by rw [hconfirmed]; exact h.confirmed, by rw [hconfirmed]; exact h.unconfirmed,
    fun t ht => ?_⟩
  obtain rfl := Option.some.inj ht
  cases h.live s hlive with
  | ended hterminal => exact absurd hterminal htransition.generation.1
  | gated hgated => exact absurd (hgate.symm.trans hgated) (by simp)
  | resting _ _ hsent =>
    have hcoherent : s.state.Coherent s.mode s.profileDigest := by
      rw [hrunning.mode, hrunning.profileDigest]
      exact hrunning.coherent
    obtain ⟨hcoherent, -, -, hkey⟩ := htransition.coherent hcoherent
    rw [hrunning.mode, hrunning.profileDigest] at hcoherent
    rw [hkey, hrunning.wrappingKey] at hseals
    have hmoved := hF.moved hrunning.coherent hrunning.invariant hsent htransition
    have hholds : Holds host ⟨generation, checkpoint, carrier⟩ state' :=
      ⟨now, nonce, s₁.state, hseals, hcoherent⟩
    exact .gated rfl rfl hholds (hF.sealed_ hseals hmoved)

/-- Confirming the checkpoint a session waits for releases its puts. -/
theorem Tracked.persisted (h : Tracked host F sent w) (hlive : w.live = some s)
    {generation : UInt64} (hgate : s.persistenceGate = some generation) :
    Tracked host F (sent ++ puts s.afterPersist)
      ((machine host).stored (.checkpointPersisted generation) s.afterPersist
        { s with persistenceGate := none, afterPersist := [] } w) := by
  cases h.live s hlive with
  | ended _ hidle => exact absurd (hidle.ungated.symm.trans hgate) (by simp)
  | resting _ hidle => exact absurd (hidle.ungated.symm.trans hgate) (by simp)
  | @gated stored hgated hemitted hholds hsent =>
    obtain rfl := Option.some.inj (hgate.symm.trans hgated)
    have hconfirmed : ((machine host).stored (.checkpointPersisted stored.generation)
        s.afterPersist { s with persistenceGate := none, afterPersist := [] } w).confirmed =
        some stored := by
      simp [Recovery.Machine.stored, hemitted, machine]
    refine ⟨?_, by simp [hconfirmed], fun t ht => ?_⟩
    · rw [hconfirmed]
      rintro _ ⟨⟩
      exact ⟨s.state, hholds, hsent⟩
    · obtain rfl := Option.some.inj ht
      have hopen : s.state ≠ .terminal := by
        obtain ⟨_, _, _, hseals, -⟩ := hholds
        exact hseals.generation.2.2
      refine .resting hopen ⟨rfl, rfl⟩ hsent ?_ (by simp [hconfirmed])
      rw [hconfirmed]
      rintro _ ⟨⟩
      exact ⟨s.state, hholds, .inl rfl⟩

theorem Stands.idle_or_gated (h : Stands host F sent w s) :
    s.Idle ∨ ∃ generation, s.persistenceGate = some generation := by
  cases h with
  | ended _ hidle => exact .inl hidle
  | resting _ hidle => exact .inl hidle
  | gated hgated => exact .inr ⟨_, hgated⟩

theorem gated_error {generation : UInt64} {c : AllocatorCall} {e : Error}
    (hgate : s.persistenceGate = some generation) (h : call c s = .error e s') : s' = s := by
  by_cases hc : c = .checkpointPersisted generation
  · subst hc
    rw [call, checkpointPersisted_eq_ok.mpr ⟨hgate, rfl, rfl⟩] at h
    cases h
  · obtain ⟨e', hsame⟩ := gated_call hgate hc
    rw [hsame] at h
    cases h
    rfl

theorem Tracked.step (hF : HistoryInvariant host F) (h : Tracked host F sent w)
    (hkept : ∀ s ∈ w.live, Kept host Settled s)
    (a : Recovery.Act AllocatorCall (AllocatorReturn V)) :
    Tracked host F (sent ++ puts (Runs.effects ((machine host).step .confirmed a w)))
      (Call.after ((machine host).step .confirmed a w)) := by
  have hunsent : Tracked host F (sent ++ puts []) w := by
    rw [show puts [] = [] from rfl, List.append_nil]
    exact h
  cases a with
  | call c =>
    cases hlive : w.live with
    | none =>
      rw [Recovery.Machine.step_call_down hlive]
      exact hunsent
    | some s =>
      have hstands := h.live s hlive
      rw [Recovery.Machine.step_call hlive]
      cases hcall : (machine host).call c s with
      | ok effects s' =>
        cases call_ok hcall with
        | bound hc _ heffects hs' =>
          subst hs' heffects
          dsimp only
          rw [Call.after_ok, stored_of_uncheckpointed (by simp [AllocatorEffect.generation?])
            (by simp [hc]), ← hlive]
          exact hunsent
        | persisted hc hgate heffects hs' =>
          subst hs' heffects hc
          exact h.persisted hlive hgate
        | applied hcause hgate houtcome =>
          cases houtcome with
          | direct hdirect =>
            dsimp only
            rw [Call.after_ok, stored_of_uncheckpointed
              (List.filterMap_eq_nil_iff.mp hdirect.no_checkpoint)
              (by rintro generation rfl; cases hcause)]
            exact h.direct hF hlive hgate hdirect
          | moved htransition hsealed =>
            exact h.moved hF hlive hgate (hkept s hlive) hcause htransition hsealed
      | error e s' =>
        refine ⟨hunsent.confirmed, hunsent.unconfirmed, fun t ht => ?_⟩
        obtain rfl := Option.some.inj ht
        have hunchanged : s' = s → Stands host F (sent ++ puts []) { w with live := some s' } s' := by
          rintro rfl
          rw [← hlive]
          exact hunsent.live s' hlive
        -- a gated session refuses unchanged; an idle one may end
        rcases hstands.idle_or_gated with hidle | ⟨generation, hgate⟩
        · rcases call_error_idle hidle hcall with hsame | ⟨hterminal, hungated, hempty⟩
          · exact hunchanged hsame
          · exact .ended hterminal ⟨hungated, hempty⟩
        · exact hunchanged (gated_error hgate hcall)
  | crash r =>
    cases hconfirmed : Recovery.Source.of w .confirmed with
    | none =>
      rw [Recovery.Machine.step_crash_lost hconfirmed]
      exact ⟨hunsent.confirmed, hunsent.unconfirmed, by simp⟩
    | some stored =>
      rw [Recovery.Machine.step_crash hconfirmed]
      cases hrestore : (machine host).restore r stored with
      | error e => exact ⟨hunsent.confirmed, hunsent.unconfirmed, by simp⟩
      | ok s =>
        refine ⟨hunsent.confirmed, hunsent.unconfirmed, fun t ht => ?_⟩
        obtain rfl := Option.some.inj ht
        obtain ⟨state, hholds, hsent⟩ := hunsent.confirmed stored hconfirmed
        have hreopened : Reopened host r state s := by
          obtain ⟨now, nonce, _, hseals, hcoherent⟩ := hholds
          exact reopen_sealed hseals hcoherent hrestore
        refine .resting ?_ ⟨hreopened.ungated, hreopened.idle⟩ ((hF.resumed hreopened.resumes).mpr hsent)
          ?_ (fun hnone => absurd (hnone.symm.trans hconfirmed) (by simp))
        · intro hterminal
          have hresumes := hreopened.resumes
          rw [hterminal] at hresumes
          cases hresumes
        · rintro stored' hstored'
          obtain rfl := Option.some.inj (hstored'.symm.trans hconfirmed)
          exact ⟨state, hholds, .inr hreopened.resumes⟩

/-- The record of puts fits every world a run with crashes reaches. -/
theorem HistoryInvariant.run {input : AllocatorInput} {v : V} {s₀ : AllocatorSession V}
    (hF : HistoryInvariant input.host F) (hnew : AllocatorSession.new input v = .ok s₀)
    (acts : List (Recovery.Act AllocatorCall (AllocatorReturn V))) :
    Tracked input.host F
      (puts (Runs.released ((machine input.host).step .confirmed) (.start s₀) acts))
      (Runs.after ((machine input.host).step .confirmed) (.start s₀) acts) := by
  refine Runs.invariant ((machine input.host).step .confirmed)
    (P := fun acts w => Tracked input.host F
      (puts (Runs.released ((machine input.host).step .confirmed) (.start s₀) acts)) w) ?_ ?_ acts
  · simp only [AllocatorSession.new, Calls.guard_eq_ok, Calls.except_bind_eq_ok] at hnew
    obtain ⟨-, -, _, -, hnew⟩ := hnew
    obtain rfl := Except.ok.inj hnew
    refine ⟨by simp [Recovery.World.start], fun _ => rfl, fun t ht => ?_⟩
    obtain rfl := Option.some.inj ht
    exact .resting (by simp) ⟨rfl, rfl⟩ hF.awaitWelcome (by simp [Recovery.World.start])
      fun _ => .inl rfl
  · intro acts a h
    rw [Runs.released_concat, puts_append]
    exact h.step hF ((machine_keeps (settled_invariant input.host)).run_free
      (new_kept trivial hnew) .confirmed acts).live a

end AllocatorSession

end CredentialV2
end CbclPairing
