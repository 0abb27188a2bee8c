import CbclPairing.CountedSends
import CbclPairing.Transport

/-! Nonces of both channels. Frames leave a channel under the counters 0, 1, 2, …, each
encrypted under a nonce of its own, and nothing leaves behind the last counter. -/
namespace CbclPairing
open Codec Calls Runs CountedSends

/-! ### Nonces -/

theorem xor_mask_injective {mask xs ys : Bytes} (hxs : xs.length = mask.length)
    (hys : ys.length = mask.length)
    (h : List.zipWith (· ^^^ ·) mask xs = List.zipWith (· ^^^ ·) mask ys) : xs = ys := by
  induction mask generalizing xs ys with
  | nil =>
    rw [List.length_nil] at hxs hys
    rw [List.length_eq_zero_iff.mp hxs, List.length_eq_zero_iff.mp hys]
  | cons m mask ih =>
    cases xs with
    | nil => simp at hxs
    | cons x xs =>
      cases ys with
      | nil => simp at hys
      | cons y ys =>
        rw [List.zipWith_cons_cons, List.zipWith_cons_cons, List.cons.injEq] at h
        rw [List.length_cons, List.length_cons, Nat.add_right_cancel_iff] at hxs hys
        rw [(UInt8.xor_right_inj m).mp h.1, ih hxs hys h.2]

theorem deriveNonce_injective (iv : Octets 12) : Function.Injective (Pairing.deriveNonce iv) := by
  intro n m h
  have hiv := iv.property
  have hvalue := congrArg Subtype.val h
  have hmask : (iv.val.drop 4).length = 8 := by
    rw [List.length_drop, hiv]
  have hbytes := xor_mask_injective (by rw [hmask]; exact beBytes_length 8 _)
    (by rw [hmask]; exact beBytes_length 8 _) (List.append_cancel_left hvalue)
  have hn := n.toNat_lt
  have hm := m.toNat_lt
  have hcounters := congrArg ofBe hbytes
  rw [ofBe_beBytes (by omega), ofBe_beBytes (by omega)] at hcounters
  exact UInt64.toNat_inj.mp hcounters

theorem deriveNonce_eq : CredentialV2.deriveNonce = Pairing.deriveNonce := rfl

/-! ### Counters -/

/-- How many counters were used where this one is the next. -/
def usedCounters : Option UInt64 → ℕ
  | some counter => counter.toNat
  | none => 2 ^ 64

theorem usedCounters_le (next : Option UInt64) : usedCounters next ≤ 2 ^ 64 := by
  cases next with
  | none => exact le_rfl
  | some counter => exact counter.toNat_lt.le

@[simp] theorem usedCounters_checkedSucc64 (counter : UInt64) :
    usedCounters (checkedSucc64 counter) = counter.toNat + 1 := by
  cases hsucc : checkedSucc64 counter with
  | some next => exact checkedSucc64_eq_some.mp hsucc
  | none =>
    have hmax : counter = 0xffffffffffffffff := by
      by_contra hne
      rw [checkedSucc64, if_neg hne] at hsucc
      cases hsucc
    rw [hmax]
    rfl

/-! ### Calls on one channel -/

/-- What one channel is asked for. -/
inductive ChannelCall (F : Type) where
  | sealFrame (plaintext : Bytes)
  | openFrame (frame : F)

section Channel

variable {ε σ F : Type} (sealFrame : Bytes → Call ε σ F) (openFrame : F → Call ε σ Bytes)

/-- One call, with the frame it returned if it sealed one. -/
def channelStep : ChannelCall F → Call ε σ (List F)
  | .sealFrame plaintext => (fun frame => [frame]) <$> sealFrame plaintext
  | .openFrame frame => (fun _ => []) <$> openFrame frame

/-- What every run of one channel does about its counters and its nonces. `form` gives the
frame of a counter and a plaintext, and `nonce` what it is encrypted under. -/
structure NonceDiscipline (counter : F → Option UInt64) (form : UInt64 → Bytes → F)
    (nonce : UInt64 → Octets 12) (start : σ) : Prop where
  counters : ∀ calls,
    (released (channelStep sealFrame openFrame) start calls).map
        (fun frame => (counter frame).map UInt64.toNat) =
      (List.range (released (channelStep sealFrame openFrame) start calls).length).map some
  frames : ∀ calls, ∀ frame ∈ released (channelStep sealFrame openFrame) start calls,
    ∃ n plaintext, counter frame = some n ∧ frame = form n plaintext
  nonces : ∀ calls,
    (((released (channelStep sealFrame openFrame) start calls).filterMap counter).map nonce).Nodup
  failing : ∀ calls plaintext e s,
    sealFrame plaintext (after (channelStep sealFrame openFrame) start calls) = .error e s →
      s = after (channelStep sealFrame openFrame) start calls
  exhausted : ∀ before later plaintext frame,
    frame ∈ released (channelStep sealFrame openFrame) start before →
    counter frame = some 0xffffffffffffffff →
    ∃ e, sealFrame plaintext (after (channelStep sealFrame openFrame) start (before ++ later)) =
      .error e (after (channelStep sealFrame openFrame) start (before ++ later))

/-- A channel that seals under its next counter: sealing uses the counter up, a failure
uses nothing, and opening leaves the sender alone. -/
structure Sealer (next : σ → Option UInt64) (counter : F → Option UInt64)
    (form : σ → UInt64 → Bytes → F) : Prop where
  counter_form : ∀ s n plaintext, counter (form s n plaintext) = some n
  seal_ok : ∀ plaintext frame s s', sealFrame plaintext s = .ok frame s' →
    ∃ n, next s = some n ∧ frame = form s n plaintext ∧ next s' = checkedSucc64 n ∧
      form s' = form s
  seal_error : ∀ plaintext e s s', sealFrame plaintext s = .error e s' → s' = s
  opening : ∀ frame s, next (Call.after (openFrame frame s)) = next s ∧
    form (Call.after (openFrame frame s)) = form s

variable {sealFrame openFrame}

theorem channelStep_seal_ok {plaintext : Bytes} {frame : F} {s s' : σ}
    (h : sealFrame plaintext s = .ok frame s') :
    channelStep sealFrame openFrame (.sealFrame plaintext) s = .ok [frame] s' :=
  Call.map_eq_ok.mpr ⟨frame, h, rfl⟩

theorem channelStep_seal_error {plaintext : Bytes} {e : ε} {s s' : σ}
    (h : sealFrame plaintext s = .error e s') :
    channelStep sealFrame openFrame (.sealFrame plaintext) s = .error e s' := by
  simp [channelStep, Functor.map, EStateM.map, h]

theorem channelStep_openFrame (frame : F) (s : σ) :
    effects (channelStep sealFrame openFrame (.openFrame frame) s) = [] ∧
      Call.after (channelStep sealFrame openFrame (.openFrame frame) s) =
        Call.after (openFrame frame s) := by
  constructor
  · simp only [channelStep, Functor.map, EStateM.map]
    cases openFrame frame s <;> rfl
  · exact Call.after_map ..

namespace Sealer

variable {next : σ → Option UInt64} {counter : F → Option UInt64} {form : σ → UInt64 → Bytes → F}

theorem counted (h : Sealer sealFrame openFrame next counter form) :
    Counted (channelStep sealFrame openFrame) (fun s => usedCounters (next s))
      (fun frame => (counter frame).map UInt64.toNat) := by
  intro call s
  cases call with
  | sealFrame plaintext =>
    cases hseal : sealFrame plaintext s with
    | ok frame s' =>
      obtain ⟨n, hnext, rfl, hsucc, -⟩ := h.seal_ok plaintext frame s s' hseal
      rw [channelStep_seal_ok hseal]
      refine .inr ⟨form s n plaintext, rfl, ?_, ?_⟩
      · show (counter (form s n plaintext)).map UInt64.toNat = some (usedCounters (next s))
        rw [h.counter_form, hnext]
        rfl
      · show usedCounters (next s') = usedCounters (next s) + 1
        rw [hsucc, hnext, usedCounters_checkedSucc64]
        rfl
    | error e s' =>
      rw [channelStep_seal_error hseal, h.seal_error plaintext e s s' hseal]
      exact .inl ⟨rfl, rfl⟩
  | openFrame frame =>
    obtain ⟨hnone, hafter⟩ :
        effects (channelStep sealFrame openFrame (.openFrame frame) s) = [] ∧
          Call.after (channelStep sealFrame openFrame (.openFrame frame) s) =
            Call.after (openFrame frame s) := channelStep_openFrame frame s
    apply Or.inl
    refine ⟨hnone, ?_⟩
    rw [hafter]
    exact congrArg usedCounters (h.opening frame s).1

theorem form_kept (h : Sealer sealFrame openFrame next counter form) (s : σ)
    (call : ChannelCall F) :
    form (Call.after (channelStep sealFrame openFrame call s)) = form s := by
  cases call with
  | sealFrame plaintext =>
    cases hseal : sealFrame plaintext s with
    | ok frame s' =>
      obtain ⟨n, -, -, -, hform⟩ := h.seal_ok plaintext frame s s' hseal
      rw [channelStep_seal_ok hseal]
      exact hform
    | error e s' =>
      rw [channelStep_seal_error hseal, h.seal_error plaintext e s s' hseal]
      rfl
  | openFrame frame =>
    rw [(channelStep_openFrame frame s).2]
    exact (h.opening frame s).2

theorem frames (h : Sealer sealFrame openFrame next counter form) (s : σ)
    (calls : List (ChannelCall F)) :
    ∀ frame ∈ released (channelStep sealFrame openFrame) s calls,
      ∃ n plaintext, counter frame = some n ∧ frame = form s n plaintext := by
  induction calls generalizing s with
  | nil => exact fun frame hmem => absurd hmem List.not_mem_nil
  | cons call calls ih =>
    intro frame hmem
    rcases List.mem_append.mp hmem with hmem | hmem
    · cases call with
      | sealFrame plaintext =>
        cases hseal : sealFrame plaintext s with
        | ok sealed s' =>
          rw [channelStep_seal_ok hseal, effects_ok, List.mem_singleton] at hmem
          obtain ⟨n, -, hsealed, -, -⟩ := h.seal_ok plaintext sealed s s' hseal
          rw [hmem, hsealed]
          exact ⟨n, plaintext, h.counter_form s n plaintext, rfl⟩
        | error e s' =>
          rw [channelStep_seal_error hseal, effects_error] at hmem
          exact absurd hmem List.not_mem_nil
      | openFrame opened =>
        rw [(channelStep_openFrame opened s).1] at hmem
        exact absurd hmem List.not_mem_nil
    · obtain ⟨n, plaintext, hcounter, hframe⟩ := ih _ frame hmem
      rw [h.form_kept] at hframe
      exact ⟨n, plaintext, hcounter, hframe⟩

/-- A channel that begins with counter zero and seals so keeps the discipline. -/
theorem discipline (h : Sealer sealFrame openFrame next counter form) {start : σ}
    (hstart : next start = some 0) {nonce : UInt64 → Octets 12}
    (hnonce : Function.Injective nonce) :
    NonceDiscipline sealFrame openFrame counter (form start) nonce start := by
  have hused : usedCounters (next start) = 0 := by
    rw [hstart]
    rfl
  have hcounters : ∀ calls, (released (channelStep sealFrame openFrame) start calls).map
      (fun frame => (counter frame).map UInt64.toNat) =
        (List.range (released (channelStep sealFrame openFrame) start calls).length).map some := by
    intro calls
    rw [numbers h.counted, hused, List.range_eq_range']
  constructor
  case counters => exact hcounters
  case frames => exact h.frames start
  case nonces =>
    intro calls
    apply List.Nodup.map hnonce
    have hnumbers := congrArg (List.filterMap id) (hcounters calls)
    simp only [List.filterMap_map, Function.comp_def, id, List.filterMap_some] at hnumbers
    apply List.Nodup.of_map UInt64.toNat
    rw [List.map_filterMap, hnumbers]
    exact List.nodup_range
  case failing =>
    intro calls plaintext e s hfail
    exact h.seal_error plaintext e _ s hfail
  case exhausted =>
    intro before later plaintext frame hmem hlast
    have hnone := effects_of_last h.counted (fun s => usedCounters_le (next s)) hmem
      (by rw [hlast]; rfl) later (.sealFrame plaintext)
    cases hseal : sealFrame plaintext
        (after (channelStep sealFrame openFrame) start (before ++ later)) with
    | ok sealed s' =>
      rw [channelStep_seal_ok hseal, effects_ok] at hnone
      cases hnone
    | error e s' =>
      rw [h.seal_error plaintext e _ s' hseal]
      exact ⟨e, rfl⟩

end Sealer

end Channel

/-! ### The two channels -/

section Channels

variable [Primitives]

namespace Pairing

def frameCounter : Wire.ChannelFrame → Option UInt64
  | .sealed _ counter _ => some counter
  | _ => none

namespace SecureChannel

/-- The frame of a counter and a plaintext under the send key of a channel. -/
def sealedFrame (c : SecureChannel) (counter : UInt64) (plaintext : Bytes) : Wire.ChannelFrame :=
  .sealed (sendDirection c.localSide) counter
    (aesGcmEncrypt c.sendKey (deriveNonce c.sendIv counter)
      (sealedAad (sendDirection c.localSide) counter c.transcriptHash) plaintext)

omit [Primitives] in
theorem meets_fail {α : Type} {e : ChannelError} {Q : α → SecureChannel → Prop}
    {E : ChannelError → SecureChannel → Prop} {c : SecureChannel} :
    (fail e).Meets Q E c ↔ E e { c with terminal := true } := Iff.rfl

omit [Primitives] in
theorem eq_of_terminal {c : SecureChannel} (h : c.terminal = true) :
    c = { c with terminal := true } := by
  rw [← h]

/-- Opening decrypts a frame of the peer under the next counter and uses the counter up, or
it ends the channel. -/
theorem openFrame_meets (frame : Wire.ChannelFrame) (c : SecureChannel) :
    (openFrame frame).Meets
      (fun plaintext c' => c.terminal = false ∧ ∃ counter ciphertext,
        frame = .sealed (receiveDirection c.localSide) counter ciphertext ∧
        c.nextReceiveCounter = some counter ∧
        aesGcmDecrypt c.receiveKey (deriveNonce c.receiveIv counter)
          (sealedAad (receiveDirection c.localSide) counter c.transcriptHash) ciphertext =
          some plaintext ∧
        c' = { c with nextReceiveCounter := checkedSucc64 counter })
      (fun _ c' => c' = { c with terminal := true }) c := by
  rw [openFrame, Call.meets_bind, Call.meets_get, Call.meets_ite, Call.meets_throw]
  refine ⟨eq_of_terminal, fun hlive => ?_⟩
  rw [Bool.not_eq_true] at hlive
  cases frame with
  | cpace => exact meets_fail.mpr rfl
  | finished => exact meets_fail.mpr rfl
  | sealed direction counter ciphertext =>
    refine Call.meets_ite.mpr ⟨fun _ => meets_fail.mpr rfl, fun hdirection => ?_⟩
    rw [not_ne_iff] at hdirection
    subst hdirection
    cases hnext : c.nextReceiveCounter with
    | none => exact meets_fail.mpr (by rw [hnext])
    | some expected =>
      have hended : { c with terminal := true } =
          { c with terminal := true, nextReceiveCounter := some expected } := by
        rw [hnext]
      refine Call.meets_ite.mpr ⟨fun _ => meets_fail.mpr hended, fun hcounter => ?_⟩
      rw [not_ne_iff] at hcounter
      subst hcounter
      refine Call.meets_ite.mpr ⟨fun _ => meets_fail.mpr hended, fun _ => ?_⟩
      cases hdecrypt : aesGcmDecrypt c.receiveKey (deriveNonce c.receiveIv counter)
          (sealedAad (receiveDirection c.localSide) counter c.transcriptHash) ciphertext with
      | none => exact meets_fail.mpr hended
      | some plaintext =>
        rw [Call.meets_bind, Call.meets_set, Call.meets_pure]
        exact ⟨hlive, counter, ciphertext, rfl, rfl, hdecrypt, rfl⟩

/-- Opening moves the receiving half of a channel and may end it; the sending half stays. -/
theorem openFrame_sender (frame : Wire.ChannelFrame) (c : SecureChannel) :
    (openFrame frame).Meets
      (fun _ c' => c'.nextSendCounter = c.nextSendCounter ∧ c'.sealedFrame = c.sealedFrame)
      (fun _ c' => c'.nextSendCounter = c.nextSendCounter ∧ c'.sealedFrame = c.sealedFrame) c := by
  apply (openFrame_meets frame c).mono
  · rintro plaintext c' ⟨-, counter, ciphertext, -, -, -, rfl⟩
    exact ⟨rfl, rfl⟩
  · rintro e c' rfl
    exact ⟨rfl, rfl⟩

theorem sealer : Sealer sealFrame openFrame nextSendCounter frameCounter sealedFrame where
  counter_form _ _ _ := rfl
  seal_ok plaintext frame c c' h := by
    obtain ⟨-, -, -, n, hnext, hframe, rfl⟩ := sealFrame_eq_ok.mp h
    exact ⟨n, hnext, hframe, rfl, rfl⟩
  seal_error plaintext e c c' h := (sealFrame_meets plaintext c).error h
  opening frame c := (openFrame_sender frame c).after

end SecureChannel

omit [Primitives] in
theorem PendingChannel.confirm_fresh {p : PendingChannel} {value : Bytes} {c : SecureChannel}
    (h : p.confirm value = .ok c) : c.localSide = p.localSide ∧ c.nextSendCounter = some 0 ∧
      c.nextReceiveCounter = some 0 := by
  obtain ⟨-, hok⟩ := Calls.guard_eq_ok.mp h
  cases hside : p.localSide with
  | allocator =>
    rw [hside] at hok
    cases hok
    exact ⟨rfl, rfl, rfl⟩
  | claimant =>
    rw [hside] at hok
    cases hok
    exact ⟨rfl, rfl, rfl⟩

end Pairing

namespace CredentialV2

def frameCounter : Frame → Option UInt64
  | .sealed _ counter _ => some counter
  | _ => none

namespace SecureChannel

/-- The frame of a counter and a plaintext under the send key of a channel. -/
def sealedFrame (c : SecureChannel) (counter : UInt64) (plaintext : Bytes) : Frame :=
  .sealed (sendDirection c.localSide) counter (c.ciphertext counter plaintext)

omit [Primitives] in
theorem meets_fail {α : Type} {e : Error} {Q : α → SecureChannel → Prop}
    {E : Error → SecureChannel → Prop} {c : SecureChannel} :
    (fail e).Meets Q E c ↔ E e { c with terminal := true } := Iff.rfl

omit [Primitives] in
theorem eq_of_terminal {c : SecureChannel} (h : c.terminal = true) :
    c = { c with terminal := true } := by
  rw [← h]

theorem openFrame_error (frame : Frame) (c : SecureChannel) :
    (openFrame frame).Meets (fun _ _ => True) (fun _ c' => c' = { c with terminal := true }) c := by
  rw [openFrame, Call.meets_bind, Call.meets_get, Call.meets_ite, Call.meets_throw]
  refine ⟨eq_of_terminal, fun _ => ?_⟩
  cases frame with
  | cpace => exact meets_fail.mpr rfl
  | finished => exact meets_fail.mpr rfl
  | sealed direction counter ciphertext =>
    refine Call.meets_ite.mpr ⟨fun _ => meets_fail.mpr rfl, fun _ => ?_⟩
    refine Call.meets_ite.mpr ⟨fun _ => meets_fail.mpr rfl, fun _ => ?_⟩
    refine Call.meets_ite.mpr ⟨fun _ => meets_fail.mpr rfl, fun _ => ?_⟩
    cases aesGcmDecrypt c.receiveKey (deriveNonce c.receiveIv counter)
        (sealedAad direction counter c.transcriptHash) ciphertext with
    | none => exact meets_fail.mpr rfl
    | some plaintext =>
      rw [Call.meets_bind, Call.meets_set, Call.meets_pure]
      trivial

/-- Opening moves the receiving half of a channel and may end it; the sending half stays. -/
theorem openFrame_sender (frame : Frame) (c : SecureChannel) :
    (openFrame frame).Meets
      (fun _ c' => c'.nextSendCounter = c.nextSendCounter ∧ c'.sealedFrame = c.sealedFrame)
      (fun _ c' => c'.nextSendCounter = c.nextSendCounter ∧ c'.sealedFrame = c.sealedFrame) c := by
  rw [Call.meets_iff]
  constructor
  · intro plaintext c' hopen
    obtain ⟨-, counter, ciphertext, -, -, -, -, rfl⟩ := openFrame_eq_ok.mp hopen
    exact ⟨rfl, rfl⟩
  · intro e c' hopen
    obtain rfl := (openFrame_error frame c).error hopen
    exact ⟨rfl, rfl⟩

theorem sealFrame_error (plaintext : Bytes) (c : SecureChannel) :
    (sealFrame plaintext).Meets (fun _ _ => True) (fun _ c' => c' = c) c := by
  unfold sealFrame
  simp only [Call.meets_bind, Call.meets_get, Call.meets_ofExcept, Call.meets_orThrow,
    Call.meets_set, Call.meets_pure, implies_true, and_self]

theorem sealer : Sealer sealFrame openFrame nextSendCounter frameCounter sealedFrame where
  counter_form _ _ _ := rfl
  seal_ok plaintext frame c c' h := by
    obtain ⟨-, n, hnext, hframe, rfl⟩ := sealFrame_eq_ok.mp h
    exact ⟨n, hnext, hframe, rfl, rfl⟩
  seal_error plaintext e c c' h := (sealFrame_error plaintext c).error h
  opening frame c := (openFrame_sender frame c).after

end SecureChannel

omit [Primitives] in
theorem PendingChannel.confirm_fresh {p : PendingChannel} {frame : Frame} {c : SecureChannel}
    (h : p.confirm frame = .ok c) : c.localSide = p.localSide ∧ c.nextSendCounter = some 0 ∧
      c.nextReceiveCounter = some 0 := by
  unfold PendingChannel.confirm at h
  cases hfinished : frame.finishedValue with
  | none =>
    rw [hfinished] at h
    cases h
  | some sent =>
    rw [hfinished] at h
    obtain ⟨-, hok⟩ := Calls.guard_eq_ok.mp h
    cases hside : p.localSide with
    | allocator =>
      rw [hside] at hok
      cases hok
      exact ⟨rfl, rfl, rfl⟩
    | claimant =>
      rw [hside] at hok
      cases hok
      exact ⟨rfl, rfl, rfl⟩

end CredentialV2

/-- Along every run of a confirmed channel of either version the frames returned carry the
counters 0, 1, 2, …, no two under one nonce; a sealing that fails changes nothing, and
behind the frame with the last counter every sealing fails. -/
theorem channel_nonces :
    (∀ iv, Function.Injective (Pairing.deriveNonce iv)) ∧
    (∀ iv, Function.Injective (CredentialV2.deriveNonce iv)) ∧
    (∀ pending value channel, Pairing.PendingChannel.confirm pending value = .ok channel →
      NonceDiscipline Pairing.SecureChannel.sealFrame Pairing.SecureChannel.openFrame
        Pairing.frameCounter channel.sealedFrame (Pairing.deriveNonce channel.sendIv) channel) ∧
    ∀ pending frame channel, CredentialV2.PendingChannel.confirm pending frame = .ok channel →
      NonceDiscipline CredentialV2.SecureChannel.sealFrame CredentialV2.SecureChannel.openFrame
        CredentialV2.frameCounter channel.sealedFrame (CredentialV2.deriveNonce channel.sendIv)
        channel := by
  refine ⟨deriveNonce_injective, deriveNonce_injective, ?_, ?_⟩
  · intro pending value channel h
    exact Pairing.SecureChannel.sealer.discipline (Pairing.PendingChannel.confirm_fresh h).2.1
      (deriveNonce_injective channel.sendIv)
  · intro pending frame channel h
    exact CredentialV2.SecureChannel.sealer.discipline
      (CredentialV2.PendingChannel.confirm_fresh h).2.1 (deriveNonce_injective channel.sendIv)

end Channels

attribute [local instance] Primitives.transparent

def Pairing.PendingChannel.zero : Pairing.PendingChannel :=
  ⟨.allocator, fill 64 [], fill 64 [], fill 64 [],
    ⟨fill 32 [], fill 32 [], fill 12 [], fill 12 [], fill 32 []⟩⟩

def CredentialV2.PendingChannel.zero : CredentialV2.PendingChannel :=
  ⟨.claimant, fill 64 [], fill 64 [], fill 64 [],
    ⟨fill 32 [], fill 32 [], fill 12 [], fill 12 [], fill 32 []⟩⟩

/-- A channel of either version, confirmed under secrets that are all zero. -/
theorem channel_nonces_zero :
    (∃ channel, Pairing.PendingChannel.zero.confirm (fill 64 []).val = .ok channel ∧
      NonceDiscipline Pairing.SecureChannel.sealFrame Pairing.SecureChannel.openFrame
        Pairing.frameCounter channel.sealedFrame (Pairing.deriveNonce channel.sendIv) channel) ∧
    ∃ channel, CredentialV2.PendingChannel.zero.confirm (.finished .allocator (fill 64 [])) =
        .ok channel ∧
      NonceDiscipline CredentialV2.SecureChannel.sealFrame CredentialV2.SecureChannel.openFrame
        CredentialV2.frameCounter channel.sealedFrame (CredentialV2.deriveNonce channel.sendIv)
        channel :=
  ⟨⟨_, rfl, channel_nonces.2.2.1 .zero (fill 64 []).val _ rfl⟩,
    ⟨_, rfl, channel_nonces.2.2.2 .zero (.finished .allocator (fill 64 [])) _ rfl⟩⟩

end CbclPairing
