import CbclPairing.ChannelNonces
import CbclPairing.Codec.Cddl
import CbclPairing.CredentialV2.BootstrapBinding
import CbclPairing.Pipes

/-! Order of delivery on both channels. Each of two ends confirmed from one transcript opens
a prefix of what the other sealed, whatever frames it is presented, and an end that rejected
a frame neither opens nor seals again. -/
namespace CbclPairing
open Codec Codec.Cbor Calls

/-! ### Additional data -/

def aadFields (version number : ℕ) (counter : UInt64) (transcriptHash : Octets 64) :
    List (String × Value) :=
  [("v", .integer version), ("direction", .integer number),
    ("counter", .integer counter.toNat), ("th", .bytes transcriptHash.val)]

theorem plain_aadFields {version number : ℕ} (hversion : version < 2 ^ 64)
    (hnumber : number < 2 ^ 64) (counter : UInt64) (transcriptHash : Octets 64) :
    Plain 2 (.map (Cddl.named (aadFields version number counter transcriptHash))) := by
  have hkeys : ((["v", "direction", "counter", "th"].map fun name =>
      toCanonicalVec (.text (ascii name)))).Nodup := by decide
  have hname : ∀ name : String, isAscii (ascii name) = true → (ascii name).length < 2 ^ 64 →
      Plain 1 (.text (ascii name)) := fun name hascii hlength =>
    ⟨hlength, validUtf8_of_isAscii hascii⟩
  refine ⟨by simp [aadFields], hkeys, ?_⟩
  simp only [Cddl.named, aadFields, List.map_cons, List.map_nil, List.forall_mem_cons,
    List.not_mem_nil, false_imp_iff, implies_true, and_true]
  exact ⟨⟨hname "v" (by decide) (by decide), plain_nat hversion⟩,
    ⟨hname "direction" (by decide) (by decide), plain_nat hnumber⟩,
    ⟨hname "counter" (by decide) (by decide), plain_nat counter.toNat_lt⟩,
    hname "th" (by decide) (by decide), plain_bytes transcriptHash (by decide)⟩

/-- The additional data tells the direction and the counter of a frame. -/
theorem aadFields_injective {version number number' : ℕ} (hversion : version < 2 ^ 64)
    (hnumber : number < 2 ^ 64) (hnumber' : number' < 2 ^ 64) {counter counter' : UInt64}
    {th th' : Octets 64}
    (h : toCanonicalVec (.map (Cddl.named (aadFields version number counter th))) =
      toCanonicalVec (.map (Cddl.named (aadFields version number' counter' th')))) :
    number = number' ∧ counter = counter' := by
  have hplain := plain_aadFields hversion hnumber counter th
  have hplain' := plain_aadFields hversion hnumber' counter' th'
  have hflat : ∀ number counter th, ∀ e ∈ aadFields version number counter th,
      canonical e.2 = e.2 := by
    intro number counter th
    simp only [aadFields, List.forall_mem_cons, List.not_mem_nil, false_imp_iff, implies_true,
      and_true]
    exact ⟨rfl, rfl, rfl, rfl⟩
  have hcanonical := canonical_eq_of_toCanonicalVec_eq hplain hplain' h
  rw [canonical_map, canonical_map, Value.map.injEq] at hcanonical
  have hfields := congrArg Cddl.fieldsOf hcanonical
  rw [Cddl.fieldsOf_canonicalMap hplain (hflat _ _ _),
    Cddl.fieldsOf_canonicalMap hplain' (hflat _ _ _)] at hfields
  have hnames : ∀ number counter th,
      ((aadFields version number counter th).map fun e => ascii e.1).Nodup := by
    intro number counter th
    show (["v", "direction", "counter", "th"].map ascii).Nodup
    decide
  have hread : ∀ number counter th, ∀ e ∈ aadFields version number counter th,
      Cddl.fieldsOf (Cddl.named (aadFields version number counter th)) e.1 = some e.2 :=
    fun number counter th e he => Cddl.fieldsOf_of_mem (hnames number counter th) he
  have hdirection := congrFun hfields "direction"
  rw [hread _ _ _ ("direction", .integer number) (by simp [aadFields]),
    hread _ _ _ ("direction", .integer number') (by simp [aadFields])] at hdirection
  have hcounter := congrFun hfields "counter"
  rw [hread _ _ _ ("counter", .integer counter.toNat) (by simp [aadFields]),
    hread _ _ _ ("counter", .integer counter'.toNat) (by simp [aadFields])] at hcounter
  simp only [Option.some.injEq, Value.integer.injEq, Nat.cast_inj] at hdirection hcounter
  exact ⟨hdirection, UInt64.toNat_inj.mp hcounter⟩

/-! ### Channels of either version -/

/-- The contents of a sealed frame. -/
structure SealedParts where
  direction : Direction
  counter : UInt64
  ciphertext : Bytes
  deriving DecidableEq

/-- What authenticated encryption is asked to open. -/
structure AeadText where
  key : Octets 32
  nonce : Octets 12
  aad : Bytes
  ciphertext : Bytes
  deriving DecidableEq

/-- A confirmed channel of either version, without its exporter. -/
structure ChannelView where
  localSide : Side
  transcriptHash : Octets 64
  sendKey : Octets 32
  receiveKey : Octets 32
  sendIv : Octets 12
  receiveIv : Octets 12
  nextSend : Option UInt64
  nextReceive : Option UInt64
  terminal : Bool
  deriving DecidableEq

/-- One version of the channel: its calls, and how its channels, its frames and its
additional data are read. -/
structure ChannelVersion (ε σ F : Type) where
  sealFrame : Bytes → Call ε σ F
  openFrame : F → Call ε σ Bytes
  view : σ → ChannelView
  parts : F → Option SealedParts
  aad : Direction → UInt64 → Octets 64 → Bytes

section Channels

variable [Primitives]

def AeadText.decrypted (t : AeadText) : Option Bytes :=
  aesGcmDecrypt t.key t.nonce t.aad t.ciphertext

namespace ChannelVersion

variable {ε σ F : Type} (V : ChannelVersion ε σ F)

omit [Primitives] in
/-- What a frame was encrypted as if the channel `s` sealed it. -/
def sentText (s : σ) (frame : SealedParts) : AeadText where
  key := (V.view s).sendKey
  nonce := Pairing.deriveNonce (V.view s).sendIv frame.counter
  aad := V.aad frame.direction frame.counter (V.view s).transcriptHash
  ciphertext := frame.ciphertext

omit [Primitives] in
/-- What the channel `s` decrypts to open a frame. -/
def receivedText (s : σ) (frame : SealedParts) : AeadText where
  key := (V.view s).receiveKey
  nonce := Pairing.deriveNonce (V.view s).receiveIv frame.counter
  aad := V.aad frame.direction frame.counter (V.view s).transcriptHash
  ciphertext := frame.ciphertext

/-- The contents of the frame in which the channel `s` seals a plaintext. -/
def sealedParts (s : σ) (counter : UInt64) (plaintext : Bytes) : SealedParts where
  direction := Pairing.sendDirection (V.view s).localSide
  counter := counter
  ciphertext := aesGcmEncrypt (V.view s).sendKey
    (Pairing.deriveNonce (V.view s).sendIv counter)
    (V.aad (Pairing.sendDirection (V.view s).localSide) counter (V.view s).transcriptHash)
    plaintext

/-- What one call does to a channel, and what the additional data tells. -/
structure Lawful : Prop where
  seal_ok : ∀ plaintext frame s s', V.sealFrame plaintext s = .ok frame s' →
    (V.view s).terminal = false ∧ ∃ n, (V.view s).nextSend = some n ∧
      V.parts frame = some (V.sealedParts s n plaintext) ∧
      V.view s' = { V.view s with nextSend := checkedSucc64 n }
  seal_error : ∀ plaintext e s s', V.sealFrame plaintext s = .error e s' → s' = s
  open_ok : ∀ frame plaintext s s', V.openFrame frame s = .ok plaintext s' →
    (V.view s).terminal = false ∧ ∃ parts, V.parts frame = some parts ∧
      parts.direction = Pairing.receiveDirection (V.view s).localSide ∧
      (V.view s).nextReceive = some parts.counter ∧
      (V.receivedText s parts).decrypted = some plaintext ∧
      V.view s' = { V.view s with nextReceive := checkedSucc64 parts.counter }
  open_error : ∀ frame e s s', V.openFrame frame s = .error e s' →
    V.view s' = { V.view s with terminal := true }
  aad_injective : ∀ d n th d' n' th', V.aad d n th = V.aad d' n' th' → d = d' ∧ n = n'

end ChannelVersion

/-! ### Two ends -/

/-- Two ends of a channel, with the plaintexts each sealed, in which frames, and the
plaintexts each opened. -/
structure Link (σ F : Type) where
  ends : Side → σ
  sealed : Side → List (Bytes × F)
  opened : Side → List Bytes

namespace Link

def start {σ F : Type} (ends : Side → σ) : Link σ F := ⟨ends, fun _ => [], fun _ => []⟩

/-- The link as messages sent and received. -/
def pipe {σ F : Type} (l : Link σ F) : Pipes.Pipe Side Bytes :=
  ⟨fun side => (l.sealed side).map Prod.fst, l.opened⟩

end Link

namespace ChannelVersion

variable {ε σ F : Type} (V : ChannelVersion ε σ F)

/-- One end is asked to seal a plaintext or to open a frame, from wherever it comes. -/
def act (l : Link σ F) (side : Side) : ChannelCall F → Link σ F
  | .sealFrame plaintext =>
    match V.sealFrame plaintext (l.ends side) with
    | .ok frame s => { l with
        ends := Function.update l.ends side s
        sealed := Function.update l.sealed side (l.sealed side ++ [(plaintext, frame)]) }
    | .error _ s => { l with ends := Function.update l.ends side s }
  | .openFrame frame =>
    match V.openFrame frame (l.ends side) with
    | .ok plaintext s => { l with
        ends := Function.update l.ends side s
        opened := Function.update l.opened side (l.opened side ++ [plaintext]) }
    | .error _ s => { l with ends := Function.update l.ends side s }

def run (l : Link σ F) (acts : List (Side × ChannelCall F)) : Link σ F :=
  acts.foldl (fun l act => V.act l act.1 act.2) l

omit [Primitives] in
/-- What the frames that one end sealed were encrypted as. -/
def texts (l : Link σ F) (sender : Side) : List AeadText :=
  (l.sealed sender).filterMap fun entry => (V.parts entry.2).map (V.sentText (l.ends sender))

omit [Primitives] in
/-- One of the ends encrypted to this text. -/
def Produced (l : Link σ F) (text : AeadText) : Prop := ∃ sender, text ∈ V.texts l sender

/-- A frame presented to an end decrypts only if its key, nonce, additional data and
ciphertext are those of a frame sealed before. -/
def Unforged (l : Link σ F) (side : Side) : ChannelCall F → Prop
  | .sealFrame _ => True
  | .openFrame frame => ∀ parts ∈ V.parts frame,
    (V.receivedText (l.ends side) parts).decrypted.isSome = true →
      V.Produced l (V.receivedText (l.ends side) parts)

/-- No call of the run is presented a forgery that decrypts. -/
def Authentic (l : Link σ F) : List (Side × ChannelCall F) → Prop
  | [] => True
  | (side, call) :: acts => V.Unforged l side call ∧ Authentic (V.act l side call) acts

omit [Primitives] in
theorem produced_iff {l : Link σ F} {text : AeadText} :
    V.Produced l text ↔ text ∈ V.texts l .allocator ∨ text ∈ V.texts l .claimant :=
  Side.exists_iff

instance (l : Link σ F) (text : AeadText) : Decidable (V.Produced l text) :=
  decidable_of_iff _ V.produced_iff.symm

instance : (l : Link σ F) → (side : Side) → (call : ChannelCall F) →
    Decidable (V.Unforged l side call)
  | _, _, .sealFrame _ => .isTrue trivial
  | l, side, .openFrame frame => inferInstanceAs (Decidable (∀ parts ∈ V.parts frame,
    (V.receivedText (l.ends side) parts).decrypted.isSome = true →
      V.Produced l (V.receivedText (l.ends side) parts)))

instance decidableAuthentic : (l : Link σ F) → (acts : List (Side × ChannelCall F)) →
    Decidable (V.Authentic l acts)
  | _, [] => .isTrue trivial
  | l, (side, call) :: acts =>
    haveI := decidableAuthentic (V.act l side call) acts
    inferInstanceAs (Decidable (V.Unforged l side call ∧ V.Authentic (V.act l side call) acts))

/-- What two ends guarantee of every run: each has opened a prefix of what the other sealed,
and one that rejected a frame accepts nothing any more. -/
structure Delivers (ends : Side → σ) : Prop where
  fifo : ∀ before later, V.Authentic (.start ends) (before ++ later) → ∀ side,
    (V.run (.start ends) before).opened side <+:
      ((V.run (.start ends) before).sealed side.opposite).map Prod.fst
  rejected : ∀ before side frame e s,
    V.openFrame frame ((V.run (.start ends) before).ends side) = .error e s →
    ∀ later,
      (∀ plaintext, ∃ e' s', V.sealFrame plaintext
        ((V.run (.start ends) (before ++ (side, .openFrame frame) :: later)).ends side) =
          .error e' s') ∧
      ∀ frame', ∃ e' s', V.openFrame frame'
        ((V.run (.start ends) (before ++ (side, .openFrame frame) :: later)).ends side) =
          .error e' s'

/-! ### One end -/

variable {V}

/-- Only the counters and the terminal flag of a channel moved. -/
def Moved (V : ChannelVersion ε σ F) (s s' : σ) : Prop :=
  ∃ send receive terminal, V.view s' =
    { V.view s with nextSend := send, nextReceive := receive, terminal := terminal }

theorem sealedParts_moved {s s' : σ} (h : V.Moved s s') : V.sealedParts s' = V.sealedParts s := by
  obtain ⟨send, receive, terminal, hview⟩ := h
  funext n plaintext
  rw [sealedParts, sealedParts, hview]

/-- One end has used a counter for every plaintext it sealed and opened, and its frames are
numbered in the order of their plaintexts. -/
structure Counted (V : ChannelVersion ε σ F) (side : Side) (s : σ) (sealed : List (Bytes × F))
    (opened : List Bytes) : Prop where
  side : (V.view s).localSide = side
  sealed_length : sealed.length = usedCounters (V.view s).nextSend
  opened_length : opened.length = usedCounters (V.view s).nextReceive
  entries : ∀ i plaintext frame, sealed[i]? = some (plaintext, frame) →
    ∃ n : UInt64, n.toNat = i ∧ V.parts frame = some (V.sealedParts s n plaintext)

namespace Counted

variable {side : Side} {s s' : σ} {sealed : List (Bytes × F)} {opened : List Bytes}

theorem moved (hs : Counted V side s sealed opened) (h : V.Moved s s') {opened' : List Bytes}
    (hsend : (V.view s').nextSend = (V.view s).nextSend)
    (hreceive : opened'.length = usedCounters (V.view s').nextReceive) :
    Counted V side s' sealed opened' := by
  constructor
  case side =>
    obtain ⟨send, receive, terminal, hview⟩ := h
    rw [hview]
    exact hs.side
  case sealed_length =>
    rw [hsend]
    exact hs.sealed_length
  case opened_length => exact hreceive
  case entries =>
    intro i plaintext frame hi
    rw [sealedParts_moved h]
    exact hs.entries i plaintext frame hi

theorem sealing (hs : Counted V side s sealed opened) {n : UInt64} {plaintext : Bytes} {frame : F}
    (hnext : (V.view s).nextSend = some n)
    (hparts : V.parts frame = some (V.sealedParts s n plaintext))
    (hview : V.view s' = { V.view s with nextSend := checkedSucc64 n }) :
    Counted V side s' (sealed ++ [(plaintext, frame)]) opened := by
  have hmoved : V.Moved s s' := ⟨_, _, _, hview⟩
  have hlength : sealed.length = n.toNat := by
    rw [hs.sealed_length, hnext]
    rfl
  constructor
  case side =>
    rw [hview]
    exact hs.side
  case sealed_length =>
    rw [hview, usedCounters_checkedSucc64, List.length_append, hlength, List.length_singleton]
  case opened_length =>
    rw [hview]
    exact hs.opened_length
  case entries =>
    intro i plaintext' frame' hi
    rw [sealedParts_moved hmoved]
    rcases lt_or_ge i sealed.length with hlt | hge
    · rw [List.getElem?_append_left hlt] at hi
      exact hs.entries i plaintext' frame' hi
    · rw [List.getElem?_append_right hge, List.getElem?_singleton] at hi
      split_ifs at hi with hzero
      obtain ⟨rfl, rfl⟩ := Prod.mk.inj (Option.some.inj hi)
      exact ⟨n, by omega, hparts⟩

theorem opening (hs : Counted V side s sealed opened) {n : UInt64} (plaintext : Bytes)
    (hnext : (V.view s).nextReceive = some n)
    (hview : V.view s' = { V.view s with nextReceive := checkedSucc64 n }) :
    Counted V side s' sealed (opened ++ [plaintext]) := by
  apply hs.moved ⟨_, _, _, hview⟩
  · rw [hview]
  · rw [hview, usedCounters_checkedSucc64, List.length_append, hs.opened_length, hnext,
      List.length_singleton]
    rfl

theorem failing (hs : Counted V side s sealed opened)
    (hview : V.view s' = { V.view s with terminal := true }) :
    Counted V side s' sealed opened := by
  apply hs.moved ⟨_, _, _, hview⟩
  · rw [hview]
  · rw [hview]
    exact hs.opened_length

end Counted

/-! ### One step of a link -/

/-- The counters of both ends. -/
def LinkCounted (V : ChannelVersion ε σ F) (l : Link σ F) : Prop :=
  ∀ side, Counted V side (l.ends side) (l.sealed side) (l.opened side)

/-- A call seals the next frame of an end, or opens the next one of its peer, or fails and
at most ends the channel. -/
theorem act_cases (h : V.Lawful) (l : Link σ F) (side : Side) (call : ChannelCall F) :
    (∃ plaintext frame n s, V.act l side call =
        { l with ends := Function.update l.ends side s
                 sealed := Function.update l.sealed side (l.sealed side ++ [(plaintext, frame)]) } ∧
      (V.view (l.ends side)).nextSend = some n ∧
      V.parts frame = some (V.sealedParts (l.ends side) n plaintext) ∧
      V.view s = { V.view (l.ends side) with nextSend := checkedSucc64 n }) ∨
    (∃ plaintext frame parts s, call = .openFrame frame ∧ V.act l side call =
        { l with ends := Function.update l.ends side s
                 opened := Function.update l.opened side (l.opened side ++ [plaintext]) } ∧
      V.parts frame = some parts ∧
      parts.direction = Pairing.receiveDirection (V.view (l.ends side)).localSide ∧
      (V.view (l.ends side)).nextReceive = some parts.counter ∧
      (V.receivedText (l.ends side) parts).decrypted = some plaintext ∧
      V.view s = { V.view (l.ends side) with nextReceive := checkedSucc64 parts.counter }) ∨
    ∃ s, V.act l side call = { l with ends := Function.update l.ends side s } ∧
      (s = l.ends side ∨ V.view s = { V.view (l.ends side) with terminal := true }) := by
  cases call with
  | sealFrame plaintext =>
    cases hseal : V.sealFrame plaintext (l.ends side) with
    | ok frame s =>
      obtain ⟨-, n, hnext, hparts, hview⟩ := h.seal_ok plaintext frame _ s hseal
      refine .inl ⟨plaintext, frame, n, s, ?_, hnext, hparts, hview⟩
      simp only [act, hseal]
    | error e s =>
      refine .inr (.inr ⟨s, ?_, .inl (h.seal_error plaintext e _ s hseal)⟩)
      simp only [act, hseal]
  | openFrame frame =>
    cases hopen : V.openFrame frame (l.ends side) with
    | ok plaintext s =>
      obtain ⟨-, parts, hparts, hdirection, hnext, hdecrypted, hview⟩ :=
        h.open_ok frame plaintext _ s hopen
      refine .inr (.inl ⟨plaintext, frame, parts, s, rfl, ?_, hparts, hdirection, hnext,
        hdecrypted, hview⟩)
      simp only [act, hopen]
    | error e s =>
      refine .inr (.inr ⟨s, ?_, .inr (h.open_error frame e _ s hopen)⟩)
      simp only [act, hopen]

theorem counted_act (h : V.Lawful) {l : Link σ F} (hl : LinkCounted V l) (side : Side)
    (call : ChannelCall F) : LinkCounted V (V.act l side call) := by
  intro other
  rcases act_cases h l side call with ⟨plaintext, frame, n, s, hact, hnext, hparts, hview⟩ |
    ⟨plaintext, frame, parts, s, -, hact, -, -, hnext, -, hview⟩ | ⟨s, hact, hs⟩
  · rw [hact]
    by_cases hother : other = side
    · subst hother
      simp only [Function.update_self]
      exact (hl other).sealing hnext hparts hview
    · simp only [Function.update_of_ne hother]
      exact hl other
  · rw [hact]
    by_cases hother : other = side
    · subst hother
      simp only [Function.update_self]
      exact (hl other).opening plaintext hnext hview
    · simp only [Function.update_of_ne hother]
      exact hl other
  · rw [hact]
    by_cases hother : other = side
    · subst hother
      simp only [Function.update_self]
      rcases hs with rfl | hview
      · exact hl other
      · exact (hl other).failing hview
    · simp only [Function.update_of_ne hother]
      exact hl other

omit [Primitives] in
theorem receiveDirection_eq {side sender : Side}
    (h : Pairing.receiveDirection side = Pairing.sendDirection sender) :
    sender = side.opposite := by
  revert h
  cases side <;> cases sender <;> decide

/-- A text that was sealed and decrypts to open the next frame is that of the peer's next
plaintext. -/
theorem next_of_produced (h : V.Lawful) {l : Link σ F} (hl : LinkCounted V l) {side : Side}
    {parts : SealedParts} {plaintext : Bytes}
    (hproduced : V.Produced l (V.receivedText (l.ends side) parts))
    (hdirection : parts.direction = Pairing.receiveDirection (V.view (l.ends side)).localSide)
    (hdecrypted : (V.receivedText (l.ends side) parts).decrypted = some plaintext) :
    ((l.sealed side.opposite).map Prod.fst)[parts.counter.toNat]? = some plaintext := by
  obtain ⟨sender, htexts⟩ := hproduced
  obtain ⟨⟨sent, frame⟩, hmem, hmapped⟩ := List.mem_filterMap.mp htexts
  obtain ⟨_, hparts, htext⟩ := Option.map_eq_some_iff.mp hmapped
  obtain ⟨i, hi⟩ := List.mem_iff_getElem?.mp hmem
  obtain ⟨n, rfl, hsealed⟩ := (hl sender).entries i sent frame hi
  obtain rfl := Option.some.inj (hparts.symm.trans hsealed)
  obtain ⟨hdirections, hcounter⟩ :=
    h.aad_injective _ _ _ _ _ _ (congrArg AeadText.aad htext.symm)
  have hsender : sender = side.opposite := by
    apply receiveDirection_eq
    rw [(hl side).side] at hdirection
    exact (hdirection.symm.trans hdirections).trans
      (congrArg Pairing.sendDirection (hl sender).side)
  have hsent : (V.sentText (l.ends sender) (V.sealedParts (l.ends sender) n sent)).decrypted =
      some sent := Primitives.decrypt_encrypt ..
  rw [htext, hdecrypted, Option.some.injEq] at hsent
  subst hsender hsent
  rw [List.getElem?_map, hcounter]
  show Option.map Prod.fst (l.sealed side.opposite)[n.toNat]? = some plaintext
  rw [hi]
  rfl

/-- Every call on a link is one step of messages sent and received in order. -/
theorem act_step (h : V.Lawful) {l : Link σ F} (hl : LinkCounted V l) (side : Side)
    (call : ChannelCall F)
    (hunforged : V.Unforged l side call) :
    Pipes.Pipe.Step Side.opposite l.pipe (V.act l side call).pipe := by
  rcases act_cases h l side call with ⟨plaintext, frame, n, s, hact, -, -, -⟩ |
    ⟨plaintext, frame, parts, s, hcall, hact, hparts, hdirection, hnext, hdecrypted, -⟩ |
    ⟨s, hact, -⟩
  · have hpipe : (V.act l side call).pipe = l.pipe.send side plaintext := by
      rw [hact, Link.pipe, Link.pipe, Pipes.Pipe.send, Pipes.Pipe.mk.injEq]
      refine ⟨funext fun other => ?_, rfl⟩
      have hmapped := Function.apply_update (fun _ => List.map Prod.fst) l.sealed side
        (l.sealed side ++ [(plaintext, frame)]) other
      rw [List.map_append] at hmapped
      exact hmapped
    rw [hpipe]
    exact .send side plaintext
  · have hsome : (V.receivedText (l.ends side) parts).decrypted.isSome = true := by
      rw [hdecrypted]
      rfl
    rw [hcall] at hunforged
    have hproduced := hunforged parts hparts hsome
    rw [hact]
    apply Pipes.Pipe.Step.receive side plaintext
    show ((l.sealed side.opposite).map Prod.fst)[(l.opened side).length]? = some plaintext
    rw [(hl side).opened_length, hnext]
    exact next_of_produced h hl hproduced hdirection hdecrypted
  · rw [hact]
    exact .idle

/-! ### Runs -/

theorem fifo_run (h : V.Lawful) {l : Link σ F} (hl : LinkCounted V l)
    (hfifo : l.pipe.Fifo Side.opposite) {before later : List (Side × ChannelCall F)}
    (hauthentic : V.Authentic l (before ++ later)) :
    (V.run l before).pipe.Fifo Side.opposite := by
  induction before generalizing l with
  | nil => exact hfifo
  | cons act before ih =>
    obtain ⟨side, call⟩ := act
    obtain ⟨hfirst, hrest⟩ := hauthentic
    exact ih (counted_act h hl side call) ((act_step h hl side call hfirst).fifo hfifo) hrest

theorem terminal_act (h : V.Lawful) {l : Link σ F} {side : Side}
    (hterminal : (V.view (l.ends side)).terminal = true) (other : Side) (call : ChannelCall F) :
    (V.view ((V.act l other call).ends side)).terminal = true := by
  have hupdate : ∀ s, (V.view s).terminal = (V.view (l.ends other)).terminal ∨
      (V.view s).terminal = true →
      (V.view (Function.update l.ends other s side)).terminal = true := by
    intro s hs
    by_cases hside : side = other
    · subst hside
      rw [Function.update_self]
      exact hs.elim (·.trans hterminal) id
    · rw [Function.update_of_ne hside]
      exact hterminal
  rcases act_cases h l other call with ⟨_, _, _, s, hact, -, -, hview⟩ |
    ⟨_, _, _, s, -, hact, -, -, -, -, hview⟩ | ⟨s, hact, hs⟩
  · rw [hact]
    exact hupdate s (.inl (by rw [hview]))
  · rw [hact]
    exact hupdate s (.inl (by rw [hview]))
  · rw [hact]
    rcases hs with rfl | hview
    · exact hupdate _ (.inl rfl)
    · exact hupdate s (.inr (by rw [hview]))

theorem terminal_run (h : V.Lawful) {l : Link σ F} {side : Side}
    (hterminal : (V.view (l.ends side)).terminal = true) (acts : List (Side × ChannelCall F)) :
    (V.view ((V.run l acts).ends side)).terminal = true := by
  induction acts generalizing l with
  | nil => exact hterminal
  | cons act acts ih => exact ih (terminal_act h hterminal act.1 act.2)

/-- A terminal channel seals nothing and opens nothing. -/
theorem fails_of_terminal (h : V.Lawful) {s : σ} (hterminal : (V.view s).terminal = true) :
    (∀ plaintext, ∃ e s', V.sealFrame plaintext s = .error e s') ∧
      ∀ frame, ∃ e s', V.openFrame frame s = .error e s' := by
  constructor
  · intro plaintext
    cases hseal : V.sealFrame plaintext s with
    | ok frame s' =>
      have hlive := (h.seal_ok plaintext frame s s' hseal).1
      rw [hterminal] at hlive
      cases hlive
    | error e s' => exact ⟨e, s', rfl⟩
  · intro frame
    cases hopen : V.openFrame frame s with
    | ok plaintext s' =>
      have hlive := (h.open_ok frame plaintext s s' hopen).1
      rw [hterminal] at hlive
      cases hlive
    | error e s' => exact ⟨e, s', rfl⟩

omit [Primitives] in
theorem run_append (l : Link σ F) (before later : List (Side × ChannelCall F)) :
    V.run l (before ++ later) = V.run (V.run l before) later := List.foldl_append

/-- Two ends of a lawful version that begin with both counters at zero deliver. -/
theorem Lawful.delivers (h : V.Lawful) {ends : Side → σ}
    (hstart : ∀ side, (V.view (ends side)).localSide = side ∧
      (V.view (ends side)).nextSend = some 0 ∧ (V.view (ends side)).nextReceive = some 0) :
    V.Delivers ends := by
  have hcounted : LinkCounted V (Link.start ends) := by
    intro side
    obtain ⟨hside, hsend, hreceive⟩ := hstart side
    constructor
    case side => exact hside
    case sealed_length =>
      show 0 = usedCounters (V.view (ends side)).nextSend
      rw [hsend]
      rfl
    case opened_length =>
      show 0 = usedCounters (V.view (ends side)).nextReceive
      rw [hreceive]
      rfl
    case entries =>
      intro i plaintext frame hi
      cases hi
  constructor
  case fifo =>
    intro before later hauthentic
    exact fifo_run h hcounted (fun side => List.nil_prefix) hauthentic
  case rejected =>
    intro before side frame e s hopen later
    have hends : (V.act (V.run (.start ends) before) side (.openFrame frame)).ends side = s := by
      simp only [act, hopen, Function.update_self]
    have hterminal : (V.view ((V.act (V.run (.start ends) before) side
        (.openFrame frame)).ends side)).terminal = true := by
      rw [hends, h.open_error frame e _ s hopen]
    apply fails_of_terminal h
    rw [run_append]
    exact terminal_run h hterminal later

end ChannelVersion

/-! ### Both versions -/

namespace Pairing

def sealedParts : Wire.ChannelFrame → Option SealedParts
  | .sealed direction counter ciphertext => some ⟨direction, counter, ciphertext⟩
  | _ => none

def SecureChannel.view (c : SecureChannel) : ChannelView where
  localSide := c.localSide
  transcriptHash := c.transcriptHash
  sendKey := c.sendKey
  receiveKey := c.receiveKey
  sendIv := c.sendIv
  receiveIv := c.receiveIv
  nextSend := c.nextSendCounter
  nextReceive := c.nextReceiveCounter
  terminal := c.terminal

/-- The version 1 channel. -/
def channelVersion : ChannelVersion ChannelError SecureChannel Wire.ChannelFrame where
  sealFrame := SecureChannel.sealFrame
  openFrame := SecureChannel.openFrame
  view := SecureChannel.view
  parts := sealedParts
  aad := sealedAad

omit [Primitives] in
theorem directionNumber_injective {d d' : Direction}
    (h : directionNumber d = directionNumber d') : d = d' := by
  revert h
  cases d <;> cases d' <;> decide

theorem channelVersion_lawful : channelVersion.Lawful where
  seal_ok plaintext frame c c' h := by
    obtain ⟨hlive, -, -, n, hnext, rfl, rfl⟩ := SecureChannel.sealFrame_eq_ok.mp h
    exact ⟨hlive, n, hnext, rfl, rfl⟩
  seal_error plaintext e c c' h := (SecureChannel.sealFrame_meets plaintext c).error h
  open_ok frame plaintext c c' h := by
    obtain ⟨hlive, n, ciphertext, rfl, hnext, hdecrypt, rfl⟩ :=
      (SecureChannel.openFrame_meets frame c).ok h
    exact ⟨hlive, ⟨_, n, ciphertext⟩, rfl, rfl, hnext, hdecrypt, rfl⟩
  open_error frame e c c' h := by
    obtain rfl := (SecureChannel.openFrame_meets frame c).error h
    rfl
  aad_injective d n th d' n' th' h := by
    have hnumber : ∀ d, directionNumber d < 2 ^ 64 := by
      intro d
      cases d <;> decide
    have hversion : 1 < 2 ^ 64 := by decide
    obtain ⟨hdirection, hcounter⟩ := aadFields_injective hversion (hnumber d) (hnumber d') h
    exact ⟨directionNumber_injective hdirection, hcounter⟩

end Pairing

namespace CredentialV2

def sealedParts : Frame → Option SealedParts
  | .sealed direction counter ciphertext => some ⟨direction, counter, ciphertext⟩
  | _ => none

def SecureChannel.view (c : SecureChannel) : ChannelView where
  localSide := c.localSide
  transcriptHash := c.transcriptHash
  sendKey := c.sendKey
  receiveKey := c.receiveKey
  sendIv := c.sendIv
  receiveIv := c.receiveIv
  nextSend := c.nextSendCounter
  nextReceive := c.nextReceiveCounter
  terminal := c.terminal

/-- The version 2 channel. -/
def channelVersion : ChannelVersion Error SecureChannel Frame where
  sealFrame := SecureChannel.sealFrame
  openFrame := SecureChannel.openFrame
  view := SecureChannel.view
  parts := sealedParts
  aad := sealedAad

omit [Primitives] in
theorem directionNumber_injective {d d' : Direction}
    (h : directionNumber d = directionNumber d') : d = d' := by
  revert h
  cases d <;> cases d' <;> decide

theorem channelVersion_lawful : channelVersion.Lawful where
  seal_ok plaintext frame c c' h := by
    obtain ⟨hseal, n, hnext, rfl, rfl⟩ := SecureChannel.sealFrame_eq_ok.mp h
    exact ⟨(SecureChannel.canSeal_eq_ok.mp hseal).1, n, hnext, rfl, rfl⟩
  seal_error plaintext e c c' h := (SecureChannel.sealFrame_error plaintext c).error h
  open_ok frame plaintext c c' h := by
    obtain ⟨hlive, n, ciphertext, rfl, hnext, -, hdecrypt, rfl⟩ :=
      SecureChannel.openFrame_eq_ok.mp h
    exact ⟨hlive, ⟨_, n, ciphertext⟩, rfl, rfl, hnext, hdecrypt, rfl⟩
  open_error frame e c c' h := by
    obtain rfl := (SecureChannel.openFrame_error frame c).error h
    rfl
  aad_injective d n th d' n' th' h := by
    have hnumber : ∀ d, directionNumber d < 2 ^ 64 := by
      intro d
      cases d <;> decide
    have hversion : 2 < 2 ^ 64 := by decide
    obtain ⟨hdirection, hcounter⟩ := aadFields_injective hversion (hnumber d) (hnumber d') h
    exact ⟨directionNumber_injective hdirection, hcounter⟩

end CredentialV2

end Channels

/-! ### Sample runs -/

attribute [local instance] Primitives.tagged

def sharedSecret : Octets 64 := fill 64 [7]

/-- The first frame of the allocator reaches the claimant and is reflected; then the claimant
is presented a forgery. -/
def sampleRun {F : Type} (frame : Direction → UInt64 → Bytes → F) :
    List (Side × ChannelCall F) :=
  let first := frame .allocatorToClaimant 0 (1 :: 7 :: List.replicate 15 0)
  [(.allocator, .sealFrame [1]), (.claimant, .openFrame first), (.allocator, .openFrame first),
    (.claimant, .openFrame (frame .allocatorToClaimant 1 (List.replicate 17 9)))]

namespace Pairing

/-- The Finished value that one end of the sample expects. -/
def finishedBytes (side : Side) : Bytes :=
  (PendingChannel.new side sharedSecret [] [] []).peerFinished.val

theorem confirms (side : Side) :
    ((PendingChannel.new side sharedSecret [] [] []).confirm (finishedBytes side)).isOk = true := by
  cases side <;> decide

def sampleEnd (side : Side) : SecureChannel :=
  value ((PendingChannel.new side sharedSecret [] [] []).confirm (finishedBytes side))
    (confirms side)

end Pairing

namespace CredentialV2

/-- The Finished frame that one end of the sample expects. -/
def finishedFrame (side : Side) : Frame :=
  .finished side.opposite (PendingChannel.new side sharedSecret [] [] []).peerFinished

theorem confirms (side : Side) :
    ((PendingChannel.new side sharedSecret [] [] []).confirm (finishedFrame side)).isOk = true := by
  cases side <;> decide

def sampleEnd (side : Side) : SecureChannel :=
  value ((PendingChannel.new side sharedSecret [] [] []).confirm (finishedFrame side))
    (confirms side)

end CredentialV2

end CbclPairing
