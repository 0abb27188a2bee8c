import CbclPairing.CredentialV2.AllocatorRecovery

/-! What a bootstrap checkpoint is bound to: it gives back the sealed state under its
own bindings, nothing under any other, and is never an established checkpoint. -/
namespace CbclPairing
namespace CredentialV2
open Codec Codec.Cbor Calls

variable [Primitives]

/-! ### One plaintext behind one envelope -/

/-- At most one key opens the ciphertext of an envelope. -/
def OneKey (input : Bytes) : Prop :=
  ∀ outer, decodeOuter input = .ok outer → ∀ key key' plaintext plaintext',
    aesGcmDecrypt key outer.nonce
      (checkpointAad outer.side outer.ceremony outer.generation outer.expiry) outer.ciphertext =
      some plaintext →
    aesGcmDecrypt key' outer.nonce
      (checkpointAad outer.side outer.ceremony outer.generation outer.expiry) outer.ciphertext =
      some plaintext' → key = key'

theorem openCheckpointPlaintext_outer {input : Bytes} {wrappingKey : Octets 32} {side : Side}
    {carrier : Carrier} {generation now : UInt64} {opened : OpenedCheckpoint}
    (h : openCheckpointPlaintext input wrappingKey side carrier generation now = .ok opened) :
    ∃ outer, decodeOuter input = .ok outer ∧ outer.side = side ∧
      outer.ceremony = carrier.carrierCeremonyId ∧ outer.generation = generation ∧
      aesGcmDecrypt (deriveKey outer.side outer.ceremony wrappingKey) outer.nonce
        (checkpointAad outer.side outer.ceremony outer.generation outer.expiry)
        outer.ciphertext = some opened.plaintext ∧
      opened.expiry = outer.expiry ∧ opened.nonce = outer.nonce := by
  simp only [openCheckpointPlaintext, Calls.except_bind_eq_ok, Calls.guard_eq_ok] at h
  obtain ⟨outer, houter, hbound, -, hopen⟩ := h
  simp only [not_or, ne_eq, not_not] at hbound
  obtain ⟨hside, hceremony, -, hgeneration⟩ := hbound
  refine ⟨outer, houter, hside, hceremony, hgeneration, ?_⟩
  split at hopen
  · cases hopen
  · next hdecrypt =>
    obtain rfl := Except.ok.inj hopen
    exact ⟨hdecrypt, rfl, rfl⟩

/-- Whoever opens an envelope finds the same plaintext, under the same key, for the same
side, ceremony and generation. -/
theorem openCheckpointPlaintext_same {input : Bytes} (honly : OneKey input)
    {wrappingKey wrappingKey' : Octets 32} {side side' : Side} {carrier carrier' : Carrier}
    {generation generation' now now' : UInt64} {opened opened' : OpenedCheckpoint}
    (h : openCheckpointPlaintext input wrappingKey side carrier generation now = .ok opened)
    (h' : openCheckpointPlaintext input wrappingKey' side' carrier' generation' now' =
      .ok opened') :
    opened' = opened ∧ generation' = generation ∧
      deriveKey side' carrier'.carrierCeremonyId wrappingKey' =
        deriveKey side' carrier'.carrierCeremonyId wrappingKey := by
  obtain ⟨outer, houter, rfl, hceremony, rfl, hdecrypt, hexpiry, hnonce⟩ :=
    openCheckpointPlaintext_outer h
  obtain ⟨outer', houter', rfl, hceremony', rfl, hdecrypt', hexpiry', hnonce'⟩ :=
    openCheckpointPlaintext_outer h'
  obtain rfl := Except.ok.inj (houter.symm.trans houter')
  have hkey := honly outer houter _ _ _ _ hdecrypt' hdecrypt
  rw [hkey] at hdecrypt'
  have hplaintext := Option.some.inj (hdecrypt.symm.trans hdecrypt')
  refine ⟨?_, rfl, ?_⟩
  · cases opened
    cases opened'
    simp_all
  · rw [← hceremony']
    exact hkey

/-! ### Two layouts, two tags -/

theorem decodeInner_tag {V : Type} [BodyVerifier V] {side : Side} {carrier : Carrier}
    {generation : UInt64} {nonce : Octets 12} {v : V} {plaintext rest : Bytes}
    {s : Established V}
    (h : decodeInner side carrier generation nonce v plaintext = .ok (s, rest)) :
    ∃ body, plaintext = innerDomain ++ body := by
  unfold decodeInner at h
  obtain ⟨domain, body, htake, h⟩ := Cursor.bind_eq_ok.mp h
  obtain ⟨hdomain, -⟩ := Cursor.guard_eq_ok.mp h
  rw [not_not] at hdomain
  unfold Cursor.take at htake
  split_ifs at htake
  obtain ⟨htag, hbody⟩ := Prod.mk.inj (Except.ok.inj htake)
  refine ⟨body, ?_⟩
  calc
    plaintext = plaintext.take innerDomain.length ++ plaintext.drop innerDomain.length :=
      (List.take_append_drop _ _).symm
    _ = innerDomain ++ body := by rw [htag, hbody, hdomain]

/-- No byte string is both a bootstrap and an established checkpoint. -/
theorem not_bootstrap_and_endpoint {V : Type} [BodyVerifier V] {input : Bytes}
    (honly : OneKey input) {wrappingKey wrappingKey' : Octets 32} {carrier carrier' : Carrier}
    {generation generation' now now' : UInt64} {mode : AllocatorMode} {side : Side} {v : V}
    {b : Bootstrap} {s : Established V}
    (hbootstrap : Bootstrap.restoreCheckpoint input wrappingKey carrier generation now mode =
      .ok b)
    (hendpoint : Endpoint.restoreCheckpoint input wrappingKey' side carrier' generation' now' v =
      .ok s) : False := by
  simp only [Bootstrap.restoreCheckpoint, Calls.except_bind_eq_ok, Calls.guard_eq_ok,
    Prod.exists] at hbootstrap
  simp only [Endpoint.restoreCheckpoint, Calls.except_bind_eq_ok, Prod.exists] at hendpoint
  obtain ⟨opened, hopened, -, b', rest, hdecode, -⟩ := hbootstrap
  obtain ⟨opened', hopened', s', rest', hdecode', -⟩ := hendpoint
  obtain ⟨rfl, -⟩ := openCheckpointPlaintext_same honly hopened hopened'
  obtain ⟨body, hbody⟩ := decodeInner_tag hdecode'
  obtain ⟨e, herror⟩ := Bootstrap.decodeInner_endpoint carrier generation opened'.nonce mode body
  rw [hbody, herror] at hdecode
  cases hdecode

/-! ### The bindings -/

namespace Bootstrap

/-- The mode and the carrier are read, not trusted. -/
theorem decodeInner_bindings {carrier carrier' : Carrier} {generation generation' : UInt64}
    {nonce nonce' : Octets 12} {mode mode' : AllocatorMode} {plaintext rest rest' : Bytes}
    {b b' : Bootstrap}
    (h : decodeInner carrier generation nonce mode plaintext = .ok (b, rest))
    (h' : decodeInner carrier' generation' nonce' mode' plaintext = .ok (b', rest')) :
    carrier' = carrier ∧ mode' = mode := by
  unfold decodeInner decodeBody at h h'
  obtain ⟨tag, r₁, htag, h⟩ := Cursor.bind_eq_ok.mp h
  obtain ⟨tag', r₁', htag', h'⟩ := Cursor.bind_eq_ok.mp h'
  obtain ⟨rfl, rfl⟩ := Prod.mk.inj (Except.ok.inj (htag.symm.trans htag'))
  obtain ⟨readMode, r₂, hmode, h⟩ := Cursor.bind_eq_ok.mp h
  obtain ⟨readMode', r₂', hmode', h'⟩ := Cursor.bind_eq_ok.mp h'
  obtain ⟨rfl, rfl⟩ := Prod.mk.inj (Except.ok.inj (hmode.symm.trans hmode'))
  obtain ⟨hsame, h⟩ := Cursor.guard_eq_ok.mp h
  obtain ⟨hsame', h'⟩ := Cursor.guard_eq_ok.mp h'
  obtain ⟨bytes, r₃, hbytes, h⟩ := Cursor.bind_eq_ok.mp h
  obtain ⟨bytes', r₃', hbytes', h'⟩ := Cursor.bind_eq_ok.mp h'
  obtain ⟨rfl, rfl⟩ := Prod.mk.inj (Except.ok.inj (hbytes.symm.trans hbytes'))
  obtain ⟨read, r₄, hread, h⟩ := Cursor.bind_eq_ok.mp h
  obtain ⟨read', r₄', hread', h'⟩ := Cursor.bind_eq_ok.mp h'
  obtain ⟨rfl, rfl⟩ := Prod.mk.inj (Except.ok.inj (hread.symm.trans hread'))
  obtain ⟨hcarrier, -⟩ := Cursor.guard_eq_ok.mp h
  obtain ⟨hcarrier', -⟩ := Cursor.guard_eq_ok.mp h'
  rw [not_not] at hsame hsame' hcarrier hcarrier'
  exact ⟨hcarrier'.symm.trans hcarrier, hsame'.symm.trans hsame⟩

/-- The bindings under which a checkpoint may be restored. -/
structure Bound (b : Bootstrap) (wrappingKey wrappingKey' : Octets 32) (carrier : Carrier)
    (generation now : UInt64) (mode : AllocatorMode) : Prop where
  key : wrappingKey' = wrappingKey
  carrier : carrier = b.carrier
  generation : generation = b.checkpointGeneration
  mode : mode = b.mode
  live : now < b.carrier.relayExpiresAt

/-- A checkpoint that gives back this state under its bindings, and nothing under any
other, to a bootstrap and to a session. -/
structure RoundTrips (V : Type) [BodyVerifier V] (b : Bootstrap) (wrappingKey : Octets 32)
    (checkpoint : Bytes) : Prop where
  restored : ∀ now < b.carrier.relayExpiresAt,
    restoreCheckpoint checkpoint wrappingKey b.carrier b.checkpointGeneration now b.mode = .ok b
  resumed : ∀ now < b.carrier.relayExpiresAt, ∀ scalar, ∀ v : V,
    ∃ s, AllocatorSession.restore checkpoint wrappingKey b.carrier b.checkpointGeneration
      b.profileDigest now b.mode scalar v = .ok s ∧ s.state = .bootstrap b
  bound : OneKey checkpoint →
    Function.Injective (deriveKey .allocator b.carrier.carrierCeremonyId) →
    ∀ wrappingKey' carrier generation now mode r,
      restoreCheckpoint checkpoint wrappingKey' carrier generation now mode = .ok r →
        b.Bound wrappingKey wrappingKey' carrier generation now mode
  sessionBound : OneKey checkpoint →
    Function.Injective (deriveKey .allocator b.carrier.carrierCeremonyId) →
    ∀ wrappingKey' carrier generation profileDigest now mode scalar, ∀ v : V, ∀ s,
      AllocatorSession.restore checkpoint wrappingKey' carrier generation profileDigest now mode
        scalar v = .ok s →
        b.Bound wrappingKey wrappingKey' carrier generation now mode ∧
          profileDigest = b.profileDigest

variable {wrappingKey : Octets 32} {generation now : UInt64} {nonce : Octets 12}
  {b b' : Bootstrap} {checkpoint : Bytes}

theorem restore_sealed {V : Type} [BodyVerifier V]
    (h : sealCheckpoint wrappingKey generation nonce now b = .ok checkpoint b')
    (hcoherent : b.Coherent) : RoundTrips V b' wrappingKey checkpoint := by
  have hnow := (sealCheckpoint_eq_ok.mp h).1
  obtain rfl := (sealCheckpoint_eq_ok.mp h).2.2.2
  have hrestored : ∀ later < b.carrier.relayExpiresAt,
      restoreCheckpoint checkpoint wrappingKey b.carrier generation later b.mode =
        .ok (b.stamped generation nonce) :=
    fun later hlater => restoreCheckpoint_sealCheckpoint h hcoherent hlater
  have hbound : OneKey checkpoint →
      Function.Injective (deriveKey .allocator b.carrier.carrierCeremonyId) →
      ∀ wrappingKey' carrier generation' later mode r,
        restoreCheckpoint checkpoint wrappingKey' carrier generation' later mode = .ok r →
          (b.stamped generation nonce).Bound wrappingKey wrappingKey' carrier generation' later
            mode := by
    intro honly hinjective wrappingKey' carrier generation' later mode r hr
    have hown := hrestored now hnow
    simp only [restoreCheckpoint, Calls.except_bind_eq_ok, Calls.guard_eq_ok, Prod.exists,
      ne_eq, not_not] at hown hr
    obtain ⟨opened, hopened, hexpiry, own, rest, hdecode, -⟩ := hown
    obtain ⟨opened', hopened', hexpiry', other, rest', hdecode', -⟩ := hr
    obtain ⟨rfl, rfl, hkey⟩ := openCheckpointPlaintext_same honly hopened hopened'
    obtain ⟨rfl, rfl⟩ := decodeInner_bindings hdecode hdecode'
    refine ⟨hinjective hkey, rfl, rfl, rfl, ?_⟩
    obtain ⟨-, ⟨hgeneration, -, -⟩, ⟨plaintext, -, hseal⟩, -⟩ := sealCheckpoint_eq_ok.mp h
    rw [hinjective hkey] at hopened'
    exact openCheckpointPlaintext_live hseal hgeneration hopened' _ rfl
  refine ⟨hrestored, ?_, hbound, ?_⟩
  · intro later hlater scalar v
    unfold AllocatorSession.restore
    rw [show restoreCheckpoint checkpoint wrappingKey (b.stamped generation nonce).carrier
      (b.stamped generation nonce).checkpointGeneration later (b.stamped generation nonce).mode =
        .ok (b.stamped generation nonce) from hrestored later hlater]
    dsimp only
    rw [if_neg (not_not.mpr rfl)]
    exact ⟨_, rfl, rfl⟩
  · intro honly hinjective wrappingKey' carrier generation' profileDigest later mode scalar v s hs
    unfold AllocatorSession.restore at hs
    split at hs
    · next r hr =>
      obtain ⟨hdigest, -⟩ := Calls.guard_eq_ok.mp hs
      have hbindings := hbound honly hinjective _ _ _ _ _ _ hr
      obtain ⟨rfl, rfl, rfl, rfl, hlive⟩ := hbindings
      have hsame := Except.ok.inj (hr.symm.trans (hrestored later hlive))
      rw [not_not, hsame] at hdigest
      exact ⟨⟨rfl, rfl, rfl, rfl, hlive⟩, hdigest.symm⟩
    · obtain ⟨e, he, -⟩ := Calls.except_bind_eq_ok.mp hs
      exact (not_bootstrap_and_endpoint honly (hrestored now hnow) he).elim

end Bootstrap

/-! ### Every reachable bootstrap -/

namespace AllocatorSession

variable {V : Type} [BodyVerifier V]

omit [BodyVerifier V] in
theorem new_state {input : AllocatorInput} {v : V} {s : AllocatorSession V}
    (h : AllocatorSession.new input v = .ok s) : s.state = .awaitWelcome := by
  unfold AllocatorSession.new at h
  rw [Calls.guard_eq_ok, Calls.guard_eq_ok, Calls.except_bind_eq_ok] at h
  obtain ⟨-, -, template, -, h⟩ := h
  obtain rfl := Except.ok.inj h
  rfl

/-- A session begins coherent, whatever it was restored from. -/
theorem Begins.coherent {s : AllocatorSession V} (h : s.Begins) :
    s.state.Coherent s.mode s.profileDigest := by
  have hsided := (Barred.begins h).sided
  cases h with
  | new h =>
    rw [new_state h]
    trivial
  | restored h =>
    unfold restore at h
    split at h
    · next b hb =>
      obtain ⟨hdigest, h⟩ := Calls.guard_eq_ok.mp h
      obtain rfl := Except.ok.inj h
      have hreopened := Bootstrap.restoreCheckpoint_eq_ok hb
      exact ⟨hreopened.coherent, hreopened.mode, not_not.mp hdigest⟩
    · obtain ⟨e, he, h⟩ := Calls.except_bind_eq_ok.mp h
      obtain rfl := Except.ok.inj h
      have hreopened := Endpoint.restoreCheckpoint_eq_ok he
      exact ⟨hreopened.coherent, hsided⟩

omit [BodyVerifier V] in
theorem Direct.coherent {s s' : AllocatorSession V} {effects : List AllocatorEffect}
    (h : Direct s effects s') (hs : s.state.Coherent s.mode s.profileDigest) :
    s'.state.Coherent s'.mode s'.profileDigest := by
  cases h with
  | requested => trivial
  | closed => trivial
  | _ => exact hs

/-- A sealed move keeps the session coherent, and its checkpoint round-trips. -/
theorem Sealed.round_trips {s s₁ s' : AllocatorSession V} {cause : Cause}
    {after effects : List AllocatorEffect} {now : UInt64} {nonce : Octets 12}
    (htransition : Transition s cause s₁ after) (hsealed : Sealed s₁ after now nonce effects s')
    (hs : s.state.Coherent s.mode s.profileDigest) :
    s'.state.Coherent s'.mode s'.profileDigest ∧
      ∀ generation checkpoint carrier, .checkpoint generation checkpoint carrier ∈ effects →
        ∀ b, s'.state = .bootstrap b → b.RoundTrips V s'.wrappingKey checkpoint := by
  obtain ⟨generation, checkpoint, carrier, state', hseals, rfl, rfl⟩ := hsealed
  obtain ⟨hcoherent, hmode, hprofile, -⟩ := htransition.coherent hs
  rw [← hmode, ← hprofile] at hcoherent
  refine ⟨hseals.coherent hcoherent, ?_⟩
  intro generation' checkpoint' carrier' hmem b hb
  obtain ⟨rfl, rfl, rfl⟩ := AllocatorEffect.checkpoint.inj (List.mem_singleton.mp hmem)
  generalize s₁.state = state at hseals hcoherent
  cases hseals with
  | bootstrap hseal =>
    obtain rfl := AllocatorState.bootstrap.inj hb
    exact Bootstrap.restore_sealed hseal hcoherent.1
  | established hseal => cases hb

theorem Succeeded.round_trips {c : AllocatorCall} {s s' : AllocatorSession V}
    {effects : List AllocatorEffect} (h : Succeeded c s effects s')
    (hs : s.state.Coherent s.mode s.profileDigest)
    (hheld : ∀ effect ∈ s.afterPersist, effect.generation? = none) :
    s'.state.Coherent s'.mode s'.profileDigest ∧
      ∀ generation checkpoint carrier, .checkpoint generation checkpoint carrier ∈ effects →
        ∀ b, s'.state = .bootstrap b → b.RoundTrips V s'.wrappingKey checkpoint := by
  cases h with
  | bound _ _ heffects hs' =>
    subst heffects hs'
    refine ⟨hs, ?_⟩
    intro generation checkpoint carrier hmem
    cases List.mem_singleton.mp hmem
  | persisted _ _ heffects hs' =>
    subst heffects hs'
    refine ⟨hs, ?_⟩
    intro generation checkpoint carrier hmem
    cases hheld _ hmem
  | applied _ _ houtcome =>
    cases houtcome with
    | direct hdirect =>
      refine ⟨hdirect.coherent hs, ?_⟩
      intro generation checkpoint carrier hmem
      cases List.filterMap_eq_nil_iff.mp hdirect.no_checkpoint _ hmem
    | moved htransition hsealed => exact hsealed.round_trips htransition hs

theorem held_no_checkpoint {s₀ : AllocatorSession V} (hbegins : s₀.Begins)
    (calls : List AllocatorCall) :
    ∀ effect ∈ (Runs.after call s₀ calls).afterPersist, effect.generation? = none := by
  intro effect hmem
  obtain ⟨_, source, -, -, hcontains⟩ := (barred s₀ hbegins calls).held (List.ne_nil_of_mem hmem)
  exact (hcontains effect hmem).no_checkpoint

/-- Every state of a run is coherent. -/
theorem coherent_run {s₀ : AllocatorSession V} (hbegins : s₀.Begins)
    (calls : List AllocatorCall) :
    (Runs.after call s₀ calls).state.Coherent (Runs.after call s₀ calls).mode
      (Runs.after call s₀ calls).profileDigest := by
  refine Runs.invariant call (P := fun calls (s : AllocatorSession V) =>
    (∀ effect ∈ s.afterPersist, effect.generation? = none) →
      s.state.Coherent s.mode s.profileDigest) (fun _ => hbegins.coherent) ?_ calls
    (held_no_checkpoint hbegins calls)
  intro calls c hs _
  have hs := hs (held_no_checkpoint hbegins calls)
  cases hcall : call c (Runs.after call s₀ calls) with
  | ok effects s' =>
    exact ((call_ok hcall).round_trips hs (held_no_checkpoint hbegins calls)).1
  | error e s' =>
    obtain rfl | ⟨s'', rfl⟩ := call_error hcall
    · exact hs
    · trivial

end AllocatorSession
end CredentialV2

/-! ### A checkpoint that one key opens -/

open Codec

/-- The tag of a ciphertext names the key when its second half is zero. -/
def keyTag (key : Octets 32) : Bytes :=
  if key.val.drop 16 = List.replicate 16 0 then key.val.take 16 else List.replicate 16 255

/-- Like the transparent functions, but the cipher checks a tag and a derived key is its
secret. -/
@[reducible] def Primitives.tagged : Primitives where
  sha256 input := fill 32 input
  sha512 input := fill 64 input
  hmacSha512 key input := fill 64 (key ++ input)
  hkdfSha512 _ secret _ length := fill length secret
  aesGcmEncrypt key _ _ msg := msg ++ keyTag key
  aesGcmDecrypt key _ _ ciphertext :=
    if ciphertext.drop (ciphertext.length - 16) = keyTag key then
      some (ciphertext.take (ciphertext.length - 16))
    else none
  x25519 scalar point := ⟨List.zipWith (· + ·) scalar.val point.val, length_added scalar point⟩
  isHttpsOrigin _ := true
  decrypt_encrypt := by
    intro key nonce aad msg
    have hlength : (keyTag key).length = 16 := by
      unfold keyTag
      split_ifs <;> simp
    simp [hlength]
  encrypt_length := by
    intro key nonce aad msg
    unfold keyTag
    split_ifs <;> simp

namespace CredentialV2
open Codec Calls

attribute [local instance] Primitives.tagged

theorem oneKey_of_tail {input : Bytes} (h : ∀ outer, decodeOuter input = .ok outer →
    outer.ciphertext.drop (outer.ciphertext.length - 16) ≠ List.replicate 16 255) :
    OneKey input := by
  intro outer houter key key' plaintext plaintext' hkey hkey'
  have htail := h outer houter
  have hnames : ∀ {key : Octets 32} {plaintext : Bytes},
      aesGcmDecrypt key outer.nonce
        (checkpointAad outer.side outer.ceremony outer.generation outer.expiry)
        outer.ciphertext = some plaintext →
      key.val = outer.ciphertext.drop (outer.ciphertext.length - 16) ++ List.replicate 16 0 := by
    intro key plaintext hopens
    have hopens : (if outer.ciphertext.drop (outer.ciphertext.length - 16) = keyTag key then
        some (outer.ciphertext.take (outer.ciphertext.length - 16)) else none) =
          some plaintext := hopens
    split_ifs at hopens with htag
    rw [htag] at htail ⊢
    unfold keyTag at htail ⊢
    split_ifs at htail ⊢ with hhalf
    · rw [← hhalf, List.take_append_drop]
    · exact absurd rfl htail
  exact Subtype.ext ((hnames hkey).trans (hnames hkey').symm)

theorem deriveKey_injective (side : Side) (ceremony : Octets 32) :
    Function.Injective (deriveKey side ceremony) := by
  intro key key' hsame
  have hfill : ∀ key : Octets 32, (deriveKey side ceremony key).val = key.val := by
    intro key
    exact List.take_left' key.property
  exact Subtype.ext ((hfill key).symm.trans ((congrArg Subtype.val hsame).trans (hfill key')))

def Bootstrap.kept : Bootstrap :=
  value (do
    let carrier ← Carrier.new
      { applicationContext := ascii "https://issuer.example/card"
        relayOrigin := ascii "https://relay.example", mailboxId := fill 32 [1]
        carrierCeremonyId := fill 32 [2], carrierNonce := fill 32 [3]
        claimCommitment := fill 32 [4], relayExpiresAt := 100, expectedAllocatorKey := none }
    Bootstrap.new carrier ⟨fill 16 [4], some (fill 16 [5])⟩ (fill 32 [7])
      (RelayState.new (fill 32 [9])) .full) (by decide +kernel)

/-- The first checkpoint of the kept bootstrap, and the next one after a restore. -/
def Bootstrap.keptCheckpoint : Bytes :=
  value (Call.verdict (Bootstrap.sealCheckpoint (fill 32 [8]) 1 (fill 12 [1]) 50 .kept))
    (by decide +kernel)

def AllocatorSession.kept : AllocatorSession Unit :=
  value (AllocatorSession.restore Bootstrap.keptCheckpoint (fill 32 [8]) Bootstrap.kept.carrier 1
    (fill 32 [7]) 60 .full (fill 32 [6]) ()) (by decide +kernel)

def Bootstrap.keptAgain : Bytes :=
  value (Call.verdict (Bootstrap.sealCheckpoint (fill 32 [8]) 2 (fill 12 [2]) 60
    (Bootstrap.kept.stamped 1 (fill 12 [1])))) (by decide +kernel)

theorem AllocatorSession.begins_kept : AllocatorSession.kept.Begins := .restored (eq_ok_value _ _)

theorem AllocatorSession.kept_bootstrap :
    AllocatorSession.kept.bootstrap? = some (Bootstrap.kept.stamped 1 (fill 12 [1])) := by
  decide +kernel

theorem Bootstrap.keptAgain_oneKey : OneKey Bootstrap.keptAgain := by
  have htail : ((decodeOuter Bootstrap.keptAgain).toOption.all fun outer =>
      outer.ciphertext.drop (outer.ciphertext.length - 16) != List.replicate 16 255) = true := by
    decide +kernel
  refine oneKey_of_tail ?_
  intro outer houter
  rw [houter] at htail
  simpa [Except.toOption] using htail

theorem Bootstrap.keptAgain_sealed : ∃ b', Bootstrap.sealCheckpoint (fill 32 [8]) 2 (fill 12 [2]) 60
    (Bootstrap.kept.stamped 1 (fill 12 [1])) = .ok Bootstrap.keptAgain b' :=
  Call.verdict_eq_ok.mp (eq_ok_value _ _)

end CredentialV2
end CbclPairing
