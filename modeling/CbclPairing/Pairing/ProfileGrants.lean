import CbclPairing.Pairing.Invitation
import CbclPairing.Pairing.ProfileClaims

/-! Under the binding of a displayed intent a built-in profile recognises the grants
that repeat the display, and no others. -/
namespace CbclPairing
namespace Pairing
open Codec Codec.Cbor Codec.Cddl Calls Wire

/-- What a display shows under a label. -/
def DisplayIntent.shown (d : DisplayIntent) (label : String) : Option Bytes :=
  (d.fields.find? fun field => field.label == ascii label).map DisplayField.value

namespace Profile

/-! ### Bindings -/

theorem bindingValue_textual (fields : List Text) : Textual maxDepth (bindingValue fields) := by
  intro x hx
  obtain ⟨field, -, rfl⟩ := List.mem_map.mp hx
  exact field.property

theorem canonical_bindingValue (fields : List Text) :
    canonical (bindingValue fields) = bindingValue fields := by
  apply canonical_array_eq
  intro x hx
  obtain ⟨field, -, rfl⟩ := List.mem_map.mp hx
  rfl

theorem bindingValue_injective : Function.Injective bindingValue := by
  intro fields fields' h
  have hmap : Function.Injective fun field : Text => Value.text field.val := fun s t hst =>
    Subtype.ext (Value.text.inj hst)
  exact List.map_injective_iff.mpr hmap (Value.array.inj h)

/-- The encoding whose digest is the binding of some texts. -/
def bindingInput (fields : List Text) : Bytes := toCanonicalVec (bindingValue fields)

theorem binding_eq_ok [Primitives] {fields : List Text} {digest : Octets 32} :
    binding fields = .ok digest ↔
      (∃ encoded, canonicalVec? (bindingValue fields) = some encoded) ∧
        digest = sha256 (bindingInput fields) := by
  unfold binding
  cases h : canonicalVec? (bindingValue fields) with
  | none => simp
  | some encoded =>
    have hinput := (canonicalVec?_eq_some.mp h).2
    simp [bindingInput, hinput, eq_comm]

/-- Texts with one encoding are the same texts. -/
theorem bindingInput_inj {fields fields' : List Text} {encoded encoded' : Bytes}
    (h : canonicalVec? (bindingValue fields) = some encoded)
    (h' : canonicalVec? (bindingValue fields') = some encoded')
    (heq : bindingInput fields = bindingInput fields') : fields = fields' := by
  obtain ⟨⟨hencodable, hduplicate⟩, -⟩ := canonicalVec?_eq_some.mp h
  obtain ⟨⟨hencodable', hduplicate'⟩, -⟩ := canonicalVec?_eq_some.mp h'
  have hplain := plain_of_encodable hencodable hduplicate (bindingValue_textual fields)
  have hplain' := plain_of_encodable hencodable' hduplicate' (bindingValue_textual fields')
  have hcanonical := canonical_eq_of_toCanonicalVec_eq hplain hplain' heq
  rw [canonical_bindingValue, canonical_bindingValue] at hcanonical
  exact bindingValue_injective hcanonical

/-! ### One profile -/

theorem payloadType_eq_ok {descriptor : ProfileDescriptor} {payload : ApplicationPayload} :
    payloadType descriptor payload = .ok () ↔ payload.payloadType = descriptor.payloadType := by
  simp [payloadType]

namespace Recogniser

variable {C G : Type}

theorem recogniseIntent_eq_ok {p : Recogniser C G} {intent : PairingIntent}
    {shown : DisplayIntent} {binding : ProfileBinding}
    (h : p.recogniseIntent intent = .ok (shown, binding)) :
    ∃ claims, p.decodeClaims intent.allocatorClaim intent.claimantClaim = .ok claims ∧
      p.binding claims = .ok binding.digest ∧ shown = displayIntent intent (p.fields claims) := by
  simp only [recogniseIntent, except_bind_eq_ok, exists_unit] at h
  obtain ⟨-, claims, hclaims, digest, hdigest, h⟩ := h
  cases h
  exact ⟨claims, hclaims, hdigest, rfl⟩

theorem recognisePayload_eq_ok {p : Recogniser C G} {binding : ProfileBinding}
    {payload : ApplicationPayload} {r : RecognisedPayload} :
    p.recognisePayload binding payload = .ok r ↔
      payload.payloadType = p.descriptor.payloadType ∧
        (∃ grant, p.decodeGrant payload.body = .ok grant ∧
          p.payloadBinding (p.claims grant) = .ok binding.digest) ∧
        r = recognised p.descriptor payload := by
  simp only [recognisePayload, except_bind_eq_ok, exists_unit, payloadType_eq_ok, guard_eq_ok,
    not_not]
  constructor
  · rintro ⟨htype, grant, hgrant, digest, hdigest, rfl, h⟩
    exact ⟨htype, ⟨grant, hgrant, hdigest⟩, (Except.ok.inj h).symm⟩
  · rintro ⟨htype, ⟨grant, hgrant, hdigest⟩, rfl⟩
    exact ⟨htype, grant, hgrant, _, hdigest, rfl, rfl⟩

variable [Primitives]

/-- The bindings of an intent and of a payload are digests of their own. `bound` are the
texts that stand for the claims. -/
def HashesApart (p : Recogniser C G) (bound : C → List Text) (intent : PairingIntent)
    (payload : ApplicationPayload) : Prop :=
  Set.InjOn sha256 {input | ∃ claims, input = bindingInput (bound claims) ∧
    (p.decodeClaims intent.allocatorClaim intent.claimantClaim = .ok claims ∨
      ∃ grant, p.decodeGrant payload.body = .ok grant ∧ claims = p.claims grant)}

/-- What a profile's readers, writers, bindings and display owe to each other. `repeated`
are the fields that a grant repeats, under their labels. -/
structure Sound (p : Recogniser C G) (bound : C → List Text)
    (repeated : G → List (String × Text))
    (encodeClaims : C → Except ProfileError (Bytes × Bytes))
    (encodeGrant : G → Except ProfileError Bytes) : Prop where
  claims_canonical : ∀ allocator claimant claims,
    p.decodeClaims allocator claimant = .ok claims → encodeClaims claims = .ok (allocator, claimant)
  grant_canonical : ∀ input grant, p.decodeGrant input = .ok grant → encodeGrant grant = .ok input
  grant_read : ∀ allocator claimant claims input grant,
    p.decodeClaims allocator claimant = .ok claims → bound claims = bound (p.claims grant) →
    encodeGrant grant = .ok input → p.decodeGrant input = .ok grant
  binding : ∀ claims, p.binding claims = Profile.binding (bound claims)
  payloadBinding : ∀ claims, p.payloadBinding claims = Profile.binding (bound claims)
  shown : ∀ intent claims grant,
    (∀ e ∈ repeated grant, (displayIntent intent (p.fields claims)).shown e.1 = some e.2.val) ↔
      bound claims = bound (p.claims grant)

theorem Sound.recognisePayload_iff {p : Recogniser C G} {bound : C → List Text}
    {repeated : G → List (String × Text)} {encodeClaims : C → Except ProfileError (Bytes × Bytes)}
    {encodeGrant : G → Except ProfileError Bytes}
    (h : p.Sound bound repeated encodeClaims encodeGrant) {intent : PairingIntent}
    {shown : DisplayIntent} {binding : ProfileBinding} {payload : ApplicationPayload}
    (hintent : p.recogniseIntent intent = .ok (shown, binding))
    (hapart : p.HashesApart bound intent payload) (r : RecognisedPayload) :
    p.recognisePayload binding payload = .ok r ↔
      payload.payloadType = p.descriptor.payloadType ∧
        (∃ grant, encodeGrant grant = .ok payload.body ∧
          ∀ e ∈ repeated grant, shown.shown e.1 = some e.2.val) ∧
        r = recognised p.descriptor payload := by
  obtain ⟨claims, hclaims, hbinding, rfl⟩ := recogniseIntent_eq_ok hintent
  rw [h.binding] at hbinding
  rw [recognisePayload_eq_ok]
  simp only [h.shown, h.payloadBinding]
  apply and_congr_right
  intro _
  apply and_congr_left
  intro _
  constructor
  · rintro ⟨grant, hgrant, hdigest⟩
    refine ⟨grant, h.grant_canonical _ _ hgrant, ?_⟩
    obtain ⟨⟨encoded, hencoded⟩, hclaim⟩ := binding_eq_ok.mp hbinding
    obtain ⟨⟨encoded', hencoded'⟩, hrepeat⟩ := binding_eq_ok.mp hdigest
    have hinput := hapart ⟨_, rfl, .inr ⟨grant, hgrant, rfl⟩⟩ ⟨_, rfl, .inl hclaims⟩
      (hrepeat.symm.trans hclaim)
    exact (bindingInput_inj hencoded' hencoded hinput).symm
  · rintro ⟨grant, hencode, hbound⟩
    refine ⟨grant, h.grant_read _ _ _ _ _ hclaims hbound hencode, ?_⟩
    rw [← hbound]
    exact hbinding

end Recogniser

/-! ### The built-in profiles -/

@[simp] theorem shown_display (intent : PairingIntent) (label : String) (value : Text)
    (fields : List DisplayField) :
    (displayIntent intent (display label value :: fields)).shown label = some value.val := by
  simp [DisplayIntent.shown, displayIntent, display]

theorem shown_display_ne {label other : String} (h : ascii label ≠ ascii other)
    (intent : PairingIntent) (value : Text) (fields : List DisplayField) :
    (displayIntent intent (display label value :: fields)).shown other =
      (displayIntent intent fields).shown other := by
  simp [DisplayIntent.shown, displayIntent, display, h]

/-- The fields a grant repeats, under the labels of their display. -/
def AgentGrant.repeated (value : AgentGrant) : List (String × Text) :=
  [("claimed principal", value.claimedPrincipal), ("agent handle", value.agentHandle),
    ("requested grant", value.requestedGrant)]

def CredentialGrant.repeated (value : CredentialGrant) : List (String × Text) :=
  [("applicationId", value.applicationId), ("HTTPS origin", value.origin),
    ("requested scope", value.scope), ("recipient", value.recipient)]

def SyntheticGrant.repeated (value : SyntheticGrant) : List (String × Text) :=
  [("synthetic subject", value.subject), ("synthetic audience", value.audience)]

section Sound

variable [Primitives]

theorem agentRecogniser_sound : agentRecogniser.Sound AgentIntentClaims.bound
    AgentGrant.repeated AgentIntentClaims.encode AgentGrant.encode where
  claims_canonical _ _ _ h := decodeAgentClaims_iff.mp h
  grant_canonical _ _ h := decodeAgentGrant_iff.mp h
  grant_read _ _ _ _ _ _ _ h := decodeAgentGrant_iff.mpr h
  binding _ := rfl
  payloadBinding _ := rfl
  shown intent claims grant := by
    simp +decide [agentRecogniser, AgentGrant.repeated, AgentIntentClaims.bound,
      AgentGrant.claims, shown_display_ne, Subtype.ext_iff]

theorem credentialRecogniser_sound [UrlParser] :
    credentialRecogniser.Sound CredentialIntentClaims.bound CredentialGrant.repeated
      CredentialIntentClaims.encode CredentialGrant.encode where
  claims_canonical _ _ _ h := (decodeCredentialClaims_iff.mp h).1
  grant_canonical _ _ h := (decodeCredentialGrant_iff.mp h).1
  -- The origin of a displayed intent is bounded, hence that of a grant that repeats it.
  grant_read _ _ claims _ grant hclaims hbound h := by
    have horigin := (decodeCredentialClaims_iff.mp hclaims).2
    have hsame : claims.origin = grant.origin := by
      simp only [credentialRecogniser, CredentialIntentClaims.bound, CredentialGrant.claims,
        List.cons.injEq] at hbound
      exact hbound.2.2.2.1
    exact decodeCredentialGrant_iff.mpr ⟨h, hsame ▸ horigin⟩
  binding _ := rfl
  payloadBinding _ := rfl
  shown intent claims grant := by
    simp +decide [credentialRecogniser, CredentialGrant.repeated, CredentialIntentClaims.bound,
      CredentialGrant.claims, shown_display_ne, Subtype.ext_iff]

theorem syntheticRecogniser_sound : syntheticRecogniser.Sound SyntheticIntentClaims.bound
    SyntheticGrant.repeated SyntheticIntentClaims.encode SyntheticGrant.encode where
  claims_canonical _ _ _ h := decodeSyntheticClaims_iff.mp h
  grant_canonical _ _ h := decodeSyntheticGrant_iff.mp h
  grant_read _ _ _ _ _ _ _ h := decodeSyntheticGrant_iff.mpr h
  binding _ := rfl
  payloadBinding _ := rfl
  shown intent claims grant := by
    simp +decide [syntheticRecogniser, SyntheticGrant.repeated, SyntheticIntentClaims.bound,
      SyntheticGrant.claims, shown_display_ne, Subtype.ext_iff]

end Sound

/-- A profile's payloads match the intents it displays: under the binding of an intent it
recognises the encodings of the grants that repeat the displayed fields. Its claims and its
grants have one encoding each. -/
structure PayloadsMatch (π : Type) [ApplicationProfile π] [Primitives] {C G : Type}
    (p : Recogniser C G) (bound : C → List Text) (repeated : G → List (String × Text))
    (encodeClaims : C → Except ProfileError (Bytes × Bytes))
    (encodeGrant : G → Except ProfileError Bytes) : Prop where
  recognises : ∀ (profile profile' : π) intent shown binding,
    ApplicationProfile.recogniseIntent intent profile = .ok (shown, binding) profile' →
    ∀ payload, p.HashesApart bound intent payload → ∀ (later : π) r,
      ApplicationProfile.recognisePayload later binding payload = .ok r ↔
        payload.payloadType = p.descriptor.payloadType ∧
          (∃ grant, encodeGrant grant = .ok payload.body ∧
            ∀ e ∈ repeated grant, shown.shown e.1 = some e.2.val) ∧
          r = recognised p.descriptor payload
  claims_canonical : ∀ allocator claimant claims,
    p.decodeClaims allocator claimant = .ok claims → encodeClaims claims = .ok (allocator, claimant)
  grant_canonical : ∀ input grant, p.decodeGrant input = .ok grant → encodeGrant grant = .ok input
  claims_unique : ∀ allocator claimant allocator' claimant' claims,
    p.decodeClaims allocator claimant = .ok claims →
    p.decodeClaims allocator' claimant' = .ok claims →
    allocator = allocator' ∧ claimant = claimant'
  grant_unique : ∀ input input' grant, p.decodeGrant input = .ok grant →
    p.decodeGrant input' = .ok grant → input = input'

theorem Recogniser.Sound.payloadsMatch {π : Type} [ApplicationProfile π] [Primitives]
    {C G : Type} {p : Recogniser C G} {bound : C → List Text}
    {repeated : G → List (String × Text)} {encodeClaims : C → Except ProfileError (Bytes × Bytes)}
    {encodeGrant : G → Except ProfileError Bytes}
    (h : p.Sound bound repeated encodeClaims encodeGrant)
    (hintent : ∀ (intent : PairingIntent) (profile : π),
      ApplicationProfile.recogniseIntent intent profile =
        Call.ofExcept (p.recogniseIntent intent) profile)
    (hpayload : ∀ (profile : π) (binding : ProfileBinding) (payload : ApplicationPayload),
      ApplicationProfile.recognisePayload profile binding payload =
        p.recognisePayload binding payload) :
    PayloadsMatch π p bound repeated encodeClaims encodeGrant where
  recognises profile profile' intent shown binding hrun payload hapart later r := by
    rw [hintent, Call.ofExcept_eq_ok] at hrun
    rw [hpayload]
    exact h.recognisePayload_iff hrun.1 hapart r
  claims_canonical := h.claims_canonical
  grant_canonical := h.grant_canonical
  claims_unique allocator claimant allocator' claimant' claims hfirst hsecond := by
    have hpair := (h.claims_canonical _ _ _ hfirst).symm.trans (h.claims_canonical _ _ _ hsecond)
    exact Prod.mk.inj (Except.ok.inj hpair)
  grant_unique input input' grant hfirst hsecond := by
    have hsame := (h.grant_canonical _ _ hfirst).symm.trans (h.grant_canonical _ _ hsecond)
    exact Except.ok.inj hsame

theorem Recogniser.hashesApart_of_read [Primitives] {C G : Type} {p : Recogniser C G}
    {bound : C → List Text} {intent : PairingIntent} {payload : ApplicationPayload} {claims : C}
    {grant : G} (hclaims : p.decodeClaims intent.allocatorClaim intent.claimantClaim = .ok claims)
    (hgrant : p.decodeGrant payload.body = .ok grant)
    (h : sha256 (bindingInput (bound claims)) = sha256 (bindingInput (bound (p.claims grant))) →
      bindingInput (bound claims) = bindingInput (bound (p.claims grant))) :
    p.HashesApart bound intent payload := by
  have hcases : ∀ input, (∃ c, input = bindingInput (bound c) ∧
      (p.decodeClaims intent.allocatorClaim intent.claimantClaim = .ok c ∨
        ∃ g, p.decodeGrant payload.body = .ok g ∧ c = p.claims g)) →
      input = bindingInput (bound claims) ∨ input = bindingInput (bound (p.claims grant)) := by
    rintro _ ⟨c, rfl, hc | ⟨g, hg, rfl⟩⟩
    · cases hclaims.symm.trans hc
      exact .inl rfl
    · cases hgrant.symm.trans hg
      exact .inr rfl
  intro x hx y hy hhash
  rcases hcases x hx with rfl | rfl <;> rcases hcases y hy with rfl | rfl
  · rfl
  · exact h hhash
  · exact (h hhash.symm).symm
  · rfl

attribute [local instance] InvitationRecord.tailHash

/-- A verifier that accepts every payload. -/
@[reducible] def acceptAll : GrantVerifier Unit := ⟨fun _ => pure ()⟩

/-- A parser that reads no URL. -/
@[reducible] def noUrls : UrlParser := ⟨fun _ => none⟩

attribute [local instance] acceptAll noUrls

def sampleClaims : AgentIntentClaims where
  channel := ⟨ascii "desk", by decide⟩
  claimedPrincipal := ⟨ascii "ada", by decide⟩
  agentHandle := ⟨ascii "bot", by decide⟩
  requestedGrant := ⟨ascii "read", by decide⟩

def sampleGrant : AgentGrant where
  claimedPrincipal := ⟨ascii "ada", by decide⟩
  agentHandle := ⟨ascii "bot", by decide⟩
  requestedGrant := ⟨ascii "read", by decide⟩
  grant := [7]

def widerGrant : AgentGrant := { sampleGrant with requestedGrant := ⟨ascii "write", by decide⟩ }

def sampleIntent : PairingIntent where
  application := agentApplication
  action := agentAction
  allocatorClaim := (Calls.value sampleClaims.encode (by decide +kernel)).1
  claimantClaim := (Calls.value sampleClaims.encode (by decide +kernel)).2
  authoritySummary := ⟨[], validUtf8_nil⟩
  intentNonce := fill 32 []

def samplePayload : ApplicationPayload :=
  ⟨fill 32 [], agentPayload, Calls.value sampleGrant.encode (by decide +kernel)⟩

def widerPayload : ApplicationPayload :=
  ⟨fill 32 [], agentPayload, Calls.value widerGrant.encode (by decide +kernel)⟩

def sampleShown : DisplayIntent × ProfileBinding :=
  Calls.value (agentRecogniser.recogniseIntent sampleIntent) (by decide +kernel)

end Profile
end Pairing
end CbclPairing
