import CbclPairing.Pairing.Profiles

/-! The claims and grants of the built-in profiles have one encoding each: a profile reads
exactly what it writes. -/
namespace CbclPairing
namespace Pairing
namespace Profile
open Codec Codec.Cbor Codec.Cddl Calls Wire

/-! ### Maps and their fields -/

theorem encodeMap_eq_ok {fields : List (String × Value)} {b : Bytes} :
    encodeMap fields = .ok b ↔ canonicalVec? (.map (named fields)) = some b := by
  unfold encodeMap
  cases canonicalVec? (.map (named fields)) <;> simp

theorem canonicalMap_eq_ok {input : Bytes} {expectedFields : ℕ} {error : ProfileError}
    {fields : List (Value × Value)} :
    canonicalMap input expectedFields error = .ok fields ↔
      decodeItem maxDepth input = .ok (.map fields, []) ∧
        canonicalVec? (.map fields) = some input ∧ fields.length = expectedFields := by
  unfold canonicalMap
  constructor
  · intro h
    cases hread : decodeItem maxDepth input with
    | error e => simp [hread] at h
    | ok result =>
      obtain ⟨value, rest⟩ := result
      simp only [hread] at h
      obtain ⟨hrest, h⟩ := guard_eq_ok.mp h
      cases hvec : canonicalVec? value with
      | none => simp [hvec] at h
      | some encoded =>
        simp only [hvec] at h
        obtain ⟨hsame, h⟩ := guard_eq_ok.mp h
        cases value with
        | map entries =>
          obtain ⟨hlength, h⟩ := guard_eq_ok.mp h
          cases h
          rw [not_not.mp hrest, hvec, not_not.mp hsame]
          exact ⟨rfl, rfl, not_not.mp hlength⟩
        | _ => cases h
  · rintro ⟨hread, hvec, hlength⟩
    simp [hread, hvec, hlength]

theorem sameKey_text (key : Value) (name : Bytes) :
    key.sameKey (.text name) = (key.asText == some name) := by
  cases key <;> simp [Value.sameKey, Value.asText]

theorem fieldsOf_eq_head? (fields : List (Value × Value)) (name : String) :
    fieldsOf fields name =
      ((fields.filter fun field => field.1.asText == some (ascii name)).head?).map Prod.snd := by
  rw [List.head?_filter, fieldsOf, lookup]
  simp only [sameKey_text]

theorem fieldsOf_of_singleField {fields : List (Value × Value)} {name : String}
    {error : ProfileError} {value : Value} (h : singleField fields name error = .ok value) :
    fieldsOf fields name = some value := by
  rw [fieldsOf_eq_head?]
  unfold singleField at h
  split at h
  · next field heq =>
    cases h
    rw [heq]
    rfl
  · cases h

/-- In a map with distinct keys the first entry under a name is the only one. -/
theorem singleField_of_fieldsOf {fields : List (Value × Value)} {name : String} {value : Value}
    (hkeys : (fields.map fun e => toCanonicalVec e.1).Nodup)
    (h : fieldsOf fields name = some value) (error : ProfileError) :
    singleField fields name error = .ok value := by
  rw [fieldsOf_eq_head?] at h
  unfold singleField
  cases hfilter : fields.filter fun field => field.1.asText == some (ascii name) with
  | nil => simp [hfilter] at h
  | cons first rest =>
    simp only [hfilter, List.head?_cons, Option.map_some, Option.some.injEq] at h
    cases rest with
    | nil => simp [h]
    | cons second rest =>
      -- Both keys are the name, so one key would stand twice in the map.
      have hkey : ∀ e ∈ first :: second :: rest, e.1 = .text (ascii name) := by
        intro e he
        rw [← hfilter, List.mem_filter] at he
        exact asText_eq_some (by simpa using he.2)
      have hsublist := (List.filter_sublist (l := fields)
        (p := fun field => field.1.asText == some (ascii name))).map fun e => toCanonicalVec e.1
      rw [hfilter] at hsublist
      have hnodup := hkeys.sublist hsublist
      have hfirst := hkey first (by simp)
      have hsecond := hkey second (by simp)
      simp [hfirst, hsecond] at hnodup

theorem textField_eq_ok {fields : List (Value × Value)} {name : String} {max : ℕ}
    {error : ProfileError} {s : Text} :
    textField fields name max error = .ok s ↔
      singleField fields name error = .ok (.text s.val) ∧ boundedText s.val max = .ok () := by
  simp only [textField, except_bind_eq_ok, mapError_eq_ok, textValue_eq_ok]
  constructor
  · rintro ⟨value, hvalue, text, rfl, ⟨⟩, hbound, h⟩
    cases h
    exact ⟨hvalue, hbound⟩
  · rintro ⟨hvalue, hbound⟩
    exact ⟨_, hvalue, s, rfl, (), hbound, rfl⟩

theorem bytesField_eq_ok {fields : List (Value × Value)} {name : String} {max : ℕ}
    {error : ProfileError} {b : Bytes} :
    bytesField fields name max error = .ok b ↔
      singleField fields name error = .ok (.bytes b) ∧ boundedBytes b 1 max = .ok () := by
  simp only [bytesField, except_bind_eq_ok, mapError_eq_ok, bytesValue_eq_ok]
  constructor
  · rintro ⟨value, hvalue, bytes, rfl, ⟨⟩, hbound, h⟩
    cases h
    exact ⟨hvalue, hbound⟩
  · rintro ⟨hvalue, hbound⟩
    exact ⟨_, hvalue, b, rfl, (), hbound, rfl⟩

/-- A map has one encoding, and reading it back finds each entry once. -/
theorem encodeMap_iff {entries : List (String × Value)} (hwritten : Written entries)
    (error : ProfileError) {b : Bytes} :
    encodeMap entries = .ok b ↔ ∃ fields, canonicalMap b entries.length error = .ok fields ∧
      ∀ e ∈ entries, singleField fields e.1 error = .ok e.2 := by
  rw [encodeMap_eq_ok]
  constructor
  · intro h
    obtain ⟨⟨hencodable, hduplicate⟩, rfl⟩ := canonicalVec?_eq_some.mp h
    have hplain := plain_of_encodable hencodable hduplicate hwritten.textual
    have hsorted := plain_canonical hplain
    have hread := decodeItem_encode hsorted []
    have hvec := canonicalVec?_of_plain hsorted
    rw [List.append_nil] at hread
    rw [toCanonicalVec_canonical] at hvec
    rw [canonical_map] at hsorted hread hvec
    refine ⟨_, canonicalMap_eq_ok.mpr ⟨?_, hvec, by simp⟩, fun e he => ?_⟩
    · rw [← hread, toCanonicalVec, canonical_map]
    · apply singleField_of_fieldsOf hsorted.2.1
      rw [fieldsOf_canonicalMap hplain fun e he => (hwritten.flat e he).canonical]
      exact fieldsOf_of_mem hwritten.nodup he
  · rintro ⟨fields, hmap, hfields⟩
    obtain ⟨-, hvec, hlength⟩ := canonicalMap_eq_ok.mp hmap
    have hholds : Holds fields entries :=
      ⟨hlength, fun e he => fieldsOf_of_singleField (hfields e he)⟩
    exact (hholds.canonicalVec? hwritten).trans hvec

/-! ### Round trips -/

theorem exists_unit {p : Unit → Prop} : (∃ u, p u) ↔ p () := Unique.exists_iff

namespace AgentIntentClaims

theorem allocatorEntries_written (value : AgentIntentClaims) : Written value.allocatorEntries where
  names := by simp +decide [allocatorEntries]
  flat := by simp [allocatorEntries]

theorem claimantEntries_written (value : AgentIntentClaims) : Written value.claimantEntries where
  names := by simp +decide [claimantEntries]
  flat := by simp [claimantEntries]

end AgentIntentClaims

theorem AgentGrant.entries_written (value : AgentGrant) : Written value.entries where
  names := by simp +decide [entries]
  flat := by simp [entries]

theorem validateAgentTexts_eq_ok {principal handle requestedGrant : Text} :
    validateAgentTexts principal handle requestedGrant = .ok () ↔
      boundedText principal.val 255 = .ok () ∧ boundedText handle.val 128 = .ok () ∧
        boundedText requestedGrant.val 128 = .ok () := by
  simp only [validateAgentTexts, except_bind_eq_ok, exists_unit, mapError_eq_ok]

/-- Claims are read from exactly the pair of maps they are written as. -/
theorem decodeAgentClaims_iff {allocator claimant : Bytes} {value : AgentIntentClaims} :
    decodeAgentClaims allocator claimant = .ok value ↔
      value.encode = .ok (allocator, claimant) := by
  simp only [decodeAgentClaims, AgentIntentClaims.encode, validateAgentClaims, except_bind_eq_ok,
    exists_unit, mapError_eq_ok, textField_eq_ok, validateAgentTexts_eq_ok,
    encodeMap_iff value.allocatorEntries_written .invalidClaim,
    encodeMap_iff value.claimantEntries_written .invalidClaim]
  simp only [AgentIntentClaims.allocatorEntries, AgentIntentClaims.claimantEntries,
    List.forall_mem_cons, List.length_cons, List.length_nil]
  constructor
  · rintro ⟨fields, hfields, fields', hfields', channel, ⟨hchannel, -⟩, principal,
      ⟨hprincipal, -⟩, handle, ⟨hhandle, -⟩, requested, ⟨hrequested, -⟩, hvalid, h⟩
    cases h
    exact ⟨hvalid, allocator, ⟨fields, hfields, hprincipal, hhandle, hrequested, by simp⟩,
      claimant, ⟨fields', hfields', hchannel, by simp⟩, rfl⟩
  · rintro ⟨hvalid, b, ⟨fields, hfields, hprincipal, hhandle, hrequested, -⟩, b',
      ⟨fields', hfields', hchannel, -⟩, h⟩
    cases h
    exact ⟨fields, hfields, fields', hfields', _, ⟨hchannel, hvalid.1⟩, _,
      ⟨hprincipal, hvalid.2.1⟩, _, ⟨hhandle, hvalid.2.2.1⟩, _, ⟨hrequested, hvalid.2.2.2⟩,
      hvalid, rfl⟩

theorem decodeAgentGrant_iff {input : Bytes} {value : AgentGrant} :
    decodeAgentGrant input = .ok value ↔ value.encode = .ok input := by
  simp only [decodeAgentGrant, AgentGrant.encode, except_bind_eq_ok, exists_unit, mapError_eq_ok,
    textField_eq_ok, bytesField_eq_ok, validateAgentTexts_eq_ok,
    encodeMap_iff value.entries_written .invalidPayload]
  simp only [AgentGrant.entries, List.forall_mem_cons, List.length_cons, List.length_nil]
  constructor
  · rintro ⟨fields, hfields, principal, ⟨hprincipal, -⟩, handle, ⟨hhandle, -⟩, requested,
      ⟨hrequested, -⟩, grant, ⟨hgrant, hsize⟩, hvalid, h⟩
    cases h
    exact ⟨hvalid, hsize, fields, hfields, hprincipal, hhandle, hrequested, hgrant, by simp⟩
  · rintro ⟨hvalid, hsize, fields, hfields, hprincipal, hhandle, hrequested, hgrant, -⟩
    exact ⟨fields, hfields, _, ⟨hprincipal, hvalid.1⟩, _, ⟨hhandle, hvalid.2.1⟩, _,
      ⟨hrequested, hvalid.2.2⟩, _, ⟨hgrant, hsize⟩, hvalid, rfl⟩

namespace CredentialIntentClaims

theorem allocatorEntries_written (value : CredentialIntentClaims) :
    Written value.allocatorEntries where
  names := by simp +decide [allocatorEntries]
  flat := by simp [allocatorEntries]

theorem claimantEntries_written (value : CredentialIntentClaims) :
    Written value.claimantEntries where
  names := by simp +decide [claimantEntries]
  flat := by simp [claimantEntries]

end CredentialIntentClaims

theorem CredentialGrant.entries_written (value : CredentialGrant) : Written value.entries where
  names := by simp +decide [entries]
  flat := by simp [entries]

theorem validateCredentialClaims_eq_ok [UrlParser] {value : CredentialIntentClaims} :
    validateCredentialClaims value = .ok () ↔
      boundedText value.applicationId.val 255 = .ok () ∧
        canonicalHttpsOrigin value.origin.val = .ok () ∧
        boundedText value.scope.val 255 = .ok () ∧
        boundedText value.recipient.val 255 = .ok () := by
  simp only [validateCredentialClaims, except_bind_eq_ok, exists_unit, mapError_eq_ok]

/-- The reader bounds the origin, which the writer leaves to the URL parser. -/
theorem decodeCredentialClaims_iff [UrlParser] {allocator claimant : Bytes}
    {value : CredentialIntentClaims} :
    decodeCredentialClaims allocator claimant = .ok value ↔
      value.encode = .ok (allocator, claimant) ∧ boundedText value.origin.val 255 = .ok () := by
  simp only [decodeCredentialClaims, CredentialIntentClaims.encode, except_bind_eq_ok,
    exists_unit, textField_eq_ok, validateCredentialClaims_eq_ok,
    encodeMap_iff value.allocatorEntries_written .invalidClaim,
    encodeMap_iff value.claimantEntries_written .invalidClaim]
  simp only [CredentialIntentClaims.allocatorEntries, CredentialIntentClaims.claimantEntries,
    List.forall_mem_cons, List.length_cons, List.length_nil]
  constructor
  · rintro ⟨fields, hfields, fields', hfields', application, ⟨happlication, -⟩, origin,
      ⟨horigin, hbound⟩, scope, ⟨hscope, -⟩, recipient, ⟨hrecipient, -⟩, hvalid, h⟩
    cases h
    exact ⟨⟨hvalid, allocator, ⟨fields, hfields, happlication, horigin, hscope, by simp⟩,
      claimant, ⟨fields', hfields', hrecipient, by simp⟩, rfl⟩, hbound⟩
  · rintro ⟨⟨hvalid, b, ⟨fields, hfields, happlication, horigin, hscope, -⟩, b',
      ⟨fields', hfields', hrecipient, -⟩, h⟩, hbound⟩
    cases h
    exact ⟨fields, hfields, fields', hfields', _, ⟨happlication, hvalid.1⟩, _,
      ⟨horigin, hbound⟩, _, ⟨hscope, hvalid.2.2.1⟩, _, ⟨hrecipient, hvalid.2.2.2⟩, hvalid, rfl⟩

theorem decodeCredentialGrant_iff [UrlParser] {input : Bytes} {value : CredentialGrant} :
    decodeCredentialGrant input = .ok value ↔
      value.encode = .ok input ∧ boundedText value.origin.val 255 = .ok () := by
  simp only [decodeCredentialGrant, CredentialGrant.encode, except_bind_eq_ok, exists_unit,
    mapError_eq_ok, textField_eq_ok, bytesField_eq_ok, validateCredentialClaims_eq_ok,
    encodeMap_iff value.entries_written .invalidPayload]
  simp only [CredentialGrant.entries, CredentialGrant.claims, List.forall_mem_cons,
    List.length_cons, List.length_nil]
  constructor
  · rintro ⟨fields, hfields, application, ⟨happlication, -⟩, origin, ⟨horigin, hbound⟩, scope,
      ⟨hscope, -⟩, recipient, ⟨hrecipient, -⟩, credential, ⟨hcredential, hsize⟩, hvalid, h⟩
    cases h
    exact ⟨⟨hvalid, hsize, fields, hfields, happlication, horigin, hscope, hrecipient,
      hcredential, by simp⟩, hbound⟩
  · rintro ⟨⟨hvalid, hsize, fields, hfields, happlication, horigin, hscope, hrecipient,
      hcredential, -⟩, hbound⟩
    exact ⟨fields, hfields, _, ⟨happlication, hvalid.1⟩, _, ⟨horigin, hbound⟩, _,
      ⟨hscope, hvalid.2.2.1⟩, _, ⟨hrecipient, hvalid.2.2.2⟩, _, ⟨hcredential, hsize⟩, hvalid, rfl⟩

namespace SyntheticIntentClaims

theorem allocatorEntries_written (value : SyntheticIntentClaims) :
    Written value.allocatorEntries where
  names := by simp +decide [allocatorEntries]
  flat := by simp [allocatorEntries]

theorem claimantEntries_written (value : SyntheticIntentClaims) :
    Written value.claimantEntries where
  names := by simp +decide [claimantEntries]
  flat := by simp [claimantEntries]

end SyntheticIntentClaims

theorem SyntheticGrant.entries_written (value : SyntheticGrant) : Written value.entries where
  names := by simp +decide [entries]
  flat := by simp [entries]

theorem validateSyntheticClaims_eq_ok {value : SyntheticIntentClaims} :
    validateSyntheticClaims value = .ok () ↔
      boundedText value.subject.val 128 = .ok () ∧ boundedText value.audience.val 128 = .ok () := by
  simp only [validateSyntheticClaims, except_bind_eq_ok, exists_unit, mapError_eq_ok]

theorem decodeSyntheticClaims_iff {allocator claimant : Bytes} {value : SyntheticIntentClaims} :
    decodeSyntheticClaims allocator claimant = .ok value ↔
      value.encode = .ok (allocator, claimant) := by
  simp only [decodeSyntheticClaims, SyntheticIntentClaims.encode, except_bind_eq_ok, exists_unit,
    textField_eq_ok, validateSyntheticClaims_eq_ok,
    encodeMap_iff value.allocatorEntries_written .invalidClaim,
    encodeMap_iff value.claimantEntries_written .invalidClaim]
  simp only [SyntheticIntentClaims.allocatorEntries, SyntheticIntentClaims.claimantEntries,
    List.forall_mem_cons, List.length_cons, List.length_nil]
  constructor
  · rintro ⟨fields, hfields, fields', hfields', subject, ⟨hsubject, -⟩, audience,
      ⟨haudience, -⟩, hvalid, h⟩
    cases h
    exact ⟨hvalid, allocator, ⟨fields, hfields, hsubject, by simp⟩, claimant,
      ⟨fields', hfields', haudience, by simp⟩, rfl⟩
  · rintro ⟨hvalid, b, ⟨fields, hfields, hsubject, -⟩, b', ⟨fields', hfields', haudience, -⟩, h⟩
    cases h
    exact ⟨fields, hfields, fields', hfields', _, ⟨hsubject, hvalid.1⟩, _,
      ⟨haudience, hvalid.2⟩, hvalid, rfl⟩

theorem decodeSyntheticGrant_iff {input : Bytes} {value : SyntheticGrant} :
    decodeSyntheticGrant input = .ok value ↔ value.encode = .ok input := by
  simp only [decodeSyntheticGrant, SyntheticGrant.encode, except_bind_eq_ok, exists_unit,
    mapError_eq_ok, textField_eq_ok, bytesField_eq_ok, validateSyntheticClaims_eq_ok,
    encodeMap_iff value.entries_written .invalidPayload]
  simp only [SyntheticGrant.entries, SyntheticGrant.claims, List.forall_mem_cons,
    List.length_cons, List.length_nil]
  constructor
  · rintro ⟨fields, hfields, subject, ⟨hsubject, -⟩, audience, ⟨haudience, -⟩, grant,
      ⟨hgrant, hsize⟩, hvalid, h⟩
    cases h
    exact ⟨hvalid, hsize, fields, hfields, hsubject, haudience, hgrant, by simp⟩
  · rintro ⟨hvalid, hsize, fields, hfields, hsubject, haudience, hgrant, -⟩
    exact ⟨fields, hfields, _, ⟨hsubject, hvalid.1⟩, _, ⟨haudience, hvalid.2⟩, _,
      ⟨hgrant, hsize⟩, hvalid, rfl⟩

end Profile
end Pairing
end CbclPairing
