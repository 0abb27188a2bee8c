import CbclPairing.CredentialV2.AllocatorRuns
import CbclPairing.CredentialV2.Transfer

/-! Recognising the handoff and the manual bootstrap, and why each has one text. -/
namespace CbclPairing
namespace CredentialV2
open Codec Codec.Cbor Calls

/-! ### The strings of the fixed schema -/

namespace SchemaParser

variable {ε : Type} (schema : ε)

/-- A string of the given major type with a length head of minimal size. -/
def string (major : UInt8) : Cursor ε Bytes := do
  let head ← Cursor.byte schema
  if head >>> 5 ≠ major then Cursor.fail schema
  else
    let code := head &&& 31
    if code ≤ 23 then Cursor.take schema code.toNat
    else if code = 24 then do
      let n ← Cursor.byte schema
      if n < 24 then Cursor.fail schema else Cursor.take schema n.toNat
    else if code = 25 then do
      let high ← Cursor.byte schema
      let low ← Cursor.byte schema
      if ofBe [high, low] ≤ 255 then Cursor.fail schema else Cursor.take schema (ofBe [high, low])
    else Cursor.fail schema

/-- A byte string of sixteen octets. -/
def secret : Cursor ε (Octets 16) := do
  let bytes ← string schema 2
  match Octets.ofList? 16 bytes with
  | some secret => pure secret
  | none => Cursor.fail schema

theorem short_head {n : ℕ} (h : n ≤ 23) :
    (0x40 ||| UInt8.ofNat n) >>> 5 = 2 ∧ (0x40 ||| UInt8.ofNat n) &&& 31 ≤ 23 ∧
      ((0x40 ||| UInt8.ofNat n) &&& 31).toNat = n := by
  revert n
  decide

/-- What the writer appends is what the parser reads. -/
theorem string_appendBstr {bytes : Bytes} (hsize : bytes.length < 65536) (rest : Bytes) :
    string schema 2 (appendBstr bytes ++ rest) = .ok (bytes, rest) := by
  have htake : Cursor.take schema bytes.length (bytes ++ rest) = .ok (bytes, rest) :=
    Cursor.take_append rfl
  unfold string appendBstr
  split_ifs with hshort hmedium
  · obtain ⟨hmajor, hcode, hlength⟩ := short_head hshort
    rw [List.cons_append, Cursor.run_bind_ok (Cursor.byte_cons _ _ _), if_neg (by simp [hmajor])]
    simp only [hcode, if_true, hlength, htake]
  · have hlength : (UInt8.ofNat bytes.length).toNat = bytes.length := by
      rw [UInt8.toNat_ofNat']
      omega
    have hminimal : ¬UInt8.ofNat bytes.length < 24 := by
      rw [UInt8.lt_iff_toNat_lt, hlength]
      exact fun h => hshort (Nat.le_of_lt_succ h)
    rw [List.cons_append, Cursor.run_bind_ok (Cursor.byte_cons _ _ _), if_neg (by decide)]
    rw [if_neg (by decide), if_pos (by decide), List.cons_append,
      Cursor.run_bind_ok (Cursor.byte_cons _ _ _), if_neg hminimal, hlength, htake]
  · have hlength : ofBe (beBytes 2 bytes.length) = bytes.length := ofBe_beBytes (by omega)
    simp only [beBytes] at hlength
    simp only [beBytes, List.cons_append, List.nil_append]
    rw [Cursor.run_bind_ok (Cursor.byte_cons _ _ _), if_neg (by decide), if_neg (by decide),
      if_neg (by decide), if_pos (by decide), Cursor.run_bind_ok (Cursor.byte_cons _ _ _),
      Cursor.run_bind_ok (Cursor.byte_cons _ _ _), hlength, if_neg (by omega), htake]

/-- A text of 24 to 255 octets. -/
theorem string_text {text : Bytes} {n : UInt8} (hlength : text.length = n.toNat) (hn : 24 ≤ n)
    (rest : Bytes) : string schema 3 (0x78 :: n :: text ++ rest) = .ok (text, rest) := by
  have hminimal : ¬n < 24 := by simpa using hn
  unfold string
  rw [List.cons_append, Cursor.run_bind_ok (Cursor.byte_cons _ _ _), if_neg (by decide)]
  rw [if_neg (by decide), if_pos (by decide), List.cons_append,
    Cursor.run_bind_ok (Cursor.byte_cons _ _ _), if_neg hminimal, Cursor.take_append hlength]

theorem secret_appendBstr (x : Octets 16) (rest : Bytes) :
    secret schema (appendBstr x.val ++ rest) = .ok (x, rest) := by
  have hread : string schema 2 (appendBstr x.val ++ rest) = .ok (x.val, rest) :=
    string_appendBstr schema (by simp) rest
  unfold secret
  rw [Cursor.run_bind_ok hread, Octets.ofList?_val]
  rfl

end SchemaParser

/-- `str::strip_prefix`. -/
def stripPrefix (start input : Bytes) : Option Bytes :=
  if start.isPrefixOf input then some (input.drop start.length) else none

theorem stripPrefix_append (start rest : Bytes) :
    stripPrefix start (start ++ rest) = some rest := by
  simp [stripPrefix]

variable [Primitives]

theorem carrier_size (c : Carrier) :
    encodeCarrier c ≠ [] ∧ ¬maxCarrier < (encodeCarrier c).length ∧
      (encodeCarrier c).length < 65536 := by
  have hpos := c.encodeCarrier_pos
  have hle := c.encodeCarrier_length_le
  refine ⟨List.ne_nil_of_length_pos hpos, ?_, ?_⟩
  · unfold maxCarrier
    omega
  · omega

/-! ### The handoff -/

namespace Handoff

/-- The members of the array, before the carrier is recognised. -/
def schema : Cursor HandoffError (Bytes × PresenceCode) := do
  let head ← Cursor.byte .schema
  if head ≠ 0x84 then Cursor.fail .schema
  else do
    let version ← SchemaParser.string .schema 3
    if version ≠ domain then Cursor.fail .version
    else do
      let carrier ← SchemaParser.string .schema 2
      if carrier = [] then Cursor.fail .schema
      else if maxCarrier < carrier.length then Cursor.fail .oversize
      else do
        let cpaceSecret ← SchemaParser.secret .schema
        let claimToken ← SchemaParser.secret .schema
        pure (carrier, ⟨cpaceSecret, claimToken⟩)

def recogniseDecoded (input decoded : Bytes) : Except HandoffError Handoff := do
  let ((carrier, presence), rest) ← schema decoded
  if rest ≠ [] then .error .schema
  else do
    let carrier ← (decodeCarrier carrier).mapError fun _ => HandoffError.carrier
    let handoff ← new carrier presence
    let text ← handoff.encode
    if text ≠ input then .error .schema else .ok handoff

/-- `FromStr`, for a decoder of unpadded base64 text into a buffer. -/
def fromStr (decode : ℕ → Bytes → Option Bytes) (input : Bytes) : Except HandoffError Handoff :=
  if maxText < input.length then .error .oversize
  else
    match stripPrefix textPrefix input with
    | none => .error .version
    | some suffix =>
      if suffix = [] then .error .encoding
      else
        match decode maxDecoded suffix with
        | none => .error .encoding
        | some decoded => recogniseDecoded input decoded

theorem schema_decoded (handoff : Handoff) :
    schema handoff.decoded = .ok ((encodeCarrier handoff.carrier, handoff.presence), []) := by
  obtain ⟨hne, hle, hsize⟩ := carrier_size handoff.carrier
  have hlayout : handoff.decoded = 0x84 :: (0x78 :: 27 :: domain ++
      (appendBstr (encodeCarrier handoff.carrier) ++ (appendBstr handoff.presence.cpaceSecret.val ++
        (appendBstr handoff.presence.claimToken.val ++ [])))) := by
    simp [decoded]
  have hdomain : domain.length = (27 : UInt8).toNat := by decide
  unfold schema
  rw [hlayout, Cursor.run_bind_ok (Cursor.byte_cons _ _ _), if_neg (by decide),
    Cursor.run_bind_ok (SchemaParser.string_text _ hdomain (by decide) _), if_neg (by simp),
    Cursor.run_bind_ok (SchemaParser.string_appendBstr _ hsize _), if_neg hne, if_neg hle,
    Cursor.run_bind_ok (SchemaParser.secret_appendBstr _ _ _),
    Cursor.run_bind_ok (SchemaParser.secret_appendBstr _ _ _)]
  rfl

theorem text_length_le (handoff : Handoff) :
    (textPrefix ++ base64Url handoff.decoded).length ≤ maxText := by
  have hdecoded : handoff.decoded.length ≤ 2762 := handoff.decoded_length_le
  have hheader : textPrefix.length = 8 := by decide
  rw [List.length_append, base64Url_length, hheader, maxText]
  omega

/-- The text of a handoff whose token opens its carrier is read back. -/
theorem fromStr_encode {decode : ℕ → Bytes → Option Bytes} (hdecode : UnpaddedDecoder decode)
    {carrier : Carrier} {presence : PresenceCode} {handoff : Handoff}
    (hnew : new carrier presence = .ok handoff) :
    fromStr decode (textPrefix ++ base64Url handoff.decoded) = .ok handoff := by
  obtain ⟨hopens, hhandoff⟩ := Calls.guard_eq_ok.mp hnew
  have hfields : handoff = { carrier, presence } := (Except.ok.inj hhandoff).symm
  have hne : base64Url handoff.decoded ≠ [] := by
    apply List.ne_nil_of_length_pos
    have hdecoded : 0 < handoff.decoded.length := by simp [decoded]
    rw [base64Url_length]
    omega
  unfold fromStr
  rw [if_neg (not_lt.mpr handoff.text_length_le), stripPrefix_append]
  dsimp only
  rw [if_neg hne, hdecode.decode_encode _ _ handoff.decoded_length_le]
  dsimp only
  unfold recogniseDecoded
  rw [handoff.schema_decoded, Calls.ok_bind]
  dsimp only
  rw [if_neg (by simp), Carrier.decodeCarrier_encodeCarrier]
  subst hfields
  simp only [Except.mapError, Calls.ok_bind, hnew, encode_eq, ne_eq, not_true_eq_false, if_false]

/-- Whatever the decoder does, an accepted text is the encoding of what it stands for. -/
theorem encode_of_fromStr {decode : ℕ → Bytes → Option Bytes} {input : Bytes} {handoff : Handoff}
    (h : fromStr decode input = .ok handoff) : handoff.encode = .ok input := by
  unfold fromStr at h
  obtain ⟨-, h⟩ := Calls.guard_eq_ok.mp h
  cases hsuffix : stripPrefix textPrefix input with
  | none => simp [hsuffix] at h
  | some suffix =>
    simp only [hsuffix] at h
    obtain ⟨-, h⟩ := Calls.guard_eq_ok.mp h
    cases hdecoded : decode maxDecoded suffix with
    | none => simp [hdecoded] at h
    | some decoded =>
      simp only [hdecoded, recogniseDecoded, Calls.except_bind_eq_ok, Calls.guard_eq_ok] at h
      obtain ⟨-, -, -, -, -, handoff', -, text, htext, hsame, hhandoff⟩ := h
      rw [← Except.ok.inj hhandoff, htext, not_not.mp hsame]

end Handoff

/-! ### The manual bootstrap -/

namespace ManualBootstrap

/-- Every error of the parser is one of the schema here. -/
def schema : Cursor ManualError (Bytes × ClaimToken) := do
  let head ← Cursor.byte .schema
  if head ≠ 0x83 then Cursor.fail .schema
  else do
    let version ← SchemaParser.string .schema 3
    if version ≠ domain then Cursor.fail .version
    else do
      let carrier ← SchemaParser.string .schema 2
      if carrier = [] then Cursor.fail .schema
      else if maxCarrier < carrier.length then Cursor.fail .oversize
      else do
        let claimToken ← SchemaParser.secret .schema
        pure (carrier, claimToken)

def recogniseDecoded (input decoded : Bytes) (now : UInt64) :
    Except ManualError ManualBootstrap := do
  let ((carrier, claimToken), rest) ← schema decoded
  if rest ≠ [] then .error .schema
  else do
    let carrier ← (decodeCarrier carrier).mapError fun _ => ManualError.carrier
    let bootstrap ← new carrier claimToken now
    let text ← bootstrap.encode
    if text ≠ input then .error .schema else .ok bootstrap

def recognise (decode : ℕ → Bytes → Option Bytes) (input : Bytes) (now : UInt64) :
    Except ManualError ManualBootstrap :=
  if maxText < input.length then .error .oversize
  else
    match stripPrefix textPrefix input with
    | none => .error .version
    | some suffix =>
      if suffix = [] then .error .encoding
      else
        match decode maxDecoded suffix with
        | none => .error .encoding
        | some decoded => recogniseDecoded input decoded now

theorem new_eq_ok {carrier : Carrier} {claimToken : ClaimToken} {now : UInt64}
    {bootstrap : ManualBootstrap} : new carrier claimToken now = .ok bootstrap ↔
      (claimCommitment carrier.mailboxId claimToken = carrier.claimCommitment ∧
        carrier.expectedAllocatorKey.isSome = true ∧ now < carrier.relayExpiresAt) ∧
      bootstrap = { carrier, claimToken } := by
  unfold new
  simp only [Calls.guard_eq_ok, not_not, Bool.not_eq_true, Option.isNone_eq_false_iff,
    UInt64.not_le, Except.ok.injEq, and_assoc, eq_comm (a := bootstrap)]

theorem schema_decoded (b : ManualBootstrap) :
    schema b.decoded = .ok ((encodeCarrier b.carrier, b.claimToken), []) := by
  obtain ⟨hne, hle, hsize⟩ := carrier_size b.carrier
  have hlayout : b.decoded = 0x83 :: (0x78 :: 26 :: domain ++
      (appendBstr (encodeCarrier b.carrier) ++ (appendBstr b.claimToken.val ++ []))) := by
    simp [decoded]
  have hdomain : domain.length = (26 : UInt8).toNat := by decide
  unfold schema
  rw [hlayout, Cursor.run_bind_ok (Cursor.byte_cons _ _ _), if_neg (by decide),
    Cursor.run_bind_ok (SchemaParser.string_text _ hdomain (by decide) _), if_neg (by simp),
    Cursor.run_bind_ok (SchemaParser.string_appendBstr _ hsize _), if_neg hne, if_neg hle,
    Cursor.run_bind_ok (SchemaParser.secret_appendBstr _ _ _)]
  rfl

theorem text_length_le (b : ManualBootstrap) :
    (textPrefix ++ base64Url b.decoded).length ≤ maxText := by
  have hdecoded : b.decoded.length ≤ 2744 := b.decoded_length_le
  have hheader : textPrefix.length = 10 := by decide
  rw [List.length_append, base64Url_length, hheader, maxText]
  omega

theorem recognise_encode {decode : ℕ → Bytes → Option Bytes} (hdecode : UnpaddedDecoder decode)
    {carrier : Carrier} {claimToken : ClaimToken} {now : UInt64} {b : ManualBootstrap}
    (hnew : new carrier claimToken now = .ok b) :
    recognise decode (textPrefix ++ base64Url b.decoded) now = .ok b := by
  obtain ⟨-, hfields⟩ := new_eq_ok.mp hnew
  have hne : base64Url b.decoded ≠ [] := by
    apply List.ne_nil_of_length_pos
    have hdecoded : 0 < b.decoded.length := by simp [decoded]
    rw [base64Url_length]
    omega
  unfold recognise
  rw [if_neg (not_lt.mpr b.text_length_le), stripPrefix_append]
  dsimp only
  rw [if_neg hne, hdecode.decode_encode _ _ b.decoded_length_le]
  dsimp only
  unfold recogniseDecoded
  rw [b.schema_decoded, Calls.ok_bind]
  dsimp only
  rw [if_neg (by simp), Carrier.decodeCarrier_encodeCarrier]
  subst hfields
  simp only [Except.mapError, Calls.ok_bind, hnew, encode_eq, ne_eq, not_true_eq_false, if_false]

theorem encode_of_recognise {decode : ℕ → Bytes → Option Bytes} {input : Bytes} {now : UInt64}
    {b : ManualBootstrap} (h : recognise decode input now = .ok b) : b.encode = .ok input := by
  unfold recognise at h
  obtain ⟨-, h⟩ := Calls.guard_eq_ok.mp h
  cases hsuffix : stripPrefix textPrefix input with
  | none => simp [hsuffix] at h
  | some suffix =>
    simp only [hsuffix] at h
    obtain ⟨-, h⟩ := Calls.guard_eq_ok.mp h
    cases hdecoded : decode maxDecoded suffix with
    | none => simp [hdecoded] at h
    | some decoded =>
      simp only [hdecoded, recogniseDecoded, Calls.except_bind_eq_ok, Calls.guard_eq_ok] at h
      obtain ⟨-, -, -, -, -, b', -, text, htext, hsame, hb⟩ := h
      rw [← Except.ok.inj hb, htext, not_not.mp hsame]

end ManualBootstrap

/-! ### One text for each value -/

end CredentialV2

/-! ### A carrier whose token is known -/

namespace CredentialV2
open Codec Calls

attribute [local instance] Primitives.transparent

def PresenceCode.sample : PresenceCode := ⟨fill 16 [6], fill 16 [5]⟩

def CarrierInput.opened : CarrierInput :=
  { CarrierInput.sample with
    claimCommitment := CbclPairing.claimCommitment (fill 32 [1]) (fill 16 [5])
    expectedAllocatorKey := some (fill 32 [9]) }

def Carrier.opened : Carrier := value (Carrier.new .opened) (by decide +kernel)

end CredentialV2
end CbclPairing
