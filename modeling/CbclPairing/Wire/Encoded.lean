import CbclPairing.Wire.RoundTrip

/-! What the version 1 encoders accept: sealed frames, the relay messages that carry
them, and sealed plaintexts, with the exact length of each encoding. -/
namespace CbclPairing
namespace Wire
open Codec Codec.Cbor Codec.Cddl Calls

namespace Written

variable {entries : List (String × Value)}

theorem plain (h : Written entries) (hlength : entries.length < 2 ^ 64)
    (hnames : ∀ e ∈ entries, (ascii e.1).length < 2 ^ 64)
    (hvalues : ∀ e ∈ entries, Plain 256 e.2) : Plain maxDepth (map entries) := by
  have hwell := h.names
  simp only [wellNamed, List.all_map, Bool.and_eq_true, List.all_eq_true] at hwell
  have hname : ∀ e ∈ entries, Plain 256 (.text (ascii e.1)) := fun e he =>
    ⟨hnames e he, hwell.2 e he⟩
  refine ⟨by simpa using hlength, ?_, fun e he => ?_⟩
  · have hone : ∀ s ∈ entries.map fun e => ascii e.1, ∀ t ∈ entries.map fun e => ascii e.1,
        toCanonicalVec (.text s) = toCanonicalVec (.text t) → s = t := by
      intro s hs t ht heq
      obtain ⟨e, he, rfl⟩ := List.mem_map.mp hs
      obtain ⟨e', he', rfl⟩ := List.mem_map.mp ht
      exact Value.text.inj
        (canonical_eq_of_toCanonicalVec_eq (hname e he) (hname e' he') heq)
    have hkeys := h.nodup.map_on hone
    rw [List.map_map] at hkeys
    rw [named, List.map_map]
    exact hkeys
  · obtain ⟨e, hmem, rfl⟩ := List.mem_map.mp he
    exact ⟨hname e hmem, hvalues e hmem⟩

/-- A closed map admits the sorted entries when it admits the entries as written. -/
theorem closedMap {members : List Member} (h : Written entries)
    (hplain : Plain maxDepth (map entries)) (hrule : Cddl.closedMap members (map entries) = true) :
    Cddl.closedMap members (canonical (map entries)) = true := by
  rw [map, canonical_map, closedMap_canonicalMap hplain fun e he => (h.flat e he).canonical]
  exact hrule

theorem encode_ok {α : Type} {f : Format α} {x : α} (h : Written entries)
    (hvalue : f.value x = map entries) (hplain : Plain maxDepth (map entries))
    (hrule : f.rule (canonical (map entries)) = true)
    (hread : ∀ es, Wire.mapEntries (.map es) = .ok (fieldsOf (named entries)) →
      f.read (.map es) = .ok x) : f.encode x = .ok (toCanonicalVec (map entries)) := by
  have hfields := h.mapEntries hplain
  rw [map, canonical_map] at hfields
  rw [← hvalue] at hplain hrule ⊢
  refine Format.encode_ok hplain hrule ?_
  rw [hvalue, map, canonical_map]
  exact hread _ hfields

end Written

theorem map_length (entries : List (String × Value)) :
    (toCanonicalVec (map entries)).length = headSize entries.length +
      (entries.map fun e => size (.text (ascii e.1)) + size e.2).sum := by
  rw [toCanonicalVec_length, map, size_map, named_length, named, List.map_map]
  rfl

/-! ### Sealed frames -/

theorem encodeChannelFrame_ok {frame : ChannelFrame}
    (hplain : Plain maxDepth (map (frameEntries frame)))
    (hrule : Grammar.cpaceChannelFrame (canonical (map (frameEntries frame))) = true)
    (hread : ∀ es, mapEntries (.map es) = .ok (fieldsOf (named (frameEntries frame))) →
      readChannelFrame (.map es) = .ok frame) :
    encodeChannelFrame frame = .ok (toCanonicalVec (map (frameEntries frame))) :=
  Written.encode_ok (f := channelFrame) (frameEntries_written frame) rfl hplain hrule hread

theorem sealedFrame_rule (d : Direction) (counter : UInt64) {ciphertext : Bytes}
    (h : 17 ≤ ciphertext.length ∧ ciphertext.length ≤ 69572) :
    closedMap Grammar.sealedFrame (map (frameEntries (.sealed d counter ciphertext))) = true := by
  have hcounter := counter.toNat_lt
  cases d <;>
  simp +decide [closedMap, Grammar.sealedFrame, frameEntries, map, Member.admits, required,
    fieldsOf_cons_ne, h, encodedDirection, bstr, uint, range, literal, number] <;>
  omega

theorem cpaceChannelFrame_of_sealed {value : Value}
    (h : closedMap Grammar.sealedFrame value = true) : Grammar.cpaceChannelFrame value = true := by
  simp [Grammar.cpaceChannelFrame, choice, h]

theorem sealedFrame_plain (d : Direction) (counter : UInt64) {ciphertext : Bytes}
    (h : ciphertext.length ≤ 69572) :
    Plain maxDepth (map (frameEntries (.sealed d counter ciphertext))) := by
  have hcounter := counter.toNat_lt
  refine (frameEntries_written _).plain (by simp [frameEntries]) (by simp +decide [frameEntries]) ?_
  cases d <;> simp +decide [frameEntries, encodedDirection, Plain] <;> omega

theorem readSealedFrame (d : Direction) (counter : UInt64) (ciphertext : Bytes)
    {es : List (Value × Value)}
    (h : mapEntries (.map es) =
      .ok (fieldsOf (named (frameEntries (.sealed d counter ciphertext))))) :
    readChannelFrame (.map es) = .ok (.sealed d counter ciphertext) := by
  simp only [frameEntries] at h
  rw [readChannelFrame, h, ok_bind, dispatch_of_field (by decide) (kind_field ..)]
  simp +decide only [frameBranches, dispatch_cons_ne, dispatch_cons_self]
  simp only [except_bind_eq_ok, field_eq_ok]
  refine ⟨encodedDirection d, ?_, d, direction_encodedDirection d, .integer counter.toNat, ?_,
    counter, u64Value_integer counter, .bytes ciphertext, ?_, ciphertext,
    bytesValue_bytes ciphertext, rfl⟩
  · simp +decide only [fieldsOf_cons_ne, fieldsOf_cons_self]
  · simp +decide only [fieldsOf_cons_ne, fieldsOf_cons_self]
  · simp +decide only [fieldsOf_cons_ne, fieldsOf_cons_self]

/-- Every sealed frame with a ciphertext of the schema's length is encoded. -/
theorem encodeChannelFrame_sealed (d : Direction) (counter : UInt64) {ciphertext : Bytes}
    (h : 17 ≤ ciphertext.length ∧ ciphertext.length ≤ 69572) :
    encodeChannelFrame (.sealed d counter ciphertext) =
      .ok (toCanonicalVec (map (frameEntries (.sealed d counter ciphertext)))) := by
  have hwritten := frameEntries_written (.sealed d counter ciphertext)
  have hplain := sealedFrame_plain d counter h.2
  have hrule := hwritten.closedMap hplain (sealedFrame_rule d counter h)
  exact encodeChannelFrame_ok hplain (cpaceChannelFrame_of_sealed hrule)
    fun _ hes => readSealedFrame d counter ciphertext hes

theorem sealedFrame_length (d : Direction) (counter : UInt64) (ciphertext : Bytes) :
    (toCanonicalVec (map (frameEntries (.sealed d counter ciphertext)))).length =
      46 + headSize counter.toNat + headSize ciphertext.length + ciphertext.length := by
  have hsizes : [size (.text (ascii "v")), size (.text (ascii "kind")),
      size (.text (ascii "sealed")), size (.text (ascii "direction")),
      size (.text (ascii "counter")), size (.text (ascii "ciphertext")), size (.integer 1)] =
      [2, 5, 7, 10, 8, 11, 1] := by decide
  simp only [List.cons.injEq, and_true] at hsizes
  obtain ⟨hv, hkind, hsealed, hdirection, hcounter, hciphertext, hone⟩ := hsizes
  have hd : size (encodedDirection d) = 1 := by cases d <;> rfl
  have h5 : headSize 5 = 1 := rfl
  rw [map_length]
  simp only [frameEntries, List.map_cons, List.map_nil, List.sum_cons, List.sum_nil, hv, hkind,
    hsealed, hdirection, hcounter, hciphertext, hone, hd, size_integer_ofNat, size_bytes,
    List.length_cons, List.length_nil, zero_add, Nat.reduceAdd, h5]
  omega

/-! ### Relay messages -/

theorem encodeClientMessage_ok {m : ClientMessage}
    (hplain : Plain maxDepth (map (clientEntries m)))
    (hrule : Grammar.clientMessage (canonical (map (clientEntries m))) = true)
    (hread : ∀ es, mapEntries (.map es) = .ok (fieldsOf (named (clientEntries m))) →
      readClientMessage (.map es) = .ok m) :
    encodeClientMessage m = .ok (toCanonicalVec (map (clientEntries m))) :=
  Written.encode_ok (f := clientMessage) (clientEntries_written m) rfl hplain hrule hread

theorem encodeServerMessage_ok {m : ServerMessage}
    (hplain : Plain maxDepth (map (serverEntries m)))
    (hrule : Grammar.serverMessage (canonical (map (serverEntries m))) = true)
    (hread : ∀ es, mapEntries (.map es) = .ok (fieldsOf (named (serverEntries m))) →
      readServerMessage (.map es) = .ok m) :
    encodeServerMessage m = .ok (toCanonicalVec (map (serverEntries m))) :=
  Written.encode_ok (f := serverMessage) (serverEntries_written m) rfl hplain hrule hread

theorem put_rule {seq : UInt8} {body : Bytes} (hseq : seq.toNat ≤ 15)
    (h : 1 ≤ body.length ∧ body.length ≤ 69632) :
    closedMap Grammar.put (map (clientEntries (.put seq body))) = true := by
  simp +decide [closedMap, Grammar.put, clientEntries, map, Member.admits, required,
    fieldsOf_cons_ne, h, bstr, range, literal]
  omega

theorem clientMessage_of_put {value : Value} (h : closedMap Grammar.put value = true) :
    Grammar.clientMessage value = true := by
  simp [Grammar.clientMessage, choice, h]

theorem put_plain (seq : UInt8) {body : Bytes} (h : body.length ≤ 69632) :
    Plain maxDepth (map (clientEntries (.put seq body))) := by
  have hseq := seq.toNat_lt
  refine (clientEntries_written _).plain (by simp [clientEntries])
    (by simp +decide [clientEntries]) ?_
  simp +decide [clientEntries, Plain]
  omega

theorem readPut (seq : UInt8) (body : Bytes) {es : List (Value × Value)}
    (h : mapEntries (.map es) = .ok (fieldsOf (named (clientEntries (.put seq body))))) :
    readClientMessage (.map es) = .ok (.put seq body) := by
  simp only [clientEntries] at h
  rw [readClientMessage, h, ok_bind, dispatch_of_field (by decide) (fieldsOf_cons_self ..)]
  simp +decide only [clientBranches, dispatch_cons_ne, dispatch_cons_self]
  simp only [except_bind_eq_ok, field_eq_ok]
  refine ⟨.integer seq.toNat, ?_, seq, u8Value_integer seq, .bytes body, ?_, body,
    bytesValue_bytes body, rfl⟩
  · simp +decide only [fieldsOf_cons_ne, fieldsOf_cons_self]
  · simp +decide only [fieldsOf_cons_ne, fieldsOf_cons_self]

/-- Every put inside the bounds of its rule is encoded. -/
theorem encodeClientMessage_put {seq : UInt8} {body : Bytes} (hseq : seq.toNat ≤ 15)
    (h : 1 ≤ body.length ∧ body.length ≤ 69632) :
    encodeClientMessage (.put seq body) =
      .ok (toCanonicalVec (map (clientEntries (.put seq body)))) := by
  have hwritten := clientEntries_written (.put seq body)
  have hplain := put_plain seq h.2
  have hrule := hwritten.closedMap hplain (put_rule hseq h)
  exact encodeClientMessage_ok hplain (clientMessage_of_put hrule)
    fun _ hes => readPut seq body hes

/-! ### Sealed plaintexts -/

theorem encodeSealedPlaintext_ok {p : SealedPlaintext} (hplain : Plain maxDepth (map p.entries))
    (hrule : Grammar.sealedPlaintext (canonical (map p.entries)) = true)
    (hread : ∀ es, mapEntries (.map es) = .ok (fieldsOf (named p.entries)) →
      readSealedPlaintext (.map es) = .ok p) :
    encodeSealedPlaintext p = .ok (toCanonicalVec (map p.entries)) :=
  Written.encode_ok (f := sealedPlaintext) (sealedPlaintext_written p) rfl hplain hrule hread

/-- The bounds of the sealed-plaintext rule on a control and its body. -/
def SealedPlaintext.Bounded (p : SealedPlaintext) : Prop :=
  (1 ≤ p.control.length ∧ p.control.length ≤ 2048) ∧
    ∀ body ∈ p.body, 1 ≤ body.length ∧ body.length ≤ 65536

theorem sealedPlaintext_rule (p : SealedPlaintext) :
    Grammar.sealedPlaintext (map p.entries) = true ↔ p.Bounded := by
  obtain ⟨control, body⟩ := p
  cases body with
  | none =>
    simp +decide [Grammar.sealedPlaintext, closedMap, SealedPlaintext.entries, pushed, map,
      Member.admits, required, Cddl.optional, fieldsOf_cons_ne, bstr,
      SealedPlaintext.Bounded]
  | some body =>
    simp +decide [Grammar.sealedPlaintext, closedMap, SealedPlaintext.entries, pushed, map,
      Member.admits, required, Cddl.optional, fieldsOf_cons_ne, bstr,
      SealedPlaintext.Bounded]

theorem sealedPlaintext_plain {p : SealedPlaintext} (h : p.Bounded) :
    Plain maxDepth (map p.entries) := by
  have hwritten := sealedPlaintext_written p
  obtain ⟨control, body⟩ := p
  obtain ⟨hcontrol, hbody⟩ := h
  have hcontrol : 1 ≤ control.length ∧ control.length ≤ 2048 := hcontrol
  cases body with
  | none =>
    refine hwritten.plain (by simp [SealedPlaintext.entries, pushed])
      (by simp +decide [SealedPlaintext.entries, pushed]) ?_
    simp [SealedPlaintext.entries, pushed, Plain]
    omega
  | some body =>
    have hbody := hbody body rfl
    refine hwritten.plain (by simp [SealedPlaintext.entries, pushed])
      (by simp +decide [SealedPlaintext.entries, pushed]) ?_
    simp [SealedPlaintext.entries, pushed, Plain]
    omega

theorem readPlaintext (p : SealedPlaintext) {es : List (Value × Value)}
    (h : mapEntries (.map es) = .ok (fieldsOf (named p.entries))) :
    readSealedPlaintext (.map es) = .ok p := by
  obtain ⟨control, body⟩ := p
  rw [readSealedPlaintext, h, ok_bind]
  simp only [except_bind_eq_ok, field_eq_ok]
  refine ⟨.bytes control, fieldsOf_cons_self .., control, bytesValue_bytes control, body, ?_, rfl⟩
  have hbody : fieldsOf (named (SealedPlaintext.entries ⟨control, body⟩)) "body" =
      body.map Value.bytes := by
    rw [SealedPlaintext.entries, List.cons_append, List.nil_append, fieldsOf_cons_ne (by decide),
      fieldsOf_pushed]
  rw [hbody]
  cases body with
  | none => rfl
  | some body => rfl

/-- Every control and body inside the bounds of the rule are encoded together. -/
theorem encodeSealedPlaintext_bounded {p : SealedPlaintext} (h : p.Bounded) :
    encodeSealedPlaintext p = .ok (toCanonicalVec (map p.entries)) := by
  have hplain := sealedPlaintext_plain h
  have hrule := (sealedPlaintext_written p).closedMap hplain ((sealedPlaintext_rule p).mpr h)
  exact encodeSealedPlaintext_ok hplain hrule fun _ hes => readPlaintext p hes

theorem sealedPlaintext_length_le {p : SealedPlaintext} (h : p.Bounded) :
    (toCanonicalVec (map p.entries)).length ≤ 67606 := by
  obtain ⟨control, body⟩ := p
  obtain ⟨hcontrol, hbody⟩ := h
  have hcontrol : 1 ≤ control.length ∧ control.length ≤ 2048 := hcontrol
  have hsizes : [size (.text (ascii "control")), size (.text (ascii "body"))] = [8, 5] := by decide
  simp only [List.cons.injEq, and_true] at hsizes
  have hhead : headSize control.length ≤ 3 := headSize_le hcontrol.2
  have hone : headSize 1 = 1 := rfl
  have htwo : headSize 2 = 1 := rfl
  rw [map_length]
  cases body with
  | none =>
    simp only [SealedPlaintext.entries, pushed, List.cons_append, List.nil_append, List.map_cons,
      List.map_nil, List.sum_cons, List.sum_nil, List.length_cons, List.length_nil, zero_add,
      size_bytes, hsizes, hone]
    omega
  | some body =>
    have hbody := hbody body rfl
    have hheadbody : headSize body.length ≤ 5 := headSize_le hbody.2
    simp only [SealedPlaintext.entries, pushed, List.cons_append, List.nil_append, List.map_cons,
      List.map_nil, List.sum_cons, List.sum_nil, List.length_cons, List.length_nil, zero_add,
      Nat.reduceAdd, size_bytes, hsizes, htwo]
    omega

theorem map_ne_nil (entries : List (String × Value)) : toCanonicalVec (map entries) ≠ [] := by
  intro h
  have hlength := map_length entries
  rw [h, List.length_nil] at hlength
  have hpos := headSize_pos entries.length
  omega

end Wire
end CbclPairing
