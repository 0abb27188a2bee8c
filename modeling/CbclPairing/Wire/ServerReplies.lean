import CbclPairing.Wire.Encoded
import Mathlib.Algebra.Order.BigOperators.Group.List

/-! Server messages inside the bounds that the schema sets on nameplates, sequences, frame bodies
and error codes: the encoder accepts all of them. -/
namespace CbclPairing
open Codec Codec.Cbor Codec.Cddl Calls

/-- The closed set of error codes. -/
def errorCodes : List ℕ := [400, 404, 409, 410, 413, 429, 503]

/-- A server message inside the bounds of the schema. -/
def ServerMessage.Bounded : ServerMessage → Prop
  | .allocated _ _ nameplate _ => ∀ n ∈ nameplate, n ≤ 999999999
  | .frame peerSeq body => peerSeq.toNat ≤ 15 ∧ 1 ≤ body.length ∧ body.length ≤ 69632
  | .acknowledged seq => seq.toNat ≤ 15
  | .error code => code ∈ errorCodes
  | _ => True

namespace Wire

variable {m : ServerMessage}

/-- The members of the rule for a message. -/
def serverRule : ServerMessage → List Member
  | .welcome => Grammar.welcome
  | .allocated .. => Grammar.allocated
  | .claimed .. => Grammar.claimed
  | .allocatedV2 .. => Grammar.allocatedV2
  | .claimedV2 .. => Grammar.claimedV2
  | .frame .. => Grammar.frame
  | .acknowledged _ => Grammar.acknowledged
  | .closed _ => Grammar.closed
  | .error _ => Grammar.error
  | .pong => Grammar.pong

theorem serverMessage_of_rule {value : Value} (h : closedMap (serverRule m) value = true) :
    Grammar.serverMessage value = true := by
  cases m <;> simp_all [Grammar.serverMessage, choice, serverRule]

theorem granted_rule (kind : String) (mailboxId membershipToken : Octets 32) (expiresAt : UInt64) :
    closedMap (Grammar.granted kind)
      (map (grantedEntries kind mailboxId membershipToken expiresAt)) = true := by
  have hexpires := expiresAt.toNat_lt
  simp +decide [closedMap, Grammar.granted, grantedEntries, map, Member.admits, required,
    fieldsOf_cons_ne, Grammar.mailboxId, Grammar.membershipToken, bstr, uint, range, literal]
  omega

theorem frame_rule_of_bounds {peerSeq : UInt8} {body : Bytes} (hseq : peerSeq.toNat ≤ 15)
    (h : 1 ≤ body.length ∧ body.length ≤ 69632) :
    closedMap Grammar.frame (map (serverEntries (.frame peerSeq body))) = true := by
  simp +decide [closedMap, Grammar.frame, serverEntries, map, Member.admits, required,
    fieldsOf_cons_ne, h, bstr, range, literal]
  omega

theorem serverRule_of_bounded (h : m.Bounded) :
    closedMap (serverRule m) (map (serverEntries m)) = true := by
  cases m with
  | claimed mailboxId token expiresAt => exact granted_rule "claimed" mailboxId token expiresAt
  | allocatedV2 mailboxId token expiresAt =>
    exact granted_rule "allocated-v2" mailboxId token expiresAt
  | claimedV2 mailboxId token expiresAt =>
    exact granted_rule "claimed-v2" mailboxId token expiresAt
  | frame peerSeq body => exact frame_rule_of_bounds h.1 h.2
  | welcome => decide
  | pong => decide
  | closed reason => cases reason <;> decide
  | acknowledged seq =>
    have hseq : seq.toNat ≤ 15 := h
    simp +decide [closedMap, serverRule, Grammar.acknowledged, serverEntries, map, Member.admits,
      required, fieldsOf_cons_ne, range, literal]
    omega
  | error code =>
    have hcode : code ∈ errorCodes := h
    simp only [errorCodes, List.mem_cons, List.not_mem_nil, or_false] at hcode
    rcases hcode with rfl | rfl | rfl | rfl | rfl | rfl | rfl <;> decide
  | allocated mailboxId token nameplate expiresAt =>
    have hexpires := expiresAt.toNat_lt
    cases nameplate with
    | none =>
      simp +decide [closedMap, serverRule, Grammar.allocated, serverEntries, grantedEntries, pushed,
        map, Member.admits, required, Cddl.optional, fieldsOf_cons_ne, Grammar.mailboxId,
        Grammar.membershipToken, bstr, uint, range, literal]
      omega
    | some n =>
      have hn : n ≤ 999999999 := h n rfl
      simp +decide [closedMap, serverRule, Grammar.allocated, serverEntries, grantedEntries, pushed,
        map, Member.admits, required, Cddl.optional, fieldsOf_cons_ne, Grammar.mailboxId,
        Grammar.membershipToken, Grammar.nameplate, bstr, uint, range, literal]
      omega

theorem serverEntries_short (m : ServerMessage) : (serverEntries m).length < 2 ^ 64 ∧
    ∀ e ∈ serverEntries m, (ascii e.1).length < 2 ^ 64 := by
  cases m with
  | allocated mailboxId token nameplate expiresAt =>
    cases nameplate <;> simp +decide [serverEntries, grantedEntries, pushed]
  | _ => simp +decide [serverEntries, grantedEntries]

theorem serverEntries_plain (h : m.Bounded) : Plain maxDepth (map (serverEntries m)) := by
  obtain ⟨hlength, hnames⟩ := serverEntries_short m
  apply (serverEntries_written m).plain hlength hnames
  cases m with
  | welcome | pong => simp +decide [serverEntries, Plain]
  | closed reason => cases reason <;> simp +decide [serverEntries, encodedReason, Plain]
  | frame peerSeq body =>
    have hseq := peerSeq.toNat_lt
    have hbody : body.length ≤ 69632 := h.2.2
    simp +decide [serverEntries, Plain]
    omega
  | acknowledged seq =>
    have hseq := seq.toNat_lt
    simp +decide [serverEntries, Plain]
    omega
  | error code =>
    have hcode : code ∈ errorCodes := h
    simp only [errorCodes, List.mem_cons, List.not_mem_nil, or_false] at hcode
    simp +decide [serverEntries, Plain]
    omega
  | claimed mailboxId token expiresAt | allocatedV2 mailboxId token expiresAt
  | claimedV2 mailboxId token expiresAt =>
    have hexpires := expiresAt.toNat_lt
    simp +decide [serverEntries, grantedEntries, Plain]
    omega
  | allocated mailboxId token nameplate expiresAt =>
    have hexpires := expiresAt.toNat_lt
    cases nameplate with
    | none =>
      simp +decide [serverEntries, grantedEntries, pushed, Plain]
      omega
    | some n =>
      have hn : n ≤ 999999999 := h n rfl
      simp +decide [serverEntries, grantedEntries, pushed, Plain]
      omega

theorem readServerMessage_of_bounded (h : m.Bounded) {es : List (Value × Value)}
    (hes : mapEntries (.map es) = .ok (fieldsOf (named (serverEntries m)))) :
    readServerMessage (.map es) = .ok m := by
  rw [readServerMessage, hes, ok_bind]
  cases m with
  | allocated mailboxId token nameplate expiresAt =>
    simp only [serverEntries, grantedEntries, List.cons_append, List.nil_append]
    rw [dispatch_of_field (by decide) (fieldsOf_cons_self ..)]
    simp +decide only [serverBranches, dispatch_cons_ne, dispatch_cons_self]
    have hread : optionally (narrowValue 32) (nameplate.map fun n : ℕ => .integer n) =
        .ok nameplate := by
      cases nameplate with
      | none => rfl
      | some n =>
        have hn : n ≤ 999999999 := h n rfl
        have hnarrow : narrowValue 32 (.integer n) = .ok n :=
          (narrowValue_eq_ok (by omega)).mpr ⟨by omega, rfl⟩
        simp only [Option.map_some, optionally, hnarrow, ok_bind]
    simp +decide only [except_bind_eq_ok, field_eq_ok, fieldsOf_cons_ne, fieldsOf_cons_self,
      fieldsOf_pushed, fixedBytes_bytes, u64Value_integer, Option.some.injEq, Except.ok.injEq,
      exists_eq_left', hread]
  | error code =>
    have hcode : code ≤ 503 := by
      have hmem : code ∈ errorCodes := h
      simp only [errorCodes, List.mem_cons, List.not_mem_nil, or_false] at hmem
      omega
    have hnarrow : narrowValue 16 (.integer code) = .ok code :=
      (narrowValue_eq_ok (by omega)).mpr ⟨by omega, rfl⟩
    simp only [serverEntries]
    rw [dispatch_of_field (by decide) (fieldsOf_cons_self ..)]
    simp +decide only [serverBranches, dispatch_cons_ne, dispatch_cons_self]
    simp +decide only [except_bind_eq_ok, field_eq_ok, fieldsOf_cons_ne, fieldsOf_cons_self,
      Option.some.injEq, Except.ok.injEq, exists_eq_left', hnarrow]
  | welcome | pong =>
    simp only [serverEntries]
    rw [dispatch_of_field (by decide) (fieldsOf_cons_self ..)]
    rfl
  | claimed | allocatedV2 | claimedV2 | frame | acknowledged | closed =>
    simp only [serverEntries, grantedEntries]
    rw [dispatch_of_field (by decide) (fieldsOf_cons_self ..)]
    simp +decide only [serverBranches, dispatch_cons_ne, dispatch_cons_self, readGranted]
    simp +decide only [except_bind_eq_ok, field_eq_ok, fieldsOf_cons_ne, fieldsOf_cons_self,
      u8Value_integer, u64Value_integer, bytesValue_bytes, fixedBytes_bytes,
      closeReason_encodedReason, Option.some.injEq, Except.ok.injEq, exists_eq_left']

/-- Every server message inside the bounds of the schema is encoded. -/
theorem encodeServerMessage_bounded (h : m.Bounded) :
    encodeServerMessage m = .ok (toCanonicalVec (map (serverEntries m))) := by
  have hplain := serverEntries_plain h
  have hrule := (serverEntries_written m).closedMap hplain (serverRule_of_bounded h)
  exact encodeServerMessage_ok hplain (serverMessage_of_rule hrule)
    fun _ hes => readServerMessage_of_bounded h hes

/-! ### Lengths -/

theorem headSize_le_nine (n : ℕ) : headSize n ≤ 9 := by
  unfold headSize
  split_ifs <;> omega

/-- A member with a short name and a short value. -/
def Small (e : String × Value) : Prop := size (.text (ascii e.1)) + size e.2 ≤ 100

theorem small_integer {name : String} (hname : size (.text (ascii name)) ≤ 91) (n : ℕ) :
    Small (name, .integer n) := by
  have hhead := headSize_le_nine n
  unfold Small
  simp only [size_integer_ofNat]
  omega

theorem small_octets {name : String} (hname : size (.text (ascii name)) ≤ 20) (o : Octets 32) :
    Small (name, .bytes o.val) := by
  have hhead := headSize_le_nine 32
  unfold Small
  simp only [size_bytes, o.property]
  omega

theorem small_granted {kind : String} (hkind : size (.text (ascii kind)) ≤ 20)
    (mailboxId membershipToken : Octets 32) (expiresAt : UInt64) :
    ∀ e ∈ grantedEntries kind mailboxId membershipToken expiresAt, Small e := by
  have htype : size (.text (ascii "type")) ≤ 20 := by decide
  simp only [grantedEntries, List.forall_mem_cons]
  refine ⟨?_, small_octets (by decide) mailboxId, small_octets (by decide) membershipToken,
    small_integer (by decide) expiresAt.toNat, by simp⟩
  unfold Small
  dsimp only
  omega

/-- Only the body of a frame may be long. -/
theorem serverEntries_small (m : ServerMessage) (h : ∀ peerSeq body, m ≠ .frame peerSeq body) :
    (serverEntries m).length ≤ 5 ∧ ∀ e ∈ serverEntries m, Small e := by
  have hkind : ∀ kind ∈ ["acknowledged", "error", "welcome", "pong", "closed"],
      Small ("type", .text (ascii kind)) := by
    unfold Small
    decide
  cases m with
  | frame peerSeq body => exact absurd rfl (h peerSeq body)
  | welcome =>
    simp only [serverEntries, List.forall_mem_cons]
    exact ⟨by simp, hkind "welcome" (by simp), small_integer (by decide) 1, by simp⟩
  | pong =>
    simp only [serverEntries, List.forall_mem_cons]
    exact ⟨by simp, hkind "pong" (by simp), by simp⟩
  | closed reason =>
    simp only [serverEntries, List.forall_mem_cons]
    refine ⟨by simp, hkind "closed" (by simp), ?_, by simp⟩
    unfold Small
    cases reason <;> decide
  | acknowledged seq =>
    simp only [serverEntries, List.forall_mem_cons]
    exact ⟨by simp, hkind "acknowledged" (by simp), small_integer (by decide) seq.toNat, by simp⟩
  | error code =>
    simp only [serverEntries, List.forall_mem_cons]
    exact ⟨by simp, hkind "error" (by simp), small_integer (by decide) code, by simp⟩
  | claimed mailboxId token expiresAt =>
    exact ⟨by simp [serverEntries, grantedEntries],
      small_granted (by decide) mailboxId token expiresAt⟩
  | allocatedV2 mailboxId token expiresAt =>
    exact ⟨by simp [serverEntries, grantedEntries],
      small_granted (by decide) mailboxId token expiresAt⟩
  | claimedV2 mailboxId token expiresAt =>
    exact ⟨by simp [serverEntries, grantedEntries],
      small_granted (by decide) mailboxId token expiresAt⟩
  | allocated mailboxId token nameplate expiresAt =>
    have hgranted : ∀ e ∈ grantedEntries "allocated" mailboxId token expiresAt, Small e :=
      small_granted (by decide) mailboxId token expiresAt
    cases nameplate with
    | none => exact ⟨by simp [serverEntries, grantedEntries, pushed], by
        simpa [serverEntries, pushed] using hgranted⟩
    | some n =>
      refine ⟨by simp [serverEntries, grantedEntries, pushed], fun e he => ?_⟩
      rcases List.mem_append.mp he with he | he
      · exact hgranted e he
      · rw [List.mem_singleton.mp he]
        exact small_integer (by decide) n

/-- A bounded message takes between 1 and 70,000 octets. -/
theorem server_length (h : m.Bounded) :
    0 < (toCanonicalVec (map (serverEntries m))).length ∧
      (toCanonicalVec (map (serverEntries m))).length ≤ 70000 := by
  refine ⟨List.length_pos_iff.mpr (map_ne_nil _), ?_⟩
  rw [map_length]
  have hhead := headSize_le_nine
  by_cases hframe : ∃ peerSeq body, m = .frame peerSeq body
  · obtain ⟨peerSeq, body, rfl⟩ := hframe
    have hbody : body.length ≤ 69632 := h.2.2
    have hlength := hhead body.length
    have hseq := hhead peerSeq.toNat
    have hnames : size (.text (ascii "type")) + size (.text (ascii "frame")) +
        size (.text (ascii "peer-seq")) + size (.text (ascii "body")) + headSize 3 ≤ 100 := by
      decide
    simp only [serverEntries, List.map_cons, List.map_nil, List.sum_cons, List.sum_nil, size_bytes,
      size_integer_ofNat, List.length_cons, List.length_nil, zero_add, Nat.reduceAdd]
    omega
  · obtain ⟨hcount, hsmall⟩ := serverEntries_small m (by simpa using hframe)
    have hsum := List.sum_le_card_nsmul
      ((serverEntries m).map fun e => size (.text (ascii e.1)) + size e.2) 100 (by
        rintro _ hn
        obtain ⟨e, he, rfl⟩ := List.mem_map.mp hn
        exact hsmall e he)
    have hsize := hhead (serverEntries m).length
    rw [List.length_map, Nat.nsmul_eq_mul] at hsum
    omega

end Wire
end CbclPairing
