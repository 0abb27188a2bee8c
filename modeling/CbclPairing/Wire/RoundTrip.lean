import CbclPairing.Wire.RelayMessages

/-! The other wire types of version 1, and the round trip of all nine. -/
namespace CbclPairing
namespace Wire
open Codec Codec.Cbor Codec.Cddl Calls

/-! ### CPace messages -/

theorem readCpaceMessage_eq_ok {value : Value} {m : CpaceMessage}
    (h : readCpaceMessage value = .ok m) : value = cpaceMessage.value m := by
  unfold readCpaceMessage at h
  split at h
  · simp only [except_bind_eq_ok, uintValue_eq_ok, guard_eq_ok, side_eq_ok, fixedBytes_eq_ok,
      bytesValue_eq_ok, Except.ok.injEq] at h
    obtain ⟨n, ⟨-, rfl⟩, hone, side, rfl, share, rfl, associatedData, rfl, rfl⟩ := h
    rw [not_not.mp hone]
    rfl
  · cases h

theorem cpaceMessage_injective {m m' : CpaceMessage}
    (h : cpaceMessage.value m = cpaceMessage.value m') : m = m' := by
  obtain ⟨side, share, associatedData⟩ := m
  obtain ⟨side', share', associatedData'⟩ := m'
  simp only [cpaceMessage, Value.array.injEq, List.cons.injEq, Value.bytes.injEq, true_and,
    and_true] at h
  obtain ⟨hside, hshare, rfl⟩ := h
  have hside : side = side' := by
    cases side <;> cases side' <;> simp [encodedSide] at hside ⊢
  rw [hside, Subtype.ext hshare]

theorem canonical_cpaceMessage (m : CpaceMessage) :
    canonical (cpaceMessage.value m) = cpaceMessage.value m := by
  obtain ⟨side, share, associatedData⟩ := m
  cases side <;> rfl

theorem cpaceMessage_faithful : cpaceMessage.Faithful where
  textual m := by
    obtain ⟨side, share, associatedData⟩ := m
    cases side <;> simp [cpaceMessage, encodedSide, Textual, maxDepth]
  reads x y _ h := by
    rw [canonical_cpaceMessage] at h
    exact (cpaceMessage_injective (readCpaceMessage_eq_ok h)).symm
  writes v x _ h := by rw [readCpaceMessage_eq_ok h]

/-! ### Channel frames -/

theorem frameEntries_written (frame : ChannelFrame) : Written (frameEntries frame) := by
  constructor
  · cases frame <;> simp +decide [frameEntries]
  · cases frame <;> simp +decide [frameEntries]

theorem kind_field (kind : String) (entries : List (String × Value)) :
    fieldsOf (named (("v", .integer 1) :: ("kind", .text (ascii kind)) :: entries)) "kind" =
      some (.text (ascii kind)) :=
  (fieldsOf_cons_ne (by decide) _ _).trans (fieldsOf_cons_self ..)

theorem channelFrame_reads (es : List (Value × Value)) (x y : ChannelFrame)
    (hfields : mapEntries (.map es) = .ok (fieldsOf (named (frameEntries x))))
    (h : readChannelFrame (.map es) = .ok y) : y = x := by
  rw [readChannelFrame, hfields, ok_bind] at h
  cases x with
  | cpace side control message =>
    simp only [frameEntries] at h
    rw [dispatch_of_field (by decide) (kind_field ..)] at h
    simp +decide only [frameBranches, dispatch_cons_self] at h
    simp +decide only [except_bind_eq_ok, field_eq_ok, fieldsOf_cons_ne, fieldsOf_cons_self,
      side_encodedSide, bytesValue_bytes, guard_eq_ok, Option.some.injEq, Except.ok.injEq,
      exists_eq_left'] at h
    obtain ⟨nested, -, -, h⟩ := h
    exact h.symm
  | finished side control value =>
    simp only [frameEntries] at h
    rw [dispatch_of_field (by decide) (kind_field ..)] at h
    simp +decide only [frameBranches, dispatch_cons_ne, dispatch_cons_self] at h
    simp +decide only [except_bind_eq_ok, field_eq_ok, fieldsOf_cons_ne, fieldsOf_cons_self,
      side_encodedSide, bytesValue_bytes, fixedBytes_bytes, Option.some.injEq, Except.ok.injEq,
      exists_eq_left'] at h
    exact h.symm
  | sealed direction counter ciphertext =>
    simp only [frameEntries] at h
    rw [dispatch_of_field (by decide) (kind_field ..)] at h
    simp +decide only [frameBranches, dispatch_cons_ne, dispatch_cons_self] at h
    simp +decide only [except_bind_eq_ok, field_eq_ok, fieldsOf_cons_ne, fieldsOf_cons_self,
      direction_encodedDirection, bytesValue_bytes, u64Value_integer, Option.some.injEq,
      Except.ok.injEq, exists_eq_left'] at h
    exact h.symm

/-- Every frame rule starts with the version and the kind. -/
theorem frame_rule {es : List (Value × Value)} {kind : String} {members : List Member}
    (h : closedMap (required "v" (number 1) :: required "kind" (literal kind) :: members)
      (.map es) = true) :
    fieldsOf es "v" = some (.integer 1) ∧ fieldsOf es "kind" = some (.text (ascii kind)) ∧
      es.length = memberCount members (fieldsOf es) + 2 := by
  obtain ⟨hmembers, hlength⟩ := closedMap_eq_true h
  have hversion := required_number.mp (hmembers _ List.mem_cons_self)
  have hkind := required_literal.mp (hmembers _ (List.mem_cons_of_mem _ List.mem_cons_self))
  rw [memberCount_required, memberCount_required] at hlength
  exact ⟨hversion, hkind, hlength⟩

theorem channelFrame_holds (es : List (Value × Value)) (x : ChannelFrame)
    (hrule : Grammar.cpaceChannelFrame (.map es) = true)
    (h : readChannelFrame (.map es) = .ok x) : Holds es (frameEntries x) := by
  rw [readChannelFrame, mapEntries, ok_bind] at h
  obtain ⟨rule, hmem, hrule⟩ := choice_eq_true hrule
  simp only [List.mem_cons, List.not_mem_nil, or_false] at hmem
  rcases hmem with rfl | rfl | rfl
  · obtain ⟨hversion, hkind, hlength⟩ := frame_rule hrule
    rw [dispatch_of_field (by decide) hkind] at h
    simp +decide only [frameBranches, dispatch_cons_self] at h
    simp only [except_bind_eq_ok, field_eq_ok, side_eq_ok, bytesValue_eq_ok, guard_eq_ok,
      Except.ok.injEq] at h
    obtain ⟨_, hrole, side, rfl, _, hmessage, message, rfl, nested, -, -, _, hcontrol, control, rfl,
      rfl⟩ := h
    exact ⟨hlength, by simp [frameEntries, hversion, hkind, hrole, hmessage, hcontrol]⟩
  · obtain ⟨hversion, hkind, hlength⟩ := frame_rule hrule
    rw [dispatch_of_field (by decide) hkind] at h
    simp +decide only [frameBranches, dispatch_cons_ne, dispatch_cons_self] at h
    simp only [except_bind_eq_ok, field_eq_ok, side_eq_ok, bytesValue_eq_ok, fixedBytes_eq_ok,
      Except.ok.injEq] at h
    obtain ⟨_, hrole, side, rfl, _, hcontrol, control, rfl, _, hvalue, value, rfl, rfl⟩ := h
    exact ⟨hlength, by simp [frameEntries, hversion, hkind, hrole, hcontrol, hvalue]⟩
  · obtain ⟨hversion, hkind, hlength⟩ := frame_rule hrule
    rw [dispatch_of_field (by decide) hkind] at h
    simp +decide only [frameBranches, dispatch_cons_ne, dispatch_cons_self] at h
    simp only [except_bind_eq_ok, field_eq_ok, direction_eq_ok, bytesValue_eq_ok, u64Value_eq_ok,
      Except.ok.injEq] at h
    obtain ⟨_, hdirection, direction, rfl, _, hcounter, counter, rfl, _, hciphertext, ciphertext,
      rfl, rfl⟩ := h
    exact ⟨hlength,
      by simp [frameEntries, hversion, hkind, hdirection, hcounter, hciphertext]⟩

theorem channelFrame_faithful : channelFrame.Faithful :=
  .of_entries (fun _ => rfl) frameEntries_written (fun _ _ => isMap_of_read) channelFrame_reads
    channelFrame_holds

/-! ### Application values -/

theorem sealedPlaintext_written (p : SealedPlaintext) : Written p.entries := by
  obtain ⟨control, body⟩ := p
  constructor
  · cases body <;> simp +decide [SealedPlaintext.entries, pushed]
  · cases body <;> simp [SealedPlaintext.entries, pushed]

theorem bytesValue_inj {a b : Bytes} (h : bytesValue (.bytes a) = .ok b) : b = a :=
  (Value.bytes.inj (bytesValue_eq_ok.mp h)).symm

theorem sealedPlaintext_reads (es : List (Value × Value)) (x y : SealedPlaintext)
    (hfields : mapEntries (.map es) = .ok (fieldsOf (named x.entries)))
    (h : readSealedPlaintext (.map es) = .ok y) : y = x := by
  rw [readSealedPlaintext, hfields, ok_bind] at h
  simp +decide only [SealedPlaintext.entries, List.cons_append, List.nil_append,
    except_bind_eq_ok, field_eq_ok, fieldsOf_cons_ne, fieldsOf_cons_self, fieldsOf_pushed,
    bytesValue_bytes, Option.some.injEq, Except.ok.injEq, exists_eq_left'] at h
  obtain ⟨body, hbody, rfl⟩ := h
  rw [optionally_map (fun _ _ => bytesValue_inj) hbody]

theorem sealedPlaintext_holds (es : List (Value × Value)) (x : SealedPlaintext)
    (hrule : Grammar.sealedPlaintext (.map es) = true)
    (h : readSealedPlaintext (.map es) = .ok x) : Holds es x.entries := by
  rw [readSealedPlaintext, mapEntries, ok_bind] at h
  obtain ⟨-, hlength⟩ := closedMap_eq_true hrule
  simp only [except_bind_eq_ok, field_eq_ok, bytesValue_eq_ok, Except.ok.injEq] at h
  obtain ⟨_, hcontrol, control, rfl, body, hbody, rfl⟩ := h
  have hbody := optionally_eq_ok (fun _ _ hb => bytesValue_eq_ok.mp hb) hbody
  refine ⟨?_, ?_⟩
  · simp [hlength, SealedPlaintext.entries, hbody]
  · simp only [SealedPlaintext.entries, List.forall_mem_append]
    exact ⟨by simp [hcontrol], mem_pushed hbody⟩

theorem sealedPlaintext_faithful : sealedPlaintext.Faithful :=
  .of_entries (fun _ => rfl) sealedPlaintext_written (fun _ _ => isMap_of_read)
    sealedPlaintext_reads sealedPlaintext_holds

theorem pairingIntent_written (i : PairingIntent) : Written i.entries := by
  constructor
  · simp +decide [PairingIntent.entries]
  · simp +decide [PairingIntent.entries]

theorem pairingIntent_reads (es : List (Value × Value)) (x y : PairingIntent)
    (hfields : mapEntries (.map es) = .ok (fieldsOf (named x.entries)))
    (h : readPairingIntent (.map es) = .ok y) : y = x := by
  rw [readPairingIntent, hfields, ok_bind] at h
  simp +decide only [PairingIntent.entries, except_bind_eq_ok, field_eq_ok, fieldsOf_cons_ne,
    fieldsOf_cons_self, textValue_val, bytesValue_bytes, fixedBytes_bytes, Option.some.injEq,
    Except.ok.injEq, exists_eq_left'] at h
  obtain ⟨_, -, h⟩ := h
  exact h.symm

theorem pairingIntent_holds (es : List (Value × Value)) (x : PairingIntent)
    (hrule : Grammar.pairingIntent (.map es) = true)
    (h : readPairingIntent (.map es) = .ok x) : Holds es x.entries := by
  rw [readPairingIntent, mapEntries, ok_bind] at h
  obtain ⟨hmembers, hlength⟩ := closedMap_eq_true hrule
  have htype := required_literal.mp (hmembers _ List.mem_cons_self)
  simp only [except_bind_eq_ok, field_eq_ok, textValue_eq_ok, bytesValue_eq_ok, fixedBytes_eq_ok,
    Except.ok.injEq] at h
  obtain ⟨_, happlication, application, rfl, _, -, _, haction, action, rfl, _, hallocator,
    allocator, rfl, _, hclaimant, claimant, rfl, _, hsummary, summary, rfl, _, hnonce, nonce, rfl,
    rfl⟩ := h
  exact ⟨hlength, by simp [PairingIntent.entries, htype, happlication, haction, hallocator,
    hclaimant, hsummary, hnonce]⟩

theorem pairingIntent_faithful : pairingIntent.Faithful :=
  .of_entries (fun _ => rfl) pairingIntent_written (fun _ _ => isMap_of_read) pairingIntent_reads
    pairingIntent_holds

theorem decision_eq_ok {value : Value} {d : Decision} (h : decision value = .ok d) :
    value = encodedDecision d := by
  simp only [decision, except_bind_eq_ok, textValue_eq_ok] at h
  obtain ⟨text, rfl, h⟩ := h
  split_ifs at h with h1 h2
  · cases h
    rw [h1, encodedDecision]
  · cases h
    rw [h2, encodedDecision]

theorem decision_encodedDecision (d : Decision) : decision (encodedDecision d) = .ok d := by
  cases d <;> rfl

theorem flat_encodedDecision (d : Decision) : Flat (encodedDecision d) := by
  cases d <;> exact flat_text (by decide)

theorem pairingDecision_written (d : PairingDecision) : Written d.entries := by
  constructor
  · simp +decide [PairingDecision.entries]
  · simp +decide [PairingDecision.entries, flat_encodedDecision]

theorem pairingDecision_reads (es : List (Value × Value)) (x y : PairingDecision)
    (hfields : mapEntries (.map es) = .ok (fieldsOf (named x.entries)))
    (h : readPairingDecision (.map es) = .ok y) : y = x := by
  rw [readPairingDecision, hfields, ok_bind] at h
  simp +decide only [PairingDecision.entries, except_bind_eq_ok, field_eq_ok, fieldsOf_cons_ne,
    fieldsOf_cons_self, fixedBytes_bytes, decision_encodedDecision, Option.some.injEq,
    Except.ok.injEq, exists_eq_left'] at h
  exact h.symm

theorem pairingDecision_holds (es : List (Value × Value)) (x : PairingDecision)
    (hrule : Grammar.pairingDecision (.map es) = true)
    (h : readPairingDecision (.map es) = .ok x) : Holds es x.entries := by
  rw [readPairingDecision, mapEntries, ok_bind] at h
  obtain ⟨hmembers, hlength⟩ := closedMap_eq_true hrule
  have htype := required_literal.mp (hmembers _ List.mem_cons_self)
  simp only [except_bind_eq_ok, field_eq_ok, fixedBytes_eq_ok, Except.ok.injEq] at h
  obtain ⟨_, hdigest, digest, rfl, _, hdecision, d, hd, rfl⟩ := h
  rw [decision_eq_ok hd] at hdecision
  exact ⟨hlength, by simp [PairingDecision.entries, htype, hdigest, hdecision]⟩

theorem pairingDecision_faithful : pairingDecision.Faithful :=
  .of_entries (fun _ => rfl) pairingDecision_written (fun _ _ => isMap_of_read)
    pairingDecision_reads pairingDecision_holds

theorem applicationPayload_written (p : ApplicationPayload) : Written p.entries := by
  constructor
  · simp +decide [ApplicationPayload.entries]
  · simp +decide [ApplicationPayload.entries]

theorem applicationPayload_reads (es : List (Value × Value)) (x y : ApplicationPayload)
    (hfields : mapEntries (.map es) = .ok (fieldsOf (named x.entries)))
    (h : readApplicationPayload (.map es) = .ok y) : y = x := by
  rw [readApplicationPayload, hfields, ok_bind] at h
  simp +decide only [ApplicationPayload.entries, except_bind_eq_ok, field_eq_ok, fieldsOf_cons_ne,
    fieldsOf_cons_self, textValue_val, bytesValue_bytes, fixedBytes_bytes, Option.some.injEq,
    Except.ok.injEq, exists_eq_left'] at h
  exact h.symm

theorem applicationPayload_holds (es : List (Value × Value)) (x : ApplicationPayload)
    (hrule : Grammar.applicationPayload (.map es) = true)
    (h : readApplicationPayload (.map es) = .ok x) : Holds es x.entries := by
  rw [readApplicationPayload, mapEntries, ok_bind] at h
  obtain ⟨hmembers, hlength⟩ := closedMap_eq_true hrule
  have htype := required_literal.mp (hmembers _ List.mem_cons_self)
  simp only [except_bind_eq_ok, field_eq_ok, fixedBytes_eq_ok, textValue_eq_ok, bytesValue_eq_ok,
    Except.ok.injEq] at h
  obtain ⟨_, hdigest, digest, rfl, _, hkind, kind, rfl, _, hbody, body, rfl, rfl⟩ := h
  exact ⟨hlength, by simp [ApplicationPayload.entries, htype, hdigest, hkind, hbody]⟩

theorem applicationPayload_faithful : applicationPayload.Faithful :=
  .of_entries (fun _ => rfl) applicationPayload_written (fun _ _ => isMap_of_read)
    applicationPayload_reads applicationPayload_holds

/-! ### Invitations -/

theorem invitation_written (i : Invitation) : Written i.entries := by
  obtain ⟨application, relayOrigin, locator, secret, allocatorKey, claimantKey⟩ := i
  constructor
  · cases allocatorKey <;> cases claimantKey <;> simp +decide [Invitation.entries, pushed]
  · cases allocatorKey <;> cases claimantKey <;> simp +decide [Invitation.entries, pushed]

theorem fixedBytes_inj {n : ℕ} {a b : Octets n} (h : fixedBytes n (.bytes a.val) = .ok b) :
    b = a :=
  Subtype.ext (Value.bytes.inj (fixedBytes_eq_ok.mp h)).symm

/-- The two optional keys of an invitation stand under different names. -/
theorem invitation_allocatorKey (i : Invitation) :
    fieldsOf (named i.entries) "expected-allocator-key" =
      i.expectedAllocatorKey.map fun key => .bytes key.val := by
  obtain ⟨application, relayOrigin, locator, secret, allocatorKey, claimantKey⟩ := i
  simp +decide only [Invitation.entries, List.cons_append, List.nil_append, fieldsOf_cons_ne]
  cases allocatorKey with
  | none =>
    have hne : ascii "expected-claimant-key" ≠ ascii "expected-allocator-key" := by decide
    have hskip := fieldsOf_pushed_ne hne (fun key : Octets 32 => .bytes key.val) claimantKey []
    rwa [List.append_nil] at hskip
  | some key => exact fieldsOf_cons_self ..

theorem invitation_claimantKey (i : Invitation) :
    fieldsOf (named i.entries) "expected-claimant-key" =
      i.expectedClaimantKey.map fun key => .bytes key.val := by
  obtain ⟨application, relayOrigin, locator, secret, allocatorKey, claimantKey⟩ := i
  simp +decide only [Invitation.entries, List.cons_append, List.nil_append, fieldsOf_cons_ne]
  rw [fieldsOf_pushed_ne (by decide), fieldsOf_pushed]

theorem invitation_reads (isRootOrigin : Bytes → Bool) (es : List (Value × Value))
    (x y : Invitation) (hfields : mapEntries (.map es) = .ok (fieldsOf (named x.entries)))
    (h : readInvitation isRootOrigin (.map es) = .ok y) : y = x := by
  rw [readInvitation, hfields, ok_bind, invitation_allocatorKey, invitation_claimantKey] at h
  simp +decide only [Invitation.entries, List.cons_append, List.nil_append, except_bind_eq_ok,
    field_eq_ok, fieldsOf_cons_ne, fieldsOf_cons_self, textValue_val, bytesValue_bytes,
    Option.some.injEq, Except.ok.injEq, exists_eq_left'] at h
  obtain ⟨_, -, _, -, locator, hlocator, allocatorKey, hallocator, claimantKey, hclaimant, rfl⟩ := h
  rw [locatorValue_encodedLocator hlocator, optionally_map (fun _ _ => fixedBytes_inj) hallocator,
    optionally_map (fun _ _ => fixedBytes_inj) hclaimant]

theorem invitation_holds (isRootOrigin : Bytes → Bool) (es : List (Value × Value))
    (x : Invitation) (hrule : Grammar.pairingInvitation (.map es) = true)
    (h : readInvitation isRootOrigin (.map es) = .ok x) : Holds es x.entries := by
  rw [readInvitation, mapEntries, ok_bind] at h
  obtain ⟨hmembers, hlength⟩ := closedMap_eq_true hrule
  have hversion := required_number.mp (hmembers _ List.mem_cons_self)
  have hsuite := required_literal.mp (hmembers _ (List.mem_cons_of_mem _ List.mem_cons_self))
  simp only [except_bind_eq_ok, field_eq_ok, textValue_eq_ok, bytesValue_eq_ok,
    Except.ok.injEq] at h
  obtain ⟨_, happlication, application, rfl, _, horigin, origin, rfl, _, -, _, -, _, hlocator,
    locator, hl, _, hsecret, secret, rfl, allocatorKey, hallocator, claimantKey, hclaimant, rfl⟩ := h
  have hallocator := optionally_eq_ok (fun _ _ hb => fixedBytes_eq_ok.mp hb) hallocator
  have hclaimant := optionally_eq_ok (fun _ _ hb => fixedBytes_eq_ok.mp hb) hclaimant
  rw [locatorValue_eq_ok hl] at hlocator
  refine ⟨?_, ?_⟩
  · simp [hlength, Invitation.entries, hallocator, hclaimant]
    omega
  · simp only [Invitation.entries, List.forall_mem_append]
    refine ⟨⟨?_, mem_pushed hallocator⟩, mem_pushed hclaimant⟩
    simp [hversion, hsuite, suiteId, happlication, horigin, hlocator, hsecret]

theorem invitation_faithful (isRootOrigin : Bytes → Bool) :
    (invitation isRootOrigin).Faithful :=
  .of_entries (fun _ => rfl) invitation_written (fun _ _ => isMap_of_read)
    (invitation_reads isRootOrigin) (invitation_holds isRootOrigin)

/-! ### All nine types -/

example : encodeClientMessage (.ack 3) =
    .ok ([162] ++ ([100] ++ ascii "type") ++ ([99] ++ ascii "ack") ++
      ([104] ++ ascii "peer-seq") ++ [3]) := by decide

end Wire
end CbclPairing
