import CbclPairing.Wire.Formats

/-! Client and server messages of the relay: what the recogniser reads is what
the encoder writes. -/
namespace CbclPairing
namespace Wire
open Codec Codec.Cbor Codec.Cddl Calls

/-! ### Client messages -/

theorem clientEntries_written (m : ClientMessage) : Written (clientEntries m) := by
  constructor
  · cases m with
    | allocate mode ttl => cases ttl <;> simp +decide [clientEntries, pushed]
    | allocateV2 mailboxId commitment ttl => cases ttl <;> simp +decide [clientEntries, pushed]
    | _ => simp +decide [clientEntries]
  · cases m with
    | allocate mode ttl => cases ttl <;> simp +decide [clientEntries, pushed]
    | allocateV2 mailboxId commitment ttl => cases ttl <;> simp +decide [clientEntries, pushed]
    | _ => simp +decide [clientEntries]

theorem clientMessage_reads (es : List (Value × Value)) (x y : ClientMessage)
    (hfields : mapEntries (.map es) = .ok (fieldsOf (named (clientEntries x))))
    (h : readClientMessage (.map es) = .ok y) : y = x := by
  rw [readClientMessage, hfields, ok_bind] at h
  cases x with
  | allocate mode ttl =>
    simp only [clientEntries, List.cons_append, List.nil_append] at h
    rw [dispatch_of_field (by decide) (fieldsOf_cons_self ..)] at h
    simp +decide only [clientBranches, dispatch_cons_ne, dispatch_cons_self] at h
    simp +decide only [except_bind_eq_ok, field_eq_ok, fieldsOf_cons_ne, fieldsOf_cons_self,
      fieldsOf_pushed, u8Value_integer, Option.some.injEq, Except.ok.injEq, exists_eq_left'] at h
    obtain ⟨r, hr, rfl⟩ := h
    rw [optionally_map (fun _ _ => narrowValue_integer (by omega)) hr]
  | claim locator =>
    simp only [clientEntries] at h
    rw [dispatch_of_field (by decide) (fieldsOf_cons_self ..)] at h
    simp +decide only [clientBranches, dispatch_cons_ne, dispatch_cons_self] at h
    simp +decide only [except_bind_eq_ok, field_eq_ok, fieldsOf_cons_ne, fieldsOf_cons_self,
      Option.some.injEq, Except.ok.injEq, exists_eq_left'] at h
    obtain ⟨l, hl, rfl⟩ := h
    rw [locatorValue_encodedLocator hl]
  | allocateV2 mailboxId commitment ttl =>
    simp only [clientEntries, List.cons_append, List.nil_append] at h
    rw [dispatch_of_field (by decide) (fieldsOf_cons_self ..)] at h
    simp +decide only [clientBranches, dispatch_cons_ne, dispatch_cons_self] at h
    simp +decide only [except_bind_eq_ok, field_eq_ok, fieldsOf_cons_ne, fieldsOf_cons_self,
      fieldsOf_pushed, fixedBytes_bytes, Option.some.injEq, Except.ok.injEq, exists_eq_left'] at h
    obtain ⟨r, hr, rfl⟩ := h
    rw [optionally_map (fun _ _ => narrowValue_integer (by omega)) hr]
  | bind | claimV2 | openMailbox | put | ack | close | ping =>
    simp only [clientEntries] at h
    rw [dispatch_of_field (by decide) (fieldsOf_cons_self ..)] at h
    simp +decide only [clientBranches, dispatch_cons_ne, dispatch_cons_self] at h
    simp +decide only [except_bind_eq_ok, field_eq_ok, fieldsOf_cons_ne, fieldsOf_cons_self,
      u8Value_integer, bytesValue_bytes, fixedBytes_bytes, Option.some.injEq, Except.ok.injEq,
      exists_eq_left'] at h
    exact h.symm

theorem narrowed_eq {bits : ℕ} (hbits : bits ≤ 64) {o : Option Value} {r : Option ℕ}
    (h : optionally (narrowValue bits) o = .ok r) : o = r.map fun n : ℕ => .integer n :=
  optionally_eq_ok (fun _ _ hn => ((narrowValue_eq_ok hbits).mp hn).2) h

theorem clientMessage_holds (es : List (Value × Value)) (x : ClientMessage)
    (hrule : Grammar.clientMessage (.map es) = true)
    (h : readClientMessage (.map es) = .ok x) : Holds es (clientEntries x) := by
  rw [readClientMessage, mapEntries, ok_bind] at h
  obtain ⟨rule, hmem, hrule⟩ := choice_eq_true hrule
  simp only [List.mem_cons, List.not_mem_nil, or_false] at hmem
  rcases hmem with rfl | rfl | rfl | rfl | rfl | rfl | rfl | rfl | rfl | rfl
  · have hversion := (closedMap_eq_true hrule).1 _ (List.mem_cons_of_mem _ List.mem_cons_self)
    rw [required_number] at hversion
    obtain ⟨htype, hlength, h⟩ := branch_of_rule hrule (by decide) h
    simp +decide only [clientBranches, dispatch_cons_self, Except.ok.injEq] at h
    subst h
    exact ⟨hlength, by simp [clientEntries, htype, hversion]⟩
  · obtain ⟨htype, hlength, h⟩ := branch_of_rule hrule (by decide) h
    simp +decide only [clientBranches, dispatch_cons_ne, dispatch_cons_self] at h
    simp only [except_bind_eq_ok, field_eq_ok, u8Value_eq_ok, Except.ok.injEq] at h
    obtain ⟨_, hmode, mode, rfl, ttl, httl, rfl⟩ := h
    have httl := narrowed_eq (by omega) httl
    refine ⟨?_, ?_⟩
    · simp [hlength, clientEntries, httl]
    · simp only [clientEntries, List.forall_mem_append]
      exact ⟨by simp [htype, hmode], mem_pushed httl⟩
  · obtain ⟨htype, hlength, h⟩ := branch_of_rule hrule (by decide) h
    simp +decide only [clientBranches, dispatch_cons_ne, dispatch_cons_self] at h
    simp only [except_bind_eq_ok, field_eq_ok, Except.ok.injEq] at h
    obtain ⟨_, hlocator, locator, hl, rfl⟩ := h
    rw [locatorValue_eq_ok hl] at hlocator
    exact ⟨hlength, by simp [clientEntries, htype, hlocator]⟩
  · obtain ⟨htype, hlength, h⟩ := branch_of_rule hrule (by decide) h
    simp +decide only [clientBranches, dispatch_cons_ne, dispatch_cons_self] at h
    simp only [except_bind_eq_ok, field_eq_ok, fixedBytes_eq_ok, Except.ok.injEq] at h
    obtain ⟨_, hmailbox, mailboxId, rfl, _, hcommitment, commitment, rfl, ttl, httl, rfl⟩ := h
    have httl := narrowed_eq (by omega) httl
    refine ⟨?_, ?_⟩
    · simp [hlength, clientEntries, httl]
    · simp only [clientEntries, List.forall_mem_append]
      exact ⟨by simp [htype, hmailbox, hcommitment], mem_pushed httl⟩
  · obtain ⟨htype, hlength, h⟩ := branch_of_rule hrule (by decide) h
    simp +decide only [clientBranches, dispatch_cons_ne, dispatch_cons_self] at h
    simp only [except_bind_eq_ok, field_eq_ok, fixedBytes_eq_ok, Except.ok.injEq] at h
    obtain ⟨_, hmailbox, mailboxId, rfl, _, htoken, token, rfl, rfl⟩ := h
    exact ⟨hlength, by simp [clientEntries, htype, hmailbox, htoken]⟩
  · obtain ⟨htype, hlength, h⟩ := branch_of_rule hrule (by decide) h
    simp +decide only [clientBranches, dispatch_cons_ne, dispatch_cons_self] at h
    simp only [except_bind_eq_ok, field_eq_ok, fixedBytes_eq_ok, Except.ok.injEq] at h
    obtain ⟨_, hmailbox, mailboxId, rfl, _, htoken, token, rfl, rfl⟩ := h
    exact ⟨hlength, by simp [clientEntries, htype, hmailbox, htoken]⟩
  · obtain ⟨htype, hlength, h⟩ := branch_of_rule hrule (by decide) h
    simp +decide only [clientBranches, dispatch_cons_ne, dispatch_cons_self] at h
    simp only [except_bind_eq_ok, field_eq_ok, u8Value_eq_ok, bytesValue_eq_ok,
      Except.ok.injEq] at h
    obtain ⟨_, hseq, seq, rfl, _, hbody, body, rfl, rfl⟩ := h
    exact ⟨hlength, by simp [clientEntries, htype, hseq, hbody]⟩
  · obtain ⟨htype, hlength, h⟩ := branch_of_rule hrule (by decide) h
    simp +decide only [clientBranches, dispatch_cons_ne, dispatch_cons_self] at h
    simp only [except_bind_eq_ok, field_eq_ok, u8Value_eq_ok, Except.ok.injEq] at h
    obtain ⟨_, hseq, seq, rfl, rfl⟩ := h
    exact ⟨hlength, by simp [clientEntries, htype, hseq]⟩
  all_goals
    obtain ⟨htype, hlength, h⟩ := branch_of_rule hrule (by decide) h
    simp +decide only [clientBranches, dispatch_cons_ne, dispatch_cons_self, Except.ok.injEq] at h
    subst h
    exact ⟨hlength, by simp [clientEntries, htype]⟩

theorem clientMessage_faithful : clientMessage.Faithful :=
  .of_entries (fun _ => rfl) clientEntries_written (fun _ _ => isMap_of_read) clientMessage_reads
    clientMessage_holds

/-! ### Server messages -/

theorem closeReason_eq_ok {value : Value} {reason : CloseReason}
    (h : closeReason value = .ok reason) : value = encodedReason reason := by
  simp only [closeReason, except_bind_eq_ok, textValue_eq_ok] at h
  obtain ⟨text, rfl, h⟩ := h
  split_ifs at h with h1 h2 h3 h4
  · cases h
    rw [h1, encodedReason]
  · cases h
    rw [h2, encodedReason]
  · cases h
    rw [h3, encodedReason]
  · cases h
    rw [h4, encodedReason]

theorem closeReason_encodedReason (reason : CloseReason) :
    closeReason (encodedReason reason) = .ok reason := by
  cases reason <;> rfl

theorem flat_encodedReason (reason : CloseReason) : Flat (encodedReason reason) := by
  cases reason <;> exact flat_text (by decide)

theorem serverEntries_written (m : ServerMessage) : Written (serverEntries m) := by
  constructor
  · cases m with
    | allocated mailboxId token nameplate expiresAt =>
      cases nameplate <;> simp +decide [serverEntries, grantedEntries, pushed]
    | _ => simp +decide [serverEntries, grantedEntries]
  · cases m with
    | allocated mailboxId token nameplate expiresAt =>
      cases nameplate <;> simp +decide [serverEntries, grantedEntries, pushed]
    | closed reason => simp +decide [serverEntries, flat_encodedReason]
    | _ => simp +decide [serverEntries, grantedEntries]

theorem serverMessage_reads (es : List (Value × Value)) (x y : ServerMessage)
    (hfields : mapEntries (.map es) = .ok (fieldsOf (named (serverEntries x))))
    (h : readServerMessage (.map es) = .ok y) : y = x := by
  rw [readServerMessage, hfields, ok_bind] at h
  cases x with
  | allocated mailboxId token nameplate expiresAt =>
    simp only [serverEntries, grantedEntries, List.cons_append, List.nil_append] at h
    rw [dispatch_of_field (by decide) (fieldsOf_cons_self ..)] at h
    simp +decide only [serverBranches, dispatch_cons_ne, dispatch_cons_self] at h
    simp +decide only [except_bind_eq_ok, field_eq_ok, fieldsOf_cons_ne, fieldsOf_cons_self,
      fieldsOf_pushed, fixedBytes_bytes, u64Value_integer, Option.some.injEq, Except.ok.injEq,
      exists_eq_left'] at h
    obtain ⟨r, hr, rfl⟩ := h
    rw [optionally_map (fun _ _ => narrowValue_integer (by omega)) hr]
  | closed reason =>
    simp only [serverEntries] at h
    rw [dispatch_of_field (by decide) (fieldsOf_cons_self ..)] at h
    simp +decide only [serverBranches, dispatch_cons_ne, dispatch_cons_self] at h
    simp +decide only [except_bind_eq_ok, field_eq_ok, fieldsOf_cons_ne, fieldsOf_cons_self,
      closeReason_encodedReason, Option.some.injEq, Except.ok.injEq, exists_eq_left'] at h
    exact h.symm
  | error code =>
    simp only [serverEntries] at h
    rw [dispatch_of_field (by decide) (fieldsOf_cons_self ..)] at h
    simp +decide only [serverBranches, dispatch_cons_ne, dispatch_cons_self] at h
    simp +decide only [except_bind_eq_ok, field_eq_ok, fieldsOf_cons_ne, fieldsOf_cons_self,
      Option.some.injEq, Except.ok.injEq, exists_eq_left'] at h
    obtain ⟨n, hn, rfl⟩ := h
    rw [narrowValue_integer (by omega) hn]
  | welcome | claimed | allocatedV2 | claimedV2 | frame | acknowledged | pong =>
    simp only [serverEntries, grantedEntries] at h
    rw [dispatch_of_field (by decide) (fieldsOf_cons_self ..)] at h
    simp +decide only [serverBranches, dispatch_cons_ne, dispatch_cons_self, readGranted] at h
    simp +decide only [except_bind_eq_ok, field_eq_ok, fieldsOf_cons_ne, fieldsOf_cons_self,
      u8Value_integer, u64Value_integer, bytesValue_bytes, fixedBytes_bytes, Option.some.injEq,
      Except.ok.injEq, exists_eq_left'] at h
    exact h.symm

/-- The three replies without a nameplate differ in their type and constructor only. -/
theorem granted_holds {es : List (Value × Value)} {kind : String} {x : ServerMessage}
    {reply : Octets 32 → Octets 32 → UInt64 → ServerMessage}
    (hreply : ∀ mailboxId token expiresAt, serverEntries (reply mailboxId token expiresAt) =
      grantedEntries kind mailboxId token expiresAt)
    (htype : fieldsOf es "type" = some (.text (ascii kind))) (hlength : es.length = 4)
    (h : readGranted reply (fieldsOf es) = .ok x) : Holds es (serverEntries x) := by
  simp only [readGranted, except_bind_eq_ok, field_eq_ok, fixedBytes_eq_ok, u64Value_eq_ok,
    Except.ok.injEq] at h
  obtain ⟨_, hmailbox, mailboxId, rfl, _, htoken, token, rfl, _, hexpires, expiresAt, rfl, rfl⟩ := h
  rw [hreply]
  exact ⟨hlength, by simp [grantedEntries, htype, hmailbox, htoken, hexpires]⟩

theorem serverMessage_holds (es : List (Value × Value)) (x : ServerMessage)
    (hrule : Grammar.serverMessage (.map es) = true)
    (h : readServerMessage (.map es) = .ok x) : Holds es (serverEntries x) := by
  rw [readServerMessage, mapEntries, ok_bind] at h
  obtain ⟨rule, hmem, hrule⟩ := choice_eq_true hrule
  simp only [List.mem_cons, List.not_mem_nil, or_false] at hmem
  rcases hmem with rfl | rfl | rfl | rfl | rfl | rfl | rfl | rfl | rfl | rfl
  · have hversion := (closedMap_eq_true hrule).1 _ (List.mem_cons_of_mem _ List.mem_cons_self)
    rw [required_number] at hversion
    obtain ⟨htype, hlength, h⟩ := branch_of_rule hrule (by decide) h
    simp +decide only [serverBranches, dispatch_cons_self, Except.ok.injEq] at h
    subst h
    exact ⟨hlength, by simp [serverEntries, htype, hversion]⟩
  · obtain ⟨htype, hlength, h⟩ := branch_of_rule hrule (by decide) h
    simp +decide only [serverBranches, dispatch_cons_ne, dispatch_cons_self] at h
    simp only [except_bind_eq_ok, field_eq_ok, fixedBytes_eq_ok, u64Value_eq_ok,
      Except.ok.injEq] at h
    obtain ⟨_, hmailbox, mailboxId, rfl, _, htoken, token, rfl, nameplate, hnameplate, _, hexpires,
      expiresAt, rfl, rfl⟩ := h
    have hnameplate := narrowed_eq (by omega) hnameplate
    refine ⟨?_, ?_⟩
    · simp [hlength, serverEntries, grantedEntries, hnameplate]
      omega
    · simp only [serverEntries, List.forall_mem_append]
      exact ⟨by simp [grantedEntries, htype, hmailbox, htoken, hexpires], mem_pushed hnameplate⟩
  · obtain ⟨htype, hlength, h⟩ := branch_of_rule hrule (by decide) h
    simp +decide only [serverBranches, dispatch_cons_ne, dispatch_cons_self] at h
    exact granted_holds (fun _ _ _ => rfl) htype hlength h
  · obtain ⟨htype, hlength, h⟩ := branch_of_rule hrule (by decide) h
    simp +decide only [serverBranches, dispatch_cons_ne, dispatch_cons_self] at h
    exact granted_holds (fun _ _ _ => rfl) htype hlength h
  · obtain ⟨htype, hlength, h⟩ := branch_of_rule hrule (by decide) h
    simp +decide only [serverBranches, dispatch_cons_ne, dispatch_cons_self] at h
    exact granted_holds (fun _ _ _ => rfl) htype hlength h
  · obtain ⟨htype, hlength, h⟩ := branch_of_rule hrule (by decide) h
    simp +decide only [serverBranches, dispatch_cons_ne, dispatch_cons_self] at h
    simp only [except_bind_eq_ok, field_eq_ok, u8Value_eq_ok, bytesValue_eq_ok,
      Except.ok.injEq] at h
    obtain ⟨_, hseq, seq, rfl, _, hbody, body, rfl, rfl⟩ := h
    exact ⟨hlength, by simp [serverEntries, htype, hseq, hbody]⟩
  · obtain ⟨htype, hlength, h⟩ := branch_of_rule hrule (by decide) h
    simp +decide only [serverBranches, dispatch_cons_ne, dispatch_cons_self] at h
    simp only [except_bind_eq_ok, field_eq_ok, u8Value_eq_ok, Except.ok.injEq] at h
    obtain ⟨_, hseq, seq, rfl, rfl⟩ := h
    exact ⟨hlength, by simp [serverEntries, htype, hseq]⟩
  · obtain ⟨htype, hlength, h⟩ := branch_of_rule hrule (by decide) h
    simp +decide only [serverBranches, dispatch_cons_ne, dispatch_cons_self] at h
    simp only [except_bind_eq_ok, field_eq_ok, Except.ok.injEq] at h
    obtain ⟨_, hreason, reason, hr, rfl⟩ := h
    rw [closeReason_eq_ok hr] at hreason
    exact ⟨hlength, by simp [serverEntries, htype, hreason]⟩
  · obtain ⟨htype, hlength, h⟩ := branch_of_rule hrule (by decide) h
    simp +decide only [serverBranches, dispatch_cons_ne, dispatch_cons_self] at h
    simp only [except_bind_eq_ok, field_eq_ok, narrowValue_eq_ok (by omega : 16 ≤ 64),
      Except.ok.injEq] at h
    obtain ⟨_, hcode, code, ⟨-, rfl⟩, rfl⟩ := h
    exact ⟨hlength, by simp [serverEntries, htype, hcode]⟩
  · obtain ⟨htype, hlength, h⟩ := branch_of_rule hrule (by decide) h
    simp +decide only [serverBranches, dispatch_cons_ne, dispatch_cons_self,
      Except.ok.injEq] at h
    subst h
    exact ⟨hlength, by simp [serverEntries, htype]⟩

theorem serverMessage_faithful : serverMessage.Faithful :=
  .of_entries (fun _ => rfl) serverEntries_written (fun _ _ => isMap_of_read) serverMessage_reads
    serverMessage_holds

end Wire
end CbclPairing
