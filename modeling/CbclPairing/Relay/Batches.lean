import CbclPairing.Relay.Outcomes

/-! What the batch calls of a sound relay do: a sweep takes out the due mailboxes in
the order of their expiry, and an emergency close ends the live ones one by one. Both stop at
the first write that the store refuses. -/
namespace CbclPairing
open Codec Calls Tables

namespace Relay

variable {C L : Type} [Primitives] {s : Relay C L} {id : Octets 32} {m : Mailbox} {now : UInt64}

abbrev Reply (C L : Type) := EStateM.Result (Fault RelayError) (Relay C L) (List RoutedMessage)

omit [Primitives] in
/-- Change the messages of a successful call. -/
def mapped (f : List RoutedMessage → List RoutedMessage) : Reply C L → Reply C L
  | .ok messages s => .ok (f messages) s
  | .error e s => .error e s

omit [Primitives] in
@[simp] theorem after_mapped (f : List RoutedMessage → List RoutedMessage) (r : Reply C L) :
    Call.after (mapped f r) = Call.after r := by
  cases r <;> rfl

omit [Primitives] in
theorem run_mapped (f : List RoutedMessage → List RoutedMessage)
    (x : Step C L (List RoutedMessage)) :
    (do let messages ← x; pure (f messages) : Step C L (List RoutedMessage)) s =
      mapped f (x s) := by
  cases hx : x s with
  | ok messages s' =>
    rw [Call.run_bind hx]
    rfl
  | error e s' =>
    rw [Call.run_bind_error hx]
    rfl

/-! ### The sweep -/

omit [Primitives] in
/-- What a sweep does. -/
inductive Swept (now : UInt64) : Relay C L → Reply C L → Prop
  | done {s : Relay C L} : (∀ entry ∈ s.expiries, now < entry.1) → Swept now s (.ok [] s)
  | refused {s : Relay C L} {id : Octets 32} {m : Mailbox} :
      first expiryLe s.expiries = some (m.expiresAt, id) → s.mailboxes.lookup id = some m →
      m.expiresAt ≤ now → s.Refuses → Swept now s (.error (.error .storage) s.spent)
  | reaped {s : Relay C L} {id : Octets 32} {m : Mailbox} {r : Reply C L} :
      first expiryLe s.expiries = some (m.expiresAt, id) → s.mailboxes.lookup id = some m →
      m.expiresAt ≤ now → ¬ s.Refuses → Swept now (s.removed id m) r →
      Swept now s (mapped (s.terminalRoutes id .expired ++ ·) r)

omit [Primitives] in
theorem expiries_removed (id : Octets 32) (m : Mailbox) :
    (s.removed id m).expiries = s.expiries.erase (m.expiresAt, id) := rfl

/-- A sweep with a turn for every entry finishes. -/
theorem sweepLoop_swept (h : s.Sound) (turns : ℕ) (hturns : s.expiries.card < turns) :
    Swept now s (sweepLoop now turns s) := by
  induction turns generalizing s with
  | zero => omega
  | succ turns ih =>
    unfold sweepLoop
    rw [Call.run_bind (Call.run_get s)]
    cases hfirst : first expiryLe s.expiries with
    | none =>
      have hempty := first_eq_none expiryLe hfirst
      exact .done (by simp [hempty])
    | some entry =>
      obtain ⟨expiresAt, id⟩ := entry
      have hmem := first_mem expiryLe hfirst
      by_cases hdue : now < expiresAt
      · simp only [if_pos hdue]
        refine .done ?_
        intro entry hentry
        have hle := first_le expiryLe hfirst hentry
        simp only [expiryLe, UInt64.lt_iff_toNat_lt, ← UInt64.toNat_inj] at *
        omega
      · obtain ⟨m, hm, rfl⟩ := (h.expiries expiresAt id).mp hmem
        have hdue' := UInt64.not_lt.mp hdue
        simp only [if_neg hdue]
        by_cases hrefuses : s.Refuses
        · rw [Call.run_bind_error ((removeMailbox_eq h.toIndexed hm).trans (if_pos hrefuses))]
          exact .refused hfirst hm hdue' hrefuses
        · rw [Call.run_bind ((removeMailbox_eq h.toIndexed hm).trans (if_neg hrefuses)),
            run_mapped (s.terminalRoutes id .expired ++ ·)]
          refine .reaped hfirst hm hdue' hrefuses (ih (h.removed hm) ?_)
          have hpos : 0 < s.expiries.card := Finset.card_pos.mpr ⟨_, hmem⟩
          rw [expiries_removed, Finset.card_erase_of_mem hmem]
          omega

theorem Swept.changes {r : Reply C L} (hr : Swept now s r) : Changes s (Call.after r) := by
  induction hr with
  | done => exact .refl
  | refused => exact .single .spent
  | reaped _ hm _ _ _ ih =>
    rw [after_mapped]
    exact .head (.removed hm) ih

/-! ### The emergency close -/

/-- What the loop of an emergency close does. -/
inductive Closes (now : UInt64) : List (Octets 32) → Relay C L → Reply C L → Prop
  | done {s : Relay C L} : Closes now [] s (.ok [] s)
  | skipped {id : Octets 32} {ids : List (Octets 32)} {s : Relay C L} {r : Reply C L} :
      (∀ m, s.mailboxes.lookup id = some m → m.status.isTerminal = true) →
      Closes now ids s r → Closes now (id :: ids) s r
  | refused {id : Octets 32} {ids : List (Octets 32)} {s : Relay C L} : s.Refuses →
      Closes now (id :: ids) s (.error (.error .storage) s.spent)
  | reaped {id : Octets 32} {ids : List (Octets 32)} {s : Relay C L} {m : Mailbox}
      {r : Reply C L} : s.mailboxes.lookup id = some m → m.status.isTerminal = false →
      m.expiresAt ≤ now → ¬ s.Refuses → Closes now ids (s.removed id m) r →
      Closes now (id :: ids) s (mapped (s.terminalRoutes id .closed ++ ·) r)
  | closed {id : Octets 32} {ids : List (Octets 32)} {s : Relay C L} {m : Mailbox}
      {r : Reply C L} : s.mailboxes.lookup id = some m → m.status.isTerminal = false →
      now < m.expiresAt → ¬ s.Refuses →
      Closes now ids (s.replaced id m (m.ended .closed)) r →
      Closes now (id :: ids) s (mapped (s.terminalRoutes id .closed ++ ·) r)

theorem Sound.closed (h : s.Sound) (hm : s.mailboxes.lookup id = some m) :
    Change s (s.replaced id m (m.ended .closed)) := by
  have hmoves : Mailbox.Moves m (.close .allocator) _ (m.ended .closed) := .ended (.closed rfl)
  exact .replaced hm (h.fits hm hmoves (by simp))
    (h.room_of_le hm (hmoves.queueBytes_le (by simp)))

/-- The allocator of a live mailbox may always close it. -/
theorem transition_close (h : m.Recorded) (hlive : m.status.isTerminal = false) :
    m.transition now (.close .allocator) =
      if m.expiresAt ≤ now then .ok ⟨none, m.deletions ++ [.terminal .expired]⟩
      else .ok ⟨some (m.ended .closed), m.deletions ++ [.terminal .closed]⟩ := by
  unfold Mailbox.transition
  by_cases hexpired : m.expiresAt ≤ now
  · rw [if_pos hexpired, if_pos hexpired, Mailbox.reap_ok m now h.accounted.ge hexpired, hlive]
    rfl
  · rw [if_neg hexpired, if_neg hexpired]
    have hclose := h.terminate .closed
    cases hstatus : m.status with
    | terminal reason =>
      rw [hstatus] at hlive
      cases hlive
    | waiting | paired => exact hclose

theorem closeEach_closes (h : s.Sound) (now : UInt64) (ids : List (Octets 32)) :
    Closes now ids s (closeEach now ids s) := by
  induction ids generalizing s with
  | nil => exact .done
  | cons id ids ih =>
    unfold closeEach
    rw [Call.run_bind (Call.run_get s)]
    cases hm : s.mailboxes.lookup id with
    | none => exact .skipped (by simp [hm]) (ih h)
    | some m =>
      dsimp only
      cases hstatus : m.status.isTerminal with
      | true =>
        refine .skipped ?_ (ih h)
        intro m' hm'
        rw [hm, Option.some.injEq] at hm'
        rw [← hm']
        exact hstatus
      | false =>
        have hrecorded := h.recorded id m hm
        rw [transition_close hrecorded hstatus]
        by_cases hexpired : m.expiresAt ≤ now
        · have hcommit := commit_none h.toIndexed hm (m.deletions ++ [.terminal .expired])
          simp only [Bool.false_eq_true, if_false, if_pos hexpired]
          by_cases hrefuses : s.Refuses
          · rw [Call.run_bind_error (hcommit.trans (if_pos hrefuses))]
            exact .refused hrefuses
          · rw [Call.run_bind (hcommit.trans (if_neg hrefuses)),
              run_mapped (s.terminalRoutes id .closed ++ ·)]
            exact .reaped hm hstatus hexpired hrefuses (ih (h.removed hm))
        · have hmoves : Mailbox.Moves m (.close .allocator) _ (m.ended .closed) :=
            .ended (.closed rfl)
          have hcommit := h.commit_moved hm (hmoves.recorded hrecorded)
            (h.room_of_le hm (hmoves.queueBytes_le (by simp)))
            (m.deletions ++ [.terminal .closed])
          simp only [Bool.false_eq_true, if_false, if_neg hexpired]
          by_cases hrefuses : s.Refuses
          · rw [Call.run_bind_error (hcommit.trans (if_pos hrefuses))]
            exact .refused hrefuses
          · rw [Call.run_bind (hcommit.trans (if_neg hrefuses)),
              run_mapped (s.terminalRoutes id .closed ++ ·)]
            exact .closed hm hstatus (UInt64.not_le.mp hexpired) hrefuses (ih ((h.closed hm).sound h))

omit [Primitives] in
/-- The relay with allocation turned off. -/
def disabled (s : Relay C L) : Relay C L :=
  { s with config := { s.config with allocationEnabled := false } }

theorem emergencyClose_eq (now : UInt64) : emergencyClose now s =
    mapped deduplicateRoutes (closeEach now (s.mailboxes.keys.sort idLe) s.disabled) := by
  have hrun := run_mapped (s := s.disabled) deduplicateRoutes
    (closeEach now (s.mailboxes.keys.sort idLe))
  exact hrun

theorem Closes.changes {ids : List (Octets 32)} {r : Reply C L} (hr : Closes now ids s r)
    (h : s.Sound) : Changes s (Call.after r) := by
  induction hr with
  | done => exact .refl
  | skipped _ _ ih => exact ih h
  | refused => exact .single .spent
  | reaped hm _ _ _ _ ih =>
    rw [after_mapped]
    exact .head (.removed hm) (ih (h.removed hm))
  | closed hm _ _ _ _ ih =>
    have hclosed := h.closed hm
    rw [after_mapped]
    exact .head hclosed (ih (hclosed.sound h))

end Relay
end CbclPairing
