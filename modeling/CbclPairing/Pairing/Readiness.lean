import CbclPairing.Pairing.Termination

/-! Readiness of the version 1 reducer: application traffic leaves it only after its own
Finished control and the peer's Finished value, on the claimant only after the opener,
and every bound role key has the digest its invitation names. -/
namespace CbclPairing
namespace Pairing
open Codec Codec.Cbor Calls Wire

/-- The key digest an invitation expects of a role. -/
def expectedKey (invitation : Invitation) : PairingRole → Option (Octets 32)
  | .allocator => invitation.expectedAllocatorKey
  | .claimant => invitation.expectedClaimantKey

/-- A role key has a digest. -/
def CeremonyKeyId.HasDigest [Primitives] (key : CeremonyKeyId) (digest : Octets 32) : Prop :=
  ∃ bytes, key.publicKeyBytes = .ok bytes ∧ sha256 bytes.val = digest

namespace EndpointReducer

variable [Cbcl] [Primitives] {π : Type} {s₀ s t : EndpointReducer π} {pending : PendingChannel}

theorem Pinned.hasDigest {role : PairingRole} {key : CeremonyKeyId} {digest : Octets 32}
    (h : s.Pinned) (hexpected : s.expectedRoleKeys (roleIndex role) = some digest)
    (hkey : s.roleKey role = some key) : key.HasDigest digest := by
  have hmatched := h role
  simp only [mismatched, hexpected, hkey] at hmatched
  rcases hbytes : key.publicKeyBytes with _ | bytes
  · rw [hbytes] at hmatched
    cases hmatched
  · rw [hbytes] at hmatched
    exact ⟨bytes, hbytes, by simpa using hmatched⟩

variable [ApplicationProfile π]

/-! ### What came earlier in a run -/

/-- The reducer admitted its own Finished control. -/
def FinishedAdmitted (s₀ : EndpointReducer π) (pending : PendingChannel)
    (calls : List Operation) : Prop :=
  Runs.Earlier step (fun _ op s => AdmitsFinished pending s op) s₀ calls

/-- After its own Finished control the reducer confirmed the peer's value. -/
def PeerConfirmed (s₀ : EndpointReducer π) (pending : PendingChannel)
    (calls : List Operation) : Prop :=
  Runs.Earlier step
    (fun before op s => FinishedAdmitted s₀ pending before ∧ Confirms pending s op) s₀ calls

/-- After both Finished values the claimant opened its session under the two bound
keys. -/
def OpenerAdmitted (s₀ : EndpointReducer π) (pending : PendingChannel)
    (calls : List Operation) : Prop :=
  Runs.Earlier step
    (fun before op s => PeerConfirmed s₀ pending before ∧ AdmitsOpener s op) s₀ calls

/-! ### Progress -/

/-- What each part of the reducer says of the run that led to it. -/
structure Progress (s₀ : EndpointReducer π) (pending : PendingChannel) (calls : List Operation)
    (s : EndpointReducer π) : Prop where
  side : s.side = s₀.side
  expectedRoleKeys : s.expectedRoleKeys = s₀.expectedRoleKeys
  pinned : s.Pinned
  pendingChannel : ∀ p, s.pendingChannel = some p → p = pending
  localFinished : s.localFinished.isSome → FinishedAdmitted s₀ pending calls
  channel : s.channel.isSome → PeerConfirmed s₀ pending calls
  session : s.session.isSome → PeerConfirmed s₀ pending calls ∧
    (s₀.side = .claimant → OpenerAdmitted s₀ pending calls)

/-- An operation that erases the reducer leaves nothing to explain. -/
theorem Progress.erased {calls more : List Operation} (h : Progress s₀ pending calls s)
    (hkept : Kept s t) (herased : Erased t) : Progress s₀ pending more t where
  side := hkept.side.trans h.side
  expectedRoleKeys := hkept.expectedRoleKeys.trans h.expectedRoleKeys
  pinned := pinned_of_erased herased
  pendingChannel p hp := (by cases herased.pendingChannel.symm.trans hp)
  localFinished hfinished := by
    rw [herased.localFinished] at hfinished
    cases hfinished
  channel hchannel := by
    rw [herased.channel] at hchannel
    cases hchannel
  session hsession := by
    rw [herased.session] at hsession
    cases hsession

theorem Progress.append {calls : List Operation} (h : Progress s₀ pending calls s)
    (more : List Operation) : Progress s₀ pending (calls ++ more) s :=
  { h with
    localFinished := fun hfinished => (h.localFinished hfinished).append more
    channel := fun hchannel => (h.channel hchannel).append more
    session := fun hsession => by
      obtain ⟨hconfirmed, hopened⟩ := h.session hsession
      exact ⟨hconfirmed.append more, fun hside => (hopened hside).append more⟩ }

/-- Only the channel of the derived key schedule can be confirmed, and only once the
reducer has its own Finished control. -/
theorem Progress.confirms {calls : List Operation} {op : Operation} {p : PendingChannel}
    (h : Progress s₀ pending calls (Runs.after step s₀ calls))
    (hconfirms : Confirms p (Runs.after step s₀ calls) op) :
    PeerConfirmed s₀ pending (calls ++ [op]) := by
  obtain ⟨frame, hpresents, hframe⟩ := hconfirms
  obtain rfl := h.pendingChannel p hframe.pendingChannel
  exact Runs.earlier_concat step ⟨h.localFinished hframe.localFinished, frame, hpresents, hframe⟩

theorem Progress.lives {calls : List Operation} {op : Operation}
    (h : Progress s₀ pending calls (Runs.after step s₀ calls))
    (hlives : Lives op (Runs.after step s₀ calls) t) : Progress s₀ pending (calls ++ [op]) t where
  side := hlives.side.trans h.side
  expectedRoleKeys := hlives.expectedRoleKeys.trans h.expectedRoleKeys
  pinned := hlives.pinned h.pinned
  pendingChannel p hp := by
    obtain ⟨hsame, -⟩ | ⟨_, -, hnone, -⟩ := hlives.channel
    · exact h.pendingChannel p (hsame.symm.trans hp)
    · cases hnone.symm.trans hp
  localFinished hfinished := by
    obtain hsame | ⟨p, hadmits⟩ := hlives.localFinished
    · rw [hsame] at hfinished
      exact (h.localFinished hfinished).append [op]
    · obtain rfl := h.pendingChannel p hadmits.pendingChannel
      exact Runs.earlier_concat step hadmits
  channel hchannel := by
    obtain ⟨-, hsame, -⟩ | ⟨p, hconfirms, -⟩ := hlives.channel
    · exact (h.channel (hsame.symm.trans hchannel)).append [op]
    · exact h.confirms hconfirms
  session hsession := by
    obtain hsame | ⟨hside, p, hconfirms⟩ | ⟨-, hchannel, hopener⟩ := hlives.session
    · obtain ⟨hconfirmed, hopened⟩ := h.session (hsame.symm.trans hsession)
      exact ⟨hconfirmed.append [op], fun hside => (hopened hside).append [op]⟩
    · refine ⟨h.confirms hconfirms, fun hclaimant => ?_⟩
      cases (h.side.symm.trans hside).symm.trans hclaimant
    · have hconfirmed := h.channel hchannel
      exact ⟨hconfirmed.append [op], fun _ => Runs.earlier_concat step ⟨hconfirmed, hopener⟩⟩

theorem Progress.step {calls : List Operation}
    (h : Progress s₀ pending calls (Runs.after step s₀ calls)) (op : Operation) :
    Progress s₀ pending (calls ++ [op])
      (Call.after (EndpointReducer.step op (Runs.after EndpointReducer.step s₀ calls))) := by
  rcases hterminal : (Runs.after EndpointReducer.step s₀ calls).terminal with _ | reason
  · cases after_step_live op hterminal with
    | lives hlives => exact h.lives hlives
    | falls hfalls => exact h.erased hfalls.toKept hfalls.erased
    | declined hkept _ herased => exact h.erased hkept herased
  · rw [after_step_over op hterminal]
    exact h.append [op]

theorem run_progress (h : Progress s₀ pending [] s₀) (calls : List Operation) :
    Progress s₀ pending calls (Runs.after step s₀ calls) :=
  Runs.invariant step h (fun _ op h => h.step op) calls

theorem new_progress {isRootOrigin : Bytes → Bool} {side : Side} {invitation : Bytes}
    {record : InvitationRecord} {ceremonyKey : CeremonySigningKey} {bootstrap : BootstrapMonitor}
    {allocatorCpaceHash claimantCpaceHash : Bytes} {profile : π}
    (hnew : new isRootOrigin side invitation record ceremonyKey bootstrap pending
      allocatorCpaceHash claimantCpaceHash profile = .ok s₀) : Progress s₀ pending [] s₀ := by
  obtain ⟨-, hpinned, value, -, rfl⟩ := new_eq hnew
  refine ⟨rfl, rfl, hpinned, ?_, ?_, ?_, ?_⟩
  · rintro p ⟨⟩
    rfl
  · rintro ⟨⟩
  · rintro ⟨⟩
  · rintro ⟨⟩

/-- Traffic leaves a live reducer only when it is ready. -/
theorem ready_of_traffic {op : Operation} {reply : Reply} (hrun : run op s = .ok reply t)
    (htraffic : reply.Traffic) : Ready s op := by
  rcases hterminal : s.terminal with _ | reason
  · exact ((run_live op hterminal).ok hrun).2 htraffic
  · obtain herror | ⟨-, hok, -⟩ := run_over op hterminal
    · cases herror.symm.trans hrun
    · obtain ⟨rfl, -⟩ := EStateM.Result.ok.inj (hok.symm.trans hrun)
      obtain ⟨e, he, -⟩ := htraffic
      cases he

theorem Progress.ready {calls : List Operation} {op : Operation}
    (h : Progress s₀ pending calls (Runs.after EndpointReducer.step s₀ calls))
    (hready : Ready (Runs.after EndpointReducer.step s₀ calls) op) :
    PeerConfirmed s₀ pending (calls ++ [op]) ∧
      (s₀.side = .claimant → OpenerAdmitted s₀ pending calls) := by
  obtain hsession | ⟨hside, p, hconfirms⟩ := hready
  · obtain ⟨hconfirmed, hopened⟩ := h.session hsession
    exact ⟨hconfirmed.append [op], hopened⟩
  · refine ⟨h.confirms hconfirms, fun hclaimant => ?_⟩
    cases (h.side.symm.trans hside).symm.trans hclaimant

/-- In every run of a new reducer application traffic comes only after its own Finished
control and the peer's Finished value of the derived key schedule, on the claimant only
after the opener under the two bound keys; and every bound role key has the digest the
invitation expects. -/
theorem traffic_after_confirmation {isRootOrigin : Bytes → Bool} {side localSide : Side}
    {invitation : Bytes} {record : InvitationRecord} {ceremonyKey : CeremonySigningKey}
    {bootstrap : BootstrapMonitor} {isk : Octets 64}
    {publicContext allocatorCpaceFrame claimantCpaceFrame : Bytes}
    {allocatorCpaceHash claimantCpaceHash : Bytes} {profile : π}
    (hnew : new isRootOrigin side invitation record ceremonyKey bootstrap
      (.new localSide isk publicContext allocatorCpaceFrame claimantCpaceFrame)
      allocatorCpaceHash claimantCpaceHash profile = .ok s₀) (calls : List Operation) :
    (∀ op reply t, run op (Runs.after step s₀ calls) = .ok reply t → reply.Traffic →
      PeerConfirmed s₀
          (.new localSide isk publicContext allocatorCpaceFrame claimantCpaceFrame)
          (calls ++ [op]) ∧
        (side = .claimant → OpenerAdmitted s₀
          (.new localSide isk publicContext allocatorCpaceFrame claimantCpaceFrame) calls)) ∧
    ∀ value, decodeInvitation isRootOrigin invitation = .ok value → ∀ role digest key,
      expectedKey value role = some digest →
      (Runs.after step s₀ calls).roleKey role = some key → key.HasDigest digest := by
  have hprogress := run_progress (new_progress hnew) calls
  obtain ⟨-, -, value, hvalue, hs₀⟩ := new_eq hnew
  constructor
  · intro op reply t hrun htraffic
    have hside : s₀.side = side := by rw [hs₀]
    rw [← hside]
    exact hprogress.ready (ready_of_traffic hrun htraffic)
  · intro value' hvalue' role digest key hexpected hkey
    obtain rfl := Except.ok.inj (hvalue.symm.trans hvalue')
    refine hprogress.pinned.hasDigest ?_ hkey
    rw [hprogress.expectedRoleKeys, hs₀]
    cases role with
    | allocator => exact hexpected
    | claimant => exact hexpected

end EndpointReducer
end Pairing
end CbclPairing

/-! ### The claimant shows the intent -/

namespace CbclPairing
namespace Pairing
open Codec Calls Wire

namespace EndpointReducer

attribute [local instance] Primitives.transparent Sample.engine

/-- The claimant of the sample shows the intent, after both Finished values and the
opener, and under the allocator key its invitation expects. -/
theorem traffic_after_confirmation_claimant :
    (∃ shown t, run Sample.receivesIntent (Runs.after step Sample.claimant Sample.opening) =
      .ok (.effects [.displayIntent shown]) t) ∧
    PeerConfirmed Sample.claimant (Sample.pending .claimant)
      (Sample.opening ++ [Sample.receivesIntent]) ∧
    OpenerAdmitted Sample.claimant (Sample.pending .claimant) Sample.opening ∧
    ∃ key, (Runs.after step Sample.claimant Sample.opening).roleKey .allocator = some key ∧
      key.HasDigest (sha256 Sample.allocatorKey.secret.val) := by
  have hverdict : Call.verdict (run Sample.receivesIntent
      (Runs.after step Sample.claimant Sample.opening)) =
      .ok (.effects [.displayIntent Sample.shown]) := by
    decide +kernel
  obtain ⟨t, hrun⟩ := Call.verdict_eq_ok.mp hverdict
  have hkey : ((Runs.after step Sample.claimant Sample.opening).roleKey .allocator).isSome := by
    decide +kernel
  obtain ⟨key, hkey⟩ := Option.isSome_iff_exists.mp hkey
  have hvalue : decodeInvitation Sample.isRootOrigin Sample.invitation =
      .ok Sample.invitationValue := by
    decide +kernel
  obtain ⟨htraffic, hkeys⟩ := traffic_after_confirmation Sample.new_claimant Sample.opening
  obtain ⟨hconfirmed, hopened⟩ :=
    htraffic _ _ t hrun ⟨.displayIntent Sample.shown, List.mem_singleton_self _, rfl⟩
  exact ⟨⟨Sample.shown, t, hrun⟩, hconfirmed, hopened rfl, key, hkey,
    hkeys Sample.invitationValue hvalue .allocator _ key rfl hkey⟩

end EndpointReducer
end Pairing
end CbclPairing
