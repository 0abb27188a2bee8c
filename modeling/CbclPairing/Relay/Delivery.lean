import CbclPairing.Relay.MailboxRuns

/-! The frames of a mailbox as a function of its history: what was accepted stays
as it was until it is acknowledged, and is delivered to the other member only. -/
namespace CbclPairing
open Codec Calls

/-- A frame one member had accepted for the other. -/
structure Accepted where
  owner : Membership
  seq : UInt8
  body : Bytes
  deriving DecidableEq

/-- The calls made on a mailbox, with their verdicts. -/
abbrev MailboxTrace :=
  List ((UInt64 × MailboxCommand) × Except (Fault MailboxError) (List MailboxEffect))

namespace MailboxTrace

/-- The frame a call had newly stored. -/
def acceptance : (UInt64 × MailboxCommand) × Except (Fault MailboxError) (List MailboxEffect) →
    Option Accepted
  | ((_, .put sender seq body), .ok effects) =>
    if .stored sender seq false ∈ effects then some ⟨sender, seq, body⟩ else none
  | _ => none

/-- The owner and the sequence of the frame a call acknowledged. -/
def acknowledgement :
    (UInt64 × MailboxCommand) × Except (Fault MailboxError) (List MailboxEffect) →
    Option (Membership × UInt8)
  | ((_, .ack sender peerSeq), .ok _) => some (sender.opposite, peerSeq)
  | _ => none

theorem acceptance_error (call : UInt64 × MailboxCommand) (e : Fault MailboxError) :
    acceptance (call, .error e) = none := by
  unfold acceptance
  split <;> simp_all

theorem acceptance_eq_none {call : UInt64 × MailboxCommand} {effects : List MailboxEffect}
    (h : ∀ sender seq, .stored sender seq false ∉ effects) :
    acceptance (call, .ok effects) = none := by
  unfold acceptance
  split <;> simp_all

theorem acknowledgement_error (call : UInt64 × MailboxCommand) (e : Fault MailboxError) :
    acknowledgement (call, .error e) = none := by
  unfold acknowledgement
  split <;> simp_all

def accepted (t : MailboxTrace) (owner : Membership) : List Accepted :=
  (t.filterMap acceptance).filter (·.owner = owner)

def acked (t : MailboxTrace) : List (Membership × UInt8) := t.filterMap acknowledgement

/-- The accepted frames of one member that its peer has not acknowledged. -/
def pending (t : MailboxTrace) (owner : Membership) : List Accepted :=
  (t.accepted owner).filter fun a => (owner, a.seq) ∉ t.acked

section Concat

variable (t : MailboxTrace)
  {entry : (UInt64 × MailboxCommand) × Except (Fault MailboxError) (List MailboxEffect)}

theorem accepted_concat_none (h : acceptance entry = none) (owner : Membership) :
    accepted (t ++ [entry]) owner = t.accepted owner := by
  simp [accepted, h]

theorem accepted_concat_some {a : Accepted} (h : acceptance entry = some a) (owner : Membership) :
    accepted (t ++ [entry]) owner =
      if a.owner = owner then t.accepted owner ++ [a] else t.accepted owner := by
  split_ifs with howner <;> simp [accepted, h, howner]

theorem acked_concat_none (h : acknowledgement entry = none) : acked (t ++ [entry]) = t.acked := by
  simp [acked, h]

theorem acked_concat_some {key : Membership × UInt8} (h : acknowledgement entry = some key) :
    acked (t ++ [entry]) = t.acked ++ [key] := by
  simp [acked, h]

theorem owner_of_mem {owner : Membership} {a : Accepted} (h : a ∈ t.accepted owner) :
    a.owner = owner := by
  simpa using (List.mem_filter.mp h).2

end Concat

variable [Primitives]

/-- The record that the history asks for. -/
def record (t : MailboxTrace) (a : Accepted) : FrameRecord :=
  ⟨a.seq, sha256 a.body, a.body.length, if (a.owner, a.seq) ∈ t.acked then none else some a.body⟩

def retained (t : MailboxTrace) (owner : Membership) : List FrameRecord :=
  (t.accepted owner).map t.record

end MailboxTrace

namespace Mailbox

variable [Primitives] {m : Mailbox} {t : MailboxTrace}

/-- The frames of a mailbox are those its history asks for. -/
structure Follows (t : MailboxTrace) (m : Mailbox) : Prop where
  frames : ∀ owner, m.framesOf owner =
    if m.status.isTerminal then (t.retained owner).map FrameRecord.erased else t.retained owner
  acked : ∀ owner seq, (owner, seq) ∈ t.acked → seq ∈ (t.accepted owner).map Accepted.seq

omit [Primitives] in
/-- Dropping a body rewrites the one frame with that sequence. -/
theorem dropBody_eq_map (seq : UInt8) {frames : List FrameRecord}
    (h : (frames.map FrameRecord.seq).Nodup) :
    dropBody seq frames = frames.map fun f => if f.seq = seq then f.erased else f := by
  induction frames with
  | nil => rfl
  | cons f frames ih =>
    obtain ⟨hnot, hrest⟩ := List.nodup_cons.mp h
    unfold dropBody
    by_cases hseq : f.seq = seq
    · have hsame : ∀ g ∈ frames, (if g.seq = seq then g.erased else g) = g := by
        intro g hg
        apply if_neg
        intro hg'
        apply hnot
        rw [hseq, ← hg']
        exact List.mem_map_of_mem hg
      rw [if_pos hseq, List.map_cons, if_pos hseq, List.map_congr_left hsame, List.map_id']
      rfl
    · rw [if_neg hseq, List.map_cons, if_neg hseq, ih hrest]

section Step

variable {now : UInt64} {c : MailboxCommand} {effects : List MailboxEffect} {m' : Mailbox}

/-- The sequences of the accepted frames are those of the records kept for them. -/
theorem Follows.numbers (h : Follows t m) (owner : Membership) :
    (m.framesOf owner).map FrameRecord.seq = (t.accepted owner).map Accepted.seq := by
  rw [h.frames owner]
  split_ifs <;> simp [MailboxTrace.retained, MailboxTrace.record, FrameRecord.erased,
    Function.comp_def]

theorem Recorded.seqs (h : m.Recorded) (owner : Membership) :
    (m.framesOf owner).map (fun f => f.seq.toNat) = List.range (m.framesOf owner).length := by
  unfold framesOf
  cases hmember : m.member owner with
  | none => rfl
  | some member => exact (h.member hmember).numbered

theorem Recorded.seqs_nodup (h : m.Recorded) (owner : Membership) :
    ((m.framesOf owner).map FrameRecord.seq).Nodup := by
  have hnodup : ((m.framesOf owner).map fun f => f.seq.toNat).Nodup := by
    rw [h.seqs owner]
    exact List.nodup_range
  have hmap : ((m.framesOf owner).map FrameRecord.seq).map UInt8.toNat =
      (m.framesOf owner).map fun f => f.seq.toNat := by simp
  rw [← hmap] at hnodup
  exact hnodup.of_map

/-- A call that neither stores nor acknowledges leaves the history as it was. -/
theorem Follows.quiet (h : Follows t m)
    {entry : (UInt64 × MailboxCommand) × Except (Fault MailboxError) (List MailboxEffect)}
    (haccepted : MailboxTrace.acceptance entry = none)
    (hacked : MailboxTrace.acknowledgement entry = none)
    (hframes : ∀ owner, m'.framesOf owner =
      if m'.status.isTerminal then (t.retained owner).map FrameRecord.erased
      else t.retained owner) : Follows (t ++ [entry]) m' := by
  have hacked := t.acked_concat_none hacked
  have haccepted := t.accepted_concat_none haccepted
  constructor
  · intro owner
    have hretained : MailboxTrace.retained (t ++ [entry]) owner = t.retained owner := by
      simp [MailboxTrace.retained, MailboxTrace.record, hacked, haccepted]
    rw [hretained]
    exact hframes owner
  · intro owner seq hmem
    rw [hacked] at hmem
    rw [haccepted]
    exact h.acked owner seq hmem

/-- The next sequence is above those of the accepted frames. -/
theorem Follows.fresh (h : Follows t m) (hrecorded : m.Recorded) {sender : Membership}
    {member : MemberState} (hmember : m.member sender = some member) :
    (sender, member.nextSeq) ∉ t.acked := by
  have hsound := hrecorded.member hmember
  intro hmem
  have hnumber := h.acked sender member.nextSeq hmem
  rw [← h.numbers sender, framesOf_of_member hmember] at hnumber
  have hrange : member.nextSeq.toNat ∈ member.frames.map fun f => f.seq.toNat := by
    obtain ⟨f, hf, hseq⟩ := List.mem_map.mp hnumber
    exact List.mem_map.mpr ⟨f, hf, by rw [hseq]⟩
  rw [hsound.numbered, List.mem_range, hsound.next] at hrange
  omega

theorem Follows.stored (h : Follows t m) (hrecorded : m.Recorded)
    (hlive : m.status.isTerminal = false) {sender : Membership} {member : MemberState}
    {body : Bytes} (hmember : m.member sender = some member)
    {entry : (UInt64 × MailboxCommand) × Except (Fault MailboxError) (List MailboxEffect)}
    (haccepted : MailboxTrace.acceptance entry = some ⟨sender, member.nextSeq, body⟩)
    (hacked : MailboxTrace.acknowledgement entry = none) :
    Follows (t ++ [entry]) (m.extended sender member body) := by
  have hacked := t.acked_concat_none hacked
  have haccepted := t.accepted_concat_some haccepted
  have hframes : member.frames = t.retained sender := by
    rw [← framesOf_of_member hmember, h.frames sender, hlive]
    rfl
  have hfresh := h.fresh hrecorded hmember
  constructor
  · intro owner
    have hstatus : (m.extended sender member body).status.isTerminal = false := by
      simpa [extended] using hlive
    have hextended : (m.extended sender member body).framesOf owner = if owner = sender then
        member.frames ++ [⟨member.nextSeq, sha256 body, body.length, some body⟩]
        else m.framesOf owner := framesOf_setMember hmember _ owner
    rw [hextended, hstatus]
    unfold MailboxTrace.retained MailboxTrace.record at hframes ⊢
    rw [haccepted owner]
    simp only [hacked]
    by_cases howner : owner = sender
    · subst howner
      simp [hframes, hfresh]
    · have hother := h.frames owner
      rw [hlive] at hother
      rw [if_neg howner, if_neg (Ne.symm howner), hother]
      rfl
  · intro owner seq hmem
    rw [hacked] at hmem
    have hold := h.acked owner seq hmem
    rw [haccepted owner]
    split_ifs
    · rw [List.map_append]
      exact List.mem_append_left _ hold
    · exact hold

theorem Follows.acknowledged (h : Follows t m) (hrecorded : m.Recorded)
    (hlive : m.status.isTerminal = false) {owner : Membership} {member : MemberState}
    {frame : FrameRecord} (hmember : m.member owner = some member) (hframe : frame ∈ member.frames)
    {entry : (UInt64 × MailboxCommand) × Except (Fault MailboxError) (List MailboxEffect)}
    (haccepted : MailboxTrace.acceptance entry = none)
    (hacked : MailboxTrace.acknowledgement entry = some (owner, frame.seq)) :
    Follows (t ++ [entry]) (m.acknowledged owner member frame) := by
  have hacked := t.acked_concat_some hacked
  have haccepted := t.accepted_concat_none haccepted
  have hstatus : (m.acknowledged owner member frame).status.isTerminal = false := by
    simpa [Mailbox.acknowledged] using hlive
  have hnodup : (member.frames.map FrameRecord.seq).Nodup := by
    rw [← framesOf_of_member hmember]
    exact hrecorded.seqs_nodup owner
  constructor
  · intro other
    have hdropped : (m.acknowledged owner member frame).framesOf other = if other = owner then
        dropBody frame.seq member.frames else m.framesOf other :=
      framesOf_setMember hmember _ other
    have hframes := h.frames other
    rw [hlive] at hframes
    rw [hdropped, hstatus]
    unfold MailboxTrace.retained at hframes ⊢
    rw [haccepted other]
    by_cases hother : other = owner
    · subst hother
      rw [framesOf_of_member hmember] at hframes
      rw [if_pos rfl, dropBody_eq_map frame.seq hnodup, hframes]
      simp only [Bool.false_eq_true, if_false, List.map_map]
      apply List.map_congr_left
      intro a ha
      have howner := t.owner_of_mem ha
      by_cases hseq : a.seq = frame.seq
      · simp [MailboxTrace.record, FrameRecord.erased, hacked, howner, hseq]
      · simp [MailboxTrace.record, hacked, howner, hseq]
    · rw [if_neg hother, hframes]
      simp only [Bool.false_eq_true, if_false]
      apply List.map_congr_left
      intro a ha
      have howner := t.owner_of_mem ha
      have hne : ¬ (a.owner = owner ∧ a.seq = frame.seq) := fun hsame => hother (howner ▸ hsame.1)
      simp [MailboxTrace.record, hacked, hne]
  · intro other seq hmem
    rw [hacked] at hmem
    rw [haccepted]
    rcases List.mem_append.mp hmem with hmem | hmem
    · exact h.acked other seq hmem
    · obtain ⟨rfl, rfl⟩ := Prod.mk.inj (List.mem_singleton.mp hmem)
      rw [← h.numbers, framesOf_of_member hmember]
      exact List.mem_map_of_mem hframe

omit [Primitives] in
theorem stored_not_mem_deletions (sender : Membership) (seq : UInt8) (replay : Bool) :
    .stored sender seq replay ∉ m.deletions := by
  intro hmem
  obtain ⟨owner, deleted, hsame⟩ := mem_deletions hmem
  cases hsame

/-- A move keeps the frames what the history asks for. -/
theorem Moves.follows (hmoves : Moves m c effects m') (h : Follows t m) (hrecorded : m.Recorded)
    (hlive : m.status.isTerminal = false) : Follows (t ++ [((now, c), .ok effects)]) m' := by
  have hsame : ∀ m' : Mailbox, m'.status.isTerminal = false →
      (∀ owner, m'.framesOf owner = m.framesOf owner) → ∀ owner, m'.framesOf owner =
        if m'.status.isTerminal then (t.retained owner).map FrameRecord.erased
        else t.retained owner := by
    intro m' hstatus hframes owner
    rw [hframes owner, h.frames owner, hlive, hstatus]
  have hjoined : ∀ (m' : Mailbox) (hash : MembershipHash), m.claimant = none →
      m'.allocator = m.allocator → m'.claimant = some (newMember hash) →
      ∀ owner, m'.framesOf owner = m.framesOf owner := by
    intro m' hash hnone hallocator hclaimant owner
    cases owner <;> simp [framesOf, Mailbox.member, hnone, hallocator, hclaimant, newMember]
  cases hmoves with
  | @claimed hash _ _ hnone =>
    exact h.quiet rfl rfl (hsame _ rfl (hjoined _ hash hnone rfl rfl))
  | @claimedV2 hash _ _ _ hnone =>
    exact h.quiet rfl rfl (hsame _ rfl (hjoined _ hash hnone rfl rfl))
  | opened => exact h.quiet rfl rfl (hsame m hlive fun _ => rfl)
  | repeated =>
    exact h.quiet (by simp [MailboxTrace.acceptance]) rfl (hsame m hlive fun _ => rfl)
  | stored _ hmember _ =>
    exact h.stored hrecorded hlive hmember (by simp [MailboxTrace.acceptance]) rfl
  | acknowledged _ hmember hframe =>
    exact h.acknowledged hrecorded hlive hmember (List.mem_of_find?_eq_some hframe) rfl rfl
  | @ended c reason hends =>
    have herased : ∀ owner, (m.ended reason).framesOf owner =
        (t.retained owner).map FrameRecord.erased := by
      intro owner
      have hframes := h.frames owner
      rw [hlive] at hframes
      rw [show (m.ended reason).framesOf owner = m.erased.framesOf owner from rfl,
        framesOf_erased, hframes]
      rfl
    refine h.quiet ?_ ?_ herased
    · cases hends with
      | conflict => simp [MailboxTrace.acceptance, stored_not_mem_deletions]
      | crowded => rfl
      | closed => rfl
    · cases hends <;> rfl

end Step

/-! ### The history of a run -/

variable {m₀ : Mailbox}

/-- The calls of a run with their verdicts. -/
def history (m₀ : Mailbox) (calls : List (UInt64 × MailboxCommand)) : MailboxTrace :=
  Runs.trace attempt (some m₀) calls

theorem history_concat (calls : List (UInt64 × MailboxCommand))
    (call : UInt64 × MailboxCommand) : history m₀ (calls ++ [call]) =
      history m₀ calls ++ [(call, Call.verdict (attempt call (Runs.after attempt (some m₀) calls)))] :=
  Runs.trace_concat attempt (some m₀) calls call

/-- Accepted sequences count up from zero, and a mailbox that is left follows the
history. -/
structure Kept (t : MailboxTrace) (s : Option Mailbox) : Prop where
  numbered : ∀ owner, (t.accepted owner).map (fun a => a.seq.toNat) =
    List.range (t.accepted owner).length
  sound : ∀ m ∈ s, m.Sound
  follows : ∀ m ∈ s, Follows t m

theorem Follows.numbered (h : Follows t m) (hrecorded : m.Recorded) (owner : Membership) :
    (t.accepted owner).map (fun a => a.seq.toNat) = List.range (t.accepted owner).length := by
  have hseqs := congrArg (List.map UInt8.toNat) (h.numbers owner)
  simp only [List.map_map, Function.comp_def] at hseqs
  have hlength := congrArg List.length hseqs
  simp only [List.length_map] at hlength
  rw [← hseqs, ← hlength]
  exact hrecorded.seqs owner

theorem kept_step {s : Option Mailbox} (h : Kept t s) (call : UInt64 × MailboxCommand) :
    Kept (t ++ [(call, Call.verdict (attempt call s))]) (Call.after (attempt call s)) := by
  have hgone : ∀ effects : List MailboxEffect,
      (∀ sender seq, .stored sender seq false ∉ effects) → Kept (t ++ [(call, .ok effects)]) none := by
    intro effects hnot
    refine ⟨?_, by simp, by simp⟩
    intro owner
    rw [t.accepted_concat_none (MailboxTrace.acceptance_eq_none hnot)]
    exact h.numbered owner
  cases s with
  | none => exact hgone [] (by simp)
  | some m =>
    have hsound := h.sound m rfl
    have hfollows := h.follows m rfl
    obtain ⟨e, hcall⟩ | ⟨-, hlive, effects, m', hcall, hmoves⟩ | ⟨-, hcall⟩ :=
      attempt_some hsound.toRecorded call
    · rw [hcall, Call.verdict_error, Call.after_error]
      have hsame := hfollows.quiet (MailboxTrace.acceptance_error call (.error e))
        (MailboxTrace.acknowledgement_error call (.error e)) hfollows.frames
      refine ⟨hsame.numbered hsound.toRecorded, h.sound, ?_⟩
      intro _ hm
      obtain rfl := Option.some.inj hm
      exact hsame
    · rw [hcall, Call.verdict_ok, Call.after_ok]
      have hsound' := hmoves.sound hsound hlive
      have hfollows' : Follows (t ++ [(call, .ok effects)]) m' :=
        hmoves.follows hfollows hsound.toRecorded hlive
      refine ⟨hfollows'.numbered hsound'.toRecorded, ?_, ?_⟩
      · intro _ hm
        obtain rfl := Option.some.inj hm
        exact hsound'
      · intro _ hm
        obtain rfl := Option.some.inj hm
        exact hfollows'
    · rw [hcall, Call.verdict_ok, Call.after_ok]
      apply hgone
      intro sender seq hmem
      rcases List.mem_append.mp hmem with hmem | hmem
      · exact stored_not_mem_deletions sender seq false hmem
      · split_ifs at hmem <;> simp at hmem

theorem reached_kept (hstart : Allocated m₀) (calls : List (UInt64 × MailboxCommand)) :
    Kept (history m₀ calls) (Runs.after attempt (some m₀) calls) := by
  refine Runs.invariant attempt (P := fun calls s => Kept (history m₀ calls) s) ?_ ?_ calls
  · obtain ⟨hsound, hstatus, hframes, hnone, -⟩ := hstart.fresh
    have hfollows : Follows [] m₀ := by
      refine ⟨?_, by simp [MailboxTrace.acked]⟩
      intro owner
      cases owner <;>
        simp [framesOf, Mailbox.member, hframes, hnone, MailboxTrace.retained, MailboxTrace.accepted]
    refine ⟨hfollows.numbered hsound.toRecorded, ?_, ?_⟩
    · intro _ hm
      obtain rfl := Option.some.inj hm
      exact hsound
    · intro _ hm
      obtain rfl := Option.some.inj hm
      exact hfollows
  · intro calls call h
    rw [history_concat]
    exact kept_step h call

/-! ### What the history says about the next call -/

section Next

variable {s : Option Mailbox} {owner : Membership} {a : Accepted}

theorem deliveries_retained (t : MailboxTrace) (recipient owner : Membership) :
    deliveries recipient (t.retained owner) =
      (t.pending owner).map fun a => .deliver recipient a.seq a.body := by
  have hframes : ∀ accepted : List Accepted, (∀ a ∈ accepted, a.owner = owner) →
      deliveries recipient (accepted.map t.record) =
        (accepted.filter fun a => (owner, a.seq) ∉ t.acked).map
          fun a => .deliver recipient a.seq a.body := by
    intro accepted howner
    induction accepted with
    | nil => rfl
    | cons a accepted ih =>
      have hrest := ih fun b hb => howner b (List.mem_cons_of_mem a hb)
      have hhead := howner a List.mem_cons_self
      unfold deliveries at hrest ⊢
      by_cases hacked : (owner, a.seq) ∈ t.acked
      · simp [hrest, MailboxTrace.record, hhead, hacked]
      · simp [hrest, MailboxTrace.record, hhead, hacked]
  exact hframes _ fun a ha => t.owner_of_mem ha

/-- Every open of a live mailbox delivers what is pending, in order. -/
theorem Follows.openMailbox (h : Follows t m) (hlive : m.status.isTerminal = false)
    {membership : Membership} {hash : MembershipHash}
    (hhash : m.membershipForHash hash = some membership) :
    m.command (.openMailbox hash) = .ok ⟨some m, .opened membership m.expiresAt ::
      (t.pending membership.opposite).map fun a => .deliver membership a.seq a.body⟩ := by
  have hframes := h.frames membership.opposite
  rw [hlive] at hframes
  have hdeliveries := deliveries_retained t membership membership.opposite
  simp only [Bool.false_eq_true, if_false] at hframes
  rw [← hdeliveries, ← hframes]
  simp [command, Mailbox.openMailbox, hhash, framesOf]

/-- The record an accepted frame has in a live mailbox. -/
theorem Follows.record (h : Follows t m) (hrecorded : m.Recorded)
    (hlive : m.status.isTerminal = false) (ha : a ∈ t.accepted owner) :
    ∃ member, m.member owner = some member ∧ a.seq < member.nextSeq ∧
      member.frames.find? (·.seq == a.seq) = some (t.record a) ∧ Admissible a.body := by
  have hframes := h.frames owner
  rw [hlive] at hframes
  simp only [Bool.false_eq_true, if_false] at hframes
  have hmem : t.record a ∈ m.framesOf owner := by
    rw [hframes]
    exact List.mem_map_of_mem ha
  cases hmember : m.member owner with
  | none => simp [framesOf, hmember] at hmem
  | some member =>
    rw [framesOf_of_member hmember] at hmem
    have hsound := hrecorded.member hmember
    have hnodup := hrecorded.seqs_nodup owner
    rw [framesOf_of_member hmember] at hnodup
    refine ⟨member, rfl, ?_, ?_, ?_⟩
    · have hrange : (t.record a).seq.toNat ∈ member.frames.map fun f => f.seq.toNat :=
        List.mem_map_of_mem hmem
      rw [hsound.numbered, List.mem_range] at hrange
      rw [UInt8.lt_iff_toNat_lt, hsound.next]
      exact hrange
    · cases hfind : member.frames.find? (·.seq == a.seq) with
      | none => exact absurd (List.find?_eq_none.mp hfind _ hmem) (by simp [MailboxTrace.record])
      | some f =>
        have hf := List.mem_of_find?_eq_some hfind
        have hseq : f.seq = (t.record a).seq := by
          simpa [MailboxTrace.record] using List.find?_some hfind
        rw [List.inj_on_of_nodup_map hnodup hf hmem hseq]
    · have hframe := hsound.frames _ hmem
      exact ⟨List.length_pos_iff.mp hframe.pos, hframe.le⟩

theorem Follows.put_again (h : Follows t m) (hrecorded : m.Recorded)
    (hlive : m.status.isTerminal = false) (ha : a ∈ t.accepted owner) :
    m.command (.put owner a.seq a.body) = .ok ⟨some m, [.stored owner a.seq true]⟩ := by
  obtain ⟨member, hmember, hused, hfind, hbody⟩ := h.record hrecorded hlive ha
  have hsize : ¬ (a.body = [] ∨ maxFrameBodyBytes < a.body.length) := by
    rw [not_or, not_lt]
    exact hbody
  simp [command, put, hsize, hmember, hused, hfind, MailboxTrace.record]

theorem Follows.put_other (h : Follows t m) (hrecorded : m.Recorded)
    (hlive : m.status.isTerminal = false) (ha : a ∈ t.accepted owner) {body : Bytes}
    (hbody : Admissible body) (hne : body ≠ a.body)
    (hdigest : a.body.length = body.length → sha256 a.body = sha256 body → a.body = body) :
    m.command (.put owner a.seq body) =
      .ok ⟨some (m.ended .conflict), m.deletions ++ [.terminal .conflict]⟩ := by
  obtain ⟨member, hmember, hused, hfind, -⟩ := h.record hrecorded hlive ha
  have hsize : ¬ (body = [] ∨ maxFrameBodyBytes < body.length) := by
    rw [not_or, not_lt]
    exact hbody
  have hdiffer : ¬ (a.body.length = body.length ∧ sha256 a.body = sha256 body) :=
    fun hsame => hne (hdigest hsame.1 hsame.2).symm
  simp only [command, put, if_neg hsize, hmember, if_pos hused, hfind, MailboxTrace.record,
    if_neg hdiffer]
  exact hrecorded.terminate .conflict

theorem attempt_of_command {now : UInt64} {c : MailboxCommand} (hlive : m.status.isTerminal = false)
    (hnow : now < m.expiresAt) {effects : List MailboxEffect} {m' : Mailbox}
    (h : m.command c = .ok ⟨some m', effects⟩) :
    attempt (now, c) (some m) = .ok effects (some m') := by
  have hstep : m.transition now c = m.command c := by
    unfold transition
    rw [if_neg (UInt64.not_le.mpr hnow)]
    cases hstatus : m.status with
    | terminal reason => simp [hstatus, MailboxStatus.isTerminal] at hlive
    | _ => rfl
  simp [attempt, hstep, h]

/-- A call made in time that a live mailbox answers with no change changes nothing. -/
theorem attempt_unmoved {now : UInt64} {c : MailboxCommand} (hnow : ∀ m ∈ s, now < m.expiresAt)
    (hcommand : ∀ m ∈ s, m.status.isTerminal = false → ∀ next, m.command c = .ok next →
      next.state = some m ∧ ∀ recipient seq body, .deliver recipient seq body ∉ next.effects) :
    Call.after (attempt (now, c) s) = s ∧
      ∀ recipient seq body, .deliver recipient seq body ∉ Runs.effects (attempt (now, c) s) := by
  cases s with
  | none => simp [attempt]
  | some m =>
    have hlive : m.status.isTerminal = false → m.transition now c = m.command c := by
      intro hlive
      unfold transition
      rw [if_neg (UInt64.not_le.mpr (hnow m rfl))]
      cases hstatus : m.status with
      | terminal reason => simp [hstatus, MailboxStatus.isTerminal] at hlive
      | _ => rfl
    cases hterminal : m.status.isTerminal with
    | true =>
      obtain ⟨reason, hstatus⟩ : ∃ reason, m.status = .terminal reason := by
        cases hstatus : m.status with
        | terminal reason => exact ⟨reason, rfl⟩
        | _ => simp [hstatus, MailboxStatus.isTerminal] at hterminal
      have hstep : m.transition now c = .error (.error (.closed reason)) := by
        simp [transition, UInt64.not_le.mpr (hnow m rfl), hstatus]
      simp [attempt, hstep]
    | false =>
      cases hresult : m.command c with
      | error e => simp [attempt, hlive hterminal, hresult]
      | ok next =>
        obtain ⟨hstate, hnone⟩ := hcommand m rfl hterminal next hresult
        simp only [attempt, hlive hterminal, hresult, Call.after_ok, Runs.effects_ok]
        exact ⟨hstate, hnone⟩

omit [Primitives] in
theorem setMember_self {member : MemberState} (h : m.member owner = some member) :
    m.setMember owner member = m := by
  cases owner with
  | allocator =>
    obtain rfl := Option.some.inj h
    rfl
  | claimant =>
    have hclaimant : m.claimant = some member := h
    show { m with claimant := m.claimant.map fun _ => member } = m
    rw [hclaimant, Option.map_some, ← hclaimant]

omit [Primitives] in
theorem dropBody_of_none {frames : List FrameRecord} {f : FrameRecord} {seq : UInt8}
    (h : frames.find? (·.seq == seq) = some f) (hbody : f.body = none) :
    dropBody seq frames = frames := by
  induction frames with
  | nil => rfl
  | cons g frames ih =>
    unfold dropBody
    by_cases hseq : g.seq = seq
    · obtain rfl : g = f := by simpa [hseq] using h
      rw [if_pos hseq, ← hbody]
    · rw [if_neg hseq, ih (by simpa [hseq] using h)]

theorem Follows.ack_again (h : Follows t m) (hrecorded : m.Recorded)
    (hlive : m.status.isTerminal = false) {seq : UInt8} (hacked : (owner, seq) ∈ t.acked)
    {next : MailboxTransition} (hnext : m.command (.ack owner.opposite seq) = .ok next) :
    next = ⟨some m, []⟩ := by
  obtain ⟨a, ha, rfl⟩ := List.mem_map.mp (h.acked owner seq hacked)
  obtain ⟨member, hmember, -, hfind, -⟩ := h.record hrecorded hlive ha
  have hbody : (t.record a).body = none := by
    simp [MailboxTrace.record, t.owner_of_mem ha, hacked]
  have hopposite : owner.opposite.opposite = owner := by cases owner <;> rfl
  have hdropped : { member with frames := dropBody a.seq member.frames } = member := by
    rw [dropBody_of_none hfind hbody]
  unfold command ack at hnext
  dsimp only at hnext
  rw [hopposite, Calls.guard_eq_ok] at hnext
  have hnext := hnext.2
  simp only [hmember, hfind, hbody, hdropped, setMember_self hmember, Except.ok.injEq] at hnext
  exact hnext.symm

theorem put_gap (body : Bytes) (hrecorded : m.Recorded) {seq : UInt8}
    (hgap : (m.framesOf owner).length < seq.toNat) :
    ∃ e, m.command (.put owner seq body) = .error e := by
  unfold command put
  dsimp only
  by_cases hsize : body = [] ∨ maxFrameBodyBytes < body.length
  · rw [if_pos hsize]
    exact ⟨_, rfl⟩
  rw [if_neg hsize]
  cases hmember : m.member owner with
  | none => exact ⟨_, rfl⟩
  | some member =>
    rw [framesOf_of_member hmember, ← (hrecorded.member hmember).next] at hgap
    have hlt : member.nextSeq < seq := UInt8.lt_iff_toNat_lt.mpr hgap
    have hnot : ¬ seq < member.nextSeq := UInt8.not_lt.mpr (UInt8.le_of_lt hlt)
    simp [hnot, hlt]

end Next

/-- What the calls made so far say about the next one. -/
structure Delivers (t : MailboxTrace) (s : Option Mailbox) : Prop where
  /-- A member's new sequences count up from zero. -/
  numbered : ∀ owner, (t.accepted owner).map (fun a => a.seq.toNat) =
    List.range (t.accepted owner).length
  /-- A delivery is of the one frame its owner had accepted under the sequence, to the
  other member, while the mailbox is live and the frame is not acknowledged. -/
  delivered : ∀ call recipient seq body,
    .deliver recipient seq body ∈ Runs.effects (attempt call s) →
    let accepted := MailboxTrace.accepted (t ++ [(call, Call.verdict (attempt call s))])
      recipient.opposite
    ⟨recipient.opposite, seq, body⟩ ∈ accepted ∧ (∀ a ∈ accepted, a.seq = seq → a.body = body) ∧
      (recipient.opposite, seq) ∉ t.acked ∧
      ∃ m, s = some m ∧ m.status.isTerminal = false ∧ call.1 < m.expiresAt
  /-- An open delivers every accepted frame that is not acknowledged, in order. -/
  reopened : ∀ m now hash membership, s = some m → m.status.isTerminal = false →
    now < m.expiresAt → m.membershipForHash hash = some membership →
    attempt (now, .openMailbox hash) s = .ok (.opened membership m.expiresAt ::
      (t.pending membership.opposite).map fun a => .deliver membership a.seq a.body) s
  /-- An exact retry changes and delivers nothing. -/
  retried : ∀ now owner, ∀ a ∈ t.accepted owner, (∀ m ∈ s, now < m.expiresAt) →
    Call.after (attempt (now, .put owner a.seq a.body) s) = s ∧ ∀ recipient seq body,
      .deliver recipient seq body ∉ Runs.effects (attempt (now, .put owner a.seq a.body) s)
  /-- A repeated acknowledgement changes and delivers nothing. -/
  reacked : ∀ now owner seq, (owner, seq) ∈ t.acked → (∀ m ∈ s, now < m.expiresAt) →
    Call.after (attempt (now, .ack owner.opposite seq) s) = s ∧ ∀ recipient other body,
      .deliver recipient other body ∉ Runs.effects (attempt (now, .ack owner.opposite seq) s)
  /-- Another body under a used sequence ends the mailbox. -/
  conflicting : ∀ m now owner, ∀ a ∈ t.accepted owner, ∀ body, s = some m →
    m.status.isTerminal = false → now < m.expiresAt → Admissible body → body ≠ a.body →
    (a.body.length = body.length → sha256 a.body = sha256 body → a.body = body) →
    attempt (now, .put owner a.seq body) s =
      .ok (m.deletions ++ [.terminal .conflict]) (some (m.ended .conflict))
  /-- A sequence beyond the next one changes nothing. -/
  skipped : ∀ now owner seq body, (t.accepted owner).length < seq.toNat →
    (∀ m ∈ s, now < m.expiresAt) → Call.after (attempt (now, .put owner seq body) s) = s

/-- A delivery is of a frame that is pending, or that the call itself had accepted. -/
theorem Moves.delivered {now : UInt64} {c : MailboxCommand} {effects : List MailboxEffect}
    {m' : Mailbox} (hmoves : Moves m c effects m') (h : Follows t m) (hrecorded : m.Recorded)
    (hlive : m.status.isTerminal = false) {recipient : Membership} {seq : UInt8} {body : Bytes}
    (hmem : .deliver recipient seq body ∈ effects) :
    (recipient.opposite, seq) ∉ t.acked ∧ ⟨recipient.opposite, seq, body⟩ ∈
      MailboxTrace.accepted (t ++ [((now, c), .ok effects)]) recipient.opposite := by
  cases hmoves with
  | claimed => simp at hmem
  | claimedV2 => simp at hmem
  | repeated => simp at hmem
  | acknowledged => split_ifs at hmem <;> simp at hmem
  | ended => simp [deliver_not_mem_deletions] at hmem
  | @opened hash membership hhash =>
    have hframes := h.frames membership.opposite
    rw [hlive] at hframes
    simp only [Bool.false_eq_true, if_false] at hframes
    rw [hframes, deliveries_retained, List.mem_cons] at hmem
    obtain hmem | hmem := hmem
    · cases hmem
    obtain ⟨a, ha, hdeliver⟩ := List.mem_map.mp hmem
    obtain ⟨rfl, rfl, rfl⟩ := MailboxEffect.deliver.inj hdeliver
    obtain ⟨haccepted, hacked⟩ := List.mem_filter.mp ha
    rw [t.accepted_concat_none rfl]
    have howner := t.owner_of_mem haccepted
    have ha : (⟨membership.opposite, a.seq, a.body⟩ : Accepted) = a := by rw [← howner]
    rw [ha]
    exact ⟨by simpa using hacked, haccepted⟩
  | @stored sender member body hbody hmember hroom =>
    rw [List.mem_cons] at hmem
    obtain hmem | hmem := hmem
    · cases hmem
    split_ifs at hmem
    · obtain ⟨rfl, rfl, rfl⟩ := MailboxEffect.deliver.inj (List.mem_singleton.mp hmem)
      have hopposite : sender.opposite.opposite = sender := by cases sender <;> rfl
      rw [hopposite]
      refine ⟨h.fresh hrecorded hmember, ?_⟩
      rw [t.accepted_concat_some (a := ⟨sender, member.nextSeq, body⟩)
        (by simp [MailboxTrace.acceptance])]
      simp
    · simp at hmem

omit [Primitives] in
/-- Two accepted frames of a member with one sequence are one frame. -/
theorem eq_of_numbered {accepted : List Accepted}
    (h : accepted.map (fun a => a.seq.toNat) = List.range accepted.length) {a b : Accepted}
    (ha : a ∈ accepted) (hb : b ∈ accepted) (hseq : a.seq = b.seq) : a = b := by
  have hnodup : (accepted.map fun a => a.seq.toNat).Nodup := by
    rw [h]
    exact List.nodup_range
  exact List.inj_on_of_nodup_map hnodup ha hb (by rw [hseq])

theorem Kept.delivered {s : Option Mailbox} (h : Kept t s) (call : UInt64 × MailboxCommand)
    {recipient : Membership} {seq : UInt8} {body : Bytes}
    (hmem : .deliver recipient seq body ∈ Runs.effects (attempt call s)) :
    ⟨recipient.opposite, seq, body⟩ ∈ MailboxTrace.accepted
        (t ++ [(call, Call.verdict (attempt call s))]) recipient.opposite ∧
      (recipient.opposite, seq) ∉ t.acked ∧
      ∃ m, s = some m ∧ m.status.isTerminal = false ∧ call.1 < m.expiresAt := by
  cases s with
  | none => simp [attempt] at hmem
  | some m =>
    have hrecorded := (h.sound m rfl).toRecorded
    obtain ⟨e, hcall⟩ | ⟨hnow, hlive, effects, m', hcall, hmoves⟩ | ⟨-, hcall⟩ :=
      attempt_some hrecorded call
    · simp [hcall] at hmem
    · rw [hcall, Runs.effects_ok] at hmem
      rw [hcall, Call.verdict_ok]
      obtain ⟨hacked, haccepted⟩ := hmoves.delivered (h.follows m rfl) hrecorded hlive hmem
      exact ⟨haccepted, hacked, m, rfl, hlive, hnow⟩
    · rw [hcall, Runs.effects_ok, List.mem_append] at hmem
      obtain hmem | hmem := hmem
      · exact absurd hmem (deliver_not_mem_deletions recipient seq body)
      · split_ifs at hmem <;> simp at hmem

theorem Kept.delivers {s : Option Mailbox} (h : Kept t s) : Delivers t s where
  numbered := h.numbered
  delivered := by
    intro call recipient seq body hmem
    obtain ⟨haccepted, hacked, hlive⟩ := h.delivered call hmem
    refine ⟨haccepted, ?_, hacked, hlive⟩
    intro a ha hseq
    rw [eq_of_numbered ((kept_step h call).numbered _) ha haccepted hseq]
  reopened := by
    rintro m now hash membership rfl hlive hnow hhash
    exact attempt_of_command hlive hnow ((h.follows m rfl).openMailbox hlive hhash)
  retried := by
    intro now owner a ha hnow
    apply attempt_unmoved hnow
    intro m hm hlive next hnext
    rw [(h.follows m hm).put_again (h.sound m hm).toRecorded hlive ha] at hnext
    obtain rfl := Except.ok.inj hnext
    simp
  reacked := by
    intro now owner seq hacked hnow
    apply attempt_unmoved hnow
    intro m hm hlive next hnext
    rw [(h.follows m hm).ack_again (h.sound m hm).toRecorded hlive hacked hnext]
    simp
  conflicting := by
    rintro m now owner a ha body rfl hlive hnow hbody hne hdigest
    exact attempt_of_command hlive hnow
      ((h.follows m rfl).put_other (h.sound m rfl).toRecorded hlive ha hbody hne hdigest)
  skipped := by
    intro now owner seq body hgap hnow
    refine (attempt_unmoved hnow ?_).1
    intro m hm _ next hnext
    have hlength := congrArg List.length ((h.follows m hm).numbers owner)
    simp only [List.length_map] at hlength
    rw [← hlength] at hgap
    obtain ⟨e, herror⟩ := put_gap body (h.sound m hm).toRecorded hgap
    rw [hnext] at herror
    cases herror

/-- Delivery is immutable and at least once, over every run of commands. -/
theorem delivery_at_least_once (hstart : Allocated m₀)
    (calls : List (UInt64 × MailboxCommand)) :
    Delivers (history m₀ calls) (Runs.after attempt (some m₀) calls) :=
  (reached_kept hstart calls).delivers

end Mailbox
end CbclPairing

namespace CbclPairing
open Codec Calls

attribute [local instance] Primitives.transparent

theorem Mailbox.delivery_at_least_once_sample :
    let calls : List (UInt64 × MailboxCommand) := [(1, .claim (fill 32 [3])),
      (2, .put .allocator 0 [4]), (3, .put .claimant 0 [5, 6]), (4, .ack .claimant 0)]
    Delivers (history Mailbox.sample calls) (Runs.after attempt (some Mailbox.sample) calls) :=
  Mailbox.delivery_at_least_once Mailbox.allocate_sample _

/-- A put of another body under a used sequence need not end the mailbox: one of an
inadmissible size is refused, and the mailbox stays as it was. -/
theorem Mailbox.inadmissible_put_no_conflict :
    let s := Runs.after attempt (some Mailbox.sample) [(1, .put .allocator 0 [4])]
    ⟨.allocator, 0, [4]⟩ ∈ (history Mailbox.sample [(1, .put .allocator 0 [4])]).accepted
        .allocator ∧
      attempt (2, .put .allocator 0 []) s = .error (.error .bodySize) s ∧
      s.map Mailbox.status = some .waiting := by
  refine ⟨?_, rfl, rfl⟩
  decide

end CbclPairing
