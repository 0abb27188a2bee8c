import CbclPairing.Codec.Octets

/-! Messages on a stream of octets, each behind its length. What a reader makes of a
stream does not depend on the pieces the stream arrives in. -/
namespace Streams
open Codec

/-- How a stream ends: its writer finished it, or it broke. -/
inductive Ending where
  | finished
  | broken
  deriving DecidableEq

/-- What the octets that have arrived come to. -/
inductive Reading where
  | message (octets rest : List UInt8)
  | waiting
  | closed
  | failed
  deriving DecidableEq

/-- A message behind its length in big-endian octets. -/
def framed (width : ℕ) (octets : List UInt8) : List UInt8 :=
  beBytes width octets.length ++ octets

/-- The lengths a reader accepts. -/
def Admissible (maximum : ℕ) (octets : List UInt8) : Prop :=
  0 < octets.length ∧ octets.length ≤ maximum

/-- The length a frame starts with. -/
def announced (width : ℕ) (arrived : List UInt8) : ℕ := ofBe (arrived.take width)

/-- Read one message from what has arrived and not been read. -/
def read (width maximum : ℕ) (arrived : List UInt8) (ending : Option Ending) : Reading :=
  if arrived.length < width then
    match ending with
    | none => .waiting
    | some .finished => .closed
    | some .broken => .failed
  else if announced width arrived = 0 ∨ maximum < announced width arrived then .failed
  else if (arrived.drop width).length < announced width arrived then
    if ending.isSome then .failed else .waiting
  else
    .message ((arrived.drop width).take (announced width arrived))
      ((arrived.drop width).drop (announced width arrived))

section Reading

variable {width maximum : ℕ} {arrived octets rest more : List UInt8} {ending : Option Ending}

@[simp] theorem framed_length (width : ℕ) (octets : List UInt8) :
    (framed width octets).length = width + octets.length := by
  simp [framed]

/-- A stream starts with a message exactly when it starts with a frame. -/
theorem read_eq_message (hwidth : maximum < 256 ^ width) :
    read width maximum arrived ending = .message octets rest ↔
      arrived = framed width octets ++ rest ∧ Admissible maximum octets := by
  constructor
  · intro h
    unfold read at h
    split_ifs at h with hshort hbound hpart
    · split at h <;> cases h
    · obtain ⟨rfl, rfl⟩ := Reading.message.inj h
      have hhead : (arrived.take width).length = width := by
        rw [List.length_take]
        omega
      have hbody : ((arrived.drop width).take (announced width arrived)).length =
          announced width arrived := by
        rw [List.length_take]
        omega
      have hlt : announced width arrived < 256 ^ width := by
        have hlt := ofBe_lt (arrived.take width)
        rwa [hhead] at hlt
      have hbytes : beBytes width (announced width arrived) = arrived.take width := by
        apply ofBe_injective (by simp [hhead])
        exact ofBe_beBytes hlt
      refine ⟨?_, ?_⟩
      · rw [framed, hbody, hbytes, List.append_assoc, List.take_append_drop,
          List.take_append_drop]
      · rw [Admissible, hbody]
        omega
  · rintro ⟨rfl, hpos, hmax⟩
    have hdrop : (framed width octets ++ rest).drop width = octets ++ rest := by
      rw [framed, List.append_assoc, List.drop_left' (beBytes_length _ _)]
    have hlength : announced width (framed width octets ++ rest) = octets.length := by
      rw [announced, framed, List.append_assoc, List.take_left' (beBytes_length _ _),
        ofBe_beBytes (hmax.trans_lt hwidth)]
    have hlong : ¬(framed width octets ++ rest).length < width := by
      rw [List.length_append, framed_length]
      omega
    unfold read
    rw [if_neg hlong, hlength, hdrop, if_neg (by omega), if_neg (by simp), List.take_left,
      List.drop_left]

/-- A message that has arrived is read whatever arrives behind it. -/
theorem read_message_append (h : read width maximum arrived ending = .message octets rest)
    (hwidth : maximum < 256 ^ width) (more : List UInt8) (ending' : Option Ending) :
    read width maximum (arrived ++ more) ending' = .message octets (rest ++ more) := by
  obtain ⟨rfl, hadmissible⟩ := (read_eq_message hwidth).mp h
  exact (read_eq_message hwidth).mpr ⟨List.append_assoc _ _ _, hadmissible⟩

/-- A length that is refused is refused whatever arrives behind it. -/
theorem read_failed_append (h : read width maximum arrived none = .failed) (more : List UInt8)
    (ending : Option Ending) : read width maximum (arrived ++ more) ending = .failed := by
  unfold read at h
  split_ifs at h with hshort hbound hpart hended
  · have hlong : ¬(arrived ++ more).length < width := by
      rw [List.length_append]
      omega
    have hsame : announced width (arrived ++ more) = announced width arrived := by
      rw [announced, List.take_append_of_le_length (by omega)]
      rfl
    unfold read
    rw [if_neg hlong, hsame, if_pos hbound]
  · cases hended

end Reading

/-! ### All messages of a stream -/

/-- Read as many messages as a number of turns gives; what is left is not read. -/
def readAll (width maximum : ℕ) : ℕ → List UInt8 → List (List UInt8) × List UInt8
  | 0, arrived => ([], arrived)
  | turns + 1, arrived =>
    match read width maximum arrived none with
    | .message octets rest =>
      let (messages, tail) := readAll width maximum turns rest
      (octets :: messages, tail)
    | _ => ([], arrived)

/-- Every message that has arrived in full. A message takes at least one octet, so there
are turns enough. -/
def messages (width maximum : ℕ) (arrived : List UInt8) : List (List UInt8) :=
  (readAll width maximum arrived.length arrived).1

section All

variable {width maximum : ℕ} {arrived tail : List UInt8} {sent : List (List UInt8)}

/-- The frames of some messages, one behind another. -/
def frames (width : ℕ) (sent : List (List UInt8)) : List UInt8 := sent.flatMap (framed width)

@[simp] theorem frames_nil (width : ℕ) : frames width [] = [] := rfl

@[simp] theorem frames_cons (width : ℕ) (octets : List UInt8) (sent : List (List UInt8)) :
    frames width (octets :: sent) = framed width octets ++ frames width sent := rfl

@[simp] theorem frames_append (width : ℕ) (sent more : List (List UInt8)) :
    frames width (sent ++ more) = frames width sent ++ frames width more := by
  simp [frames]

/-- What is read first does not depend on the turns that are left. -/
theorem readAll_frames (hwidth : maximum < 256 ^ width)
    (hsent : ∀ octets ∈ sent, Admissible maximum octets)
    (htail : ∀ octets rest, read width maximum tail none ≠ .message octets rest) :
    ∀ turns, sent.length ≤ turns →
      readAll width maximum turns (frames width sent ++ tail) = (sent, tail) := by
  induction sent with
  | nil =>
    intro turns _
    cases turns with
    | zero => rfl
    | succ turns =>
      rw [frames_nil, List.nil_append, readAll]
      split
      · rename_i octets rest hread
        exact absurd hread (htail octets rest)
      · rfl
  | cons octets sent ih =>
    intro turns hturns
    obtain ⟨turns, rfl⟩ : ∃ n, turns = n + 1 := ⟨turns - 1, by simp at hturns; omega⟩
    have hread : read width maximum (frames width (octets :: sent) ++ tail) none =
        .message octets (frames width sent ++ tail) := by
      rw [frames_cons, List.append_assoc]
      exact (read_eq_message hwidth).mpr ⟨rfl, hsent octets List.mem_cons_self⟩
    rw [readAll, hread]
    dsimp only
    rw [ih (fun o ho => hsent o (List.mem_cons_of_mem octets ho)) turns
      (by simpa using hturns)]

theorem length_le_frames (hsent : ∀ octets ∈ sent, Admissible maximum octets) :
    sent.length ≤ (frames width sent).length := by
  induction sent with
  | nil => simp
  | cons octets sent ih =>
    have hpos := (hsent octets List.mem_cons_self).1
    have hrest := ih fun o ho => hsent o (List.mem_cons_of_mem octets ho)
    rw [frames_cons, List.length_append, framed_length, List.length_cons]
    omega

/-- Frames are read back, and a part of a frame behind them is not. -/
theorem messages_frames (hwidth : maximum < 256 ^ width)
    (hsent : ∀ octets ∈ sent, Admissible maximum octets)
    (htail : ∀ octets rest, read width maximum tail none ≠ .message octets rest) :
    messages width maximum (frames width sent ++ tail) = sent := by
  have hlength : sent.length ≤ (frames width sent).length := length_le_frames hsent
  rw [messages, readAll_frames hwidth hsent htail _ (by rw [List.length_append]; omega)]

/-- A part of a frame that ends before it holds no message. -/
theorem read_of_short (hwidth : maximum < 256 ^ width) {octets : List UInt8}
    (hadmissible : Admissible maximum octets) (h : arrived <+: framed width octets)
    (hne : arrived ≠ framed width octets) (message rest : List UInt8) :
    read width maximum arrived none ≠ .message message rest := by
  intro hread
  obtain ⟨more, hmore⟩ := h
  have hwhole := read_message_append hread hwidth more none
  have hframe : read width maximum (framed width octets) none = .message octets [] :=
    (read_eq_message hwidth).mpr ⟨(List.append_nil _).symm, hadmissible⟩
  rw [hmore, hframe] at hwhole
  have hnil := (Reading.message.inj hwhole).2
  have hnone : more = [] := (List.append_eq_nil_iff.mp hnil.symm).2
  rw [hnone, List.append_nil] at hmore
  exact hne hmore

/-- A part of some frames is whole frames, and a part of the next. -/
theorem prefix_frames (h : arrived <+: frames width sent) :
    ∃ before, before <+: sent ∧ ∃ tail, arrived = frames width before ++ tail ∧
      (before = sent ∧ tail = [] ∨
        ∃ octets ∈ sent, tail <+: framed width octets ∧ tail ≠ framed width octets) := by
  induction sent generalizing arrived with
  | nil =>
    obtain rfl := List.prefix_nil.mp h
    exact ⟨[], List.prefix_rfl, [], rfl, .inl ⟨rfl, rfl⟩⟩
  | cons octets sent ih =>
    rw [frames_cons] at h
    by_cases hwhole : framed width octets <+: arrived
    · obtain ⟨more, rfl⟩ := hwhole
      obtain ⟨before, hbefore, tail, rfl, htail⟩ := ih ((List.prefix_append_right_inj _).mp h)
      refine ⟨octets :: before, (List.prefix_cons_inj octets).mpr hbefore, tail, ?_, ?_⟩
      · rw [frames_cons, List.append_assoc]
      · rcases htail with ⟨rfl, rfl⟩ | ⟨next, hmem, hpart, hne⟩
        · exact .inl ⟨rfl, rfl⟩
        · exact .inr ⟨next, List.mem_cons_of_mem octets hmem, hpart, hne⟩
    · have hpart :=
        (List.prefix_or_prefix_of_prefix h (List.prefix_append _ _)).resolve_right hwhole
      refine ⟨[], List.nil_prefix, arrived, rfl, .inr ⟨octets, List.mem_cons_self, hpart, ?_⟩⟩
      rintro rfl
      exact hwhole List.prefix_rfl

/-- Whatever part of some frames has arrived, the messages it holds in full are read,
and nothing else. -/
theorem messages_of_prefix (hwidth : maximum < 256 ^ width)
    (hsent : ∀ octets ∈ sent, Admissible maximum octets) (h : arrived <+: frames width sent) :
    messages width maximum arrived <+: sent ∧
      frames width (messages width maximum arrived) <+: arrived ∧
      (arrived = frames width sent → messages width maximum arrived = sent) := by
  obtain ⟨before, hbefore, tail, rfl, htail⟩ := prefix_frames h
  have hnone : ∀ octets rest, read width maximum tail none ≠ .message octets rest := by
    rcases htail with ⟨-, rfl⟩ | ⟨next, hmem, hpart, hne⟩
    · intro octets rest hread
      have hframe := ((read_eq_message hwidth).mp hread).1
      have hlength := congrArg List.length hframe
      have hpos := ((read_eq_message hwidth).mp hread).2.1
      rw [List.length_append, framed_length, List.length_nil] at hlength
      omega
    · exact read_of_short hwidth (hsent next hmem) hpart hne
  have hread := messages_frames hwidth (fun o ho => hsent o (hbefore.subset ho)) hnone
  rw [hread]
  refine ⟨hbefore, List.prefix_append _ _, fun hall => ?_⟩
  rcases htail with ⟨rfl, -⟩ | ⟨next, hmem, hpart, hne⟩
  · rfl
  · -- all frames are there, so the part behind the whole ones is frames itself
    obtain ⟨after, rfl⟩ := hbefore
    rw [frames_append, List.append_cancel_left_eq] at hall
    cases after with
    | nil => exact (List.append_nil before).symm
    | cons octets after =>
      have hframe : read width maximum tail none = .message octets (frames width after) := by
        rw [hall, frames_cons]
        exact (read_eq_message hwidth).mpr ⟨rfl, hsent octets (by simp)⟩
      exact absurd hframe (hnone octets _)

end All

end Streams
