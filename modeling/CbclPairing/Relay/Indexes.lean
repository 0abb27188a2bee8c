import CbclPairing.Relay.Service

/-! The index invariant of the relay, and the four updates that keep it. -/
namespace CbclPairing
open Codec Calls Tables

namespace Relay

variable {C L : Type} [Primitives]

/-- Every index of the retained mailboxes is exact. -/
structure Indexed (s : Relay C L) : Prop where
  recorded : ∀ id m, s.mailboxes.lookup id = some m → m.Recorded
  named : ∀ id m, s.mailboxes.lookup id = some m → m.mailboxId = id
  nameplates : ∀ n id, s.nameplates.lookup n = some id ↔
    ∃ m, s.mailboxes.lookup id = some m ∧ m.nameplate = some n
  hashes : ∀ hash, hash ∈ s.membershipHashes ↔
    ∃ id m, s.mailboxes.lookup id = some m ∧ hash ∈ m.membershipHashes
  nodup : ∀ id m, s.mailboxes.lookup id = some m → m.membershipHashes.Nodup
  disjoint : ∀ id m id' m', s.mailboxes.lookup id = some m → s.mailboxes.lookup id' = some m' →
    ∀ hash ∈ m.membershipHashes, hash ∈ m'.membershipHashes → id = id'
  expiries : ∀ expiresAt id, (expiresAt, id) ∈ s.expiries ↔
    ∃ m, s.mailboxes.lookup id = some m ∧ m.expiresAt = expiresAt
  queued : s.queueBytes = Table.total Mailbox.queueBytes s.mailboxes

omit [Primitives] in
/-- The relay is inside its configured caps. -/
structure Capped (s : Relay C L) : Prop where
  size : s.mailboxes.size ≤ s.config.capacity.openMailboxes.toNat
  room : s.queueBytes ≤ s.config.capacity.queueBytes.toNat

omit [Primitives] in
/-- Routes and the memberships of connections are inverse to each other. -/
def Inverse (s : Relay C L) : Prop := ∀ key connection,
  s.routes.lookup key = some connection ↔ s.membershipOf connection = some key

omit [Primitives] in
/-- Routes are inverse to memberships, and lead to retained mailboxes. -/
structure Attached (s : Relay C L) : Prop where
  inverse : s.Inverse
  retained : ∀ key connection, s.routes.lookup key = some connection →
    key.mailboxId ∈ s.mailboxes

/-- The whole invariant of the relay. -/
structure Sound (s : Relay C L) : Prop extends s.Indexed, s.Capped, s.Attached

/-! ### Connections -/

section Connections

variable {s : Relay C L} {connections : Table ConnectionId ConnectionState}

omit [Primitives] in
theorem membershipIn_insert (connection : ConnectionId) (state : ConnectionState)
    (x : ConnectionId) : membershipIn (connections.insert connection state) x =
      if x = connection then state.membership else membershipIn connections x := by
  unfold membershipIn
  rw [Table.lookup_insert_if]
  split_ifs <;> rfl

omit [Primitives] in
theorem membershipIn_set (connection : ConnectionId) (membership : Option SessionMembership)
    (x : ConnectionId) : membershipIn (setMembership connections connection membership) x =
      if x = connection then membership else membershipIn connections x :=
  membershipIn_insert connection _ x

omit [Primitives] in
theorem membershipIn_erase (connection x : ConnectionId) :
    membershipIn (connections.erase connection) x =
      if x = connection then none else membershipIn connections x := by
  unfold membershipIn
  rw [Table.lookup_erase_if]
  split_ifs <;> rfl

omit [Primitives] in
theorem membershipIn_detach (connection x : ConnectionId) :
    membershipIn (detach connections connection) x =
      if x = connection then none else membershipIn connections x := by
  unfold detach
  split_ifs with hknown hx hx
  · rw [membershipIn_set, if_pos hx]
  · rw [membershipIn_set, if_neg hx]
  · subst hx
    simp [membershipIn, Finmap.lookup_eq_none.mpr hknown]
  · rfl

omit [Primitives] in
/-- Dropping the own route of a connection removes exactly that route. -/
theorem lookup_dropRoute (h : s.Attached) (connection : ConnectionId) (k : SessionMembership) :
    (dropRoute s.routes connection (s.membershipOf connection)).lookup k =
      if s.membershipOf connection = some k then none else s.routes.lookup k := by
  cases hkey : s.membershipOf connection with
  | none => simp [dropRoute]
  | some key =>
    have hroute := (h.inverse key connection).mpr hkey
    simp only [dropRoute, hroute, if_true]
    rw [Table.lookup_erase_if]
    simp [eq_comm]

omit [Primitives] in
/-- The routes after a connection attached: it holds the route, and has no other. -/
theorem lookup_attach (h : s.Attached) (connection : ConnectionId) (key k : SessionMembership) :
    (s.attach connection key).routes.lookup k = if k = key then some connection
      else if s.membershipOf connection = some k then none else s.routes.lookup k := by
  have hroutes : (s.attach connection key).routes =
      (dropRoute s.routes connection (s.membershipOf connection)).insert key connection := rfl
  rw [hroutes, Table.lookup_insert_if, lookup_dropRoute h]

omit [Primitives] in
/-- The memberships after a connection attached: whoever held the route is detached. -/
theorem membershipOf_attach (h : s.Attached) (connection : ConnectionId) (key : SessionMembership)
    (x : ConnectionId) : (s.attach connection key).membershipOf x =
      if x = connection then some key
      else if s.membershipOf x = some key then none else s.membershipOf x := by
  have hholder := lookup_dropRoute h connection key
  show membershipIn (setMembership _ connection (some key)) x = _
  rw [membershipIn_set]
  split_ifs with hx hkey
  · rfl
  · -- another connection held the route
    have hroute := (h.inverse key x).mpr hkey
    have hother : s.membershipOf connection ≠ some key := by
      intro hown
      have hsame := (h.inverse key connection).mpr hown
      rw [hroute] at hsame
      exact hx (Option.some.inj hsame)
    rw [if_neg hother, hroute] at hholder
    simp only [hholder, ne_eq, hx, not_false_eq_true, if_true]
    rw [membershipIn_detach, if_pos rfl]
  · have hkept : ∀ holder, (dropRoute s.routes connection (s.membershipOf connection)).lookup key =
        some holder → holder ≠ x := by
      rintro holder hlookup rfl
      rw [hholder] at hlookup
      split_ifs at hlookup
      exact hkey ((h.inverse key holder).mp hlookup)
    cases hlookup : (dropRoute s.routes connection (s.membershipOf connection)).lookup key with
    | none => rfl
    | some holder =>
      dsimp only
      split_ifs
      · rw [membershipIn_detach, if_neg (hkept holder hlookup).symm]
        rfl
      · rfl

omit [Primitives] in
theorem Attached.attach (h : s.Attached) (connection : ConnectionId) {key : SessionMembership}
    (hkey : key.mailboxId ∈ s.mailboxes) : (s.attach connection key).Attached := by
  constructor
  · intro k x
    rw [lookup_attach h, membershipOf_attach h]
    have hinverse := h.inverse k x
    by_cases hx : x = connection
    · subst hx
      by_cases hk : k = key
      · simp [hk]
      · rw [if_neg hk, if_pos rfl]
        split_ifs with hown
        · simp [Ne.symm hk]
        · simp [hinverse, hown, Ne.symm hk]
    · by_cases hk : k = key
      · subst hk
        rw [if_pos rfl, if_neg hx]
        split_ifs with hown
        · simp [Ne.symm hx]
        · simp [Ne.symm hx, hown]
      · rw [if_neg hk, if_neg hx]
        split_ifs with hown hother hother
        · simp
        · have hroute := (h.inverse k connection).mpr hown
          rw [hroute] at hinverse
          simpa [Ne.symm hx] using hinverse
        · simp [hinverse, hother, Ne.symm hk]
        · exact hinverse
  · intro k x hroute
    rw [lookup_attach h] at hroute
    show k.mailboxId ∈ s.mailboxes
    split_ifs at hroute with hk
    · rw [hk]
      exact hkey
    · exact h.retained k x hroute

omit [Primitives] in
theorem lookup_unroute (key k : SessionMembership) :
    (s.unroute key).routes.lookup k = if k = key then none else s.routes.lookup k :=
  Table.lookup_erase_if s.routes key k

omit [Primitives] in
theorem membershipOf_unroute (h : s.Inverse) (key : SessionMembership) (x : ConnectionId) :
    (s.unroute key).membershipOf x =
      if s.membershipOf x = some key then none else s.membershipOf x := by
  have hinverse := h key x
  cases hroute : s.routes.lookup key with
  | none =>
    rw [hroute] at hinverse
    have hother : s.membershipOf x ≠ some key := by simpa using hinverse
    rw [if_neg hother]
    simp [unroute, membershipOf, hroute]
  | some holder =>
    have hmembers : (s.unroute key).membershipOf x =
        if x = holder then none else s.membershipOf x := by
      simp only [unroute, membershipOf, hroute]
      exact membershipIn_detach holder x
    rw [hroute, Option.some.injEq] at hinverse
    rw [hmembers]
    by_cases hx : x = holder
    · rw [if_pos hx, if_pos (hinverse.mp hx.symm)]
    · rw [if_neg hx, if_neg (mt hinverse.mpr (Ne.symm hx))]

omit [Primitives] in
theorem Inverse.unroute (h : s.Inverse) (key : SessionMembership) : (s.unroute key).Inverse := by
  intro k x
  rw [lookup_unroute, membershipOf_unroute h]
  have hinverse := h k x
  by_cases hk : k = key
  · subst hk
    rw [if_pos rfl]
    split_ifs with hown
    · simp
    · simp [hown]
  · rw [if_neg hk]
    split_ifs with hown
    · simp [hinverse, hown, Ne.symm hk]
    · exact hinverse

end Connections

/-! ### Mailboxes -/

section Mailboxes

variable {s : Relay C L} {id : Octets 32} {m m' : Mailbox}

/-- A mailbox that may stand under an identifier: it clashes with no other mailbox, and
extends what it replaces. -/
structure Fits (s : Relay C L) (id : Octets 32) (m : Mailbox) : Prop where
  recorded : m.Recorded
  named : m.mailboxId = id
  nodup : m.membershipHashes.Nodup
  extends_ : ∀ old, s.mailboxes.lookup id = some old → old.nameplate = m.nameplate ∧
    old.expiresAt = m.expiresAt ∧ ∀ hash ∈ old.membershipHashes, hash ∈ m.membershipHashes
  nameplate : ∀ n ∈ m.nameplate, ∀ j, s.nameplates.lookup n = some j → j = id
  hashes : ∀ hash ∈ m.membershipHashes, hash ∈ s.membershipHashes →
    ∃ old, s.mailboxes.lookup id = some old ∧ hash ∈ old.membershipHashes

/-- Putting a fitting mailbox into every index keeps them exact. -/
theorem Indexed.insert {s' : Relay C L} (h : s.Indexed) (hm : Fits s id m)
    (hmailboxes : s'.mailboxes = s.mailboxes.insert id m)
    (hnameplates : ∀ n, s'.nameplates.lookup n =
      if m.nameplate = some n then some id else s.nameplates.lookup n)
    (hhashes : ∀ hash, hash ∈ s'.membershipHashes ↔
      hash ∈ m.membershipHashes ∨ hash ∈ s.membershipHashes)
    (hexpiries : ∀ entry, entry ∈ s'.expiries ↔ entry = (m.expiresAt, id) ∨ entry ∈ s.expiries)
    (hqueue : s'.queueBytes = Table.total Mailbox.queueBytes s'.mailboxes) : s'.Indexed := by
  have hlookup : ∀ j, s'.mailboxes.lookup j = if j = id then some m else s.mailboxes.lookup j := by
    intro j
    rw [hmailboxes]
    exact Table.lookup_insert_if s.mailboxes id j m
  have hnew : s'.mailboxes.lookup id = some m := by rw [hlookup, if_pos rfl]
  -- whatever is retained after is the new mailbox or was retained before
  have hcases : ∀ j m', s'.mailboxes.lookup j = some m' →
      (j = id ∧ m' = m) ∨ (j ≠ id ∧ s.mailboxes.lookup j = some m') := by
    intro j m' hj
    rw [hlookup] at hj
    split_ifs at hj with hid
    · exact .inl ⟨hid, (Option.some.inj hj).symm⟩
    · exact .inr ⟨hid, hj⟩
  have hclash : ∀ j m', j ≠ id → s.mailboxes.lookup j = some m' →
      ∀ hash ∈ m.membershipHashes, hash ∉ m'.membershipHashes := by
    intro j m' hne hj hash hmem hmem'
    obtain ⟨old, hold, hmem⟩ := hm.hashes hash hmem ((h.hashes hash).mpr ⟨j, m', hj, hmem'⟩)
    exact hne (h.disjoint j m' id old hj hold hash hmem' hmem)
  refine ⟨?_, ?_, ?_, ?_, ?_, ?_, ?_, hqueue⟩
  · intro j m' hj
    obtain ⟨-, rfl⟩ | ⟨-, hj'⟩ := hcases j m' hj
    · exact hm.recorded
    · exact h.recorded j m' hj'
  · intro j m' hj
    obtain ⟨rfl, rfl⟩ | ⟨-, hj'⟩ := hcases j m' hj
    · exact hm.named
    · exact h.named j m' hj'
  · intro n j
    rw [hnameplates]
    split_ifs with hn
    · constructor
      · intro hj
        obtain rfl := Option.some.inj hj
        exact ⟨m, hnew, hn⟩
      · rintro ⟨m', hj, hm'⟩
        obtain ⟨rfl, -⟩ | ⟨-, hj'⟩ := hcases j m' hj
        · rfl
        · have hused := (h.nameplates n j).mpr ⟨m', hj', hm'⟩
          rw [hm.nameplate n hn j hused]
    · rw [h.nameplates n j]
      constructor
      · rintro ⟨m', hj, hm'⟩
        by_cases hid : j = id
        · subst hid
          exact absurd ((hm.extends_ m' hj).1.symm.trans hm') hn
        · exact ⟨m', by rw [hlookup, if_neg hid]; exact hj, hm'⟩
      · rintro ⟨m', hj, hm'⟩
        obtain ⟨-, rfl⟩ | ⟨-, hj'⟩ := hcases j m' hj
        · exact absurd hm' hn
        · exact ⟨m', hj', hm'⟩
  · intro hash
    rw [hhashes, h.hashes]
    constructor
    · rintro (hmem | ⟨j, m', hj, hmem⟩)
      · exact ⟨id, m, hnew, hmem⟩
      · by_cases hid : j = id
        · subst hid
          exact ⟨j, m, hnew, (hm.extends_ m' hj).2.2 hash hmem⟩
        · exact ⟨j, m', by rw [hlookup, if_neg hid]; exact hj, hmem⟩
    · rintro ⟨j, m', hj, hmem⟩
      obtain ⟨-, rfl⟩ | ⟨-, hj'⟩ := hcases j m' hj
      · exact .inl hmem
      · exact .inr ⟨j, m', hj', hmem⟩
  · intro j m' hj
    obtain ⟨-, rfl⟩ | ⟨-, hj'⟩ := hcases j m' hj
    · exact hm.nodup
    · exact h.nodup j m' hj'
  · intro j₁ m₁ j₂ m₂ hj₁ hj₂ hash hmem₁ hmem₂
    obtain ⟨hid₁, hm₁⟩ | ⟨hid₁, hj₁'⟩ := hcases j₁ m₁ hj₁
    · obtain ⟨hid₂, -⟩ | ⟨hid₂, hj₂'⟩ := hcases j₂ m₂ hj₂
      · rw [hid₁, hid₂]
      · rw [hm₁] at hmem₁
        exact absurd hmem₂ (hclash j₂ m₂ hid₂ hj₂' hash hmem₁)
    · obtain ⟨-, hm₂⟩ | ⟨-, hj₂'⟩ := hcases j₂ m₂ hj₂
      · rw [hm₂] at hmem₂
        exact absurd hmem₁ (hclash j₁ m₁ hid₁ hj₁' hash hmem₂)
      · exact h.disjoint j₁ m₁ j₂ m₂ hj₁' hj₂' hash hmem₁ hmem₂
  · intro e j
    rw [hexpiries, h.expiries, Prod.mk.injEq]
    constructor
    · rintro (⟨rfl, rfl⟩ | ⟨m', hj, hm'⟩)
      · exact ⟨m, hnew, rfl⟩
      · by_cases hid : j = id
        · subst hid
          exact ⟨m, hnew, (hm.extends_ m' hj).2.1.symm.trans hm'⟩
        · exact ⟨m', by rw [hlookup, if_neg hid]; exact hj, hm'⟩
    · rintro ⟨m', hj, hm'⟩
      obtain ⟨hid, rfl⟩ | ⟨-, hj'⟩ := hcases j m' hj
      · exact .inl ⟨hm'.symm, hid⟩
      · exact .inr ⟨m', hj', hm'⟩

/-- Taking a mailbox out of every index keeps them exact. -/
theorem Indexed.erase {s' : Relay C L} (h : s.Indexed) (hm : s.mailboxes.lookup id = some m)
    (hmailboxes : s'.mailboxes = s.mailboxes.erase id)
    (hnameplates : ∀ n, s'.nameplates.lookup n =
      if m.nameplate = some n then none else s.nameplates.lookup n)
    (hhashes : ∀ hash, hash ∈ s'.membershipHashes ↔
      hash ∈ s.membershipHashes ∧ hash ∉ m.membershipHashes)
    (hexpiries : ∀ entry, entry ∈ s'.expiries ↔ entry ≠ (m.expiresAt, id) ∧ entry ∈ s.expiries)
    (hqueue : s'.queueBytes = Table.total Mailbox.queueBytes s'.mailboxes) : s'.Indexed := by
  have hlookup : ∀ j, s'.mailboxes.lookup j = if j = id then none else s.mailboxes.lookup j := by
    intro j
    rw [hmailboxes]
    exact Table.lookup_erase_if s.mailboxes id j
  have hiff : ∀ j m', s'.mailboxes.lookup j = some m' ↔ j ≠ id ∧ s.mailboxes.lookup j = some m' := by
    intro j m'
    rw [hlookup]
    split_ifs with hid <;> simp [hid]
  refine ⟨?_, ?_, ?_, ?_, ?_, ?_, ?_, hqueue⟩
  · intro j m' hj
    exact h.recorded j m' ((hiff j m').mp hj).2
  · intro j m' hj
    exact h.named j m' ((hiff j m').mp hj).2
  · intro n j
    rw [hnameplates]
    split_ifs with hn
    · constructor
      · intro hj
        cases hj
      · rintro ⟨m', hj, hm'⟩
        obtain ⟨hne, hj⟩ := (hiff j m').mp hj
        have hother := (h.nameplates n j).mpr ⟨m', hj, hm'⟩
        rw [(h.nameplates n id).mpr ⟨m, hm, hn⟩] at hother
        exact absurd (Option.some.inj hother).symm hne
    · rw [h.nameplates n j]
      constructor
      · rintro ⟨m', hj, hm'⟩
        refine ⟨m', (hiff j m').mpr ⟨?_, hj⟩, hm'⟩
        rintro rfl
        rw [hm] at hj
        obtain rfl := Option.some.inj hj
        exact hn hm'
      · rintro ⟨m', hj, hm'⟩
        exact ⟨m', ((hiff j m').mp hj).2, hm'⟩
  · intro hash
    rw [hhashes, h.hashes]
    constructor
    · rintro ⟨⟨j, m', hj, hmem⟩, hnot⟩
      refine ⟨j, m', (hiff j m').mpr ⟨?_, hj⟩, hmem⟩
      rintro rfl
      rw [hm] at hj
      obtain rfl := Option.some.inj hj
      exact hnot hmem
    · rintro ⟨j, m', hj, hmem⟩
      obtain ⟨hne, hj⟩ := (hiff j m').mp hj
      exact ⟨⟨j, m', hj, hmem⟩, fun hmem' => hne (h.disjoint j m' id m hj hm hash hmem hmem')⟩
  · intro j m' hj
    exact h.nodup j m' ((hiff j m').mp hj).2
  · intro j₁ m₁ j₂ m₂ hj₁ hj₂
    exact h.disjoint j₁ m₁ j₂ m₂ ((hiff j₁ m₁).mp hj₁).2 ((hiff j₂ m₂).mp hj₂).2
  · intro e j
    rw [hexpiries, h.expiries, ne_eq, Prod.mk.injEq]
    constructor
    · rintro ⟨hne, m', hj, hm'⟩
      refine ⟨m', (hiff j m').mpr ⟨?_, hj⟩, hm'⟩
      rintro rfl
      rw [hm] at hj
      obtain rfl := Option.some.inj hj
      exact hne ⟨hm'.symm, rfl⟩
    · rintro ⟨m', hj, hm'⟩
      obtain ⟨hne, hj⟩ := (hiff j m').mp hj
      exact ⟨fun hsame => hne hsame.2, m', hj, hm'⟩

end Mailboxes

end Relay
end CbclPairing
