import Mathlib.Data.List.Basic
import Mathlib.Tactic.Ring

/-! Octet strings of fixed length, big-endian integers, and a cursor that reads
a hand-written binary layout from the front of its input. -/
namespace Codec

/-- An octet string whose length is part of its type. -/
abbrev Octets (n : ℕ) := {bytes : List UInt8 // bytes.length = n}

namespace Octets

@[simp] theorem length_val {n : ℕ} (x : Octets n) : x.val.length = n := x.property

def replicate (n : ℕ) (b : UInt8) : Octets n := ⟨List.replicate n b, List.length_replicate⟩

/-- The conversion of a slice into an array: it succeeds on the exact length only. -/
def ofList? (n : ℕ) (bytes : List UInt8) : Option (Octets n) :=
  if h : bytes.length = n then some ⟨bytes, h⟩ else none

@[simp] theorem ofList?_val {n : ℕ} (x : Octets n) : ofList? n x.val = some x := by
  simp [ofList?]

theorem ofList?_eq_some {n : ℕ} {bytes : List UInt8} {x : Octets n} :
    ofList? n bytes = some x ↔ bytes = x.val := by
  unfold ofList?
  split
  · constructor
    · intro h
      exact congrArg Subtype.val (Option.some.inj h)
    · rintro rfl
      rfl
  next hl =>
    refine ⟨fun h => by simp at h, ?_⟩
    rintro rfl
    exact absurd x.property hl

end Octets

/-- What holds of every octet can be evaluated. -/
instance decidableForallOctet {p : UInt8 → Prop} [DecidablePred p] : Decidable (∀ b, p b) :=
  decidable_of_iff (∀ n : Fin 256, p (UInt8.ofNat n))
    ⟨fun h b => by simpa using h ⟨b.toNat, b.toNat_lt⟩, fun h n => h (UInt8.ofNat n)⟩

/-- The octets of an ASCII literal. -/
def ascii (s : String) : List UInt8 := s.toList.map fun c => UInt8.ofNat c.toNat

/-- The `n` low-order octets of `x`, most significant first. -/
def beBytes : ℕ → ℕ → List UInt8
  | 0, _ => []
  | n + 1, x => UInt8.ofNat (x / 256 ^ n) :: beBytes n x

@[simp] theorem beBytes_length (n x : ℕ) : (beBytes n x).length = n := by
  induction n with
  | zero => rfl
  | succ n ih => simp [beBytes, ih]

theorem length_counted (iv : Octets 12) (counter : UInt64) :
    (iv.val.take 4 ++
      List.zipWith (· ^^^ ·) (iv.val.drop 4) (beBytes 8 counter.toNat)).length = 12 := by
  simp

def ofBeAcc (acc : ℕ) (bytes : List UInt8) : ℕ :=
  bytes.foldl (fun acc b => acc * 256 + b.toNat) acc

/-- The integer a big-endian octet string denotes. -/
def ofBe (bytes : List UInt8) : ℕ := ofBeAcc 0 bytes

theorem ofBeAcc_beBytes (n x acc : ℕ) :
    ofBeAcc acc (beBytes n x) = acc * 256 ^ n + x % 256 ^ n := by
  induction n generalizing acc with
  | zero => simp [beBytes, ofBeAcc, Nat.mod_one]
  | succ n ih =>
    have hstep : ofBeAcc acc (beBytes (n + 1) x) =
        ofBeAcc (acc * 256 + x / 256 ^ n % 256) (beBytes n x) := by
      simp [beBytes, ofBeAcc]
    have hmod : x % 256 ^ (n + 1) = x % 256 ^ n + 256 ^ n * (x / 256 ^ n % 256) := by
      rw [pow_succ, Nat.mod_mul]
    rw [hstep, ih, hmod, pow_succ]
    ring

@[simp] theorem ofBe_beBytes {n x : ℕ} (h : x < 256 ^ n) : ofBe (beBytes n x) = x := by
  simp [ofBe, ofBeAcc_beBytes, Nat.mod_eq_of_lt h]

theorem ofBeAcc_eq (bytes : List UInt8) (acc : ℕ) :
    ofBeAcc acc bytes = acc * 256 ^ bytes.length + ofBe bytes := by
  induction bytes generalizing acc with
  | nil => simp [ofBeAcc, ofBe]
  | cons b bytes ih =>
    have hstep : ofBeAcc acc (b :: bytes) = ofBeAcc (acc * 256 + b.toNat) bytes := rfl
    have hzero : ofBe (b :: bytes) = ofBeAcc (0 * 256 + b.toNat) bytes := rfl
    rw [hstep, ih, hzero, ih, List.length_cons, pow_succ]
    ring

theorem ofBe_cons (b : UInt8) (bytes : List UInt8) :
    ofBe (b :: bytes) = b.toNat * 256 ^ bytes.length + ofBe bytes := by
  have hstep : ofBe (b :: bytes) = ofBeAcc (0 * 256 + b.toNat) bytes := rfl
  rw [hstep, ofBeAcc_eq]
  simp

theorem ofBe_lt (bytes : List UInt8) : ofBe bytes < 256 ^ bytes.length := by
  induction bytes with
  | nil => simp [ofBe, ofBeAcc]
  | cons b bytes ih =>
    have hb := b.toNat_lt
    have hmul : (b.toNat + 1) * 256 ^ bytes.length ≤ 256 * 256 ^ bytes.length :=
      Nat.mul_le_mul_right _ (by omega)
    rw [Nat.succ_mul] at hmul
    rw [ofBe_cons, List.length_cons, pow_succ]
    omega

/-- Octet strings of one length that denote one integer are equal. -/
theorem ofBe_injective {a b : List UInt8} (hlength : a.length = b.length)
    (h : ofBe a = ofBe b) : a = b := by
  induction a generalizing b with
  | nil => exact (List.length_eq_zero_iff.mp hlength.symm).symm
  | cons x a ih =>
    cases b with
    | nil => simp at hlength
    | cons y b =>
      have hlength : a.length = b.length := by simpa using hlength
      have ha := ofBe_lt a
      have hb := ofBe_lt b
      rw [ofBe_cons, ofBe_cons, hlength] at h
      rw [hlength] at ha
      have hx : x.toNat = y.toNat := by
        have hpos : 0 < 256 ^ b.length := Nat.pow_pos (by decide)
        have hdiv := congrArg (· / 256 ^ b.length) h
        simpa [Nat.mul_comm _ (256 ^ b.length), Nat.mul_add_div hpos, Nat.div_eq_of_lt ha,
          Nat.div_eq_of_lt hb] using hdiv
      rw [hx] at h
      rw [UInt8.toNat_inj.mp hx, ih hlength (by omega)]

/-- A reader that consumes octets from the front of its input. -/
abbrev Cursor (ε α : Type) := StateT (List UInt8) (Except ε) α

namespace Cursor

variable {ε α β : Type}

def fail (e : ε) : Cursor ε α := fun _ => .error e

def take (short : ε) (n : ℕ) : Cursor ε (List UInt8) := fun input =>
  if n ≤ input.length then .ok (input.take n, input.drop n) else .error short

def byte (short : ε) : Cursor ε UInt8
  | [] => .error short
  | b :: rest => .ok (b, rest)

def array (short : ε) (n : ℕ) : Cursor ε (Octets n) := fun input =>
  if h : n ≤ input.length then .ok (⟨input.take n, by simp [h]⟩, input.drop n) else .error short

/-- Read an `n`-octet big-endian integer. -/
def uint (short : ε) (n : ℕ) : Cursor ε ℕ := do
  let bytes ← take short n
  pure (ofBe bytes)

/-- Exactly `n` consecutive readings. -/
def times (p : Cursor ε α) : ℕ → Cursor ε (List α)
  | 0 => pure []
  | n + 1 => do
    let a ← p
    let as ← times p n
    pure (a :: as)

@[simp] theorem run_pure (a : α) (input : List UInt8) :
    (pure a : Cursor ε α) input = .ok (a, input) := rfl

@[simp] theorem run_fail (e : ε) (input : List UInt8) :
    (fail e : Cursor ε α) input = .error e := rfl

/-- Sequencing after a reading whose result on this input is known. -/
theorem run_bind_ok {p : Cursor ε α} {f : α → Cursor ε β} {input rest : List UInt8} {a : α}
    (h : p input = .ok (a, rest)) : (p >>= f) input = f a rest := by
  simp only [bind, StateT.bind, h, Except.bind]

theorem run_bind_error {p : Cursor ε α} {f : α → Cursor ε β} {input : List UInt8} {e : ε}
    (h : p input = .error e) : (p >>= f) input = .error e := by
  simp only [bind, StateT.bind, h, Except.bind]

theorem bind_eq_ok {p : Cursor ε α} {f : α → Cursor ε β} {input rest : List UInt8} {b : β} :
    (p >>= f) input = .ok (b, rest) ↔
      ∃ a middle, p input = .ok (a, middle) ∧ f a middle = .ok (b, rest) := by
  cases h : p input with
  | error e => simp [run_bind_error h]
  | ok x => simp [run_bind_ok h, Prod.ext_iff]

theorem guard_eq_ok {c : Prop} [Decidable c] {e : ε} {p : Cursor ε α} {input rest : List UInt8}
    {a : α} : (if c then fail e else p) input = .ok (a, rest) ↔ ¬c ∧ p input = .ok (a, rest) := by
  by_cases h : c
  · simp [h]
  · simp [h]

/-- Every reading a cursor accepts has the property. -/
def Yields (p : Cursor ε α) (P : α → Prop) : Prop :=
  ∀ ⦃input rest : List UInt8⦄ ⦃a : α⦄, p input = .ok (a, rest) → P a

theorem Yields.pure {a : α} {P : α → Prop} (h : P a) : (Pure.pure a : Cursor ε α).Yields P := by
  rintro input rest b hb
  rw [run_pure, Except.ok.injEq, Prod.mk.injEq] at hb
  exact hb.1 ▸ h

theorem Yields.bind {p : Cursor ε α} {f : α → Cursor ε β} {P : α → Prop} {Q : β → Prop}
    (hp : p.Yields P) (h : ∀ a, P a → (f a).Yields Q) : (p >>= f).Yields Q := by
  rintro input rest b hb
  obtain ⟨a, middle, ha, hb⟩ := bind_eq_ok.mp hb
  exact h a (hp ha) hb

theorem Yields.skip {p : Cursor ε α} {f : α → Cursor ε β} {Q : β → Prop}
    (h : ∀ a, (f a).Yields Q) : (p >>= f).Yields Q :=
  Yields.bind (P := fun _ => True) (fun _ _ _ _ => trivial) fun a _ => h a

theorem Yields.guard {c : Prop} [Decidable c] {e : ε} {p : Cursor ε α} {P : α → Prop}
    (h : ¬c → p.Yields P) : (if c then fail e else p : Cursor ε α).Yields P := by
  rintro input rest a ha
  obtain ⟨hc, ha⟩ := guard_eq_ok.mp ha
  exact h hc ha

@[simp] theorem run_map_ok {p : Cursor ε α} {f : α → β} {input rest : List UInt8} {a : α}
    (h : p input = .ok (a, rest)) : (f <$> p) input = .ok (f a, rest) := by
  simp only [Functor.map, StateT.map, h, bind, Except.bind, pure, Except.pure]

theorem take_append {short : ε} {n : ℕ} {x rest : List UInt8} (h : x.length = n) :
    take short n (x ++ rest) = .ok (x, rest) := by
  simp [take, ← h]

@[simp] theorem byte_cons (short : ε) (b : UInt8) (rest : List UInt8) :
    byte short (b :: rest) = .ok (b, rest) := rfl

@[simp] theorem array_append (short : ε) {n : ℕ} (x : Octets n) (rest : List UInt8) :
    array short n (x.val ++ rest) = .ok (x, rest) := by
  obtain ⟨x, rfl⟩ := x
  simp [array]

theorem uint_append {short : ε} {n x : ℕ} (h : x < 256 ^ n) (rest : List UInt8) :
    uint short n (beBytes n x ++ rest) = .ok (x, rest) := by
  unfold uint
  rw [run_bind_ok (take_append (beBytes_length n x)), ofBe_beBytes h]
  rfl

/-- Items laid out one after the other are read back in order. -/
theorem times_flatMap {p : Cursor ε α} {enc : α → List UInt8} {items : List α}
    (h : ∀ a ∈ items, ∀ rest, p (enc a ++ rest) = .ok (a, rest)) (rest : List UInt8) :
    times p items.length (items.flatMap enc ++ rest) = .ok (items, rest) := by
  induction items with
  | nil => rfl
  | cons a as ih =>
    have ha := h a List.mem_cons_self
    have has := ih fun b hb => h b (List.mem_cons_of_mem a hb)
    simp only [List.length_cons, times, List.flatMap_cons, List.append_assoc]
    rw [run_bind_ok (ha _), run_bind_ok has]
    rfl

end Cursor
end Codec
