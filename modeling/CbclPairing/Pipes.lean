import Mathlib.Data.List.Infix
import Mathlib.Logic.Function.Basic

/-! Links whose ends receive, in order, what their peers sent. -/
namespace Pipes

/-- What each end of a link has sent and received. -/
structure Pipe (ι M : Type*) where
  sent : ι → List M
  received : ι → List M

namespace Pipe

variable {ι M : Type*} [DecidableEq ι]

def send (p : Pipe ι M) (i : ι) (message : M) : Pipe ι M :=
  { p with sent := Function.update p.sent i (p.sent i ++ [message]) }

def receive (p : Pipe ι M) (i : ι) (message : M) : Pipe ι M :=
  { p with received := Function.update p.received i (p.received i ++ [message]) }

/-- One step: an end sends a message, receives the first message of its peer that it has not
received, or nothing happens. -/
inductive Step (peer : ι → ι) (p : Pipe ι M) : Pipe ι M → Prop
  | idle : Step peer p p
  | send (i : ι) (message : M) : Step peer p (p.send i message)
  | receive (i : ι) (message : M)
      (next : (p.sent (peer i))[(p.received i).length]? = some message) :
      Step peer p (p.receive i message)

/-- Each end has received a prefix of what its peer sent. -/
def Fifo (peer : ι → ι) (p : Pipe ι M) : Prop := ∀ i, p.received i <+: p.sent (peer i)

variable {peer : ι → ι} {p q : Pipe ι M}

theorem prefix_send (i j : ι) (message : M) : p.sent j <+: (p.send i message).sent j := by
  by_cases hj : j = i
  · rw [hj]
    show p.sent i <+: Function.update p.sent i (p.sent i ++ [message]) i
    rw [Function.update_self]
    exact List.prefix_append _ _
  · show p.sent j <+: Function.update p.sent i (p.sent i ++ [message]) j
    rw [Function.update_of_ne hj]

/-- The element behind a prefix extends the prefix. -/
theorem append_prefix_of_next {xs ys : List M} (hxs : xs <+: ys) {y : M}
    (hnext : ys[xs.length]? = some y) : xs ++ [y] <+: ys := by
  obtain ⟨rest, rfl⟩ := hxs
  rw [List.getElem?_append_right le_rfl, Nat.sub_self] at hnext
  cases rest with
  | nil => cases hnext
  | cons z rest =>
    obtain rfl : z = y := Option.some.inj hnext
    exact ⟨rest, List.append_assoc xs [z] rest⟩

theorem Step.fifo (h : Step peer p q) (hp : p.Fifo peer) : q.Fifo peer := by
  cases h with
  | idle => exact hp
  | send i message =>
    intro j
    exact (hp j).trans (prefix_send i (peer j) message)
  | receive i message next =>
    intro j
    by_cases hj : j = i
    · subst hj
      show Function.update p.received j (p.received j ++ [message]) j <+: p.sent (peer j)
      rw [Function.update_self]
      exact append_prefix_of_next (hp j) next
    · show Function.update p.received i (p.received i ++ [message]) j <+: p.sent (peer j)
      rw [Function.update_of_ne hj]
      exact hp j

end Pipe
end Pipes
