import Mathlib.Data.BitVec
import Mathlib.Tactic.Common

/-!
# Linear feedback shift registers

A register of `w` bits is clocked by shifting it to the right; if the bit that falls out is set,
the taps are added to what remains. Words are fed to it by adding each to the register and clocking
it a fixed number of times. All of this is linear for the exclusive or, so what two sequences of
words leave in the register differs by what the sequence of their differences leaves
(`feed_map_xor`).
-/

namespace Thermald.ShiftRegister

variable {w : Nat}

/-- One clock of the register. -/
def clock (taps register : BitVec w) : BitVec w :=
  (register >>> 1) ^^^ (if register.getLsbD 0 then taps else 0#w)

/-- Several clocks of the register. -/
def clocks (taps : BitVec w) : Nat → BitVec w → BitVec w
  | 0, register => register
  | n + 1, register => clocks taps n (clock taps register)

/-- Words are added to the register one after the other, with `n` clocks after each. -/
def feed (taps : BitVec w) (n : Nat) (register : BitVec w) (words : List (BitVec w)) : BitVec w :=
  words.foldl (fun register word => clocks taps n (register ^^^ word)) register

/-- A clock is linear. -/
theorem clock_xor (taps a b : BitVec w) :
    clock taps (a ^^^ b) = clock taps a ^^^ clock taps b := by
  unfold clock
  rw [BitVec.ushiftRight_xor_distrib, BitVec.getLsbD_xor]
  generalize a >>> 1 = x
  generalize b >>> 1 = y
  cases a.getLsbD 0 <;> cases b.getLsbD 0
  · simp
  · simp [BitVec.xor_assoc]
  · simp only [Bool.xor_false, if_true, Bool.false_eq_true, if_false, BitVec.xor_zero]
    rw [BitVec.xor_assoc, BitVec.xor_comm y taps, ← BitVec.xor_assoc]
  · -- The taps are added on both sides and cancel.
    simp only [Bool.xor_self, Bool.false_eq_true, if_false, if_true, BitVec.xor_zero]
    rw [BitVec.xor_assoc, BitVec.xor_comm y taps, ← BitVec.xor_assoc taps, BitVec.xor_self,
      BitVec.zero_xor]

/-- Several clocks are linear. -/
theorem clocks_xor (taps : BitVec w) (n : Nat) (a b : BitVec w) :
    clocks taps n (a ^^^ b) = clocks taps n a ^^^ clocks taps n b := by
  induction n generalizing a b with
  | zero => rfl
  | succ n ih => rw [clocks, clock_xor, ih, clocks, clocks]

/-- An exclusive or of two exclusive ors, regrouped. -/
theorem xor_xor_xor_comm (a b c d : BitVec w) :
    a ^^^ b ^^^ (c ^^^ d) = a ^^^ c ^^^ (b ^^^ d) := by
  rw [BitVec.xor_assoc, ← BitVec.xor_assoc b c d, BitVec.xor_comm b c, BitVec.xor_assoc c b d,
    ← BitVec.xor_assoc a c]

/-- The words of a list, each the sum of two functions of an item, leave the sum of what the two
functions leave. -/
theorem feed_map_xor {α : Type} (taps : BitVec w) (n : Nat) (f g : α → BitVec w) (items : List α)
    (a b : BitVec w) :
    feed taps n (a ^^^ b) (items.map fun item => f item ^^^ g item) =
      feed taps n a (items.map f) ^^^ feed taps n b (items.map g) := by
  induction items generalizing a b with
  | nil => rfl
  | cons item items ih =>
      have hstep : clocks taps n (a ^^^ b ^^^ (f item ^^^ g item)) =
          clocks taps n (a ^^^ f item) ^^^ clocks taps n (b ^^^ g item) := by
        rw [xor_xor_xor_comm, clocks_xor]
      simp only [feed, List.map_cons, List.foldl_cons] at ih ⊢
      rw [hstep, ih]

/-- Words that are fed in two parts. -/
theorem feed_append (taps : BitVec w) (n : Nat) (register : BitVec w) (u v : List (BitVec w)) :
    feed taps n register (u ++ v) = feed taps n (feed taps n register u) v :=
  List.foldl_append

/-- A clock of the empty register leaves it empty. -/
theorem clocks_zero (taps : BitVec w) (n : Nat) : clocks taps n 0#w = 0#w := by
  have h := clocks_xor taps n 0#w 0#w
  rwa [BitVec.xor_self, BitVec.xor_self] at h

/-- Words that are zero leave an empty register empty. -/
theorem feed_zero (taps : BitVec w) (n : Nat) (words : List (BitVec w))
    (h : ∀ word ∈ words, word = 0#w) : feed taps n 0#w words = 0#w := by
  induction words with
  | nil => rfl
  | cons word words ih =>
      have hword : word = 0#w := h word List.mem_cons_self
      have hrest := ih fun word' hmem => h word' (List.mem_cons_of_mem _ hmem)
      subst hword
      simp only [feed, List.foldl_cons, BitVec.xor_self] at hrest ⊢
      rw [clocks_zero]
      exact hrest

end Thermald.ShiftRegister
