import Mathlib.Algebra.Order.Group.Nat
import Thermald.Lib.Run

/-!
# Records over a stream

Writers put records of one size into a stream, and a reader takes pieces of that size from its
other end. A write may find room for a part of its record only. Whatever happens, what has been
taken and what is still under way are together what was written (`stream_conserved`). As long as
every write is whole or refused, the pieces are the records, in their order, and what is under way
consists of whole records (`stream_in_order`).
-/

namespace Thermald

variable {α β : Type}

/-- How the records of a stream are written. -/
structure RecordFormat (α β : Type) where
  size : Nat
  size_pos : 0 < size
  encode : α → List β
  length_encode : ∀ a, (encode a).length = size

/-- What happens to a stream: a write that finds some room, or a read. -/
inductive StreamOp (α : Type) where
  | write (a : α) (room : Nat)
  | read
  deriving DecidableEq, Repr

namespace RecordFormat

variable (f : RecordFormat α β)

/-- Records one after the other. -/
def stream (as : List α) : List β := as.flatMap f.encode

/-- A write appends the part that finds room, a read takes one piece. -/
def step (pending : List β) : StreamOp α → List β
  | .write a room => pending ++ (f.encode a).take room
  | .read => pending.drop f.size

/-- The piece that a read takes. There is none if nothing is under way. -/
def taken (pending : List β) : StreamOp α → List (List β)
  | .write _ _ => []
  | .read => if pending = [] then [] else [pending.take f.size]

/-- What a sequence of writes has put into the stream. -/
def written (ops : List (StreamOp α)) : List β :=
  ops.flatMap fun
    | .write a room => (f.encode a).take room
    | .read => []

/-- The records of the writes that were whole. -/
def accepted (ops : List (StreamOp α)) : List α :=
  ops.filterMap fun
    | .write a room => if f.size ≤ room then some a else none
    | .read => none

/-- A write is whole or refused. -/
def Whole : StreamOp α → Prop
  | .write _ room => room = 0 ∨ f.size ≤ room
  | .read => True

variable {f} {a : α} {as : List α}

@[simp] theorem stream_nil : f.stream [] = [] := rfl

@[simp] theorem stream_cons : f.stream (a :: as) = f.encode a ++ f.stream as := rfl

@[simp] theorem stream_append {bs : List α} : f.stream (as ++ bs) = f.stream as ++ f.stream bs :=
  List.flatMap_append ..

@[simp] theorem accepted_append {ops ops' : List (StreamOp α)} :
    f.accepted (ops ++ ops') = f.accepted ops ++ f.accepted ops' :=
  List.filterMap_append

/-- What is accepted has been written. -/
theorem write_of_mem_accepted {ops : List (StreamOp α)} (h : a ∈ f.accepted ops) :
    ∃ room, .write a room ∈ ops := by
  obtain ⟨op, hop, hsome⟩ := List.mem_filterMap.mp h
  cases op with
  | write b room =>
      dsimp only at hsome
      split at hsome
      · obtain rfl : b = a := Option.some.inj hsome
        exact ⟨room, hop⟩
      · cases hsome
  | read => cases hsome

/-- A record is never empty. -/
theorem encode_ne_nil : f.encode a ≠ [] := by
  have hlength := f.length_encode a
  have hpos := f.size_pos
  intro hnil
  rw [hnil] at hlength
  exact hpos.ne hlength

theorem stream_eq_nil_iff : f.stream as = [] ↔ as = [] := by
  cases as with
  | nil => simp
  | cons a as => simp [encode_ne_nil]

/-- The first piece of a stream of records is the first record. -/
theorem take_stream : (f.stream (a :: as)).take f.size = f.encode a := by
  rw [stream_cons, ← f.length_encode a]
  exact List.take_left

theorem drop_stream : (f.stream (a :: as)).drop f.size = f.stream as := by
  rw [stream_cons, ← f.length_encode a]
  exact List.drop_left

/-- The whole record is written if there is room for it. -/
theorem take_encode {room : Nat} (h : f.size ≤ room) : (f.encode a).take room = f.encode a :=
  List.take_of_length_le (by rw [f.length_encode]; exact h)

/-- What is taken and what is under way are together what was written. -/
theorem stream_conserved (pending : List β) (ops : List (StreamOp α)) :
    (outputs f.step f.taken pending ops).flatten ++ run f.step pending ops =
      pending ++ f.written ops := by
  induction ops generalizing pending with
  | nil => simp [written]
  | cons op ops ih =>
      rw [outputs_cons, List.flatten_append, List.append_assoc, run_cons, ih]
      cases op with
      | write a room => simp [step, taken, written]
      | read =>
          simp only [step, taken, written, List.flatMap_cons, List.nil_append, ← List.append_assoc]
          congr 1
          split
          · rename_i hempty
            simp [hempty]
          · simp

/-- Where every write is whole or refused, the pieces are the records in their order. -/
theorem stream_in_order (as : List α) {ops : List (StreamOp α)} (hwhole : ∀ op ∈ ops, f.Whole op) :
    ∃ done unread, outputs f.step f.taken (f.stream as) ops = done.map f.encode ∧
      run f.step (f.stream as) ops = f.stream unread ∧ done ++ unread = as ++ f.accepted ops := by
  induction ops generalizing as with
  | nil => exact ⟨[], as, rfl, rfl, by simp [accepted]⟩
  | cons op ops ih =>
      have hrest : ∀ op ∈ ops, f.Whole op := fun op hop => hwhole op (List.mem_cons_of_mem _ hop)
      cases op with
      | write a room =>
          rcases hwhole _ List.mem_cons_self with hroom | hroom
          · -- the write is refused
            obtain ⟨done, unread, hdone, hunread, horder⟩ := ih as hrest
            have hnone : ¬ f.size ≤ room := by
              have hpos := f.size_pos
              omega
            refine ⟨done, unread, ?_, ?_, ?_⟩
            · simpa [step, taken, hroom] using hdone
            · simpa [step, hroom] using hunread
            · rw [horder]
              simp [accepted, hnone]
          · obtain ⟨done, unread, hdone, hunread, horder⟩ := ih (as ++ [a]) hrest
            have hstep : f.step (f.stream as) (.write a room) = f.stream (as ++ [a]) := by
              simp [step, take_encode hroom]
            refine ⟨done, unread, ?_, ?_, ?_⟩
            · rw [outputs_cons, hstep, hdone]
              rfl
            · rw [run_cons, hstep, hunread]
            · rw [horder]
              simp [accepted, hroom]
      | read =>
          cases as with
          | nil =>
              obtain ⟨done, unread, hdone, hunread, horder⟩ := ih [] hrest
              refine ⟨done, unread, ?_, ?_, ?_⟩
              · simpa [step, taken] using hdone
              · simpa [step] using hunread
              · rw [horder]
                rfl
          | cons a as =>
              obtain ⟨done, unread, hdone, hunread, horder⟩ := ih as hrest
              have hstep : f.step (f.stream (a :: as)) .read = f.stream as := drop_stream
              refine ⟨a :: done, unread, ?_, ?_, ?_⟩
              · have hne : f.stream (a :: as) ≠ [] := fun hnil =>
                  List.cons_ne_nil a as (stream_eq_nil_iff.mp hnil)
                rw [outputs_cons, hstep, hdone, taken, if_neg hne, take_stream]
                rfl
              · rw [run_cons, hstep, hunread]
              · rw [List.cons_append, horder]
                rfl

end RecordFormat

end Thermald
