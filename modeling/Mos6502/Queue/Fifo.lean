import Mos6502.Queue.Ring

/-!
# The ring buffer refines a bounded FIFO

`memory.c` offers five operations on a `queue_t`: `queue_init`, `queue_enqueue`,
`queue_dequeue`, `queue_clear` and `queue_is_empty`. Here they are one step function,
`queueStep`, on the ring buffer's fields, with the value each returns. Beside it stands what the
queue is for: `fifoStep`, a FIFO of capacity `QUEUE_SIZE` on the list of its bytes, front first.
It appends a byte when there is room and refuses it otherwise, pops the front byte or answers
that there is none, and empties.

The ring buffer and the list are related by `Queue.Valid` and `Queue.contents`. One step keeps
the relation and returns what the FIFO returns (`queueStep_refines`). By induction, so does every
sequence of operations from a valid queue (`queue_refines_bounded_fifo`), whatever wraps of
`head` and `tail` past the end of the buffer it goes through. A refused enqueue and a failed
dequeue leave every field of the buffer as it was, and not only its contents (`queueStep_full`,
`queueStep_empty`).

## Main definitions

* `QueueOp`, `QueueAnswer`, `queueStep`, `queueRun`: the operations on a `queue_t`
* `fifoStep`, `fifoRun`: the bounded FIFO they implement

## Main results

* `queueStep_refines`: one operation simulates the FIFO's
* `queue_refines_bounded_fifo`: every sequence of operations does
-/

namespace Mos6502

/-- The operations of `memory.c` on a `queue_t`. -/
inductive QueueOp
  | init
  | enqueue (b : Byte)
  | dequeue
  | clear
  | isEmpty
  deriving DecidableEq, Repr

/-- What an operation returns: nothing for `queue_init` and `queue_clear`, the `bool` of
`queue_enqueue` and `queue_is_empty`, and for `queue_dequeue` the byte it writes through its
pointer when it returns `true`, `none` when it returns `false`. -/
inductive QueueAnswer
  | done
  | flag (b : Bool)
  | dequeued (b : Option Byte)
  deriving DecidableEq, Repr

/-- One operation on the ring buffer and the value it returns. -/
def queueStep (q : Queue) : QueueOp → Queue × QueueAnswer
  | .init => (queueInit q, .done)
  | .enqueue b => ((queueEnqueue q b).2, .flag (queueEnqueue q b).1)
  | .dequeue => ((queueDequeue q).2, .dequeued (queueDequeue q).1)
  | .clear => (queueClear q, .done)
  | .isEmpty => (q, .flag (queueIsEmpty q))

/-- A sequence of operations: the final buffer and the values returned, in order. -/
def queueRun (q : Queue) : List QueueOp → Queue × List QueueAnswer
  | [] => (q, [])
  | op :: ops =>
    let s := queueStep q op
    let r := queueRun s.1 ops
    (r.1, s.2 :: r.2)

/-- The bounded FIFO of capacity `QUEUE_SIZE` on the list of its bytes, front first: an enqueue
appends when there is room and is refused otherwise, a dequeue pops the front byte, and
`init` and `clear` empty it. -/
def fifoStep (l : List Byte) : QueueOp → List Byte × QueueAnswer
  | .init => ([], .done)
  | .enqueue b => if l.length < queueSize then (l ++ [b], .flag true) else (l, .flag false)
  | .dequeue => (l.tail, .dequeued l.head?)
  | .clear => ([], .done)
  | .isEmpty => (l, .flag l.isEmpty)

/-- A sequence of operations on the FIFO. -/
def fifoRun (l : List Byte) : List QueueOp → List Byte × List QueueAnswer
  | [] => (l, [])
  | op :: ops =>
    let s := fifoStep l op
    let r := fifoRun s.1 ops
    (r.1, s.2 :: r.2)

namespace Queue

theorem contents_eq_nil_iff (q : Queue) : q.contents = [] ↔ q.count = 0 := by
  rw [← List.length_eq_zero, length_contents]

theorem isEmpty_contents (q : Queue) : q.contents.isEmpty = (q.count == 0) := by
  rw [Bool.eq_iff_iff, List.isEmpty_iff, contents_eq_nil_iff, beq_iff_eq]

end Queue

/-- A full queue refuses the byte and stays as it is, every field included. -/
theorem queueStep_full {q : Queue} (h : q.count = queueSize) (b : Byte) :
    queueStep q (.enqueue b) = (q, .flag false) := by
  simp [queueStep, queueEnqueue, h]

/-- An empty queue answers `false` and stays as it is, every field included. -/
theorem queueStep_empty {q : Queue} (h : q.count = 0) :
    queueStep q .dequeue = (q, .dequeued none) := by
  simp [queueStep, queueDequeue, h]

/-- **One operation simulates the FIFO's**: from a valid buffer it leaves a valid buffer whose
bytes are the FIFO's, and returns what the FIFO returns. -/
theorem queueStep_refines {q : Queue} (h : q.Valid) (op : QueueOp) :
    (queueStep q op).1.Valid ∧ (queueStep q op).1.contents = (fifoStep q.contents op).1 ∧
      (queueStep q op).2 = (fifoStep q.contents op).2 := by
  have hle := h.count_le
  cases op with
  | init => exact ⟨Queue.valid_queueInit q, rfl, rfl⟩
  | clear => exact ⟨Queue.valid_queueClear q, rfl, rfl⟩
  | isEmpty => exact ⟨h, rfl, by rw [queueStep, fifoStep, queueIsEmpty, Queue.isEmpty_contents]⟩
  | enqueue b =>
    by_cases hlt : q.count < queueSize
    · have hne : q.count ≠ queueSize := Nat.ne_of_lt hlt
      refine ⟨Queue.valid_queueEnqueue h b,
        (Queue.contents_queueEnqueue h hlt b).trans (by simp [fifoStep, hlt]), ?_⟩
      simp [queueStep, fifoStep, queueEnqueue, hne, hlt]
    · rw [queueStep_full (by omega)]
      simp [fifoStep, hlt, h]
  | dequeue =>
    by_cases h0 : q.count = 0
    · rw [queueStep_empty h0, (Queue.contents_eq_nil_iff q).mpr h0]
      exact ⟨h, rfl, rfl⟩
    · have hc := Queue.contents_queueDequeue h h0
      refine ⟨Queue.valid_queueDequeue h, by simp [fifoStep, hc, queueStep], ?_⟩
      simp [queueStep, fifoStep, hc, queueDequeue, h0]

/-- **The ring buffer refines the bounded FIFO.** For every sequence of operations from a valid
buffer, the buffer stays valid, its bytes are those of the FIFO run on its bytes, and every
operation returns what the FIFO's returns. -/
theorem queue_refines_bounded_fifo {q : Queue} (hq : q.Valid) (ops : List QueueOp) :
    (queueRun q ops).1.Valid ∧ (queueRun q ops).1.contents = (fifoRun q.contents ops).1 ∧
      (queueRun q ops).2 = (fifoRun q.contents ops).2 := by
  induction ops generalizing q with
  | nil => exact ⟨hq, rfl, rfl⟩
  | cons op ops ih =>
    obtain ⟨hv, hc, ha⟩ := queueStep_refines hq op
    obtain ⟨hv', hc', ha'⟩ := ih hv
    simp only [queueRun, fifoRun, ← hc, ← ha]
    exact ⟨hv', hc', by rw [ha']⟩

/-- A `queue_t` with arbitrary fields, after `queue_init`, runs so. -/
theorem queue_refines_after_init :
    let q := queueInit ⟨fun _ => 0xAA, 7, 3, 2000⟩
    let ops := [.enqueue 1, .enqueue 2, .dequeue, .isEmpty, .clear, .dequeue]
    q.Valid ∧ (queueRun q ops).1.Valid ∧
      (queueRun q ops).1.contents = (fifoRun q.contents ops).1 ∧
      (queueRun q ops).2 = (fifoRun q.contents ops).2 :=
  ⟨Queue.valid_queueInit _, queue_refines_bounded_fifo (Queue.valid_queueInit _) _⟩

end Mos6502
