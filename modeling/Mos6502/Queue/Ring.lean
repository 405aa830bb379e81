import Mos6502.Bits
import Mathlib.Logic.Function.Basic
import Mathlib.Data.List.Range

/-!
# The byte queue of `memory.c`

`queue_t` is a ring buffer of `QUEUE_SIZE` bytes: `queue_enqueue` writes at `tail` and
`queue_dequeue` reads at `head`, both indices moving modulo `QUEUE_SIZE`, and `count` says how
many bytes are live. The emulator has two of them, the serial input and the serial output of
the guest. The mutex that guards each one serialises its operations, so each operation is one
function on the queue's fields here.

The representation invariant `Queue.Valid` (`count ≤ QUEUE_SIZE`, `head < QUEUE_SIZE`,
`tail = (head + count) mod QUEUE_SIZE`) holds after `queue_init` and is kept by every operation;
`ByteQueue` is a queue packaged with it, and the emulator's queues are `ByteQueue`s. Under the
invariant the live bytes `Queue.contents` behave as a bounded FIFO of capacity `QUEUE_SIZE`:
`enqueue` appends when there is room and otherwise leaves the queue as it was, `dequeue` removes
the front byte.

## Main definitions

* `queueEnqueue`, `queueDequeue`, `queueIsEmpty`, `queueClear`, `queueInit`: `memory.c`
* `Queue.Valid`, `Queue.contents`: the representation invariant and the live bytes, in order
* `ByteQueue`: a queue with its invariant
* `boundedAppend`: what a run of enqueues leaves, with no dequeue in between

## Main results

* `ByteQueue.toList_enqueue`, `ByteQueue.enqueue_fst`: enqueue is a bounded append
* `ByteQueue.dequeue_cons`, `ByteQueue.dequeue_nil`: dequeue pops the front byte
* `ByteQueue.toList_enqueueAll`: a sequence of enqueues appends the bytes while there is room
-/

namespace Mos6502

/-- `QUEUE_SIZE`. -/
def queueSize : Nat := 1024

/-- `queue_t`: the bytes `data` and the ring indices `head`, `tail`, `count` (the `int` fields
never go negative, so they are natural numbers; the mutex is not modelled). -/
structure Queue where
  data : Nat → Byte
  head : Nat
  tail : Nat
  count : Nat

/-- `queue_init`: the indices are zeroed, the bytes are left as they were. -/
def queueInit (q : Queue) : Queue := { q with head := 0, tail := 0, count := 0 }

/-- `queue_enqueue`: a full queue rejects the byte; otherwise it is written at `tail`. -/
def queueEnqueue (q : Queue) (byte : Byte) : Bool × Queue :=
  if q.count = queueSize then (false, q)
  else (true, { q with data := Function.update q.data q.tail byte,
                       tail := (q.tail + 1) % queueSize,
                       count := q.count + 1 })

/-- `queue_dequeue`: the byte at `head` of a nonempty queue (the C function returns `true` and
writes it through its pointer argument), `none` for an empty queue. -/
def queueDequeue (q : Queue) : Option Byte × Queue :=
  if q.count = 0 then (none, q)
  else (some (q.data q.head), { q with head := (q.head + 1) % queueSize, count := q.count - 1 })

/-- `queue_is_empty`. -/
def queueIsEmpty (q : Queue) : Bool := q.count == 0

/-- `queue_clear`. -/
def queueClear (q : Queue) : Queue := { q with head := 0, tail := 0, count := 0 }

namespace Queue

/-- The representation invariant of the ring buffer. -/
structure Valid (q : Queue) : Prop where
  count_le : q.count ≤ queueSize
  head_lt : q.head < queueSize
  tail_eq : q.tail = (q.head + q.count) % queueSize

/-- The live bytes, front first: `count` slots from `head`, wrapping modulo `QUEUE_SIZE`. -/
def contents (q : Queue) : List Byte :=
  (List.range q.count).map fun i => q.data ((q.head + i) % queueSize)

@[simp] theorem length_contents (q : Queue) : q.contents.length = q.count := by
  simp [contents]

theorem valid_queueInit (q : Queue) : (queueInit q).Valid :=
  ⟨by simp [queueInit, queueSize], by simp [queueInit, queueSize], by simp [queueInit]⟩

theorem valid_queueClear (q : Queue) : (queueClear q).Valid :=
  valid_queueInit q

theorem valid_queueEnqueue {q : Queue} (h : q.Valid) (b : Byte) : (queueEnqueue q b).2.Valid := by
  have := h.count_le; have := h.head_lt; have := h.tail_eq
  unfold queueEnqueue
  split
  · exact h
  · constructor <;> simp only [queueSize] at * <;> omega

theorem valid_queueDequeue {q : Queue} (h : q.Valid) : (queueDequeue q).2.Valid := by
  have := h.count_le; have := h.head_lt; have := h.tail_eq
  unfold queueDequeue
  split
  · exact h
  · constructor <;> simp only [queueSize] at * <;> omega

/-- Writing at `tail` appends to the live bytes: the earlier slots lie strictly between `head`
and `tail` around the ring. -/
theorem contents_queueEnqueue {q : Queue} (h : q.Valid) (hlt : q.count < queueSize) (b : Byte) :
    (queueEnqueue q b).2.contents = q.contents ++ [b] := by
  have := h.head_lt; have := h.tail_eq
  simp only [queueEnqueue, if_neg (Nat.ne_of_lt hlt), contents, List.range_succ, List.map_append,
    List.map_singleton]
  congr 1
  · refine List.map_congr_left fun i hi => Function.update_noteq ?_ _ _
    have := List.mem_range.mp hi
    simp only [queueSize] at *
    omega
  · rw [← h.tail_eq, Function.update_same]

/-- Moving `head` one slot removes the front byte. -/
theorem contents_queueDequeue {q : Queue} (h : q.Valid) (hpos : q.count ≠ 0) :
    q.contents = q.data q.head :: (queueDequeue q).2.contents := by
  have := h.head_lt
  simp only [queueDequeue, if_neg hpos]
  obtain ⟨n, hn⟩ := Nat.exists_eq_succ_of_ne_zero hpos
  simp only [contents, hn, List.range_succ_eq_map, List.map_cons, List.map_map, Nat.add_zero,
    Nat.mod_eq_of_lt this, Nat.succ_sub_one]
  congr 1
  refine List.map_congr_left fun i _ => ?_
  simp only [Function.comp, queueSize] at *
  congr 1
  omega

end Queue

/-- A `queue_t` with its representation invariant: the queues the emulator holds. -/
structure ByteQueue where
  toQueue : Queue
  valid : toQueue.Valid

namespace ByteQueue

/-- The bytes in the queue, front first. -/
def toList (q : ByteQueue) : List Byte := q.toQueue.contents

/-- `queue_init` on the bytes `data`. -/
def init (data : Nat → Byte) : ByteQueue :=
  ⟨queueInit ⟨data, 0, 0, 0⟩, Queue.valid_queueInit _⟩

/-- `queue_enqueue`, with the invariant carried along. -/
def enqueue (q : ByteQueue) (b : Byte) : Bool × ByteQueue :=
  ((queueEnqueue q.toQueue b).1, ⟨(queueEnqueue q.toQueue b).2, Queue.valid_queueEnqueue q.valid b⟩)

/-- `queue_dequeue`, with the invariant carried along. -/
def dequeue (q : ByteQueue) : Option Byte × ByteQueue :=
  ((queueDequeue q.toQueue).1, ⟨(queueDequeue q.toQueue).2, Queue.valid_queueDequeue q.valid⟩)

/-- `queue_clear`. -/
def clear (q : ByteQueue) : ByteQueue := ⟨queueClear q.toQueue, Queue.valid_queueClear _⟩

/-- Enqueue each byte in turn, dropping those that find the queue full, as the monitored RAM does
with a status message. -/
def enqueueAll (q : ByteQueue) (bs : List Byte) : ByteQueue :=
  bs.foldl (fun q b => (q.enqueue b).2) q

@[simp] theorem enqueueAll_nil (q : ByteQueue) : q.enqueueAll [] = q := rfl

@[simp] theorem enqueueAll_append (q : ByteQueue) (bs cs : List Byte) :
    q.enqueueAll (bs ++ cs) = (q.enqueueAll bs).enqueueAll cs := by
  simp [enqueueAll, List.foldl_append]

@[simp] theorem toList_init (data : Nat → Byte) : (init data).toList = [] := rfl

@[simp] theorem toList_clear (q : ByteQueue) : q.clear.toList = [] := rfl

theorem length_toList_le (q : ByteQueue) : q.toList.length ≤ queueSize := by
  simpa [toList] using q.valid.count_le

/-- **Enqueue is a bounded append**: the byte goes at the back when there is room, and the queue
is unchanged otherwise. -/
theorem toList_enqueue (q : ByteQueue) (b : Byte) :
    (q.enqueue b).2.toList = if q.toList.length < queueSize then q.toList ++ [b] else q.toList := by
  simp only [enqueue, toList, Queue.length_contents]
  split
  · exact Queue.contents_queueEnqueue q.valid ‹_› b
  · have : q.toQueue.count = queueSize := Nat.le_antisymm q.valid.count_le (by omega)
    simp [queueEnqueue, this]

theorem enqueue_fst (q : ByteQueue) (b : Byte) :
    (q.enqueue b).1 = decide (q.toList.length < queueSize) := by
  have := q.valid.count_le
  simp only [enqueue, queueEnqueue, toList, Queue.length_contents]
  split <;> simp <;> omega

/-- **Dequeue pops the front byte.** -/
theorem dequeue_cons {q : ByteQueue} {b : Byte} {rest : List Byte} (h : q.toList = b :: rest) :
    q.dequeue.1 = some b ∧ q.dequeue.2.toList = rest := by
  have hpos : q.toQueue.count ≠ 0 := by
    intro h0; have := congrArg List.length h; simp [toList, h0] at this
  have hc := Queue.contents_queueDequeue q.valid hpos
  simp only [toList] at h
  rw [h] at hc
  refine ⟨?_, (List.cons.inj hc).2.symm⟩
  simp [dequeue, queueDequeue, hpos, (List.cons.inj hc).1]

/-- An empty queue answers `none` and stays as it is. -/
theorem dequeue_nil {q : ByteQueue} (h : q.toList = []) : q.dequeue = (none, q) := by
  have h0 : q.toQueue.count = 0 := by simpa [toList] using congrArg List.length h
  simp [dequeue, queueDequeue, h0]

/-- A dequeue moves the front byte out and keeps the rest: what it returns followed by what it
leaves is what the queue held. -/
theorem dequeue_toList (q : ByteQueue) : q.dequeue.1.toList ++ q.dequeue.2.toList = q.toList := by
  cases h : q.toList with
  | nil => simp [dequeue_nil h, h]
  | cons b rest => simp [(dequeue_cons h).1, (dequeue_cons h).2]

/-- What a run of enqueues leaves, with no dequeue in between: the bytes go at the back while
there is room, and once the queue is full every later byte is dropped. -/
def boundedAppend (l bs : List Byte) : List Byte := l ++ bs.take (queueSize - l.length)

theorem boundedAppend_nil (l : List Byte) : boundedAppend l [] = l := by
  simp [boundedAppend]

theorem boundedAppend_append {l : List Byte} (hl : l.length ≤ queueSize) (bs cs : List Byte) :
    boundedAppend l (bs ++ cs) = boundedAppend (boundedAppend l bs) cs := by
  simp only [boundedAppend, List.take_append_eq_append_take, List.append_assoc, List.length_append,
    List.length_take]
  congr 2
  · congr 1; omega

theorem toList_enqueueAll (q : ByteQueue) (bs : List Byte) :
    (q.enqueueAll bs).toList = boundedAppend q.toList bs := by
  induction bs generalizing q with
  | nil => simp [enqueueAll, boundedAppend]
  | cons b bs ih =>
    have hle := q.length_toList_le
    simp only [enqueueAll, List.foldl_cons] at *
    rw [ih, toList_enqueue]
    split
    · simp only [boundedAppend, List.length_append, List.length_singleton, List.append_assoc]
      rw [show queueSize - q.toList.length = (queueSize - (q.toList.length + 1)) + 1 by omega]
      simp
    · have : queueSize - q.toList.length = 0 := by omega
      simp [boundedAppend, this, show queueSize - q.toList.length = 0 by omega]

end ByteQueue

end Mos6502
