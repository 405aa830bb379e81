import Mathlib.Logic.Function.Basic
import Mathlib.Data.List.Nodup

/-!
# The event queue is a FIFO

`event_queue.c` keeps events in a singly linked list of `malloc`ed nodes: `head` and `tail`
point at the first and the last node, `NULL` when the queue is empty. `event_queue_enqueue`
links a fresh node after `tail` (or makes it the only node), `event_queue_dequeue` waits on
`cond` while the queue is empty and then unlinks and frees the node at `head`,
`event_queue_is_empty` compares `head` with `NULL`, and `event_queue_destroy` walks the list and
frees every node. The mutex makes each call one atomic action.

Here the nodes live on an explicit heap, a map from addresses to nodes, `none` where no node is
allocated; `malloc` is a function `alloc` of the heap that returns a free address or fails. The
queue stands for the list of events read from `head` along `next` (`Represents`, with the ghost
list of the nodes' addresses): the nodes are distinct, the last one's `next` is `NULL`, `tail`
points at it, and no other node is allocated.

Every operation keeps that representation and answers as a FIFO of events whose enqueue may fail
does (`EventFifoStep`), and a dequeue waits exactly when that FIFO is empty. By induction, every
sequence of calls from `event_queue_create` is a run of the FIFO, or stops at a dequeue of an
empty FIFO (`eventQueueRun_refines`). Since no node outside the list is allocated,
`event_queue_destroy` frees the whole heap: its walk reaches `NULL` after as many nodes as events
are queued (`eventQueueDestroy_frees`).

## Main definitions

* `EventNode`, `EventQueue`: the nodes and the queue, on a heap of nodes
* `eventQueueEnqueue`, `eventQueueDequeue`, `eventQueueIsEmpty`, `eventQueueDestroy`: the calls
* `EventFifoStep`, `EventFifoRun`: the FIFO the queue implements
* `Represents`: the list a queue holds

## Main results

* `eventQueueRun_refines`: every sequence of calls is a run of the FIFO
* `eventQueueDestroy_frees`: `event_queue_destroy` leaves no node allocated
-/

namespace Mos6502

/-- `EventNode`: an event, and `next`, the address of the following node (`none` for `NULL`). -/
structure EventNode (α : Type) where
  event : α
  next : Option Nat
  deriving DecidableEq, Repr

/-- `EventQueue`: `head` and `tail` (`none` for `NULL`), with the heap its nodes live on, `none`
at the addresses where no node is allocated. The mutex and the condition variable are the
atomicity of each call. -/
structure EventQueue (α : Type) where
  heap : Nat → Option (EventNode α)
  head : Option Nat
  tail : Option Nat

variable {α : Type}

/-- `event_queue_create`: both ends `NULL`, and no node allocated. -/
def eventQueueCreate : EventQueue α := ⟨fun _ => none, none, none⟩

/-- `tail->next = node` on the heap. -/
def setNext (heap : Nat → Option (EventNode α)) (t n : Nat) : Nat → Option (EventNode α) :=
  Function.update heap t ((heap t).map fun nd => { nd with next := some n })

@[simp] theorem isSome_setNext (heap : Nat → Option (EventNode α)) (t n b : Nat) :
    (setNext heap t n b).isSome = (heap b).isSome := by
  by_cases hb : b = t
  · subst hb; simp [setNext]
  · simp [setNext, Function.update_noteq hb]

/-- `event_queue_enqueue`, with `node` the block `malloc` returned (`none` for `NULL`, where the
call returns `false`): the node gets `event` and a `NULL` `next`, and is linked after `tail`, or
becomes `head` and `tail` of an empty queue. -/
def eventQueueEnqueue (q : EventQueue α) (event : α) (node : Option Nat) : Bool × EventQueue α :=
  match node with
  | none => (false, q)
  | some n =>
    let heap := Function.update q.heap n (some ⟨event, none⟩)
    match q.tail with
    | some t => (true, { q with heap := setNext heap t n, tail := some n })
    | none => (true, { heap := heap, head := some n, tail := some n })

@[simp] theorem eventQueueEnqueue_fst (q : EventQueue α) (e : α) (n : Nat) :
    (eventQueueEnqueue q e (some n)).1 = true := by
  simp only [eventQueueEnqueue]
  cases q.tail <;> rfl

/-- `event_queue_dequeue`: `none` while `head` is `NULL`, the caller waiting on `cond`; else the
event of the node at `head`, `head` moved to its `next`, `tail` cleared when that is `NULL`, and
the node freed. (A `head` at a freed address, which `Represents` rules out, also gives `none`.) -/
def eventQueueDequeue (q : EventQueue α) : Option (α × EventQueue α) :=
  match q.head with
  | none => none
  | some h =>
    match q.heap h with
    | none => none
    | some nd =>
      some (nd.event, { heap := Function.update q.heap h none, head := nd.next,
                        tail := if nd.next = none then none else q.tail })

/-- `event_queue_is_empty`. -/
def eventQueueIsEmpty (q : EventQueue α) : Bool := q.head.isNone

/-- The loop of `event_queue_destroy` from `current`: read the node's `next`, free it, go on, for
at most `fuel` nodes. -/
def freeChain (heap : Nat → Option (EventNode α)) : Option Nat → Nat → Nat → Option (EventNode α)
  | none, _ => heap
  | some _, 0 => heap
  | some p, fuel + 1 => freeChain (Function.update heap p none) ((heap p).bind EventNode.next) fuel

/-- `event_queue_destroy`, walking at most `fuel` nodes: the heap it leaves (the queue itself is
freed with it). -/
def eventQueueDestroy (q : EventQueue α) (fuel : Nat) : Nat → Option (EventNode α) :=
  freeChain q.heap q.head fuel

/-! ## The FIFO the queue implements -/

/-- A call on the queue. -/
inductive EventQueueOp (α : Type)
  | enqueue (event : α)
  | dequeue
  | isEmpty
  deriving DecidableEq, Repr

/-- What a call returns. -/
inductive EventQueueAnswer (α : Type)
  | enqueued (ok : Bool)
  | dequeued (event : α)
  | empty (b : Bool)
  deriving DecidableEq, Repr

/-- A FIFO of events, front first, whose enqueue may fail and then changes nothing; a dequeue of
the empty FIFO has no step. -/
inductive EventFifoStep : List α → EventQueueOp α → EventQueueAnswer α → List α → Prop
  | enqueue (l : List α) (e : α) : EventFifoStep l (.enqueue e) (.enqueued true) (l ++ [e])
  | enqueueFail (l : List α) (e : α) : EventFifoStep l (.enqueue e) (.enqueued false) l
  | dequeue (e : α) (l : List α) : EventFifoStep (e :: l) .dequeue (.dequeued e) l
  | isEmpty (l : List α) : EventFifoStep l .isEmpty (.empty l.isEmpty) l

/-- A sequence of FIFO steps, with their answers. -/
inductive EventFifoRun : List α → List (EventQueueOp α) → List (EventQueueAnswer α) → List α → Prop
  | nil (l : List α) : EventFifoRun l [] [] l
  | cons {l l' l'' : List α} {op : EventQueueOp α} {a : EventQueueAnswer α}
      {ops : List (EventQueueOp α)} {as : List (EventQueueAnswer α)} :
      EventFifoStep l op a l' → EventFifoRun l' ops as l'' → EventFifoRun l (op :: ops) (a :: as) l''

/-- One call, `malloc` returning `alloc heap`; `none` for a dequeue that waits. -/
def eventQueueStep (alloc : (Nat → Option (EventNode α)) → Option Nat) (q : EventQueue α) :
    EventQueueOp α → Option (EventQueue α × EventQueueAnswer α)
  | .enqueue e =>
    let r := eventQueueEnqueue q e (alloc q.heap)
    some (r.2, .enqueued r.1)
  | .dequeue => (eventQueueDequeue q).map fun r => (r.2, .dequeued r.1)
  | .isEmpty => some (q, .empty (eventQueueIsEmpty q))

/-- A sequence of calls, in the order the mutex lets them in: the queue and the answers, or
`none` when a dequeue waits. -/
def eventQueueRun (alloc : (Nat → Option (EventNode α)) → Option Nat) (q : EventQueue α) :
    List (EventQueueOp α) → Option (EventQueue α × List (EventQueueAnswer α))
  | [] => some (q, [])
  | op :: ops =>
    (eventQueueStep alloc q op).bind fun r =>
      (eventQueueRun alloc r.1 ops).map fun r' => (r'.1, r.2 :: r'.2)

/-! ## The list a queue holds -/

/-- The nodes at `addrs`, in order, hold `l`, each one's `next` the address of the following
one and the last one's `NULL`. -/
def Linked (heap : Nat → Option (EventNode α)) : List Nat → List α → Prop
  | [], [] => True
  | a :: as, e :: l => heap a = some ⟨e, as.head?⟩ ∧ Linked heap as l
  | _, _ => False

/-- The queue holds `l` in the nodes at `addrs`: distinct, linked from `head` to `tail`, and the
only nodes allocated. -/
structure Represents (q : EventQueue α) (addrs : List Nat) (l : List α) : Prop where
  nodup : addrs.Nodup
  linked : Linked q.heap addrs l
  head : q.head = addrs.head?
  tail : q.tail = addrs.getLast?
  allocated : ∀ a, (q.heap a).isSome ↔ a ∈ addrs

theorem Linked.length_eq {heap : Nat → Option (EventNode α)} :
    ∀ {addrs : List Nat} {l : List α}, Linked heap addrs l → addrs.length = l.length
  | [], [], _ => rfl
  | _ :: _, _ :: _, h => congrArg (· + 1) h.2.length_eq

/-- A write to a node off the list keeps it. -/
theorem Linked.update_of_not_mem {heap : Nat → Option (EventNode α)} {p : Nat}
    (v : Option (EventNode α)) :
    ∀ {addrs : List Nat} {l : List α}, Linked heap addrs l → p ∉ addrs →
      Linked (Function.update heap p v) addrs l
  | [], [], _, _ => trivial
  | a :: _, _ :: _, ⟨ha, h⟩, hp => by
    rw [List.mem_cons, not_or] at hp
    exact ⟨by rw [Function.update_noteq (Ne.symm hp.1), ha], h.update_of_not_mem v hp.2⟩

/-- Linking a node holding `e` after the last node `t` extends the list by `e`. -/
theorem Linked.snoc {heap : Nat → Option (EventNode α)} {t n : Nat} {e : α} :
    ∀ {addrs : List Nat} {l : List α}, Linked heap (addrs ++ [t]) l → (addrs ++ [t]).Nodup →
      heap n = none →
      Linked (setNext (Function.update heap n (some ⟨e, none⟩)) t n) (addrs ++ [t, n]) (l ++ [e])
  | [], [_], ⟨ht, _⟩, _, hn => by
    have htn : t ≠ n := fun h => by rw [h, hn] at ht; cases ht
    refine ⟨?_, ?_, trivial⟩
    · simp [setNext, Function.update_noteq htn, ht]
    · simp [setNext, Function.update_noteq htn.symm]
  | a :: as, x :: l, ⟨ha, h⟩, hnd, hn => by
    have hat : a ≠ t := fun hat => by simp [hat] at hnd
    have han : a ≠ n := fun h => by rw [h, hn] at ha; cases ha
    refine ⟨?_, h.snoc (List.nodup_cons.1 hnd).2 hn⟩
    rw [setNext, Function.update_noteq hat, Function.update_noteq han, ha]
    cases as <;> rfl

namespace Represents

variable {q : EventQueue α} {addrs : List Nat} {l : List α}

theorem create : Represents (eventQueueCreate : EventQueue α) [] [] :=
  ⟨List.nodup_nil, trivial, rfl, rfl, fun _ => by simp [eventQueueCreate]⟩

theorem isEmpty (h : Represents q addrs l) : eventQueueIsEmpty q = l.isEmpty := by
  have hlen := h.linked.length_eq
  rw [eventQueueIsEmpty, h.head]
  cases addrs <;> cases l <;> simp at hlen ⊢

/-- An enqueue into the free block `n` appends its event. -/
theorem enqueue (h : Represents q addrs l) (e : α) (n : Nat) (hn : q.heap n = none) :
    Represents (eventQueueEnqueue q e (some n)).2 (addrs ++ [n]) (l ++ [e]) := by
  have hnot : n ∉ addrs := fun hm => by simpa [hn] using (h.allocated n).2 hm
  have hnd : (addrs ++ [n]).Nodup := List.nodup_append.2
    ⟨h.nodup, List.nodup_singleton n, List.disjoint_singleton.2 hnot⟩
  have hallocated : ∀ heap' : Nat → Option (EventNode α),
      (∀ a, (heap' a).isSome = (Function.update q.heap n (some ⟨e, none⟩) a).isSome) →
      ∀ a, (heap' a).isSome ↔ a ∈ addrs ++ [n] := fun heap' hheap a => by
    rw [hheap]
    by_cases ha : a = n
    · subst ha; simp
    · simpa [Function.update_noteq ha, ha] using h.allocated a
  rcases List.eq_nil_or_concat addrs with rfl | ⟨as, t, hconcat⟩
  · have hl : l = [] := List.eq_nil_of_length_eq_zero h.linked.length_eq.symm
    subst hl
    have htail : q.tail = none := h.tail
    simp only [eventQueueEnqueue, htail]
    exact ⟨hnd, ⟨by simp, trivial⟩, rfl, rfl, hallocated _ fun _ => rfl⟩
  · rw [List.concat_eq_append] at hconcat
    subst hconcat
    have htail : q.tail = some t := by rw [h.tail, List.getLast?_append_of_ne_nil _ (List.cons_ne_nil t [])]; rfl
    simp only [eventQueueEnqueue, htail]
    refine ⟨by simpa using hnd, by simpa using h.linked.snoc h.nodup hn, ?_, by simp,
      hallocated _ fun a => isSome_setNext _ _ _ a⟩
    rw [h.head]; cases as <;> rfl

/-- A dequeue of a nonempty queue returns its front event and frees its node. -/
theorem dequeue (h : Represents q addrs l) {e : α} {l' : List α} (hl : l = e :: l') :
    ∃ a as q', addrs = a :: as ∧ eventQueueDequeue q = some (e, q') ∧ Represents q' as l' := by
  subst hl
  obtain ⟨a, as, rfl⟩ : ∃ a as, addrs = a :: as := by
    cases addrs with
    | nil => exact absurd h.linked (fun h => h.elim)
    | cons a as => exact ⟨a, as, rfl⟩
  obtain ⟨ha, hrest⟩ := h.linked
  obtain ⟨hnotin, hnd⟩ := List.nodup_cons.1 h.nodup
  refine ⟨a, as, ⟨Function.update q.heap a none, as.head?, if as.head? = none then none else q.tail⟩,
    rfl, by simp [eventQueueDequeue, h.head, ha], hnd, hrest.update_of_not_mem none hnotin, rfl,
    ?_, fun b => ?_⟩
  · cases as with
    | nil => rfl
    | cons b bs => simpa [List.getLast?_cons_cons] using h.tail
  · by_cases hb : b = a
    · subst hb; simp [hnotin]
    · simpa [Function.update_noteq hb, hb] using h.allocated b

/-- A dequeue waits exactly when the queue is empty. -/
theorem dequeue_eq_none (h : Represents q addrs l) : eventQueueDequeue q = none ↔ l = [] := by
  cases l with
  | nil =>
    have : addrs = [] := List.eq_nil_of_length_eq_zero h.linked.length_eq
    simp [eventQueueDequeue, h.head, this]
  | cons e l' =>
    obtain ⟨_, _, _, _, hdq, _⟩ := h.dequeue rfl
    simp [hdq]

/-- One call from a queue holding `l` waits only on a dequeue of an empty `l`, and otherwise is a
step of the FIFO. -/
theorem step {alloc : (Nat → Option (EventNode α)) → Option Nat}
    (halloc : ∀ heap n, alloc heap = some n → heap n = none) (h : Represents q addrs l)
    (op : EventQueueOp α) :
    (eventQueueStep alloc q op = none ∧ op = .dequeue ∧ l = []) ∨
      ∃ q' a l' addrs', eventQueueStep alloc q op = some (q', a) ∧ EventFifoStep l op a l' ∧
        Represents q' addrs' l' := by
  cases op with
  | enqueue e =>
    right
    cases hn : alloc q.heap with
    | none => exact ⟨q, _, l, addrs, by simp [eventQueueStep, hn, eventQueueEnqueue], .enqueueFail l e, h⟩
    | some n =>
      exact ⟨_, _, _, _, by simp [eventQueueStep, hn, eventQueueEnqueue_fst], .enqueue l e,
        h.enqueue e n (halloc _ _ hn)⟩
  | dequeue =>
    cases l with
    | nil => exact .inl ⟨by simp [eventQueueStep, h.dequeue_eq_none.2 rfl], rfl, rfl⟩
    | cons e l' =>
      obtain ⟨-, as, q', -, hdq, hq'⟩ := h.dequeue rfl
      exact .inr ⟨q', _, l', as, by simp [eventQueueStep, hdq], .dequeue e l', hq'⟩
  | isEmpty =>
    exact .inr ⟨q, _, l, addrs, by simp [eventQueueStep, h.isEmpty], .isEmpty l, h⟩

end Represents

/-- What a sequence of calls from a queue holding `l` ends with, seen from the FIFO: when every
call returns, the FIFO's answers, and a queue holding what the FIFO then holds; when one waits,
a dequeue of the FIFO emptied by the calls before it. -/
def RefinesFifo (l : List α) (ops : List (EventQueueOp α)) :
    Option (EventQueue α × List (EventQueueAnswer α)) → Prop
  | some (q, as) => ∃ l', EventFifoRun l ops as l' ∧ ∃ addrs, Represents q addrs l'
  | none => ∃ pre post as, ops = pre ++ .dequeue :: post ∧ EventFifoRun l pre as []

theorem eventQueueRun_refinesFifo {alloc : (Nat → Option (EventNode α)) → Option Nat}
    (halloc : ∀ heap n, alloc heap = some n → heap n = none) (ops : List (EventQueueOp α)) :
    ∀ {q : EventQueue α} {addrs : List Nat} {l : List α}, Represents q addrs l →
      RefinesFifo l ops (eventQueueRun alloc q ops) := by
  induction ops with
  | nil => exact fun {_ _ l} h => ⟨l, .nil l, _, h⟩
  | cons op ops ih =>
    intro q addrs l h
    rcases h.step halloc op with ⟨hs, rfl, rfl⟩ | ⟨q', a, l', addrs', hs, hstep, h'⟩
    · simp only [eventQueueRun, hs, Option.none_bind]
      exact ⟨[], ops, [], rfl, .nil []⟩
    · simp only [eventQueueRun, hs, Option.some_bind]
      have := ih h'
      revert this
      cases eventQueueRun alloc q' ops with
      | none => exact fun ⟨pre, post, as, hops, hrun⟩ => ⟨op :: pre, post, a :: as, by rw [hops]; rfl, .cons hstep hrun⟩
      | some r => exact fun ⟨l'', hrun, hrep⟩ => ⟨l'', .cons hstep hrun, hrep⟩

/-- **The event queue is a FIFO.** With `malloc` returning a free block or failing, every sequence
of calls from `event_queue_create` either returns what a FIFO of events returns (each enqueue
that got a node appends its event, a failed one changes nothing, each dequeue returns the oldest
event left, `event_queue_is_empty` tells whether none is), with the queue holding exactly the
FIFO's events in distinct nodes and no other node allocated; or it stops at a dequeue that waits,
the FIFO being empty there. -/
theorem eventQueueRun_refines (alloc : (Nat → Option (EventNode α)) → Option Nat)
    (halloc : ∀ heap n, alloc heap = some n → heap n = none) (ops : List (EventQueueOp α)) :
    RefinesFifo [] ops (eventQueueRun alloc eventQueueCreate ops) :=
  eventQueueRun_refinesFifo halloc ops Represents.create

/-- `malloc` as the first free block among the first `n` addresses. -/
def firstFree (n : Nat) (heap : Nat → Option (EventNode α)) : Option Nat :=
  (List.range n).find? fun a => (heap a).isNone

theorem firstFree_free (n : Nat) (heap : Nat → Option (EventNode α)) (a : Nat)
    (h : firstFree n heap = some a) : heap a = none := by
  simpa using List.find?_some h

/-- Two enqueues and two dequeues, with four blocks to allocate. -/
theorem two_events_refine :
    (∀ (heap : Nat → Option (EventNode Nat)) n, firstFree 4 heap = some n → heap n = none) ∧
      RefinesFifo [] [.enqueue 1, .enqueue 2, .dequeue, .dequeue, .dequeue]
        (eventQueueRun (firstFree 4) eventQueueCreate
          [(.enqueue 1 : EventQueueOp Nat), .enqueue 2, .dequeue, .dequeue, .dequeue]) :=
  ⟨firstFree_free 4, eventQueueRun_refines _ (firstFree_free 4) _⟩

/-! ## `event_queue_destroy` -/

/-- The walk from the list's first node frees its nodes and nothing else, once it may walk as
many nodes as the list has. -/
theorem freeChain_linked {heap : Nat → Option (EventNode α)} :
    ∀ {addrs : List Nat} {l : List α} {fuel : Nat}, Linked heap addrs l → addrs.Nodup →
      addrs.length ≤ fuel →
      freeChain heap addrs.head? fuel = fun b => if b ∈ addrs then none else heap b
  | [], [], _, _, _, _ => by simp [freeChain]
  | a :: as, _ :: _, fuel + 1, ⟨ha, h⟩, hnd, hfuel => by
    obtain ⟨hnotin, hnd'⟩ := List.nodup_cons.1 hnd
    rw [List.head?_cons, freeChain, ha, Option.some_bind,
      freeChain_linked (h.update_of_not_mem none hnotin) hnd' (by simpa using hfuel)]
    funext b
    by_cases hb : b = a
    · subst hb; simp
    · simp [hb, Function.update_noteq hb]

/-- **`event_queue_destroy` leaves no node allocated.** On a queue holding `l`, the walk reaches
`NULL` after the `l.length` nodes and frees every node of the heap: no node leaks. -/
theorem eventQueueDestroy_frees {q : EventQueue α} {addrs : List Nat} {l : List α}
    (h : Represents q addrs l) {fuel : Nat} (hfuel : l.length ≤ fuel) :
    eventQueueDestroy q fuel = fun _ => none := by
  rw [eventQueueDestroy, h.head,
    freeChain_linked h.linked h.nodup (h.linked.length_eq ▸ hfuel)]
  funext b
  by_cases hb : b ∈ addrs
  · simp [hb]
  · simpa [hb] using (h.allocated b).not.2 hb

/-- Two events enqueued into the blocks `0` and `1`, then the queue destroyed. -/
theorem destroy_two_events :
    Represents (eventQueueEnqueue (eventQueueEnqueue eventQueueCreate 1 (some 0)).2 2 (some 1)).2
        [0, 1] [1, 2] ∧ [1, 2].length ≤ 2 ∧
      eventQueueDestroy
        (eventQueueEnqueue (eventQueueEnqueue eventQueueCreate 1 (some 0)).2 2 (some 1)).2 2 =
        fun _ => none :=
  ⟨(Represents.create.enqueue 1 0 rfl).enqueue 2 1 rfl, le_refl 2,
    eventQueueDestroy_frees ((Represents.create.enqueue 1 0 rfl).enqueue 2 1 rfl) (le_refl 2)⟩

end Mos6502
