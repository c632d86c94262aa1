import Braidpool.Runtime.Panic
import Mathlib.Algebra.Ring.Nat
import Mathlib.Data.List.Basic
import Mathlib.Data.List.Infix
import Mathlib.Data.List.TakeDrop

/-! Single-consumer queues, broadcast rings and one-permit notifications of an
asynchronous runtime, as values that are polled and never block. Each function does
what tokio documents of the one with its name. -/
namespace Braidpool.Runtime

/-- What one poll of a future yields. -/
inductive Poll (α : Type*) where
  | pending
  | ready (value : α)
  deriving DecidableEq, Repr

def Poll.map {α β : Type*} (f : α → β) : Poll α → Poll β
  | .pending => .pending
  | .ready value => .ready (f value)

/-- A bounded queue with one consumer. -/
structure Mpsc (α : Type*) where
  capacity : Nat
  buffer : List α
  bounded : buffer.length ≤ capacity
  senders : Nat
  closed : Bool
  deriving DecidableEq

/-- Why a value was not put into the queue; the value comes back. -/
inductive TrySendError (α : Type*) where
  | full (value : α)
  | closed (value : α)
  deriving DecidableEq, Repr

namespace Mpsc
variable {α : Type*}

/-- A new queue with one sender. -/
def empty (capacity : Nat) : Mpsc α := ⟨capacity, [], Nat.zero_le _, 1, false⟩

/-- `Semaphore::MAX_PERMITS` on a 64-bit machine. -/
def maxPermits : Nat := 2 ^ 61 - 1

/-- `mpsc::channel` panics on a buffer of zero, and on more than a semaphore has permits. -/
def channel (buffer : Nat) : MayPanic (Mpsc α) :=
  if buffer = 0 then .error ⟨"mpsc bounded channel requires buffer > 0"⟩
  else if maxPermits < buffer then .error ⟨"a semaphore may not have more than MAX_PERMITS permits"⟩
  else .ok (.empty buffer)

/-- `try_send` hands the value back when the receiver has closed the queue, and when as many
values wait as the queue has room for. -/
def trySend (c : Mpsc α) (value : α) : Except (TrySendError α) (Mpsc α) :=
  if c.closed then .error (.closed value)
  else if h : c.buffer.length < c.capacity then
    .ok { c with buffer := c.buffer ++ [value], bounded := List.length_append ▸ h }
  else .error (.full value)

/-- `recv` yields the values in the order sent, also after `close`. It yields `None` when there
is none left and the queue is closed or without senders, and waits otherwise. -/
def recv : Mpsc α → Poll (Option α) × Mpsc α
  | ⟨capacity, value :: rest, bounded, senders, closed⟩ =>
    (.ready (some value), ⟨capacity, rest, Nat.le_of_succ_le bounded, senders, closed⟩)
  | ⟨capacity, [], bounded, senders, closed⟩ =>
    (if closed ∨ senders = 0 then .ready none else .pending, ⟨capacity, [], bounded, senders, closed⟩)

def dropSender (c : Mpsc α) : Mpsc α := { c with senders := c.senders - 1 }

/-- After `close` nothing more can be sent; what is there can still be received. -/
def close (c : Mpsc α) : Mpsc α := { c with closed := true }

theorem channel_eq_ok {buffer : Nat} {c : Mpsc α} :
    channel buffer = .ok c ↔ (0 < buffer ∧ buffer ≤ maxPermits) ∧ c = .empty buffer := by
  unfold channel
  split
  · exact ⟨fun h => (by cases h), fun h => absurd h.1.1 (by omega)⟩
  · split
    · exact ⟨fun h => (by cases h), fun h => absurd h.1.2 (by omega)⟩
    · constructor
      · intro h
        exact ⟨by omega, (Except.ok.inj h).symm⟩
      · rintro ⟨-, rfl⟩
        rfl

theorem trySend_ok {c d : Mpsc α} {value : α} (h : c.trySend value = .ok d) :
    c.closed = false ∧ c.buffer.length < c.capacity ∧ d.buffer = c.buffer ++ [value] ∧
      d.capacity = c.capacity ∧ d.senders = c.senders ∧ d.closed = c.closed := by
  unfold trySend at h
  split at h
  · cases h
  · rename_i hopen
    split at h
    · rename_i hroom
      obtain rfl := Except.ok.inj h
      exact ⟨by simpa using hopen, hroom, rfl, rfl, rfl, rfl⟩
    · cases h

theorem trySend_error {c : Mpsc α} {value : α} {e : TrySendError α} (h : c.trySend value = .error e) :
    (c.closed = true ∧ e = .closed value) ∨
      (c.closed = false ∧ c.buffer.length = c.capacity ∧ e = .full value) := by
  unfold trySend at h
  split at h
  · rename_i hclosed
    exact .inl ⟨hclosed, (Except.error.inj h).symm⟩
  · rename_i hopen
    split at h
    · cases h
    · rename_i hfull
      exact .inr ⟨by simpa using hopen, Nat.le_antisymm c.bounded (Nat.le_of_not_lt hfull),
        (Except.error.inj h).symm⟩

theorem trySend_returns {c : Mpsc α} (value : α) (hopen : c.closed = false) (hroom : c.buffer.length < c.capacity) :
    ∃ d, c.trySend value = .ok d := by
  rw [trySend, if_neg (by simp [hopen]), dif_pos hroom]
  exact ⟨_, rfl⟩

theorem recv_cons {c : Mpsc α} {value : α} {rest : List α} (h : c.buffer = value :: rest) :
    ∃ d, c.recv = (.ready (some value), d) := by
  obtain ⟨capacity, buffer, bounded, senders, closed⟩ := c
  cases h
  exact ⟨_, rfl⟩

theorem recv_some {c d : Mpsc α} {value : α} (h : c.recv = (.ready (some value), d)) :
    c.buffer = value :: d.buffer ∧ d.capacity = c.capacity ∧ d.senders = c.senders ∧
      d.closed = c.closed := by
  obtain ⟨capacity, buffer, bounded, senders, closed⟩ := c
  cases buffer with
  | nil =>
    simp only [recv, Prod.mk.injEq] at h
    split at h <;> simp at h
  | cons first rest =>
    simp only [recv, Prod.mk.injEq, Poll.ready.injEq, Option.some.injEq] at h
    obtain ⟨rfl, rfl⟩ := h
    exact ⟨rfl, rfl, rfl, rfl⟩

/-- A poll that yields no value leaves the queue as it was. -/
theorem recv_unchanged {c : Mpsc α} (h : ∀ value, c.recv.1 ≠ .ready (some value)) :
    c.recv.2 = c ∧ c.buffer = [] := by
  obtain ⟨capacity, buffer, bounded, senders, closed⟩ := c
  cases buffer with
  | nil => exact ⟨rfl, rfl⟩
  | cons first rest => exact absurd rfl (h first)

theorem recv_none {c : Mpsc α} (h : c.recv.1 = .ready none) : c.closed = true ∨ c.senders = 0 := by
  obtain ⟨capacity, buffer, bounded, senders, closed⟩ := c
  cases buffer with
  | nil =>
    simp only [recv] at h
    split at h
    · assumption
    · cases h
  | cons first rest => cases h

end Mpsc

/-- A channel that keeps the last `capacity` of the messages sent for every
receiver; `sent` is the whole history, and a receiver is the index of the next
message it is to read. -/
structure Broadcast (α : Type*) where
  capacity : Nat
  capacity_pos : 0 < capacity
  sent : List α
  senders : Nat
  receivers : Nat
  deriving DecidableEq

/-- Why a receiver got no message. -/
inductive RecvError where
  | closed
  | lagged (missed : Nat)
  deriving DecidableEq, Repr

namespace Broadcast
variable {α : Type*}

/-- A new channel with one sender and no receiver. -/
def empty (capacity : Nat) (capacity_pos : 0 < capacity) : Broadcast α :=
  ⟨capacity, capacity_pos, [], 1, 0⟩

def nextPowerOfTwo (n : Nat) : Nat := if n ≤ 1 then 1 else 2 ^ ((n - 1).log2 + 1)

theorem nextPowerOfTwo_pos (n : Nat) : 0 < nextPowerOfTwo n := by
  unfold nextPowerOfTwo
  split
  · exact Nat.one_pos
  · exact Nat.two_pow_pos _

/-- `broadcast::channel` panics on a capacity of zero or above `usize::MAX / 2`. The ring has a
power of two of slots, at least `capacity`, and is allocated at once; for how many slots that
can be done is up to the machine. The first receiver is dropped. -/
def channel (allocates : Nat → Bool) (capacity : Nat) : MayPanic (Broadcast α) :=
  if capacity = 0 then .error ⟨"broadcast channel capacity cannot be zero"⟩
  else if 2 ^ 63 - 1 < capacity then .error ⟨"broadcast channel capacity exceeded `usize::MAX / 2`"⟩
  else if allocates (nextPowerOfTwo capacity) then
    .ok (.empty (nextPowerOfTwo capacity) (nextPowerOfTwo_pos capacity))
  else .error ⟨"capacity overflow"⟩

theorem channel_eq_ok {allocates : Nat → Bool} {capacity : Nat} {c : Broadcast α} :
    channel allocates capacity = .ok c ↔
      (0 < capacity ∧ capacity ≤ 2 ^ 63 - 1 ∧ allocates (nextPowerOfTwo capacity)) ∧
        c = .empty (nextPowerOfTwo capacity) (nextPowerOfTwo_pos capacity) := by
  unfold channel
  split
  · exact ⟨fun h => (by cases h), fun h => absurd h.1.1 (by omega)⟩
  · split
    · exact ⟨fun h => (by cases h), fun h => absurd h.1.2.1 (by omega)⟩
    · split
      · rename_i hallocates
        constructor
        · intro h
          exact ⟨⟨by omega, by omega, hallocates⟩, (Except.ok.inj h).symm⟩
        · rintro ⟨-, rfl⟩
          rfl
      · exact ⟨fun h => (by cases h), fun h => absurd h.1.2.2 ‹_›⟩

/-- `send` is an error exactly when there is no receiver, and then the message comes back. -/
def send (c : Broadcast α) (value : α) : Except α (Broadcast α) :=
  if c.receivers = 0 then .error value else .ok { c with sent := c.sent ++ [value] }

/-- `subscribe` makes a receiver of what is sent from now on. -/
def subscribe (c : Broadcast α) : Nat × Broadcast α :=
  (c.sent.length, { c with receivers := c.receivers + 1 })

def dropReceiver (c : Broadcast α) : Broadcast α := { c with receivers := c.receivers - 1 }

def cloneSender (c : Broadcast α) : Broadcast α := { c with senders := c.senders + 1 }

def dropSender (c : Broadcast α) : Broadcast α := { c with senders := c.senders - 1 }

/-- The ring keeps the last `capacity` messages, and the next one of the receiver is older. -/
def Lagged (c : Broadcast α) (next : Nat) : Prop := next + c.capacity < c.sent.length

instance (c : Broadcast α) (next : Nat) : Decidable (c.Lagged next) :=
  inferInstanceAs (Decidable (_ < _))

/-- `recv` tells a receiver that has lost messages so, once, and moves it to the oldest that is
kept. Otherwise it yields the next message, and when there is none it is `Closed` without
senders, and waits with them. -/
def recv (c : Broadcast α) (next : Nat) : Poll (Except RecvError α) × Nat :=
  if c.Lagged next then
    (.ready (.error (.lagged (c.sent.length - c.capacity - next))), c.sent.length - c.capacity)
  else match c.sent[next]? with
    | some value => (.ready (.ok value), next + 1)
    | none => (if c.senders = 0 then .ready (.error .closed) else .pending, next)

/-- The messages the ring still holds for the receiver, oldest first. -/
def retained (c : Broadcast α) (next : Nat) : List α :=
  c.sent.drop (max next (c.sent.length - c.capacity))

/-- The messages sent from `since` on that a receiver at `next` has passed. -/
def passed (c : Broadcast α) (since next : Nat) : List α := (c.sent.take next).drop since

theorem passed_succ {c : Broadcast α} {since next : Nat} {value : α} (hle : since ≤ next)
    (h : c.sent[next]? = some value) : c.passed since (next + 1) = c.passed since next ++ [value] := by
  have hlt := (List.getElem?_eq_some_iff.mp h).1
  rw [passed, passed, List.take_add_one, h, Option.toList_some,
    List.drop_append_of_le_length (by rw [List.length_take]; omega)]

/-- Both a later position and a longer history pass more. -/
theorem passed_sublist {c d : Broadcast α} {next next' : Nat} (since : Nat) (hsent : c.sent <+: d.sent)
    (h : next ≤ next') : (c.passed since next).Sublist (d.passed since next') :=
  ((List.IsPrefix.take hsent next).sublist.trans (List.take_sublist_take_left h)).drop since

theorem passed_sublist_sent (c : Broadcast α) (since next : Nat) :
    (c.passed since next).Sublist (c.sent.drop since) := (List.take_sublist next c.sent).drop since

theorem recv_ok {c : Broadcast α} {next next' : Nat} {value : α}
    (h : c.recv next = (.ready (.ok value), next')) :
    ¬ c.Lagged next ∧ c.sent[next]? = some value ∧ next' = next + 1 := by
  unfold recv at h
  split at h
  · simp at h
  · rename_i hlag
    split at h
    · rename_i found hfound
      simp only [Prod.mk.injEq, Poll.ready.injEq, Except.ok.injEq] at h
      obtain ⟨rfl, rfl⟩ := h
      exact ⟨hlag, hfound, rfl⟩
    · split at h <;> simp at h

theorem recv_error {c : Broadcast α} {next : Nat} {e : RecvError}
    (h : (c.recv next).1 = .ready (.error e)) : c.Lagged next ∨ c.senders = 0 := by
  unfold recv at h
  split at h
  · exact .inl ‹_›
  · split at h
    · simp at h
    · split at h
      · exact .inr ‹_›
      · cases h

/-- Without lag the head of the retained messages is the next one to be read. -/
theorem retained_head (c : Broadcast α) {next : Nat} (h : ¬ c.Lagged next) :
    (c.retained next).head? = c.sent[next]? := by
  unfold Lagged at h
  rw [retained, List.head?_drop, Nat.max_eq_left (by omega)]

end Broadcast

/-- `Notify` stores one permit at most. -/
structure Notify where
  permit : Bool
  deriving DecidableEq, Repr

namespace Notify

def notifyOne (_ : Notify) : Notify := ⟨true⟩

/-- A polled `notified` future takes the permit, or waits for one. -/
def pollNotified : Notify → Poll Unit × Notify
  | ⟨true⟩ => (.ready (), ⟨false⟩)
  | ⟨false⟩ => (.pending, ⟨false⟩)

end Notify

end Braidpool.Runtime
