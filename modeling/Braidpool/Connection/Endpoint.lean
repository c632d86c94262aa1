import Braidpool.Connection.Moves
import Braidpool.Protocol.Codec
import Braidpool.Runtime.Machine

/-! One task of `start` with everything that can happen around it, and what the
task looks like at each point of its program. -/
namespace Braidpool.Connection
open Braidpool.Runtime Braidpool.Protocol

/-- A connection task and what it shares with the rest of the node. -/
structure Endpoint (SocketAddr : Type) where
  shared : Shared SocketAddr
  task : Task SocketAddr

/-- A step of the task, a broadcast, or any other change that the rest of the node
makes to the table, the channel's handles, the notifier and the clock. -/
inductive EndpointEvent (SocketAddr : Type) where
  | task (e : TaskEvent)
  | sendToAll (msgBytes : Bytes)
  | others (manager : ConnectionManager SocketAddr) (senders receivers : Nat) (notifier : Notify) (now : SystemTime)

namespace Endpoint
variable {SocketAddr : Type}

/-- Senders are cloned from senders, so a channel without any stays without. -/
def step [DecidableEq SocketAddr] (fb : Flexbuffers) (s : Endpoint SocketAddr) :
    EndpointEvent SocketAddr → Option (Endpoint SocketAddr)
  | .task e => (s.task.step fb s.shared e).map fun next => ⟨next.1, next.2⟩
  | .sendToAll msgBytes =>
    if s.shared.sendToAll.senders = 0 then none
    else match s.shared.sendToAll.send msgBytes with
      | .ok sendToAll => some { s with shared := { s.shared with sendToAll } }
      | .error _ => none
  | .others manager senders receivers notifier now =>
    if s.shared.sendToAll.senders = 0 ∧ senders ≠ 0 then none
    else some { s with shared := ⟨manager, { s.shared.sendToAll with senders, receivers }, notifier, now⟩ }

/-- The task as it is spawned, with a receiver that is at `next`. -/
def start (sh : Shared SocketAddr) (addr : SocketAddr) (maxPendingMessages next : Nat) : Endpoint SocketAddr :=
  ⟨sh, .spawn addr (.empty maxPendingMessages) next⟩

inductive Moves [DecidableEq SocketAddr] (fb : Flexbuffers) (s : Endpoint SocketAddr) :
    EndpointEvent SocketAddr → Endpoint SocketAddr → Prop where
  | task (e : TaskEvent) (next : Shared SocketAddr × Task SocketAddr)
      (moves : Task.Moves fb s.shared s.task e next) : Moves fb s (.task e) ⟨next.1, next.2⟩
  | sendToAll (msgBytes : Bytes) (senders : s.shared.sendToAll.senders ≠ 0) :
      Moves fb s (.sendToAll msgBytes) { s with shared := { s.shared with
        sendToAll := { s.shared.sendToAll with sent := s.shared.sendToAll.sent ++ [msgBytes] } } }
  | others (manager : ConnectionManager SocketAddr) (senders receivers : Nat) (notifier : Notify) (now : SystemTime)
      (cloned : s.shared.sendToAll.senders = 0 → senders = 0) :
      Moves fb s (.others manager senders receivers notifier now)
        { s with shared := ⟨manager, { s.shared.sendToAll with senders, receivers }, notifier, now⟩ }

theorem step_moves [DecidableEq SocketAddr] {fb : Flexbuffers} {s s' : Endpoint SocketAddr}
    {e : EndpointEvent SocketAddr} (h : step fb s e = some s') : Moves fb s e s' := by
  cases e with
  | task e =>
    obtain ⟨next, hnext, rfl⟩ := Option.map_eq_some_iff.mp h
    exact .task e next (Task.step_moves hnext)
  | sendToAll msgBytes =>
    simp only [step, Broadcast.send] at h
    split at h
    · cases h
    · rename_i hsenders
      split at h
      · rename_i c hc
        split at hc
        · cases hc
        · obtain rfl := Except.ok.inj hc
          obtain rfl := Option.some.inj h
          exact .sendToAll msgBytes hsenders
      · cases h
  | others manager senders receivers notifier now =>
    simp only [step] at h
    split at h
    · cases h
    · rename_i hcloned
      obtain rfl := Option.some.inj h
      exact .others manager senders receivers notifier now fun h0 => by
        by_contra hs
        exact hcloned ⟨h0, hs⟩

end Endpoint

/-- The call of the cleanup that the event makes: the writer has been closed, or the
address is removed. -/
def TaskEvent.cleanup {SocketAddr : Type} (addr : SocketAddr) : TaskEvent → Option (Call SocketAddr)
  | .closed _ => some .closeWriter
  | .remove => some (.remove addr)
  | _ => none

def Call.cleanup {SocketAddr : Type} : Call SocketAddr → Bool
  | .closeWriter | .remove _ => true
  | .insert _ | .closeQueue => false

def EndpointEvent.cleanup {SocketAddr : Type} (addr : SocketAddr) : EndpointEvent SocketAddr → Option (Call SocketAddr)
  | .task e => e.cleanup addr
  | _ => none

/-- The frame that a write belongs to: a reply is the one of the frame being
handled, and a broadcast is written while none is. -/
def Write.Of (fb : Flexbuffers) (handling : Option Bytes) : Write → Prop
  | .reply toSend => ∃ msg, handling = some msg ∧ Accepted fb msg ∧ replyTo fb msg = some toSend
  | .sendToAll _ => handling = none

namespace Task
variable {SocketAddr : Type}

/-- Both ends of the queue are there, and so is the broadcast receiver. -/
structure Open (t : Task SocketAddr) : Prop where
  closed : t.queue.closed = false
  senders : 0 < t.queue.senders
  receiver : t.receiver.isSome

/-- Nothing has been read or written yet. -/
structure Idle (t : Task SocketAddr) : Prop where
  buffer : t.queue.buffer = []
  read : t.read = []
  handled : t.handled = []
  handling : t.handling = none
  refused : t.refused = none
  written : t.written = []
  ended : t.ended = none

/-- The frame being handled and the disabled branches, as the message handler waits. -/
def HandlerAt (fb : Flexbuffers) (handling : Option Bytes) : HandlerState → Prop
  | .select disabled => handling = none ∧ queueBranch ∉ disabled
  | .writing write => write.Of fb handling

/-- What a task looks like at each point of `start`. -/
def AtPc (fb : Flexbuffers) (t : Task SocketAddr) : Prop :=
  match t.pc with
  | .insert => t.Open ∧ t.Idle ∧ t.calls = []
  | .refused => t.Idle ∧ t.receiver = none ∧ t.calls = [.insert false]
  | .handshake message => t.Open ∧ t.Idle ∧ message = heloBytes fb ∧ t.calls = [.insert true]
  | .running handler =>
    t.Open ∧ HandlerAt fb t.handling handler ∧ t.refused = none ∧ t.ended = none ∧ t.calls = [.insert true]
  | .closing unflushed =>
    t.receiver = none ∧ (∀ write ∈ unflushed, write.Of fb t.handling) ∧ t.ended.isSome ∧
      t.calls = [.insert true, .closeQueue]
  | .removing => t.receiver = none ∧ t.ended.isSome ∧ t.calls = [.insert true, .closeQueue, .closeWriter]
  | .finished =>
    t.receiver = none ∧ t.ended.isSome ∧ t.calls = [.insert true, .closeQueue, .closeWriter, .remove t.addr]
  | .panicked _ => False

variable {fb : Flexbuffers}

theorem spawn_atPc (addr : SocketAddr) (maxPendingMessages next : Nat) :
    (spawn addr (.empty maxPendingMessages) next).AtPc fb :=
  ⟨⟨rfl, Nat.one_pos, rfl⟩, ⟨rfl, rfl, rfl, rfl, rfl, rfl, rfl⟩, rfl⟩

section
variable {t : Task SocketAddr}

theorem AtPc.inserting (ht : t.AtPc fb) (pc : t.pc = .insert) : t.Open ∧ t.Idle ∧ t.calls = [] := by
  rwa [AtPc, pc] at ht

theorem AtPc.greeting (ht : t.AtPc fb) {message : Bytes} (pc : t.pc = .handshake message) :
    t.Open ∧ t.Idle ∧ message = heloBytes fb ∧ t.calls = [.insert true] := by
  rwa [AtPc, pc] at ht

theorem AtPc.running (ht : t.AtPc fb) {handler : HandlerState} (pc : t.pc = .running handler) :
    t.Open ∧ HandlerAt fb t.handling handler ∧ t.refused = none ∧ t.ended = none ∧ t.calls = [.insert true] := by
  rwa [AtPc, pc] at ht

theorem AtPc.closing (ht : t.AtPc fb) {unflushed : Option Write} (pc : t.pc = .closing unflushed) :
    t.receiver = none ∧ (∀ write ∈ unflushed, write.Of fb t.handling) ∧ t.ended.isSome ∧
      t.calls = [.insert true, .closeQueue] := by
  rwa [AtPc, pc] at ht

theorem AtPc.removing (ht : t.AtPc fb) (pc : t.pc = .removing) :
    t.receiver = none ∧ t.ended.isSome ∧ t.calls = [.insert true, .closeQueue, .closeWriter] := by
  rwa [AtPc, pc] at ht

theorem AtPc.finished (ht : t.AtPc fb) (pc : t.pc = .finished) :
    t.receiver = none ∧ t.ended.isSome ∧
      t.calls = [.insert true, .closeQueue, .closeWriter, .remove t.addr] := by
  rwa [AtPc, pc] at ht

theorem AtPc.refused_of_mem (ht : t.AtPc fb) (h : .insert false ∈ t.calls) :
    t.Idle ∧ t.calls = [.insert false] := by
  cases hpc : t.pc with
  | insert =>
    rw [(ht.inserting hpc).2.2] at h
    cases h
  | refused =>
    rw [AtPc, hpc] at ht
    exact ⟨ht.1, ht.2.2⟩
  | handshake message => simp [(ht.greeting hpc).2.2.2] at h
  | running handler => simp [(ht.running hpc).2.2.2.2] at h
  | closing unflushed => simp [(ht.closing hpc).2.2.2] at h
  | removing => simp [(ht.removing hpc).2.2] at h
  | finished => simp [(ht.finished hpc).2.2] at h
  | panicked p =>
    rw [AtPc, hpc] at ht
    exact ht.elim

/-- Only a task that has finished has removed an address, and it is its own. -/
theorem AtPc.finished_of_mem (ht : t.AtPc fb) {addr : SocketAddr} (h : .remove addr ∈ t.calls) :
    addr = t.addr ∧ t.pc = .finished := by
  cases hpc : t.pc with
  | insert =>
    rw [(ht.inserting hpc).2.2] at h
    cases h
  | refused =>
    rw [AtPc, hpc] at ht
    simp [ht.2.2] at h
  | handshake message => simp [(ht.greeting hpc).2.2.2] at h
  | running handler => simp [(ht.running hpc).2.2.2.2] at h
  | closing unflushed => simp [(ht.closing hpc).2.2.2] at h
  | removing => simp [(ht.removing hpc).2.2] at h
  | finished =>
    rw [(ht.finished hpc).2.2] at h
    exact ⟨by simpa using h, rfl⟩
  | panicked p =>
    rw [AtPc, hpc] at ht
    exact ht.elim

theorem AtPc.selecting (ht : t.AtPc fb) {disabled : Finset (Fin 2)} (pc : t.pc = .running (.select disabled)) :
    t.handling = none := (ht.running pc).2.1.1

theorem AtPc.writing (ht : t.AtPc fb) {write : Write} (pc : t.pc = .running (.writing write)) :
    write.Of fb t.handling := (ht.running pc).2.1

theorem AtPc.unflushed (ht : t.AtPc fb) {write : Write} (pc : t.pc = .closing (some write)) :
    write.Of fb t.handling := (ht.closing pc).2.1 write rfl

end

/-- While the message handler waits, its queue branch is enabled and the queue
cannot yield `None`: the read loop still has the sender. -/
theorem AtPc.queueArm {t : Task SocketAddr} (ht : t.AtPc fb) {disabled : Finset (Fin 2)}
    (hpc : t.pc = .running (.select disabled)) : ¬ (0 ∈ disabled ∨ t.queue.closed = true ∨ t.queue.senders = 0) := by
  obtain ⟨hopen, ⟨-, henabled⟩, -⟩ := ht.running hpc
  rintro (h | h | h)
  · exact henabled h
  · rw [hopen.closed] at h
    cases h
  · exact absurd h hopen.senders.ne'

theorem AtPc.refused {t : Task SocketAddr} (ht : t.AtPc fb) (hopen : t.ended = none) : t.refused = none := by
  unfold AtPc at ht
  split at ht
  · exact ht.2.1.refused
  · exact ht.1.refused
  · exact ht.2.1.refused
  · exact ht.2.2.1
  · simp [hopen] at ht
  · simp [hopen] at ht
  · simp [hopen] at ht
  · exact ht.elim

private theorem endSelect_atPc (sh : Shared SocketAddr) {t : Task SocketAddr} (why : Ended)
    {unflushed : Option Write} (hcalls : t.calls = [.insert true])
    (hunflushed : ∀ write ∈ unflushed, write.Of fb t.handling) : (endSelect sh t why unflushed).2.AtPc fb :=
  ⟨rfl, hunflushed, rfl, by rw [endSelect, hcalls]; rfl⟩

variable [DecidableEq SocketAddr] {sh sh' : Shared SocketAddr} {t t' : Task SocketAddr} {e : TaskEvent}

theorem Moves.addr (h : Moves fb sh t e (sh', t')) : t'.addr = t.addr := by
  cases h with
  | handshakeSent => rfl
  | delivered write => cases write <;> rfl
  | flushed write => cases write <;> rfl
  | _ => rfl

/-- Every step leads to a task as its new point of `start` has it; in particular
no poll of the message handler's select runs out of branches. -/
theorem Moves.atPc (h : Moves fb sh t e (sh', t')) (ht : t.AtPc fb) : t'.AtPc fb := by
  cases h with
  | refused pc full =>
    obtain ⟨hopen, hidle, hcalls⟩ := ht.inserting pc
    exact ⟨⟨hidle.buffer, hidle.read, hidle.handled, hidle.handling, hidle.refused, hidle.written, hidle.ended⟩,
      rfl, by simp [hcalls]⟩
  | admitted old manager pc inserted =>
    obtain ⟨hopen, hidle, hcalls⟩ := ht.inserting pc
    exact ⟨⟨hopen.closed, hopen.senders, hopen.receiver⟩,
      ⟨hidle.buffer, hidle.read, hidle.handled, hidle.handling, hidle.refused, hidle.written, hidle.ended⟩,
      rfl, by simp [hcalls]⟩
  | handshakeSent message ok pc =>
    obtain ⟨hopen, hidle, -, hcalls⟩ := ht.greeting pc
    exact ⟨⟨hopen.closed, hopen.senders, hopen.receiver⟩, ⟨hidle.handling, by simp⟩, hidle.refused,
      hidle.ended, hcalls⟩
  | queued handler message queue pc sent =>
    obtain ⟨hopen, hhandler, hrefused, hended, hcalls⟩ := ht.running pc
    obtain ⟨-, -, -, -, hsenders, hclosed⟩ := Mpsc.trySend_ok sent
    simp only [AtPc, pc]
    exact ⟨⟨hclosed.trans hopen.closed, hsenders ▸ hopen.senders, hopen.receiver⟩, hhandler, hrefused, hended,
      hcalls⟩
  | readEnded handler item error pc hread =>
    obtain ⟨hopen, hhandler, hrefused, hended, hcalls⟩ := ht.running pc
    refine endSelect_atPc sh _ hcalls fun write hwrite => ?_
    cases handler with
    | select disabled => cases hwrite
    | writing w =>
      obtain rfl := Option.some.inj hwrite
      exact hhandler
  | handled disabled start next next' msg queue pc receiver took skipped accepted reply =>
    obtain ⟨hopen, ⟨hhandling, -⟩, hrefused, hended, hcalls⟩ := ht.running pc
    exact ⟨⟨took.closed.trans hopen.closed, took.senders ▸ hopen.senders, rfl⟩, ⟨hhandling, by simp⟩, hrefused,
      hended, hcalls⟩
  | replying disabled start next next' msg toSend queue pc receiver took skipped accepted reply =>
    obtain ⟨hopen, ⟨hhandling, -⟩, hrefused, hended, hcalls⟩ := ht.running pc
    exact ⟨⟨took.closed.trans hopen.closed, took.senders ▸ hopen.senders, rfl⟩, ⟨msg, rfl, accepted, reply⟩,
      hrefused, hended, hcalls⟩
  | rejected disabled start next next' msg error queue pc receiver took skipped refused herror =>
    obtain ⟨-, -, -, -, hcalls⟩ := ht.running pc
    exact endSelect_atPc sh _ hcalls (by simp)
  | sendingToAll disabled start next msgBytes pc receiver current sent enabled =>
    obtain ⟨hopen, ⟨hhandling, -⟩, hrefused, hended, hcalls⟩ := ht.running pc
    exact ⟨⟨hopen.closed, hopen.senders, rfl⟩, hhandling, hrefused, hended, hcalls⟩
  | waiting disabled disabled' start next next' pc receiver skipped queueArm sendToAllArm =>
    have harm := ht.queueArm pc
    obtain ⟨hopen, ⟨hhandling, -⟩, hrefused, hended, hcalls⟩ := ht.running pc
    exact ⟨⟨hopen.closed, hopen.senders, rfl⟩, ⟨hhandling, fun hd => harm (queueArm hd)⟩, hrefused, hended,
      hcalls⟩
  | stuck disabled start p pc queueArm => exact absurd queueArm (ht.queueArm pc)
  | delivered write pc =>
    obtain ⟨hopen, hwrite, hrefused, hended, hcalls⟩ := ht.running pc
    cases write with
    | reply toSend =>
      exact ⟨⟨hopen.closed, hopen.senders, hopen.receiver⟩, ⟨rfl, by simp⟩, hrefused, hended, hcalls⟩
    | sendToAll msgBytes =>
      exact ⟨⟨hopen.closed, hopen.senders, hopen.receiver⟩, ⟨hwrite, by simp⟩, hrefused, hended, hcalls⟩
  | sendFailed write why pc reason =>
    obtain ⟨-, -, -, -, hcalls⟩ := ht.running pc
    exact endSelect_atPc sh _ hcalls (by simp)
  | writerClosed unflushed flushed pc =>
    obtain ⟨hreceiver, -, hended, hcalls⟩ := ht.closing pc
    exact ⟨hreceiver, hended, by simp [hcalls]⟩
  | flushed write pc =>
    obtain ⟨hreceiver, -, hended, hcalls⟩ := ht.closing pc
    cases write <;> exact ⟨hreceiver, hended, by simp [hcalls]⟩
  | removed pc =>
    obtain ⟨hreceiver, hended, hcalls⟩ := ht.removing pc
    exact ⟨hreceiver, hended, by simp [hcalls]⟩

/-- What a task records as a call is what the step does to the table and to the queue. -/
inductive Performs (sh : Shared SocketAddr) (t : Task SocketAddr) :
    TaskEvent → Call SocketAddr → Shared SocketAddr × Task SocketAddr → Prop where
  | refused {next : Shared SocketAddr × Task SocketAddr} (full : sh.manager.capacity ≤ sh.manager.numConnections)
      (manager : next.1.manager = sh.manager) (queue : next.2.queue.closed = t.queue.closed) :
      Performs sh t .insert (.insert false) next
  | admitted {next : Shared SocketAddr × Task SocketAddr} (room : sh.manager.numConnections < sh.manager.capacity)
      (addresses : next.1.manager.addresses = Insert.insert t.addr sh.manager.addresses)
      (queue : next.2.queue.closed = t.queue.closed) : Performs sh t .insert (.insert true) next
  | closedQueue {next : Shared SocketAddr × Task SocketAddr} (e : TaskEvent) (cleanup : e.cleanup t.addr = none)
      (manager : next.1.manager = sh.manager) (queue : next.2.queue.closed = true) : Performs sh t e .closeQueue next
  | closedWriter {next : Shared SocketAddr × Task SocketAddr} (flushed : Bool) (manager : next.1.manager = sh.manager)
      (queue : next.2.queue.closed = t.queue.closed) : Performs sh t (.closed flushed) .closeWriter next
  | removed {next : Shared SocketAddr × Task SocketAddr}
      (addresses : next.1.manager.addresses = sh.manager.addresses.erase t.addr)
      (queue : next.2.queue.closed = t.queue.closed) : Performs sh t .remove (.remove t.addr) next

/-- A step records one call, which it performs, or it leaves the table and the ends of the
queue as they were. -/
theorem Moves.performs {next : Shared SocketAddr × Task SocketAddr} (h : Moves fb sh t e next) :
    (∃ call, next.2.calls = t.calls ++ [call] ∧ Performs sh t e call next) ∨
    next.2.calls = t.calls ∧ e.cleanup t.addr = none ∧ next.1.manager = sh.manager ∧
      next.2.queue.closed = t.queue.closed := by
  cases h with
  | refused pc full => exact .inl ⟨_, rfl, .refused full rfl rfl⟩
  | admitted old manager pc inserted =>
    obtain ⟨hroom, -, haddresses⟩ := ConnectionManager.insert_ok inserted
    exact .inl ⟨_, rfl, .admitted hroom haddresses rfl⟩
  | readEnded | rejected | sendFailed => exact .inl ⟨_, rfl, .closedQueue _ rfl rfl rfl⟩
  | writerClosed unflushed flushed => exact .inl ⟨_, rfl, .closedWriter flushed rfl rfl⟩
  | flushed write => cases write <;> exact .inl ⟨_, rfl, .closedWriter true rfl rfl⟩
  | removed => exact .inl ⟨_, rfl, .removed (ConnectionManager.addresses_remove _ _) rfl⟩
  | queued handler message queue pc sent =>
    obtain ⟨-, -, -, -, -, hclosed⟩ := Mpsc.trySend_ok sent
    exact .inr ⟨rfl, rfl, rfl, hclosed⟩
  | handled _ _ _ _ _ _ _ _ took | replying _ _ _ _ _ _ _ _ _ took => exact .inr ⟨rfl, rfl, rfl, took.closed⟩
  | delivered write => cases write <;> exact .inr ⟨rfl, rfl, rfl, rfl⟩
  | handshakeSent | sendingToAll | waiting | stuck => exact .inr ⟨rfl, rfl, rfl, rfl⟩

/-- Of the steps of a task only its remove takes an entry from the table, and it is its own. -/
theorem Moves.entries {next : Shared SocketAddr × Task SocketAddr} (h : Moves fb sh t e next) :
    e = .remove ∧ next.1.manager.addresses = sh.manager.addresses.erase t.addr ∨
      e ≠ .remove ∧ sh.manager.addresses ⊆ next.1.manager.addresses := by
  have hsame (hmanager : next.1.manager = sh.manager) : sh.manager.addresses ⊆ next.1.manager.addresses := by
    rw [hmanager]
  rcases h.performs with ⟨call, -, hperforms⟩ | ⟨-, hcleanup, hmanager, -⟩
  · cases hperforms with
    | refused full manager => exact .inr ⟨nofun, hsame manager⟩
    | admitted room addresses => exact .inr ⟨nofun, addresses ▸ Finset.subset_insert _ _⟩
    | closedQueue e cleanup manager =>
      refine .inr ⟨?_, hsame manager⟩
      rintro rfl
      cases cleanup
    | closedWriter flushed manager => exact .inr ⟨nofun, hsame manager⟩
    | removed addresses => exact .inl ⟨rfl, addresses⟩
  · refine .inr ⟨?_, hsame hmanager⟩
    rintro rfl
    cases hcleanup

theorem Moves.closed {next : Shared SocketAddr × Task SocketAddr} (h : Moves fb sh t e next)
    (ht : t.queue.closed = true ↔ .closeQueue ∈ t.calls) :
    next.2.queue.closed = true ↔ .closeQueue ∈ next.2.calls := by
  rcases h.performs with ⟨call, hcalls, hperforms⟩ | ⟨hcalls, -, -, hqueue⟩
  · rw [hcalls, List.mem_append, ← ht]
    cases hperforms with
    | closedQueue e cleanup manager queue => simp [queue]
    | refused full manager queue | admitted room addresses queue | closedWriter flushed manager queue
    | removed addresses queue => simp [queue]
  · rw [hcalls, hqueue, ht]

theorem Moves.cleanup {next : Shared SocketAddr × Task SocketAddr} (h : Moves fb sh t e next) :
    next.2.calls.filter Call.cleanup = t.calls.filter Call.cleanup ++ (e.cleanup t.addr).toList := by
  rcases h.performs with ⟨call, hcalls, hperforms⟩ | ⟨hcalls, hcleanup, -, -⟩
  · rw [hcalls, List.filter_append]
    cases hperforms with
    | closedQueue e cleanup manager queue => rw [cleanup]; rfl
    | refused | admitted | closedWriter | removed => rfl
  · rw [hcalls, hcleanup, Option.toList_none, List.append_nil]

end Task

namespace Endpoint
variable {SocketAddr : Type} [DecidableEq SocketAddr] {fb : Flexbuffers}

/-- A task in its surroundings keeps its address and stays as its point of `start` has it. -/
theorem Moves.atPc {s s' : Endpoint SocketAddr} {e : EndpointEvent SocketAddr} (h : Moves fb s e s')
    (hs : s.task.AtPc fb) : s'.task.AtPc fb ∧ s'.task.addr = s.task.addr := by
  cases h with
  | task e next moves => exact ⟨moves.atPc hs, moves.addr⟩
  | sendToAll => exact ⟨hs, rfl⟩
  | others => exact ⟨hs, rfl⟩

theorem run_atPc {sh : Shared SocketAddr} {addr : SocketAddr} {maxPendingMessages next : Nat}
    {es : List (EndpointEvent SocketAddr)} {s : Endpoint SocketAddr}
    (h : Machine.run (step fb) (start sh addr maxPendingMessages next) es = some s) :
    s.task.AtPc fb ∧ s.task.addr = addr := by
  refine Machine.run_invariant (P := fun s => s.task.AtPc fb ∧ s.task.addr = addr) ?_
    ⟨Task.spawn_atPc addr maxPendingMessages next, rfl⟩ h
  rintro s e s' ⟨hs, haddr⟩ hstep
  obtain ⟨hs', haddr'⟩ := (step_moves hstep).atPc hs
  exact ⟨hs', haddr'.trans haddr⟩

/-- The cleanup that a task has recorded is what the events of its run were, and its queue
is closed when it has recorded that. -/
theorem run_calls {sh : Shared SocketAddr} {addr : SocketAddr} {maxPendingMessages next : Nat}
    {es : List (EndpointEvent SocketAddr)} {s : Endpoint SocketAddr}
    (h : Machine.run (step fb) (start sh addr maxPendingMessages next) es = some s) :
    es.filterMap (·.cleanup addr) = s.task.calls.filter Call.cleanup ∧
      (s.task.queue.closed = true ↔ .closeQueue ∈ s.task.calls) := by
  induction es using List.reverseRecOn generalizing s with
  | nil =>
    obtain rfl := Option.some.inj h
    simp [start, Task.spawn, Mpsc.empty]
  | append_singleton es e ih =>
    obtain ⟨u, hu, hstep⟩ := Machine.run_concat.mp h
    obtain ⟨hcleanup, hclosed⟩ := ih hu
    rw [List.filterMap_append, hcleanup]
    cases step_moves hstep with
    | task e next moves =>
      refine ⟨?_, moves.closed hclosed⟩
      rw [moves.cleanup, (run_atPc hu).2]
      cases h : e.cleanup addr <;> simp [EndpointEvent.cleanup, h]
    | sendToAll | others => exact ⟨List.append_nil _, hclosed⟩

/-- An insert is refused by a full table only. A refused task stays silent and never calls
remove. An admitted one never panics, and its select never runs out of branches. Only its
remove takes an entry from the table, and it is its own; by then the queue and the writer
have been closed. When the task can take no step, it was refused, or it has closed the queue
and the writer and then called remove, once. -/
theorem run_cleans_up {sh : Shared SocketAddr} {addr : SocketAddr} {maxPendingMessages next : Nat}
    {es : List (EndpointEvent SocketAddr)} {s : Endpoint SocketAddr}
    (h : Machine.run (step fb) (start sh addr maxPendingMessages next) es = some s) :
    (∀ s', step fb s (.task .insert) = some s' →
      s'.task.calls = [.insert false] ∧ s.shared.manager.capacity ≤ s.shared.manager.numConnections ∧
        s'.shared.manager = s.shared.manager ∨
      s'.task.calls = [.insert true] ∧ s.shared.manager.numConnections < s.shared.manager.capacity ∧
        s'.shared.manager.addresses = Insert.insert addr s.shared.manager.addresses) ∧
    (.insert false ∈ s.task.calls → s.task.written = [] ∧ (∀ a, .remove a ∉ s.task.calls) ∧
      es.filterMap (·.cleanup addr) = []) ∧
    (∀ p, s.task.pc ≠ .panicked p) ∧
    (∀ disabled next, s.task.pc = .running (.select disabled) → s.task.receiver = some next →
      ∀ start rest, Select.poll (arms s.shared.sendToAll) start disabled (s.task.queue, next) ≠ (.allDisabled, rest)) ∧
    (∀ a, .remove a ∈ s.task.calls → a = addr ∧ s.task.pc = .finished) ∧
    (s.task.queue.closed = true ↔ .closeQueue ∈ s.task.calls) ∧
    (∀ e s', step fb s (.task e) = some s' →
      e = .remove ∧ s.task.queue.closed = true ∧ es.filterMap (·.cleanup addr) = [.closeWriter] ∧
        s'.shared.manager.addresses = s.shared.manager.addresses.erase addr ∧ s'.task.pc = .finished ∨
      e ≠ .remove ∧ s.shared.manager.addresses ⊆ s'.shared.manager.addresses) ∧
    ((∀ e, s.task.step fb s.shared e = none) →
      s.task.calls = [.insert false] ∨
      s.task.calls = [.insert true, .closeQueue, .closeWriter, .remove addr] ∧ s.task.queue.closed = true ∧
        es.filterMap (·.cleanup addr) = [.closeWriter, .remove addr]) := by
  obtain ⟨hcleanup, hclosed⟩ := run_calls h
  obtain ⟨ht, rfl⟩ := run_atPc h
  refine ⟨fun s' hstep => ?_, fun hrefused => ?_, fun p hp => ?_, fun disabled next hpc hnext start rest hpoll => ?_,
    fun a ha => ?_, hclosed, fun e s' hstep => ?_, fun hstop => ?_⟩
  · obtain ⟨next', hnext, rfl⟩ := Option.map_eq_some_iff.mp hstep
    cases Task.step_moves hnext with
    | refused pc full => exact .inl ⟨by simp [(ht.inserting pc).2.2], full, rfl⟩
    | admitted old manager pc inserted =>
      obtain ⟨hroom, -, haddresses⟩ := ConnectionManager.insert_ok inserted
      exact .inr ⟨by simp [(ht.inserting pc).2.2], hroom, haddresses⟩
  · obtain ⟨hidle, hcalls⟩ := ht.refused_of_mem hrefused
    rw [hcleanup, hcalls]
    exact ⟨hidle.written, by simp, rfl⟩
  · rw [Task.AtPc, hp] at ht
    exact ht
  · have hpolled := Task.polled s.shared.sendToAll start disabled s.task.queue next
    rw [hpoll] at hpolled
    cases hpolled with
    | stuck _ queueArm => exact ht.queueArm hpc queueArm
  · exact ht.finished_of_mem ha
  · obtain ⟨next', hnext, rfl⟩ := Option.map_eq_some_iff.mp hstep
    have hmoves := Task.step_moves hnext
    rcases hmoves.entries with ⟨rfl, herase⟩ | hkept
    · cases hmoves with
      | removed pc =>
        obtain ⟨-, -, hcalls⟩ := ht.removing pc
        rw [hcleanup, hclosed, hcalls]
        exact .inl ⟨rfl, by simp, rfl, herase, rfl⟩
    · exact .inr hkept
  · cases hpc : s.task.pc with
    | insert => simpa [Task.step, hpc] using hstop .insert
    | refused =>
      rw [Task.AtPc, hpc] at ht
      exact .inl ht.2.2
    | handshake message => simpa [Task.step, hpc] using hstop (.sent true)
    | running handler => simpa [Task.step, hpc] using hstop (.read none)
    | closing unflushed => simpa [Task.step, hpc] using hstop (.closed true)
    | removing => simpa [Task.step, hpc] using hstop .remove
    | finished =>
      have hcalls := (ht.finished hpc).2.2
      rw [hcleanup, hclosed, hcalls]
      exact .inr ⟨rfl, by simp, rfl⟩
    | panicked p =>
      rw [Task.AtPc, hpc] at ht
      exact ht.elim

/-- A task accepted from a peer on the same host, with a table for one connection
and a ring of two messages. -/
def accepted : Endpoint SocketAddrV4 :=
  start ⟨.new 1, (Broadcast.empty 2 (by decide)).subscribe.2, ⟨false⟩, .unixEpoch⟩
    ⟨(127, 0, 0, 1), 25188⟩ 4 0

/-- The peer closes the connection at once. -/
def closedByPeer : List (EndpointEvent SocketAddrV4) :=
  [.task .insert, .task (.sent true), .task (.read none), .task (.closed false), .task .remove]

theorem run_cleans_up_eof :
    ∃ s, Machine.run (step Codec.flexbuffers) accepted closedByPeer = some s ∧
      s.task.calls = [.insert true, .closeQueue, .closeWriter, .remove ⟨(127, 0, 0, 1), 25188⟩] ∧
      (∀ p, s.task.pc ≠ .panicked p) ∧ s.task.queue.closed = true := by
  obtain ⟨s, hs, hcalls⟩ : ∃ s, Machine.run (step Codec.flexbuffers) accepted closedByPeer = some s ∧
      s.task.calls = [.insert true, .closeQueue, .closeWriter, .remove ⟨(127, 0, 0, 1), 25188⟩] :=
    Machine.exists_run (fun s : Endpoint SocketAddrV4 => s.task.calls =
      [.insert true, .closeQueue, .closeWriter, .remove ⟨(127, 0, 0, 1), 25188⟩]) (by decide)
  obtain ⟨-, -, halive, -, -, hclosed, -⟩ := run_cleans_up hs
  exact ⟨s, hs, hcalls, halive, hclosed.mpr (by simp [hcalls])⟩

end Endpoint

end Braidpool.Connection
