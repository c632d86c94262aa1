import Braidpool.Connection.Manager
import Braidpool.Runtime.Select

/-! The task of one connection: admission, handshake, the read loop and the
message handler under one select, and the cleanup. A task stops only where the
source awaits, so each function below runs from one await to the next. -/
namespace Braidpool.Connection
open Braidpool.Runtime Braidpool.Protocol

/-- One iteration of the read loop for an item of the framed reader. It loops
with the new queue, or returns an error. -/
def startReadLoop (channelSender : Mpsc Bytes) : Option (Except String Bytes) → Except String (Mpsc Bytes)
  | some (.ok message) =>
    match channelSender.trySend message with
    | .ok channelSender => .ok channelSender
    | .error (.full _) => .error "Sender flooding channel"
    | .error (.closed _) => .error "Receiver closed for channel"
  | some (.error _) => .error "Message receive: peer closed connection"
  | none => .error "Receive: peer closed connection"

/-- How far `handle_received` gets without waiting for the writer. -/
inductive Handling where
  | returned (result : Except String Unit)
  | sending (toSend : Bytes)

def handleReceived (fb : Flexbuffers) (msg : Bytes) : MayPanic Handling :=
  match Message.fromBytes fb msg with
  | .error _ => .ok (.returned (.error "Error parsing message"))
  | .ok message =>
    match message.responseForReceived with
    | .ok (some response) =>
      match response.asBytes fb with
      | .ok (some toSend) => .ok (.sending toSend)
      | .ok none => .ok (.returned (.error "Error serializing: Closing peer connection"))
      | .error p => .error p
    | .ok none => .ok (.returned (.ok ()))
    | .error _ => .ok (.returned (.error "Error constructing response: Closing peer connection"))

/-- What the select of the message handler completes with. -/
inductive Arm where
  | message (msg : Bytes)
  | sendToAll (msgBytes : Bytes)
  deriving DecidableEq

abbrev queueBranch : Fin 2 := 0

abbrev sendToAllBranch : Fin 2 := 1

/-- The two branches, `Some(msg) = channel_receiver.recv()` and
`Ok(msg_bytes) = send_to_all_receiver.recv()`. -/
def arms (sendToAll : Broadcast Bytes) : Fin 2 → Select.Branch (Mpsc Bytes × Nat) Arm
  | 0 => fun s => (s.1.recv.1.map fun msg => msg.map .message, (s.1.recv.2, s.2))
  | 1 => fun s => ((sendToAll.recv s.2).1.map fun msg => msg.toOption.map .sendToAll, (s.1, (sendToAll.recv s.2).2))

/-- A write of the message handler that the writer has not completed. -/
inductive Write where
  | reply (toSend : Bytes)
  | sendToAll (msgBytes : Bytes)
  deriving DecidableEq

inductive HandlerState where
  | select (disabled : Finset (Fin 2))
  | writing (write : Write)
  deriving DecidableEq

/-- The write that is lost or flushed when the handler is dropped in this state. -/
def HandlerState.unflushed : HandlerState → Option Write
  | .select _ => none
  | .writing write => some write

/-- Where the task waits. In `running` the read loop waits for its reader, and
the message handler as given. -/
inductive Pc where
  | insert
  | refused
  | handshake (message : Bytes)
  | running (handler : HandlerState)
  | closing (unflushed : Option Write)
  | removing
  | finished
  | panicked (panic : Panic)
  deriving DecidableEq

/-- Which future ended the select of `start`, and with what error. The message
handler has its own text for an error of `handle_received`, kept as the cause. -/
inductive Ended where
  | readLoop (error : String)
  | messageHandler (error : String) (cause : Option String)
  deriving DecidableEq

def Ended.handleReceived (cause : String) : Ended :=
  .messageHandler "Message handling failure: Closing peer connection" (some cause)

def Ended.sendToAll : Ended := .messageHandler "Send failed: Closing peer connection" none

inductive Call (SocketAddr : Type) where
  | insert (ok : Bool)
  | closeQueue
  | closeWriter
  | remove (addr : SocketAddr)
  deriving DecidableEq

/-- A task of `start`. From `read` on, the fields record what it has done: the
frames read, those handled, the one being handled, the one the queue refused,
the frames delivered to the peer, and the calls of admission and cleanup. -/
structure Task (SocketAddr : Type) where
  addr : SocketAddr
  pc : Pc
  queue : Mpsc Bytes
  receiver : Option Nat
  read : List Bytes
  handled : List Bytes
  handling : Option Bytes
  refused : Option Bytes
  written : List Bytes
  ended : Option Ended
  calls : List (Call SocketAddr)
  deriving DecidableEq

/-- What the tasks of a node share. -/
structure Shared (SocketAddr : Type) where
  manager : ConnectionManager SocketAddr
  sendToAll : Broadcast Bytes
  notifier : Notify
  now : SystemTime

def Shared.subscribe {SocketAddr : Type} (sh : Shared SocketAddr) : Nat × Shared SocketAddr :=
  (sh.sendToAll.subscribe.1, { sh with sendToAll := sh.sendToAll.subscribe.2 })

/-- What a task waits for, with the outcome. A writer that is closed may still
flush the write that was dropped with the handler. -/
inductive TaskEvent where
  | insert
  | sent (ok : Bool)
  | read (item : Option (Except String Bytes))
  | poll (start : Fin 2)
  | closed (flushed : Bool)
  | remove
  deriving DecidableEq

namespace Task
variable {SocketAddr : Type}

/-- The task that `start_connection` spawns. -/
def spawn (addr : SocketAddr) (queue : Mpsc Bytes) (receiver : Nat) : Task SocketAddr :=
  ⟨addr, .insert, queue, some receiver, [], [], none, none, [], none, []⟩

def startConnection (addr : SocketAddr) (maxPendingMessages receiver : Nat) : MayPanic (Task SocketAddr) := do
  return spawn addr (← Mpsc.channel maxPendingMessages) receiver

theorem startConnection_eq_ok {addr : SocketAddr} {maxPendingMessages receiver : Nat} {t : Task SocketAddr} :
    startConnection addr maxPendingMessages receiver = .ok t ↔
      (0 < maxPendingMessages ∧ maxPendingMessages ≤ Mpsc.maxPermits) ∧
        t = spawn addr (.empty maxPendingMessages) receiver := by
  constructor
  · intro h
    obtain ⟨queue, hqueue, ht⟩ := bind_eq_ok.mp h
    obtain ⟨hlimits, rfl⟩ := Mpsc.channel_eq_ok.mp hqueue
    exact ⟨hlimits, (Except.ok.inj ht).symm⟩
  · rintro ⟨hlimits, rfl⟩
    exact bind_eq_ok.mpr ⟨_, Mpsc.channel_eq_ok.mpr ⟨hlimits, rfl⟩, rfl⟩

/-- One of the futures of the select has returned: both are dropped, and with
them the queue's sender and the broadcast receiver; then the queue is closed. -/
def endSelect (sh : Shared SocketAddr) (t : Task SocketAddr) (why : Ended) (unflushed : Option Write) :
    Shared SocketAddr × Task SocketAddr :=
  ({ sh with sendToAll := sh.sendToAll.dropReceiver },
    { t with
      pc := .closing unflushed
      queue := t.queue.dropSender.close
      receiver := none
      ended := some why
      calls := t.calls ++ [.closeQueue] })

/-- Unwinding drops the futures and skips the cleanup. -/
def unwind (sh : Shared SocketAddr) (t : Task SocketAddr) (p : Panic) : Shared SocketAddr × Task SocketAddr :=
  ({ sh with sendToAll := sh.sendToAll.dropReceiver }, { t with pc := .panicked p, receiver := none })

def handshakeBytes (fb : Flexbuffers) (addr : SocketAddr) : MayPanic Bytes := do
  let message ← MayPanic.unwrap (HandshakeMessage.start addr)
  MayPanic.unwrap (← message.asBytes fb)

def insert [DecidableEq SocketAddr] (fb : Flexbuffers) (sh : Shared SocketAddr) (t : Task SocketAddr) :
    Shared SocketAddr × Task SocketAddr :=
  match sh.manager.insert t.addr ⟨sh.now⟩ with
  | .error _ =>
    ({ sh with sendToAll := sh.sendToAll.dropReceiver },
      { t with pc := .refused, queue := t.queue.dropSender, receiver := none, calls := t.calls ++ [.insert false] })
  | .ok (_, manager) =>
    match handshakeBytes fb t.addr with
    | .ok message =>
      ({ sh with manager }, { t with pc := .handshake message, calls := t.calls ++ [.insert true] })
    | .error p => unwind { sh with manager } { t with calls := t.calls ++ [.insert true] } p

/-- The result of sending the handshake is not looked at. -/
def handshakeSent (t : Task SocketAddr) (message : Bytes) (ok : Bool) : Task SocketAddr :=
  { t with pc := .running (.select ∅), written := if ok then t.written ++ [message] else t.written }

def readItem (sh : Shared SocketAddr) (t : Task SocketAddr) (handler : HandlerState)
    (item : Option (Except String Bytes)) : Shared SocketAddr × Task SocketAddr :=
  let frame := item.bind Except.toOption
  match startReadLoop t.queue item with
  | .ok queue => (sh, { t with queue, read := t.read ++ frame.toList })
  | .error e =>
    endSelect sh { t with read := t.read ++ frame.toList, refused := frame } (.readLoop e) handler.unflushed

/-- The handler goes on with a frame taken from the queue. Once it is handled,
`notifier.notified()` builds a future and drops it, which leaves the permit. -/
def received (fb : Flexbuffers) (sh : Shared SocketAddr) (t : Task SocketAddr) (msg : Bytes) :
    Shared SocketAddr × Task SocketAddr :=
  match handleReceived fb msg with
  | .ok (.returned (.ok ())) => (sh, { t with pc := .running (.select ∅), handled := t.handled ++ [msg] })
  | .ok (.returned (.error e)) => endSelect sh { t with handling := some msg } (.handleReceived e) none
  | .ok (.sending toSend) => (sh, { t with pc := .running (.writing (.reply toSend)), handling := some msg })
  | .error p => unwind sh { t with handling := some msg } p

def poll (fb : Flexbuffers) (sh : Shared SocketAddr) (t : Task SocketAddr) (disabled : Finset (Fin 2))
    (start : Fin 2) (receiver : Nat) : Shared SocketAddr × Task SocketAddr :=
  match Select.poll (arms sh.sendToAll) start disabled (t.queue, receiver) with
  | (.completed (.message msg), queue, receiver) => received fb sh { t with queue, receiver := some receiver } msg
  | (.completed (.sendToAll msgBytes), queue, receiver) =>
    (sh, { t with pc := .running (.writing (.sendToAll msgBytes)), queue, receiver := some receiver })
  | (.pending disabled, queue, receiver) =>
    (sh, { t with pc := .running (.select disabled), queue, receiver := some receiver })
  | (.allDisabled, _, _) => unwind sh t ⟨"all branches are disabled and there is no else branch"⟩

def deliver (t : Task SocketAddr) : Write → Task SocketAddr
  | .reply toSend =>
    { t with written := t.written ++ [toSend], handled := t.handled ++ t.handling.toList, handling := none }
  | .sendToAll msgBytes => { t with written := t.written ++ [msgBytes] }

def writeDone (sh : Shared SocketAddr) (t : Task SocketAddr) (write : Write) (ok : Bool) :
    Shared SocketAddr × Task SocketAddr :=
  if ok then (sh, { t.deliver write with pc := .running (.select ∅) })
  else match write with
    | .reply _ => endSelect sh t (.handleReceived "Send failed: Closing peer connection") none
    | .sendToAll _ => endSelect sh t .sendToAll none

def writerClosed (t : Task SocketAddr) (unflushed : Option Write) (flushed : Bool) : Task SocketAddr :=
  let t := match unflushed with
    | some write => if flushed then t.deliver write else t
    | none => t
  { t with pc := .removing, calls := t.calls ++ [.closeWriter] }

def remove [DecidableEq SocketAddr] (sh : Shared SocketAddr) (t : Task SocketAddr) :
    Shared SocketAddr × Task SocketAddr :=
  ({ sh with manager := (sh.manager.remove t.addr).2 },
    { t with pc := .finished, calls := t.calls ++ [.remove t.addr] })

/-- What the event makes of the task and of what it shares; an event that the
task does not wait for is not enabled. -/
def step [DecidableEq SocketAddr] (fb : Flexbuffers) (sh : Shared SocketAddr) (t : Task SocketAddr)
    (e : TaskEvent) : Option (Shared SocketAddr × Task SocketAddr) :=
  match t.pc, e with
  | .insert, .insert => some (t.insert fb sh)
  | .handshake message, .sent ok => some (sh, t.handshakeSent message ok)
  | .running handler, .read item => some (t.readItem sh handler item)
  | .running (.select disabled), .poll start =>
    t.receiver.map fun receiver => t.poll fb sh disabled start receiver
  | .running (.writing write), .sent ok => some (t.writeDone sh write ok)
  | .closing unflushed, .closed flushed => some (sh, t.writerClosed unflushed flushed)
  | .removing, .remove => some (t.remove sh)
  | _, _ => none

end Task

end Braidpool.Connection
