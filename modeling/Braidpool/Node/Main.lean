import Braidpool.Connection.Endpoint

/-! The whole node: its configuration, `main`, the heartbeat task, and the connections, each
from the subscription of its receiver on. Their steps interleave in any order. -/
namespace Braidpool.Config

/-- The configuration, with the defaults of its fields. -/
structure NetworkConfig where
  bind : String := "localhost"
  port : Nat := 6680
  deriving DecidableEq

structure PeerConfig where
  seeds : List String := []
  maxPeerCount : Nat := 10
  maxPendingMessages : Nat := 32
  maxPendingSendToAll : Nat := 128
  heartbeatInterval : Nat := 1000
  deriving DecidableEq

end Braidpool.Config

namespace Braidpool

structure Config where
  network : Config.NetworkConfig := {}
  peer : Config.PeerConfig := {}
  deriving DecidableEq

/-- The parser of the toml crate is a parameter. -/
def parseConfigFromString (fromStr : String → Except String (Option Config)) (contents : String) : Option Config :=
  match fromStr contents with
  | .ok config => config
  | .error _ => none

/-- Without a file the defaults are used. -/
def loadConfigFromFile (readFile : String → Except String String) (fromStr : String → Except String (Option Config))
    (path : String) : Option Config :=
  match readFile path with
  | .error _ => some {}
  | .ok contents => parseConfigFromString fromStr contents

def getBindAddress (networkConfig : Config.NetworkConfig) : String :=
  (networkConfig.bind ++ ":") ++ toString networkConfig.port

end Braidpool

namespace Braidpool.Node
open Braidpool.Runtime Braidpool.Protocol Braidpool.Connection

inductive HeartbeatPc where
  | waiting
  | sending
  | panicked (p : Panic)
  deriving DecidableEq

/-- The heartbeat task, which made its message when it was started. In `sending` it
has seen a connection in the table and is about to send. -/
structure Heartbeat where
  message : Bytes
  pc : HeartbeatPc
  deriving DecidableEq

/-- What the node finds on its machine: the addresses that `to_socket_addrs` yields for a
string, and the numbers of slots that a ring of messages can be allocated with. -/
structure Platform (SocketAddr : Type) where
  toSocketAddrs : String → Except String (List SocketAddr)
  allocates : Nat → Bool

def startHeartbeat {SocketAddr : Type} [ToString SocketAddr] (fb : Flexbuffers)
    (platform : Platform SocketAddr) (addr : String) (duration : Nat) (now : SystemTime) : MayPanic Heartbeat := do
  let addrs ← MayPanic.unwrap (platform.toSocketAddrs addr).toOption
  let socketAddr ← MayPanic.unwrap addrs.head?
  let message ← MayPanic.unwrap (HeartbeatMessage.start socketAddr now)
  let bytes ← MayPanic.unwrap (← message.asBytes fb)
  if duration = 0 then .error ⟨"`period` must be non-zero."⟩ else .ok ⟨bytes, .waiting⟩

/-- A connection from the subscription of its receiver on: `connect` is opening the
stream to the peer, has ended without one, or the task of `start` is spawned. -/
inductive Conn (SocketAddr : Type) where
  | connecting (peer : String) (receiver : Nat)
  | ended
  | started (task : Connection.Task SocketAddr)
  deriving DecidableEq

/-- `main` connects to the seeds, and then listens. -/
inductive MainPc where
  | connecting (seeds : List String)
  | listening
  | returned
  | panicked (p : Panic)
  deriving DecidableEq

end Braidpool.Node

namespace Braidpool
open Braidpool.Runtime Braidpool.Protocol Braidpool.Connection Braidpool.Node

structure Node (SocketAddr : Type) where
  pc : MainPc
  maxPendingMessages : Nat
  shared : Shared SocketAddr
  heartbeat : Heartbeat
  conns : List (Conn SocketAddr)

/-- Connection `i` has come to the task `t`. -/
abbrev Node.TaskAt {SocketAddr : Type} (s : Node SocketAddr) (i : Nat) (t : Connection.Task SocketAddr) : Prop :=
  s.conns[i]? = some (.started t)

/-- The outcomes that the program depends on: of binding and accepting, of opening a
stream to a seed and resolving its name for the table, and of the timer and the clock. -/
inductive NodeEvent (SocketAddr : Type) where
  | connect
  | listen (bound : Bool)
  | accept (peerAddress : Option SocketAddr)
  | connected (i : Nat) (stream : Except String SocketAddr) (resolved : Except String (List SocketAddr))
  | task (i : Nat) (e : TaskEvent)
  | tick
  | send
  | notified
  | clock (now : SystemTime)
  deriving DecidableEq

namespace Node
variable {SocketAddr : Type}

/-- `main` up to its loop over the seeds. It has cloned the sender for `connect` and
for `start_listen`, and keeps no receiver. -/
def main [ToString SocketAddr] (fb : Flexbuffers) (config : Config) (platform : Platform SocketAddr)
    (now : SystemTime) : MayPanic (Node SocketAddr) := do
  let bindAddress := getBindAddress config.network
  let sendToAll ← Broadcast.channel platform.allocates config.peer.maxPendingSendToAll
  let heartbeat ← startHeartbeat fb platform bindAddress config.peer.heartbeatInterval now
  return ⟨.connecting config.peer.seeds, config.peer.maxPendingMessages,
    ⟨.new config.peer.maxPeerCount, sendToAll.cloneSender.cloneSender, ⟨false⟩, now⟩, heartbeat, []⟩

/-- The task of `connect` ends, and its receiver with it. -/
def endConn (s : Node SocketAddr) (i : Nat) : Node SocketAddr :=
  { s with
    shared := { s.shared with sendToAll := s.shared.sendToAll.dropReceiver }
    conns := s.conns.set i .ended }

/-- `connect` panics if no stream can be opened, and gives up if the name of the peer
does not resolve once more. -/
def connected (s : Node SocketAddr) (i receiver : Nat) (stream : Except String SocketAddr)
    (resolved : Except String (List SocketAddr)) : Node SocketAddr :=
  match stream, resolved with
  | .ok _, .ok (addr :: _) =>
    match Connection.Task.startConnection addr s.maxPendingMessages receiver with
    | .ok task => { s with conns := s.conns.set i (.started task) }
    | .error _ => s.endConn i
  | _, _ => s.endConn i

/-- `start_listen` signals the notifier each time before it accepts. -/
def startAccept (s : Node SocketAddr) : Node SocketAddr :=
  { s with pc := .listening, shared := { s.shared with notifier := s.shared.notifier.notifyOne } }

def accepted (s : Node SocketAddr) (peerAddress : SocketAddr) : Node SocketAddr :=
  let (receiver, shared) := s.shared.subscribe
  match Connection.Task.startConnection peerAddress s.maxPendingMessages receiver with
  | .ok task => startAccept { s with shared, conns := s.conns ++ [.started task] }
  | .error p => { s with pc := .panicked p }

def tick (s : Node SocketAddr) : Node SocketAddr :=
  if 0 < s.shared.manager.numConnections then { s with heartbeat := { s.heartbeat with pc := .sending } } else s

/-- Without a receiver the heartbeat task panics, and its sender is dropped. -/
def send (s : Node SocketAddr) : Node SocketAddr :=
  match s.shared.sendToAll.send s.heartbeat.message with
  | .ok sendToAll =>
    { s with shared := { s.shared with sendToAll }, heartbeat := { s.heartbeat with pc := .waiting } }
  | .error _ =>
    { s with
      shared := { s.shared with sendToAll := s.shared.sendToAll.dropSender }
      heartbeat := { s.heartbeat with pc := .panicked ⟨"Error sending heartbeat. Quitting."⟩ } }

/-- What the event makes of the node. When `main` is over, all its tasks are. -/
def step [DecidableEq SocketAddr] (fb : Flexbuffers) (s : Node SocketAddr) (e : NodeEvent SocketAddr) :
    Option (Node SocketAddr) :=
  match s.pc, e with
  | .returned, _ => none
  | .panicked _, _ => none
  | .connecting (peer :: seeds), .connect =>
    let (receiver, shared) := s.shared.subscribe
    some { s with pc := .connecting seeds, shared, conns := s.conns ++ [.connecting peer receiver] }
  | .connecting [], .listen bound => some (if bound then s.startAccept else { s with pc := .returned })
  | .listening, .accept peerAddress =>
    some (match peerAddress with
      | some peerAddress => s.accepted peerAddress
      | none => s.startAccept)
  | _, .connected i stream resolved =>
    match s.conns[i]? with
    | some (.connecting _ receiver) => some (s.connected i receiver stream resolved)
    | _ => none
  | _, .task i e =>
    match s.conns[i]? with
    | some (.started task) => (task.step fb s.shared e).map fun next =>
      { s with shared := next.1, conns := s.conns.set i (.started next.2) }
    | _ => none
  | _, .tick => if s.heartbeat.pc = .waiting then some s.tick else none
  | _, .send => if s.heartbeat.pc = .sending then some s.send else none
  | _, .notified =>
    if s.heartbeat.pc = .waiting ∧ s.shared.notifier.pollNotified.1 = .ready () then
      some { s with shared := { s.shared with notifier := s.shared.notifier.pollNotified.2 } }
    else none
  | _, .clock now => some { s with shared := { s.shared with now } }
  | _, _ => none

/-- The heartbeat task starts with the bytes of its message. -/
theorem startHeartbeat_eq_ok [ToString SocketAddr] {fb : Flexbuffers} {platform : Platform SocketAddr} {addr : String}
    {duration : Nat} {now : SystemTime} {heartbeat : Heartbeat} :
    startHeartbeat fb platform addr duration now = .ok heartbeat ↔
      ∃ socketAddr addrs bytes, platform.toSocketAddrs addr = .ok (socketAddr :: addrs) ∧
        (Message.heartbeat ⟨toString socketAddr, now⟩).asBytes fb = .ok (some bytes) ∧ duration ≠ 0 ∧
        heartbeat = ⟨bytes, .waiting⟩ := by
  constructor
  · intro h
    obtain ⟨addrs, haddrs, h⟩ := bind_eq_ok.mp h
    obtain ⟨socketAddr, hhead, h⟩ := bind_eq_ok.mp h
    obtain ⟨message, hmessage, h⟩ := bind_eq_ok.mp h
    obtain ⟨encoded, hencoded, h⟩ := bind_eq_ok.mp h
    obtain ⟨bytes, hbytes, hinterval⟩ := bind_eq_ok.mp h
    obtain rfl := Except.ok.inj hmessage
    obtain rfl := MayPanic.unwrap_eq_ok.mp hbytes
    obtain ⟨rest, rfl⟩ := List.head?_eq_some_iff.mp (MayPanic.unwrap_eq_ok.mp hhead)
    have hresolve := toOption_eq_some.mp (MayPanic.unwrap_eq_ok.mp haddrs)
    split at hinterval
    · cases hinterval
    · exact ⟨socketAddr, rest, bytes, hresolve, hencoded, ‹_›, (Except.ok.inj hinterval).symm⟩
  · rintro ⟨socketAddr, addrs, bytes, hresolve, hbytes, hduration, rfl⟩
    refine bind_eq_ok.mpr ⟨_, MayPanic.unwrap_eq_ok.mpr (toOption_eq_some.mpr hresolve), ?_⟩
    refine bind_eq_ok.mpr ⟨socketAddr, rfl, bind_eq_ok.mpr ⟨_, rfl, bind_eq_ok.mpr ⟨_, hbytes, ?_⟩⟩⟩
    exact bind_eq_ok.mpr ⟨bytes, rfl, if_neg hduration⟩

/-- A run from the start of `main` whose ends satisfy `P`, found by evaluation. -/
theorem exists_run [DecidableEq SocketAddr] [ToString SocketAddr] {fb : Flexbuffers} {config : Config}
    {platform : Platform SocketAddr} {now : SystemTime} (es : List (NodeEvent SocketAddr))
    (P : Node SocketAddr → Node SocketAddr → Prop) [∀ s₀ s, Decidable (P s₀ s)]
    (h : (main fb config platform now).toOption.any (fun s₀ =>
      (Machine.run (step fb) s₀ es).any fun s => decide (P s₀ s)) = true) :
    ∃ s₀ s, main fb config platform now = .ok s₀ ∧ Machine.run (step fb) s₀ es = some s ∧ P s₀ s := by
  obtain ⟨s₀, hmain, hrun⟩ := (Option.any_eq_true _ _).mp h
  obtain ⟨s, hs, hP⟩ := Machine.exists_run (P s₀) hrun
  refine ⟨s₀, s, ?_, hs, hP⟩
  cases hresult : main fb config platform now with
  | error p =>
    rw [hresult] at hmain
    cases hmain
  | ok s₁ =>
    rw [hresult] at hmain
    obtain rfl := Option.some.inj hmain
    rfl

/-- `main` comes to the seeds when the channel and the heartbeat task can be made. -/
theorem main_eq_ok [ToString SocketAddr] {fb : Flexbuffers} {config : Config} {platform : Platform SocketAddr}
    {now : SystemTime} {s : Node SocketAddr} :
    main fb config platform now = .ok s ↔
      ∃ sendToAll heartbeat, Broadcast.channel platform.allocates config.peer.maxPendingSendToAll = .ok sendToAll ∧
        startHeartbeat fb platform (getBindAddress config.network) config.peer.heartbeatInterval now = .ok heartbeat ∧
        s = ⟨.connecting config.peer.seeds, config.peer.maxPendingMessages,
          ⟨.new config.peer.maxPeerCount, sendToAll.cloneSender.cloneSender, ⟨false⟩, now⟩, heartbeat, []⟩ := by
  constructor
  · intro h
    obtain ⟨sendToAll, hchannel, h⟩ := bind_eq_ok.mp h
    obtain ⟨heartbeat, hheartbeat, h⟩ := bind_eq_ok.mp h
    exact ⟨sendToAll, heartbeat, hchannel, hheartbeat, (Except.ok.inj h).symm⟩
  · rintro ⟨sendToAll, heartbeat, hchannel, hheartbeat, rfl⟩
    exact bind_eq_ok.mpr ⟨sendToAll, hchannel, bind_eq_ok.mpr ⟨heartbeat, hheartbeat, rfl⟩⟩

/-- How `main` leaves the node when it begins with the seeds. -/
theorem main_ok [ToString SocketAddr] {fb : Flexbuffers} {config : Config}
    {platform : Platform SocketAddr} {now : SystemTime} {s : Node SocketAddr}
    (h : main fb config platform now = .ok s) :
    s.conns = [] ∧ s.heartbeat.pc = .waiting ∧ s.shared.manager = .new config.peer.maxPeerCount ∧
      s.shared.sendToAll.senders = 3 ∧ s.shared.sendToAll.receivers = 0 := by
  obtain ⟨sendToAll, heartbeat, hchannel, hheartbeat, rfl⟩ := main_eq_ok.mp h
  obtain ⟨-, rfl⟩ := Broadcast.channel_eq_ok.mp hchannel
  obtain ⟨socketAddr, addrs, bytes, -, -, -, rfl⟩ := startHeartbeat_eq_ok.mp hheartbeat
  exact ⟨rfl, rfl, rfl, rfl, rfl⟩

/-- `main` is over. -/
def Over (s : Node SocketAddr) : Prop := s.pc = .returned ∨ ∃ p, s.pc = .panicked p

section
variable [DecidableEq SocketAddr] {fb : Flexbuffers} {s s' : Node SocketAddr}

omit [DecidableEq SocketAddr] in
/-- `connect` replaces its connection, and may drop its receiver. -/
theorem connected_eq (s : Node SocketAddr) (i receiver : Nat) (stream : Except String SocketAddr)
    (resolved : Except String (List SocketAddr)) : ∃ receivers conns,
    s.connected i receiver stream resolved =
      { s with shared := { s.shared with sendToAll := { s.shared.sendToAll with receivers } }, conns } := by
  unfold connected
  split
  · split <;> exact ⟨_, _, rfl⟩
  · exact ⟨_, _, rfl⟩

omit [DecidableEq SocketAddr] in
theorem tick_eq (s : Node SocketAddr) : ∃ pc, s.tick = { s with heartbeat := { s.heartbeat with pc } } := by
  unfold tick
  split <;> exact ⟨_, rfl⟩

omit [DecidableEq SocketAddr] in
/-- A send touches the channel and the heartbeat task only. -/
theorem send_eq (s : Node SocketAddr) : ∃ sendToAll pc,
    s.send = { s with shared := { s.shared with sendToAll }, heartbeat := { s.heartbeat with pc } } := by
  unfold send
  split <;> exact ⟨_, _, rfl⟩

/-- Nothing steps once `main` is over. -/
theorem step_running {e : NodeEvent SocketAddr} (h : step fb s e = some s') (p : Panic) : s.pc ≠ .panicked p := by
  intro hp
  unfold step at h
  rw [hp] at h
  cases h

theorem step_connect (h : step fb s .connect = some s') : ∃ peer seeds, s.pc = .connecting (peer :: seeds) ∧
    s' = { s with
      pc := .connecting seeds
      shared := s.shared.subscribe.2
      conns := s.conns ++ [.connecting peer s.shared.subscribe.1] } := by
  unfold step at h
  split at h <;> try contradiction
  rename_i peer seeds hpc _
  exact ⟨peer, seeds, hpc, (Option.some.inj h).symm⟩

theorem step_listen {bound : Bool} (h : step fb s (.listen bound) = some s') :
    s.pc = .connecting [] ∧ s' = if bound then s.startAccept else { s with pc := .returned } := by
  unfold step at h
  split at h <;> try contradiction
  rename_i hpc heq
  cases heq
  exact ⟨hpc, (Option.some.inj h).symm⟩

theorem step_accept {peerAddress : Option SocketAddr} (h : step fb s (.accept peerAddress) = some s') :
    s.pc = .listening ∧ s' = peerAddress.elim s.startAccept s.accepted := by
  unfold step at h
  split at h <;> try contradiction
  rename_i hpc heq
  cases heq
  refine ⟨hpc, (Option.some.inj h).symm.trans ?_⟩
  cases peerAddress <;> rfl

theorem step_notified (h : step fb s .notified = some s') :
    s.heartbeat.pc = .waiting ∧ s.shared.notifier.pollNotified.1 = .ready () ∧
      s' = { s with shared := { s.shared with notifier := s.shared.notifier.pollNotified.2 } } := by
  unfold step at h
  split at h <;> try contradiction
  split at h
  · rename_i hready
    exact ⟨hready.1, hready.2, (Option.some.inj h).symm⟩
  · cases h

theorem step_clock {now : SystemTime} (h : step fb s (.clock now) = some s') :
    s' = { s with shared := { s.shared with now } } := by
  unfold step at h
  split at h <;> try contradiction
  rename_i heq _ _
  cases heq
  exact (Option.some.inj h).symm

theorem step_tick (h : step fb s .tick = some s') : s' = s.tick := by
  unfold step at h
  split at h <;> try contradiction
  split at h
  · exact (Option.some.inj h).symm
  · cases h

theorem step_send (h : step fb s .send = some s') : s' = s.send := by
  unfold step at h
  split at h <;> try contradiction
  split at h
  · exact (Option.some.inj h).symm
  · cases h

theorem step_connected {i : Nat} {stream : Except String SocketAddr} {resolved : Except String (List SocketAddr)}
    (h : step fb s (.connected i stream resolved) = some s') :
    ∃ peer receiver, s.conns[i]? = some (.connecting peer receiver) ∧ s' = s.connected i receiver stream resolved := by
  unfold step at h
  split at h <;> try contradiction
  rename_i heq _ _
  cases heq
  split at h
  · rename_i peer receiver hconn
    exact ⟨peer, receiver, hconn, (Option.some.inj h).symm⟩
  · cases h

/-- A step of a task is the task's own. -/
theorem step_task {i : Nat} {e : TaskEvent} (h : step fb s (.task i e) = some s') :
    ∃ t next, s.TaskAt i t ∧ t.step fb s.shared e = some next ∧
      s' = { s with shared := next.1, conns := s.conns.set i (.started next.2) } := by
  unfold step at h
  split at h <;> try contradiction
  rename_i heq _ _
  cases heq
  split at h
  · rename_i t hconn
    obtain ⟨next, hnext, rfl⟩ := Option.map_eq_some_iff.mp h
    exact ⟨t, next, hconn, hnext, rfl⟩
  · cases h

omit [DecidableEq SocketAddr] in
theorem running (hover : ¬ s.Over) :
    (∃ peer seeds, s.pc = .connecting (peer :: seeds)) ∨ s.pc = .connecting [] ∨ s.pc = .listening := by
  cases hpc : s.pc with
  | connecting seeds =>
    cases seeds with
    | nil => exact .inr (.inl rfl)
    | cons peer seeds => exact .inl ⟨peer, seeds, rfl⟩
  | listening => exact .inr (.inr rfl)
  | returned => exact absurd (.inl hpc) hover
  | panicked p => exact absurd (.inr ⟨p, hpc⟩) hover

theorem step_task_eq (fb : Flexbuffers) (s : Node SocketAddr) (hover : ¬ s.Over) (i : Nat) (e : TaskEvent) :
    step fb s (.task i e) = match s.conns[i]? with
      | some (.started task) => (task.step fb s.shared e).map fun next =>
        { s with shared := next.1, conns := s.conns.set i (.started next.2) }
      | _ => none := by
  unfold step
  rcases running hover with ⟨peer, seeds, hpc⟩ | hpc | hpc <;> rw [hpc]

theorem step_connected_eq (fb : Flexbuffers) (s : Node SocketAddr) (hover : ¬ s.Over) (i : Nat)
    (stream : Except String SocketAddr) (resolved : Except String (List SocketAddr)) :
    step fb s (.connected i stream resolved) = match s.conns[i]? with
      | some (.connecting _ receiver) => some (s.connected i receiver stream resolved)
      | _ => none := by
  unfold step
  rcases running hover with ⟨peer, seeds, hpc⟩ | hpc | hpc <;> rw [hpc]

theorem step_tick_eq (fb : Flexbuffers) (s : Node SocketAddr) (hover : ¬ s.Over) :
    step fb s .tick = if s.heartbeat.pc = .waiting then some s.tick else none := by
  unfold step
  rcases running hover with ⟨peer, seeds, hpc⟩ | hpc | hpc <;> rw [hpc]

theorem step_send_eq (fb : Flexbuffers) (s : Node SocketAddr) (hover : ¬ s.Over) :
    step fb s .send = if s.heartbeat.pc = .sending then some s.send else none := by
  unfold step
  rcases running hover with ⟨peer, seeds, hpc⟩ | hpc | hpc <;> rw [hpc]

theorem not_over {e : NodeEvent SocketAddr} (h : step fb s e = some s') : ¬ s.Over := by
  rintro (hpc | ⟨p, hpc⟩)
  · unfold step at h
    rw [hpc] at h
    cases h
  · exact step_running h p hpc

end

def hostA : SocketAddrV4 := ⟨(10, 0, 0, 1), 6680⟩
def hostB : SocketAddrV4 := ⟨(10, 0, 0, 2), 6680⟩

/-- Two of the three seeds are names of one host. -/
def threeSeeds : Config :=
  { peer := { seeds := ["10.0.0.1:6680", "a.example:6680", "10.0.0.2:6680"], maxPeerCount := 2 } }

/-- Every name resolves to the host, which has memory for a million messages. -/
def platformA : Platform SocketAddrV4 := ⟨fun _ => .ok [hostA], fun slots => slots ≤ 2 ^ 20⟩

/-- `main` takes the three seeds. -/
def connects : List (NodeEvent SocketAddrV4) := [.connect, .connect, .connect]

/-- `connect` reaches the host, and its task registers. -/
def register (i : Nat) (addr : SocketAddrV4) : List (NodeEvent SocketAddrV4) :=
  [.connected i (.ok addr) (.ok [addr]), .task i .insert]

def closeByPeer (i : Nat) : List (NodeEvent SocketAddrV4) :=
  [.task i (.sent true), .task i (.read none), .task i (.closed true), .task i .remove]

end Node

end Braidpool
