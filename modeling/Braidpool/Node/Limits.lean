import Mathlib
import Braidpool.Node.Components

/-! The numbers of a configuration and the libraries they are handed to. Each is parsed
in one place and used in another, the capacity of the queues only when a peer comes. -/
namespace Braidpool.Node
open Braidpool.Runtime Braidpool.Protocol Braidpool.Connection
variable {SocketAddr : Type}

/-- The host has addresses on every port, and a port has 16 bits. -/
structure ResolvesHost (platform : Platform SocketAddr) (host : String) : Prop where
  ports : ∀ port ≤ 65535, ∃ addr addrs, platform.toSocketAddrs ((host ++ ":") ++ toString port) = .ok (addr :: addrs)
  above : ∀ port > 65535, ∃ e, platform.toSocketAddrs ((host ++ ":") ++ toString port) = .error e

/-- Every number of the configuration is in the range of the library it is handed to, and
the machine can allocate the ring of messages to all, whose slots are a power of two. -/
structure WithinLimits (platform : Platform SocketAddr) (config : Config) : Prop where
  port : config.network.port ≤ 65535
  sendToAll : 0 < config.peer.maxPendingSendToAll ∧ config.peer.maxPendingSendToAll ≤ 2 ^ 63 - 1 ∧
    platform.allocates (Broadcast.nextPowerOfTwo config.peer.maxPendingSendToAll)
  messages : 0 < config.peer.maxPendingMessages ∧ config.peer.maxPendingMessages ≤ Mpsc.maxPermits
  heartbeat : config.peer.heartbeatInterval ≠ 0

theorem withinLimits_default {platform : Platform SocketAddr} (h : platform.allocates 128) :
    WithinLimits platform {} where
  port := by decide
  sendToAll := ⟨by decide, by decide, h⟩
  messages := by decide
  heartbeat := by decide

/-- `main` starts, if only the clock can be encoded; it does not panic when it accepts,
and `connect` starts the task of each stream that it opens to a name that resolves. -/
structure Operates [DecidableEq SocketAddr] [ToString SocketAddr] (fb : Flexbuffers) (config : Config)
    (platform : Platform SocketAddr) (now : SystemTime) : Prop where
  starts : (∃ s₀, main fb config platform now = .ok s₀) ∨
    ∃ sender p, (Message.heartbeat ⟨sender, now⟩).asBytes fb = .error p ∧ main fb config platform now = .error p
  accepts : ∀ s₀ s es, main fb config platform now = .ok s₀ → Machine.run (step fb) s₀ es = some s →
    ∀ p, s.pc ≠ .panicked p
  connects : ∀ s₀ s es, main fb config platform now = .ok s₀ → Machine.run (step fb) s₀ es = some s →
    ∀ i peer receiver remote addr addrs, s.conns[i]? = some (.connecting peer receiver) →
      ∃ t, (s.connected i receiver (.ok remote) (.ok (addr :: addrs))).TaskAt i t

variable [DecidableEq SocketAddr] {fb : Flexbuffers} {s s' : Node SocketAddr} {e : NodeEvent SocketAddr}

section
omit [DecidableEq SocketAddr]

private theorem accepted_pc (peerAddress : SocketAddr)
    (h : 0 < s.maxPendingMessages ∧ s.maxPendingMessages ≤ Mpsc.maxPermits) : (s.accepted peerAddress).pc = .listening := by
  simp only [accepted, Connection.Task.startConnection_eq_ok.mpr ⟨h, rfl⟩]
  rfl

private theorem accepted_panics (peerAddress : SocketAddr)
    (h : ¬ (0 < s.maxPendingMessages ∧ s.maxPendingMessages ≤ Mpsc.maxPermits)) :
    ∃ p, (s.accepted peerAddress).pc = .panicked p := by
  cases hstart : Connection.Task.startConnection peerAddress s.maxPendingMessages s.shared.subscribe.1 with
  | ok task => exact absurd (Connection.Task.startConnection_eq_ok.mp hstart).1 h
  | error p =>
    refine ⟨p, ?_⟩
    simp only [accepted, hstart]

end

private theorem step_maxPendingMessages (h : step fb s e = some s') : s'.maxPendingMessages = s.maxPendingMessages := by
  cases step_moves h <;> rfl

/-- `main` panics only when it accepts a connection, whose queue cannot be made. -/
private theorem step_not_panicked (hlimits : 0 < s.maxPendingMessages ∧ s.maxPendingMessages ≤ Mpsc.maxPermits)
    (h : step fb s e = some s') (p : Panic) : s'.pc ≠ .panicked p := by
  have hpc := step_running h p
  cases e with
  | connect =>
    obtain ⟨peer, seeds, -, rfl⟩ := step_connect h
    exact nofun
  | listen bound =>
    obtain ⟨-, rfl⟩ := step_listen h
    cases bound <;> exact nofun
  | accept peerAddress =>
    obtain ⟨-, rfl⟩ := step_accept h
    cases peerAddress with
    | none => exact nofun
    | some peerAddress =>
      rw [Option.elim_some, accepted_pc _ hlimits]
      exact nofun
  | connected i stream resolved =>
    obtain ⟨peer, receiver, -, rfl⟩ := step_connected h
    obtain ⟨receivers, conns, heq⟩ := s.connected_eq i receiver stream resolved
    rwa [heq]
  | task i e =>
    obtain ⟨t, next, -, -, rfl⟩ := step_task h
    exact hpc
  | tick =>
    obtain rfl := step_tick h
    obtain ⟨pc, heq⟩ := s.tick_eq
    rwa [heq]
  | send =>
    obtain rfl := step_send h
    obtain ⟨sendToAll, pc, heq⟩ := s.send_eq
    rwa [heq]
  | notified =>
    obtain ⟨-, -, rfl⟩ := step_notified h
    exact hpc
  | clock now =>
    obtain rfl := step_clock h
    exact hpc

/-- `main` connects to every seed before it listens. -/
private theorem run_connects (fb : Flexbuffers) (s : Node SocketAddr) (seeds : List String) (hpc : s.pc = .connecting seeds) :
    ∃ s', Machine.run (step fb) s (seeds.map fun _ => .connect) = some s' ∧ s'.pc = .connecting [] ∧
      s'.maxPendingMessages = s.maxPendingMessages := by
  induction seeds generalizing s with
  | nil => exact ⟨s, rfl, hpc, rfl⟩
  | cons peer seeds ih =>
    obtain ⟨s', hrun, hpc', hmax⟩ := ih
      { s with
        pc := .connecting seeds
        shared := s.shared.subscribe.2
        conns := s.conns ++ [.connecting peer s.shared.subscribe.1] } rfl
    refine ⟨s', ?_, hpc', hmax⟩
    refine Machine.run_cons.mpr ⟨_, ?_, hrun⟩
    simp only [step, hpc]

/-- The first peer that comes shows whether the queues can be made. -/
private theorem run_accepts (fb : Flexbuffers) (s : Node SocketAddr) (seeds : List String) (hpc : s.pc = .connecting seeds)
    (peerAddress : SocketAddr) (h : ¬ (0 < s.maxPendingMessages ∧ s.maxPendingMessages ≤ Mpsc.maxPermits)) :
    ∃ s' es p, Machine.run (step fb) s es = some s' ∧ s'.pc = .panicked p := by
  obtain ⟨s₁, hrun, hpc₁, hmax⟩ := run_connects fb s seeds hpc
  rw [← hmax] at h
  obtain ⟨p, hp⟩ := accepted_panics (s := s₁.startAccept) peerAddress h
  have hlisten : step fb s₁ (.listen true) = some s₁.startAccept := by
    simp only [step, hpc₁]
    rfl
  have haccept : step fb s₁.startAccept (.accept (some peerAddress)) = some (s₁.startAccept.accepted peerAddress) := by
    simp only [step, startAccept]
  refine ⟨_, seeds.map (fun _ => NodeEvent.connect) ++ [NodeEvent.listen true, NodeEvent.accept (some peerAddress)], p,
    ?_, hp⟩
  exact Machine.run_append.mpr ⟨s₁, hrun, Machine.run_cons.mpr ⟨_, hlisten, Machine.run_cons.mpr ⟨_, haccept, rfl⟩⟩⟩

section
variable [ToString SocketAddr] {config : Config} {platform : Platform SocketAddr} {now : SystemTime} {s₀ : Node SocketAddr}

omit [DecidableEq SocketAddr] in
/-- A node has started only with numbers that the channel, the resolver and the timer take. -/
private theorem main_limits (hresolve : ResolvesHost platform config.network.bind)
    (h₀ : main fb config platform now = .ok s₀) :
    config.network.port ≤ 65535 ∧
      (0 < config.peer.maxPendingSendToAll ∧ config.peer.maxPendingSendToAll ≤ 2 ^ 63 - 1 ∧
        platform.allocates (Broadcast.nextPowerOfTwo config.peer.maxPendingSendToAll)) ∧
      config.peer.heartbeatInterval ≠ 0 := by
  obtain ⟨sendToAll, heartbeat, hchannel, hheartbeat, -⟩ := main_eq_ok.mp h₀
  obtain ⟨addr, addrs, bytes, haddr, -, hduration, -⟩ := startHeartbeat_eq_ok.mp hheartbeat
  refine ⟨?_, (Broadcast.channel_eq_ok.mp hchannel).1, hduration⟩
  by_contra hport
  obtain ⟨e, he⟩ := hresolve.above _ (Nat.lt_of_not_le hport)
  cases he.symm.trans haddr

omit [DecidableEq SocketAddr] in
private theorem startHeartbeat_error {bindAddress : String} (duration : Nat) {addr : SocketAddr}
    {addrs : List SocketAddr} {p : Panic} (haddr : platform.toSocketAddrs bindAddress = .ok (addr :: addrs))
    (hbytes : (Message.heartbeat ⟨toString addr, now⟩).asBytes fb = .error p) :
    startHeartbeat fb platform bindAddress duration now = .error p := by
  refine bind_eq_error.mpr (.inr ⟨addr :: addrs, ?_, ?_⟩)
  · exact MayPanic.unwrap_eq_ok.mpr (toOption_eq_some.mpr haddr)
  · refine bind_eq_error.mpr (.inr ⟨addr, rfl, bind_eq_error.mpr (.inr ⟨_, rfl, ?_⟩)⟩)
    exact bind_eq_error.mpr (.inl hbytes)

omit [DecidableEq SocketAddr] in
/-- With numbers that they take, only the clock can keep a node from its start. -/
private theorem main_starts (hresolve : ResolvesHost platform config.network.bind) (hlimits : WithinLimits platform config) :
    (∃ s₀, main fb config platform now = .ok s₀) ∨
      ∃ sender p, (Message.heartbeat ⟨sender, now⟩).asBytes fb = .error p ∧ main fb config platform now = .error p := by
  obtain ⟨addr, addrs, haddr⟩ := hresolve.ports _ hlimits.port
  have hchannel : Broadcast.channel platform.allocates config.peer.maxPendingSendToAll =
      (.ok (.empty _ _) : MayPanic (Broadcast Bytes)) := Broadcast.channel_eq_ok.mpr ⟨hlimits.sendToAll, rfl⟩
  cases hbytes : (Message.heartbeat ⟨toString addr, now⟩).asBytes fb with
  | error p =>
    have hstart := startHeartbeat_error config.peer.heartbeatInterval haddr hbytes
    refine .inr ⟨toString addr, p, hbytes, bind_eq_error.mpr (.inr ⟨_, hchannel, ?_⟩)⟩
    exact bind_eq_error.mpr (.inl hstart)
  | ok encoded =>
    obtain ⟨bytes, rfl⟩ := Message.asBytes_eq_some hbytes
    have hheartbeat := startHeartbeat_eq_ok.mpr ⟨addr, addrs, bytes, haddr, hbytes, hlimits.heartbeat, rfl⟩
    exact .inl ⟨_, main_eq_ok.mpr ⟨_, _, hchannel, hheartbeat, rfl⟩⟩

private theorem run_not_panicked (hlimits : WithinLimits platform config) (h₀ : main fb config platform now = .ok s₀)
    {es : List (NodeEvent SocketAddr)} (h : Machine.run (step fb) s₀ es = some s) :
    s.maxPendingMessages = config.peer.maxPendingMessages ∧ ∀ p, s.pc ≠ .panicked p := by
  obtain ⟨sendToAll, heartbeat, -, -, rfl⟩ := main_eq_ok.mp h₀
  refine Machine.run_invariant (P := fun s =>
    s.maxPendingMessages = config.peer.maxPendingMessages ∧ ∀ p, s.pc ≠ .panicked p) ?_ ⟨rfl, by simp⟩ h
  rintro s e s' ⟨hmax, -⟩ hstep
  refine ⟨(step_maxPendingMessages hstep).trans hmax, step_not_panicked ?_ hstep⟩
  rw [hmax]
  exact hlimits.messages

/-- A node that operates at the epoch has shown every number to be within its limits. -/
private theorem withinLimits_of_operates (hresolve : ResolvesHost platform config.network.bind)
    (h : Operates fb config platform .unixEpoch) : WithinLimits platform config := by
  obtain ⟨s₀, h₀⟩ | ⟨sender, p, hbytes, -⟩ := h.starts
  · obtain ⟨hport, hsendToAll, hheartbeat⟩ := main_limits hresolve h₀
    refine ⟨hport, hsendToAll, ?_, hheartbeat⟩
    by_contra hmessages
    obtain ⟨addr, -, -⟩ := hresolve.ports _ hport
    obtain ⟨sendToAll, heartbeat, -, -, hs₀⟩ := main_eq_ok.mp h₀
    have hpc : s₀.pc = .connecting config.peer.seeds := by rw [hs₀]
    have hmax : s₀.maxPendingMessages = config.peer.maxPendingMessages := by rw [hs₀]
    rw [← hmax] at hmessages
    obtain ⟨s, es, p, hrun, hp⟩ := run_accepts fb s₀ _ hpc addr hmessages
    exact h.accepts s₀ s es h₀ hrun p hp
  · cases hbytes

/-- A node whose host resolves operates, whenever it is started and whatever it is asked to do,
exactly when all numbers of its configuration are within the limits of its machine. -/
theorem operates_iff_withinLimits (hresolve : ResolvesHost platform config.network.bind) :
    (∀ now, Operates fb config platform now) ↔ WithinLimits platform config := by
  constructor
  · intro h
    exact withinLimits_of_operates hresolve (h .unixEpoch)
  · intro hlimits now
    refine ⟨main_starts hresolve hlimits, ?_, ?_⟩
    · intro s₀ s es h₀ h
      exact (run_not_panicked hlimits h₀ h).2
    · intro s₀ s es h₀ h i peer receiver remote addr addrs hconn
      have hmessages := hlimits.messages
      rw [← (run_not_panicked hlimits h₀ h).1] at hmessages
      refine ⟨.spawn addr (.empty s.maxPendingMessages) receiver, ?_⟩
      simp only [connected, Connection.Task.startConnection_eq_ok.mpr ⟨hmessages, rfl⟩]
      exact List.getElem?_set_self (List.getElem?_eq_some_iff.mp hconn).1

end

/-- A machine that knows its own name and allocates whatever it is asked for. -/
def localhost : Platform SocketAddrV4 where
  toSocketAddrs addr :=
    match (List.range 65536).find? fun port => addr = ("localhost" ++ ":") ++ toString port with
    | some port => .ok [⟨(127, 0, 0, 1), .ofNat port⟩]
    | none => .error "invalid port value"
  allocates _ := true

private theorem find?_port (ports port : Nat) :
    (List.range ports).find? (fun p => ("localhost" ++ ":") ++ toString port = ("localhost" ++ ":") ++ toString p) =
      if port < ports then some port else none := by
  split
  · refine List.find?_range_eq_some.mpr ⟨by simp, List.mem_range.mpr ‹_›, ?_⟩
    intro p hp
    simp only [Bool.not_eq_true', decide_eq_false_iff_not, String.append_right_inj]
    intro hport
    exact hp.ne' (Nat.repr_injective hport)
  · refine List.find?_range_eq_none.mpr ?_
    intro p hp
    simp only [Bool.not_eq_true', decide_eq_false_iff_not, String.append_right_inj]
    intro hport
    obtain rfl := Nat.repr_injective hport
    contradiction

private theorem resolvesHost_localhost : ResolvesHost localhost "localhost" where
  ports port hport := by
    refine ⟨⟨(127, 0, 0, 1), .ofNat port⟩, [], ?_⟩
    have hport : port < 65536 := by omega
    simp only [localhost, find?_port, hport, if_true]
  above port hport := by
    refine ⟨"invalid port value", ?_⟩
    have hport : ¬ port < 65536 := by omega
    simp only [localhost, find?_port, hport, if_false]

/-- Without a file the node listens on the default port of its own host. -/
theorem operates_default : ∃ config, loadConfigFromFile (fun _ => .error "No such file or directory")
    (fun _ => .error "expected `.`, `=`") "config.toml" = some config ∧
      ∀ now, Operates Codec.flexbuffers config localhost now :=
  ⟨{}, rfl, (operates_iff_withinLimits resolvesHost_localhost).mpr (withinLimits_default rfl)⟩

/-- The file says `max_pending_messages = 0`. -/
theorem not_operates :
    ¬ ∀ (readFile : String → Except String String) (fromStr : String → Except String (Option Config)) (path : String)
      (config : Config) (platform : Platform SocketAddrV4) (now : SystemTime),
      loadConfigFromFile readFile fromStr path = some config → ResolvesHost platform config.network.bind →
      (∀ slots, platform.allocates slots) → Operates Codec.flexbuffers config platform now := by
  intro hall
  have h := hall (fun _ => .ok "[peer]\nmax_pending_messages = 0")
    (fun _ => .ok (some { peer := { maxPendingMessages := 0 } })) "config.toml" _ _ .unixEpoch rfl resolvesHost_localhost
    fun _ => rfl
  exact absurd (withinLimits_of_operates resolvesHost_localhost h).messages.1 (Nat.lt_irrefl 0)

end Braidpool.Node
