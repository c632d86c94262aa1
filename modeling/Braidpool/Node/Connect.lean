import Braidpool.Node.Components

/-! The address of an outbound connection. `connect` opens the stream to the first
address of the peer's name that accepts, and registers the first address of the name
as it resolves once more. -/
namespace Braidpool
open Braidpool.Runtime Braidpool.Protocol Braidpool.Connection

namespace Connection.Task
variable {SocketAddr : Type} [DecidableEq SocketAddr]

theorem Moves.removes {fb : Flexbuffers} {sh : Shared SocketAddr} {t : Connection.Task SocketAddr} {e : TaskEvent}
    {next : Shared SocketAddr × Connection.Task SocketAddr} (h : Moves fb sh t e next) {addr : SocketAddr}
    (hremove : .remove addr ∈ next.2.calls) : .remove addr ∈ t.calls ∨ addr = t.addr := by
  rcases h.performs with ⟨call, hcalls, hperforms⟩ | ⟨hcalls, -⟩
  · rw [hcalls] at hremove
    rcases List.mem_append.mp hremove with hmem | hmem
    · exact .inl hmem
    · obtain rfl := List.mem_singleton.mp hmem
      cases hperforms
      exact .inr rfl
  · exact .inl (hcalls ▸ hremove)

end Connection.Task

namespace Node
variable {SocketAddr : Type}

/-- `TcpStream::connect` tries the addresses of a name in order until one accepts, and is an
error when the name does not resolve or none does. The result is the address that the stream
is connected to. -/
def TcpStream.connect (resolved : Except String (List SocketAddr)) (accepts : SocketAddr → Bool) :
    Except String SocketAddr :=
  match resolved with
  | .error e => .error e
  | .ok addrs =>
    match addrs.find? accepts with
    | some addr => .ok addr
    | none => .error "could not connect to any address"

theorem TcpStream.connect_eq_ok {resolved : Except String (List SocketAddr)} {accepts : SocketAddr → Bool}
    {addr : SocketAddr} :
    TcpStream.connect resolved accepts = .ok addr ↔ resolved.toOption.bind (List.find? accepts) = some addr := by
  cases resolved with
  | error e => simp [TcpStream.connect, Except.toOption]
  | ok addrs =>
    simp only [TcpStream.connect, Except.toOption, Option.bind_some]
    cases addrs.find? accepts <;> simp

/-- The task of connection `i` is for the address, and has removed no other. -/
def Uses (s : Node SocketAddr) (i : Nat) (addr : SocketAddr) : Prop :=
  ∃ t, s.TaskAt i t ∧ t.addr = addr ∧ ∀ a, .remove a ∈ t.calls → a = addr

variable [DecidableEq SocketAddr] {fb : Flexbuffers} {s s' : Node SocketAddr} {e : NodeEvent SocketAddr} {i : Nat}

theorem Moves.uses {addr : SocketAddr} (h : Moves fb s e s') (hs : s.Uses i addr) : s'.Uses i addr := by
  obtain ⟨t, ht, haddr, hremoves⟩ := hs
  rcases h.taskAt ht with ⟨te, next, rfl, hstepped, hnext, -⟩ | ht
  · have hmoves := Connection.Task.step_moves hstepped
    refine ⟨next.2, hnext, hmoves.addr.trans haddr, ?_⟩
    intro a ha
    rcases hmoves.removes ha with hbefore | rfl
    · exact hremoves a hbefore
    · exact haddr
  · exact ⟨t, ht, haddr, hremoves⟩

/-- The task enters its address into the table or takes it out, and nothing else. -/
theorem Uses.table {addr : SocketAddr} (hs : s.Uses i addr) {te : TaskEvent} (h : step fb s (.task i te) = some s') :
    s'.shared.manager.addresses = s.shared.manager.addresses ∨
      te = .insert ∧ s'.shared.manager.addresses = Insert.insert addr s.shared.manager.addresses ∨
      te = .remove ∧ s'.shared.manager.addresses = s.shared.manager.addresses.erase addr := by
  obtain ⟨t, ht, rfl, -⟩ := hs
  obtain ⟨u, next, hu, hstepped, rfl⟩ := step_task h
  obtain rfl := Conn.started.inj (Option.some.inj (ht.symm.trans hu))
  rcases (Connection.Task.step_moves hstepped).performs with ⟨call, -, hperforms⟩ | ⟨-, -, hmanager, -⟩
  · cases hperforms with
    | refused full manager | closedQueue e cleanup manager | closedWriter flushed manager =>
      exact .inl (congrArg ConnectionManager.addresses manager)
    | admitted room addresses => exact .inr (.inl ⟨rfl, addresses⟩)
    | removed addresses => exact .inr (.inr ⟨rfl, addresses⟩)
  · exact .inl (congrArg ConnectionManager.addresses hmanager)

/-- What `connect` starts is a task for the first address of the second resolution. -/
private theorem connected_taskAt {stream : Except String SocketAddr} {second : Except String (List SocketAddr)}
    (h : step fb s (.connected i stream second) = some s') {t : Connection.Task SocketAddr} (ht : s'.TaskAt i t) :
    second.toOption.bind List.head? = some t.addr ∧ t.calls = [] := by
  obtain ⟨peer, receiver, hconn, rfl⟩ := step_connected h
  have hlt := (List.getElem?_eq_some_iff.mp hconn).1
  have hended : (s.endConn i).TaskAt i t → False := by
    intro hend
    cases (List.getElem?_set_self hlt).symm.trans hend
  unfold connected at ht
  split at ht
  · split at ht
    · rename_i addr addrs task hstart
      cases (List.getElem?_set_self hlt).symm.trans ht
      obtain ⟨queue, -, hspawn⟩ := bind_eq_ok.mp hstart
      obtain rfl := Except.ok.inj hspawn
      exact ⟨rfl, rfl⟩
    · exact (hended ht).elim
  · exact (hended ht).elim

/-- A connection that `connect` starts registers and removes the address of its stream
exactly when the second resolution begins with the address that the first
resolution led to. -/
theorem connect_uses_remote {first second : Except String (List SocketAddr)} {accepts : SocketAddr → Bool}
    {remote : SocketAddr} {t : Connection.Task SocketAddr}
    (hstep : step fb s (.connected i (TcpStream.connect first accepts) second) = some s') (ht : s'.TaskAt i t)
    (hremote : TcpStream.connect first accepts = .ok remote) :
    (∀ es s'', Machine.run (step fb) s' es = some s'' → s''.Uses i remote) ↔
      second.toOption.bind List.head? = first.toOption.bind (List.find? accepts) := by
  obtain ⟨hsecond, hcalls⟩ := connected_taskAt hstep ht
  rw [hsecond, TcpStream.connect_eq_ok.mp hremote, Option.some.injEq]
  constructor
  · intro huses
    obtain ⟨u, hu, haddr, -⟩ := huses [] s' rfl
    obtain rfl := Conn.started.inj (Option.some.inj (ht.symm.trans hu))
    exact haddr
  · rintro rfl es s'' h
    refine Machine.run_invariant (P := fun s => s.Uses i t.addr) ?_ ⟨t, ht, rfl, ?_⟩ h
    · intro s e s' hs hstep
      exact (step_moves hstep).uses hs
    · intro a ha
      rw [hcalls] at ha
      cases ha

/-- The first seed is reached at `remote`, and resolves to `second` after that. -/
private theorem exists_connected (first second : Except String (List SocketAddrV4)) (accepts : SocketAddrV4 → Bool)
    (t : Connection.Task SocketAddrV4)
    (h : (main Codec.flexbuffers threeSeeds platformA .unixEpoch).toOption.any (fun s₀ =>
      (Machine.run (step Codec.flexbuffers) s₀ [.connect, .connected 0 (TcpStream.connect first accepts) second]).any
        fun s => decide (s.TaskAt 0 t)) = true) :
    ∃ s₀ s s', main Codec.flexbuffers threeSeeds platformA .unixEpoch = .ok s₀ ∧
      Machine.run (step Codec.flexbuffers) s₀ [.connect] = some s ∧
      step Codec.flexbuffers s (.connected 0 (TcpStream.connect first accepts) second) = some s' ∧ s'.TaskAt 0 t := by
  obtain ⟨s₀, s', h₀, h, ht⟩ := exists_run _ (fun _ s => s.TaskAt 0 t) h
  obtain ⟨s, hs, h⟩ := Machine.run_cons.mp h
  obtain ⟨s', hstep, hrun⟩ := Machine.run_cons.mp h
  obtain rfl := Option.some.inj hrun
  exact ⟨s₀, s, s', h₀, Machine.run_cons.mpr ⟨s, hs, rfl⟩, hstep, ht⟩

theorem connect_uses_remote_oneAddress :
    ∃ s₀ s s', main Codec.flexbuffers threeSeeds platformA .unixEpoch = .ok s₀ ∧
      Machine.run (step Codec.flexbuffers) s₀ [.connect] = some s ∧
      step Codec.flexbuffers s (.connected 0 (TcpStream.connect (.ok [hostA]) fun _ => true) (.ok [hostA])) = some s' ∧
      ∀ es s'', Machine.run (step Codec.flexbuffers) s' es = some s'' → s''.Uses 0 hostA := by
  obtain ⟨s₀, s, s', h₀, h, hstep, ht⟩ := exists_connected (.ok [hostA]) (.ok [hostA]) (fun _ => true)
    (.spawn hostA (.empty 32) 0) (by decide)
  exact ⟨s₀, s, s', h₀, h, hstep, (connect_uses_remote hstep ht rfl).mpr rfl⟩

/-- The seed has two addresses, of which only the second accepts. -/
theorem connect_uses_other :
    ¬ ∀ (config : Config) (platform : Platform SocketAddrV4) (now : SystemTime) (s₀ s s' : Node SocketAddrV4)
      (es : List (NodeEvent SocketAddrV4)) (first second : Except String (List SocketAddrV4))
      (accepts : SocketAddrV4 → Bool) (remote : SocketAddrV4) (i : Nat) (t : Connection.Task SocketAddrV4),
      main Codec.flexbuffers config platform now = .ok s₀ → Machine.run (step Codec.flexbuffers) s₀ es = some s →
      step Codec.flexbuffers s (.connected i (TcpStream.connect first accepts) second) = some s' → s'.TaskAt i t →
      TcpStream.connect first accepts = .ok remote → s'.Uses i remote := by
  intro hall
  obtain ⟨s₀, s, s', h₀, h, hstep, ht⟩ := exists_connected (.ok [hostA, hostB]) (.ok [hostA, hostB]) (· == hostB)
    (.spawn hostA (.empty 32) 0) (by decide)
  obtain ⟨u, hu, haddr, -⟩ := hall _ _ _ s₀ s s' _ _ _ _ hostB 0 _ h₀ h hstep ht rfl
  obtain rfl := Conn.started.inj (Option.some.inj (ht.symm.trans hu))
  revert haddr
  decide

end Node

end Braidpool
