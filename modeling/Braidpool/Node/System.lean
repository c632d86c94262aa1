import Braidpool.Node.Main

/-! The steps of a node, with everything that each depends on. The invariants of the node
are read off this list. -/
namespace Braidpool
open Braidpool.Runtime Braidpool.Protocol Braidpool.Connection

namespace Node
variable {SocketAddr : Type}

/-- A connection whose receiver has just been subscribed. -/
inductive Fresh (next : Nat) : Conn SocketAddr → Prop where
  | connecting (peer : String) : Fresh next (.connecting peer next)
  | started (addr : SocketAddr) (maxPendingMessages : Nat) :
      Fresh next (.started (.spawn addr (.empty maxPendingMessages) next))

/-- The steps of a node. -/
inductive Moves [DecidableEq SocketAddr] (fb : Flexbuffers) (s : Node SocketAddr) :
    NodeEvent SocketAddr → Node SocketAddr → Prop where
  | task (i : Nat) (e : TaskEvent) (t : Connection.Task SocketAddr)
      (next : Shared SocketAddr × Connection.Task SocketAddr) (conn : s.conns[i]? = some (.started t))
      (stepped : t.step fb s.shared e = some next) :
      Moves fb s (.task i e) { s with shared := next.1, conns := s.conns.set i (.started next.2) }
  | subscribed (e : NodeEvent SocketAddr) (pc : MainPc) (notifier : Notify) (conn : Conn SocketAddr)
      (fresh : Fresh s.shared.sendToAll.sent.length conn) :
      Moves fb s e { s with
        pc, shared := { s.shared.subscribe.2 with notifier }, conns := s.conns ++ [conn] }
  | started (i receiver maxPendingMessages : Nat) (peer : String) (addr : SocketAddr) (stream : Except String SocketAddr)
      (resolved : Except String (List SocketAddr)) (conn : s.conns[i]? = some (.connecting peer receiver)) :
      Moves fb s (.connected i stream resolved) { s with
        conns := s.conns.set i (.started (.spawn addr (.empty maxPendingMessages) receiver)) }
  | ended (i receiver : Nat) (peer : String) (stream : Except String SocketAddr)
      (resolved : Except String (List SocketAddr)) (conn : s.conns[i]? = some (.connecting peer receiver)) :
      Moves fb s (.connected i stream resolved) (s.endConn i)
  | sent (pc : s.heartbeat.pc = .sending) (receivers : s.shared.sendToAll.receivers ≠ 0) :
      Moves fb s .send { s with
        shared := { s.shared with
          sendToAll := { s.shared.sendToAll with sent := s.shared.sendToAll.sent ++ [s.heartbeat.message] } }
        heartbeat := { s.heartbeat with pc := .waiting } }
  | quitting (p : Panic) (pc : s.heartbeat.pc = .sending) (receivers : s.shared.sendToAll.receivers = 0) :
      Moves fb s .send { s with
        shared := { s.shared with sendToAll := s.shared.sendToAll.dropSender }
        heartbeat := { s.heartbeat with pc := .panicked p } }
  | ticked (pc : s.heartbeat.pc = .waiting) (connections : 0 < s.shared.manager.numConnections) :
      Moves fb s .tick { s with heartbeat := { s.heartbeat with pc := .sending } }
  | quiet (e : NodeEvent SocketAddr) (pc : MainPc) (notifier : Notify) (now : SystemTime) :
      Moves fb s e { s with pc, shared := { s.shared with notifier, now } }

section
variable [DecidableEq SocketAddr] {fb : Flexbuffers} {s s' : Node SocketAddr}

private theorem connected_moves {i receiver : Nat} {peer : String} (stream : Except String SocketAddr)
    (resolved : Except String (List SocketAddr)) (hconn : s.conns[i]? = some (.connecting peer receiver)) :
    Moves fb s (.connected i stream resolved) (s.connected i receiver stream resolved) := by
  unfold connected
  split
  · split
    · rename_i task htask
      obtain ⟨-, rfl⟩ := Connection.Task.startConnection_eq_ok.mp htask
      exact .started i receiver s.maxPendingMessages peer _ _ _ hconn
    · exact .ended i receiver peer _ _ hconn
  · exact .ended i receiver peer _ _ hconn

private theorem accepted_moves (e : NodeEvent SocketAddr) (peerAddress : SocketAddr) :
    Moves fb s e (s.accepted peerAddress) := by
  unfold accepted
  split
  rename_i receiver shared hsub
  obtain ⟨rfl, rfl⟩ := Prod.mk.inj hsub
  split
  · rename_i task htask
    obtain ⟨-, rfl⟩ := Connection.Task.startConnection_eq_ok.mp htask
    exact .subscribed e .listening _ _ (.started peerAddress s.maxPendingMessages)
  · exact .quiet e _ s.shared.notifier s.shared.now

private theorem send_moves (hpc : s.heartbeat.pc = .sending) : Moves fb s .send s.send := by
  unfold send Broadcast.send
  by_cases hreceivers : s.shared.sendToAll.receivers = 0
  · rw [if_pos hreceivers]
    exact .quitting _ hpc hreceivers
  · rw [if_neg hreceivers]
    exact .sent hpc hreceivers

theorem step_moves {e : NodeEvent SocketAddr} (h : step fb s e = some s') : Moves fb s e s' := by
  unfold step at h
  split at h
  · cases h
  · cases h
  · obtain rfl := Option.some.inj h
    exact .subscribed _ _ s.shared.notifier _ (.connecting _)
  · obtain rfl := Option.some.inj h
    split
    · exact .quiet _ _ _ s.shared.now
    · exact .quiet _ _ s.shared.notifier s.shared.now
  · obtain rfl := Option.some.inj h
    split
    · exact accepted_moves _ _
    · exact .quiet _ _ _ s.shared.now
  · split at h
    · rename_i hconn
      obtain rfl := Option.some.inj h
      exact connected_moves _ _ hconn
    · cases h
  · split at h
    · rename_i hconn
      obtain ⟨next, hnext, rfl⟩ := Option.map_eq_some_iff.mp h
      exact .task _ _ _ next hconn hnext
    · cases h
  · split at h
    · rename_i hpc
      obtain rfl := Option.some.inj h
      unfold tick
      split
      · exact .ticked hpc ‹_›
      · exact .quiet _ s.pc s.shared.notifier s.shared.now
    · cases h
  · split at h
    · obtain rfl := Option.some.inj h
      exact send_moves ‹_›
    · cases h
  · split at h
    · obtain rfl := Option.some.inj h
      exact .quiet _ s.pc _ s.shared.now
    · cases h
  · obtain rfl := Option.some.inj h
    exact .quiet _ s.pc s.shared.notifier _
  · cases h

/-- What a step makes of the connections: a task moves, the stream of a connection opens or
does not, a connection begins, or they stay as they are. -/
inductive ConnsMoves (fb : Flexbuffers) (s : Node SocketAddr) : NodeEvent SocketAddr → List (Conn SocketAddr) → Prop where
  | task (i : Nat) (e : TaskEvent) (t : Connection.Task SocketAddr)
      (next : Shared SocketAddr × Connection.Task SocketAddr) (conn : s.TaskAt i t)
      (moves : Connection.Task.Moves fb s.shared t e next) :
      ConnsMoves fb s (.task i e) (s.conns.set i (.started next.2))
  | opened (i receiver : Nat) (peer : String) (addr : SocketAddr) (stream : Except String SocketAddr)
      (resolved : Except String (List SocketAddr)) (conn : s.conns[i]? = some (.connecting peer receiver))
      (pending : 0 < s.maxPendingMessages) :
      ConnsMoves fb s (.connected i stream resolved)
        (s.conns.set i (.started (.spawn addr (.empty s.maxPendingMessages) receiver)))
  | failed (i receiver : Nat) (peer : String) (stream : Except String SocketAddr)
      (resolved : Except String (List SocketAddr)) (conn : s.conns[i]? = some (.connecting peer receiver)) :
      ConnsMoves fb s (.connected i stream resolved) (s.conns.set i .ended)
  | connecting (peer : String) (receiver : Nat) :
      ConnsMoves fb s .connect (s.conns ++ [.connecting peer receiver])
  | accepted (addr : SocketAddr) (receiver : Nat) (pending : 0 < s.maxPendingMessages) :
      ConnsMoves fb s (.accept (some addr))
        (s.conns ++ [.started (.spawn addr (.empty s.maxPendingMessages) receiver)])
  | same (e : NodeEvent SocketAddr) (task : ∀ i te, e ≠ .task i te)
      (connected : ∀ i stream resolved, e ≠ .connected i stream resolved) : ConnsMoves fb s e s.conns

private theorem connected_conns (fb : Flexbuffers) {i receiver : Nat} {peer : String}
    (stream : Except String SocketAddr) (resolved : Except String (List SocketAddr))
    (hconn : s.conns[i]? = some (.connecting peer receiver)) :
    ConnsMoves fb s (.connected i stream resolved) (s.connected i receiver stream resolved).conns := by
  unfold connected
  split
  · split
    · rename_i task htask
      obtain ⟨hlimits, rfl⟩ := Connection.Task.startConnection_eq_ok.mp htask
      exact .opened i receiver peer _ _ _ hconn hlimits.1
    · exact .failed i receiver peer _ _ hconn
  · exact .failed i receiver peer _ _ hconn

private theorem accepted_conns (fb : Flexbuffers) (s : Node SocketAddr) (peerAddress : SocketAddr) :
    ConnsMoves fb s (.accept (some peerAddress)) (s.accepted peerAddress).conns := by
  unfold Node.accepted
  split
  split
  · rename_i task htask
    obtain ⟨hlimits, rfl⟩ := Connection.Task.startConnection_eq_ok.mp htask
    exact .accepted peerAddress _ hlimits.1
  · exact .same _ (fun _ _ heq => (by cases heq)) (fun _ _ _ heq => (by cases heq))

theorem step_conns {e : NodeEvent SocketAddr} (h : step fb s e = some s') : ConnsMoves fb s e s'.conns := by
  have hsame (htask : ∀ i te, e ≠ .task i te) (hconnected : ∀ i stream resolved, e ≠ .connected i stream resolved)
      (hconns : s'.conns = s.conns) : ConnsMoves fb s e s'.conns := hconns ▸ .same e htask hconnected
  cases e with
  | connect =>
    obtain ⟨peer, seeds, -, rfl⟩ := step_connect h
    exact .connecting peer _
  | accept peerAddress =>
    obtain ⟨-, rfl⟩ := step_accept h
    cases peerAddress with
    | none => exact hsame (by simp) (by simp) rfl
    | some peerAddress => exact accepted_conns fb s peerAddress
  | connected i stream resolved =>
    obtain ⟨peer, receiver, hconn, rfl⟩ := step_connected h
    exact connected_conns fb stream resolved hconn
  | task i e =>
    obtain ⟨t, next, ht, hstepped, rfl⟩ := step_task h
    exact .task i e t next ht (Connection.Task.step_moves hstepped)
  | listen bound =>
    obtain ⟨-, rfl⟩ := step_listen h
    exact hsame (by simp) (by simp) (by cases bound <;> rfl)
  | tick =>
    obtain ⟨pc, htick⟩ := tick_eq s
    exact hsame (by simp) (by simp) (by rw [step_tick h, htick])
  | send =>
    obtain ⟨sendToAll, pc, hsend⟩ := send_eq s
    exact hsame (by simp) (by simp) (by rw [step_send h, hsend])
  | notified =>
    obtain ⟨-, -, rfl⟩ := step_notified h
    exact hsame (by simp) (by simp) rfl
  | clock now =>
    obtain rfl := step_clock h
    exact hsame (by simp) (by simp) rfl

end

end Node

end Braidpool
