import Braidpool.Node.System

/-! Every connection task of a node is a task in its surroundings, so what holds of
one task in any surroundings holds of each task of the node. -/
namespace Braidpool
open Braidpool.Runtime Braidpool.Protocol Braidpool.Connection

namespace Connection.Task
variable {SocketAddr : Type} [DecidableEq SocketAddr] {fb : Flexbuffers}

/-- A task changes the table and drops its receiver; it never touches the rest of
what it shares. -/
theorem Moves.shared {sh : Shared SocketAddr} {t : Connection.Task SocketAddr} {e : TaskEvent}
    {next : Shared SocketAddr × Connection.Task SocketAddr} (h : Moves fb sh t e next) :
    ∃ manager receivers, next.1 = ⟨manager, { sh.sendToAll with receivers }, sh.notifier, sh.now⟩ := by
  cases h <;> exact ⟨_, _, rfl⟩

section
variable {sh : Shared SocketAddr} {t : Connection.Task SocketAddr} {e : TaskEvent}
  {next : Shared SocketAddr × Connection.Task SocketAddr}

theorem Moves.sent (h : Moves fb sh t e next) : next.1.sendToAll.sent = sh.sendToAll.sent := by
  obtain ⟨manager, receivers, hshared⟩ := h.shared
  rw [hshared]

theorem Moves.senders (h : Moves fb sh t e next) : next.1.sendToAll.senders = sh.sendToAll.senders := by
  obtain ⟨manager, receivers, hshared⟩ := h.shared
  rw [hshared]

theorem Moves.notifier (h : Moves fb sh t e next) : next.1.notifier = sh.notifier := by
  obtain ⟨manager, receivers, hshared⟩ := h.shared
  rw [hshared]

end

end Connection.Task

/-- The senders that the heartbeat task still has. -/
def Node.Heartbeat.senders (h : Heartbeat) : Nat :=
  match h.pc with
  | .panicked _ => 0
  | _ => 1

namespace Node
variable {SocketAddr : Type} [DecidableEq SocketAddr] {fb : Flexbuffers} {s s' : Node SocketAddr}
  {e : NodeEvent SocketAddr}

/-- Steps of the rest of the node are steps of the task's surroundings. -/
private theorem others {sh : Shared SocketAddr} (t : Connection.Task SocketAddr) (manager : ConnectionManager SocketAddr)
    {senders : Nat} (receivers : Nat) (notifier : Notify) (now : SystemTime) (h : 0 < sh.sendToAll.senders) :
    Machine.Reaches (Endpoint.step fb) ⟨sh, t⟩
      ⟨⟨manager, { sh.sendToAll with senders, receivers }, notifier, now⟩, t⟩ := by
  refine .single (e := .others manager senders receivers notifier now) ?_
  rw [Endpoint.step, if_neg fun h0 => h.ne' h0.1]

omit [DecidableEq SocketAddr] in
theorem conn_of_set {conns : List (Conn SocketAddr)} {i j : Nat} {c d : Conn SocketAddr}
    (h : (conns.set i c)[j]? = some d) : i = j ∧ d = c ∨ i ≠ j ∧ conns[j]? = some d := by
  rw [List.getElem?_set] at h
  split at h
  · split at h
    · exact .inl ⟨‹_›, (Option.some.inj h).symm⟩
    · cases h
  · exact .inr ⟨‹_›, h⟩

omit [DecidableEq SocketAddr] in
theorem conn_of_concat {conns : List (Conn SocketAddr)} {j : Nat} {c d : Conn SocketAddr}
    (h : (conns ++ [c])[j]? = some d) : j = conns.length ∧ d = c ∨ conns[j]? = some d := by
  rw [List.getElem?_append] at h
  split at h
  · exact .inr h
  · obtain ⟨hj, hd⟩ := List.getElem?_eq_some_iff.mp h
    simp only [List.length_singleton] at hj
    simp only [List.getElem_singleton] at hd
    exact .inl ⟨by omega, hd.symm⟩

/-- A task stays in its place: the step is its own, or leaves it as it is. -/
theorem Moves.taskAt (h : Moves fb s e s') {i : Nat} {t : Connection.Task SocketAddr} (ht : s.TaskAt i t) :
    (∃ te next, e = .task i te ∧ t.step fb s.shared te = some next ∧ s'.TaskAt i next.2 ∧ s'.shared = next.1) ∨
      s'.TaskAt i t := by
  have hset {j : Nat} {c : Conn SocketAddr} (hne : j ≠ i) : (s.conns.set j c)[i]? = some (.started t) :=
    (List.getElem?_set_ne hne).trans ht
  cases h with
  | task j te u next conn stepped =>
    by_cases hj : j = i
    · subst hj
      obtain rfl := Conn.started.inj (Option.some.inj (ht.symm.trans conn))
      exact .inl ⟨te, next, rfl, stepped, List.getElem?_set_self (List.getElem?_eq_some_iff.mp ht).1, rfl⟩
    · exact .inr (hset hj)
  | subscribed => exact .inr ((List.getElem?_append_left (List.getElem?_eq_some_iff.mp ht).1).trans ht)
  | started j receiver maxPendingMessages peer addr stream resolved conn | ended j receiver peer stream resolved conn =>
    refine .inr (hset ?_)
    rintro rfl
    cases ht.symm.trans conn
  | _ => exact .inr ht

/-- A task found after a step was there before, and has moved as a task in its
surroundings does, or it has just been spawned. -/
theorem Moves.origin (h : Moves fb s e s') (hsenders : 0 < s.shared.sendToAll.senders) {i : Nat}
    {t' : Connection.Task SocketAddr} (ht' : s'.TaskAt i t') :
    (∃ t, s.TaskAt i t ∧
      Machine.Reaches (Endpoint.step fb) ⟨s.shared, t⟩ ⟨s'.shared, t'⟩) ∨
    (∃ addr maxPendingMessages next, t' = .spawn addr (.empty maxPendingMessages) next ∧
      (next = s.shared.sendToAll.sent.length ∨ ∃ peer, s.conns[i]? = some (.connecting peer next))) := by
  cases h with
  | task j e t next conn stepped =>
    rcases conn_of_set ht' with ⟨rfl, heq⟩ | ⟨-, ht⟩
    · obtain rfl := Conn.started.inj heq
      refine .inl ⟨t, conn, .single (e := .task e) ?_⟩
      rw [Endpoint.step, stepped]
      rfl
    · obtain ⟨manager, receivers, hshared⟩ := (Connection.Task.step_moves stepped).shared
      refine .inl ⟨t', ht, ?_⟩
      rw [hshared]
      exact others t' manager receivers _ _ hsenders
  | subscribed e pc notifier conn fresh =>
    rcases conn_of_concat ht' with ⟨-, rfl⟩ | ht
    · cases fresh with
      | started addr maxPendingMessages => exact .inr ⟨addr, maxPendingMessages, _, rfl, .inl rfl⟩
    · exact .inl ⟨t', ht, others t' _ _ _ _ hsenders⟩
  | started j receiver maxPendingMessages peer addr stream resolved conn =>
    rcases conn_of_set ht' with ⟨rfl, heq⟩ | ⟨-, ht⟩
    · exact .inr ⟨addr, maxPendingMessages, receiver, Conn.started.inj heq, .inr ⟨peer, conn⟩⟩
    · exact .inl ⟨t', ht, .refl _⟩
  | ended j receiver peer stream resolved conn =>
    rcases conn_of_set ht' with ⟨rfl, heq⟩ | ⟨-, ht⟩
    · cases heq
    · exact .inl ⟨t', ht, others t' _ _ _ _ hsenders⟩
  | sent pc receivers =>
    refine .inl ⟨t', ht', .single (e := .sendToAll s.heartbeat.message) ?_⟩
    rw [Endpoint.step, if_neg hsenders.ne', Broadcast.send, if_neg receivers]
  | quitting p pc receivers => exact .inl ⟨t', ht', others t' _ _ _ _ hsenders⟩
  | ticked pc connections => exact .inl ⟨t', ht', .refl _⟩
  | quiet e pc notifier now => exact .inl ⟨t', ht', others t' _ _ _ _ hsenders⟩

/-- `main` and `start_listen` keep two senders, and the heartbeat task has a third
until it panics. Every task is reached from its start, at a point of the broadcasts
that had been sent by then. -/
structure Composed (fb : Flexbuffers) (s : Node SocketAddr) : Prop where
  senders : s.shared.sendToAll.senders = 2 + s.heartbeat.senders
  connecting : ∀ (i : Nat) (peer : String) (next : Nat), s.conns[i]? = some (.connecting peer next) →
    next ≤ s.shared.sendToAll.sent.length
  started : ∀ i t, s.TaskAt i t →
    ∃ sh addr maxPendingMessages next, next ≤ sh.sendToAll.sent.length ∧
      Machine.Reaches (Endpoint.step fb) (Endpoint.start sh addr maxPendingMessages next) ⟨s.shared, t⟩

/-- What is broadcast is never taken back. -/
theorem Moves.sent_prefix (h : Moves fb s e s') : s.shared.sendToAll.sent <+: s'.shared.sendToAll.sent := by
  cases h with
  | task i e t next conn stepped => rw [(Connection.Task.step_moves stepped).sent]
  | sent => exact List.prefix_append _ _
  | _ => exact List.prefix_rfl

/-- Only a tick that finds a connection makes the heartbeat task send. -/
theorem Moves.sending (h : Moves fb s e s') (hs' : s'.heartbeat.pc = .sending) :
    (s.heartbeat.pc = .sending ∨
      e = .tick ∧ 0 < s.shared.manager.numConnections ∧ s'.conns = s.conns) ∧
    s'.shared.sendToAll.sent = s.shared.sendToAll.sent := by
  cases h with
  | task i e t next conn stepped => exact ⟨.inl hs', (Connection.Task.step_moves stepped).sent⟩
  | ticked pc connections => exact ⟨.inr ⟨rfl, connections, rfl⟩, rfl⟩
  | sent | quitting => cases hs'
  | _ => exact ⟨.inl hs', rfl⟩

theorem Moves.senders (h : Moves fb s e s') (hs : s.shared.sendToAll.senders = 2 + s.heartbeat.senders) :
    s'.shared.sendToAll.senders = 2 + s'.heartbeat.senders := by
  cases h with
  | task i e t next conn stepped => exact (Connection.Task.step_moves stepped).senders.trans hs
  | sent pc | quitting p pc | ticked pc =>
    simp only [Heartbeat.senders, pc] at hs
    simp [Heartbeat.senders, Broadcast.dropSender, hs]
  | _ => exact hs

theorem Moves.composed (h : Moves fb s e s') (hs : Composed fb s) : Composed fb s' := by
  have hprefix := h.sent_prefix
  have hsenders : 0 < s.shared.sendToAll.senders := by
    have := hs.senders
    omega
  refine ⟨h.senders hs.senders, fun i peer next hconn => ?_, fun i t' ht' => ?_⟩
  · refine Nat.le_trans ?_ hprefix.length_le
    cases h with
    | task j e t next' conn stepped =>
      rcases conn_of_set hconn with ⟨rfl, heq⟩ | ⟨-, hconn⟩
      · cases heq
      · exact hs.connecting i peer next hconn
    | subscribed e pc notifier conn fresh =>
      rcases conn_of_concat hconn with ⟨-, rfl⟩ | hconn
      · cases fresh
        exact Nat.le_refl _
      · exact hs.connecting i peer next hconn
    | started j | ended j =>
      rcases conn_of_set hconn with ⟨rfl, heq⟩ | ⟨-, hconn⟩
      · cases heq
      · exact hs.connecting i peer next hconn
    | _ => exact hs.connecting i peer next hconn
  · rcases h.origin hsenders ht' with ⟨t, ht, hreach⟩ | ⟨addr, maxPendingMessages, next, rfl, hnext⟩
    · obtain ⟨sh, addr, maxPendingMessages, next, hnext, hstart⟩ := hs.started i t ht
      exact ⟨sh, addr, maxPendingMessages, next, hnext, hstart.trans hreach⟩
    · refine ⟨s'.shared, addr, maxPendingMessages, next, ?_, .refl _⟩
      refine Nat.le_trans ?_ hprefix.length_le
      rcases hnext with rfl | ⟨peer, hconn⟩
      · exact Nat.le_refl _
      · exact hs.connecting i peer next hconn

theorem main_composed [ToString SocketAddr] {config : Config} {platform : Platform SocketAddr}
    {now : SystemTime} (h : main fb config platform now = .ok s) : Composed fb s := by
  obtain ⟨hconns, hpc, -, hsenders, -⟩ := main_ok h
  refine ⟨?_, fun i peer next hconn => ?_, fun i t ht => ?_⟩
  · simp only [hsenders, Heartbeat.senders, hpc]
  · simp [hconns] at hconn
  · simp [TaskAt, hconns] at ht

theorem run_composed {es : List (NodeEvent SocketAddr)} (h : Machine.run (step fb) s es = some s')
    (hs : Composed fb s) : Composed fb s' :=
  Machine.run_invariant (fun hs hstep => (step_moves hstep).composed hs) hs h

theorem Composed.atPc (hs : Composed fb s) {i : Nat} {t : Connection.Task SocketAddr}
    (ht : s.TaskAt i t) : t.AtPc fb := by
  obtain ⟨sh, addr, maxPendingMessages, next, -, es, hes⟩ := hs.started i t ht
  exact (Endpoint.run_atPc hes).1

end Node

end Braidpool
