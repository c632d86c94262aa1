import Braidpool.Node.Traffic
import Mathlib.Algebra.Order.BigOperators.Group.Finset

/-! What a node keeps of the frames that its peers send. However much they send, it is
bounded by the configuration: for each connection, and for all of them together. -/
namespace Braidpool
open Braidpool.Runtime Braidpool.Protocol Braidpool.Connection
variable {SocketAddr : Type}

namespace Connection

/-- The frames that a task has read and has not handled. -/
def Task.held (t : Task SocketAddr) : List Bytes := t.handling.toList ++ t.queue.buffer ++ t.refused.toList

namespace Endpoint
variable {fb : Flexbuffers} {maxPendingMessages : Nat} {t : Task SocketAddr}

theorem Accounted.read_eq (h : Accounted fb maxPendingMessages t) :
    t.read = t.handled ++ t.held := by
  rw [h.read, Task.held, List.append_assoc, List.append_assoc, List.append_assoc]

/-- Beside the queue, a task has one frame that it handles and one that it refuses. -/
theorem Accounted.length_held (h : Accounted fb maxPendingMessages t) :
    t.held.length ≤ maxPendingMessages + 2 := by
  have hhandling := Option.length_toList_le (o := t.handling)
  have hrefused := Option.length_toList_le (o := t.refused)
  have hqueue : t.queue.buffer.length ≤ maxPendingMessages := h.capacity ▸ t.queue.bounded
  simp only [Task.held, List.length_append]
  omega

/-- A task that has no entry, and has not had one, holds nothing. -/
theorem Accounted.held_of_not_live (h : Accounted fb maxPendingMessages t) (hdead : ¬ t.Live) (hended : t.ended = none) :
    t.held = [] := by
  have hread : t.read = [] → t.held = [] := fun hnil => (List.append_eq_nil_iff.mp (h.read_eq.symm.trans hnil)).2
  have ht := h.atPc
  unfold Task.AtPc at ht
  cases hpc : t.pc <;> rw [hpc] at ht
  case insert | handshake => exact hread ht.2.1.read
  case refused => exact hread ht.1.read
  case running => exact absurd (by simp [Task.Live, ht.2.2.2.2]) hdead
  case closing | removing | finished => simp [hended] at ht
  case panicked => exact ht.elim

end Endpoint

end Connection

namespace Node

def Conn.held : Conn SocketAddr → List Bytes
  | .started t => t.held
  | _ => []

/-- The frames that connection `i` has read and has not handled. -/
def held (s : Node SocketAddr) (i : Nat) : List Bytes := (s.conns[i]?).elim [] Conn.held

theorem TaskAt.held {s : Node SocketAddr} {i : Nat} {t : Connection.Task SocketAddr} (ht : s.TaskAt i t) :
    s.held i = t.held := by
  rw [Node.held, ht]
  rfl

variable [DecidableEq SocketAddr] {fb : Flexbuffers} {s s' : Node SocketAddr} {e : NodeEvent SocketAddr}

/-- A task found after a step was there before, has just moved, or has just been spawned,
with a queue of the size that the node gives to each, which is not zero. -/
theorem step_task_origin (h : step fb s e = some s') {i : Nat} {t' : Connection.Task SocketAddr} (ht' : s'.TaskAt i t') :
    s.TaskAt i t' ∨ (∃ t te sh', s.TaskAt i t ∧ Connection.Task.Moves fb s.shared t te (sh', t')) ∨
      0 < s.maxPendingMessages ∧ ∃ addr next, t' = .spawn addr (.empty s.maxPendingMessages) next := by
  have hconns := step_conns h
  unfold TaskAt at ht'
  generalize s'.conns = conns at hconns ht'
  cases hconns with
  | task j te t next conn moves =>
    rcases conn_of_set ht' with ⟨rfl, heq⟩ | ⟨-, ht⟩
    · obtain rfl := Conn.started.inj heq
      exact .inr (.inl ⟨t, te, next.1, conn, moves⟩)
    · exact .inl ht
  | opened j receiver peer addr stream resolved conn pending =>
    rcases conn_of_set ht' with ⟨-, heq⟩ | ⟨-, ht⟩
    · exact .inr (.inr ⟨pending, addr, receiver, Conn.started.inj heq⟩)
    · exact .inl ht
  | failed j receiver peer stream resolved conn =>
    rcases conn_of_set ht' with ⟨-, heq⟩ | ⟨-, ht⟩
    · cases heq
    · exact .inl ht
  | connecting peer receiver =>
    rcases conn_of_concat ht' with ⟨-, heq⟩ | ht
    · cases heq
    · exact .inl ht
  | accepted addr receiver pending =>
    rcases conn_of_concat ht' with ⟨-, heq⟩ | ht
    · exact .inr (.inr ⟨pending, addr, receiver, Conn.started.inj heq⟩)
    · exact .inl ht
  | same => exact .inl ht'

/-- What a spawned task has and no move of a task loses, all tasks of a node have. -/
theorem step_tasks {P : Connection.Task SocketAddr → Prop}
    (hspawn : 0 < s.maxPendingMessages → ∀ addr next, P (.spawn addr (.empty s.maxPendingMessages) next))
    (hmoves : ∀ {sh sh' t te t'}, Connection.Task.Moves fb sh t te (sh', t') → P t → P t')
    (hs : ∀ i t, s.TaskAt i t → P t) (h : step fb s e = some s') (i : Nat) (t' : Connection.Task SocketAddr)
    (ht' : s'.TaskAt i t') : P t' := by
  rcases step_task_origin h ht' with ht | ⟨t, te, sh', ht, hmove⟩ | ⟨hpending, addr, next, rfl⟩
  · exact hs i t' ht
  · exact hmoves hmove (hs i t ht)
  · exact hspawn hpending addr next

/-- The frames of every task are accounted for, and every queue has the size configured. -/
structure Bounded (fb : Flexbuffers) (maxPendingMessages : Nat) (s : Node SocketAddr) : Prop where
  limit : s.maxPendingMessages = maxPendingMessages
  accounted : ∀ i t, s.TaskAt i t → Endpoint.Accounted fb maxPendingMessages t

theorem step_bounded {maxPendingMessages : Nat} (hs : Bounded fb maxPendingMessages s) (h : step fb s e = some s') :
    Bounded fb maxPendingMessages s' := by
  refine ⟨?_, step_tasks (fun _ addr next => ?_) (fun hmoves hacc => ?_) hs.accounted h⟩
  · cases step_moves h <;> exact hs.limit
  · exact ⟨Connection.Task.spawn_atPc _ _ _, rfl, hs.limit⟩
  · exact ⟨hmoves.atPc hacc.atPc, hmoves.read hacc.atPc hacc.read, hmoves.queueCapacity.trans hacc.capacity⟩

section
variable [ToString SocketAddr] {config : Config} {platform : Platform SocketAddr} {now : SystemTime}
  {s₀ : Node SocketAddr} {es : List (NodeEvent SocketAddr)}

omit [DecidableEq SocketAddr] in
theorem main_bounded (h₀ : main fb config platform now = .ok s₀) :
    Bounded fb config.peer.maxPendingMessages s₀ := by
  obtain ⟨sendToAll, heartbeat, -, -, rfl⟩ := main_eq_ok.mp h₀
  exact ⟨rfl, fun i t ht => (by simp [TaskAt] at ht)⟩

theorem run_bounded (h₀ : main fb config platform now = .ok s₀) (h : Machine.run (step fb) s₀ es = some s) :
    Bounded fb config.peer.maxPendingMessages s :=
  Machine.run_invariant (fun hs hstep => step_bounded hs hstep) (main_bounded h₀) h

/-- Of all that a peer has sent, a connection holds no more than its queue and two frames;
before its admission it holds nothing. While inserts are fresh, all live connections
together hold no more than the configuration allows. -/
theorem run_holds (h₀ : main fb config platform now = .ok s₀) (h : Machine.run (step fb) s₀ es = some s) :
    (∀ i t, s.TaskAt i t → es.flatMap (·.frames i) = t.handled ++ t.held ∧
      t.held.length ≤ config.peer.maxPendingMessages + 2 ∧ (¬ t.Live → t.ended = none → t.held = [])) ∧
    (Machine.Guarded (step fb) FreshInsert s₀ es →
      (∑ c ∈ liveConns s.conns, (s.held c.1).length) ≤
        config.peer.maxPeerCount * (config.peer.maxPendingMessages + 2)) := by
  have hbounded := run_bounded h₀ h
  refine ⟨fun i t ht => ?_, fun hfresh => ?_⟩
  · have hacc := hbounded.accounted i t ht
    have hread : t.read = es.flatMap (·.frames i) := by
      have hnone : s₀.read i = [] := by simp [Node.read, (main_ok h₀).1]
      rw [← ht.read, run_read h, hnone, List.nil_append]
    exact ⟨hread.symm.trans hacc.read_eq, hacc.length_held, hacc.held_of_not_live⟩
  · have heach : ∀ c ∈ liveConns s.conns, (s.held c.1).length ≤ config.peer.maxPendingMessages + 2 := by
      intro c hc
      obtain ⟨conn, hconn, hlive⟩ := mem_liveConns.mp hc
      obtain ⟨t, rfl, -, -⟩ := Conn.live_eq_some.mp hlive
      have ht : s.TaskAt c.1 t := hconn
      rw [ht.held]
      exact (hbounded.accounted _ t ht).length_held
    have hlive : (liveConns s.conns).card ≤ config.peer.maxPeerCount :=
      (run_exact h₀ hfresh h).card_members_le (run_sound h₀ h)
    calc
      _ ≤ (liveConns s.conns).card • (config.peer.maxPendingMessages + 2) := Finset.sum_le_card_nsmul _ _ _ heach
      _ ≤ _ := Nat.mul_le_mul_right _ hlive

end

/-- Queues of one frame, and two peers at most. -/
def smallQueues : Config := { peer := { maxPendingMessages := 1, maxPeerCount := 2 } }

def pingBytes : Bytes := Codec.flexbuffers.takeBuffer ⟨"Ping", [("message", .string "ping")]⟩

/-- Two peers are admitted. While the first ping of one is answered, a second one waits
in the queue, and a third one is refused. -/
def floods : List (NodeEvent SocketAddrV4) :=
  [.listen true, .accept (some hostA), .accept (some hostB), .task 0 .insert, .task 1 .insert, .task 0 (.sent true),
    .task 0 (.read (some (.ok pingBytes))), .task 0 (.poll queueBranch), .task 0 (.read (some (.ok pingBytes))),
    .task 0 (.read (some (.ok pingBytes)))]

theorem holds_floods : ∃ s₀ s, main Codec.flexbuffers smallQueues platformA .unixEpoch = .ok s₀ ∧
    Machine.run (step Codec.flexbuffers) s₀ floods = some s ∧ s.held 0 = [pingBytes, pingBytes, pingBytes] ∧
    (∑ c ∈ liveConns s.conns, (s.held c.1).length) ≤ 2 * 3 := by
  obtain ⟨s₀, s, h₀, h, hfresh, hheld⟩ : ∃ s₀ s, main Codec.flexbuffers smallQueues platformA .unixEpoch = .ok s₀ ∧
      Machine.run (step Codec.flexbuffers) s₀ floods = some s ∧
      Machine.Guarded (step Codec.flexbuffers) FreshInsert s₀ floods ∧ s.held 0 = [pingBytes, pingBytes, pingBytes] :=
    exists_run _ (fun s₀ s => Machine.Guarded (step Codec.flexbuffers) FreshInsert s₀ floods ∧
      s.held 0 = [pingBytes, pingBytes, pingBytes]) (by decide)
  exact ⟨s₀, s, h₀, h, hheld, (run_holds h₀ h).2 hfresh⟩

end Node

end Braidpool
