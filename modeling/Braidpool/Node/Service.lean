import Braidpool.Connection.Drain
import Braidpool.Node.Memory

/-! A node can serve each of its connections by itself: what a peer has sent is handled and
answered by the steps of one task, whatever the others are at. -/
namespace Braidpool
open Braidpool.Runtime Braidpool.Protocol Braidpool.Connection
variable {SocketAddr : Type}

namespace Connection

/-- The step that completes the write of a task, if it is at one. -/
def Pc.flushing : Pc → List TaskEvent
  | .handshake _ | .running (.writing _) => [.sent true]
  | _ => []

theorem Pc.length_flushing (pc : Pc) : pc.flushing.length ≤ 1 := by
  unfold flushing
  split <;> simp

def Pc.toWrite : Pc → List Bytes
  | .handshake message => [message]
  | .running (.writing write) => [write.bytes]
  | _ => []

/-- Each frame is polled, and its reply is sent, if it gets one. -/
def serving (fb : Flexbuffers) (msgs : List Bytes) : List TaskEvent :=
  msgs.flatMap fun msg => .poll queueBranch :: (replyTo fb msg).toList.map fun _ => .sent true

theorem length_serving (fb : Flexbuffers) (msgs : List Bytes) : (serving fb msgs).length ≤ 2 * msgs.length := by
  induction msgs with
  | nil => exact Nat.le_refl _
  | cons msg msgs ih =>
    have hreply := Option.length_toList_le (o := replyTo fb msg)
    rw [serving, List.flatMap_cons, List.length_append, List.length_cons, List.length_map, ← serving, List.length_cons]
    omega

/-- A task has come to wait, with the frames of its queue handled and answered. -/
structure Task.Served (fb : Flexbuffers) (t t' : Task SocketAddr) : Prop where
  waits : t'.AtRest
  handled : t'.handled = t.handled ++ t.handling.toList ++ t.queue.buffer
  written : t'.written = t.written ++ t.pc.toWrite ++ t.queue.buffer.filterMap (replyTo fb)

namespace Endpoint
variable [DecidableEq SocketAddr] {fb : Flexbuffers} (sh : Shared SocketAddr) {t : Task SocketAddr}

/-- A task that waits takes the frames of its queue in turn. -/
private theorem run_serving (ht : t.AtPc fb) {disabled : Finset (Fin 2)} (hpc : t.pc = .running (.select disabled))
    (haccepted : ∀ msg ∈ t.queue.buffer, Accepted fb msg) :
    ∃ t', Machine.run (step fb) ⟨sh, t⟩ ((serving fb t.queue.buffer).map .task) = some ⟨sh, t'⟩ ∧ t.Served fb t' := by
  induction hbuffer : t.queue.buffer generalizing t disabled with
  | nil =>
    refine ⟨t, rfl, ⟨hbuffer, disabled, hpc⟩, ?_, ?_⟩
    · simp [ht.selecting hpc, hbuffer]
    · simp [hpc, Pc.toWrite, hbuffer]
  | cons msg rest ih =>
    obtain ⟨hopen, ⟨hhandling, henabled⟩, -⟩ := ht.running hpc
    obtain ⟨next, hnext⟩ := Option.isSome_iff_exists.mp hopen.receiver
    obtain ⟨queue, hrecv⟩ := Mpsc.recv_cons hbuffer
    obtain ⟨hqueue, -⟩ := Mpsc.recv_some hrecv
    obtain rfl : rest = queue.buffer := (List.cons.inj (hbuffer.symm.trans hqueue)).2
    have hrest : ∀ msg ∈ queue.buffer, Accepted fb msg := fun msg hmsg =>
      haccepted msg (hbuffer ▸ List.mem_cons_of_mem _ hmsg)
    cases hreply : replyTo fb msg with
    | none =>
      have hmsg := haccepted msg (hbuffer ▸ List.mem_cons_self)
      have hfirst := step_handled (s := ⟨sh, t⟩) hpc henabled hnext hrecv hmsg hreply
      obtain ⟨t', hrun, hserved⟩ := ih ((step_moves hfirst).atPc ht).1 rfl hrest rfl
      refine ⟨t', ?_, hserved.waits, ?_, ?_⟩
      · simp only [serving, List.flatMap_cons, hreply] at hrun ⊢
        exact Machine.run_cons.mpr ⟨_, hfirst, hrun⟩
      · simp [hserved.handled, hhandling, hqueue]
      · simp [hserved.written, hpc, Pc.toWrite, hqueue, hreply]
    | some reply =>
      have hfirst := step_poll (s := ⟨sh, t⟩) hpc henabled hnext hrecv hreply
      have hsecond : step fb ⟨sh, { t with
            pc := .running (.writing (.reply reply)), queue, receiver := some next, handling := some msg }⟩
          (.task (.sent true)) = some _ := step_delivered rfl
      have hatPc := ((step_moves hsecond).atPc ((step_moves hfirst).atPc ht).1).1
      obtain ⟨t', hrun, hserved⟩ := ih hatPc rfl hrest rfl
      refine ⟨t', ?_, hserved.waits, ?_, ?_⟩
      · simp only [serving, List.flatMap_cons, hreply] at hrun ⊢
        exact Machine.run_cons.mpr ⟨_, hfirst, Machine.run_cons.mpr ⟨_, hsecond, hrun⟩⟩
      · simp [hserved.handled, Task.deliver, hhandling, hqueue]
      · simp [hserved.written, Task.deliver, hpc, Pc.toWrite, hqueue, hreply]

private theorem run_flushing (ht : t.AtPc fb)
    (hopen : (∃ message, t.pc = .handshake message) ∨ ∃ handler, t.pc = .running handler) : ∃ t' disabled,
    Machine.run (step fb) ⟨sh, t⟩ (t.pc.flushing.map .task) = some ⟨sh, t'⟩ ∧ t'.pc = .running (.select disabled) ∧
      t'.queue = t.queue ∧ t'.handled = t.handled ++ t.handling.toList ∧ t'.written = t.written ++ t.pc.toWrite := by
  rcases hopen with ⟨message, hpc⟩ | ⟨handler, hpc⟩
  · obtain ⟨-, hidle, -⟩ := ht.greeting hpc
    refine ⟨t.handshakeSent message true, ∅, ?_, rfl, rfl, ?_, ?_⟩
    · rw [hpc]
      exact Machine.run_cons.mpr ⟨_, step_handshakeSent hpc true, rfl⟩
    · simp [Task.handshakeSent, hidle.handled, hidle.handling]
    · simp [Task.handshakeSent, hpc, Pc.toWrite]
  · cases handler with
    | select disabled =>
      refine ⟨t, disabled, ?_, hpc, rfl, ?_, ?_⟩
      · rw [hpc]
        rfl
      · simp [ht.selecting hpc]
      · simp [hpc, Pc.toWrite]
    | writing write =>
      refine ⟨{ t.deliver write with pc := .running (.select ∅) }, ∅, ?_, rfl, ?_, ?_, ?_⟩
      · rw [hpc]
        exact Machine.run_cons.mpr ⟨_, step_delivered hpc, rfl⟩
      · cases write <;> rfl
      · have hwrite := ht.writing hpc
        cases write with
        | reply toSend => rfl
        | sendToAll msgBytes =>
          have hhandling : t.handling = none := hwrite
          simp [Task.deliver, hhandling]
      · cases write <;> simp [Task.deliver, hpc, Pc.toWrite, Write.bytes]

theorem run_served (ht : t.AtPc fb)
    (hopen : (∃ message, t.pc = .handshake message) ∨ ∃ handler, t.pc = .running handler)
    (haccepted : ∀ msg ∈ t.queue.buffer, Accepted fb msg) :
    ∃ t', Machine.run (step fb) ⟨sh, t⟩ ((t.pc.flushing ++ serving fb t.queue.buffer).map .task) = some ⟨sh, t'⟩ ∧
      t.Served fb t' := by
  obtain ⟨t₁, disabled, hflush, hpc, hqueue, hhandled, hwritten⟩ := run_flushing sh ht hopen
  have ht₁ : t₁.AtPc fb := Machine.run_invariant (P := fun s => s.task.AtPc fb)
    (fun hs hstep => ((step_moves hstep).atPc hs).1) ht hflush
  obtain ⟨t', hserve, hserved⟩ := run_serving sh ht₁ hpc (hqueue ▸ haccepted)
  rw [hqueue] at hserve
  refine ⟨t', ?_, hserved.waits, ?_, ?_⟩
  · rw [List.map_append]
    exact Machine.run_append.mpr ⟨_, hflush, hserve⟩
  · simp [hserved.handled, ht₁.selecting hpc, hqueue, hhandled]
  · simp [hserved.written, hpc, Pc.toWrite, hqueue, hwritten]

end Endpoint

end Connection

namespace Node
variable [DecidableEq SocketAddr] {fb : Flexbuffers} {s : Node SocketAddr}

/-- What a task can do in the surroundings of its node, it can do there, and nothing else
of the connections changes. -/
theorem run_task (hover : ¬ s.Over) {i : Nat} {t t' : Connection.Task SocketAddr} (ht : s.TaskAt i t)
    {sh' : Shared SocketAddr} {es : List TaskEvent}
    (h : Machine.run (Endpoint.step fb) ⟨s.shared, t⟩ (es.map .task) = some ⟨sh', t'⟩) :
    Machine.run (step fb) s (es.map (.task i)) = some { s with
      shared := sh', conns := s.conns.set i (.started t') } := by
  induction es generalizing s t with
  | nil =>
    obtain ⟨rfl, rfl⟩ := Endpoint.mk.inj (Option.some.inj h)
    have hsame : s.conns.set i (.started t) = s.conns := by
      obtain ⟨hlt, hget⟩ := List.getElem?_eq_some_iff.mp ht
      rw [← hget, List.set_getElem_self]
    rw [hsame]
    rfl
  | cons e es ih =>
    obtain ⟨u, he, hes⟩ := Machine.run_cons.mp h
    obtain ⟨next, hnext, rfl⟩ := Option.map_eq_some_iff.mp he
    have hlt := (List.getElem?_eq_some_iff.mp ht).1
    have hrest := ih (s := { s with shared := next.1, conns := s.conns.set i (.started next.2) }) hover
      (List.getElem?_set_self hlt) hes
    rw [List.set_set] at hrest
    refine Machine.run_cons.mpr ⟨_, ?_, hrest⟩
    rw [step_task_eq fb s hover, ht]
    simp only [hnext]
    rfl

/-- Whatever state the other connections are in, and without a step of theirs, what the
peer of an open connection has sent can be handled and answered: the frame being written is
completed, and then each queued frame is handled, with its reply, in at most two steps. -/
theorem run_serves [ToString SocketAddr] {config : Config} {platform : Platform SocketAddr} {now : SystemTime}
    {s₀ : Node SocketAddr} {es : List (NodeEvent SocketAddr)} (h₀ : main fb config platform now = .ok s₀)
    (h : Machine.run (step fb) s₀ es = some s) (hover : ¬ s.Over) {i : Nat} {t : Connection.Task SocketAddr}
    (ht : s.TaskAt i t) (hopen : (∃ message, t.pc = .handshake message) ∨ ∃ handler, t.pc = .running handler)
    (haccepted : ∀ msg ∈ t.queue.buffer, Accepted fb msg) :
    (t.pc.flushing ++ serving fb t.queue.buffer).length ≤ 2 * config.peer.maxPendingMessages + 1 ∧
    ∃ t', Machine.run (step fb) s ((t.pc.flushing ++ serving fb t.queue.buffer).map (.task i)) =
        some { s with conns := s.conns.set i (.started t') } ∧
      t'.AtRest ∧ t'.handled = es.flatMap (·.frames i) ∧
      t'.written = t.written ++ t.pc.toWrite ++ t.queue.buffer.filterMap (replyTo fb) := by
  have hacc := (run_bounded h₀ h).accounted i t ht
  refine ⟨?_, ?_⟩
  · have hqueue : t.queue.buffer.length ≤ config.peer.maxPendingMessages := hacc.capacity ▸ t.queue.bounded
    have hserving := length_serving fb t.queue.buffer
    have hflushing := t.pc.length_flushing
    rw [List.length_append]
    omega
  · obtain ⟨t', hrun, hserved⟩ := Endpoint.run_served s.shared hacc.atPc hopen haccepted
    refine ⟨t', run_task hover ht hrun, hserved.waits, ?_, hserved.written⟩
    have hrefused : t.refused = none := by
      rcases hopen with ⟨message, hpc⟩ | ⟨handler, hpc⟩
      · exact (hacc.atPc.greeting hpc).2.1.refused
      · exact (hacc.atPc.running hpc).2.2.1
    have hnone : s₀.read i = [] := by simp [Node.read, (main_ok h₀).1]
    have hread := run_read h i
    rw [ht.read, hnone, List.nil_append, hacc.read, hrefused, Option.toList_none, List.append_nil] at hread
    rw [hserved.handled, hread]

/-- Two pings wait in the queue of the first peer, while the second is being greeted. -/
def twoPings : List (NodeEvent SocketAddrV4) :=
  [.listen true, .accept (some hostA), .accept (some hostB), .task 0 .insert, .task 1 .insert, .task 0 (.sent true),
    .task 0 (.read (some (.ok pingBytes))), .task 0 (.read (some (.ok pingBytes)))]

/-- The connections that wait in their select, each with the frames that it holds. -/
def waiting (s : Node SocketAddrV4) (i : Nat) : Option (List Bytes) :=
  match s.conns[i]? with
  | some (.started t) => if t.pc = .running (.select ∅) then some t.held else none
  | _ => none

theorem serves_twoPings : ∃ s₀ s fs t', main Codec.flexbuffers {} platformA .unixEpoch = .ok s₀ ∧
    Machine.run (step Codec.flexbuffers) s₀ twoPings = some s ∧
    Machine.run (step Codec.flexbuffers) s fs = some { s with conns := s.conns.set 0 (.started t') } ∧
    t'.handled = [pingBytes, pingBytes] := by
  obtain ⟨s₀, s, h₀, h, hpc, hwaiting⟩ : ∃ s₀ s, main Codec.flexbuffers {} platformA .unixEpoch = .ok s₀ ∧
      Machine.run (step Codec.flexbuffers) s₀ twoPings = some s ∧ s.pc = .listening ∧
      s.waiting 0 = some [pingBytes, pingBytes] :=
    exists_run _ (fun _ s => s.pc = .listening ∧ s.waiting 0 = some [pingBytes, pingBytes]) (by decide)
  have hover : ¬ s.Over := by simp [Over, hpc]
  have hping : Accepted Codec.flexbuffers pingBytes := ⟨.ping ⟨"ping"⟩, _, by decide, rfl⟩
  obtain ⟨t, ht, hselect, hheld⟩ : ∃ t, s.TaskAt 0 t ∧ t.pc = .running (.select ∅) ∧ t.held = [pingBytes, pingBytes] := by
    unfold waiting at hwaiting
    split at hwaiting
    · rename_i t hconn
      split at hwaiting
      · exact ⟨t, hconn, ‹_›, Option.some.inj hwaiting⟩
      · cases hwaiting
    · cases hwaiting
  have haccepted : ∀ msg ∈ t.queue.buffer, Accepted Codec.flexbuffers msg := by
    intro msg hmsg
    have hmem : msg ∈ t.held := List.mem_append_left _ (List.mem_append_right _ hmsg)
    have heq : msg = pingBytes := by simpa [hheld] using hmem
    exact heq ▸ hping
  obtain ⟨-, t', hrun, -, hhandled, -⟩ := run_serves h₀ h hover ht (.inr ⟨_, hselect⟩) haccepted
  exact ⟨s₀, s, _, t', h₀, h, hrun, hhandled⟩

end Node

end Braidpool
