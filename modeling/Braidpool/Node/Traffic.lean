import Braidpool.Connection.Backlog
import Braidpool.Node.Heartbeats
import Braidpool.Node.Table

/-! What goes over each connection of a node: the frames it takes from its own peer,
the replies to them, and the node's heartbeats. -/
namespace Braidpool
open Braidpool.Runtime Braidpool.Protocol Braidpool.Connection

variable {SocketAddr : Type}

/-- A task that is reached from its start talks, if its node has broadcast heartbeats only. -/
theorem Connection.Endpoint.run_talks [DecidableEq SocketAddr] {fb : Flexbuffers} {sh : Shared SocketAddr}
    {addr : SocketAddr} {maxPendingMessages since : Nat} {es : List (EndpointEvent SocketAddr)}
    {s : Endpoint SocketAddr} (h : Machine.run (Endpoint.step fb) (Endpoint.start sh addr maxPendingMessages since) es = some s)
    (hsince : since ≤ sh.sendToAll.sent.length) (hsent : ∀ msg ∈ s.shared.sendToAll.sent, IsHeartbeat fb msg) :
    s.Talks fb since := by
  have hcause : s.task.AtPc fb ∧ ∀ why ∈ s.task.ended, s.task.Cause fb why := by
    refine Machine.run_invariant (P := fun s => s.task.AtPc fb ∧ ∀ why ∈ s.task.ended, s.task.Cause fb why) ?_
      ⟨Connection.Task.spawn_atPc addr maxPendingMessages since, fun why hwhy => (by cases hwhy)⟩ h
    rintro s e s' ⟨hs, hc⟩ hstep
    have hmoves := Endpoint.step_moves hstep
    exact ⟨(hmoves.atPc hs).1, hmoves.cause hs hc⟩
  exact ⟨hcause.1, Endpoint.run_delivers h hsince (.inr rfl) (fun _ => .inl rfl), hcause.2,
    fun msg hmsg => hsent msg (List.mem_of_mem_drop hmsg)⟩

/-- The frames that connection `i` reads in an event. -/
def NodeEvent.frames : NodeEvent SocketAddr → Nat → List Bytes
  | .task j e, i => if j = i then e.frames else []
  | _, _ => []

namespace Node

def Conn.read : Conn SocketAddr → List Bytes
  | .started t => t.read
  | _ => []

def Conn.written : Conn SocketAddr → List Bytes
  | .started t => t.written
  | _ => []

/-- The frames that connection `i` has read. -/
def read (s : Node SocketAddr) (i : Nat) : List Bytes := (s.conns[i]?).elim [] Conn.read

/-- The frames that connection `i` has delivered to its peer. -/
def written (s : Node SocketAddr) (i : Nat) : List Bytes := (s.conns[i]?).elim [] Conn.written

theorem TaskAt.read {s : Node SocketAddr} {i : Nat} {t : Connection.Task SocketAddr} (ht : s.TaskAt i t) :
    s.read i = t.read := by
  rw [Node.read, ht]
  rfl

theorem TaskAt.written {s : Node SocketAddr} {i : Nat} {t : Connection.Task SocketAddr} (ht : s.TaskAt i t) :
    s.written i = t.written := by
  rw [Node.written, ht]
  rfl

/-- Replacing a connection changes what `f` sees of it, and of no other. -/
private theorem elim_set {f : Conn SocketAddr → List Bytes} {conns : List (Conn SocketAddr)} {i : Nat}
    {old c : Conn SocketAddr} (hi : conns[i]? = some old) (j : Nat) :
    ((conns.set i c)[j]?).elim [] f = if i = j then f c else (conns[j]?).elim [] f := by
  have hlt := (List.getElem?_eq_some_iff.mp hi).1
  rw [List.getElem?_set]
  by_cases hij : i = j
  · subst hij
    simp [hlt]
  · simp [hij]

private theorem elim_concat {f : Conn SocketAddr → List Bytes} {conns : List (Conn SocketAddr)}
    {c : Conn SocketAddr} (hc : f c = []) (j : Nat) :
    ((conns ++ [c])[j]?).elim [] f = (conns[j]?).elim [] f := by
  rw [List.getElem?_append]
  split
  · rfl
  · rename_i hj
    rw [List.getElem?_eq_none (Nat.le_of_not_lt hj), List.getElem?_singleton]
    split
    · exact hc
    · rfl

variable [DecidableEq SocketAddr] {fb : Flexbuffers} {s s' : Node SocketAddr} {e : NodeEvent SocketAddr}

/-- A step that is no task's leaves alone what `f` sees of the connections, if it sees
nothing of those without traffic. -/
private theorem Moves.elim_conns {f : Conn SocketAddr → List Bytes}
    (hf : ∀ c, c.read = [] → c.written = [] → f c = []) (h : Moves fb s e s') (he : ∀ i te, e ≠ .task i te) (j : Nat) :
    (s'.conns[j]?).elim [] f = (s.conns[j]?).elim [] f := by
  cases h with
  | task i e t next conn stepped => exact absurd rfl (he i e)
  | subscribed e pc notifier conn fresh =>
    apply elim_concat
    cases fresh <;> exact hf _ rfl rfl
  | started i receiver maxPendingMessages peer addr stream resolved conn =>
    rw [elim_set conn]
    split
    · rename_i hij
      rw [← hij, conn, Option.elim_some, hf _ rfl rfl, hf _ rfl rfl]
    · rfl
  | ended i receiver peer stream resolved conn =>
    rw [endConn, elim_set conn]
    split
    · rename_i hij
      rw [← hij, conn, Option.elim_some, hf _ rfl rfl, hf _ rfl rfl]
    · rfl
  | sent | quitting | ticked | quiet => rfl

theorem step_read (h : step fb s e = some s') (i : Nat) : s'.read i = s.read i ++ e.frames i := by
  cases e with
  | task j te =>
    obtain ⟨t, next, ht, hstepped, rfl⟩ := step_task h
    rw [Node.read, elim_set ht, NodeEvent.frames]
    split
    · rename_i hji
      rw [← hji, ht.read]
      exact (Connection.Task.step_moves hstepped).read_frames
    · exact (List.append_nil _).symm
  | _ =>
    refine Eq.trans ?_ (List.append_nil _).symm
    exact (step_moves h).elim_conns (fun _ hread _ => hread) (by simp) i

/-- What is delivered is never taken back, and only a connection's own task delivers on it. -/
theorem step_written (h : step fb s e = some s') (i : Nat) :
    s.written i <+: s'.written i ∧ ((∀ te, e ≠ .task i te) → s'.written i = s.written i) := by
  cases e with
  | task j te =>
    obtain ⟨t, next, ht, hstepped, rfl⟩ := step_task h
    simp only [Node.written, elim_set ht]
    split
    · rename_i hji
      subst hji
      refine ⟨?_, fun hne => absurd rfl (hne te)⟩
      rw [ht]
      have hmoves := Connection.Task.step_moves hstepped
      exact hmoves.written_prefix
    · exact ⟨List.prefix_rfl, fun _ => rfl⟩
  | _ =>
    have hsame := (step_moves h).elim_conns (fun _ _ hwritten => hwritten) (by simp) i
    exact ⟨(Eq.symm hsame).subst List.prefix_rfl, fun _ => hsame⟩

theorem run_read {es : List (NodeEvent SocketAddr)} (h : Machine.run (step fb) s es = some s') (i : Nat) :
    s'.read i = s.read i ++ es.flatMap (·.frames i) := by
  induction es generalizing s with
  | nil =>
    obtain rfl := Option.some.inj h
    exact (List.append_nil _).symm
  | cons e es ih =>
    obtain ⟨u, he, hes⟩ := Machine.run_cons.mp h
    rw [ih hes, step_read he, List.flatMap_cons, List.append_assoc]

/-- Each heartbeat is broadcast by a send. -/
theorem run_length_sent {es : List (NodeEvent SocketAddr)} (h : Machine.run (step fb) s es = some s') :
    s'.shared.sendToAll.sent.length ≤ s.shared.sendToAll.sent.length + es.count .send := by
  induction es generalizing s with
  | nil =>
    obtain rfl := Option.some.inj h
    exact Nat.le_refl _
  | cons e es ih =>
    obtain ⟨u, he, hes⟩ := Machine.run_cons.mp h
    refine (ih hes).trans ?_
    rw [List.count_cons]
    rcases step_sent he with hsame | ⟨rfl, -, hsend⟩
    · rw [hsame]
      omega
    · rw [hsend, List.length_append, List.length_singleton, beq_self_eq_true, if_pos rfl]
      omega

omit [DecidableEq SocketAddr] in
/-- The heartbeat task makes a heartbeat. -/
theorem main_heartbeat [ToString SocketAddr] {config : Config} {platform : Platform SocketAddr} {now : SystemTime}
    (h : main fb config platform now = .ok s) :
    IsHeartbeat fb s.heartbeat.message ∧ s.shared.sendToAll.sent = [] := by
  obtain ⟨sendToAll, heartbeat, hchannel, hheartbeat, rfl⟩ := main_eq_ok.mp h
  obtain ⟨-, rfl⟩ := Broadcast.channel_eq_ok.mp hchannel
  obtain ⟨socketAddr, addrs, bytes, -, hbytes, -, rfl⟩ := startHeartbeat_eq_ok.mp hheartbeat
  exact ⟨⟨_, hbytes⟩, rfl⟩

/-- The node is composed of its tasks, and broadcasts one heartbeat only. -/
structure Beats (fb : Flexbuffers) (s : Node SocketAddr) : Prop where
  composed : Composed fb s
  message : IsHeartbeat fb s.heartbeat.message
  sent : ∀ msg ∈ s.shared.sendToAll.sent, msg = s.heartbeat.message

theorem step_beats (hs : Beats fb s) (h : step fb s e = some s') : Beats fb s' := by
  have hmessage := step_message h
  refine ⟨(step_moves h).composed hs.composed, hmessage ▸ hs.message, fun msg hmsg => ?_⟩
  rw [hmessage]
  rcases step_sent h with hsame | ⟨-, -, hsend⟩
  · exact hs.sent msg (hsame ▸ hmsg)
  · rw [hsend] at hmsg
    rcases List.mem_append.mp hmsg with hmsg | hmsg
    · exact hs.sent msg hmsg
    · exact List.mem_singleton.mp hmsg

theorem main_beats [ToString SocketAddr] {config : Config} {platform : Platform SocketAddr} {now : SystemTime}
    (h : main fb config platform now = .ok s) : Beats fb s := by
  obtain ⟨hmessage, hsent⟩ := main_heartbeat h
  exact ⟨main_composed h, hmessage, by simp [hsent]⟩

/-- Every task of such a node talks. -/
theorem Beats.talks (hs : Beats fb s) {i : Nat} {t : Connection.Task SocketAddr} (ht : s.TaskAt i t) :
    ∃ since, Endpoint.Talks fb since ⟨s.shared, t⟩ := by
  obtain ⟨sh, addr, maxPendingMessages, since, hsince, es, hes⟩ := hs.composed.started i t ht
  exact ⟨since, Endpoint.run_talks hes hsince fun msg hmsg => hs.sent msg hmsg ▸ hs.message⟩

/-- What a task has delivered: the greeting, the replies to the frames it has handled, and
heartbeats of its node. -/
theorem Beats.delivered (hs : Beats fb s) {i : Nat} {t : Connection.Task SocketAddr} (ht : s.TaskAt i t) :
    ∃ greeting ∈ ({[], [heloBytes fb]} : Set (List Bytes)), ∃ rest k, t.written = greeting ++ rest ∧
      Interleave (t.handled.filterMap (replyTo fb)) (List.replicate k s.heartbeat.message) rest ∧
      k ≤ s.shared.sendToAll.sent.length := by
  obtain ⟨since, h⟩ := hs.talks ht
  by_cases hgreeted : t.pc.Greeted
  · obtain ⟨greeting, hgreeting, rest, bcasts, hwritten, hrest, hbcasts⟩ := h.delivers.spoken hgreeted
    have hsub : bcasts.Sublist s.shared.sendToAll.sent :=
      ((List.sublist_append_left _ _).trans hbcasts).trans
        ((Broadcast.passed_sublist_sent _ _ _).trans (List.drop_sublist _ _))
    have hall : bcasts = List.replicate bcasts.length s.heartbeat.message :=
      List.eq_replicate_iff.mpr ⟨rfl, fun msg hmsg => hs.sent msg (hsub.mem hmsg)⟩
    rw [hall] at hrest
    exact ⟨greeting, hgreeting, rest, bcasts.length, hwritten, hrest, hsub.length_le⟩
  · have hidle := h.atPc.idle hgreeted
    refine ⟨[], .inl rfl, [], 0, hidle.written, ?_, Nat.zero_le _⟩
    rw [hidle.handled]
    exact .nil

/-- A connection that has read known frames only has delivered known frames only. -/
theorem Beats.written_known (hs : Beats fb s) (hd : Decodes fb) {i : Nat} (hread : ∀ msg ∈ s.read i, Known fb msg) :
    ∀ msg ∈ s.written i, Known fb msg := by
  intro msg hmsg
  cases hconn : s.conns[i]? with
  | none =>
    rw [Node.written, hconn] at hmsg
    cases hmsg
  | some c =>
    cases c with
    | started t =>
      have ht : s.TaskAt i t := hconn
      obtain ⟨since, htalks⟩ := hs.talks ht
      rw [ht.read] at hread
      rw [ht.written] at hmsg
      refine (htalks.written hd fun frame hframe => hread frame (htalks.mem_read ?_)).2.2 msg hmsg
      exact List.mem_append_left _ (List.mem_append_left _ hframe)
    | connecting | ended =>
      rw [Node.written, hconn] at hmsg
      cases hmsg

section
variable [ToString SocketAddr] {config : Config} {platform : Platform SocketAddr} {now : SystemTime}
  {s₀ : Node SocketAddr} {es : List (NodeEvent SocketAddr)}

theorem run_beats (h₀ : main fb config platform now = .ok s₀) (h : Machine.run (step fb) s₀ es = some s) :
    Beats fb s :=
  Machine.run_invariant (fun hs hstep => step_beats hs hstep) (main_beats h₀) h

/-- Whatever happens on the other connections, a peer is sent the greeting, the replies
to its own frames in the order in which they were handled, and copies of the node's one
heartbeat, no more than were broadcast. -/
theorem run_traffic (h₀ : main fb config platform now = .ok s₀) (h : Machine.run (step fb) s₀ es = some s) {i : Nat}
    {t : Connection.Task SocketAddr} (ht : s.TaskAt i t) :
    t.handled <+: es.flatMap (·.frames i) ∧
    (∃ greeting ∈ ({[], [heloBytes fb]} : Set (List Bytes)), ∃ rest k, t.written = greeting ++ rest ∧
      Interleave (t.handled.filterMap (replyTo fb)) (List.replicate k s₀.heartbeat.message) rest ∧
      k ≤ es.count .send) ∧
    t.written.length ≤ 1 + (es.flatMap (·.frames i)).length + es.count .send := by
  have hbeats := run_beats h₀ h
  obtain ⟨since, htalks⟩ := hbeats.talks ht
  obtain ⟨-, hempty⟩ := main_heartbeat h₀
  have hcount := run_length_sent h
  rw [hempty, List.length_nil, Nat.zero_add] at hcount
  have hread : t.read = es.flatMap (·.frames i) := by
    have hnone : s₀.read i = [] := by simp [Node.read, (main_ok h₀).1]
    rw [← ht.read, run_read h, hnone, List.nil_append]
  have hhandled : t.handled <+: es.flatMap (·.frames i) := by
    rw [← hread, htalks.delivers.read, List.append_assoc, List.append_assoc]
    exact List.prefix_append _ _
  obtain ⟨greeting, hgreeting, rest, k, hwritten, hrest, hk⟩ := hbeats.delivered ht
  rw [(run_sent h hempty).1] at hrest
  refine ⟨hhandled, ⟨greeting, hgreeting, rest, k, hwritten, hrest, hk.trans hcount⟩, ?_⟩
  have hgreet : greeting.length ≤ 1 := by
    rcases hgreeting with rfl | rfl
    · exact Nat.zero_le 1
    · exact Nat.le_refl 1
  have hreplies := (List.length_filterMap_le (replyTo fb) t.handled).trans hhandled.length_le
  rw [hwritten, List.length_append, hrest.perm.length_eq, List.length_append, List.length_replicate]
  omega

end

/-- A peer is accepted and greeted, and its ping is answered before a heartbeat. -/
def acceptPing : List (NodeEvent SocketAddrV4) :=
  [.listen true, .accept (some hostB), .task 0 .insert, .task 0 (.sent true),
    .task 0 (.read (some (.ok (Codec.flexbuffers.takeBuffer ⟨"Ping", [("message", .string "ping")]⟩)))),
    .task 0 (.poll queueBranch), .task 0 (.sent true), .tick, .send, .task 0 (.poll sendToAllBranch),
    .task 0 (.sent true)]

theorem traffic_acceptPing :
    ∃ s₀ s t, main Codec.flexbuffers {} platformA .unixEpoch = .ok s₀ ∧
      Machine.run (step Codec.flexbuffers) s₀ acceptPing = some s ∧ s.TaskAt 0 t ∧
      t.written = [heloBytes Codec.flexbuffers,
        Codec.flexbuffers.takeBuffer ⟨"Ping", [("message", .string "pong")]⟩, s₀.heartbeat.message] ∧
      t.handled <+: [Codec.flexbuffers.takeBuffer ⟨"Ping", [("message", .string "ping")]⟩] := by
  obtain ⟨s₀, s, h₀, h, hlive, hwritten⟩ : ∃ s₀ s, main Codec.flexbuffers {} platformA .unixEpoch = .ok s₀ ∧
      Machine.run (step Codec.flexbuffers) s₀ acceptPing = some s ∧ (0, hostB) ∈ liveConns s.conns ∧
      s.written 0 = [heloBytes Codec.flexbuffers,
        Codec.flexbuffers.takeBuffer ⟨"Ping", [("message", .string "pong")]⟩, s₀.heartbeat.message] :=
    exists_run _ (fun s₀ s => (0, hostB) ∈ liveConns s.conns ∧ s.written 0 = [heloBytes Codec.flexbuffers,
      Codec.flexbuffers.takeBuffer ⟨"Ping", [("message", .string "pong")]⟩, s₀.heartbeat.message]) (by decide)
  obtain ⟨c, hc, hclive⟩ := mem_liveConns.mp hlive
  obtain ⟨t, rfl, -, -⟩ := Conn.live_eq_some.mp hclive
  have ht : s.TaskAt 0 t := hc
  exact ⟨s₀, s, t, h₀, h, ht, ht.written ▸ hwritten, (run_traffic h₀ h ht).1⟩

end Node

end Braidpool
