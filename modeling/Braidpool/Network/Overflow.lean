import Braidpool.Network.System

/-! When one node closes a stream to another for flooding. Nodes say little to each other
beside heartbeats, so the queue that is full is full of these. -/
namespace Braidpool
open Braidpool.Runtime Braidpool.Protocol Braidpool.Connection

namespace Connection.Task
variable {SocketAddr : Type}

/-- A queue that is full has refused a frame. -/
def Overflowed (t : Connection.Task SocketAddr) : Prop :=
  t.ended = some (.readLoop "Sender flooding channel") → t.refused.isSome

theorem Cause.full {fb : Flexbuffers} {t : Connection.Task SocketAddr} {why : Ended} (h : Cause fb t why)
    (hwhy : why = .readLoop "Sender flooding channel") : t.queue.buffer.length = t.queue.capacity := by
  cases h with
  | overflow full => exact full
  | readFailed | endOfStream => exact absurd hwhy (by decide)
  | replyFailed | sendFailed | refused => cases hwhy

variable [DecidableEq SocketAddr] {fb : Flexbuffers} {sh sh' : Shared SocketAddr} {t t' : Connection.Task SocketAddr}
  {e : TaskEvent}

theorem Moves.overflowed (h : Moves fb sh t e (sh', t')) (ht : t.Overflowed) : t'.Overflowed := by
  intro hended
  cases h with
  | readEnded handler item error pc hread =>
    obtain rfl : error = "Sender flooding channel" := Ended.readLoop.inj (Option.some.inj hended)
    match item with
    | some (.ok message) => rfl
    | some (.error _) => exact absurd (Except.error.inj hread) (by decide)
    | none => exact absurd (Except.error.inj hread) (by decide)
  | rejected => cases hended
  | sendFailed write why pc reason =>
    obtain rfl | rfl := reason <;> cases hended
  | delivered write | flushed write => cases write <;> exact ht hended
  | _ => exact ht hended

end Connection.Task

namespace Connection

/-- A task that ended for a full queue holds what fills the queue, and the frame refused. -/
theorem Endpoint.Accounted.lt_length_held {SocketAddr : Type} {fb : Flexbuffers} {maxPendingMessages : Nat}
    {t : Connection.Task SocketAddr} (h : Endpoint.Accounted fb maxPendingMessages t) (hrefused : t.refused.isSome)
    (hfull : t.queue.buffer.length = t.queue.capacity) : maxPendingMessages < t.held.length := by
  obtain ⟨msg, hmsg⟩ := Option.isSome_iff_exists.mp hrefused
  rw [h.capacity] at hfull
  simp only [Task.held, hmsg, List.length_append, Option.toList_some, List.length_singleton]
  omega

end Connection

namespace Node
variable {SocketAddr : Type} {s : Node SocketAddr} {i : Nat}

theorem exists_taskAt_of_written {msg : Bytes} (h : msg ∈ s.written i) : ∃ t, s.TaskAt i t := by
  unfold Node.written at h
  cases hconn : s.conns[i]? with
  | none =>
    rw [hconn] at h
    cases h
  | some c =>
    rw [hconn] at h
    cases c with
    | started t => exact ⟨t, hconn⟩
    | connecting | ended => cases h

end Node

namespace Network
variable {ι SocketAddr : Type} [DecidableEq ι] [DecidableEq SocketAddr] {fb : Flexbuffers} {streams : Streams ι}
  {s : Network ι SocketAddr} {p q : ι × Nat} {t u : Connection.Task SocketAddr}

/-- In a list of three values, each element is counted once. -/
private theorem length_le_counts {α : Type} [BEq α] [LawfulBEq α] {a b c : α} {l : List α}
    (h : ∀ x ∈ l, x = a ∨ x = b ∨ x = c) : l.length ≤ l.count a + l.count b + l.count c := by
  induction l with
  | nil => exact Nat.zero_le _
  | cons x l ih =>
    have hrest := ih fun y hy => h y (List.mem_cons_of_mem _ hy)
    simp only [List.count_cons, List.length_cons]
    rcases h x List.mem_cons_self with rfl | rfl | rfl <;> simp only [beq_self_eq_true, if_true] <;> omega

omit [DecidableEq ι] in
/-- Of all that an end has said, only its helo and its olehs are no heartbeats of its node. -/
theorem Connected.mem_written (hs : Connected fb streams s) (hd : Decodes fb) (hpeer : streams.peer p = some q)
    (ht : (s.nodes p.1).TaskAt p.2 t) {msg : Bytes} (hmsg : msg ∈ t.written) :
    msg = heloBytes fb ∨ msg = olehBytes fb ∨ msg = (s.nodes p.1).heartbeat.message := by
  obtain ⟨greeting, hgreeting, rest, beats, hwritten, hrest, -⟩ := hs.says hd hpeer ht
  rw [hwritten] at hmsg
  rcases List.mem_append.mp hmsg with hmem | hmem
  · rcases hgreeting with rfl | rfl
    · cases hmem
    · exact .inl (List.mem_singleton.mp hmem)
  · rcases List.mem_append.mp (hrest.perm.mem_iff.mp hmem) with hreply | hbeat
    · exact .inr (.inl (List.eq_of_mem_replicate hreply))
    · exact .inr (.inr (List.eq_of_mem_replicate hbeat))

omit [DecidableEq ι] in
/-- What an end holds has been said at the other. -/
theorem Connected.written_of_held (hs : Connected fb streams s) (hpeer : streams.peer p = some q)
    (ht : (s.nodes p.1).TaskAt p.2 t) {msg : Bytes} (hmsg : msg ∈ t.held) : msg ∈ (s.nodes q.1).written q.2 := by
  rw [hs.accounts hpeer ht]
  simp only [Connection.Task.held, List.mem_append] at hmsg ⊢
  exact .inl (by tauto)

omit [DecidableEq ι] in
theorem Connected.greetings (hs : Connected fb streams s) (hd : Decodes fb) (hpeer : streams.peer p = some q)
    (ht : (s.nodes p.1).TaskAt p.2 t) (hu : (s.nodes q.1).TaskAt q.2 u) :
    t.handled.count (heloBytes fb) + t.held.count (heloBytes fb) ≤ 1 ∧
      t.handled.count (olehBytes fb) + t.held.count (olehBytes fb) ≤ 1 := by
  have hpeer' := streams.symm hpeer
  have hincoming (frame : Bytes) : t.handled.count frame + t.held.count frame ≤ u.written.count frame := by
    rw [← hu.written, hs.accounts hpeer ht]
    simp only [Connection.Task.held, List.count_append]
    omega
  have houtgoing : u.handled.count (heloBytes fb) ≤ t.written.count (heloBytes fb) := by
    rw [← ht.written, hs.accounts hpeer' hu]
    simp only [List.count_append]
    omega
  obtain ⟨hhelo, holeh⟩ := hs.counts hd hpeer' hu
  have honce := (hs.counts hd hpeer ht).1
  have hincomingHelo := hincoming (heloBytes fb)
  have hincomingOleh := hincoming (olehBytes fb)
  exact ⟨by omega, by omega⟩

section
variable [ToString SocketAddr] {config : ι → Config} {platform : ι → Node.Platform SocketAddr} {now : ι → SystemTime}
  {nodes : ι → Node SocketAddr} {es : List (ι × NodeEvent SocketAddr)}

theorem run_bounded (h₀ : ∀ a, Node.main fb (config a) (platform a) (now a) = .ok (nodes a))
    (h : Machine.run (step fb streams) (start nodes) es = some s) (a : ι) :
    Node.Bounded fb (config a).peer.maxPendingMessages (s.nodes a) := by
  refine Machine.run_invariant (P := fun s : Network ι SocketAddr =>
    ∀ a, Node.Bounded fb (config a).peer.maxPendingMessages (s.nodes a)) ?_ (fun a => Node.main_bounded (h₀ a)) h a
  intro s e s' hs hstep
  exact step_nodes (P := fun a node => Node.Bounded fb (config a).peer.maxPendingMessages node)
    (fun hu huv => Node.step_bounded hu huv) hs hstep

/-- A node closes a stream to another for flooding only when it is behind with the
heartbeats of the other. They are all that fills its queue, but for a helo and an oleh
that it has not handled. -/
theorem run_overflows (hd : Decodes fb) (h₀ : ∀ a, Node.main fb (config a) (platform a) (now a) = .ok (nodes a))
    (h : Machine.run (step fb streams) (start nodes) es = some s) (hpeer : streams.peer p = some q)
    (ht : (s.nodes p.1).TaskAt p.2 t) (hended : t.ended = some (.readLoop "Sender flooding channel")) :
    (config p.1).peer.maxPendingMessages + t.handled.count (heloBytes fb) + t.handled.count (olehBytes fb) ≤
      t.held.count (s.nodes q.1).heartbeat.message + 1 := by
  have hs := run_connected hd h₀ h
  have hacc := (run_bounded h₀ h p.1).accounted p.2 t ht
  have hoverflowed : t.Overflowed :=
    run_tasks (fun _ _ _ _ hended => by cases hended) (fun hmoves => hmoves.overflowed) h₀ h ht
  obtain ⟨since, htalks⟩ := (hs.beats p.1).talks ht
  have hheld := hacc.lt_length_held (hoverflowed hended) ((htalks.cause _ hended).full rfl)
  obtain ⟨msg, hmsg⟩ := List.exists_mem_of_length_pos (Nat.zero_lt_of_lt hheld)
  obtain ⟨u, hu⟩ := Node.exists_taskAt_of_written (hs.written_of_held hpeer ht hmsg)
  have hcounts := length_le_counts fun msg hmsg =>
    hs.mem_written hd (streams.symm hpeer) hu (hu.written ▸ hs.written_of_held hpeer ht hmsg)
  obtain ⟨hhelo, holeh⟩ := hs.greetings hd hpeer ht hu
  omega

end

section
open Braidpool.Node (hostA hostB platformA)

/-- The first node has the second as its seed, whose queues are of two frames. -/
def slowPeer (a : Bool) : Config :=
  if a then { peer := { maxPendingMessages := 2 } } else { peer := { seeds := ["10.0.0.2:6680"] } }

def beatBytes : Bytes :=
  Codec.flexbuffers.takeBuffer ⟨"Heartbeat", [("from", .string "10.0.0.1:6680"), ("time", .systemTime 0 0)]⟩

/-- The first node greets and beats twice, while the second handles nothing. -/
def beatsTwice : List (Bool × NodeEvent SocketAddrV4) :=
  let beat : List (Bool × NodeEvent SocketAddrV4) :=
    [(false, .tick), (false, .send), (false, .task 0 (.poll sendToAllBranch)), (false, .task 0 (.sent true))]
  [(false, .connect), (true, .listen true), (true, .accept (some hostA)), (false, .connected 0 (.ok hostB) (.ok [hostB])),
    (false, .task 0 .insert), (true, .task 0 .insert), (false, .task 0 (.sent true)), (true, .task 0 (.sent true))] ++
    beat ++ beat ++
    [(true, .task 0 (.read (some (.ok (heloBytes Codec.flexbuffers))))), (true, .task 0 (.read (some (.ok beatBytes)))),
      (true, .task 0 (.read (some (.ok beatBytes))))]

/-- The second node has closed the stream for flooding. -/
private def closesFlooded (s : Network Bool SocketAddrV4) : Bool :=
  match (s.nodes true).conns[0]? with
  | some (Node.Conn.started t) => decide (t.ended = some (.readLoop "Sender flooding channel"))
  | _ => false

theorem overflows_beatsTwice : ∃ (nodes : Bool → Node SocketAddrV4) (s : Network Bool SocketAddrV4) (t : _),
    Machine.run (step Codec.flexbuffers oneStream) (start nodes) beatsTwice = some s ∧
      (s.nodes true).TaskAt 0 t ∧ 1 ≤ t.held.count (s.nodes false).heartbeat.message := by
  obtain ⟨nodes, h₀, s, h, hclosed⟩ := exists_run_pair slowPeer beatsTwice (fun s => closesFlooded s = true) (by decide)
  unfold closesFlooded at hclosed
  split at hclosed
  · rename_i t ht
    have hd := decodes_of_roundTrip Codec.flexbuffers_roundTrip
    have hbehind : 2 + t.handled.count (heloBytes Codec.flexbuffers) + t.handled.count (olehBytes Codec.flexbuffers) ≤
        t.held.count (s.nodes false).heartbeat.message + 1 :=
      run_overflows (p := (true, 0)) hd h₀ h rfl ht (of_decide_eq_true hclosed)
    exact ⟨nodes, s, t, h, ht, by omega⟩
  · cases hclosed

end

end Network

end Braidpool
