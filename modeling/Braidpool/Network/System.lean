import Braidpool.Node.Memory

/-! Many nodes and the streams between them. A connection that no stream of the network
ends in has a peer outside, which may send anything. -/
namespace Braidpool
open Braidpool.Runtime Braidpool.Protocol Braidpool.Connection

/-- Which connections are the two ends of one stream; a connection is a node and the
index that it has there. -/
structure Streams (ι : Type) where
  peer : ι × Nat → Option (ι × Nat)
  symm : ∀ {p q}, peer p = some q → peer q = some p

/-- The nodes, and the frames that are on their way to each connection. -/
structure Network (ι SocketAddr : Type) where
  nodes : ι → Node SocketAddr
  wire : ι × Nat → List Bytes

namespace Network
variable {ι SocketAddr : Type}

def start (nodes : ι → Node SocketAddr) : Network ι SocketAddr := ⟨nodes, fun _ => []⟩

/-- The end of a stream reads what is first on its wire. The stream may end or fail at any time. -/
def Receives (streams : Streams ι) (s : Network ι SocketAddr) : ι × NodeEvent SocketAddr → Prop
  | (a, .task i e) => (streams.peer (a, i)).isSome → e.frames <+: s.wire (a, i)
  | _ => True

instance (streams : Streams ι) (s : Network ι SocketAddr) : DecidablePred (Receives streams s)
  | (_, .task _ _) => inferInstanceAs (Decidable (_ → _))
  | (_, .connect) | (_, .listen _) | (_, .accept _) | (_, .connected ..) | (_, .tick) | (_, .send) | (_, .notified)
  | (_, .clock _) => .isTrue trivial

variable [DecidableEq ι]

/-- What a connection reads in an event of the network. -/
def frames (e : ι × NodeEvent SocketAddr) (p : ι × Nat) : List Bytes :=
  if p.1 = e.1 then e.2.frames p.2 else []

/-- The event is over for its node, which is now `next`: what it has read is gone from its
wires, and what it has written is last on the wires of the other ends. -/
def deliver (streams : Streams ι) (s : Network ι SocketAddr) (e : ι × NodeEvent SocketAddr) (next : Node SocketAddr) :
    Network ι SocketAddr :=
  let nodes := Function.update s.nodes e.1 next
  { nodes
    wire := fun p => (s.wire p).drop (frames e p).length ++
      (streams.peer p).elim [] fun q => ((nodes q.1).written q.2).drop ((s.nodes q.1).written q.2).length }

variable [DecidableEq SocketAddr]

def step (fb : Flexbuffers) (streams : Streams ι) (s : Network ι SocketAddr) (e : ι × NodeEvent SocketAddr) :
    Option (Network ι SocketAddr) :=
  if Receives streams s e then ((s.nodes e.1).step fb e.2).map (s.deliver streams e) else none

/-- Every node beats, what one end of a stream has written the other has read or will, and
all of it is known. -/
structure Connected (fb : Flexbuffers) (streams : Streams ι) (s : Network ι SocketAddr) : Prop where
  beats : ∀ a, (s.nodes a).Beats fb
  wires : ∀ p q, streams.peer p = some q →
    (s.nodes q.1).written q.2 = (s.nodes p.1).read p.2 ++ s.wire p
  known : ∀ p q, streams.peer p = some q → ∀ msg ∈ (s.nodes p.1).written p.2, Known fb msg

variable {fb : Flexbuffers} {streams : Streams ι} {s s' : Network ι SocketAddr} {e : ι × NodeEvent SocketAddr}

omit [DecidableEq SocketAddr] in
theorem Receives.frames (h : Receives streams s e) {p q : ι × Nat} (hpeer : streams.peer p = some q) :
    Network.frames e p <+: s.wire p := by
  obtain ⟨a, e⟩ := e
  obtain ⟨b, i⟩ := p
  unfold Network.frames
  split
  · rename_i hb
    obtain rfl : b = a := hb
    cases e with
    | task j te =>
      simp only [NodeEvent.frames]
      split
      · rename_i hji
        subst hji
        exact h (by rw [hpeer]; rfl)
      · exact List.nil_prefix
    | _ => exact List.nil_prefix
  · exact List.nil_prefix

/-- A step moves one node as the node moves, over the wires. -/
theorem step_deliver (h : step fb streams s e = some s') :
    Receives streams s e ∧ (s.nodes e.1).step fb e.2 = some (s'.nodes e.1) ∧
      (∀ a, a ≠ e.1 → s'.nodes a = s.nodes a) ∧
      ∀ p, s'.wire p = (s.wire p).drop (frames e p).length ++
        (streams.peer p).elim [] fun q => ((s'.nodes q.1).written q.2).drop ((s.nodes q.1).written q.2).length := by
  unfold step at h
  split at h
  · rename_i hreceives
    obtain ⟨next, hnext, rfl⟩ := Option.map_eq_some_iff.mp h
    have hself : (s.deliver streams e next).nodes e.1 = next := by
      simp only [deliver, Function.update_self]
    refine ⟨hreceives, ?_, fun a ha => Function.update_of_ne ha _ _, fun p => rfl⟩
    rw [hself]
    exact hnext
  · cases h

theorem step_read (h : step fb streams s e = some s') (p : ι × Nat) :
    (s'.nodes p.1).read p.2 = (s.nodes p.1).read p.2 ++ frames e p := by
  obtain ⟨-, hnode, hothers, -⟩ := step_deliver h
  unfold frames
  split
  · rename_i hp
    rw [hp]
    exact Node.step_read hnode p.2
  · rename_i hp
    rw [hothers p.1 hp, List.append_nil]

theorem step_written (h : step fb streams s e = some s') (p : ι × Nat) :
    (s.nodes p.1).written p.2 <+: (s'.nodes p.1).written p.2 := by
  obtain ⟨-, hnode, hothers, -⟩ := step_deliver h
  by_cases hp : p.1 = e.1
  · rw [hp]
    exact (Node.step_written hnode p.2).1
  · rw [hothers p.1 hp]

/-- What a node's own steps keep, the steps of the network keep. -/
theorem step_nodes {P : ι → Node SocketAddr → Prop} (hstep : ∀ {a u e v}, P a u → Node.step fb u e = some v → P a v)
    (hs : ∀ a, P a (s.nodes a)) (h : step fb streams s e = some s') (a : ι) : P a (s'.nodes a) := by
  obtain ⟨-, hnode, hothers, -⟩ := step_deliver h
  by_cases ha : a = e.1
  · rw [ha]
    exact hstep (hs e.1) hnode
  · rw [hothers a ha]
    exact hs a

theorem step_connected (hd : Decodes fb) (hs : Connected fb streams s) (h : step fb streams s e = some s') :
    Connected fb streams s' := by
  obtain ⟨hreceives, -, -, hwire⟩ := step_deliver h
  have hbeats : ∀ a, (s'.nodes a).Beats fb :=
    step_nodes (P := fun _ node => node.Beats fb) (fun hu huv => Node.step_beats hu huv) hs.beats h
  refine ⟨hbeats, fun p q hpeer => ?_, fun p q hpeer => ?_⟩
  · obtain ⟨rest, hrest⟩ := hreceives.frames hpeer
    obtain ⟨more, hmore⟩ := step_written h q
    rw [step_read h, hwire, hpeer, Option.elim_some, ← hmore, List.drop_left, hs.wires p q hpeer, ← hrest,
      List.drop_left]
    simp only [List.append_assoc]
  · refine (hbeats p.1).written_known hd fun msg hmsg => ?_
    obtain ⟨rest, hrest⟩ := hreceives.frames hpeer
    -- what is read now was on the wire, so it had been written by the other end
    refine hs.known q p (streams.symm hpeer) msg ?_
    rw [step_read h] at hmsg
    rw [hs.wires p q hpeer, ← hrest, ← List.append_assoc]
    exact List.mem_append_left _ hmsg

omit [DecidableEq ι] in
theorem start_connected {nodes : ι → Node SocketAddr} (hbeats : ∀ a, (nodes a).Beats fb)
    (hconns : ∀ a, (nodes a).conns = []) : Connected fb streams (start nodes) where
  beats := hbeats
  wires p q _ := by simp [start, Node.written, Node.read, hconns]
  known p q _ msg hmsg := by simp [start, Node.written, hconns] at hmsg

section
variable {p q : ι × Nat} {t : Connection.Task SocketAddr}

omit [DecidableEq ι] in
/-- What has been written at one end is handled, being handled, queued, refused or under
way at the other. -/
theorem Connected.accounts (hs : Connected fb streams s) (hpeer : streams.peer p = some q)
    (ht : (s.nodes p.1).TaskAt p.2 t) :
    (s.nodes q.1).written q.2 =
      t.handled ++ t.handling.toList ++ t.queue.buffer ++ t.refused.toList ++ s.wire p := by
  obtain ⟨since, htalks⟩ := (hs.beats p.1).talks ht
  rw [hs.wires p q hpeer, ht.read, htalks.delivers.read]

omit [DecidableEq ι] in
theorem Connected.known_incoming (hs : Connected fb streams s) (hpeer : streams.peer p = some q)
    (ht : (s.nodes p.1).TaskAt p.2 t) {msg : Bytes}
    (hmsg : msg ∈ t.handled ++ t.handling.toList ++ t.queue.buffer ++ t.refused.toList ++ s.wire p) : Known fb msg :=
  hs.known q p (streams.symm hpeer) msg (hs.accounts hpeer ht ▸ hmsg)

omit [DecidableEq ι] in
theorem Connected.known_handled (hs : Connected fb streams s) (hpeer : streams.peer p = some q)
    (ht : (s.nodes p.1).TaskAt p.2 t) : ∀ msg ∈ t.handled, Known fb msg :=
  fun msg hmsg => hs.known_incoming hpeer ht (by simp [hmsg])

omit [DecidableEq ι] in
/-- What an end has said: at most one helo, an oleh for each helo it has handled, and
heartbeats of its own node. -/
theorem Connected.says (hs : Connected fb streams s) (hd : Decodes fb) (hpeer : streams.peer p = some q)
    (ht : (s.nodes p.1).TaskAt p.2 t) :
    ∃ greeting ∈ ({[], [heloBytes fb]} : Set (List Bytes)), ∃ rest beats, t.written = greeting ++ rest ∧
      Interleave (List.replicate (t.handled.count (heloBytes fb)) (olehBytes fb))
        (List.replicate beats (s.nodes p.1).heartbeat.message) rest ∧
      beats ≤ (s.nodes p.1).shared.sendToAll.sent.length := by
  obtain ⟨greeting, hgreeting, rest, beats, hwritten, hrest, hbeats⟩ := (hs.beats p.1).delivered ht
  rw [hd.replies_eq (hs.known_handled hpeer ht)] at hrest
  exact ⟨greeting, hgreeting, rest, beats, hwritten, hrest, hbeats⟩

omit [DecidableEq ι] in
theorem Connected.counts (hs : Connected fb streams s) (hd : Decodes fb) (hpeer : streams.peer p = some q)
    (ht : (s.nodes p.1).TaskAt p.2 t) :
    t.written.count (heloBytes fb) ≤ 1 ∧
      t.written.count (olehBytes fb) = t.handled.count (heloBytes fb) := by
  obtain ⟨since, htalks⟩ := (hs.beats p.1).talks ht
  obtain ⟨hhelo, holeh, -⟩ := htalks.written hd (hs.known_handled hpeer ht)
  exact ⟨hhelo, holeh⟩

end

section
variable [ToString SocketAddr] {config : ι → Config} {platform : ι → Node.Platform SocketAddr} {now : ι → SystemTime}
  {nodes : ι → Node SocketAddr} {es : List (ι × NodeEvent SocketAddr)} {p q : ι × Nat}
  {t u : Connection.Task SocketAddr}

theorem run_connected (hd : Decodes fb) (h₀ : ∀ a, Node.main fb (config a) (platform a) (now a) = .ok (nodes a))
    (h : Machine.run (step fb streams) (start nodes) es = some s) : Connected fb streams s :=
  Machine.run_invariant (fun hs hstep => step_connected hd hs hstep)
    (start_connected (fun a => Node.main_beats (h₀ a)) fun a => (Node.main_ok (h₀ a)).1) h

/-- What a spawned task has and no move of a task loses, all tasks of the network have. -/
theorem run_tasks {P : Connection.Task SocketAddr → Prop}
    (hspawn : ∀ n addr next, 0 < n → P (.spawn addr (.empty n) next))
    (hmoves : ∀ {sh sh' t te t'}, Connection.Task.Moves fb sh t te (sh', t') → P t → P t')
    (h₀ : ∀ a, Node.main fb (config a) (platform a) (now a) = .ok (nodes a))
    (h : Machine.run (step fb streams) (start nodes) es = some s) (ht : (s.nodes p.1).TaskAt p.2 t) : P t := by
  have hall : ∀ a i t, (s.nodes a).TaskAt i t → P t := by
    refine Machine.run_invariant (P := fun s : Network ι SocketAddr => ∀ a i t, (s.nodes a).TaskAt i t → P t) ?_ ?_ h
    · intro s e s' hs hstep
      exact step_nodes (P := fun _ node => ∀ i t, node.TaskAt i t → P t)
        (fun hu huv => Node.step_tasks (fun hpending addr next => hspawn _ addr next hpending) hmoves hu huv) hs hstep
    · intro a i t hnone
      simp [start, Node.TaskAt, (Node.main_ok (h₀ a)).1] at hnone
  exact hall p.1 p.2 t ht

/-- Whatever the rest of the network does, and whatever comes from outside, the two ends
of a stream hear each other in order and without loss, and all that an end ever says is
its helo, an oleh for the helo of the other, and heartbeats of its own node. -/
theorem run_dialogue (hd : Decodes fb) (h₀ : ∀ a, Node.main fb (config a) (platform a) (now a) = .ok (nodes a))
    (h : Machine.run (step fb streams) (start nodes) es = some s) (hpeer : streams.peer p = some q)
    (ht : (s.nodes p.1).TaskAt p.2 t) (hu : (s.nodes q.1).TaskAt q.2 u) :
    u.written = t.handled ++ t.handling.toList ++ t.queue.buffer ++ t.refused.toList ++ s.wire p ∧
    t.handled.count (heloBytes fb) ≤ 1 ∧
    ∃ greeting ∈ ({[], [heloBytes fb]} : Set (List Bytes)), ∃ rest beats, t.written = greeting ++ rest ∧
      Interleave (List.replicate (t.handled.count (heloBytes fb)) (olehBytes fb))
        (List.replicate beats (s.nodes p.1).heartbeat.message) rest ∧
      beats ≤ (s.nodes p.1).shared.sendToAll.sent.length := by
  have hs := run_connected hd h₀ h
  have haccounts := hs.accounts hpeer ht
  rw [hu.written] at haccounts
  refine ⟨haccounts, ?_, hs.says hd hpeer ht⟩
  calc
    t.handled.count (heloBytes fb) ≤ u.written.count (heloBytes fb) := by
      rw [haccounts]
      simp only [List.count_append]
      omega
    _ ≤ 1 := (hs.counts hd (streams.symm hpeer) hu).1

/-- No end of a stream ever refuses a frame, so a stream closes only for a full queue or
with its transport. Once both ends are open, have greeted, and nothing but heartbeats is
under way, each has handled one helo and one oleh. -/
theorem run_streams (hd : Decodes fb) (h₀ : ∀ a, Node.main fb (config a) (platform a) (now a) = .ok (nodes a))
    (h : Machine.run (step fb streams) (start nodes) es = some s) (hpeer : streams.peer p = some q)
    (ht : (s.nodes p.1).TaskAt p.2 t) (hu : (s.nodes q.1).TaskAt q.2 u) :
    (∀ msg ∈ t.handling, Accepted fb msg) ∧
    (∀ why ∈ t.ended, why ∈ Link.transportEnded ∨
      why = .readLoop "Sender flooding channel" ∧ t.queue.buffer.length = t.queue.capacity) ∧
    (t.ended = none → heloBytes fb ∈ t.written → heloBytes fb ∈ u.written →
      (∀ msg ∈ s.wire p ++ t.queue.buffer ++ t.handling.toList, msg ≠ heloBytes fb ∧ msg ≠ olehBytes fb) →
      (∀ msg ∈ s.wire q ++ u.queue.buffer ++ u.handling.toList ++ u.refused.toList, msg ≠ heloBytes fb) →
      t.handled.count (heloBytes fb) = 1 ∧ t.handled.count (olehBytes fb) = 1) := by
  have hs := run_connected hd h₀ h
  have hpeer' := streams.symm hpeer
  obtain ⟨since, htalks⟩ := (hs.beats p.1).talks ht
  have haccepted : ∀ msg ∈ t.handling, Accepted fb msg := fun msg hmsg =>
    hd.accepted (hs.known_incoming hpeer ht (by simp [Option.mem_def.mp hmsg]))
  refine ⟨haccepted, fun why hwhy => ?_, fun hopen hgreeted hgreeted' hquiet hquiet' => ?_⟩
  · cases htalks.cause why hwhy with
    | overflow full => exact .inr ⟨rfl, full⟩
    | readFailed | endOfStream | replyFailed | sendFailed => exact .inl (by decide)
    | refused cause msg handling refused => exact absurd (haccepted msg handling) refused
  · have hincoming (frame : Bytes) (hframe : frame = heloBytes fb ∨ frame = olehBytes fb) :
        u.written.count frame = t.handled.count frame := by
      have hzero : (s.wire p ++ t.queue.buffer ++ t.handling.toList).count frame = 0 :=
        List.count_eq_zero.mpr fun hmem => hframe.elim (hquiet frame hmem).1 (hquiet frame hmem).2
      rw [← hu.written, hs.accounts hpeer ht, htalks.atPc.refused hopen]
      simp only [List.count_append, Option.toList_none, List.count_nil] at hzero ⊢
      omega
    have houtgoing : t.written.count (heloBytes fb) = u.handled.count (heloBytes fb) := by
      have hzero : (s.wire q ++ u.queue.buffer ++ u.handling.toList ++ u.refused.toList).count (heloBytes fb) = 0 :=
        List.count_eq_zero.mpr fun hmem => hquiet' _ hmem rfl
      rw [← ht.written, hs.accounts hpeer' hu]
      simp only [List.count_append] at hzero ⊢
      omega
    have hone {v : Connection.Task SocketAddr} (hcount : v.written.count (heloBytes fb) ≤ 1)
        (hmem : heloBytes fb ∈ v.written) : v.written.count (heloBytes fb) = 1 :=
      Nat.le_antisymm hcount (List.count_pos_iff.mpr hmem)
    refine ⟨?_, ?_⟩
    · rw [← hincoming _ (.inl rfl), hone (hs.counts hd hpeer' hu).1 hgreeted']
    · rw [← hincoming _ (.inr rfl), (hs.counts hd hpeer' hu).2, ← houtgoing, hone (hs.counts hd hpeer ht).1 hgreeted]

end

section
open Braidpool.Node (hostA hostB platformA)

/-- The first connections of two nodes are the ends of one stream. -/
def oneStream : Streams Bool where
  peer p := if p.2 = 0 then some (!p.1, 0) else none
  symm {p q} h := by
    obtain ⟨a, i⟩ := p
    split at h
    · rename_i hi
      obtain rfl := Option.some.inj h
      obtain rfl : i = 0 := hi
      simp
    · cases h

/-- The first node has the second as its seed. -/
def seedAndPeer (a : Bool) : Config := if a then {} else { peer := { seeds := ["10.0.0.2:6680"] } }

theorem exists_run_pair (config : Bool → Config) (es : List (Bool × NodeEvent SocketAddrV4)) (P : Network Bool SocketAddrV4 → Prop)
    [DecidablePred P]
    (h : ((Node.main Codec.flexbuffers (config false) platformA .unixEpoch).toOption.any fun m =>
      (Node.main Codec.flexbuffers (config true) platformA .unixEpoch).toOption.any fun n =>
        (Machine.run (step Codec.flexbuffers oneStream) (start fun a => cond a n m) es).any fun s => decide (P s)) = true) :
    ∃ nodes : Bool → Node SocketAddrV4,
      (∀ a, Node.main Codec.flexbuffers (config a) platformA .unixEpoch = .ok (nodes a)) ∧
      ∃ s, Machine.run (step Codec.flexbuffers oneStream) (start nodes) es = some s ∧ P s := by
  obtain ⟨m, hm, h⟩ := (Option.any_eq_true _ _).mp h
  obtain ⟨n, hn, h⟩ := (Option.any_eq_true _ _).mp h
  refine ⟨fun a => cond a n m, fun a => ?_, Machine.exists_run P h⟩
  cases a with
  | false => exact toOption_eq_some.mp hm
  | true => exact toOption_eq_some.mp hn

/-- The second node accepts the first and a stranger, who sends a frame that does not
decode; the two nodes greet and answer each other. -/
def withStranger : List (Bool × NodeEvent SocketAddrV4) :=
  let helo := heloBytes Codec.flexbuffers
  let oleh := olehBytes Codec.flexbuffers
  let handle (a : Bool) (msg : Bytes) : List (Bool × NodeEvent SocketAddrV4) :=
    [(a, .task 0 (.read (some (.ok msg)))), (a, .task 0 (.poll queueBranch))]
  [(false, .connect), (true, .listen true), (true, .accept (some hostA)), (true, .accept (some hostB)),
    (false, .connected 0 (.ok hostB) (.ok [hostB])), (false, .task 0 .insert), (true, .task 1 .insert),
    (true, .task 0 .insert), (true, .task 1 (.sent true)), (true, .task 1 (.read (some (.ok [255])))),
    (false, .task 0 (.sent true)), (true, .task 0 (.sent true)), (true, .task 1 (.poll queueBranch))] ++
    handle true helo ++ handle false helo ++ [(false, .task 0 (.sent true)), (true, .task 0 (.sent true))] ++
    handle false oleh ++ handle true oleh

/-- The node's end of the stream is open, and has said its helo and its oleh. -/
private def answered (s : Network Bool SocketAddrV4) (a : Bool) : Bool :=
  match (s.nodes a).conns[0]? with
  | some (Node.Conn.started t) => t.ended = none &&
      s.wire (a, 0) ++ t.queue.buffer ++ t.handling.toList ++ t.refused.toList = [] &&
      t.written = [heloBytes Codec.flexbuffers, olehBytes Codec.flexbuffers]
  | _ => false

private theorem task_of_answered {s : Network Bool SocketAddrV4} {a : Bool} (h : answered s a = true) :
    ∃ t, (s.nodes a).TaskAt 0 t ∧ t.ended = none ∧
      s.wire (a, 0) ++ t.queue.buffer ++ t.handling.toList ++ t.refused.toList = [] ∧
      t.written = [heloBytes Codec.flexbuffers, olehBytes Codec.flexbuffers] := by
  unfold answered at h
  split at h
  · rename_i t ht
    simp only [Bool.and_eq_true, decide_eq_true_eq] at h
    exact ⟨t, ht, h.1.1, h.1.2, h.2⟩
  · cases h

private theorem run_withStranger : ∃ nodes : Bool → Node SocketAddrV4,
    (∀ a, Node.main Codec.flexbuffers (seedAndPeer a) platformA .unixEpoch = .ok (nodes a)) ∧
    ∃ s, Machine.run (step Codec.flexbuffers oneStream) (start nodes) withStranger = some s ∧
      answered s false = true ∧ answered s true = true :=
  exists_run_pair seedAndPeer withStranger (fun s => answered s false = true ∧ answered s true = true) (by decide)

theorem dialogue_withStranger : ∃ (nodes : Bool → Node SocketAddrV4) (s : Network Bool SocketAddrV4) (u : _),
    Machine.run (step Codec.flexbuffers oneStream) (start nodes) withStranger = some s ∧
      (s.nodes true).TaskAt 0 u ∧ u.written = [heloBytes Codec.flexbuffers, olehBytes Codec.flexbuffers] ∧
      ∃ t, (s.nodes false).TaskAt 0 t ∧ t.handled = [heloBytes Codec.flexbuffers, olehBytes Codec.flexbuffers] := by
  obtain ⟨nodes, h₀, s, h, hfirst, hsecond⟩ := run_withStranger
  obtain ⟨t, ht, -, hquiet, -⟩ := task_of_answered hfirst
  obtain ⟨u, hu, -, -, hwritten⟩ := task_of_answered hsecond
  have hd := decodes_of_roundTrip Codec.flexbuffers_roundTrip
  have haccounts := (run_dialogue (p := (false, 0)) hd h₀ h rfl ht hu).1
  refine ⟨nodes, s, u, h, hu, hwritten, t, ht, ?_⟩
  simp only [List.append_eq_nil_iff] at hquiet
  rw [hquiet.1.1.2, hquiet.1.2, hquiet.1.1.1, hquiet.2, hwritten] at haccounts
  simpa using haccounts.symm

theorem streams_withStranger : ∃ (nodes : Bool → Node SocketAddrV4) (s : Network Bool SocketAddrV4) (t : _),
    Machine.run (step Codec.flexbuffers oneStream) (start nodes) withStranger = some s ∧
      (s.nodes false).TaskAt 0 t ∧ t.handled.count (heloBytes Codec.flexbuffers) = 1 ∧
      t.handled.count (olehBytes Codec.flexbuffers) = 1 := by
  obtain ⟨nodes, h₀, s, h, hfirst, hsecond⟩ := run_withStranger
  obtain ⟨t, ht, hopen, hquiet, hgreeted⟩ := task_of_answered hfirst
  obtain ⟨u, hu, -, hquiet', hgreeted'⟩ := task_of_answered hsecond
  have hd := decodes_of_roundTrip Codec.flexbuffers_roundTrip
  refine ⟨nodes, s, t, h, ht, (run_streams (p := (false, 0)) hd h₀ h rfl ht hu).2.2 hopen (by simp [hgreeted])
    (by simp [hgreeted']) ?_ ?_⟩
  · intro msg hmsg
    rw [(List.append_eq_nil_iff.mp hquiet).1] at hmsg
    cases hmsg
  · intro msg hmsg
    have hnone : msg ∈ ([] : List Bytes) := hquiet' ▸ hmsg
    cases hnone

end

end Network

end Braidpool
