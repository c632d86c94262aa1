import Braidpool.Connection.Drain
import Braidpool.Network.Overflow

/-! Every stream of a network is a link: its two tasks run as the two ends of a link do,
with the rest of their nodes around them. -/
namespace Braidpool
open Braidpool.Runtime Braidpool.Protocol Braidpool.Connection

namespace Connection
variable {SocketAddr : Type}

/-- What the task of an end is spawned with, and what it shares when its receiver is
subscribed. A node that connects subscribes before it knows the address. -/
structure Origin (SocketAddr : Type) where
  shared : Shared SocketAddr
  addr : SocketAddr
  maxPendingMessages : Nat

def Origin.task (o : Origin SocketAddr) : Connection.Task SocketAddr :=
  .spawn o.addr (.empty o.maxPendingMessages) o.shared.sendToAll.sent.length

namespace Link

/-- An end takes an event that reads the frames, or it stays and there are none. -/
inductive Advances [DecidableEq SocketAddr] (fb : Flexbuffers) (frames : List Bytes) (s : Endpoint SocketAddr) :
    Endpoint SocketAddr → Prop where
  | stays (quiet : frames = []) : Advances fb frames s s
  | moves (e : LinkEvent SocketAddr) (event : EndpointEvent SocketAddr) (s' : Endpoint SocketAddr)
      (known : Link.event fb e = some event) (read : event.frames = frames) (stepped : s.step fb event = some s') :
      Advances fb frames s s'

/-- End `i` is now `next`: it has read the frames, and what it has written is on the other wire. -/
def advance (s : Link SocketAddr) (i : Bool) (frames : List Bytes) (next : Endpoint SocketAddr) : Link SocketAddr where
  ends := Function.update s.ends i next
  wire j :=
    if j = i then (s.wire j).drop frames.length else s.wire j ++ next.task.written.drop (s.ends i).task.written.length

theorem advance_quiet (s : Link SocketAddr) (i : Bool) : s.advance i [] (s.ends i) = s := by
  simp [advance, Function.update_eq_self]

variable [DecidableEq SocketAddr] {fb : Flexbuffers} {s s' : Link SocketAddr}

theorem Advances.reaches {frames : List Bytes} {i : Bool} {next : Endpoint SocketAddr}
    (h : Advances fb frames (s.ends i) next) (hframes : frames <+: s.wire i) :
    Machine.Reaches (Link.step fb) s (s.advance i frames next) := by
  cases h with
  | stays quiet =>
    rw [quiet, advance_quiet]
    exact .refl s
  | moves e event s' known read stepped =>
    subst read
    refine .single (e := (i, e)) ?_
    simp only [Link.step, known, if_pos hframes, stepped, Option.map_some]
    rfl

omit [DecidableEq SocketAddr] in
/-- What the ends read was on their wires before either advanced. -/
theorem advance_advance {frames : Bool → List Bytes} (hframes : ∀ i, frames i <+: s.wire i)
    (hwire : ∀ i, s'.wire i = (s.wire i).drop (frames i).length ++
      (s'.ends !i).task.written.drop (s.ends !i).task.written.length) :
    (s.advance false (frames false) (s'.ends false)).advance true (frames true) (s'.ends true) = s' := by
  obtain ⟨ends', wire'⟩ := s'
  simp only [advance, Link.mk.injEq]
  refine ⟨funext fun i => ?_, funext fun i => ?_⟩
  · cases i <;> rfl
  · refine Eq.trans ?_ (hwire i).symm
    cases i with
    | false => rfl
    | true => exact List.drop_append_of_le_length (hframes true).length_le

/-- Both ends advance, each over what the other has written before. -/
theorem reaches_of_advances {frames : Bool → List Bytes} (h : ∀ i, Advances fb (frames i) (s.ends i) (s'.ends i))
    (hframes : ∀ i, frames i <+: s.wire i)
    (hwire : ∀ i, s'.wire i = (s.wire i).drop (frames i).length ++
      (s'.ends !i).task.written.drop (s.ends !i).task.written.length) : Machine.Reaches (Link.step fb) s s' := by
  have hsecond : Advances fb (frames true) ((s.advance false (frames false) (s'.ends false)).ends true) (s'.ends true) :=
    h true
  have hwaiting : frames true <+: (s.advance false (frames false) (s'.ends false)).wire true :=
    (hframes true).trans (List.prefix_append _ _)
  rw [← advance_advance hframes hwire]
  exact ((h false).reaches (hframes false)).trans (hsecond.reaches hwaiting)

end Link

end Connection

namespace Node
variable {SocketAddr : Type}

/-- Connection `i` as an end of a link: before its receiver is subscribed it is as it will be then. -/
def view (s : Node SocketAddr) (i : Nat) (o : Origin SocketAddr) : Endpoint SocketAddr :=
  match s.conns[i]? with
  | none => ⟨o.shared, o.task⟩
  | some (.started t) => ⟨s.shared, t⟩
  | some (.connecting ..) | some .ended => ⟨s.shared, o.task⟩

/-- The origin of connection `i`, in which what is still open is as `later` has it. -/
structure Meets (s : Node SocketAddr) (i : Nat) (later o : Origin SocketAddr) : Prop where
  unborn : s.conns[i]? = none → o = later
  connecting : ∀ peer next, s.conns[i]? = some (.connecting peer next) →
    o = { later with shared := o.shared } ∧ next = o.shared.sendToAll.sent.length

theorem view_written (s : Node SocketAddr) (i : Nat) (o : Origin SocketAddr) :
    (s.view i o).task.written = s.written i := by
  unfold view Node.written
  cases s.conns[i]? with
  | none => rfl
  | some c => cases c <;> rfl

theorem TaskAt.view {s : Node SocketAddr} {i : Nat} {t : Connection.Task SocketAddr} (ht : s.TaskAt i t)
    (o : Origin SocketAddr) : s.view i o = ⟨s.shared, t⟩ := by
  rw [Node.view, ht]

variable [DecidableEq SocketAddr] {fb : Flexbuffers} {s s' : Node SocketAddr} {sh sh' : Shared SocketAddr}
  {e : NodeEvent SocketAddr} {i : Nat}

/-- Whatever a task is at, an event of its link makes of what it shares what the step makes of it. -/
def Around (fb : Flexbuffers) (sh sh' : Shared SocketAddr) : Prop :=
  ∀ t : Connection.Task SocketAddr, Link.Advances fb [] ⟨sh, t⟩ ⟨sh', t⟩

theorem around_others (manager : ConnectionManager SocketAddr) {senders : Nat} (receivers : Nat) (notifier : Notify)
    (now : SystemTime) (h : 0 < sh.sendToAll.senders) :
    Around fb sh ⟨manager, { sh.sendToAll with senders, receivers }, notifier, now⟩ := by
  refine fun t => .moves (.others manager senders receivers notifier now) _ _ rfl rfl ?_
  rw [Endpoint.step, if_neg fun h0 => h.ne' h0.1]

theorem around_sent {msgBytes : Bytes} (hmsg : IsHeartbeat fb msgBytes) (h : 0 < sh.sendToAll.senders)
    (hreceivers : sh.sendToAll.receivers ≠ 0) :
    Around fb sh { sh with sendToAll := { sh.sendToAll with sent := sh.sendToAll.sent ++ [msgBytes] } } := by
  obtain ⟨m, hm⟩ := hmsg
  refine fun t => .moves (.heartbeat m) (.sendToAll msgBytes) _ (by simp only [Link.event, hm]) rfl ?_
  rw [Endpoint.step, if_neg h.ne', Broadcast.send, if_neg hreceivers]

/-- What the next state needs to know of the origin is known now, or decided by the step. -/
def Foreseen (fb : Flexbuffers) (s : Node SocketAddr) (i : Nat) (frames : List Bytes) (s' : Node SocketAddr) : Prop :=
  ∀ later, ∃ later', ∀ o, s.Meets i later' o →
    s'.Meets i later o ∧ Link.Advances fb frames (s.view i o) (s'.view i o)

theorem foreseen_around (hconn : s'.conns[i]? = s.conns[i]?) (h : Around fb s.shared s'.shared) :
    Foreseen fb s i [] s' := by
  refine fun later => ⟨later, fun o ho => ⟨⟨hconn ▸ ho.unborn, hconn ▸ ho.connecting⟩, ?_⟩⟩
  unfold view
  rw [hconn]
  cases s.conns[i]? with
  | none => exact .stays rfl
  | some c => cases c <;> exact h _

theorem foreseen_subscribed {conn : Conn SocketAddr} (hnone : s.conns[i]? = none) (hconn : s'.conns[i]? = some conn)
    (hfresh : Fresh s'.shared.sendToAll.sent.length conn) : Foreseen fb s i [] s' := by
  intro later
  cases hfresh with
  | connecting peer =>
    refine ⟨{ later with shared := s'.shared }, fun o ho => ?_⟩
    obtain rfl := ho.unborn hnone
    refine ⟨⟨fun h => (by cases hconn.symm.trans h), fun peer' next h => ?_⟩, ?_⟩
    · cases hconn.symm.trans h
      exact ⟨rfl, rfl⟩
    · rw [view, view, hnone, hconn]
      exact .stays rfl
  | started addr maxPendingMessages =>
    refine ⟨⟨s'.shared, addr, maxPendingMessages⟩, fun o ho => ?_⟩
    obtain rfl := ho.unborn hnone
    refine ⟨⟨fun h => (by cases hconn.symm.trans h), fun peer' next h => (by cases hconn.symm.trans h)⟩, ?_⟩
    rw [view, view, hnone, hconn]
    exact .stays rfl

theorem foreseen_opened {peer : String} {receiver maxPendingMessages : Nat} {addr : SocketAddr}
    (hconn : s.conns[i]? = some (.connecting peer receiver))
    (hconn' : s'.TaskAt i (.spawn addr (.empty maxPendingMessages) receiver)) (hshared : s'.shared = s.shared) :
    Foreseen fb s i [] s' := by
  refine fun later => ⟨⟨later.shared, addr, maxPendingMessages⟩, fun o ho => ?_⟩
  obtain ⟨ho, rfl⟩ := ho.connecting peer receiver hconn
  refine ⟨⟨fun h => (by cases hconn'.symm.trans h), fun peer' next h => (by cases hconn'.symm.trans h)⟩, ?_⟩
  have htask : o.task = .spawn addr (.empty maxPendingMessages) o.shared.sendToAll.sent.length := by rw [ho]; rfl
  rw [hconn'.view, view, hconn, hshared, htask]
  exact .stays rfl

theorem foreseen_failed {peer : String} {receiver : Nat} (hconn : s.conns[i]? = some (.connecting peer receiver))
    (hconn' : s'.conns[i]? = some .ended) (h : Around fb s.shared s'.shared) : Foreseen fb s i [] s' := by
  refine fun later => ⟨later, fun o _ => ?_⟩
  refine ⟨⟨fun h => (by cases hconn'.symm.trans h), fun peer' next h => (by cases hconn'.symm.trans h)⟩, ?_⟩
  rw [view, view, hconn, hconn']
  exact h o.task

theorem foreseen_task {t t' : Connection.Task SocketAddr} {te : TaskEvent} (ht : s.TaskAt i t) (ht' : s'.TaskAt i t')
    (hstep : t.step fb s.shared te = some (s'.shared, t')) : Foreseen fb s i te.frames s' := by
  refine fun later => ⟨later, fun o _ => ?_⟩
  refine ⟨⟨fun h => (by cases ht'.symm.trans h), fun peer next h => (by cases ht'.symm.trans h)⟩, ?_⟩
  rw [ht.view, ht'.view]
  refine .moves (.task te) (.task te) _ rfl rfl ?_
  rw [Endpoint.step, hstep]
  rfl

/-- A step that is no task's. -/
private theorem Moves.foreseen (h : Moves fb s e s') (he : ∀ j te, e ≠ .task j te)
    (hmessage : IsHeartbeat fb s.heartbeat.message) (hsenders : 0 < s.shared.sendToAll.senders) (i : Nat) :
    Foreseen fb s i [] s' := by
  cases h with
  | task j te t next conn stepped => exact absurd rfl (he j te)
  | subscribed e pc notifier conn fresh =>
    rcases Nat.lt_trichotomy i s.conns.length with hi | rfl | hi
    · exact foreseen_around (List.getElem?_append_left hi) (around_others _ _ _ _ hsenders)
    · exact foreseen_subscribed (List.getElem?_eq_none (Nat.le_refl _)) List.getElem?_concat_length fresh
    · have hbeyond : (s.conns ++ [conn]).length ≤ i := by
        rw [List.length_append]
        exact hi
      refine foreseen_around ?_ (around_others _ _ _ _ hsenders)
      rw [List.getElem?_eq_none hbeyond, List.getElem?_eq_none (Nat.le_of_lt hi)]
  | started j receiver maxPendingMessages peer addr stream resolved conn =>
    have hlt := (List.getElem?_eq_some_iff.mp conn).1
    by_cases hij : j = i
    · subst hij
      exact foreseen_opened conn (List.getElem?_set_self hlt) rfl
    · exact foreseen_around (List.getElem?_set_ne hij) fun t => .stays rfl
  | ended j receiver peer stream resolved conn =>
    have hlt := (List.getElem?_eq_some_iff.mp conn).1
    by_cases hij : j = i
    · subst hij
      exact foreseen_failed conn (List.getElem?_set_self hlt) (around_others _ _ _ _ hsenders)
    · exact foreseen_around (List.getElem?_set_ne hij) (around_others _ _ _ _ hsenders)
  | sent pc receivers => exact foreseen_around rfl (around_sent hmessage hsenders receivers)
  | quitting p pc receivers => exact foreseen_around rfl (around_others _ _ _ _ hsenders)
  | ticked pc connections => exact foreseen_around rfl fun t => .stays rfl
  | quiet e pc notifier now => exact foreseen_around rfl (around_others _ _ _ _ hsenders)

theorem step_foreseen (h : step fb s e = some s') (hs : Beats fb s) (i : Nat) : Foreseen fb s i (e.frames i) s' := by
  have hsenders : 0 < s.shared.sendToAll.senders := by
    have := hs.composed.senders
    omega
  cases e with
  | task j te =>
    obtain ⟨t, next, ht, hstepped, rfl⟩ := step_task h
    have hlt := (List.getElem?_eq_some_iff.mp ht).1
    simp only [NodeEvent.frames]
    by_cases hij : j = i
    · subst hij
      rw [if_pos rfl]
      exact foreseen_task ht (List.getElem?_set_self hlt) hstepped
    · rw [if_neg hij]
      refine foreseen_around (List.getElem?_set_ne hij) ?_
      obtain ⟨manager, receivers, hshared⟩ := (Connection.Task.step_moves hstepped).shared
      show Around fb s.shared next.1
      rw [hshared]
      exact around_others manager receivers _ _ hsenders
  | _ => exact (step_moves h).foreseen (fun _ _ heq => by cases heq) hs.message hsenders i

end Node

namespace Network
variable {ι SocketAddr : Type} [DecidableEq ι] [DecidableEq SocketAddr] {fb : Flexbuffers} {streams : Streams ι}
  {ends : Bool → ι × Nat} {s s' : Network ι SocketAddr} {e : ι × NodeEvent SocketAddr}

/-- The stream between two ends, as a link. -/
def link (s : Network ι SocketAddr) (ends : Bool → ι × Nat) (o : Bool → Origin SocketAddr) : Link SocketAddr where
  ends i := (s.nodes (ends i).1).view (ends i).2 (o i)
  wire i := s.wire (ends i)

theorem step_foreseen (h : step fb streams s e = some s') (hs : ∀ a, (s.nodes a).Beats fb) (p : ι × Nat) :
    (s.nodes p.1).Foreseen fb p.2 (frames e p) (s'.nodes p.1) := by
  obtain ⟨-, hnode, hothers, -⟩ := step_deliver h
  unfold frames
  by_cases hp : p.1 = e.1
  · rw [if_pos hp, hp]
    exact Node.step_foreseen hnode (hs e.1) p.2
  · rw [if_neg hp, hothers p.1 hp]
    exact Node.foreseen_around rfl fun t => .stays rfl

/-- Whatever the open part of the two origins will be, the stream has run as a link from them. -/
def Linked (fb : Flexbuffers) (ends : Bool → ι × Nat) (s : Network ι SocketAddr) : Prop :=
  ∀ later : Bool → Origin SocketAddr, ∃ o : Bool → Origin SocketAddr,
    (∀ i, (s.nodes (ends i).1).Meets (ends i).2 (later i) (o i)) ∧
    Machine.Reaches (Link.step fb)
      (.start (fun i => (o i).shared) (fun i => (o i).addr) fun i => (o i).maxPendingMessages) (s.link ends o)

theorem step_linked (hpeer : ∀ i, streams.peer (ends i) = some (ends !i)) (hs : ∀ a, (s.nodes a).Beats fb)
    (hlinked : s.Linked fb ends) (h : step fb streams s e = some s') : s'.Linked fb ends := by
  intro later
  choose later' hlater' using fun i => step_foreseen h hs (ends i) (later i)
  obtain ⟨o, ho, hreach⟩ := hlinked later'
  refine ⟨o, fun i => (hlater' i (o i) (ho i)).1, hreach.trans ?_⟩
  obtain ⟨hreceives, -, -, hwire⟩ := step_deliver h
  refine Link.reaches_of_advances (fun i => (hlater' i (o i) (ho i)).2) (fun i => hreceives.frames (hpeer i)) fun i => ?_
  simp only [link, Node.view_written]
  rw [hwire, hpeer, Option.elim_some]

omit [DecidableEq ι] in
theorem start_linked {nodes : ι → Node SocketAddr} (hconns : ∀ a, (nodes a).conns = []) :
    (start nodes).Linked fb ends := by
  refine fun later => ⟨later, fun i => ⟨fun _ => rfl, fun peer next h => ?_⟩, ?_⟩
  · simp [start, hconns] at h
  · have hview (i : Bool) (o : Origin SocketAddr) :
        ((start nodes).nodes (ends i).1).view (ends i).2 o = ⟨o.shared, o.task⟩ := by
      simp [start, Node.view, hconns]
    simp only [link, hview]
    exact .refl _

section
variable [ToString SocketAddr] {config : ι → Config} {platform : ι → Node.Platform SocketAddr} {now : ι → SystemTime}
  {nodes : ι → Node SocketAddr} {es : List (ι × NodeEvent SocketAddr)} {t : Bool → Connection.Task SocketAddr}

/-- Whatever the rest of the network does, the two tasks of a stream and what is on its wires
are where a run of a link leads, of which the rest of the network is no part. -/
theorem run_links (h₀ : ∀ a, Node.main fb (config a) (platform a) (now a) = .ok (nodes a))
    (h : Machine.run (step fb streams) (start nodes) es = some s) (hpeer : ∀ i, streams.peer (ends i) = some (ends !i))
    (ht : ∀ i, (s.nodes (ends i).1).TaskAt (ends i).2 (t i)) :
    ∃ sh addr fs, Machine.run (Link.step fb)
        (.start sh addr fun i => (config (ends i).1).peer.maxPendingMessages) fs =
      some ⟨fun i => ⟨(s.nodes (ends i).1).shared, t i⟩, fun i => s.wire (ends i)⟩ := by
  have hs : (∀ a, (s.nodes a).Beats fb) ∧ s.Linked fb ends := by
    refine Machine.run_invariant (P := fun s : Network ι SocketAddr => (∀ a, (s.nodes a).Beats fb) ∧ s.Linked fb ends)
      ?_ ⟨fun a => Node.main_beats (h₀ a), start_linked fun a => (Node.main_ok (h₀ a)).1⟩ h
    intro u e v hu hstep
    exact ⟨step_nodes (P := fun _ node => node.Beats fb) Node.step_beats hu.1 hstep, step_linked hpeer hu.1 hu.2 hstep⟩
  obtain ⟨o, -, fs, hrun⟩ := hs.2 fun i => ⟨(s.nodes (ends i).1).shared, (t i).addr, 0⟩
  simp only [link, (ht _).view] at hrun
  have hcapacity (i : Bool) : (o i).maxPendingMessages = (config (ends i).1).peer.maxPendingMessages := by
    calc
      (o i).maxPendingMessages = (t i).queue.capacity := (Link.run_queueCapacity hrun i).symm
      _ = (config (ends i).1).peer.maxPendingMessages := ((run_bounded h₀ h (ends i).1).accounted _ _ (ht i)).capacity
  simp only [hcapacity] at hrun
  exact ⟨fun i => (o i).shared, fun i => (o i).addr, fs, hrun⟩

end

/-- The first connection of each node. -/
private def firstOf (a : Bool) : Bool × Nat := (a, 0)

/-- The node has said its helo and its oleh. -/
private def hasAnswered (s : Network Bool SocketAddrV4) (a : Bool) : Bool :=
  match (s.nodes a).conns[0]? with
  | some (Node.Conn.started t) => decide (t.written = [heloBytes Codec.flexbuffers, olehBytes Codec.flexbuffers])
  | _ => false

private theorem task_of_hasAnswered {s : Network Bool SocketAddrV4} {a : Bool} (h : hasAnswered s a = true) :
    ∃ t, (s.nodes a).TaskAt 0 t ∧ t.written = [heloBytes Codec.flexbuffers, olehBytes Codec.flexbuffers] := by
  unfold hasAnswered at h
  split at h
  · rename_i t ht
    exact ⟨t, ht, of_decide_eq_true h⟩
  · cases h

theorem links_withStranger : ∃ (nodes : Bool → Node SocketAddrV4) (s : Network Bool SocketAddrV4)
    (sh : Bool → Shared SocketAddrV4) (addr : Bool → SocketAddrV4) (fs : List (Bool × LinkEvent SocketAddrV4))
    (l : Link SocketAddrV4),
    Machine.run (step Codec.flexbuffers oneStream) (start nodes) withStranger = some s ∧
      Machine.run (Link.step Codec.flexbuffers) (.start sh addr fun i => (seedAndPeer i).peer.maxPendingMessages) fs =
        some l ∧ ∀ i, (l.ends i).task.written = [heloBytes Codec.flexbuffers, olehBytes Codec.flexbuffers] := by
  obtain ⟨nodes, h₀, s, h, hanswered⟩ :=
    exists_run_pair seedAndPeer withStranger (fun s => ∀ a, hasAnswered s a = true) (by decide)
  choose t ht hwritten using fun a => task_of_hasAnswered (hanswered a)
  have hpeer (i : Bool) : oneStream.peer (firstOf i) = some (firstOf !i) := rfl
  obtain ⟨sh, addr, fs, hrun⟩ := run_links h₀ h hpeer ht
  exact ⟨nodes, s, sh, addr, fs, _, h, hrun, hwritten⟩

end Network

end Braidpool
