import Braidpool.Node.System
import Braidpool.Runtime.Trace

/-! The connections of a node work side by side. But for its admission, a connection reads
nothing that another one writes, so the order of their steps does not matter. -/
namespace Braidpool
open Braidpool.Runtime Braidpool.Protocol Braidpool.Connection

namespace Connection
variable {SocketAddr : Type}

/-- The same broadcasts, with another table and another number of receivers. -/
def Shared.elsewhere (sh : Shared SocketAddr) (manager : ConnectionManager SocketAddr) (receivers : Nat) :
    Shared SocketAddr :=
  { sh with manager, sendToAll := { sh.sendToAll with receivers } }

/-- The table without the address, and one receiver less. -/
def Shared.leave [DecidableEq SocketAddr] (sh : Shared SocketAddr) (drops : Bool) (removes : Option SocketAddr) :
    Shared SocketAddr :=
  sh.elsewhere (removes.elim sh.manager fun addr => (sh.manager.remove addr).2)
    (if drops then sh.sendToAll.receivers - 1 else sh.sendToAll.receivers)

section
variable [DecidableEq SocketAddr]

theorem Shared.leave_comm (sh : Shared SocketAddr) (drops drops' : Bool) (removes removes' : Option SocketAddr) :
    (sh.leave drops removes).leave drops' removes' = (sh.leave drops' removes').leave drops removes := by
  have hmanager : removes'.elim (removes.elim sh.manager fun addr => (sh.manager.remove addr).2)
        (fun addr => ((removes.elim sh.manager fun addr => (sh.manager.remove addr).2).remove addr).2) =
      removes.elim (removes'.elim sh.manager fun addr => (sh.manager.remove addr).2)
        (fun addr => ((removes'.elim sh.manager fun addr => (sh.manager.remove addr).2).remove addr).2) := by
    cases removes with
    | none => rfl
    | some addr =>
      cases removes' with
      | none => rfl
      | some other => exact congrArg (ConnectionManager.mk _) (Finmap.erase_erase ..)
  unfold leave elsewhere
  simp only [hmanager]
  cases drops <;> cases drops' <;> rfl

/-- Whatever the table and the number of receivers are, what follows is the task `t'`, and
the same change of the two. -/
def Leaves (sh : Shared SocketAddr) (f : Shared SocketAddr → Shared SocketAddr × Task SocketAddr) : Prop :=
  ∃ drops removes t', ∀ manager receivers,
    f (sh.elsewhere manager receivers) = ((sh.elsewhere manager receivers).leave drops removes, t')

theorem Leaves.congr {sh : Shared SocketAddr} {f g : Shared SocketAddr → Shared SocketAddr × Task SocketAddr}
    (h : Leaves sh f)
    (hg : ∀ manager receivers, g (sh.elsewhere manager receivers) = f (sh.elsewhere manager receivers)) :
    Leaves sh g := by
  obtain ⟨drops, removes, t', hf⟩ := h
  exact ⟨drops, removes, t', fun manager receivers => (hg manager receivers).trans (hf manager receivers)⟩

end

namespace Task
variable [DecidableEq SocketAddr] {fb : Flexbuffers} (sh : Shared SocketAddr) (t : Task SocketAddr)

private theorem leaves_unchanged : Leaves sh fun sh => (sh, t) := ⟨false, none, t, fun _ _ => rfl⟩

private theorem leaves_endSelect (why : Ended) (unflushed : Option Write) :
    Leaves sh fun sh => t.endSelect sh why unflushed := ⟨true, none, _, fun _ _ => rfl⟩

private theorem leaves_unwind (p : Panic) : Leaves sh fun sh => t.unwind sh p := ⟨true, none, _, fun _ _ => rfl⟩

private theorem leaves_remove : Leaves sh t.remove := ⟨false, some t.addr, _, fun _ _ => rfl⟩

private theorem leaves_readItem (handler : HandlerState) (item : Option (Except String Bytes)) :
    Leaves sh fun sh => t.readItem sh handler item := by
  unfold readItem
  cases startReadLoop t.queue item with
  | ok queue => exact leaves_unchanged sh _
  | error e => exact leaves_endSelect sh _ _ _

private theorem leaves_received (fb : Flexbuffers) (msg : Bytes) : Leaves sh fun sh => t.received fb sh msg := by
  unfold received
  cases handleReceived fb msg with
  | error p => exact leaves_unwind sh _ p
  | ok handling =>
    cases handling with
    | sending toSend => exact leaves_unchanged sh _
    | returned result =>
      cases result with
      | error e => exact leaves_endSelect sh _ _ _
      | ok => exact leaves_unchanged sh _

private theorem leaves_poll (disabled : Finset (Fin 2)) (start : Fin 2) (receiver : Nat) :
    Leaves sh fun sh => t.poll fb sh disabled start receiver := by
  have hpoll (manager : ConnectionManager SocketAddr) (receivers : Nat) :
      Select.poll (arms (sh.elsewhere manager receivers).sendToAll) start disabled (t.queue, receiver) =
        Select.poll (arms sh.sendToAll) start disabled (t.queue, receiver) := rfl
  rcases hresult : Select.poll (arms sh.sendToAll) start disabled (t.queue, receiver) with ⟨outcome, queue, next⟩
  rw [hresult] at hpoll
  cases outcome with
  | completed arm =>
    cases arm with
    | message msg =>
      apply (leaves_received sh { t with queue, receiver := some next } fb msg).congr
      intro manager receivers
      rw [poll, hpoll]
    | sendToAll msgBytes =>
      apply (leaves_unchanged sh
        { t with pc := .running (.writing (.sendToAll msgBytes)), queue, receiver := some next }).congr
      intro manager receivers
      rw [poll, hpoll]
  | pending disabled' =>
    apply (leaves_unchanged sh { t with pc := .running (.select disabled'), queue, receiver := some next }).congr
    intro manager receivers
    rw [poll, hpoll]
  | allDisabled =>
    apply (leaves_unwind sh t ⟨"all branches are disabled and there is no else branch"⟩).congr
    intro manager receivers
    rw [poll, hpoll]

private theorem leaves_writeDone (write : Write) (ok : Bool) : Leaves sh fun sh => t.writeDone sh write ok := by
  cases ok with
  | true => exact leaves_unchanged sh _
  | false => cases write <;> exact leaves_endSelect sh t _ _

/-- What a task does after its admission does not depend on the table, nor on how many
receivers there are. -/
theorem step_elsewhere {e : TaskEvent} (he : e ≠ .insert) {next : Shared SocketAddr × Task SocketAddr}
    (h : t.step fb sh e = some next) : ∃ drops removes t', ∀ manager receivers,
      t.step fb (sh.elsewhere manager receivers) e = some ((sh.elsewhere manager receivers).leave drops removes, t') := by
  have hleaves : ∃ f, Leaves sh f ∧ ∀ manager receivers,
      t.step fb (sh.elsewhere manager receivers) e = some (f (sh.elsewhere manager receivers)) := by
    unfold step at h ⊢
    split at h
    · exact absurd rfl he
    · exact ⟨_, leaves_unchanged sh _, fun _ _ => rfl⟩
    · exact ⟨_, leaves_readItem sh t _ _, fun _ _ => rfl⟩
    · obtain ⟨receiver, hreceiver, -⟩ := Option.map_eq_some_iff.mp h
      exact ⟨_, leaves_poll sh t _ _ receiver, fun _ _ => by rw [hreceiver]; rfl⟩
    · exact ⟨_, leaves_writeDone sh t _ _, fun _ _ => rfl⟩
    · exact ⟨_, leaves_unchanged sh _, fun _ _ => rfl⟩
    · exact ⟨_, leaves_remove sh t, fun _ _ => rfl⟩
    · cases h
  obtain ⟨f, ⟨drops, removes, t', hf⟩, hstep⟩ := hleaves
  refine ⟨drops, removes, t', fun manager receivers => ?_⟩
  rw [hstep, hf]

end Task

end Connection

/-- The connection that an event belongs to. An admission belongs to none, as it reads the table. -/
def NodeEvent.owner {SocketAddr : Type} : NodeEvent SocketAddr → Option Nat
  | .connected i _ _ => some i
  | .task _ .insert => none
  | .task i _ => some i
  | _ => none

namespace Node
variable {SocketAddr : Type} [DecidableEq SocketAddr] {fb : Flexbuffers} {s s' : Node SocketAddr} {i j : Nat}

/-- Connection `i` is replaced, and may have dropped its receiver and left the table. -/
def leave (s : Node SocketAddr) (i : Nat) (drops : Bool) (removes : Option SocketAddr) (conn : Conn SocketAddr) :
    Node SocketAddr :=
  { s with shared := s.shared.leave drops removes, conns := s.conns.set i conn }

/-- The same node with other connections, up to what these have done. -/
def elsewhere (s : Node SocketAddr) (manager : ConnectionManager SocketAddr) (receivers : Nat)
    (conns : List (Conn SocketAddr)) : Node SocketAddr :=
  { s with shared := s.shared.elsewhere manager receivers, conns }

private theorem leave_comm (s : Node SocketAddr) (hne : i ≠ j) (drops drops' : Bool) (removes removes' : Option SocketAddr)
    (conn conn' : Conn SocketAddr) :
    (s.leave i drops removes conn).leave j drops' removes' conn' =
      (s.leave j drops' removes' conn').leave i drops removes conn := by
  unfold leave
  simp only [Shared.leave_comm s.shared drops drops' removes removes', List.set_comm conn conn' hne]

private theorem connected_leaves (s : Node SocketAddr) (i receiver : Nat) (stream : Except String SocketAddr)
    (resolved : Except String (List SocketAddr)) : ∃ drops conn, ∀ manager receivers conns,
      (s.elsewhere manager receivers conns).connected i receiver stream resolved =
        (s.elsewhere manager receivers conns).leave i drops none conn := by
  have hended : ∃ drops conn, ∀ manager receivers conns, (s.elsewhere manager receivers conns).endConn i =
      (s.elsewhere manager receivers conns).leave i drops none conn := ⟨true, .ended, fun _ _ _ => rfl⟩
  cases stream with
  | error e => exact hended
  | ok addr =>
    cases resolved with
    | error e => exact hended
    | ok addrs =>
      cases addrs with
      | nil => exact hended
      | cons addr addrs =>
        cases hstart : Connection.Task.startConnection addr s.maxPendingMessages receiver with
        | error p =>
          obtain ⟨drops, conn, hend⟩ := hended
          refine ⟨drops, conn, fun manager receivers conns => ?_⟩
          have hstart' : Connection.Task.startConnection addr
              (s.elsewhere manager receivers conns).maxPendingMessages receiver = .error p := hstart
          simp only [connected, hstart', hend]
        | ok task =>
          refine ⟨false, .started task, fun manager receivers conns => ?_⟩
          have hstart' : Connection.Task.startConnection addr
              (s.elsewhere manager receivers conns).maxPendingMessages receiver = .ok task := hstart
          simp only [connected, hstart']
          rfl

/-- What an event of a connection does depends on that connection, and on nothing that
another connection changes. -/
theorem step_elsewhere {e : NodeEvent SocketAddr} (he : e.owner = some i) (h : step fb s e = some s') :
    ∃ drops removes conn, ∀ manager receivers conns, conns[i]? = s.conns[i]? →
      step fb (s.elsewhere manager receivers conns) e =
        some ((s.elsewhere manager receivers conns).leave i drops removes conn) := by
  have hover := not_over h
  cases e with
  | task k e =>
    have hinsert : e ≠ .insert ∧ k = i := by
      cases e <;> simp_all [NodeEvent.owner]
    obtain ⟨hinsert, rfl⟩ := hinsert
    obtain ⟨t, next, ht, hstepped, -⟩ := step_task h
    obtain ⟨drops, removes, t', hleaves⟩ := Connection.Task.step_elsewhere s.shared t hinsert hstepped
    refine ⟨drops, removes, .started t', fun manager receivers conns hconn => ?_⟩
    rw [step_task_eq fb (s.elsewhere manager receivers conns) hover]
    have hconn' : (s.elsewhere manager receivers conns).conns[k]? = some (.started t) := hconn.trans ht
    have hstep : t.step fb (s.elsewhere manager receivers conns).shared e = _ := hleaves manager receivers
    rw [hconn']
    simp only [hstep]
    rfl
  | connected k stream resolved =>
    obtain rfl := Option.some.inj he
    obtain ⟨peer, receiver, hconn, -⟩ := step_connected h
    obtain ⟨drops, conn, hleaves⟩ := connected_leaves s k receiver stream resolved
    refine ⟨drops, none, conn, fun manager receivers conns hsame => ?_⟩
    rw [step_connected_eq fb (s.elsewhere manager receivers conns) hover]
    have hconn' : (s.elsewhere manager receivers conns).conns[k]? = some (.connecting peer receiver) := hsame.trans hconn
    rw [hconn']
    simp only [hleaves]
  | _ => cases he

private theorem step_swap {e f : NodeEvent SocketAddr} (he : e.owner = some i) (hf : f.owner = some j) (hne : i ≠ j)
    {u : Node SocketAddr} (h : (step fb s e).bind (step fb · f) = some u) :
    (step fb s f).bind (step fb · e) = some u := by
  obtain ⟨mid, hmid, hlast⟩ := Option.bind_eq_some_iff.mp h
  obtain ⟨drops, removes, conn, hleaves⟩ := step_elsewhere he hmid
  have hfirst : step fb s e = some (s.leave i drops removes conn) :=
    hleaves s.shared.manager s.shared.sendToAll.receivers s.conns rfl
  obtain rfl := Option.some.inj (hfirst.symm.trans hmid)
  obtain ⟨drops', removes', conn', hleaves'⟩ := step_elsewhere hf hlast
  have hother : step fb s f = some (s.leave j drops' removes' conn') :=
    hleaves' s.shared.manager s.shared.sendToAll.receivers s.conns (List.getElem?_set_ne hne).symm
  have hboth := hleaves' (s.leave i drops removes conn).shared.manager
    (s.leave i drops removes conn).shared.sendToAll.receivers (s.leave i drops removes conn).conns rfl
  have hthen := hleaves (s.leave j drops' removes' conn').shared.manager
    (s.leave j drops' removes' conn').shared.sendToAll.receivers (s.leave j drops' removes' conn').conns
    (List.getElem?_set_ne hne.symm)
  rw [hother, Option.bind_some]
  refine Eq.trans hthen ?_
  rw [← hlast]
  refine Eq.trans ?_ hboth.symm
  exact congrArg some (leave_comm s hne drops drops' removes removes' conn conn').symm

/-- Steps of two connections commute. -/
theorem commutes : Machine.Commutes (step fb) (NodeEvent.owner : NodeEvent SocketAddr → Option Nat) := by
  intro s e f i j he hf hne
  apply Option.ext
  intro u
  exact ⟨step_swap he hf hne, step_swap hf he hne.symm⟩

/-- Whatever order the scheduler gives to the steps of different connections, between the
admissions and the broadcasts that all of them see, the node ends in the same state. -/
theorem run_interleaved {es fs : List (NodeEvent SocketAddr)}
    (h : ∀ i, es.filter (Machine.sees NodeEvent.owner i) = fs.filter (Machine.sees NodeEvent.owner i))
    (s : Node SocketAddr) : Machine.run (step fb) s es = Machine.run (step fb) s fs :=
  Machine.run_congr commutes h s

/-- Two peers are admitted. -/
def admitBoth : List (NodeEvent SocketAddrV4) :=
  [.listen true, .accept (some hostA), .accept (some hostB), .task 0 .insert, .task 1 .insert]

/-- Both are greeted and go, in turns. -/
def inTurns : List (NodeEvent SocketAddrV4) :=
  [.task 0 (.sent true), .task 1 (.sent true), .task 0 (.read none), .task 1 (.read none), .task 0 (.closed true),
    .task 1 (.closed true), .task 0 .remove, .task 1 .remove]

/-- Both are greeted and go, the second one first. -/
def oneByOne : List (NodeEvent SocketAddrV4) := closeByPeer 1 ++ closeByPeer 0

theorem interleaved_twoPeers : ∃ s₀ s, main Codec.flexbuffers {} platformA .unixEpoch = .ok s₀ ∧
    Machine.run (step Codec.flexbuffers) s₀ (admitBoth ++ inTurns) = some s ∧
    Machine.run (step Codec.flexbuffers) s₀ (admitBoth ++ oneByOne) = some s := by
  obtain ⟨s₀, s, h₀, h, -⟩ : ∃ s₀ s, main Codec.flexbuffers {} platformA .unixEpoch = .ok s₀ ∧
      Machine.run (step Codec.flexbuffers) s₀ (admitBoth ++ inTurns) = some s ∧ s.shared.manager.numConnections = 0 :=
    exists_run _ (fun _ s => s.shared.manager.numConnections = 0) (by decide)
  refine ⟨s₀, s, h₀, h, (run_interleaved (fun i => ?_) s₀).symm.trans h⟩
  match i with
  | 0 => rfl
  | 1 => rfl
  | _ + 2 => rfl

end Node

end Braidpool
