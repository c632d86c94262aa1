import Braidpool.Connection.Drain
import Braidpool.Connection.Relay

/-! Two ends that keep up with the broadcasts of their nodes can always settle: whatever is
under way arrives, and each hears all that the other's node has broadcast. -/
namespace Braidpool.Connection
open Braidpool.Runtime Braidpool.Protocol

namespace Endpoint
variable {SocketAddr : Type}

def unpassed (s : Endpoint SocketAddr) : Nat := s.shared.sendToAll.sent.length - s.task.receiver.getD 0

variable {fb : Flexbuffers} {since : Nat} {s s' : Endpoint SocketAddr}

theorem Keeping.receiver_of_speaks (hs : Keeping fb since s) (hspeaks : s.task.Speaks fb) :
    ∃ next, s.task.receiver = some next := by
  rcases hspeaks with hpc | ⟨⟨handler, hpc⟩, -⟩
  · exact Option.isSome_iff_exists.mp (hs.atPc.greeting hpc).1.receiver
  · exact Option.isSome_iff_exists.mp (hs.atPc.running hpc).1.receiver

variable [DecidableEq SocketAddr]

theorem Moves.sendToAll_of_task {e : TaskEvent} (h : Moves fb s (.task e) s') :
    s'.shared.sendToAll.sent = s.shared.sendToAll.sent ∧ s'.shared.sendToAll.senders = s.shared.sendToAll.senders := by
  cases h with
  | task e next moves => cases moves <;> exact ⟨rfl, rfl⟩

theorem Moves.receiver_le {e : TaskEvent} (h : Moves fb s (.task e) s') (hs : Keeping fb since s) {next next' : Nat}
    (hnext : s.task.receiver = some next) (hnext' : s'.task.receiver = some next') : next ≤ next' := by
  have hpos : ∀ n ∈ s.task.receiver, next ≤ n ∧ n ≤ s.shared.sendToAll.sent.length := by
    intro n hn
    obtain rfl := Option.some.inj (hnext.symm.trans hn)
    exact ⟨Nat.le_refl _, (hs.position next hnext).2⟩
  cases h with
  | task e out moves => exact (moves.position hpos next' hnext').1

theorem Moves.unpassed_le {e : TaskEvent} (h : Moves fb s (.task e) s') (hs : Keeping fb since s)
    (hspeaks : s.task.Speaks fb) (hs' : Keeping fb since s') (hspeaks' : s'.task.Speaks fb) :
    s'.unpassed ≤ s.unpassed := by
  obtain ⟨next, hnext⟩ := hs.receiver_of_speaks hspeaks
  obtain ⟨next', hnext'⟩ := hs'.receiver_of_speaks hspeaks'
  have hle := h.receiver_le hs hnext hnext'
  simp only [unpassed, h.sendToAll_of_task.1, hnext, hnext', Option.getD_some]
  omega

end Endpoint

namespace Link
variable {SocketAddr : Type}

/-- A node broadcasts only while the receiver of its end has a slot for the message. -/
def KeepsUp (s : Link SocketAddr) : Bool × LinkEvent SocketAddr → Prop
  | (i, .heartbeat _) => ∀ next ∈ (s.ends i).task.receiver,
      (s.ends i).shared.sendToAll.sent.length < next + (s.ends i).shared.sendToAll.capacity
  | _ => True

instance (s : Link SocketAddr) : DecidablePred (KeepsUp s)
  | (_, .heartbeat _) => inferInstanceAs (Decidable (∀ next ∈ _, _ < _))
  | (_, .task _) | (_, .others ..) => .isTrue trivial

/-- Both ends speak, have lost nothing of what their nodes have broadcast, and the nodes
may broadcast more. -/
structure Settling (fb : Flexbuffers) (since : Bool → Nat) (sent : Bool → List Bytes) (s : Link SocketAddr) : Prop where
  speaking : Speaking fb since s
  keeping : ∀ i, (s.ends i).Keeping fb (since i)
  sent : ∀ i, (s.ends i).shared.sendToAll.sent = sent i
  senders : ∀ i, (s.ends i).shared.sendToAll.senders ≠ 0

/-- Both ends are at rest, and have passed every broadcast. -/
def Settled (s : Link SocketAddr) : Prop := s.AtRest ∧ ∀ i, (s.ends i).CaughtUp

/-- A broadcast takes a poll and a write at one end, and a read and a poll at the other. -/
def toSettle (fb : Flexbuffers) (s : Link SocketAddr) : Nat :=
  s.work fb + 4 * ((s.ends false).unpassed + (s.ends true).unpassed)

theorem toSettle_eq (fb : Flexbuffers) (s : Link SocketAddr) (i : Bool) :
    s.toSettle fb = s.load fb i + s.load fb (!i) + 4 * ((s.ends i).unpassed + (s.ends !i).unpassed) := by
  rw [toSettle, work_eq fb s i]
  cases i with
  | false => rfl
  | true => rw [Nat.add_comm (s.ends false).unpassed]; rfl

variable [DecidableEq SocketAddr] {fb : Flexbuffers} {since : Bool → Nat} {sent : Bool → List Bytes}
  {s s' : Link SocketAddr}

theorem step_endpoint {i : Bool} {e : LinkEvent SocketAddr} (h : step fb s (i, e) = some s') :
    ∃ event, Link.event fb e = some event ∧ (s.ends i).Moves fb event (s'.ends i) ∧ s'.ends (!i) = s.ends (!i) := by
  have hne : (!i) ≠ i := by cases i <;> decide
  unfold step at h
  split at h
  · cases h
  · rename_i event hevent
    split at h
    · obtain ⟨next, hnext, rfl⟩ := Option.map_eq_some_iff.mp h
      exact ⟨event, hevent, by simpa using Endpoint.step_moves hnext, Function.update_of_ne hne _ _⟩
    · cases h

theorem step_keeping {e : Bool × LinkEvent SocketAddr} (hkeeps : KeepsUp s e) (h : step fb s e = some s')
    (hs : ∀ i, (s.ends i).Keeping fb (since i)) (i : Bool) : (s'.ends i).Keeping fb (since i) := by
  obtain ⟨j, e⟩ := e
  obtain ⟨event, hevent, hmoves, hother⟩ := step_endpoint h
  rcases eq_or_eq_not i j with rfl | rfl
  · refine hmoves.keeping ?_ (hs i)
    cases e with
    | task e =>
      obtain rfl := Option.some.inj hevent
      trivial
    | heartbeat m =>
      simp only [Link.event] at hevent
      split at hevent
      · obtain rfl := Option.some.inj hevent
        exact hkeeps
      · cases hevent
    | others =>
      obtain rfl := Option.some.inj hevent
      trivial
  · rw [hother]
    exact hs _

/-- A step of a task, after which it still speaks. -/
theorem Settling.step (hd : Decodes fb) (hs : Settling fb since sent s) {i : Bool} {e : TaskEvent}
    (h : Link.step fb s (i, .task e) = some s') (hspeaks : (s'.ends i).task.Speaks fb) :
    Settling fb since sent s' ∧ (s'.ends i).unpassed ≤ (s.ends i).unpassed ∧ s'.ends (!i) = s.ends (!i) := by
  obtain ⟨event, hevent, hmoves, hother⟩ := step_endpoint h
  obtain rfl := Option.some.inj hevent
  have hkeeping := step_keeping (e := (i, .task e)) trivial h hs.keeping
  obtain ⟨hsent, hsenders⟩ := hmoves.sendToAll_of_task
  refine ⟨⟨hs.speaking.step hd h hspeaks, hkeeping, fun j => ?_, fun j => ?_⟩, ?_, hother⟩
  · rcases eq_or_eq_not j i with rfl | rfl
    · exact hsent.trans (hs.sent j)
    · rw [hother]
      exact hs.sent _
  · rcases eq_or_eq_not j i with rfl | rfl
    · exact hsenders ▸ hs.senders j
    · rw [hother]
      exact hs.senders _
  · exact hmoves.unpassed_le (hs.keeping i) (hs.speaking.speaks i) (hkeeping i) hspeaks

/-- An end at rest that has not caught up can begin to write its next broadcast. -/
private theorem Settling.exists_broadcast (hd : Decodes fb) (hs : Settling fb since sent s) (hrest : s.AtRest) {i : Bool}
    (hbehind : ¬ (s.ends i).CaughtUp) :
    ∃ e s', Link.step fb s (i, .task e) = some s' ∧ (s'.ends i).task.Speaks fb ∧ s'.toSettle fb < s.toSettle fb := by
  obtain ⟨-, hbuffer, disabled, hpc⟩ := hrest i
  have hkeeping := hs.keeping i
  obtain ⟨next, hnext⟩ := hkeeping.receiver_of_speaks (hs.speaking.speaks i)
  obtain ⟨hsince, hle⟩ := hkeeping.position next hnext
  have hlt : next < (s.ends i).shared.sendToAll.sent.length := by
    refine Nat.lt_of_le_of_ne hle fun hall => hbehind ⟨⟨_, hpc⟩, ?_⟩
    rw [hnext, hall]
  obtain ⟨start, hstep⟩ := hkeeping.exists_broadcast hpc hnext hlt (hs.senders i)
  obtain ⟨s', hstep', hends, hother, hincoming, houtgoing⟩ := exists_step_task (e := .poll start) List.nil_prefix hstep
  refine ⟨_, s', hstep', ?_, ?_⟩
  · rw [hends]
    exact .inr ⟨⟨_, rfl⟩, hs.speaking.greeted hrest i⟩
  · have hmem : (s.ends i).shared.sendToAll.sent[next] ∈ (s.ends i).shared.sendToAll.sent.drop (since i) :=
      List.mem_drop_iff_getElem.mpr ⟨next - since i, by omega, by simp only [Nat.add_sub_cancel' hsince]⟩
    have hreply := hd.replyTo_heartbeat ((hs.speaking.connected.talks i).heartbeats _ hmem)
    rw [toSettle_eq fb s' i, toSettle_eq fb s i]
    simp only [load, hends, hother, hincoming, houtgoing, Task.work, hbuffer, hpc, Pc.work, Write.bytes, wireWork,
      queueWork, hreply, Endpoint.unpassed, hnext, TaskEvent.frames]
    simp
    omega

theorem Settling.exists_step (hd : Decodes fb) (hs : Settling fb since sent s) (hbusy : ¬ s.Settled) :
    ∃ e s', e.2.OfTask ∧ Link.step fb s e = some s' ∧ Settling fb since sent s' ∧ s'.toSettle fb < s.toSettle fb := by
  by_cases hrest : s.AtRest
  · obtain ⟨i, hbehind⟩ := not_forall.mp fun hall => hbusy ⟨hrest, hall⟩
    obtain ⟨e, s', hstep, hspeaks, hless⟩ := hs.exists_broadcast hd hrest hbehind
    exact ⟨(i, .task e), s', trivial, hstep, (hs.step hd hstep hspeaks).1, hless⟩
  · obtain ⟨⟨i, e⟩, s', htask, hstep, hspeaking, hless⟩ := hs.speaking.exists_step hd hrest
    cases e with
    | task e =>
      obtain ⟨hs', hle, hother⟩ := hs.step hd hstep (hspeaking.speaks i)
      refine ⟨(i, .task e), s', trivial, hstep, hs', ?_⟩
      rw [work_eq fb s' i, work_eq fb s i] at hless
      rw [toSettle_eq fb s' i, toSettle_eq fb s i, hother]
      omega
    | heartbeat | others => cases htask

omit [DecidableEq SocketAddr] in
/-- When both ends have settled, each has heard the helo of the other, then an oleh among
all the broadcasts since the other's subscription, in order and once each. -/
theorem Settling.heard (hd : Decodes fb) (hs : Settling fb since sent s) (hsettled : s.Settled) (i : Bool) :
    ∃ rest, (s.ends i).task.handled = heloBytes fb :: rest ∧
      Interleave [olehBytes fb] ((sent !i).drop (since !i)) rest := by
  obtain ⟨hrest, hcaught⟩ := hsettled
  obtain ⟨greeting, hgreeting, rest, hwritten, hreplies⟩ := (hs.keeping !i).caughtUp (hcaught !i)
  have hknown : ∀ msg ∈ (s.ends !i).task.handled, Known fb msg := fun msg hmsg =>
    hs.speaking.connected.known_handled (!i) (List.mem_append_left _ (List.mem_append_left _ hmsg))
  rw [hd.replies_eq hknown, (hs.speaking.handshake hd hrest !i).1, hs.sent] at hreplies
  refine ⟨rest, ?_, hreplies⟩
  rw [hs.speaking.handled_eq hrest, hwritten]
  rcases hgreeting with rfl | rfl
  · -- the helo would be an oleh or a heartbeat
    have hgreeted := hs.speaking.greeted hrest !i
    rw [hwritten, List.nil_append] at hgreeted
    rcases List.mem_append.mp (hreplies.perm.mem_iff.mp hgreeted) with holeh | hbeat
    · exact absurd (List.mem_singleton.mp holeh).symm hd.oleh_ne_helo
    · exact absurd rfl (hd.heartbeat_ne_helo ((hs.speaking.connected.talks !i).heartbeats _ (hs.sent (!i) ▸ hbeat)))
  · rfl

/-- As long as each broadcast finds a free slot, both ends have been admitted, neither has
closed and no helo was lost, some schedule of their own steps settles both: each has then
handled the helo of the other, and after it an oleh and all that the other's node has
broadcast since the subscription, in order and once each. -/
theorem run_settles (hd : Decodes fb) {sh : Bool → Shared SocketAddr} {addr : Bool → SocketAddr}
    {maxPendingMessages : Bool → Nat} (hpending : ∀ i, 0 < maxPendingMessages i)
    {es : List (Bool × LinkEvent SocketAddr)}
    (hkeeps : Machine.Guarded (step fb) KeepsUp (start sh addr maxPendingMessages) es)
    (h : Machine.run (step fb) (start sh addr maxPendingMessages) es = some s)
    (hspeaks : ∀ i, (s.ends i).task.Speaks fb) (hsenders : ∀ i, (s.ends i).shared.sendToAll.senders ≠ 0) :
    ∃ fs s', fs.length ≤ s.toSettle fb ∧ (∀ e ∈ fs, e.2.OfTask) ∧ Machine.run (step fb) s fs = some s' ∧
      ∀ i, s'.wire i = [] ∧ (s'.ends i).task.AtRest ∧ ∃ rest, (s'.ends i).task.handled = heloBytes fb :: rest ∧
        Interleave [olehBytes fb] ((s.ends !i).shared.sendToAll.sent.drop (sh !i).sendToAll.sent.length) rest := by
  have hkeeping : ∀ i, (s.ends i).Keeping fb (sh i).sendToAll.sent.length := by
    refine Machine.Guarded.invariant (P := fun s : Link SocketAddr => ∀ i, (s.ends i).Keeping fb (sh i).sendToAll.sent.length)
      (fun hs hk hstep => step_keeping hk hstep hs) (fun i => ?_) hkeeps h
    exact Endpoint.start_keeping (addr i) (maxPendingMessages i) (Nat.le_refl _) (Nat.not_lt.mpr (Nat.le_add_right _ _))
  have hs : Settling fb (fun i => (sh i).sendToAll.sent.length) (fun i => (s.ends i).shared.sendToAll.sent) s :=
    ⟨run_speaking hd hpending h hspeaks, hkeeping, fun _ => rfl, hsenders⟩
  obtain ⟨fs, s', hlength, htasks, hrun, hs', hsettled⟩ :=
    Machine.exists_run_of_measure (toSettle fb) (fun u hu hbusy => hu.exists_step hd hbusy) hs
  exact ⟨fs, s', hlength, htasks, hrun, fun i =>
    ⟨(hsettled.1 i).1, (hsettled.1 i).2, hs'.heard hd hsettled i⟩⟩

/-- Both ends are admitted, and the node of one broadcasts twice before they greet. -/
def beatsEarly : List (Bool × LinkEvent SocketAddrV4) :=
  [(false, .task .insert), (true, .task .insert), (false, .heartbeat ⟨"10.0.0.1:6680", .unixEpoch⟩),
    (false, .heartbeat ⟨"10.0.0.1:6680", .unixEpoch⟩)]

theorem settles_beatsEarly :
    ∃ s fs s', Machine.run (step Codec.flexbuffers) acceptedBoth beatsEarly = some s ∧
      Machine.run (step Codec.flexbuffers) s fs = some s' ∧ (s'.ends true).task.handled.length = 4 := by
  obtain ⟨s, hs, hpc, hsenders, hsent⟩ : ∃ s, Machine.run (step Codec.flexbuffers) acceptedBoth beatsEarly = some s ∧
      (∀ i, (s.ends i).task.pc = .handshake (heloBytes Codec.flexbuffers)) ∧
      (∀ i, (s.ends i).shared.sendToAll.senders ≠ 0) ∧ (s.ends false).shared.sendToAll.sent.length = 2 :=
    Machine.exists_run (fun s : Link SocketAddrV4 => (∀ i, (s.ends i).task.pc =
      .handshake (heloBytes Codec.flexbuffers)) ∧ (∀ i, (s.ends i).shared.sendToAll.senders ≠ 0) ∧
      (s.ends false).shared.sendToAll.sent.length = 2) (by decide)
  obtain ⟨fs, s', -, -, hrun, hsettled⟩ := run_settles (decodes_of_roundTrip Codec.flexbuffers_roundTrip)
    (fun _ => Nat.succ_pos 3) (by decide) hs (fun i => .inl (hpc i)) hsenders
  obtain ⟨-, -, rest, hhandled, hrest⟩ := hsettled true
  refine ⟨s, fs, s', hs, hrun, ?_⟩
  have hbroadcast : (s.ends !true).shared.sendToAll.sent.length = 2 := hsent
  rw [hhandled, List.length_cons, hrest.perm.length_eq, List.length_append, List.length_drop, hbroadcast]
  rfl

end Link

end Braidpool.Connection
