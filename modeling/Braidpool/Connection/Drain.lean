import Braidpool.Connection.Greeting

/-! Two ends that have not closed can always bring what is under way to its end. Each
frame is priced by the steps it still takes, so a schedule that steps whatever is not
idle comes to rest. -/
namespace Braidpool.Connection
open Braidpool.Runtime Braidpool.Protocol

/-- The steps that a queued frame still takes: it is polled, and its reply is sent, read
and polled in turn. -/
def queueWork (fb : Flexbuffers) (msg : Bytes) : Nat := if (replyTo fb msg).isSome then 4 else 1

/-- A frame on the wire is read first. -/
def wireWork (fb : Flexbuffers) (msg : Bytes) : Nat := queueWork fb msg + 1

def Write.bytes : Write → Bytes
  | .reply toSend => toSend
  | .sendToAll msgBytes => msgBytes

def Pc.work (fb : Flexbuffers) : Pc → Nat
  | .handshake message => wireWork fb message + 1
  | .running (.writing write) => wireWork fb write.bytes + 1
  | _ => 0

namespace Task
variable {SocketAddr : Type}

def work (fb : Flexbuffers) (t : Task SocketAddr) : Nat :=
  (t.queue.buffer.map (queueWork fb)).sum + t.pc.work fb

/-- The task is about to greet, or has greeted and its select has not ended. -/
def Speaks (fb : Flexbuffers) (t : Task SocketAddr) : Prop :=
  t.pc = .handshake (heloBytes fb) ∨ (∃ handler, t.pc = .running handler) ∧ heloBytes fb ∈ t.written

/-- The task waits with nothing to do. -/
def AtRest (t : Task SocketAddr) : Prop := t.queue.buffer = [] ∧ ∃ disabled, t.pc = .running (.select disabled)

theorem Speaks.greeted {fb : Flexbuffers} {t : Task SocketAddr} (h : t.Speaks fb) (hrest : t.AtRest) :
    heloBytes fb ∈ t.written := by
  rcases h with hpc | ⟨-, hgreeted⟩
  · obtain ⟨-, disabled, hpc'⟩ := hrest
    rw [hpc] at hpc'
    cases hpc'
  · exact hgreeted

/-- A task at rest has handled all that it has read. -/
theorem AtRest.read_eq {fb : Flexbuffers} {t : Task SocketAddr} (h : t.AtRest) (ht : t.AtPc fb)
    (hread : t.read = t.handled ++ t.handling.toList ++ t.queue.buffer ++ t.refused.toList) : t.read = t.handled := by
  obtain ⟨hbuffer, disabled, hpc⟩ := h
  obtain ⟨-, ⟨hhandling, -⟩, hrefused, -⟩ := ht.running hpc
  rw [hread, hbuffer, hhandling, hrefused]
  simp

end Task

namespace Endpoint
variable {SocketAddr : Type} [DecidableEq SocketAddr] {fb : Flexbuffers} {s : Endpoint SocketAddr}

/-- A step takes one off the work of a task, what it reads and what it writes included. -/
structure Works (fb : Flexbuffers) (s : Endpoint SocketAddr) (e : TaskEvent) (s' : Endpoint SocketAddr) : Prop where
  stepped : step fb s (.task e) = some s'
  speaks : s'.task.Speaks fb
  work : s'.task.work fb + ((s'.task.written.drop s.task.written.length).map (wireWork fb)).sum + 1 =
    s.task.work fb + (e.frames.map (wireWork fb)).sum

private theorem works_handshake (hpc : s.task.pc = .handshake (heloBytes fb)) :
    ∃ s', Works fb s (.sent true) s' := by
  refine ⟨_, step_handshakeSent hpc true, .inr ⟨⟨_, rfl⟩, by simp [Task.handshakeSent]⟩, ?_⟩
  simp only [Task.handshakeSent, if_true, List.drop_left, Task.work, hpc, Pc.work, TaskEvent.frames]
  simp
  omega

private theorem works_writing {write : Write} (hpc : s.task.pc = .running (.writing write))
    (hgreeted : heloBytes fb ∈ s.task.written) : ∃ s', Works fb s (.sent true) s' := by
  refine ⟨_, step_delivered hpc, .inr ⟨⟨_, rfl⟩, ?_⟩, ?_⟩
  · cases write <;> simp [Task.deliver, hgreeted]
  · cases write <;>
    · simp only [Task.deliver, List.drop_left, Task.work, hpc, Pc.work, TaskEvent.frames, Write.bytes]
      simp
      omega

/-- A poll that begins with the queue branch handles the next frame, if it calls for no reply. -/
theorem step_handled {disabled : Finset (Fin 2)} {next : Nat} {frame : Bytes} {queue : Mpsc Bytes}
    (hpc : s.task.pc = .running (.select disabled)) (henabled : queueBranch ∉ disabled)
    (hnext : s.task.receiver = some next) (hrecv : s.task.queue.recv = (.ready (some frame), queue))
    (haccepted : Accepted fb frame) (hreply : replyTo fb frame = none) :
    step fb s (.task (.poll queueBranch)) = some ⟨s.shared, { s.task with
      pc := .running (.select ∅), queue, receiver := some next, handled := s.task.handled ++ [frame] }⟩ := by
  have hhandle : handleReceived fb frame = .ok (.returned (.ok ())) := by
    rcases handleReceived_cases fb frame with ⟨-, -, hh⟩ | ⟨toSend, -, hsome, -⟩ | ⟨hrefused, -⟩
    · exact hh
    · rw [hreply] at hsome
      cases hsome
    · exact absurd haccepted hrefused
  simp only [step, Task.step, hpc, hnext, Option.map_some, Task.poll, Task.poll_message henabled hrecv, Task.received,
    hhandle]

private theorem works_select {disabled : Finset (Fin 2)} {frame : Bytes} {rest : List Bytes} (hs : s.task.AtPc fb)
    (hpc : s.task.pc = .running (.select disabled)) (hgreeted : heloBytes fb ∈ s.task.written)
    (hbuffer : s.task.queue.buffer = frame :: rest) (haccepted : Accepted fb frame)
    (hfinal : ∀ reply, replyTo fb frame = some reply → replyTo fb reply = none) :
    ∃ s', Works fb s (.poll queueBranch) s' := by
  obtain ⟨hopen, ⟨-, henabled⟩, -⟩ := hs.running hpc
  obtain ⟨next, hnext⟩ := Option.isSome_iff_exists.mp hopen.receiver
  obtain ⟨queue, hrecv⟩ := Mpsc.recv_cons hbuffer
  obtain ⟨hqueue, -⟩ := Mpsc.recv_some hrecv
  obtain rfl : rest = queue.buffer := (List.cons.inj (hbuffer.symm.trans hqueue)).2
  cases hreply : replyTo fb frame with
  | none =>
    refine ⟨_, step_handled hpc henabled hnext hrecv haccepted hreply, .inr ⟨⟨_, rfl⟩, hgreeted⟩, ?_⟩
    simp only [Task.work, hpc, Pc.work, hqueue, List.map_cons, List.sum_cons, queueWork, hreply, TaskEvent.frames,
      List.drop_length]
    simp
    omega
  | some reply =>
    refine ⟨_, step_poll hpc henabled hnext hrecv hreply, .inr ⟨⟨_, rfl⟩, hgreeted⟩, ?_⟩
    simp only [Task.work, hpc, Pc.work, hqueue, List.map_cons, List.sum_cons, wireWork, queueWork, hreply,
      Write.bytes, hfinal reply hreply, TaskEvent.frames, List.drop_length]
    simp
    omega

private theorem works_read {handler : HandlerState} (frame : Bytes) (hs : s.task.AtPc fb)
    (hpc : s.task.pc = .running handler) (hgreeted : heloBytes fb ∈ s.task.written)
    (hroom : s.task.queue.buffer.length < s.task.queue.capacity) :
    ∃ s', Works fb s (.read (some (.ok frame))) s' := by
  obtain ⟨queue, hsend⟩ := Mpsc.trySend_returns frame (hs.running hpc).1.closed hroom
  obtain ⟨-, -, hbuffer, -⟩ := Mpsc.trySend_ok hsend
  refine ⟨_, step_read hpc hsend, .inr ⟨⟨_, hpc⟩, hgreeted⟩, ?_⟩
  simp only [Task.work, hbuffer, TaskEvent.frames, List.drop_length]
  simp [wireWork]
  omega

/-- A task that speaks can work as long as it is not at rest with nothing on its way. -/
theorem exists_works (hs : s.task.AtPc fb) (hspeaks : s.task.Speaks fb) (hcapacity : 0 < s.task.queue.capacity)
    {incoming : List Bytes} (hbusy : ¬ (incoming = [] ∧ s.task.AtRest))
    (haccepted : ∀ msg ∈ s.task.queue.buffer, Accepted fb msg)
    (hfinal : ∀ msg ∈ s.task.queue.buffer, ∀ reply, replyTo fb msg = some reply → replyTo fb reply = none) :
    ∃ e s', e.frames <+: incoming ∧ Works fb s e s' := by
  rcases hspeaks with hpc | ⟨⟨handler, hpc⟩, hgreeted⟩
  · obtain ⟨s', hs'⟩ := works_handshake hpc
    exact ⟨.sent true, s', List.nil_prefix, hs'⟩
  · cases handler with
    | writing write =>
      obtain ⟨s', hs'⟩ := works_writing hpc hgreeted
      exact ⟨.sent true, s', List.nil_prefix, hs'⟩
    | select disabled =>
      cases hbuffer : s.task.queue.buffer with
      | cons frame rest =>
        have hmem : frame ∈ s.task.queue.buffer := hbuffer ▸ List.mem_cons_self
        obtain ⟨s', hs'⟩ := works_select hs hpc hgreeted hbuffer (haccepted frame hmem) (hfinal frame hmem)
        exact ⟨.poll queueBranch, s', List.nil_prefix, hs'⟩
      | nil =>
        cases incoming with
        | nil => exact absurd ⟨rfl, hbuffer, _, hpc⟩ hbusy
        | cons frame rest =>
          obtain ⟨s', hs'⟩ := works_read frame hs hpc hgreeted (by rwa [hbuffer])
          exact ⟨_, s', ⟨rest, rfl⟩, hs'⟩

theorem Moves.queueCapacity {s' : Endpoint SocketAddr} {e : EndpointEvent SocketAddr} (h : Moves fb s e s') :
    s'.task.queue.capacity = s.task.queue.capacity := by
  cases h with
  | task e next moves => exact moves.queueCapacity
  | _ => rfl

end Endpoint

namespace Decodes
variable {fb : Flexbuffers} {msg reply : Bytes}

/-- The reply to a known frame calls for no reply. -/
theorem replyTo_reply (hd : Decodes fb) (hknown : Known fb msg) (h : replyTo fb msg = some reply) :
    replyTo fb reply = none := by
  rcases hknown with rfl | rfl | hheartbeat
  · rw [hd.replyTo_helo] at h
    obtain rfl := Option.some.inj h
    exact hd.replyTo_oleh
  · rw [hd.replyTo_oleh] at h
    cases h
  · rw [hd.replyTo_heartbeat hheartbeat] at h
    cases h

end Decodes

/-- The event is a step of the end's own task. -/
def LinkEvent.OfTask {SocketAddr : Type} : LinkEvent SocketAddr → Prop
  | .task _ => True
  | _ => False

namespace Link
variable {SocketAddr : Type}

/-- The steps still needed for what is on the way to an end, and for the end itself. -/
def load (fb : Flexbuffers) (s : Link SocketAddr) (i : Bool) : Nat :=
  ((s.wire i).map (wireWork fb)).sum + (s.ends i).task.work fb

def work (fb : Flexbuffers) (s : Link SocketAddr) : Nat := s.load fb false + s.load fb true

theorem work_eq (fb : Flexbuffers) (s : Link SocketAddr) (i : Bool) : s.work fb = s.load fb i + s.load fb !i := by
  cases i with
  | false => rfl
  | true => exact Nat.add_comm _ _

/-- Both ends speak over a connected link, with room in their queues. -/
structure Speaking (fb : Flexbuffers) (since : Bool → Nat) (s : Link SocketAddr) : Prop where
  connected : Connected fb since s
  speaks : ∀ i, (s.ends i).task.Speaks fb
  capacity : ∀ i, 0 < (s.ends i).task.queue.capacity

/-- Nothing is on the way, and both ends wait with nothing to do. -/
def AtRest (s : Link SocketAddr) : Prop := ∀ i, s.wire i = [] ∧ (s.ends i).task.AtRest

variable [DecidableEq SocketAddr] {fb : Flexbuffers} {since : Bool → Nat} {s s' : Link SocketAddr}

theorem exists_step_task {i : Bool} {e : TaskEvent} {next : Endpoint SocketAddr}
    (hframes : e.frames <+: s.wire i) (hstep : Endpoint.step fb (s.ends i) (.task e) = some next) :
    ∃ s', step fb s (i, .task e) = some s' ∧ s'.ends i = next ∧ s'.ends (!i) = s.ends (!i) ∧
      s'.wire i = (s.wire i).drop e.frames.length ∧
      s'.wire (!i) = s.wire (!i) ++ next.task.written.drop (s.ends i).task.written.length := by
  have hne : (!i) ≠ i := by cases i <;> decide
  have hstep' : step fb s (i, .task e) = some
      { ends := Function.update s.ends i next
        wire := fun j => if j = i then (s.wire j).drop e.frames.length
          else s.wire j ++ next.task.written.drop (s.ends i).task.written.length } := by
    simp only [step, event, EndpointEvent.frames, if_pos hframes, hstep, Option.map_some]
  exact ⟨_, hstep', Function.update_self i next s.ends, Function.update_of_ne hne _ _, if_pos rfl, if_neg hne⟩

theorem Speaking.step (hd : Decodes fb) (hs : Speaking fb since s) {i : Bool} {e : LinkEvent SocketAddr}
    (h : Link.step fb s (i, e) = some s') (hspeaks : (s'.ends i).task.Speaks fb) : Speaking fb since s' := by
  obtain ⟨event, hmoves, hother, -⟩ := step_moves h
  refine ⟨step_connected hd hs.connected h, fun j => ?_, fun j => ?_⟩
  · rcases eq_or_eq_not j i with rfl | rfl
    · exact hspeaks
    · rw [hother]
      exact hs.speaks _
  · rcases eq_or_eq_not j i with rfl | rfl
    · exact hmoves.queueCapacity ▸ hs.capacity j
    · rw [hother]
      exact hs.capacity _

theorem Speaking.exists_step (hd : Decodes fb) (hs : Speaking fb since s) (hbusy : ¬ s.AtRest) :
    ∃ e s', e.2.OfTask ∧ Link.step fb s e = some s' ∧ Speaking fb since s' ∧ s'.work fb < s.work fb := by
  obtain ⟨i, hi⟩ := not_forall.mp hbusy
  have htalks := hs.connected.talks i
  have hknown : ∀ msg ∈ (s.ends i).task.queue.buffer, Known fb msg := fun msg hmsg =>
    hs.connected.known_handled i (List.mem_append_right _ hmsg)
  obtain ⟨e, next, hframes, hworks⟩ := Endpoint.exists_works htalks.atPc (hs.speaks i) (hs.capacity i) hi
    (fun msg hmsg => hd.accepted (hknown msg hmsg)) fun msg hmsg reply => hd.replyTo_reply (hknown msg hmsg)
  obtain ⟨s', hstep, hnext, hother, hincoming, houtgoing⟩ := exists_step_task hframes hworks.stepped
  refine ⟨(i, .task e), s', trivial, hstep, hs.step hd hstep (hnext ▸ hworks.speaks), ?_⟩
  obtain ⟨rest, hrest⟩ := hframes
  have hwork := hworks.work
  rw [work_eq fb s' i, work_eq fb s i]
  simp only [load, hnext, hother, hincoming, houtgoing, ← hrest, List.drop_left, List.map_append, List.sum_append]
  omega

omit [DecidableEq SocketAddr] in
/-- At rest, each end has handled exactly what the other has written. -/
theorem Speaking.handled_eq (hs : Speaking fb since s) (hrest : s.AtRest) (i : Bool) :
    (s.ends i).task.handled = (s.ends !i).task.written := by
  obtain ⟨hwire, htask⟩ := hrest i
  have htalks := hs.connected.talks i
  rw [hs.connected.wires i, hwire, List.append_nil, htask.read_eq htalks.atPc htalks.delivers.read]

omit [DecidableEq SocketAddr] in
theorem Speaking.greeted (hs : Speaking fb since s) (hrest : s.AtRest) (i : Bool) :
    heloBytes fb ∈ (s.ends i).task.written := (hs.speaks i).greeted (hrest i).2

omit [DecidableEq SocketAddr] in
/-- At rest, each end has handled the helo and the oleh once each. -/
theorem Speaking.handshake (hd : Decodes fb) (hs : Speaking fb since s) (hrest : s.AtRest) (i : Bool) :
    (s.ends i).task.handled.count (heloBytes fb) = 1 ∧ (s.ends i).task.handled.count (olehBytes fb) = 1 := by
  have hhelo (i : Bool) : (s.ends i).task.handled.count (heloBytes fb) = 1 := by
    rw [hs.handled_eq hrest]
    exact Nat.le_antisymm (hs.connected.counts hd _).1 (List.count_pos_iff.mpr (hs.greeted hrest _))
  refine ⟨hhelo i, ?_⟩
  rw [hs.handled_eq hrest, (hs.connected.counts hd !i).2, hhelo]

theorem run_queueCapacity {sh : Bool → Shared SocketAddr} {addr : Bool → SocketAddr} {maxPendingMessages : Bool → Nat}
    {es : List (Bool × LinkEvent SocketAddr)}
    (h : Machine.run (step fb) (start sh addr maxPendingMessages) es = some s) (i : Bool) :
    (s.ends i).task.queue.capacity = maxPendingMessages i := by
  refine Machine.run_invariant (P := fun s : Link SocketAddr => ∀ i, (s.ends i).task.queue.capacity = maxPendingMessages i)
    ?_ (fun _ => rfl) h i
  rintro u ⟨j, e⟩ v hu hstep i
  obtain ⟨event, hmoves, hother, -⟩ := step_moves hstep
  rcases eq_or_eq_not i j with rfl | rfl
  · exact hmoves.queueCapacity.trans (hu i)
  · rw [hother]
    exact hu !j

theorem run_speaking (hd : Decodes fb) {sh : Bool → Shared SocketAddr} {addr : Bool → SocketAddr}
    {maxPendingMessages : Bool → Nat} (hpending : ∀ i, 0 < maxPendingMessages i)
    {es : List (Bool × LinkEvent SocketAddr)} (h : Machine.run (step fb) (start sh addr maxPendingMessages) es = some s)
    (hspeaks : ∀ i, (s.ends i).task.Speaks fb) : Speaking fb (fun i => (sh i).sendToAll.sent.length) s :=
  ⟨Machine.run_invariant (fun hs hstep => step_connected hd hs hstep) (start_connected sh addr maxPendingMessages) h,
    hspeaks, fun i => run_queueCapacity h i ▸ hpending i⟩

/-- Whatever has happened on a stream, as long as both ends have been admitted, neither has
closed and no helo was lost, some schedule of their own steps brings both to rest: each has
then handled all that the other has said, the helo and the oleh once each. -/
theorem run_drains (hd : Decodes fb) {sh : Bool → Shared SocketAddr} {addr : Bool → SocketAddr}
    {maxPendingMessages : Bool → Nat} (hpending : ∀ i, 0 < maxPendingMessages i)
    {es : List (Bool × LinkEvent SocketAddr)} (h : Machine.run (step fb) (start sh addr maxPendingMessages) es = some s)
    (hspeaks : ∀ i, (s.ends i).task.Speaks fb) :
    ∃ fs s', fs.length ≤ s.work fb ∧ (∀ e ∈ fs, e.2.OfTask) ∧ Machine.run (step fb) s fs = some s' ∧
      ∀ i, s'.wire i = [] ∧ (s'.ends i).task.AtRest ∧ (s'.ends i).task.handled = (s'.ends !i).task.written ∧
        (s'.ends i).task.handled.count (heloBytes fb) = 1 ∧ (s'.ends i).task.handled.count (olehBytes fb) = 1 := by
  have hs := run_speaking hd hpending h hspeaks
  obtain ⟨fs, s', hlength, htasks, hrun, hs', hrest⟩ :=
    Machine.exists_run_of_measure (work fb) (fun s hs hbusy => hs.exists_step hd hbusy) hs
  exact ⟨fs, s', hlength, htasks, hrun, fun i =>
    ⟨(hrest i).1, (hrest i).2, hs'.handled_eq hrest i, hs'.handshake hd hrest i⟩⟩

/-- Both ends have just been admitted. -/
theorem drains_admitted :
    ∃ s fs s', Machine.run (step Codec.flexbuffers) acceptedBoth [(false, .task .insert), (true, .task .insert)] = some s ∧
      Machine.run (step Codec.flexbuffers) s fs = some s' ∧
      ∀ i, (s'.ends i).task.handled.count (olehBytes Codec.flexbuffers) = 1 := by
  obtain ⟨s, hs, hpc⟩ : ∃ s, Machine.run (step Codec.flexbuffers) acceptedBoth
      [(false, .task .insert), (true, .task .insert)] = some s ∧
      ∀ i, (s.ends i).task.pc = .handshake (heloBytes Codec.flexbuffers) :=
    Machine.exists_run (fun s : Link SocketAddrV4 => ∀ i, (s.ends i).task.pc =
      .handshake (heloBytes Codec.flexbuffers)) (by decide)
  obtain ⟨fs, s', -, -, hrun, hdone⟩ := run_drains (decodes_of_roundTrip Codec.flexbuffers_roundTrip)
    (fun _ => Nat.succ_pos 3) hs fun i => .inl (hpc i)
  exact ⟨s, fs, s', hs, hrun, fun i => (hdone i).2.2.2.2⟩

end Link

end Braidpool.Connection
