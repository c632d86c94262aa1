import Braidpool.Connection.Backlog

/-! What a peer is told first. The result of sending the handshake is dropped, so a
connection that has failed to greet goes on to reply and to pass broadcasts on. -/
namespace Braidpool.Connection
open Braidpool.Runtime Braidpool.Protocol

namespace Task
variable {SocketAddr : Type} {fb : Flexbuffers}

/-- The first frame delivered is the handshake; there is none if sending it has failed. -/
structure GreetsFirst (fb : Flexbuffers) (ok : Bool) (t : Task SocketAddr) : Prop where
  helo : ∀ frame ∈ t.written.head?, frame = heloBytes fb
  silent : ok = false → t.written = []

variable [DecidableEq SocketAddr] {sh sh' : Shared SocketAddr} {t t' : Task SocketAddr} {e : TaskEvent}

theorem Moves.greeted (h : Moves fb sh t e (sh', t')) (hgreeted : t.pc.Greeted) : t'.pc.Greeted := by
  cases h with
  | refused pc | admitted _ _ pc | handshakeSent _ _ pc =>
    rw [pc] at hgreeted
    exact hgreeted.elim
  | queued => exact hgreeted
  | _ => trivial

/-- A poll that begins with the queue branch takes the next frame. -/
theorem poll_message {c : Broadcast Bytes} {disabled : Finset (Fin 2)} {queue queue' : Mpsc Bytes} {next : Nat}
    {msg : Bytes} (henabled : 0 ∉ disabled) (hrecv : queue.recv = (.ready (some msg), queue')) :
    Select.poll (arms c) 0 disabled (queue, next) = (.completed (.message msg), queue', next) := by
  apply Select.poll_of_ready henabled
  simp only [arms, hrecv]
  rfl

private theorem handleReceived_of_replyTo {msg reply : Bytes} (h : replyTo fb msg = some reply) :
    handleReceived fb msg = .ok (.sending reply) := by
  rcases handleReceived_cases fb msg with ⟨-, hnone, -⟩ | ⟨toSend, -, hsome, hsending⟩ | ⟨-, hnone, -⟩
  · rw [h] at hnone
    cases hnone
  · obtain rfl := Option.some.inj (h.symm.trans hsome)
    exact hsending
  · rw [h] at hnone
    cases hnone

end Task

namespace Endpoint
variable {SocketAddr : Type} [DecidableEq SocketAddr] {fb : Flexbuffers} {s s' : Endpoint SocketAddr}
  {es : List (EndpointEvent SocketAddr)}

/-- Once the handshake is delivered, whatever else is delivered comes after it. -/
theorem run_greeted (h : Machine.run (step fb) s es = some s') (hgreeted : s.task.pc.Greeted)
    (hwritten : [heloBytes fb] <+: s.task.written) : [heloBytes fb] <+: s'.task.written := by
  refine (Machine.run_invariant (P := fun s => s.task.pc.Greeted ∧ [heloBytes fb] <+: s.task.written) ?_
    ⟨hgreeted, hwritten⟩ h).2
  rintro s e s' ⟨hgreeted, hwritten⟩ hstep
  cases step_moves hstep with
  | task e next moves => exact ⟨moves.greeted hgreeted, hwritten.trans moves.written_prefix⟩
  | sendToAll | others => exact ⟨hgreeted, hwritten⟩

theorem step_handshakeSent {message : Bytes} (hpc : s.task.pc = .handshake message) (ok : Bool) :
    step fb s (.task (.sent ok)) = some ⟨s.shared, s.task.handshakeSent message ok⟩ := by
  simp only [step, Task.step, hpc]
  rfl

theorem step_read {handler : HandlerState} {frame : Bytes} {queue : Mpsc Bytes}
    (hpc : s.task.pc = .running handler) (hsend : s.task.queue.trySend frame = .ok queue) :
    step fb s (.task (.read (some (.ok frame)))) =
      some ⟨s.shared, { s.task with queue, read := s.task.read ++ [frame] }⟩ := by
  simp only [step, Task.step, hpc, Task.readItem, startReadLoop, hsend]
  rfl

theorem step_poll {disabled : Finset (Fin 2)} {next : Nat} {frame reply : Bytes} {queue : Mpsc Bytes}
    (hpc : s.task.pc = .running (.select disabled)) (henabled : queueBranch ∉ disabled)
    (hnext : s.task.receiver = some next) (hrecv : s.task.queue.recv = (.ready (some frame), queue))
    (hreply : replyTo fb frame = some reply) :
    step fb s (.task (.poll queueBranch)) = some ⟨s.shared, { s.task with
      pc := .running (.writing (.reply reply)), queue, receiver := some next, handling := some frame }⟩ := by
  simp only [step, Task.step, hpc, hnext, Option.map_some, Task.poll, Task.poll_message henabled hrecv, Task.received,
    Task.handleReceived_of_replyTo hreply]

theorem step_delivered {write : Write} (hpc : s.task.pc = .running (.writing write)) :
    step fb s (.task (.sent true)) =
      some ⟨s.shared, { s.task.deliver write with pc := .running (.select ∅) }⟩ := by
  simp only [step, Task.step, hpc, Task.writeDone, if_true]
  rfl

/-- Sending the handshake fails, and the reply to the peer's first frame does not. -/
def ungreeted (frame : Bytes) : List (EndpointEvent SocketAddr) :=
  [.task (.sent false), .task (.read (some (.ok frame))), .task (.poll queueBranch), .task (.sent true)]

/-- The peer then gets the reply and nothing before it. -/
theorem run_ungreeted {message frame reply : Bytes} (hpc : s.task.pc = .handshake message) (hs : s.task.AtPc fb)
    (hcapacity : 0 < s.task.queue.capacity) (hreply : replyTo fb frame = some reply) :
    ∃ s', Machine.run (step fb) s (ungreeted frame) = some s' ∧ s'.task.written = [reply] := by
  obtain ⟨hopen, hidle, -, -⟩ := hs.greeting hpc
  obtain ⟨next, hnext⟩ := Option.isSome_iff_exists.mp hopen.receiver
  obtain ⟨queue, hsend⟩ := Mpsc.trySend_returns frame hopen.closed (by rwa [hidle.buffer])
  have hbuffer : queue.buffer = [frame] := by
    rw [(Mpsc.trySend_ok hsend).2.2.1, hidle.buffer]
    rfl
  obtain ⟨queue', hrecv⟩ := Mpsc.recv_cons hbuffer
  refine ⟨_, Machine.run_cons.mpr ⟨_, step_handshakeSent hpc false, Machine.run_cons.mpr ⟨_, step_read rfl hsend,
    Machine.run_cons.mpr ⟨_, step_poll rfl (Finset.notMem_empty _) hnext hrecv hreply,
      Machine.run_cons.mpr ⟨_, step_delivered rfl, rfl⟩⟩⟩⟩, ?_⟩
  change s.task.written ++ [reply] = [reply]
  rw [hidle.written, List.nil_append]

/-- Whatever follows, the handshake comes first exactly if its send succeeds: a failed
one is not looked at, and the peer can be sent a reply instead. -/
theorem run_greetsFirst {sh : Shared SocketAddr} {addr : SocketAddr} {maxPendingMessages since : Nat}
    {message : Bytes} (hfb : fb.RoundTrip) (hpending : 0 < maxPendingMessages)
    (h : Machine.run (step fb) (start sh addr maxPendingMessages since) es = some s)
    (hpc : s.task.pc = .handshake message) (ok : Bool) :
    (∀ es' s', Machine.run (step fb) s (.task (.sent ok) :: es') = some s' → s'.task.GreetsFirst fb ok) ↔
      ok = true := by
  have hs := (run_accounted h).atPc
  constructor
  · intro hall
    cases ok with
    | true => rfl
    | false =>
      -- a peer that greets is answered, whether it has been greeted or not
      have hcapacity : 0 < s.task.queue.capacity := (run_accounted h).capacity ▸ hpending
      obtain ⟨s', hrun, hwritten⟩ := run_ungreeted hpc hs hcapacity (decodes_of_roundTrip hfb).replyTo_helo
      have hsilent := (hall _ s' hrun).silent rfl
      rw [hwritten] at hsilent
      cases hsilent
  · rintro rfl es' s' hrun
    obtain ⟨u, hstep, hrest⟩ := Machine.run_cons.mp hrun
    obtain rfl := Option.some.inj ((step_handshakeSent hpc true).symm.trans hstep)
    obtain ⟨-, hidle, rfl, -⟩ := hs.greeting hpc
    have hwritten : [heloBytes fb] <+: (s.task.handshakeSent (heloBytes fb) true).written := by
      rw [Task.handshakeSent, hidle.written]
      exact List.prefix_rfl
    obtain ⟨rest, hrest⟩ := run_greeted hrest trivial hwritten
    refine ⟨?_, fun hfailed => (by cases hfailed)⟩
    intro frame hframe
    rw [← hrest] at hframe
    exact (Option.some.inj hframe).symm

private theorem accepted_handshake :
    ∃ s, Machine.run (step Codec.flexbuffers) accepted [.task .insert] = some s ∧
      s.task.pc = .handshake (heloBytes Codec.flexbuffers) :=
  Machine.exists_run (fun s : Endpoint SocketAddrV4 => s.task.pc = .handshake (heloBytes Codec.flexbuffers)) (by decide)

theorem run_greetsFirst_admitted :
    ∃ s, Machine.run (step Codec.flexbuffers) accepted [.task .insert] = some s ∧
      ∀ es' s', Machine.run (step Codec.flexbuffers) s (.task (.sent true) :: es') = some s' →
        s'.task.GreetsFirst Codec.flexbuffers true := by
  obtain ⟨s, hs, hpc⟩ := accepted_handshake
  exact ⟨s, hs, (run_greetsFirst Codec.flexbuffers_roundTrip (by decide) hs hpc true).mpr rfl⟩

/-- A peer gets the answer to its own helo, and never gets one itself. -/
theorem oleh_first :
    ¬ ∀ (sh : Shared SocketAddrV4) (addr : SocketAddrV4) (maxPendingMessages since : Nat)
      (es es' : List (EndpointEvent SocketAddrV4)) (s s' : Endpoint SocketAddrV4) (message : Bytes) (ok : Bool),
      0 < maxPendingMessages →
      Machine.run (step Codec.flexbuffers) (start sh addr maxPendingMessages since) es = some s →
      s.task.pc = .handshake message →
      Machine.run (step Codec.flexbuffers) s (.task (.sent ok) :: es') = some s' →
      s'.task.GreetsFirst Codec.flexbuffers ok := by
  intro hall
  obtain ⟨s, hs, hpc⟩ := accepted_handshake
  have hd := decodes_of_roundTrip Codec.flexbuffers_roundTrip
  have hcapacity : 0 < s.task.queue.capacity := (run_accounted hs).capacity ▸ Nat.succ_pos 3
  obtain ⟨s', hrun, hwritten⟩ := run_ungreeted hpc (run_atPc hs).1 hcapacity hd.replyTo_helo
  have hfirst := (hall _ _ _ _ _ _ s s' _ false (Nat.succ_pos 3) hs hpc hrun).helo (olehBytes Codec.flexbuffers)
  rw [hwritten] at hfirst
  exact hd.oleh_ne_helo (hfirst rfl)

end Endpoint

end Braidpool.Connection
