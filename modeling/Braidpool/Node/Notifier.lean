import Braidpool.Node.Components

/-! The notifier between the message handlers and the heartbeat task. A handler builds
the future of `notified` where a signal is meant, so only the accept loop ever leaves a
permit, and a handled message sets the heartbeat back only by a permit it finds. -/
namespace Braidpool
open Braidpool.Runtime Braidpool.Protocol Braidpool.Connection

namespace Connection.Task
variable {SocketAddr : Type}

/-- With this event `handle_received` returns `Ok`: the message takes no reply, or its
reply has been sent. -/
def handles (fb : Flexbuffers) (sh : Shared SocketAddr) (t : Connection.Task SocketAddr) (e : TaskEvent) : Bool :=
  match t.pc, e with
  | .running (.select disabled), .poll start =>
    t.receiver.any fun next =>
      match Select.poll (arms sh.sendToAll) start disabled (t.queue, next) with
      | (.completed (.message msg), _) =>
        match handleReceived fb msg with
        | .ok (.returned (.ok ())) => true
        | _ => false
      | _ => false
  | .running (.writing (.reply _)), .sent ok => ok
  | _, _ => false

variable {fb : Flexbuffers} {sh : Shared SocketAddr} {t : Connection.Task SocketAddr}

private theorem poll_handles {disabled : Finset (Fin 2)} {start : Fin 2} {next : Nat} (ht : t.AtPc fb)
    (hpc : t.pc = .running (.select disabled)) (hnext : t.receiver = some next)
    (hhandles : t.handles fb sh (.poll start) = true) :
    ∃ msg, Accepted fb msg ∧ (t.poll fb sh disabled start next).2.handled = t.handled ++ [msg] ∧
      (t.poll fb sh disabled start next).2.pc = .running (.select ∅) := by
  have hpolled := polled sh.sendToAll start disabled t.queue next
  simp only [handles, hpc, hnext, Option.any_some] at hhandles
  unfold poll
  generalize Select.poll (arms sh.sendToAll) start disabled (t.queue, next) = result at hpolled hhandles ⊢
  cases hpolled with
  | message msg queue' next' took skipped =>
    rcases handleReceived_cases fb msg with ⟨haccepted, -, hh⟩ | ⟨toSend, -, -, hh⟩ | ⟨-, -, e, hh, -⟩
    · simp only [received, hh]
      exact ⟨msg, haccepted, rfl, trivial⟩
    · simp [hh] at hhandles
    · simp [hh] at hhandles
  | sendToAll | pending => cases hhandles
  | stuck s queueArm => exact absurd queueArm (ht.queueArm hpc)

theorem step_handles [DecidableEq SocketAddr] {e : TaskEvent} {next : Shared SocketAddr × Connection.Task SocketAddr}
    (ht : t.AtPc fb) (h : t.step fb sh e = some next) (hhandles : t.handles fb sh e = true) :
    ∃ msg, Accepted fb msg ∧ next.2.handled = t.handled ++ [msg] ∧ next.2.pc = .running (.select ∅) := by
  unfold step at h
  split at h
  · simp [handles, *] at hhandles
  · simp [handles, *] at hhandles
  · simp [handles, *] at hhandles
  · rename_i hpc
    obtain ⟨receiver, hreceiver, rfl⟩ := Option.map_eq_some_iff.mp h
    exact poll_handles ht hpc hreceiver hhandles
  · rename_i write ok hpc
    obtain rfl := Option.some.inj h
    cases write with
    | sendToAll msgBytes => simp [handles, hpc] at hhandles
    | reply toSend =>
      obtain rfl : ok = true := by simpa [handles, hpc] using hhandles
      obtain ⟨msg, hhandling, haccepted, -⟩ := ht.writing hpc
      refine ⟨msg, haccepted, ?_, rfl⟩
      simp [writeDone, deliver, hhandling]
  · simp [handles, *] at hhandles
  · simp [handles, *] at hhandles
  · cases h

end Connection.Task

namespace Node
variable {SocketAddr : Type}

/-- A handler has handled a message with this event. -/
def handles (fb : Flexbuffers) (s : Node SocketAddr) : NodeEvent SocketAddr → Bool
  | .task i e =>
    match s.conns[i]? with
    | some (.started t) => t.handles fb s.shared e
    | _ => false
  | _ => false

variable [DecidableEq SocketAddr]

/-- From each handled message until the heartbeat task is notified, there is a permit. -/
def Signals (fb : Flexbuffers) (s₀ : Node SocketAddr) (es : List (NodeEvent SocketAddr)) : Prop :=
  ∀ before e between after s s', es = before ++ e :: (between ++ after) →
    Machine.run (step fb) s₀ before = some s → s.handles fb e = true →
    Machine.run (step fb) s₀ (before ++ e :: between) = some s' → .notified ∉ between →
    s'.shared.notifier.permit = true

def FindsPermit (fb : Flexbuffers) (s : Node SocketAddr) (e : NodeEvent SocketAddr) : Prop :=
  s.handles fb e = true → s.shared.notifier.permit = true

instance (fb : Flexbuffers) (s : Node SocketAddr) (e : NodeEvent SocketAddr) : Decidable (FindsPermit fb s e) :=
  inferInstanceAs (Decidable (_ → _))

variable {fb : Flexbuffers} {s s' s₀ : Node SocketAddr} {e : NodeEvent SocketAddr}

theorem handles_notifier (hhandles : s.handles fb e = true) (h : step fb s e = some s') :
    s'.shared.notifier = s.shared.notifier := by
  cases e with
  | task i e =>
    obtain ⟨t, next, -, hstepped, rfl⟩ := step_task h
    exact (Connection.Task.step_moves hstepped).notifier
  | _ => cases hhandles

/-- Only the heartbeat task takes the permit. -/
theorem step_permit (h : step fb s e = some s') (hs : s.shared.notifier.permit = true) (he : e ≠ .notified) :
    s'.shared.notifier.permit = true := by
  cases e with
  | connect =>
    obtain ⟨peer, seeds, -, rfl⟩ := step_connect h
    exact hs
  | listen bound =>
    obtain ⟨-, rfl⟩ := step_listen h
    cases bound with
    | true => rfl
    | false => exact hs
  | accept peerAddress =>
    obtain ⟨-, rfl⟩ := step_accept h
    cases peerAddress with
    | none => rfl
    | some peerAddress =>
      simp only [Option.elim_some, accepted]
      split
      · rfl
      · exact hs
  | notified => exact absurd rfl he
  | connected i stream resolved =>
    obtain ⟨peer, receiver, -, rfl⟩ := step_connected h
    obtain ⟨receivers, conns, heq⟩ := s.connected_eq i receiver stream resolved
    rwa [heq]
  | task i e =>
    obtain ⟨t, next, -, hstepped, rfl⟩ := step_task h
    rwa [(Connection.Task.step_moves hstepped).notifier]
  | tick =>
    obtain rfl := step_tick h
    obtain ⟨pc, heq⟩ := s.tick_eq
    rwa [heq]
  | send =>
    obtain rfl := step_send h
    obtain ⟨sendToAll, pc, heq⟩ := s.send_eq
    rwa [heq]
  | clock now =>
    obtain rfl := step_clock h
    exact hs

theorem run_permit {es : List (NodeEvent SocketAddr)} (h : Machine.run (step fb) s es = some s')
    (hs : s.shared.notifier.permit = true) (hes : .notified ∉ es) : s'.shared.notifier.permit = true := by
  have hguard : Machine.Guarded (step fb) (fun _ e => e ≠ .notified) s es := by
    apply Machine.guarded_of_forall
    rintro _ e he rfl
    exact hes he
  exact Machine.Guarded.invariant (P := fun s => s.shared.notifier.permit = true)
    (fun hs he hstep => step_permit hstep hs he) hs hguard h

/-- The messages that are handled in a run signal the heartbeat task exactly when each
finds a permit that the accept loop has left. -/
theorem run_signals {es : List (NodeEvent SocketAddr)} (h : Machine.run (step fb) s₀ es = some s) :
    Signals fb s₀ es ↔ Machine.Guarded (step fb) (FindsPermit fb) s₀ es := by
  constructor
  · intro hsignals
    refine Machine.guarded_iff.mpr ?_
    rintro before e after u rfl hbefore hhandles
    obtain ⟨v, hstep, -⟩ := Machine.run_cons.mp (Machine.run_rest h hbefore)
    have hrun := Machine.run_concat.mpr ⟨u, hbefore, hstep⟩
    rw [← handles_notifier hhandles hstep]
    exact hsignals before e [] after u v rfl hbefore hhandles hrun List.not_mem_nil
  · rintro hguarded before e between after u v rfl hbefore hhandles hrun hbetween
    have hpermit := Machine.guarded_iff.mp hguarded before e _ u rfl hbefore hhandles
    obtain ⟨w, hstep, hlast⟩ := Machine.run_cons.mp (Machine.run_rest hrun hbefore)
    rw [← handles_notifier hhandles hstep] at hpermit
    exact run_permit hlast hpermit hbetween

/-- A peer is accepted and greeted, and sends a frame that takes no reply. -/
def acceptPong : List (NodeEvent SocketAddrV4) :=
  [.listen true, .accept (some hostB), .task 0 .insert, .task 0 (.sent true),
    .task 0 (.read (some (.ok (Codec.flexbuffers.takeBuffer ⟨"Ping", [("message", .string "pong")]⟩))))]

/-- The permit of the second accept is still there. -/
theorem run_signals_accepting :
    ∃ s₀ s, main Codec.flexbuffers {} platformA .unixEpoch = .ok s₀ ∧
      Machine.run (step Codec.flexbuffers) s₀ (acceptPong ++ [.task 0 (.poll 0), .notified]) = some s ∧
      Signals Codec.flexbuffers s₀ (acceptPong ++ [.task 0 (.poll 0), .notified]) := by
  obtain ⟨s₀, s, h₀, h, hfinds⟩ : ∃ s₀ s, main Codec.flexbuffers {} platformA .unixEpoch = .ok s₀ ∧
      Machine.run (step Codec.flexbuffers) s₀ (acceptPong ++ [.task 0 (.poll 0), .notified]) = some s ∧
      Machine.Guarded (step Codec.flexbuffers) (FindsPermit Codec.flexbuffers) s₀
        (acceptPong ++ [.task 0 (.poll 0), .notified]) :=
    exists_run _ (fun s₀ _ => Machine.Guarded (step Codec.flexbuffers) (FindsPermit Codec.flexbuffers) s₀
      (acceptPong ++ [.task 0 (.poll 0), .notified])) (by decide)
  exact ⟨s₀, s, h₀, h, (run_signals h).mpr hfinds⟩

/-- The heartbeat task has taken the permit before the frame is handled. -/
theorem handled_unsignalled :
    ¬ ∀ (config : Config) (platform : Platform SocketAddrV4) (now : SystemTime) (s₀ s : Node SocketAddrV4)
      (es : List (NodeEvent SocketAddrV4)), main Codec.flexbuffers config platform now = .ok s₀ →
      Machine.run (step Codec.flexbuffers) s₀ es = some s → Signals Codec.flexbuffers s₀ es := by
  intro hall
  obtain ⟨s₀, s, h₀, h, hhandles, hpermit⟩ : ∃ s₀ s, main Codec.flexbuffers {} platformA .unixEpoch = .ok s₀ ∧
      Machine.run (step Codec.flexbuffers) s₀ (acceptPong ++ [.notified]) = some s ∧
      s.handles Codec.flexbuffers (.task 0 (.poll 0)) = true ∧
      ((step Codec.flexbuffers s (.task 0 (.poll 0))).any fun s' => !s'.shared.notifier.permit) = true :=
    exists_run _ (fun _ s => s.handles Codec.flexbuffers (.task 0 (.poll 0)) = true ∧
      ((step Codec.flexbuffers s (.task 0 (.poll 0))).any fun s' => !s'.shared.notifier.permit) = true) (by decide)
  obtain ⟨s', hstep, hnone⟩ := (Option.any_eq_true _ _).mp hpermit
  have hrun := Machine.run_concat.mpr ⟨s, h, hstep⟩
  have hsignalled := hall _ _ _ s₀ s' _ h₀ hrun _ _ [] [] s s' rfl h hhandles hrun List.not_mem_nil
  rw [hsignalled] at hnone
  cases hnone

end Node

end Braidpool
