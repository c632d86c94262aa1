import Braidpool.Connection.Delivery

/-! When the message handler goes on listening to broadcasts, and when the ring's
lag makes it deaf to them until the peer sends a frame. -/
namespace Braidpool.Connection.Endpoint
open Braidpool.Runtime Braidpool.Protocol
variable {SocketAddr : Type} [DecidableEq SocketAddr] {fb : Flexbuffers}

/-- If the message handler waits in its select, its broadcast branch is enabled, and
the oldest message retained for the receiver can be what the next poll takes. -/
def Armed (fb : Flexbuffers) (s : Endpoint SocketAddr) : Prop :=
  ∀ disabled next, s.task.pc = .running (.select disabled) → s.task.receiver = some next →
    sendToAllBranch ∉ disabled ∧ ∀ msgBytes ∈ (s.shared.sendToAll.retained next).head?, ∃ start s',
      step fb s (.task (.poll start)) = some s' ∧ s'.task.pc = .running (.writing (.sendToAll msgBytes))

/-- A message is broadcast only while the ring has a slot that the receiver of the
task no longer needs. -/
def KeepsUp (s : Endpoint SocketAddr) : EndpointEvent SocketAddr → Prop
  | .sendToAll _ => ∀ next ∈ s.task.receiver,
      s.shared.sendToAll.sent.length < next + s.shared.sendToAll.capacity
  | _ => True

instance (s : Endpoint SocketAddr) : DecidablePred (KeepsUp s)
  | .task _ => .isTrue trivial
  | .sendToAll _ => inferInstanceAs (Decidable (∀ next ∈ s.task.receiver, _ < _))
  | .others .. => .isTrue trivial

/-- The receiver has lost nothing, and its branch is disabled only for want of senders. -/
structure Current (s : Endpoint SocketAddr) : Prop where
  near : ∀ next ∈ s.task.receiver, ¬ s.shared.sendToAll.Lagged next
  enabled : ∀ disabled, s.task.pc = .running (.select disabled) → 1 ∈ disabled → s.shared.sendToAll.senders = 0

private theorem skipped_current {c : Broadcast Bytes} {next next' : Nat} (h : Task.Skipped c next next')
    (hnext : ¬ c.Lagged next) : ¬ c.Lagged next' := by
  rcases h with rfl | ⟨hlag, -⟩
  · exact hnext
  · exact absurd hlag hnext

private theorem task_current {sh sh' : Shared SocketAddr} {t t' : Task SocketAddr} {e : TaskEvent}
    (h : Task.Moves fb sh t e (sh', t')) (hs : Current ⟨sh, t⟩) : Current ⟨sh', t'⟩ := by
  obtain ⟨hnear, henabled⟩ := hs
  cases h with
  | refused | readEnded | rejected | stuck | sendFailed =>
    exact ⟨fun next hnext => (by cases hnext), fun disabled hpc => (by cases hpc)⟩
  | admitted => exact ⟨hnear, fun disabled hpc => (by cases hpc)⟩
  | handshakeSent message ok pc =>
    refine ⟨hnear, fun disabled hpc hmem => ?_⟩
    cases hpc
    cases hmem
  | queued handler message queue pc sent => exact ⟨hnear, henabled⟩
  | handled disabled start next next' msg queue pc receiver took skipped accepted reply =>
    refine ⟨fun n hn => ?_, fun disabled hpc hmem => ?_⟩
    · obtain rfl := Option.some.inj hn
      exact skipped_current skipped (hnear next receiver)
    · cases hpc
      cases hmem
  | replying disabled start next next' msg toSend queue pc receiver took skipped accepted reply =>
    refine ⟨fun n hn => ?_, fun disabled hpc => (by cases hpc)⟩
    obtain rfl := Option.some.inj hn
    exact skipped_current skipped (hnear next receiver)
  | sendingToAll disabled start next msgBytes pc receiver current sent enabled =>
    refine ⟨fun n hn => ?_, fun disabled hpc => (by cases hpc)⟩
    obtain rfl := Option.some.inj hn
    change ¬ next + 1 + sh.sendToAll.capacity < sh.sendToAll.sent.length
    unfold Broadcast.Lagged at current
    omega
  | waiting disabled disabled' start next next' pc receiver skipped queueArm sendToAllArm =>
    refine ⟨fun n hn => ?_, fun d hpc hmem => ?_⟩
    · obtain rfl := Option.some.inj hn
      exact skipped_current skipped (hnear next receiver)
    · obtain rfl : disabled' = d := by simpa using hpc
      rcases sendToAllArm hmem with h | h | h
      · exact henabled disabled pc h
      · exact absurd h (hnear next receiver)
      · exact h
  | delivered write pc =>
    refine ⟨(by cases write <;> exact hnear), fun disabled hpc hmem => ?_⟩
    cases hpc
    cases hmem
  | writerClosed => exact ⟨hnear, fun disabled hpc => (by cases hpc)⟩
  | flushed write pc => exact ⟨(by cases write <;> exact hnear), fun disabled hpc => (by cases hpc)⟩
  | removed => exact ⟨hnear, fun disabled hpc => (by cases hpc)⟩

theorem Moves.current {s s' : Endpoint SocketAddr} {e : EndpointEvent SocketAddr} (h : Moves fb s e s')
    (hs : Current s) (hkeeps : KeepsUp s e) : Current s' := by
  cases h with
  | task e next moves => exact task_current moves hs
  | sendToAll msgBytes senders =>
    refine ⟨fun next hnext => ?_, hs.enabled⟩
    have hslot := hkeeps next hnext
    simp only [Broadcast.Lagged, List.length_append, List.length_singleton]
    omega
  | others manager senders receivers notifier now cloned =>
    exact ⟨hs.near, fun disabled hpc hmem => cloned (hs.enabled disabled hpc hmem)⟩

/-- A poll that begins with the broadcast branch takes the next message. -/
private theorem poll_sendToAll {c : Broadcast Bytes} {disabled : Finset (Fin 2)} {queue : Mpsc Bytes} {next : Nat}
    {msgBytes : Bytes} (henabled : 1 ∉ disabled) (hcurrent : ¬ c.Lagged next)
    (hnext : c.sent[next]? = some msgBytes) :
    Select.poll (arms c) 1 disabled (queue, next) = (.completed (.sendToAll msgBytes), queue, next + 1) := by
  have hrecv : c.recv next = (.ready (.ok msgBytes), next + 1) := by
    rw [Broadcast.recv, if_neg hcurrent, hnext]
  apply Select.poll_of_ready henabled
  simp only [arms, hrecv]
  rfl

theorem Current.armed {s : Endpoint SocketAddr} (hs : Current s) (hsenders : s.shared.sendToAll.senders ≠ 0) :
    Armed fb s := by
  intro disabled next hpc hnext
  have henabled : 1 ∉ disabled := fun hmem => hsenders (hs.enabled disabled hpc hmem)
  refine ⟨henabled, fun msgBytes hmsg => ?_⟩
  have hcurrent := hs.near next hnext
  rw [Option.mem_def, Broadcast.retained_head _ hcurrent] at hmsg
  have hstep : step fb s (.task (.poll 1)) = some ⟨(s.task.poll fb s.shared disabled 1 next).1,
      (s.task.poll fb s.shared disabled 1 next).2⟩ := by
    simp only [step, Task.step, hpc, hnext, Option.map_some]
  refine ⟨1, _, hstep, ?_⟩
  simp only [Task.poll, poll_sendToAll henabled hcurrent hmsg]

/-- While every broadcast finds a free slot, a waiting message handler is armed. -/
theorem run_armed {sh : Shared SocketAddr} {addr : SocketAddr} {maxPendingMessages since : Nat}
    {es : List (EndpointEvent SocketAddr)} {s : Endpoint SocketAddr}
    (hstart : ¬ sh.sendToAll.Lagged since)
    (hkeeps : Machine.Guarded (step fb) KeepsUp (start sh addr maxPendingMessages since) es)
    (h : Machine.run (step fb) (start sh addr maxPendingMessages since) es = some s)
    (hsenders : s.shared.sendToAll.senders ≠ 0) : Armed fb s := by
  refine (Machine.Guarded.invariant (P := Current) (fun hs hk hstep => (step_moves hstep).current hs hk)
    ⟨fun next hnext => ?_, fun disabled hpc => (by cases hpc)⟩ hkeeps h).armed hsenders
  obtain rfl := Option.some.inj hnext
  exact hstart

/-- Three broadcasts while the handshake is sent, into a ring of two messages. -/
def overrun : List (EndpointEvent SocketAddrV4) :=
  [.task .insert, .sendToAll [1], .sendToAll [2], .sendToAll [3], .task (.sent true), .task (.poll queueBranch)]

/-- The lag disables the broadcast branch, and with no frame from the peer it stays so. -/
theorem overrun_not_armed :
    ¬ ∀ (sh : Shared SocketAddrV4) (addr : SocketAddrV4) (maxPendingMessages since : Nat)
      (es : List (EndpointEvent SocketAddrV4)) (s : Endpoint SocketAddrV4), ¬ sh.sendToAll.Lagged since →
      Machine.run (step Codec.flexbuffers) (start sh addr maxPendingMessages since) es = some s →
      s.shared.sendToAll.senders ≠ 0 → Armed Codec.flexbuffers s := by
  intro hall
  obtain ⟨s, hs, hpc, hreceiver, hsenders⟩ : ∃ s, Machine.run (step Codec.flexbuffers) accepted overrun = some s ∧
      s.task.pc = .running (.select {1}) ∧ s.task.receiver = some 1 ∧ s.shared.sendToAll.senders ≠ 0 :=
    Machine.exists_run (fun s : Endpoint SocketAddrV4 => s.task.pc = .running (.select {1}) ∧ s.task.receiver = some 1 ∧
      s.shared.sendToAll.senders ≠ 0) (by decide)
  have harmed := hall _ _ _ _ overrun s (by decide) hs hsenders
  exact (harmed {1} 1 hpc hreceiver).1 (by decide)

/-- Two broadcasts while the handshake is sent. -/
def keptUp : List (EndpointEvent SocketAddrV4) :=
  [.task .insert, .sendToAll [1], .sendToAll [2], .task (.sent true)]

theorem run_armed_keptUp :
    ∃ s, Machine.run (step Codec.flexbuffers) accepted keptUp = some s ∧ Armed Codec.flexbuffers s := by
  obtain ⟨s, hs, hsenders⟩ : ∃ s, Machine.run (step Codec.flexbuffers) accepted keptUp = some s ∧
      s.shared.sendToAll.senders ≠ 0 :=
    Machine.exists_run (fun s : Endpoint SocketAddrV4 => s.shared.sendToAll.senders ≠ 0) (by decide)
  exact ⟨s, hs, run_armed (by decide) (by decide) hs hsenders⟩

/-- A waiting handler whose receiver lags has messages and cannot take any. -/
theorem not_armed_of_lagged {s : Endpoint SocketAddr} {disabled : Finset (Fin 2)} {next : Nat}
    (hpc : s.task.pc = .running (.select disabled)) (hnext : s.task.receiver = some next)
    (hlag : s.shared.sendToAll.Lagged next) : ¬ Armed fb s := by
  intro harmed
  obtain ⟨-, htakes⟩ := harmed disabled next hpc hnext
  have hretained : (s.shared.sendToAll.retained next).head?.isSome := by
    have := s.shared.sendToAll.capacity_pos
    unfold Broadcast.Lagged at hlag
    rw [Broadcast.retained, List.head?_drop, List.getElem?_eq_getElem (by omega)]
    rfl
  obtain ⟨msgBytes, hmsg⟩ := Option.isSome_iff_exists.mp hretained
  obtain ⟨start, s', hstep, hpc'⟩ := htakes msgBytes hmsg
  cases step_moves hstep with
  | task _ next' moves =>
    cases moves with
    | sendingToAll disabled' start next'' msgBytes' pc receiver current sent enabled =>
      obtain rfl := Option.some.inj (hnext.symm.trans receiver)
      exact current hlag
    | handled | replying | rejected | waiting | stuck => cases hpc'

end Braidpool.Connection.Endpoint
