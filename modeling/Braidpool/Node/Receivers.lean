import Braidpool.Connection.Delivery
import Braidpool.Node.Table

/-! The broadcast receivers of a node and the heartbeat task. The task looks at the table
before it sends, but what it needs is a receiver, and a connection drops its receiver
before its entry is removed. -/
namespace Braidpool
open Braidpool.Runtime Braidpool.Protocol Braidpool.Connection

namespace Connection

/-- The task has not come to the end of its select, and so holds its receiver. -/
def Pc.listening : Pc → Bool
  | .insert | .handshake _ | .running _ => true
  | _ => false

/-- The task has been admitted, and its select has not ended. -/
def Pc.admitted : Pc → Bool
  | .handshake _ | .running _ => true
  | _ => false

/-- The select of the task has ended, and its remove is still to come. -/
def Pc.cleaning : Pc → Bool
  | .closing _ | .removing => true
  | _ => false

theorem Pc.listening_of_admitted {pc : Pc} (h : pc.admitted) : pc.listening := by cases pc <;> first | rfl | cases h

namespace Task
variable {SocketAddr : Type}

/-- The event ends the select of the task. -/
def endsSelect (fb : Flexbuffers) (sh : Shared SocketAddr) (t : Connection.Task SocketAddr) (e : TaskEvent) : Bool :=
  match t.pc, e with
  | .running _, .read item =>
    match startReadLoop t.queue item with
    | .ok _ => false
    | .error _ => true
  | .running (.select disabled), .poll start =>
    t.receiver.any fun next =>
      match Select.poll (arms sh.sendToAll) start disabled (t.queue, next) with
      | (.completed (.message msg), _) =>
        match handleReceived fb msg with
        | .ok (.returned (.error _)) => true
        | _ => false
      | _ => false
  | .running (.writing _), .sent ok => !ok
  | _, _ => false

variable [DecidableEq SocketAddr] {fb : Flexbuffers} {sh sh' : Shared SocketAddr} {t t' : Connection.Task SocketAddr}
  {e : TaskEvent}

omit [DecidableEq SocketAddr] in
private theorem poll_admitted {disabled : Finset (Fin 2)} {start : Fin 2} {next : Nat} (ht : t.AtPc fb)
    (hpc : t.pc = .running (.select disabled)) (hnext : t.receiver = some next) :
    (t.poll fb sh disabled start next).2.pc.admitted = !t.endsSelect fb sh (.poll start) := by
  have hpolled := polled sh.sendToAll start disabled t.queue next
  simp only [poll, endsSelect, hpc, hnext, Option.any_some]
  generalize Select.poll (arms sh.sendToAll) start disabled (t.queue, next) = result at hpolled ⊢
  cases hpolled with
  | message msg queue' next' took skipped =>
    simp only [received]
    rcases handleReceived_cases fb msg with ⟨-, -, hh⟩ | ⟨toSend, -, -, hh⟩ | ⟨-, -, e, hh, -⟩ <;> rw [hh] <;> rfl
  | sendToAll => rfl
  | pending => rfl
  | stuck s queueArm => exact absurd queueArm (ht.queueArm hpc)

/-- An admitted task keeps its receiver until the event ends its select. -/
theorem step_admitted (ht : t.AtPc fb) (h : t.step fb sh e = some (sh', t')) (hopen : t.pc.admitted) :
    t'.pc.admitted = !t.endsSelect fb sh e := by
  unfold step at h
  split at h
  · rename_i hpc
    simp [hpc, Pc.admitted] at hopen
  · rename_i hpc
    obtain rfl := congrArg Prod.snd (Option.some.inj h)
    simp [endsSelect, hpc, handshakeSent, Pc.admitted]
  · rename_i item hpc
    obtain rfl := congrArg Prod.snd (Option.some.inj h)
    simp only [readItem, endsSelect, hpc]
    cases startReadLoop t.queue item with
    | ok queue => simp [Pc.admitted]
    | error e => simp [endSelect, Pc.admitted]
  · rename_i hpc
    obtain ⟨next, hnext, heq⟩ := Option.map_eq_some_iff.mp h
    obtain rfl := congrArg Prod.snd heq
    exact poll_admitted ht hpc hnext
  · rename_i write ok hpc
    obtain rfl := congrArg Prod.snd (Option.some.inj h)
    cases ok <;> cases write <;> simp [writeDone, endsSelect, hpc, endSelect, Pc.admitted]
  · rename_i hpc
    simp [hpc, Pc.admitted] at hopen
  · rename_i hpc
    simp [hpc, Pc.admitted] at hopen
  · cases h

omit [DecidableEq SocketAddr] in
theorem AtPc.isSome_receiver (ht : t.AtPc fb) (hopen : t.pc.admitted) : t.receiver.isSome := by
  cases hpc : t.pc with
  | handshake => exact (ht.greeting hpc).1.receiver
  | running => exact (ht.running hpc).1.receiver
  | _ => simp [hpc, Pc.admitted] at hopen

omit [DecidableEq SocketAddr] in
theorem AtPc.live_iff (ht : t.AtPc fb) : t.Live ↔ t.pc.admitted ∨ t.pc.cleaning := by
  cases hpc : t.pc with
  | insert => simp [Live, (ht.inserting hpc).2.2, Pc.admitted, Pc.cleaning]
  | refused =>
    rw [AtPc, hpc] at ht
    simp [Live, ht.2.2, Pc.admitted, Pc.cleaning]
  | handshake => simp [Live, (ht.greeting hpc).2.2.2, Pc.admitted]
  | running => simp [Live, (ht.running hpc).2.2.2.2, Pc.admitted]
  | closing => simp [Live, (ht.closing hpc).2.2.2, Pc.cleaning]
  | removing => simp [Live, (ht.removing hpc).2.2, Pc.cleaning]
  | finished => simp [Live, (ht.finished hpc).2.2, Pc.admitted, Pc.cleaning]
  | panicked p =>
    rw [AtPc, hpc] at ht
    exact ht.elim

/-- A receiver is dropped by the step in which its task stops to listen. -/
theorem Moves.receivers (h : Moves fb sh t e (sh', t')) (hl : t.pc.listening → 0 < sh.sendToAll.receivers) :
    sh'.sendToAll.receivers + t.pc.listening.toNat = sh.sendToAll.receivers + t'.pc.listening.toNat := by
  have hdrop (hlistening : t.pc.listening = true) :
      sh.sendToAll.receivers - 1 + t.pc.listening.toNat = sh.sendToAll.receivers + 0 := by
    have := hl hlistening
    rw [hlistening, Bool.toNat_true]
    omega
  cases h with
  | refused pc full => exact hdrop (by rw [pc]; rfl)
  | readEnded handler item error pc hread => exact hdrop (by rw [pc]; rfl)
  | rejected disabled start next next' msg error queue pc receiver took skipped refused herror =>
    exact hdrop (by rw [pc]; rfl)
  | stuck disabled start p pc queueArm => exact hdrop (by rw [pc]; rfl)
  | sendFailed write why pc reason => exact hdrop (by rw [pc]; rfl)
  | queued => rfl
  | admitted old manager pc inserted => rw [pc]; rfl
  | handshakeSent message ok pc => rw [pc]; rfl
  | handled disabled start next next' msg queue pc => rw [pc]; rfl
  | replying disabled start next next' msg toSend queue pc => rw [pc]; rfl
  | sendingToAll disabled start next msgBytes pc => rw [pc]; rfl
  | waiting disabled disabled' start next next' pc => rw [pc]; rfl
  | delivered write pc => rw [pc]; rfl
  | writerClosed unflushed flushed pc => rw [pc]; rfl
  | flushed write pc => rw [pc]; rfl
  | removed pc => rw [pc]; rfl

end Task

end Connection

namespace Node
variable {SocketAddr : Type}

def Conn.listening : Conn SocketAddr → Bool
  | .connecting _ _ => true
  | .ended => false
  | .started t => t.pc.listening

def listeners (s : Node SocketAddr) : Nat := s.conns.countP Conn.listening

def Conn.cleaning : Conn SocketAddr → Bool
  | .started t => t.pc.cleaning
  | _ => false

/-- The event ends the select of an admitted connection. -/
def endsSelect (fb : Flexbuffers) (s : Node SocketAddr) : NodeEvent SocketAddr → Bool
  | .task i e =>
    match s.conns[i]? with
    | some (.started t) => t.endsSelect fb s.shared e
    | _ => false
  | _ => false

/-- A tick that finds the table nonempty comes while no admitted connection is between the
end of its select and its remove, and none ends its select before the heartbeat is sent. -/
def KeepsApart (fb : Flexbuffers) (s : Node SocketAddr) (e : NodeEvent SocketAddr) : Prop :=
  (e = .tick → s.shared.manager.numConnections = 0 ∨ ∀ c ∈ s.conns, c.cleaning = false) ∧
  (s.heartbeat.pc = .sending → s.endsSelect fb e = false)

instance [DecidableEq SocketAddr] (fb : Flexbuffers) (s : Node SocketAddr) (e : NodeEvent SocketAddr) :
    Decidable (KeepsApart fb s e) := inferInstanceAs (Decidable (_ ∧ _))

/-- Some admitted connection has not ended its select. -/
def Heard (s : Node SocketAddr) : Prop := ∃ i t, s.TaskAt i t ∧ t.pc.admitted

theorem countP_set_listening {conns : List (Conn SocketAddr)} {i : Nat} {old c : Conn SocketAddr}
    (hi : conns[i]? = some old) :
    (conns.set i c).countP Conn.listening + old.listening.toNat =
      conns.countP Conn.listening + c.listening.toNat := by
  obtain ⟨hlt, rfl⟩ := List.getElem?_eq_some_iff.mp hi
  have hold : conns[i].listening.toNat ≤ conns.countP Conn.listening := by
    cases hlistening : conns[i].listening with
    | false => exact Nat.zero_le _
    | true => exact List.countP_pos_iff.mpr ⟨_, List.getElem_mem hlt, hlistening⟩
  have hite (b : Bool) : (if b = true then 1 else 0) = b.toNat := by cases b <;> rfl
  rw [List.countP_set hlt, hite, hite]
  omega

theorem listeners_pos {i : Nat} {c : Conn SocketAddr} {s : Node SocketAddr} (hi : s.conns[i]? = some c)
    (hc : c.listening) : 0 < s.listeners :=
  List.countP_pos_iff.mpr ⟨c, List.mem_of_getElem? hi, hc⟩

variable [DecidableEq SocketAddr] {fb : Flexbuffers} {s s' : Node SocketAddr} {e : NodeEvent SocketAddr}

/-- The channel has a receiver for each connection that listens. -/
theorem Moves.receivers (h : Moves fb s e s') (hs : s.shared.sendToAll.receivers = s.listeners) :
    s'.shared.sendToAll.receivers = s'.listeners := by
  cases h with
  | task i e t next conn stepped =>
    have htask := (Connection.Task.step_moves stepped).receivers fun hl => hs ▸ listeners_pos conn hl
    have hset := countP_set_listening (c := .started next.2) conn
    simp only [Conn.listening] at hset
    simp only [listeners] at hs ⊢
    omega
  | subscribed e pc notifier conn fresh =>
    have hconn : conn.listening = true := by cases fresh <;> rfl
    simp [Shared.subscribe, Broadcast.subscribe, listeners, hconn, hs]
  | started i receiver maxPendingMessages peer addr stream resolved conn =>
    have hset := countP_set_listening (c := .started (.spawn addr (.empty maxPendingMessages) receiver)) conn
    simp only [Conn.listening, Connection.Task.spawn, Pc.listening] at hset
    simp only [listeners, Connection.Task.spawn] at hs ⊢
    omega
  | ended i receiver peer stream resolved conn =>
    have hset := countP_set_listening (c := .ended) conn
    simp only [Conn.listening, Bool.toNat_true, Bool.toNat_false] at hset
    simp only [listeners, endConn, Broadcast.dropReceiver] at hs ⊢
    omega
  | _ => exact hs

theorem step_heard (hs : Composed fb s) (hheard : s.Heard) (hkeeps : s.endsSelect fb e = false)
    (h : step fb s e = some s') : s'.Heard := by
  obtain ⟨i, t, ht, hopen⟩ := hheard
  rcases (step_moves h).taskAt ht with ⟨te, next, rfl, hstepped, hnext, -⟩ | ht'
  · simp only [endsSelect, ht] at hkeeps
    refine ⟨i, next.2, hnext, ?_⟩
    rw [Connection.Task.step_admitted (hs.atPc ht) hstepped hopen, hkeeps]
    rfl
  · exact ⟨i, t, ht', hopen⟩

section
variable [ToString SocketAddr] {config : Config} {platform : Platform SocketAddr} {now : SystemTime}
  {s₀ : Node SocketAddr} {es : List (NodeEvent SocketAddr)}

/-- The channel has as many receivers as there are connections that listen. -/
theorem run_receivers (h₀ : main fb config platform now = .ok s₀) (h : Machine.run (step fb) s₀ es = some s) :
    s.shared.sendToAll.receivers = s.listeners := by
  obtain ⟨hconns, -, -, -, hreceivers⟩ := main_ok h₀
  refine Machine.run_invariant (P := fun u => u.shared.sendToAll.receivers = u.listeners)
    (fun hu hstep => (step_moves hstep).receivers hu) ?_ h
  rw [hreceivers, listeners, hconns]
  rfl

/-- The send of the heartbeat task panics exactly when no connection listens. -/
theorem run_send_panics (h₀ : main fb config platform now = .ok s₀) (h : Machine.run (step fb) s₀ es = some s)
    (hsend : step fb s .send = some s') : (∃ p, s'.heartbeat.pc = .panicked p) ↔ s.listeners = 0 := by
  rw [← run_receivers h₀ h, step_send hsend, send, Broadcast.send]
  by_cases hreceivers : s.shared.sendToAll.receivers = 0 <;> simp [hreceivers]

theorem run_heard_pos (h₀ : main fb config platform now = .ok s₀) (h : Machine.run (step fb) s₀ es = some s)
    (hheard : s.Heard) : 0 < s.shared.sendToAll.receivers := by
  obtain ⟨i, t, ht, hopen⟩ := hheard
  rw [run_receivers h₀ h]
  exact listeners_pos ht (Pc.listening_of_admitted hopen)

/-- An entry in the table is that of a connection that has not ended its select, unless one
is between that and its remove. -/
theorem run_entry_heard (h₀ : main fb config platform now = .ok s₀) (h : Machine.run (step fb) s₀ es = some s)
    (hconnections : 0 < s.shared.manager.numConnections) (hclean : ∀ c ∈ s.conns, c.cleaning = false) : s.Heard := by
  obtain ⟨addr, haddr⟩ := Finset.card_pos.mp hconnections
  obtain ⟨i, t, ht, hlive, -⟩ := run_vouched h₀ h haddr
  have hatPc := (run_composed h (main_composed h₀)).atPc ht
  rcases hatPc.live_iff.mp hlive with hopen | hcleaning
  · exact ⟨i, t, ht, hopen⟩
  · rw [← Conn.cleaning, hclean _ (List.mem_of_getElem? ht)] at hcleaning
    cases hcleaning

/-- Between its look at the table and its send, the heartbeat task keeps a connection that
has not ended its select, and so it never panics. -/
theorem run_keepsApart (h₀ : main fb config platform now = .ok s₀)
    (hkeeps : Machine.Guarded (step fb) (KeepsApart fb) s₀ es) (h : Machine.run (step fb) s₀ es = some s) :
    (s.heartbeat.pc = .sending → s.Heard) ∧ ∀ p, s.heartbeat.pc ≠ .panicked p := by
  obtain ⟨-, hwaiting, -⟩ := main_ok h₀
  refine (Machine.Guarded.invariant (P := fun u => Machine.Reaches (step fb) s₀ u ∧
    (u.heartbeat.pc = .sending → u.Heard) ∧ ∀ p, u.heartbeat.pc ≠ .panicked p) ?_
    ⟨.refl s₀, by simp [hwaiting], by simp [hwaiting]⟩ hkeeps h).2
  rintro u e v ⟨hreach, hheard, halive⟩ hapart hstep
  obtain ⟨fs, hfs⟩ := hreach
  have hmoves := step_moves hstep
  refine ⟨.trans ⟨fs, hfs⟩ (.single hstep), fun hsending => ?_, fun p hp => ?_⟩
  · rcases (hmoves.sending hsending).1 with hpc | ⟨htick, hconnections, hconns⟩
    · exact step_heard (run_composed hfs (main_composed h₀)) (hheard hpc) (hapart.2 hpc) hstep
    · obtain ⟨i, t, ht, hopen⟩ :=
        run_entry_heard h₀ hfs hconnections ((hapart.1 htick).resolve_left hconnections.ne')
      exact ⟨i, t, by rwa [TaskAt, hconns], hopen⟩
  · cases hmoves with
    | quitting p pc receivers => exact absurd receivers (run_heard_pos h₀ hfs (hheard pc)).ne'
    | sent | ticked => cases hp
    | _ => exact halive p hp

/-- While ends of selects and ticks keep apart, the heartbeat task that has found a
connection in the table finds a live one that has its receiver when it sends, and it never
dies. -/
theorem run_heartbeat (h₀ : main fb config platform now = .ok s₀)
    (hkeeps : Machine.Guarded (step fb) (KeepsApart fb) s₀ es) (h : Machine.run (step fb) s₀ es = some s) :
    (s.heartbeat.pc = .sending →
      (∃ i t, s.TaskAt i t ∧ t.Live ∧ t.receiver.isSome) ∧ 0 < s.shared.sendToAll.receivers) ∧
    ∀ p, s.heartbeat.pc ≠ .panicked p := by
  obtain ⟨hheard, halive⟩ := run_keepsApart h₀ hkeeps h
  refine ⟨fun hpc => ⟨?_, run_heard_pos h₀ h (hheard hpc)⟩, halive⟩
  obtain ⟨i, t, ht, hopen⟩ := hheard hpc
  have hatPc := (run_composed h (main_composed h₀)).atPc ht
  exact ⟨i, t, ht, hatPc.live_iff.mpr (.inl hopen), hatPc.isSome_receiver hopen⟩

/-- A connection is closed by its peer, and the heartbeat is due before its entry is removed. -/
def tickWhileClosing : List (NodeEvent SocketAddrV4) :=
  connects ++ register 0 hostA ++ [.connected 1 (.error "refused") (.ok []), .connected 2 (.error "refused") (.ok []),
    .task 0 (.sent true), .task 0 (.read none), .tick, .send]

theorem heartbeat_dies :
    ¬ ∀ (config : Config) (platform : Platform SocketAddrV4) (now : SystemTime) (s₀ s : Node SocketAddrV4)
      (es : List (NodeEvent SocketAddrV4)), main Codec.flexbuffers config platform now = .ok s₀ →
      Machine.run (step Codec.flexbuffers) s₀ es = some s →
      (s.heartbeat.pc = .sending → 0 < s.shared.sendToAll.receivers) ∧ ∀ p, s.heartbeat.pc ≠ .panicked p := by
  intro hall
  obtain ⟨s₀, s, h₀, h, hpc⟩ : ∃ s₀ s, main Codec.flexbuffers threeSeeds platformA .unixEpoch = .ok s₀ ∧
      Machine.run (step Codec.flexbuffers) s₀ tickWhileClosing = some s ∧
      s.heartbeat.pc = .panicked ⟨"Error sending heartbeat. Quitting."⟩ :=
    exists_run _ (fun _ s => s.heartbeat.pc = .panicked ⟨"Error sending heartbeat. Quitting."⟩) (by decide)
  exact (hall _ _ _ _ _ _ h₀ h).2 _ hpc

/-- The peer closes the connection, and the next tick comes after the cleanup. -/
def tickAfterClosing : List (NodeEvent SocketAddrV4) :=
  connects ++ register 0 hostA ++ [.tick, .send] ++ closeByPeer 0 ++ [.tick]

theorem heartbeat_tickAfterClosing :
    ∃ s₀ s, main Codec.flexbuffers threeSeeds platformA .unixEpoch = .ok s₀ ∧
      Machine.run (step Codec.flexbuffers) s₀ tickAfterClosing = some s ∧ ∀ p, s.heartbeat.pc ≠ .panicked p := by
  obtain ⟨s₀, s, h₀, h, hkeeps⟩ : ∃ s₀ s, main Codec.flexbuffers threeSeeds platformA .unixEpoch = .ok s₀ ∧
      Machine.run (step Codec.flexbuffers) s₀ tickAfterClosing = some s ∧
      Machine.Guarded (step Codec.flexbuffers) (KeepsApart Codec.flexbuffers) s₀ tickAfterClosing :=
    exists_run _ (fun s₀ _ => Machine.Guarded (step Codec.flexbuffers) (KeepsApart Codec.flexbuffers) s₀
      tickAfterClosing) (by decide)
  exact ⟨s₀, s, h₀, h, (run_heartbeat h₀ hkeeps h).2⟩

omit [ToString SocketAddr] in
theorem Composed.position (hs : Composed fb s) {i : Nat} {t : Connection.Task SocketAddr} (ht : s.TaskAt i t) {next : Nat}
    (hnext : t.receiver = some next) : next ≤ s.shared.sendToAll.sent.length := by
  obtain ⟨sh, addr, maxPendingMessages, since, hsince, es, hes⟩ := hs.started i t ht
  have hdelivers : t.Delivers fb Set.univ since s.shared.sendToAll :=
    Endpoint.run_delivers hes hsince trivial fun _ => trivial
  exact (hdelivers.position next hnext).2

/-- While inserts are fresh, every live connection has its entry, and so a tick makes the
heartbeat task send. While ticks keep apart from ends of selects as well, the task is there
to do so: it waits for a tick, or its send broadcasts its message, which is ahead of the
receiver of the connection. -/
theorem run_registered (h₀ : main fb config platform now = .ok s₀)
    (hfresh : Machine.Guarded (step fb) FreshInsert s₀ es) (h : Machine.run (step fb) s₀ es = some s) {i : Nat}
    {t : Connection.Task SocketAddr} (ht : s.TaskAt i t) (hlive : t.Live) :
    t.addr ∈ s.shared.manager.addresses ∧
    (∀ s', step fb s .tick = some s' → s'.heartbeat.pc = .sending) ∧
    (Machine.Guarded (step fb) (KeepsApart fb) s₀ es → ¬ s.Over →
      (∃ s', step fb s .tick = some s' ∧ s'.heartbeat.pc = .sending) ∨
      ∃ s', step fb s .send = some s' ∧
        s'.shared.sendToAll.sent = s.shared.sendToAll.sent ++ [s.heartbeat.message] ∧
        ∀ next ∈ t.receiver, next ≤ s.shared.sendToAll.sent.length) := by
  have hentry := run_entered h₀ hfresh h ht hlive
  have htick : s.tick.heartbeat.pc = .sending := by
    have hconnected : 0 < s.shared.manager.numConnections := Finset.card_pos.mpr ⟨_, hentry⟩
    rw [tick, if_pos hconnected]
  refine ⟨hentry, fun s' hstep => ?_, fun hkeeps hover => ?_⟩
  · rwa [step_tick hstep]
  · obtain ⟨hheard, halive⟩ := run_keepsApart h₀ hkeeps h
    cases hpc : s.heartbeat.pc with
    | waiting => exact .inl ⟨s.tick, by rw [step_tick_eq fb s hover, if_pos hpc], htick⟩
    | sending =>
      have hreceivers := run_heard_pos h₀ h (hheard hpc)
      refine .inr ⟨s.send, by rw [step_send_eq fb s hover, if_pos hpc], ?_, fun next hnext => ?_⟩
      · rw [send, Broadcast.send, if_neg hreceivers.ne']
      · exact (run_composed h (main_composed h₀)).position ht hnext
    | panicked p => exact absurd hpc (halive p)

/-- The first connection to close takes away the entry of the second. -/
theorem live_unregistered :
    ¬ ∀ (config : Config) (platform : Platform SocketAddrV4) (now : SystemTime) (s₀ s : Node SocketAddrV4)
      (es : List (NodeEvent SocketAddrV4)) (i : Nat) (t : Connection.Task SocketAddrV4),
      main Codec.flexbuffers config platform now = .ok s₀ → Machine.run (step Codec.flexbuffers) s₀ es = some s →
      s.TaskAt i t → t.Live → t.addr ∈ s.shared.manager.addresses := by
  intro hall
  obtain ⟨s₀, s, h₀, h, hlive, hnone⟩ : ∃ s₀ s, main Codec.flexbuffers threeSeeds platformA .unixEpoch = .ok s₀ ∧
      Machine.run (step Codec.flexbuffers) s₀
        (connects ++ register 0 hostA ++ register 1 hostA ++ closeByPeer 0) = some s ∧
      (1, hostA) ∈ liveConns s.conns ∧ hostA ∉ s.shared.manager.addresses :=
    exists_run _ (fun _ s => (1, hostA) ∈ liveConns s.conns ∧ hostA ∉ s.shared.manager.addresses) (by decide)
  obtain ⟨c, hc, hclive⟩ := mem_liveConns.mp hlive
  obtain ⟨t, rfl, ht, haddr⟩ := Conn.live_eq_some.mp hclive
  exact hnone (haddr ▸ hall _ _ _ _ _ _ 1 t h₀ h hc ht)

theorem registered_reconnect :
    ∃ s₀ s t, main Codec.flexbuffers threeSeeds platformA .unixEpoch = .ok s₀ ∧
      Machine.run (step Codec.flexbuffers) s₀ reconnect = some s ∧ s.TaskAt 1 t ∧
      t.addr ∈ s.shared.manager.addresses ∧
      ∃ s', step Codec.flexbuffers s .tick = some s' ∧ s'.heartbeat.pc = .sending := by
  obtain ⟨s₀, s, h₀, h, hfresh, hkeeps, hlive, hpc, hwaiting⟩ :
      ∃ s₀ s, main Codec.flexbuffers threeSeeds platformA .unixEpoch = .ok s₀ ∧
      Machine.run (step Codec.flexbuffers) s₀ reconnect = some s ∧
      Machine.Guarded (step Codec.flexbuffers) FreshInsert s₀ reconnect ∧
      Machine.Guarded (step Codec.flexbuffers) (KeepsApart Codec.flexbuffers) s₀ reconnect ∧
      (1, hostA) ∈ liveConns s.conns ∧ s.pc = .connecting [] ∧ s.heartbeat.pc = .waiting :=
    exists_run _ (fun s₀ s => Machine.Guarded (step Codec.flexbuffers) FreshInsert s₀ reconnect ∧
      Machine.Guarded (step Codec.flexbuffers) (KeepsApart Codec.flexbuffers) s₀ reconnect ∧
      (1, hostA) ∈ liveConns s.conns ∧ s.pc = .connecting [] ∧ s.heartbeat.pc = .waiting) (by decide)
  obtain ⟨c, hc, hclive⟩ := mem_liveConns.mp hlive
  obtain ⟨t, rfl, ht, -⟩ := Conn.live_eq_some.mp hclive
  have hover : ¬ s.Over := by simp [Over, hpc]
  obtain ⟨hentry, -, hsends⟩ := run_registered h₀ hfresh h hc ht
  refine ⟨s₀, s, t, h₀, h, hc, hentry, (hsends hkeeps hover).resolve_right ?_⟩
  rintro ⟨s', hsend, -⟩
  rw [step_send_eq _ s hover, if_neg (by simp [hwaiting])] at hsend
  cases hsend

end

end Node

end Braidpool
