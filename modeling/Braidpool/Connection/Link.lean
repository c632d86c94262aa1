import Braidpool.Connection.Delivery

/-! Two tasks of `start` that are the two ends of one stream. Both greet, both answer,
and both broadcast heartbeats at any time; frames arrive in the order they were written. -/
namespace Braidpool.Connection
open Braidpool.Runtime Braidpool.Protocol

def olehBytes (fb : Flexbuffers) : Bytes :=
  fb.takeBuffer ⟨"Handshake", [("message", .string "oleh"), ("version", .string "0.1.0")]⟩

def IsHeartbeat (fb : Flexbuffers) (msg : Bytes) : Prop :=
  ∃ m : HeartbeatMessage, (Message.heartbeat m).asBytes fb = .ok (some msg)

/-- The frames that two nodes of this program exchange. -/
def Known (fb : Flexbuffers) (msg : Bytes) : Prop :=
  msg = heloBytes fb ∨ msg = olehBytes fb ∨ IsHeartbeat fb msg

/-- Decoding undoes encoding on these frames. -/
structure Decodes (fb : Flexbuffers) : Prop where
  helo : Message.fromBytes fb (heloBytes fb) = .ok (.handshake ⟨"helo", "0.1.0"⟩)
  oleh : Message.fromBytes fb (olehBytes fb) = .ok (.handshake ⟨"oleh", "0.1.0"⟩)
  heartbeat : ∀ (m : HeartbeatMessage) (msg : Bytes), (Message.heartbeat m).asBytes fb = .ok (some msg) →
    Message.fromBytes fb msg = .ok (.heartbeat m)

theorem decodes_of_roundTrip {fb : Flexbuffers} (h : fb.RoundTrip) : Decodes fb where
  helo := h (.handshake ⟨"helo", "0.1.0"⟩) _ rfl
  oleh := h (.handshake ⟨"oleh", "0.1.0"⟩) _ rfl
  heartbeat _ _ hbytes := h.fromBytes_asBytes hbytes

namespace Decodes
variable {fb : Flexbuffers} {msg : Bytes}

theorem replyTo_helo (hd : Decodes fb) : replyTo fb (heloBytes fb) = some (olehBytes fb) := by
  simp only [replyTo, hd.helo]
  rfl

theorem replyTo_oleh (hd : Decodes fb) : replyTo fb (olehBytes fb) = none := by
  simp only [replyTo, hd.oleh]
  rfl

theorem replyTo_heartbeat (hd : Decodes fb) (h : IsHeartbeat fb msg) : replyTo fb msg = none := by
  obtain ⟨m, hm⟩ := h
  simp only [replyTo, hd.heartbeat m msg hm]
  rfl

theorem accepted (hd : Decodes fb) (h : Known fb msg) : Accepted fb msg := by
  rcases h with rfl | rfl | ⟨m, hm⟩
  · exact ⟨_, _, hd.helo, rfl⟩
  · exact ⟨_, _, hd.oleh, rfl⟩
  · exact ⟨_, _, hd.heartbeat m msg hm, rfl⟩

theorem oleh_ne_helo (hd : Decodes fb) : olehBytes fb ≠ heloBytes fb := by
  intro h
  have hhelo := hd.helo
  rw [← h, hd.oleh] at hhelo
  exact absurd hhelo (by decide)

theorem heartbeat_ne_helo (hd : Decodes fb) (h : IsHeartbeat fb msg) : msg ≠ heloBytes fb := by
  obtain ⟨m, hm⟩ := h
  rintro rfl
  have hdecode := hd.heartbeat m _ hm
  rw [hd.helo] at hdecode
  cases hdecode

theorem heartbeat_ne_oleh (hd : Decodes fb) (h : IsHeartbeat fb msg) : msg ≠ olehBytes fb := by
  obtain ⟨m, hm⟩ := h
  rintro rfl
  have hdecode := hd.heartbeat m _ hm
  rw [hd.oleh] at hdecode
  cases hdecode

/-- Among known frames only a helo is answered, with an oleh. -/
theorem replies_eq (hd : Decodes fb) {handled : List Bytes} (hknown : ∀ msg ∈ handled, Known fb msg) :
    handled.filterMap (replyTo fb) = List.replicate (handled.count (heloBytes fb)) (olehBytes fb) := by
  induction handled with
  | nil => rfl
  | cons msg rest ih =>
    have hrest := ih fun m hm => hknown m (List.mem_cons_of_mem _ hm)
    rcases hknown msg List.mem_cons_self with rfl | rfl | h
    · rw [List.filterMap_cons_some hd.replyTo_helo, List.count_cons_self, List.replicate_succ, hrest]
    · rw [List.filterMap_cons_none hd.replyTo_oleh, List.count_cons_of_ne hd.oleh_ne_helo, hrest]
    · rw [List.filterMap_cons_none (hd.replyTo_heartbeat h), List.count_cons_of_ne (hd.heartbeat_ne_helo h), hrest]

/-- What an end has written, if it has handled known frames and broadcast heartbeats:
at most one helo, an oleh for each helo, and nothing unknown. -/
theorem spoken (hd : Decodes fb) {handled written heard : List Bytes} {unflushed : Option Write}
    (h : Spoken fb {[], [heloBytes fb]} handled written heard unflushed)
    (hknown : ∀ msg ∈ handled, Known fb msg) (hheard : ∀ msg ∈ heard, IsHeartbeat fb msg) :
    written.count (heloBytes fb) ≤ 1 ∧ written.count (olehBytes fb) = handled.count (heloBytes fb) ∧
      ∀ msg ∈ written, Known fb msg := by
  obtain ⟨greeting, hgreeting, rest, bcasts, rfl, hrest, hbcasts⟩ := h
  have hheartbeats : ∀ msg ∈ bcasts, IsHeartbeat fb msg := fun msg hmsg =>
    hheard msg (hbcasts.mem (List.mem_append_left _ hmsg))
  have hperm := hrest.perm
  rw [hd.replies_eq hknown] at hperm
  have hhelo : bcasts.count (heloBytes fb) = 0 :=
    List.count_eq_zero.mpr fun hmem => hd.heartbeat_ne_helo (hheartbeats _ hmem) rfl
  have holeh : bcasts.count (olehBytes fb) = 0 :=
    List.count_eq_zero.mpr fun hmem => hd.heartbeat_ne_oleh (hheartbeats _ hmem) rfl
  have hmem : ∀ msg ∈ rest, Known fb msg := by
    intro msg hmsg
    rcases List.mem_append.mp (hperm.mem_iff.mp hmsg) with h | h
    · exact .inr (.inl (List.eq_of_mem_replicate h))
    · exact .inr (.inr (hheartbeats msg h))
  have hresthelo : rest.count (heloBytes fb) = 0 := by
    rw [hperm.count_eq, List.count_append, hhelo, List.count_replicate, if_neg (by simpa using hd.oleh_ne_helo)]
  have hrestoleh : rest.count (olehBytes fb) = handled.count (heloBytes fb) := by
    rw [hperm.count_eq, List.count_append, holeh, List.count_replicate_self, Nat.add_zero]
  rcases hgreeting with rfl | rfl
  · exact ⟨by simp [hresthelo], by simpa using hrestoleh, by simpa using hmem⟩
  · refine ⟨by simp [hresthelo], ?_, ?_⟩
    · rw [List.count_append, List.count_singleton, hrestoleh, if_neg (by simpa using hd.oleh_ne_helo.symm), Nat.zero_add]
    · simpa [Known] using hmem

end Decodes

namespace EndpointEvent
variable {SocketAddr : Type}

/-- The frames that an event reads. -/
def frames : EndpointEvent SocketAddr → List Bytes
  | .task e => e.frames
  | _ => []

end EndpointEvent

namespace Endpoint
variable {SocketAddr : Type} [DecidableEq SocketAddr] {fb : Flexbuffers} {s s' : Endpoint SocketAddr}
  {e : EndpointEvent SocketAddr}

theorem Moves.read_frames (h : Moves fb s e s') : s'.task.read = s.task.read ++ e.frames := by
  cases h with
  | task e next moves => exact moves.read_frames
  | _ => exact (List.append_nil _).symm

theorem Moves.written_prefix (h : Moves fb s e s') : s.task.written <+: s'.task.written := by
  cases h with
  | task e next moves => exact moves.written_prefix
  | _ => exact List.prefix_rfl

theorem Moves.cause (h : Moves fb s e s') (hs : s.task.AtPc fb) (hc : ∀ why ∈ s.task.ended, s.task.Cause fb why) :
    ∀ why ∈ s'.task.ended, s'.task.Cause fb why := by
  cases h with
  | task e next moves => exact moves.cause hs hc
  | _ => exact hc

/-- An end that broadcasts heartbeats only, from its subscription on. -/
structure Talks (fb : Flexbuffers) (since : Nat) (s : Endpoint SocketAddr) : Prop where
  atPc : s.task.AtPc fb
  delivers : s.task.Delivers fb {[], [heloBytes fb]} since s.shared.sendToAll
  cause : ∀ why ∈ s.task.ended, s.task.Cause fb why
  heartbeats : ∀ msg ∈ s.shared.sendToAll.sent.drop since, IsHeartbeat fb msg

theorem Moves.heartbeats {since : Nat} (h : Moves fb s e s')
    (he : ∀ msgBytes, e = .sendToAll msgBytes → IsHeartbeat fb msgBytes)
    (hs : ∀ msg ∈ s.shared.sendToAll.sent.drop since, IsHeartbeat fb msg) :
    ∀ msg ∈ s'.shared.sendToAll.sent.drop since, IsHeartbeat fb msg := by
  cases h with
  | task e next moves =>
    have hsent : next.1.sendToAll.sent = s.shared.sendToAll.sent := by cases moves <;> rfl
    rwa [hsent]
  | sendToAll msgBytes senders =>
    intro msg hmsg
    rw [List.drop_append] at hmsg
    rcases List.mem_append.mp hmsg with h | h
    · exact hs msg h
    · obtain rfl := List.mem_singleton.mp (List.mem_of_mem_drop h)
      exact he msg rfl
  | others => exact hs

theorem Moves.talks {since : Nat} (h : Moves fb s e s')
    (he : ∀ msgBytes, e = .sendToAll msgBytes → IsHeartbeat fb msgBytes) (hs : Talks fb since s) : Talks fb since s' :=
  ⟨(h.atPc hs.atPc).1, h.delivers hs.atPc (.inr rfl) (fun _ => .inl rfl) hs.delivers, h.cause hs.atPc hs.cause,
    h.heartbeats he hs.heartbeats⟩

omit [DecidableEq SocketAddr] in
/-- What an end that has handled known frames has written. -/
theorem Talks.written {since : Nat} (hs : Talks fb since s) (hd : Decodes fb)
    (hknown : ∀ msg ∈ s.task.handled, Known fb msg) :
    s.task.written.count (heloBytes fb) ≤ 1 ∧
      s.task.written.count (olehBytes fb) = s.task.handled.count (heloBytes fb) ∧
      ∀ msg ∈ s.task.written, Known fb msg := by
  by_cases hgreeted : s.task.pc.Greeted
  · refine hd.spoken (hs.delivers.spoken hgreeted) hknown fun msg hmsg => hs.heartbeats msg ?_
    exact (Broadcast.passed_sublist_sent _ _ _).mem hmsg
  · have hidle := hs.atPc.idle hgreeted
    simp [hidle.written, hidle.handled]

omit [DecidableEq SocketAddr] in
/-- The frames that are handled have been read. -/
theorem Talks.mem_read {since : Nat} (hs : Talks fb since s) {msg : Bytes}
    (hmsg : msg ∈ s.task.handled ++ s.task.handling.toList ++ s.task.queue.buffer) : msg ∈ s.task.read := by
  rw [hs.delivers.read]
  exact List.mem_append_left _ hmsg

theorem start_talks (sh : Shared SocketAddr) (addr : SocketAddr) (maxPendingMessages : Nat) :
    Talks fb sh.sendToAll.sent.length (start sh addr maxPendingMessages sh.sendToAll.sent.length) where
  atPc := Task.spawn_atPc addr maxPendingMessages _
  delivers := run_delivers (Machine.run_nil _) (Nat.le_refl _) (.inr rfl) (fun h => (by cases h))
  cause _ h := by cases h
  heartbeats msg h := by simp [start] at h

end Endpoint

/-- The two ends of a stream, and for each the frames that are on their way to it. -/
structure Link (SocketAddr : Type) where
  ends : Bool → Endpoint SocketAddr
  wire : Bool → List Bytes

inductive LinkEvent (SocketAddr : Type) where
  | task (e : TaskEvent)
  | heartbeat (m : HeartbeatMessage)
  | others (manager : ConnectionManager SocketAddr) (senders receivers : Nat) (notifier : Notify) (now : SystemTime)

namespace Link
variable {SocketAddr : Type}

/-- Both tasks are spawned, each with a receiver of its own node's broadcasts. -/
def start (sh : Bool → Shared SocketAddr) (addr : Bool → SocketAddr) (maxPendingMessages : Bool → Nat) :
    Link SocketAddr :=
  ⟨fun i => .start (sh i) (addr i) (maxPendingMessages i) (sh i).sendToAll.sent.length, fun _ => []⟩

def event (fb : Flexbuffers) : LinkEvent SocketAddr → Option (EndpointEvent SocketAddr)
  | .task e => some (.task e)
  | .heartbeat m =>
    match (Message.heartbeat m).asBytes fb with
    | .ok (some msgBytes) => some (.sendToAll msgBytes)
    | _ => none
  | .others manager senders receivers notifier now => some (.others manager senders receivers notifier now)

/-- An end reads the frame that is first on its wire, and what it writes is last on
the other one. The stream may end or fail at any time. -/
def step [DecidableEq SocketAddr] (fb : Flexbuffers) (s : Link SocketAddr) (e : Bool × LinkEvent SocketAddr) :
    Option (Link SocketAddr) :=
  match event fb e.2 with
  | none => none
  | some event =>
    if event.frames <+: s.wire e.1 then
      ((s.ends e.1).step fb event).map fun next =>
        { ends := Function.update s.ends e.1 next
          wire := fun i =>
            if i = e.1 then (s.wire i).drop event.frames.length
            else s.wire i ++ next.task.written.drop (s.ends e.1).task.written.length }
    else none

/-- Both ends talk, what one has written the other has read or will, and all of it
is known. -/
structure Connected (fb : Flexbuffers) (since : Bool → Nat) (s : Link SocketAddr) : Prop where
  talks : ∀ i, (s.ends i).Talks fb (since i)
  wires : ∀ i, (s.ends !i).task.written = (s.ends i).task.read ++ s.wire i
  known : ∀ i, ∀ msg ∈ (s.ends i).task.written, Known fb msg

section
variable [DecidableEq SocketAddr] {fb : Flexbuffers} {since : Bool → Nat} {s s' : Link SocketAddr}

/-- A step moves one end as the endpoint moves, over the wires. -/
theorem step_moves {j : Bool} {e : LinkEvent SocketAddr} (h : step fb s (j, e) = some s') :
    ∃ event, (s.ends j).Moves fb event (s'.ends j) ∧ s'.ends (!j) = s.ends (!j) ∧
      (∀ msgBytes, event = .sendToAll msgBytes → IsHeartbeat fb msgBytes) ∧ s.wire j = event.frames ++ s'.wire j ∧
      s'.wire (!j) = s.wire (!j) ++ (s'.ends j).task.written.drop (s.ends j).task.written.length := by
  have hne : (!j) ≠ j := by cases j <;> decide
  unfold step at h
  split at h
  · cases h
  · rename_i event hevent
    split at h
    · rename_i hframes
      obtain ⟨rest, hrest⟩ := hframes
      obtain ⟨next, hnext, rfl⟩ := Option.map_eq_some_iff.mp h
      refine ⟨event, ?_, Function.update_of_ne hne _ _, ?_, ?_, ?_⟩
      · simpa using Endpoint.step_moves hnext
      · rintro msgBytes rfl
        cases e with
        | task e => cases hevent
        | heartbeat m =>
          simp only [Link.event] at hevent
          split at hevent
          · rename_i hbytes
            obtain rfl := EndpointEvent.sendToAll.inj (Option.some.inj hevent)
            exact ⟨m, hbytes⟩
          · cases hevent
        | others => cases hevent
      · simp [← hrest]
      · simp [hne]
    · cases h

theorem eq_or_eq_not (i j : Bool) : i = j ∨ i = !j := by
  cases i <;> cases j <;> decide

theorem step_connected {e : Bool × LinkEvent SocketAddr} (hd : Decodes fb) (hs : Connected fb since s)
    (h : step fb s e = some s') : Connected fb since s' := by
  obtain ⟨j, e⟩ := e
  obtain ⟨event, hmoves, hother, hheartbeat, hincoming, houtgoing⟩ := step_moves h
  have htalks : (s'.ends j).Talks fb (since j) := hmoves.talks hheartbeat (hs.talks j)
  have hwire : (s'.ends !j).task.written = (s'.ends j).task.read ++ s'.wire j := by
    rw [hother, hs.wires j, hmoves.read_frames, hincoming, List.append_assoc]
  refine ⟨fun i => ?_, fun i => ?_, fun i => ?_⟩
  · rcases eq_or_eq_not i j with rfl | rfl
    · exact htalks
    · rw [hother]
      exact hs.talks !j
  · rcases eq_or_eq_not i j with rfl | rfl
    · exact hwire
    · obtain ⟨more, hmore⟩ := hmoves.written_prefix
      rw [hother, houtgoing, ← List.append_assoc, ← hs.wires, Bool.not_not, ← hmore, List.drop_left]
  · rcases eq_or_eq_not i j with rfl | rfl
    · refine (htalks.written hd fun msg hmsg => hs.known (!i) msg ?_).2.2
      rw [← hother, hwire]
      exact List.mem_append_left _ (htalks.mem_read (List.mem_append_left _ (List.mem_append_left _ hmsg)))
    · rw [hother]
      exact hs.known !j

theorem start_connected (sh : Bool → Shared SocketAddr) (addr : Bool → SocketAddr) (maxPendingMessages : Bool → Nat) :
    Connected fb (fun i => (sh i).sendToAll.sent.length) (start sh addr maxPendingMessages) :=
  ⟨fun i => Endpoint.start_talks (sh i) (addr i) (maxPendingMessages i), fun _ => rfl, fun _ msg hmsg => (by cases hmsg)⟩

omit [DecidableEq SocketAddr] in
/-- Everything on the way to an end, and everything it has read, is known. -/
theorem Connected.known_incoming (hs : Connected fb since s) (i : Bool) {msg : Bytes}
    (hmsg : msg ∈ (s.ends i).task.read ++ s.wire i) : Known fb msg :=
  hs.known (!i) msg (hs.wires i ▸ hmsg)

omit [DecidableEq SocketAddr] in
theorem Connected.known_handled (hs : Connected fb since s) (i : Bool) {msg : Bytes}
    (hmsg : msg ∈ (s.ends i).task.handled ++ (s.ends i).task.handling.toList ++ (s.ends i).task.queue.buffer) :
    Known fb msg :=
  hs.known_incoming i (List.mem_append_left _ ((hs.talks i).mem_read hmsg))

omit [DecidableEq SocketAddr] in
theorem Connected.counts (hs : Connected fb since s) (hd : Decodes fb) (i : Bool) :
    (s.ends i).task.written.count (heloBytes fb) ≤ 1 ∧
      (s.ends i).task.written.count (olehBytes fb) = (s.ends i).task.handled.count (heloBytes fb) := by
  obtain ⟨hhelo, holeh, -⟩ := (hs.talks i).written hd fun msg hmsg =>
    hs.known_handled i (List.mem_append_left _ (List.mem_append_left _ hmsg))
  exact ⟨hhelo, holeh⟩

omit [DecidableEq SocketAddr] in
/-- What an open end has been sent is handled, being handled, queued or on the wire. -/
theorem Connected.count_incoming (hs : Connected fb since s) (i : Bool) (msg : Bytes)
    (hopen : (s.ends i).task.ended = none) :
    (s.ends !i).task.written.count msg = (s.ends i).task.handled.count msg +
      (s.wire i ++ (s.ends i).task.queue.buffer ++ (s.ends i).task.handling.toList).count msg := by
  have hrefused := (hs.talks i).atPc.refused hopen
  rw [hs.wires i, (hs.talks i).delivers.read, hrefused]
  simp only [List.count_append, Option.toList_none, List.count_nil]
  omega

/-- The ways in which a task's select ends with its transport. -/
def transportEnded : List Ended :=
  [.readLoop "Message receive: peer closed connection", .readLoop "Receive: peer closed connection",
    .handleReceived "Send failed: Closing peer connection", .sendToAll]

/-- The ends exchange known frames only, with at most one helo from each and an oleh
for each helo. Neither refuses a frame, so it closes only for a full queue or with the
transport. Once both have greeted and nothing but heartbeats is under way, each has
handled exactly one helo and one oleh. -/
theorem run_handshake (hd : Decodes fb) {sh : Bool → Shared SocketAddr} {addr : Bool → SocketAddr}
    {maxPendingMessages : Bool → Nat} {es : List (Bool × LinkEvent SocketAddr)}
    (h : Machine.run (step fb) (start sh addr maxPendingMessages) es = some s) :
    (∀ i, ∀ msg ∈ s.wire i ++ (s.ends i).task.queue.buffer, Known fb msg) ∧
    (∀ i, (s.ends i).task.written.count (heloBytes fb) ≤ 1 ∧
      (s.ends i).task.written.count (olehBytes fb) = (s.ends i).task.handled.count (heloBytes fb) ∧
      (s.ends i).task.handled.count (heloBytes fb) ≤ 1) ∧
    (∀ i, ∀ msg ∈ (s.ends i).task.handling, Accepted fb msg) ∧
    (∀ i, ∀ why ∈ (s.ends i).task.ended, why ∈ transportEnded ∨
      why = .readLoop "Sender flooding channel" ∧
        (s.ends i).task.queue.buffer.length = (s.ends i).task.queue.capacity) ∧
    ((∀ i, (s.ends i).task.ended = none) → (∀ i, heloBytes fb ∈ (s.ends i).task.written) →
      (∀ i, ∀ msg ∈ s.wire i ++ (s.ends i).task.queue.buffer ++ (s.ends i).task.handling.toList,
        msg ≠ heloBytes fb ∧ msg ≠ olehBytes fb) →
      ∀ i, (s.ends i).task.handled.count (heloBytes fb) = 1 ∧ (s.ends i).task.handled.count (olehBytes fb) = 1) := by
  have hs : Connected fb _ s :=
    Machine.run_invariant (fun hs hstep => step_connected hd hs hstep) (start_connected sh addr maxPendingMessages) h
  have haccepted (i : Bool) : ∀ msg ∈ (s.ends i).task.handling, Accepted fb msg := fun msg hmsg =>
    hd.accepted (hs.known_handled i (List.mem_append_left _ (List.mem_append_right _ (by simpa using hmsg))))
  refine ⟨fun i msg hmsg => ?_, fun i => ?_, haccepted, fun i why hwhy => ?_, fun hopen hgreeted hquiet i => ?_⟩
  · rcases List.mem_append.mp hmsg with hwire | hqueue
    · exact hs.known_incoming i (List.mem_append_right _ hwire)
    · exact hs.known_handled i (List.mem_append_right _ hqueue)
  · obtain ⟨hhelo, holeh⟩ := hs.counts hd i
    refine ⟨hhelo, holeh, ?_⟩
    calc
      (s.ends i).task.handled.count (heloBytes fb) ≤ (s.ends i).task.read.count (heloBytes fb) := by
        rw [(hs.talks i).delivers.read]
        simp only [List.count_append]
        omega
      _ ≤ (s.ends !i).task.written.count (heloBytes fb) := by
        rw [hs.wires i, List.count_append]
        exact Nat.le_add_right _ _
      _ ≤ 1 := (hs.counts hd !i).1
  · cases (hs.talks i).cause why hwhy with
    | overflow full => exact .inr ⟨rfl, full⟩
    | readFailed | endOfStream | replyFailed | sendFailed => exact .inl (by decide)
    | refused cause msg handling refused => exact absurd (haccepted i msg handling) refused
  · have hnone (j : Bool) (frame : Bytes) (hframe : frame = heloBytes fb ∨ frame = olehBytes fb) :
        (s.ends !j).task.written.count frame = (s.ends j).task.handled.count frame := by
      have hzero : (s.wire j ++ (s.ends j).task.queue.buffer ++ (s.ends j).task.handling.toList).count frame = 0 :=
        List.count_eq_zero.mpr fun hmem => hframe.elim (hquiet j frame hmem).1 (hquiet j frame hmem).2
      rw [hs.count_incoming j frame (hopen j), hzero, Nat.add_zero]
    have hone (j : Bool) : (s.ends j).task.handled.count (heloBytes fb) = 1 := by
      rw [← hnone j _ (.inl rfl)]
      exact Nat.le_antisymm (hs.counts hd !j).1 (List.count_pos_iff.mpr (hgreeted !j))
    exact ⟨hone i, by rw [← hnone i _ (.inr rfl), (hs.counts hd !i).2, hone]⟩

/-- Both ends greet, answer each other's helo, and handle the oleh that comes back. -/
def greetBoth : List (Bool × LinkEvent SocketAddrV4) :=
  let frame (i : Bool) (msg : Bytes) : List (Bool × LinkEvent SocketAddrV4) :=
    [(i, .task (.read (some (.ok msg)))), (i, .task (.poll queueBranch))]
  [(false, .task .insert), (true, .task .insert), (false, .task (.sent true)), (true, .task (.sent true))] ++
    frame true (heloBytes Codec.flexbuffers) ++ frame false (heloBytes Codec.flexbuffers) ++
    [(false, .task (.sent true)), (true, .task (.sent true))] ++
    frame false (olehBytes Codec.flexbuffers) ++ frame true (olehBytes Codec.flexbuffers)

/-- Two tasks with room for one connection each. -/
def acceptedBoth : Link SocketAddrV4 :=
  start (fun _ => Endpoint.accepted.shared) (fun _ => Endpoint.accepted.task.addr) (fun _ => 4)

theorem handshake_greetBoth :
    ∃ s, Machine.run (step Codec.flexbuffers) acceptedBoth greetBoth = some s ∧
      ∀ i, (s.ends i).task.handled.count (heloBytes Codec.flexbuffers) = 1 ∧
        (s.ends i).task.handled.count (olehBytes Codec.flexbuffers) = 1 := by
  obtain ⟨s, hs, hopen, hgreeted, hquiet⟩ : ∃ s, Machine.run (step Codec.flexbuffers) acceptedBoth greetBoth = some s ∧
      (∀ i, (s.ends i).task.ended = none) ∧ (∀ i, heloBytes Codec.flexbuffers ∈ (s.ends i).task.written) ∧
      ∀ i, s.wire i ++ (s.ends i).task.queue.buffer ++ (s.ends i).task.handling.toList = [] :=
    Machine.exists_run (fun s : Link SocketAddrV4 => (∀ i, (s.ends i).task.ended = none) ∧
      (∀ i, heloBytes Codec.flexbuffers ∈ (s.ends i).task.written) ∧
      ∀ i, s.wire i ++ (s.ends i).task.queue.buffer ++ (s.ends i).task.handling.toList = []) (by decide)
  refine ⟨s, hs, (run_handshake (decodes_of_roundTrip Codec.flexbuffers_roundTrip) hs).2.2.2.2 hopen hgreeted ?_⟩
  intro i msg hmsg
  rw [hquiet i] at hmsg
  cases hmsg

end

end Link

end Braidpool.Connection
