import Braidpool.Connection.Greeting
import Braidpool.Connection.Lag

/-! What a connection makes of the broadcasts while its receiver keeps up with them: it
passes each on once, in order and without a gap. -/
namespace Braidpool.Connection
open Braidpool.Runtime Braidpool.Protocol

/-- What has been written begins with the greeting, if there was one. Replies to the handled
frames and messages of the stream follow; the broadcasts so far, the one being written
included, are the beginning of the stream and as many as the receiver has passed. -/
def Relayed (fb : Flexbuffers) (stream handled written : List Bytes) (unflushed : Option Write)
    (passed : Option Nat) : Prop :=
  ∃ greeting ∈ ({[], [heloBytes fb]} : Set (List Bytes)), ∃ rest bcasts, written = greeting ++ rest ∧
    Interleave (handled.filterMap (replyTo fb)) bcasts rest ∧
    bcasts ++ (unflushed.bind Write.broadcast).toList <+: stream ∧
    ∀ n ∈ passed, (bcasts ++ (unflushed.bind Write.broadcast).toList).length = n

namespace Relayed
variable {fb : Flexbuffers} {stream handled written : List Bytes} {unflushed : Option Write} {passed : Option Nat}

theorem greeting {g : List Bytes} (hg : g ∈ ({[], [heloBytes fb]} : Set (List Bytes))) (stream : List Bytes) :
    Relayed fb stream [] g none (some 0) :=
  ⟨g, hg, [], [], (List.append_nil g).symm, .nil, List.nil_prefix, fun _ hn => Option.some.inj hn⟩

/-- A receiver that has passed anything has had it written. -/
theorem silent {n : Nat} (h : Relayed fb stream handled [] none (some n)) : n = 0 := by
  obtain ⟨g, -, rest, bcasts, hwritten, hrest, -, hpassed⟩ := h
  obtain ⟨-, rfl⟩ := List.append_eq_nil_iff.mp hwritten.symm
  have hlength := hrest.perm.length_eq
  have hn := hpassed n rfl
  rw [Option.bind_none, Option.toList_none, List.append_nil] at hn
  rw [List.length_append, List.length_nil] at hlength
  omega

theorem dropReceiver (h : Relayed fb stream handled written unflushed passed) :
    Relayed fb stream handled written unflushed none := by
  obtain ⟨g, hg, rest, bcasts, hwritten, hrest, hbcasts, -⟩ := h
  exact ⟨g, hg, rest, bcasts, hwritten, hrest, hbcasts, fun n hn => (by cases hn)⟩

/-- A write that is never completed leaves no trace. -/
theorem drop (h : Relayed fb stream handled written unflushed passed) :
    Relayed fb stream handled written none none := by
  obtain ⟨g, hg, rest, bcasts, hwritten, hrest, hbcasts, -⟩ := h
  refine ⟨g, hg, rest, bcasts, hwritten, hrest, ?_, fun n hn => (by cases hn)⟩
  simpa using (List.prefix_append _ _).trans hbcasts

theorem hear (h : Relayed fb stream handled written unflushed passed) {more : List Bytes} (hmore : stream <+: more) :
    Relayed fb more handled written unflushed passed := by
  obtain ⟨g, hg, rest, bcasts, hwritten, hrest, hbcasts, hpassed⟩ := h
  exact ⟨g, hg, rest, bcasts, hwritten, hrest, hbcasts.trans hmore, hpassed⟩

theorem handle {msg : Bytes} (h : Relayed fb stream handled written unflushed passed)
    (hreply : replyTo fb msg = none) : Relayed fb stream (handled ++ [msg]) written unflushed passed := by
  obtain ⟨g, hg, rest, bcasts, hwritten, hrest, hbcasts, hpassed⟩ := h
  refine ⟨g, hg, rest, bcasts, hwritten, ?_, hbcasts, hpassed⟩
  rwa [List.filterMap_append, List.filterMap_cons_none hreply, List.filterMap_nil, List.append_nil]

theorem beginReply (toSend : Bytes) (h : Relayed fb stream handled written none passed) :
    Relayed fb stream handled written (some (.reply toSend)) passed := h

/-- The next message of the stream is the next to be written. -/
theorem beginBroadcast {msgBytes : Bytes} {n : Nat} (h : Relayed fb stream handled written none (some n))
    (hnext : stream[n]? = some msgBytes) :
    Relayed fb stream handled written (some (.sendToAll msgBytes)) (some (n + 1)) := by
  obtain ⟨g, hg, rest, bcasts, hwritten, hrest, hbcasts, hpassed⟩ := h
  rw [Option.bind_none, Option.toList_none, List.append_nil] at hbcasts hpassed
  obtain rfl := hpassed n rfl
  refine ⟨g, hg, rest, bcasts, hwritten, hrest, ?_, fun m hm => ?_⟩
  · obtain ⟨more, rfl⟩ := hbcasts
    rw [List.getElem?_append_right (Nat.le_refl _), Nat.sub_self] at hnext
    obtain ⟨tail, rfl⟩ := List.head?_eq_some_iff.mp (List.head?_eq_getElem? ▸ hnext)
    exact ⟨tail, by simp [Write.broadcast]⟩
  · obtain rfl := Option.some.inj hm
    simp [Write.broadcast]

/-- A completed reply stands for its frame, and a completed broadcast for itself. -/
theorem deliver {SocketAddr : Type} {t : Task SocketAddr} {write : Write} (hwrite : write.Of fb t.handling)
    (h : Relayed fb stream t.handled t.written (some write) passed) :
    Relayed fb stream (t.deliver write).handled (t.deliver write).written none passed := by
  obtain ⟨g, hg, rest, bcasts, hwritten, hrest, hbcasts, hpassed⟩ := h
  cases write with
  | reply toSend =>
    obtain ⟨msg, hmsg, -, hreply⟩ := hwrite
    refine ⟨g, hg, rest ++ [toSend], bcasts, ?_, ?_, hbcasts, hpassed⟩
    · rw [Task.deliver, hwritten, List.append_assoc]
    · rw [Task.deliver, hmsg, Option.toList_some, List.filterMap_append, List.filterMap_cons_some hreply,
        List.filterMap_nil]
      exact hrest.concat_left toSend
  | sendToAll msgBytes =>
    refine ⟨g, hg, rest ++ [msgBytes], bcasts ++ [msgBytes], ?_, hrest.concat_right msgBytes, ?_, ?_⟩
    · rw [Task.deliver, hwritten, List.append_assoc]
    · simpa [Write.broadcast] using hbcasts
    · simpa [Write.broadcast] using hpassed

end Relayed

namespace Task
variable {SocketAddr : Type} {fb : Flexbuffers}

def Relays (fb : Flexbuffers) (since : Nat) (c : Broadcast Bytes) (t : Task SocketAddr) : Prop :=
  Relayed fb (c.sent.drop since) t.handled t.written t.pc.unflushed (t.receiver.map (· - since))

variable [DecidableEq SocketAddr] {sh sh' : Shared SocketAddr} {t t' : Task SocketAddr} {e : TaskEvent}

omit [DecidableEq SocketAddr] in
private theorem receiver_skipped {next next' since : Nat} (hnext : t.receiver = some next)
    (hnear : ∀ next ∈ t.receiver, ¬ sh.sendToAll.Lagged next) (h : Skipped sh.sendToAll next next') :
    t.receiver.map (· - since) = some (next' - since) := by
  rcases h with rfl | ⟨hlag, -⟩
  · rw [hnext]
    rfl
  · exact absurd hlag (hnear next hnext)

theorem Moves.relays {since : Nat} (h : Moves fb sh t e (sh', t')) (ht : t.AtPc fb)
    (hpos : ∀ next ∈ t.receiver, since ≤ next ∧ next ≤ sh.sendToAll.sent.length)
    (hnear : ∀ next ∈ t.receiver, ¬ sh.sendToAll.Lagged next) (hr : t.Relays fb since sh.sendToAll) :
    t'.Relays fb since sh'.sendToAll := by
  unfold Relays at hr ⊢
  cases h with
  | refused pc full =>
    rw [pc] at hr
    exact hr.dropReceiver
  | admitted old manager pc inserted =>
    rw [pc] at hr
    exact hr
  | handshakeSent message ok pc =>
    obtain ⟨-, hidle, rfl, -⟩ := ht.greeting pc
    obtain ⟨next, hnext⟩ := Option.isSome_iff_exists.mp (ht.greeting pc).1.receiver
    rw [pc, hidle.handled, hidle.written, hnext] at hr
    simp only [Task.handshakeSent, hidle.handled, hidle.written, hnext, Option.map_some, List.nil_append]
    have hzero : next - since = 0 := Relayed.silent hr
    rw [hzero]
    cases ok with
    | true => exact .greeting (.inr rfl) _
    | false => exact .greeting (.inl rfl) _
  | queued handler message queue pc sent => exact hr
  | readEnded handler item error pc hread =>
    rw [pc] at hr
    exact hr.dropReceiver
  | handled disabled start next next' msg queue pc receiver took skipped accepted reply =>
    rw [pc, receiver_skipped receiver hnear skipped] at hr
    exact hr.handle reply
  | replying disabled start next next' msg toSend queue pc receiver took skipped accepted reply =>
    rw [pc, receiver_skipped receiver hnear skipped] at hr
    exact hr.beginReply toSend
  | rejected disabled start next next' msg error queue pc receiver took skipped refused herror =>
    rw [pc] at hr
    exact hr.dropReceiver
  | sendingToAll disabled start next msgBytes pc receiver current sent enabled =>
    rw [pc, receiver] at hr
    obtain ⟨hsince, -⟩ := hpos next receiver
    have hnext : (sh.sendToAll.sent.drop since)[next - since]? = some msgBytes := by
      rw [List.getElem?_drop, Nat.add_sub_cancel' hsince, sent]
    have hsucc : next + 1 - since = next - since + 1 := by omega
    simp only [Option.map_some, hsucc]
    exact hr.beginBroadcast hnext
  | waiting disabled disabled' start next next' pc receiver skipped queueArm sendToAllArm =>
    rw [pc, receiver_skipped receiver hnear skipped] at hr
    exact hr
  | stuck disabled start p pc queueArm => exact absurd queueArm (ht.queueArm pc)
  | delivered write pc =>
    rw [pc] at hr
    cases write <;> exact hr.deliver (ht.writing pc)
  | sendFailed write why pc reason =>
    rw [pc] at hr
    exact hr.drop
  | writerClosed unflushed flushed pc =>
    rw [pc] at hr
    obtain ⟨hreceiver, -⟩ := ht.closing pc
    simp only [hreceiver]
    exact hr.drop
  | flushed write pc =>
    rw [pc] at hr
    cases write <;> exact hr.deliver (ht.unflushed pc)
  | removed pc =>
    rw [pc] at hr
    exact hr

end Task

namespace Endpoint
variable {SocketAddr : Type} [DecidableEq SocketAddr] {fb : Flexbuffers} {since : Nat} {s s' : Endpoint SocketAddr}

/-- The receiver has lost nothing so far, and what it has passed has been relayed. -/
structure Keeping (fb : Flexbuffers) (since : Nat) (s : Endpoint SocketAddr) : Prop where
  atPc : s.task.AtPc fb
  position : ∀ next ∈ s.task.receiver, since ≤ next ∧ next ≤ s.shared.sendToAll.sent.length
  current : Current s
  relays : s.task.Relays fb since s.shared.sendToAll

theorem Moves.keeping {e : EndpointEvent SocketAddr} (h : Moves fb s e s') (hkeeps : KeepsUp s e)
    (hs : Keeping fb since s) : Keeping fb since s' := by
  refine ⟨(h.atPc hs.atPc).1, ?_, h.current hs.current hkeeps, ?_⟩
  · cases h with
    | task e next moves => exact moves.position hs.position
    | sendToAll msgBytes senders =>
      intro next hnext
      obtain ⟨hsince, hlen⟩ := hs.position next hnext
      exact ⟨hsince, hlen.trans (by simp)⟩
    | others => exact hs.position
  · cases h with
    | task e next moves => exact moves.relays hs.atPc hs.position hs.current.near hs.relays
    | sendToAll msgBytes senders => exact hs.relays.hear ((List.prefix_append _ _).drop since)
    | others => exact hs.relays

/-- The task is between its admission and the end of its select. -/
def Open (s : Endpoint SocketAddr) : Prop :=
  (∃ message, s.task.pc = .handshake message) ∨ ∃ handler, s.task.pc = .running handler

/-- The task waits in its select and its receiver has passed everything. -/
def CaughtUp (s : Endpoint SocketAddr) : Prop :=
  (∃ disabled, s.task.pc = .running (.select disabled)) ∧
    s.task.receiver = some s.shared.sendToAll.sent.length

/-- Each broadcast that is still to be passed takes a poll and a write. -/
def behind (s : Endpoint SocketAddr) : Nat :=
  2 * (s.shared.sendToAll.sent.length - s.task.receiver.getD 0) +
    match s.task.pc with
    | .running (.select _) => 0
    | _ => 1

def Writes : EndpointEvent SocketAddr → Prop
  | .task (.sent ok) => ok = true
  | .task (.poll _) => True
  | _ => False

/-- A waiting task that has not passed every message can begin to write the next. -/
theorem Keeping.exists_broadcast {disabled : Finset (Fin 2)} {next : Nat} (hs : Keeping fb since s)
    (hpc : s.task.pc = .running (.select disabled)) (hnext : s.task.receiver = some next)
    (hlt : next < s.shared.sendToAll.sent.length) (hsenders : s.shared.sendToAll.senders ≠ 0) :
    ∃ start, step fb s (.task (.poll start)) = some ⟨s.shared, { s.task with
      pc := .running (.writing (.sendToAll s.shared.sendToAll.sent[next])), receiver := some (next + 1) }⟩ := by
  have hhead := Broadcast.retained_head _ (hs.current.near next hnext)
  rw [List.getElem?_eq_getElem hlt] at hhead
  obtain ⟨start, s', hstep, hpc'⟩ := (hs.current.armed hsenders disabled next hpc hnext).2 _ hhead
  refine ⟨start, hstep.trans ?_⟩
  cases step_moves hstep with
  | task e next' moves =>
    cases moves with
    | sendingToAll disabled' start next'' msgBytes pc receiver current sent enabled =>
      obtain rfl := Option.some.inj (hnext.symm.trans receiver)
      rw [List.getElem?_eq_getElem hlt] at sent
      obtain rfl := Option.some.inj sent
      rfl
    | handled | replying | rejected | waiting | stuck => cases hpc'

/-- An open task that has not caught up writes the handshake, the frame it has begun, or
the next broadcast. -/
private theorem Keeping.exists_step (hs : Keeping fb since s) (hopen : Open s)
    (hsenders : s.shared.sendToAll.senders ≠ 0) (hbehind : ¬ CaughtUp s) :
    ∃ e s', Writes e ∧ step fb s e = some s' ∧ s'.shared = s.shared ∧ Open s' ∧ behind s' < behind s := by
  rcases hopen with ⟨message, hpc⟩ | ⟨handler, hpc⟩
  · refine ⟨.task (.sent true), _, rfl, step_handshakeSent hpc true, rfl, .inr ⟨_, rfl⟩, ?_⟩
    simp [behind, hpc, Task.handshakeSent]
  · cases handler with
    | writing write =>
      refine ⟨.task (.sent true), _, rfl, step_delivered hpc, rfl, .inr ⟨_, rfl⟩, ?_⟩
      cases write <;> simp [behind, hpc, Task.deliver]
    | select disabled =>
      obtain ⟨next, hnext⟩ := Option.isSome_iff_exists.mp (hs.atPc.running hpc).1.receiver
      have hlt : next < s.shared.sendToAll.sent.length := by
        refine Nat.lt_of_le_of_ne (hs.position next hnext).2 fun hall => hbehind ⟨⟨_, hpc⟩, ?_⟩
        rw [hnext, hall]
      obtain ⟨start, hstep⟩ := hs.exists_broadcast hpc hnext hlt hsenders
      refine ⟨.task (.poll start), _, trivial, hstep, rfl, .inr ⟨_, rfl⟩, ?_⟩
      simp only [behind, hpc, hnext, Option.getD_some]
      omega

omit [DecidableEq SocketAddr] in
private theorem Writes.keepsUp {e : EndpointEvent SocketAddr} (h : Writes e) (s : Endpoint SocketAddr) : KeepsUp s e := by
  cases e with
  | task e => trivial
  | sendToAll | others => exact h.elim

omit [DecidableEq SocketAddr] in
theorem start_keeping {sh : Shared SocketAddr} (addr : SocketAddr) (maxPendingMessages : Nat)
    (hsince : since ≤ sh.sendToAll.sent.length) (hstart : ¬ sh.sendToAll.Lagged since) :
    Keeping fb since (start sh addr maxPendingMessages since) := by
  refine ⟨Task.spawn_atPc addr maxPendingMessages since, ?_, ⟨?_, fun disabled hpc => (by cases hpc)⟩, ?_⟩
  · simpa [start, Task.spawn] using hsince
  · simpa [start, Task.spawn] using hstart
  · change Relayed fb (sh.sendToAll.sent.drop since) [] [] none (some (since - since))
    rw [Nat.sub_self]
    exact .greeting (.inl rfl) _

omit [DecidableEq SocketAddr] in
/-- A task that has caught up has written every message since its subscription. -/
theorem Keeping.caughtUp (hs : Keeping fb since s) (hcaught : CaughtUp s) :
    ∃ greeting ∈ ({[], [heloBytes fb]} : Set (List Bytes)), ∃ rest, s.task.written = greeting ++ rest ∧
      Interleave (s.task.handled.filterMap (replyTo fb)) (s.shared.sendToAll.sent.drop since) rest := by
  obtain ⟨⟨disabled, hpc⟩, hreceiver⟩ := hcaught
  obtain ⟨g, hg, rest, bcasts, hwritten, hrest, hbcasts, hpassed⟩ := hs.relays
  have hlen := hpassed (s.shared.sendToAll.sent.length - since) (by rw [hreceiver]; rfl)
  rw [hpc] at hbcasts hlen
  simp only [HandlerState.unflushed, Pc.unflushed, Option.bind_none, Option.toList_none, List.append_nil] at hbcasts hlen
  have hall : bcasts = s.shared.sendToAll.sent.drop since := hbcasts.eq_of_length (by rw [hlen, List.length_drop])
  exact ⟨g, hg, rest, hwritten, hall ▸ hrest⟩

/-- While every broadcast finds a free slot, a peer is sent the broadcasts since the
subscription from the first on, once each and without a gap; and as long as the connection
is open, some schedule of its own writes delivers all of them. -/
theorem run_relays {sh : Shared SocketAddr} {addr : SocketAddr} {maxPendingMessages : Nat}
    {es : List (EndpointEvent SocketAddr)} (hsince : since ≤ sh.sendToAll.sent.length)
    (hstart : ¬ sh.sendToAll.Lagged since)
    (hkeeps : Machine.Guarded (step fb) KeepsUp (start sh addr maxPendingMessages since) es)
    (h : Machine.run (step fb) (start sh addr maxPendingMessages since) es = some s) :
    (∃ greeting ∈ ({[], [heloBytes fb]} : Set (List Bytes)), ∃ rest bcasts, s.task.written = greeting ++ rest ∧
      Interleave (s.task.handled.filterMap (replyTo fb)) bcasts rest ∧
      bcasts <+: s.shared.sendToAll.sent.drop since) ∧
    (Open s → s.shared.sendToAll.senders ≠ 0 → ∃ fs s', fs.length ≤ behind s ∧ (∀ e ∈ fs, Writes e) ∧
      Machine.run (step fb) s fs = some s' ∧ s'.shared = s.shared ∧
      ∃ greeting ∈ ({[], [heloBytes fb]} : Set (List Bytes)), ∃ rest, s'.task.written = greeting ++ rest ∧
        Interleave (s'.task.handled.filterMap (replyTo fb)) (s.shared.sendToAll.sent.drop since) rest) := by
  have hs : Keeping fb since s :=
    Machine.Guarded.invariant (P := Keeping fb since) (fun hs hk hstep => (step_moves hstep).keeping hk hs)
      (start_keeping addr maxPendingMessages hsince hstart) hkeeps h
  refine ⟨?_, fun hopen hsenders => ?_⟩
  · obtain ⟨g, hg, rest, bcasts, hwritten, hrest, hbcasts, -⟩ := hs.relays
    exact ⟨g, hg, rest, bcasts, hwritten, hrest, (List.prefix_append _ _).trans hbcasts⟩
  · have hdrive : ∀ u, (Keeping fb since u ∧ u.shared = s.shared ∧ Open u) → ¬ CaughtUp u → ∃ e v, Writes e ∧
        step fb u e = some v ∧ (Keeping fb since v ∧ v.shared = s.shared ∧ Open v) ∧ behind v < behind u := by
      intro u hu hbehind
      obtain ⟨hu, hshared, hopen⟩ := hu
      obtain ⟨e, v, hwrites, hstep, hsame, hopen', hless⟩ := hu.exists_step hopen (hshared ▸ hsenders) hbehind
      have hv := (step_moves hstep).keeping (hwrites.keepsUp u) hu
      exact ⟨e, v, hwrites, hstep, ⟨hv, hsame.trans hshared, hopen'⟩, hless⟩
    obtain ⟨fs, s', hlength, hwrites, hrun, ⟨hs', hshared, -⟩, hcaught⟩ :=
      Machine.exists_run_of_measure behind hdrive ⟨hs, rfl, hopen⟩
    exact ⟨fs, s', hlength, hwrites, hrun, hshared, hshared ▸ hs'.caughtUp hcaught⟩

theorem relays_keptUp :
    ∃ s fs s', Machine.run (step Codec.flexbuffers) accepted keptUp = some s ∧
      Machine.run (step Codec.flexbuffers) s fs = some s' ∧ ∀ msg ∈ [[1], [2]], msg ∈ s'.task.written := by
  obtain ⟨s, hs, hpc, hsenders, hsent⟩ : ∃ s, Machine.run (step Codec.flexbuffers) accepted keptUp = some s ∧
      s.task.pc = .running (.select ∅) ∧ s.shared.sendToAll.senders ≠ 0 ∧ s.shared.sendToAll.sent = [[1], [2]] :=
    Machine.exists_run (fun s : Endpoint SocketAddrV4 => s.task.pc = .running (.select ∅) ∧
      s.shared.sendToAll.senders ≠ 0 ∧ s.shared.sendToAll.sent = [[1], [2]]) (by decide)
  obtain ⟨fs, s', -, -, hrun, -, greeting, -, rest, hwritten, hrest⟩ :=
    (run_relays (Nat.zero_le 0) (by decide) (by decide) hs).2 (.inr ⟨_, hpc⟩) hsenders
  refine ⟨s, fs, s', hs, hrun, fun msg hmsg => ?_⟩
  rw [hwritten]
  exact List.mem_append_right _ (hrest.perm.mem_iff.mpr (List.mem_append_right _ (by simpa [hsent] using hmsg)))

end Endpoint

end Braidpool.Connection
