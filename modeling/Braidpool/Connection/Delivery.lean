import Braidpool.Connection.Endpoint
import Braidpool.Runtime.Log

/-! What becomes of the frames a task reads, and what its peer gets to see: the
greeting, then the replies to the handled frames and some of the broadcasts. -/
namespace Braidpool.Connection
open Braidpool.Runtime Braidpool.Protocol

/-- The handshake has been sent, or has failed to be. -/
def Pc.Greeted : Pc → Prop
  | .insert | .refused | .handshake _ => False
  | _ => True

/-- The write that has been begun and not completed. -/
def Pc.unflushed : Pc → Option Write
  | .running handler => handler.unflushed
  | .closing unflushed => unflushed
  | _ => none

def Write.broadcast : Write → Option Bytes
  | .reply _ => none
  | .sendToAll msgBytes => some msgBytes

/-- What has been written begins with one of the given greetings. Replies to the
handled frames and messages among `heard` follow, each in its own order. -/
def Spoken (fb : Flexbuffers) (greetings : Set (List Bytes)) (handled written heard : List Bytes)
    (unflushed : Option Write) : Prop :=
  ∃ greeting ∈ greetings, ∃ rest bcasts, written = greeting ++ rest ∧
    Interleave (handled.filterMap (replyTo fb)) bcasts rest ∧
    (bcasts ++ (unflushed.bind Write.broadcast).toList).Sublist heard

namespace Spoken
variable {fb : Flexbuffers} {greetings : Set (List Bytes)} {handled written heard heard' : List Bytes}
  {unflushed : Option Write}

theorem greeting {g : List Bytes} (hg : g ∈ greetings) (heard : List Bytes) : Spoken fb greetings [] g heard none :=
  ⟨g, hg, [], [], (List.append_nil g).symm, .nil, List.nil_sublist _⟩

theorem hear (h : Spoken fb greetings handled written heard unflushed) (hsub : heard.Sublist heard') :
    Spoken fb greetings handled written heard' unflushed := by
  obtain ⟨g, hg, rest, bcasts, hwritten, hrest, hbcasts⟩ := h
  exact ⟨g, hg, rest, bcasts, hwritten, hrest, hbcasts.trans hsub⟩

/-- A write that is never completed leaves no trace. -/
theorem drop (h : Spoken fb greetings handled written heard unflushed) :
    Spoken fb greetings handled written heard none := by
  obtain ⟨g, hg, rest, bcasts, hwritten, hrest, hbcasts⟩ := h
  refine ⟨g, hg, rest, bcasts, hwritten, hrest, ?_⟩
  simpa using (List.sublist_append_left _ _).trans hbcasts

/-- A frame without a reply adds nothing. -/
theorem handle {msg : Bytes} (h : Spoken fb greetings handled written heard unflushed)
    (hreply : replyTo fb msg = none) : Spoken fb greetings (handled ++ [msg]) written heard unflushed := by
  obtain ⟨g, hg, rest, bcasts, hwritten, hrest, hbcasts⟩ := h
  refine ⟨g, hg, rest, bcasts, hwritten, ?_, hbcasts⟩
  rwa [List.filterMap_append, List.filterMap_cons_none hreply, List.filterMap_nil, List.append_nil]

theorem beginReply (toSend : Bytes) (h : Spoken fb greetings handled written heard none) :
    Spoken fb greetings handled written heard (some (.reply toSend)) := h

theorem beginBroadcast {msgBytes : Bytes} (h : Spoken fb greetings handled written heard none) :
    Spoken fb greetings handled written (heard ++ [msgBytes]) (some (.sendToAll msgBytes)) := by
  obtain ⟨g, hg, rest, bcasts, hwritten, hrest, hbcasts⟩ := h
  refine ⟨g, hg, rest, bcasts, hwritten, hrest, ?_⟩
  rw [Option.bind_none, Option.toList_none, List.append_nil] at hbcasts
  exact hbcasts.append_right [msgBytes]

/-- A completed reply stands for its frame, and a completed broadcast for itself. -/
theorem deliver {SocketAddr : Type} {t : Task SocketAddr} {write : Write} (hwrite : write.Of fb t.handling)
    (h : Spoken fb greetings t.handled t.written heard (some write)) :
    Spoken fb greetings (t.deliver write).handled (t.deliver write).written heard none := by
  obtain ⟨g, hg, rest, bcasts, hwritten, hrest, hbcasts⟩ := h
  cases write with
  | reply toSend =>
    obtain ⟨msg, hmsg, -, hreply⟩ := hwrite
    refine ⟨g, hg, rest ++ [toSend], bcasts, ?_, ?_, hbcasts⟩
    · rw [Task.deliver, hwritten, List.append_assoc]
    · rw [Task.deliver, hmsg, Option.toList_some, List.filterMap_append, List.filterMap_cons_some hreply,
        List.filterMap_nil]
      exact hrest.concat_left toSend
  | sendToAll msgBytes =>
    refine ⟨g, hg, rest ++ [msgBytes], bcasts ++ [msgBytes], ?_, hrest.concat_right msgBytes, ?_⟩
    · rw [Task.deliver, hwritten, List.append_assoc]
    · simpa [Write.broadcast] using hbcasts

end Spoken

/-- The frames that an event reads. -/
def TaskEvent.frames : TaskEvent → List Bytes
  | .read (some (.ok message)) => [message]
  | _ => []

namespace Task
variable {SocketAddr : Type} {fb : Flexbuffers}

theorem Skipped.le {c : Broadcast Bytes} {next next' : Nat} (h : Skipped c next next')
    (hnext : next ≤ c.sent.length) : next ≤ next' ∧ next' ≤ c.sent.length := by
  rcases h with rfl | ⟨hlag, rfl⟩
  · exact ⟨Nat.le_refl _, hnext⟩
  · unfold Broadcast.Lagged at hlag
    omega

theorem AtPc.idle {t : Task SocketAddr} (ht : t.AtPc fb) (hgreeted : ¬ t.pc.Greeted) : t.Idle := by
  cases hpc : t.pc with
  | insert | handshake =>
    rw [AtPc, hpc] at ht
    exact ht.2.1
  | refused =>
    rw [AtPc, hpc] at ht
    exact ht.1
  | _ =>
    rw [hpc] at hgreeted
    exact absurd trivial hgreeted

/-- The broadcasts that a task's receiver has passed; one that is dropped has seen
the end of them. -/
def heard (c : Broadcast Bytes) (since : Nat) (t : Task SocketAddr) : List Bytes :=
  c.passed since (t.receiver.getD c.sent.length)

/-- The frames and the writes of a task whose receiver subscribed at `since`. -/
structure Delivers (fb : Flexbuffers) (greetings : Set (List Bytes)) (since : Nat) (c : Broadcast Bytes)
    (t : Task SocketAddr) : Prop where
  read : t.read = t.handled ++ t.handling.toList ++ t.queue.buffer ++ t.refused.toList
  accepted : ∀ msg ∈ t.handled, Accepted fb msg
  position : ∀ next ∈ t.receiver, since ≤ next ∧ next ≤ c.sent.length
  spoken : t.pc.Greeted → Spoken fb greetings t.handled t.written (t.heard c since) t.pc.unflushed

/-- A dropped receiver counts as having passed everything. -/
private theorem heard_endSelect {sh : Shared SocketAddr} {t : Task SocketAddr} {since : Nat}
    (hpos : ∀ next ∈ t.receiver, since ≤ next ∧ next ≤ sh.sendToAll.sent.length) :
    (t.heard sh.sendToAll since).Sublist (sh.sendToAll.passed since sh.sendToAll.sent.length) := by
  refine Broadcast.passed_sublist since List.prefix_rfl ?_
  cases hr : t.receiver with
  | none => exact Nat.le_refl _
  | some next => exact (hpos next hr).2

private theorem heard_skipped {sh : Shared SocketAddr} {t : Task SocketAddr} {since next next' : Nat}
    (hr : t.receiver = some next)
    (hpos : ∀ next ∈ t.receiver, since ≤ next ∧ next ≤ sh.sendToAll.sent.length)
    (hs : Skipped sh.sendToAll next next') :
    (t.heard sh.sendToAll since).Sublist (sh.sendToAll.passed since next') := by
  refine Broadcast.passed_sublist since List.prefix_rfl ?_
  rw [hr]
  exact (hs.le (hpos next hr).2).1

/-- Why a task's select has ended: the queue overflowed, the transport ended, or a
frame was refused. -/
inductive Cause (fb : Flexbuffers) (t : Task SocketAddr) : Ended → Prop where
  | overflow (full : t.queue.buffer.length = t.queue.capacity) : Cause fb t (.readLoop "Sender flooding channel")
  | readFailed : Cause fb t (.readLoop "Message receive: peer closed connection")
  | endOfStream : Cause fb t (.readLoop "Receive: peer closed connection")
  | replyFailed : Cause fb t (.handleReceived "Send failed: Closing peer connection")
  | sendFailed : Cause fb t .sendToAll
  | refused (cause : String) (msg : Bytes) (handling : t.handling = some msg) (refused : ¬ Accepted fb msg) :
      Cause fb t (.handleReceived cause)

/-- The cause stays what it was while the task cleans up. -/
private theorem Cause.kept {t t' : Task SocketAddr} {why : Ended} (h : Cause fb t why) (hqueue : t'.queue = t.queue)
    (hhandling : ∀ msg, t.handling = some msg → ¬ Accepted fb msg → t'.handling = some msg) : Cause fb t' why := by
  cases h with
  | overflow full => exact .overflow (hqueue ▸ full)
  | readFailed => exact .readFailed
  | endOfStream => exact .endOfStream
  | replyFailed => exact .replyFailed
  | sendFailed => exact .sendFailed
  | refused cause msg handling refused => exact .refused cause msg (hhandling msg handling refused) refused

variable [DecidableEq SocketAddr] {sh sh' : Shared SocketAddr} {t t' : Task SocketAddr} {e : TaskEvent}

/-- Every frame read is handled, being handled, queued or refused, in that order. -/
theorem Moves.read (h : Moves fb sh t e (sh', t')) (ht : t.AtPc fb)
    (hread : t.read = t.handled ++ t.handling.toList ++ t.queue.buffer ++ t.refused.toList) :
    t'.read = t'.handled ++ t'.handling.toList ++ t'.queue.buffer ++ t'.refused.toList := by
  cases h with
  | refused pc full => exact hread
  | admitted old manager pc inserted => exact hread
  | handshakeSent message ok pc => exact hread
  | queued handler message queue pc sent =>
    obtain ⟨-, -, hrefused, -⟩ := ht.running pc
    obtain ⟨-, -, hbuffer, -⟩ := Mpsc.trySend_ok sent
    simp only [hread, hbuffer, hrefused, Option.toList_none, List.append_nil, List.append_assoc]
  | readEnded handler item error pc hread' =>
    obtain ⟨-, -, hrefused, -⟩ := ht.running pc
    simp only [Mpsc.dropSender, Mpsc.close, hread, hrefused, Option.toList_none, List.append_nil]
  | handled disabled start next next' msg queue pc receiver took skipped accepted reply =>
    have hhandling := ht.selecting pc
    simp only [hread, hhandling, took.buffer, Option.toList_none, List.append_nil, List.append_assoc]
  | replying disabled start next next' msg toSend queue pc receiver took skipped accepted reply =>
    have hhandling := ht.selecting pc
    simp only [hread, hhandling, took.buffer, Option.toList_none, Option.toList_some, List.append_nil, List.append_assoc]
  | rejected disabled start next next' msg error queue pc receiver took skipped refused herror =>
    have hhandling := ht.selecting pc
    simp only [Mpsc.dropSender, Mpsc.close, hread, hhandling, took.buffer, Option.toList_none,
      Option.toList_some, List.append_nil, List.append_assoc]
  | sendingToAll disabled start next msgBytes pc receiver current sent enabled => exact hread
  | waiting disabled disabled' start next next' pc receiver skipped queueArm sendToAllArm => exact hread
  | stuck disabled start p pc queueArm => exact hread
  | delivered write pc =>
    cases write with
    | reply toSend => simp only [deliver, hread, Option.toList_none, List.append_nil]
    | sendToAll msgBytes => exact hread
  | sendFailed write why pc reason => exact hread
  | writerClosed unflushed flushed pc => exact hread
  | flushed write pc =>
    cases write with
    | reply toSend => simp only [deliver, hread, Option.toList_none, List.append_nil]
    | sendToAll msgBytes => exact hread
  | removed pc => exact hread

theorem Moves.accepted (h : Moves fb sh t e (sh', t')) (ht : t.AtPc fb)
    (hall : ∀ msg ∈ t.handled, Accepted fb msg) : ∀ msg ∈ t'.handled, Accepted fb msg := by
  have hdeliver (write : Write) (hwrite : write.Of fb t.handling) :
      ∀ msg ∈ (t.deliver write).handled, Accepted fb msg := by
    cases write with
    | reply toSend =>
      obtain ⟨msg, hmsg, haccepted, -⟩ := hwrite
      simpa [deliver, hmsg, or_imp, forall_and, haccepted] using hall
    | sendToAll msgBytes => exact hall
  cases h with
  | handled disabled start next next' msg queue pc receiver took skipped accepted reply =>
    simpa [or_imp, forall_and, accepted] using hall
  | delivered write pc =>
    exact hdeliver write (ht.writing pc)
  | flushed write pc =>
    exact hdeliver write (ht.unflushed pc)
  | _ => exact hall

theorem Moves.position {since : Nat} (h : Moves fb sh t e (sh', t'))
    (hpos : ∀ next ∈ t.receiver, since ≤ next ∧ next ≤ sh.sendToAll.sent.length) :
    ∀ next ∈ t'.receiver, since ≤ next ∧ next ≤ sh'.sendToAll.sent.length := by
  have hskip {next next' : Nat} (hnext : t.receiver = some next) (hs : Skipped sh.sendToAll next next') :
      since ≤ next' ∧ next' ≤ sh.sendToAll.sent.length := by
    obtain ⟨hsince, hlen⟩ := hpos next hnext
    obtain ⟨hle, hlen'⟩ := hs.le hlen
    exact ⟨hsince.trans hle, hlen'⟩
  cases h with
  | handled disabled start next next' msg queue pc receiver took skipped accepted reply =>
    simpa using hskip receiver skipped
  | replying disabled start next next' msg toSend queue pc receiver took skipped accepted reply =>
    simpa using hskip receiver skipped
  | waiting disabled disabled' start next next' pc receiver skipped queueArm sendToAllArm =>
    simpa using hskip receiver skipped
  | sendingToAll disabled start next msgBytes pc receiver current sent enabled =>
    obtain ⟨hsince, -⟩ := hpos next receiver
    have hlt := (List.getElem?_eq_some_iff.mp sent).1
    simp only [Option.mem_def, Option.some.injEq, forall_eq']
    omega
  | delivered write pc => cases write <;> exact hpos
  | flushed write pc => cases write <;> exact hpos
  | refused | readEnded | rejected | stuck | sendFailed =>
    intro next hnext
    cases hnext
  | _ => exact hpos

theorem Moves.spoken {greetings : Set (List Bytes)} {since : Nat} (h : Moves fb sh t e (sh', t')) (ht : t.AtPc fb)
    (hpos : ∀ next ∈ t.receiver, since ≤ next ∧ next ≤ sh.sendToAll.sent.length)
    (hsent : [heloBytes fb] ∈ greetings) (hfailed : e = .sent false → [] ∈ greetings)
    (hs : t.pc.Greeted → Spoken fb greetings t.handled t.written (t.heard sh.sendToAll since) t.pc.unflushed) :
    t'.pc.Greeted → Spoken fb greetings t'.handled t'.written (t'.heard sh'.sendToAll since) t'.pc.unflushed := by
  intro hgreeted
  cases h with
  | refused | admitted => exact hgreeted.elim
  | handshakeSent message ok pc =>
    obtain ⟨-, hidle, rfl, -⟩ := ht.greeting pc
    simp only [Task.handshakeSent, hidle.handled, hidle.written, List.nil_append]
    cases ok with
    | true => exact .greeting hsent _
    | false => exact .greeting (hfailed rfl) _
  | queued handler message queue pc sent =>
    rw [pc] at hs
    simp only [pc]
    exact hs trivial
  | readEnded handler item error pc hread =>
    rw [pc] at hs
    exact (hs trivial).hear (heard_endSelect hpos)
  | handled disabled start next next' msg queue pc receiver took skipped accepted reply =>
    rw [pc] at hs
    exact ((hs trivial).hear (heard_skipped receiver hpos skipped)).handle reply
  | replying disabled start next next' msg toSend queue pc receiver took skipped accepted reply =>
    rw [pc] at hs
    exact ((hs trivial).hear (heard_skipped receiver hpos skipped)).beginReply toSend
  | rejected disabled start next next' msg error queue pc receiver took skipped refused herror =>
    rw [pc] at hs
    exact (hs trivial).hear (heard_endSelect hpos)
  | sendingToAll disabled start next msgBytes pc receiver current sent enabled =>
    rw [pc, heard, receiver] at hs
    simp only [heard, Option.getD_some, Broadcast.passed_succ (hpos next receiver).1 sent]
    exact (hs trivial).beginBroadcast
  | waiting disabled disabled' start next next' pc receiver skipped queueArm sendToAllArm =>
    rw [pc] at hs
    exact (hs trivial).hear (heard_skipped receiver hpos skipped)
  | stuck disabled start p pc queueArm => exact absurd queueArm (ht.queueArm pc)
  | delivered write pc =>
    rw [pc] at hs
    cases write <;> exact (hs trivial).deliver (ht.writing pc)
  | sendFailed write why pc reason =>
    rw [pc] at hs
    exact ((hs trivial).drop).hear (heard_endSelect hpos)
  | writerClosed unflushed flushed pc =>
    rw [pc] at hs
    exact (hs trivial).drop
  | flushed write pc =>
    rw [pc] at hs
    cases write <;> exact (hs trivial).deliver (ht.unflushed pc)
  | removed pc =>
    rw [pc] at hs
    exact hs trivial

/-- Once a frame is refused, nothing more is handled or written. -/
theorem Moves.frozen (h : Moves fb sh t e (sh', t')) (ht : t.AtPc fb) {msg : Bytes} (hmsg : t.handling = some msg)
    (hrefused : ¬ Accepted fb msg) :
    t'.handled = t.handled ∧ t'.handling = some msg ∧ t'.written = t.written := by
  have hnot (write : Write) (hwrite : write.Of fb t.handling) : False := by
    cases write with
    | reply toSend =>
      obtain ⟨m, hm, haccepted, -⟩ := hwrite
      obtain rfl := Option.some.inj (hmsg.symm.trans hm)
      exact hrefused haccepted
    | sendToAll msgBytes => exact absurd (hmsg.symm.trans hwrite) (by simp)
  have hselect {disabled : Finset (Fin 2)} (hpc : t.pc = .running (.select disabled)) : False := by
    have hhandling := ht.selecting hpc
    rw [hmsg] at hhandling
    cases hhandling
  cases h with
  | handshakeSent message ok pc =>
    have hidle := (ht.greeting pc).2.1.handling
    rw [hmsg] at hidle
    cases hidle
  | handled _ _ _ _ _ _ pc | replying _ _ _ _ _ _ _ pc | rejected _ _ _ _ _ _ _ pc => exact (hselect pc).elim
  | delivered write pc =>
    exact (hnot write (ht.writing pc)).elim
  | flushed write pc =>
    exact (hnot write (ht.unflushed pc)).elim
  | _ => exact ⟨rfl, hmsg, rfl⟩

theorem Moves.read_frames (h : Moves fb sh t e (sh', t')) : t'.read = t.read ++ e.frames := by
  cases h with
  | queued => rfl
  | readEnded handler item error pc hread =>
    rcases item with _ | _ | _ <;> rfl
  | delivered write | flushed write => cases write <;> exact (List.append_nil _).symm
  | _ => exact (List.append_nil _).symm

theorem Moves.written_prefix (h : Moves fb sh t e (sh', t')) : t.written <+: t'.written := by
  cases h with
  | handshakeSent message ok =>
    cases ok with
    | true => exact List.prefix_append _ _
    | false => exact List.prefix_rfl
  | delivered write | flushed write => cases write <;> exact List.prefix_append _ _
  | _ => exact List.prefix_rfl

theorem Moves.cause (h : Moves fb sh t e (sh', t')) (ht : t.AtPc fb) (hc : ∀ why ∈ t.ended, Cause fb t why) :
    ∀ why ∈ t'.ended, Cause fb t' why := by
  have hfrozen := fun (msg : Bytes) (hmsg : t.handling = some msg) (hrefused : ¬ Accepted fb msg) =>
    (h.frozen ht hmsg hrefused).2.1
  have hkept (hended : t'.ended = t.ended) (hqueue : t'.queue = t.queue) : ∀ why ∈ t'.ended, Cause fb t' why :=
    fun why hwhy => (hc why (hended ▸ hwhy)).kept hqueue hfrozen
  have hopen {handler : HandlerState} (hpc : t.pc = .running handler) (why : Ended) (hwhy : why ∈ t.ended) :
      False := by
    obtain ⟨-, -, -, hended, -⟩ := ht.running hpc
    rw [hended] at hwhy
    cases hwhy
  cases h with
  | readEnded handler item error pc hread =>
    have hclosed := (ht.running pc).1.closed
    rintro why ⟨⟩
    cases item with
    | none =>
      obtain rfl := Except.error.inj hread
      exact .endOfStream
    | some message =>
      cases message with
      | error _ =>
        obtain rfl := Except.error.inj hread
        exact .readFailed
      | ok message =>
        simp only [startReadLoop] at hread
        split at hread
        · cases hread
        · rename_i value hsend
          obtain rfl := Except.error.inj hread
          rcases Mpsc.trySend_error hsend with ⟨hclosed', -⟩ | ⟨-, hfull, -⟩
          · exact absurd (hclosed.symm.trans hclosed') (by decide)
          · exact .overflow hfull
        · rename_i value hsend
          rcases Mpsc.trySend_error hsend with ⟨hclosed', -⟩ | ⟨-, -, herror⟩
          · exact absurd (hclosed.symm.trans hclosed') (by decide)
          · cases herror
  | rejected disabled start next next' msg error queue pc receiver took skipped refused herror =>
    rintro why ⟨⟩
    exact .refused error msg rfl refused
  | sendFailed write why pc reason =>
    rintro _ ⟨⟩
    rcases reason with rfl | rfl
    · exact .replyFailed
    · exact .sendFailed
  | queued _ _ _ pc | handled _ _ _ _ _ _ pc | replying _ _ _ _ _ _ _ pc | sendingToAll _ _ _ _ pc
  | waiting _ _ _ _ _ pc =>
    exact fun why hwhy => (hopen pc why hwhy).elim
  | delivered write | flushed write => cases write <;> exact hkept rfl rfl
  | refused pc full =>
    intro why hwhy
    rw [(ht.inserting pc).2.1.ended] at hwhy
    cases hwhy
  | _ => exact hkept rfl rfl

end Task

namespace Endpoint
variable {SocketAddr : Type} [DecidableEq SocketAddr] {fb : Flexbuffers} {greetings : Set (List Bytes)} {since : Nat}

theorem Moves.delivers {s s' : Endpoint SocketAddr} {e : EndpointEvent SocketAddr} (h : Moves fb s e s')
    (hs : s.task.AtPc fb) (hsent : [heloBytes fb] ∈ greetings)
    (hfailed : e = .task (.sent false) → [] ∈ greetings)
    (hd : s.task.Delivers fb greetings since s.shared.sendToAll) :
    s'.task.Delivers fb greetings since s'.shared.sendToAll := by
  cases h with
  | task e next moves =>
    refine ⟨moves.read hs hd.read, moves.accepted hs hd.accepted, moves.position hd.position,
      moves.spoken hs hd.position hsent (fun he => hfailed (by rw [he])) hd.spoken⟩
  | sendToAll msgBytes senders =>
    refine ⟨hd.read, hd.accepted, fun next hnext => ?_, fun hgreeted => (hd.spoken hgreeted).hear ?_⟩
    · obtain ⟨hsince, hlen⟩ := hd.position next hnext
      exact ⟨hsince, hlen.trans (by simp)⟩
    · refine Broadcast.passed_sublist since (List.prefix_append _ _) ?_
      cases s.task.receiver <;> simp
  | others manager senders receivers notifier now cloned =>
    exact ⟨hd.read, hd.accepted, hd.position, hd.spoken⟩

theorem run_delivers {sh : Shared SocketAddr} {addr : SocketAddr} {maxPendingMessages : Nat}
    {es : List (EndpointEvent SocketAddr)} {s : Endpoint SocketAddr}
    (h : Machine.run (step fb) (start sh addr maxPendingMessages since) es = some s)
    (hsince : since ≤ sh.sendToAll.sent.length) (hsent : [heloBytes fb] ∈ greetings)
    (hfailed : .task (.sent false) ∈ es → [] ∈ greetings) :
    s.task.Delivers fb greetings since s.shared.sendToAll := by
  have hguard (_ : Endpoint SocketAddr) (e : EndpointEvent SocketAddr) (he : e ∈ es)
      (hfail : e = .task (.sent false)) : [] ∈ greetings := by
    rw [hfail] at he
    exact hfailed he
  refine (Machine.Guarded.invariant (P := fun s => s.task.AtPc fb ∧ s.task.Delivers fb greetings since s.shared.sendToAll) ?_
    ⟨Task.spawn_atPc addr maxPendingMessages since, rfl, by simp [start, Task.spawn],
      by simpa [start, Task.spawn] using hsince, fun hgreeted => hgreeted.elim⟩
    (Machine.guarded_of_forall es hguard _) h).2
  rintro s e s' ⟨hs, hd⟩ hfail hstep
  have hmoves := step_moves hstep
  exact ⟨(hmoves.atPc hs).1, hmoves.delivers hs hsent hfail hd⟩

end Endpoint

end Braidpool.Connection
