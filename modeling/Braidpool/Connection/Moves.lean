import Braidpool.Connection.Start

/-! What one step of a connection task can do, with everything it depends on.
The invariants of the task are read off this list. -/
namespace Braidpool.Connection
open Braidpool.Runtime Braidpool.Protocol

/-- The reply a frame gets: the bytes of the response to its message, if it decodes
and there is one. -/
def replyTo (fb : Flexbuffers) (msg : Bytes) : Option Bytes :=
  match Message.fromBytes fb msg with
  | .error _ => none
  | .ok message =>
    match message.responseForReceived with
    | .ok (some response) => (response.asBytes fb).toOption.join
    | _ => none

/-- The frame decodes and the message in it is answered or accepted. -/
def Accepted (fb : Flexbuffers) (msg : Bytes) : Prop :=
  ∃ message response, Message.fromBytes fb msg = .ok message ∧ message.responseForReceived = .ok response

/-- The message of an accepted frame calls for no reply, or the reply is its response, encoded. -/
theorem Accepted.cases {fb : Flexbuffers} {msg : Bytes} (h : Accepted fb msg) :
    ∃ message, Message.fromBytes fb msg = .ok message ∧
      (message.responseForReceived = .ok none ∧ replyTo fb msg = none ∨
        ∃ response toSend, message.responseForReceived = .ok (some response) ∧
          response.asBytes fb = .ok (some toSend) ∧ replyTo fb msg = some toSend) := by
  obtain ⟨message, response, hm, hr⟩ := h
  refine ⟨message, hm, ?_⟩
  cases response with
  | none => exact .inl ⟨hr, by simp only [replyTo, hm, hr]⟩
  | some response =>
    obtain ⟨toSend, hb⟩ := Message.asBytes_reply fb hr
    refine .inr ⟨response, toSend, hr, hb, ?_⟩
    simp only [replyTo, hm, hr, hb]
    rfl

theorem replyTo_of_not_accepted {fb : Flexbuffers} {msg : Bytes} (h : ¬ Accepted fb msg) : replyTo fb msg = none := by
  unfold replyTo
  split
  · rfl
  · split
    · exact absurd ⟨_, _, ‹_›, ‹_›⟩ h
    · rfl

/-- Handling a frame never panics: it is accepted, with its reply, or refused. -/
theorem handleReceived_cases (fb : Flexbuffers) (msg : Bytes) :
    (Accepted fb msg ∧ replyTo fb msg = none ∧ handleReceived fb msg = .ok (.returned (.ok ()))) ∨
    (∃ toSend, Accepted fb msg ∧ replyTo fb msg = some toSend ∧ handleReceived fb msg = .ok (.sending toSend)) ∨
    (¬ Accepted fb msg ∧ replyTo fb msg = none ∧
      ∃ e, handleReceived fb msg = .ok (.returned (.error e)) ∧ e ≠ "Send failed: Closing peer connection") := by
  by_cases haccepted : Accepted fb msg
  · obtain ⟨message, hm, ⟨hr, hnone⟩ | ⟨response, toSend, hr, hb, hsome⟩⟩ := haccepted.cases
    · exact .inl ⟨haccepted, hnone, by simp only [handleReceived, hm, hr]⟩
    · exact .inr (.inl ⟨toSend, haccepted, hsome, by simp only [handleReceived, hm, hr, hb]⟩)
  · refine .inr (.inr ⟨haccepted, replyTo_of_not_accepted haccepted, ?_⟩)
    cases hm : Message.fromBytes fb msg with
    | error e => exact ⟨"Error parsing message", by simp only [handleReceived, hm], by decide⟩
    | ok message =>
      cases hr : message.responseForReceived with
      | error e =>
        exact ⟨"Error constructing response: Closing peer connection", by simp only [handleReceived, hm, hr], by decide⟩
      | ok response => exact absurd ⟨message, response, hm, hr⟩ haccepted

def heloBytes (fb : Flexbuffers) : Bytes :=
  fb.takeBuffer ⟨"Handshake", [("message", .string "helo"), ("version", .string "0.1.0")]⟩

namespace Task
variable {SocketAddr : Type}

/-- The queue `q` is the queue `p` after `p`'s receiver took `taken`. -/
structure Took (p : Mpsc Bytes) (taken : List Bytes) (q : Mpsc Bytes) : Prop where
  buffer : p.buffer = taken ++ q.buffer
  capacity : q.capacity = p.capacity
  senders : q.senders = p.senders
  closed : q.closed = p.closed

/-- The broadcast receiver at `next` has been moved to `next'` without a message. -/
def Skipped (sendToAll : Broadcast Bytes) (next next' : Nat) : Prop :=
  next' = next ∨ sendToAll.Lagged next ∧ next' = sendToAll.sent.length - sendToAll.capacity

/-- What the poll of the message handler's select yields. -/
inductive Polled (sendToAll : Broadcast Bytes) (disabled : Finset (Fin 2)) (queue : Mpsc Bytes) (next : Nat) :
    Select.Outcome 2 Arm × (Mpsc Bytes × Nat) → Prop where
  | message (msg : Bytes) (queue' : Mpsc Bytes) (next' : Nat) (took : Took queue [msg] queue')
      (skipped : Skipped sendToAll next next') :
      Polled sendToAll disabled queue next (.completed (.message msg), (queue', next'))
  | sendToAll (msgBytes : Bytes) (current : ¬ sendToAll.Lagged next)
      (sent : sendToAll.sent[next]? = some msgBytes) (enabled : 1 ∉ disabled) :
      Polled sendToAll disabled queue next (.completed (.sendToAll msgBytes), (queue, next + 1))
  | pending (disabled' : Finset (Fin 2)) (next' : Nat) (skipped : Skipped sendToAll next next')
      (queueArm : 0 ∈ disabled' → 0 ∈ disabled ∨ queue.closed = true ∨ queue.senders = 0)
      (sendToAllArm : 1 ∈ disabled' → 1 ∈ disabled ∨ sendToAll.Lagged next ∨ sendToAll.senders = 0) :
      Polled sendToAll disabled queue next (.pending disabled', (queue, next'))
  | stuck (s : Mpsc Bytes × Nat) (queueArm : 0 ∈ disabled ∨ queue.closed = true ∨ queue.senders = 0) :
      Polled sendToAll disabled queue next (.allDisabled, s)

/-- During a poll the queue stays as it is, and the receiver moves only when its
branch is disabled for lag. -/
private def Visiting (c : Broadcast Bytes) (queue : Mpsc Bytes) (next : Nat) (disabled : Finset (Fin 2))
    (s : Mpsc Bytes × Nat) : Prop :=
  s.1 = queue ∧ (s.2 = next ∨ sendToAllBranch ∈ disabled ∧ Skipped c next s.2)

private theorem Visiting.skipped {c : Broadcast Bytes} {queue : Mpsc Bytes} {next : Nat}
    {disabled : Finset (Fin 2)} {s : Mpsc Bytes × Nat} (h : Visiting c queue next disabled s) :
    Skipped c next s.2 := h.2.elim .inl (·.2)

private theorem queueArm_eq {c : Broadcast Bytes} {s t : Mpsc Bytes × Nat} {p : Poll (Option Arm)}
    (h : arms c 0 s = (p, t)) :
    (s.1.recv.1.map fun msg => msg.map Arm.message) = p ∧ s.1.recv.2 = t.1 ∧ s.2 = t.2 := by
  obtain ⟨hp, rfl⟩ := Prod.mk.inj h
  exact ⟨hp, rfl, rfl⟩

private theorem sendToAllArm_eq {c : Broadcast Bytes} {s t : Mpsc Bytes × Nat} {p : Poll (Option Arm)}
    (h : arms c 1 s = (p, t)) :
    ((c.recv s.2).1.map fun msg => msg.toOption.map Arm.sendToAll) = p ∧ s.1 = t.1 ∧ (c.recv s.2).2 = t.2 := by
  obtain ⟨hp, rfl⟩ := Prod.mk.inj h
  exact ⟨hp, rfl, rfl⟩

/-- A queue branch that completes nothing leaves the queue as it was. -/
private theorem queueArm_unchanged {c : Broadcast Bytes} {s t : Mpsc Bytes × Nat} {p : Poll (Option Arm)}
    (h : arms c 0 s = (p, t)) (hp : ∀ out, p ≠ .ready (some out)) : t = s := by
  obtain ⟨hout, hqueue, hnext⟩ := queueArm_eq h
  have hsame := (Mpsc.recv_unchanged (c := s.1) fun msg hr => hp (.message msg) (by rw [← hout, hr]; rfl)).1
  exact Prod.ext (hqueue.symm.trans hsame) hnext.symm

private theorem sendToAllArm_pending {c : Broadcast Bytes} {s t : Mpsc Bytes × Nat}
    (h : arms c 1 s = (.pending, t)) : t = s := by
  obtain ⟨hout, hqueue, hnext⟩ := sendToAllArm_eq h
  refine Prod.ext hqueue.symm (hnext.symm.trans ?_)
  unfold Broadcast.recv at hout ⊢
  split at hout
  · cases hout
  · rw [if_neg ‹_›]
    split at hout
    · cases hout
    · rfl

private theorem sendToAllArm_refuted {c : Broadcast Bytes} {s t : Mpsc Bytes × Nat}
    (h : arms c 1 s = (.ready none, t)) :
    (c.Lagged s.2 ∨ c.senders = 0) ∧ t.1 = s.1 ∧ Skipped c s.2 t.2 := by
  obtain ⟨hout, hqueue, hnext⟩ := sendToAllArm_eq h
  refine ⟨?_, hqueue.symm, ?_⟩
  · cases hr : (c.recv s.2).1 with
    | pending => rw [hr] at hout; cases hout
    | ready value =>
      rw [hr] at hout
      cases value with
      | error e => exact Broadcast.recv_error hr
      | ok msgBytes => cases hout
  · rw [← hnext]
    unfold Broadcast.recv at hout ⊢
    split
    · exact .inr ⟨‹_›, rfl⟩
    · split
      · rename_i msgBytes hsent
        rw [if_neg ‹_›, hsent] at hout
        cases hout
      · exact .inl rfl

private theorem visiting_keeps (c : Broadcast Bytes) (queue : Mpsc Bytes) (next : Nat) :
    Select.Keeps (arms c) (Visiting c queue next) where
  pending {disabled i s t} hs hi h := by
    match i with
    | 0 => rwa [queueArm_unchanged h (by simp)]
    | 1 => rwa [sendToAllArm_pending h]
  refuted {disabled i s t} hs hi h := by
    match i with
    | 0 =>
      rw [queueArm_unchanged h (by simp)]
      exact ⟨hs.1, hs.2.imp_right (fun hd => ⟨Finset.mem_insert_of_mem hd.1, hd.2⟩)⟩
    | 1 =>
      obtain ⟨-, hqueue, hskip⟩ := sendToAllArm_refuted h
      have hnext : s.2 = next := hs.2.resolve_right fun hd => hi hd.1
      exact ⟨hqueue.trans hs.1, .inr ⟨Finset.mem_insert_self _ _, hnext ▸ hskip⟩⟩

private theorem refutable_queueArm {c : Broadcast Bytes} {queue : Mpsc Bytes} {next : Nat}
    (h : Select.Refutable (arms c) (Visiting c queue next) 0) : queue.closed = true ∨ queue.senders = 0 := by
  obtain ⟨disabled, s, t, ⟨rfl, -⟩, -, h⟩ := h
  obtain ⟨hout, -, -⟩ := queueArm_eq h
  cases hr : s.1.recv.1 with
  | pending => rw [hr] at hout; cases hout
  | ready value =>
    rw [hr] at hout
    cases value with
    | none => exact Mpsc.recv_none hr
    | some msg => cases hout

private theorem refutable_sendToAllArm {c : Broadcast Bytes} {queue : Mpsc Bytes} {next : Nat}
    (h : Select.Refutable (arms c) (Visiting c queue next) 1) : c.Lagged next ∨ c.senders = 0 := by
  obtain ⟨disabled, s, t, ⟨-, hs⟩, hi, h⟩ := h
  have hnext : s.2 = next := hs.resolve_right fun hd => hi hd.1
  exact hnext ▸ (sendToAllArm_refuted h).1

theorem polled (c : Broadcast Bytes) (start : Fin 2) (disabled : Finset (Fin 2)) (queue : Mpsc Bytes)
    (next : Nat) : Polled c disabled queue next (Select.poll (arms c) start disabled (queue, next)) := by
  have hkeep := visiting_keeps c queue next
  have hs : Visiting c queue next disabled (queue, next) := ⟨rfl, .inl rfl⟩
  cases hp : Select.poll (arms c) start disabled (queue, next) with
  | mk outcome s =>
    cases outcome with
    | completed out =>
      obtain ⟨i, larger, u, hsub, hi, hu, hpoll⟩ := Select.poll_completed hkeep hs hp
      match i with
      | 0 =>
        obtain ⟨hout, hqueue, hnext⟩ := queueArm_eq hpoll
        cases hr : u.1.recv.1 with
        | pending => rw [hr] at hout; cases hout
        | ready value =>
          rw [hr] at hout
          cases value with
          | none => cases hout
          | some msg =>
            cases hout
            obtain ⟨hb, hc, hsend, hcl⟩ := Mpsc.recv_some (Prod.ext hr hqueue)
            rw [hu.1] at hb hc hsend hcl
            exact .message msg s.1 s.2 ⟨hb, hc, hsend, hcl⟩ (hnext ▸ hu.skipped)
      | 1 =>
        obtain ⟨hout, hqueue, hnext⟩ := sendToAllArm_eq hpoll
        cases hr : (c.recv u.2).1 with
        | pending => rw [hr] at hout; cases hout
        | ready value =>
          rw [hr] at hout
          cases value with
          | error e => cases hout
          | ok msgBytes =>
            cases hout
            obtain ⟨hlag, hsent, hs2⟩ := Broadcast.recv_ok (Prod.ext hr hnext)
            have hn : u.2 = next := hu.2.resolve_right fun hd => hi hd.1
            rw [hn] at hlag hsent hs2
            obtain rfl : s = (queue, next + 1) := Prod.ext (hqueue.symm.trans hu.1) hs2
            exact .sendToAll msgBytes hlag hsent fun hd => hi (hsub hd)
    | pending disabled' =>
      obtain ⟨ht, hd⟩ := Select.poll_pending hkeep hs hp
      obtain ⟨queue', next'⟩ := s
      obtain rfl : queue' = queue := ht.1
      exact .pending disabled' next' ht.skipped (fun h => (hd 0 h).imp_right refutable_queueArm)
        (fun h => (hd 1 h).imp_right refutable_sendToAllArm)
    | allDisabled =>
      exact .stuck s ((Select.poll_allDisabled hkeep hs hp 0).imp_right refutable_queueArm)

/-- The steps of a task. A step is an event with what it leaves of the shared
state and of the task; nothing else can happen. -/
inductive Moves [DecidableEq SocketAddr] (fb : Flexbuffers) (sh : Shared SocketAddr) (t : Task SocketAddr) :
    TaskEvent → Shared SocketAddr × Task SocketAddr → Prop where
  | refused (pc : t.pc = .insert) (full : sh.manager.capacity ≤ sh.manager.numConnections) :
      Moves fb sh t .insert ({ sh with sendToAll := sh.sendToAll.dropReceiver },
        { t with pc := .refused, queue := t.queue.dropSender, receiver := none, calls := t.calls ++ [.insert false] })
  | admitted (old : Option Metadata) (manager : ConnectionManager SocketAddr) (pc : t.pc = .insert)
      (inserted : sh.manager.insert t.addr ⟨sh.now⟩ = .ok (old, manager)) :
      Moves fb sh t .insert ({ sh with manager },
        { t with pc := .handshake (heloBytes fb), calls := t.calls ++ [.insert true] })
  | handshakeSent (message : Bytes) (ok : Bool) (pc : t.pc = .handshake message) :
      Moves fb sh t (.sent ok) (sh, t.handshakeSent message ok)
  | queued (handler : HandlerState) (message : Bytes) (queue : Mpsc Bytes) (pc : t.pc = .running handler)
      (sent : t.queue.trySend message = .ok queue) :
      Moves fb sh t (.read (some (.ok message))) (sh, { t with queue, read := t.read ++ [message] })
  | readEnded (handler : HandlerState) (item : Option (Except String Bytes)) (e : String)
      (pc : t.pc = .running handler) (error : startReadLoop t.queue item = .error e) :
      Moves fb sh t (.read item) (endSelect sh
        { t with read := t.read ++ (item.bind Except.toOption).toList, refused := item.bind Except.toOption }
        (.readLoop e) handler.unflushed)
  | handled (disabled : Finset (Fin 2)) (start : Fin 2) (next next' : Nat) (msg : Bytes) (queue : Mpsc Bytes)
      (pc : t.pc = .running (.select disabled)) (receiver : t.receiver = some next)
      (took : Took t.queue [msg] queue) (skipped : Skipped sh.sendToAll next next')
      (accepted : Accepted fb msg) (reply : replyTo fb msg = none) :
      Moves fb sh t (.poll start) (sh, { t with
        pc := .running (.select ∅), queue, receiver := some next', handled := t.handled ++ [msg] })
  | replying (disabled : Finset (Fin 2)) (start : Fin 2) (next next' : Nat) (msg toSend : Bytes)
      (queue : Mpsc Bytes) (pc : t.pc = .running (.select disabled)) (receiver : t.receiver = some next)
      (took : Took t.queue [msg] queue) (skipped : Skipped sh.sendToAll next next')
      (accepted : Accepted fb msg) (reply : replyTo fb msg = some toSend) :
      Moves fb sh t (.poll start) (sh, { t with
        pc := .running (.writing (.reply toSend)), queue, receiver := some next', handling := some msg })
  | rejected (disabled : Finset (Fin 2)) (start : Fin 2) (next next' : Nat) (msg : Bytes) (e : String)
      (queue : Mpsc Bytes) (pc : t.pc = .running (.select disabled)) (receiver : t.receiver = some next)
      (took : Took t.queue [msg] queue) (skipped : Skipped sh.sendToAll next next')
      (refused : ¬ Accepted fb msg) (error : e ≠ "Send failed: Closing peer connection") :
      Moves fb sh t (.poll start) (endSelect sh
        { t with queue, receiver := some next', handling := some msg } (.handleReceived e) none)
  | sendingToAll (disabled : Finset (Fin 2)) (start : Fin 2) (next : Nat) (msgBytes : Bytes)
      (pc : t.pc = .running (.select disabled)) (receiver : t.receiver = some next)
      (current : ¬ sh.sendToAll.Lagged next) (sent : sh.sendToAll.sent[next]? = some msgBytes)
      (enabled : 1 ∉ disabled) :
      Moves fb sh t (.poll start) (sh, { t with
        pc := .running (.writing (.sendToAll msgBytes)), receiver := some (next + 1) })
  | waiting (disabled disabled' : Finset (Fin 2)) (start : Fin 2) (next next' : Nat)
      (pc : t.pc = .running (.select disabled)) (receiver : t.receiver = some next)
      (skipped : Skipped sh.sendToAll next next')
      (queueArm : 0 ∈ disabled' → 0 ∈ disabled ∨ t.queue.closed = true ∨ t.queue.senders = 0)
      (sendToAllArm : 1 ∈ disabled' → 1 ∈ disabled ∨ sh.sendToAll.Lagged next ∨ sh.sendToAll.senders = 0) :
      Moves fb sh t (.poll start) (sh, { t with pc := .running (.select disabled'), receiver := some next' })
  | stuck (disabled : Finset (Fin 2)) (start : Fin 2) (p : Panic) (pc : t.pc = .running (.select disabled))
      (queueArm : 0 ∈ disabled ∨ t.queue.closed = true ∨ t.queue.senders = 0) :
      Moves fb sh t (.poll start) (unwind sh t p)
  | delivered (write : Write) (pc : t.pc = .running (.writing write)) :
      Moves fb sh t (.sent true) (sh, { t.deliver write with pc := .running (.select ∅) })
  | sendFailed (write : Write) (why : Ended) (pc : t.pc = .running (.writing write))
      (reason : why = .handleReceived "Send failed: Closing peer connection" ∨ why = .sendToAll) :
      Moves fb sh t (.sent false) (endSelect sh t why none)
  | writerClosed (unflushed : Option Write) (flushed : Bool) (pc : t.pc = .closing unflushed) :
      Moves fb sh t (.closed flushed) (sh, { t with pc := .removing, calls := t.calls ++ [.closeWriter] })
  | flushed (write : Write) (pc : t.pc = .closing (some write)) :
      Moves fb sh t (.closed true)
        (sh, { t.deliver write with pc := .removing, calls := t.calls ++ [.closeWriter] })
  | removed (pc : t.pc = .removing) : Moves fb sh t .remove (t.remove sh)

section
variable [DecidableEq SocketAddr] {fb : Flexbuffers} {sh : Shared SocketAddr} {t : Task SocketAddr}

private theorem insert_moves (hpc : t.pc = .insert) : Moves fb sh t .insert (t.insert fb sh) := by
  unfold insert
  cases hm : sh.manager.insert t.addr ⟨sh.now⟩ with
  | error e => exact .refused hpc (ConnectionManager.insert_error hm).1
  | ok result =>
    obtain ⟨old, manager⟩ := result
    exact .admitted old manager hpc hm

private theorem readItem_moves {handler : HandlerState} (hpc : t.pc = .running handler)
    (item : Option (Except String Bytes)) : Moves fb sh t (.read item) (t.readItem sh handler item) := by
  unfold readItem
  cases hr : startReadLoop t.queue item with
  | error e => exact .readEnded handler item e hpc hr
  | ok queue =>
    match item with
    | none => cases hr
    | some (.error e) => cases hr
    | some (.ok message) =>
      simp only [startReadLoop] at hr
      split at hr
      · rename_i q hq
        obtain rfl := Except.ok.inj hr
        exact .queued handler message q hpc hq
      · cases hr
      · cases hr

private theorem poll_moves {disabled : Finset (Fin 2)} (hpc : t.pc = .running (.select disabled)) {next : Nat}
    (hnext : t.receiver = some next) (start : Fin 2) :
    Moves fb sh t (.poll start) (t.poll fb sh disabled start next) := by
  have hp := polled sh.sendToAll start disabled t.queue next
  unfold poll
  generalize Select.poll (arms sh.sendToAll) start disabled (t.queue, next) = result at hp
  cases hp with
  | message msg queue' next' took skipped =>
    simp only [received]
    rcases handleReceived_cases fb msg with ⟨ha, hr, hh⟩ | ⟨toSend, ha, hr, hh⟩ | ⟨ha, hr, e, hh, he⟩
    · rw [hh]
      exact .handled disabled start next next' msg queue' hpc hnext took skipped ha hr
    · rw [hh]
      exact .replying disabled start next next' msg toSend queue' hpc hnext took skipped ha hr
    · rw [hh]
      exact .rejected disabled start next next' msg e queue' hpc hnext took skipped ha he
  | sendToAll msgBytes current sent enabled =>
    exact .sendingToAll disabled start next msgBytes hpc hnext current sent enabled
  | pending disabled' next' skipped queueArm sendToAllArm =>
    exact .waiting disabled disabled' start next next' hpc hnext skipped queueArm sendToAllArm
  | stuck s queueArm => exact .stuck disabled start _ hpc queueArm

private theorem writeDone_moves {write : Write} (hpc : t.pc = .running (.writing write)) (ok : Bool) :
    Moves fb sh t (.sent ok) (t.writeDone sh write ok) := by
  unfold writeDone
  cases ok with
  | true => exact .delivered write hpc
  | false =>
    cases write with
    | reply toSend => exact .sendFailed _ _ hpc (.inl rfl)
    | sendToAll msgBytes => exact .sendFailed _ _ hpc (.inr rfl)

private theorem writerClosed_moves {unflushed : Option Write} (hpc : t.pc = .closing unflushed) (flushed : Bool) :
    Moves fb sh t (.closed flushed) (sh, t.writerClosed unflushed flushed) := by
  unfold writerClosed
  cases unflushed with
  | none => exact .writerClosed none flushed hpc
  | some write =>
    cases flushed with
    | false => exact .writerClosed (some write) false hpc
    | true => cases write <;> exact .flushed _ hpc

theorem step_moves {e : TaskEvent} {next : Shared SocketAddr × Task SocketAddr}
    (h : t.step fb sh e = some next) : Moves fb sh t e next := by
  unfold step at h
  split at h
  · rename_i hpc
    obtain rfl := Option.some.inj h
    exact insert_moves hpc
  · rename_i hpc
    obtain rfl := Option.some.inj h
    exact .handshakeSent _ _ hpc
  · rename_i hpc
    obtain rfl := Option.some.inj h
    exact readItem_moves hpc _
  · rename_i hpc
    obtain ⟨receiver, hreceiver, rfl⟩ := Option.map_eq_some_iff.mp h
    exact poll_moves hpc hreceiver _
  · rename_i hpc
    obtain rfl := Option.some.inj h
    exact writeDone_moves hpc _
  · rename_i hpc
    obtain rfl := Option.some.inj h
    exact writerClosed_moves hpc _
  · rename_i hpc
    obtain rfl := Option.some.inj h
    exact .removed hpc
  · cases h

end

end Task

end Braidpool.Connection
