import Braidpool.Connection.Link

/-! The frames between a peer and the handler: each frame that the read loop takes is
handled, being handled, queued or refused, and the read loop stops with the first
that the queue refuses. -/
namespace Braidpool.Connection
open Braidpool.Runtime Braidpool.Protocol

namespace Task
variable {SocketAddr : Type} [DecidableEq SocketAddr] {fb : Flexbuffers} {sh sh' : Shared SocketAddr}
  {t t' : Task SocketAddr} {e : TaskEvent}

theorem Moves.queueCapacity (h : Moves fb sh t e (sh', t')) : t'.queue.capacity = t.queue.capacity := by
  cases h with
  | queued handler message queue pc sent =>
    obtain ⟨-, -, -, hcapacity, -⟩ := Mpsc.trySend_ok sent
    exact hcapacity
  | handled disabled start next next' msg queue pc receiver took => exact took.capacity
  | replying disabled start next next' msg toSend queue pc receiver took => exact took.capacity
  | rejected disabled start next next' msg error queue pc receiver took => exact took.capacity
  | delivered write | flushed write => cases write <;> rfl
  | _ => rfl

/-- A select that has ended does not start again. -/
theorem Moves.ended (h : Moves fb sh t e (sh', t')) (hended : t.ended.isSome) : t'.ended.isSome := by
  cases h with
  | readEnded | rejected | sendFailed => rfl
  | delivered write | flushed write => cases write <;> exact hended
  | _ => exact hended

theorem Moves.not_read (h : Moves fb sh t e (sh', t')) (ht : t.AtPc fb) (hended : t.ended.isSome)
    (item : Option (Except String Bytes)) : e ≠ .read item := by
  have hrunning {handler : HandlerState} (pc : t.pc = .running handler) : False := by
    obtain ⟨-, -, -, hopen, -⟩ := ht.running pc
    rw [hopen] at hended
    cases hended
  rintro rfl
  cases h with
  | queued handler message queue pc => exact hrunning pc
  | readEnded handler item error pc => exact hrunning pc

/-- An error or the end of the stream ends the select. -/
theorem Moves.ended_of_read {item : Option (Except String Bytes)} (h : Moves fb sh t (.read item) (sh', t'))
    (hitem : ∀ message, item ≠ some (.ok message)) : t'.ended.isSome := by
  cases h with
  | queued handler message => exact absurd rfl (hitem message)
  | readEnded => rfl

/-- The queue refuses a frame that is read while it is full, or closed. -/
theorem Moves.refusal (h : Moves fb sh t e (sh', t')) (hnone : t.refused = none) {msg : Bytes}
    (hsome : t'.refused = some msg) :
    e = .read (some (.ok msg)) ∧ (t.queue.buffer.length = t.queue.capacity ∨ t.queue.closed = true) := by
  have hkept (hsame : t'.refused = t.refused) : False := by
    rw [hsame, hnone] at hsome
    cases hsome
  cases h with
  | readEnded handler item error pc hread =>
    match item with
    | none | some (.error _) => cases hsome
    | some (.ok message) =>
      obtain rfl : message = msg := Option.some.inj hsome
      refine ⟨rfl, ?_⟩
      simp only [startReadLoop] at hread
      cases hsend : t.queue.trySend message with
      | ok queue =>
        rw [hsend] at hread
        cases hread
      | error refusal =>
        rcases Mpsc.trySend_error hsend with ⟨hclosed, -⟩ | ⟨-, hfull, -⟩
        · exact .inr hclosed
        · exact .inl hfull
  | delivered write | flushed write => cases write <;> exact (hkept rfl).elim
  | _ => exact (hkept rfl).elim

end Task

namespace Endpoint
variable {SocketAddr : Type} [DecidableEq SocketAddr] {fb : Flexbuffers} {s s' : Endpoint SocketAddr}
  {es : List (EndpointEvent SocketAddr)}

/-- A task's frames are accounted for, and its queue keeps to its bound. -/
structure Accounted (fb : Flexbuffers) (maxPendingMessages : Nat) (t : Task SocketAddr) : Prop where
  atPc : t.AtPc fb
  read : t.read = t.handled ++ t.handling.toList ++ t.queue.buffer ++ t.refused.toList
  capacity : t.queue.capacity = maxPendingMessages

theorem Moves.accounted {e : EndpointEvent SocketAddr} (h : Moves fb s e s') {maxPendingMessages : Nat}
    (hs : Accounted fb maxPendingMessages s.task) : Accounted fb maxPendingMessages s'.task := by
  refine ⟨(h.atPc hs.atPc).1, ?_, ?_⟩
  · cases h with
    | task e next moves => exact moves.read hs.atPc hs.read
    | _ => exact hs.read
  · cases h with
    | task e next moves => exact moves.queueCapacity.trans hs.capacity
    | _ => exact hs.capacity

theorem run_read_frames (h : Machine.run (step fb) s es = some s') :
    s'.task.read = s.task.read ++ es.flatMap EndpointEvent.frames := by
  induction es generalizing s with
  | nil =>
    obtain rfl := Option.some.inj h
    rw [List.flatMap_nil, List.append_nil]
  | cons e es ih =>
    obtain ⟨u, he, hes⟩ := Machine.run_cons.mp h
    rw [ih hes, (step_moves he).read_frames, List.flatMap_cons, List.append_assoc]

theorem Moves.ended {e : EndpointEvent SocketAddr} (h : Moves fb s e s') (hended : s.task.ended.isSome) :
    s'.task.ended.isSome := by
  cases h with
  | task e next moves => exact moves.ended hended
  | _ => exact hended

theorem run_not_read (h : Machine.run (step fb) s es = some s') (hs : s.task.AtPc fb)
    (hended : s.task.ended.isSome) (item : Option (Except String Bytes)) : .task (.read item) ∉ es := by
  induction es generalizing s with
  | nil => exact List.not_mem_nil
  | cons e es ih =>
    obtain ⟨u, he, hes⟩ := Machine.run_cons.mp h
    have hmoves := step_moves he
    intro hmem
    rcases List.mem_cons.mp hmem with rfl | hmem
    · cases hmoves with
      | task e next moves => exact moves.not_read hs hended item rfl
    · exact ih hes (hmoves.atPc hs).1 (hmoves.ended hended) hmem

/-- A run that has read an error or the end of the stream has ended its select. -/
private theorem run_ended_of_read (h : Machine.run (step fb) s es = some s')
    {item : Option (Except String Bytes)} (hitem : ∀ message, item ≠ some (.ok message))
    (hmem : .task (.read item) ∈ es) : s'.task.ended.isSome := by
  obtain ⟨before, after, rfl⟩ := List.append_of_mem hmem
  obtain ⟨u, -, h⟩ := Machine.run_append.mp h
  obtain ⟨v, he, h⟩ := Machine.run_cons.mp h
  have hv : v.task.ended.isSome := by
    cases step_moves he with
    | task e next moves => exact moves.ended_of_read hitem
  exact Machine.run_invariant (P := fun s => s.task.ended.isSome)
    (fun hended hstep => (step_moves hstep).ended hended) hv h

theorem run_accounted {sh : Shared SocketAddr} {addr : SocketAddr} {maxPendingMessages next : Nat}
    (h : Machine.run (step fb) (start sh addr maxPendingMessages next) es = some s) :
    Accounted fb maxPendingMessages s.task := by
  refine Machine.run_invariant (P := fun s => Accounted fb maxPendingMessages s.task) ?_
    ⟨Task.spawn_atPc addr maxPendingMessages next, rfl, rfl⟩ h
  intro s e s' hs hstep
  exact (step_moves hstep).accounted hs

/-- The frames that the reader has yielded are those handled, the one being handled,
those queued and the one refused, in that order. The queue keeps to its bound and
refuses a frame only when it is full or closed; after a refusal, an error or the
end of the stream nothing more is read. -/
theorem run_accounts {sh : Shared SocketAddr} {addr : SocketAddr} {maxPendingMessages next : Nat}
    (h : Machine.run (step fb) (start sh addr maxPendingMessages next) es = some s) :
    es.flatMap EndpointEvent.frames =
      s.task.handled ++ s.task.handling.toList ++ s.task.queue.buffer ++ s.task.refused.toList ∧
    s.task.queue.buffer.length ≤ maxPendingMessages ∧
    (∀ e s' msg, step fb s e = some s' → s.task.refused = none → s'.task.refused = some msg →
      e = .task (.read (some (.ok msg))) ∧
        (s.task.queue.buffer.length = maxPendingMessages ∨ s.task.queue.closed = true)) ∧
    ((s.task.refused.isSome ∨ ∃ item, .task (.read item) ∈ es ∧ ∀ message, item ≠ some (.ok message)) →
      ∀ es' s', Machine.run (step fb) s es' = some s' → ∀ item, .task (.read item) ∉ es') ∧
    (es.flatMap EndpointEvent.frames).length ≤ s.task.handled.length + maxPendingMessages + 2 := by
  have hs := run_accounted h
  have hframes : es.flatMap EndpointEvent.frames = s.task.read := by
    rw [run_read_frames h]
    rfl
  have hbounded : s.task.queue.buffer.length ≤ maxPendingMessages := hs.capacity ▸ s.task.queue.bounded
  refine ⟨hframes.trans hs.read, hbounded, ?_, ?_, ?_⟩
  · intro e s' msg hstep hnone hsome
    cases step_moves hstep with
    | task e next moves =>
      obtain ⟨rfl, hrefusal⟩ := moves.refusal hnone hsome
      exact ⟨rfl, hs.capacity ▸ hrefusal⟩
    | sendToAll | others =>
      rw [hnone] at hsome
      cases hsome
  · intro hstopped es' s' h' item
    have hended : s.task.ended.isSome := by
      rcases hstopped with hrefused | ⟨item, hmem, hitem⟩
      · by_contra hopen
        rw [hs.atPc.refused (by simpa using hopen)] at hrefused
        cases hrefused
      · exact run_ended_of_read h hitem hmem
    exact run_not_read h' hs.atPc hended item
  · have hhandling := Option.length_toList_le (o := s.task.handling)
    have hrefused := Option.length_toList_le (o := s.task.refused)
    rw [hframes, hs.read]
    simp only [List.length_append]
    omega

/-- The peer sends five frames at once to a queue of four. -/
def flood : List (EndpointEvent SocketAddrV4) :=
  [.task .insert, .task (.sent true), .task (.read (some (.ok [1]))), .task (.read (some (.ok [2]))),
    .task (.read (some (.ok [3]))), .task (.read (some (.ok [4]))), .task (.read (some (.ok [5])))]

theorem run_accounts_flood :
    ∃ s, Machine.run (step Codec.flexbuffers) accepted flood = some s ∧ s.task.refused = some [5] ∧
      s.task.handled ++ s.task.handling.toList ++ s.task.queue.buffer = [[1], [2], [3], [4]] ∧
      s.task.queue.buffer.length ≤ 4 := by
  obtain ⟨s, hs, hrefused⟩ : ∃ s, Machine.run (step Codec.flexbuffers) accepted flood = some s ∧
      s.task.refused = some [5] :=
    Machine.exists_run (fun s : Endpoint SocketAddrV4 => s.task.refused = some [5]) (by decide)
  obtain ⟨hframes, hbounded, -⟩ := run_accounts hs
  refine ⟨s, hs, hrefused, ?_, hbounded⟩
  rw [hrefused] at hframes
  have hread : [[1], [2], [3], [4]] ++ [[5]] = s.task.handled ++ s.task.handling.toList ++ s.task.queue.buffer ++ [[5]] :=
    hframes
  exact (List.append_cancel_right hread).symm

end Endpoint

end Braidpool.Connection
