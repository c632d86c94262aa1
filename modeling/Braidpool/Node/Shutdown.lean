import Braidpool.Node.Receivers
import Mathlib.Algebra.Order.BigOperators.Group.List

/-! What becomes of a node whose peers go: each connection is on its way out for a few
steps, and nothing of it stays, neither its entry nor its receiver. -/
namespace Braidpool
open Braidpool.Runtime Braidpool.Protocol Braidpool.Connection

namespace Connection

/-- How many steps a task needs to come to its end, at most, without its peer. -/
def Pc.toGo : Pc → Nat
  | .insert => 5
  | .handshake _ => 4
  | .running _ => 3
  | .closing _ => 2
  | .removing => 1
  | .refused | .finished | .panicked _ => 0

/-- What a task meets when its peer is gone: its sends fail, and the stream has ended. -/
def TaskEvent.parting : TaskEvent → Bool
  | .insert | .sent false | .read none | .closed _ | .remove => true
  | .sent true | .read (some _) | .poll _ => false

namespace Task
variable {SocketAddr : Type} [DecidableEq SocketAddr] {fb : Flexbuffers} {sh : Shared SocketAddr}
  {t : Task SocketAddr}

/-- No step takes a task back, and what it meets without its peer takes it on. -/
theorem Moves.toGo {e : TaskEvent} {next : Shared SocketAddr × Task SocketAddr} (h : Moves fb sh t e next) :
    next.2.pc.toGo + e.parting.toNat ≤ t.pc.toGo := by
  cases h with
  | refused pc full => simp [pc, Pc.toGo, TaskEvent.parting]
  | admitted old manager pc inserted => simp [pc, Pc.toGo, TaskEvent.parting]
  | handshakeSent message ok pc =>
    rw [pc]
    exact Nat.add_le_add_left (Bool.toNat_le _) 3
  | queued handler message queue pc sent => exact Nat.le_refl _
  | readEnded handler item error pc hread =>
    rw [pc]
    exact Nat.add_le_add_left (Bool.toNat_le _) 2
  | handled disabled start next next' msg queue pc => simp [pc, Pc.toGo, TaskEvent.parting]
  | replying disabled start next next' msg toSend queue pc => simp [pc, Pc.toGo, TaskEvent.parting]
  | rejected disabled start next next' msg error queue pc => simp [pc, Pc.toGo, TaskEvent.parting, endSelect]
  | sendingToAll disabled start next msgBytes pc => simp [pc, Pc.toGo, TaskEvent.parting]
  | waiting disabled disabled' start next next' pc => simp [pc, Pc.toGo, TaskEvent.parting]
  | stuck disabled start p pc queueArm => simp [pc, Pc.toGo, TaskEvent.parting, unwind]
  | delivered write pc => simp [pc, Pc.toGo, TaskEvent.parting]
  | sendFailed write why pc reason => simp [pc, Pc.toGo, TaskEvent.parting, endSelect]
  | writerClosed unflushed flushed pc => simp [pc, Pc.toGo, TaskEvent.parting]
  | flushed write pc => simp [pc, Pc.toGo, TaskEvent.parting]
  | removed pc => simp [pc, Pc.toGo, TaskEvent.parting, remove]

theorem exists_parting (fb : Flexbuffers) (sh : Shared SocketAddr) (h : t.pc.toGo ≠ 0) :
    ∃ e next, e.parting ∧ t.step fb sh e = some next := by
  cases hpc : t.pc with
  | insert => exact ⟨.insert, t.insert fb sh, rfl, by simp only [step, hpc]⟩
  | handshake message => exact ⟨.sent false, (sh, t.handshakeSent message false), rfl, by simp only [step, hpc]⟩
  | running handler => exact ⟨.read none, t.readItem sh handler none, rfl, by simp only [step, hpc]⟩
  | closing unflushed => exact ⟨.closed false, (sh, t.writerClosed unflushed false), rfl, by simp only [step, hpc]⟩
  | removing => exact ⟨.remove, t.remove sh, rfl, by simp only [step, hpc]⟩
  | refused | finished | panicked => exact absurd (by rw [hpc]; rfl) h

end Task

end Connection

/-- The event is one of a connection that has lost its peer, or gets none. -/
def NodeEvent.parting {SocketAddr : Type} : NodeEvent SocketAddr → Bool
  | .connected _ (.error _) _ => true
  | .task _ e => e.parting
  | _ => false

def NodeEvent.partingOf {SocketAddr : Type} (i : Nat) : NodeEvent SocketAddr → Bool
  | .connected j (.error _) _ => j = i
  | .task j e => j = i && e.parting
  | _ => false

def NodeEvent.begins {SocketAddr : Type} : NodeEvent SocketAddr → Bool
  | .connect | .accept (some _) => true
  | _ => false

namespace Node
variable {SocketAddr : Type}

def Conn.toGo : Conn SocketAddr → Nat
  | .connecting _ _ => 6
  | .ended => 0
  | .started t => t.pc.toGo

def toGo (s : Node SocketAddr) : Nat := (s.conns.map Conn.toGo).sum

def toGoOf (i : Nat) (s : Node SocketAddr) : Nat := (s.conns[i]?.map Conn.toGo).getD 0

/-- The connection has come to its end: without a stream, refused, or after its cleanup. -/
def Conn.Gone : Conn SocketAddr → Prop
  | .connecting _ _ => False
  | .ended => True
  | .started t => t.pc = .refused ∨ t.pc = .finished

/-- Nothing is left of the connections, neither in the table nor among the receivers. -/
structure Deserted (s : Node SocketAddr) : Prop where
  gone : ∀ c ∈ s.conns, c.Gone
  table : s.shared.manager.numConnections = 0
  receivers : s.shared.sendToAll.receivers = 0

theorem Conn.toGo_le (c : Conn SocketAddr) : c.toGo ≤ 6 := by
  cases c with
  | connecting | ended => simp [toGo]
  | started t =>
    rw [toGo]
    cases t.pc <;> simp [Pc.toGo]

theorem toGoOf_le (i : Nat) (s : Node SocketAddr) : s.toGoOf i ≤ 6 := by
  unfold toGoOf
  cases s.conns[i]? with
  | none => exact Nat.zero_le 6
  | some c => exact c.toGo_le

theorem toGo_le (s : Node SocketAddr) : s.toGo ≤ 6 * s.conns.length := by
  have hle : ∀ n ∈ s.conns.map Conn.toGo, n ≤ 6 := by
    intro n hn
    obtain ⟨c, -, rfl⟩ := List.mem_map.mp hn
    exact c.toGo_le
  have hsum := List.sum_le_card_nsmul _ 6 hle
  rw [List.length_map] at hsum
  exact hsum.trans (Nat.mul_comm s.conns.length 6).le

theorem toGo_set {conns : List (Conn SocketAddr)} {i : Nat} {old c : Conn SocketAddr} (hi : conns[i]? = some old) :
    ((conns.set i c).map Conn.toGo).sum + old.toGo = (conns.map Conn.toGo).sum + c.toGo := by
  induction conns generalizing i with
  | nil => cases hi
  | cons d conns ih =>
    cases i with
    | zero =>
      obtain rfl := Option.some.inj hi
      simp only [List.set_cons_zero, List.map_cons, List.sum_cons]
      omega
    | succ i =>
      have hrest := ih hi
      simp only [List.set_cons_succ, List.map_cons, List.sum_cons]
      omega

variable [DecidableEq SocketAddr] {fb : Flexbuffers} {s s' : Node SocketAddr} {e : NodeEvent SocketAddr}

/-- Without a new connection, what is to go does not grow, and every step of a connection
that has lost its peer takes from it. -/
theorem step_toGo (hbegins : e.begins = false) (h : step fb s e = some s') :
    s'.toGo + e.parting.toNat ≤ s.toGo := by
  have hconns := step_conns h
  unfold toGo
  generalize s'.conns = conns at hconns
  cases hconns with
  | task i te t next conn moves =>
    have htask := moves.toGo
    have hset := toGo_set (c := .started next.2) conn
    simp only [Conn.toGo] at hset
    simp only [NodeEvent.parting]
    omega
  | opened i receiver peer addr stream resolved conn pending =>
    have hset := toGo_set (c := .started (.spawn addr (.empty s.maxPendingMessages) receiver)) conn
    have hparting := Bool.toNat_le (NodeEvent.parting (.connected i stream resolved))
    simp only [Conn.toGo, Connection.Task.spawn, Pc.toGo] at hset ⊢
    omega
  | failed i receiver peer stream resolved conn =>
    have hset := toGo_set (c := .ended) conn
    have hparting := Bool.toNat_le (NodeEvent.parting (.connected i stream resolved))
    simp only [Conn.toGo] at hset
    omega
  | connecting | accepted => cases hbegins
  | same e task connected =>
    cases e with
    | task i te => exact absurd rfl (task i te)
    | connected i stream resolved => exact absurd rfl (connected i stream resolved)
    | _ => exact Nat.le_refl _

omit [DecidableEq SocketAddr] in
private theorem toGoOf_set {i j parting : Nat} {old c : Conn SocketAddr} (hj : s.conns[j]? = some old)
    (hc : j = i → c.toGo + parting ≤ old.toGo) (hparting : j ≠ i → parting = 0) :
    (((s.conns.set j c)[i]?.map Conn.toGo).getD 0) + parting ≤ s.toGoOf i := by
  by_cases hji : j = i
  · subst hji
    rw [List.getElem?_set_self (List.getElem?_eq_some_iff.mp hj).1, toGoOf, hj]
    exact hc rfl
  · rw [List.getElem?_set_ne hji, hparting hji]
    exact Nat.le_refl _

theorem step_toGoOf (hbegins : e.begins = false) (h : step fb s e = some s') (i : Nat) :
    s'.toGoOf i + (e.partingOf i).toNat ≤ s.toGoOf i := by
  have hconns := step_conns h
  rw [toGoOf]
  generalize s'.conns = conns at hconns
  cases hconns with
  | task j te t next conn moves =>
    have htask := moves.toGo
    exact toGoOf_set conn (fun hji => by simpa [NodeEvent.partingOf, hji, Conn.toGo] using htask)
      fun hji => by simp [NodeEvent.partingOf, hji]
  | opened j receiver peer addr stream resolved conn pending =>
    refine toGoOf_set conn (fun _ => Nat.add_le_add_left (Bool.toNat_le _) 5) fun hji => ?_
    cases stream <;> simp [NodeEvent.partingOf, hji]
  | failed j receiver peer stream resolved conn =>
    refine toGoOf_set conn (fun _ => ?_) fun hji => ?_
    · have hparting := Bool.toNat_le (NodeEvent.partingOf i (.connected j stream resolved))
      simp only [Conn.toGo]
      omega
    · cases stream <;> simp [NodeEvent.partingOf, hji]
  | connecting | accepted => cases hbegins
  | same e task connected =>
    cases e with
    | task j te => exact absurd rfl (task j te)
    | connected j stream resolved => exact absurd rfl (connected j stream resolved)
    | _ => exact Nat.le_refl _

theorem exists_parting (fb : Flexbuffers) (hover : ¬ s.Over) (h : s.toGo ≠ 0) :
    ∃ e s', e.parting ∧ step fb s e = some s' ∧ ¬ s'.Over := by
  obtain ⟨n, hn, hpos⟩ : ∃ n ∈ s.conns.map Conn.toGo, n ≠ 0 := by
    by_contra hall
    exact h (List.sum_eq_zero_iff_forall_eq_nat.mpr (by simpa using hall))
  obtain ⟨c, hc, rfl⟩ := List.mem_map.mp hn
  obtain ⟨i, hi⟩ := List.mem_iff_getElem?.mp hc
  cases c with
  | ended => exact absurd rfl hpos
  | connecting peer receiver =>
    refine ⟨.connected i (.error "the peer is gone") (.ok []), s.endConn i, rfl, ?_, hover⟩
    rw [step_connected_eq fb s hover, hi]
    rfl
  | started t =>
    obtain ⟨e, next, hparting, hstep⟩ := Connection.Task.exists_parting fb s.shared hpos
    refine ⟨.task i e, { s with shared := next.1, conns := s.conns.set i (.started next.2) }, hparting, ?_, hover⟩
    rw [step_task_eq fb s hover, hi]
    simp only [hstep]
    rfl

section
variable [ToString SocketAddr] {config : Config} {platform : Platform SocketAddr} {now : SystemTime}
  {s₀ : Node SocketAddr} {es : List (NodeEvent SocketAddr)}

private theorem deserted_of_toGo (h₀ : main fb config platform now = .ok s₀)
    (h : Machine.run (step fb) s₀ es = some s) (hdone : s.toGo = 0) : s.Deserted := by
  have hcomposed := run_composed h (main_composed h₀)
  have hgone : ∀ c ∈ s.conns, c.Gone := by
    intro c hc
    obtain ⟨i, hi⟩ := List.mem_iff_getElem?.mp hc
    have hzero := List.sum_eq_zero_iff_forall_eq_nat.mp hdone _ (List.mem_map_of_mem hc)
    cases c with
    | connecting => cases hzero
    | ended => trivial
    | started t =>
      have ht := hcomposed.atPc hi
      unfold Connection.Task.AtPc at ht
      cases hpc : t.pc with
      | refused => exact .inl hpc
      | finished => exact .inr hpc
      | panicked => rw [hpc] at ht; exact ht.elim
      | _ => simp [Conn.toGo, hpc, Pc.toGo] at hzero
  refine ⟨hgone, ?_, ?_⟩
  · have hnone : liveConns s.conns = ∅ := by
      rw [Finset.eq_empty_iff_forall_notMem]
      rintro ⟨i, addr⟩ hmem
      obtain ⟨c, hc, hlive⟩ := mem_liveConns.mp hmem
      obtain ⟨t, rfl, hlive, -⟩ := Conn.live_eq_some.mp hlive
      have ht := hcomposed.atPc hc
      rcases hgone _ (List.mem_of_getElem? hc) with hpc | hpc
      · rw [Connection.Task.AtPc, hpc] at ht
        simp [Connection.Task.Live, ht.2.2] at hlive
      · simp [Connection.Task.Live, (ht.finished hpc).2.2] at hlive
    have hentries : s.shared.manager.addresses.card ≤ (liveConns s.conns).card := (run_sound h₀ h).card_keys_le
    rw [hnone] at hentries
    exact Nat.le_zero.mp hentries
  · rw [run_receivers h₀ h, listeners, List.countP_eq_zero]
    intro c hc
    have hc := hgone c hc
    cases c with
    | connecting => exact hc.elim
    | ended => simp [Conn.listening]
    | started t => rcases hc with hpc | hpc <;> simp [Conn.listening, Pc.listening, hpc]

/-- When the peers go and no connection is begun, each connection of a node takes at most six
steps on its way out, whatever else goes on. Nothing keeps the connections from these, and
where no such step is left, nothing of the connections is. -/
theorem run_deserts (h₀ : main fb config platform now = .ok s₀) (h : Machine.run (step fb) s₀ es = some s)
    (hover : ¬ s.Over) :
    (∀ fs t, (∀ e ∈ fs, e.begins = false) → Machine.run (step fb) s fs = some t →
      ∀ i, fs.countP (NodeEvent.partingOf i) ≤ 6) ∧
    ((∀ e, e.parting → step fb s e = none) → s.Deserted) ∧
    ∃ fs t, (∀ e ∈ fs, e.parting) ∧ fs.length ≤ 6 * s.conns.length ∧ Machine.run (step fb) s fs = some t ∧
      t.Deserted := by
  refine ⟨fun fs t hfs hrun i => ?_, fun hnone => ?_, ?_⟩
  · have hcount := Machine.run_countP_le (p := NodeEvent.partingOf i) (toGoOf i)
      (fun _ _ _ hbegins hstep => step_toGoOf hbegins hstep i) hfs hrun
    exact (Nat.le_add_right _ _).trans (hcount.trans (s.toGoOf_le i))
  · apply deserted_of_toGo h₀ h
    by_contra hpos
    obtain ⟨e, s', hparting, hstep, -⟩ := exists_parting fb hover hpos
    rw [hnone e hparting] at hstep
    cases hstep
  · have hdrive (u : Node SocketAddr) (hu : Machine.Reaches (step fb) s₀ u ∧ ¬ u.Over) (hbusy : u.toGo ≠ 0) :
        ∃ e v, e.parting = true ∧ step fb u e = some v ∧ (Machine.Reaches (step fb) s₀ v ∧ ¬ v.Over) ∧
          v.toGo < u.toGo := by
      obtain ⟨e, v, hparting, hstep, hv⟩ := exists_parting fb hu.2 hbusy
      have hbegins : e.begins = false := by
        cases e with
        | connect | accept => cases hparting
        | _ => rfl
      have hless := step_toGo hbegins hstep
      rw [hparting, Bool.toNat_true] at hless
      exact ⟨e, v, hparting, hstep, ⟨hu.1.trans (.single hstep), hv⟩, hless⟩
    obtain ⟨fs, t, hlength, hall, hrun, ⟨⟨gs, hgs⟩, -⟩, hdone⟩ :=
      Machine.exists_run_of_measure toGo hdrive ⟨⟨es, h⟩, hover⟩
    exact ⟨fs, t, hall, hlength.trans s.toGo_le, hrun, deserted_of_toGo h₀ hgs hdone⟩

/-- One connection is about to write a heartbeat, one is closing, and one has no stream yet. -/
def halfway : List (NodeEvent SocketAddrV4) :=
  connects ++ register 0 hostA ++ [.task 0 (.sent true), .tick, .send, .task 0 (.poll queueBranch)] ++ register 2 hostB ++
    [.task 2 (.sent true), .task 2 (.read none)]

theorem deserts_halfway : ∃ s₀ s, main Codec.flexbuffers threeSeeds platformA .unixEpoch = .ok s₀ ∧
    Machine.run (step Codec.flexbuffers) s₀ halfway = some s ∧
    ∃ fs t, (∀ e ∈ fs, e.parting) ∧ Machine.run (step Codec.flexbuffers) s fs = some t ∧ t.Deserted := by
  obtain ⟨s₀, s, h₀, h, hpc⟩ : ∃ s₀ s, main Codec.flexbuffers threeSeeds platformA .unixEpoch = .ok s₀ ∧
      Machine.run (step Codec.flexbuffers) s₀ halfway = some s ∧ s.pc = .connecting [] :=
    exists_run _ (fun _ s => s.pc = .connecting []) (by decide)
  have hover : ¬ s.Over := by simp [Over, hpc]
  obtain ⟨-, -, fs, t, hfs, -, hrun, hdeserted⟩ := run_deserts h₀ h hover
  exact ⟨s₀, s, h₀, h, fs, t, hfs, hrun, hdeserted⟩

end

end Node

end Braidpool
