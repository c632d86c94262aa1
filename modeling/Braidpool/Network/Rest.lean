import Braidpool.Connection.Drain
import Braidpool.Network.System

/-! A network has no deadlock: the streams whose ends have not closed can all be brought to
rest by steps of these ends alone, whatever else is going on. -/
namespace Braidpool
open Braidpool.Runtime Braidpool.Protocol Braidpool.Connection

namespace Connection
variable {SocketAddr : Type} [DecidableEq SocketAddr] {fb : Flexbuffers} {sh sh' : Shared SocketAddr}
  {t t' : Connection.Task SocketAddr} {e : TaskEvent}

/-- A task that speaks, and goes on speaking, changes nothing that it shares. -/
theorem Task.Moves.shared_of_speaks (h : Task.Moves fb sh t e (sh', t')) (hspeaks : t.Speaks fb)
    (hspeaks' : t'.Speaks fb) : sh' = sh := by
  cases h with
  | refused pc | admitted old manager pc =>
    rcases hspeaks with hpc | ⟨⟨handler, hpc⟩, -⟩ <;> cases pc.symm.trans hpc
  | readEnded | rejected | stuck | sendFailed =>
    rcases hspeaks' with hpc | ⟨⟨handler, hpc⟩, -⟩ <;> cases hpc
  | removed pc =>
    rcases hspeaks with hpc | ⟨⟨handler, hpc⟩, -⟩ <;> cases pc.symm.trans hpc
  | _ => rfl

theorem Endpoint.Works.step_eq {next : Endpoint SocketAddr} (h : Endpoint.Works fb ⟨sh, t⟩ e next) (hspeaks : t.Speaks fb) :
    t.step fb sh e = some (sh, next.task) := by
  obtain ⟨⟨sh', t'⟩, hout, rfl⟩ := Option.map_eq_some_iff.mp h.stepped
  obtain rfl : sh' = sh := (Task.step_moves hout).shared_of_speaks hspeaks h.speaks
  exact hout

end Connection

def Node.Conn.work {SocketAddr : Type} (fb : Flexbuffers) : Node.Conn SocketAddr → Nat
  | .started t => t.work fb
  | _ => 0

/-- The ends are all the ends of some streams. -/
def Streams.Paired {ι : Type} (streams : Streams ι) (ends : Finset (ι × Nat)) : Prop :=
  ∀ p ∈ ends, ∃ q ∈ ends, q ≠ p ∧ streams.peer p = some q

namespace Network
variable {ι SocketAddr : Type}

/-- The steps still needed for what is on the way to an end, and for the end itself. -/
def load (fb : Flexbuffers) (s : Network ι SocketAddr) (p : ι × Nat) : Nat :=
  ((s.wire p).map (wireWork fb)).sum + ((s.nodes p.1).conns[p.2]?).elim 0 (Node.Conn.work fb)

def work (fb : Flexbuffers) (ends : Finset (ι × Nat)) (s : Network ι SocketAddr) : Nat := ∑ p ∈ ends, s.load fb p

def AtRest (ends : Finset (ι × Nat)) (s : Network ι SocketAddr) : Prop :=
  ∀ p ∈ ends, s.wire p = [] ∧ ∃ t, (s.nodes p.1).TaskAt p.2 t ∧ t.AtRest

def Own (ends : Finset (ι × Nat)) (e : ι × NodeEvent SocketAddr) : Prop := ∃ p ∈ ends, ∃ te, e = (p.1, .task p.2 te)

/-- The two states differ in the ends and in what is on the way to them only. -/
structure SameElsewhere (ends : Finset (ι × Nat)) (s s' : Network ι SocketAddr) : Prop where
  nodes : ∀ a, s'.nodes a = { s.nodes a with conns := (s'.nodes a).conns }
  conns : ∀ p, p ∉ ends → (s'.nodes p.1).conns[p.2]? = (s.nodes p.1).conns[p.2]?
  wire : ∀ p, p ∉ ends → s'.wire p = s.wire p

theorem SameElsewhere.trans {ends : Finset (ι × Nat)} {s s' s'' : Network ι SocketAddr} (h : SameElsewhere ends s s')
    (h' : SameElsewhere ends s' s'') : SameElsewhere ends s s'' where
  nodes a := by rw [h'.nodes a, h.nodes a]
  conns p hp := (h'.conns p hp).trans (h.conns p hp)
  wire p hp := (h'.wire p hp).trans (h.wire p hp)

variable [DecidableEq ι] [DecidableEq SocketAddr]

/-- Open ends of streams in a network, with room in every queue. -/
structure Speaking (fb : Flexbuffers) (streams : Streams ι) (ends : Finset (ι × Nat)) (s : Network ι SocketAddr) :
    Prop where
  connected : Connected fb streams s
  capacity : ∀ a i t, (s.nodes a).TaskAt i t → 0 < t.queue.capacity
  running : ∀ p ∈ ends, ¬ (s.nodes p.1).Over
  speaks : ∀ p ∈ ends, ∃ t, (s.nodes p.1).TaskAt p.2 t ∧ t.Speaks fb

variable {fb : Flexbuffers} {streams : Streams ι} {ends : Finset (ι × Nat)} {s s' : Network ι SocketAddr}
  {p q : ι × Nat} {t t' : Connection.Task SocketAddr} {e : TaskEvent}

omit [DecidableEq SocketAddr] in
theorem frames_own (p r : ι × Nat) (e : TaskEvent) :
    frames ((p.1, .task p.2 e) : ι × NodeEvent SocketAddr) r = if r = p then e.frames else [] := by
  obtain ⟨a, i⟩ := p
  obtain ⟨b, j⟩ := r
  simp only [frames, NodeEvent.frames, Prod.mk.injEq]
  by_cases hb : b = a
  · by_cases hj : i = j
    · simp [hb, hj]
    · simp [hb, hj, Ne.symm hj]
  · simp [hb]

/-- The end `p` takes the event, and beside it only the wires of its stream move. -/
structure MovesAlone (p q : ι × Nat) (e : TaskEvent) (t t' : Connection.Task SocketAddr) (s s' : Network ι SocketAddr) :
    Prop where
  nodes : ∀ a, s'.nodes a = { s.nodes a with conns := (s'.nodes a).conns }
  task : (s'.nodes p.1).TaskAt p.2 t'
  conns : ∀ r, r ≠ p → (s'.nodes r.1).conns[r.2]? = (s.nodes r.1).conns[r.2]?
  incoming : s'.wire p = (s.wire p).drop e.frames.length
  outgoing : s'.wire q = s.wire q ++ t'.written.drop t.written.length
  wires : ∀ r, r ≠ p → r ≠ q → s'.wire r = s.wire r

/-- A step of a task that changes nothing shared is one of the network. -/
theorem exists_step_own (ht : (s.nodes p.1).TaskAt p.2 t) (hover : ¬ (s.nodes p.1).Over) (hpeer : streams.peer p = some q)
    (hne : q ≠ p) (hframes : e.frames <+: s.wire p)
    (hstep : t.step fb (s.nodes p.1).shared e = some ((s.nodes p.1).shared, t')) :
    ∃ s', step fb streams s (p.1, .task p.2 e) = some s' ∧ MovesAlone p q e t t' s s' := by
  obtain ⟨a, i⟩ := p
  have hlt := (List.getElem?_eq_some_iff.mp ht).1
  have hnode : (s.nodes a).step fb (.task i e) =
      some { s.nodes a with conns := (s.nodes a).conns.set i (.started t') } := by
    rw [Node.step_task_eq fb _ hover, ht]
    simp only [hstep, Option.map_some]
  obtain ⟨s', hnet⟩ : ∃ s', step fb streams s (a, .task i e) = some s' := by
    have hreceives : Receives streams s (a, .task i e) := fun _ => hframes
    exact ⟨_, by rw [step, if_pos hreceives, hnode]; rfl⟩
  obtain ⟨-, hself, hothers, hwire⟩ := step_deliver hnet
  have hself : s'.nodes a = { s.nodes a with conns := (s.nodes a).conns.set i (.started t') } :=
    Option.some.inj (hself.symm.trans hnode)
  have ht' : (s'.nodes a).TaskAt i t' := by
    rw [hself]
    exact List.getElem?_set_self hlt
  have hconns (r : ι × Nat) (hr : r ≠ (a, i)) : (s'.nodes r.1).conns[r.2]? = (s.nodes r.1).conns[r.2]? := by
    by_cases ha : r.1 = a
    · rw [ha, hself]
      exact List.getElem?_set_ne fun hi => hr (Prod.ext ha hi.symm)
    · rw [hothers r.1 ha]
  have hwritten (r : ι × Nat) (hr : r ≠ (a, i)) :
      ((s'.nodes r.1).written r.2).drop ((s.nodes r.1).written r.2).length = [] := by
    rw [Node.written, Node.written, hconns r hr, List.drop_length]
  refine ⟨s', hnet, fun b => ?_, ht', hconns, ?_, ?_, fun r hr hrq => ?_⟩
  · by_cases hb : b = a
    · rw [hb, hself]
    · rw [hothers b hb]
  · rw [hwire, frames_own (a, i), if_pos rfl, hpeer, Option.elim_some, hwritten q hne, List.append_nil]
  · rw [hwire, frames_own (a, i), if_neg hne, streams.symm hpeer, Option.elim_some, ht'.written, ht.written]
    rfl
  · rw [hwire, frames_own (a, i), if_neg hr]
    cases hpeer' : streams.peer r with
    | none => exact List.append_nil _
    | some r' =>
      have hr' : r' ≠ (a, i) := by
        rintro rfl
        exact hrq (Option.some.inj ((streams.symm hpeer').symm.trans hpeer))
      rw [Option.elim_some, hwritten r' hr']
      exact List.append_nil _

omit [DecidableEq SocketAddr] in
private theorem work_lt (hp : p ∈ ends) (hq : q ∈ ends) (hne : q ≠ p)
    (hothers : ∀ r, r ≠ p → r ≠ q → s'.load fb r = s.load fb r)
    (hless : s'.load fb p + s'.load fb q < s.load fb p + s.load fb q) : s'.work fb ends < s.work fb ends := by
  have hsplit (u : Network ι SocketAddr) :
      u.work fb ends = u.load fb p + (u.load fb q + ∑ r ∈ (ends.erase p).erase q, u.load fb r) := by
    rw [work, ← Finset.add_sum_erase ends _ hp, ← Finset.add_sum_erase (ends.erase p) _ (Finset.mem_erase.mpr ⟨hne, hq⟩)]
  have hrest : ∑ r ∈ (ends.erase p).erase q, s'.load fb r = ∑ r ∈ (ends.erase p).erase q, s.load fb r := by
    refine Finset.sum_congr rfl fun r hr => ?_
    obtain ⟨hrq, hr⟩ := Finset.mem_erase.mp hr
    exact hothers r (Finset.mem_erase.mp hr).1 hrq
  rw [hsplit s', hsplit s, hrest]
  omega

omit [DecidableEq ι] [DecidableEq SocketAddr] in
theorem load_eq (ht : (s.nodes p.1).TaskAt p.2 t) :
    s.load fb p = ((s.wire p).map (wireWork fb)).sum + t.work fb := by
  rw [load, ht]
  rfl

omit [DecidableEq ι] [DecidableEq SocketAddr] in
theorem MovesAlone.sameElsewhere (h : MovesAlone p q e t t' s s') (hp : p ∈ ends) (hq : q ∈ ends) :
    SameElsewhere ends s s' where
  nodes := h.nodes
  conns r hr := h.conns r fun heq => hr (heq ▸ hp)
  wire r hr := h.wires r (fun heq => hr (heq ▸ hp)) fun heq => hr (heq ▸ hq)

omit [DecidableEq ι] [DecidableEq SocketAddr] in
theorem MovesAlone.running (h : MovesAlone p q e t t' s s') {a : ι} (hover : ¬ (s.nodes a).Over) :
    ¬ (s'.nodes a).Over := by
  rw [h.nodes a]
  exact hover

omit [DecidableEq ι] [DecidableEq SocketAddr] in
/-- After the step, the end is at `t'` and the others are where they were. -/
theorem MovesAlone.taskAt (h : MovesAlone p q e t t' s s') {r : ι × Nat} {u : Connection.Task SocketAddr}
    (hu : (s'.nodes r.1).TaskAt r.2 u) : r = p ∧ u = t' ∨ (s.nodes r.1).TaskAt r.2 u := by
  by_cases hr : r = p
  · subst hr
    exact .inl ⟨rfl, Node.Conn.started.inj (Option.some.inj (hu.symm.trans h.task))⟩
  · exact .inr ((h.conns r hr).symm.trans hu)

omit [DecidableEq SocketAddr] in
theorem MovesAlone.work_lt (h : MovesAlone p q e t t' s s') (ht : (s.nodes p.1).TaskAt p.2 t)
    (hu : ∃ u, (s.nodes q.1).TaskAt q.2 u) (hp : p ∈ ends) (hq : q ∈ ends) (hne : q ≠ p) (hframes : e.frames <+: s.wire p)
    (hwork : t'.work fb + ((t'.written.drop t.written.length).map (wireWork fb)).sum + 1 =
      t.work fb + (e.frames.map (wireWork fb)).sum) : s'.work fb ends < s.work fb ends := by
  refine Network.work_lt hp hq hne (fun r hr hrq => by rw [load, load, h.wires r hr hrq, h.conns r hr]) ?_
  obtain ⟨u, hu⟩ := hu
  obtain ⟨rest, hrest⟩ := hframes
  have hincoming : s'.wire p = rest := by rw [h.incoming, ← hrest, List.drop_left]
  rw [load_eq h.task, load_eq ht, load_eq hu, load_eq ((h.conns q hne).trans hu), hincoming, h.outgoing, ← hrest]
  simp only [List.map_append, List.sum_append]
  omega

omit [DecidableEq ι] in
/-- As long as the ends are not at rest, one of them can work. -/
private theorem Speaking.exists_works (hd : Decodes fb) (hpaired : streams.Paired ends)
    (hs : Speaking fb streams ends s) (hbusy : ¬ s.AtRest ends) :
    ∃ p ∈ ends, ∃ t e next, (s.nodes p.1).TaskAt p.2 t ∧ t.Speaks fb ∧ e.frames <+: s.wire p ∧
      Endpoint.Works fb ⟨(s.nodes p.1).shared, t⟩ e next := by
  obtain ⟨p, hp⟩ := not_forall.mp hbusy
  obtain ⟨hmem, hp⟩ := Classical.not_imp.mp hp
  obtain ⟨q, -, -, hpeer⟩ := hpaired p hmem
  obtain ⟨t, ht, hspeaks⟩ := hs.speaks p hmem
  obtain ⟨since, htalks⟩ := (hs.connected.beats p.1).talks ht
  have hknown : ∀ msg ∈ t.queue.buffer, Known fb msg := fun msg hmsg =>
    hs.connected.known_incoming hpeer ht (by simp [hmsg])
  obtain ⟨e, next, hframes, hworks⟩ := Endpoint.exists_works htalks.atPc hspeaks (hs.capacity p.1 p.2 t ht)
    (fun hrest => hp ⟨hrest.1, t, ht, hrest.2⟩) (fun msg hmsg => hd.accepted (hknown msg hmsg))
    fun msg hmsg reply => hd.replyTo_reply (hknown msg hmsg)
  exact ⟨p, hmem, t, e, next, ht, hspeaks, hframes, hworks⟩

theorem Speaking.exists_step (hd : Decodes fb) (hpaired : streams.Paired ends) (hs : Speaking fb streams ends s)
    (hbusy : ¬ s.AtRest ends) :
    ∃ e s', Own ends e ∧ step fb streams s e = some s' ∧ (Speaking fb streams ends s' ∧ SameElsewhere ends s s') ∧
      s'.work fb ends < s.work fb ends := by
  obtain ⟨p, hmem, t, e, next, ht, hspeaks, hframes, hworks⟩ := hs.exists_works hd hpaired hbusy
  obtain ⟨q, hmemq, hne, hpeer⟩ := hpaired p hmem
  have hstepped := hworks.step_eq hspeaks
  obtain ⟨s', hstep, halone⟩ := exists_step_own ht (hs.running p hmem) hpeer hne hframes hstepped
  have hspeaking : Speaking fb streams ends s' := by
    refine ⟨step_connected hd hs.connected hstep, fun a i u hu => ?_, fun r hr => halone.running (hs.running r hr),
      fun r hr => ?_⟩
    · rcases halone.taskAt (r := (a, i)) hu with ⟨rfl, rfl⟩ | hu
      · exact (Connection.Task.step_moves hstepped).queueCapacity ▸ hs.capacity a i t ht
      · exact hs.capacity a i u hu
    · by_cases hrp : r = p
      · subst hrp
        exact ⟨next.task, halone.task, hworks.speaks⟩
      · obtain ⟨u, hu, husp⟩ := hs.speaks r hr
        exact ⟨u, (halone.conns r hrp).trans hu, husp⟩
  obtain ⟨u, hu, -⟩ := hs.speaks q hmemq
  exact ⟨(p.1, .task p.2 e), s', ⟨p, hmem, e, rfl⟩, hstep, ⟨hspeaking, halone.sameElsewhere hmem hmemq⟩,
    halone.work_lt ht ⟨u, hu⟩ hmem hmemq hne hframes hworks.work⟩

omit [DecidableEq ι] in
/-- At rest, an end has handled exactly what the other has written. -/
theorem Connected.handled_eq (hs : Connected fb streams s) (hpeer : streams.peer p = some q)
    (ht : (s.nodes p.1).TaskAt p.2 t) (hrest : t.AtRest) (hwire : s.wire p = []) :
    t.handled = (s.nodes q.1).written q.2 := by
  obtain ⟨since, htalks⟩ := (hs.beats p.1).talks ht
  rw [hs.wires p q hpeer, hwire, List.append_nil, ht.read, hrest.read_eq htalks.atPc htalks.delivers.read]

omit [DecidableEq ι] in
/-- At rest, the two ends of a stream have handled all that the other has written, with
the helo and the oleh once each. -/
theorem Speaking.rested (hd : Decodes fb) (hpaired : streams.Paired ends) (hs : Speaking fb streams ends s)
    (hrest : s.AtRest ends) (hp : p ∈ ends) :
    ∃ t, (s.nodes p.1).TaskAt p.2 t ∧ s.wire p = [] ∧ t.AtRest ∧
      (∀ q ∈ streams.peer p, t.handled = (s.nodes q.1).written q.2) ∧ t.handled.count (heloBytes fb) = 1 ∧
      t.handled.count (olehBytes fb) = 1 := by
  have hend (p : ι × Nat) (hp : p ∈ ends) : ∃ t, (s.nodes p.1).TaskAt p.2 t ∧ s.wire p = [] ∧ t.AtRest ∧
      t.written.count (heloBytes fb) = 1 ∧ ∀ q ∈ streams.peer p, t.handled = (s.nodes q.1).written q.2 := by
    obtain ⟨q, -, -, hpeer⟩ := hpaired p hp
    obtain ⟨hwire, t, ht, hquiet⟩ := hrest p hp
    obtain ⟨u, hu, hspeaks⟩ := hs.speaks p hp
    obtain rfl := Node.Conn.started.inj (Option.some.inj (ht.symm.trans hu))
    refine ⟨t, ht, hwire, hquiet, ?_, fun q hpeer => hs.connected.handled_eq hpeer ht hquiet hwire⟩
    exact Nat.le_antisymm (hs.connected.counts hd hpeer ht).1 (List.count_pos_iff.mpr (hspeaks.greeted hquiet))
  obtain ⟨q, hq, -, hpeer⟩ := hpaired p hp
  obtain ⟨t, ht, hwire, hquiet, hhelo, hhandled⟩ := hend p hp
  obtain ⟨u, hu, -, -, hhelo', hhandled'⟩ := hend q hq
  refine ⟨t, ht, hwire, hquiet, hhandled, ?_, ?_⟩
  · rw [hhandled q hpeer, hu.written, hhelo']
  · rw [hhandled q hpeer, hu.written, (hs.connected.counts hd (streams.symm hpeer) hu).2,
      hhandled' p (streams.symm hpeer), ht.written, hhelo]

section
variable [ToString SocketAddr] {config : ι → Config} {platform : ι → Node.Platform SocketAddr} {now : ι → SystemTime}
  {nodes : ι → Node SocketAddr} {es : List (ι × NodeEvent SocketAddr)}

/-- Whatever the network has done, the streams whose ends have been admitted, have not closed
and have lost no helo can all be brought to rest: some schedule of steps of these ends alone,
which changes nothing else, has every frame of theirs handled. -/
theorem run_rests (hd : Decodes fb) (h₀ : ∀ a, Node.main fb (config a) (platform a) (now a) = .ok (nodes a))
    (h : Machine.run (step fb streams) (start nodes) es = some s) (hpaired : streams.Paired ends)
    (hrunning : ∀ p ∈ ends, ¬ (s.nodes p.1).Over)
    (hspeaks : ∀ p ∈ ends, ∃ t, (s.nodes p.1).TaskAt p.2 t ∧ t.Speaks fb) :
    ∃ fs s', fs.length ≤ s.work fb ends ∧ (∀ e ∈ fs, Own ends e) ∧ Machine.run (step fb streams) s fs = some s' ∧
      SameElsewhere ends s s' ∧ ∀ p ∈ ends, ∃ t, (s'.nodes p.1).TaskAt p.2 t ∧ s'.wire p = [] ∧ t.AtRest ∧
        (∀ q ∈ streams.peer p, t.handled = (s'.nodes q.1).written q.2) ∧ t.handled.count (heloBytes fb) = 1 ∧
        t.handled.count (olehBytes fb) = 1 := by
  have hs : Speaking fb streams ends s := by
    refine ⟨run_connected hd h₀ h, fun a i t ht => ?_, hrunning, hspeaks⟩
    refine run_tasks (p := (a, i)) (P := fun t => 0 < t.queue.capacity) (fun _ _ _ hpending => hpending) ?_ h₀ h ht
    exact fun hmoves hpos => hmoves.queueCapacity ▸ hpos
  have hdrive : ∀ u, (Speaking fb streams ends u ∧ SameElsewhere ends s u) → ¬ u.AtRest ends → ∃ e v, Own ends e ∧
      step fb streams u e = some v ∧ (Speaking fb streams ends v ∧ SameElsewhere ends s v) ∧
      v.work fb ends < u.work fb ends := by
    intro u hu hbusy
    obtain ⟨e, v, hown, hstep, hv, hless⟩ := hu.1.exists_step hd hpaired hbusy
    exact ⟨e, v, hown, hstep, ⟨hv.1, hu.2.trans hv.2⟩, hless⟩
  obtain ⟨fs, s', hlength, hown, hrun, hs', hrest⟩ :=
    Machine.exists_run_of_measure (work fb ends) hdrive ⟨hs, ⟨fun _ => rfl, fun _ _ => rfl, fun _ _ => rfl⟩⟩
  exact ⟨fs, s', hlength, hown, hrun, hs'.2, fun p hp => hs'.1.rested hd hpaired hrest hp⟩

end

section
open Braidpool.Node (hostA hostB platformA)

/-- The two nodes are about to greet, and the second has a stranger as well. -/
def admitsBoth : List (Bool × NodeEvent SocketAddrV4) :=
  [(false, .connect), (false, .listen true), (true, .listen true), (true, .accept (some hostA)),
    (true, .accept (some hostB)), (false, .connected 0 (.ok hostB) (.ok [hostB])), (true, .task 0 .insert),
    (false, .task 0 .insert)]

/-- The node runs, and its end of the stream is about to greet. -/
private def greeting (s : Network Bool SocketAddrV4) (a : Bool) : Bool :=
  match (s.nodes a).pc, (s.nodes a).conns[0]? with
  | .listening, some (Node.Conn.started t) => decide (t.pc = .handshake (heloBytes Codec.flexbuffers))
  | _, _ => false

private theorem speaks_of_greeting {s : Network Bool SocketAddrV4} {a : Bool} (h : greeting s a = true) :
    ¬ (s.nodes a).Over ∧ ∃ t, (s.nodes a).TaskAt 0 t ∧ t.Speaks Codec.flexbuffers := by
  unfold greeting at h
  split at h
  · rename_i t hpc ht
    refine ⟨?_, t, ht, .inl (of_decide_eq_true h)⟩
    rintro (hreturned | ⟨panic, hpanicked⟩)
    · cases hpc.symm.trans hreturned
    · cases hpc.symm.trans hpanicked
  · cases h

theorem rests_admitsBoth : ∃ (nodes : Bool → Node SocketAddrV4) (s s' : Network Bool SocketAddrV4)
    (fs : List (Bool × NodeEvent SocketAddrV4)) (t : _),
    Machine.run (step Codec.flexbuffers oneStream) (start nodes) admitsBoth = some s ∧
      Machine.run (step Codec.flexbuffers oneStream) s fs = some s' ∧ (s'.nodes false).TaskAt 0 t ∧
      t.handled = (s'.nodes true).written 0 ∧ t.handled.count (olehBytes Codec.flexbuffers) = 1 := by
  obtain ⟨nodes, h₀, s, h, hgreeting⟩ :=
    exists_run_pair seedAndPeer admitsBoth (fun s => ∀ a, greeting s a = true) (by decide)
  have hpaired : oneStream.Paired {(false, 0), (true, 0)} := by
    unfold Streams.Paired
    decide
  have hends : ∀ p ∈ ({(false, 0), (true, 0)} : Finset (Bool × Nat)), p = (p.1, 0) := by decide
  have hspeaks : ∀ p ∈ ({(false, 0), (true, 0)} : Finset (Bool × Nat)), ¬ (s.nodes p.1).Over ∧
      ∃ t, (s.nodes p.1).TaskAt p.2 t ∧ t.Speaks Codec.flexbuffers := fun p hp => by
    rw [hends p hp]
    exact speaks_of_greeting (hgreeting p.1)
  obtain ⟨fs, s', -, -, hrun, -, hrested⟩ := run_rests (decodes_of_roundTrip Codec.flexbuffers_roundTrip) h₀ h hpaired
    (fun p hp => (hspeaks p hp).1) fun p hp => (hspeaks p hp).2
  obtain ⟨t, ht, -, -, hhandled, -, holeh⟩ := hrested (false, 0) (by decide)
  exact ⟨nodes, s, s', fs, t, h, hrun, ht, hhandled (true, 0) rfl, holeh⟩

end

end Network

end Braidpool
