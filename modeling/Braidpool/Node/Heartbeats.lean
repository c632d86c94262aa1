import Braidpool.Node.Components

/-! The times of the heartbeats. The heartbeat task makes its message once and sends a
clone of it after each tick, so all its heartbeats carry the reading of its start. -/
namespace Braidpool.Node
open Braidpool.Runtime Braidpool.Protocol Braidpool.Connection

/-- The time that a receiver finds in a heartbeat. -/
def heartbeatTime (fb : Flexbuffers) (bytes : Bytes) : Option SystemTime :=
  match Message.fromBytes fb bytes with
  | .ok (.heartbeat m) => some m.time
  | _ => none

variable {SocketAddr : Type} [DecidableEq SocketAddr]

/-- The tick in the state `u` is the last before a send, which broadcasts `bytes`. -/
def Causes (fb : Flexbuffers) (s₀ : Node SocketAddr) (es : List (NodeEvent SocketAddr)) (u : Node SocketAddr)
    (bytes : Bytes) : Prop :=
  ∃ before between after v w, es = before ++ .tick :: (between ++ .send :: after) ∧ .tick ∉ between ∧
    Machine.run (step fb) s₀ before = some u ∧ Machine.run (step fb) s₀ (before ++ .tick :: between) = some v ∧
    step fb v .send = some w ∧ w.shared.sendToAll.sent = v.shared.sendToAll.sent ++ [bytes]

/-- Each heartbeat carries a time no earlier than the tick that caused it, and
successive heartbeats carry increasing times. -/
structure Timely (fb : Flexbuffers) (s₀ : Node SocketAddr) (es : List (NodeEvent SocketAddr)) : Prop where
  caused : ∀ u bytes, Causes fb s₀ es u bytes → ∃ time, heartbeatTime fb bytes = some time ∧ u.shared.now ≤ time
  increasing : ∀ s, Machine.run (step fb) s₀ es = some s →
    (s.shared.sendToAll.sent.filterMap (heartbeatTime fb)).Pairwise (· < ·)

/-- The first heartbeat is the only one, and its tick comes before the clock has
moved on from the start. -/
def SentAtOnce (fb : Flexbuffers) (s₀ : Node SocketAddr) (es : List (NodeEvent SocketAddr)) : Prop :=
  ∀ u bytes, Causes fb s₀ es u bytes → u.shared.now ≤ s₀.shared.now ∧ u.shared.sendToAll.sent = []

variable {fb : Flexbuffers} {s s' s₀ u : Node SocketAddr} {e : NodeEvent SocketAddr} {es : List (NodeEvent SocketAddr)}

theorem step_sent (h : step fb s e = some s') : s'.shared.sendToAll.sent = s.shared.sendToAll.sent ∨
    e = .send ∧ s.heartbeat.pc = .sending ∧
      s'.shared.sendToAll.sent = s.shared.sendToAll.sent ++ [s.heartbeat.message] := by
  cases step_moves h with
  | task i e t next conn stepped => exact .inl (Connection.Task.step_moves stepped).sent
  | sent pc receivers => exact .inr ⟨rfl, pc, rfl⟩
  | _ => exact .inl rfl

theorem step_message (h : step fb s e = some s') : s'.heartbeat.message = s.heartbeat.message := by
  cases step_moves h <;> rfl

theorem run_sent (h : Machine.run (step fb) s₀ es = some s) (hsent : s₀.shared.sendToAll.sent = []) :
    s.heartbeat.message = s₀.heartbeat.message ∧ ∀ b ∈ s.shared.sendToAll.sent, b = s₀.heartbeat.message := by
  refine Machine.run_invariant (P := fun s =>
    s.heartbeat.message = s₀.heartbeat.message ∧ ∀ b ∈ s.shared.sendToAll.sent, b = s₀.heartbeat.message)
    ?_ ⟨rfl, by simp [hsent]⟩ h
  rintro s e s' ⟨hmessage, hall⟩ hstep
  refine ⟨(step_message hstep).trans hmessage, ?_⟩
  intro b hb
  rcases step_sent hstep with hsame | ⟨-, -, hsend⟩
  · rw [hsame] at hb
    exact hall b hb
  · rw [hsend] at hb
    rcases List.mem_append.mp hb with hb | hb
    · exact hall b hb
    · rw [List.mem_singleton.mp hb, hmessage]

/-- A heartbeat task that is about to send has seen a tick, and nothing was sent since. -/
theorem exists_tick (h : Machine.run (step fb) s₀ es = some s) (h₀ : s₀.heartbeat.pc = .waiting)
    (hs : s.heartbeat.pc = .sending) :
    ∃ before between u, es = before ++ .tick :: between ∧ .tick ∉ between ∧
      Machine.run (step fb) s₀ before = some u ∧ s.shared.sendToAll.sent = u.shared.sendToAll.sent := by
  induction es using List.reverseRecOn generalizing s with
  | nil =>
    obtain rfl := Option.some.inj h
    rw [h₀] at hs
    cases hs
  | append_singleton es e ih =>
    obtain ⟨v, hv, hstep⟩ := Machine.run_concat.mp h
    obtain ⟨hcause, hsent⟩ := (step_moves hstep).sending hs
    by_cases he : e = .tick
    · subst he
      exact ⟨es, [], v, rfl, List.not_mem_nil, hv, hsent⟩
    · obtain ⟨before, between, u, rfl, hbetween, hu, hsame⟩ := ih hv (hcause.resolve_right fun htick => he htick.1)
      refine ⟨before, between ++ [e], u, by simp, ?_, hu, hsent.trans hsame⟩
      simp [hbetween, Ne.symm he]

private theorem exists_causes {v w : Node SocketAddr} {bytes : Bytes} (hv : Machine.run (step fb) s₀ es = some v)
    (h₀ : s₀.heartbeat.pc = .waiting) (hstep : step fb v .send = some w) (hpc : v.heartbeat.pc = .sending)
    (hsent : w.shared.sendToAll.sent = v.shared.sendToAll.sent ++ [bytes]) :
    ∃ u, Causes fb s₀ (es ++ [.send]) u bytes ∧ u.shared.sendToAll.sent = v.shared.sendToAll.sent := by
  obtain ⟨before, between, u, rfl, hbetween, hu, hsame⟩ := exists_tick hv h₀ hpc
  exact ⟨u, ⟨before, between, [], v, w, by simp, hbetween, hu, hv, hstep, hsent⟩, hsame.symm⟩

private theorem Causes.append {bytes : Bytes} (h : Causes fb s₀ es u bytes)
    (fs : List (NodeEvent SocketAddr)) : Causes fb s₀ (es ++ fs) u bytes := by
  obtain ⟨before, between, after, v, w, rfl, hrest⟩ := h
  exact ⟨before, between, after ++ fs, v, w, by simp, hrest⟩

private theorem run_sent_grows {s t : Node SocketAddr} (h : Machine.run (step fb) s es = some t) :
    s.shared.sendToAll.sent <+: t.shared.sendToAll.sent :=
  Machine.run_invariant (P := fun t => s.shared.sendToAll.sent <+: t.shared.sendToAll.sent)
    (fun hs hstep => hs.trans (Moves.sent_prefix (step_moves hstep))) List.prefix_rfl h

private theorem Causes.message {bytes : Bytes} (h : Causes fb s₀ es u bytes) (hsent : s₀.shared.sendToAll.sent = []) :
    bytes = s₀.heartbeat.message := by
  obtain ⟨before, between, after, v, w, -, -, -, hv, hstep, hbytes⟩ := h
  refine (run_sent (Machine.run_concat.mpr ⟨v, hv, hstep⟩) hsent).2 bytes ?_
  rw [hbytes]
  exact List.mem_concat_self

private theorem Causes.length_lt {bytes : Bytes} (h : Causes fb s₀ es u bytes)
    (hrun : Machine.run (step fb) s₀ es = some s) :
    u.shared.sendToAll.sent.length < s.shared.sendToAll.sent.length := by
  obtain ⟨before, between, after, v, w, rfl, -, hu, hv, hstep, hbytes⟩ := h
  rw [← List.cons_append, ← List.append_assoc] at hrun
  obtain ⟨w', hw', hafter⟩ := Machine.run_cons.mp (Machine.run_rest hrun hv)
  obtain rfl := Option.some.inj (hstep.symm.trans hw')
  have hle := (run_sent_grows (Machine.run_rest hv hu)).length_le
  have hlast := (run_sent_grows hafter).length_le
  rw [hbytes, List.length_append, List.length_singleton] at hlast
  omega

private theorem SentAtOnce.length_le_one (hearly : SentAtOnce fb s₀ es) (h₀ : s₀.heartbeat.pc = .waiting)
    (hsent : s₀.shared.sendToAll.sent = []) (h : Machine.run (step fb) s₀ es = some s) :
    s.shared.sendToAll.sent.length ≤ 1 := by
  induction es using List.reverseRecOn generalizing s with
  | nil =>
    obtain rfl := Option.some.inj h
    simp [hsent]
  | append_singleton es e ih =>
    obtain ⟨v, hv, hstep⟩ := Machine.run_concat.mp h
    have hbefore := ih (fun u bytes hcause => hearly u bytes (hcause.append [e])) hv
    rcases step_sent hstep with hsame | ⟨rfl, hpc, hsend⟩
    · rwa [hsame]
    · obtain ⟨u, hcause, hsame⟩ := exists_causes hv h₀ hstep hpc hsend
      rw [hsend, ← hsame, (hearly u _ hcause).2]
      exact Nat.le_refl 1

omit [DecidableEq SocketAddr] in
private theorem main_heartbeatTime [ToString SocketAddr] {config : Config} {platform : Platform SocketAddr}
    {now : SystemTime} (hfb : fb.RoundTrip) (h₀ : main fb config platform now = .ok s₀) :
    heartbeatTime fb s₀.heartbeat.message = some s₀.shared.now ∧ s₀.heartbeat.pc = .waiting ∧
      s₀.shared.sendToAll.sent = [] := by
  obtain ⟨sendToAll, heartbeat, hchannel, hheartbeat, rfl⟩ := main_eq_ok.mp h₀
  obtain ⟨-, rfl⟩ := Broadcast.channel_eq_ok.mp hchannel
  obtain ⟨socketAddr, addrs, bytes, -, hbytes, -, rfl⟩ := startHeartbeat_eq_ok.mp hheartbeat
  refine ⟨?_, rfl, rfl⟩
  simp only [heartbeatTime, hfb.fromBytes_asBytes hbytes]

/-- The heartbeats of a run carry times from their ticks on and increasing times exactly
when there is only one, and its tick comes before the clock has moved on from the start. -/
theorem run_timely [ToString SocketAddr] {config : Config} {platform : Platform SocketAddr} {now : SystemTime}
    (hfb : fb.RoundTrip) (h₀ : main fb config platform now = .ok s₀) (h : Machine.run (step fb) s₀ es = some s) :
    Timely fb s₀ es ↔ SentAtOnce fb s₀ es := by
  obtain ⟨htime, hpc, hsent⟩ := main_heartbeatTime hfb h₀
  have htimes : s.shared.sendToAll.sent.filterMap (heartbeatTime fb) =
      List.replicate s.shared.sendToAll.sent.length s₀.shared.now := by
    rw [← List.map_const']
    apply List.filterMap_eq_map_iff_forall_eq_some.mpr
    intro b hb
    rw [(run_sent h hsent).2 b hb, htime]
  constructor
  · intro htimely u bytes hcause
    obtain ⟨time, hbytes, hle⟩ := htimely.caused u bytes hcause
    rw [hcause.message hsent, htime] at hbytes
    obtain rfl := Option.some.inj hbytes
    refine ⟨hle, List.eq_nil_of_length_eq_zero ?_⟩
    have hincreasing := htimely.increasing s h
    rw [htimes] at hincreasing
    have hone := (List.pairwise_replicate.mp hincreasing).resolve_right (lt_irrefl _)
    have hless := hcause.length_lt h
    omega
  · intro hearly
    refine ⟨?_, ?_⟩
    · intro u bytes hcause
      refine ⟨s₀.shared.now, ?_, (hearly u bytes hcause).1⟩
      rw [hcause.message hsent, htime]
    · intro s' h'
      obtain rfl := Option.some.inj (h.symm.trans h')
      rw [htimes]
      exact List.pairwise_replicate.mpr (.inl (hearly.length_le_one hpc hsent h))

def TicksAtOnce (start : SystemTime) (s : Node SocketAddr) (e : NodeEvent SocketAddr) : Prop :=
  e = .tick → s.shared.now ≤ start ∧ s.shared.sendToAll.sent = []

instance (start : SystemTime) (s : Node SocketAddr) (e : NodeEvent SocketAddr) : Decidable (TicksAtOnce start s e) :=
  inferInstanceAs (Decidable (_ → _))

theorem sentAtOnce_of_ticksAtOnce (h : Machine.Guarded (step fb) (TicksAtOnce s₀.shared.now) s₀ es) :
    SentAtOnce fb s₀ es := by
  rintro u bytes ⟨before, between, after, v, w, rfl, -, hu, -⟩
  exact Machine.guarded_iff.mp h before .tick _ u rfl hu rfl

def ClockForward (s : Node SocketAddr) : NodeEvent SocketAddr → Prop
  | .clock now => s.shared.now < now
  | _ => True

instance (s : Node SocketAddr) : DecidablePred (ClockForward s)
  | .clock now => inferInstanceAs (Decidable (s.shared.now < now))
  | .connect | .listen _ | .accept _ | .connected .. | .task .. | .tick | .send | .notified => .isTrue trivial

def oneSecond : SystemTime := { SystemTime.unixEpoch with secs := 1, secs_range := by decide }
def twoSeconds : SystemTime := { SystemTime.unixEpoch with secs := 2, secs_range := by decide }

/-- The first tick is due at once, and finds the first connection. -/
def tickAtOnce : List (NodeEvent SocketAddrV4) :=
  connects ++ register 0 hostA ++ [.tick, .send, .clock oneSecond]

theorem run_timely_atOnce :
    ∃ s₀ s, main Codec.flexbuffers threeSeeds platformA .unixEpoch = .ok s₀ ∧
      Machine.run (step Codec.flexbuffers) s₀ tickAtOnce = some s ∧ Timely Codec.flexbuffers s₀ tickAtOnce := by
  obtain ⟨s₀, s, h₀, h, hticks⟩ : ∃ s₀ s, main Codec.flexbuffers threeSeeds platformA .unixEpoch = .ok s₀ ∧
      Machine.run (step Codec.flexbuffers) s₀ tickAtOnce = some s ∧
      Machine.Guarded (step Codec.flexbuffers) (TicksAtOnce s₀.shared.now) s₀ tickAtOnce :=
    exists_run _ (fun s₀ _ => Machine.Guarded (step Codec.flexbuffers) (TicksAtOnce s₀.shared.now) s₀ tickAtOnce)
      (by decide)
  exact ⟨s₀, s, h₀, h, (run_timely Codec.flexbuffers_roundTrip h₀ h).mpr (sentAtOnce_of_ticksAtOnce hticks)⟩

/-- Two heartbeats are sent, one second after another. -/
def tickTwice : List (NodeEvent SocketAddrV4) :=
  connects ++ register 0 hostA ++ [.clock oneSecond, .tick, .send, .clock twoSeconds, .tick, .send]

/-- Both heartbeats carry the same time. -/
theorem heartbeats_stale :
    ¬ ∀ (config : Config) (platform : Platform SocketAddrV4) (now : SystemTime) (s₀ s : Node SocketAddrV4)
      (es : List (NodeEvent SocketAddrV4)), main Codec.flexbuffers config platform now = .ok s₀ →
      Machine.run (step Codec.flexbuffers) s₀ es = some s →
      Machine.Guarded (step Codec.flexbuffers) ClockForward s₀ es → Timely Codec.flexbuffers s₀ es := by
  intro hall
  obtain ⟨s₀, s, h₀, h, hclock, hstale⟩ : ∃ s₀ s, main Codec.flexbuffers threeSeeds platformA .unixEpoch = .ok s₀ ∧
      Machine.run (step Codec.flexbuffers) s₀ tickTwice = some s ∧
      Machine.Guarded (step Codec.flexbuffers) ClockForward s₀ tickTwice ∧
      ¬ (s.shared.sendToAll.sent.filterMap (heartbeatTime Codec.flexbuffers)).Pairwise (· < ·) :=
    exists_run _ (fun s₀ s => Machine.Guarded (step Codec.flexbuffers) ClockForward s₀ tickTwice ∧
      ¬ (s.shared.sendToAll.sent.filterMap (heartbeatTime Codec.flexbuffers)).Pairwise (· < ·)) (by decide)
  exact hstale ((hall _ _ _ s₀ s _ h₀ h hclock).increasing s h)

end Braidpool.Node
