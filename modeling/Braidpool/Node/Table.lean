import Braidpool.Node.Components
import Braidpool.Runtime.Registry

/-! The table of connections of a node as a registry: the live connections are its
members, and what the registry guarantees depends on which addresses enter it. -/
namespace Braidpool
open Braidpool.Runtime Braidpool.Protocol Braidpool.Connection

namespace Connection.Task
variable {SocketAddr : Type} [DecidableEq SocketAddr]

/-- The insert of the task has succeeded, and it has not executed its remove. -/
def Live (t : Connection.Task SocketAddr) : Prop := .insert true ∈ t.calls ∧ .remove t.addr ∉ t.calls

instance (t : Connection.Task SocketAddr) : Decidable t.Live := inferInstanceAs (Decidable (_ ∧ _))

/-- What a step of a task does to the table and to its own standing. -/
inductive Registers (manager : ConnectionManager SocketAddr) (t : Connection.Task SocketAddr) :
    TaskEvent → ConnectionManager SocketAddr → Connection.Task SocketAddr → Prop where
  | admitted {manager' : ConnectionManager SocketAddr} {t' : Connection.Task SocketAddr} (pc : t.pc = .insert)
      (room : manager.numConnections < manager.capacity) (dead : ¬ t.Live) (live : t'.Live)
      (addresses : manager'.addresses = Insert.insert t.addr manager.addresses) : Registers manager t .insert manager' t'
  | removed {manager' : ConnectionManager SocketAddr} {t' : Connection.Task SocketAddr} (live : t.Live)
      (dead : ¬ t'.Live) (addresses : manager'.addresses = manager.addresses.erase t.addr) :
      Registers manager t .remove manager' t'
  | kept {t' : Connection.Task SocketAddr} (e : TaskEvent) (live : t'.Live ↔ t.Live) :
      Registers manager t e manager t'

theorem Moves.capacity {fb : Flexbuffers} {sh : Shared SocketAddr} {t : Connection.Task SocketAddr} {e : TaskEvent}
    {next : Shared SocketAddr × Connection.Task SocketAddr} (h : Moves fb sh t e next) :
    next.1.manager.capacity = sh.manager.capacity := by
  cases h with
  | admitted old manager pc inserted => exact (ConnectionManager.insert_ok inserted).2.1
  | _ => rfl

theorem Moves.registers {fb : Flexbuffers} {sh : Shared SocketAddr} {t : Connection.Task SocketAddr} {e : TaskEvent}
    {next : Shared SocketAddr × Connection.Task SocketAddr} (h : Moves fb sh t e next) (ht : t.AtPc fb) :
    Registers sh.manager t e next.1.manager next.2 := by
  cases h with
  | refused pc full =>
    obtain ⟨-, -, hcalls⟩ := ht.inserting pc
    exact .kept _ (by simp [Live, hcalls])
  | admitted old manager pc inserted =>
    obtain ⟨-, -, hcalls⟩ := ht.inserting pc
    obtain ⟨hroom, -, haddresses⟩ := ConnectionManager.insert_ok inserted
    exact .admitted pc hroom (by simp [Live, hcalls]) (by simp [Live, hcalls]) haddresses
  | removed pc =>
    obtain ⟨-, -, hcalls⟩ := ht.removing pc
    exact .removed (by simp [Live, hcalls]) (by simp [Live, remove]) (by simp [remove])
  | readEnded | rejected | sendFailed | writerClosed => exact .kept _ (by simp [Live, endSelect])
  | delivered write pc => exact .kept _ (by cases write <;> rfl)
  | flushed write pc => exact .kept _ (by cases write <;> simp [Live, deliver])
  | _ => exact .kept _ Iff.rfl

end Connection.Task

namespace Node
variable {SocketAddr : Type} [DecidableEq SocketAddr]

/-- The address under which a live connection is registered. -/
def Conn.live : Conn SocketAddr → Option SocketAddr
  | .started t => if t.Live then some t.addr else none
  | _ => none

theorem Conn.live_eq_some {c : Conn SocketAddr} {addr : SocketAddr} :
    c.live = some addr ↔ ∃ t, c = .started t ∧ t.Live ∧ t.addr = addr := by
  cases c with
  | started t => by_cases h : t.Live <;> simp [live, h]
  | _ => simp [live]

/-- The live connections among `conns`, each with its address. -/
def liveConns (conns : List (Conn SocketAddr)) : Finset (Nat × SocketAddr) :=
  (conns.zipIdx.filterMap fun c => c.1.live.map fun addr => (c.2, addr)).toFinset

theorem mem_liveConns {conns : List (Conn SocketAddr)} {i : Nat} {addr : SocketAddr} :
    (i, addr) ∈ liveConns conns ↔ ∃ c, conns[i]? = some c ∧ c.live = some addr := by
  simp only [liveConns, List.mem_toFinset, List.mem_filterMap, Option.map_eq_some_iff, Prod.mk.injEq, Prod.exists,
    List.mem_zipIdx_iff_getElem?]
  constructor
  · rintro ⟨c, j, hc, a, ha, rfl, rfl⟩
    exact ⟨c, hc, ha⟩
  · rintro ⟨c, hc, ha⟩
    exact ⟨c, i, hc, addr, ha, rfl, rfl⟩

theorem mem_liveConns_set {conns : List (Conn SocketAddr)} {i j : Nat} {addr : SocketAddr} {old c : Conn SocketAddr}
    (hi : conns[i]? = some old) :
    (j, addr) ∈ liveConns (conns.set i c) ↔ j = i ∧ c.live = some addr ∨ j ≠ i ∧ (j, addr) ∈ liveConns conns := by
  have hlt := (List.getElem?_eq_some_iff.mp hi).1
  simp only [mem_liveConns, List.getElem?_set]
  by_cases hij : i = j
  · subst hij
    simp [hlt]
  · simp [hij, Ne.symm hij]

/-- A connection that is not live adds no member. -/
theorem liveConns_concat {conns : List (Conn SocketAddr)} {c : Conn SocketAddr} (hc : c.live = none) :
    liveConns (conns ++ [c]) = liveConns conns := by
  simp [liveConns, List.zipIdx_append, hc]

/-- Replacing a connection by one of the same standing changes no member. -/
theorem liveConns_set {conns : List (Conn SocketAddr)} {i : Nat} {old c : Conn SocketAddr}
    (hi : conns[i]? = some old) (hc : c.live = old.live) : liveConns (conns.set i c) = liveConns conns := by
  ext ⟨j, addr⟩
  rw [mem_liveConns_set hi, hc]
  constructor
  · rintro (⟨rfl, h⟩ | ⟨-, h⟩)
    · exact mem_liveConns.mpr ⟨old, hi, h⟩
    · exact h
  · intro h
    by_cases hj : j = i
    · subst hj
      obtain ⟨d, hd, ha⟩ := mem_liveConns.mp h
      obtain rfl := Option.some.inj (hi.symm.trans hd)
      exact .inl ⟨rfl, ha⟩
    · exact .inr ⟨hj, h⟩

/-- The table and the live connections of a node. -/
def registry (s : Node SocketAddr) : Registry.State Nat SocketAddr :=
  ⟨liveConns s.conns, s.shared.manager.addresses⟩

variable {fb : Flexbuffers} {s s' : Node SocketAddr} {e : NodeEvent SocketAddr}

omit [DecidableEq SocketAddr] in
private theorem live_started [DecidableEq SocketAddr] {t : Connection.Task SocketAddr} (h : t.Live) :
    (Conn.started t).live = some t.addr := if_pos h

omit [DecidableEq SocketAddr] in
private theorem dead_started [DecidableEq SocketAddr] {t : Connection.Task SocketAddr} (h : ¬ t.Live) :
    (Conn.started t).live = none := if_neg h

private theorem task_refines {admissible : Registry.State Nat SocketAddr → SocketAddr → Prop} {i : Nat}
    {e : TaskEvent} {t t' : Connection.Task SocketAddr} {sh' : Shared SocketAddr}
    (hconn : s.conns[i]? = some (.started t)) (haddr : t'.addr = t.addr)
    (h : t.Registers s.shared.manager e sh'.manager t')
    (hadmissible : e = .insert → t.pc = .insert →
      s.shared.manager.numConnections < s.shared.manager.capacity → admissible s.registry t.addr) :
    Relation.ReflGen (Registry.Step s.shared.manager.capacity admissible) s.registry
      ⟨liveConns (s.conns.set i (.started t')), sh'.manager.addresses⟩ := by
  obtain ⟨manager', sendToAll, notifier, now⟩ := sh'
  cases h with
  | admitted pc room dead live addresses =>
    have hnew (addr : SocketAddr) : (i, addr) ∉ liveConns s.conns := by
      intro hmem
      obtain ⟨c, hc, hlive⟩ := mem_liveConns.mp hmem
      obtain rfl := Option.some.inj (hconn.symm.trans hc)
      rw [dead_started dead] at hlive
      cases hlive
    have hmembers : liveConns (s.conns.set i (.started t')) = insert (i, t.addr) (liveConns s.conns) := by
      ext ⟨j, addr⟩
      rw [mem_liveConns_set hconn, live_started live, haddr, Finset.mem_insert, Prod.mk.injEq, Option.some.injEq]
      constructor
      · rintro (⟨rfl, rfl⟩ | ⟨-, h⟩)
        · exact .inl ⟨rfl, rfl⟩
        · exact .inr h
      · rintro (⟨rfl, rfl⟩ | h)
        · exact .inl ⟨rfl, rfl⟩
        · refine .inr ⟨?_, h⟩
          rintro rfl
          exact hnew addr h
    rw [hmembers, addresses]
    exact .single (.join i t.addr room hnew (hadmissible rfl pc room))
  | removed live dead addresses =>
    have hmember : (i, t.addr) ∈ liveConns s.conns := mem_liveConns.mpr ⟨_, hconn, live_started live⟩
    have hmembers : liveConns (s.conns.set i (.started t')) = (liveConns s.conns).erase (i, t.addr) := by
      ext ⟨j, addr⟩
      rw [mem_liveConns_set hconn, dead_started dead, Finset.mem_erase]
      constructor
      · rintro (⟨-, h⟩ | ⟨hj, h⟩)
        · cases h
        · exact ⟨fun heq => hj (Prod.mk.inj heq).1, h⟩
      · rintro ⟨hne, h⟩
        refine .inr ⟨?_, h⟩
        rintro rfl
        obtain ⟨c, hc, hlive⟩ := mem_liveConns.mp h
        obtain rfl := Option.some.inj (hconn.symm.trans hc)
        obtain rfl := Option.some.inj ((live_started live).symm.trans hlive)
        exact hne rfl
    rw [hmembers, addresses]
    exact .single (.leave i t.addr hmember)
  | kept e live =>
    rw [liveConns_set hconn]
    · exact .refl
    · by_cases h : t.Live
      · rw [live_started h, live_started (live.mpr h), haddr]
      · rw [dead_started h, dead_started fun h' => h (live.mp h')]

/-- Every step of a node is a step of the registry or none. -/
theorem Moves.refines {admissible : Registry.State Nat SocketAddr → SocketAddr → Prop} (h : Moves fb s e s')
    (hs : Composed fb s)
    (hadmissible : ∀ i t, e = .task i .insert → s.TaskAt i t → t.pc = .insert →
      s.shared.manager.numConnections < s.shared.manager.capacity → admissible s.registry t.addr) :
    Relation.ReflGen (Registry.Step s.shared.manager.capacity admissible) s.registry s'.registry := by
  cases h with
  | task i e t next conn stepped =>
    have hmoves := Connection.Task.step_moves stepped
    exact task_refines conn hmoves.addr (hmoves.registers (hs.atPc conn)) fun he => hadmissible i t (by rw [he]) conn
  | subscribed e pc notifier conn fresh =>
    have hlive : conn.live = none := by cases fresh <;> simp [Conn.live, Connection.Task.Live, Connection.Task.spawn]
    simp only [registry, liveConns_concat hlive]
    exact .refl
  | started i receiver maxPendingMessages peer addr stream resolved conn =>
    have hlive : (Conn.started (.spawn addr (.empty maxPendingMessages) receiver)).live =
        (Conn.connecting peer receiver).live := by
      simp [Conn.live, Connection.Task.Live, Connection.Task.spawn]
    simp only [registry, liveConns_set conn hlive]
    exact .refl
  | ended i receiver peer stream resolved conn =>
    have hlive : (Conn.ended : Conn SocketAddr).live = (Conn.connecting peer receiver).live := rfl
    simp only [registry, endConn, liveConns_set conn hlive]
    exact .refl
  | sent | quitting | ticked | quiet => exact .refl

theorem Moves.capacity (h : Moves fb s e s') : s'.shared.manager.capacity = s.shared.manager.capacity := by
  cases h with
  | task i e t next conn stepped => exact (Connection.Task.step_moves stepped).capacity
  | _ => rfl

/-- The insert of task `i` would put an address into the table that is there already. -/
def overwrites (s : Node SocketAddr) (i : Nat) : Bool :=
  match s.conns[i]? with
  | some (.started t) =>
    s.shared.manager.numConnections < s.shared.manager.capacity && (s.shared.manager.get t.addr).isSome
  | _ => false

/-- An insert that has room is for an address without an entry. -/
def FreshInsert (s : Node SocketAddr) : NodeEvent SocketAddr → Prop
  | .task i .insert => s.overwrites i = false
  | _ => True

instance (s : Node SocketAddr) : DecidablePred (FreshInsert s)
  | .task i .insert => inferInstanceAs (Decidable (s.overwrites i = false))
  | .task _ (.sent _) | .task _ (.read _) | .task _ (.poll _) | .task _ (.closed _) | .task _ .remove =>
    .isTrue trivial
  | .connect | .listen _ | .accept _ | .connected .. | .tick | .send | .notified | .clock _ => .isTrue trivial

/-- A run whose every insert is admissible is a run of the registry. -/
theorem run_refines {guard : Node SocketAddr → NodeEvent SocketAddr → Prop}
    {admissible : Registry.State Nat SocketAddr → SocketAddr → Prop} {es : List (NodeEvent SocketAddr)}
    (hadmissible : ∀ s i t, guard s (.task i .insert) → s.TaskAt i t →
      s.shared.manager.numConnections < s.shared.manager.capacity → admissible s.registry t.addr)
    (hs : Composed fb s) (hguard : Machine.Guarded (step fb) guard s es)
    (h : Machine.run (step fb) s es = some s') :
    Registry.Steps s.shared.manager.capacity admissible s.registry s'.registry := by
  refine Machine.Guarded.simulates
    (P := fun u => Composed fb u ∧ u.shared.manager.capacity = s.shared.manager.capacity) ?_ ?_ ⟨hs, rfl⟩ hguard h
  · rintro u e v ⟨hu, hcapacity⟩ hstep
    have hmoves := step_moves hstep
    exact ⟨hmoves.composed hu, hmoves.capacity.trans hcapacity⟩
  · rintro u e v ⟨hu, hcapacity⟩ hg hstep
    rw [← hcapacity]
    exact (step_moves hstep).refines hu fun i t he ht _ room => hadmissible u i t (he ▸ hg) ht room

section
variable [ToString SocketAddr] {config : Config} {platform : Platform SocketAddr} {now : SystemTime}
  {s₀ : Node SocketAddr} {es : List (NodeEvent SocketAddr)}

private theorem main_registry (h₀ : main fb config platform now = .ok s₀) :
    s₀.registry = Registry.empty ∧ s₀.shared.manager.capacity = config.peer.maxPeerCount := by
  obtain ⟨hconns, -, hmanager, -⟩ := main_ok h₀
  rw [registry, hconns, hmanager]
  exact ⟨rfl, rfl⟩

private theorem run_capacity (h₀ : main fb config platform now = .ok s₀) (h : Machine.run (step fb) s₀ es = some s) :
    s.shared.manager.capacity = config.peer.maxPeerCount :=
  Machine.run_invariant (P := fun u => u.shared.manager.capacity = config.peer.maxPeerCount)
    (fun hu hstep => (step_moves hstep).capacity.trans hu) (main_registry h₀).2 h

theorem run_sound (h₀ : main fb config platform now = .ok s₀) (h : Machine.run (step fb) s₀ es = some s) :
    Registry.Sound config.peer.maxPeerCount s.registry := by
  obtain ⟨hempty, hcapacity⟩ := main_registry h₀
  have hguard : Machine.Guarded (step fb) (fun _ _ => True) s₀ es :=
    Machine.guarded_of_forall es (fun _ _ _ => trivial) s₀
  have hsteps : Registry.Steps s₀.shared.manager.capacity (fun _ _ => True) s₀.registry s.registry :=
    run_refines (fun _ _ _ _ _ _ => trivial) (main_composed h₀) hguard h
  rw [hempty, hcapacity] at hsteps
  exact (Registry.Sound.empty _).steps hsteps

theorem run_exact (h₀ : main fb config platform now = .ok s₀)
    (hfresh : Machine.Guarded (step fb) FreshInsert s₀ es) (h : Machine.run (step fb) s₀ es = some s) :
    Registry.Exact s.registry := by
  obtain ⟨hempty, -⟩ := main_registry h₀
  have hadmissible (u : Node SocketAddr) (i : Nat) (t : Connection.Task SocketAddr)
      (hg : FreshInsert u (.task i .insert)) (ht : u.TaskAt i t)
      (room : u.shared.manager.numConnections < u.shared.manager.capacity) : Registry.Fresh u.registry t.addr := by
    have hget : u.shared.manager.get t.addr = none := by simpa [FreshInsert, overwrites, ht, room] using hg
    exact ConnectionManager.get_eq_none.mp hget
  have hsteps := run_refines hadmissible (main_composed h₀) hfresh h
  rw [hempty] at hsteps
  exact Registry.Exact.empty.steps hsteps

/-- Each entry in the table is the address of a live connection. -/
theorem run_vouched (h₀ : main fb config platform now = .ok s₀) (h : Machine.run (step fb) s₀ es = some s)
    {addr : SocketAddr} (haddr : addr ∈ s.shared.manager.addresses) : ∃ i t, s.TaskAt i t ∧ t.Live ∧ t.addr = addr := by
  obtain ⟨⟨i, _⟩, hi, rfl⟩ := Finset.mem_image.mp ((run_sound h₀ h).vouched haddr)
  obtain ⟨c, hc, hlive⟩ := mem_liveConns.mp hi
  obtain ⟨t, rfl, ht, haddr⟩ := Conn.live_eq_some.mp hlive
  exact ⟨i, t, hc, ht, haddr⟩

/-- While inserts are fresh, each live connection has its entry. -/
theorem run_entered (h₀ : main fb config platform now = .ok s₀) (hfresh : Machine.Guarded (step fb) FreshInsert s₀ es)
    (h : Machine.run (step fb) s₀ es = some s) {i : Nat} {t : Connection.Task SocketAddr} (ht : s.TaskAt i t)
    (hlive : t.Live) : t.addr ∈ s.shared.manager.addresses :=
  (run_exact h₀ hfresh h).entered i t.addr (mem_liveConns.mpr ⟨_, ht, live_started hlive⟩)

/-- The table respects its limit, and each entry in it is the address of a live
connection. A task is refused only when there are as many live connections as the
table may have entries, and its refusal leaves the table alone. -/
theorem run_table (h₀ : main fb config platform now = .ok s₀) (h : Machine.run (step fb) s₀ es = some s) :
    s.shared.manager.numConnections ≤ config.peer.maxPeerCount ∧
    (∀ addr ∈ s.shared.manager.addresses, ∃ i t, s.TaskAt i t ∧ t.Live ∧ t.addr = addr) ∧
    ((∀ i t, s.TaskAt i t → ¬ t.Live) → s.shared.manager.numConnections = 0) ∧
    (∀ i t s', step fb s (.task i .insert) = some s' → s'.TaskAt i t →
      .insert false ∈ t.calls →
      config.peer.maxPeerCount ≤ (liveConns s.conns).card ∧ s'.shared.manager = s.shared.manager) := by
  have hsound := run_sound h₀ h
  refine ⟨hsound.bounded, fun addr haddr => run_vouched h₀ h haddr, fun hdead => ?_,
    fun i t s' hstep ht hrefused => ?_⟩
  · rw [ConnectionManager.numConnections, Finset.card_eq_zero, Finset.eq_empty_iff_forall_notMem]
    intro addr haddr
    obtain ⟨i, t, ht, hlive, -⟩ := run_vouched h₀ h haddr
    exact hdead i t ht hlive
  · obtain ⟨u, next, hu, hstepped, rfl⟩ := step_task hstep
    have hcapacity : s.shared.manager.capacity = config.peer.maxPeerCount := run_capacity h₀ h
    have htask : next.2 = t := by
      rcases conn_of_set ht with ⟨-, heq⟩ | ⟨hne, -⟩
      · exact (Conn.started.inj heq).symm
      · exact absurd rfl hne
    have hatPc := (run_composed h (main_composed h₀)).atPc hu
    cases Connection.Task.step_moves hstepped with
    | refused pc full =>
      refine ⟨?_, rfl⟩
      calc
        config.peer.maxPeerCount ≤ s.shared.manager.numConnections := hcapacity ▸ full
        _ ≤ (liveConns s.conns).card := hsound.card_keys_le
    | admitted old manager pc inserted =>
      obtain ⟨-, -, hcalls⟩ := hatPc.inserting pc
      rw [← htask] at hrefused
      simp [hcalls] at hrefused

/-- The table is full for the third connection, and the first is closed. -/
theorem table_threeSeeds :
    ∃ s₀ s, main Codec.flexbuffers threeSeeds platformA .unixEpoch = .ok s₀ ∧
      Machine.run (step Codec.flexbuffers) s₀
        (connects ++ register 0 hostA ++ register 2 hostB ++ register 1 hostA ++ closeByPeer 0) = some s ∧
      s.shared.manager.addresses = {hostB} ∧
      ∀ addr ∈ s.shared.manager.addresses, ∃ i t, s.TaskAt i t ∧ t.Live ∧ t.addr = addr := by
  obtain ⟨s₀, s, h₀, h, haddresses⟩ : ∃ s₀ s, main Codec.flexbuffers threeSeeds platformA .unixEpoch = .ok s₀ ∧
      Machine.run (step Codec.flexbuffers) s₀
        (connects ++ register 0 hostA ++ register 2 hostB ++ register 1 hostA ++ closeByPeer 0) = some s ∧
      s.shared.manager.addresses = {hostB} :=
    exists_run _ (fun _ s => s.shared.manager.addresses = {hostB}) (by decide)
  exact ⟨s₀, s, h₀, h, haddresses, (run_table h₀ h).2.1⟩

/-- While inserts are fresh, the live connections respect the limit too. -/
theorem run_within_capacity (h₀ : main fb config platform now = .ok s₀)
    (hfresh : Machine.Guarded (step fb) FreshInsert s₀ es) (h : Machine.run (step fb) s₀ es = some s) :
    (liveConns s.conns).card ≤ config.peer.maxPeerCount :=
  (run_exact h₀ hfresh h).card_members_le (run_sound h₀ h)

/-- The second name overwrites the entry of the first, and there is room for a third. -/
theorem live_exceed_capacity :
    ¬ ∀ (config : Config) (platform : Platform SocketAddrV4) (now : SystemTime) (s₀ s : Node SocketAddrV4)
      (es : List (NodeEvent SocketAddrV4)), main Codec.flexbuffers config platform now = .ok s₀ →
      Machine.run (step Codec.flexbuffers) s₀ es = some s →
      (liveConns s.conns).card ≤ config.peer.maxPeerCount := by
  intro hall
  obtain ⟨s₀, s, h₀, h, hcard⟩ : ∃ s₀ s, main Codec.flexbuffers threeSeeds platformA .unixEpoch = .ok s₀ ∧
      Machine.run (step Codec.flexbuffers) s₀
        (connects ++ register 0 hostA ++ register 1 hostA ++ register 2 hostB) = some s ∧
      (liveConns s.conns).card = 3 := exists_run _ (fun _ s => (liveConns s.conns).card = 3) (by decide)
  exact absurd (hall _ _ _ _ _ _ h₀ h) (by rw [hcard]; decide)

/-- The second name is fresh once the connection to the first has been closed. -/
def reconnect : List (NodeEvent SocketAddrV4) :=
  connects ++ register 0 hostA ++ register 2 hostB ++ closeByPeer 0 ++ register 1 hostA

theorem within_capacity_reconnect :
    ∃ s₀ s, main Codec.flexbuffers threeSeeds platformA .unixEpoch = .ok s₀ ∧
      Machine.run (step Codec.flexbuffers) s₀ reconnect = some s ∧ (liveConns s.conns).card ≤ 2 := by
  obtain ⟨s₀, s, h₀, h, hfresh⟩ : ∃ s₀ s, main Codec.flexbuffers threeSeeds platformA .unixEpoch = .ok s₀ ∧
      Machine.run (step Codec.flexbuffers) s₀ reconnect = some s ∧
      Machine.Guarded (step Codec.flexbuffers) FreshInsert s₀ reconnect :=
    exists_run _ (fun s₀ _ => Machine.Guarded (step Codec.flexbuffers) FreshInsert s₀ reconnect) (by decide)
  exact ⟨s₀, s, h₀, h, run_within_capacity h₀ hfresh h⟩

/-- An insert that overwrites an entry leaves the table with fewer entries than there
are live connections. -/
theorem overwrite_undercounts (h₀ : main fb config platform now = .ok s₀) (h : Machine.run (step fb) s₀ es = some s)
    {i : Nat} (hover : s.overwrites i) (hstep : step fb s (.task i .insert) = some s') :
    s'.shared.manager.numConnections < (liveConns s'.conns).card := by
  obtain ⟨t, next, ht, hstepped, rfl⟩ := step_task hstep
  obtain ⟨hroom, hget⟩ : s.shared.manager.numConnections < s.shared.manager.capacity ∧
      (s.shared.manager.get t.addr).isSome := by simpa [overwrites, ht] using hover
  have hentry : t.addr ∈ s.shared.manager.addresses := by
    by_contra hnot
    rw [ConnectionManager.get_eq_none.mpr hnot] at hget
    cases hget
  obtain ⟨j, u, hu, hlive, haddr⟩ := run_vouched h₀ h hentry
  have hatPc := (run_composed h (main_composed h₀)).atPc ht
  have hs' : Machine.run (step fb) s₀ (es ++ [.task i .insert]) = some
      { s with shared := next.1, conns := s.conns.set i (.started next.2) } :=
    Machine.run_append.mpr ⟨s, h, Machine.run_cons.mpr ⟨_, hstep, rfl⟩⟩
  cases Connection.Task.step_moves hstepped with
  | refused pc full => omega
  | admitted old manager pc inserted =>
    obtain ⟨-, -, hcalls⟩ := hatPc.inserting pc
    have hji : j ≠ i := by
      rintro rfl
      obtain rfl := Conn.started.inj (Option.some.inj (hu.symm.trans ht))
      simp [Connection.Task.Live, hcalls] at hlive
    refine (run_sound h₀ hs').card_keys_lt hji.symm ?_ ?_ (k := t.addr)
    · refine (mem_liveConns_set ht).mpr (.inl ⟨rfl, live_started ?_⟩)
      simp [Connection.Task.Live, hcalls]
    · refine (mem_liveConns_set ht).mpr (.inr ⟨hji, mem_liveConns.mpr ⟨_, hu, ?_⟩⟩)
      rw [live_started hlive, haddr]

end

end Node

end Braidpool
