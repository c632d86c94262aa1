import Mathlib.Logic.Relation

/-! Runs of a partial step function over labelled events, with the rules that
carry an invariant, a guard on the events, or an abstraction along a run, and what
a run can be driven to by a schedule that lowers a measure. -/
namespace Braidpool.Runtime.Machine
variable {σ ε τ : Type*} {step : σ → ε → Option σ}

/-- Perform the events from left to right. An event that is not enabled stops
the whole run. -/
def run (step : σ → ε → Option σ) : σ → List ε → Option σ
  | s, [] => some s
  | s, e :: es => (step s e).bind fun t => run step t es

/-- Some sequence of events leads from `s` to `t`. -/
def Reaches (step : σ → ε → Option σ) (s t : σ) : Prop := ∃ es, run step s es = some t

/-- Every event of the run meets `guard` in the state it is performed in. -/
def Guarded (step : σ → ε → Option σ) (guard : σ → ε → Prop) : σ → List ε → Prop
  | _, [] => True
  | s, e :: es => guard s e ∧ ∀ t, step s e = some t → Guarded step guard t es

instance decidableGuarded {guard : σ → ε → Prop} [∀ s e, Decidable (guard s e)] :
    ∀ s es, Decidable (Guarded step guard s es)
  | _, [] => .isTrue trivial
  | s, e :: es =>
    match h : step s e with
    | none => decidable_of_iff (guard s e) (by simp [Guarded, h])
    | some t =>
      have : Decidable (Guarded step guard t es) := decidableGuarded t es
      decidable_of_iff (guard s e ∧ Guarded step guard t es) (by simp [Guarded, h])

@[simp] theorem run_nil (s : σ) : run step s [] = some s := rfl

theorem run_cons {s u : σ} {e : ε} {es : List ε} :
    run step s (e :: es) = some u ↔ ∃ t, step s e = some t ∧ run step t es = some u := by
  rw [run, Option.bind_eq_some_iff]

theorem run_append {s u : σ} {es fs : List ε} :
    run step s (es ++ fs) = some u ↔ ∃ t, run step s es = some t ∧ run step t fs = some u := by
  induction es generalizing s with
  | nil => simp
  | cons e es ih =>
    simp only [List.cons_append, run_cons, ih]
    constructor
    · rintro ⟨t, he, v, hes, hfs⟩
      exact ⟨v, ⟨t, he, hes⟩, hfs⟩
    · rintro ⟨v, ⟨t, he, hes⟩, hfs⟩
      exact ⟨t, he, v, hes, hfs⟩

theorem run_concat {s u : σ} {e : ε} {es : List ε} :
    run step s (es ++ [e]) = some u ↔ ∃ t, run step s es = some t ∧ step t e = some u := by
  rw [run_append]
  simp only [run, Option.bind_fun_some]

/-- A run goes on from where its beginning leads. -/
theorem run_rest {s t u : σ} {es fs : List ε} (h : run step s (es ++ fs) = some u)
    (hes : run step s es = some t) : run step t fs = some u := by
  obtain ⟨t', ht', hfs⟩ := run_append.mp h
  obtain rfl := Option.some.inj (hes.symm.trans ht')
  exact hfs

/-- A run whose end satisfies `P`, found by evaluation. -/
theorem exists_run {s : σ} {es : List ε} (P : σ → Prop) [DecidablePred P]
    (h : (run step s es).any (fun t => decide (P t)) = true) : ∃ t, run step s es = some t ∧ P t := by
  obtain ⟨t, ht, hP⟩ := (Option.any_eq_true _ _).mp h
  exact ⟨t, ht, of_decide_eq_true hP⟩

theorem Reaches.refl (s : σ) : Reaches step s s := ⟨[], rfl⟩

theorem Reaches.single {s t : σ} {e : ε} (h : step s e = some t) : Reaches step s t :=
  ⟨[e], run_cons.mpr ⟨t, h, rfl⟩⟩

theorem Reaches.trans {s t u : σ} (h : Reaches step s t) (k : Reaches step t u) : Reaches step s u := by
  obtain ⟨es, hes⟩ := h
  obtain ⟨fs, hfs⟩ := k
  exact ⟨es ++ fs, run_append.mpr ⟨t, hes, hfs⟩⟩

/-- A run is guarded when each of its events meets `guard` after those before it. -/
theorem guarded_iff {guard : σ → ε → Prop} {s : σ} {es : List ε} :
    Guarded step guard s es ↔
      ∀ before e after t, es = before ++ e :: after → run step s before = some t → guard t e := by
  induction es generalizing s with
  | nil => exact ⟨fun _ before e after t h => absurd h.symm (by simp), fun _ => trivial⟩
  | cons e es ih =>
    constructor
    · rintro ⟨hguard, hrest⟩ before e' after t h hrun
      cases before with
      | nil =>
        obtain ⟨rfl, -⟩ := List.cons.inj h
        obtain rfl := Option.some.inj hrun
        exact hguard
      | cons e'' before =>
        obtain ⟨rfl, rfl⟩ := List.cons.inj h
        obtain ⟨u, hstep, hrun⟩ := run_cons.mp hrun
        exact ih.mp (hrest u hstep) before e' after t rfl hrun
    · intro h
      refine ⟨h [] e es s rfl rfl, fun u hstep => ih.mpr ?_⟩
      rintro before e' after t rfl hrun
      exact h (e :: before) e' after t rfl (run_cons.mpr ⟨u, hstep, hrun⟩)

/-- A guarded run keeps whatever its guarded steps keep. -/
theorem Guarded.invariant {guard : σ → ε → Prop} {P : σ → Prop}
    (hstep : ∀ {s e t}, P s → guard s e → step s e = some t → P t)
    {s t : σ} {es : List ε} (hs : P s) (hg : Guarded step guard s es)
    (h : run step s es = some t) : P t := by
  induction es generalizing s with
  | nil =>
    obtain rfl := Option.some.inj h
    exact hs
  | cons e es ih =>
    obtain ⟨u, he, hes⟩ := run_cons.mp h
    exact ih (hstep hs hg.1 he) (hg.2 u he) hes

theorem guarded_of_forall {guard : σ → ε → Prop} (es : List ε) (h : ∀ s, ∀ e ∈ es, guard s e) (s : σ) :
    Guarded step guard s es := by
  induction es generalizing s with
  | nil => trivial
  | cons e es ih =>
    exact ⟨h s e (by simp), fun t _ => ih (fun s e he => h s e (by simp [he])) t⟩

/-- A run keeps whatever its steps keep. -/
theorem run_invariant {P : σ → Prop} (hstep : ∀ {s e t}, P s → step s e = some t → P t)
    {s t : σ} {es : List ε} (hs : P s) (h : run step s es = some t) : P t :=
  Guarded.invariant (fun hs _ he => hstep hs he) hs
    (guarded_of_forall es (fun _ _ _ => trivial) s : Guarded step (fun _ _ => True) s es) h

/-- When every guarded step is one abstract step or none, a guarded run is an
abstract run. -/
theorem Guarded.simulates {guard : σ → ε → Prop} {abs : σ → τ} {P : σ → Prop} {Step : τ → τ → Prop}
    (hinv : ∀ {s e t}, P s → step s e = some t → P t)
    (hstep : ∀ {s e t}, P s → guard s e → step s e = some t → Relation.ReflGen Step (abs s) (abs t))
    {s t : σ} {es : List ε} (hs : P s) (hg : Guarded step guard s es) (h : run step s es = some t) :
    Relation.ReflTransGen Step (abs s) (abs t) := by
  induction es generalizing s with
  | nil =>
    obtain rfl := Option.some.inj h
    exact .refl
  | cons e es ih =>
    obtain ⟨u, he, hes⟩ := run_cons.mp h
    exact (hstep hs hg.1 he).to_reflTransGen.trans (ih (hinv hs he) (hg.2 u he) hes)

/-- If from every state with `Inv` that is not done some allowed event leads to one with `Inv`
and a smaller measure, a state with `Inv` leads to one that is done, in as many events at most. -/
theorem exists_run_of_measure {Inv Done : σ → Prop} {Allowed : ε → Prop} (μ : σ → Nat)
    (hstep : ∀ s, Inv s → ¬ Done s → ∃ e t, Allowed e ∧ step s e = some t ∧ Inv t ∧ μ t < μ s) {s : σ} (hs : Inv s) :
    ∃ es t, es.length ≤ μ s ∧ (∀ e ∈ es, Allowed e) ∧ run step s es = some t ∧ Inv t ∧ Done t := by
  induction hn : μ s using Nat.strongRecOn generalizing s with
  | _ n ih =>
    by_cases hdone : Done s
    · exact ⟨[], s, Nat.zero_le _, by simp, rfl, hs, hdone⟩
    · obtain ⟨e, t, hallowed, he, ht, hlt⟩ := hstep s hs hdone
      obtain ⟨es, u, hlength, hall, hrun, hu, hdone⟩ := ih (μ t) (hn ▸ hlt) ht rfl
      refine ⟨e :: es, u, ?_, List.forall_mem_cons.mpr ⟨hallowed, hall⟩, run_cons.mpr ⟨t, he, hrun⟩, hu, hdone⟩
      rw [List.length_cons]
      omega

/-- If no allowed event raises a measure, and those with `p` lower it, there are no more of
these in a run of allowed events than the measure falls. -/
theorem run_countP_le {Allowed : ε → Prop} {p : ε → Bool} (μ : σ → Nat)
    (hstep : ∀ s e t, Allowed e → step s e = some t → μ t + (p e).toNat ≤ μ s) {s t : σ} {es : List ε}
    (hall : ∀ e ∈ es, Allowed e) (h : run step s es = some t) : es.countP p + μ t ≤ μ s := by
  induction es generalizing s with
  | nil =>
    obtain rfl := Option.some.inj h
    exact Nat.le_of_eq (Nat.zero_add _)
  | cons e es ih =>
    obtain ⟨hallowed, hall⟩ := List.forall_mem_cons.mp hall
    obtain ⟨u, he, hes⟩ := run_cons.mp h
    have hfirst := hstep s e u hallowed he
    have hrest := ih hall hes
    cases hp : p e with
    | true =>
      rw [hp, Bool.toNat_true] at hfirst
      rw [List.countP_cons_of_pos hp]
      omega
    | false =>
      rw [List.countP_cons_of_neg (by simp [hp])]
      omega

end Braidpool.Runtime.Machine
