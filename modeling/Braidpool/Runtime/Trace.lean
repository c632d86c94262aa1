import Braidpool.Runtime.Machine

/-! Runs of events that have owners, and events that all owners see. What the run does is
determined by what each owner sees of it. -/
namespace Braidpool.Runtime.Machine
variable {σ ε ι : Type*} {step : σ → ε → Option σ} {owner : ε → Option ι}

/-- Events of two owners lead to one state in either order. -/
def Commutes (step : σ → ε → Option σ) (owner : ε → Option ι) : Prop :=
  ∀ s e f i j, owner e = some i → owner f = some j → i ≠ j →
    (step s e).bind (step · f) = (step s f).bind (step · e)

/-- An owner sees its own events and those without an owner. -/
def sees [DecidableEq ι] (owner : ε → Option ι) (i : ι) (e : ε) : Bool := owner e = none ∨ owner e = some i

/-- An event can be performed before those of the other owners. -/
private theorem run_bring_forward (hcomm : Commutes step owner) {e : ε} {i : ι} (he : owner e = some i) {es : List ε}
    (hes : ∀ f ∈ es, ∃ j, owner f = some j ∧ j ≠ i) (s : σ) (fs : List ε) :
    run step s (es ++ e :: fs) = run step s (e :: (es ++ fs)) := by
  induction es generalizing s with
  | nil => rfl
  | cons f es ih =>
    obtain ⟨j, hf, hne⟩ := hes f List.mem_cons_self
    have hrest := ih fun g hg => hes g (List.mem_cons_of_mem f hg)
    calc
      run step s (f :: es ++ e :: fs)
      _ = (step s f).bind fun t => run step t (e :: (es ++ fs)) := by
        simp only [List.cons_append, run, hrest]
      _ = ((step s f).bind (step · e)).bind fun u => run step u (es ++ fs) := by
        rw [Option.bind_assoc]
        rfl
      _ = ((step s e).bind (step · f)).bind fun u => run step u (es ++ fs) := by
        rw [hcomm s f e j i hf he hne]
      _ = run step s (e :: (f :: es ++ fs)) := by
        rw [Option.bind_assoc]
        rfl

variable [DecidableEq ι]

theorem sees_of_none {e : ε} (h : owner e = none) (i : ι) : sees owner i e = true := by simp [sees, h]

theorem sees_of_some {e : ε} {i j : ι} (h : owner e = some i) : sees owner j e = true ↔ i = j := by simp [sees, h]

private theorem exists_owner {e : ε} {i : ι} (h : ¬ sees owner i e = true) : ∃ j, owner e = some j ∧ j ≠ i := by
  cases he : owner e with
  | none => exact absurd (sees_of_none he i) h
  | some j => exact ⟨j, rfl, fun hji => h ((sees_of_some he).mpr hji)⟩

private theorem exists_sees [Nonempty ι] (owner : ε → Option ι) (e : ε) : ∃ i, sees owner i e = true := by
  cases he : owner e with
  | none => exact ⟨Classical.choice ‹_›, sees_of_none he _⟩
  | some i => exact ⟨i, (sees_of_some he).mpr rfl⟩

/-- If events of two owners commute, sequences of which every owner sees the same events
in the same order lead to the same state, or both lead nowhere. -/
theorem run_congr [Nonempty ι] (hcomm : Commutes step owner) {es fs : List ε}
    (h : ∀ i, es.filter (sees owner i) = fs.filter (sees owner i)) (s : σ) : run step s es = run step s fs := by
  induction es generalizing s fs with
  | nil =>
    cases fs with
    | nil => rfl
    | cons f fs =>
      obtain ⟨i, hi⟩ := exists_sees owner f
      have hnil := h i
      rw [List.filter_cons_of_pos hi] at hnil
      cases hnil
  | cons e es ih =>
    obtain ⟨i, hi⟩ := exists_sees owner e
    have hfirst := (h i).symm
    rw [List.filter_cons_of_pos hi] at hfirst
    obtain ⟨before, after, rfl, hbefore, -, hafter⟩ := List.filter_eq_cons_iff.mp hfirst
    have hothers : ∀ f ∈ before, ∃ j, owner f = some j ∧ j ≠ i := fun f hf => exists_owner (hbefore f hf)
    cases he : owner e with
    | none =>
      -- what precedes `e` would have to be unseen by its own owner
      cases before with
      | nil =>
        have hrest (j : ι) : es.filter (sees owner j) = after.filter (sees owner j) := by
          have hj := h j
          rw [List.nil_append, List.filter_cons_of_pos (sees_of_none he j), List.filter_cons_of_pos (sees_of_none he j)] at hj
          exact (List.cons.inj hj).2
        simp only [List.nil_append, run, ih hrest]
      | cons f before =>
        obtain ⟨j, hf, -⟩ := hothers f List.mem_cons_self
        have hj := h j
        rw [List.cons_append, List.filter_cons_of_pos (sees_of_none he j),
          List.filter_cons_of_pos ((sees_of_some hf).mpr rfl)] at hj
        rw [(List.cons.inj hj).1, hf] at he
        cases he
    | some k =>
      obtain rfl := (sees_of_some he).mp hi
      have hrest (j : ι) : es.filter (sees owner j) = (before ++ after).filter (sees owner j) := by
        have hj := h j
        rw [List.filter_append] at hj ⊢
        by_cases hkj : k = j
        · subst hkj
          rw [List.filter_eq_nil_iff.mpr hbefore, List.nil_append, hafter]
        · have hunseen : ¬ sees owner j e = true := fun hsees => hkj ((sees_of_some he).mp hsees)
          rwa [List.filter_cons_of_neg hunseen, List.filter_cons_of_neg hunseen] at hj
      rw [run_bring_forward hcomm he hothers]
      simp only [run, ih hrest]

end Braidpool.Runtime.Machine
