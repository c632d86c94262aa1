import Braidpool.Runtime.Channel
import Mathlib.Data.Finset.Basic
import Mathlib.Data.List.FinRange
import Mathlib.Data.List.Rotate

/-! The select statement of an asynchronous runtime, as tokio documents `select!`. One poll
visits the branches in order from one picked at random; the first result that matches its
pattern completes the statement. A branch whose result does not match is disabled until
then, and without an `else` it is a panic when no branch is left. -/
namespace Braidpool.Runtime.Select
variable {n : Nat} {σ ω : Type*}

/-- A branch polls its future. `some` is a result that matches the pattern of the
branch, `none` one that does not. -/
abbrev Branch (σ ω : Type*) := σ → Poll (Option ω) × σ

inductive Outcome (n : Nat) (ω : Type*) where
  | completed (out : ω)
  | pending (disabled : Finset (Fin n))
  | allDisabled

def pollBranches (branches : Fin n → Branch σ ω) :
    List (Fin n) → Finset (Fin n) → Bool → σ → Outcome n ω × σ
  | [], disabled, isPending, s => (if isPending then .pending disabled else .allDisabled, s)
  | i :: order, disabled, isPending, s =>
    if i ∈ disabled then pollBranches branches order disabled isPending s
    else match branches i s with
      | (.pending, t) => pollBranches branches order disabled true t
      | (.ready none, t) => pollBranches branches order (insert i disabled) isPending t
      | (.ready (some out), t) => (.completed out, t)

/-- One poll of the statement that begins at branch `start`. -/
def poll (branches : Fin n → Branch σ ω) (start : Fin n) (disabled : Finset (Fin n)) (s : σ) :
    Outcome n ω × σ :=
  pollBranches branches ((List.finRange n).rotate start) disabled false s

/-- The branch that a poll begins with is tried first. -/
theorem poll_of_ready {branches : Fin n → Branch σ ω} {start : Fin n} {disabled : Finset (Fin n)} {s t : σ} {out : ω}
    (henabled : start ∉ disabled) (h : branches start s = (.ready (some out), t)) :
    poll branches start disabled s = (.completed out, t) := by
  have hlt : start.val < (List.finRange n).length := by
    rw [List.length_finRange]
    exact start.isLt
  have horder : (List.finRange n).rotate start =
      start :: (List.finRange n).drop (start + 1) ++ (List.finRange n).take start := by
    rw [List.rotate_eq_drop_append_take hlt.le, List.drop_eq_getElem_cons hlt, List.getElem_finRange]
    rfl
  rw [poll, horder, List.cons_append, pollBranches, if_neg henabled, h]

/-- A property of the branches disabled so far and of the state that the polls of
one visit keep as long as none of them completes the statement. -/
structure Keeps (branches : Fin n → Branch σ ω) (P : Finset (Fin n) → σ → Prop) : Prop where
  pending : ∀ {disabled i s t}, P disabled s → i ∉ disabled → branches i s = (.pending, t) → P disabled t
  refuted : ∀ {disabled i s t}, P disabled s → i ∉ disabled → branches i s = (.ready none, t) →
    P (insert i disabled) t

/-- In some state with `P` the branch yields a result that does not match. -/
def Refutable (branches : Fin n → Branch σ ω) (P : Finset (Fin n) → σ → Prop) (i : Fin n) : Prop :=
  ∃ disabled s t, P disabled s ∧ i ∉ disabled ∧ branches i s = (.ready none, t)

section
variable {branches : Fin n → Branch σ ω} {P : Finset (Fin n) → σ → Prop}

/-- What the result of visiting `order` says about the branches. -/
private def Explained (branches : Fin n → Branch σ ω) (P : Finset (Fin n) → σ → Prop)
    (order : List (Fin n)) (disabled : Finset (Fin n)) (isPending : Bool) : Outcome n ω × σ → Prop
  | (.completed out, t) =>
    ∃ i larger u, disabled ⊆ larger ∧ i ∉ larger ∧ P larger u ∧ branches i u = (.ready (some out), t)
  | (.pending larger, t) => P larger t ∧ ∀ i ∈ larger, i ∈ disabled ∨ Refutable branches P i
  | (.allDisabled, _) => isPending = false ∧ ∀ i ∈ order, i ∈ disabled ∨ Refutable branches P i

/-- Visiting a branch that is disabled, or is so after its visit, explains no less. -/
private theorem Explained.cons {i : Fin n} {order : List (Fin n)} {disabled larger : Finset (Fin n)}
    {isPending : Bool} {result : Outcome n ω × σ} (hsub : disabled ⊆ larger)
    (hi : i ∈ disabled ∨ Refutable branches P i)
    (hlarger : ∀ j ∈ larger, j ∈ disabled ∨ Refutable branches P j)
    (h : Explained branches P order larger isPending result) :
    Explained branches P (i :: order) disabled isPending result := by
  have hor (j : Fin n) (hj : j ∈ larger ∨ Refutable branches P j) :
      j ∈ disabled ∨ Refutable branches P j := hj.elim (hlarger j) .inr
  obtain ⟨outcome, t⟩ := result
  cases outcome with
  | completed out =>
    obtain ⟨j, seen, u, hseen, hj, hu, hpoll⟩ := h
    exact ⟨j, seen, u, hsub.trans hseen, hj, hu, hpoll⟩
  | pending disabled' => exact ⟨h.1, fun j hj => hor j (h.2 j hj)⟩
  | allDisabled =>
    refine ⟨h.1, fun j hj => ?_⟩
    rcases List.mem_cons.mp hj with rfl | hj
    · exact hi
    · exact hor j (h.2 j hj)

private theorem pollBranches_explained (hkeep : Keeps branches P) (order : List (Fin n))
    (disabled : Finset (Fin n)) (isPending : Bool) (s : σ) (hs : P disabled s) :
    Explained branches P order disabled isPending (pollBranches branches order disabled isPending s) := by
  induction order generalizing disabled isPending s with
  | nil =>
    cases isPending with
    | false => exact ⟨rfl, by simp⟩
    | true => exact ⟨hs, fun i hi => .inl hi⟩
  | cons i order ih =>
    rw [pollBranches]
    by_cases hi : i ∈ disabled
    · rw [if_pos hi]
      exact (ih disabled isPending s hs).cons subset_rfl (.inl hi) (fun j hj => .inl hj)
    · rw [if_neg hi]
      cases hpoll : branches i s with
      | mk result t =>
        cases result with
        | pending =>
          have h := ih disabled true t (hkeep.pending hs hi hpoll)
          change Explained branches P (i :: order) disabled isPending
            (pollBranches branches order disabled true t)
          generalize pollBranches branches order disabled true t = result at h
          obtain ⟨outcome, u⟩ := result
          cases outcome with
          | completed out => exact h
          | pending disabled' => exact h
          | allDisabled => cases h.1
        | ready value =>
          cases value with
          | some out => exact ⟨i, disabled, s, subset_rfl, hi, hs, hpoll⟩
          | none =>
            have href : Refutable branches P i := ⟨disabled, s, t, hs, hi, hpoll⟩
            refine (ih (insert i disabled) isPending t (hkeep.refuted hs hi hpoll)).cons
              (Finset.subset_insert i disabled) (.inr href) fun j hj => ?_
            rcases Finset.mem_insert.mp hj with rfl | hj
            · exact .inr href
            · exact .inl hj

variable {start : Fin n} {disabled : Finset (Fin n)} {s t : σ}

theorem poll_completed (hkeep : Keeps branches P) {out : ω} (hs : P disabled s)
    (h : poll branches start disabled s = (.completed out, t)) :
    ∃ i larger u, disabled ⊆ larger ∧ i ∉ larger ∧ P larger u ∧ branches i u = (.ready (some out), t) := by
  have hc := pollBranches_explained hkeep ((List.finRange n).rotate start) disabled false s hs
  rwa [← poll, h] at hc

/-- A branch that a pending poll has disabled was disabled before or has failed
its pattern. -/
theorem poll_pending (hkeep : Keeps branches P) {disabled' : Finset (Fin n)} (hs : P disabled s)
    (h : poll branches start disabled s = (.pending disabled', t)) :
    P disabled' t ∧ ∀ i ∈ disabled', i ∈ disabled ∨ Refutable branches P i := by
  have hc := pollBranches_explained hkeep ((List.finRange n).rotate start) disabled false s hs
  rwa [← poll, h] at hc

/-- When a statement runs out of branches, every branch was disabled before or has
failed its pattern. -/
theorem poll_allDisabled (hkeep : Keeps branches P) (hs : P disabled s)
    (h : poll branches start disabled s = (.allDisabled, t)) (i : Fin n) :
    i ∈ disabled ∨ Refutable branches P i := by
  have hc := pollBranches_explained hkeep ((List.finRange n).rotate start) disabled false s hs
  rw [← poll, h] at hc
  exact hc.2 i (List.mem_rotate.mpr (List.mem_finRange i))

end

end Braidpool.Runtime.Select
