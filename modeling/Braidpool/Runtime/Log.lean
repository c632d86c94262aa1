import Mathlib.Data.List.Perm.Basic
import Mathlib.Logic.Function.Basic

/-! Append-only logs at many sites, written by events that each name one site, and
interleavings of two sequences, as they grow at the end. -/
namespace Braidpool.Runtime.Log
variable {ι ε α : Type*} [DecidableEq ι] (site : ε → ι) (entries : ε → List α)

/-- The event writes its entries at the end of the log at its site. -/
def append (logs : ι → List α) (e : ε) : ι → List α :=
  Function.update logs (site e) (logs (site e) ++ entries e)

/-- The log at a site holds the entries of the events at that site, in order. -/
theorem foldl_append (logs : ι → List α) (es : List ε) (i : ι) :
    es.foldl (append site entries) logs i = logs i ++ (es.filter (site · = i)).flatMap entries := by
  induction es generalizing logs with
  | nil => simp
  | cons e es ih =>
    rw [List.foldl_cons, ih]
    by_cases h : site e = i
    · subst h
      simp [append]
    · simp [append, h, Function.update_of_ne (Ne.symm h)]

/-- Events at different sites commute. -/
theorem foldl_append_congr {es fs : List ε}
    (h : ∀ i, es.filter (site · = i) = fs.filter (site · = i)) (logs : ι → List α) :
    es.foldl (append site entries) logs = fs.foldl (append site entries) logs := by
  funext i
  rw [foldl_append, foldl_append, h]

end Braidpool.Runtime.Log

namespace Braidpool.Runtime

/-- `zs` is made of `xs` and `ys`, each in its own order. -/
inductive Interleave {α : Type*} : List α → List α → List α → Prop where
  | nil : Interleave [] [] []
  | left {x : α} {xs ys zs : List α} : Interleave xs ys zs → Interleave (x :: xs) ys (x :: zs)
  | right {y : α} {xs ys zs : List α} : Interleave xs ys zs → Interleave xs (y :: ys) (y :: zs)

namespace Interleave
variable {α : Type*} {xs ys zs : List α}

theorem concat_left (x : α) (h : Interleave xs ys zs) : Interleave (xs ++ [x]) ys (zs ++ [x]) := by
  induction h with
  | nil => exact .left .nil
  | left _ ih => exact .left ih
  | right _ ih => exact .right ih

theorem concat_right (y : α) (h : Interleave xs ys zs) : Interleave xs (ys ++ [y]) (zs ++ [y]) := by
  induction h with
  | nil => exact .right .nil
  | left _ ih => exact .left ih
  | right _ ih => exact .right ih

/-- Both sequences are used completely, and nothing else is. -/
theorem perm (h : Interleave xs ys zs) : zs.Perm (xs ++ ys) := by
  induction h with
  | nil => exact .nil
  | left _ ih => exact ih.cons _
  | right _ ih => exact (ih.cons _).trans List.perm_middle.symm

end Interleave

end Braidpool.Runtime
