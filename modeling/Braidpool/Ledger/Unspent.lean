import Braidpool.Runtime.Machine
import Mathlib.Data.List.Nodup
import Mathlib.Data.List.Induction

/-! Ledgers of unspent coins, for transactions of any kind. -/
namespace Braidpool.Ledger
open Braidpool.Runtime

/-- The coins that can still be spent, each at its point. -/
abbrev Unspent (Point Coin : Type*) := Point → Option Coin

/-- What a ledger reads off a transaction: the points it spends, the coins it makes, and
what it asks of the coins that it spends. -/
structure Rules (Tx Point Coin : Type*) where
  spends : Tx → List Point
  makes : Tx → Point → Option Coin
  Accepts : Tx → List Coin → Prop

namespace Rules
variable {Tx Point Coin : Type*} (R : Rules Tx Point Coin)

/-- Distinct unspent coins are spent, and coins are made where none is. -/
structure Enters (ledger : Unspent Point Coin) (tx : Tx) : Prop where
  distinct : (R.spends tx).Nodup
  fresh : ∀ p, R.makes tx p ≠ none → ledger p = none
  coins : ∃ coins, (R.spends tx).map ledger = coins.map some ∧ R.Accepts tx coins

/-- What would be found at a point if nothing were spent. -/
def found (ledger : Unspent Point Coin) (txs : List Tx) (p : Point) : Option Coin :=
  (txs.findSome? (R.makes · p)).or (ledger p)

/-- No two of the transactions make a coin at one point. -/
def Apart (txs : List Tx) : Prop := txs.Pairwise fun tx other => ∀ p, R.makes tx p = none ∨ R.makes other p = none

section
variable [DecidableEq Point]

def enter (ledger : Unspent Point Coin) (tx : Tx) : Unspent Point Coin :=
  fun p => if p ∈ R.spends tx then none else (R.makes tx p).or (ledger p)

open Classical in
noncomputable def step (ledger : Unspent Point Coin) (tx : Tx) : Option (Unspent Point Coin) :=
  if R.Enters ledger tx then some (R.enter ledger tx) else none

end

variable {R} {ledger : Unspent Point Coin} {txs : List Tx} {tx : Tx} {p : Point}

theorem found_other (h : ∀ tx ∈ txs, R.makes tx p = none) : R.found ledger txs p = ledger p := by
  rw [found, List.findSome?_eq_none_iff.mpr h, Option.none_or]

theorem found_made {coin : Coin} (hapart : R.Apart txs) (htx : tx ∈ txs) (hcoin : R.makes tx p = some coin) :
    R.found ledger txs p = some coin := by
  induction txs with
  | nil => cases htx
  | cons first txs ih =>
    obtain ⟨hfirst, hapart⟩ := List.pairwise_cons.mp hapart
    rcases List.mem_cons.mp htx with rfl | htx
    · rw [found, List.findSome?_cons_of_isSome (by rw [hcoin]; rfl), hcoin, Option.some_or]
    · have hnone : R.makes first p = none := by
        refine (hfirst tx htx p).resolve_right ?_
        rw [hcoin]
        exact Option.some_ne_none coin
      rw [found, List.findSome?_cons_of_isNone (by rw [hnone]; rfl)]
      exact ih hapart htx

theorem found_ne_none (h : R.found ledger txs p ≠ none) : ledger p ≠ none ∨ ∃ tx ∈ txs, R.makes tx p ≠ none := by
  by_cases hmade : ∃ tx ∈ txs, R.makes tx p ≠ none
  · exact .inr hmade
  · rw [found_other fun tx htx => not_not.mp fun hne => hmade ⟨tx, htx, hne⟩] at h
    exact .inl h

/-- What is accepted as spent was there, or was made. -/
private theorem spent_found (hcoins : ∀ i tx, txs[i]? = some tx →
      ∃ coins, (R.spends tx).map (R.found ledger (txs.take i)) = coins.map some ∧ R.Accepts tx coins)
    (hp : p ∈ txs.flatMap R.spends) : ledger p ≠ none ∨ ∃ tx ∈ txs, R.makes tx p ≠ none := by
  obtain ⟨tx, htx, hspends⟩ := List.mem_flatMap.mp hp
  obtain ⟨i, hi⟩ := List.mem_iff_getElem?.mp htx
  obtain ⟨coins, hmap, -⟩ := hcoins i tx hi
  have hmem : R.found ledger (txs.take i) p ∈ coins.map some := hmap ▸ List.mem_map_of_mem hspends
  obtain ⟨coin, -, hcoin⟩ := List.mem_map.mp hmem
  rcases found_ne_none (hcoin ▸ Option.some_ne_none coin) with hthere | ⟨other, hother, hmade⟩
  · exact .inl hthere
  · exact .inr ⟨other, List.mem_of_mem_take hother, hmade⟩

theorem found_concat (hapart : R.Apart (txs ++ [tx])) :
    R.found ledger (txs ++ [tx]) p = (R.makes tx p).or (R.found ledger txs p) := by
  cases hmakes : R.makes tx p with
  | none => simp [found, List.findSome?_append, hmakes]
  | some coin => rw [found_made hapart (List.mem_append_right txs List.mem_cons_self) hmakes, Option.some_or]

theorem Enters.spent (h : R.Enters ledger tx) (hp : p ∈ R.spends tx) : ledger p ≠ none := by
  obtain ⟨coins, hmap, -⟩ := h.coins
  have hmem : ledger p ∈ coins.map some := hmap ▸ List.mem_map_of_mem hp
  obtain ⟨coin, -, hcoin⟩ := List.mem_map.mp hmem
  exact hcoin ▸ Option.some_ne_none coin

variable [DecidableEq Point]

theorem step_eq_some {next : Unspent Point Coin} :
    R.step ledger tx = some next ↔ R.Enters ledger tx ∧ R.enter ledger tx = next := by
  unfold step
  split
  · rename_i henters
    exact ⟨fun h => ⟨henters, Option.some.inj h⟩, fun h => congrArg some h.2⟩
  · rename_i hnot
    exact ⟨fun h => (by cases h), fun h => absurd h.1 hnot⟩

theorem enter_spent (hp : p ∈ R.spends tx) : R.enter ledger tx p = none := if_pos hp

theorem enter_none (hp : ledger p = none) (hmakes : R.makes tx p = none) : R.enter ledger tx p = none := by
  rw [enter, hp, hmakes, Option.none_or, ite_self]

section
variable {before : Unspent Point Coin}
  (hfound : ∀ p, before p = if p ∈ txs.flatMap R.spends then none else R.found ledger txs p)
include hfound

/-- After some transactions, the next is entered if it finds what it accepts. -/
private theorem enters_next (hdistinct : (R.spends tx).Nodup) (hdisjoint : ∀ p ∈ R.spends tx, p ∉ txs.flatMap R.spends)
    (hunmade : ∀ p, R.makes tx p ≠ none → R.found ledger txs p = none)
    (hcoins : ∃ coins, (R.spends tx).map (R.found ledger txs) = coins.map some ∧ R.Accepts tx coins) :
    R.Enters before tx := by
  refine ⟨hdistinct, fun p hne => ?_, ?_⟩
  · rw [hfound, hunmade p hne, ite_self]
  · obtain ⟨coins, hmap, haccepts⟩ := hcoins
    refine ⟨coins, ?_, haccepts⟩
    rw [← hmap]
    apply List.map_congr_left
    intro p hp
    rw [hfound, if_neg (hdisjoint p hp)]

/-- It takes what it spends and adds what it makes. -/
private theorem enter_next (hapart : R.Apart (txs ++ [tx]))
    (hunmade : ∀ p ∈ txs.flatMap R.spends, R.makes tx p = none) (p : Point) :
    R.enter before tx p = if p ∈ (txs ++ [tx]).flatMap R.spends then none else R.found ledger (txs ++ [tx]) p := by
  rw [found_concat hapart, enter, hfound, List.flatMap_append, List.flatMap_singleton]
  by_cases hp : p ∈ R.spends tx
  · rw [if_pos hp, if_pos (List.mem_append_right _ hp)]
  · rw [if_neg hp]
    by_cases hspent : p ∈ txs.flatMap R.spends
    · rw [if_pos hspent, if_pos (List.mem_append_left _ hspent), hunmade p hspent, Option.none_or]
    · rw [if_neg hspent, if_neg fun hin => (List.mem_append.mp hin).elim hspent hp]

end

/-- Transactions that spend no point twice and make their coins apart are entered in
order, if each accepts what it finds. The coins they made or found and did not spend remain. -/
theorem run_enters (hspends : (txs.flatMap R.spends).Nodup) (hapart : R.Apart txs)
    (hfresh : ∀ tx ∈ txs, ∀ p, R.makes tx p ≠ none → ledger p = none)
    (hcoins : ∀ i tx, txs[i]? = some tx →
      ∃ coins, (R.spends tx).map (R.found ledger (txs.take i)) = coins.map some ∧ R.Accepts tx coins) :
    ∃ last, Machine.run R.step ledger txs = some last ∧
      ∀ p, last p = if p ∈ txs.flatMap R.spends then none else R.found ledger txs p := by
  induction txs using List.reverseRecOn with
  | nil => exact ⟨ledger, rfl, fun p => (found_other fun tx htx => (by cases htx)).symm⟩
  | append_singleton txs tx ih =>
    rw [List.flatMap_append, List.flatMap_singleton, List.nodup_append'] at hspends
    obtain ⟨hbefore, hdistinct, hdisjoint⟩ := hspends
    obtain ⟨hapart', -, hothers⟩ := List.pairwise_append.mp hapart
    have hmem : tx ∈ txs ++ [tx] := List.mem_append_right txs List.mem_cons_self
    have hother (other : Tx) (hin : other ∈ txs) (p : Point) (hne : R.makes tx p ≠ none) : R.makes other p = none :=
      (hothers other hin tx List.mem_cons_self p).resolve_right hne
    have hcoins' : ∀ i other, txs[i]? = some other →
        ∃ coins, (R.spends other).map (R.found ledger (txs.take i)) = coins.map some ∧ R.Accepts other coins := by
      intro i other hget
      have hlt := (List.getElem?_eq_some_iff.mp hget).1
      have hcoins := hcoins i other (by rw [List.getElem?_append_left hlt, hget])
      rwa [List.take_append_of_le_length (Nat.le_of_lt hlt)] at hcoins
    obtain ⟨before, hrun, hfound⟩ := ih hbefore hapart' (fun other hin => hfresh other (List.mem_append_left _ hin)) hcoins'
    have henters : R.Enters before tx := by
      refine enters_next hfound hdistinct (fun p hp hspent => hdisjoint hspent hp) (fun p hne => ?_) ?_
      · rw [found_other fun other hin => hother other hin p hne]
        exact hfresh tx hmem p hne
      · have hlast := hcoins txs.length tx (by simp)
        rwa [List.take_left] at hlast
    refine ⟨R.enter before tx, Machine.run_concat.mpr ⟨before, hrun, step_eq_some.mpr ⟨henters, rfl⟩⟩, ?_⟩
    refine enter_next hfound hapart fun p hspent => ?_
    by_contra hne
    rcases spent_found hcoins' hspent with hthere | ⟨other, hin, hmade⟩
    · exact hthere (hfresh tx hmem p hne)
    · exact hmade (hother other hin p hne)

end Rules

end Braidpool.Ledger
