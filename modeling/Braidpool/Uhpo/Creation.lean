import Braidpool.Uhpo.Signing
import Mathlib.Data.List.Dedup

/-! When `PayoutUpdate::new` returns, and which outputs the update it returns spends. -/
namespace Braidpool.Uhpo
open Braidpool.Runtime

def spentTotal (prevUpdateTx : Option Transaction) (coinbaseTx : Transaction) : Nat :=
  coinbaseTx.firstValue + prevUpdateTx.elim 0 Transaction.firstValue

/-- The outputs are there, their sum is an amount, and it covers the fee. -/
structure Payable (prevUpdateTx : Option Transaction) (coinbaseTx : Transaction) (projectedFee : Amount) : Prop where
  coinbase : coinbaseTx.output ≠ []
  prevUpdate : ∀ tx ∈ prevUpdateTx, tx.output ≠ []
  total : spentTotal prevUpdateTx coinbaseTx < 2 ^ 64
  fee : projectedFee.toSat.toNat ≤ spentTotal prevUpdateTx coinbaseTx

/-- The value of an output of one of the transactions, found by its outpoint. -/
def valueOf (bitcoin : RustBitcoin) (txs : List Transaction) (outPoint : OutPoint) : Nat :=
  ((txs.find? (bitcoin.computeTxid · = outPoint.txid)).bind (·.output[outPoint.vout.toNat]?)).elim 0
    (·.value.toSat.toNat)

namespace PayoutUpdate
variable {bitcoin : RustBitcoin} {prevUpdateTx : Option Transaction} {coinbaseTx : Transaction}
  {nextOutAddress : bitcoin.Address} {projectedFee : Amount}

private theorem output_ne_nil {tx : Transaction} {txout : TxOut} (h : tx.output[0]? = some txout) :
    tx.output ≠ [] := by
  intro hnil
  rw [hnil] at h
  cases h

theorem payable_of_new {result : Except FmtError PayoutUpdate}
    (h : new bitcoin prevUpdateTx coinbaseTx nextOutAddress projectedFee = .ok result) :
    Payable prevUpdateTx coinbaseTx projectedFee := by
  obtain ⟨coinbaseTxout, hindex, h⟩ := bind_eq_ok.mp h
  have hcoinbase := MayPanic.index_eq_ok.mp hindex
  obtain ⟨⟨⟨builder, prevUpdateTxout⟩, paired⟩, hspent, h⟩ := bind_eq_ok.mp h
  obtain ⟨totalAmount, htotal, h⟩ := bind_eq_ok.mp h
  obtain ⟨amount, hamount, h⟩ := bind_eq_ok.mp h
  have hfee := Amount.sub_eq_ok.mp hamount
  have hlt := totalAmount.toSat.toNat_lt
  have hsum : totalAmount.toSat.toNat = spentTotal prevUpdateTx coinbaseTx ∧ ∀ tx ∈ prevUpdateTx, tx.output ≠ [] := by
    cases prevUpdateTx with
    | none =>
      cases hspent
      cases htotal
      constructor
      · rw [spentTotal, Transaction.firstValue_eq hcoinbase]
        rfl
      · intro tx htx
        cases htx
    | some tx =>
      obtain ⟨txout, htxout, hspent⟩ := bind_eq_ok.mp hspent
      have hprev := MayPanic.index_eq_ok.mp htxout
      cases hspent
      constructor
      · rw [spentTotal, Transaction.firstValue_eq hcoinbase, Option.elim_some, Transaction.firstValue_eq hprev]
        exact Amount.add_eq_ok.mp htotal
      · rintro _ ⟨⟩
        exact output_ne_nil hprev
  refine ⟨output_ne_nil hcoinbase, hsum.2, ?_, ?_⟩
  · rw [← hsum.1]
    exact hlt
  · rw [← hsum.1]
    omega

/-- `new` gives the answer that its type promises, an update or an error, exactly
where it has an update to give: it panics instead of returning an error. -/
theorem new_answers :
    (∃ result, new bitcoin prevUpdateTx coinbaseTx nextOutAddress projectedFee = .ok result ∧
      (Payable prevUpdateTx coinbaseTx projectedFee → ∃ update, result = .ok update) ∧
      (¬ Payable prevUpdateTx coinbaseTx projectedFee → ∃ e, result = .error e)) ↔
    Payable prevUpdateTx coinbaseTx projectedFee := by
  constructor
  · rintro ⟨result, hnew, -⟩
    exact payable_of_new hnew
  · intro hpayable
    obtain ⟨update, hnew⟩ := exists_new nextOutAddress hpayable.coinbase hpayable.prevUpdate hpayable.total hpayable.fee
    refine ⟨.ok update, hnew, ?_, ?_⟩
    · intro _
      exact ⟨update, rfl⟩
    · intro hnot
      exact absurd hpayable hnot

section
open Digest

/-- A fee of 51 satoshi is not covered by a coinbase of 50. -/
theorem new_panics :
    ¬ ∀ (prevUpdateTx : Option Transaction) (coinbaseTx : Transaction) (nextOutAddress : ScriptBuf)
      (projectedFee : Amount), ∃ result,
      new Digest.bitcoin prevUpdateTx coinbaseTx nextOutAddress projectedFee = .ok result ∧
        (Payable prevUpdateTx coinbaseTx projectedFee → ∃ update, result = .ok update) ∧
        (¬ Payable prevUpdateTx coinbaseTx projectedFee → ∃ e, result = .error e) := by
  intro hall
  obtain ⟨result, hnew, -⟩ := hall none (payment 50) [0x51] ⟨51⟩
  have hfee := (payable_of_new hnew).fee
  revert hfee
  decide

end

private theorem Created.outpoints_nodup {update : PayoutUpdate}
    (h : Created bitcoin prevUpdateTx coinbaseTx nextOutAddress projectedFee update) :
    (update.build.input.map TxIn.previousOutput).Nodup ↔
      ∀ tx ∈ prevUpdateTx, bitcoin.computeTxid tx ≠ bitcoin.computeTxid coinbaseTx := by
  rw [h.outpoints (.refl update)]
  cases prevUpdateTx with
  | none => simp
  | some tx => simp [eq_comm]

private theorem valueOf_coinbase (bitcoin : RustBitcoin) (txs : List Transaction) (coinbaseTx : Transaction) :
    valueOf bitcoin (coinbaseTx :: txs) ⟨bitcoin.computeTxid coinbaseTx, 0⟩ = coinbaseTx.firstValue := by
  rw [valueOf, List.find?_cons_of_pos (by simp)]
  rfl

/-- Distinct outpoints are worth as much as the transactions' first outputs. -/
private theorem sum_valueOf
    (hdistinct : ∀ tx ∈ prevUpdateTx, bitcoin.computeTxid tx ≠ bitcoin.computeTxid coinbaseTx) :
    (((coinbaseTx :: prevUpdateTx.toList).map fun tx => ⟨bitcoin.computeTxid tx, 0⟩).map
      (valueOf bitcoin (coinbaseTx :: prevUpdateTx.toList))).sum = spentTotal prevUpdateTx coinbaseTx := by
  cases prevUpdateTx with
  | none => simp [valueOf_coinbase, spentTotal]
  | some tx =>
    have hne : bitcoin.computeTxid coinbaseTx ≠ bitcoin.computeTxid tx := (hdistinct tx rfl).symm
    have hskip : valueOf bitcoin [coinbaseTx, tx] ⟨bitcoin.computeTxid tx, 0⟩ = tx.firstValue := by
      rw [← valueOf_coinbase bitcoin [] tx, valueOf, List.find?_cons_of_neg (by simpa using hne)]
      rfl
    simp [valueOf_coinbase, hskip, spentTotal]

/-- `new` does not compare the two transactions: its inputs are distinct exactly when
their txids are, and only then does it spend every output once. -/
theorem new_distinct {update : PayoutUpdate}
    (hnew : new bitcoin prevUpdateTx coinbaseTx nextOutAddress projectedFee = .ok (.ok update)) :
    ((update.build.input.map TxIn.previousOutput).Nodup ↔
      ∀ tx ∈ prevUpdateTx, bitcoin.computeTxid tx ≠ bitcoin.computeTxid coinbaseTx) ∧
    ((∀ tx ∈ prevUpdateTx, bitcoin.computeTxid tx ≠ bitcoin.computeTxid coinbaseTx) →
      ∃ amount : Amount,
        update.build.output = [{ value := amount, scriptPubkey := bitcoin.scriptPubkey nextOutAddress }] ∧
        amount.toSat.toNat + projectedFee.toSat.toNat =
          ((update.build.input.map TxIn.previousOutput).dedup.map
            (valueOf bitcoin (coinbaseTx :: prevUpdateTx.toList))).sum) := by
  have hcreated := created_of_new hnew
  have hnodup := hcreated.outpoints_nodup
  refine ⟨hnodup, fun hdistinct => ?_⟩
  obtain ⟨amount, houtput, hamount⟩ := hcreated.output
  refine ⟨amount, houtput, ?_⟩
  rw [(hnodup.mpr hdistinct).dedup, hcreated.outpoints (.refl update), sum_valueOf hdistinct, hamount,
    hcreated.sum_prevouts, spentTotal]

section
open Digest

theorem new_distinct_payments : ∃ update,
    new Digest.bitcoin (some (payment 4990)) (payment 2500) ([0x51] : ScriptBuf) ⟨5⟩ = .ok (.ok update) ∧
      (update.build.input.map TxIn.previousOutput).Nodup := by
  obtain ⟨update, hnew⟩ : ∃ update,
      new Digest.bitcoin (some (payment 4990)) (payment 2500) ([0x51] : ScriptBuf) ⟨5⟩ = .ok (.ok update) :=
    exists_new _ (List.cons_ne_nil _ _) (by rintro tx ⟨⟩; exact List.cons_ne_nil _ _) (by decide) (by decide)
  refine ⟨update, hnew, (new_distinct hnew).1.mpr ?_⟩
  rintro tx ⟨⟩
  decide +kernel

/-- The same payment is taken as the coinbase and as the previous update. -/
theorem new_spends_twice :
    ¬ ∀ (prevUpdateTx : Option Transaction) (coinbaseTx : Transaction) (nextOutAddress : ScriptBuf)
      (projectedFee : Amount) (update : PayoutUpdate),
      new Digest.bitcoin prevUpdateTx coinbaseTx nextOutAddress projectedFee = .ok (.ok update) →
        (update.build.input.map TxIn.previousOutput).Nodup := by
  intro hall
  obtain ⟨update, hnew⟩ : ∃ update, new Digest.bitcoin (some (payment 50000000)) (payment 50000000)
      ([0x51] : ScriptBuf) ⟨1000⟩ = .ok (.ok update) :=
    exists_new _ (List.cons_ne_nil _ _) (by rintro tx ⟨⟩; exact List.cons_ne_nil _ _) (by decide) (by decide)
  have hnodup := hall _ _ _ _ update hnew
  rw [(created_of_new hnew).outpoints (.refl update)] at hnodup
  simp at hnodup

end

end PayoutUpdate

end Braidpool.Uhpo
