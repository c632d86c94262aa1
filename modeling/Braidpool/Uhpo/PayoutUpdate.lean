import Braidpool.Uhpo.Signature

/-! Payout updates: a transaction that spends the coinbase and the previous
update, and the signatures for its inputs. -/
namespace Braidpool.Uhpo
open Braidpool.Runtime

/-- A builder for constructing transactions. -/
structure TransactionBuilder where
  transaction : Transaction

namespace TransactionBuilder

def new : TransactionBuilder := ⟨{ version := 2, lockTime := 0, input := [], output := [] }⟩

def addInput (self : TransactionBuilder) (txid : Txid) (vout : UInt32) : TransactionBuilder :=
  { self with transaction := { self.transaction with
      input := self.transaction.input ++ [
        { previousOutput := { txid, vout }
          scriptSig := [] -- would remain empty since most transactions are p2tr
          sequence := 0xFFFFFFFF
          witness := [] }] } }

def addOutput (self : TransactionBuilder) (bitcoin : RustBitcoin) (address : bitcoin.Address) (amount : Amount) :
    TransactionBuilder :=
  { self with transaction := { self.transaction with
      output := self.transaction.output ++ [{ value := amount, scriptPubkey := bitcoin.scriptPubkey address }] } }

def build (self : TransactionBuilder) : Transaction := self.transaction

end TransactionBuilder

/-- `std::fmt::Error` -/
structure FmtError where

/-- The outputs that the inputs of an update spend, in the order of the inputs. -/
def prevouts (coinbaseTxout : TxOut) : Option TxOut → List TxOut
  | some prevUpdateTxout => [coinbaseTxout, prevUpdateTxout]
  | none => [coinbaseTxout]

/-- `PayoutUpdate` represents an update to an Eltoo style payout. It stores the
output that each of its inputs spends. -/
structure PayoutUpdate where
  transaction : Transaction
  coinbaseTxout : TxOut
  prevUpdateTxout : Option TxOut
  paired : transaction.input.length = (prevouts coinbaseTxout prevUpdateTxout).length

namespace PayoutUpdate

/-- Creates a new payout update from the previous update, if there is one, and
the coinbase. -/
def new (bitcoin : RustBitcoin) (prevUpdateTx : Option Transaction) (coinbaseTx : Transaction)
    (nextOutAddress : bitcoin.Address) (projectedFee : Amount) : MayPanic (Except FmtError PayoutUpdate) := do
  let coinbaseTxout ← MayPanic.index coinbaseTx.output 0
  let builder := TransactionBuilder.new.addInput (bitcoin.computeTxid coinbaseTx) 0
  let ⟨(builder, prevUpdateTxout), paired⟩ ← (match prevUpdateTx with
    | some tx => do
      let prevUpdateTxout ← MayPanic.index tx.output 0
      pure ⟨(builder.addInput (bitcoin.computeTxid tx) 0, some prevUpdateTxout), rfl⟩
    | none => pure ⟨(builder, none), rfl⟩ :
    MayPanic { spent : TransactionBuilder × Option TxOut //
      spent.1.transaction.input.length = (prevouts coinbaseTxout spent.2).length })
  let totalAmount ← prevUpdateTxout.elim (pure coinbaseTxout.value) fun txout => coinbaseTxout.value.add txout.value
  let amount ← totalAmount.sub projectedFee
  let transaction := (builder.addOutput bitcoin nextOutAddress amount).build
  pure (.ok { transaction, coinbaseTxout, prevUpdateTxout, paired })

/-- The update with the transaction that a call leaves. -/
def withTransaction {α : Type} (self : PayoutUpdate) (call : MayPanic (Transaction × α))
    (h : ∀ result, call = .ok result → result.1.stripped = self.transaction.stripped) :
    MayPanic (PayoutUpdate × α) :=
  match call, h with
  | .error e, _ => .error e
  | .ok (transaction, a), h =>
    have paired : transaction.input.length = (prevouts self.coinbaseTxout self.prevUpdateTxout).length := by
      have hstripped : transaction.stripped = self.transaction.stripped := h _ rfl
      rw [← self.paired, ← transaction.length_stripped, hstripped, Transaction.length_stripped]
    .ok ({ self with transaction, paired }, a)

theorem withTransaction_ok {α : Type} {self : PayoutUpdate} {call : MayPanic (Transaction × α)}
    (h : ∀ result, call = .ok result → result.1.stripped = self.transaction.stripped)
    {transaction : Transaction} {a : α} (hcall : call = .ok (transaction, a)) :
    ∃ paired, self.withTransaction call h = .ok ({ self with transaction, paired }, a) := by
  subst hcall
  exact ⟨_, rfl⟩

section
variable {bitcoin : RustBitcoin} {S E : Type} (K : Type) [Secp256k1Behavior bitcoin E]
  [KeypairBehavior bitcoin K E] [SecretKeyBehavior S K E]

/-- Adds a signature for the coinbase input. -/
def addCoinbaseSig (self : PayoutUpdate) (privateKey : S) (tweak : Option bitcoin.Scalar) (secp : E)
    (rng : bitcoin.ThreadRng) : MayPanic (PayoutUpdate × Except (UhpoError bitcoin) Unit) :=
  let prevouts := prevouts self.coinbaseTxout self.prevUpdateTxout
  self.withTransaction (addSignature K self.transaction 0 prevouts privateKey tweak secp rng)
      fun _ => addSignature_stripped

/-- Adds a signature for the previous update input. -/
def addPrevUpdateSig (self : PayoutUpdate) (privateKey : S) (tweak : Option bitcoin.Scalar) (secp : E)
    (rng : bitcoin.ThreadRng) : MayPanic (PayoutUpdate × Except (UhpoError bitcoin) Unit) :=
  match self.prevUpdateTxout with
  | none => .ok (self, .error .noPrevUpdateTxOut)
  | some prevUpdateTxout =>
    let prevouts := [self.coinbaseTxout, prevUpdateTxout]
    self.withTransaction (addSignature K self.transaction 1 prevouts privateKey tweak secp rng)
      fun _ => addSignature_stripped

end

def build (self : PayoutUpdate) : Transaction := self.transaction

/-- What `new` makes of its arguments. -/
structure Created (bitcoin : RustBitcoin) (prevUpdateTx : Option Transaction) (coinbaseTx : Transaction)
    (nextOutAddress : bitcoin.Address) (projectedFee : Amount) (update : PayoutUpdate) : Prop where
  coinbaseTxout : coinbaseTx.output[0]? = some update.coinbaseTxout
  prevUpdateTxout : prevUpdateTx.map (·.output[0]?) = update.prevUpdateTxout.map some
  input : update.transaction.input = (coinbaseTx :: prevUpdateTx.toList).map fun tx =>
    { previousOutput := { txid := bitcoin.computeTxid tx, vout := 0 }
      scriptSig := []
      sequence := 0xFFFFFFFF
      witness := [] }
  output : ∃ amount : Amount,
    update.transaction.output = [{ value := amount, scriptPubkey := bitcoin.scriptPubkey nextOutAddress }] ∧
      amount.toSat.toNat + projectedFee.toSat.toNat =
        ((prevouts update.coinbaseTxout update.prevUpdateTxout).map (·.value.toSat.toNat)).sum

/-- Whenever `new` returns, it returns an update. -/
theorem new_eq_ok {bitcoin : RustBitcoin} {prevUpdateTx : Option Transaction} {coinbaseTx : Transaction}
    {nextOutAddress : bitcoin.Address} {projectedFee : Amount} {result : Except FmtError PayoutUpdate}
    (h : new bitcoin prevUpdateTx coinbaseTx nextOutAddress projectedFee = .ok result) :
    ∃ update, result = .ok update ∧
      Created bitcoin prevUpdateTx coinbaseTx nextOutAddress projectedFee update := by
  obtain ⟨coinbaseTxout, hcoinbase, h⟩ := bind_eq_ok.mp h
  obtain ⟨⟨⟨builder, prevUpdateTxout⟩, paired⟩, hspent, h⟩ := bind_eq_ok.mp h
  obtain ⟨totalAmount, htotal, h⟩ := bind_eq_ok.mp h
  obtain ⟨amount, hamount, h⟩ := bind_eq_ok.mp h
  have hfee := Amount.sub_eq_ok.mp hamount
  refine ⟨_, (Except.ok.inj h).symm, ?_⟩
  cases prevUpdateTx with
  | none =>
    cases hspent
    cases htotal
    exact ⟨MayPanic.index_eq_ok.mp hcoinbase, rfl, rfl, amount, rfl, by simpa [prevouts] using hfee⟩
  | some tx =>
    obtain ⟨txout, htxout, hspent⟩ := bind_eq_ok.mp hspent
    cases hspent
    have hsum := Amount.add_eq_ok.mp htotal
    refine ⟨MayPanic.index_eq_ok.mp hcoinbase, congrArg some (MayPanic.index_eq_ok.mp htxout), rfl, amount, rfl, ?_⟩
    simp only [prevouts, List.map_cons, List.map_nil, List.sum_cons, List.sum_nil]
    omega

theorem created_of_new {bitcoin : RustBitcoin} {prevUpdateTx : Option Transaction} {coinbaseTx : Transaction}
    {nextOutAddress : bitcoin.Address} {projectedFee : Amount} {update : PayoutUpdate}
    (hnew : new bitcoin prevUpdateTx coinbaseTx nextOutAddress projectedFee = .ok (.ok update)) :
    Created bitcoin prevUpdateTx coinbaseTx nextOutAddress projectedFee update := by
  obtain ⟨_, hupdate, hcreated⟩ := new_eq_ok hnew
  obtain rfl := Except.ok.inj hupdate
  exact hcreated

/-- `new` returns when both transactions have an output 0, their sum does not
overflow, and the fee does not exceed it. -/
theorem new_returns {bitcoin : RustBitcoin} {prevUpdateTx : Option Transaction} {coinbaseTx : Transaction}
    (nextOutAddress : bitcoin.Address) {projectedFee : Amount} (hcoinbase : coinbaseTx.output ≠ [])
    (hprev : ∀ tx ∈ prevUpdateTx, tx.output ≠ [])
    (hsum : coinbaseTx.firstValue + prevUpdateTx.elim 0 Transaction.firstValue < 2 ^ 64)
    (hfee : projectedFee.toSat.toNat ≤ coinbaseTx.firstValue + prevUpdateTx.elim 0 Transaction.firstValue) :
    ∃ result, new bitcoin prevUpdateTx coinbaseTx nextOutAddress projectedFee = .ok result := by
  have hfirst {tx : Transaction} (h : tx.output ≠ []) : tx.output[0]? = some (tx.output.head h) := by
    rw [← List.head?_eq_getElem?, List.head?_eq_some_head h]
  have hindex := MayPanic.index_eq_ok.mpr (hfirst hcoinbase)
  rw [Transaction.firstValue_eq (hfirst hcoinbase)] at hsum hfee
  cases prevUpdateTx with
  | none =>
    obtain ⟨amount, hamount⟩ := Amount.sub_returns hfee
    exact ⟨_, bind_eq_ok.mpr ⟨_, hindex, bind_eq_ok.mpr ⟨_, rfl, bind_eq_ok.mpr ⟨_, rfl,
      bind_eq_ok.mpr ⟨amount, hamount, rfl⟩⟩⟩⟩⟩
  | some tx =>
    have hprev := hfirst (hprev tx rfl)
    rw [Option.elim_some, Transaction.firstValue_eq hprev] at hsum hfee
    obtain ⟨totalAmount, htotal⟩ := Amount.add_returns hsum
    rw [← Amount.add_eq_ok.mp htotal] at hfee
    obtain ⟨amount, hamount⟩ := Amount.sub_returns hfee
    exact ⟨_, bind_eq_ok.mpr ⟨_, hindex, bind_eq_ok.mpr ⟨_, bind_eq_ok.mpr ⟨_, MayPanic.index_eq_ok.mpr hprev, rfl⟩,
      bind_eq_ok.mpr ⟨totalAmount, htotal, bind_eq_ok.mpr ⟨amount, hamount, rfl⟩⟩⟩⟩⟩

/-- What `new` returns then is an update. -/
theorem exists_new {bitcoin : RustBitcoin} {prevUpdateTx : Option Transaction} {coinbaseTx : Transaction}
    (nextOutAddress : bitcoin.Address) {projectedFee : Amount} (hcoinbase : coinbaseTx.output ≠ [])
    (hprev : ∀ tx ∈ prevUpdateTx, tx.output ≠ [])
    (hsum : coinbaseTx.firstValue + prevUpdateTx.elim 0 Transaction.firstValue < 2 ^ 64)
    (hfee : projectedFee.toSat.toNat ≤ coinbaseTx.firstValue + prevUpdateTx.elim 0 Transaction.firstValue) :
    ∃ update, new bitcoin prevUpdateTx coinbaseTx nextOutAddress projectedFee = .ok (.ok update) := by
  obtain ⟨result, hnew⟩ := new_returns nextOutAddress hcoinbase hprev hsum hfee
  obtain ⟨update, rfl, -⟩ := new_eq_ok hnew
  exact ⟨update, hnew⟩

namespace Created
variable {bitcoin : RustBitcoin} {prevUpdateTx : Option Transaction} {coinbaseTx : Transaction}
  {nextOutAddress : bitcoin.Address} {projectedFee : Amount} {update : PayoutUpdate}

/-- An update stores an output of the previous one if there is one. -/
theorem prevUpdate_cases (h : Created bitcoin prevUpdateTx coinbaseTx nextOutAddress projectedFee update) :
    (prevUpdateTx = none ∧ update.prevUpdateTxout = none) ∨
      ∃ tx txout, prevUpdateTx = some tx ∧ update.prevUpdateTxout = some txout ∧ tx.output[0]? = some txout := by
  have hprev := h.prevUpdateTxout
  cases hstored : update.prevUpdateTxout with
  | none =>
    rw [hstored] at hprev
    exact .inl ⟨Option.map_eq_none_iff.mp hprev, rfl⟩
  | some txout =>
    rw [hstored] at hprev
    obtain ⟨tx, rfl, htx⟩ := Option.map_eq_some_iff.mp hprev
    exact .inr ⟨tx, txout, rfl, rfl, htx⟩

/-- The outputs stored in the update are the first outputs of what it spends. -/
theorem prevouts_eq (h : Created bitcoin prevUpdateTx coinbaseTx nextOutAddress projectedFee update) :
    (coinbaseTx :: prevUpdateTx.toList).map (·.output[0]?) =
      (prevouts update.coinbaseTxout update.prevUpdateTxout).map some := by
  rw [List.map_cons, h.coinbaseTxout]
  rcases h.prevUpdate_cases with ⟨rfl, hstored⟩ | ⟨tx, txout, rfl, hstored, htx⟩
  · rw [hstored]
    rfl
  · rw [hstored, Option.toList_some, List.map_singleton, htx]
    rfl

theorem sum_prevouts (h : Created bitcoin prevUpdateTx coinbaseTx nextOutAddress projectedFee update) :
    ((prevouts update.coinbaseTxout update.prevUpdateTxout).map (·.value.toSat.toNat)).sum =
      coinbaseTx.firstValue + prevUpdateTx.elim 0 Transaction.firstValue := by
  have hvalue : (fun txout : Option TxOut => txout.elim 0 (·.value.toSat.toNat)) ∘ some =
      fun txout : TxOut => txout.value.toSat.toNat := rfl
  have hsum := congrArg (fun txouts => (txouts.map fun txout => txout.elim 0 (·.value.toSat.toNat)).sum) h.prevouts_eq
  simp only [List.map_map, hvalue] at hsum
  rw [← hsum]
  cases prevUpdateTx <;> rfl

end Created

end PayoutUpdate

end Braidpool.Uhpo
