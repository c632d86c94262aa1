import Braidpool.Runtime.Panic
import Mathlib.Algebra.Ring.Nat
import Mathlib.Logic.Function.Basic

/-! The data types of rust-bitcoin. What the crate computes from a transaction,
and all of its cryptography, is a parameter. -/
namespace Braidpool.Uhpo
open Braidpool.Runtime

/-- An amount in satoshi, a `u64`. -/
structure Amount where
  toSat : UInt64
  deriving DecidableEq

namespace Amount

/-- `+` panics on overflow. -/
def add (a b : Amount) : MayPanic Amount :=
  if a.toSat.toNat + b.toSat.toNat < UInt64.size then .ok ⟨a.toSat + b.toSat⟩
  else .error ⟨"Amount addition error"⟩

/-- `-` panics on underflow. -/
def sub (a b : Amount) : MayPanic Amount :=
  if b.toSat ≤ a.toSat then .ok ⟨a.toSat - b.toSat⟩ else .error ⟨"Amount subtraction error"⟩

theorem ext_toNat {a b : Amount} (h : a.toSat.toNat = b.toSat.toNat) : a = b := by
  cases a
  cases b
  exact congrArg Amount.mk (UInt64.toNat_inj.mp h)

/-- An addition is exact or panics. -/
theorem add_eq_ok {a b c : Amount} :
    a.add b = .ok c ↔ c.toSat.toNat = a.toSat.toNat + b.toSat.toNat := by
  have hc := c.toSat.toNat_lt
  unfold add
  split
  · rename_i h
    have hsum : (a.toSat + b.toSat).toNat = a.toSat.toNat + b.toSat.toNat := by
      rw [UInt64.toNat_add, Nat.mod_eq_of_lt h]
    constructor
    · intro e
      cases e
      exact hsum
    · intro e
      rw [ext_toNat (a := ⟨a.toSat + b.toSat⟩) (b := c) (hsum.trans e.symm)]
  · rename_i h
    refine ⟨fun e => (by cases e), fun e => absurd ?_ h⟩
    rwa [← e]

/-- A subtraction is exact or panics. -/
theorem sub_eq_ok {a b c : Amount} :
    a.sub b = .ok c ↔ c.toSat.toNat + b.toSat.toNat = a.toSat.toNat := by
  unfold sub
  split
  · rename_i h
    have hdiff := UInt64.toNat_sub_of_le a.toSat b.toSat h
    have hle := UInt64.le_iff_toNat_le.mp h
    constructor
    · intro e
      cases e
      simp only
      omega
    · intro e
      rw [ext_toNat (a := ⟨a.toSat - b.toSat⟩) (b := c) (by simp only; omega)]
  · rename_i h
    refine ⟨fun e => (by cases e), fun e => absurd ?_ h⟩
    rw [UInt64.le_iff_toNat_le]
    omega

theorem add_returns {a b : Amount} (h : a.toSat.toNat + b.toSat.toNat < 2 ^ 64) : ∃ c, a.add b = .ok c :=
  ⟨_, if_pos h⟩

theorem sub_returns {a b : Amount} (h : b.toSat.toNat ≤ a.toSat.toNat) : ∃ c, a.sub b = .ok c :=
  ⟨_, if_pos (UInt64.le_iff_toNat_le.mpr h)⟩

end Amount

abbrev Txid := Vector UInt8 32

abbrev ScriptBuf := List UInt8

abbrev Witness := List (List UInt8)

structure OutPoint where
  txid : Txid
  vout : UInt32
  deriving DecidableEq

structure TxIn where
  previousOutput : OutPoint
  scriptSig : ScriptBuf
  sequence : UInt32
  witness : Witness
  deriving DecidableEq

structure TxOut where
  value : Amount
  scriptPubkey : ScriptBuf
  deriving DecidableEq

structure Transaction where
  version : Int32
  lockTime : UInt32
  input : List TxIn
  output : List TxOut
  deriving DecidableEq

inductive Prevouts where
  | one (index : Nat) (txout : TxOut)
  | all (txouts : List TxOut)

inductive TapSighashType where
  | default | all | none | single | allPlusAnyoneCanPay | nonePlusAnyoneCanPay | singlePlusAnyoneCanPay

abbrev TapSighash := Vector UInt8 32

abbrev Message := Vector UInt8 32

abbrev Signature := Vector UInt8 64

namespace TxIn

def stripped (txin : TxIn) : TxIn := { txin with witness := [] }

theorem ext_stripped {txin other : TxIn} (h : txin.stripped = other.stripped)
    (hw : txin.witness = other.witness) : txin = other :=
  calc
    txin = { txin.stripped with witness := txin.witness } := rfl
    _ = { other.stripped with witness := other.witness } := by rw [h, hw]
    _ = other := rfl

end TxIn

namespace Transaction

/-- The transaction without its witnesses. -/
def stripped (tx : Transaction) : Transaction := { tx with input := tx.input.map TxIn.stripped }

/-- The witness of each input, by its index. -/
def witnesses (tx : Transaction) (i : Nat) : Witness := (tx.input[i]?).elim [] TxIn.witness

/-- `transaction.input[input_idx].witness.push(element)` -/
def pushWitness (tx : Transaction) (inputIdx : Nat) (element : List UInt8) : MayPanic Transaction := do
  let txin ← MayPanic.index tx.input inputIdx
  pure { tx with input := tx.input.set inputIdx { txin with witness := txin.witness ++ [element] } }

def extendWitness (tx : Transaction) (i : Nat) (element : List UInt8) : Transaction :=
  { tx with input := tx.input.modify i fun txin => { txin with witness := txin.witness ++ [element] } }

theorem pushWitness_ok {tx : Transaction} {i : Nat} (h : i < tx.input.length) (element : List UInt8) :
    tx.pushWitness i element = .ok (tx.extendWitness i element) := by
  have hget : MayPanic.index tx.input i = .ok tx.input[i] :=
    MayPanic.index_eq_ok.mpr (List.getElem?_eq_getElem h)
  have hset : tx.input.modify i (fun txin => { txin with witness := txin.witness ++ [element] }) =
      tx.input.set i { tx.input[i] with witness := tx.input[i].witness ++ [element] } := by
    rw [List.modify_eq_take_cons_drop h, List.set_eq_take_append_cons_drop, if_pos h]
  rw [pushWitness, hget, extendWitness, hset]
  rfl

@[simp] theorem length_stripped (tx : Transaction) : tx.stripped.input.length = tx.input.length :=
  List.length_map ..

/-- What is pushed onto a witness is no part of the stripped transaction. -/
@[simp] theorem stripped_extendWitness (tx : Transaction) (i : Nat) (element : List UInt8) :
    (tx.extendWitness i element).stripped = tx.stripped := by
  have hinput : (tx.extendWitness i element).input.map TxIn.stripped = tx.input.map TxIn.stripped := by
    apply List.ext_getElem?
    intro j
    simp only [extendWitness, List.getElem?_map, List.getElem?_modify]
    cases tx.input[j]? with
    | none => rfl
    | some txin => split <;> rfl
  rw [stripped, hinput]
  rfl

theorem witnesses_extendWitness {tx : Transaction} {i : Nat} (h : i < tx.input.length) (element : List UInt8) :
    (tx.extendWitness i element).witnesses = Function.update tx.witnesses i (tx.witnesses i ++ [element]) := by
  funext j
  by_cases hj : j = i
  · subst hj
    simp [witnesses, extendWitness, List.getElem?_eq_getElem h]
  · rw [Function.update_of_ne hj]
    simp [witnesses, extendWitness, Ne.symm hj]

theorem previousOutput_stripped (tx : Transaction) :
    tx.stripped.input.map TxIn.previousOutput = tx.input.map TxIn.previousOutput := by
  rw [stripped, List.map_map]
  rfl

/-- The value of output 0. -/
def firstValue (tx : Transaction) : Nat := (tx.output[0]?).elim 0 (·.value.toSat.toNat)

theorem firstValue_eq {tx : Transaction} {txout : TxOut} (h : tx.output[0]? = some txout) :
    tx.firstValue = txout.value.toSat.toNat := by
  rw [firstValue, h, Option.elim_some]

/-- A transaction is determined by its stripped form and its witnesses. -/
theorem ext_stripped {tx ty : Transaction} (h : tx.stripped = ty.stripped)
    (hw : tx.witnesses = ty.witnesses) : tx = ty := by
  have hinput : tx.input = ty.input := by
    apply List.ext_getElem?
    intro i
    have hi := congrArg (·.input[i]?) h
    have hwi := congrFun hw i
    simp only [stripped, List.getElem?_map] at hi
    simp only [witnesses] at hwi
    cases hx : tx.input[i]? with
    | none => simpa [hx] using hi.symm
    | some txin =>
      rw [hx] at hi hwi
      obtain ⟨other, hy, hstripped⟩ := Option.map_eq_some_iff.mp hi.symm
      rw [hy] at hwi ⊢
      exact congrArg some (TxIn.ext_stripped hstripped.symm hwi)
  calc
    tx = { tx.stripped with input := tx.input } := rfl
    _ = { ty.stripped with input := ty.input } := by rw [h, hinput]
    _ = ty := rfl

end Transaction

/-- The secp256k1 crate that rust-bitcoin re-exports. -/
structure Secp256k1 where
  Error : Type
  Scalar : Type
  SecretKey : Type
  Keypair : Type
  XOnlyPublicKey : Type
  Context : Type
  ThreadRng : Type
  keypair : SecretKey → Context → Keypair
  addXonlyTweak : Keypair → Context → Scalar → Except Error Keypair
  xOnlyPublicKey : Keypair → XOnlyPublicKey × Bool
  signSchnorrWithRng : Context → Message → Keypair → ThreadRng → Signature
  verifySchnorr : Context → Signature → Message → XOnlyPublicKey → Except Error Unit

/-- What the code calls in rust-bitcoin on addresses and transactions. -/
structure RustBitcoin extends Secp256k1 where
  Address : Type
  TaprootError : Type
  scriptPubkey : Address → ScriptBuf
  computeTxid : Transaction → Txid
  taprootKeySpendSignatureHash : Transaction → Nat → Prevouts → TapSighashType → Except TaprootError TapSighash

namespace RustBitcoin

def TxidIgnoresWitness (bitcoin : RustBitcoin) : Prop :=
  ∀ tx, bitcoin.computeTxid tx.stripped = bitcoin.computeTxid tx

def SighashIgnoresWitness (bitcoin : RustBitcoin) : Prop :=
  ∀ tx idx prevouts ty, bitcoin.taprootKeySpendSignatureHash tx.stripped idx prevouts ty =
    bitcoin.taprootKeySpendSignatureHash tx idx prevouts ty

/-- The sighash of a whole transaction needs the output that each input spends, and no more. -/
def SighashChecksPrevouts (bitcoin : RustBitcoin) : Prop :=
  ∀ tx idx txouts, (∃ e, bitcoin.taprootKeySpendSignatureHash tx idx (.all txouts) .all = .error e) ↔
    txouts.length ≠ tx.input.length

variable {bitcoin : RustBitcoin} {tx ty : Transaction}

theorem TxidIgnoresWitness.congr (hb : bitcoin.TxidIgnoresWitness) (h : tx.stripped = ty.stripped) :
    bitcoin.computeTxid tx = bitcoin.computeTxid ty := by
  rw [← hb tx, h, hb ty]

theorem SighashIgnoresWitness.congr (hb : bitcoin.SighashIgnoresWitness) (h : tx.stripped = ty.stripped)
    (idx : Nat) (prevouts : Prevouts) (sighashType : TapSighashType) :
    bitcoin.taprootKeySpendSignatureHash tx idx prevouts sighashType =
      bitcoin.taprootKeySpendSignatureHash ty idx prevouts sighashType := by
  rw [← hb tx, h, hb ty]

end RustBitcoin

end Braidpool.Uhpo
