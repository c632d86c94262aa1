import Braidpool.Uhpo.Digest
import Braidpool.Uhpo.PayoutUpdate
import Braidpool.Runtime.Log

/-! Sequences of signing calls on one payout update. -/
namespace Braidpool.Uhpo
open Braidpool.Runtime

/-- The method called, which names the input signed. -/
inductive SignMethod where
  | addCoinbaseSig | addPrevUpdateSig
  deriving DecidableEq

def SignMethod.inputIdx : SignMethod → Nat
  | .addCoinbaseSig => 0
  | .addPrevUpdateSig => 1

/-- One call with its arguments: the traits it is instantiated with, and the
random numbers it draws. -/
structure SignCall (bitcoin : RustBitcoin) where
  {S K E : Type}
  [secp256k1Behavior : Secp256k1Behavior bitcoin E]
  [keypairBehavior : KeypairBehavior bitcoin K E]
  [secretKeyBehavior : SecretKeyBehavior S K E]
  method : SignMethod
  privateKey : S
  tweak : Option bitcoin.Scalar
  secp : E
  rng : bitcoin.ThreadRng

attribute [instance] SignCall.secp256k1Behavior SignCall.keypairBehavior SignCall.secretKeyBehavior

variable {bitcoin : RustBitcoin}

namespace SignCall

def inputIdx (call : SignCall bitcoin) : Nat := call.method.inputIdx

/-- The witness element that the call pushes on the update, or its error. -/
def element (call : SignCall bitcoin) (self : PayoutUpdate) : Except (UhpoError bitcoin) (List UInt8) :=
  match call.method, self.prevUpdateTxout with
  | .addPrevUpdateSig, none => .error .noPrevUpdateTxOut
  | _, _ => vecSig call.K self.transaction call.inputIdx (prevouts self.coinbaseTxout self.prevUpdateTxout)
      call.privateKey call.tweak call.secp call.rng

def pushed (self : PayoutUpdate) (call : SignCall bitcoin) : List (List UInt8) :=
  (call.element self).toOption.toList

end SignCall

namespace PayoutUpdate

def perform (self : PayoutUpdate) (call : SignCall bitcoin) :
    MayPanic (PayoutUpdate × Except (UhpoError bitcoin) Unit) :=
  match call.method with
  | .addCoinbaseSig => self.addCoinbaseSig call.K call.privateKey call.tweak call.secp call.rng
  | .addPrevUpdateSig => self.addPrevUpdateSig call.K call.privateKey call.tweak call.secp call.rng

/-- The calls are made in order, whatever they return. -/
def signAll (self : PayoutUpdate) : List (SignCall bitcoin) → MayPanic PayoutUpdate
  | [] => pure self
  | call :: calls => do
    let (next, _) ← self.perform call
    next.signAll calls

/-- The calls that return with success, in order. -/
def succeeded (self : PayoutUpdate) : List (SignCall bitcoin) → List (SignCall bitcoin)
  | [] => []
  | call :: calls =>
    match self.perform call with
    | .ok (next, .ok ()) => call :: next.succeeded calls
    | .ok (next, .error _) => next.succeeded calls
    | .error _ => []

/-- The updates differ in their witnesses only. -/
structure SameStripped (update next : PayoutUpdate) : Prop where
  transaction : next.transaction.stripped = update.transaction.stripped
  coinbaseTxout : next.coinbaseTxout = update.coinbaseTxout
  prevUpdateTxout : next.prevUpdateTxout = update.prevUpdateTxout

/-- What a call leaves: the stored outputs as they were, and on success one more
element in the witness of its input. -/
structure Performed (update : PayoutUpdate) (call : SignCall bitcoin) (next : PayoutUpdate) : Prop where
  transaction : match call.element update with
    | .error _ => next.transaction = update.transaction
    | .ok element => call.inputIdx < update.transaction.input.length ∧
        next.transaction = update.transaction.extendWitness call.inputIdx element
  coinbaseTxout : next.coinbaseTxout = update.coinbaseTxout
  prevUpdateTxout : next.prevUpdateTxout = update.prevUpdateTxout

private theorem performed_addSignature {self : PayoutUpdate} {call : SignCall bitcoin}
    (hidx : call.inputIdx < self.transaction.input.length)
    (helement : call.element self = vecSig call.K self.transaction call.inputIdx
      (prevouts self.coinbaseTxout self.prevUpdateTxout) call.privateKey call.tweak call.secp call.rng) :
    ∃ next, self.withTransaction (addSignature call.K self.transaction call.inputIdx
        (prevouts self.coinbaseTxout self.prevUpdateTxout) call.privateKey call.tweak call.secp call.rng)
          (fun _ => addSignature_stripped) = .ok (next, (call.element self).map fun _ => ()) ∧
      self.Performed call next := by
  have hreturn : addSignature call.K self.transaction call.inputIdx
      (prevouts self.coinbaseTxout self.prevUpdateTxout) call.privateKey call.tweak call.secp call.rng = .ok _ :=
    addSignature_eq hidx
  rw [← helement] at hreturn
  cases he : call.element self with
  | error e =>
    rw [he] at hreturn
    obtain ⟨paired, hnext⟩ := withTransaction_ok (fun _ => addSignature_stripped) hreturn
    exact ⟨_, hnext, by rw [he], rfl, rfl⟩
  | ok element =>
    rw [he] at hreturn
    obtain ⟨paired, hnext⟩ := withTransaction_ok (fun _ => addSignature_stripped) hreturn
    exact ⟨_, hnext, by rw [he]; exact ⟨hidx, rfl⟩, rfl, rfl⟩

/-- Every call returns: with its error, or with success. -/
theorem perform_eq (self : PayoutUpdate) (call : SignCall bitcoin) :
    ∃ next, self.perform call = .ok (next, (call.element self).map fun _ => ()) ∧ self.Performed call next := by
  obtain ⟨transaction, coinbaseTxout, prevUpdateTxout, paired⟩ := self
  obtain ⟨method, privateKey, tweak, secp, rng⟩ := call
  cases method with
  | addCoinbaseSig =>
    have hidx : 0 < transaction.input.length := by
      rw [paired]
      cases prevUpdateTxout <;> exact Nat.zero_lt_succ _
    exact performed_addSignature hidx rfl
  | addPrevUpdateSig =>
    cases prevUpdateTxout with
    | none => exact ⟨_, rfl, rfl, rfl, rfl⟩
    | some prevUpdateTxout =>
      have hidx : 1 < transaction.input.length := by
        rw [paired]
        exact Nat.one_lt_two
      exact performed_addSignature hidx rfl

namespace Performed
variable {self next : PayoutUpdate} {call : SignCall bitcoin}

theorem sameStripped (h : self.Performed call next) : self.SameStripped next := by
  refine ⟨?_, h.coinbaseTxout, h.prevUpdateTxout⟩
  have htransaction := h.transaction
  split at htransaction
  · rw [htransaction]
  · rw [htransaction.2, Transaction.stripped_extendWitness]

theorem witnesses (h : self.Performed call next) :
    next.transaction.witnesses =
      Log.append SignCall.inputIdx (SignCall.pushed self) self.transaction.witnesses call := by
  have htransaction := h.transaction
  split at htransaction
  · rename_i he
    rw [htransaction, Log.append, SignCall.pushed, he]
    simp [Except.toOption]
  · rename_i element he
    rw [htransaction.2, Transaction.witnesses_extendWitness htransaction.1, Log.append, SignCall.pushed, he]
    rfl

end Performed

namespace SameStripped

theorem refl (self : PayoutUpdate) : self.SameStripped self := ⟨rfl, rfl, rfl⟩

theorem trans {self next last : PayoutUpdate} (h : self.SameStripped next) (k : next.SameStripped last) :
    self.SameStripped last :=
  ⟨k.transaction.trans h.transaction, k.coinbaseTxout.trans h.coinbaseTxout,
    k.prevUpdateTxout.trans h.prevUpdateTxout⟩

/-- The signatures of earlier calls change nothing in what a call pushes. -/
theorem element_eq (hb : bitcoin.SighashIgnoresWitness) {self next : PayoutUpdate} (h : self.SameStripped next)
    (call : SignCall bitcoin) : call.element next = call.element self := by
  unfold SignCall.element
  rw [h.coinbaseTxout, h.prevUpdateTxout]
  split
  · rfl
  · exact vecSig_congr hb h.transaction

end SameStripped

/-- Every sequence of calls returns, and leaves everything but the witnesses. -/
theorem signAll_eq (self : PayoutUpdate) (calls : List (SignCall bitcoin)) :
    ∃ last, self.signAll calls = .ok last ∧ self.SameStripped last := by
  induction calls generalizing self with
  | nil => exact ⟨self, rfl, .refl self⟩
  | cons call calls ih =>
    obtain ⟨next, hperform, hnext⟩ := self.perform_eq call
    obtain ⟨last, hlast, hsame⟩ := ih next
    exact ⟨last, bind_eq_ok.mpr ⟨_, hperform, hlast⟩, hnext.sameStripped.trans hsame⟩

/-- Each call of a sequence appends what it would push on the update at the start. -/
theorem signAll_witnesses (hb : bitcoin.SighashIgnoresWitness) {self last : PayoutUpdate}
    {calls : List (SignCall bitcoin)} (h : self.signAll calls = .ok last) :
    last.transaction.witnesses =
      calls.foldl (Log.append SignCall.inputIdx (SignCall.pushed self)) self.transaction.witnesses := by
  induction calls generalizing self with
  | nil =>
    cases h
    rfl
  | cons call calls ih =>
    obtain ⟨next, hperform, hnext⟩ := self.perform_eq call
    obtain ⟨result, hresult, hlast⟩ := bind_eq_ok.mp h
    obtain rfl := Except.ok.inj (hperform.symm.trans hresult)
    have hpushed : (SignCall.pushed next : SignCall bitcoin → _) = SignCall.pushed self := by
      funext call
      rw [SignCall.pushed, SignCall.pushed, hnext.sameStripped.element_eq hb]
    rw [ih hlast, hpushed, List.foldl_cons, hnext.witnesses]

/-- The calls that succeed are those that push an element. -/
theorem succeeded_eq (hb : bitcoin.SighashIgnoresWitness) (self : PayoutUpdate) (calls : List (SignCall bitcoin)) :
    self.succeeded calls = calls.filter fun call => (call.element self).toOption.isSome := by
  induction calls generalizing self with
  | nil => rfl
  | cons call calls ih =>
    obtain ⟨next, hperform, hnext⟩ := self.perform_eq call
    have hrest : next.succeeded calls = calls.filter fun call => (call.element self).toOption.isSome := by
      rw [ih next]
      apply List.filter_congr
      intro call _
      rw [hnext.sameStripped.element_eq hb]
    cases he : call.element self with
    | error e =>
      rw [he] at hperform
      rw [succeeded, hperform, List.filter_cons_of_neg (by simp [he, Except.toOption])]
      exact hrest
    | ok element =>
      rw [he] at hperform
      rw [succeeded, hperform, List.filter_cons_of_pos (by simp [he, Except.toOption])]
      exact congrArg (call :: ·) hrest

/-- Signing changes nothing in what the inputs spend. -/
theorem Created.outpoints {prevUpdateTx : Option Transaction} {coinbaseTx : Transaction}
    {nextOutAddress : bitcoin.Address} {projectedFee : Amount} {update last : PayoutUpdate}
    (h : Created bitcoin prevUpdateTx coinbaseTx nextOutAddress projectedFee update)
    (hsame : update.SameStripped last) :
    last.build.input.map TxIn.previousOutput =
      (coinbaseTx :: prevUpdateTx.toList).map fun tx => ⟨bitcoin.computeTxid tx, 0⟩ := by
  have hinput := congrArg (·.input.map TxIn.previousOutput) hsame.transaction
  simp only [Transaction.previousOutput_stripped, h.input] at hinput
  rw [build, hinput, List.map_map]
  rfl

end PayoutUpdate

/-- A call with the plain scheme. -/
def Digest.signCall (method : SignMethod) (secretKey : Nat) (tweak : Option Nat) : SignCall Digest.bitcoin where
  S := Digest.bitcoin.SecretKey
  K := Digest.bitcoin.Keypair
  E := Digest.bitcoin.Context
  method := method
  privateKey := secretKey
  tweak := tweak
  secp := ()
  rng := (7 : Nat)

end Braidpool.Uhpo
