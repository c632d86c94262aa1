import Braidpool.Uhpo.Digest
import Braidpool.Uhpo.Signing
import Mathlib.Data.List.Forall2

/-! The witnesses of a payout update after any sequence of signing calls. -/
namespace Braidpool.Uhpo
open Braidpool.Runtime

variable {bitcoin : RustBitcoin}

/-- The key of a call: the keypair of its private key, with the tweak added if there is one. -/
structure SignCall.HasKey (call : SignCall bitcoin) (keypair : bitcoin.Keypair) : Prop where
  tweaked : ∀ tweak, call.tweak = some tweak →
    KeypairBehavior.addXonlyTweak (SecretKeyBehavior.keypair call.privateKey call.secp : call.K) call.secp tweak =
      .ok keypair
  untweaked : call.tweak = none →
    KeypairBehavior.toKeypair call.E (SecretKeyBehavior.keypair call.privateKey call.secp : call.K) = keypair

/-- The element is a signature of the transaction at the input, followed by the
byte of the sighash type, and the call's own context verifies it under the
public key of the call. -/
def SignCall.Signed (transaction : Transaction) (inputIdx : Nat) (spent : List TxOut) (call : SignCall bitcoin)
    (element : List UInt8) : Prop :=
  ∃ keypair message, call.HasKey keypair ∧
    bitcoin.taprootKeySpendSignatureHash transaction inputIdx (.all spent) .all = .ok message ∧
    ∃ signature : Signature,
      Secp256k1Behavior.verifySchnorr call.secp signature message (bitcoin.xOnlyPublicKey keypair).1 = .ok () ∧
      element = signature.toList ++ [0x01]

theorem SignCall.hasKey_of_tweakedKeypair {call : SignCall bitcoin} {keypair : bitcoin.Keypair}
    (h : tweakedKeypair call.K call.privateKey call.tweak call.secp = .ok keypair) : call.HasKey keypair := by
  unfold tweakedKeypair at h
  constructor
  · intro tweak htweak
    rw [htweak] at h
    exact mapError_eq_ok.mp h
  · intro htweak
    rw [htweak] at h
    exact Except.ok.inj h

theorem SignCall.signed_of_element {self : PayoutUpdate} {call : SignCall bitcoin} {element : List UInt8}
    (h : call.element self = .ok element) :
    call.Signed self.transaction call.inputIdx (prevouts self.coinbaseTxout self.prevUpdateTxout) element := by
  unfold SignCall.element at h
  split at h
  · cases h
  · obtain ⟨keypair, message, hkeypair, hmessage, signature, -, hverify, helement⟩ := vecSig_eq_ok.mp h
    exact ⟨keypair, message, hasKey_of_tweakedKeypair hkeypair, hmessage, signature, hverify, helement⟩

private theorem forall₂_filterMap {α β : Type*} {R : α → β → Prop} (f : α → Option β) (l : List α)
    (h : ∀ a ∈ l, ∀ b, f a = some b → R a b) : List.Forall₂ R (l.filter fun a => (f a).isSome) (l.filterMap f) := by
  induction l with
  | nil => exact .nil
  | cons a l ih =>
    have hrest := ih fun b hb => h b (List.mem_cons_of_mem a hb)
    cases hf : f a with
    | none => rwa [List.filterMap_cons_none hf, List.filter_cons_of_neg (by simp [hf])]
    | some b =>
      rw [List.filterMap_cons_some hf, List.filter_cons_of_pos (by simp [hf])]
      exact .cons (h a List.mem_cons_self b hf) hrest

namespace PayoutUpdate
variable {prevUpdateTx : Option Transaction} {coinbaseTx : Transaction} {nextOutAddress : bitcoin.Address}
  {projectedFee : Amount} {update last : PayoutUpdate}

theorem Created.witnesses_eq (h : Created bitcoin prevUpdateTx coinbaseTx nextOutAddress projectedFee update)
    (i : Nat) : update.transaction.witnesses i = [] := by
  rw [Transaction.witnesses, h.input, List.getElem?_map]
  cases (coinbaseTx :: prevUpdateTx.toList)[i]? <;> rfl

/-- The witness of an input holds, in order, what the successful calls for it pushed. -/
theorem Created.signAll_witnesses (hb : bitcoin.SighashIgnoresWitness)
    (h : Created bitcoin prevUpdateTx coinbaseTx nextOutAddress projectedFee update)
    {calls : List (SignCall bitcoin)} (hlast : update.signAll calls = .ok last) (i : Nat) :
    last.transaction.witnesses i =
      (calls.filter (·.inputIdx = i)).filterMap fun call => (call.element update).toOption := by
  rw [PayoutUpdate.signAll_witnesses hb hlast, Log.foldl_append, h.witnesses_eq, List.nil_append,
    List.filterMap_eq_flatMap_toList]
  rfl

/-- Calls on different inputs commute. -/
theorem signAll_congr (hb : bitcoin.SighashIgnoresWitness) (update : PayoutUpdate)
    {calls others : List (SignCall bitcoin)}
    (h : ∀ i, calls.filter (·.inputIdx = i) = others.filter (·.inputIdx = i)) :
    (update.signAll calls).map build = (update.signAll others).map build := by
  obtain ⟨last, hlast, hsame⟩ := update.signAll_eq calls
  obtain ⟨other, hother, hsame'⟩ := update.signAll_eq others
  have hwitnesses : last.transaction.witnesses = other.transaction.witnesses := by
    rw [PayoutUpdate.signAll_witnesses hb hlast, PayoutUpdate.signAll_witnesses hb hother]
    exact Log.foldl_append_congr _ _ h _
  have htransaction := Transaction.ext_stripped (hsame.transaction.trans hsame'.transaction.symm) hwitnesses
  rw [hlast, hother]
  exact congrArg Except.ok htransaction

/-- Every witness of the built transaction holds one signature for each call for its input
that succeeded, in their order. All of them still verify against the final transaction and
the outputs that it spends, and calls on different inputs commute. -/
theorem signAll_verified (hb : bitcoin.SighashIgnoresWitness)
    (hnew : new bitcoin prevUpdateTx coinbaseTx nextOutAddress projectedFee = .ok (.ok update)) :
    (∀ calls : List (SignCall bitcoin), ∃ last, update.signAll calls = .ok last ∧ ∃ spent : List TxOut,
      last.build.input.map TxIn.previousOutput =
        (coinbaseTx :: prevUpdateTx.toList).map (fun tx => ⟨bitcoin.computeTxid tx, 0⟩) ∧
      (coinbaseTx :: prevUpdateTx.toList).map (·.output[0]?) = spent.map some ∧
      (update.succeeded calls).Sublist calls ∧
      ∀ i txin, last.build.input[i]? = some txin →
        List.Forall₂ (SignCall.Signed last.build i spent) ((update.succeeded calls).filter (·.inputIdx = i))
          txin.witness) ∧
    ∀ calls others : List (SignCall bitcoin),
      (∀ i, calls.filter (·.inputIdx = i) = others.filter (·.inputIdx = i)) →
        (update.signAll calls).map build = (update.signAll others).map build := by
  have hcreated := created_of_new hnew
  refine ⟨fun calls => ?_, fun calls others => update.signAll_congr hb⟩
  obtain ⟨last, hlast, hsame⟩ := update.signAll_eq calls
  refine ⟨last, hlast, _, hcreated.outpoints hsame, hcreated.prevouts_eq, ?_, fun i txin htxin => ?_⟩
  · rw [succeeded_eq hb]
    exact List.filter_sublist
  · have hwitness : txin.witness = last.transaction.witnesses i := by
      rw [Transaction.witnesses, ← build, htxin]
      rfl
    rw [hwitness, hcreated.signAll_witnesses hb hlast, succeeded_eq hb, List.filter_comm]
    refine forall₂_filterMap _ _ fun call hcall element helement => ?_
    obtain rfl := of_decide_eq_true (List.mem_filter.mp hcall).2
    have hlastElement : call.element last = .ok element := by
      rw [hsame.element_eq hb]
      exact toOption_eq_some.mp helement
    have hsigned := SignCall.signed_of_element hlastElement
    rwa [hsame.coinbaseTxout, hsame.prevUpdateTxout] at hsigned

section
open Digest

theorem signAll_verified_bothInputs : ∃ update,
    new Digest.bitcoin (some (payment 4990)) (payment 2500) ([0x51, 0x20] : ScriptBuf) ⟨5⟩ = .ok (.ok update) ∧
      (update.signAll [signCall .addCoinbaseSig 11 none, signCall .addPrevUpdateSig 12 (some 5)]).map build =
        (update.signAll [signCall .addPrevUpdateSig 12 (some 5), signCall .addCoinbaseSig 11 none]).map build ∧
      ∃ last, update.signAll [signCall .addCoinbaseSig 11 none, signCall .addPrevUpdateSig 12 (some 5)] = .ok last ∧
        ∃ spent, ∀ txin, last.build.input[1]? = some txin →
          List.Forall₂ (SignCall.Signed last.build 1 spent)
            ((update.succeeded [signCall .addCoinbaseSig 11 none, signCall .addPrevUpdateSig 12 (some 5)]).filter
              (·.inputIdx = 1)) txin.witness := by
  obtain ⟨update, hnew⟩ : ∃ update,
      new Digest.bitcoin (some (payment 4990)) (payment 2500) ([0x51, 0x20] : ScriptBuf) ⟨5⟩ = .ok (.ok update) :=
    exists_new _ (List.cons_ne_nil _ _) (by rintro tx ⟨⟩; exact List.cons_ne_nil _ _) (by decide) (by decide)
  refine ⟨update, hnew, ?_⟩
  obtain ⟨hverified, hcommute⟩ := signAll_verified sighashIgnoresWitness hnew
  refine ⟨hcommute _ _ fun i => ?_, ?_⟩
  · match i with
    | 0 => rfl
    | 1 => rfl
    | _ + 2 => rfl
  · obtain ⟨last, hlast, spent, -, -, -, hsigned⟩ :=
      hverified [signCall .addCoinbaseSig 11 none, signCall .addPrevUpdateSig 12 (some 5)]
    exact ⟨last, hlast, spent, fun txin htxin => hsigned 1 txin htxin⟩

end

end PayoutUpdate

end Braidpool.Uhpo
