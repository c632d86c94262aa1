import Braidpool.Uhpo.Bitcoin

/-! Signing one input of a transaction, behind traits that stand between the code
and the secp256k1 crate. -/
namespace Braidpool.Uhpo
open Braidpool.Runtime

inductive UhpoError (bitcoin : RustBitcoin) where
  | keypairCreationError (e : bitcoin.Error)
  | signatureVerificationError (e : bitcoin.Error)
  | taprootError (e : bitcoin.TaprootError)
  | noPrevUpdateTxOut
  | other (message : String)

class Secp256k1Behavior (bitcoin : RustBitcoin) (E : Type) where
  signSchnorrWithRng : E → Message → bitcoin.Keypair → bitcoin.ThreadRng → Signature
  verifySchnorr : E → Signature → Message → bitcoin.XOnlyPublicKey → Except bitcoin.Error Unit

class KeypairBehavior (bitcoin : RustBitcoin) (K E : Type) where
  addXonlyTweak : K → E → bitcoin.Scalar → Except bitcoin.Error bitcoin.Keypair
  toKeypair : K → bitcoin.Keypair

class SecretKeyBehavior (S K E : Type) where
  keypair : S → E → K

instance (bitcoin : RustBitcoin) : SecretKeyBehavior bitcoin.SecretKey bitcoin.Keypair bitcoin.Context where
  keypair := bitcoin.keypair

instance (bitcoin : RustBitcoin) : KeypairBehavior bitcoin bitcoin.Keypair bitcoin.Context where
  addXonlyTweak := bitcoin.addXonlyTweak
  toKeypair keypair := keypair

instance (bitcoin : RustBitcoin) : Secp256k1Behavior bitcoin bitcoin.Context where
  signSchnorrWithRng := bitcoin.signSchnorrWithRng
  verifySchnorr := bitcoin.verifySchnorr

section
variable {bitcoin : RustBitcoin} {S E : Type} (K : Type) [Secp256k1Behavior bitcoin E]
  [KeypairBehavior bitcoin K E] [SecretKeyBehavior S K E]

/-- The keypair of the private key, with the tweak applied if one is provided. -/
def tweakedKeypair (privateKey : S) (tweak : Option bitcoin.Scalar) (secp : E) :
    Except (UhpoError bitcoin) bitcoin.Keypair :=
  let keypair : K := SecretKeyBehavior.keypair privateKey secp
  match tweak with
  | some tweak => (KeypairBehavior.addXonlyTweak keypair secp tweak).mapError .keypairCreationError
  | none => .ok (KeypairBehavior.toKeypair (E := E) keypair)

/-- The witness element that `addSignature` pushes: a verified signature and the
byte of the sighash type. -/
def vecSig (transaction : Transaction) (inputIdx : Nat) (prevouts : List TxOut) (privateKey : S)
    (tweak : Option bitcoin.Scalar) (secp : E) (rng : bitcoin.ThreadRng) :
    Except (UhpoError bitcoin) (List UInt8) := do
  let keypair ← tweakedKeypair K privateKey tweak secp
  let message ← (bitcoin.taprootKeySpendSignatureHash transaction inputIdx (.all prevouts) .all).mapError
    UhpoError.taprootError
  let signature := Secp256k1Behavior.signSchnorrWithRng secp message keypair rng
  (Secp256k1Behavior.verifySchnorr secp signature message (bitcoin.xOnlyPublicKey keypair).1).mapError
    UhpoError.signatureVerificationError
  pure (signature.toList ++ [0x01])

/-- Adds a signature to a transaction input, optionally applying a tweak to the
private key before signing. An error leaves the transaction as it was. -/
def addSignature (transaction : Transaction) (inputIdx : Nat) (prevouts : List TxOut) (privateKey : S)
    (tweak : Option bitcoin.Scalar) (secp : E) (rng : bitcoin.ThreadRng) :
    MayPanic (Transaction × Except (UhpoError bitcoin) Unit) :=
  match vecSig K transaction inputIdx prevouts privateKey tweak secp rng with
  | .error e => .ok (transaction, .error e)
  | .ok vecSig => do
    let transaction ← transaction.pushWitness inputIdx vecSig
    pure (transaction, .ok ())

variable {K} {transaction : Transaction} {inputIdx : Nat} {prevouts : List TxOut} {privateKey : S}
  {tweak : Option bitcoin.Scalar} {secp : E} {rng : bitcoin.ThreadRng}

/-- An element is pushed only after its signature verified against the sighash. -/
theorem vecSig_eq_ok {element : List UInt8} :
    vecSig K transaction inputIdx prevouts privateKey tweak secp rng = .ok element ↔
      ∃ keypair message, tweakedKeypair K privateKey tweak secp = .ok keypair ∧
        bitcoin.taprootKeySpendSignatureHash transaction inputIdx (.all prevouts) .all = .ok message ∧
        ∃ signature, signature = Secp256k1Behavior.signSchnorrWithRng secp message keypair rng ∧
          Secp256k1Behavior.verifySchnorr secp signature message (bitcoin.xOnlyPublicKey keypair).1 = .ok () ∧
          element = signature.toList ++ [0x01] := by
  simp only [vecSig, bind_eq_ok, mapError_eq_ok]
  constructor
  · rintro ⟨keypair, hkeypair, message, hmessage, ⟨⟩, hverify, helement⟩
    exact ⟨keypair, message, hkeypair, hmessage, _, rfl, hverify, (Except.ok.inj helement).symm⟩
  · rintro ⟨keypair, message, hkeypair, hmessage, _, rfl, hverify, rfl⟩
    exact ⟨keypair, hkeypair, message, hmessage, (), hverify, rfl⟩

/-- The element depends on the transaction through its sighash only. -/
theorem vecSig_congr (hb : bitcoin.SighashIgnoresWitness) {other : Transaction}
    (h : transaction.stripped = other.stripped) :
    vecSig K transaction inputIdx prevouts privateKey tweak secp rng =
      vecSig K other inputIdx prevouts privateKey tweak secp rng := by
  rw [vecSig, vecSig, hb.congr h]

/-- On an input of the transaction, a call returns and pushes at most one element. -/
theorem addSignature_eq (h : inputIdx < transaction.input.length) :
    addSignature K transaction inputIdx prevouts privateKey tweak secp rng =
      .ok (match vecSig K transaction inputIdx prevouts privateKey tweak secp rng with
        | .error e => (transaction, .error e)
        | .ok element => (transaction.extendWitness inputIdx element, .ok ())) := by
  unfold addSignature
  split
  · rfl
  · rename_i element _
    rw [Transaction.pushWitness_ok h element]
    rfl

/-- What a call leaves has the same stripped form. -/
theorem addSignature_stripped {result : Transaction × Except (UhpoError bitcoin) Unit}
    (h : addSignature K transaction inputIdx prevouts privateKey tweak secp rng = .ok result) :
    result.1.stripped = transaction.stripped := by
  unfold addSignature at h
  split at h
  · cases h
    rfl
  · rename_i element _
    obtain ⟨pushed, hpushed, hresult⟩ := bind_eq_ok.mp h
    obtain ⟨txin, htxin, -⟩ := bind_eq_ok.mp hpushed
    obtain ⟨hi, -⟩ := List.getElem?_eq_some_iff.mp (MayPanic.index_eq_ok.mp htxin)
    rw [Transaction.pushWitness_ok hi] at hpushed
    cases hpushed
    cases hresult
    exact transaction.stripped_extendWitness inputIdx element

end

end Braidpool.Uhpo
