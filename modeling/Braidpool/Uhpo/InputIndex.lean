import Braidpool.Uhpo.Digest
import Braidpool.Uhpo.Signature

/-! Which input indices `add_signature` answers. It looks the index up last, when the
signature is there to be pushed. -/
namespace Braidpool.Uhpo
open Braidpool.Runtime

section
variable {bitcoin : RustBitcoin} {S E : Type} (K : Type) [Secp256k1Behavior bitcoin E]
  [KeypairBehavior bitcoin K E] [SecretKeyBehavior S K E]

/-- The tweak is accepted, and a signature of the sighash verifies. -/
def KeyVerifies (transaction : Transaction) (inputIdx : Nat) (prevouts : List TxOut) (privateKey : S)
    (tweak : Option bitcoin.Scalar) (secp : E) (rng : bitcoin.ThreadRng) : Prop :=
  ∃ keypair, tweakedKeypair K privateKey tweak secp = .ok keypair ∧
    ∀ message, bitcoin.taprootKeySpendSignatureHash transaction inputIdx (.all prevouts) .all = .ok message →
      Secp256k1Behavior.verifySchnorr secp (Secp256k1Behavior.signSchnorrWithRng secp message keypair rng) message
        (bitcoin.xOnlyPublicKey keypair).1 = .ok ()

variable {K} {transaction : Transaction} {inputIdx : Nat} {prevouts : List TxOut} {privateKey : S}
  {tweak : Option bitcoin.Scalar} {secp : E} {rng : bitcoin.ThreadRng}

/-- Whether there is an element to push does not depend on the index being one of an input. -/
theorem exists_vecSig (hb : bitcoin.SighashChecksPrevouts) :
    (∃ element, vecSig K transaction inputIdx prevouts privateKey tweak secp rng = .ok element) ↔
      prevouts.length = transaction.input.length ∧
        KeyVerifies K transaction inputIdx prevouts privateKey tweak secp rng := by
  constructor
  · rintro ⟨element, helement⟩
    obtain ⟨keypair, message, hkeypair, hmessage, _, rfl, hverify, -⟩ := vecSig_eq_ok.mp helement
    constructor
    · by_contra hlength
      obtain ⟨e, he⟩ := (hb transaction inputIdx prevouts).mpr hlength
      rw [hmessage] at he
      cases he
    · refine ⟨keypair, hkeypair, fun message' hmessage' => ?_⟩
      obtain rfl := Except.ok.inj (hmessage.symm.trans hmessage')
      exact hverify
  · rintro ⟨hlength, keypair, hkeypair, hverify⟩
    cases hmessage : bitcoin.taprootKeySpendSignatureHash transaction inputIdx (.all prevouts) .all with
    | error e => exact absurd hlength ((hb transaction inputIdx prevouts).mp ⟨e, hmessage⟩)
    | ok message =>
      exact ⟨_, vecSig_eq_ok.mpr ⟨keypair, message, hkeypair, hmessage, _, rfl, hverify message hmessage, rfl⟩⟩

theorem addSignature_panics {element : List UInt8}
    (helement : vecSig K transaction inputIdx prevouts privateKey tweak secp rng = .ok element)
    (hidx : transaction.input.length ≤ inputIdx) :
    ∃ p, addSignature K transaction inputIdx prevouts privateKey tweak secp rng = .error p := by
  have hindex : MayPanic.index transaction.input inputIdx = .error ⟨"index out of bounds"⟩ := by
    rw [MayPanic.index, List.getElem?_eq_none hidx]
  refine ⟨⟨"index out of bounds"⟩, ?_⟩
  rw [addSignature, helement]
  apply bind_eq_error.mpr
  apply Or.inl
  rw [Transaction.pushWitness, hindex]
  rfl

/-- A call returns, leaves the transaction alone when it fails, and refuses what is not
an input, exactly if the index is one of an input or there is nothing to push. -/
theorem addSignature_answers (hb : bitcoin.SighashChecksPrevouts) :
    (∃ next result, addSignature K transaction inputIdx prevouts privateKey tweak secp rng = .ok (next, result) ∧
      (∀ e, result = .error e → next = transaction) ∧
      (transaction.input.length ≤ inputIdx → ∃ e, result = .error e)) ↔
    inputIdx < transaction.input.length ∨ prevouts.length ≠ transaction.input.length ∨
      ¬ KeyVerifies K transaction inputIdx prevouts privateKey tweak secp rng := by
  cases helement : vecSig K transaction inputIdx prevouts privateKey tweak secp rng with
  | error e =>
    have hnone : ¬ (prevouts.length = transaction.input.length ∧
        KeyVerifies K transaction inputIdx prevouts privateKey tweak secp rng) := by
      intro hverifies
      obtain ⟨element, hok⟩ := (exists_vecSig hb).mpr hverifies
      rw [helement] at hok
      cases hok
    constructor
    · intro _
      exact .inr (not_and_or.mp hnone)
    · intro _
      refine ⟨transaction, .error e, ?_, fun _ _ => rfl, fun _ => ⟨e, rfl⟩⟩
      rw [addSignature, helement]
  | ok element =>
    obtain ⟨hlength, hverifies⟩ := (exists_vecSig hb).mp ⟨element, helement⟩
    constructor
    · rintro ⟨next, result, hreturn, -⟩
      apply Or.inl
      by_contra hidx
      obtain ⟨p, hpanic⟩ := addSignature_panics helement (Nat.le_of_not_lt hidx)
      rw [hreturn] at hpanic
      cases hpanic
    · rintro (hidx | hne | hnot)
      · refine ⟨transaction.extendWitness inputIdx element, .ok (), ?_, fun e he => (by cases he), fun hle => ?_⟩
        · rw [addSignature_eq hidx, helement]
        · exact absurd hidx (Nat.not_lt.mpr hle)
      · exact absurd hlength hne
      · exact absurd hverifies hnot

end

section
open Digest

def Digest.secretKey : Digest.bitcoin.SecretKey := (7 : Nat)

def Digest.secp : Digest.bitcoin.Context := ()

def Digest.rng : Digest.bitcoin.ThreadRng := (7 : Nat)

/-- A transaction of one input that pays 50 satoshi. -/
def spending : Transaction :=
  { payment 50 with
    input := [{ previousOutput := ⟨Vector.replicate 32 0, 0⟩, scriptSig := [], sequence := 0, witness := [] }] }

/-- An index past the inputs is refused when the outputs that they spend are missing. -/
theorem addSignature_answers_withoutPrevouts : ∃ e,
    addSignature Digest.bitcoin.Keypair spending 1 [] secretKey none secp rng = .ok (spending, .error e) := by
  obtain ⟨next, result, hreturn, hunchanged, herror⟩ : ∃ next result,
      addSignature Digest.bitcoin.Keypair spending 1 [] secretKey none secp rng = .ok (next, result) ∧
        (∀ e, result = .error e → next = spending) ∧ (spending.input.length ≤ 1 → ∃ e, result = .error e) :=
    (addSignature_answers sighashChecksPrevouts).mpr (.inr (.inl (by decide)))
  obtain ⟨e, rfl⟩ := herror (by decide)
  obtain rfl := hunchanged e rfl
  exact ⟨e, hreturn⟩

/-- With the output for its one input, a signature for a second input has nowhere to go. -/
theorem addSignature_panics_secondInput :
    ¬ ∀ (transaction : Transaction) (inputIdx : Nat) (prevouts : List TxOut) (privateKey : Digest.bitcoin.SecretKey)
      (tweak : Option Digest.bitcoin.Scalar) (secp : Digest.bitcoin.Context) (rng : Digest.bitcoin.ThreadRng),
      ∃ next result,
        addSignature Digest.bitcoin.Keypair transaction inputIdx prevouts privateKey tweak secp rng = .ok (next, result) ∧
        (∀ e, result = .error e → next = transaction) ∧
        (transaction.input.length ≤ inputIdx → ∃ e, result = .error e) := by
  intro hall
  obtain ⟨next, result, hreturn, -⟩ := hall spending 1 [⟨⟨60⟩, [0x51]⟩] secretKey none secp rng
  have hverifies : KeyVerifies Digest.bitcoin.Keypair spending 1 [⟨⟨60⟩, [0x51]⟩] secretKey none secp rng :=
    ⟨secretKey, rfl, fun message _ => verifySchnorr_sign secp message secretKey rng⟩
  obtain ⟨element, helement⟩ := (exists_vecSig sighashChecksPrevouts).mpr ⟨rfl, hverifies⟩
  obtain ⟨p, hpanic⟩ := addSignature_panics helement (by decide)
  rw [hreturn] at hpanic
  cases hpanic

end

end Braidpool.Uhpo
