import Braidpool.Uhpo.Bitcoin
import Braidpool.Protocol.Codec

/-! A plain digest and a plain signature scheme. They stand in for rust-bitcoin and
secp256k1 where concrete crates are needed, and show that what is assumed of them
can be met. -/
namespace Braidpool.Uhpo.Digest
open Braidpool.Protocol.Codec (digits)

/-- The order of the secp256k1 group. -/
def order : Nat := 2 ^ 256 - 432420386565659656852420866394968145599

def digest (bytes : List UInt8) : Vector UInt8 32 :=
  let number := bytes.foldl (fun h b => (257 * h + b.toNat + 1) % 2 ^ 256) 0
  Vector.ofFn fun i => UInt8.ofNat (number / 256 ^ i.val)

def encodeScript (script : List UInt8) : List UInt8 := digits 8 script.length ++ script

def encodeOutPoint (outPoint : OutPoint) : List UInt8 := outPoint.txid.toList ++ digits 4 outPoint.vout.toNat

def encodeTxIn (txin : TxIn) : List UInt8 :=
  encodeOutPoint txin.previousOutput ++ encodeScript txin.scriptSig ++ digits 4 txin.sequence.toNat

def encodeTxOut (txout : TxOut) : List UInt8 :=
  digits 8 txout.value.toSat.toNat ++ encodeScript txout.scriptPubkey

def encode (tx : Transaction) : List UInt8 :=
  digits 4 tx.version.toUInt32.toNat ++ digits 8 tx.input.length ++ tx.input.flatMap encodeTxIn ++
    digits 8 tx.output.length ++ tx.output.flatMap encodeTxOut ++ digits 4 tx.lockTime.toNat

inductive TaprootError where
  | prevoutsSize | prevoutsKind

/-- Every input commits to all outputs that the transaction spends. -/
def sighash (tx : Transaction) (inputIdx : Nat) (prevouts : Prevouts) (sighashType : TapSighashType) :
    Except TaprootError TapSighash :=
  match prevouts with
  | .one _ _ => .error .prevoutsKind
  | .all txouts =>
    if txouts.length = tx.input.length then
      .ok (digest (digits 1 sighashType.ctorIdx ++ encode tx ++ txouts.flatMap encodeTxOut ++ digits 4 inputIdx))
    else .error .prevoutsSize

/-- A signature is a nonce and a digest of the nonce, the public key and the message. -/
def sign (message : Message) (keypair : Nat) (rng : Nat) : Signature :=
  let nonce := digest (digits 32 rng)
  nonce ++ digest (nonce.toList ++ digits 32 keypair ++ message.toList)

def verify (signature : Signature) (message : Message) (pubkey : Nat) : Except String Unit :=
  let nonce := signature.toList.take 32
  if signature.toList.drop 32 = (digest (nonce ++ digits 32 pubkey ++ message.toList)).toList then .ok ()
  else .error "malformed or invalid signature"

private theorem verify_sign (message : Message) (keypair rng : Nat) :
    verify (sign message keypair rng) message keypair = .ok () := by
  have htake : (sign message keypair rng).toList.take 32 = (digest (digits 32 rng)).toList := by
    rw [sign, Vector.toList_append, List.take_left' Vector.length_toList]
  have hdrop : (sign message keypair rng).toList.drop 32 =
      (digest ((digest (digits 32 rng)).toList ++ digits 32 keypair ++ message.toList)).toList := by
    rw [sign, Vector.toList_append, List.drop_left' Vector.length_toList]
  rw [verify, htake, hdrop]
  exact if_pos rfl

def bitcoin : RustBitcoin where
  Error := String
  Scalar := Nat
  SecretKey := Nat
  Keypair := Nat
  XOnlyPublicKey := Nat
  Context := Unit
  ThreadRng := Nat
  keypair secretKey _ := secretKey
  addXonlyTweak keypair _ tweak :=
    if (keypair + tweak) % order = 0 then .error "invalid tweak" else .ok ((keypair + tweak) % order)
  xOnlyPublicKey keypair := (keypair, false)
  signSchnorrWithRng _ := sign
  verifySchnorr _ := verify
  Address := ScriptBuf
  TaprootError := TaprootError
  scriptPubkey address := address
  computeTxid tx := digest (encode tx)
  taprootKeySpendSignatureHash := sighash

/-- The scheme verifies what it signs. -/
theorem verifySchnorr_sign (secp : bitcoin.Context) (message : Message) (keypair : bitcoin.Keypair)
    (rng : bitcoin.ThreadRng) :
    bitcoin.verifySchnorr secp (bitcoin.signSchnorrWithRng secp message keypair rng) message
      (bitcoin.xOnlyPublicKey keypair).1 = .ok () := by
  have hverify (signature : Signature) :
      bitcoin.verifySchnorr secp signature message (bitcoin.xOnlyPublicKey keypair).1 =
        verify signature message keypair := rfl
  rw [hverify]
  exact verify_sign message keypair rng

private theorem encode_stripped (tx : Transaction) : encode tx.stripped = encode tx := by
  have hinput : tx.stripped.input.flatMap encodeTxIn = tx.input.flatMap encodeTxIn := by
    rw [Transaction.stripped, List.flatMap_map]
    rfl
  rw [encode, hinput, tx.length_stripped]
  rfl

theorem txidIgnoresWitness : bitcoin.TxidIgnoresWitness :=
  fun tx => congrArg digest (encode_stripped tx)

theorem sighashIgnoresWitness : bitcoin.SighashIgnoresWitness := by
  intro tx idx prevouts sighashType
  change sighash tx.stripped idx prevouts sighashType = sighash tx idx prevouts sighashType
  cases prevouts with
  | one index txout => rfl
  | all txouts => rw [sighash, sighash, encode_stripped, tx.length_stripped]

theorem sighashChecksPrevouts : bitcoin.SighashChecksPrevouts := by
  intro tx idx txouts
  change (∃ e, sighash tx idx (.all txouts) .all = .error e) ↔ txouts.length ≠ tx.input.length
  by_cases hlength : txouts.length = tx.input.length
  · rw [sighash, if_pos hlength]
    constructor
    · rintro ⟨e, he⟩
      cases he
    · intro hne
      exact absurd hlength hne
  · rw [sighash, if_neg hlength]
    exact ⟨fun _ => hlength, fun _ => ⟨_, rfl⟩⟩

/-- A transaction without inputs that pays to a one-byte script. -/
def payment (sat : UInt64) : Transaction :=
  { version := 2, lockTime := 0, input := [], output := [{ value := ⟨sat⟩, scriptPubkey := [0x51] }] }

end Braidpool.Uhpo.Digest
