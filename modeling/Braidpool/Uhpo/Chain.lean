import Braidpool.Uhpo.Digest
import Braidpool.Uhpo.Signing

/-! Chains of payout updates, each spending the one before it. -/
namespace Braidpool.Uhpo
open Braidpool.Runtime

/-- One update of a chain: the arguments of `new`, and the calls made on its result. -/
structure ChainLink (bitcoin : RustBitcoin) where
  coinbaseTx : Transaction
  nextOutAddress : bitcoin.Address
  projectedFee : Amount
  calls : List (SignCall bitcoin)

/-- An update as `new` returned it, and the transaction built after the calls. -/
structure Built where
  update : PayoutUpdate
  transaction : Transaction

variable {bitcoin : RustBitcoin}

def chain : Option Transaction → List (ChainLink bitcoin) → MayPanic (Except FmtError (List Built))
  | _, [] => pure (.ok [])
  | prevUpdateTx, link :: links => do
    match ← PayoutUpdate.new bitcoin prevUpdateTx link.coinbaseTx link.nextOutAddress link.projectedFee with
    | .error e => pure (.error e)
    | .ok update =>
      let last ← update.signAll link.calls
      match ← chain (some last.build) links with
      | .error e => pure (.error e)
      | .ok built => pure (.ok ({ update, transaction := last.build } :: built))

/-- No call of `new` along the chain panics. -/
def EveryNewReturns : Option Transaction → List (ChainLink bitcoin) → Prop
  | _, [] => True
  | prevUpdateTx, link :: links =>
    ∃ result, PayoutUpdate.new bitcoin prevUpdateTx link.coinbaseTx link.nextOutAddress link.projectedFee =
        .ok result ∧
      ∀ update last, result = .ok update → update.signAll link.calls = .ok last →
        EveryNewReturns (some last.build) links

/-- The transaction that the `i`-th update of the chain was given. -/
def before (prevUpdateTx : Option Transaction) (built : List Built) : Nat → Option Transaction
  | 0 => prevUpdateTx
  | i + 1 => (built[i]?).map Built.transaction

namespace ChainLink

def coinbaseValue (link : ChainLink bitcoin) : Nat := link.coinbaseTx.firstValue

def fee (link : ChainLink bitcoin) : Nat := link.projectedFee.toSat.toNat

end ChainLink

/-- What the `i`-th transaction of a chain pays and spends. -/
structure Conserved (prevUpdateTx : Option Transaction) (links : List (ChainLink bitcoin)) (built : List Built)
    (i : Nat) (link : ChainLink bitcoin) (b : Built) : Prop where
  coinbase : link.coinbaseTx.output ≠ []
  output : ∃ amount : Amount,
    b.transaction.output = [{ value := amount, scriptPubkey := bitcoin.scriptPubkey link.nextOutAddress }] ∧
      amount.toSat.toNat + ((links.take (i + 1)).map ChainLink.fee).sum =
        prevUpdateTx.elim 0 Transaction.firstValue + ((links.take (i + 1)).map ChainLink.coinbaseValue).sum
  input : b.transaction.input.map TxIn.previousOutput =
    (link.coinbaseTx :: (before prevUpdateTx built i).toList).map fun tx => ⟨bitcoin.computeTxid tx, 0⟩
  txid : bitcoin.computeTxid b.transaction = bitcoin.computeTxid b.update.transaction

namespace PayoutUpdate.Created
variable {prevUpdateTx : Option Transaction} {coinbaseTx : Transaction} {nextOutAddress : bitcoin.Address}
  {projectedFee : Amount} {update last : PayoutUpdate}

/-- The first transaction of a chain, after any signatures. -/
theorem conserved (hb : bitcoin.TxidIgnoresWitness) {link : ChainLink bitcoin} (links : List (ChainLink bitcoin))
    (built : List Built)
    (h : Created bitcoin prevUpdateTx link.coinbaseTx link.nextOutAddress link.projectedFee update)
    (hsame : update.SameStripped last) :
    Conserved prevUpdateTx (link :: links) built 0 link { update, transaction := last.build } := by
  obtain ⟨amount, houtput, hamount⟩ := h.output
  refine ⟨?_, ⟨amount, ?_, ?_⟩, ?_, hb.congr hsame.transaction⟩
  · intro hnil
    have hcoinbase := h.coinbaseTxout
    simp [hnil] at hcoinbase
  · exact (congrArg Transaction.output hsame.transaction).trans houtput
  · rw [h.sum_prevouts, Nat.add_comm link.coinbaseTx.firstValue] at hamount
    simpa [ChainLink.fee, ChainLink.coinbaseValue] using hamount
  · exact h.outpoints hsame

end PayoutUpdate.Created

/-- A chain that goes on from the first transaction carries its total. -/
private theorem Conserved.cons {prevUpdateTx : Option Transaction} {first link : ChainLink bitcoin}
    {links : List (ChainLink bitcoin)} {b c : Built} {built : List Built} {i : Nat}
    (hfirst : Conserved prevUpdateTx (first :: links) (b :: built) 0 first b)
    (h : Conserved (some b.transaction) links built i link c) :
    Conserved prevUpdateTx (first :: links) (b :: built) (i + 1) link c := by
  obtain ⟨carried, hcarried, hfees⟩ := hfirst.output
  obtain ⟨amount, houtput, hamount⟩ := h.output
  have hvalue : b.transaction.firstValue = carried.toSat.toNat := by
    rw [Transaction.firstValue, hcarried]
    rfl
  have hbefore : before (some b.transaction) built i = before prevUpdateTx (b :: built) (i + 1) := by
    cases i <;> rfl
  refine ⟨h.coinbase, ⟨amount, houtput, ?_⟩, hbefore ▸ h.input, h.txid⟩
  simp only [List.take_succ_cons, List.take_zero, List.map_cons, List.map_nil, List.sum_cons, List.sum_nil] at hfees ⊢
  rw [Option.elim_some, hvalue] at hamount
  omega

theorem chain_conserved (hb : bitcoin.TxidIgnoresWitness) {prevUpdateTx : Option Transaction}
    {links : List (ChainLink bitcoin)} (h : EveryNewReturns prevUpdateTx links) :
    ∃ built, chain prevUpdateTx links = .ok (.ok built) ∧ built.length = links.length ∧
      ∀ i link b, links[i]? = some link → built[i]? = some b → Conserved prevUpdateTx links built i link b := by
  induction links generalizing prevUpdateTx with
  | nil => exact ⟨[], rfl, rfl, fun i link b hlink => (by cases hlink)⟩
  | cons first links ih =>
    obtain ⟨result, hnew, hrest⟩ := h
    obtain ⟨update, rfl, hcreated⟩ := PayoutUpdate.new_eq_ok hnew
    obtain ⟨last, hlast, hsame⟩ := update.signAll_eq first.calls
    obtain ⟨built, hbuilt, hlength, hconserved⟩ := ih (hrest update last rfl hlast)
    refine ⟨{ update, transaction := last.build } :: built, ?_, congrArg (· + 1) hlength, ?_⟩
    · simp only [chain, hnew, hlast, hbuilt, bind, Except.bind]
      rfl
    · intro i link b hlink hget
      have hfirst := hcreated.conserved hb links ({ update, transaction := last.build } :: built) hsame
      cases i with
      | zero =>
        obtain rfl := Option.some.inj hlink
        obtain rfl := Option.some.inj hget
        exact hfirst
      | succ i => exact hfirst.cons (hconserved i link b hlink hget)

/-- A chain of updates conserves value: its last transaction pays all the coinbases
less all the fees, whatever was signed on the way, and each transaction spends its
coinbase and the transaction before it, under the txid it had before it was signed. -/
theorem chain_conserves (hb : bitcoin.TxidIgnoresWitness) {links : List (ChainLink bitcoin)}
    (h : EveryNewReturns none links) :
    ∃ built, chain none links = .ok (.ok built) ∧ built.length = links.length ∧
      ∀ i link b, links[i]? = some link → built[i]? = some b →
        link.coinbaseTx.output ≠ [] ∧
        (∃ amount : Amount,
          b.transaction.output = [{ value := amount, scriptPubkey := bitcoin.scriptPubkey link.nextOutAddress }] ∧
            amount.toSat.toNat + ((links.take (i + 1)).map ChainLink.fee).sum =
              ((links.take (i + 1)).map ChainLink.coinbaseValue).sum) ∧
        b.transaction.input.map TxIn.previousOutput =
          (link.coinbaseTx :: (before none built i).toList).map (fun tx => ⟨bitcoin.computeTxid tx, 0⟩) ∧
        bitcoin.computeTxid b.transaction = bitcoin.computeTxid b.update.transaction := by
  obtain ⟨built, hbuilt, hlength, hconserved⟩ := chain_conserved hb h
  refine ⟨built, hbuilt, hlength, fun i link b hlink hget => ?_⟩
  obtain ⟨hcoinbase, ⟨amount, houtput, hamount⟩, hinput, htxid⟩ := hconserved i link b hlink hget
  rw [Option.elim_none, Nat.zero_add] at hamount
  exact ⟨hcoinbase, ⟨amount, houtput, hamount⟩, hinput, htxid⟩

section
open Digest

private def firstUpdate : ChainLink Digest.bitcoin where
  coinbaseTx := payment 5000
  nextOutAddress := ([0x51, 0x20, 0x01] : ScriptBuf)
  projectedFee := ⟨10⟩
  calls := [signCall .addCoinbaseSig 11 none, signCall .addPrevUpdateSig 12 none]

private def secondUpdate : ChainLink Digest.bitcoin where
  coinbaseTx := payment 2500
  nextOutAddress := ([0x51, 0x20, 0x02] : ScriptBuf)
  projectedFee := ⟨5⟩
  calls := [signCall .addPrevUpdateSig 12 (some 5), signCall .addCoinbaseSig 11 none]

private theorem everyNewReturns_twoUpdates : EveryNewReturns none [firstUpdate, secondUpdate] := by
  have hcoinbase (sat : UInt64) : (payment sat).output ≠ [] := List.cons_ne_nil _ _
  have hfirst : ∃ result, PayoutUpdate.new Digest.bitcoin none firstUpdate.coinbaseTx firstUpdate.nextOutAddress
      firstUpdate.projectedFee = .ok result :=
    PayoutUpdate.new_returns _ (hcoinbase 5000) (by simp) (by decide) (by decide)
  obtain ⟨result, hnew⟩ := hfirst
  refine ⟨result, hnew, fun update last hupdate hlast => ?_⟩
  obtain ⟨_, hcreated, hupdated⟩ := PayoutUpdate.new_eq_ok hnew
  obtain rfl := Except.ok.inj (hupdate.symm.trans hcreated)
  obtain ⟨_, hsigned, hsame⟩ := update.signAll_eq firstUpdate.calls
  obtain rfl := Except.ok.inj (hlast.symm.trans hsigned)
  obtain ⟨amount, houtput, hamount⟩ := hupdated.output
  rw [hupdated.sum_prevouts] at hamount
  have hlastOutput : last.build.output = _ := (congrArg Transaction.output hsame.transaction).trans houtput
  have hvalue : last.build.firstValue = amount.toSat.toNat := by
    rw [Transaction.firstValue, hlastOutput]
    rfl
  have htotal : amount.toSat.toNat + 10 = 5000 := hamount
  have hsecond : ∃ result, PayoutUpdate.new Digest.bitcoin (some last.build) secondUpdate.coinbaseTx
      secondUpdate.nextOutAddress secondUpdate.projectedFee = .ok result := by
    have hfee : secondUpdate.projectedFee.toSat.toNat = 5 := rfl
    have hsat : secondUpdate.coinbaseTx.firstValue = 2500 := rfl
    refine PayoutUpdate.new_returns _ (hcoinbase 2500) ?_ ?_ ?_
    · rintro tx ⟨⟩
      rw [hlastOutput]
      exact List.cons_ne_nil _ _
    · rw [Option.elim_some, hvalue, hsat]
      omega
    · rw [Option.elim_some, hvalue, hsat, hfee]
      omega
  obtain ⟨second, hsecond⟩ := hsecond
  exact ⟨second, hsecond, fun _ _ _ _ => trivial⟩

theorem chain_conserves_twoUpdates : ∃ built, chain none [firstUpdate, secondUpdate] = .ok (.ok built) ∧
    ∃ b, built[1]? = some b ∧
      b.transaction.output = [{ value := ⟨7485⟩, scriptPubkey := [0x51, 0x20, 0x02] }] := by
  obtain ⟨built, hbuilt, hlength, hconserved⟩ := chain_conserves Digest.txidIgnoresWitness everyNewReturns_twoUpdates
  have hlt : 1 < built.length := by
    rw [hlength]
    exact Nat.lt_succ_self 1
  have hget := List.getElem?_eq_getElem hlt
  obtain ⟨amount, houtput, hamount⟩ := (hconserved 1 secondUpdate _ rfl hget).2.1
  have hfees : (([firstUpdate, secondUpdate].take (1 + 1)).map ChainLink.fee).sum = 15 := rfl
  have hcoinbases : (([firstUpdate, secondUpdate].take (1 + 1)).map ChainLink.coinbaseValue).sum = 7500 := rfl
  have hvalue : amount.toSat.toNat = 7485 := by omega
  have hamount : amount = ⟨7485⟩ := Amount.ext_toNat hvalue
  exact ⟨built, hbuilt, _, hget, hamount ▸ houtput⟩

end

end Braidpool.Uhpo
