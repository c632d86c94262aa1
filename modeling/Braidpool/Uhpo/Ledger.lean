import Braidpool.Ledger.Unspent
import Braidpool.Uhpo.Chain
import Braidpool.Uhpo.KeySpend

/-! Chains of payout updates on a ledger of unspent outputs. -/
namespace Braidpool.Uhpo
open Braidpool.Runtime Braidpool.Ledger

variable {bitcoin : RustBitcoin}

section
variable (outputKey : ScriptBuf → Option bitcoin.XOnlyPublicKey) (secp : bitcoin.Context)

/-- The witness spends the coin by its key: the one element is a signature of the whole
transaction, with the byte of the sighash type. -/
def KeyPathSpend (tx : Transaction) (coins : List TxOut) (i : Nat) (coin : TxOut) (witness : Witness) : Prop :=
  ∃ key message, ∃ signature : Signature, outputKey coin.scriptPubkey = some key ∧
    bitcoin.taprootKeySpendSignatureHash tx i (.all coins) .all = .ok message ∧
    bitcoin.verifySchnorr secp signature message key = .ok () ∧ witness = [signature.toList ++ [0x01]]

/-- Transactions that spend by the key path, and pay no more than they spend. -/
def rules : Rules Transaction OutPoint TxOut where
  spends tx := tx.input.map TxIn.previousOutput
  makes tx point := if point.txid = bitcoin.computeTxid tx then tx.output[point.vout.toNat]? else none
  Accepts tx coins := (tx.output.map (·.value.toSat.toNat)).sum ≤ (coins.map (·.value.toSat.toNat)).sum ∧
    ∀ i txin coin, tx.input[i]? = some txin → coins[i]? = some coin →
      KeyPathSpend outputKey secp tx coins i coin txin.witness

/-- The call signs with the key that the output is locked to, and verifies as the crate does. -/
structure SignCall.Unlocks (call : SignCall bitcoin) (coin : TxOut) : Prop where
  key : ∀ keypair, call.HasKey keypair → outputKey coin.scriptPubkey = some (bitcoin.xOnlyPublicKey keypair).1
  verifies : ∀ signature message key, Secp256k1Behavior.verifySchnorr call.secp signature message key = .ok () →
    bitcoin.verifySchnorr secp signature message key = .ok ()

/-- For each output that the update spends one call succeeds, with the key of the output. -/
def PayoutUpdate.SignedFor (update : PayoutUpdate) (calls : List (SignCall bitcoin)) : Prop :=
  ∀ i coin, (prevouts update.coinbaseTxout update.prevUpdateTxout)[i]? = some coin →
    (update.successes calls).count i = 1 ∧
    ∀ call ∈ calls, call.inputIdx = i → ∀ element, call.element update = .ok element → call.Unlocks outputKey secp coin

end

/-- No two of the transactions that a chain is given or makes have one txid. -/
structure DistinctTxids (links : List (ChainLink bitcoin)) (built : List Built) : Prop where
  coinbases : (links.map fun link => bitcoin.computeTxid link.coinbaseTx).Nodup
  updates : (built.map fun b => bitcoin.computeTxid b.transaction).Nodup
  apart : ∀ link ∈ links, ∀ b ∈ built, bitcoin.computeTxid link.coinbaseTx ≠ bitcoin.computeTxid b.transaction

/-- What a chain leaves of a ledger: the coinbases and all updates but the last are spent,
the last pays out all the coinbases less all the fees, and the rest is as it was. -/
structure Settled (links : List (ChainLink bitcoin)) (built : List Built) (ledger last : Unspent OutPoint TxOut) :
    Prop where
  coinbases : ∀ link ∈ links, last ⟨bitcoin.computeTxid link.coinbaseTx, 0⟩ = none
  updates : ∀ b ∈ built.dropLast, last ⟨bitcoin.computeTxid b.transaction, 0⟩ = none
  payout : ∀ link ∈ links.getLast?, ∃ b ∈ built.getLast?, ∃ amount : Amount,
    last ⟨bitcoin.computeTxid b.transaction, 0⟩ =
      some { value := amount, scriptPubkey := bitcoin.scriptPubkey link.nextOutAddress } ∧
    amount.toSat.toNat + (links.map ChainLink.fee).sum = (links.map ChainLink.coinbaseValue).sum
  others : ∀ point, (∀ link ∈ links, point ≠ ⟨bitcoin.computeTxid link.coinbaseTx, 0⟩) →
    (∀ b ∈ built, point.txid ≠ bitcoin.computeTxid b.transaction) → last point = ledger point

namespace PayoutUpdate
variable {outputKey : ScriptBuf → Option bitcoin.XOnlyPublicKey} {secp : bitcoin.Context}
  {prevUpdateTx : Option Transaction} {coinbaseTx : Transaction} {nextOutAddress : bitcoin.Address}
  {projectedFee : Amount} {update last : PayoutUpdate} {calls : List (SignCall bitcoin)}

theorem sameStripped_of_signAll (hlast : update.signAll calls = .ok last) : update.SameStripped last := by
  obtain ⟨_, hsigned, hsame⟩ := update.signAll_eq calls
  obtain rfl := Except.ok.inj (hsigned.symm.trans hlast)
  exact hsame

/-- One success for an input leaves the one element that the call pushed. -/
private theorem Created.witness_eq (hs : bitcoin.SighashIgnoresWitness)
    (h : Created bitcoin prevUpdateTx coinbaseTx nextOutAddress projectedFee update)
    (hlast : update.signAll calls = .ok last) {i : Nat} (hone : (update.successes calls).count i = 1) :
    ∃ call ∈ calls, call.inputIdx = i ∧ ∃ element, call.element update = .ok element ∧
      last.transaction.witnesses i = [element] := by
  have hlength := length_witnesses hlast i
  rw [h.witnesses_eq, List.length_nil, Nat.zero_add, hone] at hlength
  obtain ⟨element, helement⟩ := List.length_eq_one_iff.mp hlength
  have hmem : element ∈ last.transaction.witnesses i := helement ▸ List.mem_singleton_self element
  rw [h.signAll_witnesses hs hlast] at hmem
  obtain ⟨call, hcall, hok⟩ := List.mem_filterMap.mp hmem
  obtain ⟨hmem, hidx⟩ := List.mem_filter.mp hcall
  exact ⟨call, hmem, of_decide_eq_true hidx, element, toOption_eq_some.mp hok, helement⟩

/-- A signed update is accepted for the outputs it stores. -/
theorem Created.accepts (hs : bitcoin.SighashIgnoresWitness)
    (h : Created bitcoin prevUpdateTx coinbaseTx nextOutAddress projectedFee update)
    (hlast : update.signAll calls = .ok last) (hsigned : update.SignedFor outputKey secp calls) :
    (rules outputKey secp).Accepts last.build (prevouts update.coinbaseTxout update.prevUpdateTxout) := by
  have hsame := sameStripped_of_signAll hlast
  obtain ⟨amount, houtput, hamount⟩ := h.output
  constructor
  · have hlastOutput : last.build.output = _ := (congrArg Transaction.output hsame.transaction).trans houtput
    rw [hlastOutput, ← hamount]
    exact Nat.le_add_right _ _
  · intro i txin coin htxin hcoin
    obtain ⟨hone, hkeys⟩ := hsigned i coin hcoin
    obtain ⟨call, hcall, rfl, element, helement, hwitness⟩ := h.witness_eq hs hlast hone
    have hlastElement : call.element last = .ok element := by rw [hsame.element_eq hs, helement]
    obtain ⟨keypair, message, hkeypair, hmessage, signature, hverify, rfl⟩ := SignCall.signed_of_element hlastElement
    have hunlocks := hkeys call hcall rfl _ helement
    rw [hsame.coinbaseTxout, hsame.prevUpdateTxout] at hmessage
    refine ⟨_, message, signature, hunlocks.key keypair hkeypair, hmessage, hunlocks.verifies _ _ _ hverify, ?_⟩
    rw [← hwitness, Transaction.witnesses, ← build, htxin]
    rfl

end PayoutUpdate

/-- One transaction of a chain: what `new` made of the link, with the signatures of its calls. -/
structure BuiltFrom (prevUpdateTx : Option Transaction) (built : List Built) (i : Nat) (link : ChainLink bitcoin)
    (b : Built) : Prop where
  made : PayoutUpdate.new bitcoin (before prevUpdateTx built i) link.coinbaseTx link.nextOutAddress link.projectedFee =
    .ok (.ok b.update)
  signed : ∃ last, b.update.signAll link.calls = .ok last ∧ last.build = b.transaction

theorem BuiltFrom.created {prevUpdateTx : Option Transaction} {built : List Built} {i : Nat} {link : ChainLink bitcoin}
    {b : Built} (h : BuiltFrom prevUpdateTx built i link b) :
    PayoutUpdate.Created bitcoin (before prevUpdateTx built i) link.coinbaseTx link.nextOutAddress link.projectedFee
      b.update := PayoutUpdate.created_of_new h.made

theorem chain_builtFrom {prevUpdateTx : Option Transaction} {links : List (ChainLink bitcoin)} {built : List Built}
    (h : chain prevUpdateTx links = .ok (.ok built)) :
    EveryNewReturns prevUpdateTx links ∧ built.length = links.length ∧
      ∀ i link b, links[i]? = some link → built[i]? = some b → BuiltFrom prevUpdateTx built i link b := by
  induction links generalizing prevUpdateTx built with
  | nil =>
    obtain rfl := Except.ok.inj (Except.ok.inj h)
    exact ⟨trivial, rfl, fun i link b hlink => (by cases hlink)⟩
  | cons first links ih =>
    obtain ⟨result, hnew, h⟩ := bind_eq_ok.mp h
    obtain ⟨update, rfl, -⟩ := PayoutUpdate.new_eq_ok hnew
    obtain ⟨last, hlast, h⟩ := bind_eq_ok.mp h
    obtain ⟨rest, hrest, h⟩ := bind_eq_ok.mp h
    cases rest with
    | error e => cases h
    | ok rest =>
      obtain ⟨hreturns, hlength, hbuilt⟩ := ih hrest
      obtain rfl := Except.ok.inj (Except.ok.inj h)
      refine ⟨?_, congrArg (· + 1) hlength, ?_⟩
      · refine ⟨_, hnew, fun update' last' hupdate' hlast' => ?_⟩
        obtain rfl := Except.ok.inj hupdate'
        obtain rfl := Except.ok.inj (hlast.symm.trans hlast')
        exact hreturns
      · intro i link b hlink hget
        cases i with
        | zero =>
          obtain rfl := Option.some.inj hlink
          obtain rfl := Option.some.inj hget
          exact ⟨hnew, last, hlast, rfl⟩
        | succ i =>
          have hbefore : before (some last.build) rest i =
              before prevUpdateTx ({ update, transaction := last.build } :: rest) (i + 1) := by
            cases i <;> rfl
          obtain ⟨hmade, hsigned⟩ := hbuilt i link b hlink hget
          exact ⟨hbefore ▸ hmade, hsigned⟩

section
variable {outputKey : ScriptBuf → Option bitcoin.XOnlyPublicKey} {secp : bitcoin.Context}
  {links : List (ChainLink bitcoin)} {built : List Built} {ledger : Unspent OutPoint TxOut}

/-- An update spends its coinbase and the update before it. -/
theorem BuiltFrom.spends {i : Nat} {link : ChainLink bitcoin} {b : Built} (h : BuiltFrom none built i link b) :
    (rules outputKey secp).spends b.transaction =
      (link.coinbaseTx :: (before none built i).toList).map fun tx => ⟨bitcoin.computeTxid tx, 0⟩ := by
  obtain ⟨last, hlast, htransaction⟩ := h.signed
  rw [← htransaction]
  exact h.created.outpoints (PayoutUpdate.sameStripped_of_signAll hlast)

theorem spends_congr {tx other : Transaction} (h : tx.stripped = other.stripped) :
    (rules outputKey secp).spends tx = (rules outputKey secp).spends other := by
  have hinput := congrArg (·.input.map TxIn.previousOutput) h
  simp only [Transaction.previousOutput_stripped] at hinput
  exact hinput

theorem makes_eq_none {tx : Transaction} {point : OutPoint} (h : point.txid ≠ bitcoin.computeTxid tx) :
    (rules outputKey secp).makes tx point = none := if_neg h

private theorem makes_first (tx : Transaction) :
    (rules outputKey secp).makes tx ⟨bitcoin.computeTxid tx, 0⟩ = tx.output[0]? := if_pos rfl

private theorem txid_of_makes {tx : Transaction} {point : OutPoint}
    (h : (rules outputKey secp).makes tx point ≠ none) : point.txid = bitcoin.computeTxid tx := by
  by_contra hne
  exact h (makes_eq_none hne)

/-- The update before the `i`-th is the one at `i - 1`. -/
theorem exists_before {i : Nat} {tx : Transaction} (h : tx ∈ before none built i) :
    ∃ j b, i = j + 1 ∧ built[j]? = some b ∧ b.transaction = tx := by
  cases i with
  | zero => cases h
  | succ j =>
    obtain ⟨b, hb, htx⟩ := Option.map_eq_some_iff.mp h
    exact ⟨j, b, rfl, hb, htx⟩

theorem getElem?_map_inj {α β : Type*} {f : α → β} {l : List α} (h : (l.map f).Nodup) {i j : Nat} {a b : α}
    (hi : l[i]? = some a) (hj : l[j]? = some b) (hf : f a = f b) : i = j := by
  have hlt := (List.getElem?_eq_some_iff.mp hi).1
  refine (List.getElem?_inj (by rwa [List.length_map]) h).mp ?_
  rw [List.getElem?_map, List.getElem?_map, hi, hj, Option.map_some, Option.map_some, hf]

theorem exists_link (hlength : built.length = links.length) {i : Nat} {b : Built} (hb : built[i]? = some b) :
    ∃ link, links[i]? = some link :=
  ⟨_, List.getElem?_eq_getElem (hlength ▸ (List.getElem?_eq_some_iff.mp hb).1)⟩

/-- Transactions with distinct txids make their coins apart. -/
private theorem apart_of_nodup {txs : List Transaction} (h : (txs.map bitcoin.computeTxid).Nodup) :
    (rules outputKey secp).Apart txs := by
  refine (List.pairwise_map.mp h).imp fun {tx other} hne p => ?_
  by_cases hp : p.txid = bitcoin.computeTxid tx
  · exact .inr (makes_eq_none (hp ▸ hne))
  · exact .inl (makes_eq_none hp)

namespace DistinctTxids

theorem apart_updates (h : DistinctTxids links built) : (rules outputKey secp).Apart (built.map Built.transaction) := by
  apply apart_of_nodup
  rw [List.map_map]
  exact h.updates

/-- What two updates spend has one txid only if it is spent in one place. -/
private theorem spent_inj (h : DistinctTxids links built) {i j : Nat} {link other : ChainLink bitcoin}
    (hi : links[i]? = some link) (hj : links[j]? = some other) {tx ty : Transaction}
    (htx : tx ∈ link.coinbaseTx :: (before none built i).toList)
    (hty : ty ∈ other.coinbaseTx :: (before none built j).toList)
    (htxid : bitcoin.computeTxid tx = bitcoin.computeTxid ty) : i = j := by
  rcases List.mem_cons.mp htx with rfl | htx
  · rcases List.mem_cons.mp hty with rfl | hty
    · exact getElem?_map_inj h.coinbases hi hj htxid
    · obtain ⟨j', c, rfl, hc, rfl⟩ := exists_before (Option.mem_toList.mp hty)
      exact absurd htxid (h.apart link (List.mem_of_getElem? hi) c (List.mem_of_getElem? hc))
  · obtain ⟨i', b, rfl, hb, rfl⟩ := exists_before (Option.mem_toList.mp htx)
    rcases List.mem_cons.mp hty with rfl | hty
    · exact absurd htxid.symm (h.apart other (List.mem_of_getElem? hj) b (List.mem_of_getElem? hb))
    · obtain ⟨j', c, rfl, hc, rfl⟩ := exists_before (Option.mem_toList.mp hty)
      exact congrArg (· + 1) (getElem?_map_inj h.updates hb hc htxid)

/-- No output is spent twice along the chain. -/
theorem spends_nodup (h : DistinctTxids links built) (hlength : built.length = links.length)
    (hbuilt : ∀ i link b, links[i]? = some link → built[i]? = some b → BuiltFrom none built i link b) :
    ((built.map Built.transaction).flatMap (rules outputKey secp).spends).Nodup := by
  rw [List.flatMap_map, List.nodup_flatMap]
  constructor
  · intro b hmem
    obtain ⟨i, hb⟩ := List.mem_iff_getElem?.mp hmem
    obtain ⟨link, hlink⟩ := exists_link hlength hb
    rw [(hbuilt i link b hlink hb).spends]
    cases hbefore : before none built i with
    | none => simp
    | some tx =>
      obtain ⟨j, c, -, hc, rfl⟩ := exists_before hbefore
      simpa using h.apart link (List.mem_of_getElem? hlink) c (List.mem_of_getElem? hc)
  · rw [List.pairwise_iff_getElem]
    intro i j hi hj hlt p hp hp'
    simp only at hp hp'
    obtain ⟨link, hlink⟩ := exists_link hlength (List.getElem?_eq_getElem hi)
    obtain ⟨other, hother⟩ := exists_link hlength (List.getElem?_eq_getElem hj)
    rw [(hbuilt i link _ hlink (List.getElem?_eq_getElem hi)).spends] at hp
    rw [(hbuilt j other _ hother (List.getElem?_eq_getElem hj)).spends] at hp'
    obtain ⟨tx, htx, rfl⟩ := List.mem_map.mp hp
    obtain ⟨ty, hty, htxid⟩ := List.mem_map.mp hp'
    have hij := h.spent_inj hlink hother htx hty (congrArg OutPoint.txid htxid).symm
    exact absurd hij (Nat.ne_of_lt hlt)

/-- The first output of what an update spends is found on the ledger. -/
theorem found_spent (h : DistinctTxids links built) {i : Nat} {link : ChainLink bitcoin} (hlink : links[i]? = some link)
    (hcoinbase : ledger ⟨bitcoin.computeTxid link.coinbaseTx, 0⟩ = link.coinbaseTx.output[0]?) {tx : Transaction}
    (htx : tx ∈ link.coinbaseTx :: (before none built i).toList) {txout : TxOut} (htxout : tx.output[0]? = some txout) :
    (rules outputKey secp).found ledger ((built.map Built.transaction).take i) ⟨bitcoin.computeTxid tx, 0⟩ =
      some txout := by
  rcases List.mem_cons.mp htx with rfl | htx
  · rw [Rules.found_other, hcoinbase, htxout]
    intro other hother
    obtain ⟨b, hb, rfl⟩ := List.mem_map.mp (List.mem_of_mem_take hother)
    exact makes_eq_none (h.apart link (List.mem_of_getElem? hlink) b hb)
  · obtain ⟨j, b, rfl, hb, rfl⟩ := exists_before (Option.mem_toList.mp htx)
    have hmem : b.transaction ∈ (built.map Built.transaction).take (j + 1) := by
      have htake : (built.take (j + 1))[j]? = some b := by rw [List.getElem?_take_of_succ, hb]
      rw [← List.map_take]
      exact List.mem_map_of_mem (List.mem_of_getElem? htake)
    exact Rules.found_made (h.apart_updates.sublist (List.take_sublist _ _)) hmem ((makes_first _).trans htxout)

/-- The coins that the ledger finds for an update are the outputs it stores. -/
theorem found_spends (h : DistinctTxids links built) {i : Nat} {link : ChainLink bitcoin} {b : Built}
    (hlink : links[i]? = some link) (hb : BuiltFrom none built i link b)
    (hcoinbase : ledger ⟨bitcoin.computeTxid link.coinbaseTx, 0⟩ = link.coinbaseTx.output[0]?) :
    ((rules outputKey secp).spends b.transaction).map
        ((rules outputKey secp).found ledger ((built.map Built.transaction).take i)) =
      (prevouts b.update.coinbaseTxout b.update.prevUpdateTxout).map some := by
  have hprevouts := hb.created.prevouts_eq
  rw [hb.spends, List.map_map, ← hprevouts]
  apply List.map_congr_left
  intro tx htx
  have hmem := List.mem_map_of_mem (f := fun tx : Transaction => tx.output[0]?) htx
  rw [hprevouts] at hmem
  obtain ⟨txout, -, htxout⟩ := List.mem_map.mp hmem
  rw [Function.comp_apply, h.found_spent hlink hcoinbase htx htxout.symm, htxout]

end DistinctTxids

section
variable (hlength : built.length = links.length)
  (hbuilt : ∀ i link b, links[i]? = some link → built[i]? = some b → BuiltFrom none built i link b)
include hbuilt

private theorem mem_spent {i : Nat} {link : ChainLink bitcoin} {b : Built} (hlink : links[i]? = some link)
    (hb : built[i]? = some b) {tx : Transaction} (htx : tx ∈ link.coinbaseTx :: (before none built i).toList) :
    ⟨bitcoin.computeTxid tx, 0⟩ ∈ (built.map Built.transaction).flatMap (rules outputKey secp).spends := by
  refine List.mem_flatMap.mpr ⟨_, List.mem_map_of_mem (List.mem_of_getElem? hb), ?_⟩
  rw [(hbuilt i link b hlink hb).spends]
  exact List.mem_map_of_mem htx

include hlength

/-- What is spent along the chain are coinbases, and updates that have one after them. -/
private theorem spent_cases {point : OutPoint}
    (h : point ∈ (built.map Built.transaction).flatMap (rules outputKey secp).spends) :
    (∃ link ∈ links, point = ⟨bitcoin.computeTxid link.coinbaseTx, 0⟩) ∨
      ∃ j b, j + 1 < built.length ∧ built[j]? = some b ∧ point = ⟨bitcoin.computeTxid b.transaction, 0⟩ := by
  rw [List.flatMap_map] at h
  obtain ⟨b, hmem, hspends⟩ := List.mem_flatMap.mp h
  obtain ⟨i, hb⟩ := List.mem_iff_getElem?.mp hmem
  obtain ⟨link, hlink⟩ := exists_link hlength hb
  rw [(hbuilt i link b hlink hb).spends] at hspends
  obtain ⟨tx, htx, rfl⟩ := List.mem_map.mp hspends
  rcases List.mem_cons.mp htx with rfl | htx
  · exact .inl ⟨link, List.mem_of_getElem? hlink, rfl⟩
  · obtain ⟨j, c, rfl, hc, rfl⟩ := exists_before (Option.mem_toList.mp htx)
    exact .inr ⟨j, c, (List.getElem?_eq_some_iff.mp hb).1, hc, rfl⟩

/-- The last update is not spent. -/
private theorem unspent_last (hdistinct : DistinctTxids links built) {b : Built} (hget : built[links.length - 1]? = some b) :
    ⟨bitcoin.computeTxid b.transaction, 0⟩ ∉ (built.map Built.transaction).flatMap (rules outputKey secp).spends := by
  intro hspent
  rcases spent_cases hlength hbuilt hspent with ⟨link, hmem, htxid⟩ | ⟨j, c, hlt, hc, htxid⟩
  · exact hdistinct.apart link hmem b (List.mem_of_getElem? hget) (congrArg OutPoint.txid htxid).symm
  · have hj := getElem?_map_inj hdistinct.updates hget hc (congrArg OutPoint.txid htxid)
    omega

private theorem settled (hdistinct : DistinctTxids links built)
    (hconserved : ∀ i link b, links[i]? = some link → built[i]? = some b → Conserved none links built i link b)
    {last : Unspent OutPoint TxOut} (hlast : ∀ p, last p =
      if p ∈ (built.map Built.transaction).flatMap (rules outputKey secp).spends then none
      else (rules outputKey secp).found ledger (built.map Built.transaction) p) : Settled links built ledger last := by
  constructor
  · intro link hmem
    obtain ⟨i, hlink⟩ := List.mem_iff_getElem?.mp hmem
    have hget := List.getElem?_eq_getElem (hlength ▸ (List.getElem?_eq_some_iff.mp hlink).1)
    rw [hlast, if_pos (mem_spent hbuilt hlink hget List.mem_cons_self)]
  · intro b hmem
    obtain ⟨i, hget⟩ := List.mem_iff_getElem?.mp hmem
    rw [List.getElem?_dropLast] at hget
    split at hget
    · rename_i hlt
      have hnext := List.getElem?_eq_getElem (l := built) (i := i + 1) (by omega)
      obtain ⟨link, hlink⟩ := exists_link hlength hnext
      have hbefore : before none built (i + 1) = some b.transaction := congrArg (Option.map Built.transaction) hget
      rw [hlast, if_pos (mem_spent hbuilt hlink hnext (by simp [hbefore]))]
    · cases hget
  · intro link hlink
    rw [List.getLast?_eq_getElem?] at hlink
    have hlt := (List.getElem?_eq_some_iff.mp hlink).1
    obtain ⟨b, hget⟩ : ∃ b, built[links.length - 1]? = some b :=
      ⟨_, List.getElem?_eq_getElem (by rw [hlength]; exact hlt)⟩
    obtain ⟨amount, houtput, hamount⟩ := (hconserved _ link b hlink hget).output
    refine ⟨b, by rwa [List.getLast?_eq_getElem?, hlength], amount, ?_, ?_⟩
    · have hmakes : (rules outputKey secp).makes b.transaction ⟨bitcoin.computeTxid b.transaction, 0⟩ = some _ :=
        (makes_first b.transaction).trans (congrArg (·[0]?) houtput)
      rw [hlast, if_neg (unspent_last hlength hbuilt hdistinct hget)]
      exact Rules.found_made hdistinct.apart_updates (List.mem_map_of_mem (List.mem_of_getElem? hget)) hmakes
    · rw [Nat.sub_add_cancel (Nat.pos_of_ne_zero (by omega)), List.take_length] at hamount
      simpa using hamount
  · intro point hother hthere
    rw [hlast, if_neg, Rules.found_other]
    · intro tx htx
      obtain ⟨b, hmem, rfl⟩ := List.mem_map.mp htx
      exact makes_eq_none (hthere b hmem)
    · intro hspent
      rcases spent_cases hlength hbuilt hspent with ⟨link, hmem, rfl⟩ | ⟨j, b, -, hget, rfl⟩
      · exact hother link hmem rfl
      · exact hthere b (List.mem_of_getElem? hget) rfl

end

/-- The transactions of a signed chain are entered in order. -/
theorem run_built (hs : bitcoin.SighashIgnoresWitness) (hlength : built.length = links.length)
    (hbuilt : ∀ i link b, links[i]? = some link → built[i]? = some b → BuiltFrom none built i link b)
    (hdistinct : DistinctTxids links built)
    (hsigned : ∀ (i : Nat) (link : ChainLink bitcoin) (b : Built), links[i]? = some link → built[i]? = some b →
      b.update.SignedFor outputKey secp link.calls)
    (hcoinbases : ∀ link ∈ links, ledger ⟨bitcoin.computeTxid link.coinbaseTx, 0⟩ = link.coinbaseTx.output[0]?)
    (hfresh : ∀ b ∈ built, ∀ vout, ledger ⟨bitcoin.computeTxid b.transaction, vout⟩ = none) :
    ∃ last, Machine.run (rules outputKey secp).step ledger (built.map Built.transaction) = some last ∧ ∀ p, last p =
      if p ∈ (built.map Built.transaction).flatMap (rules outputKey secp).spends then none
      else (rules outputKey secp).found ledger (built.map Built.transaction) p := by
  have hnew : ∀ tx ∈ built.map Built.transaction, ∀ p, (rules outputKey secp).makes tx p ≠ none → ledger p = none := by
    intro tx htx p hmakes
    obtain ⟨b, hmem, rfl⟩ := List.mem_map.mp htx
    have hp : p = ⟨bitcoin.computeTxid b.transaction, p.vout⟩ := by rw [← txid_of_makes hmakes]
    rw [hp]
    exact hfresh b hmem p.vout
  have haccepts : ∀ i tx, (built.map Built.transaction)[i]? = some tx →
      ∃ coins, ((rules outputKey secp).spends tx).map
          ((rules outputKey secp).found ledger ((built.map Built.transaction).take i)) = coins.map some ∧
        (rules outputKey secp).Accepts tx coins := by
    intro i tx htx
    rw [List.getElem?_map] at htx
    obtain ⟨b, hget, rfl⟩ := Option.map_eq_some_iff.mp htx
    obtain ⟨link, hlink⟩ := exists_link hlength hget
    have hfrom := hbuilt i link b hlink hget
    refine ⟨_, hdistinct.found_spends hlink hfrom (hcoinbases link (List.mem_of_getElem? hlink)), ?_⟩
    obtain ⟨last, hlast, htransaction⟩ := hfrom.signed
    rw [← htransaction]
    exact hfrom.created.accepts hs hlast (hsigned i link b hlink hget)
  exact Rules.run_enters (hdistinct.spends_nodup hlength hbuilt) hdistinct.apart_updates hnew haccepts

/-- A ledger that holds the coinbases enters a chain of signed updates, one after the other. -/
theorem chain_enters (hb : bitcoin.TxidIgnoresWitness) (hs : bitcoin.SighashIgnoresWitness)
    (hchain : chain none links = .ok (.ok built)) (hdistinct : DistinctTxids links built)
    (hsigned : ∀ (i : Nat) (link : ChainLink bitcoin) (b : Built), links[i]? = some link → built[i]? = some b →
      b.update.SignedFor outputKey secp link.calls)
    (hcoinbases : ∀ link ∈ links, ledger ⟨bitcoin.computeTxid link.coinbaseTx, 0⟩ = link.coinbaseTx.output[0]?)
    (hfresh : ∀ b ∈ built, ∀ vout, ledger ⟨bitcoin.computeTxid b.transaction, vout⟩ = none) :
    ∃ last, Machine.run (rules outputKey secp).step ledger (built.map Built.transaction) = some last ∧
      Settled links built ledger last := by
  obtain ⟨hreturns, hlength, hbuilt⟩ := chain_builtFrom hchain
  obtain ⟨built', hchain', -, hconserved⟩ := chain_conserved hb hreturns
  obtain rfl := Except.ok.inj (Except.ok.inj (hchain.symm.trans hchain'))
  obtain ⟨last, hrun, hlast⟩ := run_built hs hlength hbuilt hdistinct hsigned hcoinbases hfresh
  exact ⟨last, hrun, settled hlength hbuilt hdistinct hconserved hlast⟩

end

section
open Digest

/-- Two updates, each signed for its coinbase and, where there is one, the update before it. -/
def payouts : List (ChainLink Digest.bitcoin) :=
  [{ coinbaseTx := payment 5000
     nextOutAddress := ([0x51, 0x20, 0x01] : ScriptBuf)
     projectedFee := ⟨10⟩
     calls := [signCall .addPrevUpdateSig 12 (some 5), signCall .addCoinbaseSig 11 none] },
   { coinbaseTx := payment 2500
     nextOutAddress := ([0x51, 0x20, 0x02] : ScriptBuf)
     projectedFee := ⟨5⟩
     calls := [signCall .addPrevUpdateSig 12 (some 5), signCall .addCoinbaseSig 11 none] }]

def lockedTo (script : ScriptBuf) : Option Digest.bitcoin.XOnlyPublicKey :=
  if script = [0x51] then some (11 : Nat) else if script = [0x51, 0x20, 0x01] then some (17 : Nat) else none

def coinbaseLedger : Unspent OutPoint TxOut :=
  (rules lockedTo ()).found (fun _ => none) (payouts.map ChainLink.coinbaseTx)

/-- For each update, the scripts of what it spends and the inputs signed. -/
private def signatures (built : List Built) : List (List ScriptBuf × List Nat) :=
  List.zipWith (fun link b => ((prevouts b.update.coinbaseTxout b.update.prevUpdateTxout).map TxOut.scriptPubkey,
    b.update.successes link.calls)) payouts built

private theorem exists_payouts : ∃ built, chain none payouts = .ok (.ok built) ∧
    signatures built = [([[0x51]], [0]), ([[0x51], [0x51, 0x20, 0x01]], [1, 0])] ∧
    (payouts.map (fun link => Digest.bitcoin.computeTxid link.coinbaseTx) ++
      built.map fun b => Digest.bitcoin.computeTxid b.transaction).Nodup := by
  have hchain : ((chain none payouts).toOption.bind Except.toOption).map (fun built => (signatures built,
      decide (payouts.map (fun link => Digest.bitcoin.computeTxid link.coinbaseTx) ++
        built.map fun b => Digest.bitcoin.computeTxid b.transaction).Nodup)) =
      some ([([[0x51]], [0]), ([[0x51], [0x51, 0x20, 0x01]], [1, 0])], true) := by decide +kernel
  obtain ⟨built, hbuilt, hfacts⟩ := Option.map_eq_some_iff.mp hchain
  obtain ⟨result, hresult, hok⟩ := Option.bind_eq_some_iff.mp hbuilt
  obtain ⟨hsignatures, hnodup⟩ := Prod.mk.inj hfacts
  exact ⟨built, (toOption_eq_some.mp hresult).trans (congrArg Except.ok (toOption_eq_some.mp hok)), hsignatures,
    of_decide_eq_true hnodup⟩

/-- Each call signs with the key of the output that it is for. -/
private theorem unlocks {link : ChainLink Digest.bitcoin} (hlink : link ∈ payouts) {call : SignCall Digest.bitcoin}
    (hcall : call ∈ link.calls) {coin : TxOut}
    (hscript : coin.scriptPubkey = if call.inputIdx = 0 then [0x51] else [0x51, 0x20, 0x01]) :
    call.Unlocks lockedTo () coin := by
  have hcalls : link.calls = [signCall .addPrevUpdateSig 12 (some 5), signCall .addCoinbaseSig 11 none] := by
    simp only [payouts, List.mem_cons, List.not_mem_nil, or_false] at hlink
    rcases hlink with rfl | rfl <;> rfl
  rw [hcalls] at hcall
  rcases List.mem_cons.mp hcall with rfl | hcall
  · refine ⟨fun keypair hkeypair => ?_, fun signature message key hverify => hverify⟩
    obtain rfl := Except.ok.inj (hkeypair.tweaked _ rfl)
    rw [hscript]
    rfl
  · obtain rfl := List.mem_singleton.mp hcall
    refine ⟨fun keypair hkeypair => ?_, fun signature message key hverify => hverify⟩
    obtain rfl := hkeypair.untweaked rfl
    rw [hscript]
    rfl

private theorem signedFor {built : List Built}
    (h : signatures built = [([[0x51]], [0]), ([[0x51], [0x51, 0x20, 0x01]], [1, 0])]) {i : Nat}
    {link : ChainLink Digest.bitcoin} {b : Built} (hlink : payouts[i]? = some link) (hb : built[i]? = some b) :
    b.update.SignedFor lockedTo () link.calls := by
  intro j coin hcoin
  have hget : (signatures built)[i]? = some ((prevouts b.update.coinbaseTxout b.update.prevUpdateTxout).map
      TxOut.scriptPubkey, b.update.successes link.calls) := by
    rw [signatures, List.getElem?_zipWith, hlink, hb]
  have hscripts := congrArg (Option.map TxOut.scriptPubkey) hcoin
  rw [← List.getElem?_map] at hscripts
  rw [h] at hget
  have hinput : (b.update.successes link.calls).count j = 1 ∧
      coin.scriptPubkey = if j = 0 then [0x51] else [0x51, 0x20, 0x01] := by
    match i, j with
    | 0, 0 | 1, 0 | 1, 1 =>
      obtain ⟨hmap, hsuccesses⟩ := Prod.mk.inj (Option.some.inj hget)
      rw [← hmap] at hscripts
      rw [← hsuccesses]
      exact ⟨rfl, (Option.some.inj hscripts).symm⟩
    | 0, j + 1 | 1, j + 2 =>
      obtain ⟨hmap, -⟩ := Prod.mk.inj (Option.some.inj hget)
      rw [← hmap] at hscripts
      cases hscripts
    | i + 2, j => cases hget
  refine ⟨hinput.1, fun call hcall hidx element _ => unlocks (List.mem_of_getElem? hlink) hcall ?_⟩
  rw [hidx, hinput.2]

theorem exists_signed_payouts : ∃ built, chain none payouts = .ok (.ok built) ∧ DistinctTxids payouts built ∧
    (∀ (i : Nat) (link : ChainLink Digest.bitcoin) (b : Built), payouts[i]? = some link → built[i]? = some b →
      b.update.SignedFor lockedTo () link.calls) ∧
    (∀ link ∈ payouts, coinbaseLedger ⟨Digest.bitcoin.computeTxid link.coinbaseTx, 0⟩ = link.coinbaseTx.output[0]?) ∧
    ∀ b ∈ built, ∀ vout, coinbaseLedger ⟨Digest.bitcoin.computeTxid b.transaction, vout⟩ = none := by
  obtain ⟨built, hchain, hsignatures, hnodup⟩ := exists_payouts
  obtain ⟨hcoinbases, hupdates, hapart⟩ := List.nodup_append.mp hnodup
  have hdistinct : DistinctTxids payouts built :=
    ⟨hcoinbases, hupdates, fun link hlink b hb => hapart _ (List.mem_map_of_mem hlink) _ (List.mem_map_of_mem hb)⟩
  refine ⟨built, hchain, hdistinct, fun i link b hlink hb => signedFor hsignatures hlink hb, ?_, ?_⟩
  · intro link hlink
    obtain ⟨txout, htxout⟩ : ∃ txout, link.coinbaseTx.output[0]? = some txout := by
      simp only [payouts, List.mem_cons, List.not_mem_nil, or_false] at hlink
      rcases hlink with rfl | rfl <;> exact ⟨_, rfl⟩
    rw [htxout]
    apply Rules.found_made (apart_of_nodup (by rwa [List.map_map])) (List.mem_map_of_mem hlink)
    exact (makes_first _).trans htxout
  · intro b hb vout
    refine Rules.found_other fun tx htx => makes_eq_none ?_
    obtain ⟨link, hlink, rfl⟩ := List.mem_map.mp htx
    exact (hdistinct.apart link hlink b hb).symm

theorem chain_enters_twoUpdates : ∃ built last, chain none payouts = .ok (.ok built) ∧
    Machine.run (rules lockedTo ()).step coinbaseLedger (built.map Built.transaction) = some last ∧
    ∃ b ∈ built.getLast?, last ⟨Digest.bitcoin.computeTxid b.transaction, 0⟩ =
      some { value := ⟨7485⟩, scriptPubkey := [0x51, 0x20, 0x02] } := by
  obtain ⟨built, hchain, hdistinct, hsigned, hcoinbases, hfresh⟩ := exists_signed_payouts
  obtain ⟨last, hrun, hsettled⟩ :=
    chain_enters Digest.txidIgnoresWitness Digest.sighashIgnoresWitness hchain hdistinct hsigned hcoinbases hfresh
  obtain ⟨b, hb, amount, hlast, hamount⟩ := hsettled.payout _ rfl
  have hfees : (payouts.map ChainLink.fee).sum = 15 := rfl
  have htotal : (payouts.map ChainLink.coinbaseValue).sum = 7500 := rfl
  have hvalue : amount.toSat.toNat = 7485 := by omega
  have hamount : amount = ⟨7485⟩ := Amount.ext_toNat hvalue
  exact ⟨built, last, hchain, hrun, b, hb, hamount ▸ hlast⟩

end

end Braidpool.Uhpo
