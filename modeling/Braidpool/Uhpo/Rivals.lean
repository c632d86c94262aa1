import Braidpool.Uhpo.Ledger
import Mathlib.Data.List.Chain

/-! Rival payout updates, of which several spend one update or one coinbase. However many
are made and signed, a ledger follows one line of them. -/
namespace Braidpool.Uhpo
open Braidpool.Runtime Braidpool.Ledger

/-- A payout update that has been built, with the transactions it was made from. -/
structure Offer where
  prevUpdateTx : Option Transaction
  coinbaseTx : Transaction
  transaction : Transaction

variable {bitcoin : RustBitcoin}

section
variable (bitcoin)

def Offer.Made (offer : Offer) : Prop :=
  ∃ nextOutAddress projectedFee update,
    PayoutUpdate.new bitcoin offer.prevUpdateTx offer.coinbaseTx nextOutAddress projectedFee = .ok (.ok update) ∧
      ∃ (calls : List (SignCall bitcoin)) (last : PayoutUpdate),
        update.signAll calls = .ok last ∧ last.build = offer.transaction

/-- Offers that begin with one coinbase, and go on from one another. -/
structure Family (coinbaseTx : Transaction) (offers : List Offer) : Prop where
  made : ∀ offer ∈ offers, offer.Made bitcoin
  first : ∀ offer ∈ offers, offer.prevUpdateTx = none → offer.coinbaseTx = coinbaseTx
  next : ∀ offer ∈ offers, ∀ tx ∈ offer.prevUpdateTx, ∃ other ∈ offers,
    bitcoin.computeTxid other.transaction = bitcoin.computeTxid tx

/-- No coinbase is made again, and what has the txid of an offer is that offer with witnesses of any kind. -/
structure Recognized (coinbaseTx : Transaction) (offers : List Offer) (tx : Transaction) : Prop where
  first : bitcoin.computeTxid tx ≠ bitcoin.computeTxid coinbaseTx
  coinbases : ∀ offer ∈ offers, bitcoin.computeTxid tx ≠ bitcoin.computeTxid offer.coinbaseTx
  offers : ∀ offer ∈ offers, bitcoin.computeTxid tx = bitcoin.computeTxid offer.transaction →
    tx.stripped = offer.transaction.stripped

def offered (offers : List Offer) (txs : List Transaction) : List Transaction :=
  txs.filter fun tx => bitcoin.computeTxid tx ∈ offers.map fun offer => bitcoin.computeTxid offer.transaction

end

variable {outputKey : ScriptBuf → Option bitcoin.XOnlyPublicKey} {secp : bitcoin.Context} {coinbaseTx : Transaction}
  {offers : List Offer} {ledger : Unspent OutPoint TxOut} {tx : Transaction}

theorem Recognized.spends (hknown : Recognized bitcoin coinbaseTx offers tx) (hfamily : Family bitcoin coinbaseTx offers)
    {offer : Offer} (hoffer : offer ∈ offers) (htxid : bitcoin.computeTxid tx = bitcoin.computeTxid offer.transaction) :
    (rules outputKey secp).spends tx =
      (offer.coinbaseTx :: offer.prevUpdateTx.toList).map fun tx => ⟨bitcoin.computeTxid tx, 0⟩ := by
  obtain ⟨nextOutAddress, projectedFee, update, hnew, calls, last, hlast, htransaction⟩ := hfamily.made offer hoffer
  rw [spends_congr (hknown.offers offer hoffer htxid), ← htransaction]
  exact (PayoutUpdate.created_of_new hnew).outpoints (PayoutUpdate.sameStripped_of_signAll hlast)

theorem Recognized.spends_coinbase (hknown : Recognized bitcoin coinbaseTx offers tx)
    (hfamily : Family bitcoin coinbaseTx offers) {offer : Offer} (hoffer : offer ∈ offers)
    (htxid : bitcoin.computeTxid tx = bitcoin.computeTxid offer.transaction) :
    ⟨bitcoin.computeTxid offer.coinbaseTx, 0⟩ ∈ (rules outputKey secp).spends tx := by
  rw [hknown.spends hfamily hoffer htxid]
  exact List.mem_cons_self

/-- The offers entered so far form a line, and its end is the only one that can be spent. -/
structure Line (outputKey : ScriptBuf → Option bitcoin.XOnlyPublicKey) (secp : bitcoin.Context) (coinbaseTx : Transaction)
    (offers : List Offer) (ledger : Unspent OutPoint TxOut) (entered : List Transaction) : Prop where
  chain : entered.IsChain fun tx next => ⟨bitcoin.computeTxid tx, 0⟩ ∈ (rules outputKey secp).spends next
  head : ∀ tx ∈ entered.head?, ⟨bitcoin.computeTxid coinbaseTx, 0⟩ ∈ (rules outputKey secp).spends tx
  nodup : (entered.map bitcoin.computeTxid).Nodup
  first : entered ≠ [] → ledger ⟨bitcoin.computeTxid coinbaseTx, 0⟩ = none
  coinbases : ∀ tx ∈ entered, ∀ offer ∈ offers, bitcoin.computeTxid tx = bitcoin.computeTxid offer.transaction →
    ledger ⟨bitcoin.computeTxid offer.coinbaseTx, 0⟩ = none
  tip : ∀ offer ∈ offers, ledger ⟨bitcoin.computeTxid offer.transaction, 0⟩ ≠ none →
    ∃ tx ∈ entered.getLast?, bitcoin.computeTxid tx = bitcoin.computeTxid offer.transaction

namespace Line
variable {entered : List Transaction}

private theorem enter_other (h : Line outputKey secp coinbaseTx offers ledger entered)
    (hknown : Recognized bitcoin coinbaseTx offers tx)
    (hother : ∀ offer ∈ offers, bitcoin.computeTxid tx ≠ bitcoin.computeTxid offer.transaction) :
    Line outputKey secp coinbaseTx offers ((rules outputKey secp).enter ledger tx) entered := by
  refine ⟨h.chain, h.head, h.nodup, fun hne => ?_, fun earlier hmem offer hoffer htxid => ?_, fun offer hoffer hthere => ?_⟩
  · exact Rules.enter_none (h.first hne) (makes_eq_none hknown.first.symm)
  · exact Rules.enter_none (h.coinbases earlier hmem offer hoffer htxid)
      (makes_eq_none (hknown.coinbases offer hoffer).symm)
  · apply h.tip offer hoffer
    intro hnone
    exact hthere (Rules.enter_none hnone (makes_eq_none (hother offer hoffer).symm))

/-- An offer that is entered goes on from the end of the line. -/
private theorem extends_tip (h : Line outputKey secp coinbaseTx offers ledger entered)
    (hfamily : Family bitcoin coinbaseTx offers) (hknown : Recognized bitcoin coinbaseTx offers tx)
    (henters : (rules outputKey secp).Enters ledger tx) {offer : Offer} (hoffer : offer ∈ offers)
    (htxid : bitcoin.computeTxid tx = bitcoin.computeTxid offer.transaction) :
    (entered = [] → ⟨bitcoin.computeTxid coinbaseTx, 0⟩ ∈ (rules outputKey secp).spends tx) ∧
      ∀ last ∈ entered.getLast?, ⟨bitcoin.computeTxid last, 0⟩ ∈ (rules outputKey secp).spends tx := by
  have hspends : (rules outputKey secp).spends tx = _ := hknown.spends hfamily hoffer htxid
  cases hprev : offer.prevUpdateTx with
  | none =>
    have hcoinbase : _ ∈ (rules outputKey secp).spends tx := hknown.spends_coinbase hfamily hoffer htxid
    rw [hfamily.first offer hoffer hprev] at hcoinbase
    refine ⟨fun _ => hcoinbase, fun last hlast => ?_⟩
    have hne : entered ≠ [] := by
      rintro rfl
      cases hlast
    exact absurd (h.first hne) (henters.spent hcoinbase)
  | some prev =>
    obtain ⟨other, hother, hsame⟩ := hfamily.next offer hoffer prev hprev
    have hpoint : ⟨bitcoin.computeTxid other.transaction, 0⟩ ∈ (rules outputKey secp).spends tx := by
      rw [hspends, hprev, hsame]
      exact List.mem_cons_of_mem _ List.mem_cons_self
    obtain ⟨tip, htip, htipid⟩ := h.tip other hother (henters.spent hpoint)
    refine ⟨?_, fun last hlast => ?_⟩
    · rintro rfl
      cases htip
    · obtain rfl := Option.some.inj (htip.symm.trans hlast)
      rwa [htipid]

private theorem enter_offer (h : Line outputKey secp coinbaseTx offers ledger entered)
    (hfamily : Family bitcoin coinbaseTx offers) (hknown : Recognized bitcoin coinbaseTx offers tx)
    (henters : (rules outputKey secp).Enters ledger tx) {offer : Offer} (hoffer : offer ∈ offers)
    (htxid : bitcoin.computeTxid tx = bitcoin.computeTxid offer.transaction) :
    Line outputKey secp coinbaseTx offers ((rules outputKey secp).enter ledger tx) (entered ++ [tx]) := by
  obtain ⟨hempty, hlast⟩ := h.extends_tip hfamily hknown henters hoffer htxid
  refine ⟨?_, ?_, ?_, fun _ => ?_, fun earlier hmem other hother hsame => ?_, fun other hother hthere => ?_⟩
  · refine List.isChain_append.mpr ⟨h.chain, List.isChain_singleton tx, fun last hmem next hnext => ?_⟩
    obtain rfl := Option.some.inj hnext
    exact hlast last hmem
  · intro first hfirst
    cases entered with
    | nil =>
      obtain rfl := Option.some.inj hfirst
      exact hempty rfl
    | cons head rest => exact h.head first hfirst
  · rw [List.map_append, List.map_singleton, ← List.concat_eq_append, List.nodup_concat]
    refine ⟨fun hmem => ?_, h.nodup⟩
    obtain ⟨earlier, hmem, hsame⟩ := List.mem_map.mp hmem
    exact henters.spent (hknown.spends_coinbase hfamily hoffer htxid)
      (h.coinbases earlier hmem offer hoffer (hsame.trans htxid))
  · cases entered with
    | nil => exact Rules.enter_spent (hempty rfl)
    | cons head rest => exact Rules.enter_none (h.first (List.cons_ne_nil _ _)) (makes_eq_none hknown.first.symm)
  · rcases List.mem_append.mp hmem with hmem | hmem
    · exact Rules.enter_none (h.coinbases earlier hmem other hother hsame)
        (makes_eq_none (hknown.coinbases other hother).symm)
    · obtain rfl := List.mem_singleton.mp hmem
      exact Rules.enter_spent (hknown.spends_coinbase hfamily hother hsame)
  · refine ⟨tx, by simp, ?_⟩
    by_contra hne
    -- the output of another offer is there only if that is the old end, which is spent now
    have hthere' : ledger ⟨bitcoin.computeTxid other.transaction, 0⟩ ≠ none := fun hnone =>
      hthere (Rules.enter_none hnone (makes_eq_none fun hsame => hne hsame.symm))
    obtain ⟨last, hmem, hsame⟩ := h.tip other hother hthere'
    exact hthere (Rules.enter_spent (hsame ▸ hlast last hmem))

end Line

/-- Whatever rivals are made and signed, and in whatever order and among whatever other
transactions they are brought to a ledger, those that it enters are one line of updates:
the first spends the first coinbase, each of the others spends the one before, and none is
entered twice. -/
theorem rivals_line (hfamily : Family bitcoin coinbaseTx offers)
    (hfresh : ∀ offer ∈ offers, ledger ⟨bitcoin.computeTxid offer.transaction, 0⟩ = none) {txs : List Transaction}
    (hknown : ∀ tx ∈ txs, Recognized bitcoin coinbaseTx offers tx) {last : Unspent OutPoint TxOut}
    (h : Machine.run (rules outputKey secp).step ledger txs = some last) :
    ((offered bitcoin offers txs).map bitcoin.computeTxid).Nodup ∧
    (∀ tx ∈ (offered bitcoin offers txs).head?,
      ⟨bitcoin.computeTxid coinbaseTx, 0⟩ ∈ (rules outputKey secp).spends tx) ∧
    (offered bitcoin offers txs).IsChain fun tx next =>
      ⟨bitcoin.computeTxid tx, 0⟩ ∈ (rules outputKey secp).spends next := by
  have hline : Line outputKey secp coinbaseTx offers last (offered bitcoin offers txs) := by
    induction txs using List.reverseRecOn generalizing last with
    | nil =>
      obtain rfl := Option.some.inj h
      refine ⟨.nil, fun tx htx => (by cases htx), List.nodup_nil, fun hne => absurd rfl hne, fun tx htx => (by cases htx),
        fun offer hoffer hthere => absurd (hfresh offer hoffer) hthere⟩
    | append_singleton txs tx ih =>
      obtain ⟨before, hbefore, hstep⟩ := Machine.run_concat.mp h
      have hline := ih (fun other hmem => hknown other (List.mem_append_left _ hmem)) hbefore
      have htx := hknown tx (List.mem_append_right _ List.mem_cons_self)
      obtain ⟨henters, rfl⟩ := Rules.step_eq_some.mp hstep
      rw [offered, List.filter_append, ← offered]
      by_cases hoffer : ∃ offer ∈ offers, bitcoin.computeTxid tx = bitcoin.computeTxid offer.transaction
      · obtain ⟨offer, hmem, htxid⟩ := hoffer
        rw [List.filter_cons_of_pos (by simpa using ⟨offer, hmem, htxid.symm⟩), List.filter_nil]
        exact hline.enter_offer hfamily htx henters hmem htxid
      · have hother : ∀ offer ∈ offers, bitcoin.computeTxid tx ≠ bitcoin.computeTxid offer.transaction :=
          fun offer hmem htxid => hoffer ⟨offer, hmem, htxid⟩
        rw [List.filter_cons_of_neg (by simpa using fun offer hmem => (hother offer hmem).symm), List.filter_nil,
          List.append_nil]
        exact hline.enter_other htx hother
  exact ⟨hline.nodup, hline.head, hline.chain⟩

/-- The updates of a chain are offers. -/
theorem chain_made {prevUpdateTx : Option Transaction} {links : List (ChainLink bitcoin)} {built : List Built}
    (h : chain prevUpdateTx links = .ok (.ok built)) {i : Nat} {link : ChainLink bitcoin} {b : Built}
    (hlink : links[i]? = some link) (hget : built[i]? = some b) :
    Offer.Made bitcoin ⟨before prevUpdateTx built i, link.coinbaseTx, b.transaction⟩ := by
  obtain ⟨-, -, hbuilt⟩ := chain_builtFrom h
  obtain ⟨hmade, last, hlast, htransaction⟩ := hbuilt i link b hlink hget
  exact ⟨link.nextOutAddress, link.projectedFee, b.update, hmade, link.calls, last, hlast, htransaction⟩

section
open Digest

/-- The second update, paid to another address and not signed. -/
def rival (first : Built) : MayPanic (Except FmtError PayoutUpdate) :=
  PayoutUpdate.new Digest.bitcoin (some first.transaction) (payment 2500) ([0x51, 0x20, 0x03] : ScriptBuf) ⟨5⟩

private theorem exists_rival : ∃ first second update, chain none payouts = .ok (.ok [first, second]) ∧
    rival first = .ok (.ok update) ∧
    ([payment 5000, payment 2500, first.transaction, second.transaction, update.transaction].map
      Digest.bitcoin.computeTxid).Nodup := by
  have hchain : ((chain none payouts).toOption.bind Except.toOption).bind (fun built =>
      built.head?.bind fun first => ((rival first).toOption.bind Except.toOption).map fun update =>
        decide (built.length = 2 ∧ (([payment 5000, payment 2500] ++ built.map Built.transaction ++
          [update.transaction]).map Digest.bitcoin.computeTxid).Nodup)) = some true := by decide +kernel
  obtain ⟨built, hbuilt, hrival⟩ := Option.bind_eq_some_iff.mp hchain
  obtain ⟨result, hresult, hok⟩ := Option.bind_eq_some_iff.mp hbuilt
  obtain ⟨first, hfirst, hrival⟩ := Option.bind_eq_some_iff.mp hrival
  obtain ⟨update, hupdate, hfacts⟩ := Option.map_eq_some_iff.mp hrival
  obtain ⟨made, hmade, hthere⟩ := Option.bind_eq_some_iff.mp hupdate
  obtain ⟨hlength, hnodup⟩ := of_decide_eq_true hfacts
  obtain ⟨_, second, rfl⟩ := List.length_eq_two.mp hlength
  obtain rfl := Option.some.inj hfirst
  exact ⟨_, second, update, (toOption_eq_some.mp hresult).trans (congrArg Except.ok (toOption_eq_some.mp hok)),
    (toOption_eq_some.mp hmade).trans (congrArg Except.ok (toOption_eq_some.mp hthere)), hnodup⟩

/-- The two updates of the chain, and the rival of the second. -/
def threeOffers (first second : Built) (update : PayoutUpdate) : List Offer :=
  [⟨none, payment 5000, first.transaction⟩, ⟨some first.transaction, payment 2500, second.transaction⟩,
    ⟨some first.transaction, payment 2500, update.transaction⟩]

private theorem family_threeOffers {first second : Built} {update : PayoutUpdate}
    (hchain : chain none payouts = .ok (.ok [first, second])) (hrival : rival first = .ok (.ok update)) :
    Family Digest.bitcoin (payment 5000) (threeOffers first second update) := by
  have hfirst : (⟨none, payment 5000, first.transaction⟩ : Offer).Made Digest.bitcoin := chain_made hchain (i := 0) rfl rfl
  have hsecond : (⟨some first.transaction, payment 2500, second.transaction⟩ : Offer).Made Digest.bitcoin :=
    chain_made hchain (i := 1) rfl rfl
  have hupdate : (⟨some first.transaction, payment 2500, update.transaction⟩ : Offer).Made Digest.bitcoin :=
    ⟨_, _, update, hrival, [], update, rfl, rfl⟩
  refine ⟨?_, ?_, ?_⟩
  · simp only [threeOffers, List.forall_mem_cons]
    exact ⟨hfirst, hsecond, hupdate, by simp⟩
  · simp [threeOffers]
  · simp [threeOffers]

theorem rivals_line_threeOffers : ∃ first second update last, chain none payouts = .ok (.ok [first, second]) ∧
    rival first = .ok (.ok update) ∧
    Machine.run (rules lockedTo ()).step coinbaseLedger [first.transaction, second.transaction] = some last ∧
    (offered Digest.bitcoin (threeOffers first second update) [first.transaction, second.transaction]).IsChain
      fun tx next => ⟨Digest.bitcoin.computeTxid tx, 0⟩ ∈ (rules lockedTo ()).spends next := by
  obtain ⟨first, second, update, hchain, hrival, hnodup⟩ := exists_rival
  obtain ⟨built, hbuilt, hdistinct, hsigned, hcoinbases, hfresh⟩ := exists_signed_payouts
  obtain rfl := Except.ok.inj (Except.ok.inj (hbuilt.symm.trans hchain))
  obtain ⟨-, hlength, hfrom⟩ := chain_builtFrom hchain
  obtain ⟨last, hrun, -⟩ := run_built Digest.sighashIgnoresWitness hlength hfrom hdistinct hsigned hcoinbases hfresh
  have hfamily := family_threeOffers hchain hrival
  simp only [List.map_cons, List.map_nil, List.nodup_cons, List.mem_cons, List.not_mem_nil, or_false, not_or] at hnodup
  obtain ⟨⟨-, h1, h2, h3⟩, ⟨h4, h5, h6⟩, ⟨h7, h8⟩, h9, -⟩ := hnodup
  refine ⟨first, second, update, last, hchain, hrival, hrun, (rivals_line hfamily ?_ ?_ hrun).2.2⟩
  · have hrivalFresh : coinbaseLedger ⟨Digest.bitcoin.computeTxid update.transaction, 0⟩ = none := by
      refine Rules.found_other fun tx htx => makes_eq_none ?_
      simp only [payouts, List.map_cons, List.map_nil, List.mem_cons, List.not_mem_nil, or_false] at htx
      rcases htx with rfl | rfl
      · exact Ne.symm h3
      · exact Ne.symm h6
    simp only [threeOffers, List.forall_mem_cons]
    exact ⟨hfresh first (by simp) 0, hfresh second (by simp) 0, hrivalFresh, by simp⟩
  · simp only [List.map_cons, List.map_nil, List.forall_mem_cons]
    refine ⟨⟨Ne.symm h1, ?_, ?_⟩, ⟨Ne.symm h2, ?_, ?_⟩, by simp⟩ <;> simp only [threeOffers, List.forall_mem_cons]
    · exact ⟨Ne.symm h1, Ne.symm h4, Ne.symm h4, by simp⟩
    · exact ⟨fun _ => trivial, fun h => absurd h h7, fun h => absurd h h8, by simp⟩
    · exact ⟨Ne.symm h2, Ne.symm h5, Ne.symm h5, by simp⟩
    · exact ⟨fun h => absurd h.symm h7, fun _ => trivial, fun h => absurd h h9, by simp⟩

end

end Braidpool.Uhpo
