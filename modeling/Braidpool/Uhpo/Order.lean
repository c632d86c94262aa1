import Braidpool.Uhpo.Ledger

/-! In which order a ledger enters the updates of a chain. -/
namespace Braidpool.Uhpo
open Braidpool.Runtime Braidpool.Ledger

variable {bitcoin : RustBitcoin} {outputKey : ScriptBuf → Option bitcoin.XOnlyPublicKey} {secp : bitcoin.Context}
  {links : List (ChainLink bitcoin)} {built : List Built} {ledger : Unspent OutPoint TxOut}

/-- The first `k` updates have been entered: their coinbases are spent, and the updates
after them are not there yet. -/
structure Entered (links : List (ChainLink bitcoin)) (built : List Built) (ledger : Unspent OutPoint TxOut) (k : Nat) :
    Prop where
  spent : ∀ i link, i < k → links[i]? = some link → ledger ⟨bitcoin.computeTxid link.coinbaseTx, 0⟩ = none
  unmade : ∀ i b, k ≤ i → built[i]? = some b → ∀ vout, ledger ⟨bitcoin.computeTxid b.transaction, vout⟩ = none

/-- No coinbase is made again, and what has the txid of an update is that update with witnesses of any kind. -/
def Known (links : List (ChainLink bitcoin)) (built : List Built) (tx : Transaction) : Prop :=
  (∀ link ∈ links, bitcoin.computeTxid tx ≠ bitcoin.computeTxid link.coinbaseTx) ∧
    ∀ b ∈ built, bitcoin.computeTxid tx = bitcoin.computeTxid b.transaction → tx.stripped = b.transaction.stripped

/-- The next update is the only one that can be entered. -/
theorem Entered.step (hlength : built.length = links.length)
    (hbuilt : ∀ i link b, links[i]? = some link → built[i]? = some b → BuiltFrom none built i link b)
    (hdistinct : DistinctTxids links built) {k : Nat} {tx : Transaction} {next : Unspent OutPoint TxOut}
    (h : Entered links built ledger k) (hknown : Known links built tx)
    (hstep : (rules outputKey secp).step ledger tx = some next) :
    ((∀ b ∈ built, bitcoin.computeTxid tx ≠ bitcoin.computeTxid b.transaction) ∧ Entered links built next k) ∨
      ∃ b, built[k]? = some b ∧ bitcoin.computeTxid tx = bitcoin.computeTxid b.transaction ∧
        Entered links built next (k + 1) := by
  obtain ⟨henters, rfl⟩ := Rules.step_eq_some.mp hstep
  have hspent : ∀ i link, i < k → links[i]? = some link →
      (rules outputKey secp).enter ledger tx ⟨bitcoin.computeTxid link.coinbaseTx, 0⟩ = none := fun i link hi hlink =>
    Rules.enter_none (h.spent i link hi hlink) (makes_eq_none (hknown.1 link (List.mem_of_getElem? hlink)).symm)
  by_cases hupdate : ∃ b ∈ built, bitcoin.computeTxid tx = bitcoin.computeTxid b.transaction
  · obtain ⟨b, hmem, htxid⟩ := hupdate
    obtain ⟨i, hget⟩ := List.mem_iff_getElem?.mp hmem
    obtain ⟨link, hlink⟩ := exists_link hlength hget
    have hspends : (rules outputKey secp).spends tx = (rules outputKey secp).spends b.transaction :=
      spends_congr (hknown.2 b hmem htxid)
    rw [(hbuilt i link b hlink hget).spends] at hspends
    have hcoinbase : ⟨bitcoin.computeTxid link.coinbaseTx, 0⟩ ∈ (rules outputKey secp).spends tx := by
      rw [hspends]
      exact List.mem_cons_self
    have hle : k ≤ i := Nat.le_of_not_lt fun hlt => henters.spent hcoinbase (h.spent i link hlt hlink)
    have hge : i ≤ k := by
      cases i with
      | zero => exact Nat.zero_le k
      | succ j =>
        by_contra hgt
        obtain ⟨c, hc⟩ : ∃ c, built[j]? = some c :=
          ⟨_, List.getElem?_eq_getElem (Nat.lt_of_succ_lt (List.getElem?_eq_some_iff.mp hget).1)⟩
        have hbefore : before none built (j + 1) = some c.transaction := congrArg (Option.map Built.transaction) hc
        refine henters.spent (p := ⟨bitcoin.computeTxid c.transaction, 0⟩) ?_ (h.unmade j c (by omega) hc 0)
        rw [hspends, hbefore]
        exact List.mem_cons_of_mem _ List.mem_cons_self
    obtain rfl := Nat.le_antisymm hle hge
    refine .inr ⟨b, hget, htxid, fun j other hlt hother => ?_, fun j c hlt hc vout => ?_⟩
    · rcases Nat.lt_succ_iff_lt_or_eq.mp hlt with hlt | rfl
      · exact hspent j other hlt hother
      · obtain rfl := Option.some.inj (hlink.symm.trans hother)
        exact Rules.enter_spent hcoinbase
    · refine Rules.enter_none (h.unmade j c (Nat.le_of_succ_le hlt) hc vout) (makes_eq_none fun hsame => ?_)
      have hj := getElem?_map_inj hdistinct.updates hget hc (htxid.symm.trans hsame.symm)
      omega
  · refine .inl ⟨fun b hmem htxid => hupdate ⟨b, hmem, htxid⟩, hspent, fun i b hi hget vout => ?_⟩
    exact Rules.enter_none (h.unmade i b hi hget vout)
      (makes_eq_none fun htxid => hupdate ⟨b, List.mem_of_getElem? hget, htxid.symm⟩)

/-- Whatever else is entered before, between and after them, and in whatever order and with
whatever witnesses they are offered, the updates of a chain are entered in the order of the
chain, none twice and none before the one it spends. -/
theorem chain_ordered (hchain : chain none links = .ok (.ok built)) (hdistinct : DistinctTxids links built)
    (hfresh : ∀ b ∈ built, ∀ vout, ledger ⟨bitcoin.computeTxid b.transaction, vout⟩ = none) {txs : List Transaction}
    (hknown : ∀ tx ∈ txs, Known links built tx) {last : Unspent OutPoint TxOut}
    (h : Machine.run (rules outputKey secp).step ledger txs = some last) :
    (txs.map bitcoin.computeTxid).filter (· ∈ built.map fun b => bitcoin.computeTxid b.transaction) <+:
      built.map fun b => bitcoin.computeTxid b.transaction := by
  obtain ⟨-, hlength, hbuilt⟩ := chain_builtFrom hchain
  have hrun : ∃ k, (txs.map bitcoin.computeTxid).filter (· ∈ built.map fun b => bitcoin.computeTxid b.transaction) =
      (built.map fun b => bitcoin.computeTxid b.transaction).take k ∧ Entered links built last k := by
    induction txs using List.reverseRecOn generalizing last with
    | nil =>
      obtain rfl := Option.some.inj h
      exact ⟨0, rfl, fun i link hi => absurd hi (Nat.not_lt_zero i),
        fun i b _ hget vout => hfresh b (List.mem_of_getElem? hget) vout⟩
    | append_singleton txs tx ih =>
      obtain ⟨before, hbefore, hstep⟩ := Machine.run_concat.mp h
      obtain ⟨k, hfilter, hentered⟩ := ih (fun other hin => hknown other (List.mem_append_left _ hin)) hbefore
      rw [List.map_append, List.filter_append, hfilter, List.map_singleton]
      rcases hentered.step hlength hbuilt hdistinct (hknown tx (List.mem_append_right _ List.mem_cons_self)) hstep with
        ⟨hother, hnext⟩ | ⟨b, hget, htxid, hnext⟩
      · refine ⟨k, ?_, hnext⟩
        rw [List.filter_cons_of_neg, List.filter_nil, List.append_nil]
        simpa using fun b hmem => (hother b hmem).symm
      · refine ⟨k + 1, ?_, hnext⟩
        rw [List.take_add_one, List.getElem?_map, hget, htxid, List.filter_cons_of_pos]
        · rfl
        · exact decide_eq_true (List.mem_map_of_mem (List.mem_of_getElem? hget))
  obtain ⟨k, hfilter, -⟩ := hrun
  rw [hfilter]
  exact List.take_prefix k _

theorem chain_ordered_twoUpdates : ∃ built last, chain none payouts = .ok (.ok built) ∧
    Machine.run (rules lockedTo ()).step coinbaseLedger (built.map Built.transaction) = some last ∧
    ((built.map Built.transaction).map Digest.bitcoin.computeTxid).filter
        (· ∈ built.map fun b => Digest.bitcoin.computeTxid b.transaction) <+:
      built.map fun b => Digest.bitcoin.computeTxid b.transaction := by
  obtain ⟨built, hchain, hdistinct, hsigned, hcoinbases, hfresh⟩ := exists_signed_payouts
  obtain ⟨-, hlength, hbuilt⟩ := chain_builtFrom hchain
  obtain ⟨last, hrun, -⟩ :=
    run_built Digest.sighashIgnoresWitness hlength hbuilt hdistinct hsigned hcoinbases hfresh
  refine ⟨built, last, hchain, hrun, chain_ordered hchain hdistinct hfresh (fun tx htx => ?_) hrun⟩
  obtain ⟨b, hb, rfl⟩ := List.mem_map.mp htx
  refine ⟨fun link hlink => (hdistinct.apart link hlink b hb).symm, fun c hc htxid => ?_⟩
  obtain ⟨i, hi⟩ := List.mem_iff_getElem?.mp hb
  obtain ⟨j, hj⟩ := List.mem_iff_getElem?.mp hc
  obtain rfl := getElem?_map_inj hdistinct.updates hi hj htxid
  rw [Option.some.inj (hi.symm.trans hj)]

end Braidpool.Uhpo
