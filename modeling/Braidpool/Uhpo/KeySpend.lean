import Braidpool.Runtime.Machine
import Braidpool.Uhpo.Outcome
import Braidpool.Uhpo.Witnesses

/-! Repeated signing. A key path spend has one witness element, and every call that
succeeds appends one. -/
namespace Braidpool.Uhpo
open Braidpool.Runtime

namespace PayoutUpdate
variable {bitcoin : RustBitcoin}

/-- A call as a step of the update, whatever it returns. -/
def signStep (self : PayoutUpdate) (call : SignCall bitcoin) : Option PayoutUpdate :=
  (self.perform call).toOption.map Prod.fst

def successes (self : PayoutUpdate) (calls : List (SignCall bitcoin)) : List Nat :=
  (self.succeeded calls).map SignCall.inputIdx

/-- If the tweak is accepted and the signature verifies, the input has no element yet. -/
def SignsUnsigned (self : PayoutUpdate) (call : SignCall bitcoin) : Prop :=
  (∃ element, call.element self = .ok element) → self.transaction.witnesses call.inputIdx = []

/-- No input has more than one witness element, and each input that a call has
succeeded for has one. -/
def KeySpent (self : PayoutUpdate) (calls : List (SignCall bitcoin)) (last : PayoutUpdate) : Prop :=
  ∀ i txin, last.build.input[i]? = some txin →
    txin.witness.length ≤ 1 ∧ (i ∈ self.successes calls → txin.witness.length = 1)

private theorem perform_cases (self : PayoutUpdate) (call : SignCall bitcoin) :
    (∃ e, call.element self = .error e ∧ self.perform call = .ok (self, .error e)) ∨
    ∃ element next, call.element self = .ok element ∧ self.perform call = .ok (next, .ok ()) ∧
      ∀ i, (next.transaction.witnesses i).length =
        (self.transaction.witnesses i).length + if call.inputIdx = i then 1 else 0 := by
  obtain ⟨next, hperform, hnext⟩ := self.perform_eq call
  cases helement : call.element self with
  | error e =>
    rw [helement, hnext.unchanged helement] at hperform
    exact .inl ⟨e, rfl, hperform⟩
  | ok element =>
    rw [helement] at hperform
    refine .inr ⟨element, next, rfl, hperform, ?_⟩
    intro i
    rw [hnext.witnesses, Log.append, SignCall.pushed, helement]
    by_cases hi : call.inputIdx = i
    · subst hi
      simp [Except.toOption]
    · rw [Function.update_of_ne (Ne.symm hi), if_neg hi, Nat.add_zero]

private theorem successes_error {self next : PayoutUpdate} {call : SignCall bitcoin} {e : UhpoError bitcoin}
    (h : self.perform call = .ok (next, .error e)) (calls : List (SignCall bitcoin)) :
    self.successes (call :: calls) = next.successes calls := by
  rw [successes, succeeded, h]
  rfl

private theorem successes_ok {self next : PayoutUpdate} {call : SignCall bitcoin}
    (h : self.perform call = .ok (next, .ok ())) (calls : List (SignCall bitcoin)) :
    self.successes (call :: calls) = call.inputIdx :: next.successes calls := by
  rw [successes, succeeded, h]
  rfl

theorem length_witnesses {self last : PayoutUpdate} {calls : List (SignCall bitcoin)}
    (h : self.signAll calls = .ok last) (i : Nat) :
    (last.transaction.witnesses i).length =
      (self.transaction.witnesses i).length + (self.successes calls).count i := by
  induction calls generalizing self with
  | nil =>
    cases h
    rfl
  | cons call calls ih =>
    obtain ⟨⟨next, result⟩, hresult, hlast⟩ := bind_eq_ok.mp h
    rcases self.perform_cases call with ⟨e, -, hperform⟩ | ⟨element, next', -, hperform, hlength⟩
    · obtain ⟨rfl, rfl⟩ := Prod.mk.inj (Except.ok.inj (hperform.symm.trans hresult))
      rw [ih hlast, successes_error hperform]
    · obtain ⟨rfl, rfl⟩ := Prod.mk.inj (Except.ok.inj (hperform.symm.trans hresult))
      rw [ih hlast, hlength, successes_ok hperform, List.count_cons]
      simp only [beq_iff_eq]
      omega

private theorem guarded_iff_count (self : PayoutUpdate) (calls : List (SignCall bitcoin)) :
    Machine.Guarded signStep SignsUnsigned self calls ↔
      ∀ i ∈ self.successes calls, (self.transaction.witnesses i).length + (self.successes calls).count i ≤ 1 := by
  induction calls generalizing self with
  | nil =>
    constructor
    · intro _ i hi
      cases hi
    · intro _
      trivial
  | cons call calls ih =>
    rcases self.perform_cases call with ⟨e, helement, hperform⟩ | ⟨element, next, helement, hperform, hlength⟩
    · have hguard : SignsUnsigned self call := by
        rintro ⟨element, hok⟩
        rw [helement] at hok
        cases hok
      have hstep : signStep self call = some self := by
        rw [signStep, hperform]
        rfl
      rw [successes_error hperform, ← ih self, Machine.Guarded]
      constructor
      · rintro ⟨-, hrest⟩
        exact hrest self hstep
      · intro hrest
        refine ⟨hguard, fun t ht => ?_⟩
        rw [hstep] at ht
        cases ht
        exact hrest
    · have hstep : signStep self call = some next := by
        rw [signStep, hperform]
        rfl
      have hidx := hlength call.inputIdx
      rw [if_pos rfl] at hidx
      rw [successes_ok hperform, Machine.Guarded]
      constructor
      · rintro ⟨hunsigned, hrest⟩ i hi
        have hzero := List.length_eq_zero_iff.mpr (hunsigned ⟨element, helement⟩)
        have hcount := (ih next).mp (hrest next hstep) i
        rw [hlength i] at hcount
        rw [List.count_cons]
        simp only [beq_iff_eq]
        by_cases hmem : i ∈ next.successes calls
        · have := hcount hmem
          omega
        · obtain rfl := (List.mem_cons.mp hi).resolve_right hmem
          rw [List.count_eq_zero_of_not_mem hmem, if_pos rfl]
          omega
      · intro hcount
        constructor
        · intro _
          have hle := hcount call.inputIdx List.mem_cons_self
          rw [List.count_cons_self] at hle
          exact List.length_eq_zero_iff.mp (by omega)
        · intro t ht
          rw [hstep] at ht
          cases ht
          refine (ih next).mpr fun i hi => ?_
          have hle := hcount i (List.mem_cons_of_mem _ hi)
          rw [List.count_cons] at hle
          simp only [beq_iff_eq] at hle
          rw [hlength i]
          omega

private theorem witness_eq {self : PayoutUpdate} {i : Nat} {txin : TxIn} (h : self.build.input[i]? = some txin) :
    self.transaction.witnesses i = txin.witness := by
  rw [Transaction.witnesses, ← build, h]
  rfl

/-- Signing keeps every witness in the shape of a key path spend if and only if no
call that signs is made for an input that has been signed before. -/
theorem signAll_keySpent {prevUpdateTx : Option Transaction} {coinbaseTx : Transaction}
    {nextOutAddress : bitcoin.Address} {projectedFee : Amount} {update last : PayoutUpdate}
    (hnew : new bitcoin prevUpdateTx coinbaseTx nextOutAddress projectedFee = .ok (.ok update))
    {calls : List (SignCall bitcoin)} (hlast : update.signAll calls = .ok last) :
    KeySpent update calls last ↔ Machine.Guarded signStep SignsUnsigned update calls := by
  have hcreated := created_of_new hnew
  have hlength (i : Nat) : (last.transaction.witnesses i).length = (update.successes calls).count i := by
    rw [length_witnesses hlast, hcreated.witnesses_eq, List.length_nil, Nat.zero_add]
  rw [guarded_iff_count]
  constructor
  · intro hspent i hi
    have hpos := List.count_pos_iff.mpr hi
    rw [hcreated.witnesses_eq, List.length_nil, Nat.zero_add]
    cases hinput : last.build.input[i]? with
    | none =>
      have hnone := hlength i
      rw [Transaction.witnesses, ← build, hinput, Option.elim_none, List.length_nil] at hnone
      omega
    | some txin =>
      rw [← hlength i, witness_eq hinput]
      exact (hspent i txin hinput).1
  · intro hcount i txin hinput
    rw [← witness_eq hinput, hlength i]
    by_cases hi : i ∈ update.successes calls
    · have hle := hcount i hi
      rw [hcreated.witnesses_eq, List.length_nil, Nat.zero_add] at hle
      have hpos := List.count_pos_iff.mpr hi
      exact ⟨hle, fun _ => by omega⟩
    · rw [List.count_eq_zero_of_not_mem hi]
      exact ⟨Nat.zero_le 1, fun hmem => absurd hmem hi⟩

section
open Digest

private def firstSuccesses (calls : List (SignCall Digest.bitcoin)) : Option (List Nat) :=
  ((new Digest.bitcoin none (payment 5000) ([0x51] : ScriptBuf) ⟨10⟩).toOption.bind Except.toOption).map
    (·.successes calls)

private theorem successes_of_first (calls : List (SignCall Digest.bitcoin)) (inputs : List Nat)
    (h : firstSuccesses calls = some inputs) : ∃ update last,
      new Digest.bitcoin none (payment 5000) ([0x51] : ScriptBuf) ⟨10⟩ = .ok (.ok update) ∧
        update.signAll calls = .ok last ∧ update.successes calls = inputs := by
  obtain ⟨update, hnew, hsuccesses⟩ := Option.map_eq_some_iff.mp h
  obtain ⟨result, hresult, hupdate⟩ := Option.bind_eq_some_iff.mp hnew
  obtain ⟨last, hlast, -⟩ := update.signAll_eq calls
  exact ⟨update, last, (toOption_eq_some.mp hresult).trans (congrArg Except.ok (toOption_eq_some.mp hupdate)),
    hlast, hsuccesses⟩

/-- The coinbase is signed after a call that had no previous update to sign. -/
theorem keySpent_retry : ∃ update last,
    new Digest.bitcoin none (payment 5000) ([0x51] : ScriptBuf) ⟨10⟩ = .ok (.ok update) ∧
      update.signAll [signCall .addPrevUpdateSig 12 none, signCall .addCoinbaseSig 11 none] = .ok last ∧
      KeySpent update [signCall .addPrevUpdateSig 12 none, signCall .addCoinbaseSig 11 none] last := by
  obtain ⟨update, last, hnew, hlast, hsuccesses⟩ := successes_of_first
    [signCall .addPrevUpdateSig 12 none, signCall .addCoinbaseSig 11 none] [0]
    (by decide +kernel)
  have hcreated := created_of_new hnew
  refine ⟨update, last, hnew, hlast, (signAll_keySpent hnew hlast).mpr ((guarded_iff_count _ _).mpr ?_)⟩
  rw [hsuccesses]
  intro i hi
  rw [hcreated.witnesses_eq, List.length_nil, Nat.zero_add]
  exact List.count_le_length (l := [0])

/-- The coinbase input is signed twice, and its witness has two elements. -/
theorem keySpent_signedTwice :
    ¬ ∀ (prevUpdateTx : Option Transaction) (coinbaseTx : Transaction) (nextOutAddress : ScriptBuf)
      (projectedFee : Amount) (update last : PayoutUpdate) (calls : List (SignCall Digest.bitcoin)),
      new Digest.bitcoin prevUpdateTx coinbaseTx nextOutAddress projectedFee = .ok (.ok update) →
        update.signAll calls = .ok last → KeySpent update calls last := by
  intro hall
  obtain ⟨update, last, hnew, hlast, hsuccesses⟩ := successes_of_first
    [signCall .addCoinbaseSig 11 none, signCall .addCoinbaseSig 11 none] [0, 0]
    (by decide +kernel)
  have hlength := length_witnesses hlast 0
  rw [hsuccesses] at hlength
  cases hinput : last.build.input[0]? with
  | none =>
    rw [Transaction.witnesses, ← build, hinput, Option.elim_none] at hlength
    simp at hlength
  | some txin =>
    have hspent := (hall _ _ _ _ update last _ hnew hlast 0 txin hinput).1
    rw [witness_eq hinput] at hlength
    simp at hlength
    omega

end

end PayoutUpdate

end Braidpool.Uhpo
