import Braidpool.Uhpo.Signing

/-! What one signing call returns, and what it leaves of the update. -/
namespace Braidpool.Uhpo
open Braidpool.Runtime

variable {bitcoin : RustBitcoin}

/-- The errors of a call: there is no previous update, the tweak is refused, or the
signature does not verify. The sighash has an output for every input. -/
theorem SignCall.element_error (hb : bitcoin.SighashChecksPrevouts) {self : PayoutUpdate} {call : SignCall bitcoin}
    {e : UhpoError bitcoin} (h : call.element self = .error e) :
    (e = .noPrevUpdateTxOut ∧ call.method = .addPrevUpdateSig ∧ self.prevUpdateTxout = none) ∨
      (∃ d, e = .keypairCreationError d) ∨ ∃ d, e = .signatureVerificationError d := by
  unfold SignCall.element at h
  split at h
  · rename_i hmethod hprev
    exact .inl ⟨(Except.error.inj h).symm, hmethod, hprev⟩
  · apply Or.inr
    rcases bind_eq_error.mp h with hkeypair | ⟨keypair, -, h⟩
    · unfold tweakedKeypair at hkeypair
      cases htweak : call.tweak with
      | none =>
        rw [htweak] at hkeypair
        cases hkeypair
      | some tweak =>
        rw [htweak] at hkeypair
        obtain ⟨d, -, he⟩ := mapError_eq_error.mp hkeypair
        exact .inl ⟨d, he.symm⟩
    · rcases bind_eq_error.mp h with hsighash | ⟨message, -, h⟩
      · obtain ⟨d, hd, -⟩ := mapError_eq_error.mp hsighash
        exact absurd self.paired.symm ((hb _ _ _).mp ⟨d, hd⟩)
      · rcases bind_eq_error.mp h with hverify | ⟨_, -, h⟩
        · obtain ⟨d, -, he⟩ := mapError_eq_error.mp hverify
          exact .inr ⟨d, he.symm⟩
        · cases h

namespace PayoutUpdate

private theorem ext_fields {self next : PayoutUpdate} (htransaction : next.transaction = self.transaction)
    (hcoinbase : next.coinbaseTxout = self.coinbaseTxout) (hprev : next.prevUpdateTxout = self.prevUpdateTxout) :
    next = self := by
  cases self
  cases next
  cases htransaction
  cases hcoinbase
  cases hprev
  rfl

/-- A call that fails leaves the update as it was. -/
theorem Performed.unchanged {self next : PayoutUpdate} {call : SignCall bitcoin} (h : self.Performed call next)
    {e : UhpoError bitcoin} (he : call.element self = .error e) : next = self := by
  have htransaction := h.transaction
  rw [he] at htransaction
  exact ext_fields htransaction h.coinbaseTxout h.prevUpdateTxout

/-- After any calls, one more never panics. It fails for want of a previous update
exactly when there is none, or for its own keys; a failure changes nothing, and a
success one witness, by one element. -/
theorem signAll_outcome (hb : bitcoin.SighashChecksPrevouts) {prevUpdateTx : Option Transaction}
    {coinbaseTx : Transaction} {nextOutAddress : bitcoin.Address} {projectedFee : Amount} {update : PayoutUpdate}
    (hnew : new bitcoin prevUpdateTx coinbaseTx nextOutAddress projectedFee = .ok (.ok update))
    (calls : List (SignCall bitcoin)) (call : SignCall bitcoin) :
    ∃ last, update.signAll calls = .ok last ∧ ∃ next result, last.perform call = .ok (next, result) ∧
      (∀ e, result ≠ .error (.taprootError e)) ∧
      (result = .error .noPrevUpdateTxOut ↔ call.method = .addPrevUpdateSig ∧ prevUpdateTx = none) ∧
      (∀ e, result = .error e → next = last) ∧
      (result = .ok () → call.inputIdx < last.transaction.input.length ∧
        (∃ element, next.transaction = last.transaction.extendWitness call.inputIdx element) ∧
        next.coinbaseTxout = last.coinbaseTxout ∧ next.prevUpdateTxout = last.prevUpdateTxout) := by
  have hcreated := created_of_new hnew
  obtain ⟨last, hlast, hsame⟩ := update.signAll_eq calls
  obtain ⟨next, hperform, hnext⟩ := last.perform_eq call
  have hfirst : prevUpdateTx = none ↔ last.prevUpdateTxout = none := by
    rw [hsame.prevUpdateTxout]
    rcases hcreated.prevUpdate_cases with ⟨rfl, hstored⟩ | ⟨tx, txout, rfl, hstored, -⟩ <;> simp [hstored]
  refine ⟨last, hlast, next, _, hperform, ?_⟩
  cases helement : call.element last with
  | error e =>
    refine ⟨?_, ?_, fun _ _ => hnext.unchanged helement, fun h => (by cases h)⟩
    · intro d hd
      rcases call.element_error hb helement with ⟨rfl, -⟩ | ⟨_, rfl⟩ | ⟨_, rfl⟩ <;> cases hd
    · constructor
      · intro hnone
        rcases call.element_error hb helement with ⟨-, hmethod, hprev⟩ | ⟨_, rfl⟩ | ⟨_, rfl⟩
        · exact ⟨hmethod, hfirst.mpr hprev⟩
        · cases hnone
        · cases hnone
      · rintro ⟨hmethod, hprev⟩
        simp only [SignCall.element, hmethod, hfirst.mp hprev] at helement
        rw [← helement]
        rfl
  | ok element =>
    have htransaction := hnext.transaction
    rw [helement] at htransaction
    refine ⟨fun d hd => (by cases hd), ?_, fun e he => (by cases he), fun _ => ⟨htransaction.1,
      ⟨element, htransaction.2⟩, hnext.coinbaseTxout, hnext.prevUpdateTxout⟩⟩
    constructor
    · intro hnone
      cases hnone
    · rintro ⟨hmethod, hprev⟩
      simp only [SignCall.element, hmethod, hfirst.mp hprev] at helement
      cases helement

section
open Digest

/-- The first update has no previous one to sign for. -/
theorem signAll_outcome_firstUpdate : ∃ update,
    new Digest.bitcoin none (payment 5000) ([0x51] : ScriptBuf) ⟨10⟩ = .ok (.ok update) ∧
      ∃ last, update.signAll [signCall .addCoinbaseSig 11 none] = .ok last ∧
        last.perform (signCall .addPrevUpdateSig 12 none) = .ok (last, .error .noPrevUpdateTxOut) := by
  obtain ⟨update, hnew⟩ : ∃ update,
      new Digest.bitcoin none (payment 5000) ([0x51] : ScriptBuf) ⟨10⟩ = .ok (.ok update) :=
    exists_new _ (List.cons_ne_nil _ _) (by simp) (by decide) (by decide)
  obtain ⟨last, hlast, next, result, hperform, -, hnone, hunchanged, -⟩ := signAll_outcome sighashChecksPrevouts hnew
    [signCall .addCoinbaseSig 11 none] (signCall .addPrevUpdateSig 12 none)
  have hresult : result = .error .noPrevUpdateTxOut := hnone.mpr ⟨rfl, rfl⟩
  rw [hunchanged _ hresult, hresult] at hperform
  exact ⟨update, hnew, last, hlast, hperform⟩

end

end PayoutUpdate

end Braidpool.Uhpo
