import Braidpool.Protocol.Codec

/-! Messages to bytes and back. A message that has no bytes is a heartbeat whose
time the wire format cannot express, and on that one `as_bytes` panics. -/
namespace Braidpool.Protocol
open Braidpool.Runtime

namespace Message

/-- A heartbeat that was sent before the Unix epoch. -/
def BeforeEpoch : Message → Prop
  | .heartbeat m => m.time.secs < 0
  | _ => False

instance : DecidablePred BeforeEpoch
  | .ping _ | .handshake _ => .isFalse id
  | .heartbeat m => inferInstanceAs (Decidable (m.time.secs < 0))

private theorem serialize_error (m : Message) : (∃ e, m.serialize = .error e) ↔ m.BeforeEpoch := by
  cases m with
  | ping m | handshake m =>
    constructor
    · rintro ⟨e, he⟩
      cases he
    · intro h
      exact h.elim
  | heartbeat m =>
    by_cases hepoch : m.time.secs < 0
    · have he : (heartbeat m).serialize = .error "SystemTime must be later than UNIX_EPOCH" := by
        simp only [serialize, SystemTime.serialize, if_pos hepoch]
      exact ⟨fun _ => hepoch, fun _ => ⟨_, he⟩⟩
    · have hok : m.time.serialize = .ok (.systemTime m.time.secs.toNat m.time.nanos) := if_neg hepoch
      constructor
      · rintro ⟨e, he⟩
        simp only [serialize, hok] at he
        cases he
      · intro h
        exact absurd h hepoch

/-- A message panics in `as_bytes` exactly when it does not serialize. -/
private theorem asBytes_returns (fb : Flexbuffers) (m : Message) :
    (∃ bytes, m.asBytes fb = .ok bytes) ↔ ¬ m.BeforeEpoch := by
  rw [← serialize_error]
  cases hm : m.serialize with
  | error e =>
    constructor
    · rintro ⟨bytes, hbytes⟩
      simp only [asBytes, hm] at hbytes
      cases hbytes
    · intro h
      exact absurd ⟨e, rfl⟩ h
  | ok value =>
    constructor
    · rintro - ⟨e, he⟩
      cases he
    · intro _
      exact ⟨_, by simp only [asBytes, hm]; rfl⟩

/-- Encoding returns, is undone by decoding, and yields nothing for a message that
does not serialize, for every message but a heartbeat from before the epoch. -/
theorem asBytes_fromBytes {fb : Flexbuffers} (hfb : fb.RoundTrip) (m : Message) :
    (∃ bytes, m.asBytes fb = .ok bytes ∧ (∀ b, bytes = some b → fromBytes fb b = .ok m) ∧
      ((∃ e, m.serialize = .error e) → bytes = none)) ↔ ¬ m.BeforeEpoch := by
  constructor
  · rintro ⟨bytes, hbytes, -⟩
    exact (asBytes_returns fb m).mp ⟨bytes, hbytes⟩
  · intro hepoch
    obtain ⟨bytes, hbytes⟩ := (asBytes_returns fb m).mpr hepoch
    refine ⟨bytes, hbytes, ?_, ?_⟩
    · intro b hb
      rw [hb] at hbytes
      exact hfb.fromBytes_asBytes hbytes
    · intro herror
      exact absurd ((serialize_error m).mp herror) hepoch

theorem asBytes_fromBytes_epoch : ∃ bytes,
    (heartbeat ⟨"127.0.0.1:6680", .unixEpoch⟩).asBytes Codec.flexbuffers = .ok bytes ∧
      ∀ b, bytes = some b → fromBytes Codec.flexbuffers b = .ok (heartbeat ⟨"127.0.0.1:6680", .unixEpoch⟩) := by
  have hmessage : ¬ (heartbeat ⟨"127.0.0.1:6680", .unixEpoch⟩).BeforeEpoch := by decide
  obtain ⟨bytes, hbytes, hround, -⟩ := (asBytes_fromBytes Codec.flexbuffers_roundTrip _).mpr hmessage
  exact ⟨bytes, hbytes, hround⟩

/-- A node whose clock is one second before the epoch cannot encode its heartbeat. -/
theorem asBytes_panics :
    ¬ ∀ m : Message, ∃ bytes, m.asBytes Codec.flexbuffers = .ok bytes ∧
      (∀ b, bytes = some b → fromBytes Codec.flexbuffers b = .ok m) ∧
      ((∃ e, m.serialize = .error e) → bytes = none) := by
  intro hall
  obtain ⟨bytes, hbytes, -⟩ := hall (.heartbeat ⟨"127.0.0.1:6680", ⟨-1, 0, by decide, by decide⟩⟩)
  cases hbytes

end Message

end Braidpool.Protocol
