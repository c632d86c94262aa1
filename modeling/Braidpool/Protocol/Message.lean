import Braidpool.Runtime.Panic
import Mathlib.Order.Basic
import Mathlib.Tactic.NormNum

/-! The protocol messages, their replies and their bytes on the wire. The
flexbuffers crate is a parameter; what serde derives for a message is not. -/
namespace Braidpool.Protocol
open Braidpool.Runtime

abbrev Bytes := List UInt8

structure SocketAddrV4 where
  octets : UInt8 × UInt8 × UInt8 × UInt8
  port : UInt16
  deriving DecidableEq

instance : ToString SocketAddrV4 where
  toString
    | ⟨(a, b, c, d), port⟩ => ".".intercalate [toString a, toString b, toString c, toString d] ++ ":" ++ toString port

/-- A system time as the seconds and nanoseconds around the Unix epoch. -/
structure SystemTime where
  secs : Int
  nanos : Nat
  secs_range : -2 ^ 63 ≤ secs ∧ secs < 2 ^ 63
  nanos_lt : nanos < 1000000000
  deriving DecidableEq

namespace SystemTime

def unixEpoch : SystemTime := ⟨0, 0, by decide, by decide⟩

/-- The nanoseconds since the epoch, by which times are ordered. -/
def sinceEpoch (t : SystemTime) : Int := t.secs * 1000000000 + t.nanos

instance : Preorder SystemTime where
  le a b := a.sinceEpoch ≤ b.sinceEpoch
  lt a b := a.sinceEpoch < b.sinceEpoch
  le_refl _ := Int.le_refl _
  le_trans _ _ _ := Int.le_trans
  lt_iff_le_not_ge _ _ := Int.lt_iff_le_and_not_ge

instance : DecidableLE SystemTime := fun a b => inferInstanceAs (Decidable (a.sinceEpoch ≤ b.sinceEpoch))

instance : DecidableLT SystemTime := fun a b => inferInstanceAs (Decidable (a.sinceEpoch < b.sinceEpoch))

end SystemTime

structure PingMessage where
  message : String
  deriving DecidableEq

structure HandshakeMessage where
  message : String
  version : String
  deriving DecidableEq

/-- The field `sender` is `from` in the source. -/
structure HeartbeatMessage where
  sender : String
  time : SystemTime
  deriving DecidableEq

inductive Message where
  | ping (m : PingMessage)
  | handshake (m : HandshakeMessage)
  | heartbeat (m : HeartbeatMessage)
  deriving DecidableEq

section
variable {SocketAddr : Type}

def PingMessage.start (_ : SocketAddr) : Option Message := some (.ping ⟨"ping"⟩)

def HandshakeMessage.start (_ : SocketAddr) : Option Message := some (.handshake ⟨"helo", "0.1.0"⟩)

def HeartbeatMessage.start [ToString SocketAddr] (addr : SocketAddr) (now : SystemTime) : Option Message :=
  some (.heartbeat ⟨toString addr, now⟩)

end

def PingMessage.responseForReceived (m : PingMessage) : Except String (Option Message) :=
  if m.message = "ping" then .ok (some (.ping ⟨"pong"⟩)) else .ok none

def HandshakeMessage.responseForReceived (m : HandshakeMessage) : Except String (Option Message) :=
  if m.message = "helo" ∧ m.version = "0.1.0" then .ok (some (.handshake ⟨"oleh", "0.1.0"⟩))
  else if m.message = "oleh" ∧ m.version = "0.1.0" then .ok none
  else .error "Bad message"

def HeartbeatMessage.responseForReceived (_ : HeartbeatMessage) : Except String (Option Message) := .ok none

/-- The value of a field, as serde hands it to the serializer. -/
inductive SerdeValue where
  | string (s : String)
  | systemTime (secsSinceEpoch nanosSinceEpoch : Nat)
  deriving DecidableEq

/-- A variant of an enumeration with its named fields. -/
structure SerdeVariant where
  variant : String
  fields : List (String × SerdeValue)
  deriving DecidableEq

def SystemTime.serialize (t : SystemTime) : Except String SerdeValue :=
  if t.secs < 0 then .error "SystemTime must be later than UNIX_EPOCH"
  else .ok (.systemTime t.secs.toNat t.nanos)

/-- The flexbuffers crate: the buffer of a serialized value, and the message that a slice
holds, or an error. It is assumed that `from_slice` returns one of them on every slice, as
its type says, and never panics. -/
structure Flexbuffers where
  takeBuffer : SerdeVariant → Bytes
  fromSlice : Bytes → Except String Message

namespace Message

def serialize : Message → Except String SerdeVariant
  | .ping m => .ok ⟨"Ping", [("message", .string m.message)]⟩
  | .handshake m => .ok ⟨"Handshake", [("message", .string m.message), ("version", .string m.version)]⟩
  | .heartbeat m =>
    match m.time.serialize with
    | .ok time => .ok ⟨"Heartbeat", [("from", .string m.sender), ("time", time)]⟩
    | .error e => .error e

/-- The result of serializing is unwrapped, so a message without bytes panics. -/
def asBytes (fb : Flexbuffers) (m : Message) : MayPanic (Option Bytes) :=
  match m.serialize with
  | .ok value => .ok (some (fb.takeBuffer value))
  | .error e => .error ⟨"called `Result::unwrap()` on an `Err` value: " ++ e⟩

/-- No message is encoded as `None`. -/
theorem asBytes_eq_some {fb : Flexbuffers} {m : Message} {bytes : Option Bytes} (h : m.asBytes fb = .ok bytes) :
    ∃ b, bytes = some b := by
  unfold asBytes at h
  split at h
  · exact ⟨_, (Except.ok.inj h).symm⟩
  · cases h

def fromBytes (fb : Flexbuffers) (b : Bytes) : Except String Message := fb.fromSlice b

def responseForReceived : Message → Except String (Option Message)
  | .ping m => m.responseForReceived
  | .handshake m => m.responseForReceived
  | .heartbeat m => m.responseForReceived

/-- A reply carries no time, so it always has bytes. -/
theorem asBytes_reply (fb : Flexbuffers) {m r : Message} (h : m.responseForReceived = .ok (some r)) :
    ∃ b, r.asBytes fb = .ok (some b) := by
  cases m with
  | ping m =>
    simp only [responseForReceived, PingMessage.responseForReceived] at h
    split at h
    · obtain rfl := Option.some.inj (Except.ok.inj h)
      exact ⟨_, rfl⟩
    · cases h
  | handshake m =>
    simp only [responseForReceived, HandshakeMessage.responseForReceived] at h
    split at h
    · obtain rfl := Option.some.inj (Except.ok.inj h)
      exact ⟨_, rfl⟩
    · split at h <;> cases h
  | heartbeat m => cases h

end Message

/-- Decoding undoes encoding on every message that serializes. -/
def Flexbuffers.RoundTrip (fb : Flexbuffers) : Prop :=
  ∀ m value, m.serialize = .ok value → fb.fromSlice (fb.takeBuffer value) = .ok m

theorem Flexbuffers.RoundTrip.fromBytes_asBytes {fb : Flexbuffers} (h : fb.RoundTrip) {m : Message}
    {b : Bytes} (hb : m.asBytes fb = .ok (some b)) : Message.fromBytes fb b = .ok m := by
  unfold Message.asBytes at hb
  split at hb
  · rename_i value hv
    obtain rfl := Option.some.inj (Except.ok.inj hb)
    exact h m value hv
  · cases hb

end Braidpool.Protocol
