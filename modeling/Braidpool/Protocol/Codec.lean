import Braidpool.Protocol.Message

/-! A plain codec for the serialized messages. It stands in for flexbuffers where
a concrete crate is needed, and shows that its assumed round trip can be met. -/
namespace Braidpool.Protocol.Codec
open Braidpool.Runtime

/-- The last `n` base-256 digits of a number, least significant first. -/
def digits : Nat → Nat → Bytes
  | 0, _ => []
  | n + 1, k => UInt8.ofNat (k % 256) :: digits n (k / 256)

def number : Bytes → Nat
  | [] => 0
  | b :: bs => b.toNat + 256 * number bs

def encodeChars : List Char → Bytes
  | [] => [0]
  | c :: cs => 1 :: digits 3 c.toNat ++ encodeChars cs

/-- The characters up to the closing mark, and what follows it. -/
def decodeChars : Bytes → Option (List Char × Bytes)
  | 0 :: rest => some ([], rest)
  | 1 :: x :: y :: z :: rest =>
    (decodeChars rest).map fun (cs, rest) => (Char.ofNat (number [x, y, z]) :: cs, rest)
  | _ => none

def encodeValue : SerdeValue → Bytes
  | .string s => encodeChars s.toList
  | .systemTime secs nanos => digits 8 secs ++ digits 4 nanos

def takeBuffer (v : SerdeVariant) : Bytes :=
  encodeChars v.variant.toList ++ v.fields.flatMap fun field => encodeValue field.2

def decodeString (b : Bytes) : Except String (String × Bytes) :=
  match decodeChars b with
  | some (cs, rest) => .ok (String.ofList cs, rest)
  | none => .error "string expected"

def decodeTime (b : Bytes) : Except String SystemTime :=
  if h : number (b.take 8) < 2 ^ 63 ∧ number (b.drop 8) < 1000000000 then
    .ok ⟨number (b.take 8), number (b.drop 8), by omega, h.2⟩
  else .error "system time expected"

def fromSlice (b : Bytes) : Except String Message :=
  match decodeString b with
  | .error e => .error e
  | .ok (variant, rest) =>
    match decodeString rest with
    | .error e => .error e
    | .ok (first, rest) =>
      if variant = "Ping" then .ok (.ping ⟨first⟩)
      else if variant = "Handshake" then
        match decodeString rest with
        | .error e => .error e
        | .ok (version, _) => .ok (.handshake ⟨first, version⟩)
      else if variant = "Heartbeat" then
        match decodeTime rest with
        | .error e => .error e
        | .ok time => .ok (.heartbeat ⟨first, time⟩)
      else .error "unknown variant"

def flexbuffers : Flexbuffers := ⟨takeBuffer, fromSlice⟩

private theorem number_digits (n k : Nat) (h : k < 256 ^ n) : number (digits n k) = k := by
  induction n generalizing k with
  | zero =>
    have : k = 0 := by simpa using h
    simp [digits, number, this]
  | succ n ih =>
    have hk : k / 256 < 256 ^ n := by
      rw [Nat.div_lt_iff_lt_mul (by decide)]
      rwa [Nat.pow_succ] at h
    rw [digits, number, ih _ hk, UInt8.toNat_ofNat']
    omega

private theorem length_digits (n k : Nat) : (digits n k).length = n := by
  induction n generalizing k with
  | zero => rfl
  | succ n ih => simp [digits, ih]

private theorem decodeChars_encodeChars (cs : List Char) (rest : Bytes) :
    decodeChars (encodeChars cs ++ rest) = some (cs, rest) := by
  induction cs with
  | nil => rfl
  | cons c cs ih =>
    have hc : c.toNat < 256 ^ 3 := by
      have := c.valid
      rcases this with h | ⟨_, h⟩ <;> simp only [Char.toNat] <;> omega
    have hn := number_digits 3 c.toNat hc
    simp only [digits] at hn
    simp only [encodeChars, digits, List.cons_append, List.nil_append, decodeChars, ih, hn,
      Option.map_some, Char.ofNat_toNat]

private theorem decodeString_encodeChars (s : String) (rest : Bytes) :
    decodeString (encodeChars s.toList ++ rest) = .ok (s, rest) := by
  simp [decodeString, decodeChars_encodeChars]

private theorem decodeTime_encodeValue {t : SystemTime} {value : SerdeValue} (h : t.serialize = .ok value) :
    decodeTime (encodeValue value) = .ok t := by
  obtain ⟨secs, nanos, hsecs, hnanos⟩ := t
  unfold SystemTime.serialize at h
  split at h
  · cases h
  · rename_i hneg
    obtain rfl := Except.ok.inj h
    have hs : number (digits 8 secs.toNat) = secs.toNat := number_digits 8 _ (by simp only at hneg; omega)
    have hn : number (digits 4 nanos) = nanos := number_digits 4 _ (by omega)
    have htake : (digits 8 secs.toNat ++ digits 4 nanos).take 8 = digits 8 secs.toNat := by
      rw [List.take_append_of_le_length (by rw [length_digits]), List.take_of_length_le (by rw [length_digits])]
    have hdrop : (digits 8 secs.toNat ++ digits 4 nanos).drop 8 = digits 4 nanos := by
      rw [List.drop_append_of_le_length (by rw [length_digits]), List.drop_of_length_le (by rw [length_digits]),
        List.nil_append]
    have hsecs' : ((secs.toNat : Nat) : Int) = secs := by simp only at hneg; omega
    simp only [decodeTime, encodeValue, htake, hdrop, hs, hn, hsecs']
    rw [dif_pos ⟨by omega, hnanos⟩]

private theorem takeBuffer_eq (variant name first : String) (fields : List (String × SerdeValue)) :
    takeBuffer ⟨variant, (name, .string first) :: fields⟩ =
      encodeChars variant.toList ++
        (encodeChars first.toList ++ fields.flatMap fun field => encodeValue field.2) := rfl

/-- Decoding undoes encoding on every message that serializes. -/
theorem flexbuffers_roundTrip : flexbuffers.RoundTrip := by
  intro m value h
  change fromSlice (takeBuffer value) = .ok m
  cases m with
  | ping m =>
    obtain rfl := Except.ok.inj h
    simp only [takeBuffer_eq, fromSlice, decodeString_encodeChars]
    rfl
  | handshake m =>
    obtain rfl := Except.ok.inj h
    simp only [takeBuffer_eq, fromSlice, decodeString_encodeChars, List.flatMap_cons, encodeValue]
    rfl
  | heartbeat m =>
    unfold Message.serialize at h
    simp only at h
    split at h
    · rename_i time ht
      obtain rfl := Except.ok.inj h
      simp only [takeBuffer_eq, fromSlice, decodeString_encodeChars, List.flatMap_cons,
        List.flatMap_nil, List.append_nil, decodeTime_encodeValue ht]
      rfl
    · cases h

end Braidpool.Protocol.Codec
