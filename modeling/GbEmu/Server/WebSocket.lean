import GbEmu.Gpu
import GbEmu.Lib.Codec
import GbEmu.Server

/-!
The frames of `send`, and a client that takes them apart. The header has the length in its
last three bytes, so it says too little for a payload of 16 MiB, and a client does not take
the eight bytes of it for a payload that two bytes could say.
-/

namespace GbEmu

/-- `GB::RGB` as it lies in memory. -/
def RGB.bytes (c : RGB) : List UInt8 := [c.red, c.green, c.blue, c.alpha]

/-- The payload as a byte stream. -/
def image (payload : List RGB) : List UInt8 := payload.flatMap RGB.bytes

theorem length_image (payload : List RGB) : (image payload).length = 4 * payload.length := by
  induction payload with
  | nil => rfl
  | cons c payload ih =>
    rw [image, List.flatMap_cons, List.length_append, ← image, ih, List.length_cons]
    show 4 + 4 * payload.length = _
    omega

namespace GameServer

/-- `header[2]` to `header[9]`. -/
def lengthField (length : UInt32) : List UInt8 :=
  [0x00, 0x00, 0x00, 0x00, 0x00, ((length >>> 16) &&& 0xFF).toUInt8,
    ((length >>> 8) &&& 0xFF).toUInt8, (length &&& 0xFF).toUInt8]

/-- What `send` writes. -/
def send (payload : List RGB) : List UInt8 :=
  let length := UInt32.ofNat (payload.length * 4)
  0x82 :: 0x7F :: (lengthField length ++ (image payload).take length.toNat)

/-! ## The client -/

/-- Bytes of a number, the highest first. -/
def number (bytes : List UInt8) : Nat := bytes.foldl (fun n b => 0x100 * n + b.toNat) 0

def takeField (n : Nat) (stream : List UInt8) : Option (List UInt8 × List UInt8) :=
  if n ≤ stream.length then some (stream.take n, stream.drop n) else none

/-- A payload behind its length in so many bytes, if fewer could not say it. -/
def takePayload (n least : Nat) (stream : List UInt8) : Option (List UInt8 × List UInt8) :=
  match takeField n stream with
  | none => none
  | some (bytes, rest) => if least ≤ number bytes then takeField (number bytes) rest else none

/-- The message at the front of a stream: a final binary frame without a mask. -/
def readMessage : List UInt8 → Option (List UInt8 × List UInt8)
  | opcode :: size :: stream =>
    if opcode ≠ 0x82 then none
    else if size < 0x7E then takeField size.toNat stream
    else if size = 0x7E then takePayload 2 0x7E stream
    else if size = 0x7F then takePayload 8 0x10000 stream
    else none
  | _ => none

theorem takeField_append {bytes : List UInt8} {n : Nat} (h : bytes.length = n)
    (rest : List UInt8) : takeField n (bytes ++ rest) = some (bytes, rest) := by
  rw [takeField, if_pos (by rw [List.length_append]; omega), List.take_left' h, List.drop_left' h]

theorem readMessage_long (stream : List UInt8) :
    readMessage (0x82 :: 0x7F :: stream) = takePayload 8 0x10000 stream := rfl

/-! ## The header -/

theorem toNat_byte (length : UInt32) : (length &&& 0xFF).toUInt8.toNat = length.toNat % 0x100 := by
  have hmask : (0xFF : UInt32).toNat = 2 ^ 8 - 1 := rfl
  rw [UInt32.toNat_toUInt8, UInt32.toNat_and, hmask, Nat.and_two_pow_sub_one_eq_mod]
  omega

/-- Three bytes of the length are left. -/
theorem number_lengthField (length : UInt32) :
    number (lengthField length) = length.toNat % 0x1000000 := by
  have hhigh : (length >>> 16).toNat = length.toNat / 0x10000 := Nat.shiftRight_eq_div_pow _ 16
  have hmiddle : (length >>> 8).toNat = length.toNat / 0x100 := Nat.shiftRight_eq_div_pow _ 8
  simp only [number, lengthField, List.foldl_cons, List.foldl_nil, toNat_byte, hhigh, hmiddle]
  have hzero : (0x00 : UInt8).toNat = 0 := rfl
  omega

theorem readMessage_send (payload : List RGB) (rest : List UInt8) :
    readMessage (send payload ++ rest) =
      let length := UInt32.ofNat (payload.length * 4)
      if 0x10000 ≤ length.toNat % 0x1000000 then
        takeField (length.toNat % 0x1000000) ((image payload).take length.toNat ++ rest)
      else none := by
  have hfield : (lengthField (UInt32.ofNat (payload.length * 4))).length = 8 := rfl
  rw [send, List.cons_append, List.cons_append, readMessage_long, List.append_assoc, takePayload,
    takeField_append hfield]
  simp only [number_lengthField]

theorem length_takeField {n : Nat} {stream bytes rest : List UInt8}
    (h : takeField n stream = some (bytes, rest)) : bytes.length = n := by
  unfold takeField at h
  split_ifs at h with hn
  obtain ⟨rfl, -⟩ := Prod.mk.inj (Option.some.inj h)
  exact List.length_take_of_le hn

/-- The payloads that a client gets back. -/
def Sendable (payload : List RGB) : Prop :=
  0x10000 ≤ 4 * payload.length ∧ 4 * payload.length < 0x1000000

/-- A client gets the payload back, whatever follows it, exactly if its length is too great
for two bytes and fits in three. -/
theorem readMessage_send_iff (payload : List RGB) :
    (∀ rest, readMessage (send payload ++ rest) = some (image payload, rest)) ↔
      Sendable payload := by
  have hlength : (UInt32.ofNat (payload.length * 4)).toNat =
      payload.length * 4 % 0x100000000 := UInt32.toNat_ofNat'
  constructor
  · intro h
    have hread := h []
    rw [readMessage_send] at hread
    simp only [hlength] at hread
    split_ifs at hread with hleast
    have himage := length_takeField hread
    rw [length_image] at himage
    exact ⟨by omega, by omega⟩
  · rintro ⟨hleast, hmost⟩ rest
    have hmod : payload.length * 4 % 0x100000000 % 0x1000000 = (image payload).length := by
      rw [length_image]
      omega
    have htake : payload.length * 4 % 0x100000000 = (image payload).length := by
      rw [length_image]
      omega
    rw [readMessage_send]
    simp only [hlength, hmod]
    rw [htake, List.take_length, if_pos (by rw [length_image]; omega), takeField_append rfl]

/-! ## Parts of a stream -/

section Stable

variable {n least : Nat} {stream bytes rest : List UInt8}

theorem takeField_stable (h : takeField n stream = some (bytes, rest)) (more : List UInt8) :
    takeField n (stream ++ more) = some (bytes, rest ++ more) := by
  unfold takeField at h
  split_ifs at h with hn
  obtain ⟨rfl, rfl⟩ := Prod.mk.inj (Option.some.inj h)
  rw [takeField, if_pos (by rw [List.length_append]; omega), List.take_append_of_le_length hn,
    List.drop_append_of_le_length hn]

theorem takePayload_stable (h : takePayload n least stream = some (bytes, rest))
    (more : List UInt8) : takePayload n least (stream ++ more) = some (bytes, rest ++ more) := by
  unfold takePayload at h ⊢
  cases hfield : takeField n stream with
  | none =>
    rw [hfield] at h
    cases h
  | some field =>
    simp only [hfield] at h
    split_ifs at h with hleast
    rw [takeField_stable hfield]
    simp only [if_pos hleast]
    exact takeField_stable h more

theorem readMessage_stable (h : readMessage stream = some (bytes, rest)) (more : List UInt8) :
    readMessage (stream ++ more) = some (bytes, rest ++ more) := by
  rcases stream with _ | ⟨opcode, _ | ⟨size, stream⟩⟩
  · cases h
  · cases h
  · simp only [List.cons_append, readMessage] at h ⊢
    split_ifs at h ⊢
    · exact takeField_stable h more
    · exact takePayload_stable h more
    · exact takePayload_stable h more

end Stable

/-- The frames of a stream are the payloads, one behind the other. -/
theorem delimits_send : Codec.Delimits readMessage send image Sendable where
  empty := rfl
  whole := by
    intro payload h
    have hread := (readMessage_send_iff payload).mpr h []
    rw [List.append_nil] at hread
    exact hread
  stable := fun _ _ _ h => readMessage_stable h

end GameServer

end GbEmu
