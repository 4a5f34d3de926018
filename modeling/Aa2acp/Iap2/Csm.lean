import Aa2acp.Iap2.Frame

/-!
# Control session messages

The message codec of `src/iap2/csm.cpp`: encoding, the parameters of a message, and
the incremental decoder with its resynchronisation.  A loop of the source over a
byte string takes its length as fuel, which no turn exhausts.
-/

namespace Aa2acp
namespace Iap2
namespace Csm

def kStart : UInt16 := 0x4040
def kStartIdentification : UInt16 := 0x1d00
def kIdentificationInformation : UInt16 := 0x1d01
def kIdentificationAccepted : UInt16 := 0x1d02
def kIdentificationRejected : UInt16 := 0x1d03
def kRequestAuthenticationCertificate : UInt16 := 0xaa00
def kAuthenticationCertificate : UInt16 := 0xaa01
def kRequestAuthenticationChallengeResponse : UInt16 := 0xaa02
def kAuthenticationResponse : UInt16 := 0xaa03
def kAuthenticationFailed : UInt16 := 0xaa04
def kAuthenticationSucceeded : UInt16 := 0xaa05

structure Message where
  id : UInt16
  payload : Bytes
deriving DecidableEq, Repr

/-! ## Encoding -/

/-- Empty when the payload does not fit a 16-bit length. -/
def encode (id : UInt16) (payload : Bytes) : Bytes :=
  if payload.length > 65535 - 6 then []
  else writeU16 kStart ++ writeU16 (UInt16.ofNat (6 + payload.length)) ++ writeU16 id ++ payload

def encodeBytesParameter (id parameterId : UInt16) (value : Bytes) : Bytes :=
  if value.length > 65535 - 10 then []
  else encode id (writeU16 (UInt16.ofNat (4 + value.length)) ++ writeU16 parameterId ++ value)

/-- The bytes of a message. -/
def Message.encode (message : Message) : Bytes := Csm.encode message.id message.payload

/-- A message whose payload fits. -/
def Message.Encodable (message : Message) : Prop := message.payload.length ≤ 65529

instance : DecidablePred Message.Encodable := fun _ => inferInstanceAs (Decidable (_ ≤ _))

/-! ## Parameters -/

/-- The loop of `first_bytes_parameter` over the parameters that are left. -/
def firstBytesParameterFrom (parameterId : UInt16) : ℕ → Bytes → Option Bytes
  | 0, _ => none
  | fuel + 1, rest =>
      if rest.length < 4 then none
      else
        let length := readU16 rest 0
        let id := readU16 rest 2
        if length < 4 ∨ length.toNat > rest.length then none
        else if id = parameterId then some ((rest.take length.toNat).drop 4)
        else firstBytesParameterFrom parameterId fuel (rest.drop length.toNat)

def firstBytesParameter (payload : Bytes) (parameterId : UInt16) : Option Bytes :=
  firstBytesParameterFrom parameterId payload.length payload

/-! ## Decoding -/

structure Decoder where
  buffer : Bytes := []
deriving DecidableEq, Repr

def kMaximumBufferSize : ℕ := 128 * 1024

namespace Decoder

/-- Bytes that would overflow the buffer are dropped, and the buffer with them. -/
def push (bytes : Bytes) (decoder : Decoder) : Decoder :=
  if bytes.length > kMaximumBufferSize - min decoder.buffer.length kMaximumBufferSize then ⟨[]⟩
  else ⟨decoder.buffer ++ bytes⟩

/-- The index of the first `40 40`, or of the last byte when there is none. -/
def findStart : Bytes → ℕ
  | first :: second :: rest =>
      if first = 0x40 ∧ second = 0x40 then 0 else findStart (second :: rest) + 1
  | _ => 0

/-- The loop of `next`. -/
def nextFrom : ℕ → Bytes → Option Message × Decoder
  | 0, buffer => (none, ⟨buffer⟩)
  | fuel + 1, buffer =>
      if buffer.length < 6 then (none, ⟨buffer⟩)
      else
        let start := findStart buffer
        if start + 1 = buffer.length then (none, ⟨buffer.drop start⟩)
        else if start ≠ 0 then nextFrom fuel (buffer.drop start)
        else
          let length := readU16 buffer 2
          if length < 6 then nextFrom fuel (buffer.drop 1)
          else if buffer.length < length.toNat then (none, ⟨buffer⟩)
          else
            (some ⟨readU16 buffer 4, (buffer.take length.toNat).drop 6⟩,
              ⟨buffer.drop length.toNat⟩)

def next (decoder : Decoder) : Option Message × Decoder :=
  nextFrom decoder.buffer.length decoder.buffer

/-- The messages that a `while (next())` loop gets out of the buffer. -/
def drainFrom : ℕ → Decoder → List Message × Decoder
  | 0, decoder => ([], decoder)
  | fuel + 1, decoder =>
      match decoder.next with
      | (none, decoder) => ([], decoder)
      | (some message, decoder) =>
          let (messages, decoder) := drainFrom fuel decoder
          (message :: messages, decoder)

def drain (decoder : Decoder) : List Message × Decoder :=
  drainFrom decoder.buffer.length decoder

end Decoder

/-! ## Encoded messages -/

theorem length_encode {message : Message} (h : message.Encodable) :
    message.encode.length = 6 + message.payload.length := by
  unfold Message.encode encode
  unfold Message.Encodable at h
  rw [if_neg (by omega)]
  simp only [List.length_append, length_writeU16]

theorem encode_eq {message : Message} (h : message.Encodable) :
    message.encode = 0x40 :: 0x40 ::
      (writeU16 (UInt16.ofNat (6 + message.payload.length)) ++
        (writeU16 message.id ++ message.payload)) := by
  unfold Message.encode encode
  unfold Message.Encodable at h
  rw [if_neg (by omega), List.append_assoc, List.append_assoc]
  rfl

theorem length_field {message : Message} (h : message.Encodable) :
    (UInt16.ofNat (6 + message.payload.length)).toNat = 6 + message.payload.length := by
  unfold Message.Encodable at h
  rw [UInt16.toNat_ofNat']
  exact Nat.mod_eq_of_lt (by omega)

/-- A turn of the loop of `next` at a length field that says the message is there. -/
theorem nextFrom_of_complete {fuel : ℕ} {buffer : Bytes} (hlong : ¬ buffer.length < 6)
    (hstart : Decoder.findStart buffer = 0) (hlength : ¬ readU16 buffer 2 < 6)
    (hcomplete : ¬ buffer.length < (readU16 buffer 2).toNat) :
    Decoder.nextFrom (fuel + 1) buffer =
      (some ⟨readU16 buffer 4, (buffer.take (readU16 buffer 2).toNat).drop 6⟩,
        ⟨buffer.drop (readU16 buffer 2).toNat⟩) := by
  unfold Decoder.nextFrom
  dsimp only
  rw [if_neg hlong, hstart, if_neg (by omega), if_neg (by simp), if_neg hlength,
    if_neg hcomplete]

/-- The decoder takes an encoded message off the front of its buffer. -/
theorem next_encode {message : Message} (h : message.Encodable) (rest : Bytes) :
    (Decoder.mk (message.encode ++ rest)).next = (some message, ⟨rest⟩) := by
  have hlengths := length_encode h
  have hfield := length_field h
  set field := UInt16.ofNat (6 + message.payload.length)
  set buffer := message.encode ++ rest with hbuffer
  have hcons : buffer = 0x40 :: 0x40 ::
      (writeU16 field ++ (writeU16 message.id ++ (message.payload ++ rest))) := by
    rw [hbuffer, encode_eq h]
    simp [field]
  have hlength : buffer.length = 6 + message.payload.length + rest.length := by
    rw [hbuffer, List.length_append, hlengths]
  have hread : readU16 buffer 2 = field := by
    rw [hcons]
    exact readU16_writeU16 field (writeU16 message.id ++ (message.payload ++ rest))
  have hid : readU16 buffer 4 = message.id := by
    rw [hcons]
    exact readU16_writeU16 message.id (message.payload ++ rest)
  have hstart : Decoder.findStart buffer = 0 := by
    rw [hcons]
    rfl
  have hsix : ¬ readU16 buffer 2 < 6 := by
    rw [hread, UInt16.lt_iff_toNat_lt, hfield]
    show ¬ 6 + message.payload.length < 6
    omega
  obtain ⟨fuel, hfuel⟩ := Nat.exists_eq_succ_of_ne_zero (show buffer.length ≠ 0 by omega)
  unfold Decoder.next
  show Decoder.nextFrom buffer.length buffer = _
  rw [hfuel, nextFrom_of_complete (by omega) hstart hsix (by rw [hread, hfield]; omega), hread,
    hid, hfield, ← hlengths, hbuffer, List.take_left, List.drop_left]
  have hpayload : message.encode.drop 6 = message.payload := by
    rw [encode_eq h]
    rfl
  rw [hpayload]

/-- The decoder waits for the rest of a message that is not complete. -/
theorem next_incomplete {message : Message} (h : message.Encodable) {buffer more : Bytes}
    (hmore : more ≠ []) (hsplit : buffer ++ more = message.encode) :
    (Decoder.mk buffer).next = (none, ⟨buffer⟩) := by
  have hlengths := congrArg List.length hsplit
  rw [List.length_append, length_encode h] at hlengths
  have hpos : 0 < more.length := List.length_pos_iff.mpr hmore
  unfold Decoder.next
  show Decoder.nextFrom buffer.length buffer = _
  cases hfuel : buffer.length with
  | zero => rfl
  | succ fuel =>
      unfold Decoder.nextFrom
      by_cases hshort : buffer.length < 6
      · rw [if_pos hshort]
      · rw [if_neg hshort]
        have hread : readU16 buffer 2 = UInt16.ofNat (6 + message.payload.length) ∧
            Decoder.findStart buffer = 0 := by
          rw [encode_eq h] at hsplit
          match buffer, hshort, hsplit with
          | b0 :: b1 :: b2 :: b3 :: rest, _, hsplit =>
              simp only [List.cons_append, writeU16, List.nil_append, List.cons.injEq] at hsplit
              obtain ⟨rfl, rfl, rfl, rfl, -⟩ := hsplit
              exact ⟨readU16_writeU16 _ [], rfl⟩
          | [], hshort, _ => simp at hshort
          | [_], hshort, _ => simp at hshort
          | [_, _], hshort, _ => simp at hshort
          | [_, _, _], hshort, _ => simp at hshort
        have hfield := length_field h
        dsimp only
        rw [hread.1, hread.2, if_neg (by omega), if_neg (by simp), if_neg, if_pos (by omega)]
        rw [UInt16.lt_iff_toNat_lt, hfield]
        show ¬ 6 + message.payload.length < 6
        omega

/-- The bytes of a list of messages. -/
def encodeAll (messages : List Message) : Bytes := messages.flatMap Message.encode

theorem drainFrom_encodeAll {messages : List Message} (h : ∀ message ∈ messages, message.Encodable)
    {tail : Bytes} (htail : (Decoder.mk tail).next = (none, ⟨tail⟩)) {fuel : ℕ}
    (hfuel : messages.length ≤ fuel) :
    Decoder.drainFrom fuel ⟨encodeAll messages ++ tail⟩ = (messages, ⟨tail⟩) := by
  induction messages generalizing fuel with
  | nil =>
      cases fuel with
      | zero => rfl
      | succ fuel =>
          unfold Decoder.drainFrom
          have hbuffer : encodeAll [] ++ tail = tail := rfl
          rw [hbuffer, htail]
  | cons message messages ih =>
      obtain ⟨fuel, rfl⟩ := Nat.exists_eq_succ_of_ne_zero (show fuel ≠ 0 by
        rw [List.length_cons] at hfuel
        omega)
      have hbuffer : encodeAll (message :: messages) ++ tail =
          message.encode ++ (encodeAll messages ++ tail) := by
        unfold encodeAll
        rw [List.flatMap_cons, List.append_assoc]
      unfold Decoder.drainFrom
      rw [hbuffer, next_encode (h message List.mem_cons_self)]
      dsimp only
      rw [ih (fun other hother => h other (List.mem_cons_of_mem _ hother))
        (by rw [List.length_cons] at hfuel; omega)]

theorem length_le_encodeAll {messages : List Message} (h : ∀ message ∈ messages, message.Encodable) :
    messages.length ≤ (encodeAll messages).length := by
  induction messages with
  | nil => rfl
  | cons message messages ih =>
      have hrest := ih fun other hother => h other (List.mem_cons_of_mem _ hother)
      have hfirst := length_encode (h message List.mem_cons_self)
      unfold encodeAll at hrest ⊢
      rw [List.flatMap_cons, List.length_append, List.length_cons, hfirst]
      omega

/-- Whole messages come out of the buffer, and what waits stays. -/
theorem drain_encodeAll {messages : List Message} (h : ∀ message ∈ messages, message.Encodable)
    {tail : Bytes} (htail : (Decoder.mk tail).next = (none, ⟨tail⟩)) :
    (Decoder.mk (encodeAll messages ++ tail)).drain = (messages, ⟨tail⟩) := by
  refine drainFrom_encodeAll h htail ?_
  have hle := length_le_encodeAll h
  show messages.length ≤ (encodeAll messages ++ tail).length
  rw [List.length_append]
  omega

/-! ## Messages out of any bytes -/

/-- The bytes that a message took up in the buffer. -/
def Message.size (message : Message) : ℕ := 6 + message.payload.length

/-- A message that comes out of the buffer took its size off it. -/
theorem nextFrom_size (fuel : ℕ) (buffer : Bytes) :
    ((Decoder.nextFrom fuel buffer).1.map Message.size).getD 0 +
      (Decoder.nextFrom fuel buffer).2.buffer.length ≤ buffer.length := by
  induction fuel generalizing buffer with
  | zero => exact Nat.le_of_eq (Nat.zero_add _)
  | succ fuel ih =>
      unfold Decoder.nextFrom
      by_cases hshort : buffer.length < 6
      · rw [if_pos hshort]
        exact Nat.le_of_eq (Nat.zero_add _)
      · rw [if_neg hshort]
        have hdrop (count : ℕ) : (buffer.drop count).length ≤ buffer.length := by
          rw [List.length_drop]
          omega
        dsimp only
        by_cases hnone : Decoder.findStart buffer + 1 = buffer.length
        · rw [if_pos hnone]
          show 0 + (buffer.drop (Decoder.findStart buffer)).length ≤ buffer.length
          rw [Nat.zero_add]
          exact hdrop _
        rw [if_neg hnone]
        by_cases hjunk : Decoder.findStart buffer ≠ 0
        · rw [if_pos hjunk]
          exact (ih _).trans (hdrop _)
        rw [if_neg hjunk]
        by_cases hbad : readU16 buffer 2 < 6
        · rw [if_pos hbad]
          exact (ih _).trans (hdrop _)
        rw [if_neg hbad]
        by_cases hincomplete : buffer.length < (readU16 buffer 2).toNat
        · rw [if_pos hincomplete]
          exact Nat.le_of_eq (Nat.zero_add _)
        · rw [if_neg hincomplete]
          have hsix : 6 ≤ (readU16 buffer 2).toNat :=
            UInt16.le_iff_toNat_le.mp (UInt16.not_lt.mp hbad)
          show 6 + ((buffer.take (readU16 buffer 2).toNat).drop 6).length +
            (buffer.drop (readU16 buffer 2).toNat).length ≤ buffer.length
          rw [List.length_drop, List.length_take, List.length_drop]
          omega

/-- All the messages that come out of a buffer fit in it together. -/
theorem drainFrom_size (fuel : ℕ) (decoder : Decoder) :
    ((decoder.drainFrom fuel).1.map Message.size).sum +
      (decoder.drainFrom fuel).2.buffer.length ≤ decoder.buffer.length := by
  induction fuel generalizing decoder with
  | zero => exact Nat.le_of_eq (Nat.zero_add _)
  | succ fuel ih =>
      have hnext := nextFrom_size decoder.buffer.length decoder.buffer
      change (decoder.next.1.map Message.size).getD 0 + decoder.next.2.buffer.length ≤
        decoder.buffer.length at hnext
      unfold Decoder.drainFrom
      split
      · rename_i rest heq
        rw [heq] at hnext
        exact hnext
      · rename_i message rest heq
        rw [heq] at hnext
        have hrest := ih rest
        show message.size + ((Decoder.drainFrom fuel rest).1.map Message.size).sum +
          (Decoder.drainFrom fuel rest).2.buffer.length ≤ decoder.buffer.length
        have hnext' : message.size + rest.buffer.length ≤ decoder.buffer.length := hnext
        omega

end Csm
end Iap2
end Aa2acp
