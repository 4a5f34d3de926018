import Aa2acp.Iap2.Frame

/-!
# The codecs of the frame header and of the LSP

The encoders of `src/iap2/link_layer.cpp` write into a buffer of zeros at offsets, and the
decoder of the sessions walks over the payload by its offset (`Buffer`).  They are the
functions of the link model.  Encoding and decoding are inverse to each other, in both
directions, for whatever is long enough to hold a header; and no header survives the change
of one byte, since the change is seen in the checksum.
-/

namespace Aa2acp
namespace Iap2

/-! ## Writing at offsets -/

namespace Buffer

/-- `write_u16`. -/
def writeU16 (bytes : Bytes) (offset : ℕ) (value : UInt16) : Bytes :=
  (bytes.set offset (value >>> 8).toUInt8).set (offset + 1) (value &&& 0xff).toUInt8

/-- `encode_header`. -/
def encodeHeader (header : Header) : Bytes :=
  let result := List.replicate 9 (0 : UInt8)
  let result := writeU16 result 0 kPacketStart
  let result := writeU16 result 2 header.length
  let result := result.set 4 header.control
  let result := result.set 5 header.sequence
  let result := result.set 6 header.acknowledgement
  let result := result.set 7 header.sessionId
  result.set 8 (checksum (result.take 8))

/-- A turn of the loop of `encode_lsp`: the buffer and the offset after it. -/
def writeSession (written : Bytes × ℕ) (session : Session) : Bytes × ℕ :=
  let (result, offset) := written
  (((result.set offset session.id).set (offset + 1) session.type).set (offset + 2) session.version,
    offset + 3)

/-- `encode_lsp`. -/
def encodeLsp (lsp : Lsp) : Bytes :=
  let result := List.replicate (10 + lsp.sessions.length * 3) (0 : UInt8)
  let result := result.set 0 1
  let result := result.set 1 lsp.maxOutgoing
  let result := writeU16 result 2 lsp.maxLen
  let result := writeU16 result 4 lsp.retransmissionTimeout
  let result := writeU16 result 6 lsp.ackTimeout
  let result := result.set 8 lsp.maxRetransmissions
  let result := result.set 9 lsp.maxAck
  (lsp.sessions.foldl writeSession (result, 10)).1

/-- The loop of `decode_lsp` from an offset on. -/
def readSessions (bytes : Bytes) : ℕ → ℕ → List Session
  | 0, _ => []
  | fuel + 1, offset =>
      if offset < bytes.length then
        ⟨bytes.getD offset 0, bytes.getD (offset + 1) 0, bytes.getD (offset + 2) 0⟩ ::
          readSessions bytes fuel (offset + 3)
      else []

/-- `decode_lsp`. -/
def decodeLsp (bytes : Bytes) : Option Lsp :=
  if bytes.length < 10 ∨ bytes.getD 0 0 ≠ 1 ∨ (bytes.length - 10) % 3 ≠ 0 then none
  else
    let maximumLength := readU16 bytes 2
    if maximumLength < 9 then none
    else some
      { maxOutgoing := bytes.getD 1 0
        maxLen := maximumLength
        retransmissionTimeout := readU16 bytes 4
        ackTimeout := readU16 bytes 6
        maxRetransmissions := bytes.getD 8 0
        maxAck := bytes.getD 9 0
        sessions := readSessions bytes bytes.length 10 }

/-- The header is written as the link model has it. -/
theorem encodeHeader_eq (header : Header) : encodeHeader header = Iap2.encodeHeader header := rfl

/-- Each turn fills the next three zeros. -/
theorem foldl_writeSession (front : Bytes) (sessions : List Session) :
    (sessions.foldl writeSession
        (front ++ List.replicate (sessions.length * 3) 0, front.length)).1 =
      front ++ sessions.flatMap Session.encode := by
  induction sessions generalizing front with
  | nil => rfl
  | cons session sessions ih =>
      have hzeros : List.replicate ((session :: sessions).length * 3) (0 : UInt8) =
          0 :: 0 :: 0 :: List.replicate (sessions.length * 3) 0 := by
        rw [List.length_cons, Nat.add_mul, Nat.one_mul]
        rfl
      have hturn : writeSession
          (front ++ 0 :: 0 :: 0 :: List.replicate (sessions.length * 3) 0, front.length) session =
            ((front ++ session.encode) ++ List.replicate (sessions.length * 3) 0,
              (front ++ session.encode).length) := by
        simp [writeSession, Session.encode]
      rw [List.foldl_cons, hzeros, hturn, ih, List.flatMap_cons, List.append_assoc]

/-- The LSP is written as the link model has it. -/
theorem encodeLsp_eq (lsp : Lsp) : encodeLsp lsp = Iap2.encodeLsp lsp := by
  have hzeros : List.replicate (10 + lsp.sessions.length * 3) (0 : UInt8) =
      List.replicate 10 0 ++ List.replicate (lsp.sessions.length * 3) 0 :=
    List.replicate_add 10 _ 0
  unfold encodeLsp
  rw [hzeros]
  exact foldl_writeSession
    ([1, lsp.maxOutgoing] ++ Iap2.writeU16 lsp.maxLen ++
      Iap2.writeU16 lsp.retransmissionTimeout ++ Iap2.writeU16 lsp.ackTimeout ++
      [lsp.maxRetransmissions, lsp.maxAck]) lsp.sessions

/-- The walk reads what lies from the offset on, which are whole sessions. -/
theorem readSessions_eq (bytes : Bytes) {fuel offset count : ℕ} (hfuel : count ≤ fuel)
    (hlength : bytes.length = offset + count * 3) :
    readSessions bytes fuel offset = decodeSessions (bytes.drop offset) := by
  induction count generalizing fuel offset with
  | zero =>
      have hdrop : bytes.drop offset = [] := List.drop_eq_nil_of_le (by omega)
      rw [hdrop]
      cases fuel with
      | zero => rfl
      | succ fuel =>
          rw [readSessions, if_neg (by omega)]
          rfl
  | succ count ih =>
      cases fuel with
      | zero => omega
      | succ fuel =>
          have hsplit : bytes.drop offset = bytes.getD offset 0 :: bytes.getD (offset + 1) 0 ::
              bytes.getD (offset + 2) 0 :: bytes.drop (offset + 3) := by
            rw [List.drop_eq_getElem_cons (by omega), List.drop_eq_getElem_cons (by omega),
              List.drop_eq_getElem_cons (by omega)]
            simp [List.getD_eq_getElem?_getD, show offset < bytes.length by omega,
              show offset + 1 < bytes.length by omega, show offset + 2 < bytes.length by omega]
          rw [readSessions, if_pos (by omega), ih (by omega) (by omega), hsplit, decodeSessions]

/-- The LSP is read as the link model has it. -/
theorem decodeLsp_eq (bytes : Bytes) : decodeLsp bytes = Iap2.decodeLsp bytes := by
  unfold decodeLsp Iap2.decodeLsp
  split
  · rfl
  · rename_i hform
    simp only [not_or, not_lt, ne_eq, not_not] at hform
    obtain ⟨hlength, -, hwhole⟩ := hform
    have hcount : bytes.length = 10 + (bytes.length - 10) / 3 * 3 := by omega
    rw [readSessions_eq bytes (by omega) hcount]

end Buffer

/-! ## Numbers and checksums -/

/-- What was read is written back. -/
theorem writeU16_readU16 (bytes : Bytes) (offset : ℕ) :
    writeU16 (readU16 bytes offset) = [bytes.getD offset 0, bytes.getD (offset + 1) 0] := by
  have hhigh := (bytes.getD offset 0).toNat_lt
  have hlow := (bytes.getD (offset + 1) 0).toNat_lt
  have hvalue := toNat_readU16 bytes offset
  have hmask (n : ℕ) : n &&& 255 = n % 256 := Nat.and_two_pow_sub_one_eq_mod n 8
  generalize bytes.getD offset 0 = high at *
  generalize bytes.getD (offset + 1) 0 = low at *
  have hfirst : (readU16 bytes offset >>> 8).toUInt8 = high := by
    apply UInt8.toNat_inj.mp
    simp [hvalue, Nat.shiftRight_eq_div_pow]
    omega
  have hsecond : (readU16 bytes offset &&& 0xff).toUInt8 = low := by
    apply UInt8.toNat_inj.mp
    simp [hvalue, hmask]
  rw [writeU16, hfirst, hsecond]

theorem byteSum_cons (byte : UInt8) (bytes : Bytes) :
    byteSum (byte :: bytes) = byte + byteSum bytes := by
  have hsum := byteSum_append [byte] bytes
  rw [List.singleton_append] at hsum
  rw [hsum]
  show 0 + byte + byteSum bytes = byte + byteSum bytes
  rw [UInt8.zero_add]

/-- The sum changes by what the byte changes by. -/
theorem byteSum_set {bytes : Bytes} {index : ℕ} (h : index < bytes.length) (byte : UInt8) :
    byteSum (bytes.set index byte) + bytes.getD index 0 = byteSum bytes + byte := by
  have hold : bytes = bytes.take index ++ bytes.getD index 0 :: bytes.drop (index + 1) := by
    rw [List.getD_eq_getElem?_getD, List.getElem?_eq_getElem h, Option.getD_some,
      ← List.drop_eq_getElem_cons h, List.take_append_drop]
  have hsum : byteSum bytes = byteSum (bytes.take index) +
      (bytes.getD index 0 + byteSum (bytes.drop (index + 1))) := by
    conv_lhs => rw [hold]
    rw [byteSum_append, byteSum_cons]
  rw [List.set_eq_take_append_cons_drop, if_pos h, byteSum_append, byteSum_cons, hsum]
  grind

/-- A valid checksum does not stay valid when one byte changes. -/
theorem hasValidChecksum_set {bytes : Bytes} (hvalid : hasValidChecksum bytes = true) {index : ℕ}
    (h : index < bytes.length) {byte : UInt8} (hne : byte ≠ bytes.getD index 0) :
    hasValidChecksum (bytes.set index byte) = false := by
  have hsum := byteSum_set h byte
  rw [hasValidChecksum, beq_iff_eq] at hvalid
  rw [hasValidChecksum, beq_eq_false_iff_ne]
  intro hzero
  rw [hvalid, hzero, UInt8.zero_add, UInt8.zero_add] at hsum
  exact hne hsum.symm

/-- The last byte of a string with a valid checksum is the checksum of the others. -/
theorem eq_checksum_of_valid {bytes : Bytes} {last : UInt8}
    (h : hasValidChecksum (bytes ++ [last]) = true) : last = checksum bytes := by
  rw [hasValidChecksum, byteSum_append, beq_iff_eq] at h
  change byteSum bytes + (0 + last) = 0 at h
  unfold checksum
  grind

/-! ## The header -/

/-- A header that is too short to count itself is refused. -/
theorem decodeHeader_encodeHeader_of_short {header : Header} (h : ¬ 9 ≤ header.length) :
    decodeHeader (encodeHeader header) = none := by
  have hlength : readU16 (encodeHeader header) 2 = header.length :=
    readU16_writeU16 header.length []
  unfold decodeHeader
  split
  · rfl
  · dsimp only
    rw [hlength, if_pos (UInt16.not_le.mp h)]

/-- Decoding takes nothing but what was encoded. -/
theorem encodeHeader_decodeHeader {bytes : Bytes} (hsize : bytes.length = 9) {header : Header}
    (h : decodeHeader bytes = some header) : encodeHeader header = bytes := by
  unfold decodeHeader at h
  split at h
  · cases h
  · rename_i hform
    simp only [not_or, Bool.not_eq_false, ne_eq, not_not] at hform
    obtain ⟨hvalid, hstart⟩ := hform
    dsimp only at h
    split at h
    · cases h
    · cases h
      match bytes, hsize with
      | [b0, b1, b2, b3, b4, b5, b6, b7, b8], _ =>
          have hlast : b8 = checksum [b0, b1, b2, b3, b4, b5, b6, b7] :=
            eq_checksum_of_valid hvalid
          unfold encodeHeader
          rw [← hstart]
          simp only [writeU16_readU16]
          show [b0, b1, b2, b3, b4, b5, b6, b7, checksum [b0, b1, b2, b3, b4, b5, b6, b7]] = _
          rw [← hlast]

/-- No byte of a header can change without the header being refused. -/
theorem decodeHeader_set (header : Header) {index : ℕ} (hindex : index < 9) {byte : UInt8}
    (hne : byte ≠ (encodeHeader header).getD index 0) :
    decodeHeader ((encodeHeader header).set index byte) = none := by
  have hvalid : hasValidChecksum (encodeHeader header) = true :=
    hasValidChecksum_append_checksum _
  exact if_pos (Or.inl (hasValidChecksum_set hvalid hindex hne))

/-! ## The LSP -/

theorem decodeSessions_flatMap (sessions : List Session) :
    decodeSessions (sessions.flatMap Session.encode) = sessions := by
  induction sessions with
  | nil => rfl
  | cons session sessions ih =>
      show session :: decodeSessions (sessions.flatMap Session.encode) = session :: sessions
      rw [ih]

theorem length_flatMap_encode (sessions : List Session) :
    (sessions.flatMap Session.encode).length = 3 * sessions.length := by
  induction sessions with
  | nil => rfl
  | cons session sessions ih =>
      rw [List.flatMap_cons, List.length_append, ih, List.length_cons]
      show 3 + _ = _
      omega

theorem length_encodeLsp (lsp : Lsp) : (encodeLsp lsp).length = 10 + 3 * lsp.sessions.length := by
  unfold encodeLsp
  rw [List.length_append, length_flatMap_encode]
  rfl

/-- Whole sessions are written as they were read. -/
theorem flatMap_decodeSessions {bytes : Bytes} (h : bytes.length % 3 = 0) :
    (decodeSessions bytes).flatMap Session.encode = bytes := by
  induction bytes using decodeSessions.induct with
  | case1 id type version rest ih =>
      have hrest : rest.length % 3 = 0 := by
        simp only [List.length_cons] at h
        omega
      rw [decodeSessions, List.flatMap_cons, ih hrest]
      rfl
  | case2 bytes hshort =>
      match bytes, hshort with
      | [], _ => rfl
      | [_], _ => cases h
      | [_, _], _ => cases h
      | id :: type :: version :: rest, hshort => exact absurd rfl (hshort id type version rest)

/-- An encoded LSP is decoded, unless it allows no frame. -/
theorem decodeLsp_encodeLsp (lsp : Lsp) :
    decodeLsp (encodeLsp lsp) = if 9 ≤ lsp.maxLen then some lsp else none := by
  have hform : ¬ ((encodeLsp lsp).length < 10 ∨ (encodeLsp lsp).getD 0 0 ≠ 1 ∨
      ((encodeLsp lsp).length - 10) % 3 ≠ 0) := by
    have hversion : (encodeLsp lsp).getD 0 0 = 1 := rfl
    rw [length_encodeLsp, hversion]
    simp only [ne_eq, not_true_eq_false, false_or]
    omega
  have hmaxLen : readU16 (encodeLsp lsp) 2 = lsp.maxLen := readU16_writeU16 lsp.maxLen []
  have hretransmission : readU16 (encodeLsp lsp) 4 = lsp.retransmissionTimeout :=
    readU16_writeU16 lsp.retransmissionTimeout []
  have hack : readU16 (encodeLsp lsp) 6 = lsp.ackTimeout := readU16_writeU16 lsp.ackTimeout []
  have hsessions : decodeSessions ((encodeLsp lsp).drop 10) = lsp.sessions :=
    decodeSessions_flatMap lsp.sessions
  unfold decodeLsp
  rw [if_neg hform]
  dsimp only
  rw [hmaxLen, hretransmission, hack, hsessions]
  by_cases hlong : 9 ≤ lsp.maxLen
  · rw [if_neg (UInt16.not_lt.mpr hlong), if_pos hlong]
    rfl
  · rw [if_pos (UInt16.not_le.mp hlong), if_neg hlong]

/-- Decoding takes nothing but what was encoded. -/
theorem encodeLsp_decodeLsp {bytes : Bytes} {lsp : Lsp} (h : decodeLsp bytes = some lsp) :
    encodeLsp lsp = bytes := by
  unfold decodeLsp at h
  split at h
  · cases h
  · rename_i hform
    simp only [not_or, not_lt, ne_eq, not_not] at hform
    obtain ⟨hlength, hversion, hwhole⟩ := hform
    dsimp only at h
    split at h
    · cases h
    · cases h
      match bytes, hlength with
      | b0 :: b1 :: b2 :: b3 :: b4 :: b5 :: b6 :: b7 :: b8 :: b9 :: rest, _ =>
          have hrest : rest.length % 3 = 0 := by
            simpa using hwhole
          have hfirst : b0 = 1 := hversion
          unfold encodeLsp
          simp only [writeU16_readU16]
          show [1, b1, b2, b3, b4, b5, b6, b7, b8, b9] ++
            (decodeSessions rest).flatMap Session.encode = _
          rw [flatMap_decodeSessions hrest, hfirst]
          rfl

/-! ## Both codecs -/

/-- The codecs of the header and of the LSP are inverse to each other.  An encoded header or
LSP comes back, and is refused when its length is below that of a header; whatever is decoded
is what encoding it gives; and a header with one byte changed is refused. -/
theorem codecs_inverse :
    (∀ header : Header, decodeHeader (Buffer.encodeHeader header) =
        if 9 ≤ header.length then some header else none) ∧
      (∀ (bytes : Bytes) (header : Header), bytes.length = 9 →
        decodeHeader bytes = some header → Buffer.encodeHeader header = bytes) ∧
      (∀ lsp : Lsp, Buffer.decodeLsp (Buffer.encodeLsp lsp) =
        if 9 ≤ lsp.maxLen then some lsp else none) ∧
      (∀ (bytes : Bytes) (lsp : Lsp), Buffer.decodeLsp bytes = some lsp →
        Buffer.encodeLsp lsp = bytes) ∧
      ∀ (header : Header) (index : ℕ) (byte : UInt8), index < 9 →
        byte ≠ (Buffer.encodeHeader header).getD index 0 →
        decodeHeader ((Buffer.encodeHeader header).set index byte) = none := by
  refine ⟨fun header => ?_, fun bytes header hsize h => ?_, fun lsp => ?_, fun bytes lsp h => ?_,
    fun header index byte hindex hne => ?_⟩
  · rw [Buffer.encodeHeader_eq]
    by_cases hlong : 9 ≤ header.length
    · rw [if_pos hlong, decodeHeader_encodeHeader hlong]
    · rw [if_neg hlong, decodeHeader_encodeHeader_of_short hlong]
  · rw [Buffer.encodeHeader_eq, encodeHeader_decodeHeader hsize h]
  · rw [Buffer.decodeLsp_eq, Buffer.encodeLsp_eq, decodeLsp_encodeLsp]
  · rw [Buffer.decodeLsp_eq] at h
    rw [Buffer.encodeLsp_eq, encodeLsp_decodeLsp h]
  · rw [Buffer.encodeHeader_eq] at hne ⊢
    exact decodeHeader_set header hindex hne

/-- A header of nine bytes, and the same with its sequence number changed. -/
theorem codecs_inverse_syn :
    Buffer.encodeHeader ⟨24, kControlSyn, 100, 42, 10⟩ =
        [0xff, 0x5a, 0, 24, 0x80, 100, 42, 10, 0x77] ∧
      decodeHeader [0xff, 0x5a, 0, 24, 0x80, 101, 42, 10, 0x77] = none := by
  have hencoded := codecs_inverse.2.1 [0xff, 0x5a, 0, 24, 0x80, 100, 42, 10, 0x77]
    ⟨24, kControlSyn, 100, 42, 10⟩ rfl (by decide)
  refine ⟨hencoded, ?_⟩
  have hchanged := codecs_inverse.2.2.2.2 ⟨24, kControlSyn, 100, 42, 10⟩ 5 101 (by decide)
    (by decide)
  rwa [hencoded] at hchanged

end Iap2
end Aa2acp
