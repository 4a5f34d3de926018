import Aa2acp.Lib.Bytes

/-!
# iAP2 link frames

The wire formats of `src/iap2/link_layer.cpp`: the 9-byte frame header with its
checksum, and the link synchronisation payload (LSP) that a SYN frame carries.
Byte strings are lists of `UInt8`; an index past the end reads as `0`, which no
caller relies on, since every reader checks the length first.
-/

namespace Aa2acp
namespace Iap2

def kPacketStart : UInt16 := 0xff5a

def kMarker : Bytes := [0xff, 0x55, 0x02, 0x00, 0xee, 0x10]

def kControlSyn : UInt8 := 0x80
def kControlAck : UInt8 := 0x40
def kControlEak : UInt8 := 0x20
def kControlRst : UInt8 := 0x10
def kControlSessionId : UInt8 := 10

/-- The two bytes at `offset`, most significant first. -/
def readU16 (bytes : Bytes) (offset : Nat) : UInt16 :=
  ((bytes.getD offset 0).toUInt16 <<< 8) ||| (bytes.getD (offset + 1) 0).toUInt16

/-- The two bytes of `value`, most significant first. -/
def writeU16 (value : UInt16) : Bytes :=
  [(value >>> 8).toUInt8, (value &&& 0xff).toUInt8]

@[simp] theorem length_writeU16 (value : UInt16) : (writeU16 value).length = 2 := rfl

theorem toNat_readU16 (bytes : Bytes) (offset : Nat) :
    (readU16 bytes offset).toNat =
      (bytes.getD offset 0).toNat * 256 + (bytes.getD (offset + 1) 0).toNat := by
  have hhigh := (bytes.getD offset 0).toNat_lt
  have hlow := (bytes.getD (offset + 1) 0).toNat_lt
  have height : UInt16.toNat 8 % 16 = 8 := rfl
  have hshift : (bytes.getD offset 0).toNat <<< 8 % 2 ^ 16 = (bytes.getD offset 0).toNat <<< 8 := by
    rw [Nat.shiftLeft_eq]
    omega
  unfold readU16
  rw [UInt16.toNat_or, UInt16.toNat_shiftLeft, UInt8.toNat_toUInt16, UInt8.toNat_toUInt16, height,
    hshift, ← Nat.shiftLeft_add_eq_or_of_lt hlow, Nat.shiftLeft_eq]

/-- What was written is read back. -/
theorem readU16_writeU16 (value : UInt16) (rest : Bytes) :
    readU16 (writeU16 value ++ rest) 0 = value := by
  have hlt := value.toNat_lt
  have hhigh : (value >>> 8).toUInt8.toNat = value.toNat / 256 := by
    simp [Nat.shiftRight_eq_div_pow]
    omega
  have hlow : (value &&& 0xff).toUInt8.toNat = value.toNat % 256 := by
    have hmask (n : ℕ) : n &&& 255 = n % 256 := Nat.and_two_pow_sub_one_eq_mod n 8
    simp [hmask]
  apply UInt16.toNat_inj.mp
  rw [toNat_readU16]
  show (value >>> 8).toUInt8.toNat * 256 + (value &&& 0xff).toUInt8.toNat = value.toNat
  omega

/-- The running sum of the bytes, modulo 256. -/
def byteSum (bytes : Bytes) : UInt8 :=
  bytes.foldl (fun sum byte => sum + byte) 0

def checksum (bytes : Bytes) : UInt8 :=
  0 - byteSum bytes

def hasValidChecksum (bytes : Bytes) : Bool :=
  byteSum bytes == 0

theorem byteSum_append (bytes more : Bytes) :
    byteSum (bytes ++ more) = byteSum bytes + byteSum more := by
  unfold byteSum
  rw [List.foldl_append]
  generalize List.foldl (fun sum byte => sum + byte) 0 bytes = start
  induction more generalizing start with
  | nil => simp
  | cons byte more ih =>
      rw [List.foldl_cons, List.foldl_cons, ih (start + byte), ih (0 + byte), UInt8.zero_add,
        UInt8.add_assoc]

/-- What a checksum is appended to adds up to zero. -/
theorem hasValidChecksum_append_checksum (bytes : Bytes) :
    hasValidChecksum (bytes ++ [checksum bytes]) = true := by
  unfold hasValidChecksum
  rw [byteSum_append, beq_iff_eq]
  show byteSum bytes + (0 + (0 - byteSum bytes)) = 0
  rw [UInt8.zero_add, UInt8.zero_sub, UInt8.add_neg_eq_sub, UInt8.sub_self]

/-! ## The LSP payload -/

structure Session where
  id : UInt8
  type : UInt8
  version : UInt8
deriving DecidableEq, Repr

structure Lsp where
  maxOutgoing : UInt8 := 4
  maxLen : UInt16 := 65535
  retransmissionTimeout : UInt16 := 0
  ackTimeout : UInt16 := 0
  maxRetransmissions : UInt8 := 0
  maxAck : UInt8 := 0
  sessions : List Session := [⟨kControlSessionId, 0, 2⟩, ⟨11, 2, 1⟩, ⟨12, 1, 2⟩]
deriving DecidableEq, Repr

def Session.encode (session : Session) : Bytes :=
  [session.id, session.type, session.version]

def encodeLsp (lsp : Lsp) : Bytes :=
  [1, lsp.maxOutgoing] ++ writeU16 lsp.maxLen ++ writeU16 lsp.retransmissionTimeout ++
    writeU16 lsp.ackTimeout ++ [lsp.maxRetransmissions, lsp.maxAck] ++
    lsp.sessions.flatMap Session.encode

/-- The sessions of an LSP payload, three bytes each. -/
def decodeSessions : Bytes → List Session
  | id :: type :: version :: rest => ⟨id, type, version⟩ :: decodeSessions rest
  | _ => []

def decodeLsp (bytes : Bytes) : Option Lsp :=
  if bytes.length < 10 ∨ bytes.getD 0 0 ≠ 1 ∨ (bytes.length - 10) % 3 ≠ 0 then none
  else
    let maximumLength := readU16 bytes 2
    if maximumLength < 9 then none
    else some
      { maxOutgoing := bytes.getD 1 0
        maxLen := maximumLength
        retransmissionTimeout := readU16 bytes 4
        ackTimeout := readU16 bytes 6
        maxRetransmissions := bytes.getD 8 0
        maxAck := bytes.getD 9 0
        sessions := decodeSessions (bytes.drop 10) }

/-- A payload that decodes names a maximum frame length of at least one header. -/
theorem decodeLsp_maxLen {bytes : Bytes} {lsp : Lsp} (h : decodeLsp bytes = some lsp) :
    9 ≤ lsp.maxLen := by
  unfold decodeLsp at h
  split at h
  · cases h
  · dsimp only at h
    split at h
    · cases h
    · cases h
      rename_i hlen
      exact UInt16.not_lt.mp hlen

/-! ## The frame header -/

structure Header where
  length : UInt16
  control : UInt8
  sequence : UInt8
  acknowledgement : UInt8
  sessionId : UInt8
deriving DecidableEq, Repr

def encodeHeader (header : Header) : Bytes :=
  let fields := writeU16 kPacketStart ++ writeU16 header.length ++
    [header.control, header.sequence, header.acknowledgement, header.sessionId]
  fields ++ [checksum fields]

/-- Decode the nine bytes of a header. -/
def decodeHeader (bytes : Bytes) : Option Header :=
  if hasValidChecksum bytes = false ∨ readU16 bytes 0 ≠ kPacketStart then none
  else
    let length := readU16 bytes 2
    if length < 9 then none
    else some ⟨length, bytes.getD 4 0, bytes.getD 5 0, bytes.getD 6 0, bytes.getD 7 0⟩

/-- A whole frame: without a payload it is the header alone, otherwise the payload
and its checksum follow. -/
def encodeFrame (control sequence acknowledgement sessionId : UInt8) (payload : Bytes) : Bytes :=
  let length := if payload = [] then 9 else payload.length + 10
  let header := encodeHeader
    ⟨UInt16.ofNat length, control, sequence, acknowledgement, sessionId⟩
  if payload = [] then header else header ++ payload ++ [checksum payload]

@[simp] theorem length_encodeHeader (header : Header) : (encodeHeader header).length = 9 := rfl

theorem length_encodeFrame (control sequence acknowledgement sessionId : UInt8)
    {payload : Bytes} (hne : payload ≠ []) :
    (encodeFrame control sequence acknowledgement sessionId payload).length =
      payload.length + 10 := by
  unfold encodeFrame
  simp only [if_neg hne, List.length_append, length_encodeHeader, List.length_singleton]
  omega

@[simp] theorem length_encodeFrame_nil (control sequence acknowledgement sessionId : UInt8) :
    (encodeFrame control sequence acknowledgement sessionId []).length = 9 := rfl

/-- Every frame starts with the fields of its header. -/
theorem encodeFrame_fields (control sequence acknowledgement sessionId : UInt8)
    (payload : Bytes) :
    (encodeFrame control sequence acknowledgement sessionId payload).getD 4 0 = control ∧
      (encodeFrame control sequence acknowledgement sessionId payload).getD 5 0 = sequence ∧
      (encodeFrame control sequence acknowledgement sessionId payload).getD 6 0 =
        acknowledgement := by
  unfold encodeFrame
  split <;> exact ⟨rfl, rfl, rfl⟩

theorem decodeHeader_encodeHeader {header : Header} (h : 9 ≤ header.length) :
    decodeHeader (encodeHeader header) = some header := by
  have hlength : readU16 (encodeHeader header) 2 = header.length :=
    readU16_writeU16 header.length []
  have hstart : readU16 (encodeHeader header) 0 = kPacketStart := readU16_writeU16 kPacketStart []
  unfold decodeHeader
  rw [if_neg]
  · dsimp only
    rw [hlength, if_neg (UInt16.not_lt.mpr h)]
    rfl
  · rintro (hsum | hother)
    · rw [encodeHeader, hasValidChecksum_append_checksum] at hsum
      cases hsum
    · exact hother hstart

/-- A header that decodes counts at least its own nine bytes. -/
theorem decodeHeader_length {bytes : Bytes} {header : Header}
    (h : decodeHeader bytes = some header) : 9 ≤ header.length := by
  unfold decodeHeader at h
  split at h
  · cases h
  · dsimp only at h
    split at h
    · cases h
    · cases h
      rename_i hlen
      exact UInt16.not_lt.mp hlen

end Iap2
end Aa2acp
