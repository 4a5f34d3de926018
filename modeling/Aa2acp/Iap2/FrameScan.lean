import Aa2acp.Iap2.LinkBuffer

/-!
# A frame at the head of the receive buffer

What `encode_packet` builds is a frame to `process_packets` (`frameOf_encodeFrame`), and a
frame at the head of the buffer has three outcomes: it is handled, it kills the link
because it is too long, or the loop waits for the rest of it.
-/

namespace Aa2acp
namespace Iap2

/-! ## Whole frames -/

/-- The bytes are one whole frame with this header and this payload. -/
structure FrameOf (bytes : Bytes) (header : Header) (payload : Bytes) : Prop where
  decoded : decodeHeader (bytes.take 9) = some header
  length : bytes.length = header.length.toNat
  intact : header.length > 9 → hasValidChecksum (bytes.drop 9) = true
  payload : (bytes.drop 9).dropLast = payload

/-- The header of an encoded frame. -/
def headerOf (control sequence acknowledgement sessionId : UInt8) (payload : Bytes) : Header where
  length := UInt16.ofNat (if payload = [] then 9 else payload.length + 10)
  control := control
  sequence := sequence
  acknowledgement := acknowledgement
  sessionId := sessionId

theorem frameOf_encodeFrame (control sequence acknowledgement sessionId : UInt8) {payload : Bytes}
    (hfits : payload.length ≤ 65525) :
    FrameOf (encodeFrame control sequence acknowledgement sessionId payload)
      (headerOf control sequence acknowledgement sessionId payload) payload := by
  set header := headerOf control sequence acknowledgement sessionId payload with hheader
  by_cases hnil : payload = []
  · -- without a payload the frame is its header
    have hlength : header.length = 9 := by
      rw [hheader, headerOf, if_pos hnil]
      rfl
    have hbytes : encodeFrame control sequence acknowledgement sessionId payload =
        encodeHeader header := by
      unfold encodeFrame
      rw [if_pos hnil]
      rfl
    rw [hbytes]
    constructor
    · exact decodeHeader_encodeHeader (by rw [hlength]; decide)
    · rw [hlength]
      rfl
    · intro hlong
      rw [hlength] at hlong
      exact absurd hlong (by decide)
    · rw [hnil]
      rfl
  · have hlength : header.length.toNat = payload.length + 10 := by
      rw [hheader, headerOf, if_neg hnil]
      exact UInt16.toNat_ofNat_of_lt' (by show payload.length + 10 < 65536; omega)
    have hbytes : encodeFrame control sequence acknowledgement sessionId payload =
        encodeHeader header ++ (payload ++ [checksum payload]) := by
      unfold encodeFrame
      rw [if_neg hnil, List.append_assoc]
      rfl
    have hdrop : (encodeHeader header ++ (payload ++ [checksum payload])).drop 9 =
        payload ++ [checksum payload] := List.drop_left' (length_encodeHeader header)
    rw [hbytes]
    constructor
    · have htake : (encodeHeader header ++ (payload ++ [checksum payload])).take 9 =
          encodeHeader header := List.take_left' (length_encodeHeader header)
      rw [htake]
      apply decodeHeader_encodeHeader
      rw [UInt16.le_iff_toNat_le, hlength]
      show 9 ≤ payload.length + 10
      omega
    · rw [List.length_append, List.length_append, hlength, length_encodeHeader,
        List.length_singleton]
      omega
    · intro _
      rw [hdrop]
      exact hasValidChecksum_append_checksum payload
    · rw [hdrop, List.dropLast_concat]

section

variable {bytes : Bytes} {header : Header} {payload : Bytes}

theorem FrameOf.nine_le (h : FrameOf bytes header payload) : 9 ≤ bytes.length := by
  rw [h.length]
  exact UInt16.le_iff_toNat_le.mp (decodeHeader_length h.decoded)

/-- A frame starts with `ff 5a`. -/
theorem FrameOf.marks (h : FrameOf bytes header payload) :
    bytes.getD 0 0 = 0xff ∧ bytes.getD 1 0 = 0x5a := by
  have hdecoded := h.decoded
  have hnine := h.nine_le
  have hfirst : (bytes.take 9).getD 0 0 = bytes.getD 0 0 := by
    rw [List.getD_eq_getElem?_getD, List.getElem?_take_of_lt (by omega), List.getD_eq_getElem?_getD]
  have hsecond : (bytes.take 9).getD 1 0 = bytes.getD 1 0 := by
    rw [List.getD_eq_getElem?_getD, List.getElem?_take_of_lt (by omega), List.getD_eq_getElem?_getD]
  unfold decodeHeader at hdecoded
  split at hdecoded
  · cases hdecoded
  · rename_i hok
    rw [not_or, not_not] at hok
    have hstart := hok.2
    -- the two marks are the value that the header was checked for
    have hvalue := toNat_readU16 (bytes.take 9) 0
    rw [hstart, hfirst, hsecond] at hvalue
    have hmarks : kPacketStart.toNat = 65370 := rfl
    have hlow := (bytes.getD 1 0).toNat_lt
    constructor
    · apply UInt8.toNat_inj.mp
      show (bytes.getD 0 0).toNat = 255
      omega
    · apply UInt8.toNat_inj.mp
      show (bytes.getD 1 0).toNat = 90
      omega

/-- A frame is its two marks and more. -/
theorem FrameOf.eq_marks (h : FrameOf bytes header payload) :
    ∃ more, bytes = 0xff :: 0x5a :: more := by
  have hnine := h.nine_le
  obtain ⟨hfirst, hsecond⟩ := h.marks
  match bytes, hnine with
  | first :: second :: more, _ =>
      have hff : first = 0xff := hfirst
      have h5a : second = 0x5a := hsecond
      exact ⟨more, by rw [hff, h5a]⟩

/-- A payload stands between the header and the checksum. -/
theorem FrameOf.length_payload (h : FrameOf bytes header payload) (hne : payload ≠ []) :
    payload.length + 10 = bytes.length := by
  have hpayload := congrArg List.length h.payload
  have hpos : 0 < payload.length := List.length_pos_iff.mpr hne
  rw [List.length_dropLast, List.length_drop] at hpayload
  omega

end

/-! ## Turns of the loop -/

/-- Where `find_if` stops, and the byte behind it. -/
theorem idxOf_marks {noise : Bytes} (hnoise : 0xff ∉ noise) (second : UInt8) (more : Bytes) :
    (noise ++ 0xff :: second :: more).dropLast.idxOf 0xff = noise.length ∧
      (noise ++ 0xff :: second :: more).getD (noise.length + 1) 0 = second ∧
      (noise ++ 0xff :: second :: more).length = noise.length + (more.length + 2) := by
  have hne : (0xff :: second :: more : Bytes) ≠ [] := List.cons_ne_nil _ _
  refine ⟨?_, ?_, ?_⟩
  · rw [List.dropLast_append_of_ne_nil hne, List.idxOf_append_of_notMem hnoise,
      List.dropLast_cons_of_ne_nil (List.cons_ne_nil _ _), List.idxOf_cons_self, Nat.add_zero]
  · rw [List.getD_eq_getElem?_getD, List.getElem?_append_right (Nat.le_succ _),
      Nat.succ_sub (Nat.le_refl _), Nat.sub_self]
    rfl
  · rw [List.length_append, List.length_cons, List.length_cons]

section

variable {σ : Type} (env : Env σ) (now : TimePoint) {w : World σ} {bytes rest : Bytes}
  {header : Header} {payload : Bytes}

/-- The turn drops what comes before `ff 5a` and looks at the frame there. -/
theorem processOnce_marks {noise more : Bytes} (hnoise : 0xff ∉ noise)
    (hbuffer : w.link.receiveBuffer = noise ++ 0xff :: 0x5a :: more) :
    processOnce env now w = processFrame env now (w.setBuffer (0xff :: 0x5a :: more)) := by
  obtain ⟨hstart, hsecond, hlength⟩ := idxOf_marks hnoise 0x5a more
  rw [← hbuffer] at hstart hsecond hlength
  unfold processOnce
  dsimp only
  rw [hstart, if_neg (by omega), hsecond, if_neg (by simp), hbuffer, List.drop_left]

/-- The turn drops what comes before another byte than `5a`, the `ff` before it included. -/
theorem processOnce_other {noise more : Bytes} {second : UInt8} (hnoise : 0xff ∉ noise)
    (hsecond : second ≠ 0x5a) (hbuffer : w.link.receiveBuffer = noise ++ 0xff :: second :: more) :
    processOnce env now w = (true, w.setBuffer (second :: more)) := by
  obtain ⟨hstart, hother, hlength⟩ := idxOf_marks hnoise second more
  rw [← hbuffer] at hstart hother hlength
  have hdrop : w.link.receiveBuffer.drop (noise.length + 1) = second :: more := by
    rw [hbuffer, ← List.drop_drop, List.drop_left]
    rfl
  unfold processOnce
  dsimp only
  rw [hstart, if_neg (by omega), hother, if_pos hsecond, hdrop]

/-- The turn keeps the last byte of what has no `ff` before it, and stops. -/
theorem processOnce_noise (hnoise : 0xff ∉ w.link.receiveBuffer.dropLast) :
    processOnce env now w =
      (false, w.setBuffer (w.link.receiveBuffer.drop (w.link.receiveBuffer.length - 1))) := by
  have hstart : w.link.receiveBuffer.dropLast.idxOf 0xff = w.link.receiveBuffer.length - 1 := by
    rw [List.idxOf_eq_length hnoise, List.length_dropLast]
  unfold processOnce
  dsimp only
  rw [if_pos hstart]

/-- A frame that is no longer than allowed is handled. -/
theorem processFrame_whole (hframe : FrameOf bytes header payload)
    (hbuffer : w.link.receiveBuffer = bytes ++ rest)
    (hallowed : bytes.length ≤ w.link.lsp.maxLen.toNat) :
    processFrame env now w = (true, handlePacket env header payload now (w.setBuffer rest)) := by
  have hnine := hframe.nine_le
  have hlength := hframe.length
  have hheader : header.length ≤ w.link.lsp.maxLen := by
    rw [UInt16.le_iff_toNat_le]
    omega
  have htake : (bytes ++ rest).take 9 = bytes.take 9 := List.take_append_of_le_length hnine
  have hbody : ((bytes ++ rest).drop 9).take (header.length.toNat - 9) = bytes.drop 9 := by
    rw [List.drop_append_of_le_length hnine]
    exact List.take_left' (by rw [List.length_drop]; omega)
  -- the checksum of a frame is intact
  have hintact : ¬ (header.length > 9 ∧ hasValidChecksum (bytes.drop 9) = false) := by
    rintro ⟨hlong, hbad⟩
    rw [hframe.intact hlong] at hbad
    cases hbad
  unfold processFrame
  dsimp only
  rw [hbuffer, if_neg (by rw [List.length_append]; omega), htake, hframe.decoded]
  dsimp only
  rw [if_neg (UInt16.not_lt.mpr hheader), if_neg (by rw [List.length_append]; omega), hbody,
    if_neg hintact, hframe.payload, ← hlength, List.drop_left]

/-- A frame that is longer than allowed kills the link. -/
theorem processFrame_exceeding (hframe : FrameOf bytes header payload)
    (hbuffer : w.link.receiveBuffer = bytes ++ rest)
    (hexceeds : w.link.lsp.maxLen.toNat < bytes.length) :
    processFrame env now w = (false, w.update fun link => link.die.clearBuffer) := by
  have hnine := hframe.nine_le
  have hlength := hframe.length
  have hheader : header.length > w.link.lsp.maxLen := by
    show w.link.lsp.maxLen < header.length
    rw [UInt16.lt_iff_toNat_lt]
    omega
  have htake : (bytes ++ rest).take 9 = bytes.take 9 := List.take_append_of_le_length hnine
  unfold processFrame
  dsimp only
  rw [hbuffer, if_neg (by rw [List.length_append]; omega), htake, hframe.decoded]
  dsimp only
  rw [if_pos hheader]

/-- The loop waits for the rest of a frame. -/
theorem processFrame_incomplete (hframe : FrameOf bytes header payload) {more : Bytes}
    (hbuffer : w.link.receiveBuffer ++ more = bytes) (hmore : more ≠ [])
    (hallowed : bytes.length ≤ w.link.lsp.maxLen.toNat) :
    processFrame env now w = (false, w) := by
  have hpos : 0 < more.length := List.length_pos_iff.mpr hmore
  have hlength := hframe.length
  have hsplit := congrArg List.length hbuffer
  rw [List.length_append] at hsplit
  have hheader : header.length ≤ w.link.lsp.maxLen := by
    rw [UInt16.le_iff_toNat_le]
    omega
  unfold processFrame
  dsimp only
  -- the header itself may be incomplete
  by_cases hshort : w.link.receiveBuffer.length < 9
  · rw [if_pos hshort]
  · have htake : w.link.receiveBuffer.take 9 = bytes.take 9 := by
      rw [← hbuffer, List.take_append_of_le_length (by omega)]
    rw [if_neg hshort, htake, hframe.decoded]
    dsimp only
    rw [if_neg (UInt16.not_lt.mpr hheader), if_pos (by omega)]

/-- Past Detect, and with room in the buffer, `receive` goes straight to the loop. -/
theorem receive_eq_processPackets (hdetect : w.link.state ≠ .detect)
    (hroom : overflows w.link bytes = false) :
    receive env bytes now w = processPackets env now (w.setBuffer (w.link.receiveBuffer ++ bytes)) := by
  unfold receive
  rw [if_neg (by rw [hroom]; decide)]
  unfold scanBuffer
  dsimp only
  exact if_neg hdetect

end

end Iap2
end Aa2acp
