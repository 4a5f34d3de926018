import Aa2acp.Iap2.CsmStream
import Aa2acp.Lib.Scanner

/-!
# The control session decoder on any bytes

`Decoder.next` looks for a marker, drops what stands before it, and waits when less than
six bytes or less than a whole message are there.  What it drops at one time depends on
what has arrived.  A scanner that drops at most one byte at a time reads the same
messages, and what a scanner reads does not depend on the chunks.
-/

namespace Aa2acp
namespace Iap2
namespace Csm

/-! ## The scanner -/

/-- A message starts here: the marker, and a length that covers the header. -/
def StartsMessage (items : Bytes) : Prop :=
  items.getD 0 0 = 0x40 ∧ items.getD 1 0 = 0x40 ∧ 6 ≤ (readU16 items 2).toNat

instance : DecidablePred StartsMessage := fun _ => inferInstanceAs (Decidable (_ ∧ _ ∧ _))

/-- The message at the front. -/
def messageAt (items : Bytes) : Message :=
  ⟨readU16 items 4, (items.take (readU16 items 2).toNat).drop 6⟩

/-- Take the message at the front, or a byte where none starts. -/
def lookMessage (messages : List Message) (items : Bytes) : Option (ℕ × List Message) :=
  if items.length < 6 then none
  else if StartsMessage items then
    if items.length < (readU16 items 2).toNat then none
    else some ((readU16 items 2).toNat, messages ++ [messageAt items])
  else some (1, messages)

theorem readU16_append {items : Bytes} (more : Bytes) {offset : ℕ}
    (h : offset + 1 < items.length) : readU16 (items ++ more) offset = readU16 items offset := by
  simp only [readU16, getD_append_left h, getD_append_left (show offset < items.length by omega)]

theorem startsMessage_append {items : Bytes} (more : Bytes) (h : 6 ≤ items.length) :
    StartsMessage (items ++ more) ↔ StartsMessage items := by
  simp only [StartsMessage, getD_append_left (show 0 < items.length by omega),
    getD_append_left (show 1 < items.length by omega),
    readU16_append more (show 2 + 1 < items.length by omega)]

theorem messageAt_append {items : Bytes} (more : Bytes) (h : 6 ≤ items.length)
    (hwhole : (readU16 items 2).toNat ≤ items.length) :
    messageAt (items ++ more) = messageAt items := by
  simp only [messageAt, readU16_append more (show 2 + 1 < items.length by omega),
    readU16_append more (show 4 + 1 < items.length by omega),
    List.take_append_of_le_length hwhole]

/-- What is taken. -/
theorem lookMessage_cases {messages messages' : List Message} {items : Bytes} {count : ℕ}
    (h : lookMessage messages items = some (count, messages')) :
    6 ≤ items.length ∧
      ((StartsMessage items ∧ (readU16 items 2).toNat ≤ items.length ∧
          count = (readU16 items 2).toNat ∧ messages' = messages ++ [messageAt items]) ∨
        (¬ StartsMessage items ∧ count = 1 ∧ messages' = messages)) := by
  simp only [lookMessage] at h
  split at h
  · cases h
  · rename_i hlong
    split at h
    · rename_i hstarts
      split at h
      · cases h
      · rename_i hwhole
        cases h
        exact ⟨by omega, Or.inl ⟨hstarts, by omega, rfl, rfl⟩⟩
    · rename_i hstarts
      cases h
      exact ⟨by omega, Or.inr ⟨hstarts, rfl, rfl⟩⟩

def messageScanner : Scanner (List Message) UInt8 where
  look := lookMessage
  progress := by
    intro messages items count messages' h
    obtain ⟨hlong, ⟨hstarts, hwhole, rfl, -⟩ | ⟨-, rfl, -⟩⟩ := lookMessage_cases h
    · exact ⟨by have := hstarts.2.2; omega, hwhole⟩
    · exact ⟨by omega, by omega⟩
  stable := by
    intro messages items count messages' more h
    obtain ⟨hlong, hcase⟩ := lookMessage_cases h
    have hlong' : ¬ (items ++ more).length < 6 := by simp; omega
    have hfield := readU16_append more (show 2 + 1 < items.length by omega)
    rcases hcase with ⟨hstarts, hwhole, rfl, rfl⟩ | ⟨hstarts, rfl, rfl⟩
    · have hwhole' : ¬ (items ++ more).length < (readU16 items 2).toNat := by simp; omega
      simp only [lookMessage, hlong', if_false, if_pos ((startsMessage_append more hlong).mpr hstarts),
        hfield, hwhole', messageAt_append more hlong hwhole]
    · simp only [lookMessage, hlong', if_false,
        if_neg (mt (startsMessage_append more hlong).mp hstarts)]

/-- The messages read so far and those that the scanner finds in these bytes. -/
def scanMessages (messages : List Message) (items : Bytes) : List Message :=
  (messageScanner.drain messages items).1

theorem scanMessages_of_waits {messages : List Message} {items : Bytes}
    (h : lookMessage messages items = none) : scanMessages messages items = messages := by
  rw [scanMessages, messageScanner.drain_of_none h]

theorem scanMessages_of_short (messages : List Message) {items : Bytes} (h : items.length < 6) :
    scanMessages messages items = messages :=
  scanMessages_of_waits (if_pos h)

/-- A byte at which no message starts is dropped. -/
theorem scanMessages_cons (messages : List Message) {byte : UInt8} {items : Bytes}
    (h : ¬ StartsMessage (byte :: items)) :
    scanMessages messages (byte :: items) = scanMessages messages items := by
  by_cases hshort : (byte :: items).length < 6
  · rw [scanMessages_of_short messages hshort, scanMessages_of_short messages (by
      rw [List.length_cons] at hshort
      omega)]
  · have hlook : lookMessage messages (byte :: items) = some (1, messages) := by
      simp only [lookMessage, hshort, h, if_false]
    rw [scanMessages, messageScanner.drain_of_some hlook]
    rfl

/-- A message that is there as a whole is read. -/
theorem scanMessages_of_message (messages : List Message) {items : Bytes}
    (hlong : 6 ≤ items.length) (hstarts : StartsMessage items)
    (hwhole : (readU16 items 2).toNat ≤ items.length) :
    scanMessages messages items =
      scanMessages (messages ++ [messageAt items]) (items.drop (readU16 items 2).toNat) := by
  have hlook : lookMessage messages items =
      some ((readU16 items 2).toNat, messages ++ [messageAt items]) := by
    simp only [lookMessage, hstarts, if_true, show ¬ items.length < 6 by omega,
      show ¬ items.length < (readU16 items 2).toNat by omega, if_false]
  rw [scanMessages, messageScanner.drain_of_some hlook]
  rfl

/-! ## The decoder reads what the scanner reads -/

/-- The buffer as `next` leaves it when it returns nothing. -/
structure Settled (buffer : Bytes) : Prop where
  next : (Decoder.mk buffer).next = (none, ⟨buffer⟩)
  scan : ∀ messages, scanMessages messages buffer = messages
  length_le : buffer.length ≤ 65534

/-- `findStart` stands at the last byte or at a marker. -/
theorem findStart_cases (buffer : Bytes) (hpos : 0 < buffer.length) :
    Decoder.findStart buffer + 1 = buffer.length ∨
      Decoder.findStart buffer + 1 < buffer.length ∧
        (buffer.drop (Decoder.findStart buffer)).getD 0 0 = 0x40 ∧
        (buffer.drop (Decoder.findStart buffer)).getD 1 0 = 0x40 := by
  induction buffer using Decoder.findStart.induct with
  | case1 first second rest h =>
      simp [Decoder.findStart, h]
  | case2 first second rest h ih =>
      simp only [Decoder.findStart, h, if_false, List.drop_succ_cons, List.length_cons] at ih ⊢
      rcases ih (by omega) with hlast | hmarker
      · exact Or.inl (by omega)
      · exact Or.inr ⟨by omega, hmarker.2⟩
  | case3 buffer h =>
      match buffer, hpos, h with
      | [_], _, _ => exact Or.inl rfl
      | first :: second :: rest, _, h => exact absurd rfl (h first second rest)

/-- The scanner drops what stands before the marker, too. -/
theorem scanMessages_drop_findStart (messages : List Message) (buffer more : Bytes) :
    scanMessages messages (buffer ++ more) =
      scanMessages messages (buffer.drop (Decoder.findStart buffer) ++ more) := by
  induction buffer using Decoder.findStart.induct with
  | case1 first second rest h => simp [Decoder.findStart, h]
  | case2 first second rest h ih =>
      have hstarts : ¬ StartsMessage (first :: (second :: rest ++ more)) := by
        intro hstarts
        exact h ⟨hstarts.1, hstarts.2.1⟩
      simp only [Decoder.findStart, h, if_false, List.drop_succ_cons]
      rw [List.cons_append, scanMessages_cons messages hstarts, ih]
  | case3 buffer h =>
      match buffer, h with
      | [], _ => rfl
      | [_], _ => rfl
      | first :: second :: rest, h => exact absurd rfl (h first second rest)

theorem findStart_of_marker {buffer : Bytes} (hlong : 2 ≤ buffer.length)
    (h0 : buffer.getD 0 0 = 0x40) (h1 : buffer.getD 1 0 = 0x40) :
    Decoder.findStart buffer = 0 := by
  match buffer, hlong with
  | first :: second :: rest, _ => simpa [Decoder.findStart] using ⟨h0, h1⟩

section

variable {fuel : ℕ} {buffer : Bytes}

theorem nextFrom_of_short (h : buffer.length < 6) :
    Decoder.nextFrom fuel buffer = (none, ⟨buffer⟩) := by
  cases fuel <;> simp [Decoder.nextFrom, h]

theorem nextFrom_of_no_marker (hlong : ¬ buffer.length < 6)
    (hlast : Decoder.findStart buffer + 1 = buffer.length) :
    Decoder.nextFrom (fuel + 1) buffer =
      (none, ⟨buffer.drop (Decoder.findStart buffer)⟩) := by
  simp only [Decoder.nextFrom, hlong, hlast, if_true, if_false]

theorem nextFrom_of_junk (hlong : ¬ buffer.length < 6)
    (hmarker : ¬ Decoder.findStart buffer + 1 = buffer.length)
    (hjunk : Decoder.findStart buffer ≠ 0) :
    Decoder.nextFrom (fuel + 1) buffer =
      Decoder.nextFrom fuel (buffer.drop (Decoder.findStart buffer)) := by
  simp only [Decoder.nextFrom, hlong, hmarker, hjunk, if_false, if_true, ne_eq, not_false_eq_true]

theorem nextFrom_of_bad_length (hlong : ¬ buffer.length < 6)
    (hstart : Decoder.findStart buffer = 0) (hbad : readU16 buffer 2 < 6) :
    Decoder.nextFrom (fuel + 1) buffer = Decoder.nextFrom fuel (buffer.drop 1) := by
  have hmarker : ¬ 0 + 1 = buffer.length := by omega
  simp only [Decoder.nextFrom, hlong, hstart, hmarker, hbad, if_false, if_true, ne_eq,
    not_true_eq_false]

theorem nextFrom_of_part (hlong : ¬ buffer.length < 6)
    (hstart : Decoder.findStart buffer = 0) (hlength : ¬ readU16 buffer 2 < 6)
    (hpart : buffer.length < (readU16 buffer 2).toNat) :
    Decoder.nextFrom (fuel + 1) buffer = (none, ⟨buffer⟩) := by
  have hmarker : ¬ 0 + 1 = buffer.length := by omega
  simp only [Decoder.nextFrom, hlong, hstart, hmarker, hlength, hpart, if_false, if_true, ne_eq,
    not_true_eq_false]

end

theorem settled_of_short {buffer : Bytes} (h : buffer.length < 6) : Settled buffer where
  next := nextFrom_of_short h
  scan messages := scanMessages_of_short messages h
  length_le := by omega

/-- `next` waits for the rest of a message. -/
theorem settled_of_part {buffer : Bytes} (hlong : ¬ buffer.length < 6)
    (hstarts : StartsMessage buffer) (hpart : buffer.length < (readU16 buffer 2).toNat) :
    Settled buffer where
  next := by
    obtain ⟨fuel, hfuel⟩ := Nat.exists_eq_succ_of_ne_zero (show buffer.length ≠ 0 by omega)
    have hsix : ¬ readU16 buffer 2 < 6 := by
      rw [UInt16.lt_iff_toNat_lt]
      exact Nat.not_lt.mpr hstarts.2.2
    have hstart := findStart_of_marker (by omega) hstarts.1 hstarts.2.1
    show Decoder.nextFrom buffer.length buffer = _
    rw [hfuel, nextFrom_of_part hlong hstart hsix hpart]
  scan messages := by
    refine scanMessages_of_waits ?_
    simp only [lookMessage, hlong, hstarts, hpart, if_true, if_false]
  length_le := by
    have hlt := (readU16 buffer 2).toNat_lt
    omega

/-- What `next` returned and left is what the scanner reads, whatever comes after it. -/
def ScansAs (buffer : Bytes) : Option Message × Decoder → Prop
  | (none, decoder) =>
      Settled decoder.buffer ∧ ∀ messages more,
        scanMessages messages (buffer ++ more) = scanMessages messages (decoder.buffer ++ more)
  | (some message, decoder) =>
      decoder.buffer.length < buffer.length ∧ ∀ messages more,
        scanMessages messages (buffer ++ more) =
          scanMessages (messages ++ [message]) (decoder.buffer ++ more)

/-- The scanner drops what the loop drops. -/
theorem ScansAs.of_dropped {buffer rest : Bytes} {result : Option Message × Decoder}
    (h : ScansAs rest result) (hlength : rest.length ≤ buffer.length)
    (hdropped : ∀ messages more,
      scanMessages messages (buffer ++ more) = scanMessages messages (rest ++ more)) :
    ScansAs buffer result := by
  match result, h with
  | (none, _), ⟨hsettled, hscan⟩ =>
      exact ⟨hsettled, fun messages more => (hdropped messages more).trans (hscan messages more)⟩
  | (some _, _), ⟨hlt, hscan⟩ =>
      exact ⟨hlt.trans_le hlength, fun messages more =>
        (hdropped messages more).trans (hscan messages more)⟩

/-- At a marker with a length that does not cover the header, the scanner drops a byte. -/
theorem scanMessages_of_bad_length {buffer : Bytes} (hlong : ¬ buffer.length < 6)
    (hbad : readU16 buffer 2 < 6) (messages : List Message) (more : Bytes) :
    scanMessages messages (buffer ++ more) = scanMessages messages (buffer.drop 1 ++ more) := by
  match buffer, hlong, hbad with
  | byte :: items, hlong, hbad =>
      refine scanMessages_cons messages fun hstarts => ?_
      have hlong' : 6 ≤ (byte :: items).length := not_lt.mp hlong
      have hsix := ((startsMessage_append more hlong').mp hstarts).2.2
      exact absurd (UInt16.lt_iff_toNat_lt.mp hbad) (Nat.not_lt.mpr hsix)
  | [], hlong, _ => simp at hlong

/-- A call of `next` returns the next message of the scanner. -/
theorem nextFrom_scansAs {fuel : ℕ} {buffer : Bytes} (hfuel : buffer.length ≤ fuel) :
    ScansAs buffer (Decoder.nextFrom fuel buffer) := by
  induction fuel generalizing buffer with
  | zero =>
      have hshort : buffer.length < 6 := by omega
      exact ⟨settled_of_short hshort, fun _ _ => rfl⟩
  | succ fuel ih =>
      by_cases hshort : buffer.length < 6
      · rw [nextFrom_of_short hshort]
        exact ⟨settled_of_short hshort, fun _ _ => rfl⟩
      have hdropped := fun messages more => scanMessages_drop_findStart messages buffer more
      have hdrop (count : ℕ) := List.length_drop (i := count) (l := buffer)
      by_cases hlast : Decoder.findStart buffer + 1 = buffer.length
      · rw [nextFrom_of_no_marker hshort hlast]
        exact ⟨settled_of_short (by rw [hdrop]; omega), hdropped⟩
      obtain ⟨hinside, h0, h1⟩ := (findStart_cases buffer (by omega)).resolve_left hlast
      by_cases hjunk : Decoder.findStart buffer ≠ 0
      · rw [nextFrom_of_junk hshort hlast hjunk]
        exact (ih (by rw [hdrop]; omega)).of_dropped (by rw [hdrop]; omega) hdropped
      have hstart : Decoder.findStart buffer = 0 := not_not.mp hjunk
      rw [hstart, List.drop_zero] at h0 h1
      by_cases hbad : readU16 buffer 2 < 6
      · rw [nextFrom_of_bad_length hshort hstart hbad]
        exact (ih (by rw [hdrop]; omega)).of_dropped (by rw [hdrop]; omega)
          (scanMessages_of_bad_length hshort hbad)
      have hsix : 6 ≤ (readU16 buffer 2).toNat := UInt16.le_iff_toNat_le.mp (UInt16.not_lt.mp hbad)
      have hstarts : StartsMessage buffer := ⟨h0, h1, hsix⟩
      by_cases hpart : buffer.length < (readU16 buffer 2).toNat
      · rw [nextFrom_of_part hshort hstart hbad hpart]
        exact ⟨settled_of_part hshort hstarts hpart, fun _ _ => rfl⟩
      · rw [nextFrom_of_complete hshort hstart hbad hpart]
        refine ⟨by rw [hdrop]; omega, fun messages more => ?_⟩
        have hfield := readU16_append more (show 2 + 1 < buffer.length by omega)
        rw [scanMessages_of_message messages (by rw [List.length_append]; omega)
          ((startsMessage_append more (by omega)).mpr hstarts)
          (by rw [hfield, List.length_append]; omega), hfield,
          messageAt_append more (by omega) (by omega), List.drop_append_of_le_length (by omega)]
        rfl

/-- The messages that are drained are those of the scanner, and `next` has no more. -/
theorem drainFrom_scan {fuel : ℕ} {decoder : Decoder} (hfuel : decoder.buffer.length ≤ fuel)
    (messages : List Message) (more : Bytes) :
    Settled (decoder.drainFrom fuel).2.buffer ∧
      scanMessages messages (decoder.buffer ++ more) =
        scanMessages (messages ++ (decoder.drainFrom fuel).1)
          ((decoder.drainFrom fuel).2.buffer ++ more) := by
  induction fuel generalizing decoder messages with
  | zero =>
      have hshort : decoder.buffer.length < 6 := by omega
      exact ⟨settled_of_short hshort, by rw [Decoder.drainFrom, List.append_nil]⟩
  | succ fuel ih =>
      have hnext : ScansAs decoder.buffer decoder.next := nextFrom_scansAs le_rfl
      unfold Decoder.drainFrom
      split
      · rename_i rest hcall
        rw [hcall] at hnext
        obtain ⟨hsettled, hscan⟩ := hnext
        exact ⟨hsettled, by rw [List.append_nil]; exact hscan messages more⟩
      · rename_i message rest hcall
        rw [hcall] at hnext
        obtain ⟨hlt, hscan⟩ := hnext
        have hrest : rest.buffer.length ≤ fuel := by omega
        obtain ⟨hsettled, hrest⟩ := ih hrest (messages ++ [message])
        refine ⟨hsettled, ?_⟩
        rw [hscan, hrest, List.append_assoc]
        rfl

/-! ## Chunks -/

theorem settled_drain (decoder : Decoder) : Settled decoder.drain.2.buffer :=
  (drainFrom_scan le_rfl [] []).1

/-- `drain` calls `next` until it returns nothing. -/
theorem next_drain (decoder : Decoder) : decoder.drain.2.next = (none, decoder.drain.2) :=
  (settled_drain decoder).next

/-- One chunk, pushed and drained. -/
theorem Settled.drain_push {buffer chunk : Bytes} (h : Settled buffer)
    (hchunk : chunk.length ≤ kMaximumPush) (messages : List Message) (more : Bytes) :
    scanMessages messages (buffer ++ chunk ++ more) =
      scanMessages (messages ++ ((Decoder.mk buffer).push chunk).drain.1)
        (((Decoder.mk buffer).push chunk).drain.2.buffer ++ more) := by
  have hpush : (Decoder.mk buffer).push chunk = ⟨buffer ++ chunk⟩ :=
    push_of_not_discards (not_discards_of_fits h.length_le hchunk)
  rw [hpush]
  exact (drainFrom_scan le_rfl messages more).2

/-- The decoder reads what the scanner reads in all the chunks together. -/
theorem Settled.feed {buffer : Bytes} (h : Settled buffer) {chunks : List Bytes}
    (hchunks : ∀ chunk ∈ chunks, chunk.length ≤ kMaximumPush) (messages : List Message) :
    Settled ((Decoder.mk buffer).feed chunks).2.buffer ∧
      scanMessages messages (buffer ++ chunks.flatten) =
        messages ++ ((Decoder.mk buffer).feed chunks).1 := by
  induction chunks generalizing buffer messages with
  | nil =>
      refine ⟨h, ?_⟩
      rw [List.flatten_nil, List.append_nil, h.scan]
      exact (List.append_nil messages).symm
  | cons chunk chunks ih =>
      have hscan := h.drain_push (hchunks chunk List.mem_cons_self) messages chunks.flatten
      obtain ⟨hsettled, hlater⟩ := ih (settled_drain ((Decoder.mk buffer).push chunk))
        (fun other hother => hchunks other (List.mem_cons_of_mem _ hother))
        (messages ++ ((Decoder.mk buffer).push chunk).drain.1)
      refine ⟨hsettled, ?_⟩
      rw [List.flatten_cons, ← List.append_assoc, hscan, hlater, List.append_assoc]
      rfl

/-- The buffer between two pushes, whatever was pushed. -/
theorem settled_feed {chunks : List Bytes}
    (hchunks : ∀ chunk ∈ chunks, chunk.length ≤ kMaximumPush) :
    Settled (Decoder.feed chunks {}).2.buffer :=
  ((settled_of_short (by decide)).feed hchunks []).1

/-- The same bytes give the same messages, whatever they are and wherever they are cut. -/
theorem feed_eq_of_flatten_eq {bytes : Bytes} {chunks chunks' : List Bytes}
    (hchunks : ∀ chunk ∈ chunks, chunk.length ≤ kMaximumPush)
    (hchunks' : ∀ chunk ∈ chunks', chunk.length ≤ kMaximumPush)
    (hcut : chunks.flatten = bytes) (hcut' : chunks'.flatten = bytes) :
    (Decoder.feed chunks {}).1 = (Decoder.feed chunks' {}).1 := by
  have hempty : Settled [] := settled_of_short (by decide)
  have hscan := (hempty.feed hchunks []).2
  have hscan' := (hempty.feed hchunks' []).2
  rw [hcut] at hscan
  rw [hcut', hscan] at hscan'
  exact hscan'

/-- Garbage, an overlapping marker, a length below six, a message cut in its header. -/
theorem feed_eq_of_flatten_eq_garbage :
    let bytes : Bytes := [9, 0x40, 0x40, 0x40, 0, 6, 0x1d, 2, 0x40, 0x40, 0, 7, 0x1d, 3, 5, 0x40]
    let chunks : List Bytes := [bytes.take 3, (bytes.drop 3).take 8, [], bytes.drop 11]
    chunks.flatten = bytes ∧ [bytes].flatten = bytes ∧
      (Decoder.feed chunks {}).1 = (Decoder.feed [bytes] {}).1 :=
  ⟨by decide, by decide, feed_eq_of_flatten_eq (by decide) (by decide) rfl (by decide)⟩

/-! ## Whole messages -/

/-- What was encoded is decoded, and no push loses anything on the way. -/
theorem feed_encodeAll {messages : List Message} (h : ∀ message ∈ messages, message.Encodable)
    {chunks : List Bytes} (hchunks : ∀ chunk ∈ chunks, chunk.length ≤ kMaximumPush)
    (hcut : chunks.flatten = encodeAll messages) :
    Decoder.feed chunks {} = (messages, {}) ∧
      ∀ before chunk after, chunks = before ++ chunk :: after →
        (Decoder.feed before {}).2.buffer.length ≤ 65534 ∧
          ¬ (Decoder.feed before {}).2.Discards chunk := by
  refine ⟨(waiting_nil h).feed h hchunks hcut, ?_⟩
  rintro before chunk after rfl
  have hbefore : ∀ other ∈ before, other.length ≤ kMaximumPush := fun other hother =>
    hchunks other (List.mem_append_left _ hother)
  have hlength := (settled_feed hbefore).length_le
  exact ⟨hlength, not_discards_of_fits hlength (hchunks chunk (by simp))⟩

/-- A payload that looks like a message, cut inside its marker and inside both lengths. -/
theorem feed_encodeAll_nested :
    let messages : List Message := [⟨0x1d00, [0x40, 0x40, 0, 6, 1, 2]⟩, ⟨0xaa00, []⟩]
    let chunks : List Bytes :=
      [[0x40], [0x40, 0], [12, 0x1d, 0, 0x40, 0x40, 0], [6, 1, 2, 0x40, 0x40, 0], [6, 0xaa, 0]]
    Decoder.feed chunks {} = (messages, {}) ∧
      ∀ before chunk after, chunks = before ++ chunk :: after →
        (Decoder.feed before {}).2.buffer.length ≤ 65534 ∧
          ¬ (Decoder.feed before {}).2.Discards chunk :=
  feed_encodeAll (by decide) (by decide) (by decide)

end Csm
end Iap2
end Aa2acp
