import Aa2acp.Airplay.MicrophoneReplay
import Aa2acp.Lib.LittleEndian

/-!
# The audio streams

The senders of `run_session` in `airplay/session.cpp`: one for the media audio and, in
`launch_auxiliary_audio`, one for each of the other two.  They differ in the size of a frame
of PCM.  A packet is an RTP header, the encrypted samples in the other byte order and the
counter that its nonce was made of, which is the format that the receiver of the microphone
reads.

What a sender puts into its packets, that receiver gets out again (`audioStream_received`),
and the headers count packets and frames without a gap (`audioStream_timeline`).
-/

namespace Aa2acp
namespace Airplay
namespace Audio

open Microphone

/-- The variables in front of the loop. -/
structure Sender where
  sequence : UInt16 := 0
  timestamp : UInt32 := 0
  nonceCounter : UInt64 := 0
deriving DecidableEq

/-- The RTP header: version 2, payload type 100, and no source. -/
def rtpHeader (sequence : UInt16) (timestamp : UInt32) : Bytes :=
  [0x80, 100] ++ bigEndian 2 sequence.toNat ++ bigEndian 4 timestamp.toNat ++ List.replicate 4 0

/-- `nonce12`. -/
def nonce12 (counter : UInt64) : Bytes := List.replicate 4 (0 : UInt8) ++ littleEndian 8 counter.toNat

namespace Sender

/-- The packet for a chunk of PCM, if it can be encrypted. -/
def packet (aead : Aead) (key : Bytes) (sender : Sender) (pcm : Bytes) : Option Bytes :=
  let header := rtpHeader sender.sequence sender.timestamp
  (aead.sealWithNonce key (nonce12 sender.nonceCounter) (swapSamples pcm)
    ((header.drop 4).take 8)).map fun encrypted =>
      header ++ encrypted ++ littleEndian 8 sender.nonceCounter.toNat

/-- The variables when the packet was sent. -/
def advance (frameSize : ℕ) (sender : Sender) (pcm : Bytes) : Sender where
  sequence := sender.sequence + 1
  timestamp := sender.timestamp + (pcm.length / frameSize).toUInt32
  nonceCounter := sender.nonceCounter + 1

/-- The packets that the loop sends.  A turn is what `next` returned and whether
`send_udp_packet` took the packet made of it; after the last one `next` returns nothing, or a
stop is requested. -/
def run (aead : Aead) (key : Bytes) (frameSize : ℕ) : Sender → List (Bytes × Bool) → List Bytes
  | _, [] => []
  | sender, (pcm, accepted) :: turns =>
      if pcm = [] ∨ pcm.length % frameSize ≠ 0 then run aead key frameSize sender turns
      else
        match sender.packet aead key pcm with
        | none => []
        | some packet =>
            if accepted then packet :: run aead key frameSize (sender.advance frameSize pcm) turns else []

end Sender

/-- The sender of the media audio: stereo samples of 16 bits. -/
def sendMediaAudio (aead : Aead) (audioKey : Bytes) (turns : List (Bytes × Bool)) : List Bytes :=
  Sender.run aead audioKey 4 {} turns

/-- `launch_auxiliary_audio`: mono samples of 16 bits. -/
def sendAuxiliaryAudio (aead : Aead) (key : Bytes) (turns : List (Bytes × Bool)) : List Bytes :=
  Sender.run aead key 2 {} turns

/-! ## The format of a packet -/

/-- The chunks that packets are made of. -/
def playable (frameSize : ℕ) (turns : List (Bytes × Bool)) : List Bytes :=
  (turns.map Prod.fst).filter fun pcm => pcm ≠ [] ∧ pcm.length % frameSize = 0

@[simp] theorem length_rtpHeader (sequence : UInt16) (timestamp : UInt32) :
    (rtpHeader sequence timestamp).length = 12 := rfl

@[simp] theorem length_nonce12 (counter : UInt64) : (nonce12 counter).length = 12 := by
  simp [nonce12]

/-- Samples that are turned round twice are as they were. -/
theorem swapSamples_swapSamples : ∀ pcm : Bytes, swapSamples (swapSamples pcm) = pcm
  | [] => rfl
  | [_] => rfl
  | first :: second :: rest => by
      rw [swapSamples, swapSamples, swapSamples_swapSamples rest]

@[simp] theorem length_swapSamples : ∀ pcm : Bytes, (swapSamples pcm).length = pcm.length
  | [] => rfl
  | [_] => rfl
  | first :: second :: rest => by
      rw [swapSamples, List.length_cons, List.length_cons, length_swapSamples rest,
        List.length_cons, List.length_cons]

variable {aead : Aead} {key pcm packet : Bytes} {sender : Sender}

theorem nonceCounter_packet (front : Bytes) (counter : UInt64) :
    nonceCounter (front ++ littleEndian 8 counter.toNat) = counter := by
  have hbytes : ∀ index, (front ++ littleEndian 8 counter.toNat).getD
      ((front ++ littleEndian 8 counter.toNat).length - 8 + index) 0 =
        (littleEndian 8 counter.toNat).getD index 0 := by
    intro index
    have hindex : (front ++ littleEndian 8 counter.toNat).length - 8 + index = front.length + index := by
      rw [List.length_append, length_littleEndian, Nat.add_sub_cancel]
    rw [hindex, List.getD_append_right _ _ _ _ (Nat.le_add_right _ _), Nat.add_sub_cancel_left]
  have hcollect : nonceCounter (front ++ littleEndian 8 counter.toNat) =
      collect (littleEndian 8 counter.toNat) 8 := by
    unfold nonceCounter collect
    simp only [hbytes]
  rw [hcollect]
  apply UInt64.toNat_inj.mp
  rw [toNat_collect (length_littleEndian 8 _), ofLittleEndian_littleEndian counter.toNat_lt]

/-- A packet and the body that was encrypted for it. -/
theorem exists_body (hpacket : sender.packet aead key pcm = some packet) :
    ∃ body, aead.sealWithNonce key (nonce12 sender.nonceCounter) (swapSamples pcm)
        (((rtpHeader sender.sequence sender.timestamp).drop 4).take 8) = some body ∧
      packet = rtpHeader sender.sequence sender.timestamp ++ body ++ littleEndian 8 sender.nonceCounter.toNat ∧
      (packet.drop 12).take (packet.length - 20) = body := by
  obtain ⟨body, hseal, rfl⟩ := Option.map_eq_some_iff.mp hpacket
  refine ⟨body, hseal, rfl, ?_⟩
  have hsize : (rtpHeader sender.sequence sender.timestamp ++ body ++
      littleEndian 8 sender.nonceCounter.toNat).length - 20 = body.length := by
    rw [List.length_append, List.length_append, length_rtpHeader, length_littleEndian]
    omega
  rw [hsize, List.append_assoc, List.drop_left' (length_rtpHeader _ _), List.take_left]

/-- The receiver opens a packet and gets what was encrypted. -/
theorem openPacket_packet (hround : aead.RoundTrips) (hpacket : sender.packet aead key pcm = some packet) :
    openPacket aead key packet = some (sender.nonceCounter, swapSamples pcm) := by
  obtain ⟨encrypted, hseal, rfl⟩ := Option.map_eq_some_iff.mp hpacket
  obtain ⟨hlength, hopen⟩ := hround.open_seal hseal
  have hheader := length_rtpHeader sender.sequence sender.timestamp
  have htail := length_littleEndian 8 sender.nonceCounter.toNat
  have hcounter := nonceCounter_packet (rtpHeader sender.sequence sender.timestamp ++ encrypted)
    sender.nonceCounter
  have hfirst : ∀ rest, (rtpHeader sender.sequence sender.timestamp ++ rest).getD 0 0 = 0x80 := fun _ => rfl
  have hsecond : ∀ rest, (rtpHeader sender.sequence sender.timestamp ++ rest).getD 1 0 = 100 := fun _ => rfl
  generalize rtpHeader sender.sequence sender.timestamp = header at *
  generalize hnonce : littleEndian 8 sender.nonceCounter.toNat = nonce at *
  have hsize : (header ++ encrypted ++ nonce).length = 12 + encrypted.length + 8 := by
    rw [List.length_append, List.length_append, hheader, htail]
  have hend : (header ++ encrypted ++ nonce).drop (12 + encrypted.length + 8 - 8) = nonce :=
    List.drop_left' (by rw [List.length_append, hheader, Nat.add_sub_cancel])
  have hmiddle : ((header ++ encrypted ++ nonce).drop 12).take (12 + encrypted.length + 8 - 12 - 8) =
      encrypted := by
    have hcount : 12 + encrypted.length + 8 - 12 - 8 = encrypted.length := by omega
    rw [List.append_assoc, List.drop_left' hheader, hcount, List.take_left]
  have hclear : ((header ++ encrypted ++ nonce).drop 4).take 8 = (header.drop 4).take 8 := by
    rw [List.append_assoc, List.drop_append_of_le_length (by rw [hheader]; norm_num),
      List.take_append_of_le_length (by rw [List.length_drop, hheader])]
  unfold openPacket
  dsimp only
  rw [hsize, if_neg (by omega), List.append_assoc, hfirst, hsecond, ← List.append_assoc, if_neg (by decide), hend,
    hmiddle, hclear, ← hnonce]
  rw [nonce12] at hopen
  rw [hopen, Option.map_some, hnonce, hcounter]

/-! ## The packets of a run -/

variable {frameSize : ℕ} {turns : List (Bytes × Bool)} {n : ℕ}

/-- The variables after these chunks were sent. -/
def Sender.after (frameSize : ℕ) (chunks : List Bytes) : Sender := chunks.foldl (Sender.advance frameSize) {}

theorem run_getElem? (sender : Sender) (h : (sender.run aead key frameSize turns)[n]? = some packet) :
    ∃ pcm, (playable frameSize turns)[n]? = some pcm ∧
      (((playable frameSize turns).take n).foldl (Sender.advance frameSize) sender).packet aead key pcm =
        some packet := by
  induction turns generalizing sender n with
  | nil => simp [Sender.run] at h
  | cons turn turns ih =>
      obtain ⟨pcm, accepted⟩ := turn
      unfold Sender.run at h
      split at h
      · -- a chunk that is skipped
        rename_i hskip
        have hplayable : playable frameSize ((pcm, accepted) :: turns) = playable frameSize turns := by
          unfold playable
          rw [List.map_cons, List.filter_cons_of_neg (by simp; tauto)]
        rw [hplayable]
        exact ih sender h
      · rename_i hsend
        have hplayable : playable frameSize ((pcm, accepted) :: turns) = pcm :: playable frameSize turns := by
          unfold playable
          rw [List.map_cons, List.filter_cons_of_pos (by simp; tauto)]
        rw [hplayable]
        cases hpacket : sender.packet aead key pcm with
        | none => simp [hpacket] at h
        | some first =>
            cases accepted with
            | false => simp [hpacket] at h
            | true =>
                rw [hpacket] at h
                dsimp only at h
                rw [if_pos rfl] at h
                cases n with
                | zero =>
                    cases h
                    exact ⟨pcm, rfl, hpacket⟩
                | succ n => exact ih (sender.advance frameSize pcm) h

theorem after_concat (chunks : List Bytes) (pcm : Bytes) :
    Sender.after frameSize (chunks ++ [pcm]) = (Sender.after frameSize chunks).advance frameSize pcm :=
  List.foldl_concat _ _ _ _

/-- How many frames the chunks have. -/
def frames (frameSize : ℕ) (chunks : List Bytes) : ℕ := (chunks.map fun pcm => pcm.length / frameSize).sum

/-- The variables count packets and frames, each as far as it can. -/
theorem after_eq (frameSize : ℕ) (chunks : List Bytes) :
    Sender.after frameSize chunks =
      ⟨chunks.length.toUInt16, (frames frameSize chunks).toUInt32, chunks.length.toUInt64⟩ := by
  induction chunks using List.reverseRecOn with
  | nil => rfl
  | append_singleton chunks pcm ih =>
      have hframes : frames frameSize (chunks ++ [pcm]) = frames frameSize chunks + pcm.length / frameSize := by
        simp [frames]
      rw [after_concat, ih, hframes, List.length_append, List.length_singleton]
      simp [Sender.advance]

/-- The packet with a number. -/
theorem run_packet (h : (Sender.run aead key frameSize {} turns)[n]? = some packet) :
    ∃ pcm, (playable frameSize turns)[n]? = some pcm ∧
      Sender.packet aead key ⟨n.toUInt16, (frames frameSize ((playable frameSize turns).take n)).toUInt32,
        n.toUInt64⟩ pcm = some packet := by
  obtain ⟨pcm, hpcm, hpacket⟩ := run_getElem? {} h
  have hlength : ((playable frameSize turns).take n).length = n := by
    rw [List.length_take, Nat.min_eq_left (List.getElem?_eq_some_iff.mp hpcm).1.le]
  have hafter := after_eq frameSize ((playable frameSize turns).take n)
  rw [hlength] at hafter
  exact ⟨pcm, hpcm, by rw [← hafter]; exact hpacket⟩

/-- The counters of a header as the bytes of the numbers that they count. -/
theorem rtpHeader_counts (n timestamp : ℕ) :
    rtpHeader n.toUInt16 timestamp.toUInt32 =
      [0x80, 100] ++ bigEndian 2 n ++ bigEndian 4 timestamp ++ List.replicate 4 0 := by
  have hsequence : bigEndian 2 n.toUInt16.toNat = bigEndian 2 n := bigEndian_mod 2 n
  have htimestamp : bigEndian 4 timestamp.toUInt32.toNat = bigEndian 4 timestamp := bigEndian_mod 4 timestamp
  rw [rtpHeader, hsequence, htimestamp]

theorem littleEndian_toUInt64 (n : ℕ) : littleEndian 8 n.toUInt64.toNat = littleEndian 8 n := littleEndian_mod 8 n

/-- The packets of a sender are numbered in the order of the chunks; the counters in a packet are
its number and how many frames came before it, and its nonce was made of its number. -/
theorem audioStream_timeline (aead : Aead) (key : Bytes) (frameSize : ℕ) (turns : List (Bytes × Bool)) :
    ∃ bodies : List Bytes,
      Sender.run aead key frameSize {} turns = (bodies.mapIdx fun n body =>
        [0x80, 100] ++ bigEndian 2 n ++ bigEndian 4 (frames frameSize ((playable frameSize turns).take n)) ++
          List.replicate 4 0 ++ body ++ littleEndian 8 n) ∧
      ∀ n body, bodies[n]? = some body → ∃ pcm, (playable frameSize turns)[n]? = some pcm ∧
        aead.sealWithNonce key (List.replicate 4 0 ++ littleEndian 8 n) (swapSamples pcm)
          (bigEndian 4 (frames frameSize ((playable frameSize turns).take n)) ++ List.replicate 4 0) =
            some body := by
  refine ⟨(Sender.run aead key frameSize {} turns).map fun packet =>
    (packet.drop 12).take (packet.length - 20), ?_, ?_⟩
  · apply List.ext_getElem?
    intro n
    rw [List.getElem?_mapIdx, List.getElem?_map, Option.map_map]
    cases hpacket : (Sender.run aead key frameSize {} turns)[n]? with
    | none => rfl
    | some packet =>
        obtain ⟨pcm, -, hmade⟩ := run_packet hpacket
        obtain ⟨body, -, hlayout, hbody⟩ := exists_body hmade
        dsimp only at hlayout
        rw [rtpHeader_counts, littleEndian_toUInt64] at hlayout
        show some packet = some _
        dsimp only [Function.comp_apply]
        rw [hbody, ← hlayout]
  · intro n body hn
    rw [List.getElem?_map, Option.map_eq_some_iff] at hn
    obtain ⟨packet, hpacket, hbody⟩ := hn
    obtain ⟨pcm, hpcm, hmade⟩ := run_packet hpacket
    obtain ⟨other, hseal, -, hother⟩ := exists_body hmade
    obtain rfl : other = body := hother.symm.trans hbody
    rw [nonce12, littleEndian_toUInt64] at hseal
    rw [rtpHeader_counts] at hseal
    exact ⟨pcm, hpcm, hseal⟩

/-! ## What the receiver makes of them -/

/-- The receiver has passed these packets on. -/
structure Passed (chunks : List Bytes) (passed : List ℕ) (receiver : Receiver) : Prop where
  counters : receiver.passed = passed.map Nat.toUInt64
  received : receiver.received.map some = passed.map fun n => chunks[n]?
  agrees : Agrees receiver.window receiver.passed

/-- No packet comes 64 or more numbers late. -/
def OnTime (arrivals : List ℕ) : Prop := arrivals.Pairwise fun earlier later => earlier < later + 64

theorem passed_nil (chunks : List Bytes) : Passed chunks [] {} where
  counters := rfl
  received := rfl
  agrees := Agrees.empty

theorem Passed.nodup {chunks : List Bytes} {passed : List ℕ} {receiver : Receiver}
    (h : Passed chunks passed receiver) : passed.Nodup := by
  have hnodup := h.agrees.nodup
  rw [h.counters] at hnodup
  exact hnodup.of_map

theorem mem_numbers {passed : List ℕ} {n : ℕ} (hsmall : ∀ m ∈ passed, m < 2 ^ 64) :
    n ∈ numbers (passed.map Nat.toUInt64) ↔ n ∈ passed := by
  constructor
  · rintro ⟨counter, hmem, rfl⟩
    obtain ⟨m, hm, rfl⟩ := List.mem_map.mp hmem
    have hsame : m.toUInt64.toNat = m := Nat.mod_eq_of_lt (hsmall m hm)
    rwa [hsame]
  · intro hmem
    exact ⟨n.toUInt64, List.mem_map_of_mem hmem, Nat.mod_eq_of_lt (hsmall n hmem)⟩

/-- A packet that has not been there and is not too late passes the window. -/
theorem Passed.passes {chunks : List Bytes} {passed : List ℕ} {receiver : Receiver}
    (h : Passed chunks passed receiver) (hsmall : ∀ m ∈ passed, m < 2 ^ 64) (hn : n < 2 ^ 64)
    (hnew : n ∉ passed) (hontime : ∀ m ∈ passed, m < n + 64) :
    ReplayWindow.Passes 64 (numbers receiver.passed) n.toUInt64.toNat := by
  have hvalue : n.toUInt64.toNat = n := Nat.mod_eq_of_lt hn
  have hnumbers : ∀ m, m ∈ numbers receiver.passed ↔ m ∈ passed := by
    intro m
    rw [h.counters, mem_numbers hsmall]
  rw [hvalue]
  cases hhave : receiver.window.haveNonce with
  | false =>
      have hempty := h.agrees.fresh hhave
      exact ReplayWindow.passes_of_empty (by rw [hempty, numbers_nil])
  | true =>
      have hgreatest := (h.agrees.shows hhave).greatest
      refine Or.inr ⟨_, hgreatest, ?_⟩
      rcases Nat.lt_or_ge receiver.window.highestNonce.toNat n with hlt | hge
      · exact Or.inl hlt
      · have hlate := hontime _ ((hnumbers _).mp hgreatest.1)
        exact Or.inr ⟨hge, by omega, fun hmem => hnew ((hnumbers n).mp hmem)⟩

section Stream

variable (hround : aead.RoundTrips) (heven : 2 ∣ frameSize)
include hround heven

/-- One packet of the stream comes to the receiver. -/
theorem Passed.receive {passed : List ℕ} {receiver : Receiver}
    (h : Passed (playable frameSize turns) passed receiver)
    (hpacket : (Sender.run aead key frameSize {} turns)[n]? = some packet) :
    (ReplayWindow.Passes 64 (numbers receiver.passed) n.toUInt64.toNat ∧
      Passed (playable frameSize turns) (passed ++ [n]) (receiver.receive aead key packet)) ∨
    (¬ ReplayWindow.Passes 64 (numbers receiver.passed) n.toUInt64.toNat ∧
      receiver.receive aead key packet = receiver) := by
  obtain ⟨pcm, hpcm, hmade⟩ := run_packet hpacket
  have hopen := openPacket_packet hround hmade
  have hsamples : pcm.length % 2 = 0 := by
    have hmem := List.mem_of_getElem? hpcm
    have hframes : pcm.length % frameSize = 0 := by
      simp [playable] at hmem
      exact hmem.2.2
    exact Nat.mod_eq_zero_of_dvd (heven.trans (Nat.dvd_of_mod_eq_zero hframes))
  unfold Receiver.receive
  rw [hopen]
  dsimp only
  rcases h.agrees.admit n.toUInt64 with ⟨hpasses, window', hadmitted, hagrees⟩ | ⟨hnot, hdropped⟩
  · rw [hadmitted]
    refine Or.inl ⟨hpasses, ?_, ?_, hagrees⟩
    · rw [h.counters, List.map_append, List.map_singleton]
    · dsimp only
      rw [length_swapSamples, hsamples, if_neg (by decide), swapSamples_swapSamples, List.map_append,
        h.received, List.map_append, List.map_singleton, List.map_singleton, hpcm]
  · rw [hdropped]
    exact Or.inr ⟨hnot, rfl⟩

/-- Whatever becomes of the packets on their way. -/
theorem receiveAll_stream (hcount : (Sender.run aead key frameSize {} turns).length ≤ 2 ^ 64)
    (arrivals : List (Fin (Sender.run aead key frameSize {} turns).length)) :
    ∃ passed, passed.Sublist (arrivals.map Fin.val) ∧
      Passed (playable frameSize turns) passed
        (receiveAll aead key (arrivals.map (Sender.run aead key frameSize {} turns).get)) ∧
      ((arrivals.map Fin.val).Nodup → OnTime (arrivals.map Fin.val) → passed = arrivals.map Fin.val) := by
  induction arrivals using List.reverseRecOn with
  | nil => exact ⟨[], List.Sublist.refl _, passed_nil _, fun _ _ => rfl⟩
  | append_singleton arrivals n ih =>
      obtain ⟨passed, hsublist, hpassed, hall⟩ := ih
      have hpacket := List.getElem?_eq_getElem n.isLt
      have hnext : receiveAll aead key ((arrivals ++ [n]).map (Sender.run aead key frameSize {} turns).get) =
          (receiveAll aead key (arrivals.map (Sender.run aead key frameSize {} turns).get)).receive aead key
            (Sender.run aead key frameSize {} turns)[n.val] := by
        rw [List.map_append, List.map_singleton]
        exact List.foldl_concat _ _ _ _
      rw [hnext, List.map_append, List.map_singleton]
      rcases hpassed.receive hround heven hpacket with ⟨-, hlater⟩ | ⟨hnot, hsame⟩
      · refine ⟨passed ++ [n.val], hsublist.append (List.Sublist.refl _), hlater, fun hnodup hontime => ?_⟩
        rw [hall (List.Nodup.of_append_left hnodup) (List.pairwise_append.mp hontime).1]
      · rw [hsame]
        refine ⟨passed, hsublist.trans (List.sublist_append_left _ _), hpassed, fun hnodup hontime => ?_⟩
        have hearlier := hall (List.Nodup.of_append_left hnodup) (List.pairwise_append.mp hontime).1
        -- a packet that is on time is not dropped
        refine absurd (hpassed.passes ?_ ?_ ?_ ?_) hnot
        · intro m hm
          obtain ⟨index, -, rfl⟩ := List.mem_map.mp (hsublist.subset hm)
          exact index.isLt.trans_le hcount
        · exact n.isLt.trans_le hcount
        · rw [hearlier]
          exact fun hmem => (List.disjoint_of_nodup_append hnodup) hmem (List.mem_singleton_self _)
        · rw [hearlier]
          exact fun m hm => (List.pairwise_append.mp hontime).2.2 m hm _ (List.mem_singleton_self _)

end Stream

/-- However the network loses, repeats and reorders the packets of a sender, the receiver with the
same key passes on chunks of the sender, each as it was and none twice, in the order in which their
packets came; and when no packet comes twice or 64 numbers late, it passes on all that came. -/
theorem audioStream_received (hround : aead.RoundTrips) (heven : 2 ∣ frameSize)
    (hcount : (Sender.run aead key frameSize {} turns).length ≤ 2 ^ 64)
    (arrivals : List (Fin (Sender.run aead key frameSize {} turns).length)) :
    ∃ passed : List ℕ, passed.Nodup ∧ passed.Sublist (arrivals.map Fin.val) ∧
      (receiveAll aead key (arrivals.map (Sender.run aead key frameSize {} turns).get)).received.map some =
        passed.map (fun n => (playable frameSize turns)[n]?) ∧
      ((arrivals.map Fin.val).Nodup → OnTime (arrivals.map Fin.val) → passed = arrivals.map Fin.val) := by
  obtain ⟨passed, hsublist, hpassed, hall⟩ := receiveAll_stream hround heven hcount arrivals
  exact ⟨passed, hpassed.nodup, hsublist, hpassed.received, hall⟩

/-- What the cipher makes of two chunks of media audio. -/
def twoChunks : List Aead.Answer :=
  [⟨List.replicate 32 0x42, List.replicate 12 0, [2, 1, 4, 3], List.replicate 8 0,
      [91, 103, 224, 40], [12, 16, 195, 0, 108, 89, 157, 168, 216, 42, 0, 106, 26, 60, 101, 48]⟩,
    ⟨List.replicate 32 0x42, [0, 0, 0, 0, 1, 0, 0, 0, 0, 0, 0, 0], [6, 5, 8, 7], [0, 0, 0, 1, 0, 0, 0, 0],
      [139, 141, 168, 25], [12, 33, 107, 16, 132, 72, 156, 178, 224, 17, 97, 84, 21, 193, 120, 152]⟩]

/-- Half a frame between two frames is skipped, and the packets come in the other order. -/
theorem audioStream_received_reordered :
    ∃ first second, sendMediaAudio (.ofAnswers twoChunks) (List.replicate 32 0x42)
        [([1, 2, 3, 4], true), ([5, 6], true), ([5, 6, 7, 8], true)] = [first, second] ∧
      (receiveAll (.ofAnswers twoChunks) (List.replicate 32 0x42) [second, first]).received =
        [[5, 6, 7, 8], [1, 2, 3, 4]] := by
  obtain ⟨first, second, hsent⟩ : ∃ first second, sendMediaAudio (.ofAnswers twoChunks)
      (List.replicate 32 0x42) [([1, 2, 3, 4], true), ([5, 6], true), ([5, 6, 7, 8], true)] =
        [first, second] := ⟨_, _, rfl⟩
  refine ⟨first, second, hsent, ?_⟩
  have hround : (Aead.ofAnswers twoChunks).RoundTrips :=
    Aead.ofAnswers_roundTrips (by decide) (by decide)
  have htwo : (Sender.run (.ofAnswers twoChunks) (List.replicate 32 0x42) 4 {}
      [([1, 2, 3, 4], true), ([5, 6], true), ([5, 6, 7, 8], true)]).length = 2 := congrArg List.length hsent
  obtain ⟨passed, -, -, hreceived, hall⟩ := audioStream_received hround (by decide)
    (htwo.trans_le (by norm_num)) [⟨1, htwo ▸ by decide⟩, ⟨0, htwo ▸ by decide⟩]
  have harrived : ∀ (packets : List Bytes) (hone : 1 < packets.length) (hzero : 0 < packets.length),
      packets = [first, second] → [⟨1, hone⟩, ⟨0, hzero⟩].map packets.get = [second, first] := by
    rintro packets hone hzero rfl
    rfl
  unfold sendMediaAudio at hsent
  rw [hall (by simp) (by simp [OnTime]), harrived _ _ _ hsent] at hreceived
  exact List.map_injective_iff.mpr (Option.some_injective Bytes) hreceived

end Audio
end Airplay
end Aa2acp
