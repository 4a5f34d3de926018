import Aa2acp.Airplay.Crypto
import Aa2acp.Lib.ReplayWindow

/-!
# The microphone stream

The receiver of the microphone's packets in `run_session` of `airplay/session.cpp`.  A packet
carries its nonce in its last eight bytes; a packet that authenticates is passed on unless
its nonce has passed before or is too old for the window of 64 nonces.

The receiver's three variables are right (`Agrees`) after any packets
(`receiveAll_agrees`).
-/

namespace Aa2acp
namespace Airplay
namespace Microphone

/-- The eight bytes at the end, least significant byte first. -/
def nonceCounter (packet : Bytes) : UInt64 :=
  (List.range 8).foldl (fun counter index =>
    counter ||| (packet.getD (packet.length - 8 + index) 0).toUInt64 <<< (index * 8).toUInt64) 0

/-- The nonce counter and the decrypted payload of a packet, unless it is skipped. -/
def openPacket (aead : Aead) (key packet : Bytes) : Option (UInt64 × Bytes) :=
  let size := packet.length
  if size < 12 + 16 + 8 then none
  else if packet.getD 0 0 >>> 6 ≠ 2 ∨ packet.getD 1 0 &&& 0x7F ≠ 100 then none
  else
    let nonce := List.replicate 4 (0 : UInt8) ++ packet.drop (size - 8)
    (aead.openWithNonce key nonce ((packet.drop 12).take (size - 12 - 8))
      ((packet.drop 4).take 8)).map fun decrypted => (nonceCounter packet, decrypted)

/-- The variables in front of the loop. -/
structure Window where
  highestNonce : UInt64 := 0
  replayWindow : UInt64 := 0
  haveNonce : Bool := false
deriving DecidableEq

/-- The variables after a packet with this counter; no value when the packet is dropped. -/
def Window.admit (window : Window) (nonceCounter : UInt64) : Option Window :=
  if window.haveNonce then
    if window.highestNonce < nonceCounter then
      let distance := nonceCounter - window.highestNonce
      some { window with
        replayWindow := if 64 ≤ distance then 1 else (window.replayWindow <<< distance) ||| 1
        highestNonce := nonceCounter }
    else
      let distance := window.highestNonce - nonceCounter
      if 64 ≤ distance ∨ window.replayWindow &&& ((1 : UInt64) <<< distance) ≠ 0 then none
      else some { window with replayWindow := window.replayWindow ||| ((1 : UInt64) <<< distance) }
  else some { highestNonce := nonceCounter, replayWindow := 1, haveNonce := true }

/-- The bytes of every sample in the other order. -/
def swapSamples : Bytes → Bytes
  | first :: second :: rest => second :: first :: swapSamples rest
  | rest => rest

structure Receiver where
  window : Window := {}
  /-- The counters of the packets that passed the window so far. -/
  passed : List UInt64 := []
  /-- What the callback got so far. -/
  received : List Bytes := []
deriving DecidableEq

/-- One turn of the loop in which a packet was there. -/
def Receiver.receive (aead : Aead) (key : Bytes) (receiver : Receiver) (packet : Bytes) : Receiver :=
  match openPacket aead key packet with
  | none => receiver
  | some (nonceCounter, decrypted) =>
      match receiver.window.admit nonceCounter with
      | none => receiver
      | some window =>
          let received :=
            -- half a sample is not passed on, although its packet has passed the window
            if decrypted.length % 2 ≠ 0 then receiver.received
            else receiver.received ++ [swapSamples decrypted]
          { window, passed := receiver.passed ++ [nonceCounter], received }

def receiveAll (aead : Aead) (key : Bytes) (packets : List Bytes) : Receiver :=
  packets.foldl (Receiver.receive aead key) {}

/-! ## Bits of a word -/

/-- Bit `d` of the word. -/
def bit (word : UInt64) (d : ℕ) : Bool := word.toBitVec.getLsbD d

variable {word distance : UInt64} {d : ℕ}

theorem bit_or (first second : UInt64) (d : ℕ) :
    bit (first ||| second) d = (bit first d || bit second d) := by
  simp [bit]

theorem bit_one : bit 1 d = true ↔ d = 0 := by
  simp [bit, BitVec.getLsbD_one]

theorem bit_shiftLeft (h : distance < 64) (hd : d < 64) :
    bit (word <<< distance) d = true ↔ distance.toNat ≤ d ∧ bit word (d - distance.toNat) = true := by
  have hlt : distance.toNat < 64 := UInt64.lt_iff_toNat_lt.mp h
  have hcount : (distance.toBitVec % 64).toNat = distance.toNat := by
    rw [BitVec.toNat_umod]
    exact Nat.mod_eq_of_lt hlt
  simp only [bit, UInt64.toBitVec_shiftLeft, BitVec.shiftLeft_eq', BitVec.getLsbD_shiftLeft, hcount]
  simp [hd]

/-- The word with one bit set, at the distance. -/
theorem bit_shiftLeft_one (h : distance < 64) (hd : d < 64) :
    bit ((1 : UInt64) <<< distance) d = true ↔ d = distance.toNat := by
  rw [bit_shiftLeft h hd, bit_one]
  omega

/-- What the source tests is a bit of the word. -/
theorem and_shiftLeft_ne_zero (h : distance < 64) :
    word &&& ((1 : UInt64) <<< distance) ≠ 0 ↔ bit word distance.toNat = true := by
  have hlt : distance.toNat < 64 := UInt64.lt_iff_toNat_lt.mp h
  have hand : ∀ i, bit (word &&& ((1 : UInt64) <<< distance)) i =
      (bit word i && bit ((1 : UInt64) <<< distance) i) := fun i => by simp [bit]
  constructor
  · intro hne
    by_contra hbit
    apply hne
    apply UInt64.toBitVec_inj.mp
    apply BitVec.eq_of_getLsbD_eq
    intro i hi
    -- only the bit at the distance could be set
    show bit (word &&& ((1 : UInt64) <<< distance)) i = BitVec.getLsbD 0#64 i
    rw [hand, BitVec.getLsbD_zero, Bool.and_eq_false_iff]
    by_cases hsame : i = distance.toNat
    · exact Or.inl (by rw [hsame, Bool.eq_false_iff]; exact hbit)
    · exact Or.inr (by rw [Bool.eq_false_iff, Ne, bit_shiftLeft_one h hi]; exact hsame)
  · intro hbit hzero
    have hset : bit (word &&& ((1 : UInt64) <<< distance)) distance.toNat = true := by
      rw [hand, hbit, (bit_shiftLeft_one h hlt).mpr rfl]
      rfl
    rw [hzero] at hset
    simp [bit] at hset

/-! ## The window -/

open ReplayWindow

/-- The values of these counters. -/
def numbers (counters : List UInt64) : Set ℕ := { n | ∃ counter ∈ counters, counter.toNat = n }

theorem numbers_nil : numbers [] = ∅ := by
  apply Set.eq_empty_of_forall_notMem
  rintro n ⟨counter, hmem, -⟩
  cases hmem

theorem numbers_concat (counters : List UInt64) (counter : UInt64) :
    numbers (counters ++ [counter]) = insert counter.toNat (numbers counters) := by
  ext n
  simp only [numbers, List.mem_append, List.mem_singleton, Set.mem_ofPred_eq, Set.mem_insert_iff]
  constructor
  · rintro ⟨other, hmem | rfl, rfl⟩
    · exact Or.inr ⟨other, hmem, rfl⟩
    · exact Or.inl rfl
  · rintro (rfl | ⟨other, hmem, rfl⟩)
    · exact ⟨counter, Or.inr rfl, rfl⟩
    · exact ⟨other, Or.inl hmem, rfl⟩

/-- The variables tell which counters have passed. -/
structure Agrees (window : Window) (passed : List UInt64) : Prop where
  nodup : passed.Nodup
  fresh : window.haveNonce = false → passed = []
  shows : window.haveNonce = true →
    Shows 64 window.highestNonce.toNat (bit window.replayWindow) (numbers passed)

variable {window window' : Window} {passed : List UInt64} {counter : UInt64}

theorem Agrees.empty : Agrees {} [] :=
  ⟨List.nodup_nil, fun _ => rfl, fun hhave => by cases hhave⟩

/-- What `admit` does to a window that tells which counters have passed. -/
theorem admit_cases (h : window.haveNonce = true)
    (hshows : Shows 64 window.highestNonce.toNat (bit window.replayWindow) (numbers passed))
    (counter : UInt64) :
    (Passes 64 (numbers passed) counter.toNat ∧ ∃ window', window.admit counter = some window' ∧
      window'.haveNonce = true ∧
      Shows 64 window'.highestNonce.toNat (bit window'.replayWindow)
        (insert counter.toNat (numbers passed))) ∨
    (¬ Passes 64 (numbers passed) counter.toNat ∧ window.admit counter = none) := by
  unfold Window.admit
  rw [if_pos h]
  by_cases hlt : window.highestNonce < counter
  · -- above the highest one: the window moves up
    have hnat : window.highestNonce.toNat < counter.toNat := UInt64.lt_iff_toNat_lt.mp hlt
    have hdistance : (counter - window.highestNonce).toNat =
        counter.toNat - window.highestNonce.toNat :=
      UInt64.toNat_sub_of_le _ _ (UInt64.le_of_lt hlt)
    refine Or.inl ⟨hshows.passes_iff.mpr (Or.inl hnat), ?_⟩
    rw [if_pos hlt]
    refine ⟨_, rfl, h, hshows.advance hnat fun d hd => ?_⟩
    dsimp only
    split
    · rename_i hfar
      have hfar : 64 ≤ (counter - window.highestNonce).toNat := UInt64.le_iff_toNat_le.mp hfar
      rw [bit_one]
      omega
    · rename_i hnear
      rw [bit_or, Bool.or_eq_true, bit_shiftLeft (UInt64.not_le.mp hnear) hd, bit_one, hdistance]
      exact or_comm
  · have hle : counter.toNat ≤ window.highestNonce.toNat :=
      UInt64.le_iff_toNat_le.mp (UInt64.not_lt.mp hlt)
    have hdistance : (window.highestNonce - counter).toNat =
        window.highestNonce.toNat - counter.toNat :=
      UInt64.toNat_sub_of_le _ _ (UInt64.not_lt.mp hlt)
    rw [if_neg hlt]
    dsimp only
    by_cases hfar : 64 ≤ window.highestNonce - counter
    · -- behind the window
      have hnat : 64 ≤ (window.highestNonce - counter).toNat := UInt64.le_iff_toNat_le.mp hfar
      refine Or.inr ⟨?_, if_pos (Or.inl hfar)⟩
      rw [hshows.passes_iff]
      omega
    · have hnear : window.highestNonce - counter < 64 := UInt64.not_le.mp hfar
      have hnat : (window.highestNonce - counter).toNat < 64 := UInt64.lt_iff_toNat_lt.mp hnear
      by_cases hbit : bit window.replayWindow (window.highestNonce - counter).toNat = true
      · refine Or.inr ⟨?_, if_pos (Or.inr ((and_shiftLeft_ne_zero hnear).mpr hbit))⟩
        rw [hshows.passes_iff, ← hdistance, hbit]
        rintro (habove | ⟨-, -, hnot⟩)
        · omega
        · cases hnot
      · refine Or.inl ⟨hshows.passes_iff.mpr (Or.inr ⟨hle, by omega, ?_⟩), ?_⟩
        · rw [← hdistance]
          exact Bool.eq_false_iff.mpr hbit
        · have hnot : ¬ (64 ≤ window.highestNonce - counter ∨
              window.replayWindow &&& ((1 : UInt64) <<< (window.highestNonce - counter)) ≠ 0) := by
            rw [and_shiftLeft_ne_zero hnear]
            exact not_or_intro hfar hbit
          rw [if_neg hnot]
          refine ⟨_, rfl, h, hshows.mark hle fun d hd => ?_⟩
          rw [bit_or, Bool.or_eq_true, bit_shiftLeft_one hnear hd, hdistance]
          exact or_comm

/-- A counter passes the window exactly when it should, and the window is right again. -/
theorem Agrees.admit (h : Agrees window passed) (counter : UInt64) :
    (Passes 64 (numbers passed) counter.toNat ∧ ∃ window', window.admit counter = some window' ∧
      Agrees window' (passed ++ [counter])) ∨
    (¬ Passes 64 (numbers passed) counter.toNat ∧ window.admit counter = none) := by
  have hnodup : Passes 64 (numbers passed) counter.toNat → (passed ++ [counter]).Nodup := by
    intro hpasses
    apply List.nodup_append_comm.mp
    exact List.nodup_cons.mpr ⟨fun hmem => hpasses.notMem ⟨counter, hmem, rfl⟩, h.nodup⟩
  cases hhave : window.haveNonce with
  | false =>
      have hempty := h.fresh hhave
      have hpasses : Passes 64 (numbers passed) counter.toNat :=
        passes_of_empty (by rw [hempty, numbers_nil])
      refine Or.inl ⟨hpasses, ⟨counter, 1, true⟩, ?_, hnodup hpasses, fun hnot => ?_, fun _ => ?_⟩
      · unfold Window.admit
        rw [hhave]
        rfl
      · cases hnot
      · rw [numbers_concat, hempty, numbers_nil, insert_empty_eq]
        exact Shows.first fun d _ => bit_one
  | true =>
      rcases admit_cases hhave (h.shows hhave) counter with
        ⟨hpasses, window', hadmitted, hhave', hshows⟩ | hdropped
      · refine Or.inl ⟨hpasses, window', hadmitted, hnodup hpasses, fun hnot => ?_, fun _ => ?_⟩
        · rw [hhave'] at hnot
          cases hnot
        · rw [numbers_concat]
          exact hshows
      · exact Or.inr hdropped

/-! ## The stream -/

variable {aead : Aead} {key packet decrypted : Bytes} {receiver : Receiver}

theorem receive_of_skipped (h : openPacket aead key packet = none) :
    receiver.receive aead key packet = receiver := by
  unfold Receiver.receive
  rw [h]

/-- A packet that authenticates passes exactly when its counter does. -/
theorem receive_of_opened (h : openPacket aead key packet = some (counter, decrypted))
    (hagrees : Agrees receiver.window receiver.passed) :
    (Passes 64 (numbers receiver.passed) counter.toNat ∧
      (receiver.receive aead key packet).passed = receiver.passed ++ [counter] ∧
      Agrees (receiver.receive aead key packet).window (receiver.passed ++ [counter])) ∨
    (¬ Passes 64 (numbers receiver.passed) counter.toNat ∧
      receiver.receive aead key packet = receiver) := by
  unfold Receiver.receive
  rw [h]
  dsimp only
  rcases hagrees.admit counter with ⟨hpasses, window', hadmitted, hagrees'⟩ | ⟨hnot, hadmitted⟩
  · rw [hadmitted]
    exact Or.inl ⟨hpasses, rfl, hagrees'⟩
  · rw [hadmitted]
    exact Or.inr ⟨hnot, rfl⟩

theorem receive_agrees (hagrees : Agrees receiver.window receiver.passed) (packet : Bytes) :
    Agrees (receiver.receive aead key packet).window (receiver.receive aead key packet).passed := by
  cases hopen : openPacket aead key packet with
  | none =>
      rw [receive_of_skipped hopen]
      exact hagrees
  | some opened =>
      rcases receive_of_opened hopen hagrees with ⟨-, hpassed, hagrees'⟩ | ⟨-, hsame⟩
      · rw [hpassed]
        exact hagrees'
      · rw [hsame]
        exact hagrees

/-- After any packets the variables tell which counters have passed. -/
theorem receiveAll_agrees (aead : Aead) (key : Bytes) (packets : List Bytes) :
    Agrees (receiveAll aead key packets).window (receiveAll aead key packets).passed := by
  induction packets using List.reverseRecOn with
  | nil => exact Agrees.empty
  | append_singleton packets packet ih =>
      unfold receiveAll
      rw [List.foldl_concat]
      exact receive_agrees ih packet

theorem Agrees.shows_of_greatest (h : Agrees window passed) {highest : ℕ}
    (hhighest : IsGreatest (numbers passed) highest) :
    Shows 64 highest (bit window.replayWindow) (numbers passed) := by
  cases hhave : window.haveNonce with
  | false =>
      have hmem := hhighest.1
      rw [h.fresh hhave, numbers_nil] at hmem
      exact absurd hmem (Set.notMem_empty highest)
  | true =>
      have hshows := h.shows hhave
      rw [hhighest.unique hshows.greatest]
      exact hshows

/-- No counter passes twice; a packet that authenticates passes exactly when it is the first
one, or above the highest counter that passed, or less than 64 below it and new; and each bit
of the window tells whether the counter at its distance below the highest one has passed. -/
theorem microphone_replayWindow (aead : Aead) (key : Bytes) (packets : List Bytes) :
    (receiveAll aead key packets).passed.Nodup ∧
    (∀ packet counter decrypted, openPacket aead key packet = some (counter, decrypted) →
      (Passes 64 (numbers (receiveAll aead key packets).passed) counter.toNat →
        (receiveAll aead key (packets ++ [packet])).passed =
          (receiveAll aead key packets).passed ++ [counter]) ∧
      (¬ Passes 64 (numbers (receiveAll aead key packets).passed) counter.toNat →
        receiveAll aead key (packets ++ [packet]) = receiveAll aead key packets)) ∧
    (∀ highest, IsGreatest (numbers (receiveAll aead key packets).passed) highest → ∀ d < 64,
      (bit (receiveAll aead key packets).window.replayWindow d = true ↔
        ∃ n ∈ numbers (receiveAll aead key packets).passed, n + d = highest)) := by
  have hagrees := receiveAll_agrees aead key packets
  refine ⟨hagrees.nodup, ?_, fun highest hhighest => (hagrees.shows_of_greatest hhighest).bits⟩
  intro packet counter decrypted hopen
  have hnext : receiveAll aead key (packets ++ [packet]) =
      (receiveAll aead key packets).receive aead key packet := List.foldl_concat _ _ _ _
  rw [hnext]
  rcases receive_of_opened hopen hagrees with ⟨hpasses, hpassed, -⟩ | ⟨hnot, hsame⟩
  · exact ⟨fun _ => hpassed, fun hnot => absurd hpasses hnot⟩
  · exact ⟨fun hpasses => absurd hpasses hnot, fun _ => hsame⟩

/-- Two packets under one key. -/
def twoPackets : List Aead.Answer :=
  [⟨List.replicate 32 0x42, [0, 0, 0, 0, 63, 0, 0, 0, 0, 0, 0, 0], [1, 2], [0, 0, 0, 0, 0, 0, 0, 1],
      [94, 115], [152, 84, 152, 209, 48, 196, 63, 254, 71, 248, 157, 138, 224, 197, 85, 225]⟩,
    ⟨List.replicate 32 0x42, List.replicate 12 0, [3, 4], [0, 0, 0, 0, 0, 0, 0, 1],
      [90, 98], [101, 3, 145, 121, 152, 73, 1, 237, 196, 122, 169, 114, 12, 15, 63, 73]⟩]

/-- The packet in which such an answer of the cipher is sent. -/
def packetOf (answer : Aead.Answer) : Bytes :=
  [0x80, 0x64, 0, 1] ++ answer.aad ++ answer.ciphertext ++ answer.tag ++ answer.nonce.drop 4

/-- A packet that comes 63 numbers late passes once and not a second time. -/
theorem microphone_replayWindow_late :
    ∃ first late, twoPackets.map packetOf = [first, late] ∧
      (receiveAll (.ofAnswers twoPackets) (List.replicate 32 0x42) [first, late]).passed = [63, 0] ∧
      receiveAll (.ofAnswers twoPackets) (List.replicate 32 0x42) [first, late, late] =
        receiveAll (.ofAnswers twoPackets) (List.replicate 32 0x42) [first, late] := by
  obtain ⟨first, late, hpackets, hfirst, hlate⟩ : ∃ first late, twoPackets.map packetOf = [first, late] ∧
      (receiveAll (.ofAnswers twoPackets) (List.replicate 32 0x42) [first]).passed = [63] ∧
      openPacket (.ofAnswers twoPackets) (List.replicate 32 0x42) late = some (0, [3, 4]) :=
    ⟨_, _, rfl, by decide +kernel, by decide +kernel⟩
  have hgreatest : IsGreatest (numbers [63]) 63 := by
    rw [← List.nil_append [63], numbers_concat, numbers_nil, insert_empty_eq]
    exact isGreatest_singleton
  have hnew : (0 : ℕ) ∉ numbers [63] := by
    rintro ⟨counter, hmem, hzero⟩
    rw [List.mem_singleton.mp hmem] at hzero
    cases hzero
  -- the first time the counter is new, the second time it is not
  have hpassed := ((microphone_replayWindow (.ofAnswers twoPackets) (List.replicate 32 0x42)
    [first]).2.1 late 0 [3, 4] hlate).1 (by
      rw [hfirst]
      exact Or.inr ⟨63, hgreatest, Or.inr ⟨Nat.zero_le 63, by decide, hnew⟩⟩)
  rw [hfirst] at hpassed
  refine ⟨first, late, hpackets, hpassed, ?_⟩
  refine ((microphone_replayWindow (.ofAnswers twoPackets) (List.replicate 32 0x42)
    [first, late]).2.1 late 0 [3, 4] hlate).2 fun hagain => hagain.notMem ⟨0, ?_, rfl⟩
  rw [show (receiveAll (.ofAnswers twoPackets) (List.replicate 32 0x42) [first, late]).passed =
    [63, 0] from hpassed]
  decide

end Microphone
end Airplay
end Aa2acp
