import Aa2acp.Airplay.VideoStartup
import Aa2acp.Airplay.Crypto
import Aa2acp.Lib.HeaderFraming
import Aa2acp.Lib.LittleEndian

/-!
# The screen stream

What `run_session` of `airplay/session.cpp` writes to the data connection of the screen: the
codec configuration in the clear, and one encrypted block for each access unit that has a
slice.  Each block has a header of 128 bytes with its size, its type and, for a frame, the
counter that its nonce is made of.

The other end is not part of the repository.  `readScreen` is how such a stream is read:
wherever the connection breaks off, it yields the configuration and the slices of the first
access units, and no other (`screenStream_received`).
-/

namespace Aa2acp
namespace Airplay
namespace Screen

open LengthPrefix HeaderFraming

/-- The header of a block. -/
def blockHeader (size : ℕ) (type : UInt8) (counter : UInt64) : Bytes :=
  littleEndian 4 size ++ [type] ++ List.replicate 3 0 ++ littleEndian 8 counter.toNat ++
    List.replicate 112 0

/-- The nonce of a frame. -/
def frameNonce (counter : UInt64) : Bytes := List.replicate 4 (0 : UInt8) ++ littleEndian 8 counter.toNat

/-- `frame_counter`, and what `data_socket` has taken. -/
structure DataStream where
  frameCounter : UInt64 := 0
  wire : Bytes := []
deriving DecidableEq

namespace DataStream

/-- `send_all`, when `count` bytes have gone out as it returns. -/
def sendAll (s : DataStream) (bytes : Bytes) (count : ℕ) : Bool × DataStream :=
  (decide (bytes.length ≤ count), { s with wire := s.wire ++ bytes.take count })

/-- A header and what belongs to it; the first failure ends it. -/
def sendBlock (s : DataStream) (header payload : Bytes) (counts : ℕ × ℕ) : Bool × DataStream :=
  match s.sendAll header counts.1 with
  | (false, s) => (false, s)
  | (true, s) => s.sendAll payload counts.2

variable (aead : Aead) (streamKey : Bytes)

/-- `send_access_unit`. -/
def sendAccessUnit (s : DataStream) (accessUnit : List Bytes) (counts : ℕ × ℕ) : Bool × DataStream :=
  let frame := accessUnitFrame accessUnit
  if frame = [] then (true, s)
  else
    let header := blockHeader (frame.length + 16) 0 s.frameCounter
    match aead.sealWithNonce streamKey (frameNonce s.frameCounter) frame header with
    | none => (false, s)
    | some encrypted =>
        match s.sendBlock header encrypted counts with
        | (false, s) => (false, s)
        | (true, s) => (true, { s with frameCounter := s.frameCounter + 1 })

/-- The loops that send access units; they end after the last one or with the first failure. -/
def sendAccessUnits (s : DataStream) : List (List Bytes × (ℕ × ℕ)) → Bool × DataStream
  | [] => (true, s)
  | (accessUnit, counts) :: units =>
      match s.sendAccessUnit aead streamKey accessUnit counts with
      | (false, s) => (false, s)
      | (true, s) => s.sendAccessUnits units

/-- Everything that goes out on the connection. -/
def sendVideo (config : Bytes) (counts : ℕ × ℕ) (units : List (List Bytes × (ℕ × ℕ))) : Bool × DataStream :=
  match ({} : DataStream).sendBlock (blockHeader config.length 1 0) config counts with
  | (false, s) => (false, s)
  | (true, s) => s.sendAccessUnits aead streamKey units

end DataStream

/-! ## Reading the stream -/

inductive Content where
  | config (avcc : Bytes)
  | slices (slices : List Bytes)
deriving DecidableEq

/-- The size in a header. -/
def blockSize (header : Bytes) : ℕ := ofLittleEndian (header.take 4)

/-- What is in a block; nothing if it does not open. -/
def openBlock (aead : Aead) (streamKey : Bytes) (block : Block UInt8) : Option Content :=
  if block.1.getD 4 0 = 1 then some (.config block.2)
  else
    (aead.openWithNonce streamKey (List.replicate 4 0 ++ (block.1.drop 8).take 8) block.2 block.1).bind
      fun frame => (readAll frame).map .slices

def readScreen (aead : Aead) (streamKey wire : Bytes) : List (Option Content) :=
  (read 128 blockSize (by norm_num) wire).map (openBlock aead streamKey)

/-- The slices of an access unit. -/
def slices (accessUnit : List Bytes) : List Bytes := accessUnit.filter (IsFramed ·)

/-- What the access units have to show: the slices of those that have any. -/
def shown (accessUnits : List (List Bytes)) : List (List Bytes) :=
  (accessUnits.map slices).filter fun slices => slices ≠ []

/-- The sizes of its frames fit into the headers. -/
def FrameFits (accessUnit : List Bytes) : Prop := (accessUnitFrame accessUnit).length + 16 < 2 ^ 32

instance : DecidablePred FrameFits := fun _ => inferInstanceAs (Decidable (_ < _))

/-! ## One block -/

variable {aead : Aead} {streamKey : Bytes} {s s' : DataStream} {header payload : Bytes} {counts : ℕ × ℕ}
  {accessUnit : List Bytes} {ok : Bool}

@[simp] theorem length_blockHeader (size : ℕ) (type : UInt8) (counter : UInt64) :
    (blockHeader size type counter).length = 128 := by
  simp [blockHeader]

theorem blockSize_blockHeader {size : ℕ} (h : size < 2 ^ 32) (type : UInt8) (counter : UInt64) :
    blockSize (blockHeader size type counter) = size := by
  unfold blockSize blockHeader
  rw [List.append_assoc, List.append_assoc, List.append_assoc, List.take_left' (length_littleEndian 4 _),
    ofLittleEndian_littleEndian]
  exact h

theorem getD_blockHeader (size : ℕ) (type : UInt8) (counter : UInt64) :
    (blockHeader size type counter).getD 4 0 = type := by
  unfold blockHeader
  rw [List.append_assoc, List.append_assoc, List.append_assoc,
    List.getD_append_right _ _ _ _ (by rw [length_littleEndian]), length_littleEndian]
  rfl

theorem counter_blockHeader (size : ℕ) (type : UInt8) (counter : UInt64) :
    ((blockHeader size type counter).drop 8).take 8 = littleEndian 8 counter.toNat := by
  unfold blockHeader
  rw [List.append_assoc, List.drop_left' (by simp), List.take_left' (length_littleEndian 8 _)]

theorem frame_eq_nil_iff : accessUnitFrame accessUnit = [] ↔ slices accessUnit = [] := by
  rw [accessUnitFrame_eq, slices]
  cases accessUnit.filter (IsFramed ·) with
  | nil => simp
  | cons nalu slices => simp [prefixed, bigEndian]

/-- The block of a frame, and what it is opened to. -/
theorem openBlock_frame (hround : aead.RoundTrips) (hfits : FrameFits accessUnit) {counter : UInt64}
    {encrypted : Bytes} (hseal : aead.sealWithNonce streamKey (frameNonce counter) (accessUnitFrame accessUnit)
      (blockHeader ((accessUnitFrame accessUnit).length + 16) 0 counter) = some encrypted) :
    Tells 128 blockSize (blockHeader ((accessUnitFrame accessUnit).length + 16) 0 counter, encrypted) ∧
      openBlock aead streamKey (blockHeader ((accessUnitFrame accessUnit).length + 16) 0 counter, encrypted) =
        some (.slices (slices accessUnit)) := by
  obtain ⟨hlength, hopen⟩ := hround.open_seal hseal
  refine ⟨⟨length_blockHeader _ _ _, ?_⟩, ?_⟩
  · rw [blockSize_blockHeader hfits, hlength]
  · have hslices : ∀ nalu ∈ accessUnit.filter (IsFramed ·), Fits nalu := by
      intro nalu hnalu
      have hsum : (prefixed nalu).length ≤ (prefixedAll (accessUnit.filter (IsFramed ·))).length :=
        List.Sublist.length_le (List.sublist_flatten_of_mem (List.mem_map_of_mem hnalu))
      rw [length_prefixed, ← accessUnitFrame_eq] at hsum
      have hframe : (accessUnitFrame accessUnit).length + 16 < 2 ^ 32 := hfits
      show nalu.length < 2 ^ 32
      omega
    unfold openBlock
    dsimp only
    rw [getD_blockHeader, if_neg (by decide), counter_blockHeader, ← frameNonce, hopen, Option.bind_some,
      accessUnitFrame_eq, readAll_prefixedAll hslices]
    rfl

theorem openBlock_config (aead : Aead) (streamKey : Bytes) {config : Bytes}
    (h : config.length < 2 ^ 32) :
    Tells 128 blockSize (blockHeader config.length 1 0, config) ∧
      openBlock aead streamKey (blockHeader config.length 1 0, config) = some (.config config) := by
  refine ⟨⟨length_blockHeader _ _ _, blockSize_blockHeader h _ _⟩, ?_⟩
  unfold openBlock
  rw [getD_blockHeader, if_pos rfl]

/-! ## What goes out -/

theorem sendBlock_spec (h : s.sendBlock header payload counts = (ok, s')) :
    ∃ count, s'.wire = s.wire ++ (stream [(header, payload)]).take count ∧
      (ok = true → (stream [(header, payload)]).length ≤ count) := by
  have hblock : stream [(header, payload)] = header ++ payload := by simp
  rw [hblock]
  unfold DataStream.sendBlock DataStream.sendAll at h
  by_cases hheader : header.length ≤ counts.1
  · simp only [hheader, decide_true, Prod.mk.injEq] at h
    obtain ⟨rfl, rfl⟩ := h
    refine ⟨header.length + counts.2, ?_, fun hall => ?_⟩
    · rw [List.take_length_add_append, List.take_of_length_le hheader, List.append_assoc]
    · rw [List.length_append, Nat.add_le_add_iff_left]
      exact of_decide_eq_true hall
  · simp only [hheader, decide_false, Prod.mk.injEq] at h
    obtain ⟨rfl, rfl⟩ := h
    refine ⟨counts.1, ?_, fun hall => nomatch hall⟩
    rw [List.take_append_of_le_length (Nat.not_le.mp hheader).le]

/-- What was written between the two states is blocks with these contents, all of them unless it
failed; the last block may have broken off. -/
def Writes (aead : Aead) (streamKey : Bytes) (s s' : DataStream) (ok : Bool) (contents : List Content) : Prop :=
  ∃ blocks count, s'.wire = s.wire ++ (stream blocks).take count ∧
    (∀ block ∈ blocks, Tells 128 blockSize block) ∧
    blocks.map (openBlock aead streamKey) <+: contents.map some ∧
    (ok = true → blocks.length = contents.length ∧ (stream blocks).length ≤ count)

variable {contents later : List Content} {s'' : DataStream}

theorem writes_nil (s : DataStream) : Writes aead streamKey s s true [] :=
  ⟨[], 0, by simp, by simp, List.prefix_rfl, fun _ => ⟨rfl, le_rfl⟩⟩

theorem writes_failed (s : DataStream) (contents : List Content) : Writes aead streamKey s s false contents :=
  ⟨[], 0, by simp, by simp, List.nil_prefix, fun h => nomatch h⟩

theorem writes_block {content : Content} (htells : Tells 128 blockSize (header, payload))
    (hopen : openBlock aead streamKey (header, payload) = some content)
    (h : s.sendBlock header payload counts = (ok, s')) : Writes aead streamKey s s' ok [content] := by
  obtain ⟨count, hwire, hall⟩ := sendBlock_spec h
  refine ⟨[(header, payload)], count, hwire, fun block hblock => ?_, ?_, fun hok => ⟨rfl, hall hok⟩⟩
  · rw [List.mem_singleton.mp hblock]
    exact htells
  · rw [List.map_singleton, hopen]
    exact List.prefix_rfl

theorem Writes.weaken (h : Writes aead streamKey s s' false contents) (later : List Content) :
    Writes aead streamKey s s' false (contents ++ later) := by
  obtain ⟨blocks, count, hwire, htells, hprefix, -⟩ := h
  refine ⟨blocks, count, hwire, htells, ?_, fun hok => nomatch hok⟩
  rw [List.map_append]
  exact hprefix.trans (List.prefix_append _ _)

theorem Writes.append (h : Writes aead streamKey s s' true contents)
    (h' : Writes aead streamKey s' s'' ok later) : Writes aead streamKey s s'' ok (contents ++ later) := by
  obtain ⟨blocks, count, hwire, htells, hprefix, hall⟩ := h
  obtain ⟨blocks', count', hwire', htells', hprefix', hall'⟩ := h'
  obtain ⟨hlength, hcount⟩ := hall rfl
  have hmap : blocks.map (openBlock aead streamKey) = contents.map some :=
    hprefix.eq_of_length (by rw [List.length_map, List.length_map, hlength])
  refine ⟨blocks ++ blocks', (stream blocks).length + count', ?_, ?_, ?_, fun hok => ?_⟩
  · rw [hwire', hwire, stream_append, List.take_of_length_le hcount, List.take_length_add_append,
      List.append_assoc]
  · exact List.forall_mem_append.mpr ⟨htells, htells'⟩
  · rw [List.map_append, List.map_append, hmap]
    exact (List.prefix_append_right_inj _).mpr hprefix'
  · obtain ⟨hlength', hcount'⟩ := hall' hok
    rw [List.length_append, List.length_append, stream_append, List.length_append]
    exact ⟨by rw [hlength, hlength'], Nat.add_le_add_left hcount' _⟩

/-- An access unit goes out as its slices, if it has any. -/
theorem sendAccessUnit_spec (hround : aead.RoundTrips) (hfits : FrameFits accessUnit)
    (h : s.sendAccessUnit aead streamKey accessUnit counts = (ok, s')) :
    Writes aead streamKey s s' ok ((shown [accessUnit]).map .slices) := by
  unfold DataStream.sendAccessUnit at h
  dsimp only at h
  by_cases hempty : accessUnitFrame accessUnit = []
  · rw [if_pos hempty, Prod.mk.injEq] at h
    obtain ⟨rfl, rfl⟩ := h
    have hnothing : shown [accessUnit] = [] := by simp [shown, frame_eq_nil_iff.mp hempty]
    rw [hnothing]
    exact writes_nil _
  · rw [if_neg hempty] at h
    have hsomething : shown [accessUnit] = [slices accessUnit] := by
      simp [shown, frame_eq_nil_iff.not.mp hempty]
    rw [hsomething, List.map_singleton]
    cases hseal : aead.sealWithNonce streamKey (frameNonce s.frameCounter) (accessUnitFrame accessUnit)
        (blockHeader ((accessUnitFrame accessUnit).length + 16) 0 s.frameCounter) with
    | none =>
        rw [hseal, Prod.mk.injEq] at h
        obtain ⟨rfl, rfl⟩ := h
        exact writes_failed _ _
    | some encrypted =>
        rw [hseal] at h
        dsimp only at h
        obtain ⟨htells, hopen⟩ := openBlock_frame hround hfits hseal
        obtain ⟨sent, next, hblock⟩ : ∃ sent next, s.sendBlock
            (blockHeader ((accessUnitFrame accessUnit).length + 16) 0 s.frameCounter) encrypted counts =
              (sent, next) := ⟨_, _, rfl⟩
        have hwrites := writes_block htells hopen hblock
        rw [hblock] at h
        cases sent <;> (cases h; exact hwrites)

theorem shown_cons (accessUnit : List Bytes) (accessUnits : List (List Bytes)) :
    shown (accessUnit :: accessUnits) = shown [accessUnit] ++ shown accessUnits := by
  rw [← List.singleton_append, shown, List.map_append, List.filter_append]
  rfl

theorem sendAccessUnits_spec (hround : aead.RoundTrips) {units : List (List Bytes × (ℕ × ℕ))}
    (hfits : ∀ unit ∈ units, FrameFits unit.1)
    (h : s.sendAccessUnits aead streamKey units = (ok, s')) :
    Writes aead streamKey s s' ok ((shown (units.map Prod.fst)).map .slices) := by
  induction units generalizing s with
  | nil =>
      cases h
      exact writes_nil _
  | cons unit units ih =>
      obtain ⟨accessUnit, counts⟩ := unit
      obtain ⟨hunit, hunits⟩ := List.forall_mem_cons.mp hfits
      obtain ⟨sent, next, hfirst⟩ : ∃ sent next, s.sendAccessUnit aead streamKey accessUnit counts =
        (sent, next) := ⟨_, _, rfl⟩
      have hwrites := sendAccessUnit_spec hround hunit hfirst
      rw [DataStream.sendAccessUnits, hfirst] at h
      rw [List.map_cons, shown_cons, List.map_append]
      cases sent with
      | false =>
          cases h
          exact hwrites.weaken _
      | true => exact hwrites.append (ih hunits h)

theorem sendVideo_spec (hround : aead.RoundTrips) {config : Bytes} {units : List (List Bytes × (ℕ × ℕ))}
    (hconfig : config.length < 2 ^ 32) (hfits : ∀ unit ∈ units, FrameFits unit.1)
    (h : DataStream.sendVideo aead streamKey config counts units = (ok, s')) :
    Writes aead streamKey {} s' ok (.config config :: (shown (units.map Prod.fst)).map .slices) := by
  obtain ⟨htells, hopen⟩ := openBlock_config aead streamKey hconfig
  obtain ⟨sent, next, hblock⟩ : ∃ sent next, ({} : DataStream).sendBlock
      (blockHeader config.length 1 0) config counts = (sent, next) := ⟨_, _, rfl⟩
  have hwrites := writes_block htells hopen hblock
  rw [DataStream.sendVideo, hblock] at h
  cases sent with
  | false =>
      cases h
      exact hwrites.weaken _
  | true => exact hwrites.append (sendAccessUnits_spec hround hfits h)

/-- Of contents that were written, the first are read, and all of them if the writing did not
fail. -/
theorem Writes.read (h : Writes aead streamKey {} s' ok contents) :
    ∃ count, readScreen aead streamKey s'.wire = (contents.take count).map some ∧
      (ok = true → count = contents.length) := by
  obtain ⟨blocks, count, hwire, htells, hprefix, hall⟩ := h
  obtain ⟨whole, hread, hwhole⟩ := @read_take _ _ _ (by norm_num) _ htells count
  have hempty : ({} : DataStream).wire = [] := rfl
  rw [hempty, List.nil_append] at hwire
  have htake : blocks.map (openBlock aead streamKey) = (contents.take blocks.length).map some := by
    have hlength := List.prefix_iff_eq_take.mp hprefix
    rwa [List.length_map, ← List.map_take] at hlength
  refine ⟨min whole blocks.length, ?_, fun hok => ?_⟩
  · rw [readScreen, hwire, hread, List.map_take, htake, ← List.map_take, List.take_take]
  · obtain ⟨hlength, hcount⟩ := hall hok
    rw [hwhole hcount, Nat.min_self, hlength]

/-- Wherever the data connection breaks off, its reader gets the codec configuration and then the
slices of the access units that have any, in order, each as it was; and all of them, if nothing
failed. -/
theorem screenStream_received (hround : aead.RoundTrips) {config : Bytes}
    {units : List (List Bytes × (ℕ × ℕ))} (hconfig : config.length < 2 ^ 32)
    (hfits : ∀ unit ∈ units, FrameFits unit.1) (streamKey : Bytes) (counts : ℕ × ℕ) :
    ∃ count,
      readScreen aead streamKey (DataStream.sendVideo aead streamKey config counts units).2.wire =
        ((Content.config config :: (shown (units.map Prod.fst)).map .slices).take count).map some ∧
      ((DataStream.sendVideo aead streamKey config counts units).1 = true →
        count = (shown (units.map Prod.fst)).length + 1) := by
  obtain ⟨ok, s', hsend⟩ : ∃ ok s', DataStream.sendVideo aead streamKey config counts units = (ok, s') :=
    ⟨_, _, rfl⟩
  obtain ⟨count, hread, hall⟩ := (sendVideo_spec hround hconfig hfits hsend).read
  rw [hsend]
  refine ⟨count, hread, fun hok => ?_⟩
  rw [hall hok, List.length_cons, List.length_map]

/-- What the cipher makes of a keyframe and of the slice after it. -/
def twoFrames : List Aead.Answer :=
  [⟨List.replicate 32 0x42, List.replicate 12 0, [0, 0, 0, 2, 0x65, 0x88], blockHeader 22 0 0,
      [89, 102, 228, 41, 120, 60], [172, 125, 0, 31, 108, 68, 166, 248, 104, 236, 105, 174, 245, 234, 169, 185]⟩,
    ⟨List.replicate 32 0x42, [0, 0, 0, 0, 1, 0, 0, 0, 0, 0, 0, 0], [0, 0, 0, 2, 0x41, 0x9a], blockHeader 22 0 1,
      [141, 136, 160, 28, 66, 192], [210, 109, 38, 128, 174, 36, 173, 193, 112, 31, 93, 124, 22, 15, 24, 240]⟩]

/-- A keyframe with its parameter set, an access unit without a slice, and one with a slice. -/
theorem screenStream_received_frames :
    readScreen (.ofAnswers twoFrames) (List.replicate 32 0x42)
        (DataStream.sendVideo (.ofAnswers twoFrames) (List.replicate 32 0x42) [1, 0x42, 0, 0x1e] (128, 4)
          [([[0x67, 0x42], [0x65, 0x88]], (128, 22)), ([[0x68, 0xce]], (0, 0)),
            ([[0x41, 0x9a]], (128, 22))]).2.wire =
      [some (.config [1, 0x42, 0, 0x1e]), some (.slices [[0x65, 0x88]]), some (.slices [[0x41, 0x9a]])] := by
  have hround : (Aead.ofAnswers twoFrames).RoundTrips :=
    Aead.ofAnswers_roundTrips (by decide) (by decide)
  have hconfig : ([1, 0x42, 0, 0x1e] : Bytes).length < 2 ^ 32 := by decide
  have hfits : ∀ unit ∈ ([([[0x67, 0x42], [0x65, 0x88]], (128, 22)), ([[0x68, 0xce]], (0, 0)),
      ([[0x41, 0x9a]], (128, 22))] : List (List Bytes × (ℕ × ℕ))), FrameFits unit.1 := by decide
  obtain ⟨count, hread, hall⟩ :=
    screenStream_received hround hconfig hfits (List.replicate 32 0x42) (128, 4)
  rw [hread, hall (by decide +kernel)]
  rfl

end Screen
end Airplay
end Aa2acp
