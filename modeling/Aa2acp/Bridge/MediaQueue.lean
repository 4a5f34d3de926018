import Aa2acp.Bridge.MediaForwarders

/-!
# The queue of a media forwarder

What each operation of the forwarder does, and the bounds that the queue keeps through all
of them (`Forwarder.Sound`).  `Step` lists the steps of the system, one constructor for
each way in which a step can end.
-/

namespace Aa2acp
namespace Bridge
namespace MediaForwarders

open LengthPrefix

/-! ## NAL units -/

theorem length_beforeStartCode_le (bytes : Bytes) :
    (beforeStartCode bytes).length ≤ bytes.length := by
  induction bytes with
  | nil => rfl
  | cons byte rest ih =>
      rw [beforeStartCode]
      split
      · exact Nat.succ_le_succ ih
      · exact Nat.zero_le _

/-- A NAL unit is no longer than the access unit that it is in. -/
theorem length_le_of_mem_nalusFrom {fuel : ℕ} {input nalu : Bytes}
    (h : nalu ∈ nalusFrom fuel input) : nalu.length ≤ input.length := by
  induction fuel generalizing input nalu with
  | zero => cases h
  | succ fuel ih =>
      cases input with
      | nil => cases h
      | cons byte rest =>
          rw [nalusFrom] at h
          split at h
          · exact (ih h).trans (Nat.le_succ _)
          · have hdrop := List.length_drop (i := startCode (byte :: rest)) (l := byte :: rest)
            have hbefore := length_beforeStartCode_le ((byte :: rest).drop (startCode (byte :: rest)))
            have hlater : ∀ later ∈ nalusFrom fuel (((byte :: rest).drop
                (startCode (byte :: rest))).drop (beforeStartCode ((byte :: rest).drop
                  (startCode (byte :: rest)))).length), later.length ≤ (byte :: rest).length := by
              intro later hmem
              have hle := ih hmem
              rw [List.length_drop] at hle
              omega
            dsimp only at h
            split at h
            · exact hlater nalu h
            · rcases List.mem_cons.mp h with rfl | h
              · omega
              · exact hlater nalu h

theorem length_le_of_mem_nalus {input nalu : Bytes} (h : nalu ∈ nalus input) :
    nalu.length ≤ input.length := length_le_of_mem_nalusFrom h

/-- The four ways in which a NAL unit changes what is kept. -/
theorem NaluScan.next_cases (scan : NaluScan) (nalu : Bytes) :
    naluType nalu = 7 ∧ scan.next nalu = { scan with sps := nalu } ∨
      naluType nalu = 8 ∧ scan.next nalu = { scan with pps := nalu } ∨
      naluType nalu = 5 ∧ scan.next nalu = { scan with keyframe := true } ∨
      naluType nalu ≠ 5 ∧ scan.next nalu = scan := by
  unfold NaluScan.next
  split
  · exact Or.inl ⟨by assumption, rfl⟩
  · exact Or.inr (Or.inl ⟨by assumption, rfl⟩)
  · exact Or.inr (Or.inr (Or.inl ⟨by assumption, rfl⟩))
  · exact Or.inr (Or.inr (Or.inr ⟨by assumption, rfl⟩))

/-- The loop of `push` finds an IDR slice when there is one. -/
theorem keyframe_foldl (units : List Bytes) (scan : NaluScan) :
    (units.foldl NaluScan.next scan).keyframe = true ↔
      scan.keyframe = true ∨ ∃ nalu ∈ units, naluType nalu = 5 := by
  induction units generalizing scan with
  | nil => simp
  | cons nalu units ih =>
      rw [List.foldl_cons, ih]
      rcases scan.next_cases nalu with ⟨htype, heq⟩ | ⟨htype, heq⟩ | ⟨htype, heq⟩ | ⟨htype, heq⟩ <;>
        simp [heq, htype]

/-- The parameter sets that are kept are NAL units, or the ones from before. -/
theorem parameters_foldl {limit : ℕ} {units : List Bytes} (scan : NaluScan)
    (hunits : ∀ nalu ∈ units, nalu.length ≤ limit)
    (hscan : scan.sps.length ≤ limit ∧ scan.pps.length ≤ limit) :
    (units.foldl NaluScan.next scan).sps.length ≤ limit ∧
      (units.foldl NaluScan.next scan).pps.length ≤ limit := by
  induction units generalizing scan with
  | nil => exact hscan
  | cons nalu units ih =>
      have hnalu := hunits nalu List.mem_cons_self
      refine ih _ (fun other hother => hunits other (List.mem_cons_of_mem _ hother)) ?_
      rcases scan.next_cases nalu with ⟨-, heq⟩ | ⟨-, heq⟩ | ⟨-, heq⟩ | ⟨-, heq⟩ <;> rw [heq]
      · exact ⟨hnalu, hscan.2⟩
      · exact ⟨hscan.1, hnalu⟩
      · exact hscan
      · exact hscan

/-! ## The operations -/

/-- The bytes of all the frames in a queue. -/
def totalBytes (frames : List Frame) : ℕ := (frames.map fun frame => frame.bytes.length).sum

@[simp] theorem totalBytes_nil : totalBytes [] = 0 := rfl

@[simp] theorem totalBytes_cons (frame : Frame) (frames : List Frame) :
    totalBytes (frame :: frames) = frame.bytes.length + totalBytes frames := List.sum_cons

@[simp] theorem totalBytes_append (frames others : List Frame) :
    totalBytes (frames ++ others) = totalBytes frames + totalBytes others := by
  simp [totalBytes]

theorem length_le_totalBytes {frames : List Frame} {frame : Frame} (h : frame ∈ frames) :
    frame.bytes.length ≤ totalBytes frames :=
  List.single_le_sum (by simp) _ (List.mem_map_of_mem h)

/-- The sizes that `push` lets through. -/
def Pushable (bytes : Bytes) : Prop := bytes ≠ [] ∧ bytes.length ≤ kMaximumQueuedBytes

instance (bytes : Bytes) : Decidable (Pushable bytes) := inferInstanceAs (Decidable (_ ∧ _))

theorem Pushable.fits {bytes : Bytes} (h : Pushable bytes) : Fits bytes := by
  have hlength := h.2
  simp only [Fits, kMaximumQueuedBytes] at hlength ⊢
  omega

namespace Forwarder

theorem keyframe_scanNalus (accessUnit : Bytes) (f : Forwarder) :
    (f.scanNalus accessUnit).keyframe = true ↔ ContainsIdr accessUnit := by
  simp [scanNalus, keyframe_foldl, ContainsIdr]

theorem pushVideo_of_large {accessUnit : Bytes} (f : Forwarder)
    (h : kMaximumQueuedBytes < accessUnit.length) :
    f.pushVideo accessUnit = { f with pushed := f.pushed + 1 } := by
  have hne : accessUnit ≠ [] := by
    rintro rfl
    simp at h
  simp [pushVideo, hne, h]

theorem pushVideo_of_idr {accessUnit : Bytes} (f : Forwarder) (hsize : Pushable accessUnit)
    (hidr : ContainsIdr accessUnit) :
    f.pushVideo accessUnit =
      { f.noticed accessUnit with
        frames := [⟨accessUnit, f.pushed + 1⟩]
        queuedBytes := accessUnit.length
        keyframe := ⟨accessUnit, f.pushed + 1⟩ } := by
  simp [pushVideo, hsize.1, not_lt.mpr hsize.2, (f.keyframe_scanNalus accessUnit).mpr hidr]

theorem pushVideo_of_dependent {accessUnit : Bytes} (f : Forwarder) (hsize : Pushable accessUnit)
    (hidr : ¬ ContainsIdr accessUnit) :
    f.pushVideo accessUnit =
      if f.HasRoom accessUnit then
        { f.noticed accessUnit with
          frames := f.frames ++ [⟨accessUnit, f.pushed + 1⟩]
          queuedBytes := f.queuedBytes + accessUnit.length }
      else f.noticed accessUnit := by
  have hscan : (f.scanNalus accessUnit).keyframe = false := by
    rw [Bool.eq_false_iff, ne_eq, keyframe_scanNalus]
    exact hidr
  simp [pushVideo, hsize.1, not_lt.mpr hsize.2, hscan]

/-- What `enqueue` drops is the front of the queue, and then there is room. -/
theorem dropOldest_spec (kind : MediaKind) (size : ℕ) (frames : List Frame) :
    ∃ rest, dropOldest kind size frames (totalBytes frames) = (rest, totalBytes rest) ∧
      rest <:+ frames ∧
      (rest = [] ∨ rest.length < kind.maximumQueuedFrames ∧
        totalBytes rest + size ≤ kMaximumQueuedBytes) := by
  induction frames with
  | nil => exact ⟨[], rfl, List.suffix_rfl, Or.inl rfl⟩
  | cons frame frames ih =>
      rw [dropOldest]
      split
      · have hrest : totalBytes (frame :: frames) - frame.bytes.length = totalBytes frames := by
          rw [totalBytes_cons, Nat.add_sub_cancel_left]
        obtain ⟨rest, heq, hsuffix, hroom⟩ := ih
        rw [hrest]
        exact ⟨rest, heq, hsuffix.trans (List.suffix_cons frame frames), hroom⟩
      · rename_i hroom
        simp only [not_or, not_le, not_lt, ge_iff_le, gt_iff_lt] at hroom
        exact ⟨frame :: frames, rfl, List.suffix_rfl, Or.inr hroom⟩

/-! ## What the queue keeps -/

structure Sound (kind : MediaKind) (f : Forwarder) : Prop where
  sum : f.queuedBytes = totalBytes f.frames
  bytes : totalBytes f.frames ≤ kMaximumQueuedBytes
  count : f.frames.length ≤ kind.maximumQueuedFrames
  nonempty : ∀ frame ∈ f.frames, frame.bytes ≠ []
  keyframe : f.keyframe.bytes.length ≤ kMaximumQueuedBytes
  parameters : f.sps.length ≤ kMaximumQueuedBytes ∧ f.pps.length ≤ kMaximumQueuedBytes

variable {kind : MediaKind} {f f' : Forwarder}

theorem sound_empty (kind : MediaKind) : Sound kind {} where
  sum := rfl
  bytes := Nat.zero_le _
  count := Nat.zero_le _
  nonempty := by simp
  keyframe := Nat.zero_le _
  parameters := ⟨Nat.zero_le _, Nat.zero_le _⟩

theorem Sound.pushable (h : f.Sound kind) {frame : Frame} (hframe : frame ∈ f.frames) :
    Pushable frame.bytes :=
  ⟨h.nonempty frame hframe, (length_le_totalBytes hframe).trans h.bytes⟩

theorem Sound.noticed (h : f.Sound kind) {accessUnit : Bytes} (hsize : Pushable accessUnit) :
    (f.noticed accessUnit).Sound kind := by
  have hparameters := parameters_foldl { sps := f.sps, pps := f.pps }
    (fun nalu hnalu => (length_le_of_mem_nalus hnalu).trans hsize.2) h.parameters
  exact ⟨h.sum, h.bytes, h.count, h.nonempty, h.keyframe, hparameters⟩

theorem Sound.pushVideo (h : f.Sound .video) (accessUnit : Bytes) :
    (f.pushVideo accessUnit).Sound .video := by
  by_cases hempty : accessUnit = []
  · rw [hempty]
    exact h
  by_cases hlarge : kMaximumQueuedBytes < accessUnit.length
  · rw [pushVideo_of_large f hlarge]
    exact ⟨h.sum, h.bytes, h.count, h.nonempty, h.keyframe, h.parameters⟩
  have hsize : Pushable accessUnit := ⟨hempty, not_lt.mp hlarge⟩
  have hnoticed := h.noticed hsize
  by_cases hidr : ContainsIdr accessUnit
  · rw [pushVideo_of_idr f hsize hidr]
    refine ⟨by simp, by simpa using hsize.2, ?_, by simpa using hempty, hsize.2,
      hnoticed.parameters⟩
    simp [MediaKind.maximumQueuedFrames, kMaximumQueuedFrames]
  · rw [pushVideo_of_dependent f hsize hidr]
    split
    · rename_i hroom
      obtain ⟨hcount, hbytes⟩ := hroom
      rw [h.sum] at hbytes
      refine ⟨by simp [h.sum], by simpa using hbytes, ?_, ?_, h.keyframe, hnoticed.parameters⟩
      · rw [List.length_append, List.length_singleton]
        exact hcount
      · intro frame hframe
        rcases List.mem_append.mp hframe with hqueued | hnew
        · exact h.nonempty frame hqueued
        · rw [List.mem_singleton.mp hnew]
          exact hempty
    · exact hnoticed

theorem Sound.enqueue (h : f.Sound kind) (frame : Frame) : (f.enqueue kind frame).Sound kind := by
  unfold Forwarder.enqueue
  split
  · exact h
  · rename_i hframe
    rw [not_or, not_lt] at hframe
    obtain ⟨rest, hdrop, hsuffix, hroom⟩ := dropOldest_spec kind frame.bytes.length f.frames
    rw [h.sum, hdrop]
    refine ⟨by simp, ?_, ?_, ?_, h.keyframe, h.parameters⟩
    · rcases hroom with rfl | hroom
      · simpa using hframe.2
      · simpa using hroom.2
    · rcases hroom with rfl | hroom
      · cases kind <;> simp [MediaKind.maximumQueuedFrames, kMaximumQueuedFrames]
      · rw [List.length_append, List.length_singleton]
        exact hroom.1
    · intro other hother
      rcases List.mem_append.mp hother with hqueued | hnew
      · exact h.nonempty other (hsuffix.subset hqueued)
      · rw [List.mem_singleton.mp hnew]
        exact hframe.1

theorem Sound.pushAudio (h : f.Sound .audio) (pcm : Bytes) : (f.pushAudio pcm).Sound .audio := by
  unfold Forwarder.pushAudio
  split
  · exact h
  · have hcounted : Sound .audio { f with pushed := f.pushed + 1 } :=
      ⟨h.sum, h.bytes, h.count, h.nonempty, h.keyframe, h.parameters⟩
    exact hcounted.enqueue _

theorem Sound.push (h : f.Sound kind) (bytes : Bytes) : (f.push kind bytes).Sound kind := by
  cases kind with
  | video => exact h.pushVideo bytes
  | audio => exact h.pushAudio bytes

theorem Sound.restart (h : f.Sound kind) : f.restart.Sound kind := by
  unfold Forwarder.restart
  split
  · exact ⟨rfl, Nat.zero_le _, Nat.zero_le _, by simp, h.keyframe, h.parameters⟩
  · rename_i hkeyframe
    split
    · refine ⟨by simp, by simpa using h.keyframe, ?_, by simpa using hkeyframe, h.keyframe,
        h.parameters⟩
      cases kind <;> simp [MediaKind.maximumQueuedFrames, kMaximumQueuedFrames]
    · exact h

theorem Sound.onClientConnected (h : f.Sound kind) : (f.onClientConnected kind).2.Sound kind := by
  cases kind with
  | video => exact h.restart
  | audio => exact h

/-- The configuration has a length that four bytes can tell. -/
theorem Sound.fits_config (h : f.Sound kind) : Fits (f.onClientConnected kind).1 := by
  obtain ⟨hsps, hpps⟩ := h.parameters
  cases kind with
  | video =>
      simp only [Forwarder.onClientConnected, config]
      split
      · simp only [kMaximumQueuedBytes] at hsps hpps
        simp only [Fits, List.length_append, List.length_cons, List.length_nil]
        omega
      · simp [Fits]
  | audio => simp [Forwarder.onClientConnected, Fits]

theorem take_eq_some {frame : Frame} (h : f.take = some (frame, f')) :
    f.frames = frame :: f'.frames ∧
      f' = { f with
        frames := f'.frames, queuedBytes := f.queuedBytes - frame.bytes.length } := by
  unfold Forwarder.take at h
  split at h
  · cases h
  · rename_i hframes
    cases h
    exact ⟨hframes, rfl⟩

theorem Sound.take (h : f.Sound kind) {frame : Frame} (htake : f.take = some (frame, f')) :
    f'.Sound kind ∧ Pushable frame.bytes := by
  obtain ⟨hframes, hrest⟩ := take_eq_some htake
  have hsum := h.sum
  have hbytes := h.bytes
  have hcount := h.count
  have hnonempty := h.nonempty
  have hframe := h.pushable (hframes ▸ List.mem_cons_self)
  rw [hframes] at hsum hbytes hcount hnonempty
  rw [totalBytes_cons] at hsum hbytes
  rw [hrest]
  refine ⟨⟨?_, ?_, Nat.le_of_succ_le hcount, ?_, h.keyframe, h.parameters⟩, hframe⟩
  · dsimp only
    omega
  · dsimp only
    omega
  · intro other hother
    exact hnonempty other (List.mem_cons_of_mem _ hother)

end Forwarder
/-! ## The steps -/

inductive Step (kind : MediaKind) : MediaEvent → MediaState → MediaState → Prop
  | push (s : MediaState) (bytes : Bytes) :
      Step kind (.push bytes) s { s with forwarder := s.forwarder.push kind bytes }
  | greet (f : Forwarder) (past : List Session) (hconfig : (f.onClientConnected kind).1 ≠ []) :
      Step kind .accept ⟨f, .listening, false, past⟩
        ⟨(f.onClientConnected kind).2, .greeting {} (f.onClientConnected kind).1, false, past⟩
  | enter (f : Forwarder) (past : List Session) (hconfig : (f.onClientConnected kind).1 = []) :
      Step kind .accept ⟨f, .listening, false, past⟩
        ⟨(f.onClientConnected kind).2, .forwarding {}, false, past⟩
  | take (f f' : Forwarder) (session : Session) (frame : Frame) (stopping : Bool)
      (past : List Session) (htake : f.take = some (frame, f')) :
      Step kind .take ⟨f, .forwarding session, stopping, past⟩
        ⟨f', .sending session frame, stopping, past⟩
  | writeConfig (f : Forwarder) (session : Session) (config : Bytes) (stopping : Bool)
      (past : List Session) :
      Step kind .written ⟨f, .greeting session config, stopping, past⟩
        ⟨f, .forwarding { session with
          wire := session.wire ++ prefixed config, config := some config }, stopping, past⟩
  | writeFrame (f : Forwarder) (session : Session) (frame : Frame) (stopping : Bool)
      (past : List Session) :
      Step kind .written ⟨f, .sending session frame, stopping, past⟩
        ⟨f, .forwarding { session with
          wire := session.wire ++ prefixed frame.bytes, units := session.units ++ [frame] },
          stopping, past⟩
  | breakConfig (f : Forwarder) (session : Session) (config : Bytes) (stopping : Bool)
      (past : List Session) (count : ℕ) (hcount : count < (prefixed config).length) :
      Step kind (.broken count) ⟨f, .greeting session config, stopping, past⟩
        ⟨f, .listening, stopping, past ++ [{ session with
          wire := session.wire ++ (prefixed config).take count }]⟩
  | breakFrame (f : Forwarder) (session : Session) (frame : Frame) (stopping : Bool)
      (past : List Session) (count : ℕ) (hcount : count < (prefixed frame.bytes).length) :
      Step kind (.broken count) ⟨f, .sending session frame, stopping, past⟩
        ⟨f, .listening, stopping, past ++ [{ session with
          wire := session.wire ++ (prefixed frame.bytes).take count }]⟩
  | stop (s : MediaState) : Step kind .stop s { s with stopping := true }
  | leave (f : Forwarder) (past : List Session) :
      Step kind .exit ⟨f, .listening, true, past⟩ ⟨f, .stopped, true, past⟩
  | close (f : Forwarder) (session : Session) (past : List Session) :
      Step kind .exit ⟨f, .forwarding session, true, past⟩ ⟨f, .stopped, true, past ++ [session]⟩

variable {kind : MediaKind} {event : MediaEvent} {s s' : MediaState}

theorem step_cases (h : s.step kind event = some s') : Step kind event s s' := by
  obtain ⟨f, stage, stopping, past⟩ := s
  cases event with
  | push bytes =>
      cases h
      exact .push ⟨f, stage, stopping, past⟩ bytes
  | accept =>
      simp only [MediaState.step] at h
      split at h
      · cases h
        split
        · exact .enter f past (by assumption)
        · exact .greet f past (by assumption)
      · cases h
  | take =>
      simp only [MediaState.step] at h
      split at h
      · cases h
        exact .take f _ _ _ stopping past (by assumption)
      · cases h
  | written =>
      cases stage <;> cases h
      · exact .writeConfig f _ _ stopping past
      · exact .writeFrame f _ _ stopping past
  | broken count =>
      simp only [MediaState.step] at h
      split at h
      · split at h
        · cases h
          exact .breakConfig f _ _ stopping past count (by assumption)
        · cases h
      · split at h
        · cases h
          exact .breakFrame f _ _ stopping past count (by assumption)
        · cases h
      · cases h
  | stop =>
      cases h
      exact .stop ⟨f, stage, stopping, past⟩
  | exit =>
      simp only [MediaState.step] at h
      split at h
      · cases h
        exact .leave f past
      · cases h
        exact .close f _ past
      · cases h

/-- The queue keeps its bounds in every step, whatever becomes of the clients. -/
theorem Forwarder.Sound.step (h : s.forwarder.Sound kind) (hstep : Step kind event s s') :
    s'.forwarder.Sound kind := by
  cases hstep with
  | push _ bytes => exact h.push bytes
  | greet => exact h.onClientConnected
  | enter => exact h.onClientConnected
  | take f f' session frame stopping past htake => exact (Forwarder.Sound.take h htake).1
  | writeConfig => exact h
  | writeFrame => exact h
  | breakConfig => exact h
  | breakFrame => exact h
  | stop => exact h
  | leave => exact h
  | close => exact h

end MediaForwarders
end Bridge
end Aa2acp
