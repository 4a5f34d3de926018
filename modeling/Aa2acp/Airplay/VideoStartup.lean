import Aa2acp.Airplay.AccessUnits
import Aa2acp.Airplay.AnnexB

/-!
# How the video stream starts

The part of `run_session` in `airplay/session.cpp` that waits for a codec configuration and,
of live video, for a keyframe before it opens the data stream, and the access units that it
sends from then on.  The units received before one with an IDR slice are dropped, and so are
those between the last such unit and the end of the wait: the units sent are a contiguous part
of the units received exactly when the unit that ends the wait has an IDR slice
(`liveVideo_iff`).
-/

namespace Aa2acp
namespace Airplay

open Bridge.MediaForwarders (naluType ContainsIdr nalus)

/-- `!nalu.empty() && (nalu[0] & 0x1f) == type`. -/
def HasType (type : ℕ) (nalu : Bytes) : Prop := nalu ≠ [] ∧ naluType nalu = type

instance (type : ℕ) : DecidablePred (HasType type) := fun _ => inferInstanceAs (Decidable (_ ∧ _))

def avccConfig (nalus : List Bytes) : Option Bytes :=
  match nalus.find? (HasType 7 ·), nalus.find? (HasType 8 ·) with
  | some sps, some pps =>
      if sps.length < 4 ∨ 65535 < sps.length ∨ 65535 < pps.length then none
      else
        some ([1, sps.getD 1 0, sps.getD 2 0, sps.getD 3 0, 0xff, 0xe1] ++
          bigEndian 2 sps.length ++ sps ++ [1] ++ bigEndian 2 pps.length ++ pps)
  | _, _ => none

def kMaximumStartupVideoBytes : ℕ := 16 * 1024 * 1024
def kMaximumStartupVideoUnits : ℕ := 600

/-- The variables of the startup loop. -/
structure VideoStartup where
  nalus : List Bytes := []
  initialAccessUnits : List Bytes := []
  startupVideoBytes : ℕ := 0
  startupKeyframe : Bool := false
  config : Option Bytes := none
deriving DecidableEq

namespace VideoStartup

/-- A parameter set replaces those of the same type. -/
def eraseReplaced (nalus : List Bytes) (nalu : Bytes) : List Bytes :=
  if nalu = [] ∨ naluType nalu ≠ 7 ∧ naluType nalu ≠ 8 then nalus
  else nalus.filter fun existing => ¬ HasType (naluType nalu) existing

/-- What the loop does with an access unit. -/
def receive (loop : VideoStartup) (accessUnit : Bytes) : VideoStartup :=
  let unitNalus := h264Nalus accessUnit
  let loop := { loop with
    startupVideoBytes := loop.startupVideoBytes + accessUnit.length
    nalus := unitNalus.foldl eraseReplaced loop.nalus ++ unitNalus }
  if ∃ nalu ∈ unitNalus, HasType 5 nalu then
    { loop with startupKeyframe := true, initialAccessUnits := [accessUnit] }
  else loop

end VideoStartup

/-- The startup loop of live video with the units that `next_video_frame` still returns; it
has no more, or a stop is requested, after the last.  `none` is the end of the session. -/
def startupVideo (loop : VideoStartup) (units : List Bytes) : Option (VideoStartup × List Bytes) :=
  -- the condition of the loop: the configuration is the one from before the last unit
  if loop.config.isSome ∧ loop.startupKeyframe then some (loop, units)
  else
    let loop := { loop with config := avccConfig loop.nalus }
    if loop.config.isSome ∧ loop.startupKeyframe then some (loop, units)
    else
      match units with
      | [] => none
      | accessUnit :: units =>
          if kMaximumStartupVideoUnits ≤ loop.initialAccessUnits.length ∨
              kMaximumStartupVideoBytes - loop.startupVideoBytes < accessUnit.length then none
          else startupVideo (loop.receive accessUnit) units

/-- What goes out on the data stream: the configuration, then what `send_access_unit` is
called with. -/
structure VideoStream where
  config : Bytes
  accessUnits : List (List Bytes)
deriving DecidableEq

inductive VideoSource where
  /-- The content of the file at `video_path`, if it can be opened. -/
  | file (content : Option Bytes)
  /-- All units that `next_video_frame` returns. -/
  | live (units : List Bytes)

/-- The video of `run_session`, if it gets as far as opening the data stream. -/
def runVideo : VideoSource → Option VideoStream
  | .file content =>
      (avccConfig (h264NalusOfFile content)).map fun config =>
        { config, accessUnits := h264AccessUnits (h264NalusOfFile content) }
  | .live units =>
      (startupVideo {} units).bind fun (loop, later) =>
        loop.config.map fun config =>
          { config, accessUnits := (loop.initialAccessUnits ++ later).map h264Nalus }

/-! ## Where the wait ends -/

/-- The first parameter set of the type in the last access unit that has one. -/
def latestOfType (type : ℕ) (units : List Bytes) : Option Bytes :=
  units.reverse.findSome? fun accessUnit => (h264Nalus accessUnit).find? (HasType type ·)

/-- The latest parameter sets make a configuration. -/
def Configured (units : List Bytes) : Prop :=
  ∃ sps ∈ latestOfType 7 units, ∃ pps ∈ latestOfType 8 units,
    4 ≤ sps.length ∧ sps.length ≤ 65535 ∧ pps.length ≤ 65535

instance : DecidablePred Configured := fun units =>
  inferInstanceAs (Decidable (∃ sps ∈ latestOfType 7 units, ∃ pps ∈ latestOfType 8 units, _ ∧ _ ∧ _))

def HasKeyframe (units : List Bytes) : Prop := ∃ accessUnit ∈ units, ContainsIdr accessUnit

instance : DecidablePred HasKeyframe := fun units =>
  inferInstanceAs (Decidable (∃ accessUnit ∈ units, ContainsIdr accessUnit))

/-- The wait is over after these units. -/
def Started (units : List Bytes) : Prop :=
  HasKeyframe units ∧ (Configured units ∨ Configured units.dropLast)

instance : DecidablePred Started := fun _ => inferInstanceAs (Decidable (_ ∧ _))

/-- The unit that ends the wait has an IDR slice. -/
def StartsAtKeyframe (units : List Bytes) : Prop :=
  ∃ before accessUnit after, units = before ++ accessUnit :: after ∧
    (∀ early, early <+: before → ¬ Started early) ∧
    Started (before ++ [accessUnit]) ∧ ContainsIdr accessUnit

/-! ## What the loop knows -/

theorem isSome_avccConfig (nalus : List Bytes) :
    (avccConfig nalus).isSome ↔ ∃ sps ∈ nalus.find? (HasType 7 ·), ∃ pps ∈ nalus.find? (HasType 8 ·),
      4 ≤ sps.length ∧ sps.length ≤ 65535 ∧ pps.length ≤ 65535 := by
  unfold avccConfig
  split
  · rename_i sps pps hsps hpps
    simp only [hsps, hpps, Option.mem_some_iff, exists_eq_left']
    split <;> simp <;> omega
  · rename_i hnone
    constructor
    · intro h
      cases h
    · rintro ⟨sps, hsps, pps, hpps, -⟩
      exact absurd hpps (hnone sps pps hsps)

theorem find?_filter_not_hasType (type other : ℕ) (nalus : List Bytes) :
    (nalus.filter fun existing => ¬ HasType other existing).find? (HasType type ·) =
      if type = other then none else nalus.find? (HasType type ·) := by
  rw [List.find?_filter]
  split
  · rename_i heq
    subst heq
    simp
  · rename_i hne
    congr 1
    funext nalu
    by_cases h : HasType type nalu
    · have hother : ¬ HasType other nalu := fun hother => hne (h.2.symm.trans hother.2)
      simp [h, hother]
    · simp [h]

theorem find?_eraseReplaced {type : ℕ} (htype : type = 7 ∨ type = 8) (nalus : List Bytes) (nalu : Bytes) :
    (VideoStartup.eraseReplaced nalus nalu).find? (HasType type ·) =
      if HasType type nalu then none else nalus.find? (HasType type ·) := by
  unfold VideoStartup.eraseReplaced
  split
  · rename_i hkeep
    rw [if_neg]
    rintro ⟨hne, rfl⟩
    rcases hkeep with hnil | ⟨hseven, height⟩
    · exact hne hnil
    · exact htype.elim hseven height
  · rename_i herase
    have hne : nalu ≠ [] := fun hnil => herase (Or.inl hnil)
    rw [find?_filter_not_hasType]
    exact if_congr ⟨fun h => ⟨hne, h.symm⟩, fun h => h.2.symm⟩ rfl rfl

theorem find?_foldl_eraseReplaced {type : ℕ} (htype : type = 7 ∨ type = 8) (nalus unitNalus : List Bytes) :
    (unitNalus.foldl VideoStartup.eraseReplaced nalus).find? (HasType type ·) =
      if ∃ nalu ∈ unitNalus, HasType type nalu then none else nalus.find? (HasType type ·) := by
  induction unitNalus generalizing nalus with
  | nil => simp
  | cons nalu unitNalus ih =>
      rw [List.foldl_cons, ih, find?_eraseReplaced htype]
      by_cases hnalu : HasType type nalu
      · simp [hnalu]
      · simp [hnalu]

/-- Of each kind of parameter set, the first one of the unit comes to stand first. -/
theorem find?_receive {type : ℕ} (htype : type = 7 ∨ type = 8) (loop : VideoStartup) (accessUnit : Bytes) :
    (loop.receive accessUnit).nalus.find? (HasType type ·) =
      ((h264Nalus accessUnit).find? (HasType type ·)).or (loop.nalus.find? (HasType type ·)) := by
  have hnalus : (loop.receive accessUnit).nalus =
      (h264Nalus accessUnit).foldl VideoStartup.eraseReplaced loop.nalus ++ h264Nalus accessUnit := by
    unfold VideoStartup.receive
    dsimp only
    split <;> rfl
  rw [hnalus, List.find?_append, find?_foldl_eraseReplaced htype]
  split
  · rename_i hmem
    obtain ⟨nalu, hnalu, hhas⟩ := hmem
    have hsome : ((h264Nalus accessUnit).find? (HasType type ·)).isSome :=
      List.find?_isSome.mpr ⟨nalu, hnalu, by simpa using hhas⟩
    obtain ⟨first, hfirst⟩ := Option.isSome_iff_exists.mp hsome
    rw [hfirst]
    rfl
  · rename_i hnone
    have hfind : (h264Nalus accessUnit).find? (HasType type ·) = none := by
      rw [List.find?_eq_none]
      intro nalu hnalu hhas
      exact hnone ⟨nalu, hnalu, by simpa using hhas⟩
    rw [hfind, Option.or_none, Option.none_or]

theorem latestOfType_concat (type : ℕ) (units : List Bytes) (accessUnit : Bytes) :
    latestOfType type (units ++ [accessUnit]) =
      ((h264Nalus accessUnit).find? (HasType type ·)).or (latestOfType type units) := by
  rw [latestOfType, List.reverse_concat, List.findSome?_cons]
  cases (h264Nalus accessUnit).find? (HasType type ·) <;> rfl

theorem containsIdr_iff (accessUnit : Bytes) :
    ContainsIdr accessUnit ↔ ∃ nalu ∈ h264Nalus accessUnit, HasType 5 nalu := by
  rw [h264Nalus_eq]
  refine exists_congr fun nalu => and_congr_right fun _ => (and_iff_right_of_imp ?_).symm
  rintro h rfl
  cases h

theorem hasKeyframe_concat (units : List Bytes) (accessUnit : Bytes) :
    HasKeyframe (units ++ [accessUnit]) ↔ HasKeyframe units ∨ ContainsIdr accessUnit := by
  simp only [HasKeyframe, List.mem_append, List.mem_singleton, or_and_right, exists_or, exists_eq_left]

/-- The last unit with an IDR slice, alone. -/
def lastKeyframe (units : List Bytes) : List Bytes := (units.reverse.find? (ContainsIdr ·)).toList

theorem lastKeyframe_concat (units : List Bytes) (accessUnit : Bytes) :
    lastKeyframe (units ++ [accessUnit]) =
      if ContainsIdr accessUnit then [accessUnit] else lastKeyframe units := by
  rw [lastKeyframe, List.reverse_concat, List.find?_cons]
  by_cases h : ContainsIdr accessUnit
  · simp [h]
  · simp [h, lastKeyframe]

theorem exists_of_lastKeyframe {units : List Bytes} (h : HasKeyframe units) :
    ∃ first, lastKeyframe units = [first] ∧ ContainsIdr first := by
  obtain ⟨accessUnit, hmem, hidr⟩ := h
  have hsome : (units.reverse.find? (ContainsIdr ·)).isSome :=
    List.find?_isSome.mpr ⟨accessUnit, List.mem_reverse.mpr hmem, by simpa using hidr⟩
  obtain ⟨first, hfirst⟩ := Option.isSome_iff_exists.mp hsome
  refine ⟨first, by rw [lastKeyframe, hfirst]; rfl, ?_⟩
  simpa using List.find?_some hfirst

/-- The variables of the loop after the units received, but for the configuration. -/
structure Received (units : List Bytes) (loop : VideoStartup) : Prop where
  nalus : ∀ type, type = 7 ∨ type = 8 → loop.nalus.find? (HasType type ·) = latestOfType type units
  keyframe : loop.startupKeyframe ↔ HasKeyframe units
  initial : loop.initialAccessUnits = lastKeyframe units

theorem received_nil : Received [] {} where
  nalus := fun _ _ => rfl
  keyframe := by simp [HasKeyframe]
  initial := rfl

theorem Received.receive {units : List Bytes} {loop : VideoStartup} (h : Received units loop)
    (accessUnit : Bytes) : Received (units ++ [accessUnit]) (loop.receive accessUnit) where
  nalus type htype := by
    rw [find?_receive htype, h.nalus type htype, latestOfType_concat]
  keyframe := by
    rw [hasKeyframe_concat, containsIdr_iff, VideoStartup.receive]
    by_cases hidr : ∃ nalu ∈ h264Nalus accessUnit, HasType 5 nalu
    · rw [if_pos hidr]
      exact ⟨fun _ => Or.inr hidr, fun _ => rfl⟩
    · rw [if_neg hidr, or_iff_left hidr]
      exact h.keyframe
  initial := by
    rw [lastKeyframe_concat, VideoStartup.receive]
    by_cases hidr : ContainsIdr accessUnit
    · rw [if_pos hidr, if_pos ((containsIdr_iff accessUnit).mp hidr)]
    · rw [if_neg hidr, if_neg ((containsIdr_iff accessUnit).not.mp hidr)]
      exact h.initial

theorem Received.isSome_avccConfig {units : List Bytes} {loop : VideoStartup} (h : Received units loop) :
    (avccConfig loop.nalus).isSome ↔ Configured units := by
  rw [Airplay.isSome_avccConfig, h.nalus 7 (Or.inl rfl), h.nalus 8 (Or.inr rfl)]
  rfl

theorem config_receive (loop : VideoStartup) (accessUnit : Bytes) :
    (loop.receive accessUnit).config = loop.config := by
  unfold VideoStartup.receive
  dsimp only
  split <;> rfl

section Loop

variable {units later : List Bytes} {loop : VideoStartup}

theorem startupVideo_of_started (h : Received units loop)
    (hconfig : loop.config.isSome ↔ Configured units.dropLast) (hstarted : Started units)
    (later : List Bytes) : ∃ config, startupVideo loop later = some ({ loop with config }, later) := by
  obtain ⟨hkeyframe, hconfigured⟩ := hstarted
  unfold startupVideo
  by_cases hstale : loop.config.isSome
  · exact ⟨loop.config, if_pos ⟨hstale, h.keyframe.mpr hkeyframe⟩⟩
  · have hnow : Configured units := hconfigured.resolve_right (hconfig.not.mp hstale)
    refine ⟨avccConfig loop.nalus, ?_⟩
    rw [if_neg fun hand => hstale hand.1]
    exact if_pos ⟨h.isSome_avccConfig.mpr hnow, h.keyframe.mpr hkeyframe⟩

theorem startupVideo_of_not_started (h : Received units loop)
    (hconfig : loop.config.isSome ↔ Configured units.dropLast) (hstarted : ¬ Started units) :
    startupVideo loop later =
      match later with
      | [] => none
      | accessUnit :: later =>
          if kMaximumStartupVideoUnits ≤ loop.initialAccessUnits.length ∨
              kMaximumStartupVideoBytes - loop.startupVideoBytes < accessUnit.length then none
          else startupVideo
            (VideoStartup.receive { loop with config := avccConfig loop.nalus } accessUnit) later := by
  rw [startupVideo.eq_def, if_neg, if_neg]
  · rintro ⟨hnow, hkeyframe⟩
    exact hstarted ⟨h.keyframe.mp hkeyframe, Or.inl (h.isSome_avccConfig.mp hnow)⟩
  · rintro ⟨hstale, hkeyframe⟩
    exact hstarted ⟨h.keyframe.mp hkeyframe, Or.inr (hconfig.mp hstale)⟩

/-- The loop ends with the units that it has received before `received`, and these. -/
def EndsAfter (units received : List Bytes) (loop : VideoStartup) : Prop :=
  Started (units ++ received) ∧ loop.initialAccessUnits = lastKeyframe (units ++ received) ∧
    ∀ early, early <+: received → Started (units ++ early) → early = received

theorem endsAfter_of_started {rest : List Bytes} {loop' : VideoStartup}
    (h : Received units loop) (hconfig : loop.config.isSome ↔ Configured units.dropLast)
    (hstarted : Started units) (hstartup : startupVideo loop later = some (loop', rest)) :
    ∃ received, later = received ++ rest ∧ EndsAfter units received loop' := by
  obtain ⟨config, heq⟩ := startupVideo_of_started h hconfig hstarted later
  rw [heq] at hstartup
  cases hstartup
  refine ⟨[], rfl, ?_, ?_, fun early hearly _ => List.prefix_nil.mp hearly⟩
  · rwa [List.append_nil]
  · rw [List.append_nil]
    exact h.initial

/-- When the loop ends, it has received as few units as the wait takes. -/
theorem startupVideo_spec {rest : List Bytes} {loop' : VideoStartup} (h : Received units loop)
    (hconfig : loop.config.isSome ↔ Configured units.dropLast)
    (hstartup : startupVideo loop later = some (loop', rest)) :
    ∃ received, later = received ++ rest ∧ EndsAfter units received loop' := by
  induction later generalizing units loop with
  | nil =>
      by_cases hstarted : Started units
      · exact endsAfter_of_started h hconfig hstarted hstartup
      · rw [startupVideo_of_not_started h hconfig hstarted] at hstartup
        cases hstartup
  | cons accessUnit later ih =>
      by_cases hstarted : Started units
      · exact endsAfter_of_started h hconfig hstarted hstartup
      · rw [startupVideo_of_not_started h hconfig hstarted] at hstartup
        dsimp only at hstartup
        split at hstartup
        · cases hstartup
        · have hnext : Received units { loop with config := avccConfig loop.nalus } :=
            ⟨h.nalus, h.keyframe, h.initial⟩
          obtain ⟨received, rfl, hended, hinitial, hfewest⟩ := ih (hnext.receive accessUnit) (by
            rw [config_receive, List.dropLast_concat]
            exact h.isSome_avccConfig) hstartup
          rw [List.append_assoc, List.singleton_append] at hended hinitial
          refine ⟨accessUnit :: received, rfl, hended, hinitial, ?_⟩
          intro early hearly hstartedEarly
          cases early with
          | nil =>
              rw [List.append_nil] at hstartedEarly
              exact absurd hstartedEarly hstarted
          | cons first early =>
              obtain ⟨rfl, hprefix⟩ := List.cons_prefix_cons.mp hearly
              rw [hfewest early hprefix (by rwa [List.append_assoc])]

end Loop

/-! ## What is sent -/

theorem exists_of_runVideo {units : List Bytes} {stream : VideoStream}
    (h : runVideo (.live units) = some stream) :
    ∃ before accessUnit after, units = before ++ accessUnit :: after ∧
      Started (before ++ [accessUnit]) ∧ (∀ early, early <+: before → ¬ Started early) ∧
      stream.accessUnits = (lastKeyframe (before ++ [accessUnit]) ++ after).map h264Nalus := by
  obtain ⟨⟨loop, after⟩, hstartup, hstream⟩ := Option.bind_eq_some_iff.mp h
  obtain ⟨config, -, rfl⟩ := Option.map_eq_some_iff.mp hstream
  have hnone : ({} : VideoStartup).config.isSome ↔ Configured ([] : List Bytes).dropLast := by
    simp [Configured, latestOfType]
  obtain ⟨received, rfl, hstarted, hinitial, hfewest⟩ := startupVideo_spec received_nil hnone hstartup
  rw [List.nil_append] at hstarted hinitial
  rcases List.eq_nil_or_concat' received with rfl | ⟨before, accessUnit, rfl⟩
  · -- the wait takes a keyframe
    obtain ⟨accessUnit, hmem, -⟩ := hstarted.1
    cases hmem
  · refine ⟨before, accessUnit, after, by simp, hstarted, ?_, by rw [hinitial]⟩
    intro early hearly hstartedEarly
    have heq := hfewest early (hearly.trans (List.prefix_append _ _)) hstartedEarly
    have hlength := hearly.length_le
    rw [heq, List.length_append] at hlength
    exact absurd hlength (by simp)

/-- The units sent are those received from one with an IDR slice on. -/
def Contiguous (units : List Bytes) (stream : VideoStream) : Prop :=
  ∃ run, run <:+ units ∧ stream.accessUnits = run.map h264Nalus ∧
    ∃ first ∈ run.head?, ContainsIdr first

/-- The wait does not end later than where it is over. -/
theorem length_le_of_started {before before' after after' : List Bytes} {accessUnit accessUnit' : Bytes}
    (heq : before ++ accessUnit :: after = before' ++ accessUnit' :: after')
    (hstarted : Started (before ++ [accessUnit])) (hfewest' : ∀ early, early <+: before' → ¬ Started early) :
    before'.length ≤ before.length := by
  by_contra hlt
  have hone : before ++ [accessUnit] <+: before' ++ accessUnit' :: after' := by
    rw [← heq]
    exact ⟨after, by simp⟩
  have hlength : (before ++ [accessUnit]).length ≤ before'.length := by
    rw [List.length_append, List.length_singleton]
    omega
  exact hfewest' _ (List.prefix_of_prefix_length_le hone (List.prefix_append _ _) hlength) hstarted

/-- Live video starts without a gap exactly when the unit that ends the wait has an IDR
slice. -/
theorem liveVideo_iff {units : List Bytes} {stream : VideoStream}
    (h : runVideo (.live units) = some stream) : Contiguous units stream ↔ StartsAtKeyframe units := by
  obtain ⟨before, accessUnit, after, rfl, hstarted, hfewest, hsent⟩ := exists_of_runVideo h
  constructor
  · rintro ⟨run, hrun, heq, first, hfirst, hidr⟩
    -- a run of this length begins with the unit that ends the wait
    obtain ⟨keyframe, hkeyframe, -⟩ := exists_of_lastKeyframe hstarted.1
    have hlength := congrArg List.length (hsent.symm.trans heq)
    rw [hkeyframe, List.length_map, List.length_map] at hlength
    have hsuffix : accessUnit :: after <:+ before ++ accessUnit :: after := List.suffix_append _ _
    have hsame : run <:+ accessUnit :: after :=
      List.suffix_of_suffix_length_le hrun hsuffix hlength.ge
    obtain rfl := hsame.eq_of_length hlength.symm
    cases hfirst
    exact ⟨before, accessUnit, after, rfl, hfewest, hstarted, hidr⟩
  · rintro ⟨before', accessUnit', after', hsplit, hfewest', hstarted', hidr⟩
    have hlength : before.length = before'.length :=
      le_antisymm (length_le_of_started hsplit.symm hstarted' hfewest) (length_le_of_started hsplit hstarted hfewest')
    obtain ⟨rfl, htail⟩ := List.append_inj hsplit hlength
    cases htail
    refine ⟨accessUnit :: after, List.suffix_append _ _, ?_, accessUnit, rfl, hidr⟩
    rw [hsent, lastKeyframe_concat, if_pos hidr]
    rfl

/-- Parameter sets and a keyframe in one unit, and a slice. -/
theorem liveVideo_iff_configured :
    Contiguous
      [[0, 0, 1, 0x67, 0x42, 0, 0x1e, 0, 0, 1, 0x68, 0xce, 0, 0, 1, 0x65, 0x88], [0, 0, 1, 0x41, 0x9a]]
      { config := [1, 0x42, 0, 0x1e, 0xff, 0xe1, 0, 4, 0x67, 0x42, 0, 0x1e, 1, 0, 2, 0x68, 0xce]
        accessUnits := [[[0x67, 0x42, 0, 0x1e], [0x68, 0xce], [0x65, 0x88]], [[0x41, 0x9a]]] } := by
  refine (liveVideo_iff (by decide +kernel)).mpr ⟨[], _, _, rfl, ?_, by decide +kernel, by decide +kernel⟩
  intro early hearly
  rw [List.prefix_nil.mp hearly]
  decide +kernel

/-- The parameter sets come after the keyframe: the slice between them is not sent. -/
theorem liveVideo_gap :
    runVideo (.live [[0, 0, 1, 0x65, 0x88], [0, 0, 1, 0x41, 0x9a],
        [0, 0, 1, 0x67, 0x42, 0, 0x1e, 0, 0, 1, 0x68, 0xce], [0, 0, 1, 0x41, 0x9b]]) =
      some { config := [1, 0x42, 0, 0x1e, 0xff, 0xe1, 0, 4, 0x67, 0x42, 0, 0x1e, 1, 0, 2, 0x68, 0xce]
             accessUnits := [[[0x65, 0x88]], [[0x41, 0x9b]]] } ∧
    ¬ Contiguous [[0, 0, 1, 0x65, 0x88], [0, 0, 1, 0x41, 0x9a],
        [0, 0, 1, 0x67, 0x42, 0, 0x1e, 0, 0, 1, 0x68, 0xce], [0, 0, 1, 0x41, 0x9b]]
      { config := [1, 0x42, 0, 0x1e, 0xff, 0xe1, 0, 4, 0x67, 0x42, 0, 0x1e, 1, 0, 2, 0x68, 0xce]
        accessUnits := [[[0x65, 0x88]], [[0x41, 0x9b]]] } := by
  refine ⟨by decide +kernel, ?_⟩
  rintro ⟨run, hrun, hsent, -⟩
  have hevery : ∀ run ∈ List.tails [[0, 0, 1, 0x65, 0x88], [0, 0, 1, 0x41, 0x9a],
      [0, 0, 1, 0x67, 0x42, 0, 0x1e, 0, 0, 1, 0x68, 0xce], [0, 0, 1, 0x41, 0x9b]],
      [[[0x65, 0x88]], [[0x41, 0x9b]]] ≠ run.map h264Nalus := by decide +kernel
  exact hevery run ((List.mem_tails _ _).mpr hrun) hsent

end Airplay
end Aa2acp
