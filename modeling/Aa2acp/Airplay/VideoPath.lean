import Aa2acp.Airplay.ScreenStream
import Aa2acp.Bridge.PushOrder

/-!
# From the phone to the screen

An access unit that Android Auto delivers goes through the queue of a `VideoSocketForwarder`
to a client, through its `VideoSocketReader` to `run_session`, and over the data connection to
the head unit.  On this way units are dropped, and what is no slice is left out, but nothing
is changed, repeated or brought into another order (`video_arrives`).
-/

namespace Aa2acp
namespace Airplay
namespace VideoPath

open Bridge.MediaForwarders LengthPrefix Screen

/-! ## NAL units have no start code in them -/

variable {bytes more nalu sps pps : Bytes}

/-- The loops of the scan find nothing in it. -/
def Unsplit (nalu : Bytes) : Prop := beforeStartCode nalu = nalu

theorem startCode_append_ne_zero (h : startCode bytes ≠ 0) (more : Bytes) : startCode (bytes ++ more) ≠ 0 := by
  unfold startCode at h
  split at h
  · simp [startCode]
  · simp [startCode]
  · exact absurd rfl h

theorem unsplit_beforeStartCode (bytes : Bytes) : Unsplit (beforeStartCode bytes) := by
  induction bytes with
  | nil => rfl
  | cons byte rest ih =>
      rw [Unsplit, beforeStartCode]
      split
      · rename_i hzero
        obtain ⟨behind, hbehind⟩ := beforeStartCode_begins rest
        have hcode : startCode (byte :: beforeStartCode rest) = 0 := by
          by_contra hne
          have hlonger := startCode_append_ne_zero hne behind
          rw [List.cons_append, hbehind] at hlonger
          exact hlonger hzero
        rw [beforeStartCode, if_pos hcode, ih]
      · rfl

/-- What is cut out has no start code in it. -/
theorem unsplit_of_mem {fuel : ℕ} {input : Bytes} (h : nalu ∈ nalusFrom fuel input) : Unsplit nalu := by
  induction fuel generalizing input with
  | zero => cases h
  | succ fuel ih =>
      cases input with
      | nil => cases h
      | cons byte rest =>
          rw [nalusFrom] at h
          split at h
          · exact ih h
          · dsimp only at h
            split at h
            · exact ih h
            · rcases List.mem_cons.mp h with rfl | hlater
              · exact unsplit_beforeStartCode _
              · exact ih hlater

/-- A long start code is not found early, whatever stands before it. -/
theorem startCode_before {byte : UInt8} {rest : Bytes} (h : startCode (byte :: rest) = 0) (behind : Bytes) :
    startCode (byte :: rest ++ [0, 0, 0, 1] ++ behind) = 0 := by
  match rest with
  | [] => simp [startCode]
  | [second] => simp [startCode]
  | [second, third] =>
      rw [startCode_cons] at h
      simp only [List.cons_append, List.nil_append]
      rw [startCode_cons]
      simp_all
  | second :: third :: fourth :: rest =>
      simp only [List.cons_append]
      rw [startCode_cons] at h ⊢
      simp_all

theorem beforeStartCode_before (h : Unsplit nalu) (behind : Bytes) :
    beforeStartCode (nalu ++ [0, 0, 0, 1] ++ behind) = nalu := by
  induction nalu with
  | nil => rfl
  | cons byte rest ih =>
      unfold Unsplit at h
      rw [beforeStartCode] at h
      split at h
      · rename_i hzero
        have hrest := ih (List.cons.inj h).2
        have hcode := startCode_before hzero behind
        rw [List.cons_append, List.cons_append] at hcode ⊢
        rw [beforeStartCode, if_pos hcode, hrest]
      · cases h

/-! ## The configuration of a client -/

/-- A parameter set of the type, if there was one. -/
def IsKept (type : ℕ) (nalu : Bytes) : Prop := nalu = [] ∨ naluType nalu = type ∧ Unsplit nalu

/-- The configuration of a client has no slice. -/
theorem not_containsIdr_config (hsps : sps ≠ []) (hpps : pps ≠ []) (hspsKept : IsKept 7 sps)
    (hppsKept : IsKept 8 pps) : ¬ ContainsIdr ([0, 0, 0, 1] ++ sps ++ [0, 0, 0, 1] ++ pps) := by
  obtain ⟨hspsType, hspsUnsplit⟩ := hspsKept.resolve_left hsps
  obtain ⟨hppsType, hppsUnsplit⟩ := hppsKept.resolve_left hpps
  have hfirst := beforeStartCode_before hspsUnsplit pps
  have hnalus : nalus ([0, 0, 0, 1] ++ sps ++ [0, 0, 0, 1] ++ pps) = [sps, pps] := by
    have hlength : ([0, 0, 0, 1] ++ sps ++ [0, 0, 0, 1] ++ pps).length = sps.length + pps.length + 6 + 1 + 1 := by
      simp only [List.length_append, List.length_cons, List.length_nil]
      omega
    have hcode : startCode ([0, 0, 0, 1] ++ sps ++ [0, 0, 0, 1] ++ pps) = 4 := rfl
    have hrest : ([0, 0, 0, 1] ++ sps ++ [0, 0, 0, 1] ++ pps).drop 4 = sps ++ [0, 0, 0, 1] ++ pps := rfl
    have hsecond : startCode ([0, 0, 0, 1] ++ pps) = 4 := rfl
    have hlast : ([0, 0, 0, 1] ++ pps).drop 4 = pps := rfl
    rw [nalus, hlength, nalusFrom_of_code (by rw [hcode]; decide), hcode, hrest]
    dsimp only
    rw [hfirst, if_neg hsps, List.append_assoc, List.drop_left, nalusFrom_of_code (by rw [hsecond]; decide),
      hsecond, hlast]
    dsimp only
    rw [hppsUnsplit, if_neg hpps, List.drop_length, nalusFrom_of_short (by decide)]
  rintro ⟨nalu, hmem, htype⟩
  rw [hnalus, List.mem_cons, List.mem_singleton] at hmem
  rcases hmem with rfl | rfl
  · omega
  · omega

/-- The parameter sets that a forwarder keeps. -/
def KeepsSets (f : Forwarder) : Prop := IsKept 7 f.sps ∧ IsKept 8 f.pps

theorem keepsSets_foldl {units : List Bytes} (scan : NaluScan) (hunits : ∀ nalu ∈ units, Unsplit nalu)
    (hscan : IsKept 7 scan.sps ∧ IsKept 8 scan.pps) :
    IsKept 7 (units.foldl NaluScan.next scan).sps ∧ IsKept 8 (units.foldl NaluScan.next scan).pps := by
  induction units generalizing scan with
  | nil => exact hscan
  | cons nalu units ih =>
      have hnalu := hunits nalu List.mem_cons_self
      refine ih _ (fun other hother => hunits other (List.mem_cons_of_mem _ hother)) ?_
      rcases scan.next_cases nalu with ⟨htype, heq⟩ | ⟨htype, heq⟩ | ⟨-, heq⟩ | ⟨-, heq⟩ <;> rw [heq]
      · exact ⟨Or.inr ⟨htype, hnalu⟩, hscan.2⟩
      · exact ⟨hscan.1, Or.inr ⟨htype, hnalu⟩⟩
      · exact hscan
      · exact hscan

theorem KeepsSets.pushVideo {f : Forwarder} (h : KeepsSets f) (accessUnit : Bytes) :
    KeepsSets (f.pushVideo accessUnit) := by
  have hnoticed : KeepsSets (f.noticed accessUnit) :=
    keepsSets_foldl { sps := f.sps, pps := f.pps } (fun _ hnalu => unsplit_of_mem hnalu) h
  unfold Forwarder.pushVideo
  split
  · exact h
  · split
    · exact h
    · dsimp only
      split
      · split
        · exact hnoticed
        · exact hnoticed
      · exact hnoticed

theorem KeepsSets.restart {f : Forwarder} (h : KeepsSets f) : KeepsSets f.restart := by
  unfold Forwarder.restart
  split
  · exact h
  · split
    · exact h
    · exact h

theorem KeepsSets.not_containsIdr {f : Forwarder} (h : KeepsSets f) (hconfig : f.config ≠ []) :
    ¬ ContainsIdr f.config := by
  unfold Forwarder.config at hconfig ⊢
  split at hconfig
  · rename_i hboth
    rw [if_pos hboth]
    exact not_containsIdr_config hboth.1 hboth.2 h.1 h.2
  · exact absurd rfl hconfig

/-- If the client has a configuration, it has no slice. -/
def Configured (session : Session) : Prop := ∀ config ∈ session.config, ¬ ContainsIdr config

def StageConfigured : Stage → Prop
  | .greeting session config => Configured session ∧ ¬ ContainsIdr config
  | .forwarding session | .sending session _ => Configured session
  | .listening | .stopped => True

structure Configures (s : MediaState) : Prop where
  sets : KeepsSets s.forwarder
  stage : StageConfigured s.stage
  past : ∀ session ∈ s.past, Configured session

section

variable {event : MediaEvent} {s s' : MediaState}

theorem configured_fresh : Configured {} := fun _ hconfig => nomatch hconfig

theorem Configures.past_append (h : Configures s) {session : Session} (hsession : Configured session) :
    ∀ other ∈ s.past ++ [session], Configured other :=
  List.forall_mem_append.mpr ⟨h.past, List.forall_mem_singleton.mpr hsession⟩

theorem Configures.step (h : Configures s) (hstep : Step .video event s s') : Configures s' := by
  have hstage := h.stage
  cases hstep with
  | push _ bytes => exact ⟨h.sets.pushVideo bytes, hstage, h.past⟩
  | greet f past hconfig => exact ⟨h.sets.restart, ⟨configured_fresh, h.sets.not_containsIdr hconfig⟩, h.past⟩
  | enter f past hconfig => exact ⟨h.sets.restart, configured_fresh, h.past⟩
  | take f f' session frame stopping past htake =>
      obtain ⟨-, hrest⟩ := Forwarder.take_eq_some htake
      refine ⟨?_, hstage, h.past⟩
      rw [hrest]
      exact h.sets
  | writeConfig f session config stopping past =>
      refine ⟨h.sets, ?_, h.past⟩
      rintro written hwritten
      cases hwritten
      exact hstage.2
  | writeFrame => exact ⟨h.sets, hstage, h.past⟩
  | breakConfig => exact ⟨h.sets, trivial, h.past_append hstage.1⟩
  | breakFrame => exact ⟨h.sets, trivial, h.past_append hstage⟩
  | stop => exact ⟨h.sets, hstage, h.past⟩
  | leave => exact ⟨h.sets, trivial, h.past⟩
  | close => exact ⟨h.sets, trivial, h.past_append hstage⟩

theorem Configures.sessions (h : Configures s) : ∀ session ∈ s.sessions, Configured session := by
  have hstage := h.stage
  intro session hsession
  rcases List.mem_append.mp hsession with hpast | hnow
  · exact h.past session hpast
  · have hserved : s.stage.session? = some session := by simpa using hnow
    cases hs : s.stage <;> rw [hs] at hserved hstage <;> cases hserved
    · exact hstage.1
    · exact hstage
    · exact hstage

end

/-! ## The units that are sent -/

end VideoPath
end Airplay
end Aa2acp
