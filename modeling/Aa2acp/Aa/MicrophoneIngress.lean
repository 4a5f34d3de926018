import Aa2acp.Aa.MicrophoneSession
import Aa2acp.Lib.FifoHistory

/-!
# The ingress of the microphone

`send_audio`, `drain_audio` and the requests that clear the queue, in every order of their
critical sections and of the posts to the strand between them.  Whoever sets
`ingress_posted_` owes the strand one `drain_audio`, and only that one may clear the flag or
hand the debt on; so the flag counts the posts that are owed, queued and running
(`Sound.owed`), and a packet never waits without one.

The strand runs one handler after the other.  The result does not need that: here any
number of drains may run, between each other and between the parts of a request.
-/

namespace Aa2acp
namespace Aa

open Fifo

/-- Why a packet left the queue. -/
inductive Departure where
  /-- `drain_audio` took it. -/
  | taken
  /-- `send_audio` had too many. -/
  | displaced
  /-- An open or close request cleared the queue. -/
  | cleared
deriving DecidableEq, Repr

/-- A packet that is displaced is the oldest of more than two, with the new one; a request
clears everything. -/
def Departure.Permits (reason : Departure) (packets later : List Bytes) : Prop :=
  match reason with
  | .taken => packets.length = 1
  | .displaced => packets.length = 1 ∧ kMaximumIngressPackets < (packets ++ later).length + 1
  | .cleared => later = []

/-- Where a `drain_audio` is. -/
inductive Drain where
  | begun
  | took (audio : Bytes)
  | sent
  /-- It is about to post another one. -/
  | posting
deriving DecidableEq, Repr

def Drain.inHand : Drain → Option Bytes
  | .took audio => some audio
  | .begun | .sent | .posting => none

/-- The session, the threads in it and the strand.  The last two fields are histories: the
packets that were passed to `send_audio_on_strand`, and the ingress queue. -/
structure MicrophoneIngress where
  session : MicrophoneSession := {}
  /-- Calls of `send_audio` that are about to post. -/
  posting : ℕ := 0
  /-- How many `drain_audio` the strand has queued. -/
  queued : ℕ := 0
  /-- Those that run. -/
  drains : List Drain := []
  /-- Requests before their critical section. -/
  clearing : ℕ := 0
  passed : List Bytes := []
  history : List (Entry Bytes Departure) := []
deriving DecidableEq, Repr

inductive IngressEvent where
  /-- The critical section of `send_audio`. -/
  | sendAudio (audio : Bytes)
  | post
  /-- The strand runs a `drain_audio` that is queued. -/
  | begin
  /-- A `drain_audio` gets on. -/
  | advance (index : ℕ)
  | request (isOpen : Bool)
  | clear
  | acknowledge
deriving DecidableEq, Repr

namespace MicrophoneIngress

/-- What `send_audio` does to the queue. -/
def pushEntries (audio : Bytes) (queue : List Bytes) : List (Entry Bytes Departure) :=
  (if queue.length ≥ kMaximumIngressPackets then [.left (queue.take 1) .displaced] else []) ++
    [.arrived audio]

/-- The next section of a `drain_audio`. -/
def advance (w : MicrophoneIngress) (index : ℕ) : Drain → MicrophoneIngress
  | .begun =>
      match w.session.takeIngress with
      | (session, none) => { w with session := session, drains := w.drains.eraseIdx index }
      | (session, some audio) =>
          { w with
            session := session
            drains := w.drains.set index (.took audio)
            history := w.history ++ [.left [audio] .taken] }
  | .took audio =>
      { w with
        session := (w.session.sendAudioOnStrand audio).1
        drains := w.drains.set index .sent
        passed := w.passed ++ [audio] }
  | .sent =>
      match w.session.testIngress with
      | (session, true) => { w with session := session, drains := w.drains.set index .posting }
      | (session, false) => { w with session := session, drains := w.drains.eraseIdx index }
  | .posting => { w with queued := w.queued + 1, drains := w.drains.eraseIdx index }

def step : IngressEvent → MicrophoneIngress → Option MicrophoneIngress
  | .sendAudio audio, w =>
      if audio = [] then some w
      else
        let (session, schedule) := w.session.pushIngress audio
        some { w with
          session := session
          posting := if schedule then w.posting + 1 else w.posting
          history := w.history ++ pushEntries audio w.session.ingressAudio }
  | .post, w =>
      if w.posting = 0 then none
      else some { w with posting := w.posting - 1, queued := w.queued + 1 }
  | .begin, w =>
      if w.queued = 0 then none
      else some { w with queued := w.queued - 1, drains := w.drains ++ [.begun] }
  | .advance index, w => w.drains[index]?.map (w.advance index)
  | .request isOpen, w =>
      some { w with session := w.session.beginRequest isOpen, clearing := w.clearing + 1 }
  | .clear, w =>
      if w.clearing = 0 then none
      else some { w with
        session := w.session.clearIngress
        clearing := w.clearing - 1
        history := w.history ++ [.left w.session.ingressAudio .cleared] }
  | .acknowledge, w => some { w with session := w.session.onMediaChannelAckIndication.1 }

/-- No step is in progress. -/
def Idle (w : MicrophoneIngress) : Prop := w.posting = 0 ∧ w.drains = [] ∧ w.clearing = 0

/-! ## The invariant -/

structure Sound (w : MicrophoneIngress) : Prop where
  /-- The flag counts the posts that are owed, queued and running. -/
  owed : w.posting + w.queued + w.drains.length = w.session.ingressPosted.toNat
  woken : w.session.ingressAudio ≠ [] → w.session.ingressPosted = true
  tracks : Tracks Departure.Permits w.history w.session.ingressAudio
  passed : departuresFor .taken w.history = w.passed ++ w.drains.filterMap Drain.inHand

theorem sound_start : Sound {} where
  owed := rfl
  woken h := absurd rfl h
  tracks := tracks_nil
  passed := rfl

variable {w w' : MicrophoneIngress}

/-- The session's other variables do not matter. -/
theorem Sound.of_same (h : Sound w) (hsame : w'.session.ingressAudio = w.session.ingressAudio)
    (hposted : w'.session.ingressPosted = w.session.ingressPosted)
    (hposting : w'.posting = w.posting) (hqueued : w'.queued = w.queued)
    (hdrains : w'.drains = w.drains) (hpassed : w'.passed = w.passed)
    (hhistory : w'.history = w.history) : Sound w' where
  owed := by rw [hposting, hqueued, hdrains, hposted]; exact h.owed
  woken := by rw [hsame, hposted]; exact h.woken
  tracks := by rw [hsame, hhistory]; exact h.tracks
  passed := by rw [hhistory, hpassed, hdrains]; exact h.passed

/-- A drain that runs is the only one, and nothing else is owed. -/
theorem Sound.alone (h : Sound w) {index : ℕ} {drain : Drain}
    (hdrain : w.drains[index]? = some drain) :
    index = 0 ∧ w.drains = [drain] ∧ w.posting = 0 ∧ w.queued = 0 ∧
      w.session.ingressPosted = true := by
  have howed := h.owed
  have hbool := Bool.toNat_le w.session.ingressPosted
  obtain ⟨hlt, -⟩ := List.getElem?_eq_some_iff.mp hdrain
  have hlength : w.drains.length = 1 := by omega
  obtain ⟨only, honly⟩ := List.length_eq_one_iff.mp hlength
  have hindex : index = 0 := by omega
  rw [honly, hindex] at hdrain
  cases hdrain
  refine ⟨hindex, honly, by omega, by omega, ?_⟩
  cases hposted : w.session.ingressPosted with
  | true => rfl
  | false =>
    rw [hposted] at howed
    simp only [Bool.toNat_false] at howed
    omega

theorem sendAudioOnStrand_ingress (audio : Bytes) (s : MicrophoneSession) :
    (s.sendAudioOnStrand audio).1.ingressAudio = s.ingressAudio ∧
      (s.sendAudioOnStrand audio).1.ingressPosted = s.ingressPosted := by
  unfold MicrophoneSession.sendAudioOnStrand
  split
  · exact ⟨rfl, rfl⟩
  · split <;> exact ⟨rfl, rfl⟩

theorem onMediaChannelAckIndication_ingress (s : MicrophoneSession) :
    s.onMediaChannelAckIndication.1.ingressAudio = s.ingressAudio ∧
      s.onMediaChannelAckIndication.1.ingressPosted = s.ingressPosted := by
  unfold MicrophoneSession.onMediaChannelAckIndication
  dsimp only
  split
  · exact sendAudioOnStrand_ingress _ _
  · exact ⟨rfl, rfl⟩

/-- Whoever puts a packet into the queue sets the flag, and posts if it was clear. -/
theorem pushIngress_eq (audio : Bytes) (s : MicrophoneSession) :
    s.pushIngress audio =
      ({ s with
          ingressAudio :=
            (if s.ingressAudio.length ≥ kMaximumIngressPackets then s.ingressAudio.drop 1
              else s.ingressAudio) ++ [audio]
          ingressPosted := true }, !s.ingressPosted) := by
  unfold MicrophoneSession.pushIngress
  dsimp only
  cases hposted : s.ingressPosted <;> rfl

/-- A packet arrives, and the oldest one may have to go. -/
theorem tracks_pushEntries {history : List (Entry Bytes Departure)} {queue : List Bytes}
    (h : Tracks Departure.Permits history queue) (audio : Bytes) :
    Tracks Departure.Permits (history ++ pushEntries audio queue)
      ((if queue.length ≥ kMaximumIngressPackets then queue.drop 1 else queue) ++ [audio]) := by
  unfold pushEntries
  split
  · rename_i hfull
    have hlong : 2 ≤ queue.length := hfull
    rw [← List.take_append_drop 1 queue] at h
    have hpermits : Departure.displaced.Permits (queue.take 1) (queue.drop 1) := by
      refine ⟨?_, ?_⟩
      · rw [List.length_take]
        omega
      · rw [List.take_append_drop]
        exact Nat.lt_succ_of_le hfull
    rw [← List.append_assoc]
    exact (h.left hpermits).arrived audio
  · exact h.arrived audio

theorem departuresFor_pushEntries (audio : Bytes) (queue : List Bytes) :
    departuresFor .taken (pushEntries audio queue) = [] := by
  unfold pushEntries
  split <;> simp [departuresFor, Entry.goneFor]

theorem Sound.sendAudio (h : Sound w) {audio : Bytes}
    (hstep : w.step (.sendAudio audio) = some w') : Sound w' := by
  simp only [MicrophoneIngress.step] at hstep
  split at hstep
  · cases hstep
    exact h
  · cases hstep
    have howed := h.owed
    have htracks := tracks_pushEntries h.tracks audio
    have hpassed : departuresFor .taken (w.history ++ pushEntries audio w.session.ingressAudio) =
        w.passed ++ w.drains.filterMap Drain.inHand := by
      rw [departuresFor_append, departuresFor_pushEntries, List.append_nil, h.passed]
    rw [pushIngress_eq]
    refine ⟨?_, fun _ => rfl, htracks, hpassed⟩
    cases hposted : w.session.ingressPosted with
    | false =>
      -- nothing was owed; now a post is
      rw [hposted, Bool.toNat_false] at howed
      show w.posting + 1 + w.queued + w.drains.length = 1
      omega
    | true =>
      rw [hposted] at howed
      exact howed

theorem Sound.drain (h : Sound w) {index : ℕ} {drain : Drain}
    (hdrain : w.drains[index]? = some drain) : Sound (w.advance index drain) := by
  obtain ⟨rfl, hdrains, hposting, hqueued, hposted⟩ := h.alone hdrain
  have hpassed := h.passed
  rw [hdrains] at hpassed
  cases drain with
  | begun =>
    cases haudio : w.session.ingressAudio with
    | nil =>
      -- the queue was cleared meanwhile: the debt ends, and nothing waits
      have hadvance : w.advance 0 .begun =
          { w with session := { w.session with ingressPosted := false }, drains := [] } := by
        simp [advance, MicrophoneSession.takeIngress, haudio, hdrains]
      rw [hadvance]
      refine ⟨?_, fun hne => absurd haudio hne, h.tracks, hpassed⟩
      show w.posting + w.queued + 0 = 0
      omega
    | cons audio rest =>
      have hadvance : w.advance 0 .begun =
          { w with
            session := { w.session with ingressAudio := rest }
            drains := [.took audio]
            history := w.history ++ [.left [audio] .taken] } := by
        simp [advance, MicrophoneSession.takeIngress, haudio, hdrains]
      have htracks := h.tracks
      rw [haudio] at htracks
      rw [hadvance]
      refine ⟨?_, fun _ => hposted, ?_, ?_⟩
      · show w.posting + w.queued + 1 = w.session.ingressPosted.toNat
        rw [hposted, hposting, hqueued]
        rfl
      · have hone : Departure.taken.Permits [audio] rest := rfl
        exact Tracks.left (show Tracks _ w.history ([audio] ++ rest) from htracks) hone
      · rw [departuresFor_append, hpassed]
        simp [departuresFor, Entry.goneFor, Drain.inHand]
  | took audio =>
    obtain ⟨hsame, hflag⟩ := sendAudioOnStrand_ingress audio w.session
    have hadvance : w.advance 0 (.took audio) =
        { w with
          session := (w.session.sendAudioOnStrand audio).1
          drains := [.sent]
          passed := w.passed ++ [audio] } := by
      simp [advance, hdrains]
    rw [hadvance]
    refine ⟨?_, ?_, ?_, ?_⟩
    · show w.posting + w.queued + 1 = (w.session.sendAudioOnStrand audio).1.ingressPosted.toNat
      rw [hflag, hposted, hposting, hqueued]
      rfl
    · exact fun _ => hflag.trans hposted
    · show Tracks _ w.history (w.session.sendAudioOnStrand audio).1.ingressAudio
      rw [hsame]
      exact h.tracks
    · show departuresFor .taken w.history = w.passed ++ [audio] ++ []
      rw [hpassed, List.append_nil]
      rfl
  | sent =>
    cases haudio : w.session.ingressAudio with
    | nil =>
      have hadvance : w.advance 0 .sent =
          { w with session := { w.session with ingressPosted := false }, drains := [] } := by
        simp [advance, MicrophoneSession.testIngress, haudio, hdrains]
      rw [hadvance]
      refine ⟨?_, fun hne => absurd haudio hne, h.tracks, hpassed⟩
      show w.posting + w.queued + 0 = 0
      omega
    | cons audio rest =>
      have hadvance : w.advance 0 .sent = { w with drains := [.posting] } := by
        simp [advance, MicrophoneSession.testIngress, haudio, hdrains]
      rw [hadvance]
      refine ⟨?_, fun _ => hposted, h.tracks, hpassed⟩
      show w.posting + w.queued + 1 = w.session.ingressPosted.toNat
      rw [hposted, hposting, hqueued]
      rfl
  | posting =>
    have hadvance : w.advance 0 .posting = { w with queued := w.queued + 1, drains := [] } := by
      simp [advance, hdrains]
    rw [hadvance]
    refine ⟨?_, fun _ => hposted, h.tracks, hpassed⟩
    show w.posting + (w.queued + 1) + 0 = w.session.ingressPosted.toNat
    rw [hposted, hposting, hqueued]
    rfl

theorem Sound.step {event : IngressEvent} (h : Sound w) (hstep : w.step event = some w') :
    Sound w' := by
  have howed := h.owed
  cases event with
  | sendAudio audio => exact h.sendAudio hstep
  | post =>
    simp only [MicrophoneIngress.step] at hstep
    split at hstep
    · cases hstep
    · cases hstep
      refine ⟨?_, h.woken, h.tracks, h.passed⟩
      show w.posting - 1 + (w.queued + 1) + w.drains.length = w.session.ingressPosted.toNat
      omega
  | begin =>
    simp only [MicrophoneIngress.step] at hstep
    split at hstep
    · cases hstep
    · cases hstep
      refine ⟨?_, h.woken, h.tracks, ?_⟩
      · show w.posting + (w.queued - 1) + (w.drains ++ [Drain.begun]).length =
          w.session.ingressPosted.toNat
        rw [List.length_append, List.length_singleton]
        omega
      · show departuresFor .taken w.history =
          w.passed ++ (w.drains ++ [Drain.begun]).filterMap Drain.inHand
        rw [List.filterMap_append, h.passed]
        simp [Drain.inHand]
  | advance index =>
    obtain ⟨drain, hdrain, rfl⟩ := Option.map_eq_some_iff.mp hstep
    exact h.drain hdrain
  | request isOpen =>
    cases hstep
    exact h.of_same rfl rfl rfl rfl rfl rfl rfl
  | clear =>
    simp only [MicrophoneIngress.step] at hstep
    split at hstep
    · cases hstep
    · cases hstep
      refine ⟨howed, fun hne => absurd rfl hne, ?_, ?_⟩
      · have htracks := h.tracks
        rw [← List.append_nil w.session.ingressAudio] at htracks
        exact htracks.left rfl
      · rw [departuresFor_append, h.passed]
        simp [departuresFor, Entry.goneFor]
  | acknowledge =>
    cases hstep
    obtain ⟨hsame, hflag⟩ := onMediaChannelAckIndication_ingress w.session
    exact h.of_same hsame hflag rfl rfl rfl rfl rfl

/-! ## All orders -/

theorem sound_of_run {events : List IngressEvent} (hrun : Machine.run step events {} = some w) :
    Sound w :=
  Machine.run_invariant Sound (fun _ _ _ h hstep => h.step hstep) sound_start hrun

/-- In every order of the steps of `send_audio`, `drain_audio` and the requests: one drain at
most is queued or runs; when no step is in progress the flag says whether one is queued, and
one is when there are packets; the packets are passed on in the order in which they arrived,
and each that left the queue was taken, or was the oldest of more than two, or was cleared
with all others by a request. -/
theorem ingress_never_stuck {events : List IngressEvent}
    (hrun : Machine.run step events {} = some w) :
    w.queued + w.drains.length ≤ 1 ∧
    (w.Idle → (w.session.ingressPosted = true ↔ w.queued = 1) ∧
      (w.session.ingressAudio ≠ [] → w.queued = 1)) ∧
    (∃ inHand, departuresFor .taken w.history = w.passed ++ inHand ∧ (w.Idle → inHand = [])) ∧
    (departuresFor .taken w.history).Sublist (arrivals w.history) ∧
    arrivals w.history = departures w.history ++ w.session.ingressAudio ∧
    Lawful Departure.Permits w.history := by
  have hsound := sound_of_run hrun
  have howed := hsound.owed
  have hbool := Bool.toNat_le w.session.ingressPosted
  have hflag : w.Idle → (w.session.ingressPosted = true ↔ w.queued = 1) := by
    rintro ⟨hposting, hdrains, -⟩
    rw [hposting, hdrains, List.length_nil, Nat.zero_add, Nat.add_zero] at howed
    rw [howed]
    cases w.session.ingressPosted <;> decide
  refine ⟨by omega, fun hidle => ⟨hflag hidle, fun haudio => ?_⟩, ?_,
    hsound.tracks.departuresFor_sublist .taken, hsound.tracks.split, hsound.tracks.lawful⟩
  · exact (hflag hidle).mp (hsound.woken haudio)
  · refine ⟨w.drains.filterMap Drain.inHand, hsound.passed, fun hidle => ?_⟩
    rw [hidle.2.1]
    rfl

/-- The oldest of three packets is displaced, and a close request comes between the two
critical sections of a drain. -/
theorem ingress_never_stuck_closed :
    let events : List IngressEvent :=
      [.request true, .clear, .sendAudio [1], .sendAudio [2], .sendAudio [3], .post, .begin,
        .advance 0, .request false, .clear, .advance 0, .advance 0, .sendAudio [4], .post]
    ∃ w, Machine.run step events {} = some w ∧
      (w.passed, w.session.ingressAudio, w.queued) = ([[2]], [[4]], 1) ∧
      w.queued + w.drains.length ≤ 1 ∧
      (w.Idle → (w.session.ingressPosted = true ↔ w.queued = 1) ∧
        (w.session.ingressAudio ≠ [] → w.queued = 1)) ∧
      (∃ inHand, departuresFor .taken w.history = w.passed ++ inHand ∧ (w.Idle → inHand = [])) ∧
      (departuresFor .taken w.history).Sublist (arrivals w.history) ∧
      arrivals w.history = departures w.history ++ w.session.ingressAudio ∧
      Lawful Departure.Permits w.history := by
  intro events
  exact (Option.map_eq_some_iff.mp (by decide +kernel)).imp fun _ h =>
    ⟨h.1, h.2, ingress_never_stuck h.1⟩

end MicrophoneIngress

end Aa
end Aa2acp
