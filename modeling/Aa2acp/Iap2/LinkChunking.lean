import Aa2acp.Iap2.LinkBuffer
import Aa2acp.Iap2.LinkSimilar
import Aa2acp.Lib.Scanner

/-!
# Chunking invariance

Where a chunk ends shows in the receive buffer only.  The link is compared with a
scanner that takes the marker, single bytes that cannot start a frame, and whole
frames as soon as they are there; `receive` tracks what the scanner makes of all the
bytes received, and a scanner does not see chunks.
-/

namespace Aa2acp
namespace Iap2

variable {σ : Type} (env : Env σ) (now : TimePoint)

/-! ## The link as a scanner -/

/-- The link after the marker was found in Detect. -/
def enterNegotiate (w : World σ) : World σ :=
  sendSyn env now false (w.update fun link => { link with state := .negotiate })

/-- A look at bytes that start with `ff 5a`. -/
def lookFrame (w : World σ) (bytes : Bytes) : Option (ℕ × World σ) :=
  if bytes.length < 9 then none
  else
    match decodeHeader (bytes.take 9) with
    | none => some (1, w)
    | some header =>
        if header.length > w.link.lsp.maxLen then some (9, w.update .die)
        else if bytes.length < header.length.toNat then none
        else
          let body := (bytes.drop 9).take (header.length.toNat - 9)
          if header.length > 9 ∧ hasValidChecksum body = false then some (header.length.toNat, w)
          else some (header.length.toNat, handlePacket env header body.dropLast now w)

/-- A look once the marker was found. -/
def lookFramed (w : World σ) (bytes : Bytes) : Option (ℕ × World σ) :=
  if bytes = [] then none
  else if bytes.getD 0 0 ≠ 0xff then some (1, w)
  else if bytes.length < 2 then none
  else if bytes.getD 1 0 ≠ 0x5a then some (1, w)
  else lookFrame env now w bytes

/-- A look in Detect. -/
def lookMarker (w : World σ) (bytes : Bytes) : Option (ℕ × World σ) :=
  if bytes.length < kMarker.length then none
  else if kMarker.isPrefixOf bytes then some (kMarker.length, enterNegotiate env now w)
  else some (1, w)

/-- A dead link reads on, to no effect. -/
def look (w : World σ) (bytes : Bytes) : Option (ℕ × World σ) :=
  match w.link.state with
  | .dead => if bytes = [] then none else some (1, w)
  | .detect => lookMarker env now w bytes
  | .negotiate => lookFramed env now w bytes
  | .normal => lookFramed env now w bytes

theorem look_of_framed {w : World σ} (hdetect : w.link.state ≠ .detect)
    (hdead : w.link.state ≠ .dead) (bytes : Bytes) :
    look env now w bytes = lookFramed env now w bytes := by
  unfold look
  cases hstate : w.link.state with
  | detect => exact absurd hstate hdetect
  | dead => exact absurd hstate hdead
  | negotiate => rfl
  | normal => rfl

section Laws

variable {env now} {w w' : World σ} {bytes : Bytes} {n : ℕ}

theorem lookFrame_progress (h : lookFrame env now w bytes = some (n, w')) :
    0 < n ∧ n ≤ bytes.length := by
  unfold lookFrame at h
  split at h
  · cases h
  rename_i hlong
  split at h
  · cases h
    omega
  · rename_i header hdecode
    have hheader := UInt16.le_iff_toNat_le.mp (decodeHeader_length hdecode)
    have hnine : (9 : UInt16).toNat = 9 := rfl
    split at h
    · cases h
      omega
    split at h
    · cases h
    · dsimp only at h
      split at h
      · cases h
        omega
      · cases h
        omega

theorem lookFramed_progress (h : lookFramed env now w bytes = some (n, w')) :
    0 < n ∧ n ≤ bytes.length := by
  unfold lookFramed at h
  split at h
  · cases h
  rename_i hne
  have hpos : 0 < bytes.length := List.length_pos_iff.mpr hne
  split at h
  · cases h
    omega
  split at h
  · cases h
  split at h
  · cases h
    omega
  · exact lookFrame_progress h

theorem look_progress (h : look env now w bytes = some (n, w')) :
    0 < n ∧ n ≤ bytes.length := by
  unfold look at h
  cases hstate : w.link.state with
  | dead =>
      simp only [hstate] at h
      split at h
      · cases h
      · rename_i hne
        cases h
        exact ⟨Nat.one_pos, List.length_pos_iff.mpr hne⟩
  | detect =>
      simp only [hstate, lookMarker] at h
      have hmarker : kMarker.length = 6 := rfl
      split at h
      · cases h
      split at h
      · cases h
        omega
      · cases h
        omega
  | negotiate =>
      simp only [hstate] at h
      exact lookFramed_progress h
  | normal =>
      simp only [hstate] at h
      exact lookFramed_progress h

theorem lookFrame_stable (more : Bytes) (h : lookFrame env now w bytes = some (n, w')) :
    lookFrame env now w (bytes ++ more) = some (n, w') := by
  unfold lookFrame at h ⊢
  split at h
  · cases h
  rename_i hlong
  have hlonger : ¬ (bytes ++ more).length < 9 := by
    rw [List.length_append]
    omega
  have htake : (bytes ++ more).take 9 = bytes.take 9 :=
    List.take_append_of_le_length (by omega)
  rw [if_neg hlonger, htake]
  split at h
  · exact h
  · rename_i header hdecode
    have hheader := UInt16.le_iff_toNat_le.mp (decodeHeader_length hdecode)
    have hnine : (9 : UInt16).toNat = 9 := rfl
    split at h
    · rename_i hexceeds
      dsimp only
      rw [if_pos hexceeds]
      exact h
    · rename_i hallowed
      split at h
      · cases h
      · rename_i hcomplete
        have hcompleter : ¬ (bytes ++ more).length < header.length.toNat := by
          rw [List.length_append]
          omega
        have hbody : ((bytes ++ more).drop 9).take (header.length.toNat - 9) =
            (bytes.drop 9).take (header.length.toNat - 9) := by
          rw [List.drop_append_of_le_length (by omega)]
          refine List.take_append_of_le_length ?_
          rw [List.length_drop]
          omega
        dsimp only at h ⊢
        rw [if_neg hallowed, if_neg hcompleter, hbody]
        exact h

theorem lookFramed_stable (more : Bytes) (h : lookFramed env now w bytes = some (n, w')) :
    lookFramed env now w (bytes ++ more) = some (n, w') := by
  unfold lookFramed at h ⊢
  split at h
  · cases h
  rename_i hne
  have hpos : 0 < bytes.length := List.length_pos_iff.mpr hne
  have hne' : bytes ++ more ≠ [] := by simp [hne]
  rw [if_neg hne', getD_append_left hpos]
  split at h
  · rename_i hjunk
    rw [if_pos hjunk]
    exact h
  · rename_i hff
    rw [if_neg hff]
    split at h
    · cases h
    · rename_i htwo
      have htwo' : ¬ (bytes ++ more).length < 2 := by
        rw [List.length_append]
        omega
      rw [if_neg htwo', getD_append_left (by omega)]
      split at h
      · rename_i hother
        rw [if_pos hother]
        exact h
      · rename_i hmarks
        rw [if_neg hmarks]
        exact lookFrame_stable more h

theorem marker_isPrefixOf_append (hlength : ¬ bytes.length < kMarker.length) (more : Bytes) :
    kMarker.isPrefixOf (bytes ++ more) = kMarker.isPrefixOf bytes := by
  rw [Bool.eq_iff_iff, List.isPrefixOf_iff_prefix, List.isPrefixOf_iff_prefix]
  constructor
  · intro h
    exact List.prefix_of_prefix_length_le h (List.prefix_append bytes more) (by omega)
  · intro h
    exact h.trans (List.prefix_append bytes more)

theorem look_stable (more : Bytes) (h : look env now w bytes = some (n, w')) :
    look env now w (bytes ++ more) = some (n, w') := by
  unfold look at h ⊢
  cases hstate : w.link.state with
  | dead =>
      simp only [hstate] at h ⊢
      split at h
      · cases h
      · rename_i hne
        rw [if_neg (by simp [hne])]
        exact h
  | detect =>
      simp only [hstate, lookMarker] at h ⊢
      split at h
      · cases h
      · rename_i hlength
        have hlength' : ¬ (bytes ++ more).length < kMarker.length := by
          rw [List.length_append]
          omega
        rw [if_neg hlength', marker_isPrefixOf_append hlength]
        exact h
  | negotiate =>
      simp only [hstate] at h ⊢
      exact lookFramed_stable more h
  | normal =>
      simp only [hstate] at h ⊢
      exact lookFramed_stable more h

end Laws

/-- The link as a scanner of the byte stream. -/
def linkScanner : Scanner (World σ) UInt8 where
  look := look env now
  progress := look_progress
  stable := look_stable

/-- What the scanner makes of the bytes. -/
abbrev scan (w : World σ) (bytes : Bytes) : World σ × Bytes := (linkScanner env now).drain w bytes

section Scan

variable {env now} {w : World σ}

theorem scan_of_none {bytes : Bytes} (h : look env now w bytes = none) :
    scan env now w bytes = (w, bytes) :=
  (linkScanner env now).drain_of_none h

theorem scan_of_some {w' : World σ} {bytes : Bytes} {n : ℕ}
    (h : look env now w bytes = some (n, w')) :
    scan env now w bytes = scan env now w' (bytes.drop n) :=
  (linkScanner env now).drain_of_some h

theorem scan_of_dead (hdead : w.link.state = .dead) (bytes : Bytes) :
    scan env now w bytes = (w, []) := by
  refine (linkScanner env now).drain_of_discards bytes ?_ ?_
  · intro byte rest
    show look env now w (byte :: rest) = _
    simp [look, hdead]
  · show look env now w [] = none
    simp [look, hdead]

/-- Bytes that cannot start a frame are passed over. -/
theorem scan_skip (hdetect : w.link.state ≠ .detect) (hdead : w.link.state ≠ .dead) (k : ℕ)
    {bytes : Bytes} (hk : k ≤ bytes.length) (hjunk : ∀ index < k, bytes.getD index 0 ≠ 0xff) :
    scan env now w bytes = scan env now w (bytes.drop k) := by
  induction k generalizing bytes with
  | zero => rfl
  | succ k ih =>
      have hlook : look env now w bytes = some (1, w) := by
        have hne : bytes ≠ [] := by
          rintro rfl
          simp at hk
        rw [look_of_framed env now hdetect hdead, lookFramed, if_neg hne,
          if_pos (hjunk 0 (by omega))]
      rw [scan_of_some hlook, ih]
      · rw [List.drop_drop, Nat.add_comm]
      · rw [List.length_drop]
        omega
      · intro index hindex
        have hnext := hjunk (index + 1) (by omega)
        rw [List.getD_eq_getElem?_getD, List.getElem?_drop, ← List.getD_eq_getElem?_getD,
          Nat.add_comm]
        exact hnext

/-- An `ff` that no `5a` follows is passed over. -/
theorem scan_lone_ff (hdetect : w.link.state ≠ .detect) (hdead : w.link.state ≠ .dead)
    {bytes : Bytes} (hlength : 2 ≤ bytes.length) (hff : bytes.getD 0 0 = 0xff)
    (hother : bytes.getD 1 0 ≠ 0x5a) :
    scan env now w bytes = scan env now w (bytes.drop 1) := by
  have hlook : look env now w bytes = some (1, w) := by
    have hne : bytes ≠ [] := by
      rintro rfl
      simp at hlength
    rw [look_of_framed env now hdetect hdead, lookFramed, if_neg hne, if_neg (not_not.mpr hff),
      if_neg (by omega), if_pos hother]
  exact scan_of_some hlook

/-- Bytes that start with `ff 5a` are looked at as a frame. -/
theorem look_of_marks (hdetect : w.link.state ≠ .detect) (hdead : w.link.state ≠ .dead)
    {bytes : Bytes} (hlength : 2 ≤ bytes.length) (hff : bytes.getD 0 0 = 0xff)
    (hmark : bytes.getD 1 0 = 0x5a) : look env now w bytes = lookFrame env now w bytes := by
  have hne : bytes ≠ [] := by
    rintro rfl
    simp at hlength
  rw [look_of_framed env now hdetect hdead, lookFramed, if_neg hne, if_neg (not_not.mpr hff),
    if_neg (by omega), if_neg (not_not.mpr hmark)]

/-- Bytes too short for a header do not change the link. -/
theorem scan_short (hdetect : w.link.state ≠ .detect) (hdead : w.link.state ≠ .dead)
    {bytes : Bytes} (hshort : bytes.length < 9) : (scan env now w bytes).1 = w := by
  induction bytes with
  | nil =>
      rw [scan_of_none]
      rw [look_of_framed env now hdetect hdead, lookFramed, if_pos rfl]
  | cons byte rest ih =>
      have hrest : (scan env now w rest).1 = w := ih (by simp at hshort ⊢; omega)
      by_cases hff : (byte :: rest).getD 0 0 = 0xff
      · by_cases htwo : (byte :: rest).length < 2
        · rw [scan_of_none]
          rw [look_of_framed env now hdetect hdead, lookFramed, if_neg (by simp),
            if_neg (not_not.mpr hff), if_pos htwo]
        · by_cases hmark : (byte :: rest).getD 1 0 = 0x5a
          · rw [scan_of_none]
            rw [look_of_marks hdetect hdead (by omega) hff hmark, lookFrame, if_pos hshort]
          · rw [scan_lone_ff hdetect hdead (by omega) hff hmark]
            exact hrest
      · have hskip : scan env now w (byte :: rest) = scan env now w rest := by
          refine scan_skip hdetect hdead 1 (by simp) ?_
          intro index hindex
          have hzero : index = 0 := by omega
          rw [hzero]
          exact hff
        rw [hskip]
        exact hrest

/-- What waits in the buffer does not change the link. -/
theorem scan_waiting (hdetect : w.link.state ≠ .detect) (hdead : w.link.state ≠ .dead)
    {bytes : Bytes} (hwaits : Waiting w.link.lsp.maxLen bytes) :
    (scan env now w bytes).1 = w := by
  by_cases hshort : bytes.length < 9
  · exact scan_short hdetect hdead hshort
  · rcases hwaits with h | ⟨header, hff, hmark, hdecode, hallowed, hincomplete⟩
    · exact absurd h hshort
    · rw [scan_of_none]
      rw [look_of_marks hdetect hdead (by omega) hff hmark, lookFrame, if_neg hshort, hdecode]
      dsimp only
      rw [if_neg (UInt16.not_lt.mpr hallowed), if_pos hincomplete]

/-- In Detect the scanner stops before the last five bytes when there is no marker. -/
theorem scan_no_marker (hdetect : w.link.state = .detect) {bytes : Bytes}
    (hnone : searchMarker bytes = none) :
    scan env now w bytes = (w, bytes.drop (bytes.length - 5)) := by
  induction bytes with
  | nil =>
      rw [scan_of_none]
      · rfl
      · simp [look, hdetect, lookMarker, kMarker]
  | cons byte rest ih =>
      rw [searchMarker] at hnone
      split at hnone
      · cases hnone
      · rename_i hstarts
        have hrest : searchMarker rest = none := by simpa using hnone
        have hmarker : kMarker.length = 6 := rfl
        by_cases hshort : (byte :: rest).length < kMarker.length
        · rw [scan_of_none]
          · rw [Nat.sub_eq_zero_of_le (by omega), List.drop_zero]
          · simp only [look, hdetect, lookMarker]
            rw [if_pos hshort]
        · have hlook : look env now w (byte :: rest) = some (1, w) := by
            simp only [look, hdetect, lookMarker]
            rw [if_neg hshort, if_neg hstarts]
          rw [scan_of_some hlook]
          show scan env now w rest = _
          have hlength : (byte :: rest).length - 5 = rest.length - 5 + 1 := by
            rw [List.length_cons] at hshort ⊢
            omega
          rw [ih hrest, hlength]
          rfl

theorem searchMarker_length {bytes : Bytes} {index : ℕ}
    (h : searchMarker bytes = some index) : index + kMarker.length ≤ bytes.length := by
  induction bytes generalizing index with
  | nil => cases h
  | cons byte rest ih =>
      rw [searchMarker] at h
      split at h
      · rename_i hstarts
        cases h
        have hle := (List.isPrefixOf_iff_prefix.mp hstarts).length_le
        omega
      · obtain ⟨earlier, hearlier, rfl⟩ := Option.map_eq_some_iff.mp h
        have hle := ih hearlier
        rw [List.length_cons]
        omega

/-- In Detect the scanner passes over everything up to the first marker. -/
theorem scan_marker (hdetect : w.link.state = .detect) {bytes : Bytes} {index : ℕ}
    (h : searchMarker bytes = some index) :
    scan env now w bytes =
      scan env now (enterNegotiate env now w) (bytes.drop (index + kMarker.length)) := by
  induction bytes generalizing index with
  | nil => cases h
  | cons byte rest ih =>
      have hlength := searchMarker_length h
      rw [searchMarker] at h
      split at h
      · rename_i hstarts
        cases h
        have hlook : look env now w (byte :: rest) =
            some (kMarker.length, enterNegotiate env now w) := by
          simp only [look, hdetect, lookMarker]
          rw [if_neg (by omega), if_pos hstarts]
        rw [scan_of_some hlook, Nat.zero_add]
      · rename_i hstarts
        obtain ⟨earlier, hearlier, rfl⟩ := Option.map_eq_some_iff.mp h
        have hlook : look env now w (byte :: rest) = some (1, w) := by
          simp only [look, hdetect, lookMarker]
          rw [if_neg (by omega), if_neg hstarts]
        rw [scan_of_some hlook]
        show scan env now w rest = _
        rw [ih hearlier, Nat.add_right_comm]
        rfl

end Scan

/-! ## A dead link does nothing -/

/-- From `w` to `w'` nothing came out of the link, and it is dead. -/
structure Mute (w w' : World σ) : Prop where
  dead : w'.link.state = .dead
  sentFrames : w'.sentFrames = w.sentFrames
  deliveries : w'.deliveries = w.deliveries

theorem Mute.trans {w w' w'' : World σ} (h : Mute w w') (h' : Mute w' w'') : Mute w w'' :=
  ⟨h'.dead, h'.sentFrames.trans h.sentFrames, h'.deliveries.trans h.deliveries⟩

section Dead

variable {w : World σ} (hdead : w.link.state = .dead)

include hdead

theorem mute_refl : Mute w w := ⟨hdead, rfl, rfl⟩

theorem mute_handlePacket (header : Header) (payload : Bytes) :
    Mute w (handlePacket env header payload now w) := by
  have hrecord (event : Event) (hsent : event.sentFrame? = none)
      (hpayload : event.payload? = none) (w : World σ) :
      (w.record event).sentFrames = w.sentFrames ∧
        (w.record event).deliveries = w.deliveries := by
    constructor
    · simp [World.sentFrames, hsent]
    · simp [World.deliveries, hpayload]
  obtain ⟨hsent, hdelivered⟩ := hrecord (.packet header payload) rfl rfl w
  unfold handlePacket
  dsimp only
  split
  · exact ⟨rfl, hsent, hdelivered⟩
  · set acknowledged := (w.record (.packet header payload)).update (.acknowledge header)
    have hstate : acknowledged.link.state = .dead :=
      (acknowledge_state header w.link).trans hdead
    have hmute : Mute w acknowledged := ⟨hstate, hsent, hdelivered⟩
    split
    · rw [if_neg (by simp [hstate])]
      split
      · rename_i received _
        obtain ⟨hsent', hdelivered'⟩ :=
          hrecord (.synAdopted header received) rfl rfl acknowledged
        have hadopted : ((acknowledged.record (.synAdopted header received)).update
            (.adopt header received)).link.state = .dead := hstate
        rw [sendSyn, if_pos (by rw [hadopted]; decide)]
        exact hmute.trans ⟨hadopted, hsent', hdelivered'⟩
      · exact hmute
    · rw [if_neg (by simp [hstate])]
      split
      · rw [handleData]
        dsimp only
        rw [if_pos (by simp [hstate])]
        exact hmute
      · exact hmute

theorem mute_processFrame : Mute w (processFrame env now w).2 := by
  have hmute := mute_refl hdead
  unfold processFrame
  dsimp only
  split
  · exact hmute
  split
  · exact ⟨hdead, rfl, rfl⟩
  split
  · exact ⟨rfl, rfl, rfl⟩
  split
  · exact hmute
  split
  · exact ⟨hdead, rfl, rfl⟩
  · set taken := w.setBuffer (w.link.receiveBuffer.drop _)
    have htaken : Mute w taken := ⟨hdead, rfl, rfl⟩
    exact htaken.trans (mute_handlePacket env now htaken.dead _ _)

theorem mute_processOnce : Mute w (processOnce env now w).2 := by
  unfold processOnce
  dsimp only
  split
  · exact ⟨hdead, rfl, rfl⟩
  split
  · exact ⟨hdead, rfl, rfl⟩
  · set found := w.setBuffer (w.link.receiveBuffer.drop _)
    have hfound : Mute w found := ⟨hdead, rfl, rfl⟩
    exact hfound.trans (mute_processFrame env now hfound.dead)

end Dead

/-! ## Tracking the scanner -/

/-- The same frames offered, the same payloads handed over and the same state. -/
structure SameOutput (w w' : World σ) : Prop where
  sentFrames : w.sentFrames = w'.sentFrames
  deliveries : w.deliveries = w'.deliveries
  state : w.link.state = w'.link.state

theorem Alike.sameOutput {w w' : World σ} (h : Alike w w') : SameOutput w w' :=
  ⟨h.sentFrames, h.deliveries, h.state⟩

theorem Mute.sameOutput {w w' target : World σ} (hmute : Mute w w')
    (h : SameOutput w target) (hdead : w.link.state = .dead) : SameOutput w' target :=
  ⟨hmute.sentFrames.trans h.sentFrames, hmute.deliveries.trans h.deliveries,
    hmute.dead.trans (hdead.symm.trans h.state)⟩

/-- The link is on its way to what the scanner ends with: it is dead, as the scanner
will be, or what it holds takes the scanner there. -/
def Tracks (w : World σ) (target : World σ × Bytes) : Prop :=
  w.link.state = .dead ∧ SameOutput w target.1 ∨
    w.link.state ≠ .dead ∧ ∃ c, Alike w c ∧ scan env now c w.link.receiveBuffer = target

/-- The link has got there. -/
def Settled (w : World σ) (target : World σ × Bytes) : Prop :=
  w.link.state = .dead ∧ SameOutput w target.1 ∨
    w.link.state ≠ .dead ∧ Alike w target.1 ∧
      scan env now target.1 w.link.receiveBuffer = target

theorem Settled.sameOutput {w : World σ} {target : World σ × Bytes}
    (h : Settled env now w target) : SameOutput w target.1 := by
  rcases h with ⟨-, hsame⟩ | ⟨-, halike, -⟩
  · exact hsame
  · exact halike.sameOutput

/-- A link that died on the way has got there. -/
theorem tracks_of_dead {w c : World σ} (halike : Alike w c) (hdead : w.link.state = .dead)
    (bytes : Bytes) : Tracks env now w (scan env now c bytes) := by
  have hc : c.link.state = .dead := halike.state.symm.trans hdead
  rw [scan_of_dead hc]
  exact Or.inl ⟨hdead, halike.sameOutput⟩

/-- A link with nothing but a waiting rest has got there. -/
theorem Tracks.settled {w : World σ} {target : World σ × Bytes} (h : Tracks env now w target)
    (hdetect : w.link.state ≠ .detect)
    (hwaits : Waiting w.link.lsp.maxLen w.link.receiveBuffer) : Settled env now w target := by
  rcases h with hdead | ⟨halive, c, halike, hscan⟩
  · exact Or.inl hdead
  · have hstate := halike.state
    rw [halike.lsp] at hwaits
    have hfirst : target.1 = c := by
      rw [← hscan]
      exact scan_waiting (by rwa [← hstate]) (by rwa [← hstate]) hwaits
    rw [← hfirst] at halike hscan
    exact Or.inr ⟨halive, halike, hscan⟩

section Turns

variable {env env' : Env σ} (henv : SameBut env' env) {w : World σ} {target : World σ × Bytes}

include henv

/-- A turn at `ff 5a`. -/
theorem tracks_processFrame (hdetect : w.link.state ≠ .detect) (hdead : w.link.state ≠ .dead)
    (hmarks : w.link.receiveBuffer.getD 0 0 = 0xff ∧ w.link.receiveBuffer.getD 1 0 = 0x5a)
    {c : World σ} (halike : Alike w c)
    (hscan : scan env now c w.link.receiveBuffer = target) :
    Tracks env now (processFrame env' now w).2 target := by
  have hkeep : Tracks env now w target := Or.inr ⟨hdead, c, halike, hscan⟩
  have hcdetect : c.link.state ≠ .detect := by rwa [← halike.state]
  have hcdead : c.link.state ≠ .dead := by rwa [← halike.state]
  set buffer := w.link.receiveBuffer with hbuffer
  unfold processFrame
  rw [← hbuffer]
  dsimp only
  by_cases hshort : buffer.length < 9
  · rw [if_pos hshort]
    exact hkeep
  rw [if_neg hshort]
  have hlook : look env now c buffer = lookFrame env now c buffer :=
    look_of_marks hcdetect hcdead (by omega) hmarks.1 hmarks.2
  rw [lookFrame, if_neg hshort] at hlook
  cases hdecode : decodeHeader (buffer.take 9) with
  | none =>
      -- the scanner drops the same `ff`
      rw [hdecode] at hlook
      rw [scan_of_some hlook] at hscan
      exact Or.inr ⟨hdead, c, halike.setBuffer_left _, hscan⟩
  | some header =>
      rw [hdecode] at hlook
      dsimp only at hlook ⊢
      rw [halike.lsp]
      -- the scanner takes the same decision in each case
      by_cases hexceeds : header.length > c.link.lsp.maxLen
      · rw [if_pos hexceeds] at hlook ⊢
        rw [scan_of_some hlook, scan_of_dead rfl] at hscan
        rw [← hscan]
        exact Or.inl ⟨rfl, halike.sentFrames, halike.deliveries, rfl⟩
      · rw [if_neg hexceeds] at hlook ⊢
        by_cases hincomplete : buffer.length < header.length.toNat
        · rw [if_pos hincomplete]
          exact hkeep
        · rw [if_neg hincomplete] at hlook ⊢
          by_cases hbad : header.length > 9 ∧ hasValidChecksum
              ((buffer.drop 9).take (header.length.toNat - 9)) = false
          · rw [if_pos hbad] at hlook ⊢
            rw [scan_of_some hlook] at hscan
            exact Or.inr ⟨hdead, c, halike.setBuffer_left _, hscan⟩
          · rw [if_neg hbad] at hlook ⊢
            set payload := ((buffer.drop 9).take (header.length.toNat - 9)).dropLast
            set taken := w.setBuffer (buffer.drop header.length.toNat)
            have htaken : Alike taken c := halike.setBuffer_left _
            have hhandled := htaken.handlePacket henv header payload now now
            rw [scan_of_some hlook] at hscan
            -- a dead link takes nothing more, whatever is left in the buffer
            by_cases hdies : (handlePacket env' header payload now taken).link.state = .dead
            · rw [← hscan]
              exact tracks_of_dead env now hhandled hdies _
            · obtain ⟨hrest | ⟨-, hreset⟩, -⟩ := handlePacket_buffer env' header payload now taken
              · refine Or.inr ⟨hdies, _, hhandled, ?_⟩
                dsimp only
                rw [hrest]
                exact hscan
              · exact absurd hreset hdies

/-- A turn of the loop. -/
theorem tracks_processOnce (hdetect : w.link.state ≠ .detect)
    (h : Tracks env now w target) : Tracks env now (processOnce env' now w).2 target := by
  rcases h with ⟨hdead, hsame⟩ | ⟨hdead, c, halike, hscan⟩
  · have hmute := mute_processOnce env' now hdead
    exact Or.inl ⟨hmute.dead, hmute.sameOutput hsame hdead⟩
  · have hcdetect : c.link.state ≠ .detect := by rwa [← halike.state]
    have hcdead : c.link.state ≠ .dead := by rwa [← halike.state]
    unfold processOnce
    dsimp only
    set buffer := w.link.receiveBuffer with hbuffer
    set start := buffer.dropLast.idxOf 0xff with hstart
    have hle : start ≤ buffer.length - 1 := by
      have hidx : start ≤ buffer.dropLast.length := List.idxOf_le_length
      rwa [List.length_dropLast] at hidx
    have hskip : scan env now c buffer = scan env now c (buffer.drop start) :=
      scan_skip hcdetect hcdead start (by omega) fun index hindex => ne_ff_of_lt_idxOf hindex
    rw [hskip] at hscan
    by_cases hnone : start = buffer.length - 1
    · rw [if_pos hnone]
      rw [hnone] at hscan
      exact Or.inr ⟨hdead, c, halike.setBuffer_left _, hscan⟩
    · rw [if_neg hnone]
      obtain ⟨hlt, hff⟩ := getD_idxOf_dropLast hnone
      have hfirst : (buffer.drop start).getD 0 0 = 0xff := by
        rw [List.getD_eq_getElem?_getD, List.getElem?_drop, ← List.getD_eq_getElem?_getD]
        exact hff
      have hsecond : (buffer.drop start).getD 1 0 = buffer.getD (start + 1) 0 := by
        rw [List.getD_eq_getElem?_getD, List.getElem?_drop, ← List.getD_eq_getElem?_getD]
      by_cases hother : buffer.getD (start + 1) 0 ≠ 0x5a
      · rw [if_pos hother]
        have hlength : 2 ≤ (buffer.drop start).length := by
          rw [List.length_drop]
          omega
        rw [scan_lone_ff hcdetect hcdead hlength hfirst (by rwa [hsecond]), List.drop_drop]
          at hscan
        exact Or.inr ⟨hdead, c, halike.setBuffer_left _, hscan⟩
      · rw [if_neg hother]
        rw [ne_eq, not_not] at hother
        set found := w.setBuffer (buffer.drop start)
        have hfoundDetect : found.link.state ≠ .detect := hdetect
        exact tracks_processFrame now henv hfoundDetect hdead
          ⟨hfirst, hsecond.trans hother⟩ (halike.setBuffer_left _) hscan

theorem tracks_processLoop (fuel : ℕ) (hdetect : w.link.state ≠ .detect)
    (h : Tracks env now w target) : Tracks env now (processLoop env' now fuel w) target := by
  induction fuel generalizing w with
  | zero => exact h
  | succ fuel ih =>
      unfold processLoop
      by_cases hshort : w.link.receiveBuffer.length < 9
      · rw [if_pos hshort]
        exact h
      · rw [if_neg hshort]
        have hturn := tracks_processOnce now henv hdetect h
        obtain ⟨hlater, -⟩ := processOnce_buffer env' now hdetect hshort
        split
        · rename_i w' heq
          rw [heq] at hturn hlater
          exact ih hlater hturn
        · rename_i w' heq
          rw [heq] at hturn
          exact hturn

theorem settled_processPackets (hdetect : w.link.state ≠ .detect)
    (h : Tracks env now w target) : Settled env now (processPackets env' now w) target := by
  obtain ⟨hlater, hwaits⟩ :=
    processLoop_waiting env' now w.link.receiveBuffer.length hdetect (Nat.le_refl _)
  exact (tracks_processLoop now henv _ hdetect h).settled env now hlater hwaits

/-- `receive` once the bytes are in the buffer ends where the scanner ends. -/
theorem settled_scanBuffer (h : Tracks env now w target) :
    Settled env now (scanBuffer env' now w) target := by
  unfold scanBuffer
  dsimp only
  by_cases hdetect : w.link.state = .detect
  · rw [if_pos hdetect]
    rcases h with ⟨hdead, -⟩ | ⟨hdead, c, halike, hscan⟩
    · rw [hdetect] at hdead
      cases hdead
    · have hcdetect : c.link.state = .detect := halike.state.symm.trans hdetect
      cases hmarker : searchMarker w.link.receiveBuffer with
      | none =>
          rw [scan_no_marker hcdetect hmarker] at hscan
          rw [← hscan]
          -- what is kept is too short for a marker
          refine Or.inr ⟨hdead, halike.setBuffer_left _, ?_⟩
          refine scan_of_none ?_
          simp only [look, hcdetect, lookMarker]
          rw [if_pos]
          show (w.link.receiveBuffer.drop (w.link.receiveBuffer.length - (6 - 1))).length < 6
          rw [List.length_drop]
          omega
      | some index =>
          rw [scan_marker hcdetect hmarker] at hscan
          dsimp only
          set rest := w.link.receiveBuffer.drop (index + kMarker.length)
          set found := (w.setBuffer rest).update fun link => { link with state := .negotiate }
            with hfound
          have hfoundAlike : Alike found
              (c.update fun link => { link with state := .negotiate }) :=
            (halike.setBuffer_left rest).update_timeless fun link => by
              simp [PhoneLink.timeless]
          -- both worlds enter Negotiate and answer with a SYN
          have hentered : Alike (sendSyn env' now false found) (enterNegotiate env now c) :=
            hfoundAlike.sendSyn henv now now false
          have hsyn := undisturbed_sendSyn env' now false found
          have hlater : (sendSyn env' now false found).link.state ≠ .detect := by
            have hnegotiate : found.link.state = .negotiate := rfl
            rcases hsyn.state with hs | hs | ⟨hs, -⟩
            · simp [hs, hnegotiate]
            · simp [hs]
            · rw [hnegotiate] at hs
              cases hs
          refine settled_processPackets now henv hlater ?_
          by_cases hdies : (sendSyn env' now false found).link.state = .dead
          · rw [← hscan]
            exact tracks_of_dead env now hentered hdies rest
          · have hrest : (sendSyn env' now false found).link.receiveBuffer = rest := hsyn.buffer
            refine Or.inr ⟨hdies, _, hentered, ?_⟩
            rw [hrest]
            exact hscan
  · rw [if_neg hdetect]
    exact settled_processPackets now henv hdetect h

/-- One more chunk. -/
theorem settled_receive {bytes : Bytes} (hinert : Inert w.link) (hbytes : bytes.length ≤ 65536)
    (h : Settled env now w target) :
    Settled env now (receive env' bytes now w) (scan env now target.1 (target.2 ++ bytes)) := by
  unfold receive
  rw [if_neg (by simp [hinert.not_overflows hbytes])]
  refine settled_scanBuffer now henv ?_
  rcases h with ⟨hdead, hsame⟩ | ⟨hdead, halike, hscan⟩
  · rw [scan_of_dead (hsame.state.symm.trans hdead)]
    exact Or.inl ⟨hdead, hsame.sentFrames, hsame.deliveries, hsame.state⟩
  · refine Or.inr ⟨hdead, target.1, halike.setBuffer_left _, ?_⟩
    have happend := (linkScanner env now).drain_append target.1 w.link.receiveBuffer bytes
    have hscan' : (linkScanner env now).drain target.1 w.link.receiveBuffer = target := hscan
    rw [hscan'] at happend
    exact happend

end Turns

/-! ## Runs -/

/-- Chunks passed to `receive` one after the other, all at the same time. -/
def feed (chunks : List Bytes) (w : World σ) : World σ :=
  chunks.foldl (fun w bytes => receive env bytes now w) w

theorem settled_feed {env env' : Env σ} (henv : SameBut env' env) {chunks : List Bytes}
    (hchunks : ∀ bytes ∈ chunks, bytes.length ≤ 65536) {w : World σ} {target : World σ × Bytes}
    (hinert : Inert w.link) (h : Settled env now w target) :
    Settled env now (feed env' now chunks w) ((linkScanner env now).feed target chunks) := by
  induction chunks generalizing w target with
  | nil => exact h
  | cons bytes chunks ih =>
      have hbytes := hchunks bytes List.mem_cons_self
      exact ih (fun other hother => hchunks other (List.mem_cons_of_mem _ hother))
        (inert_receive env' now hinert hbytes) (settled_receive now henv hinert hbytes h)

/-- A link between two calls has got where its buffer takes it. -/
theorem settled_of_inert {w : World σ} (hinert : Inert w.link) :
    Settled env now w (scan env now w w.link.receiveBuffer) := by
  by_cases hdead : w.link.state = .dead
  · rw [scan_of_dead hdead]
    exact Or.inl ⟨hdead, rfl, rfl, rfl⟩
  · have hfirst : (scan env now w w.link.receiveBuffer).1 = w := by
      unfold Inert at hinert
      by_cases hdetect : w.link.state = .detect
      · rw [if_pos hdetect] at hinert
        rw [scan_of_none]
        simp only [look, hdetect, lookMarker]
        rw [if_pos]
        show w.link.receiveBuffer.length < 6
        omega
      · rw [if_neg hdetect] at hinert
        exact scan_waiting hdetect hdead hinert
    refine Or.inr ⟨hdead, ?_, ?_⟩
    · rw [hfirst]
      exact .refl w
    · rw [hfirst]

/-- The link does not see chunks. -/
structure ChunkingInvariant (app : σ) (inputs : List Input) : Prop where
  /-- Two ways of cutting the same bytes have the same effects, also when the clock
  reads differently. -/
  chunks : ∀ (env' : Env σ), SameBut env' env → ∀ (now : TimePoint) (chunks chunks' : List Bytes),
    (∀ bytes ∈ chunks, bytes.length ≤ 65536) → (∀ bytes ∈ chunks', bytes.length ≤ 65536) →
      chunks.flatten = chunks'.flatten →
        SameOutput (feed env now chunks (run env app inputs))
          (feed env' now chunks' (run env app inputs))
  /-- At most 65534 bytes wait. -/
  buffer : (run env app inputs).link.receiveBuffer.length ≤ 65534
  /-- The overflow test fails for the next chunk. -/
  room : ∀ bytes : Bytes, bytes.length ≤ 65536 →
    overflows (run env app inputs).link bytes = false

theorem chunkingInvariant_run (app : σ) (inputs : List Input)
    (hinputs : ∀ input ∈ inputs, input.chunkFits = true) : ChunkingInvariant env app inputs := by
  have hinert := inert_run env app hinputs
  set w := run env app inputs with hw
  refine ⟨?_, hinert.length_le, fun bytes hbytes => hinert.not_overflows hbytes⟩
  intro env' henv now chunks chunks' hchunks hchunks' hsame
  have hstart := settled_of_inert env now hinert
  have hfeed := (settled_feed now ⟨rfl, rfl⟩ hchunks hinert hstart).sameOutput
  have hfeed' := (settled_feed now henv hchunks' hinert hstart).sameOutput
  have htarget : (linkScanner env now).feed (scan env now w w.link.receiveBuffer) chunks =
      (linkScanner env now).feed (scan env now w w.link.receiveBuffer) chunks' := by
    rw [Scanner.feed_eq_drain, Scanner.feed_eq_drain, hsame]
  rw [htarget] at hfeed
  exact ⟨hfeed.sentFrames.trans hfeed'.sentFrames.symm,
    hfeed.deliveries.trans hfeed'.deliveries.symm, hfeed.state.trans hfeed'.state.symm⟩

theorem chunkingInvariant_handshakeThenData :
    (∀ input ∈ handshakeThenData, input.chunkFits = true) ∧
      ChunkingInvariant (Env.accepting (some replyOnce)) () handshakeThenData :=
  have hinputs : ∀ input ∈ handshakeThenData, input.chunkFits = true := by decide +kernel
  ⟨hinputs, chunkingInvariant_run _ () handshakeThenData hinputs⟩

end Iap2
end Aa2acp
