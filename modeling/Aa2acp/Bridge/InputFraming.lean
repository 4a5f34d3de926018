import Aa2acp.Airplay.EventChannel
import Aa2acp.Bridge.InputReport

/-!
# The two readings of an event

A CarPlay event is read twice: `service_event_channel` finds its end and hands its bytes
over, and `carplay_input_report` looks for the body in these bytes.  Line by line the two
parsers keep the same size (`readEventHeaders_cons`), with one difference: the first trims
the value of a header on both sides, the second only on the left.
-/

namespace Aa2acp
namespace Bridge

open Text Airplay

/-- The name before the first colon is `Content-Length`, in any case. -/
def IsContentLength (line : Bytes) : Prop :=
  ∃ separator, find (ascii ":") line = some separator ∧
    lower (line.take separator) = ascii "content-length"

instance (line : Bytes) : Decidable (IsContentLength line) :=
  inferInstanceAs (Decidable (∃ separator ∈ find (ascii ":") line,
    lower (line.take separator) = ascii "content-length"))

/-- No blank stands at the end of a `Content-Length` line. -/
def NoBlankAfterLength (lines : List Bytes) : Prop :=
  ∀ line ∈ lines, IsContentLength (popReturn line) → ¬ EndsInBlank (popReturn line)

instance (lines : List Bytes) : Decidable (NoBlankAfterLength lines) :=
  inferInstanceAs (Decidable (∀ line ∈ lines, IsContentLength (popReturn line) →
    ¬ EndsInBlank (popReturn line)))

/-! ## What is handed over -/

def AllFramed (channel : EventChannel) : Prop := ∀ bytes ∈ channel.received, Framed bytes

variable {env : EventEnv} {channel : EventChannel}

theorem AllFramed.answer (h : AllFramed channel) {request : EventRequest}
    (hparse : parseEvent channel.plaintext = .request request) :
    AllFramed (channel.answer env request) := by
  -- it is handed over whether or not it can be answered
  have hreceived : (channel.answer env request).received =
      channel.received ++ [channel.plaintext.take request.size] := by
    unfold EventChannel.answer
    dsimp only
    split
    · rfl
    · split <;> rfl
  intro bytes hbytes
  rw [hreceived] at hbytes
  rcases List.mem_append.mp hbytes with hbefore | hnew
  · exact h bytes hbefore
  · obtain rfl := List.mem_singleton.mp hnew
    have hwhole := (parseEvent_eq_request.mp hparse).2.2.2.2
    exact ⟨request, parseEvent_take hparse, by rw [List.length_take, min_eq_left hwhole]⟩

theorem AllFramed.serviceFrame (h : AllFramed channel) (frame : Bytes) :
    AllFramed (channel.serviceFrame env frame) := by
  unfold EventChannel.serviceFrame
  split
  · exact h
  · dsimp only
    split
    · exact h
    · exact h
    · rename_i request hparse
      apply AllFramed.answer
      · exact h
      · exact hparse

theorem AllFramed.serviceFrames (h : AllFramed channel) : AllFramed (channel.serviceFrames env) := by
  induction channel using EventChannel.serviceFrames.induct env with
  | case1 channel cipher encryptedBuffer hdecrypt =>
      rw [EventChannel.serviceFrames_of_error hdecrypt]
      exact h
  | case2 channel cipher encryptedBuffer hdecrypt =>
      rw [EventChannel.serviceFrames_of_empty hdecrypt]
      exact h
  | case3 channel byte bytes cipher encryptedBuffer hdecrypt next hclosed =>
      rw [EventChannel.serviceFrames_of_frame hdecrypt (List.cons_ne_nil _ _)]
      dsimp only
      rw [if_pos hclosed]
      apply AllFramed.serviceFrame
      exact h
  | case4 channel byte bytes cipher encryptedBuffer hdecrypt next hopen ih =>
      rw [EventChannel.serviceFrames_of_frame hdecrypt (List.cons_ne_nil _ _)]
      dsimp only
      rw [if_neg hopen]
      apply ih
      apply AllFramed.serviceFrame
      exact h

theorem AllFramed.serviceChunk (h : AllFramed channel) (chunk : Bytes) :
    AllFramed (channel.serviceChunk env chunk) := by
  unfold EventChannel.serviceChunk
  split
  · exact h
  · dsimp only
    split
    · exact h
    · apply AllFramed.serviceFrames
      exact h

/-- Whatever arrives, every string of bytes that is handed over is one whole request. -/
theorem AllFramed.serviceEventChannel (h : AllFramed channel) (chunks : List Bytes) :
    AllFramed (channel.serviceEventChannel env chunks) := by
  induction chunks generalizing channel with
  | nil => exact h
  | cons chunk chunks ih =>
      unfold EventChannel.serviceEventChannel
      dsimp only
      split
      · exact h.serviceChunk chunk
      · exact ih (h.serviceChunk chunk)

/-! ## The header lines -/

variable {headers : EventHeaders} {line : Bytes} {lines : List Bytes} {cseq : Bytes} {bodySize : ℕ}

theorem not_isContentLength_of_none (hfind : find (ascii ":") line = none) : ¬ IsContentLength line := by
  rintro ⟨separator, hother, -⟩
  rw [hfind] at hother
  cases hother

theorem isContentLength_iff {separator : ℕ} (hfind : find (ascii ":") line = some separator) :
    IsContentLength line ↔ lower (line.take separator) = ascii "content-length" := by
  constructor
  · rintro ⟨other, hother, hname⟩
    rw [hfind] at hother
    cases hother
    exact hname
  · intro hname
    exact ⟨separator, hfind, hname⟩

/-- What an accepted line did: a `Content-Length` was the first and its trimmed value is a
number within the limit; any other line left the size alone. -/
theorem readEventHeaders_cons
    (h : readEventHeaders headers (line :: lines) = ⟨cseq, bodySize, true, false⟩) :
    (IsContentLength (popReturn line) ∧ headers.contentLengthSeen = false ∧
      ∃ separator parsed, find (ascii ":") (popReturn line) = some separator ∧
        fromChars (2 ^ 64) (trim ((popReturn line).drop (separator + 1))) = some (parsed, []) ∧
        parsed ≤ maximumEventBytes ∧
        readEventHeaders { headers with contentLengthSeen := true, bodySize := parsed } lines =
          ⟨cseq, bodySize, true, false⟩) ∨
      ¬ IsContentLength (popReturn line) ∧
        ∃ seen, readEventHeaders { headers with cseq := seen } lines = ⟨cseq, bodySize, true, false⟩ := by
  unfold readEventHeaders at h
  dsimp only at h
  split at h
  · rename_i hfind
    exact Or.inr ⟨not_isContentLength_of_none hfind, headers.cseq, h⟩
  · rename_i separator hfind
    rw [isContentLength_iff hfind]
    split at h
    · -- a `CSeq` line
      rename_i hname
      refine Or.inr ⟨?_, _, h⟩
      rw [hname]
      decide
    · split at h
      · rename_i hname
        refine Or.inl ⟨hname, ?_⟩
        split at h
        · -- a second `Content-Length` is refused
          have hmalformed : true = false := congrArg EventHeaders.malformed h
          cases hmalformed
        · rename_i hseen
          split at h
          · rename_i parsed hvalue
            split at h
            · cases h
            · rename_i hlimit
              exact ⟨Bool.eq_false_of_not_eq_true hseen, separator, parsed, hfind, hvalue,
                Nat.le_of_not_lt hlimit, h⟩
          · cases h
      · rename_i hname
        exact Or.inr ⟨hname, headers.cseq, h⟩

theorem readBodySize_cons_of_not {size : Option ℕ} (h : ¬ IsContentLength (popReturn line)) :
    readBodySize size (line :: lines) = readBodySize size lines := by
  conv => left; unfold readBodySize
  dsimp only
  split
  · rfl
  · rename_i separator hfind
    rw [if_pos]
    intro hname
    exact h ((isContentLength_iff hfind).mpr hname)

/-- The value of a line ends as the line does. -/
theorem endsInBlank_drop {count : ℕ} (h : line.drop count ≠ []) :
    EndsInBlank (line.drop count) ↔ EndsInBlank line := by
  have hlength : ¬ line.length ≤ count := by
    intro hle
    exact h (List.drop_eq_nil_of_le hle)
  unfold EndsInBlank
  rw [List.getLast?_drop, if_neg hlength]

section ContentLength

variable {separator : ℕ} (hfind : find (ascii ":") (popReturn line) = some separator)
  (hname : lower ((popReturn line).take separator) = ascii "content-length")

include hfind hname

theorem readBodySize_cons_of_number {parsed : ℕ} (lines : List Bytes)
    (hvalue : fromChars (2 ^ 64) (trimLeft ((popReturn line).drop (separator + 1))) = some (parsed, []))
    (hlimit : parsed ≤ 1024 * 1024) :
    readBodySize none (line :: lines) = readBodySize (some parsed) lines := by
  conv => left; unfold readBodySize
  dsimp only
  rw [hfind]
  dsimp only
  rw [if_neg (not_not.mpr hname), hvalue]
  exact if_neg (Nat.not_lt.mpr hlimit)

theorem readBodySize_cons_of_malformed (lines : List Bytes)
    (hvalue : ∀ parsed,
      fromChars (2 ^ 64) (trimLeft ((popReturn line).drop (separator + 1))) ≠ some (parsed, [])) :
    readBodySize none (line :: lines) = none := by
  have hunseen : ¬ (none : Option ℕ).isSome = true := Bool.false_ne_true
  unfold readBodySize
  dsimp only
  rw [hfind]
  dsimp only
  rw [if_neg (not_not.mpr hname), if_neg hunseen]
  split
  · rename_i parsed hparsed
    exact absurd hparsed (hvalue parsed)
  · rfl

end ContentLength

/-- The second parser's step at a `Content-Length` that the first one accepted. -/
theorem readBodySize_cons_of_length {separator parsed : ℕ} (lines : List Bytes)
    (hname : IsContentLength (popReturn line))
    (hfind : find (ascii ":") (popReturn line) = some separator)
    (hvalue : fromChars (2 ^ 64) (trim ((popReturn line).drop (separator + 1))) = some (parsed, []))
    (hlimit : parsed ≤ maximumEventBytes) :
    (¬ EndsInBlank (popReturn line) →
        readBodySize none (line :: lines) = readBodySize (some parsed) lines) ∧
      (EndsInBlank (popReturn line) → readBodySize none (line :: lines) = none) := by
  have hlength := (isContentLength_iff hfind).mp hname
  have hnil : (popReturn line).drop (separator + 1) ≠ [] := by
    intro hnil
    rw [hnil] at hvalue
    cases hvalue
  have hends := endsInBlank_drop hnil
  constructor
  · intro hclean
    -- without a blank at its end, the value that is not trimmed there is the trimmed one
    have hsame := fromChars_trimLeft hvalue (fun hblank => hclean (hends.mp hblank))
    exact readBodySize_cons_of_number hfind hlength lines hsame hlimit
  · intro hblank
    have hother := fromChars_trimLeft_ne hvalue (hends.mpr hblank)
    exact readBodySize_cons_of_malformed hfind hlength lines hother

/-- Lines that the first parser accepts give the second one the same size, unless a blank
ends one of their `Content-Length`s. -/
theorem readBodySize_of_read {size : Option ℕ} (hsize : size.isSome = headers.contentLengthSeen)
    (hvalue : headers.contentLengthSeen = true → size = some headers.bodySize)
    (h : readEventHeaders headers lines = ⟨cseq, bodySize, true, false⟩) :
    (NoBlankAfterLength lines → readBodySize size lines = some (some bodySize)) ∧
      (¬ NoBlankAfterLength lines → readBodySize size lines = none) := by
  induction lines generalizing headers size with
  | nil =>
      have hheaders : headers = ⟨cseq, bodySize, true, false⟩ := h
      constructor
      · intro _
        unfold readBodySize
        rw [hvalue (by rw [hheaders]), hheaders]
      · intro hblank
        exact absurd (by intro line hline; cases hline) hblank
  | cons line lines ih =>
      have hclean : NoBlankAfterLength (line :: lines) ↔
          (IsContentLength (popReturn line) → ¬ EndsInBlank (popReturn line)) ∧
            NoBlankAfterLength lines := List.forall_mem_cons
      -- one case for each kind of line that the first parser accepts
      rcases readEventHeaders_cons h with
        ⟨hname, hunseen, separator, parsed, hfind, hnumber, hlimit, hrest⟩ | ⟨hname, seen, hrest⟩
      · have hnone : size = none := by
          rw [hunseen] at hsize
          exact Option.not_isSome_iff_eq_none.mp (Bool.eq_false_iff.mp hsize)
        obtain ⟨hgood, hbad⟩ := readBodySize_cons_of_length lines hname hfind hnumber hlimit
        have hparsed : (some parsed).isSome = true := rfl
        obtain ⟨hyes, hno⟩ := ih hparsed (fun _ => rfl) hrest
        subst hnone
        by_cases hblank : EndsInBlank (popReturn line)
        · constructor
          · intro hall
            exact absurd hblank ((hclean.mp hall).1 hname)
          · intro _
            exact hbad hblank
        · rw [hgood hblank]
          constructor
          · intro hall
            exact hyes (hclean.mp hall).2
          · intro hnot
            apply hno
            intro hall
            exact hnot (hclean.mpr ⟨fun _ => hblank, hall⟩)
      · have hsame : size.isSome = ({ headers with cseq := seen } : EventHeaders).contentLengthSeen :=
          hsize
        obtain ⟨hyes, hno⟩ := ih hsame hvalue hrest
        rw [readBodySize_cons_of_not hname]
        constructor
        · intro hall
          exact hyes (hclean.mp hall).2
        · intro hnot
          apply hno
          intro hall
          exact hnot (hclean.mpr ⟨fun hlength => absurd hlength hname, hall⟩)

/-! ## The two parsers -/

section InputBody

variable {bytes : Bytes} {headerEnd : ℕ} (hend : find (ascii "\r\n\r\n") bytes = some headerEnd)

include hend

theorem inputBody_of_malformed (h : readBodySize none (getLines (bytes.take headerEnd)) = none) :
    inputBody bytes = none := by
  unfold inputBody
  rw [hend]
  dsimp only
  rw [h]
  exact ite_self none

theorem inputBody_of_size {bodySize : ℕ}
    (h : readBodySize none (getLines (bytes.take headerEnd)) = some (some bodySize))
    (hwhole : headerEnd + 4 + bodySize ≤ bytes.length) :
    inputBody bytes = some (headerEnd, (bytes.drop (headerEnd + 4)).take bodySize) := by
  unfold inputBody
  rw [hend]
  dsimp only
  rw [h, if_neg (by omega)]
  exact if_neg (by omega)

end InputBody

/-- For every request that is handed over, the second parser finds the end of the headers
and the body of the first one exactly if no blank ends the `Content-Length` line; otherwise
the input report is dropped. -/
theorem inputBody_agrees_iff {cipher : ControlCipher} {chunks : List Bytes} {bytes : Bytes}
    (h : bytes ∈ (EventChannel.serviceEventChannel env { cipher } chunks).received) :
    ∃ request, parseEvent bytes = .request request ∧ bytes.length = request.size ∧
      (inputBody bytes = some (request.headerEnd, bytes.drop request.bodyStart) ↔
        NoBlankAfterLength (getLines (bytes.take request.headerEnd))) ∧
      (¬ NoBlankAfterLength (getLines (bytes.take request.headerEnd)) →
        ∀ inputEnv, carplayInputReport inputEnv bytes = none) := by
  have hall : AllFramed { cipher } := by
    intro bytes hbytes
    cases hbytes
  obtain ⟨request, hparse, hlength⟩ := hall.serviceEventChannel chunks bytes h
  obtain ⟨hfind, -, hread, -, -⟩ := parseEvent_eq_request.mp hparse
  -- both parsers begin without a size
  have hunseen : Option.isSome (none : Option ℕ) = false := rfl
  obtain ⟨hyes, hno⟩ := readBodySize_of_read hunseen
    (fun hseen => absurd hseen Bool.false_ne_true) hread
  have hsizes : bytes.length = request.headerEnd + 4 + request.bodySize := hlength
  have hnone : ¬ NoBlankAfterLength (getLines (bytes.take request.headerEnd)) →
      inputBody bytes = none := by
    intro hblank
    exact inputBody_of_malformed hfind (hno hblank)
  refine ⟨request, hparse, hlength, ⟨?_, ?_⟩,
    fun hblank _ => carplayInputReport_eq_none (hnone hblank)⟩
  · intro hagree
    by_contra hblank
    rw [hnone hblank] at hagree
    cases hagree
  · intro hclean
    -- the same size, and the bytes end with the body
    rw [inputBody_of_size hfind (hyes hclean) (Nat.le_of_eq hsizes.symm), List.take_of_length_le]
    · rfl
    · rw [List.length_drop]
      omega

/-- Two requests that differ in one blank, and the answer to both, as ChaCha20-Poly1305
encrypts them. -/
def eventAnswers : List Aead.Answer :=
  [⟨List.replicate 32 0x42, List.replicate 12 0,
      ascii "POST /command RTSP/1.0\r\nContent-Length: 2\r\n\r\nhi", [47, 0],
      [9, 41, 183, 127, 61, 155, 80, 162, 129, 204, 53, 90, 155, 15, 250, 236, 237, 247, 139, 232,
        132, 165, 169, 22, 188, 162, 97, 161, 41, 222, 84, 226, 207, 202, 70, 141, 46, 176, 57, 21,
        216, 69, 163, 84, 42, 36, 255],
      [223, 181, 14, 65, 175, 95, 145, 100, 133, 86, 155, 93, 121, 70, 83, 137]⟩,
    ⟨List.replicate 32 0x42, List.replicate 12 0,
      ascii "POST /command RTSP/1.0\r\nContent-Length: 2 \r\n\r\nhi", [48, 0],
      [9, 41, 183, 127, 61, 155, 80, 162, 129, 204, 53, 90, 155, 15, 250, 236, 237, 247, 139, 232,
        132, 165, 169, 22, 188, 162, 97, 161, 41, 222, 84, 226, 207, 202, 70, 141, 46, 176, 57, 21,
        216, 104, 164, 83, 45, 70, 254, 26],
      [115, 11, 35, 112, 0, 85, 135, 103, 35, 242, 65, 224, 193, 214, 249, 32]⟩,
    ⟨List.replicate 32 0x24, List.replicate 12 0, eventResponse [], [56, 0],
      [172, 216, 55, 141, 31, 104, 183, 145, 5, 5, 16, 81, 25, 237, 178, 208, 96, 247, 104, 185,
        113, 174, 127, 102, 95, 128, 180, 33, 209, 237, 143, 191, 126, 85, 141, 41, 157, 49, 190,
        203, 15, 10, 181, 207, 122, 218, 219, 174, 117, 155, 54, 168, 213, 62, 146, 102],
      [81, 98, 140, 159, 253, 99, 21, 10, 104, 178, 52, 55, 147, 101, 202, 107]⟩]

def eventEnv : EventEnv := ⟨.ofAnswers eventAnswers, fun _ => true⟩

/-- The frames of the two requests and of the answer. -/
def eventFrame (index : ℕ) : Bytes := ((eventAnswers.map Aead.Answer.frame)[index]?).getD []

/-- Without the blank the body is found. -/
theorem inputBody_agrees_iff_noBlank :
    let bytes := ascii "POST /command RTSP/1.0\r\nContent-Length: 2\r\n\r\nhi"
    let channel : EventChannel := { cipher := ⟨List.replicate 32 0x42, List.replicate 32 0x24, 0, 0⟩ }
    bytes ∈ (channel.serviceEventChannel eventEnv [eventFrame 0]).received ∧
      inputBody bytes = some (41, ascii "hi") := by
  have hreceived : ascii "POST /command RTSP/1.0\r\nContent-Length: 2\r\n\r\nhi" ∈
      (EventChannel.serviceEventChannel eventEnv
        { cipher := ⟨List.replicate 32 0x42, List.replicate 32 0x24, 0, 0⟩ } [eventFrame 0]).received := by
    decide +kernel
  obtain ⟨request, hparse, hlength, hiff, -⟩ := inputBody_agrees_iff hreceived
  have hrequest : request = ⟨41, 2, []⟩ := by
    have hother : parseEvent (ascii "POST /command RTSP/1.0\r\nContent-Length: 2\r\n\r\nhi") =
        .request ⟨41, 2, []⟩ := by decide +kernel
    rw [hother] at hparse
    cases hparse
    rfl
  subst hrequest
  exact ⟨hreceived, hiff.mpr (by decide +kernel)⟩

/-- With a blank behind its length the request is handed over and answered, and then dropped. -/
theorem inputBody_blankAfterLength :
    let bytes := ascii "POST /command RTSP/1.0\r\nContent-Length: 2 \r\n\r\nhi"
    let channel : EventChannel := { cipher := ⟨List.replicate 32 0x42, List.replicate 32 0x24, 0, 0⟩ }
    let last := channel.serviceEventChannel eventEnv [eventFrame 1]
    last.received = [bytes] ∧ last.sent = [eventFrame 2] ∧ last.closed = false ∧
      parseEvent bytes = .request ⟨42, 2, []⟩ ∧ inputBody bytes = none := by
  decide +kernel

end Bridge
end Aa2acp
