import Aa2acp.Airplay.SendEncrypted
import Aa2acp.Lib.Pacing

/-!
# Which response is found

`send_encrypted` looks at the plaintext of the responses once for every frame, and when it
discards a response it leaves the inner loop, so it discards at most one in a turn of the
outer loop.  Two paces are stacked: with every frame at most one response is looked at
(`handled`), and in every turn at most one response is left behind.

The expected response is found exactly if before the deadline there are turns enough, and
early enough the frames, for it and every response before it (`FoundInTime`).
-/

namespace Aa2acp
namespace Airplay

open Text Pacing Framing ControlCipher

namespace Poll

/-- What a turn adds to the encrypted buffer. -/
def bytes : Poll → Bytes
  | .received bytes => bytes
  | _ => []

end Poll

/-- Everything that these turns received. -/
def receivedBytes (polls : List Poll) : Bytes := (polls.map Poll.bytes).flatten

theorem receivedBytes_append (first second : List Poll) :
    receivedBytes (first ++ second) = receivedBytes first ++ receivedBytes second := by
  unfold receivedBytes
  rw [List.map_append, List.flatten_append]

/-- One whole response. -/
def WholeResponse (bytes : Bytes) : Prop :=
  completeResponseSize bytes = some bytes.length ∧ (parseResponse bytes).isSome

/-- No more than 1 MiB altogether, and no proper part of the headers longer than 64 KiB. -/
def WithinLimits (responses : List Bytes) : Prop :=
  responses.flatten.length ≤ maxResponseBytes ∧
    ∀ bytes ∈ responses, ∀ headerEnd, find responseHeaderEnd bytes = some headerEnd →
      headerEnd + 3 ≤ maxResponseHeaders

/-- The response with this index is the first with the expected `CSeq`. -/
structure FirstExpected (responses : List Bytes) (cseq : ℤ) (index : ℕ) (response : Response) :
    Prop where
  expected : ∃ bytes, responses[index]? = some bytes ∧ parseResponse bytes = some response ∧
    isExpected (some cseq) response
  before : ∀ bytes ∈ responses.take index, ∀ earlier, parseResponse bytes = some earlier →
    ¬ isExpected (some cseq) earlier

section Schedule

variable (responses pieces encrypted : List Bytes) (encryptedBuffer : Bytes) (polls : List Poll)

/-- How many frames are there as a whole when a turn of the outer loop begins. -/
def arrived (turn : ℕ) : ℕ :=
  wholes encrypted (encryptedBuffer ++ receivedBytes (polls.take (turn - 1))).length

/-- The first `count` responses can be looked at when every frame serves for one of them:
whatever number of these frames is left aside, no more responses are incomplete before. -/
def Served (frames count : ℕ) : Prop :=
  count ≤ frames ∧ ∀ last < count, count - last ≤ complete responses pieces (frames - last)

instance (frames count : ℕ) : Decidable (Served responses pieces frames count) :=
  inferInstanceAs (Decidable (count ≤ frames ∧
    ∀ last < count, count - last ≤ complete responses pieces (frames - last)))

/-- Whatever number of last turns is left aside, no more of the responses up to the expected
one are not served by the frames that have arrived before. -/
def FoundInTime (index : ℕ) : Prop :=
  index + 1 ≤ polls.length ∧ ∀ last < index + 1,
    Served responses pieces (arrived encrypted encryptedBuffer polls (polls.length - last))
      (index + 1 - last)

instance (index : ℕ) :
    Decidable (FoundInTime responses pieces encrypted encryptedBuffer polls index) :=
  inferInstanceAs (Decidable (index + 1 ≤ polls.length ∧ ∀ last < index + 1,
    Served responses pieces (arrived encrypted encryptedBuffer polls (polls.length - last))
      (index + 1 - last)))

/-- How many responses were served or left behind when a turn of the outer loop has ended. -/
def passed (turn : ℕ) : ℕ :=
  paced (fun turn => handled responses pieces (arrived encrypted encryptedBuffer polls turn)) turn

theorem served_iff {frames count : ℕ} :
    Served responses pieces frames count ↔ count ≤ handled responses pieces frames :=
  le_paced_iff.symm

theorem foundInTime_iff {index : ℕ} :
    FoundInTime responses pieces encrypted encryptedBuffer polls index ↔
      index + 1 ≤ passed responses pieces encrypted encryptedBuffer polls polls.length := by
  unfold passed FoundInTime
  rw [le_paced_iff]
  simp only [served_iff]

theorem handled_mono : Monotone (handled responses pieces) := paced_mono (complete_mono _ _)

theorem arrived_mono : Monotone (arrived encrypted encryptedBuffer polls) := by
  intro first second hle
  apply wholes_mono
  have hextends : polls.take (first - 1) <+: polls.take (second - 1) := by
    rw [← List.take_append_drop (first - 1) (polls.take (second - 1)), List.take_take,
      min_eq_left (Nat.sub_le_sub_right hle 1)]
    exact List.prefix_append _ _
  obtain ⟨more, hmore⟩ := hextends
  rw [← hmore]
  unfold receivedBytes
  rw [List.map_append, List.flatten_append, List.length_append, List.length_append,
    List.length_append]
  omega

theorem passed_mono : Monotone (passed responses pieces encrypted encryptedBuffer polls) :=
  paced_mono fun _ _ hle =>
    handled_mono responses pieces (arrived_mono encrypted encryptedBuffer polls hle)

end Schedule

variable {aead : Aead} {responses pieces encrypted : List Bytes} {cseq : ℤ} {index : ℕ}
  {response : Response}

/-! ## One frame -/

theorem length_waiting_le {count : ℕ} {piece : Bytes} {later : List Bytes}
    (hpiece : pieces.drop count = piece :: later) (hsplit : pieces.flatten = responses.flatten)
    (hlimits : WithinLimits responses) :
    (waiting responses pieces count).length ≤ maxResponseBytes := by
  -- what waits is a part of the responses, which are small enough together
  have happend := congrArg List.length (waiting_append hsplit hpiece)
  have hall : (responses.take (handled responses pieces count) ++
      responses.drop (handled responses pieces count)).flatten.length = responses.flatten.length := by
    rw [List.take_append_drop]
  rw [List.flatten_append, List.length_append] at hall
  rw [List.length_append] at happend
  have hmax := hlimits.1
  omega

section Frame

variable (cseq) {count : ℕ} {piece : Bytes} {later : List Bytes} {bytes : Bytes} {rest : List Bytes}
  (hpiece : pieces.drop count = piece :: later) (hsplit : pieces.flatten = responses.flatten)
  (hlimits : WithinLimits responses)
  (hrest : responses.drop (handled responses pieces count) = bytes :: rest)
  (hwhole : WholeResponse bytes) {plaintext : Bytes}
  (hplaintext : plaintext ++ piece = waiting responses pieces count)

include hpiece hsplit hlimits hrest hwhole hplaintext

/-- A part of the next response is missing: the inner loop goes on. -/
theorem readFrame_of_part {more : Bytes} (hmore : more ≠ [])
    (hpart : waiting responses pieces count ++ more = bytes) :
    ControlReader.readFrame (some cseq) plaintext piece =
        .more (waiting responses pieces count) ∧
      handled responses pieces (count + 1) = handled responses pieces count := by
  have hlt : (waiting responses pieces count).length < bytes.length := by
    have hpos : 0 < more.length := List.length_pos_iff.mpr hmore
    rw [← hpart, List.length_append]
    omega
  have hmem : bytes ∈ responses := List.mem_of_mem_drop (by
    rw [hrest]
    exact List.mem_cons_self)
  have hsize : completeResponseSize (waiting responses pieces count ++ more) = some bytes.length := by
    rw [hpart]
    exact hwhole.1
  have hincomplete := completeResponseSize_incomplete hsize hlt
  have hheaders : ¬ ((waiting responses pieces count).length > maxResponseHeaders ∧
      (find responseHeaderEnd (waiting responses pieces count)).isNone) := by
    rintro ⟨hlarge, hnone⟩
    obtain ⟨headerEnd, _, hfind, -⟩ := completeResponseSize_eq_some.mp hsize
    have hlimit := hlimits.2 bytes hmem headerEnd (by rw [← hpart]; exact hfind)
    have hmark : responseHeaderEnd.length = 4 := rfl
    -- the headers would have come whole
    rw [find_of_append hfind (by omega)] at hnone
    cases hnone
  refine ⟨?_, handled_of_part hrest hlt⟩
  unfold ControlReader.readFrame
  dsimp only
  rw [hplaintext, hincomplete, if_neg (Nat.not_lt.mpr
    (length_waiting_le hpiece hsplit hlimits))]
  exact if_neg hheaders

/-- The next response is there: it is the expected one, or it is discarded. -/
theorem readFrame_of_whole {more : Bytes}
    (hmore : waiting responses pieces count = bytes ++ more) {parsed : Response}
    (hparsed : parseResponse bytes = some parsed) :
    ControlReader.readFrame (some cseq) plaintext piece =
        (if isExpected (some cseq) parsed then .returned (.found parsed) else .discarded more) ∧
      handled responses pieces (count + 1) = handled responses pieces count + 1 := by
  have hlength : bytes.length ≤ (waiting responses pieces count).length := by
    rw [hmore, List.length_append]
    omega
  have hlimit := length_waiting_le hpiece hsplit hlimits
  refine ⟨?_, handled_of_whole hrest hlength⟩
  unfold ControlReader.readFrame
  dsimp only
  rw [hplaintext, if_neg (Nat.not_lt.mpr hlimit), hmore, completeResponseSize_append hwhole.1,
    parseResponse_append hwhole.1, hparsed]
  dsimp only
  rw [List.drop_left]

end Frame

/-! ## One turn -/

/-- The reader behind these many frames. -/
structure ReaderAt (aead : Aead) (responses pieces encrypted : List Bytes) (count : ℕ)
    (reader : ControlReader) : Prop where
  plaintext : reader.responsePlaintext = (pieces.take count).flatten.drop
    (responses.take (handled responses pieces count)).flatten.length
  follows : ∃ writer last, reader.cipher.InStep writer ∧
    encryptAll aead writer (pieces.drop count) = some (encrypted.drop count, last)

/-- The expected response is the one that the search has come to, or it is not yet there. -/
theorem FirstExpected.isExpected_iff (hfirst : FirstExpected responses cseq index response)
    {count : ℕ} (hle : count ≤ index) {bytes : Bytes} {rest : List Bytes}
    (hrest : responses.drop count = bytes :: rest) {parsed : Response}
    (hparsed : parseResponse bytes = some parsed) :
    (count = index → parsed = response ∧ isExpected (some cseq) parsed) ∧
      (count ≠ index → ¬ isExpected (some cseq) parsed) := by
  have hget : responses[count]? = some bytes := by
    rw [← List.head?_drop, hrest]
    rfl
  constructor
  · rintro rfl
    obtain ⟨other, hother, hresponse, hexpected⟩ := hfirst.expected
    rw [hget] at hother
    cases hother
    rw [hparsed] at hresponse
    cases hresponse
    exact ⟨rfl, hexpected⟩
  · intro hne
    -- a response before the first expected one is not expected
    apply hfirst.before bytes _ parsed hparsed
    have hlt : count < index := Nat.lt_of_le_of_ne hle hne
    apply List.mem_of_getElem? (i := count)
    rw [List.getElem?_take_of_lt hlt, hget]

/-- Up to the expected response there is always one more to come. -/
theorem FirstExpected.drop_eq_cons (hfirst : FirstExpected responses cseq index response)
    {count : ℕ} (hle : count ≤ index) : ∃ bytes rest, responses.drop count = bytes :: rest := by
  obtain ⟨_, hget, -⟩ := hfirst.expected
  have hlt := (List.getElem?_eq_some_iff.mp hget).1
  exact ⟨_, _, List.drop_eq_getElem_cons (Nat.lt_of_le_of_lt hle hlt)⟩

section NextFrame

variable {count : ℕ} {reader : ControlReader}

/-- The next frame holds the next piece, and the frames behind it follow. -/
theorem ReaderAt.next_frame (h : ReaderAt aead responses pieces encrypted count reader)
    (haead : aead.RoundTrips) {frame : Bytes} {later : List Bytes}
    (hleft : encrypted.drop count = frame :: later) :
    ∃ piece others, pieces.drop count = piece :: others ∧
      (∀ rest, reader.cipher.decryptOne aead (frame ++ rest) =
        (some piece, reader.cipher.counted, rest)) ∧
      ∃ writer last, reader.cipher.counted.InStep writer ∧
        encryptAll aead writer (pieces.drop (count + 1)) = some (encrypted.drop (count + 1), last) := by
  obtain ⟨writer, last, hstep, hencrypt⟩ := h.follows
  rw [hleft] at hencrypt
  obtain ⟨piece, others, next, hpiece, hopens, hcounted, hnext⟩ := hstep.next_frame haead hencrypt
  refine ⟨piece, others, hpiece, hopens, next, last, hcounted, ?_⟩
  rw [drop_succ_of_cons hpiece, drop_succ_of_cons hleft]
  exact hnext

variable {cipher : ControlCipher} {buffer : Bytes}
  (hfollows : ∃ writer last, cipher.InStep writer ∧
    encryptAll aead writer (pieces.drop (count + 1)) = some (encrypted.drop (count + 1), last))

include hfollows

/-- The reader behind a frame that completes no response. -/
theorem readerAt_of_part
    (hsame : handled responses pieces (count + 1) = handled responses pieces count) :
    ReaderAt aead responses pieces encrypted (count + 1)
      ⟨cipher, buffer, waiting responses pieces count⟩ where
  plaintext := by
    rw [hsame]
    rfl
  follows := hfollows

/-- The reader behind a frame that completes a response, which is discarded. -/
theorem readerAt_of_whole {bytes more : Bytes} {rest : List Bytes}
    (hrest : responses.drop (handled responses pieces count) = bytes :: rest)
    (hmore : waiting responses pieces count = bytes ++ more)
    (hsucc : handled responses pieces (count + 1) = handled responses pieces count + 1) :
    ReaderAt aead responses pieces encrypted (count + 1) ⟨cipher, buffer, more⟩ where
  plaintext := by
    have hdrop : more = (waiting responses pieces count).drop bytes.length := by
      rw [hmore, List.drop_left]
    rw [hsucc, take_succ_of_drop hrest, List.flatten_append, List.flatten_singleton,
      List.length_append, ← List.drop_drop]
    exact hdrop
  follows := hfollows

end NextFrame

/-- In a turn exactly the frames that were taken and those that are whole in the buffer have
arrived. -/
theorem arrived_eq {encryptedBuffer buffer tail : Bytes} {polls done todo : List Poll} {count : ℕ}
    {now later : List Bytes} (hdone : polls = done ++ todo)
    (hreceived : encryptedBuffer ++ receivedBytes polls = encrypted.flatten)
    (hrange : count ≤ encrypted.length) (hleft : encrypted.drop count = now ++ later)
    (hcut : buffer = now.flatten ++ tail)
    (hbuffer : buffer ++ receivedBytes todo = (encrypted.drop count).flatten)
    (hawaits : Awaits tail later) :
    arrived encrypted encryptedBuffer polls (done.length + 1) = count + now.length := by
  have htotal : encryptedBuffer ++ receivedBytes done =
      (encrypted.take count ++ now).flatten ++ tail := by
    rw [List.flatten_append, List.append_assoc, ← hcut]
    apply (List.append_left_inj (receivedBytes todo)).mp
    rw [List.append_assoc, List.append_assoc, hbuffer, ← List.flatten_append,
      List.take_append_drop, ← hreceived, hdone, receivedBytes_append]
  have hframes : encrypted = (encrypted.take count ++ now) ++ later := by
    rw [List.append_assoc, ← hleft, List.take_append_drop]
  have htake : polls.take (done.length + 1 - 1) = done := by
    rw [Nat.add_sub_cancel, hdone, List.take_left]
  have hwholes : wholes ((encrypted.take count ++ now) ++ later)
      ((encrypted.take count ++ now).flatten ++ tail).length = _ := wholes_of_awaits hawaits
  rw [← hframes] at hwholes
  unfold arrived
  rw [htake, htotal, hwholes, List.length_append, List.length_take, min_eq_left hrange]

section Turns

variable (haead : aead.RoundTrips) (hwhole : ∀ bytes ∈ responses, WholeResponse bytes)
  (hlimits : WithinLimits responses) (hpieces : ∀ piece ∈ pieces, piece ≠ [])
  (hsplit : pieces.flatten = responses.flatten)
  (hfirst : FirstExpected responses cseq index response)

include haead hwhole hlimits hpieces hsplit hfirst

/-- The inner loop takes frames until one response more is served, if the frames that are
there suffice for it. -/
theorem readFrames_turn {count : ℕ} {reader : ControlReader} {now later : List Bytes}
    {tail rest : Bytes} (h : ReaderAt aead responses pieces encrypted count reader)
    (hle : handled responses pieces count ≤ index)
    (hleft : encrypted.drop count = now ++ later)
    (hbuffer : reader.encryptedBuffer = now.flatten ++ tail) (hawaits : Awaits tail later)
    (htail : tail ++ rest = later.flatten) :
    ∃ next, handled responses pieces next =
        min (handled responses pieces count + 1) (handled responses pieces (count + now.length)) ∧
      (handled responses pieces next = index + 1 ∧
          (reader.readFrames aead (some cseq)).1 = some (.found response) ∨
        handled responses pieces next ≤ index ∧ next ≤ count + now.length ∧
          (reader.readFrames aead (some cseq)).1 = none ∧
          ReaderAt aead responses pieces encrypted next (reader.readFrames aead (some cseq)).2 ∧
          (reader.readFrames aead (some cseq)).2.encryptedBuffer ++ rest =
            (encrypted.drop next).flatten) := by
  induction now generalizing count reader with
  | nil =>
      rw [List.nil_append] at hleft
      obtain ⟨writer, last, hstep, hencrypt⟩ := h.follows
      -- no whole frame is left: the loop ends without having served a response
      have hdecrypt : reader.cipher.decryptOne aead reader.encryptedBuffer =
          (some [], reader.cipher, tail) := by
        rw [hleft] at hencrypt
        rw [hbuffer]
        exact decryptOne_awaits haead hencrypt hawaits
      rw [ControlReader.readFrames_of_empty hdecrypt]
      refine ⟨count, (min_eq_right (Nat.le_succ _)).symm, Or.inr ⟨hle, Nat.le_refl _, rfl, ?_, ?_⟩⟩
      · exact ⟨h.plaintext, h.follows⟩
      · rw [hleft]
        exact htail
  | cons frame now ih =>
      obtain ⟨piece, others, hpiece, hopens, hfollows⟩ := h.next_frame haead hleft
      have hdecrypt := hopens (now.flatten ++ tail)
      rw [← List.append_assoc, ← List.flatten_cons, ← hbuffer] at hdecrypt
      have hnil : piece ≠ [] := hpieces piece (List.mem_of_mem_drop (by
        rw [hpiece]
        exact List.mem_cons_self))
      have hlater : encrypted.drop (count + 1) = now ++ later := drop_succ_of_cons hleft
      have hcount : count + 1 + now.length = count + (frame :: now).length := by
        rw [List.length_cons]
        omega
      have hplaintext : reader.responsePlaintext ++ piece = waiting responses pieces count := by
        rw [h.plaintext, waiting_eq hpiece]
      -- there is a response to come, the expected one or one before it
      obtain ⟨bytes, rest', hrest⟩ := hfirst.drop_eq_cons hle
      have hbytes := hwhole bytes (List.mem_of_mem_drop (by
        rw [hrest]
        exact List.mem_cons_self))
      have happend := waiting_append hsplit hpiece
      rw [hrest, List.flatten_cons] at happend
      rw [ControlReader.readFrames_of_frame hdecrypt hnil]
      rcases whole_or_part happend with ⟨more, hmore, -⟩ | ⟨more, hmore, hpart, -⟩
      · obtain ⟨parsed, hparsed⟩ := Option.isSome_iff_exists.mp hbytes.2
        obtain ⟨hread, hsucc⟩ := readFrame_of_whole cseq hpiece hsplit hlimits hrest
          hbytes hplaintext hmore hparsed
        have hmono : handled responses pieces (count + 1) ≤
            handled responses pieces (count + (frame :: now).length) := by
          apply handled_mono
          omega
        obtain ⟨hsame, hdifferent⟩ := hfirst.isExpected_iff hle hrest hparsed
        rw [hsucc] at hmono
        refine ⟨count + 1, by rw [hsucc, min_eq_left hmono], ?_⟩
        rw [hread]
        -- the served response is the expected one, or it is discarded
        by_cases hindex : handled responses pieces count = index
        · left
          obtain ⟨rfl, hexpected⟩ := hsame hindex
          rw [if_pos hexpected]
          exact ⟨by rw [hsucc, hindex], rfl⟩
        · right
          rw [if_neg (hdifferent hindex)]
          refine ⟨by omega, by omega, rfl, readerAt_of_whole hfollows hrest hmore hsucc, ?_⟩
          show now.flatten ++ tail ++ rest = _
          rw [hlater, List.flatten_append, List.append_assoc, htail]
      · obtain ⟨hread, hsame⟩ := readFrame_of_part cseq hpiece hsplit hlimits hrest
          hbytes hplaintext hmore hpart
        rw [hread]
        dsimp only
        -- nothing was served, so the induction hypothesis speaks of the same response
        rw [← hcount, ← hsame]
        apply ih (readerAt_of_part hfollows hsame) _ hlater rfl
        rw [hsame]
        exact hle

/-- The outer loop from the turn behind the first `done` ones on. -/
theorem readResponse_eq {encryptedBuffer : Bytes} {polls : List Poll}
    (hpolls : ∀ poll ∈ polls, poll ≠ .failed)
    (hreceived : encryptedBuffer ++ receivedBytes polls = encrypted.flatten)
    (hencrypted : ∀ frame ∈ encrypted, frame ≠ []) {done todo : List Poll}
    (hdone : polls = done ++ todo) {count : ℕ} {reader : ControlReader}
    (h : ReaderAt aead responses pieces encrypted count reader)
    (hrange : count ≤ encrypted.length)
    (hcount : handled responses pieces count =
      passed responses pieces encrypted encryptedBuffer polls done.length)
    (hle : handled responses pieces count ≤ index)
    (hbuffer : reader.encryptedBuffer ++ receivedBytes todo = (encrypted.drop count).flatten) :
    (ControlReader.readResponse aead (some cseq) reader todo).1 =
      if index + 1 ≤ passed responses pieces encrypted encryptedBuffer polls polls.length then
        .found response
      else .timedOut := by
  induction todo generalizing done count reader with
  | nil =>
      rw [List.append_nil] at hdone
      subst hdone
      -- the turns are used up and the response has not been served
      rw [if_neg (by omega)]
      rfl
  | cons poll todo ih =>
      have hlength : done.length + 1 ≤ polls.length := by
        rw [hdone, List.length_append, List.length_cons]
        omega
      -- what is in the buffer: whole frames, and a part of the next one
      obtain ⟨now, later, tail, hleft, hcut, htail, hawaits⟩ :=
        cut_flatten (fun frame hframe => hencrypted frame (List.mem_of_mem_drop hframe)) hbuffer
      have hnow : count + now.length ≤ encrypted.length := by
        have hdrop := congrArg List.length hleft
        rw [List.length_drop, List.length_append] at hdrop
        omega
      have harrived := arrived_eq hdone hreceived hrange hleft hcut hbuffer hawaits
      obtain ⟨next, hnext, hturn⟩ := readFrames_turn haead hwhole hlimits hpieces hsplit hfirst h hle
        hleft hcut hawaits htail
      have hpassed : handled responses pieces next =
          passed responses pieces encrypted encryptedBuffer polls (done.length + 1) := by
        rw [hnext, ← harrived, hcount]
        rfl
      -- what this turn has served stays served
      have hmono := passed_mono responses pieces encrypted encryptedBuffer polls hlength
      unfold ControlReader.readResponse
      cases hread : reader.readFrames aead (some cseq) with
      | mk result reader' =>
          rw [hread] at hturn
          rcases hturn with ⟨hend, rfl⟩ | ⟨hbefore, hnextRange, rfl, hreader, hrest⟩
          · rw [if_pos (by omega)]
          · dsimp only at hreader hrest ⊢
            have hpoll : polls = (done ++ [poll]) ++ todo := by
              rw [hdone, List.append_assoc]
              rfl
            have hnextTurn : (done ++ [poll]).length = done.length + 1 := List.length_append
            rw [← hnextTurn] at hpassed
            cases poll with
            | nothing => exact ih hpoll hreader (by omega) hpassed hbefore hrest
            | failed =>
                -- the connection does not fail in these runs
                refine absurd rfl (hpolls .failed ?_)
                rw [hdone]
                exact List.mem_append_right _ List.mem_cons_self
            | received bytes =>
                apply ih hpoll _ (by omega) hpassed hbefore
                · show reader'.encryptedBuffer ++ bytes ++ receivedBytes todo = _
                  rw [List.append_assoc]
                  exact hrest
                · exact ⟨hreader.plaintext, hreader.follows⟩

/-- However the responses are grouped, the first one with the expected `CSeq` is returned
exactly if it is found in time; otherwise the call times out. -/
theorem sendEncrypted_finds_iff {cipher cipher' sender sender' : ControlCipher}
    {encryptedBuffer plaintext request : Bytes} {sendAll : Bytes → Bool} {polls : List Poll}
    (hstep : cipher.InStep sender)
    (hencrypt : encryptAll aead sender pieces = some (encrypted, sender'))
    (hrequest : cipher.encrypt aead plaintext = (some request, cipher'))
    (hsend : sendAll request = true) (hpolls : ∀ poll ∈ polls, poll ≠ .failed)
    (hreceived : encryptedBuffer ++ receivedBytes polls = encrypted.flatten) :
    ((sendEncrypted aead sendAll cipher encryptedBuffer plaintext (some cseq) polls).1 =
        .found response ↔
      FoundInTime responses pieces encrypted encryptedBuffer polls index) ∧
    (¬ FoundInTime responses pieces encrypted encryptedBuffer polls index →
      (sendEncrypted aead sendAll cipher encryptedBuffer plaintext (some cseq) polls).1 =
        .timedOut) := by
  have hstep' : cipher'.InStep sender := by
    have hread : (cipher.encrypt aead plaintext).2.readKey = cipher.readKey ∧
        (cipher.encrypt aead plaintext).2.readCounter = cipher.readCounter := encrypt_read
    rw [hrequest] at hread
    exact ⟨hread.1.trans hstep.key, hread.2.trans hstep.counter⟩
  have hstart : ReaderAt aead responses pieces encrypted 0 ⟨cipher', encryptedBuffer, []⟩ :=
    ⟨rfl, sender, sender', hstep', hencrypt⟩
  have hresult := readResponse_eq haead hwhole hlimits hpieces hsplit hfirst hpolls hreceived
    (encryptAll_ne_nil haead hencrypt) (List.nil_append polls).symm hstart (Nat.zero_le _) rfl
    (Nat.zero_le _) hreceived
  have hsent : (sendEncrypted aead sendAll cipher encryptedBuffer plaintext (some cseq) polls).1 =
      if FoundInTime responses pieces encrypted encryptedBuffer polls index then
        .found response
      else .timedOut := by
    unfold sendEncrypted
    rw [hrequest]
    dsimp only
    rw [if_pos hsend, hresult]
    simp only [foundInTime_iff]
  rw [hsent]
  constructor
  · constructor
    · intro hfound
      by_contra hnot
      rw [if_neg hnot] at hfound
      cases hfound
    · intro hin
      exact if_pos hin
  · intro hnot
    exact if_neg hnot

end Turns

/-- The answer to a request that timed out before. -/
def lateResponse : Bytes := ascii "RTSP/1.0 200 OK\r\nCSeq: 1\r\nContent-Length: 0\r\n\r\n"

def infoResponse : Bytes := ascii "RTSP/1.0 200 OK\r\nCSeq: 2\r\nContent-Length: 0\r\n\r\n"

def infoRequest : Bytes := encodeRequest (ascii "GET") (ascii "/info") 2 [] [] []

/-- The two responses in two frames and in one, and the request, as ChaCha20-Poly1305
encrypts them. -/
def lateAnswers : List Aead.Answer :=
  [⟨List.replicate 32 0x42, nonceForCounter 0, lateResponse, [47, 0],
      [11, 50, 183, 123, 50, 133, 29, 253, 204, 147, 100, 4, 223, 96, 227, 181, 180, 228, 247,
        188, 219, 175, 132, 45, 242, 199, 76, 186, 34, 196, 69, 161, 247, 130, 100, 143, 52, 191,
        119, 93, 208, 104, 153, 84, 42, 65, 156],
      [56, 213, 186, 157, 2, 32, 104, 132, 207, 10, 95, 168, 196, 246, 98, 14]⟩,
    ⟨List.replicate 32 0x42, nonceForCounter 1, infoResponse, [47, 0],
      [223, 220, 243, 78, 44, 107, 119, 158, 137, 121, 39, 193, 97, 144, 96, 172, 162, 31, 186,
        248, 119, 25, 156, 158, 78, 218, 176, 189, 56, 38, 77, 4, 167, 210, 229, 193, 72, 202,
        54, 96, 139, 215, 200, 81, 254, 4, 196],
      [87, 134, 62, 1, 181, 187, 143, 220, 137, 228, 27, 75, 93, 54, 184, 233]⟩,
    ⟨List.replicate 32 0x42, nonceForCounter 0, (lateResponse ++ infoResponse), [94, 0],
      [11, 50, 183, 123, 50, 133, 29, 253, 204, 147, 100, 4, 223, 96, 227, 181, 180, 228, 247,
        188, 219, 175, 132, 45, 242, 199, 76, 186, 34, 196, 69, 161, 247, 130, 100, 143, 52, 191,
        119, 93, 208, 104, 153, 84, 42, 65, 156, 33, 98, 110, 153, 226, 13, 239, 222, 214, 65,
        70, 43, 120, 153, 94, 123, 115, 249, 222, 44, 161, 18, 32, 31, 26, 6, 97, 116, 6, 106,
        234, 44, 238, 2, 79, 24, 189, 56, 102, 160, 32, 36, 101, 0, 69, 51, 120],
      [127, 41, 22, 29, 44, 9, 77, 117, 35, 1, 145, 176, 39, 134, 159, 207]⟩,
    ⟨List.replicate 32 0x24, nonceForCounter 0, infoRequest, [74, 0],
      [163, 201, 55, 253, 31, 48, 247, 198, 74, 23, 114, 53, 106, 242, 214, 236, 68, 132, 10,
        221, 70, 152, 116, 99, 72, 236, 227, 66, 188, 204, 148, 224, 44, 72, 193, 68, 185, 42,
        174, 152, 64, 102, 184, 156, 79, 252, 229, 226, 60, 143, 39, 149, 210, 119, 240, 2, 193,
        168, 54, 155, 7, 241, 64, 128, 245, 32, 226, 117, 42, 103, 19, 2, 9, 124],
      [100, 227, 66, 106, 232, 91, 130, 235, 94, 191, 187, 67, 26, 137, 183, 80]⟩]

/-- The frame at this place of the table. -/
def lateFrame (index : ℕ) : Bytes := ((lateAnswers.map Aead.Answer.frame)[index]?).getD []

/-- The accessory encrypts with the key that the session reads with. -/
def accessoryCipher : ControlCipher := ⟨[], List.replicate 32 0x42, 0, 0⟩

def sessionCipher : ControlCipher := ⟨List.replicate 32 0x42, List.replicate 32 0x24, 0, 0⟩

theorem firstExpected_infoResponse :
    FirstExpected [lateResponse, infoResponse] 2 1
      ⟨200, [(ascii "cseq", ascii "2"), (ascii "content-length", ascii "0")], []⟩ := by
  refine ⟨⟨infoResponse, rfl, by decide +kernel, by decide +kernel⟩, ?_⟩
  intro bytes hbytes earlier hearlier
  have hlate : bytes = lateResponse := List.mem_singleton.mp hbytes
  have hparsed : parseResponse lateResponse =
      some ⟨200, [(ascii "cseq", ascii "1"), (ascii "content-length", ascii "0")], []⟩ := by
    decide +kernel
  rw [hlate, hparsed] at hearlier
  cases hearlier
  decide +kernel

/-- In a frame each, the late response is discarded in one turn and the expected one found
in the next. -/
theorem sendEncrypted_finds_iff_twoFrames :
    (sendEncrypted (.ofAnswers lateAnswers) (fun _ => true) sessionCipher [] infoRequest (some 2)
      [.received (lateFrame 0 ++ lateFrame 1), .nothing, .nothing]).1 =
        .found ⟨200, [(ascii "cseq", ascii "2"), (ascii "content-length", ascii "0")], []⟩ := by
  have haead : (Aead.ofAnswers lateAnswers).RoundTrips :=
    Aead.ofAnswers_roundTrips (by decide +kernel) (by decide +kernel)
  have hencrypt : encryptAll (.ofAnswers lateAnswers) accessoryCipher [lateResponse, infoResponse] =
      some ([lateFrame 0, lateFrame 1], { accessoryCipher with writeCounter := 2 }) := by
    decide +kernel
  have hrequest : sessionCipher.encrypt (.ofAnswers lateAnswers) infoRequest =
      (some (lateFrame 3), { sessionCipher with writeCounter := 1 }) := by
    decide +kernel
  have hwhole : ∀ bytes ∈ [lateResponse, infoResponse], WholeResponse bytes := by
    intro bytes hbytes
    rcases List.mem_pair.mp hbytes with rfl | rfl
    · exact ⟨by decide +kernel, by decide +kernel⟩
    · exact ⟨by decide +kernel, by decide +kernel⟩
  have hlimits : WithinLimits [lateResponse, infoResponse] := by
    refine ⟨by decide +kernel, ?_⟩
    intro bytes hbytes headerEnd hfind
    have hend : find responseHeaderEnd bytes = some 43 := by
      rcases List.mem_pair.mp hbytes with rfl | rfl
      · decide +kernel
      · decide +kernel
    rw [hend] at hfind
    cases hfind
    decide +kernel
  exact (sendEncrypted_finds_iff haead hwhole hlimits (by decide +kernel) rfl
    firstExpected_infoResponse ⟨rfl, rfl⟩ hencrypt hrequest rfl (by decide +kernel)
    (by decide +kernel)).1.mpr (by decide +kernel)

/-- In one frame, the late response is discarded and the expected one not looked at. -/
theorem sendEncrypted_oneFrame :
    encryptAll (.ofAnswers lateAnswers) accessoryCipher [lateResponse ++ infoResponse] =
        some ([lateFrame 2], { accessoryCipher with writeCounter := 1 }) ∧
      sendEncrypted (.ofAnswers lateAnswers) (fun _ => true) sessionCipher [] infoRequest (some 2)
          [.received (lateFrame 2), .nothing, .nothing, .nothing] =
        (.timedOut, ⟨{ sessionCipher with readCounter := 1, writeCounter := 1 }, [], infoResponse⟩) ∧
      parseResponse infoResponse =
        some ⟨200, [(ascii "cseq", ascii "2"), (ascii "content-length", ascii "0")], []⟩ := by
  decide +kernel

end Airplay
end Aa2acp
