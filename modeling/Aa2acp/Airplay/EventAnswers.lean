import Aa2acp.Airplay.EventChannel
import Aa2acp.Lib.Pacing

/-!
# Which event requests are answered

The loop of `service_event_channel` looks at the plaintext once for every frame it
decrypts, so a frame answers at most one request.  Requests that arrive together are
answered as later frames come in, and the last ones not at all when no frame follows.

After `i` frames the plaintext is what has come of the requests behind the first
`handled i` (`Standing`).  All requests are answered exactly if they are paced, the bytes
that wait fit into the buffer at every frame, and the responses can be sent (`InTime`).
-/

namespace Aa2acp
namespace Airplay

open Text Pacing Framing ControlCipher

/-- The response to the request that these bytes are. -/
def responseTo (bytes : Bytes) : Bytes :=
  match parseEvent bytes with
  | .request request => eventResponse request.cseq
  | _ => []

/-- Bytes that do not exceed a limit: 1 MiB, and 64 KiB before the end of the headers. -/
def Fits (bytes : Bytes) : Prop :=
  bytes.length ≤ maximumEventBytes ∧
    (bytes.length ≤ maximumEventHeaders ∨ (find headerEndMark bytes).isSome)

instance (bytes : Bytes) : Decidable (Fits bytes) :=
  inferInstanceAs (Decidable (bytes.length ≤ maximumEventBytes ∧
    (bytes.length ≤ maximumEventHeaders ∨ (find headerEndMark bytes).isSome)))

/-- Every response can be encrypted, and `send_all` gets it out. -/
def Sendable (env : EventEnv) (cipher : ControlCipher) (requests : List Bytes) : Prop :=
  ∃ frames cipher', encryptAll env.aead cipher (requests.map responseTo) = some (frames, cipher') ∧
    ∀ frame ∈ frames, env.sendAll frame = true

/-- The condition under which all requests are answered. -/
structure InTime (env : EventEnv) (cipher : ControlCipher) (requests pieces : List Bytes) : Prop where
  sendable : Sendable env cipher requests
  /-- Whatever number of last frames is left aside, no more requests than these are
  incomplete before them. -/
  paced : requests.length ≤ pieces.length ∧ ∀ last < requests.length,
    requests.length - last ≤ complete requests pieces (pieces.length - last)
  fits : ∀ frames < pieces.length, Fits (waiting requests pieces frames)

/-- Every request was handed over, in order, and a response to each was sent. -/
def AllAnswered (env : EventEnv) (cipher : ControlCipher) (requests : List Bytes)
    (channel : EventChannel) : Prop :=
  channel.closed = false ∧ channel.received = requests ∧
    ∃ cipher', encryptAll env.aead cipher (requests.map responseTo) = some (channel.sent, cipher')

/-- The state of the loop after the first frames. -/
structure Standing (env : EventEnv) (cipher : ControlCipher) (requests pieces : List Bytes)
    (frames : ℕ) (channel : EventChannel) : Prop where
  opened : channel.closed = false
  plaintext : channel.plaintext = (pieces.take frames).flatten.drop
    (requests.take (handled requests pieces frames)).flatten.length
  received : channel.received = requests.take (handled requests pieces frames)
  sent : ∃ cipher',
    encryptAll env.aead cipher (channel.received.map responseTo) = some (channel.sent, cipher') ∧
      channel.cipher = { cipher' with readCounter := channel.cipher.readCounter }
  accepted : ∀ frame ∈ channel.sent, env.sendAll frame = true
  fits : ∀ before < frames, Fits (waiting requests pieces before)

/-- The loop is where it should be, or it has given up for a reason. -/
def Outcome (env : EventEnv) (cipher : ControlCipher) (requests pieces : List Bytes)
    (frames : ℕ) (channel : EventChannel) : Prop :=
  Standing env cipher requests pieces frames channel ∨
    channel.closed = true ∧ ¬ InTime env cipher requests pieces

variable {env : EventEnv} {cipher : ControlCipher} {requests pieces : List Bytes}
  {frames : ℕ} {channel : EventChannel}

/-! ## One frame -/

theorem responseTo_eq {bytes : Bytes} {request : EventRequest}
    (h : parseEvent bytes = .request request) : responseTo bytes = eventResponse request.cseq := by
  unfold responseTo
  rw [h]

/-- Behind responses that were sent, the next one can be sent, too. -/
theorem Sendable.next (h : Sendable env cipher requests) {count : ℕ} {bytes : Bytes}
    {rest : List Bytes} (hrest : requests.drop count = bytes :: rest) {sent : List Bytes}
    {cipher' : ControlCipher}
    (hsent : encryptAll env.aead cipher ((requests.take count).map responseTo) = some (sent, cipher')) :
    ∃ encrypted next, cipher'.encrypt env.aead (responseTo bytes) = (some encrypted, next) ∧
      env.sendAll encrypted = true := by
  obtain ⟨frames, last, hall, haccepted⟩ := h
  -- the responses so far, the one in question, and the others
  rw [← List.take_append_drop count requests, hrest, List.map_append, encryptAll_append_eq, hsent,
    Option.bind_some, List.map_cons] at hall
  obtain ⟨later, hlater, heq⟩ := Option.map_eq_some_iff.mp hall
  obtain ⟨encrypted, next, others, hothers, hencrypt, -⟩ := encryptAll_cons hlater
  cases heq
  rw [hothers] at haccepted
  exact ⟨encrypted, next, hencrypt, haccepted encrypted
    (List.mem_append_right _ List.mem_cons_self)⟩

theorem serviceFrame_of_large {frame : Bytes} (hframe : frame ≠ [])
    (h : maximumEventBytes < (channel.plaintext ++ frame).length) :
    channel.serviceFrame env frame = { channel with closed := true } := by
  have hpos : 0 < frame.length := List.length_pos_iff.mpr hframe
  rw [List.length_append] at h
  unfold EventChannel.serviceFrame
  exact if_pos (by omega)

theorem serviceFrame_of_small {frame : Bytes}
    (h : (channel.plaintext ++ frame).length ≤ maximumEventBytes) :
    channel.serviceFrame env frame =
      match parseEvent (channel.plaintext ++ frame) with
      | .incomplete => { channel with plaintext := channel.plaintext ++ frame }
      | .refused => { channel with plaintext := channel.plaintext ++ frame, closed := true }
      | .request request =>
          EventChannel.answer env { channel with plaintext := channel.plaintext ++ frame } request := by
  rw [List.length_append] at h
  unfold EventChannel.serviceFrame
  exact if_neg (by omega)

section Step

variable {piece : Bytes} {later : List Bytes} (hpiece : pieces.drop frames = piece :: later)
  (h : Standing env cipher requests pieces frames channel)

include hpiece h

theorem Standing.plaintext_append : channel.plaintext ++ piece = waiting requests pieces frames := by
  rw [h.plaintext, waiting_eq hpiece]

/-- A limit is exceeded, and the loop gives up. -/
theorem Standing.serviceFrame_of_not_fits (hnil : piece ≠ [])
    (hfits : ¬ Fits (waiting requests pieces frames)) :
    (channel.serviceFrame env piece).closed = true := by
  have hwaiting := h.plaintext_append hpiece
  by_cases hsize : (waiting requests pieces frames).length ≤ maximumEventBytes
  -- small enough as a whole, so it is the headers that do not end
  · have hheaders : maximumEventHeaders < (waiting requests pieces frames).length ∧
        find headerEndMark (waiting requests pieces frames) = none := by
      constructor
      · apply Nat.lt_of_not_le
        intro hle
        exact hfits ⟨hsize, Or.inl hle⟩
      · apply Option.not_isSome_iff_eq_none.mp
        intro hsome
        exact hfits ⟨hsize, Or.inr hsome⟩
    have hparse : parseEvent (waiting requests pieces frames) = .refused := by
      unfold parseEvent
      rw [hheaders.2]
      exact if_pos hheaders.1
    rw [serviceFrame_of_small (by rw [hwaiting]; exact hsize), hwaiting, hparse]
  · rw [serviceFrame_of_large hnil (by rw [hwaiting]; exact Nat.lt_of_not_le hsize)]

variable {bytes : Bytes} {rest : List Bytes}
  (hrest : requests.drop (handled requests pieces frames) = bytes :: rest)
  (hfits : Fits (waiting requests pieces frames))

include hrest hfits

theorem Standing.fits_succ : ∀ before < frames + 1, Fits (waiting requests pieces before) := by
  intro before hbefore
  rcases Nat.lt_succ_iff_lt_or_eq.mp hbefore with hlt | rfl
  · exact h.fits before hlt
  · exact hfits

/-- A part of the next request is missing: the loop waits. -/
theorem Standing.serviceFrame_of_part (hframed : Framed bytes) {more : Bytes} (hmore : more ≠ [])
    (hpart : waiting requests pieces frames ++ more = bytes) :
    Standing env cipher requests pieces (frames + 1) (channel.serviceFrame env piece) := by
  obtain ⟨request, hparse, hsize⟩ := hframed
  have hwaiting := h.plaintext_append hpiece
  have hlt : (waiting requests pieces frames).length < bytes.length := by
    have hpos : 0 < more.length := List.length_pos_iff.mpr hmore
    rw [← hpart, List.length_append]
    omega
  have hincomplete : parseEvent (waiting requests pieces frames) = .incomplete := by
    rw [← hpart] at hparse
    rw [parseEvent_incomplete hparse (hsize ▸ hlt), if_neg]
    rintro ⟨hstart, hlarge⟩
    -- the end of the headers would have to be there
    have hnone := find_eq_none_of_append (parseEvent_eq_request.mp hparse).1
      (by rw [length_headerEndMark]; exact hstart)
    rcases hfits.2 with hsmall | hsome
    · exact absurd hsmall (Nat.not_le.mpr hlarge)
    · rw [hnone] at hsome
      cases hsome
  have hsame := handled_of_part hrest hlt
  rw [serviceFrame_of_small (by rw [hwaiting]; exact hfits.1), hwaiting, hincomplete]
  refine ⟨h.opened, ?_, ?_, h.sent, h.accepted, h.fits_succ hpiece hrest hfits⟩
  · rw [hsame]
    rfl
  · rw [hsame]
    exact h.received

/-- The next request is there: it is handed over and answered, unless its response cannot
be sent. -/
theorem Standing.serviceFrame_of_whole (hframed : Framed bytes) {more : Bytes}
    (hwhole : waiting requests pieces frames = bytes ++ more) :
    Outcome env cipher requests pieces (frames + 1) (channel.serviceFrame env piece) := by
  obtain ⟨request, hparse, hsize⟩ := hframed
  have hwaiting := h.plaintext_append hpiece
  have hrequest : parseEvent (waiting requests pieces frames) = .request request := by
    rw [hwhole]
    exact parseEvent_append hparse more
  have hsucc := handled_of_whole hrest (by rw [hwhole, List.length_append]; omega)
  have htake := take_succ_of_drop hrest
  have hmore : more = (waiting requests pieces frames).drop bytes.length := by
    rw [hwhole, List.drop_left]
  obtain ⟨cipher', hsent, hcipher⟩ := h.sent
  rw [serviceFrame_of_small (by rw [hwaiting]; exact hfits.1), hwaiting, hrequest]
  dsimp only
  unfold EventChannel.answer
  dsimp only
  -- the handed-over bytes are the request; what is behind it stays
  rw [hwhole, ← hsize, List.take_left, List.drop_left, ← responseTo_eq hparse, hcipher,
    encrypt_readCounter]
  rw [h.received] at hsent
  cases hencrypt : cipher'.encrypt env.aead (responseTo bytes) with
  | mk encrypted next =>
      cases encrypted with
      | none =>
          -- a response that cannot be encrypted was not sendable in the first place
          refine Or.inr ⟨rfl, fun hin => ?_⟩
          obtain ⟨encrypted, other, hother, -⟩ := hin.sendable.next hrest hsent
          rw [hencrypt] at hother
          cases hother
      | some encrypted =>
          dsimp only
          split
          · rename_i haccepted
            refine Or.inl ⟨h.opened, ?_, ?_, ?_, ?_, h.fits_succ hpiece hrest hfits⟩
            · rw [hsucc, htake, List.flatten_append, List.flatten_singleton, List.length_append,
                ← List.drop_drop]
              exact hmore
            · dsimp only
              rw [hsucc, htake, h.received]
            · refine ⟨next, ?_, rfl⟩
              dsimp only
              rw [h.received, List.map_append]
              exact encryptAll_concat hsent hencrypt
            · intro frame hframe
              rcases List.mem_append.mp hframe with hbefore | hnew
              · exact h.accepted frame hbefore
              · obtain rfl := List.mem_singleton.mp hnew
                exact haccepted
          -- neither was one that `send_all` refuses
          · rename_i hrefused
            refine Or.inr ⟨rfl, fun hin => ?_⟩
            obtain ⟨other, next', hother, haccepted⟩ := hin.sendable.next hrest hsent
            rw [hencrypt] at hother
            cases hother
            exact hrefused haccepted

end Step

/-- One frame: the loop stays on schedule, or it gives up for a reason. -/
theorem Standing.serviceFrame (hframed : ∀ bytes ∈ requests, Framed bytes)
    (hsplit : pieces.flatten = requests.flatten) {piece : Bytes} {later : List Bytes}
    (hpiece : pieces.drop frames = piece :: later) (hnil : piece ≠ [])
    (h : Standing env cipher requests pieces frames channel) :
    Outcome env cipher requests pieces (frames + 1) (channel.serviceFrame env piece) := by
  have hlt : frames < pieces.length := by
    apply Nat.lt_of_not_le
    intro hle
    rw [List.drop_eq_nil_of_le hle] at hpiece
    cases hpiece
  by_cases hfits : Fits (waiting requests pieces frames)
  · have happend := waiting_append hsplit hpiece
    cases hrest : requests.drop (handled requests pieces frames) with
    | nil =>
        -- a frame that is not empty brings bytes of a request
        rw [hrest, waiting_eq hpiece, List.flatten_nil] at happend
        have hempty := (List.append_eq_nil_iff.mp happend).1
        exact absurd (List.append_eq_nil_iff.mp hempty).2 hnil
    | cons bytes rest =>
        have hbytes : Framed bytes := hframed bytes (by
          apply List.mem_of_mem_drop
          rw [hrest]
          exact List.mem_cons_self)
        rw [hrest, List.flatten_cons] at happend
        rcases whole_or_part happend with ⟨more, hwhole, -⟩ | ⟨more, hmore, hpart, -⟩
        · exact h.serviceFrame_of_whole hpiece hrest hfits hbytes hwhole
        · exact Or.inl (h.serviceFrame_of_part hpiece hrest hfits hbytes hmore hpart)
  · exact Or.inr ⟨h.serviceFrame_of_not_fits hpiece hnil hfits,
      fun hin => hfits (hin.fits frames hlt)⟩

/-! ## All frames -/

theorem answer_inStep {writer : ControlCipher} (h : channel.cipher.InStep writer)
    (request : EventRequest) : (channel.answer env request).cipher.InStep writer := by
  -- the answer moves the write counter only
  have hnext : ∀ next, next = (channel.cipher.encrypt env.aead (eventResponse request.cseq)).2 →
      next.InStep writer := by
    rintro next rfl
    exact ⟨encrypt_read.1.trans h.key, encrypt_read.2.trans h.counter⟩
  unfold EventChannel.answer
  dsimp only
  split
  · rename_i hencrypt
    exact hnext _ (by rw [hencrypt])
  · rename_i hencrypt
    split
    · exact hnext _ (by rw [hencrypt])
    · exact hnext _ (by rw [hencrypt])

/-- Handling a frame changes nothing about the frames that are read next. -/
theorem serviceFrame_inStep {writer : ControlCipher} (h : channel.cipher.InStep writer)
    (frame : Bytes) : (channel.serviceFrame env frame).cipher.InStep writer := by
  unfold EventChannel.serviceFrame
  split
  · exact h
  · dsimp only
    split
    · exact h
    · exact h
    · apply answer_inStep
      exact h

/-- Taking a frame out of the buffer is not yet handling it. -/
theorem Standing.read (h : Standing env cipher requests pieces frames channel) (buffer : Bytes) :
    Standing env cipher requests pieces frames
      { channel with cipher := channel.cipher.counted, encryptedBuffer := buffer } := by
  obtain ⟨cipher', hsent, hcipher⟩ := h.sent
  refine ⟨h.opened, h.plaintext, h.received, ⟨cipher', hsent, ?_⟩, h.accepted, h.fits⟩
  show channel.cipher.counted = _
  rw [hcipher]
  rfl

/-- The loop is on schedule, its buffer holds a part of the next frame, and these frames are
to come. -/
structure Following (env : EventEnv) (cipher : ControlCipher) (requests pieces : List Bytes)
    (left : List Bytes) (channel : EventChannel) : Prop where
  standing : ∃ frames writer last, frames ≤ pieces.length ∧
    Standing env cipher requests pieces frames channel ∧ channel.cipher.InStep writer ∧
      encryptAll env.aead writer (pieces.drop frames) = some (left, last)
  buffer : Awaits channel.encryptedBuffer left

/-- The inner loop takes the frames that have come whole. -/
theorem serviceFrames_following (haead : env.aead.RoundTrips)
    (hframed : ∀ bytes ∈ requests, Framed bytes) (hsplit : pieces.flatten = requests.flatten)
    (hpieces : ∀ piece ∈ pieces, piece ≠ []) {now later : List Bytes} {tail : Bytes}
    {writer last : ControlCipher} (hle : frames ≤ pieces.length)
    (h : Standing env cipher requests pieces frames channel)
    (hstep : channel.cipher.InStep writer)
    (hencrypt : encryptAll env.aead writer (pieces.drop frames) = some (now ++ later, last))
    (hbuffer : channel.encryptedBuffer = now.flatten ++ tail) (hawaits : Awaits tail later) :
    Following env cipher requests pieces later (channel.serviceFrames env) ∧
        (channel.serviceFrames env).encryptedBuffer = tail ∨
      (channel.serviceFrames env).closed = true ∧ ¬ InTime env cipher requests pieces := by
  induction now generalizing channel frames writer with
  | nil =>
      -- nothing but a part of the next frame is left: the loop waits
      have hdecrypt : channel.cipher.decryptOne env.aead channel.encryptedBuffer =
          (some [], channel.cipher, tail) := by
        rw [hbuffer]
        exact decryptOne_awaits haead hencrypt hawaits
      rw [EventChannel.serviceFrames_of_empty hdecrypt]
      refine Or.inl ⟨⟨⟨frames, writer, last, hle, ?_, hstep, hencrypt⟩, hawaits⟩, rfl⟩
      exact ⟨h.opened, h.plaintext, h.received, h.sent, h.accepted, h.fits⟩
  | cons frame now ih =>
      obtain ⟨piece, others, next, hpiece, hopens, hcounted, hrest⟩ := hstep.next_frame haead hencrypt
      have hdecrypt := hopens (now.flatten ++ tail)
      rw [← List.append_assoc, ← List.flatten_cons, ← hbuffer] at hdecrypt
      have hnil : piece ≠ [] := hpieces piece (List.mem_of_mem_drop (by
        rw [hpiece]
        exact List.mem_cons_self))
      have hlt : frames + 1 ≤ pieces.length := by
        have hlength := congrArg List.length hpiece
        rw [List.length_drop, List.length_cons] at hlength
        omega
      rw [EventChannel.serviceFrames_of_frame hdecrypt hnil]
      dsimp only
      -- the frame is taken; either the loop stays on schedule or it closes
      rcases (h.read (now.flatten ++ tail)).serviceFrame hframed hsplit hpiece hnil with
        hnext | ⟨hclosed, hnot⟩
      · rw [hnext.opened, if_neg Bool.false_ne_true]
        rw [← drop_succ_of_cons hpiece] at hrest
        apply ih hlt hnext (serviceFrame_inStep hcounted _) hrest
        rw [EventChannel.serviceFrame_encryptedBuffer]
      · rw [if_pos hclosed]
        exact Or.inr ⟨hclosed, hnot⟩

/-- A result of `recv` as small as the source's buffer does not exceed 2 MiB. -/
theorem serviceChunk_of_small {chunk : Bytes} (hbuffer : channel.encryptedBuffer.length < 65535 + 18)
    (hchunk : chunk.length ≤ 4096) :
    channel.serviceChunk env chunk =
      EventChannel.serviceFrames env
        { channel with encryptedBuffer := channel.encryptedBuffer ++ chunk } := by
  have hmax : maximumEncryptedEventBuffer = 2 * 1024 * 1024 := rfl
  have hlength : (channel.encryptedBuffer ++ chunk).length ≤ maximumEncryptedEventBuffer := by
    rw [List.length_append]
    omega
  unfold EventChannel.serviceChunk
  rw [if_neg (by omega)]
  dsimp only
  exact if_neg (Nat.not_lt.mpr hlength)

/-- The outer loop, until everything has been received. -/
theorem Following.serviceEventChannel (haead : env.aead.RoundTrips)
    (hframed : ∀ bytes ∈ requests, Framed bytes) (hsplit : pieces.flatten = requests.flatten)
    (hpieces : ∀ piece ∈ pieces, piece ≠ []) {left chunks : List Bytes}
    (h : Following env cipher requests pieces left channel)
    (hchunks : ∀ chunk ∈ chunks, chunk.length ≤ 4096)
    (hreceived : channel.encryptedBuffer ++ chunks.flatten = left.flatten) :
    Outcome env cipher requests pieces pieces.length (channel.serviceEventChannel env chunks) := by
  induction chunks generalizing channel left with
  | nil =>
      obtain ⟨⟨frames, writer, last, hle, hstanding, -, hencrypt⟩, hawaits⟩ := h
      rw [List.flatten_nil, List.append_nil] at hreceived
      obtain ⟨-, rfl⟩ := hawaits.eq_nil hreceived
      -- no frame is left, so all of them were taken
      have hall : pieces.drop frames = [] := by
        cases hdrop : pieces.drop frames with
        | nil => rfl
        | cons piece others =>
            rw [hdrop] at hencrypt
            obtain ⟨_, _, _, hcons, -, -⟩ := encryptAll_cons hencrypt
            cases hcons
      have heq : frames = pieces.length := Nat.le_antisymm hle (List.drop_eq_nil_iff.mp hall)
      rw [heq] at hstanding
      exact Or.inl hstanding
  | cons chunk chunks ih =>
      obtain ⟨⟨frames, writer, last, hle, hstanding, hstep, hencrypt⟩, hawaits⟩ := h
      rw [List.flatten_cons, ← List.append_assoc] at hreceived
      -- the chunk completes some frames and may leave a part of the next one
      obtain ⟨now, later, tail, rfl, hcut, htail, hawaits'⟩ :=
        cut_flatten (encryptAll_ne_nil haead hencrypt) hreceived
      have hsmall : channel.serviceChunk env chunk = _ :=
        serviceChunk_of_small (length_awaits_lt haead hencrypt hawaits)
          (hchunks chunk List.mem_cons_self)
      -- what `recv` adds to the buffer is not part of the standing
      have hread : Standing env cipher requests pieces frames
          { channel with encryptedBuffer := channel.encryptedBuffer ++ chunk } :=
        ⟨hstanding.opened, hstanding.plaintext, hstanding.received, hstanding.sent,
          hstanding.accepted, hstanding.fits⟩
      have hturn := serviceFrames_following haead hframed hsplit hpieces hle hread hstep hencrypt
        hcut hawaits'
      rw [← hsmall] at hturn
      unfold EventChannel.serviceEventChannel
      dsimp only
      rcases hturn with ⟨hnext, hbuffer⟩ | ⟨hclosed, hnot⟩
      · obtain ⟨_, _, _, _, hopen, -, -⟩ := hnext.standing
        rw [hopen.opened, if_neg Bool.false_ne_true]
        apply ih hnext (fun other hother => hchunks other (List.mem_cons_of_mem _ hother))
        rw [hbuffer]
        exact htail
      · rw [if_pos hclosed]
        exact Or.inr ⟨hclosed, hnot⟩

/-- On schedule to the end, everything is answered exactly if as many requests as there are
can be answered. -/
theorem Standing.allAnswered_iff
    (h : Standing env cipher requests pieces pieces.length channel) :
    AllAnswered env cipher requests channel ↔ InTime env cipher requests pieces := by
  have hcount := (handled_complete requests pieces pieces.length).1
  constructor
  · rintro ⟨-, hreceived, cipher', hsent⟩
    refine ⟨⟨channel.sent, cipher', hsent, h.accepted⟩, ?_, h.fits⟩
    -- all requests were received, so all were handled
    apply le_paced_iff.mp
    have hlength := congrArg List.length (h.received.symm.trans hreceived)
    rw [List.length_take] at hlength
    show requests.length ≤ handled requests pieces pieces.length
    omega
  · intro hin
    have hall : requests.length ≤ handled requests pieces pieces.length :=
      le_paced_iff.mpr hin.paced
    have hreceived : channel.received = requests := by
      rw [h.received, List.take_of_length_le hall]
    obtain ⟨cipher', hsent, -⟩ := h.sent
    rw [hreceived] at hsent
    exact ⟨h.opened, hreceived, cipher', hsent⟩

/-- Whatever the frames and the results of `recv` are, all requests are answered exactly if
they are in time. -/
theorem serviceEventChannel_answers_iff (haead : env.aead.RoundTrips)
    (hframed : ∀ bytes ∈ requests, Framed bytes) (hpieces : ∀ piece ∈ pieces, piece ≠ [])
    (hsplit : pieces.flatten = requests.flatten) {sender sender' : ControlCipher}
    {encrypted chunks : List Bytes} (hstep : cipher.InStep sender)
    (hencrypt : encryptAll env.aead sender pieces = some (encrypted, sender'))
    (hchunks : ∀ chunk ∈ chunks, chunk ≠ [] ∧ chunk.length ≤ 4096)
    (hreceived : chunks.flatten = encrypted.flatten) :
    AllAnswered env cipher requests (EventChannel.serviceEventChannel env { cipher } chunks) ↔
      InTime env cipher requests pieces := by
  have hstart : Standing env cipher requests pieces 0 { cipher } := by
    refine ⟨rfl, rfl, rfl, ⟨cipher, rfl, rfl⟩, ?_, ?_⟩
    · intro frame hframe
      cases hframe
    · intro before hbefore
      exact absurd hbefore (Nat.not_lt_zero before)
  have hfollowing : Following env cipher requests pieces encrypted { cipher } :=
    ⟨⟨0, sender, sender', Nat.zero_le _, hstart, hstep, hencrypt⟩,
      awaits_nil (encryptAll_ne_nil haead hencrypt)⟩
  rcases hfollowing.serviceEventChannel haead hframed hsplit hpieces
    (fun chunk hchunk => (hchunks chunk hchunk).2) hreceived with hstanding | ⟨hclosed, hnot⟩
  · exact hstanding.allAnswered_iff
  · constructor
    · intro hanswered
      rw [hanswered.1] at hclosed
      cases hclosed
    · intro hin
      exact absurd hin hnot

def firstEvent : Bytes := ascii "POST /command RTSP/1.0\r\nCSeq: 1\r\nContent-Length: 0\r\n\r\n"

def secondEvent : Bytes := ascii "POST /command RTSP/1.0\r\nCSeq: 2\r\nContent-Length: 0\r\n\r\n"

/-- The two requests in two frames and in one, and the responses to them, as
ChaCha20-Poly1305 encrypts them. -/
def twoEvents : List Aead.Answer :=
  [⟨List.replicate 32 0x42, nonceForCounter 0, firstEvent, [54, 0],
      [9, 41, 183, 127, 61, 155, 80, 162, 129, 204, 53, 90, 155, 15, 250, 236, 237, 247, 139,
        232, 132, 165, 169, 22, 188, 158, 106, 164, 118, 144, 17, 194, 137, 236, 71, 132, 46,
        189, 109, 65, 199, 4, 204, 55, 71, 56, 254, 73, 22, 13, 196, 199, 49, 203],
      [12, 14, 0, 12, 170, 235, 231, 233, 161, 254, 190, 81, 210, 9, 43, 83]⟩,
    ⟨List.replicate 32 0x42, nonceForCounter 1, secondEvent, [54, 0],
      [221, 199, 243, 74, 35, 117, 58, 193, 196, 38, 118, 159, 37, 255, 121, 245, 251, 12, 198,
        172, 40, 19, 177, 166, 0, 131, 150, 163, 108, 114, 26, 103, 217, 188, 198, 202, 82, 200,
        44, 124, 156, 187, 157, 50, 147, 125, 166, 54, 152, 186, 113, 50, 161, 143],
      [65, 211, 151, 178, 242, 168, 34, 161, 171, 57, 42, 78, 143, 164, 94, 223]⟩,
    ⟨List.replicate 32 0x42, nonceForCounter 0, (firstEvent ++ secondEvent), [108, 0],
      [9, 41, 183, 127, 61, 155, 80, 162, 129, 204, 53, 90, 155, 15, 250, 236, 237, 247, 139,
        232, 132, 165, 169, 22, 188, 158, 106, 164, 118, 144, 17, 194, 137, 236, 71, 132, 46,
        189, 109, 65, 199, 4, 204, 55, 71, 56, 254, 73, 22, 13, 196, 199, 49, 203, 190, 185, 32,
        34, 59, 119, 181, 122, 27, 20, 219, 227, 45, 240, 122, 84, 126, 71, 35, 19, 53, 88, 19,
        133, 1, 201, 74, 114, 71, 243, 109, 31, 194, 89, 107, 59, 121, 42, 80, 6, 122, 98, 20,
        74, 224, 70, 179, 100, 203, 243, 183, 3, 147, 120],
      [167, 164, 92, 204, 220, 147, 163, 35, 136, 249, 155, 241, 11, 6, 86, 151]⟩,
    ⟨List.replicate 32 0x24, nonceForCounter 0, (responseTo firstEvent), [64, 0],
      [172, 216, 55, 141, 31, 104, 183, 145, 5, 5, 16, 81, 25, 237, 178, 208, 96, 247, 104,
        185, 113, 174, 127, 102, 95, 128, 180, 33, 209, 237, 143, 191, 126, 85, 141, 41, 157, 49,
        190, 203, 15, 10, 181, 207, 122, 218, 219, 174, 117, 155, 54, 168, 213, 62, 220, 63, 208,
        188, 98, 222, 39, 183, 40, 228],
      [69, 0, 206, 6, 192, 212, 89, 103, 254, 91, 38, 88, 121, 1, 63, 95]⟩,
    ⟨List.replicate 32 0x24, nonceForCounter 1, (responseTo secondEvent), [64, 0],
      [225, 73, 58, 69, 53, 10, 100, 12, 52, 112, 85, 112, 184, 92, 131, 118, 24, 61, 25, 71,
        132, 208, 253, 134, 131, 113, 13, 114, 38, 129, 187, 175, 208, 109, 204, 97, 50, 102,
        155, 216, 212, 126, 93, 41, 248, 87, 250, 130, 153, 201, 3, 118, 54, 3, 57, 207, 136, 52,
        194, 187, 199, 151, 46, 180],
      [97, 216, 148, 80, 55, 92, 94, 214, 162, 111, 236, 130, 24, 103, 198, 209]⟩]

/-- The head unit encrypts with the key that the channel reads with. -/
def headUnit : ControlCipher := ⟨[], List.replicate 32 0x42, 0, 0⟩

def eventCipher : ControlCipher := ⟨List.replicate 32 0x42, List.replicate 32 0x24, 0, 0⟩

def twoEventsEnv : EventEnv := ⟨.ofAnswers twoEvents, fun _ => true⟩

theorem framed_firstEvent : Framed firstEvent :=
  ⟨⟨50, 0, ascii "1"⟩, by decide +kernel, by decide +kernel⟩

theorem framed_secondEvent : Framed secondEvent :=
  ⟨⟨50, 0, ascii "2"⟩, by decide +kernel, by decide +kernel⟩

/-- The frame at this place of the table. -/
def twoEventsFrame (index : ℕ) : Bytes := ((twoEvents.map Aead.Answer.frame)[index]?).getD []

/-- In a frame each, both requests are answered, although `recv` returns them together. -/
theorem serviceEventChannel_answers_iff_twoFrames :
    encryptAll twoEventsEnv.aead headUnit [firstEvent, secondEvent] =
        some ([twoEventsFrame 0, twoEventsFrame 1], { headUnit with writeCounter := 2 }) ∧
      AllAnswered twoEventsEnv eventCipher [firstEvent, secondEvent]
        (EventChannel.serviceEventChannel twoEventsEnv { cipher := eventCipher }
          [twoEventsFrame 0 ++ twoEventsFrame 1]) := by
  have haead : twoEventsEnv.aead.RoundTrips :=
    Aead.ofAnswers_roundTrips (by decide +kernel) (by decide +kernel)
  have hencrypt : encryptAll twoEventsEnv.aead headUnit [firstEvent, secondEvent] =
      some ([twoEventsFrame 0, twoEventsFrame 1], { headUnit with writeCounter := 2 }) := by
    decide +kernel
  have hsent : encryptAll twoEventsEnv.aead eventCipher
      ([firstEvent, secondEvent].map responseTo) =
        some ([twoEventsFrame 3, twoEventsFrame 4], { eventCipher with writeCounter := 2 }) := by
    decide +kernel
  have hframed : ∀ bytes ∈ [firstEvent, secondEvent], Framed bytes := by
    intro bytes hbytes
    rcases List.mem_pair.mp hbytes with rfl | rfl
    · exact framed_firstEvent
    · exact framed_secondEvent
  have hin : InTime twoEventsEnv eventCipher [firstEvent, secondEvent] [firstEvent, secondEvent] :=
    ⟨⟨_, _, hsent, fun _ _ => rfl⟩, by decide +kernel, by decide +kernel⟩
  refine ⟨hencrypt, (serviceEventChannel_answers_iff haead hframed (by decide +kernel) rfl
    ⟨rfl, rfl⟩ hencrypt (by decide +kernel) ?_).mpr hin⟩
  rw [List.flatten_singleton, List.flatten_cons, List.flatten_singleton]

/-- In one frame, the second request is not answered when everything has been received. -/
theorem serviceEventChannel_oneFrame :
    let channel := EventChannel.serviceEventChannel twoEventsEnv { cipher := eventCipher }
      [twoEventsFrame 2]
    encryptAll twoEventsEnv.aead headUnit [firstEvent ++ secondEvent] =
        some ([twoEventsFrame 2], { headUnit with writeCounter := 1 }) ∧
      Framed firstEvent ∧ Framed secondEvent ∧ channel.closed = false ∧
        channel.encryptedBuffer = [] ∧ channel.plaintext = secondEvent ∧
        channel.received = [firstEvent] ∧ channel.sent = [twoEventsFrame 3] ∧
        ¬ AllAnswered twoEventsEnv eventCipher [firstEvent, secondEvent] channel := by
  have hencrypt : encryptAll twoEventsEnv.aead headUnit [firstEvent ++ secondEvent] =
      some ([twoEventsFrame 2], { headUnit with writeCounter := 1 }) := by decide +kernel
  have hchannel : EventChannel.serviceEventChannel twoEventsEnv { cipher := eventCipher }
      [twoEventsFrame 2] =
        { cipher := { eventCipher with readCounter := 1, writeCounter := 1 }
          plaintext := secondEvent
          received := [firstEvent]
          sent := [twoEventsFrame 3] } := by
    decide +kernel
  rw [hchannel]
  refine ⟨hencrypt, framed_firstEvent, framed_secondEvent, rfl, rfl, rfl, rfl, rfl, ?_⟩
  rintro ⟨-, hreceived, -⟩
  cases hreceived

end Airplay
end Aa2acp
