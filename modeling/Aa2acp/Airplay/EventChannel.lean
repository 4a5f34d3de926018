import Aa2acp.Airplay.ControlStream
import Aa2acp.Lib.Text

/-!
# The event channel

`service_event_channel` of `airplay/session.cpp`: the head unit sends requests over an
encrypted connection of its own, and each of them is handed over and answered.  Three
framings are stacked here: what `recv` returns, the encrypted frames in it, and the
requests in their plaintexts.

`parseEvent` is what the loop over the header lines finds out about the plaintext that has
arrived; `serviceFrame` is one turn of the inner loop, for one decrypted frame.
-/

namespace Aa2acp
namespace Airplay

open Text

def maximumEncryptedEventBuffer : ℕ := 2 * 1024 * 1024

def maximumEventBytes : ℕ := 1024 * 1024

def maximumEventHeaders : ℕ := 64 * 1024

/-- The empty line that ends the headers, with the end of the line before it. -/
def headerEndMark : Bytes := ascii "\r\n\r\n"

/-- What the loop over the header lines keeps. -/
structure EventHeaders where
  cseq : Bytes := []
  bodySize : ℕ := 0
  contentLengthSeen : Bool := false
  malformed : Bool := false
deriving DecidableEq

/-- The loop over the header lines; it ends at the first bad `Content-Length`. -/
def readEventHeaders : EventHeaders → List Bytes → EventHeaders
  | headers, [] => headers
  | headers, line :: lines =>
      let line := popReturn line
      match find (ascii ":") line with
      | none => readEventHeaders headers lines
      | some separator =>
          let name := lower (line.take separator)
          let value := trim (line.drop (separator + 1))
          -- the last `CSeq` counts, but only one `Content-Length` is allowed
          if name = ascii "cseq" then readEventHeaders { headers with cseq := value } lines
          else if name = ascii "content-length" then
            if headers.contentLengthSeen then { headers with malformed := true }
            else
              match fromChars (2 ^ 64) value with
              | some (parsed, []) =>
                  if parsed > maximumEventBytes then
                    { headers with contentLengthSeen := true, malformed := true }
                  else
                    readEventHeaders { headers with contentLengthSeen := true, bodySize := parsed } lines
              | _ => { headers with contentLengthSeen := true, malformed := true }
          else readEventHeaders headers lines

/-- A whole request at the front of the plaintext. -/
structure EventRequest where
  headerEnd : ℕ
  bodySize : ℕ
  cseq : Bytes
deriving DecidableEq

namespace EventRequest

def bodyStart (request : EventRequest) : ℕ := request.headerEnd + 4

def size (request : EventRequest) : ℕ := request.bodyStart + request.bodySize

end EventRequest

inductive EventParse
  /-- More frames are needed. -/
  | incomplete
  /-- The connection is closed. -/
  | refused
  | request (request : EventRequest)
deriving DecidableEq

/-- What the plaintext that has arrived begins with. -/
def parseEvent (plaintext : Bytes) : EventParse :=
  match find headerEndMark plaintext with
  | none => if plaintext.length > maximumEventHeaders then .refused else .incomplete
  | some headerEnd =>
      if headerEnd > maximumEventHeaders then .refused
      else
        let headers := readEventHeaders {} (getLines (plaintext.take headerEnd))
        let request : EventRequest := ⟨headerEnd, headers.bodySize, headers.cseq⟩
        -- a request must say how long its body is
        if ¬ headers.contentLengthSeen ∨ headers.malformed ∨ headers.bodySize > maximumEventBytes ∨
            request.bodyStart > maximumEventBytes - headers.bodySize then .refused
        else if plaintext.length < request.size then .incomplete
        else .request request

def eventResponse (cseq : Bytes) : Bytes :=
  ascii "HTTP/1.1 200 OK\r\nContent-Length: 0\r\nAudio-Latency: 0\r\n" ++
    (if cseq = [] then [] else ascii "CSeq:" ++ cseq ++ ascii "\r\n") ++ ascii "\r\n"

/-- What lies outside: the cipher, and whether `send_all` got the bytes out. -/
structure EventEnv where
  aead : Aead
  sendAll : Bytes → Bool

/-- The variables of `service_event_channel`, what it has handed over and what it has sent. -/
structure EventChannel where
  cipher : ControlCipher
  encryptedBuffer : Bytes := []
  plaintext : Bytes := []
  received : List Bytes := []
  sent : List Bytes := []
  closed : Bool := false
deriving DecidableEq

namespace EventChannel

/-- A request is handed over, answered and erased. -/
def answer (env : EventEnv) (channel : EventChannel) (request : EventRequest) : EventChannel :=
  let channel := { channel with received := channel.received ++ [channel.plaintext.take request.size] }
  -- it was handed over before the answer is encrypted
  match channel.cipher.encrypt env.aead (eventResponse request.cseq) with
  | (none, cipher) => { channel with cipher, closed := true }
  | (some encrypted, cipher) =>
      if env.sendAll encrypted then
        { channel with
          cipher
          sent := channel.sent ++ [encrypted]
          plaintext := channel.plaintext.drop request.size }
      else { channel with cipher, closed := true }

/-- The rest of a turn of the inner loop, for a frame that is not empty. -/
def serviceFrame (env : EventEnv) (channel : EventChannel) (frame : Bytes) : EventChannel :=
  -- `maximumEventBytes - min(...)`: the subtraction cannot wrap around
  if frame.length > maximumEventBytes - min channel.plaintext.length maximumEventBytes then
    { channel with closed := true }
  else
    let channel := { channel with plaintext := channel.plaintext ++ frame }
    match parseEvent channel.plaintext with
    | .incomplete => channel
    | .refused => { channel with closed := true }
    | .request request => channel.answer env request

@[simp] theorem answer_encryptedBuffer (env : EventEnv) (channel : EventChannel)
    (request : EventRequest) : (channel.answer env request).encryptedBuffer = channel.encryptedBuffer := by
  unfold answer
  dsimp only
  split
  · rfl
  · split <;> rfl

@[simp] theorem serviceFrame_encryptedBuffer (env : EventEnv) (channel : EventChannel) (frame : Bytes) :
    (channel.serviceFrame env frame).encryptedBuffer = channel.encryptedBuffer := by
  unfold serviceFrame
  split
  · rfl
  · dsimp only
    split
    · rfl
    · rfl
    · exact answer_encryptedBuffer _ _ _

/-- The inner loop: one frame after the other, until the next one is not there as a whole. -/
def serviceFrames (env : EventEnv) (channel : EventChannel) : EventChannel :=
  match _h : channel.cipher.decryptOne env.aead channel.encryptedBuffer with
  | (none, cipher, encryptedBuffer) => { channel with cipher, encryptedBuffer, closed := true }
  | (some [], cipher, encryptedBuffer) => { channel with cipher, encryptedBuffer }
  | (some (byte :: bytes), cipher, encryptedBuffer) =>
      -- the frame is out of the buffer before it is handled
      let next := serviceFrame env { channel with cipher, encryptedBuffer } (byte :: bytes)
      if next.closed then next else serviceFrames env next
termination_by channel.encryptedBuffer.length
decreasing_by
  rw [serviceFrame_encryptedBuffer]
  exact ControlCipher.length_decryptOne_lt _h (List.cons_ne_nil _ _)

section Turns

variable {env : EventEnv} {channel : EventChannel} {cipher : ControlCipher}
  {frame encryptedBuffer : Bytes}

/-- The loop with its first turn. -/
theorem serviceFrames_eq (channel : EventChannel) :
    channel.serviceFrames env =
      match channel.cipher.decryptOne env.aead channel.encryptedBuffer with
      | (none, cipher, encryptedBuffer) => { channel with cipher, encryptedBuffer, closed := true }
      | (some [], cipher, encryptedBuffer) => { channel with cipher, encryptedBuffer }
      | (some (byte :: bytes), cipher, encryptedBuffer) =>
          let next := serviceFrame env { channel with cipher, encryptedBuffer } (byte :: bytes)
          if next.closed then next else serviceFrames env next := by
  conv => left; rw [serviceFrames]
  split
  · rename_i hnone
    rw [hnone]
  · rename_i hempty
    rw [hempty]
  · rename_i hsome
    rw [hsome]

theorem serviceFrames_of_error
    (h : channel.cipher.decryptOne env.aead channel.encryptedBuffer = (none, cipher, encryptedBuffer)) :
    channel.serviceFrames env = { channel with cipher, encryptedBuffer, closed := true } := by
  rw [serviceFrames_eq, h]

theorem serviceFrames_of_empty
    (h : channel.cipher.decryptOne env.aead channel.encryptedBuffer = (some [], cipher, encryptedBuffer)) :
    channel.serviceFrames env = { channel with cipher, encryptedBuffer } := by
  rw [serviceFrames_eq, h]

theorem serviceFrames_of_frame
    (h : channel.cipher.decryptOne env.aead channel.encryptedBuffer =
      (some frame, cipher, encryptedBuffer)) (hframe : frame ≠ []) :
    channel.serviceFrames env =
      let next := serviceFrame env { channel with cipher, encryptedBuffer } frame
      if next.closed then next else next.serviceFrames env := by
  obtain ⟨byte, bytes, rfl⟩ := List.exists_cons_of_ne_nil hframe
  rw [serviceFrames_eq channel, h]

end Turns

/-- A turn of the outer loop, for what `recv` returned. -/
def serviceChunk (env : EventEnv) (channel : EventChannel) (chunk : Bytes) : EventChannel :=
  if chunk.length > maximumEncryptedEventBuffer -
      min channel.encryptedBuffer.length maximumEncryptedEventBuffer then
    { channel with closed := true }
  else
    let channel := { channel with encryptedBuffer := channel.encryptedBuffer ++ chunk }
    if channel.encryptedBuffer.length > maximumEncryptedEventBuffer then
      { channel with closed := true }
    else serviceFrames env channel

/-- One result of `recv` after the other, as long as the connection is open. -/
def serviceEventChannel (env : EventEnv) : EventChannel → List Bytes → EventChannel
  | channel, [] => channel
  | channel, chunk :: chunks =>
      let next := serviceChunk env channel chunk
      if next.closed then next else serviceEventChannel env next chunks

end EventChannel

/-! ## Reading a request -/

variable {plaintext more : Bytes} {request : EventRequest}

/-- The headers of a request are complete, name the size of its body once and are within
the limits, and the body is there. -/
theorem parseEvent_eq_request : parseEvent plaintext = .request request ↔
    find headerEndMark plaintext = some request.headerEnd ∧
      request.headerEnd ≤ maximumEventHeaders ∧
      readEventHeaders {} (getLines (plaintext.take request.headerEnd)) =
        ⟨request.cseq, request.bodySize, true, false⟩ ∧
      request.size ≤ maximumEventBytes ∧ request.size ≤ plaintext.length := by
  have hsize : ∀ other : EventRequest, other.size ≤ maximumEventBytes ↔
      ¬ (other.bodySize > maximumEventBytes ∨ other.bodyStart > maximumEventBytes - other.bodySize) := by
    intro other
    unfold EventRequest.size
    omega
  unfold parseEvent
  constructor
  · intro h
    split at h
    · split at h <;> cases h
    · rename_i headerEnd hfind
      split at h
      · cases h
      · rename_i hheaders
        cases hread : readEventHeaders {} (getLines (plaintext.take headerEnd)) with
        | mk cseq bodySize seen malformed =>
            rw [hread] at h
            dsimp only at h
            split at h
            · cases h
            · rename_i hgood
              split at h
              · cases h
              -- every check was passed
              · rename_i hwhole
                cases h
                push Not at hgood
                obtain ⟨rfl, hmalformed, hbody, hstart⟩ := hgood
                obtain rfl : malformed = false := Bool.eq_false_of_not_eq_true hmalformed
                refine ⟨hfind, Nat.le_of_not_lt hheaders, hread, ?_, Nat.le_of_not_lt hwhole⟩
                apply (hsize _).mpr
                rintro (hlarge | hlarge)
                · exact absurd hlarge (Nat.not_lt.mpr hbody)
                · exact absurd hlarge (Nat.not_lt.mpr hstart)
  · rintro ⟨hfind, hheaders, hread, hlimit, hwhole⟩
    have hparts := (hsize request).mp hlimit
    rw [hfind]
    dsimp only
    rw [if_neg (Nat.not_lt.mpr hheaders), hread]
    dsimp only
    rw [if_neg, if_neg (Nat.not_lt.mpr hwhole)]
    rintro (hseen | hmalformed | hbody | hstart)
    · exact hseen rfl
    · cases hmalformed
    · exact hparts (Or.inl hbody)
    · exact hparts (Or.inr hstart)

/-- These bytes are a request and nothing else. -/
def Framed (bytes : Bytes) : Prop :=
  ∃ request, parseEvent bytes = .request request ∧ bytes.length = request.size

theorem length_headerEndMark : headerEndMark.length = 4 := rfl

/-- What follows a request does not change how it is read. -/
theorem parseEvent_append (h : parseEvent plaintext = .request request) (more : Bytes) :
    parseEvent (plaintext ++ more) = .request request := by
  obtain ⟨hfind, hheaders, hread, hlimit, hwhole⟩ := parseEvent_eq_request.mp h
  -- the headers lie in the first part as a whole
  have hle := find_le hfind
  rw [length_headerEndMark] at hle
  apply parseEvent_eq_request.mpr
  refine ⟨find_append hfind more, hheaders, ?_, hlimit, ?_⟩
  · rw [List.take_append_of_le_length (by omega)]
    exact hread
  · rw [List.length_append]
    omega

/-- The bytes that are handed over read as the same request. -/
theorem parseEvent_take (h : parseEvent plaintext = .request request) :
    parseEvent (plaintext.take request.size) = .request request := by
  obtain ⟨hfind, hheaders, hread, hlimit, hwhole⟩ := parseEvent_eq_request.mp h
  have hsize : request.headerEnd + 4 ≤ request.size := Nat.le_add_right _ _
  apply parseEvent_eq_request.mpr
  refine ⟨find_take hfind hsize, hheaders, ?_, hlimit, ?_⟩
  · rw [List.take_take, min_eq_left (by omega)]
    exact hread
  · rw [List.length_take, min_eq_left hwhole]

/-- While a part of a request is missing, the loop waits, unless more than 64 KiB have come
without the end of the headers. -/
theorem parseEvent_incomplete (h : parseEvent (plaintext ++ more) = .request request)
    (hlt : plaintext.length < request.size) :
    parseEvent plaintext =
      if plaintext.length < request.bodyStart ∧ plaintext.length > maximumEventHeaders then .refused
      else .incomplete := by
  obtain ⟨hfind, hheaders, hread, hlimit, -⟩ := parseEvent_eq_request.mp h
  by_cases hstart : plaintext.length < request.bodyStart
  -- what is there ends before the empty line does
  · have hnone := find_eq_none_of_append hfind (by rw [length_headerEndMark]; exact hstart)
    unfold parseEvent
    rw [hnone]
    simp only [hstart, true_and]
  · -- the headers have come whole, and they are the ones of the request
    have hfront := find_of_append hfind (by
      rw [length_headerEndMark]
      exact Nat.le_of_not_lt hstart)
    have hle : request.headerEnd ≤ plaintext.length := by
      unfold EventRequest.bodyStart at hstart
      omega
    rw [List.take_append_of_le_length hle] at hread
    rw [if_neg (fun hboth => hstart hboth.1)]
    unfold parseEvent
    rw [hfront]
    dsimp only
    rw [if_neg (Nat.not_lt.mpr hheaders), hread]
    dsimp only
    rw [if_neg, if_pos hlt]
    unfold EventRequest.size EventRequest.bodyStart at hlimit
    unfold EventRequest.bodyStart
    dsimp only
    rintro (hseen | hmalformed | hbody | hroom)
    · exact hseen rfl
    · cases hmalformed
    · omega
    · omega

end Airplay
end Aa2acp
