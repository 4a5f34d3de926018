import Aa2acp.Lib.Text

/-!
# RTSP messages

`airplay/rtsp.cpp`: requests, responses and the type-length-value items in the bodies of
the pairing.  Positions in a text are natural numbers; the loop over the header lines of a
response counts its cursor up to the end of the headers.
-/

namespace Aa2acp
namespace Airplay

open Text

/-- `std::to_string`. -/
def decimal (value : ℤ) : Bytes := ascii (toString value)

def encodeRequest (method path : Bytes) (cseq : ℤ) (body contentType : Bytes)
    (additionalHeaders : List (Bytes × Bytes)) : Bytes :=
  -- a `User-Agent` of the caller replaces the default one
  let hasUserAgent := additionalHeaders.any fun header => lower header.1 = ascii "user-agent"
  method ++ ascii " " ++ path ++ ascii " RTSP/1.0\r\n" ++ ascii "CSeq: " ++ decimal cseq ++
    ascii "\r\n" ++ (if hasUserAgent then [] else ascii "User-Agent: AA2ACP/0.1\r\n") ++
    (additionalHeaders.map fun header => header.1 ++ ascii ": " ++ header.2 ++ ascii "\r\n").flatten ++
    (if contentType = [] then [] else ascii "Content-Type: " ++ contentType ++ ascii "\r\n") ++
    ascii "Content-Length: " ++ decimal body.length ++ ascii "\r\n\r\n" ++ body

/-- The end of a header line. -/
def lineEndMark : Bytes := ascii "\r\n"

/-- The end of the last header line, and the empty line. -/
def responseHeaderEnd : Bytes := ascii "\r\n\r\n"

def contentLengthNotSet : ℕ := 2 ^ 64 - 1

def maxContentLength : ℕ := 1024 * 1024

/-- What a header line of a response does to the content length; no value when the response
is refused for it. -/
def lengthAfterLine (contentLength : ℕ) (line : Bytes) : Option ℕ :=
  match find (ascii ":") line with
  | none => some contentLength
  | some colon =>
      if lower (line.take colon) = ascii "content-length" then
        -- a second `Content-Length` is refused
        if contentLength ≠ contentLengthNotSet then none
        else
          match fromChars (2 ^ 64) (trim (line.drop (colon + 1))) with
          | some (parsed, []) => some parsed
          | _ => none
      else some contentLength

/-- The loop over the header lines from the cursor on. -/
def readContentLength (text : Bytes) (headerEnd cursor contentLength : ℕ) : Option ℕ :=
  if cursor < headerEnd then
    match find lineEndMark (text.drop cursor) with
    | none => lengthAfterLine contentLength ((text.drop cursor).take (headerEnd - cursor))
    | some length =>
        match lengthAfterLine contentLength ((text.drop cursor).take length) with
        | none => none
        | some contentLength => readContentLength text headerEnd (cursor + length + 2) contentLength
  else some contentLength
termination_by headerEnd - cursor

/-- A response without the header has no body. -/
def bodyLength (contentLength : ℕ) : ℕ :=
  if contentLength = contentLengthNotSet then 0 else contentLength

def completeResponseSize (bytes : Bytes) : Option ℕ :=
  match find responseHeaderEnd bytes with
  | none => none
  | some headerEnd =>
      match readContentLength bytes headerEnd 0 contentLengthNotSet with
      | none => none
      | some contentLength =>
          let contentLength := bodyLength contentLength
          if contentLength > maxContentLength then none
          else
            let bodyStart := headerEnd + 4
            if bytes.length - bodyStart < contentLength then none else some (bodyStart + contentLength)

structure Response where
  status : ℤ
  /-- A `std::map` from the lower-case names. -/
  headers : List (Bytes × Bytes)
  body : Bytes
deriving DecidableEq

namespace Response

/-- `headers.find(name)`. -/
def header (response : Response) (name : Bytes) : Option Bytes :=
  (response.headers.find? fun entry => entry.1 = name).map Prod.snd

end Response

/-- `emplace`: the first header of a name stays. -/
def addHeader (headers : List (Bytes × Bytes)) (name value : Bytes) : List (Bytes × Bytes) :=
  if headers.any fun entry => entry.1 = name then headers else headers ++ [(name, value)]

/-- The loop over the header lines; up to the end of the headers every line has an end. -/
def readHeaders (text : Bytes) (headerEnd cursor : ℕ) (headers : List (Bytes × Bytes)) :
    List (Bytes × Bytes) :=
  if cursor < headerEnd then
    match find lineEndMark (text.drop cursor) with
    | none => headers
    | some length =>
        let line := (text.drop cursor).take length
        let headers :=
          match find (ascii ":") line with
          | none => headers
          | some colon =>
              addHeader headers (lower (trim (line.take colon))) (trim (line.drop (colon + 1)))
        readHeaders text headerEnd (cursor + length + 2) headers
  else headers
termination_by headerEnd - cursor

/-- `parse_response` on the bytes of one whole response. -/
def parseWhole (text : Bytes) : Option Response :=
  match find responseHeaderEnd text, find lineEndMark text with
  | some headerEnd, some lineEnd =>
      if ¬ (ascii "RTSP/1.0 ").isPrefixOf text then none
      else
        -- behind `RTSP/1.0 ` and up to the reason phrase
        let statusText := (text.drop 9).take (lineEnd - 9)
        let statusNumber :=
          match find (ascii " ") statusText with
          | none => statusText
          | some space => statusText.take space
        match fromCharsInt statusNumber with
        | some (status, []) =>
            some ⟨status, readHeaders text headerEnd (lineEnd + 2) [], text.drop (headerEnd + 4)⟩
        | _ => none
  | _, _ => none

def parseResponse (bytes : Bytes) : Option Response :=
  match completeResponseSize bytes with
  | none => none
  | some fullSize => parseWhole (bytes.take fullSize)

/-- One value in items of at most 255 bytes. -/
def encodeItem (type : UInt8) (value : Bytes) : Bytes :=
  (value.toChunks 255).flatMap fun part => type :: UInt8.ofNat part.length :: part

def encodeTlv8 (fields : List (UInt8 × Bytes)) : Bytes :=
  fields.flatMap fun field => encodeItem field.1 field.2

/-- `result[type].insert(end, ...)`. -/
def appendItem (items : List (UInt8 × Bytes)) (type : UInt8) (value : Bytes) : List (UInt8 × Bytes) :=
  if items.any fun item => item.1 = type then
    items.map fun item => if item.1 = type then (item.1, item.2 ++ value) else item
  else items ++ [(type, value)]

/-- The loop of `decode_tlv8`; nothing is returned when an item is cut off. -/
def decodeItems (items : List (UInt8 × Bytes)) : Bytes → List (UInt8 × Bytes)
  | type :: size :: rest =>
      if rest.length < size.toNat then []
      else decodeItems (appendItem items type (rest.take size.toNat)) (rest.drop size.toNat)
  | _ => items
termination_by bytes => bytes.length
decreasing_by
  rw [List.length_drop, List.length_cons, List.length_cons]
  omega

def decodeTlv8 (bytes : Bytes) : List (UInt8 × Bytes) := decodeItems [] bytes

/-! ## What follows a response -/

variable {text more : Bytes} {headerEnd : ℕ}

/-- Every line that begins before the end of the headers ends there or before. -/
theorem find_lineEnd (h : find responseHeaderEnd text = some headerEnd) {cursor : ℕ}
    (hcursor : cursor < headerEnd) :
    ∃ length ≤ headerEnd - cursor, find lineEndMark (text.drop cursor) = some length := by
  -- the empty line begins with the end of a line
  have hlines : responseHeaderEnd = lineEndMark ++ lineEndMark := by decide
  rw [hlines] at h
  exact find_drop_of_find h (Nat.le_of_lt hcursor)

/-- A line before the end of the headers is the same whatever follows. -/
theorem find_line_append (h : find responseHeaderEnd text = some headerEnd) (more : Bytes)
    {cursor length : ℕ} (hcursor : cursor < headerEnd)
    (hlength : find lineEndMark (text.drop cursor) = some length) :
    find lineEndMark ((text ++ more).drop cursor) = some length ∧
      ((text ++ more).drop cursor).take length = (text.drop cursor).take length := by
  have hheaders := find_le h
  have hdrop : (text ++ more).drop cursor = text.drop cursor ++ more :=
    List.drop_append_of_le_length (by omega)
  -- the line and its end lie in the first part
  have hle := find_le hlength
  rw [hdrop]
  exact ⟨find_append hlength more, List.take_append_of_le_length (by omega)⟩

theorem readContentLength_append (h : find responseHeaderEnd text = some headerEnd) (more : Bytes)
    (cursor contentLength : ℕ) :
    readContentLength (text ++ more) headerEnd cursor contentLength =
      readContentLength text headerEnd cursor contentLength := by
  induction cursor, contentLength using readContentLength.induct text headerEnd with
  | case1 cursor contentLength hcursor hnone =>
      -- every line before the end of the headers has an end
      obtain ⟨length, -, hlength⟩ := find_lineEnd h hcursor
      rw [hnone] at hlength
      cases hlength
  | case2 cursor contentLength hcursor length hlength hrefused =>
      obtain ⟨hfind, hline⟩ := find_line_append h more hcursor hlength
      conv => left; unfold readContentLength
      conv => right; unfold readContentLength
      rw [if_pos hcursor, if_pos hcursor, hfind, hlength]
      dsimp only
      rw [hline, hrefused]
  | case3 cursor contentLength hcursor length hlength parsed hparsed ih =>
      obtain ⟨hfind, hline⟩ := find_line_append h more hcursor hlength
      conv => left; unfold readContentLength
      conv => right; unfold readContentLength
      rw [if_pos hcursor, if_pos hcursor, hfind, hlength]
      dsimp only
      rw [hline, hparsed]
      exact ih
  | case4 cursor contentLength hcursor =>
      conv => left; unfold readContentLength
      conv => right; unfold readContentLength
      rw [if_neg hcursor, if_neg hcursor]

/-- The headers of a response are complete, and its body is there. -/
theorem completeResponseSize_eq_some {size : ℕ} : completeResponseSize text = some size ↔
    ∃ headerEnd contentLength, find responseHeaderEnd text = some headerEnd ∧
      (readContentLength text headerEnd 0 contentLengthNotSet).map bodyLength = some contentLength ∧
      contentLength ≤ maxContentLength ∧ size = headerEnd + 4 + contentLength ∧
      size ≤ text.length := by
  unfold completeResponseSize
  constructor
  · intro h
    split at h
    · cases h
    · rename_i headerEnd hfind
      have hheaders : headerEnd + 4 ≤ text.length := find_le hfind
      split at h
      · cases h
      · rename_i length hread
        dsimp only at h
        split at h
        · cases h
        · rename_i hlimit
          split at h
          · cases h
          · rename_i hbody
            cases h
            exact ⟨headerEnd, _, hfind, by rw [hread]; rfl, Nat.le_of_not_lt hlimit, rfl, by omega⟩
  · rintro ⟨headerEnd, contentLength, hfind, hread, hlimit, rfl, hsize⟩
    obtain ⟨length, hlength, rfl⟩ := Option.map_eq_some_iff.mp hread
    rw [hfind]
    dsimp only
    rw [hlength]
    dsimp only
    rw [if_neg (Nat.not_lt.mpr hlimit), if_neg (by omega)]

/-- What follows a response does not change its size. -/
theorem completeResponseSize_append {size : ℕ} (h : completeResponseSize text = some size)
    (more : Bytes) : completeResponseSize (text ++ more) = some size := by
  obtain ⟨headerEnd, contentLength, hfind, hread, hlimit, hsize, hle⟩ :=
    completeResponseSize_eq_some.mp h
  apply completeResponseSize_eq_some.mpr
  refine ⟨headerEnd, contentLength, find_append hfind more, ?_, hlimit, hsize, ?_⟩
  · rw [readContentLength_append hfind]
    exact hread
  · rw [List.length_append]
    omega

/-- A response of which a part is missing is not complete. -/
theorem completeResponseSize_incomplete {size : ℕ} (h : completeResponseSize (text ++ more) = some size)
    (hlt : text.length < size) : completeResponseSize text = none := by
  cases hcomplete : completeResponseSize text with
  | none => rfl
  | some other =>
      have hle := (completeResponseSize_eq_some.mp hcomplete)
      obtain ⟨_, _, -, -, -, -, hother⟩ := hle
      -- a complete response would stay complete, with a smaller size
      have hsame := completeResponseSize_append hcomplete more
      rw [h] at hsame
      cases hsame
      omega

/-- A whole response is read the same whatever follows. -/
theorem parseResponse_append (h : completeResponseSize text = some text.length) (more : Bytes) :
    parseResponse (text ++ more) = parseResponse text := by
  unfold parseResponse
  rw [completeResponseSize_append h more, h]
  dsimp only
  rw [List.take_left, List.take_length]

end Airplay
end Aa2acp
