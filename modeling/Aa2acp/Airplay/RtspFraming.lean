import Aa2acp.Airplay.Rtsp
import Aa2acp.Lib.Scanner

/-!
# Responses in a stream

`complete_response_size` and `parse_response` are called again and again on a buffer that
grows.  Where a response ends and what it says depends only on the response itself
(`parseResponse_take`), so a reader gets the same responses from any chunks of a stream
(`readResponses_eq`), and from the responses one after the other each of them as if it had
come alone (`readResponses_flatten`).
-/

namespace Aa2acp
namespace Airplay

open Text

variable {text : Bytes} {size : ℕ}

theorem size_le_length (h : completeResponseSize text = some size) : size ≤ text.length := by
  obtain ⟨_, _, -, -, -, -, hle⟩ := completeResponseSize_eq_some.mp h
  exact hle

/-- The empty line is there. -/
theorem size_pos (h : completeResponseSize text = some size) : 0 < size := by
  obtain ⟨headerEnd, contentLength, -, -, -, rfl, -⟩ := completeResponseSize_eq_some.mp h
  omega

/-- A response is complete without what follows it. -/
theorem completeResponseSize_take (h : completeResponseSize text = some size) :
    completeResponseSize (text.take size) = some size := by
  obtain ⟨headerEnd, contentLength, hfind, hread, hlimit, hsize, hle⟩ :=
    completeResponseSize_eq_some.mp h
  have hfindTake : find responseHeaderEnd (text.take size) = some headerEnd := by
    apply find_take hfind
    show headerEnd + 4 ≤ size
    omega
  apply completeResponseSize_eq_some.mpr
  refine ⟨headerEnd, contentLength, hfindTake, ?_, hlimit, hsize, ?_⟩
  · rw [← hread, ← readContentLength_append hfindTake (text.drop size), List.take_append_drop]
  · rw [List.length_take]
    omega

theorem parseResponse_take (h : completeResponseSize text = some size) :
    parseResponse (text.take size) = parseResponse text := by
  have htake := completeResponseSize_take h
  have hlength : (text.take size).length = size := by
    rw [List.length_take]
    exact Nat.min_eq_left (size_le_length h)
  rw [← parseResponse_append (by rw [htake, hlength]) (text.drop size), List.take_append_drop]

/-- What follows a response does not change what it says. -/
theorem parseResponse_append_of_complete (h : completeResponseSize text = some size) (more : Bytes) :
    parseResponse (text ++ more) = parseResponse text := by
  rw [← parseResponse_take (completeResponseSize_append h more),
    List.take_append_of_le_length (size_le_length h), parseResponse_take h]

/-- Before its last byte a response is not complete. -/
theorem completeResponseSize_take_of_lt (h : completeResponseSize text = some size) {count : ℕ}
    (hlt : count < size) : completeResponseSize (text.take count) = none := by
  rw [← List.take_append_drop count text] at h
  apply completeResponseSize_incomplete h
  rw [List.length_take]
  omega

/-! ## A reader -/

/-- The response at the front of the buffer is parsed, and taken out of it. -/
def lookResponse (responses : List (Option Response)) (buffer : Bytes) :
    Option (ℕ × List (Option Response)) :=
  (completeResponseSize buffer).map fun size => (size, responses ++ [parseResponse buffer])

theorem lookResponse_eq_some {responses responses' : List (Option Response)}
    (h : lookResponse responses text = some (size, responses')) :
    completeResponseSize text = some size ∧ responses' = responses ++ [parseResponse text] := by
  obtain ⟨other, hsize, heq⟩ := Option.map_eq_some_iff.mp h
  cases heq
  exact ⟨hsize, rfl⟩

def responseScanner : Scanner (List (Option Response)) UInt8 where
  look := lookResponse
  progress := by
    intro responses buffer size responses' h
    obtain ⟨hsize, -⟩ := lookResponse_eq_some h
    exact ⟨size_pos hsize, size_le_length hsize⟩
  stable := by
    intro responses buffer size responses' more h
    obtain ⟨hsize, rfl⟩ := lookResponse_eq_some h
    unfold lookResponse
    rw [completeResponseSize_append hsize more, parseResponse_append_of_complete hsize more]
    rfl

/-- The responses read from chunks that arrive one after the other, and what is left over. -/
def readResponses (chunks : List Bytes) : List (Option Response) × Bytes :=
  responseScanner.feed ([], []) chunks

/-- The chunks do not matter. -/
theorem readResponses_eq (chunks : List Bytes) :
    readResponses chunks = responseScanner.drain [] chunks.flatten := by
  have hstart : responseScanner.drain [] [] = ([], []) := responseScanner.drain_of_none rfl
  have hfeed := responseScanner.feed_eq_drain [] [] chunks
  rw [hstart] at hfeed
  exact hfeed

theorem drain_whole (h : completeResponseSize text = some text.length)
    (responses : List (Option Response)) (more : Bytes) :
    responseScanner.drain responses (text ++ more) =
      responseScanner.drain (responses ++ [parseResponse text]) more := by
  have hlook : responseScanner.look responses (text ++ more) =
      some (text.length, responses ++ [parseResponse text]) := by
    apply responseScanner.stable more
    show lookResponse responses text = _
    unfold lookResponse
    rw [h]
    rfl
  rw [responseScanner.drain_of_some hlook, List.drop_left]

/-- Whole responses one after the other are read as each of them alone. -/
theorem readResponses_flatten {texts chunks : List Bytes}
    (hwhole : ∀ text ∈ texts, completeResponseSize text = some text.length)
    (hchunks : chunks.flatten = texts.flatten) :
    readResponses chunks = (texts.map parseResponse, []) := by
  have hdrain : ∀ responses : List (Option Response),
      responseScanner.drain responses texts.flatten = (responses ++ texts.map parseResponse, []) := by
    clear hchunks
    induction texts with
    | nil =>
        intro responses
        rw [List.map_nil, List.append_nil]
        exact responseScanner.drain_of_none rfl
    | cons text texts ih =>
        intro responses
        rw [List.flatten_cons, drain_whole (hwhole text List.mem_cons_self),
          ih (fun other hother => hwhole other (List.mem_cons_of_mem _ hother)), List.map_cons,
          List.append_assoc, List.singleton_append]
  rw [readResponses_eq, hchunks, hdrain, List.nil_append]

/-- The end of a response and its content do not depend on what follows, nothing before its
last byte is a response, and the chunks in which a stream arrives do not change what is
read. -/
theorem response_framing :
    (∀ text size, completeResponseSize text = some size →
      size ≤ text.length ∧
      (∀ part, part <+: text → part.length < size → completeResponseSize part = none) ∧
      parseResponse text = parseResponse (text.take size) ∧
      ∀ more, completeResponseSize (text ++ more) = some size ∧
        parseResponse (text ++ more) = parseResponse text) ∧
    (∀ chunks, readResponses chunks = readResponses [chunks.flatten]) ∧
    (∀ texts chunks : List Bytes, (∀ text ∈ texts, completeResponseSize text = some text.length) →
      chunks.flatten = texts.flatten → readResponses chunks = (texts.map parseResponse, [])) := by
  refine ⟨fun text size h => ⟨size_le_length h, ?_, (parseResponse_take h).symm, fun more =>
    ⟨completeResponseSize_append h more, parseResponse_append_of_complete h more⟩⟩, ?_,
    fun texts chunks hwhole hchunks => readResponses_flatten hwhole hchunks⟩
  · rintro part hpart hlt
    rw [List.prefix_iff_eq_take.mp hpart]
    exact completeResponseSize_take_of_lt h hlt
  · intro chunks
    rw [readResponses_eq, readResponses_eq, List.flatten_singleton]

/-- A response whose body looks like the end of headers. -/
def endsTwice : Bytes := ascii "RTSP/1.0 200 OK\r\nContent-Length: 5\r\n\r\nx\r\n\r\n"

/-- It ends behind its body, and the response behind it is read from any chunks. -/
theorem response_framing_endsTwice :
    parseResponse (endsTwice ++ ascii "RTSP") =
        some ⟨200, [(ascii "content-length", ascii "5")], ascii "x\r\n\r\n"⟩ ∧
      completeResponseSize (endsTwice.take 42) = none ∧
      readResponses [endsTwice.take 20, endsTwice.drop 20 ++ ascii "RTSP/1.0 404 Not Found\r\n\r\n"] =
        ([some ⟨200, [(ascii "content-length", ascii "5")], ascii "x\r\n\r\n"⟩, some ⟨404, [], []⟩],
          []) := by
  have hparse : parseResponse endsTwice =
      some ⟨200, [(ascii "content-length", ascii "5")], ascii "x\r\n\r\n"⟩ := by decide +kernel
  obtain ⟨-, hprefix, -, hmore⟩ := response_framing.1 endsTwice 43 (by decide +kernel)
  refine ⟨(hmore _).2.trans hparse, hprefix _ (List.take_prefix 42 endsTwice) (by decide +kernel), ?_⟩
  refine (response_framing.2.2 [endsTwice, ascii "RTSP/1.0 404 Not Found\r\n\r\n"] _
    (by decide +kernel) (by decide +kernel)).trans ?_
  rw [List.map_cons, hparse]
  decide +kernel

end Airplay
end Aa2acp
