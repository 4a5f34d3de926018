import Aa2acp.Bridge.ManagementUi

/-!
# How a request arrives

The read loop of `handle_client` in `src/bridge_daemon_main.cpp` calls `frame_http_request`
each time more of a request has arrived.  A complete request is not read differently for
what follows it, and it is complete at its last byte only; but the limit on the headers
counts bytes before the empty line has been seen and the bytes before it afterwards, so a
request whose headers almost reach the limit is refused when a call of `recv` returns a
part of its empty line.
-/

namespace Aa2acp
namespace Bridge
namespace Management

open Text

/-- The end of the last header line, and the empty line. -/
def emptyLine : Bytes := ascii "\r\n\r\n"

/-! ## The header lines -/

section Headers

variable {request : Bytes} {headerEnd : ℕ}

theorem findFrom_lineEnd (h : find emptyLine request = some headerEnd) {lineStart : ℕ}
    (hstart : lineStart < headerEnd) :
    ∃ lineEnd, lineStart ≤ lineEnd ∧ lineEnd ≤ headerEnd ∧
      ∀ more, findFrom (ascii "\r\n") lineStart (request ++ more) = some lineEnd := by
  have hlines : emptyLine = ascii "\r\n" ++ ascii "\r\n" := by decide
  have hheaders : headerEnd + 4 ≤ request.length := find_le h
  rw [hlines] at h
  obtain ⟨length, hle, hlength⟩ := find_drop_of_find h (Nat.le_of_lt hstart)
  refine ⟨length + lineStart, by omega, by omega, fun more => ?_⟩
  rw [findFrom, List.drop_append_of_le_length (by omega), find_append hlength]
  rfl

/-- The header lines are read the same whatever follows the empty line. -/
theorem readHeaderLines_append (h : find emptyLine request = some headerEnd) (more : Bytes)
    {fuel fuel' lineStart : ℕ} (hfuel : headerEnd ≤ lineStart + fuel)
    (hfuel' : headerEnd ≤ lineStart + fuel') (bodySize : Option ℕ) :
    readHeaderLines (request ++ more) headerEnd fuel' lineStart bodySize =
      readHeaderLines request headerEnd fuel lineStart bodySize := by
  induction fuel generalizing fuel' lineStart bodySize with
  | zero =>
      -- the lines are all read
      have hend : ¬ lineStart < headerEnd := by omega
      cases fuel' with
      | zero => rfl
      | succ fuel' => rw [readHeaderLines, readHeaderLines, if_neg hend]
  | succ fuel ih =>
      by_cases hstart : lineStart < headerEnd
      · obtain ⟨fuel', rfl⟩ : ∃ other, fuel' = other + 1 := ⟨fuel' - 1, by omega⟩
        obtain ⟨lineEnd, hle, hend, hfind⟩ := findFrom_lineEnd h hstart
        have hheaders : headerEnd + 4 ≤ request.length := find_le h
        have hsame : findFrom (ascii "\r\n") lineStart request = some lineEnd := by
          rw [← hfind [], List.append_nil]
        -- the line lies before the empty line
        have hline : ((request ++ more).drop lineStart).take (min lineEnd headerEnd - lineStart) =
            (request.drop lineStart).take (min lineEnd headerEnd - lineStart) := by
          rw [List.drop_append_of_le_length (by omega), List.take_append_of_le_length]
          rw [List.length_drop]
          omega
        rw [readHeaderLines, readHeaderLines, if_pos hstart, if_pos hstart, hfind more, hsame]
        dsimp only [Option.getD_some]
        rw [hline]
        split
        · rfl
        · split
          · rfl
          · exact ih (by omega) (by omega) _
      · rw [readHeaderLines, if_neg hstart]
        cases fuel' with
        | zero => rfl
        | succ fuel' => rw [readHeaderLines, if_neg hstart]

theorem readHeaderLines_whole (h : find emptyLine request = some headerEnd) (more : Bytes) :
    readHeaderLines (request ++ more) headerEnd (request ++ more).length 0 none =
      readHeaderLines request headerEnd request.length 0 none := by
  have hheaders : headerEnd + 4 ≤ request.length := find_le h
  have hlonger : request.length ≤ (request ++ more).length := by
    rw [List.length_append]
    omega
  exact readHeaderLines_append h more (by omega) (by omega) none

end Headers

/-! ## One request -/

/-- The headers of a request, and the size of the body that they announce. -/
structure Headers (request : Bytes) (maximumHeaders maximumBody headerEnd size : ℕ) : Prop where
  found : find emptyLine request = some headerEnd
  limit : headerEnd ≤ maximumHeaders
  lines : (readHeaderLines request headerEnd request.length 0 none).map (·.getD 0) = some size
  room : size ≤ maximumBody

section Framing

variable {request body : Bytes} {maximumHeaders maximumBody headerEnd size : ℕ}

/-- With its headers there, a request is complete at one length. -/
theorem Headers.frame (h : Headers request maximumHeaders maximumBody headerEnd size) :
    frameHttpRequest request maximumHeaders maximumBody =
      if request.length < headerEnd + 4 + size then .incomplete
      else if request.length > headerEnd + 4 + size then .invalid
      else .complete ((request.drop (headerEnd + 4)).take size) := by
  obtain ⟨bodySize, hlines, hsize⟩ := Option.map_eq_some_iff.mp h.lines
  have hfound := h.found
  unfold emptyLine at hfound
  unfold frameHttpRequest
  rw [hfound]
  dsimp only
  rw [if_neg (Nat.not_lt.mpr h.limit), hlines]
  dsimp only
  rw [hsize, if_neg (Nat.not_lt.mpr h.room)]

/-- The headers stay the same when more arrives. -/
theorem Headers.append (h : Headers request maximumHeaders maximumBody headerEnd size) (more : Bytes) :
    Headers (request ++ more) maximumHeaders maximumBody headerEnd size where
  found := find_append h.found more
  limit := h.limit
  lines := by
    rw [readHeaderLines_whole h.found more]
    exact h.lines
  room := h.room

/-- The headers are all there as soon as the empty line is. -/
theorem Headers.of_append {more : Bytes}
    (h : Headers (request ++ more) maximumHeaders maximumBody headerEnd size)
    (hline : headerEnd + 4 ≤ request.length) :
    Headers request maximumHeaders maximumBody headerEnd size where
  found := find_of_append h.found hline
  limit := h.limit
  lines := by
    rw [← readHeaderLines_whole (find_of_append h.found hline) more]
    exact h.lines
  room := h.room

/-- What a complete request says of itself: its headers, its end, and its body. -/
theorem exists_headers_of_complete
    (h : frameHttpRequest request maximumHeaders maximumBody = .complete body) :
    ∃ headerEnd size, Headers request maximumHeaders maximumBody headerEnd size ∧
      request.length = headerEnd + 4 + size ∧ body = request.drop (headerEnd + 4) := by
  unfold frameHttpRequest at h
  split at h
  · split at h <;> cases h
  · rename_i headerEnd hfound
    split at h
    · cases h
    · rename_i hlimit
      split at h
      · cases h
      · rename_i bodySize hlines
        dsimp only at h
        split at h
        · cases h
        · rename_i hroom
          split at h
          · cases h
          · split at h
            · cases h
            · have hlength : request.length = headerEnd + 4 + bodySize.getD 0 := by omega
              refine ⟨headerEnd, bodySize.getD 0, ⟨hfound, Nat.le_of_not_lt hlimit, ?_,
                Nat.le_of_not_lt hroom⟩, hlength, ?_⟩
              · rw [hlines]
                rfl
              · cases h
                rw [List.take_of_length_le]
                rw [List.length_drop]
                omega

/-! ## Every way in which it arrives -/

/-- A request is incomplete until its last byte, refused with more behind it, and its body
is what follows the first empty line. -/
structure FramedAlike (request body : Bytes) (maximumHeaders maximumBody : ℕ) : Prop where
  shorter : ∀ part more, more ≠ [] → part ++ more = request →
    frameHttpRequest part maximumHeaders maximumBody = .incomplete
  longer : ∀ more, more ≠ [] →
    frameHttpRequest (request ++ more) maximumHeaders maximumBody = .invalid
  rest : ∃ headers, find emptyLine request = some headers.length ∧
    request = headers ++ emptyLine ++ body

/-- The read loop of `handle_client`, with what the calls of `recv` return; when there is no
more, `receive_more` fails. -/
def receiveRequest (maximumHeaders maximumBody : ℕ) (request : Bytes) :
    List Bytes → Option (Bytes × Bytes)
  | [] =>
      match frameHttpRequest request maximumHeaders maximumBody with
      | .complete body => some (request, body)
      | .incomplete | .invalid => none
  | chunk :: chunks =>
      match frameHttpRequest request maximumHeaders maximumBody with
      | .complete body => some (request, body)
      | .invalid => none
      | .incomplete => receiveRequest maximumHeaders maximumBody (request ++ chunk) chunks

/-- A way in which a request arrives: `recv` returns at least one byte, and no more than the
buffer holds. -/
def Arrives (request : Bytes) (chunks : List Bytes) : Prop :=
  chunks.flatten = request ∧ ∀ chunk ∈ chunks, 1 ≤ chunk.length ∧ chunk.length ≤ 4096

/-- The empty line begins early enough for a part of it to fit into the limit. -/
def EndsEarly (request : Bytes) (maximumHeaders : ℕ) : Prop :=
  ∃ headerEnd, find emptyLine request = some headerEnd ∧ headerEnd + 3 ≤ maximumHeaders

/-- Before the empty line is there, only the bytes are counted. -/
theorem frame_of_no_emptyLine (h : find emptyLine request = none) :
    frameHttpRequest request maximumHeaders maximumBody =
      if request.length > maximumHeaders then .invalid else .incomplete := by
  unfold emptyLine at h
  rw [frameHttpRequest, h]

section Complete

variable (h : Headers request maximumHeaders maximumBody headerEnd size)
  (hlength : request.length = headerEnd + 4 + size)

include h hlength

/-- A part of a complete request is refused when it is too long without the empty line. -/
theorem Headers.frame_part {part more : Bytes} (hmore : more ≠ []) (hpart : part ++ more = request) :
    frameHttpRequest part maximumHeaders maximumBody =
      if part.length < headerEnd + 4 ∧ maximumHeaders < part.length then .invalid else .incomplete := by
  have hshort : part.length < request.length := by
    rw [← hpart, List.length_append]
    have hpos := List.length_pos_iff.mpr hmore
    omega
  subst hpart
  by_cases hline : headerEnd + 4 ≤ part.length
  · rw [(h.of_append hline).frame, if_pos (by omega), if_neg (by omega)]
  · have hfind : find emptyLine part = none := find_eq_none_of_append h.found (Nat.lt_of_not_le hline)
    have hbefore : part.length < headerEnd + 4 := Nat.lt_of_not_le hline
    rw [frame_of_no_emptyLine hfind]
    simp only [hbefore, true_and, gt_iff_lt]

/-- More bytes than the headers announce are refused. -/
theorem Headers.frame_more {more : Bytes} (hmore : more ≠ []) :
    frameHttpRequest (request ++ more) maximumHeaders maximumBody = .invalid := by
  have hpos := List.length_pos_iff.mpr hmore
  rw [(h.append more).frame, List.length_append, if_neg (by omega), if_pos (by omega)]

/-- The headers, the empty line, and the body. -/
theorem Headers.split (hbody : body = request.drop (headerEnd + 4)) :
    ∃ headers, find emptyLine request = some headers.length ∧
      request = headers ++ emptyLine ++ body := by
  have htake : (request.take headerEnd).length = headerEnd := List.length_take_of_le (by omega)
  obtain ⟨rest, hrest⟩ := prefix_of_find h.found
  refine ⟨request.take headerEnd, by rw [htake]; exact h.found, ?_⟩
  have hdrop : (emptyLine ++ rest).drop emptyLine.length = rest := List.drop_left
  have hbehind : body = rest := by
    rw [hbody, ← List.drop_drop, ← hrest]
    exact hdrop
  rw [List.append_assoc, hbehind, hrest, List.take_append_drop]

/-- A part that is one byte too long to be without its empty line. -/
theorem Headers.exists_refused (hlate : maximumHeaders < headerEnd + 3) :
    ∃ part more, more ≠ [] ∧ part ++ more = request ∧
      frameHttpRequest part maximumHeaders maximumBody = .invalid := by
  have hpart : (request.take (maximumHeaders + 1)).length = maximumHeaders + 1 :=
    List.length_take_of_le (by omega)
  have hmore : request.drop (maximumHeaders + 1) ≠ [] := by
    rw [ne_eq, List.drop_eq_nil_iff]
    omega
  refine ⟨_, _, hmore, List.take_append_drop _ request, ?_⟩
  rw [h.frame_part hlength hmore (List.take_append_drop _ request), if_pos (by omega)]

end Complete

/-! ## The read loop -/

/-- As long as what has arrived is incomplete, the loop goes on. -/
theorem receiveRequest_of_incomplete
    (hcomplete : frameHttpRequest request maximumHeaders maximumBody = .complete body)
    (hshorter : ∀ part more, more ≠ [] → part ++ more = request →
      frameHttpRequest part maximumHeaders maximumBody = .incomplete)
    {part : Bytes} {chunks : List Bytes} (hsplit : part ++ chunks.flatten = request)
    (hchunks : ∀ chunk ∈ chunks, chunk ≠ []) :
    receiveRequest maximumHeaders maximumBody part chunks = some (request, body) := by
  induction chunks generalizing part with
  | nil =>
      rw [List.flatten_nil, List.append_nil] at hsplit
      rw [hsplit, receiveRequest, hcomplete]
  | cons chunk chunks ih =>
      obtain ⟨hchunk, hchunks⟩ := List.forall_mem_cons.mp hchunks
      have hmore : (chunk :: chunks).flatten ≠ [] := by
        rw [List.flatten_cons]
        exact List.append_ne_nil_of_left_ne_nil hchunk _
      rw [receiveRequest, hshorter part _ hmore hsplit]
      rw [List.flatten_cons, ← List.append_assoc] at hsplit
      exact ih hsplit hchunks

/-- Arriving byte by byte, a request is looked at after every byte. -/
theorem not_invalid_of_receiveRequest {part rest : Bytes}
    (h : receiveRequest maximumHeaders maximumBody part (rest.map fun byte => [byte]) =
      some (part ++ rest, body))
    {front back : Bytes} (hsplit : front ++ back = rest) :
    frameHttpRequest (part ++ front) maximumHeaders maximumBody ≠ .invalid := by
  intro hinvalid
  induction rest generalizing part front with
  | nil =>
      obtain ⟨rfl, -⟩ := List.append_eq_nil_iff.mp hsplit
      rw [List.append_nil] at hinvalid
      rw [List.map_nil, receiveRequest, hinvalid] at h
      cases h
  | cons byte rest ih =>
      rw [List.map_cons, receiveRequest] at h
      split at h
      · -- a shorter request would have been returned
        have hsame := congrArg Prod.fst (Option.some.inj h)
        simp at hsame
      · cases h
      · rename_i hincomplete
        cases front with
        | nil =>
            rw [List.append_nil, hincomplete] at hinvalid
            cases hinvalid
        | cons first front =>
            obtain ⟨hfirst, hback⟩ := List.cons.inj hsplit
            subst hfirst
            rw [List.append_cons part first rest] at h
            rw [List.append_cons part first front] at hinvalid
            exact ih h hback hinvalid

theorem arrives_bytes (request : Bytes) : Arrives request (request.map fun byte => [byte]) := by
  constructor
  · induction request with
    | nil => rfl
    | cons byte request ih => rw [List.map_cons, List.flatten_cons, ih, List.singleton_append]
  · intro chunk hchunk
    obtain ⟨byte, -, rfl⟩ := List.mem_map.mp hchunk
    simp

/-! ## When the headers end -/

theorem endsEarly_iff (hfound : find emptyLine request = some headerEnd) :
    EndsEarly request maximumHeaders ↔ headerEnd + 3 ≤ maximumHeaders := by
  simp [EndsEarly, hfound]

theorem incomplete_of_endsEarly
    (hcomplete : frameHttpRequest request maximumHeaders maximumBody = .complete body)
    (hearly : EndsEarly request maximumHeaders) {part more : Bytes} (hmore : more ≠ [])
    (hpart : part ++ more = request) :
    frameHttpRequest part maximumHeaders maximumBody = .incomplete := by
  obtain ⟨headerEnd, size, hheaders, hlength, -⟩ := exists_headers_of_complete hcomplete
  have hle := (endsEarly_iff hheaders.found).mp hearly
  rw [hheaders.frame_part hlength hmore hpart, if_neg (by omega)]

theorem exists_refused_of_not_endsEarly
    (hcomplete : frameHttpRequest request maximumHeaders maximumBody = .complete body)
    (hlate : ¬ EndsEarly request maximumHeaders) :
    ∃ part more, more ≠ [] ∧ part ++ more = request ∧
      frameHttpRequest part maximumHeaders maximumBody = .invalid := by
  obtain ⟨headerEnd, size, hheaders, hlength, -⟩ := exists_headers_of_complete hcomplete
  rw [endsEarly_iff hheaders.found] at hlate
  exact hheaders.exists_refused hlength (Nat.lt_of_not_le hlate)

theorem not_framedAlike
    (hcomplete : frameHttpRequest request maximumHeaders maximumBody = .complete body)
    (hlate : ¬ EndsEarly request maximumHeaders) :
    ¬ FramedAlike request body maximumHeaders maximumBody := by
  intro halike
  obtain ⟨part, more, hmore, hpart, hinvalid⟩ := exists_refused_of_not_endsEarly hcomplete hlate
  rw [halike.shorter part more hmore hpart] at hinvalid
  cases hinvalid

theorem receiveRequest_bytes_ne
    (hcomplete : frameHttpRequest request maximumHeaders maximumBody = .complete body)
    (hlate : ¬ EndsEarly request maximumHeaders) :
    receiveRequest maximumHeaders maximumBody [] (request.map fun byte => [byte]) ≠
      some (request, body) := by
  intro hbytes
  obtain ⟨part, more, -, hpart, hinvalid⟩ := exists_refused_of_not_endsEarly hcomplete hlate
  rw [← List.nil_append request] at hbytes
  exact not_invalid_of_receiveRequest hbytes hpart hinvalid

end Framing

/-- A complete request is framed, and read by `handle_client`, alike in whichever way it
arrives exactly when its empty line does not reach over the limit on the headers. -/
theorem request_arrives_iff (request body : Bytes) (maximumHeaders maximumBody : ℕ)
    (h : frameHttpRequest request maximumHeaders maximumBody = .complete body) :
    (FramedAlike request body maximumHeaders maximumBody ↔ EndsEarly request maximumHeaders) ∧
      ((∀ chunks, Arrives request chunks →
          receiveRequest maximumHeaders maximumBody [] chunks = some (request, body)) ↔
        EndsEarly request maximumHeaders) := by
  constructor
  · constructor
    · intro halike
      by_contra hlate
      exact not_framedAlike h hlate halike
    · intro hearly
      obtain ⟨headerEnd, size, hheaders, hlength, hbody⟩ := exists_headers_of_complete h
      exact ⟨fun part more => incomplete_of_endsEarly h hearly,
        fun more => hheaders.frame_more hlength, hheaders.split hlength hbody⟩
  · constructor
    · intro hserved
      by_contra hlate
      exact receiveRequest_bytes_ne h hlate (hserved _ (arrives_bytes request))
    · rintro hearly chunks ⟨hsplit, hchunks⟩
      refine receiveRequest_of_incomplete h (fun part more => incomplete_of_endsEarly h hearly)
        hsplit ?_
      intro chunk hchunk
      exact List.ne_nil_of_length_pos (hchunks chunk hchunk).1

/-- One header line without a colon, and no body. -/
theorem frameHttpRequest_line {line : Bytes} (hne : line ≠ []) (hcolon : (0x3A : UInt8) ∉ line)
    (hreturn : (0x0D : UInt8) ∉ line) {maximumHeaders : ℕ} (hlimit : line.length ≤ maximumHeaders)
    (maximumBody : ℕ) :
    find emptyLine (line ++ emptyLine) = some line.length ∧
      frameHttpRequest (line ++ emptyLine) maximumHeaders maximumBody = .complete [] := by
  have hpos : 0 < line.length := List.length_pos_iff.mpr hne
  have hfound : find emptyLine (line ++ emptyLine) = some line.length := by
    have hskip : find emptyLine (line ++ emptyLine) =
        (find emptyLine emptyLine).map (· + line.length) := find_skip hreturn
    have hhere : find emptyLine emptyLine = some 0 := by decide
    rw [hskip, hhere, Option.map_some, Nat.zero_add]
  have hlineEnd : findFrom (ascii "\r\n") 0 (line ++ emptyLine) = some line.length := by
    have hskip : find (ascii "\r\n") (line ++ emptyLine) =
        (find (ascii "\r\n") emptyLine).map (· + line.length) := find_skip hreturn
    have hhere : find (ascii "\r\n") emptyLine = some 0 := by decide
    rw [findFrom, List.drop_zero, hskip, hhere, Option.map_some, Option.map_some, Nat.zero_add,
      Nat.add_zero]
  have hlength : (line ++ emptyLine).length = line.length + 4 := List.length_append
  have hlines : readHeaderLines (line ++ emptyLine) line.length (line ++ emptyLine).length 0 none =
      some none := by
    rw [hlength, readHeaderLines, if_pos hpos, hlineEnd]
    dsimp only [Option.getD_some]
    rw [Nat.min_self, Nat.sub_zero, List.drop_zero, List.take_left, readHeaderLine,
      find_singleton_eq_none hcolon]
    dsimp only
    rw [if_pos (Nat.le_refl _)]
  have hheaders : Headers (line ++ emptyLine) maximumHeaders maximumBody line.length 0 :=
    ⟨hfound, hlimit, by rw [hlines]; rfl, Nat.zero_le _⟩
  rw [hheaders.frame, if_neg (by omega), if_neg (by omega), List.take_zero]
  exact ⟨hfound, rfl⟩

theorem request_arrives_iff_early :
    FramedAlike (ascii "A" ++ emptyLine) [] 16384 16384 ↔
      EndsEarly (ascii "A" ++ emptyLine) 16384 :=
  (request_arrives_iff (ascii "A" ++ emptyLine) [] 16384 16384
    (frameHttpRequest_line (by decide) (by decide) (by decide) (by decide) _).2).1

/-- Headers of just the size that the daemon allows. -/
def longestHeaders : Bytes := List.replicate (16 * 1024) 0x41

/-- Such a request is served when it arrives at once, and not byte by byte. -/
theorem longestHeaders_not_framedAlike :
    frameHttpRequest (longestHeaders ++ emptyLine) (16 * 1024) (16 * 1024) = .complete [] ∧
      ¬ FramedAlike (longestHeaders ++ emptyLine) [] (16 * 1024) (16 * 1024) ∧
      ∃ chunks, Arrives (longestHeaders ++ emptyLine) chunks ∧
        receiveRequest (16 * 1024) (16 * 1024) [] chunks ≠
          some (longestHeaders ++ emptyLine, []) := by
  have hlength : longestHeaders.length = 16 * 1024 := List.length_replicate
  have hletter : ∀ byte ∈ longestHeaders, byte = 0x41 := fun _ hbyte => List.eq_of_mem_replicate hbyte
  obtain ⟨hfound, hcomplete⟩ := frameHttpRequest_line (List.ne_nil_of_length_pos (by omega))
    (fun hcolon => absurd (hletter _ hcolon) (by decide))
    (fun hreturn => absurd (hletter _ hreturn) (by decide)) (Nat.le_of_eq hlength) (16 * 1024)
  have hlate : ¬ EndsEarly (longestHeaders ++ emptyLine) (16 * 1024) := by
    rw [endsEarly_iff hfound, hlength]
    omega
  exact ⟨hcomplete, not_framedAlike hcomplete hlate, _, arrives_bytes _,
    receiveRequest_bytes_ne hcomplete hlate⟩

end Management
end Bridge
end Aa2acp
