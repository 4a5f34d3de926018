import Aa2acp.Airplay.Rtsp

/-!
# Responses read back

A response is a status line, header lines, an empty line and a body.  Both loops over the
lines, that of `complete_response_size` and that of `parse_response`, see exactly these
lines (`readContentLength_lines`, `readHeaders_lines`), so a response is read back as it was
written (`parseResponse_encodeResponse`).
-/

namespace Aa2acp
namespace Airplay

open Text

/-- Lines, each of them with its end. -/
def joinLines (lines : List Bytes) : Bytes := lines.flatMap fun line => line ++ lineEndMark

def statusLine (status : ℕ) (reason : Bytes) : Bytes :=
  ascii "RTSP/1.0 " ++ decimal status ++ ascii " " ++ reason

def headerLine (header : Bytes × Bytes) : Bytes := header.1 ++ ascii ": " ++ header.2

/-- The standard text of a response. -/
def encodeResponse (status : ℕ) (reason : Bytes) (headers : List (Bytes × Bytes)) (body : Bytes) :
    Bytes :=
  joinLines (statusLine status reason :: headers.map headerLine) ++ lineEndMark ++ body

/-- No part of it is the end of a line. -/
def InLine (text : Bytes) : Prop := ∀ byte ∈ text, byte ≠ 0x0D ∧ byte ≠ 0x0A

instance : DecidablePred InLine := fun text => List.decidableBAll _ text

/-- No blank stands at either end. -/
def Unpadded (text : Bytes) : Prop :=
  (∀ byte ∈ text.head?, isBlank byte = false) ∧ ∀ byte ∈ text.getLast?, isBlank byte = false

instance : DecidablePred Unpadded := fun text =>
  @instDecidableAnd _ _ (Option.decidableForallMem text.head?)
    (Option.decidableForallMem text.getLast?)

/-- A header that can be written as a line. -/
structure IsHeader (header : Bytes × Bytes) : Prop where
  name_ne_nil : header.1 ≠ []
  name_inLine : InLine header.1
  name_unpadded : Unpadded header.1
  name_colon : 0x3A ∉ header.1
  value_inLine : InLine header.2
  value_unpadded : Unpadded header.2

instance : DecidablePred IsHeader := fun header =>
  decidable_of_iff (header.1 ≠ [] ∧ InLine header.1 ∧ Unpadded header.1 ∧ 0x3A ∉ header.1 ∧
      InLine header.2 ∧ Unpadded header.2)
    ⟨fun ⟨h₁, h₂, h₃, h₄, h₅, h₆⟩ => ⟨h₁, h₂, h₃, h₄, h₅, h₆⟩,
      fun ⟨h₁, h₂, h₃, h₄, h₅, h₆⟩ => ⟨h₁, h₂, h₃, h₄, h₅, h₆⟩⟩

/-! ## Numbers -/

theorem decimal_natCast (n : ℕ) :
    decimal n = (Nat.toDigits 10 n).map fun char => UInt8.ofNat char.toNat := by
  unfold decimal ascii
  rw [show toString (n : ℤ) = n.repr from rfl, Nat.toList_repr]

theorem toNat_of_isDigit {char : Char} (h : char.isDigit = true) :
    48 ≤ char.toNat ∧ char.toNat ≤ 57 ∧ (UInt8.ofNat char.toNat).toNat = char.toNat := by
  have hrange : 48 ≤ char.toNat ∧ char.toNat ≤ 57 := by
    simp only [Char.isDigit, ge_iff_le, UInt32.le_iff_toNat_le, Bool.and_eq_true,
      decide_eq_true_eq] at h
    exact h
  have hbyte : (UInt8.ofNat char.toNat).toNat = char.toNat % 256 := UInt8.toNat_ofNat'
  exact ⟨hrange.1, hrange.2, by rw [hbyte]; omega⟩

theorem isDigit_of_mem_decimal {n : ℕ} {byte : UInt8} (h : byte ∈ decimal n) :
    isDigit byte = true := by
  rw [decimal_natCast] at h
  obtain ⟨char, hchar, rfl⟩ := List.mem_map.mp h
  obtain ⟨hlow, hhigh, hbyte⟩ :=
    toNat_of_isDigit (Nat.isDigit_of_mem_toDigits (by decide) (by decide) hchar)
  apply decide_eq_true
  rw [UInt8.le_iff_toNat_le, UInt8.le_iff_toNat_le, hbyte]
  exact ⟨hlow, hhigh⟩

theorem decimal_ne_nil (n : ℕ) : decimal n ≠ [] := by
  rw [decimal_natCast, Ne, List.map_eq_nil_iff]
  exact Nat.toDigits_ne_nil

theorem ofDigits_decimal (n : ℕ) : ofDigits (decimal n) = n := by
  have hfold : ∀ (chars : List Char) (start : ℕ), (∀ char ∈ chars, char.isDigit = true) →
      (chars.map fun char => UInt8.ofNat char.toNat).foldl
        (fun value digit => value * 10 + (digit.toNat - 0x30)) start =
        Nat.ofDigitChars 10 chars start := by
    intro chars start hdigits
    induction chars generalizing start with
    | nil => simp
    | cons char chars ih =>
        obtain ⟨-, -, hbyte⟩ := toNat_of_isDigit (hdigits char List.mem_cons_self)
        rw [List.map_cons, List.foldl_cons, hbyte, Nat.ofDigitChars_cons,
          ih _ fun other hother => hdigits other (List.mem_cons_of_mem _ hother), Nat.mul_comm 10]
        rfl
  rw [decimal_natCast]
  unfold ofDigits
  rw [hfold _ _ fun char hchar => Nat.isDigit_of_mem_toDigits (by decide) (by decide) hchar,
    Nat.ofDigitChars_ten_toDigits]

/-- A number is read back from its digits. -/
theorem fromChars_decimal {values n : ℕ} (h : n < values) :
    fromChars values (decimal n) = some (n, []) :=
  fromChars_eq_some_nil.mpr ⟨decimal_ne_nil n, fun _ hbyte => isDigit_of_mem_decimal hbyte,
    by rwa [ofDigits_decimal], ofDigits_decimal n⟩

theorem fromCharsInt_decimal {n : ℕ} (h : n < 2 ^ 31) :
    fromCharsInt (decimal n) = some ((n : ℤ), []) := by
  have hread := fromChars_decimal h
  cases htext : decimal n with
  | nil => exact absurd htext (decimal_ne_nil n)
  | cons byte rest =>
      have hdigit : isDigit byte = true :=
        isDigit_of_mem_decimal (htext ▸ List.mem_cons_self)
      have hminus : byte ≠ 0x2D := by
        rintro rfl
        exact absurd hdigit (by decide)
      rw [htext] at hread
      rw [fromCharsInt, if_neg hminus, hread]
      rfl

/-- A digit is neither a blank nor the end of a line. -/
theorem ne_of_mem_decimal {n : ℕ} {byte other : UInt8} (h : byte ∈ decimal n)
    (hother : isDigit other = false) : byte ≠ other := by
  rintro rfl
  rw [isDigit_of_mem_decimal h] at hother
  cases hother

/-! ## Blanks -/

theorem trim_of_unpadded {text : Bytes} (h : Unpadded text) : trim text = text := by
  have hleft : trimLeft text = text := by
    unfold trimLeft
    cases text with
    | nil => rfl
    | cons byte rest => rw [List.dropWhile_cons_of_neg (by rw [h.1 byte rfl]; exact Bool.false_ne_true)]
  unfold trim
  rw [hleft, List.rdropWhile_eq_self_iff]
  intro hnil
  rw [h.2 _ (List.getLast_mem_getLast? hnil)]
  exact Bool.false_ne_true

theorem unpadded_decimal (n : ℕ) : Unpadded (decimal n) :=
  ⟨fun _ hbyte => isBlank_eq_false_of_isDigit (isDigit_of_mem_decimal (List.mem_of_mem_head? hbyte)),
    fun _ hbyte => isBlank_eq_false_of_isDigit (isDigit_of_mem_decimal (List.mem_of_getLast? hbyte))⟩

/-- The blank in front of a value. -/
theorem trim_space {text : Bytes} (h : Unpadded text) : trim (0x20 :: text) = text := by
  have hleft : trimLeft (0x20 :: text) = trimLeft text :=
    List.dropWhile_cons_of_pos (by decide)
  unfold trim
  rw [hleft]
  exact trim_of_unpadded h

/-! ## Lines -/

theorem joinLines_cons (line : Bytes) (lines : List Bytes) :
    joinLines (line :: lines) = line ++ (lineEndMark ++ joinLines lines) := by
  rw [joinLines, List.flatMap_cons, List.append_assoc]
  rfl

theorem InLine.append {text more : Bytes} (h : InLine text) (hmore : InLine more) :
    InLine (text ++ more) := by
  intro byte hbyte
  rcases List.mem_append.mp hbyte with hbyte | hbyte
  · exact h byte hbyte
  · exact hmore byte hbyte

theorem inLine_decimal (n : ℕ) : InLine (decimal n) := fun _ hbyte =>
  ⟨ne_of_mem_decimal hbyte rfl, ne_of_mem_decimal hbyte rfl⟩

theorem InLine.notMem {text : Bytes} (h : InLine text) : 0x0D ∉ text := fun hmem =>
  (h _ hmem).1 rfl

theorem find_lineEndMark {line : Bytes} (h : InLine line) (rest : Bytes) :
    find lineEndMark (line ++ (lineEndMark ++ rest)) = some line.length := by
  have hhere : find lineEndMark (lineEndMark ++ rest) = some 0 := rfl
  rw [show lineEndMark = 0x0D :: [0x0A] from rfl] at hhere ⊢
  rw [find_skip h.notMem, hhere, Option.map_some, Nat.zero_add]

/-- A line behind the end of a line is not the empty one. -/
theorem find_responseHeaderEnd_line {line : Bytes} (hline : line ≠ []) (h : InLine line) (rest : Bytes) :
    find responseHeaderEnd (lineEndMark ++ (line ++ rest)) =
      (find responseHeaderEnd (line ++ rest)).map (· + 2) := by
  cases line with
  | nil => exact absurd rfl hline
  | cons byte line =>
      have hreturn : (0x0D : UInt8) ≠ byte := (h byte List.mem_cons_self).1.symm
      show find [0x0D, 0x0A, 0x0D, 0x0A] (0x0D :: 0x0A :: byte :: (line ++ rest)) =
        (find [0x0D, 0x0A, 0x0D, 0x0A] (byte :: (line ++ rest))).map (· + 2)
      rw [find, if_neg (by simp [List.isPrefixOf, hreturn]), find, if_neg (by simp [List.isPrefixOf]),
        Option.map_map]
      rfl

/-- The empty line comes behind all the lines. -/
theorem find_responseHeaderEnd {line : Bytes} {lines : List Bytes}
    (hlines : ∀ other ∈ line :: lines, other ≠ [] ∧ InLine other) (rest : Bytes) :
    find responseHeaderEnd (joinLines (line :: lines) ++ (lineEndMark ++ rest)) =
      some (line.length + (joinLines lines).length) := by
  induction lines generalizing line with
  | nil =>
      have hline := (hlines line List.mem_cons_self).2
      have hhere : find responseHeaderEnd (lineEndMark ++ (lineEndMark ++ rest)) = some 0 := rfl
      rw [joinLines_cons, List.append_assoc, List.append_assoc]
      rw [show responseHeaderEnd = 0x0D :: [0x0A, 0x0D, 0x0A] from rfl] at hhere ⊢
      rw [find_skip hline.notMem, show joinLines [] = [] from rfl, List.nil_append, hhere,
        Option.map_some, Nat.zero_add, List.length_nil, Nat.add_zero]
  | cons next lines ih =>
      have hline := (hlines line List.mem_cons_self).2
      have hothers : ∀ other ∈ next :: lines, other ≠ [] ∧ InLine other := fun other hother =>
        hlines other (List.mem_cons_of_mem _ hother)
      obtain ⟨hnil, hnext⟩ := hothers next List.mem_cons_self
      -- past this line and its end the next line begins
      have hstep : find responseHeaderEnd (joinLines (line :: next :: lines) ++ (lineEndMark ++ rest)) =
          ((find responseHeaderEnd (joinLines (next :: lines) ++ (lineEndMark ++ rest))).map
            (· + 2)).map (· + line.length) := by
        rw [joinLines_cons line, List.append_assoc, List.append_assoc,
          show responseHeaderEnd = 0x0D :: [0x0A, 0x0D, 0x0A] from rfl, find_skip hline.notMem,
          joinLines_cons next, List.append_assoc]
        rw [show (0x0D : UInt8) :: [0x0A, 0x0D, 0x0A] = responseHeaderEnd from rfl,
          find_responseHeaderEnd_line hnil hnext]
      rw [hstep, ih hothers, joinLines_cons next]
      simp only [Option.map_some, List.length_append, Option.some.injEq]
      show next.length + (joinLines lines).length + 2 + line.length =
        line.length + (next.length + (2 + (joinLines lines).length))
      omega

/-- The lines from the cursor up to the end of the headers. -/
structure LinesAt (text : Bytes) (headerEnd cursor : ℕ) (lines : List Bytes) : Prop where
  text_eq : ∃ body, text.drop cursor = joinLines lines ++ (lineEndMark ++ body)
  end_eq : headerEnd + 2 = cursor + (joinLines lines).length
  inLine : ∀ line ∈ lines, line ≠ [] ∧ InLine line

variable {text : Bytes} {headerEnd cursor : ℕ} {line : Bytes} {lines : List Bytes}

theorem LinesAt.at_end (h : LinesAt text headerEnd cursor []) : ¬ cursor < headerEnd := by
  have hend : headerEnd + 2 = cursor + 0 := h.end_eq
  omega

/-- The line that the loops see at the cursor, and where they go on. -/
theorem LinesAt.next (h : LinesAt text headerEnd cursor (line :: lines)) :
    cursor < headerEnd ∧ find lineEndMark (text.drop cursor) = some line.length ∧
      (text.drop cursor).take line.length = line ∧
      LinesAt text headerEnd (cursor + line.length + 2) lines := by
  obtain ⟨body, htext⟩ := h.text_eq
  have hend := h.end_eq
  obtain ⟨hline, hinLine⟩ := h.inLine line List.mem_cons_self
  have hpos : 0 < line.length := List.length_pos_iff.mpr hline
  rw [joinLines_cons, List.append_assoc, List.append_assoc] at htext
  rw [joinLines_cons, List.length_append, List.length_append,
    show lineEndMark.length = 2 from rfl] at hend
  refine ⟨by omega, ?_, ?_, ⟨body, ?_⟩, by omega, fun other hother =>
    h.inLine other (List.mem_cons_of_mem _ hother)⟩
  · rw [htext, find_lineEndMark hinLine]
  · rw [htext, List.take_left]
  · rw [Nat.add_assoc, ← List.drop_drop, htext, ← List.drop_drop, List.drop_left]
    rfl

/-- The first loop sees these lines. -/
theorem readContentLength_lines (h : LinesAt text headerEnd cursor lines) (contentLength : ℕ) :
    readContentLength text headerEnd cursor contentLength =
      lines.foldlM lengthAfterLine contentLength := by
  induction lines generalizing cursor contentLength with
  | nil =>
      rw [readContentLength, if_neg h.at_end]
      rfl
  | cons line lines ih =>
      obtain ⟨hcursor, hfind, hline, hnext⟩ := h.next
      rw [readContentLength, if_pos hcursor, hfind]
      dsimp only
      rw [hline, List.foldlM_cons]
      cases hlength : lengthAfterLine contentLength line with
      | none => rfl
      | some length => exact ih hnext length

/-- What a header line adds to the map. -/
def headersAfterLine (headers : List (Bytes × Bytes)) (line : Bytes) : List (Bytes × Bytes) :=
  match find (ascii ":") line with
  | none => headers
  | some colon => addHeader headers (lower (trim (line.take colon))) (trim (line.drop (colon + 1)))

/-- The second loop sees these lines. -/
theorem readHeaders_lines (h : LinesAt text headerEnd cursor lines) (headers : List (Bytes × Bytes)) :
    readHeaders text headerEnd cursor headers = lines.foldl headersAfterLine headers := by
  induction lines generalizing cursor headers with
  | nil =>
      rw [readHeaders, if_neg h.at_end]
      rfl
  | cons line lines ih =>
      obtain ⟨hcursor, hfind, hline, hnext⟩ := h.next
      rw [readHeaders, if_pos hcursor, hfind]
      dsimp only
      rw [hline]
      exact ih hnext _

/-! ## One line -/

variable {header : Bytes × Bytes} {contentLength : ℕ}

/-- The first colon of a header line stands behind the name. -/
theorem find_colon (header : Bytes × Bytes) (h : 0x3A ∉ header.1) :
    find (ascii ":") (headerLine header) = some header.1.length ∧
      (headerLine header).take header.1.length = header.1 ∧
      (headerLine header).drop (header.1.length + 1) = 0x20 :: header.2 := by
  have hline : headerLine header = header.1 ++ (0x3A :: 0x20 :: header.2) := by
    unfold headerLine
    rw [List.append_assoc]
    rfl
  have hhere : find (0x3A :: []) (0x3A :: 0x20 :: header.2) = some 0 := rfl
  rw [hline]
  refine ⟨?_, List.take_left, ?_⟩
  · show find (0x3A :: []) _ = _
    rw [find_skip h, hhere, Option.map_some, Nat.zero_add]
  · rw [← List.drop_drop, List.drop_left]
    rfl

theorem lengthAfterLine_other (h : 0x3A ∉ header.1) (hname : lower header.1 ≠ ascii "content-length") :
    lengthAfterLine contentLength (headerLine header) = some contentLength := by
  obtain ⟨hfind, htake, -⟩ := find_colon header h
  unfold lengthAfterLine
  rw [hfind]
  dsimp only
  rw [htake, if_neg hname]

theorem lengthAfterLine_contentLength {name : Bytes} {size : ℕ} (h : 0x3A ∉ name)
    (hname : lower name = ascii "content-length") (hsize : size < 2 ^ 64) :
    lengthAfterLine contentLengthNotSet (headerLine (name, decimal size)) = some size := by
  obtain ⟨hfind, htake, hdrop⟩ := find_colon (name, decimal size) h
  unfold lengthAfterLine
  rw [hfind]
  dsimp only
  rw [htake, hdrop, if_pos hname, if_neg (fun hne => hne rfl), trim_space (unpadded_decimal size),
    fromChars_decimal hsize]

/-- The status line is no header line for the content length. -/
theorem lengthAfterLine_statusLine (status : ℕ) (reason : Bytes) :
    lengthAfterLine contentLength (statusLine status reason) = some contentLength := by
  unfold lengthAfterLine
  split
  · rfl
  · rename_i colon hcolon
    rw [if_neg]
    intro hlower
    cases colon with
    | zero => cases hlower
    | succ colon =>
        -- the name would begin with an `r`
        have hhead := congrArg List.head? hlower
        cases hhead

theorem headersAfterLine_header (h : IsHeader header) (headers : List (Bytes × Bytes)) :
    headersAfterLine headers (headerLine header) = addHeader headers (lower header.1) header.2 := by
  obtain ⟨hfind, htake, hdrop⟩ := find_colon header h.name_colon
  unfold headersAfterLine
  rw [hfind]
  dsimp only
  rw [htake, hdrop, trim_of_unpadded h.name_unpadded, trim_space h.value_unpadded]

theorem IsHeader.isLine (h : IsHeader header) : headerLine header ≠ [] ∧ InLine (headerLine header) := by
  constructor
  · unfold headerLine
    rw [List.append_assoc]
    exact List.append_ne_nil_of_left_ne_nil h.name_ne_nil _
  · exact (h.name_inLine.append (by decide)).append h.value_inLine

theorem statusLine_inLine {status : ℕ} {reason : Bytes} (h : InLine reason) :
    statusLine status reason ≠ [] ∧ InLine (statusLine status reason) := by
  constructor
  · exact List.cons_ne_nil _ _
  · have hversion : InLine (ascii "RTSP/1.0 ") := by decide
    exact ((hversion.append (inLine_decimal status)).append (by decide)).append h

/-! ## All lines -/

variable {headers : List (Bytes × Bytes)}

theorem foldlM_other (h : ∀ header ∈ headers, 0x3A ∉ header.1 ∧ lower header.1 ≠ ascii "content-length") :
    (headers.map headerLine).foldlM lengthAfterLine contentLength = some contentLength := by
  induction headers with
  | nil => rfl
  | cons header headers ih =>
      obtain ⟨hcolon, hname⟩ := h header List.mem_cons_self
      rw [List.map_cons, List.foldlM_cons, lengthAfterLine_other hcolon hname]
      exact ih fun other hother => h other (List.mem_cons_of_mem _ hother)

theorem addHeader_new {name value : Bytes} (h : name ∉ headers.map Prod.fst) :
    addHeader headers name value = headers ++ [(name, value)] := by
  unfold addHeader
  rw [if_neg]
  intro hany
  obtain ⟨entry, hmem, hentry⟩ := List.any_eq_true.mp hany
  exact h (List.mem_map.mpr ⟨entry, hmem, of_decide_eq_true hentry⟩)

/-- The header as it stands in the map. -/
def lowerName (header : Bytes × Bytes) : Bytes × Bytes := (lower header.1, header.2)

/-- Headers with different names are all kept. -/
theorem foldl_headersAfterLine {known : List (Bytes × Bytes)} (h : ∀ header ∈ headers, IsHeader header)
    (hdistinct : ((known ++ headers.map lowerName).map Prod.fst).Nodup) :
    (headers.map headerLine).foldl headersAfterLine known = known ++ headers.map lowerName := by
  induction headers generalizing known with
  | nil => exact (List.append_nil known).symm
  | cons header headers ih =>
      have hnew : lower header.1 ∉ known.map Prod.fst := by
        rw [List.map_append] at hdistinct
        intro hmem
        exact (List.nodup_append.mp hdistinct).2.2 _ hmem _ List.mem_cons_self rfl
      rw [List.map_cons, List.map_cons] at *
      rw [List.append_cons] at hdistinct ⊢
      rw [List.foldl_cons, headersAfterLine_header (h header List.mem_cons_self), addHeader_new hnew]
      exact ih (fun other hother => h other (List.mem_cons_of_mem _ hother)) hdistinct

/-! ## The whole response -/

section Whole

variable (status : ℕ) (body : Bytes) {reason : Bytes} (hreason : InLine reason)
  (hheaders : ∀ header ∈ headers, IsHeader header)

include hreason hheaders

theorem encodeResponse_lines :
    ∀ line ∈ statusLine status reason :: headers.map headerLine, line ≠ [] ∧ InLine line := by
  intro line hline
  rcases List.mem_cons.mp hline with rfl | hline
  · exact statusLine_inLine hreason
  · obtain ⟨header, hheader, rfl⟩ := List.mem_map.mp hline
    exact (hheaders header hheader).isLine

/-- Where the headers end and the body begins. -/
theorem encodeResponse_parts : ∃ headerEnd,
    find responseHeaderEnd (encodeResponse status reason headers body) = some headerEnd ∧
      (encodeResponse status reason headers body).drop (headerEnd + 4) = body ∧
      (encodeResponse status reason headers body).length = headerEnd + 4 + body.length ∧
      LinesAt (encodeResponse status reason headers body) headerEnd 0
        (statusLine status reason :: headers.map headerLine) := by
  have hlines := encodeResponse_lines status hreason hheaders
  have htext : encodeResponse status reason headers body =
      joinLines (statusLine status reason :: headers.map headerLine) ++ (lineEndMark ++ body) :=
    List.append_assoc _ _ _
  have hlength : (joinLines (statusLine status reason :: headers.map headerLine)).length =
      (statusLine status reason).length + (joinLines (headers.map headerLine)).length + 2 := by
    rw [joinLines_cons, List.length_append, List.length_append,
      show lineEndMark.length = 2 from rfl]
    omega
  refine ⟨_, htext ▸ find_responseHeaderEnd hlines body, ?_, ?_, ⟨body, htext⟩, ?_, hlines⟩
  · rw [htext, show ∀ n, n + 4 = n + 2 + 2 from fun n => rfl, ← hlength, ← List.drop_drop,
      List.drop_left]
    rfl
  · rw [htext, List.length_append, List.length_append, hlength,
      show lineEndMark.length = 2 from rfl]
    omega
  · rw [hlength]
    omega

end Whole

/-- A name that is `content-length` in some case is a name of a header. -/
theorem isHeader_contentLength {name : Bytes} (h : lower name = ascii "content-length") (size : ℕ) :
    IsHeader (name, decimal size) := by
  have hne : ∀ other, toLower other ∉ ascii "content-length" → ∀ byte ∈ name, byte ≠ other := by
    rintro other hother byte hbyte rfl
    exact hother (h ▸ List.mem_map_of_mem hbyte)
  have hblank : ∀ byte ∈ name, isBlank byte = false := fun byte hbyte =>
    decide_eq_false (not_or.mpr ⟨hne _ (by decide) byte hbyte, hne _ (by decide) byte hbyte⟩)
  exact {
    name_ne_nil := by
      rintro rfl
      cases h
    name_inLine := fun byte hbyte => ⟨hne _ (by decide) byte hbyte, hne _ (by decide) byte hbyte⟩
    name_unpadded := ⟨fun byte hbyte => hblank byte (List.mem_of_mem_head? hbyte),
      fun byte hbyte => hblank byte (List.mem_of_getLast? hbyte)⟩
    name_colon := fun hcolon => hne 0x3A (by decide) _ hcolon rfl
    value_inLine := inLine_decimal size
    value_unpadded := unpadded_decimal size }

/-- The status line is read back. -/
theorem parseWhole_encodeResponse {status : ℕ} {reason body : Bytes} (hstatus : status < 2 ^ 31)
    (hreason : InLine reason) (hheaders : ∀ header ∈ headers, IsHeader header)
    (hdistinct : (headers.map fun header => lower header.1).Nodup) :
    parseWhole (encodeResponse status reason headers body) =
      some ⟨status, headers.map lowerName, body⟩ := by
  obtain ⟨headerEnd, hfind, hbody, -, hlines⟩ :=
    encodeResponse_parts status body hreason hheaders
  obtain ⟨-, hlineEnd, hline, hnext⟩ := hlines.next
  rw [List.drop_zero] at hlineEnd hline
  rw [Nat.zero_add] at hnext
  have hversion : (ascii "RTSP/1.0 ").isPrefixOf (encodeResponse status reason headers body) = true :=
    rfl
  -- between the version and the end of the line stand the status, a blank and the reason
  have hstatusText : ((encodeResponse status reason headers body).drop 9).take
      ((statusLine status reason).length - 9) = decimal status ++ (0x20 :: reason) := by
    rw [← List.drop_take, hline]
    exact List.append_assoc _ _ _
  have hspace : find (ascii " ") (decimal status ++ (0x20 :: reason)) = some (decimal status).length := by
    have hhere : find (0x20 :: []) (0x20 :: reason) = some 0 := rfl
    show find (0x20 :: []) _ = _
    rw [find_skip (fun hmem => ne_of_mem_decimal hmem rfl rfl), hhere, Option.map_some, Nat.zero_add]
  have hread := readHeaders_lines hnext []
  rw [foldl_headersAfterLine hheaders (by rw [List.nil_append, List.map_map]; exact hdistinct),
    List.nil_append] at hread
  unfold parseWhole
  rw [hfind, hlineEnd]
  dsimp only
  rw [if_neg (not_not_intro hversion), hstatusText, hspace]
  dsimp only
  rw [List.take_left, fromCharsInt_decimal hstatus]
  dsimp only
  rw [hread, hbody]

/-- A response is read back as it was written: the status, the names in lower case with their
values, and the body, wherever the content length stands among the headers. -/
theorem parseResponse_encodeResponse (status : ℕ) (reason name body : Bytes)
    (before after : List (Bytes × Bytes)) (hstatus : status < 2 ^ 31) (hreason : InLine reason)
    (hheaders : ∀ header ∈ before ++ after,
      IsHeader header ∧ lower header.1 ≠ ascii "content-length")
    (hdistinct : ((before ++ after).map fun header => lower header.1).Nodup)
    (hname : lower name = ascii "content-length") (hbody : body.length ≤ 1024 * 1024) :
    parseResponse (encodeResponse status reason
        (before ++ (name, decimal body.length) :: after) body) =
      some ⟨status, (before ++ (name, decimal body.length) :: after).map fun header =>
        (lower header.1, header.2), body⟩ := by
  have hlength := isHeader_contentLength hname body.length
  have hall : ∀ header ∈ before ++ (name, decimal body.length) :: after, IsHeader header := by
    intro header hheader
    rcases List.mem_append.mp hheader with hheader | hheader
    · exact (hheaders header (List.mem_append_left _ hheader)).1
    · rcases List.mem_cons.mp hheader with rfl | hheader
      · exact hlength
      · exact (hheaders header (List.mem_append_right _ hheader)).1
  have hdistinctAll : ((before ++ (name, decimal body.length) :: after).map fun header =>
      lower header.1).Nodup := by
    rw [List.map_append, List.map_cons, List.nodup_middle, ← List.map_append, List.nodup_cons]
    refine ⟨fun hmem => ?_, hdistinct⟩
    obtain ⟨header, hheader, hsame⟩ := List.mem_map.mp hmem
    exact (hheaders header hheader).2 (hsame.trans hname)
  obtain ⟨headerEnd, hfind, -, hsize, hlines⟩ :=
    encodeResponse_parts status body hreason hall
  -- only the one line counts for the content length
  have hread := readContentLength_lines hlines contentLengthNotSet
  have hbodySize : body.length < 2 ^ 64 := by omega
  rw [List.foldlM_cons, lengthAfterLine_statusLine, Option.bind_eq_bind, Option.bind_some,
    List.map_append, List.map_cons, List.foldlM_append,
    foldlM_other fun header hheader =>
      ⟨(hheaders header (List.mem_append_left _ hheader)).1.name_colon,
        (hheaders header (List.mem_append_left _ hheader)).2⟩,
    Option.bind_eq_bind, Option.bind_some, List.foldlM_cons,
    lengthAfterLine_contentLength hlength.name_colon hname hbodySize, Option.bind_eq_bind,
    Option.bind_some,
    foldlM_other fun header hheader =>
      ⟨(hheaders header (List.mem_append_right _ hheader)).1.name_colon,
        (hheaders header (List.mem_append_right _ hheader)).2⟩] at hread
  have hcomplete : completeResponseSize (encodeResponse status reason
      (before ++ (name, decimal body.length) :: after) body) =
      some (encodeResponse status reason (before ++ (name, decimal body.length) :: after) body).length := by
    refine completeResponseSize_eq_some.mpr ⟨headerEnd, body.length, hfind, ?_, hbody, hsize,
      Nat.le_refl _⟩
    rw [hread, Option.map_some]
    unfold bodyLength
    rw [if_neg]
    unfold contentLengthNotSet
    omega
  unfold parseResponse
  rw [hcomplete]
  dsimp only
  rw [List.take_length, parseWhole_encodeResponse hstatus hreason hall hdistinctAll]
  rfl

/-- A value with a colon, and a body that looks like the end of headers. -/
theorem parseResponse_encodeResponse_info :
    parseResponse (encodeResponse 200 (ascii "OK") [(ascii "CSeq", ascii "7"),
        (ascii "CONTENT-length", ascii "6"), (ascii "X-Url", ascii "rtsp://a: b")]
        (ascii "a\r\n\r\nb")) =
      some ⟨200, [(ascii "cseq", ascii "7"), (ascii "content-length", ascii "6"),
        (ascii "x-url", ascii "rtsp://a: b")], ascii "a\r\n\r\nb"⟩ :=
  parseResponse_encodeResponse 200 (ascii "OK") (ascii "CONTENT-length") (ascii "a\r\n\r\nb")
    [(ascii "CSeq", ascii "7")] [(ascii "X-Url", ascii "rtsp://a: b")] (by decide) (by decide)
    (by decide) (by decide) (by decide) (by decide)

end Airplay
end Aa2acp
