import Aa2acp.Lib.Bytes
import Mathlib.Data.List.DropRight

/-!
# Text in byte strings

The operations of the C++ string library that the header parsers are made of, on byte
strings: `find`, `getline`, `find_first_not_of` and `find_last_not_of` for blanks,
`tolower` in the C locale and `from_chars`.

Where a needle is found depends only on the text up to the needle's end
(`find_append`, `find_of_append`), so a parser that looks for the end of its headers
sees the same end however much has arrived behind it.
-/

namespace Aa2acp
namespace Text

/-- Where the needle begins first. -/
def find (needle : Bytes) : Bytes → Option ℕ
  | [] => if needle = [] then some 0 else none
  | byte :: rest =>
      if needle.isPrefixOf (byte :: rest) then some 0 else (find needle rest).map (· + 1)

/-- What `std::getline` returns call after call; no line follows a newline at the end. -/
def getLines : Bytes → List Bytes
  | [] => []
  | byte :: rest =>
      if byte = 0x0A then [] :: getLines rest
      else
        match getLines rest with
        | [] => [[byte]]
        | line :: lines => (byte :: line) :: lines

/-- A line without the carriage return at its end. -/
def popReturn (line : Bytes) : Bytes := if line.getLast? = some 0x0D then line.dropLast else line

def isBlank (byte : UInt8) : Bool := byte = 0x20 ∨ byte = 0x09

/-- The text from its first character that is not a blank. -/
def trimLeft (text : Bytes) : Bytes := text.dropWhile isBlank

/-- The text between its first and its last character that is not a blank. -/
def trim (text : Bytes) : Bytes := (trimLeft text).rdropWhile isBlank

def toLower (byte : UInt8) : UInt8 := if 0x41 ≤ byte ∧ byte ≤ 0x5A then byte + 0x20 else byte

def lower (text : Bytes) : Bytes := text.map toLower

def isDigit (byte : UInt8) : Bool := 0x30 ≤ byte ∧ byte ≤ 0x39

/-- The number that a string of digits spells. -/
def ofDigits (digits : Bytes) : ℕ := digits.foldl (fun value digit => value * 10 + (digit.toNat - 0x30)) 0

/-- `std::from_chars` for an unsigned type with this many values: the number at the front of
the text and what follows it, or no value when there is no digit or the number does not fit. -/
def fromChars (values : ℕ) (text : Bytes) : Option (ℕ × Bytes) :=
  let digits := text.takeWhile isDigit
  if digits = [] then none
  else if ofDigits digits < values then some (ofDigits digits, text.dropWhile isDigit)
  else none

/-- `std::from_chars` for an `int`: a minus sign may stand in front. -/
def fromCharsInt : Bytes → Option (ℤ × Bytes)
  | [] => none
  | byte :: rest =>
      if byte = 0x2D then (fromChars (2 ^ 31 + 1) rest).map fun read => (-(read.1 : ℤ), read.2)
      else (fromChars (2 ^ 31) (byte :: rest)).map fun read => ((read.1 : ℤ), read.2)

/-! ## Searching -/

variable {needle text more : Bytes} {index : ℕ}

/-- The needle that was found is part of the text. -/
theorem find_le (h : find needle text = some index) : index + needle.length ≤ text.length := by
  induction text generalizing index with
  | nil =>
      unfold find at h
      split at h
      · rename_i hneedle
        cases h
        rw [hneedle]
        exact Nat.le_refl 0
      · cases h
  | cons byte rest ih =>
      -- the needle is here, or further on and found by the recursion
      unfold find at h
      split at h
      · rename_i hstarts
        cases h
        rw [Nat.zero_add]
        exact (List.isPrefixOf_iff_prefix.mp hstarts).length_le
      · obtain ⟨other, hother, rfl⟩ := Option.map_eq_some_iff.mp h
        have hle := ih hother
        rw [List.length_cons]
        omega

/-- What follows does not change where the needle begins first. -/
theorem find_append (h : find needle text = some index) (more : Bytes) :
    find needle (text ++ more) = some index := by
  induction text generalizing index with
  | nil =>
      have hle := find_le h
      have hneedle : needle = [] := List.length_eq_zero_iff.mp (by rw [List.length_nil] at hle; omega)
      have hindex : index = 0 := by rw [List.length_nil] at hle; omega
      subst hneedle hindex
      cases more <;> rfl
  | cons byte rest ih =>
      unfold find at h
      rw [List.cons_append]
      unfold find
      split at h
      · rename_i hstarts
        cases h
        have hlonger := (List.isPrefixOf_iff_prefix.mp hstarts).trans
          (List.prefix_append (byte :: rest) more)
        exact if_pos (List.isPrefixOf_iff_prefix.mpr hlonger)
      · rename_i hstarts
        obtain ⟨other, hother, rfl⟩ := Option.map_eq_some_iff.mp h
        rw [if_neg, ih hother]
        · rfl
        · intro hlonger
          -- a needle that fits into the text begins there already
          have hle := find_le hother
          apply hstarts
          apply List.isPrefixOf_iff_prefix.mpr
          exact List.prefix_of_prefix_length_le (List.isPrefixOf_iff_prefix.mp hlonger)
            (List.prefix_append (byte :: rest) more) (by rw [List.length_cons]; omega)

/-- A needle that ends inside the first part begins there. -/
theorem find_of_append (h : find needle (text ++ more) = some index)
    (hle : index + needle.length ≤ text.length) : find needle text = some index := by
  induction text generalizing index with
  | nil =>
      rw [List.length_nil] at hle
      have hneedle : needle = [] := List.length_eq_zero_iff.mp (by omega)
      have hindex : index = 0 := by omega
      rw [hneedle, hindex]
      rfl
  | cons byte rest ih =>
      rw [List.cons_append] at h
      unfold find at h ⊢
      split at h
      · rename_i hlonger
        cases h
        apply if_pos
        apply List.isPrefixOf_iff_prefix.mpr
        -- both are beginnings of the longer text
        exact List.prefix_of_prefix_length_le (List.isPrefixOf_iff_prefix.mp hlonger)
          (List.prefix_append (byte :: rest) more) (by omega)
      · rename_i hlonger
        obtain ⟨other, hother, rfl⟩ := Option.map_eq_some_iff.mp h
        -- a needle that began here would begin here in the longer text, too
        have hshorter : ¬ needle.isPrefixOf (byte :: rest) := by
          intro hstarts
          apply hlonger
          exact List.isPrefixOf_iff_prefix.mpr ((List.isPrefixOf_iff_prefix.mp hstarts).trans
            (List.prefix_append (byte :: rest) more))
        rw [if_neg hshorter, ih hother (by rw [List.length_cons] at hle; omega)]
        rfl

/-- A needle that ends behind the first part is not in it. -/
theorem find_eq_none_of_append (h : find needle (text ++ more) = some index)
    (hlt : text.length < index + needle.length) : find needle text = none := by
  cases hfind : find needle text with
  | none => rfl
  | some other =>
      -- found in the first part, it would be found at the same place in the whole text
      have hsame := find_append hfind more
      have hle := find_le hfind
      rw [h] at hsame
      cases hsame
      omega

/-- A needle that is there is found, there or before. -/
theorem find_of_prefix {count : ℕ} (h : needle <+: text.drop count) :
    ∃ index ≤ count, find needle text = some index := by
  induction text generalizing count with
  | nil =>
      rw [List.drop_nil, List.prefix_nil] at h
      exact ⟨0, Nat.zero_le _, by rw [h]; rfl⟩
  | cons byte rest ih =>
      unfold find
      split
      · exact ⟨0, Nat.zero_le _, rfl⟩
      · rename_i hstarts
        cases count with
        | zero => exact absurd (List.isPrefixOf_iff_prefix.mpr h) hstarts
        | succ count =>
            obtain ⟨index, hle, hindex⟩ := ih h
            exact ⟨index + 1, Nat.succ_le_succ hle, by rw [hindex]; rfl⟩

/-- The needle begins where it was found. -/
theorem prefix_of_find (h : find needle text = some index) : needle <+: text.drop index := by
  induction text generalizing index with
  | nil =>
      unfold find at h
      split at h
      · rename_i hneedle
        rw [hneedle]
        exact List.nil_prefix
      · cases h
  | cons byte rest ih =>
      unfold find at h
      split at h
      · rename_i hstarts
        cases h
        exact List.isPrefixOf_iff_prefix.mp hstarts
      · obtain ⟨other, hother, rfl⟩ := Option.map_eq_some_iff.mp h
        exact ih hother

/-- Up to the place where it was found with more behind it, the needle is found everywhere. -/
theorem find_drop_of_find (h : find (needle ++ more) text = some index) {cursor : ℕ}
    (hcursor : cursor ≤ index) :
    ∃ length ≤ index - cursor, find needle (text.drop cursor) = some length := by
  apply find_of_prefix
  rw [List.drop_drop, Nat.add_sub_cancel' hcursor]
  exact (List.prefix_append needle more).trans (prefix_of_find h)

/-- A text that is long enough for the needle that was found may be cut off behind it. -/
theorem find_take (h : find needle text = some index) {size : ℕ} (hsize : index + needle.length ≤ size) :
    find needle (text.take size) = some index := by
  have hle := find_le h
  rw [← List.take_append_drop size text] at h
  apply find_of_append h
  rw [List.length_take]
  omega

/-- A needle does not begin before its first character does. -/
theorem find_skip {first : UInt8} {rest : Bytes} (h : first ∉ text) :
    find (first :: needle) (text ++ rest) = (find (first :: needle) rest).map (· + text.length) := by
  induction text with
  | nil => simp
  | cons byte text ih =>
      have hne : first ≠ byte := fun heq => h (heq ▸ List.mem_cons_self)
      rw [List.cons_append, find, if_neg, ih (fun hmem => h (List.mem_cons_of_mem _ hmem)),
        Option.map_map]
      · simp [Function.comp_def, Nat.add_assoc]
      · simp [List.isPrefixOf, hne]

/-- The first line of a text. -/
theorem getLines_append_newline {line : Bytes} (h : 0x0A ∉ line) (rest : Bytes) :
    getLines (line ++ 0x0A :: rest) = line :: getLines rest := by
  induction line with
  | nil => simp [getLines]
  | cons byte line ih =>
      rw [List.mem_cons, not_or] at h
      rw [List.cons_append, getLines, if_neg (Ne.symm h.1), ih h.2]

/-- A character is found where it occurs first. -/
theorem find_singleton {byte : UInt8} {before : Bytes} (h : byte ∉ before) (rest : Bytes) :
    find [byte] (before ++ byte :: rest) = some before.length := by
  rw [find_skip h]
  simp [find]

/-- A character that does not occur is not found. -/
theorem find_singleton_eq_none {byte : UInt8} (h : byte ∉ text) : find [byte] text = none := by
  rw [← List.append_nil text, find_skip h]
  rfl

/-! ## Blanks and numbers -/

theorem trimLeft_eq (text : Bytes) :
    ∃ blanks, trimLeft text = trim text ++ blanks ∧ ∀ byte ∈ blanks, isBlank byte = true :=
  ⟨(trimLeft text).rtakeWhile isBlank, List.rdropWhile_append_rtakeWhile.symm,
    fun _ hbyte => List.mem_rtakeWhile_imp hbyte⟩

/-- The last character of the text is a blank. -/
def EndsInBlank (text : Bytes) : Prop := ∃ byte, text.getLast? = some byte ∧ isBlank byte = true

instance (text : Bytes) : Decidable (EndsInBlank text) :=
  inferInstanceAs (Decidable (∃ byte ∈ text.getLast?, isBlank byte = true))

theorem isBlank_eq_false_of_isDigit {byte : UInt8} (h : isDigit byte = true) : isBlank byte = false := by
  have hdigit : 0x30 ≤ byte ∧ byte ≤ 0x39 := of_decide_eq_true h
  apply decide_eq_false
  rintro (rfl | rfl)
  · exact absurd hdigit.1 (by decide)
  · exact absurd hdigit.1 (by decide)

/-- A number up to the end of the text. -/
theorem fromChars_eq_some_nil {values value : ℕ} :
    fromChars values text = some (value, []) ↔
      text ≠ [] ∧ (∀ byte ∈ text, isDigit byte = true) ∧ ofDigits text < values ∧
        ofDigits text = value := by
  unfold fromChars
  dsimp only
  constructor
  · intro h
    split at h
    · cases h
    · rename_i hdigits
      split at h
      · rename_i hlt
        have hpair := Prod.mk.inj (Option.some.inj h)
        -- nothing is left, so every character was a digit
        have hall : ∀ byte ∈ text, isDigit byte = true := List.dropWhile_eq_nil_iff.mp hpair.2
        have hself : text.takeWhile isDigit = text := List.takeWhile_eq_self_iff.mpr hall
        rw [hself] at hdigits hlt hpair
        exact ⟨hdigits, hall, hlt, hpair.1⟩
      · cases h
  · rintro ⟨hnil, hall, hlt, rfl⟩
    have hself : text.takeWhile isDigit = text := List.takeWhile_eq_self_iff.mpr hall
    rw [hself, if_neg hnil, if_pos hlt, List.dropWhile_eq_nil_iff.mpr hall]

/-- What is cut off on the left is not the end of the text. -/
theorem getLast?_trimLeft (h : trimLeft text ≠ []) : (trimLeft text).getLast? = text.getLast? :=
  calc (trimLeft text).getLast?
      = (text.takeWhile isBlank ++ trimLeft text).getLast? := (List.getLast?_append_of_ne_nil _ h).symm
    _ = text.getLast? := by rw [trimLeft, List.takeWhile_append_dropWhile]

section Trailing

variable {values value : ℕ} (hnumber : fromChars values (trim text) = some (value, []))

include hnumber

theorem trimLeft_ne_nil : trimLeft text ≠ [] := by
  obtain ⟨blanks, hleft, -⟩ := trimLeft_eq text
  rw [hleft]
  exact List.append_ne_nil_of_left_ne_nil (fromChars_eq_some_nil.mp hnumber).1 blanks

/-- Trimmed on the left only, the number is still read up to the end when no blank follows. -/
theorem fromChars_trimLeft (h : ¬ EndsInBlank text) :
    fromChars values (trimLeft text) = some (value, []) := by
  obtain ⟨blanks, hleft, hblanks⟩ := trimLeft_eq text
  have hlast := getLast?_trimLeft (trimLeft_ne_nil hnumber)
  cases hcases : blanks.getLast? with
  | none =>
      -- nothing was cut off on the right
      have hempty : blanks = [] := List.getLast?_eq_none_iff.mp hcases
      rw [hleft, hempty, List.append_nil]
      exact hnumber
  | some byte =>
      -- the last of the blanks that were cut off ends the text
      refine absurd ⟨byte, ?_, hblanks byte (List.mem_of_getLast? hcases)⟩ h
      rw [← hlast, hleft, List.getLast?_append, hcases]
      rfl

/-- A blank at the end is not part of a number. -/
theorem fromChars_trimLeft_ne (h : EndsInBlank text) (other : ℕ) :
    fromChars values (trimLeft text) ≠ some (other, []) := by
  obtain ⟨byte, hbyte, hblank⟩ := h
  intro hread
  rw [← getLast?_trimLeft (trimLeft_ne_nil hnumber)] at hbyte
  -- a number that is read to the end ends in a digit
  have hdigit := (fromChars_eq_some_nil.mp hread).2.1 byte (List.mem_of_getLast? hbyte)
  rw [isBlank_eq_false_of_isDigit hdigit] at hblank
  cases hblank

end Trailing

end Text
end Aa2acp
