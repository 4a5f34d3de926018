import Aa2acp.Bridge.ManagementUi

/-!
# Forms

A browser sends the fields of a form in one of many encodings: most bytes may stand for
themselves or be escaped, a space has two short forms, and the digits of an escape have
two cases.  `url_decode` and `form_field` give the same fields back for all of them.
-/

namespace Aa2acp
namespace Bridge
namespace Management

open Text

/-! ## What an encoding is -/

/-- The two digits for a number below 16. -/
def hexDigits (value : ℕ) : List UInt8 :=
  [(ascii "0123456789ABCDEF").getD value 0, (ascii "0123456789abcdef").getD value 0]

/-- Bytes that have a meaning in a form: ampersand, equals sign, plus, percent, and a space. -/
def reserved : List UInt8 := [0x26, 0x3D, 0x2B, 0x25, 0x20]

/-- The text is an encoding of the value. -/
inductive Encodes : Bytes → Bytes → Prop
  | nil : Encodes [] []
  | plain {byte : UInt8} {text value : Bytes} (hbyte : byte ∉ reserved) (h : Encodes text value) :
      Encodes (byte :: text) (byte :: value)
  | plus {text value : Bytes} (h : Encodes text value) : Encodes (0x2B :: text) (0x20 :: value)
  | percent {byte high low : UInt8} {text value : Bytes} (hhigh : high ∈ hexDigits (byte.toNat / 16))
      (hlow : low ∈ hexDigits (byte.toNat % 16)) (h : Encodes text value) :
      Encodes (0x25 :: high :: low :: text) (byte :: value)

/-- The text is an encoding of a name and a value; an empty value may be left out with its
equals sign. -/
inductive EncodesPair : Bytes → Bytes × Bytes → Prop
  | both {nameText valueText name value : Bytes} (hname : Encodes nameText name)
      (hvalue : Encodes valueText value) : EncodesPair (nameText ++ 0x3D :: valueText) (name, value)
  | bare {nameText name : Bytes} (hname : Encodes nameText name) : EncodesPair nameText (name, [])

/-- The text is an encoding of a list of fields. -/
def EncodesForm (text : Bytes) (pairs : List (Bytes × Bytes)) : Prop :=
  ∃ texts, List.Forall₂ EncodesPair texts pairs ∧ text = [0x26].intercalate texts

/-! ## Bytes -/

theorem hexDigit_of_mem : ∀ value < 16, ∀ digit ∈ hexDigits value,
    hexDigit? digit = some value ∧ digit ≠ 0x26 ∧ digit ≠ 0x3D := by
  have hall : ∀ value < 16, (hexDigits value).all fun digit =>
      hexDigit? digit = some value ∧ digit ≠ 0x26 ∧ digit ≠ 0x3D := by decide
  intro value hvalue digit hdigit
  exact of_decide_eq_true (List.all_eq_true.mp (hall value hvalue) digit hdigit)

/-- A byte that does not begin an escape. -/
theorem urlDecode_cons {byte : UInt8} (hbyte : byte ≠ 0x25) (rest : Bytes) :
    urlDecode (byte :: rest) = (if byte = 0x2B then 0x20 else byte) :: urlDecode rest := by
  rw [urlDecode.eq_def]
  dsimp only
  rw [if_neg hbyte]
  split <;> rfl

theorem urlDecode_percent {high low : UInt8} {h l : ℕ} (hhigh : hexDigit? high = some h)
    (hlow : hexDigit? low = some l) (rest : Bytes) :
    urlDecode (0x25 :: high :: low :: rest) = UInt8.ofNat (h * 16 + l) :: urlDecode rest := by
  rw [urlDecode.eq_def]
  dsimp only
  rw [if_neg (by decide), if_pos rfl, hhigh, hlow]

theorem Encodes.urlDecode {text value : Bytes} (h : Encodes text value) : urlDecode text = value := by
  induction h with
  | nil => rfl
  | plain hbyte _ ih =>
      simp only [reserved, List.mem_cons, List.not_mem_nil, or_false, not_or] at hbyte
      rw [urlDecode_cons hbyte.2.2.2.1, if_neg hbyte.2.2.1, ih]
  | plus _ ih => rw [urlDecode_cons (by decide), if_pos rfl, ih]
  | @percent byte high low text value hhigh hlow _ ih =>
      have hbyte : byte.toNat < 256 := byte.toNat_lt
      obtain ⟨hhigh, -⟩ := hexDigit_of_mem _ (by omega) high hhigh
      obtain ⟨hlow, -⟩ := hexDigit_of_mem _ (by omega) low hlow
      rw [urlDecode_percent hhigh hlow, Nat.div_add_mod', UInt8.ofNat_toNat, ih]

/-- The separators are always escaped. -/
theorem Encodes.no_separator {text value : Bytes} (h : Encodes text value) :
    (0x26 : UInt8) ∉ text ∧ (0x3D : UInt8) ∉ text := by
  induction h with
  | nil => simp
  | plain hbyte _ ih =>
      simp only [reserved, List.mem_cons, List.not_mem_nil, or_false, not_or] at hbyte
      simp only [List.mem_cons, not_or]
      exact ⟨⟨Ne.symm hbyte.1, ih.1⟩, Ne.symm hbyte.2.1, ih.2⟩
  | plus _ ih => simpa using ih
  | @percent byte high low text value hhigh hlow _ ih =>
      have hbyte : byte.toNat < 256 := byte.toNat_lt
      obtain ⟨-, hhighAmp, hhighEq⟩ := hexDigit_of_mem _ (by omega) high hhigh
      obtain ⟨-, hlowAmp, hlowEq⟩ := hexDigit_of_mem _ (by omega) low hlow
      simp only [List.mem_cons, not_or]
      exact ⟨⟨by decide, Ne.symm hhighAmp, Ne.symm hlowAmp, ih.1⟩,
        by decide, Ne.symm hhighEq, Ne.symm hlowEq, ih.2⟩

/-! ## Parts -/

theorem EncodesPair.no_ampersand {text : Bytes} {pair : Bytes × Bytes} (h : EncodesPair text pair) :
    (0x26 : UInt8) ∉ text := by
  cases h with
  | both hname hvalue =>
      simp only [List.mem_append, List.mem_cons, not_or]
      exact ⟨hname.no_separator.1, by decide, hvalue.no_separator.1⟩
  | bare hname => exact hname.no_separator.1

/-- The first equals sign of a part separates the name from the value. -/
theorem EncodesPair.decoded {text : Bytes} {pair : Bytes × Bytes} (h : EncodesPair text pair) :
    partName text = pair.1 ∧ partValue text = pair.2 := by
  unfold partName partValue
  cases h with
  | @both nameText valueText name value hname hvalue =>
      have hvalueText : (nameText ++ 0x3D :: valueText).drop (nameText.length + 1) = valueText := by
        rw [List.append_cons, List.drop_left' (by simp)]
      rw [find_singleton hname.no_separator.2]
      dsimp only
      rw [List.take_left, hvalueText, hname.urlDecode, hvalue.urlDecode]
      exact ⟨rfl, rfl⟩
  | bare hname =>
      rw [find_singleton_eq_none hname.no_separator.2]
      exact ⟨hname.urlDecode, rfl⟩

/-! ## Forms -/

theorem formParts_of_not_mem {part : Bytes} (h : (0x26 : UInt8) ∉ part) : formParts part = [part] := by
  induction part with
  | nil => rfl
  | cons byte part ih =>
      rw [List.mem_cons, not_or] at h
      rw [formParts, if_neg (Ne.symm h.1), ih h.2]

theorem formParts_append {part : Bytes} (h : (0x26 : UInt8) ∉ part) (rest : Bytes) :
    formParts (part ++ 0x26 :: rest) = part :: formParts rest := by
  induction part with
  | nil => rw [List.nil_append, formParts, if_pos rfl]
  | cons byte part ih =>
      rw [List.mem_cons, not_or] at h
      rw [List.cons_append, formParts, if_neg (Ne.symm h.1), ih h.2]

/-- The parts between the ampersands are those that were joined. -/
theorem formParts_intercalate {texts : List Bytes} (hne : texts ≠ [])
    (h : ∀ text ∈ texts, (0x26 : UInt8) ∉ text) : formParts ([0x26].intercalate texts) = texts := by
  induction texts with
  | nil => exact absurd rfl hne
  | cons text texts ih =>
      obtain ⟨htext, htexts⟩ := List.forall_mem_cons.mp h
      cases texts with
      | nil => simpa using formParts_of_not_mem htext
      | cons next texts =>
          have hjoin : [0x26].intercalate (text :: next :: texts) =
              text ++ 0x26 :: [0x26].intercalate (next :: texts) := by
            simp [List.intercalate]
          rw [hjoin, formParts_append htext, ih (List.cons_ne_nil _ _) htexts]

theorem no_ampersand_of_forall₂ {texts : List Bytes} {pairs : List (Bytes × Bytes)}
    (h : List.Forall₂ EncodesPair texts pairs) : ∀ text ∈ texts, (0x26 : UInt8) ∉ text := by
  induction h with
  | nil => simp
  | cons hpair _ ih => exact List.forall_mem_cons.mpr ⟨hpair.no_ampersand, ih⟩

theorem find_part {texts : List Bytes} {pairs : List (Bytes × Bytes)}
    (h : List.Forall₂ EncodesPair texts pairs) (wanted : Bytes) :
    (texts.find? fun part => partName part = wanted).map partValue =
      (pairs.find? fun pair => pair.1 = wanted).map Prod.snd := by
  induction h with
  | nil => rfl
  | cons hpair _ ih =>
      obtain ⟨hname, hvalue⟩ := hpair.decoded
      rw [List.find?_cons, List.find?_cons, hname]
      split
      · rw [Option.map_some, Option.map_some, hvalue]
      · exact ih

/-- Whichever encoding of a form arrives, a field that has a name is the first of that name. -/
theorem formField_of_encodesForm (text : Bytes) (pairs : List (Bytes × Bytes)) (wanted : Bytes)
    (htext : EncodesForm text pairs) (hwanted : wanted ≠ []) :
    formField text wanted = (pairs.find? fun pair => pair.1 = wanted).map Prod.snd := by
  obtain ⟨texts, hpairs, rfl⟩ := htext
  unfold formField
  cases hpairs with
  | nil =>
      -- the one part of an empty text has no name
      have hname : ¬ partName [] = wanted := fun h => hwanted h.symm
      simp [List.intercalate, formParts, hname]
  | cons hpair hpairs =>
      have hall := List.Forall₂.cons hpair hpairs
      rw [formParts_intercalate (List.cons_ne_nil _ _) (no_ampersand_of_forall₂ hall), find_part hall]

/-- `a+b=%3d&a%20B=1`: the names differ in a letter, not only in how they are escaped. -/
theorem formField_of_encodesForm_escaped :
    formField (ascii "a+b=%3d&a%20B=1") (ascii "a B") = some (ascii "1") := by
  have hfirst : EncodesPair (ascii "a+b=%3d") (ascii "a b", ascii "=") :=
    @EncodesPair.both (ascii "a+b") (ascii "%3d") _ _ (.plain (by decide) (.plus (.plain (by decide) .nil)))
      (.percent (by decide) (by decide) .nil)
  have hsecond : EncodesPair (ascii "a%20B=1") (ascii "a B", ascii "1") :=
    @EncodesPair.both (ascii "a%20B") (ascii "1") _ _
      (.plain (by decide) (.percent (by decide) (by decide) (.plain (by decide) .nil)))
      (.plain (by decide) .nil)
  exact formField_of_encodesForm _ _ _ ⟨_, .cons hfirst (.cons hsecond .nil), by decide⟩ (by decide)

end Management
end Bridge
end Aa2acp
