import Aa2acp.Lib.Bytes
import Aa2acp.Lib.Framing

/-!
# Readers of a stream

A reader takes bytes from the front of a stream and gives a value, or fails.  On the text
that stands for a value it is exact (`ExactOn`): it takes this text and no more, and it
fails on every part of it.  Readers that come one after the other are exact on the texts
put together, so a format needs one lemma for each kind of field.
-/

namespace Aa2acp

/-- A reader: a value and what is left of the stream. -/
abbrev Reader (α : Type) := StateT Bytes Option α

namespace Reader

variable {α β : Type}

/-- The next `size` bytes. -/
def bytes (size : ℕ) : Reader Bytes := fun stream =>
  if stream.length < size then none else some (stream.take size, stream.drop size)

/-- Go on only under a condition. -/
def require (condition : Prop) [Decidable condition] : Reader Unit :=
  if condition then pure () else failure

/-- The text stands for the value: it is read as a whole, and no part of it is read. -/
structure ExactOn (reader : Reader α) (text : Bytes) (value : α) : Prop where
  whole : ∀ rest, reader.run (text ++ rest) = some (value, rest)
  part : ∀ part more, more ≠ [] → part ++ more = text → reader.run part = none

theorem exactOn_pure (value : α) : ExactOn (pure value) [] value where
  whole _ := rfl
  part _ _ hmore hpart := absurd (List.append_eq_nil_iff.mp hpart).2 hmore

theorem exactOn_require {condition : Prop} [Decidable condition] (h : condition) :
    ExactOn (require condition) [] () := by
  rw [require, if_pos h]
  exact exactOn_pure ()

theorem exactOn_bytes {text : Bytes} {size : ℕ} (h : text.length = size) :
    ExactOn (bytes size) text text where
  whole rest := by
    have hroom : ¬ (text ++ rest).length < size := by
      rw [List.length_append]
      omega
    rw [StateT.run, bytes, if_neg hroom, List.take_left' h, List.drop_left' h]
  part part more hmore hpart := by
    have hpos := List.length_pos_iff.mpr hmore
    have hlength := congrArg List.length hpart
    rw [List.length_append] at hlength
    rw [StateT.run, bytes, if_pos (by omega)]

/-- One reader after the other. -/
theorem ExactOn.bind {reader : Reader α} {next : α → Reader β} {text more : Bytes} {value : α}
    {result : β} (h : ExactOn reader text value) (hnext : ExactOn (next value) more result) :
    ExactOn (reader >>= next) (text ++ more) result where
  whole rest := by
    rw [StateT.run_bind, List.append_assoc, h.whole]
    exact hnext.whole rest
  part part missing hmissing hpart := by
    rw [StateT.run_bind]
    rcases Framing.whole_or_part hpart with ⟨begun, rfl, hbegun⟩ | ⟨rest, hrest, htext, -⟩
    · -- the second text breaks off
      rw [h.whole]
      exact hnext.part begun missing hmissing hbegun
    · rw [h.part part rest hrest htext]
      rfl

/-- A reader that takes nothing does not show in the text. -/
theorem ExactOn.then {reader : Reader α} {next : α → Reader β} {more : Bytes} {value : α} {result : β}
    (h : ExactOn reader [] value) (hnext : ExactOn (next value) more result) :
    ExactOn (reader >>= next) more result :=
  List.nil_append more ▸ h.bind hnext

end Reader
end Aa2acp
