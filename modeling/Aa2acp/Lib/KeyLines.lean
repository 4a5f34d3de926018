import Aa2acp.Lib.Text

/-!
# Files of keyed lines

A line of such a file is a key, an equals sign and a value.  There is no quoting: a line is
read back when neither part has a newline in it and the key no equals sign.
-/

namespace Aa2acp
namespace KeyLines

open Text

def keyLine (key value : Bytes) : Bytes := key ++ [0x3D] ++ value ++ [0x0A]

/-- A line of the file is one line of the text. -/
theorem getLines_keyLine {key value : Bytes} (hkey : 0x0A ∉ key) (hvalue : 0x0A ∉ value)
    (rest : Bytes) :
    getLines (keyLine key value ++ rest) = (key ++ 0x3D :: value) :: getLines rest := by
  have hline : 0x0A ∉ key ++ 0x3D :: value := by
    simp only [List.mem_append, List.mem_cons, not_or]
    exact ⟨hkey, by decide, hvalue⟩
  rw [← getLines_append_newline hline]
  simp [keyLine]

/-- What is before the first equals sign of a line, and what is behind it. -/
theorem split_key {key : Bytes} (hkey : 0x3D ∉ key) (value : Bytes) :
    find [0x3D] (key ++ 0x3D :: value) = some key.length ∧
      (key ++ 0x3D :: value).take key.length = key ∧
      (key ++ 0x3D :: value).drop (key.length + 1) = value := by
  refine ⟨find_singleton hkey value, List.take_left, ?_⟩
  rw [List.append_cons]
  exact List.drop_left' List.length_append

/-- A file of keyed lines, without what else there is in it. -/
def keyLines (entries : List (Bytes × Bytes)) : Bytes :=
  entries.flatMap fun entry => keyLine entry.1 entry.2

theorem getLines_keyLines {entries : List (Bytes × Bytes)}
    (h : ∀ entry ∈ entries, 0x0A ∉ entry.1 ∧ 0x0A ∉ entry.2) :
    getLines (keyLines entries) = entries.map fun entry => entry.1 ++ 0x3D :: entry.2 := by
  induction entries with
  | nil => rfl
  | cons entry entries ih =>
      obtain ⟨⟨hkey, hvalue⟩, hentries⟩ := List.forall_mem_cons.mp h
      rw [keyLines, List.flatMap_cons, getLines_keyLine hkey hvalue, List.map_cons]
      exact congrArg _ (ih hentries)

end KeyLines
end Aa2acp
