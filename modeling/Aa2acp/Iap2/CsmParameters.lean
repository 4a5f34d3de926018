import Aa2acp.Iap2.CarPlayProbe
import Aa2acp.Lib.Checked

/-!
# Parameters of control session messages

A list of parameters is written one behind the other, each as its length, its identifier
and its value, and `first_bytes_parameter` finds the first one of an identifier again.  The
monitored walk is that of the source index by index; it never reads outside the string, and
the string bounds its turns.
-/

namespace Aa2acp
namespace Iap2
namespace Csm

/-- An identifier and its value. -/
abbrev Parameter := UInt16 × Bytes

/-- A value whose length field does not wrap. -/
def Parameter.Fits (parameter : Parameter) : Prop := parameter.2.length ≤ 65531

/-- A parameter as `append_parameter` writes it. -/
def Parameter.written (parameter : Parameter) : Bytes :=
  writeU16 (UInt16.ofNat (parameter.2.length + 4)) ++ writeU16 parameter.1 ++ parameter.2

/-- The parameters that `append_parameter` writes one after the other. -/
def parameterList (parameters : List Parameter) : Bytes :=
  parameters.foldl (fun output parameter => appendParameter parameter.1 parameter.2 output) []

/-! ## The monitored walk -/

namespace Monitor

variable (word : ℕ)

def readU16 (bytes : Bytes) (offset : ℕ) : Checked UInt16 := do
  let high ← Checked.item bytes offset
  let position ← Checked.add word offset 1
  let low ← Checked.item bytes position
  .ok ((high.toUInt16 <<< 8) ||| low.toUInt16)

/-- The loop of `first_bytes_parameter`; the last turn must end it. -/
def firstBytesParameterFrom (payload : Bytes) (parameterId : UInt16) :
    ℕ → ℕ → Checked (Option Bytes)
  | 0, _ => .error .tooMany
  | turns + 1, offset => do
      let value ← Checked.add word offset 4
      if value ≤ payload.length then do
        let length ← readU16 word payload offset
        let position ← Checked.add word offset 2
        let id ← readU16 word payload position
        if length < 4 then .ok none
        else do
          let stop ← Checked.add word offset length.toNat
          if stop > payload.length then .ok none
          else if id = parameterId then do
            let count ← Checked.sub stop value
            let bytes ← Checked.slice word payload value count
            .ok (some bytes)
          else firstBytesParameterFrom payload parameterId turns stop
      else .ok none

def firstBytesParameter (payload : Bytes) (parameterId : UInt16) : Checked (Option Bytes) :=
  firstBytesParameterFrom word payload parameterId (payload.length / 4 + 1) 0

variable {word}

theorem readU16_eq {bytes : Bytes} {offset : ℕ} (hword : offset + 1 < word)
    (h : offset + 1 < bytes.length) :
    readU16 word bytes offset = .ok (Iap2.readU16 (bytes.drop offset) 0) := by
  have hitem : ∀ index, bytes.getD (offset + index) 0 = (bytes.drop offset).getD index 0 := by
    intro index
    rw [List.getD_eq_getElem?_getD, List.getD_eq_getElem?_getD, List.getElem?_drop]
  unfold readU16
  rw [Checked.item_eq 0 (by omega), Checked.ok_bind, Checked.add_eq hword, Checked.ok_bind,
    Checked.item_eq 0 h, Checked.ok_bind, ← Nat.add_zero offset, hitem]
  rw [Nat.add_zero, hitem]
  rfl

end Monitor

/-- A turn of the walk. -/
theorem firstBytesParameterFrom_succ (parameterId : UInt16) (fuel : ℕ) (rest : Bytes) :
    firstBytesParameterFrom parameterId (fuel + 1) rest =
      if rest.length < 4 then none
      else if readU16 rest 0 < 4 ∨ (readU16 rest 0).toNat > rest.length then none
      else if readU16 rest 2 = parameterId then some ((rest.take (readU16 rest 0).toNat).drop 4)
      else firstBytesParameterFrom parameterId fuel (rest.drop (readU16 rest 0).toNat) := rfl

namespace Monitor

variable {word : ℕ}

theorem firstBytesParameterFrom_eq (payload : Bytes) (parameterId : UInt16)
    (hword : payload.length + 65536 ≤ word) (turns fuel offset : ℕ)
    (hoffset : offset ≤ payload.length) (hturns : payload.length - offset < 4 * turns)
    (hfuel : payload.length - offset ≤ fuel) :
    firstBytesParameterFrom word payload parameterId turns offset =
      .ok (Csm.firstBytesParameterFrom parameterId fuel (payload.drop offset)) := by
  induction turns generalizing fuel offset with
  | zero => omega
  | succ turns ih =>
    have hrest : (payload.drop offset).length = payload.length - offset := List.length_drop
    unfold firstBytesParameterFrom
    rw [Checked.add_eq (by omega), Checked.ok_bind]
    by_cases hshort : payload.length - offset < 4
    · rw [if_neg (by omega)]
      cases fuel with
      | zero => rfl
      | succ fuel => rw [firstBytesParameterFrom_succ, if_pos (by omega)]
    · obtain ⟨fuel, rfl⟩ := Nat.exists_eq_succ_of_ne_zero (show fuel ≠ 0 by omega)
      have hsecond : Iap2.readU16 (payload.drop (offset + 2)) 0 =
          Iap2.readU16 (payload.drop offset) 2 := by
        unfold Iap2.readU16
        simp only [List.getD_eq_getElem?_getD, List.getElem?_drop, Nat.add_assoc]
      rw [if_pos (by omega), readU16_eq (by omega) (by omega), Checked.ok_bind,
        Checked.add_eq (by omega), Checked.ok_bind, readU16_eq (by omega) (by omega),
        Checked.ok_bind, hsecond, firstBytesParameterFrom_succ,
        if_neg (show ¬ (payload.drop offset).length < 4 by omega)]
      set length := Iap2.readU16 (payload.drop offset) 0 with hlength
      have hlt := length.toNat_lt
      by_cases hsmall : length < 4
      · rw [if_pos hsmall, if_pos (Or.inl hsmall)]
      · have hfour : 4 ≤ length.toNat := by
          rw [UInt16.lt_iff_toNat_lt] at hsmall
          exact Nat.le_of_not_lt hsmall
        rw [if_neg hsmall, Checked.add_eq (by omega), Checked.ok_bind]
        by_cases hlong : length.toNat > (payload.drop offset).length
        · rw [if_pos (by omega), if_pos (Or.inr hlong)]
        · have hgood : ¬ (length < 4 ∨ length.toNat > (payload.drop offset).length) :=
            not_or.mpr ⟨hsmall, hlong⟩
          rw [if_neg hgood, if_neg (show ¬ offset + length.toNat > payload.length by omega)]
          by_cases hid : Iap2.readU16 (payload.drop offset) 2 = parameterId
          · rw [if_pos hid, if_pos hid, Checked.sub_eq (by omega), Checked.ok_bind,
              Checked.slice_eq (by omega) (by omega), Checked.ok_bind, List.drop_take,
              List.drop_drop]
            have hcount : offset + length.toNat - (offset + 4) = length.toNat - 4 := by omega
            rw [hcount]
          · rw [if_neg hid, if_neg hid, List.drop_drop]
            exact ih fuel (offset + length.toNat) (by omega) (by omega) (by omega)

/-- No index is outside, no sum wraps and the turns suffice. -/
theorem firstBytesParameter_eq (payload : Bytes) (parameterId : UInt16)
    (hword : payload.length + 65536 ≤ word) :
    firstBytesParameter word payload parameterId =
      .ok (Csm.firstBytesParameter payload parameterId) := by
  have hwalk := firstBytesParameterFrom_eq payload parameterId hword (payload.length / 4 + 1)
    payload.length 0 (Nat.zero_le _) (by omega) (by omega)
  rwa [List.drop_zero] at hwalk

end Monitor

/-! ## Lists of parameters -/

theorem parameterList_eq_flatMap (parameters : List Parameter) :
    parameterList parameters = parameters.flatMap Parameter.written := by
  have hstep : ∀ (rest : List Parameter) (output : Bytes),
      rest.foldl (fun output parameter => appendParameter parameter.1 parameter.2 output) output =
        output ++ rest.flatMap Parameter.written := by
    intro rest
    induction rest with
    | nil => intro output; simp
    | cons parameter rest ih =>
      intro output
      rw [List.foldl_cons, ih, List.flatMap_cons]
      unfold appendParameter Parameter.written
      simp only [List.append_assoc]
  exact hstep parameters []

theorem length_written (parameter : Parameter) :
    parameter.written.length = parameter.2.length + 4 := by
  unfold Parameter.written
  simp only [List.length_append, length_writeU16]
  omega

/-- The walk at a parameter takes it or goes past it. -/
theorem firstBytesParameterFrom_written {parameter : Parameter} (hfits : parameter.Fits)
    (parameterId : UInt16) (fuel : ℕ) (rest : Bytes) :
    firstBytesParameterFrom parameterId (fuel + 1) (parameter.written ++ rest) =
      if parameter.1 = parameterId then some parameter.2
      else firstBytesParameterFrom parameterId fuel rest := by
  unfold Parameter.Fits at hfits
  have hlength := length_written parameter
  set field := UInt16.ofNat (parameter.2.length + 4) with hfield
  have hnat : field.toNat = parameter.2.length + 4 := by
    rw [hfield, UInt16.toNat_ofNat']
    exact Nat.mod_eq_of_lt (by omega)
  have hcons : parameter.written ++ rest =
      writeU16 field ++ (writeU16 parameter.1 ++ (parameter.2 ++ rest)) := by
    unfold Parameter.written
    simp only [List.append_assoc, hfield]
  have hfirst : readU16 (parameter.written ++ rest) 0 = field := by
    rw [hcons]
    exact readU16_writeU16 field (writeU16 parameter.1 ++ (parameter.2 ++ rest))
  have hsecond : readU16 (parameter.written ++ rest) 2 = parameter.1 := by
    rw [hcons]
    exact readU16_writeU16 parameter.1 (parameter.2 ++ rest)
  have hsmall : ¬ field < 4 := by
    rw [UInt16.lt_iff_toNat_lt, hnat]
    show ¬ parameter.2.length + 4 < 4
    omega
  have hvalue : parameter.written.drop 4 = parameter.2 := rfl
  have htotal : (parameter.written ++ rest).length = parameter.2.length + 4 + rest.length := by
    rw [List.length_append, hlength]
  rw [firstBytesParameterFrom_succ, hfirst, hsecond, if_neg (by omega), if_neg (by
    rintro (h | h)
    · exact hsmall h
    · omega), hnat, ← hlength, List.take_left, List.drop_left, hvalue]

theorem firstBytesParameterFrom_flatMap (parameterId : UInt16) (parameters : List Parameter)
    (hfits : ∀ parameter ∈ parameters, parameter.Fits) (fuel : ℕ)
    (hfuel : (parameters.flatMap Parameter.written).length ≤ fuel) :
    firstBytesParameterFrom parameterId fuel (parameters.flatMap Parameter.written) =
      (parameters.find? fun parameter => parameter.1 = parameterId).map Prod.snd := by
  induction parameters generalizing fuel with
  | nil => cases fuel <;> rfl
  | cons parameter parameters ih =>
    rw [List.flatMap_cons, List.length_append, length_written] at hfuel
    obtain ⟨fuel, rfl⟩ := Nat.exists_eq_succ_of_ne_zero (show fuel ≠ 0 by omega)
    rw [List.flatMap_cons, firstBytesParameterFrom_written (hfits parameter List.mem_cons_self)]
    by_cases hid : parameter.1 = parameterId
    · rw [if_pos hid, List.find?_cons_of_pos (by simpa using hid)]
      rfl
    · rw [if_neg hid, List.find?_cons_of_neg (by simpa using hid)]
      exact ih (fun other hother => hfits other (List.mem_cons_of_mem _ hother)) fuel (by omega)

/-- The first parameter of an identifier is the one that is found. -/
theorem firstBytesParameter_parameterList (parameters : List Parameter)
    (hfits : ∀ parameter ∈ parameters, parameter.Fits) (parameterId : UInt16) :
    firstBytesParameter (parameterList parameters) parameterId =
      (parameters.find? fun parameter => parameter.1 = parameterId).map Prod.snd := by
  rw [parameterList_eq_flatMap]
  exact firstBytesParameterFrom_flatMap parameterId parameters hfits _ le_rfl

/-- The message of `encode_bytes_parameter` is that of a list of one parameter. -/
theorem encodeBytesParameter_eq (id parameterId : UInt16) {value : Bytes}
    (h : value.length ≤ 65525) :
    encodeBytesParameter id parameterId value =
      Message.encode ⟨id, parameterList [(parameterId, value)]⟩ := by
  unfold encodeBytesParameter
  rw [if_neg (by omega), Nat.add_comm 4]
  rfl

theorem next_encodeBytesParameter (id parameterId : UInt16) {value : Bytes}
    (h : value.length ≤ 65525) (rest : Bytes) :
    (Decoder.mk (encodeBytesParameter id parameterId value ++ rest)).next =
      (some ⟨id, parameterList [(parameterId, value)]⟩, ⟨rest⟩) := by
  rw [encodeBytesParameter_eq id parameterId h]
  refine next_encode ?_ rest
  show (parameterList [(parameterId, value)]).length ≤ 65529
  rw [parameterList_eq_flatMap, List.flatMap_singleton, length_written]
  show value.length + 4 ≤ 65529
  omega

/-- Parameter lists are read as they are written, and a walk over anything else is safe and
ends. -/
theorem parameters_read_as_written :
    (∀ parameters : List Parameter, (∀ parameter ∈ parameters, parameter.Fits) →
      ∀ parameterId, firstBytesParameter (parameterList parameters) parameterId =
        (parameters.find? fun parameter => parameter.1 = parameterId).map Prod.snd) ∧
    (∀ (payload : Bytes) (parameterId : UInt16) (word : ℕ), payload.length + 65536 ≤ word →
      Monitor.firstBytesParameter word payload parameterId =
        .ok (firstBytesParameter payload parameterId)) ∧
    ∀ (id parameterId : UInt16) (value rest : Bytes), value.length ≤ 65525 →
      ∃ message, (Decoder.mk (encodeBytesParameter id parameterId value ++ rest)).next =
        (some message, ⟨rest⟩) ∧ message.id = id ∧
        firstBytesParameter message.payload parameterId = some value := by
  refine ⟨fun parameters hfits parameterId =>
    firstBytesParameter_parameterList parameters hfits parameterId,
    fun payload parameterId word hword =>
      Monitor.firstBytesParameter_eq payload parameterId hword, ?_⟩
  intro id parameterId value rest hvalue
  refine ⟨_, next_encodeBytesParameter id parameterId hvalue rest, rfl, ?_⟩
  have hfits : ∀ parameter ∈ [(parameterId, value)], Parameter.Fits parameter := by
    intro parameter hparameter
    rw [List.mem_singleton] at hparameter
    rw [hparameter]
    show value.length ≤ 65531
    omega
  show firstBytesParameter (parameterList [(parameterId, value)]) parameterId = some value
  rw [firstBytesParameter_parameterList _ hfits, List.find?_cons_of_pos (by simp)]
  rfl

/-- A value that looks like a parameter, an identifier that comes twice and a length of zero
in a payload. -/
theorem parameters_read_as_written_small :
    firstBytesParameter (parameterList [(1, [0, 5, 0, 2, 9]), (2, [7]), (2, [8])]) 2 = some [7] ∧
    Monitor.firstBytesParameter (2 ^ 64) [0, 0, 0, 2, 7] 2 = .ok none ∧
    ∃ message, (Decoder.mk (encodeBytesParameter 0xaa02 0 [1, 2] ++ [])).next =
      (some message, ⟨[]⟩) ∧ message.id = 0xaa02 ∧
      firstBytesParameter message.payload 0 = some [1, 2] := by
  obtain ⟨hlists, hwalks, hmessages⟩ := parameters_read_as_written
  refine ⟨?_, ?_, hmessages 0xaa02 0 [1, 2] [] (by decide)⟩
  · rw [hlists _ (by simp [Parameter.Fits]) 2]
    rfl
  · rw [hwalks [0, 0, 0, 2, 7] 2 (2 ^ 64) (by decide)]
    rfl

end Csm
end Iap2
end Aa2acp
