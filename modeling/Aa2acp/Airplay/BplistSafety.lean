import Aa2acp.Airplay.BplistMonitor
import Aa2acp.Airplay.PlistMeasure

/-!
# Decoding is memory safe and bounded on every input

The monitored decoder never faults and does what the model does.  Reading stays inside
the file because every offset and count is compared with the length before it is used;
the sums of `materialized_bytes_`, which go on after a limit was exceeded, stay small
because at most `kMaxMaterializedNodes` objects ever add to them.
-/

namespace Aa2acp
namespace Airplay
namespace Monitor

/-- Words in which the sizes that come up with a file of this length fit. -/
def Roomy (word length : ℕ) : Prop := 98304 * length + 2 ^ 18 ≤ word

/-! ## Reading -/

section Reading

variable {word : ℕ} {bytes : Bytes} {offset : ℕ}

theorem readBytes_eq (hword : bytes.length < word) {left index result : ℕ}
    (h : offset + index + left ≤ bytes.length) :
    readBytes word bytes offset left index result =
      .ok (((bytes.drop (offset + index)).take left).foldl
        (fun value byte => value * 256 + byte.toNat) result) := by
  induction left generalizing index result with
  | zero => simp [readBytes]
  | succ left ih =>
      have hindex : offset + index < bytes.length := by omega
      have hdrop : bytes.drop (offset + index) =
          bytes.getD (offset + index) 0 :: bytes.drop (offset + (index + 1)) := by
        rw [List.getD_eq_getElem?_getD, List.getElem?_eq_getElem hindex]
        exact List.drop_eq_getElem_cons hindex
      unfold readBytes
      rw [Checked.add_eq (by omega), Checked.ok_bind, Checked.item_eq 0 hindex, Checked.ok_bind,
        ih (by omega), hdrop, List.take_succ_cons, List.foldl_cons]

theorem readBe_eq (hword : bytes.length < word) (size : ℕ) :
    readBe word bytes offset size = .ok (Airplay.readBe bytes offset size) := by
  unfold readBe Airplay.readBe
  by_cases hfirst : size > 8 ∨ offset > bytes.length
  · rw [if_pos hfirst, if_pos (by omega)]
  · rw [if_neg hfirst, Checked.sub_eq (by omega), Checked.ok_bind]
    by_cases hleft : bytes.length - offset < size
    · rw [if_pos hleft, if_pos (by omega)]
    · rw [if_neg hleft, if_neg (by omega), readBytes_eq hword (by omega), Checked.ok_bind]
      rfl

/-- What `read_be` returns was inside the file. -/
theorem le_of_readBe {size value : ℕ} (h : Airplay.readBe bytes offset size = some value) :
    size ≤ 8 ∧ offset + size ≤ bytes.length := by
  unfold Airplay.readBe at h
  split at h
  · cases h
  · omega

theorem readText_eq (hword : bytes.length < word) {left item : ℕ} {text : Bytes}
    (h : offset + 2 * (item + left) ≤ bytes.length) :
    readText word bytes offset left item text =
      .ok (text ++ utf16Text ((bytes.drop (offset + 2 * item)).take (left * 2))) := by
  induction left generalizing item text with
  | zero => simp [readText, utf16Text]
  | succ left ih =>
      set position := offset + 2 * item with hposition
      have hhigh : position < bytes.length := by omega
      have hlow : position + 1 < bytes.length := by omega
      have hdrop : bytes.drop position = bytes.getD position 0 :: bytes.getD (position + 1) 0 ::
          bytes.drop (offset + 2 * (item + 1)) := by
        rw [List.getD_eq_getElem?_getD, List.getElem?_eq_getElem hhigh,
          List.getD_eq_getElem?_getD, List.getElem?_eq_getElem hlow,
          List.drop_eq_getElem_cons hhigh, List.drop_eq_getElem_cons hlow]
        rfl
      have htwo : (left + 1) * 2 = left * 2 + 1 + 1 := by omega
      unfold readText
      rw [Checked.mul_eq (by omega), Checked.ok_bind, Nat.mul_comm item 2,
        Checked.add_eq (by omega), Checked.ok_bind, ← hposition, Checked.add_eq (by omega),
        Checked.ok_bind, Checked.item_eq 0 hhigh, Checked.ok_bind, Checked.item_eq 0 hlow,
        Checked.ok_bind, ih (by omega), hdrop, htwo, List.take_succ_cons, List.take_succ_cons,
        utf16Text, List.append_assoc]

end Reading

section Nodes

variable {word : ℕ} {decoder : Decoder}

theorem pow_le_of_lt_16 {shift : ℕ} (h : shift < 16) : 2 ^ shift ≤ 2 ^ 15 :=
  Nat.pow_le_pow_right (by decide) (by omega)

theorem count_eq (hroom : Roomy word decoder.bytes.length) {offset : ℕ} (nibble : ℕ)
    (hoffset : offset < decoder.bytes.length) :
    count word decoder offset nibble = .ok (decoder.count offset nibble) := by
  unfold Roomy at hroom
  have hword : decoder.bytes.length < word := by omega
  unfold count Decoder.count
  by_cases hnibble : nibble ≠ 15
  · rw [if_pos hnibble, if_pos hnibble, Checked.add_eq (by omega), Checked.ok_bind]
  · rw [if_neg hnibble, if_neg hnibble, Checked.add_eq (by omega), Checked.ok_bind]
    by_cases hend : offset + 2 > decoder.bytes.length
    · rw [if_pos hend, if_pos (Or.inl hend)]
    · rw [if_neg hend, Checked.add_eq (by omega), Checked.ok_bind,
        Checked.item_eq 0 (by omega), Checked.ok_bind]
      set marker := (decoder.bytes.getD (offset + 1) 0).toNat
      by_cases hone : marker / 16 ≠ 1
      · rw [if_pos hone, if_pos (Or.inr hone)]
      · have hsize := pow_le_of_lt_16 (show marker % 16 < 16 by omega)
        rw [if_neg hone, if_neg (by omega), Checked.bit_eq (by omega), Checked.ok_bind,
          readBe_eq hword, Checked.ok_bind]
        dsimp only
        cases hread : Airplay.readBe decoder.bytes (offset + 2) (2 ^ (marker % 16)) with
        | none => rfl
        | some value =>
            have hinside := le_of_readBe hread
            dsimp only
            rw [Checked.add_eq (by omega), Checked.ok_bind]
            rfl

theorem readRefs_eq (hword : decoder.bytes.length < word) {data left item : ℕ}
    (h : data + (item + left) * decoder.refSize ≤ decoder.bytes.length) :
    readRefs word decoder data left item =
      .ok (decoder.readRefs left (data + item * decoder.refSize)) := by
  induction left generalizing item with
  | zero => rfl
  | succ left ih =>
      have hsplit : (item + (left + 1)) * decoder.refSize =
          item * decoder.refSize + decoder.refSize + left * decoder.refSize := by ring
      have hnext : data + (item + 1) * decoder.refSize =
          data + item * decoder.refSize + decoder.refSize := by ring
      have hrest := @ih (item + 1) (by rw [Nat.add_right_comm]; exact h)
      unfold readRefs Decoder.readRefs
      rw [Checked.mul_eq (by omega), Checked.ok_bind, Checked.add_eq (by omega), Checked.ok_bind,
        readBe_eq hword, Checked.ok_bind]
      cases Airplay.readBe decoder.bytes (data + item * decoder.refSize) decoder.refSize with
      | none => rfl
      | some ref =>
          dsimp only
          by_cases href : ref ≥ decoder.offsets.length
          · rw [if_pos href, if_pos href]
          · rw [if_neg href, if_neg href, hrest, Checked.ok_bind, hnext]

/-- A container has as many references as it asked for. -/
theorem length_of_readRefs {count offset : ℕ} {refs : List ℕ}
    (h : decoder.readRefs count offset = some refs) : refs.length = count := by
  induction count generalizing offset refs with
  | zero =>
      cases h
      rfl
  | succ count ih =>
      unfold Decoder.readRefs at h
      split at h
      · cases h
      split at h
      · cases h
      · obtain ⟨rest, hrest, rfl⟩ := Option.map_eq_some_iff.mp h
        rw [List.length_cons, ih hrest]

theorem real_eq (hroom : Roomy word decoder.bytes.length) {offset nibble : ℕ}
    (hoffset : offset < decoder.bytes.length) (hnibble : nibble < 16) :
    real word decoder offset nibble = .ok (decoder.real offset nibble) := by
  unfold Roomy at hroom
  have hsize := pow_le_of_lt_16 hnibble
  unfold real Decoder.real
  rw [Checked.bit_eq (by omega), Checked.ok_bind, Checked.add_eq (by omega), Checked.ok_bind,
    readBe_eq (by omega), Checked.ok_bind]
  dsimp only
  cases Airplay.readBe decoder.bytes (offset + 1) (2 ^ nibble) with
  | none => rfl
  | some value =>
      dsimp only
      by_cases height : 2 ^ nibble = 8
      · rw [if_pos height, if_pos height]
      · rw [if_neg height, if_neg height]
        split <;> rfl

end Nodes

/-! ## What the monitor and the decoder count -/

/-- What holds whenever `object` is entered or left. -/
structure Kept (length : ℕ) (tally : Tally) : Prop where
  objects : tally.objects = min tally.made.nodes kMaxMaterializedNodes
  copied : tally.copied ≤ tally.made.bytes
  limit : tally.copied ≤ kMaxMaterializedBytes
  -- three bytes are charged for two bytes of the file at most
  bytes : 2 * tally.made.bytes ≤ 3 * length * tally.objects

/-- The monitored computation does what the model does.  Once the budget of nodes is
exceeded each level above makes one more attempt at most, and it fails. -/
structure Follows {α : Type} (length attempts : ℕ) (tally : Tally)
    (run : Checked (Option α × Tally)) (out : Option α × Materialized) (tally' : Tally) : Prop where
  run : run = .ok (out.1, tally')
  made : tally'.made = out.2
  kept : Kept length tally'
  nodes : tally'.made.nodes ≤ max (kMaxMaterializedNodes + attempts) (tally.made.nodes + 1)
  within : out.1.isSome = true → tally'.made.nodes ≤ kMaxMaterializedNodes

section Containers

variable {word length attempts : ℕ} {object : ℕ → Tally → Checked (Option PlistValue × Tally)}
  {next : ℕ → Materialized → Option PlistValue × Materialized}

/-- `object` at the next level does what the model does. -/
def FollowsAll (length attempts : ℕ) (object : ℕ → Tally → Checked (Option PlistValue × Tally))
    (next : ℕ → Materialized → Option PlistValue × Materialized) : Prop :=
  ∀ ref tally, Kept length tally →
    tally.made.nodes ≤ kMaxMaterializedNodes + maximumLevels →
      ∃ tally', Follows length attempts tally (object ref tally) (next ref tally.made) tally'

/-- A loop over references starts within the budget of nodes. -/
theorem arrayItems_follows (hobject : FollowsAll length attempts object next)
    (hattempts : attempts ≤ maximumLevels) (refs : List ℕ) {tally : Tally}
    (hkept : Kept length tally) (hnodes : tally.made.nodes ≤ kMaxMaterializedNodes)
    (hpos : 0 < attempts) :
    ∃ tally', Follows length attempts tally (arrayItems object refs tally)
      (Decoder.arrayItems next refs tally.made) tally' := by
  induction refs generalizing tally with
  | nil => exact ⟨tally, rfl, rfl, hkept, by omega, fun _ => hnodes⟩
  | cons ref refs ih =>
      obtain ⟨middle, hfirst⟩ := hobject ref tally hkept (by omega)
      have hmade := hfirst.made
      unfold arrayItems Decoder.arrayItems
      rw [hfirst.run, Checked.ok_bind]
      cases hnext : next ref tally.made with
      | mk value made =>
        rw [hnext] at hmade
        cases value with
        | none =>
            have hlast := hfirst.nodes
            exact ⟨middle, rfl, hmade, hfirst.kept, by omega, by simp⟩
        | some value =>
            have hwithin : middle.made.nodes ≤ kMaxMaterializedNodes :=
              hfirst.within (by rw [hnext]; rfl)
            obtain ⟨last, hrest⟩ := ih hfirst.kept hwithin
            have hlastMade := hrest.made
            have hlastNodes := hrest.nodes
            dsimp only at hmade ⊢
            rw [hrest.run, Checked.ok_bind, ← hmade]
            cases hvalues : Decoder.arrayItems next refs middle.made with
            | mk values made' =>
              rw [hvalues] at hlastMade
              cases values with
              | none => exact ⟨last, rfl, hlastMade, hrest.kept, by omega, by simp⟩
              | some values =>
                  exact ⟨last, rfl, hlastMade, hrest.kept, by omega,
                    fun _ => hrest.within (by rw [hvalues]; rfl)⟩

/-- The references of the keys and those of the values stand one after the other. -/
theorem dictionaryEntries_follows (hobject : FollowsAll length attempts object next)
    (hattempts : attempts + 1 ≤ maximumLevels) {refs : List ℕ} {items left item : ℕ}
    (hword : refs.length < word) (hitems : item + left = items) (hrefs : refs.length = items * 2)
    (result : List (Bytes × PlistValue)) {tally : Tally} (hkept : Kept length tally)
    (hnodes : tally.made.nodes ≤ kMaxMaterializedNodes) (hpos : 0 < attempts) :
    ∃ tally', Follows length (attempts + 1) tally
      (dictionaryEntries word object refs items left item result tally)
      (Decoder.dictionaryEntries next ((refs.take items).drop item) (refs.drop (items + item))
        result tally.made) tally' := by
  induction left generalizing item result tally with
  | zero =>
      have hempty : (refs.take items).drop item = [] := by
        rw [List.drop_eq_nil_iff, List.length_take]
        omega
      rw [hempty]
      exact ⟨tally, rfl, rfl, hkept, by omega, fun _ => hnodes⟩
  | succ left ih =>
      have hkeys : (refs.take items).drop item =
          refs.getD item 0 :: (refs.take items).drop (item + 1) := by
        have hlt : item < (refs.take items).length := by
          rw [List.length_take]
          omega
        rw [List.drop_eq_getElem_cons hlt, List.getElem_take,
          List.getD_eq_getElem?_getD, List.getElem?_eq_getElem (by omega)]
        rfl
      have hvalues : refs.drop (items + item) =
          refs.getD (items + item) 0 :: refs.drop (items + (item + 1)) := by
        have hlt : items + item < refs.length := by omega
        rw [List.drop_eq_getElem_cons hlt, List.getD_eq_getElem?_getD,
          List.getElem?_eq_getElem hlt]
        rfl
      obtain ⟨middle, hkey⟩ := hobject (refs.getD item 0) tally hkept (by omega)
      have hkeyNodes := hkey.nodes
      have hkeyMade := hkey.made
      obtain ⟨last, hvalue⟩ := hobject (refs.getD (items + item) 0) middle hkey.kept (by omega)
      have hvalueNodes := hvalue.nodes
      have hvalueMade := hvalue.made
      rw [hkeys, hvalues]
      unfold dictionaryEntries Decoder.dictionaryEntries
      rw [Checked.item_eq 0 (by omega), Checked.ok_bind, Checked.add_eq (by omega),
        Checked.ok_bind, Checked.item_eq 0 (by omega), Checked.ok_bind, hkey.run, Checked.ok_bind]
      dsimp only
      rw [hvalue.run, Checked.ok_bind, ← hkeyMade]
      dsimp only
      rw [← hvalueMade]
      have hfail : ∃ tally', Follows (α := List (Bytes × PlistValue)) length (attempts + 1) tally
          (.ok (none, last)) (none, last.made) tally' :=
        ⟨last, rfl, rfl, hvalue.kept, by omega, by simp⟩
      have hwithin := hvalue.within
      generalize (next (refs.getD item 0) tally.made).1 = key
      generalize (next (refs.getD (items + item) 0) middle.made).1 = value at hwithin ⊢
      cases key with
      | none => exact hfail
      | some key =>
          cases key with
          | string key =>
              cases value with
              | none => exact hfail
              | some value =>
                  obtain ⟨end', hrest⟩ := @ih (item + 1) (by omega)
                    (PlistValue.emplace key value result) last hvalue.kept (hwithin rfl)
                  have hrestNodes := hrest.nodes
                  have hlast := hwithin rfl
                  exact ⟨end', hrest.run, hrest.made, hrest.kept, by omega, hrest.within⟩
          | _ => exact hfail

end Containers

/-! ## Inside an object -/

/-- What holds inside `object` once it has counted itself and before it charges bytes. -/
structure Entered (length : ℕ) (tally : Tally) : Prop where
  nodes : tally.made.nodes ≤ kMaxMaterializedNodes
  objects : tally.objects = tally.made.nodes
  copied : tally.copied ≤ tally.made.bytes
  limit : tally.copied ≤ kMaxMaterializedBytes
  bytes : 2 * tally.made.bytes + 3 * length ≤ 3 * length * tally.objects

section Entered

variable {word length attempts : ℕ} {tally : Tally}

theorem Entered.kept (h : Entered length tally) : Kept length tally := by
  have hbytes := h.bytes
  refine ⟨?_, h.copied, h.limit, by omega⟩
  rw [h.objects, Nat.min_eq_left h.nodes]

/-- An object has room for what it charges. -/
theorem Entered.charged (h : Entered length tally) (hroom : Roomy word length) (charge : ℕ)
    (hcharge : 2 * charge ≤ 3 * length) :
    tally.made.bytes + charge < word ∧ Kept length (tally.setBytes (tally.made.bytes + charge)) := by
  have hbytes := h.bytes
  have hcopied := h.copied
  have hnodes := h.nodes
  have hobjects := h.objects
  have hmost : 3 * length * tally.objects ≤ 3 * length * 65536 := by
    refine Nat.mul_le_mul_left _ ?_
    rw [hobjects]
    exact hnodes
  unfold Roomy at hroom
  constructor
  · omega
  · refine ⟨h.kept.objects, ?_, h.limit, ?_⟩
    · show tally.copied ≤ tally.made.bytes + charge
      omega
    · show 2 * (tally.made.bytes + charge) ≤ 3 * length * tally.objects
      omega

/-- What is copied was charged. -/
theorem copy_kept {charge count : ℕ} (hcopied : tally.copied ≤ tally.made.bytes)
    (hkept : Kept length (tally.setBytes (tally.made.bytes + charge))) (hcount : count ≤ charge)
    (hlimit : tally.made.bytes + charge ≤ kMaxMaterializedBytes) :
    ∃ tally', (tally.setBytes (tally.made.bytes + charge)).copy count = .ok tally' ∧
      tally'.made = { tally.made with bytes := tally.made.bytes + charge } ∧
        Kept length tally' := by
  refine ⟨{ tally.setBytes (tally.made.bytes + charge) with copied := tally.copied + count },
    ?_, rfl, hkept.objects, ?_, ?_, hkept.bytes⟩
  · unfold Tally.copy
    have hle : (tally.setBytes (tally.made.bytes + charge)).copied + count ≤
        kMaxMaterializedBytes := by
      show tally.copied + count ≤ kMaxMaterializedBytes
      omega
    rw [Checked.atMost_eq hle, Checked.ok_bind]
    rfl
  · show tally.copied + count ≤ tally.made.bytes + charge
    omega
  · show tally.copied + count ≤ kMaxMaterializedBytes
    omega

variable {decoder : Decoder} {items data : ℕ}

theorem copied_follows (h : Entered decoder.bytes.length tally)
    (hroom : Roomy word decoder.bytes.length) (type : ℕ)
    (hinside : data + items ≤ decoder.bytes.length) :
    ∃ tally', Follows decoder.bytes.length attempts tally
      (copied word decoder type items data tally)
      (if tally.made.bytes + items > kMaxMaterializedBytes then
        (none, { tally.made with bytes := tally.made.bytes + items })
      else
        (some (if type = 4 then .data ((decoder.bytes.drop data).take items)
          else .string ((decoder.bytes.drop data).take items)),
          { tally.made with bytes := tally.made.bytes + items })) tally' := by
  obtain ⟨hword, hkept⟩ := h.charged hroom items (by omega)
  have hnodes := h.nodes
  unfold Roomy at hroom
  unfold copied
  rw [Checked.add_eq hword, Checked.ok_bind]
  dsimp only
  -- the budget is checked before a byte is copied
  by_cases hlimit : tally.made.bytes + items > kMaxMaterializedBytes
  · rw [if_pos hlimit, if_pos hlimit]
    exact ⟨_, rfl, rfl, hkept, le_max_of_le_right (Nat.le_succ _), by simp⟩
  · rw [if_neg hlimit, if_neg hlimit, Checked.slice_eq (by omega) hinside, Checked.ok_bind]
    obtain ⟨tally', hcopy, hmade, hkept'⟩ := copy_kept h.copied hkept
      (List.length_take_le items (decoder.bytes.drop data)) (by omega)
    rw [hcopy, Checked.ok_bind]
    refine ⟨tally', rfl, hmade, hkept', ?_, fun _ => ?_⟩
    · rw [hmade]
      exact le_max_of_le_right (Nat.le_succ _)
    · rw [hmade]
      exact hnodes

theorem text_follows (h : Entered decoder.bytes.length tally)
    (hroom : Roomy word decoder.bytes.length)
    (hinside : data + items * 2 ≤ decoder.bytes.length) :
    ∃ tally', Follows decoder.bytes.length attempts tally
      (text word decoder items data tally)
      (if tally.made.bytes + items * 3 > kMaxMaterializedBytes then
        (none, { tally.made with bytes := tally.made.bytes + items * 3 })
      else
        (some (.string (utf16Text ((decoder.bytes.drop data).take (items * 2)))),
          { tally.made with bytes := tally.made.bytes + items * 3 })) tally' := by
  obtain ⟨hword, hkept⟩ := h.charged hroom (items * 3) (by omega)
  have hnodes := h.nodes
  unfold Roomy at hroom
  unfold text
  rw [Checked.mul_eq (by omega), Checked.ok_bind, Checked.add_eq hword, Checked.ok_bind]
  dsimp only
  by_cases hlimit : tally.made.bytes + items * 3 > kMaxMaterializedBytes
  · rw [if_pos hlimit, if_pos hlimit]
    exact ⟨_, rfl, rfl, hkept, le_max_of_le_right (Nat.le_succ _), by simp⟩
  · rw [if_neg hlimit, if_neg hlimit, readText_eq (by omega) (by omega), Checked.ok_bind]
    set content := [] ++ utf16Text ((decoder.bytes.drop (data + 2 * 0)).take (items * 2))
      with hcontent
    -- a unit of two bytes becomes at most three
    have hlength : content.length ≤ items * 3 := by
      have htext := length_utf16Text_le ((decoder.bytes.drop (data + 2 * 0)).take (items * 2))
      have htake := List.length_take_le (items * 2) (decoder.bytes.drop (data + 2 * 0))
      rw [hcontent, List.nil_append]
      omega
    obtain ⟨tally', hcopy, hmade, hkept'⟩ := copy_kept h.copied hkept hlength (by omega)
    rw [hcopy, Checked.ok_bind]
    refine ⟨tally', rfl, hmade, hkept', ?_, fun _ => ?_⟩
    · rw [hmade]
      exact le_max_of_le_right (Nat.le_succ _)
    · rw [hmade]
      exact hnodes

variable {object : ℕ → Tally → Checked (Option PlistValue × Tally)}
  {next : ℕ → Materialized → Option PlistValue × Materialized}

/-- The value made of what a loop returns. -/
theorem Follows.map {α β : Type} (f : α → β) {run : Checked (Option α × Tally)}
    {out : Option α × Materialized} {tally' : Tally} {attempts' : ℕ}
    (h : Follows length attempts tally run out tally') (hle : attempts ≤ attempts') :
    Follows length attempts' tally (run >>= fun result => .ok (result.1.map f, result.2))
      (out.1.map f, out.2) tally' := by
  have hnodes := h.nodes
  refine ⟨?_, h.made, h.kept, by omega, fun hsome => h.within (by simpa using hsome)⟩
  rw [h.run, Checked.ok_bind]

theorem container_follows (hobject : FollowsAll decoder.bytes.length attempts object next)
    (hattempts : attempts + 1 ≤ maximumLevels) (hpos : 0 < attempts)
    (h : Entered decoder.bytes.length tally) (hroom : Roomy word decoder.bytes.length)
    {type : ℕ} (htype : type = 0xa ∨ type = 0xd) (hwidth : 0 < decoder.refSize)
    (hinside : data + (if type = 0xd then items * 2 else items) * decoder.refSize ≤
      decoder.bytes.length) :
    ∃ tally', Follows decoder.bytes.length (attempts + 1) tally
      (container word object decoder type items data tally)
      (match decoder.readRefs (if type = 0xd then items * 2 else items) data with
      | none => (none, tally.made)
      | some refs =>
          if type = 0xa then
            let (values, made) := Decoder.arrayItems next refs tally.made
            (values.map .array, made)
          else
            let (entries, made) := Decoder.dictionaryEntries next (refs.take items)
              (refs.drop items) [] tally.made
            (entries.map .dictionary, made)) tally' := by
  have hnodes := h.nodes
  unfold Roomy at hroom
  set refs := if type = 0xd then items * 2 else items with hrefs
  -- every reference takes at least a byte
  have hcount : refs ≤ decoder.bytes.length := by nlinarith
  have hfirst : refCount word type items = .ok refs := by
    unfold refCount
    by_cases hdictionary : type = 0xd
    · rw [hrefs, if_pos hdictionary] at hcount
      rw [hrefs, if_pos hdictionary, if_pos hdictionary]
      exact Checked.mul_eq (by omega)
    · rw [hrefs, if_neg hdictionary, if_neg hdictionary]
  unfold container
  rw [hfirst, Checked.ok_bind, readRefs_eq (by omega) (by rw [Nat.zero_add]; exact hinside),
    Checked.ok_bind, Nat.zero_mul, Nat.add_zero]
  -- the references, or an index that does not fit
  cases hread : decoder.readRefs refs data with
  | none => exact ⟨tally, rfl, rfl, h.kept, by omega, by simp⟩
  | some refs =>
      have hlength := length_of_readRefs hread
      dsimp only
      by_cases harray : type = 0xa
      · rw [if_pos harray, if_pos harray]
        obtain ⟨tally', hfollows⟩ := arrayItems_follows hobject (by omega) refs h.kept
          hnodes hpos
        exact ⟨tally', hfollows.map PlistValue.array (Nat.le_succ _)⟩
      · rw [if_neg harray, if_neg harray]
        have hdictionary : type = 0xd := by omega
        rw [hrefs, if_pos hdictionary] at hlength
        rw [hrefs, if_pos hdictionary] at hcount
        have hword : refs.length < word := by omega
        obtain ⟨tally', hfollows⟩ := dictionaryEntries_follows hobject hattempts hword
          (Nat.zero_add items) hlength [] h.kept hnodes hpos
        exact ⟨tally', hfollows.map PlistValue.dictionary (le_refl _)⟩

theorem counted_follows (hobject : FollowsAll decoder.bytes.length attempts object next)
    (hattempts : attempts + 1 ≤ maximumLevels) (hpos : 0 < attempts)
    (h : Entered decoder.bytes.length tally) (hroom : Roomy word decoder.bytes.length)
    (hwidth : 0 < decoder.refSize ∧ decoder.refSize < 256) (type : ℕ) :
    ∃ tally', Follows decoder.bytes.length (attempts + 1) tally
      (counted word object decoder type items data tally)
      (Decoder.counted next decoder type items data tally.made) tally' := by
  have hnodes := h.nodes
  have hnone : ∃ tally', Follows decoder.bytes.length (attempts + 1) tally
      (.ok (none, tally)) ((none : Option PlistValue), tally.made) tally' :=
    ⟨tally, rfl, rfl, h.kept, by omega, by simp⟩
  unfold counted Decoder.counted
  dsimp only
  by_cases hdata : data > decoder.bytes.length
  · rw [if_pos hdata, if_neg (by omega), if_neg (by omega), if_neg (by omega)]
    exact hnone
  · rw [if_neg hdata, Checked.sub_eq (by omega), Checked.ok_bind]
    -- from here on the source subtracts from the length
    set left := decoder.bytes.length - data with hleft
    by_cases hcopied : (type = 4 ∨ type = 5) ∧ items ≤ left
    · rw [if_pos hcopied, if_pos ⟨hcopied.1, by omega, hcopied.2⟩]
      exact copied_follows h hroom type (by omega)
    have hcopied' : ¬((type = 4 ∨ type = 5) ∧ data ≤ decoder.bytes.length ∧ items ≤ left) :=
      fun hall => hcopied ⟨hall.1, hall.2.2⟩
    rw [if_neg hcopied, if_neg hcopied']
    by_cases htext : type = 6 ∧ items ≤ left / 2
    · rw [if_pos htext, if_pos ⟨htext.1, by omega, htext.2⟩]
      exact text_follows h hroom (by omega)
    have htext' : ¬(type = 6 ∧ data ≤ decoder.bytes.length ∧ items ≤ left / 2) :=
      fun hall => htext ⟨hall.1, hall.2.2⟩
    rw [if_neg htext, if_neg htext']
    by_cases hcontainer : type = 0xa ∨ type = 0xd
    · have hword : 2 * decoder.refSize < word := by
        unfold Roomy at hroom
        omega
      rw [if_pos hcontainer, Checked.div_eq (by omega), Checked.ok_bind, Checked.mul_eq hword,
        Checked.ok_bind, Checked.div_eq (by omega), Checked.ok_bind]
      by_cases hfits : items ≤ left / decoder.refSize ∧
          (type ≠ 0xd ∨ items ≤ left / (2 * decoder.refSize))
      · rw [if_pos hfits, if_pos ⟨hcontainer, by omega, hfits⟩]
        refine container_follows hobject hattempts hpos h hroom hcontainer hwidth.1 ?_
        have hfirst := (Nat.le_div_iff_mul_le hwidth.1).mp hfits.1
        by_cases hdictionary : type = 0xd
        · have hentries := hfits.2.resolve_left (fun hne => hne hdictionary)
          have hsecond := (Nat.le_div_iff_mul_le (by omega)).mp hentries
          have hassoc : items * (2 * decoder.refSize) = items * 2 * decoder.refSize := by ring
          -- keys and values: two references for each entry
          rw [if_pos hdictionary]
          omega
        · rw [if_neg hdictionary]
          omega
      · rw [if_neg hfits, if_neg (fun hall => hfits hall.2.2)]
        exact hnone
    · rw [if_neg hcontainer, if_neg (fun hall => hcontainer hall.1)]
      exact hnone

theorem nodeAt_follows (hobject : FollowsAll decoder.bytes.length attempts object next)
    (hattempts : attempts + 1 ≤ maximumLevels) (hpos : 0 < attempts)
    (h : Entered decoder.bytes.length tally) (hroom : Roomy word decoder.bytes.length)
    (hwidth : 0 < decoder.refSize ∧ decoder.refSize < 256) {offset : ℕ}
    (hoffset : offset < decoder.bytes.length) :
    ∃ tally', Follows decoder.bytes.length (attempts + 1) tally
      (nodeAt word object decoder offset tally)
      (Decoder.nodeAt next decoder offset tally.made) tally' := by
  have hnodes := h.nodes
  have hscalar (value : Option PlistValue) : ∃ tally', Follows decoder.bytes.length (attempts + 1)
      tally (.ok (value, tally)) (value, tally.made) tally' :=
    ⟨tally, rfl, rfl, h.kept, by omega, fun _ => hnodes⟩
  unfold nodeAt Decoder.nodeAt
  rw [Checked.item_eq 0 hoffset, Checked.ok_bind]
  dsimp only
  set marker := (decoder.bytes.getD offset 0).toNat
  have hnibble : marker % 16 < 16 := by omega
  -- the kinds of objects in the order of the source
  by_cases hbool : marker / 16 = 0 ∧ (marker % 16 = 8 ∨ marker % 16 = 9)
  · rw [if_pos hbool, if_pos hbool]
    exact hscalar _
  rw [if_neg hbool, if_neg hbool]
  by_cases hinteger : marker / 16 = 1
  · have hsize := pow_le_of_lt_16 hnibble
    unfold Roomy at hroom
    rw [if_pos hinteger, if_pos hinteger, Checked.bit_eq (by omega), Checked.ok_bind,
      Checked.add_eq (by omega), Checked.ok_bind, readBe_eq (by omega), Checked.ok_bind]
    exact hscalar _
  rw [if_neg hinteger, if_neg hinteger]
  by_cases hreal : marker / 16 = 2
  · rw [if_pos hreal, if_pos hreal, real_eq hroom hoffset hnibble, Checked.ok_bind]
    exact hscalar _
  rw [if_neg hreal, if_neg hreal, count_eq hroom _ hoffset, Checked.ok_bind]
  cases decoder.count offset (marker % 16) with
  | none => exact hscalar none
  | some counted => exact counted_follows hobject hattempts hpos h hroom hwidth _

end Entered

/-- `object` is entered at `maximumLevels` levels at most and does what the model does: the
induction is on the levels that are left. -/
theorem object_follows {word : ℕ} {decoder : Decoder} (hroom : Roomy word decoder.bytes.length)
    (hwidth : 0 < decoder.refSize ∧ decoder.refSize < 256)
    (hoffsets : ∀ offset ∈ decoder.offsets, offset < decoder.bytes.length) (levels : ℕ) {depth : ℕ}
    (hdepth : levels + 1 + depth = maximumLevels) :
    FollowsAll decoder.bytes.length (levels + 1) (object word decoder (levels + 1) depth)
      (decoder.object levels) := by
  unfold maximumLevels at hdepth
  induction levels generalizing depth with
  | zero =>
      intro index tally hkept hnodes
      unfold object
      -- no level is left: the depth check ends the recursion
      rw [if_pos (Or.inr (by unfold kMaxDepth; omega))]
      exact ⟨tally, rfl, rfl, hkept, by omega, fun h => by cases h⟩
  | succ levels ih =>
      intro index tally hkept hnodes
      have hnext := @ih (depth + 1) (by omega)
      unfold object Decoder.object
      by_cases hindex : index ≥ decoder.offsets.length
      · rw [if_pos (Or.inl hindex), if_pos hindex]
        exact ⟨tally, rfl, rfl, hkept, by omega, fun h => by cases h⟩
      have hword : tally.made.nodes + 1 < word := by
        unfold Roomy at hroom
        unfold kMaxMaterializedNodes maximumLevels at hnodes
        omega
      rw [if_neg (by unfold kMaxDepth; omega), if_neg hindex, Checked.add_eq hword, Checked.ok_bind]
      dsimp only
      have hobjects := hkept.objects
      -- the node is counted before it is looked at, also when the budget is used up
      by_cases hbudget : tally.made.nodes + 1 > kMaxMaterializedNodes
      · rw [if_pos hbudget, if_pos hbudget]
        refine ⟨_, rfl, rfl, ⟨?_, hkept.copied, hkept.limit, hkept.bytes⟩, ?_,
          fun h => by cases h⟩
        · have hfull : kMaxMaterializedNodes ≤ tally.made.nodes := Nat.le_of_lt_succ hbudget
          show tally.objects = min (tally.made.nodes + 1) kMaxMaterializedNodes
          rw [hobjects, Nat.min_eq_right hfull, Nat.min_eq_right (Nat.le_succ_of_le hfull)]
        · show tally.made.nodes + 1 ≤ max (kMaxMaterializedNodes + _) (tally.made.nodes + 1)
          omega
      · rw [if_neg hbudget, if_neg hbudget]
        have hone : (tally.setNodes (tally.made.nodes + 1)).objects + 1 ≤
            kMaxMaterializedNodes := by
          show tally.objects + 1 ≤ kMaxMaterializedNodes
          omega
        unfold Tally.materialize
        rw [Checked.atMost_eq hone, Checked.ok_bind, Checked.ok_bind,
          Checked.item_eq 0 (by omega), Checked.ok_bind]
        -- what the source knows once the node is materialized
        have hentered : Entered decoder.bytes.length
            { tally.setNodes (tally.made.nodes + 1) with objects := tally.objects + 1 } := by
          refine ⟨by show tally.made.nodes + 1 ≤ _; omega, ?_, hkept.copied, hkept.limit, ?_⟩
          · show tally.objects + 1 = tally.made.nodes + 1
            omega
          · have hbytes := hkept.bytes
            show 2 * tally.made.bytes + 3 * decoder.bytes.length ≤
              3 * decoder.bytes.length * (tally.objects + 1)
            rw [Nat.mul_succ]
            omega
        have hoffset : decoder.offsets.getD index 0 < decoder.bytes.length := by
          rw [List.getD_eq_getElem?_getD, List.getElem?_eq_getElem (by omega)]
          exact hoffsets _ (List.getElem_mem _)
        obtain ⟨tally', hfollows⟩ := nodeAt_follows hnext (by unfold maximumLevels; omega)
          (Nat.succ_pos _) hentered hroom hwidth hoffset
        refine ⟨tally', hfollows.run, hfollows.made, hfollows.kept, ?_, hfollows.within⟩
        have hlast := hfollows.nodes
        dsimp only [Tally.setNodes] at hlast
        omega

/-! ## The whole file -/

theorem readOffsets_eq {word : ℕ} {bytes : Bytes} (hword : bytes.length < word)
    {table offsetSize left index : ℕ}
    (h : table + (index + left) * offsetSize ≤ bytes.length) :
    readOffsets word bytes table offsetSize left index =
      .ok (Airplay.readOffsets bytes table offsetSize left (table + index * offsetSize)) := by
  induction left generalizing index with
  | zero => rfl
  | succ left ih =>
      have hsplit : (index + (left + 1)) * offsetSize =
          index * offsetSize + offsetSize + left * offsetSize := by ring
      have hnext : table + (index + 1) * offsetSize =
          table + index * offsetSize + offsetSize := by ring
      have hrest := @ih (index + 1) (by rw [Nat.add_right_comm]; exact h)
      unfold readOffsets Airplay.readOffsets
      rw [Checked.mul_eq (by omega), Checked.ok_bind, Checked.add_eq (by omega), Checked.ok_bind,
        readBe_eq hword, Checked.ok_bind]
      cases Airplay.readBe bytes (table + index * offsetSize) offsetSize with
      | none => rfl
      | some offset =>
          dsimp only
          -- an offset into the table itself is refused
          by_cases hoffset : offset ≥ table
          · rw [if_pos hoffset, if_pos hoffset]
          · rw [if_neg hoffset, if_neg hoffset, hrest, Checked.ok_bind, hnext]

theorem lt_of_readOffsets {bytes : Bytes} {table offsetSize count position : ℕ} {offsets : List ℕ}
    (h : Airplay.readOffsets bytes table offsetSize count position = some offsets) :
    ∀ offset ∈ offsets, offset < table := by
  induction count generalizing position offsets with
  | zero =>
      cases h
      simp
  | succ count ih =>
      unfold Airplay.readOffsets at h
      split at h
      · cases h
      split at h
      · cases h
      · obtain ⟨rest, hrest, rfl⟩ := Option.map_eq_some_iff.mp h
        refine List.forall_mem_cons.mpr ⟨by omega, ih hrest⟩

theorem decodeTable_eq {word : ℕ} {bytes : Bytes} (hroom : Roomy word bytes.length)
    {offsetSize refSize count top table : ℕ} (hwidth : refSize < 256) :
    decodeTable word bytes offsetSize refSize count top table =
      .ok (if count = 0 ∨ top ≥ count ∨ offsetSize = 0 ∨ refSize = 0 ∨ count > 65536 ∨
          table > bytes.length ∨ count > (bytes.length - table) / offsetSize then none
        else
          match Airplay.readOffsets bytes table offsetSize count table with
          | none => none
          | some offsets =>
              ((Decoder.mk bytes refSize offsets).object (kMaxDepth + 1) top {}).1) := by
  unfold decodeTable
  by_cases hfields : count = 0 ∨ top ≥ count ∨ offsetSize = 0 ∨ refSize = 0 ∨ count > 65536 ∨
      table > bytes.length
  · rw [if_pos hfields, if_pos (by omega)]
  rw [if_neg hfields, Checked.sub_eq (by omega), Checked.ok_bind, Checked.div_eq (by omega),
    Checked.ok_bind]
  by_cases hmost : count > (bytes.length - table) / offsetSize
  · rw [if_pos hmost, if_pos (by omega)]
  -- the whole offset table lies inside the file
  have hinside := (Nat.le_div_iff_mul_le (show 0 < offsetSize by omega)).mp (Nat.not_lt.mp hmost)
  have hword : bytes.length < word := by
    unfold Roomy at hroom
    omega
  have htable : table + (0 + count) * offsetSize ≤ bytes.length := by
    rw [Nat.zero_add]
    omega
  rw [if_neg hmost, if_neg (by omega), readOffsets_eq hword htable, Checked.ok_bind, Nat.zero_mul,
    Nat.add_zero]
  cases hoffsets : Airplay.readOffsets bytes table offsetSize count table with
  | none => rfl
  | some offsets =>
      have hbelow := lt_of_readOffsets hoffsets
      have hkept : Kept bytes.length {} := ⟨rfl, le_refl _, Nat.zero_le _, Nat.zero_le _⟩
      have hinsideAll : ∀ offset ∈ offsets, offset < bytes.length := by
        intro offset hoffset
        have hlt := hbelow offset hoffset
        omega
      have hwidths : 0 < refSize ∧ refSize < 256 := ⟨by omega, hwidth⟩
      have hall : FollowsAll bytes.length (kMaxDepth + 2)
          (object word ⟨bytes, refSize, offsets⟩ (kMaxDepth + 2) 0)
          (Decoder.object ⟨bytes, refSize, offsets⟩ (kMaxDepth + 1)) :=
        @object_follows word ⟨bytes, refSize, offsets⟩ hroom hwidths hinsideAll (kMaxDepth + 1) 0 rfl
      obtain ⟨tally, hfollows⟩ := hall top {} hkept (Nat.zero_le _)
      dsimp only
      have hrun : object word ⟨bytes, refSize, offsets⟩ maximumLevels 0 top {} =
          .ok (((Decoder.mk bytes refSize offsets).object (kMaxDepth + 1) top {}).1, tally) :=
        hfollows.run
      rw [hrun, Checked.ok_bind]

/-- The monitor finds nothing wrong, and the decoder under it does what the model does. -/
theorem decode_eq {word : ℕ} {bytes : Bytes} (hroom : Roomy word bytes.length) :
    decode word bytes = .ok (decodeBplist bytes) := by
  have hword : bytes.length < word := by
    unfold Roomy at hroom
    omega
  unfold decode decodeBplist openBplist
  by_cases hshort : bytes.length < 40
  · rw [if_pos hshort, if_pos (Or.inl hshort)]
  rw [if_neg hshort, Checked.slice_eq (by omega) (by omega), Checked.ok_bind, List.drop_zero]
  by_cases hmagic : bytes.take 8 ≠ magic
  · rw [if_pos hmagic, if_pos (Or.inr hmagic)]
  rw [if_neg hmagic, if_neg (by simp [hshort, hmagic]), Checked.sub_eq (by omega), Checked.ok_bind]
  set trailer := bytes.length - 32 with htrailer
  -- the five fields of the trailer, none of which is read past the end
  rw [Checked.add_eq (by omega), Checked.ok_bind, Checked.item_eq 0 (by omega), Checked.ok_bind,
    Checked.add_eq (by omega), Checked.ok_bind, Checked.item_eq 0 (by omega), Checked.ok_bind,
    Checked.add_eq (by omega), Checked.ok_bind, readBe_eq hword, Checked.ok_bind,
    Checked.add_eq (by omega), Checked.ok_bind, readBe_eq hword, Checked.ok_bind,
    Checked.add_eq (by omega), Checked.ok_bind, readBe_eq hword, Checked.ok_bind]
  dsimp only
  cases Airplay.readBe bytes (trailer + 8) 8 with
  | none => rfl
  | some count =>
    cases Airplay.readBe bytes (trailer + 16) 8 with
    | none => rfl
    | some top =>
      cases Airplay.readBe bytes (trailer + 24) 8 with
      | none => rfl
      | some table =>
          dsimp only
          rw [decodeTable_eq hroom (UInt8.toNat_lt _)]
          congr 1
          split
          · rfl
          · cases Airplay.readOffsets bytes table (bytes.getD (trailer + 6) 0).toNat count table with
            | none => rfl
            | some offsets => rfl

end Monitor

/-! ## References -/

/-- The container at `index` has the node `ref` among its items. -/
def Decoder.Refers (decoder : Decoder) (index ref : ℕ) : Prop :=
  let offset := decoder.offsets.getD index 0
  let marker := (decoder.bytes.getD offset 0).toNat
  ∃ items data refs, (marker / 16 = 0xa ∨ marker / 16 = 0xd) ∧
    decoder.count offset (marker % 16) = some (items, data) ∧
      decoder.readRefs (if marker / 16 = 0xd then items * 2 else items) data = some refs ∧
        ref ∈ refs

section References

variable {next : ℕ → Materialized → Option PlistValue × Materialized}

/-- Some call of `object` for this node returned a value. -/
def Returned (next : ℕ → Materialized → Option PlistValue × Materialized) (ref : ℕ) : Prop :=
  ∃ made, (next ref made).1.isSome = true

theorem returned_of_arrayItems {refs : List ℕ} {made : Materialized}
    (h : (Decoder.arrayItems next refs made).1.isSome = true) :
    ∀ ref ∈ refs, Returned next ref := by
  induction refs generalizing made with
  | nil => simp
  | cons ref refs ih =>
      unfold Decoder.arrayItems at h
      cases hfirst : next ref made with
      | mk value middle =>
        rw [hfirst] at h
        cases value with
        | none => cases h
        | some value =>
            dsimp only at h
            have hrest : (Decoder.arrayItems next refs middle).1.isSome = true := by
              cases hrest : Decoder.arrayItems next refs middle with
              | mk values last =>
                rw [hrest] at h
                cases values with
                | none => cases h
                | some values => rfl
            refine List.forall_mem_cons.mpr ⟨⟨made, by rw [hfirst]; rfl⟩, ih hrest⟩

theorem returned_of_dictionaryEntries {keyRefs valueRefs : List ℕ}
    {result : List (Bytes × PlistValue)} {made : Materialized}
    (hlength : valueRefs.length = keyRefs.length)
    (h : (Decoder.dictionaryEntries next keyRefs valueRefs result made).1.isSome = true) :
    ∀ ref ∈ keyRefs ++ valueRefs, Returned next ref := by
  induction keyRefs generalizing valueRefs result made with
  | nil =>
      rw [List.length_eq_zero_iff.mp hlength]
      simp
  | cons keyRef keyRefs ih =>
      cases valueRefs with
      | nil => cases hlength
      | cons valueRef valueRefs =>
          unfold Decoder.dictionaryEntries at h
          cases hkey : next keyRef made with
          | mk key middle =>
            cases hvalue : next valueRef middle with
            | mk value last =>
              rw [hkey] at h
              dsimp only at h
              rw [hvalue] at h
              dsimp only at h
              split at h
              · have hrest := ih (Nat.succ.inj hlength) h
                intro ref href
                rw [List.cons_append, List.mem_cons, List.mem_append, List.mem_cons] at href
                -- the first key, the other keys, the first value, the other values
                rcases href with rfl | hkeys | rfl | hvalues
                · exact ⟨made, by rw [hkey]; rfl⟩
                · exact hrest ref (List.mem_append_left _ hkeys)
                · exact ⟨middle, by rw [hvalue]; rfl⟩
                · exact hrest ref (List.mem_append_right _ hvalues)
              · cases h

/-- A container that is decoded has every node decoded that it refers to, one level
below. -/
theorem returned_of_refers {decoder : Decoder} {levels index ref : ℕ}
    (h : Returned (decoder.object levels) index) (hrefers : decoder.Refers index ref) :
    ∃ below < levels, Returned (decoder.object below) ref := by
  obtain ⟨made, hsome⟩ := h
  obtain ⟨items, data, refs, htype, hcount, hrefs, hmem⟩ := hrefers
  cases levels with
  | zero => cases hsome
  | succ levels =>
      refine ⟨levels, Nat.lt_succ_self _, ?_⟩
      -- a node that refers to anything is a container, and its loop returned
      have hlength := Monitor.length_of_readRefs hrefs
      unfold Decoder.object at hsome
      split at hsome
      · cases hsome
      dsimp only at hsome
      split at hsome
      · cases hsome
      unfold Decoder.nodeAt at hsome
      dsimp only at hsome
      rw [if_neg (by omega), if_neg (by omega), if_neg (by omega), hcount] at hsome
      dsimp only at hsome
      unfold Decoder.counted at hsome
      dsimp only at hsome
      rw [if_neg (by omega), if_neg (by omega)] at hsome
      split at hsome
      · rw [hrefs] at hsome
        dsimp only at hsome
        split at hsome
        · rw [Option.isSome_map] at hsome
          exact returned_of_arrayItems hsome ref hmem
        · have hdictionary := htype.resolve_left ‹_›
          rw [if_pos hdictionary] at hlength
          rw [Option.isSome_map] at hsome
          refine returned_of_dictionaryEntries ?_ hsome ref ?_
          · rw [List.length_drop, List.length_take]
            omega
          · rw [List.take_append_drop]
            exact hmem
      · cases hsome

theorem returned_of_transGen {decoder : Decoder} {levels index ref : ℕ}
    (h : Returned (decoder.object levels) index) (hpath : Relation.TransGen decoder.Refers index ref) :
    ∃ below < levels, Returned (decoder.object below) ref := by
  induction hpath with
  | single hrefers => exact returned_of_refers h hrefers
  | tail _ hrefers ih =>
      obtain ⟨middle, hmiddle, hreturned⟩ := ih
      obtain ⟨below, hbelow, hlast⟩ := returned_of_refers hreturned hrefers
      exact ⟨below, Nat.lt_trans hbelow hmiddle, hlast⟩

/-- A node that refers to itself, at whatever distance, is decoded at no number of
levels. -/
theorem not_returned_of_cycle {decoder : Decoder} {index : ℕ}
    (hcycle : Relation.TransGen decoder.Refers index index) (levels : ℕ) :
    ¬ Returned (decoder.object levels) index := by
  induction levels using Nat.strong_induction_on with
  | _ levels ih =>
      intro h
      -- once around the cycle, with fewer levels
      obtain ⟨below, hbelow, hreturned⟩ := returned_of_transGen h hcycle
      exact ih below hbelow hreturned

end References

/-! ## Safety -/

/-- Decoding this byte string reads inside it, is bounded and ends. -/
structure DecodedSafely (bytes : Bytes) : Prop where
  /-- In words that are wide enough for its length the monitor finds no fault. -/
  monitored : ∃ enough, ∀ word, enough ≤ word →
    Monitor.decode word bytes = .ok (decodeBplist bytes)
  /-- Words of 64 bits are wide enough for every byte string that addresses of 47 bits
  can reach. -/
  machine : bytes.length ≤ 2 ^ 47 → Monitor.decode (2 ^ 64) bytes = .ok (decodeBplist bytes)
  /-- A file in which a container below the root contains itself is rejected. -/
  acyclic : ∀ decoder top index, openBplist bytes = some (decoder, top) →
    Relation.ReflTransGen decoder.Refers top index →
      Relation.TransGen decoder.Refers index index → decodeBplist bytes = none

theorem decodedSafely (bytes : Bytes) : DecodedSafely bytes where
  monitored := ⟨98304 * bytes.length + 2 ^ 18, fun _ hword => Monitor.decode_eq hword⟩
  machine := by
    intro hlength
    have hroom : Monitor.Roomy (2 ^ 64) bytes.length := by
      unfold Monitor.Roomy
      omega
    exact Monitor.decode_eq hroom
  acyclic := by
    intro decoder top index hopen hpath hcycle
    -- the root would have returned, and with it every node it reaches
    have hreturned : ¬ Returned (decoder.object (kMaxDepth + 1)) top := by
      intro h
      rcases Relation.reflTransGen_iff_eq_or_transGen.mp hpath with rfl | hpath
      · exact not_returned_of_cycle hcycle _ h
      · obtain ⟨below, -, hbelow⟩ := returned_of_transGen h hpath
        exact not_returned_of_cycle hcycle below hbelow
    unfold decodeBplist
    rw [hopen]
    dsimp only
    cases hobject : (decoder.object (kMaxDepth + 1) top {}).1 with
    | none => rfl
    | some value => exact absurd ⟨{}, by rw [hobject]; rfl⟩ hreturned

/-- An array that contains itself. -/
example : (decodeBplist (magic ++ [0xa1, 0] ++ [8] ++ trailer 1 1 1 0 10)).isNone = true := by
  decide +kernel

end Airplay
end Aa2acp
