import Aa2acp.Iap2.Csm
import Aa2acp.Lib.Framing

/-!
# A stream of control session messages in chunks

A decoder that gets the bytes of whole messages in chunks of any size hands out these
messages in order.  Between two chunks its buffer holds a part of the next message
(`Waiting`), so no chunk that a link frame can carry overflows it.
-/

namespace Aa2acp
namespace Iap2
namespace Csm

/-- A link frame has a 16-bit length, of which header and checksum take ten bytes. -/
def kMaximumChunk : ℕ := 65535 - 10

/-- What always fits behind a part of a message: the buffer holds 128 KiB. -/
def kMaximumPush : ℕ := 65538

theorem kMaximumChunk_le_kMaximumPush : kMaximumChunk ≤ kMaximumPush := by decide

/-- The buffer holds a proper part of the first of these messages, or nothing. -/
def Waiting (buffer : Bytes) : List Message → Prop
  | [] => buffer = []
  | message :: _ => ∃ more, more ≠ [] ∧ buffer ++ more = message.encode

@[simp] theorem encodeAll_nil : encodeAll [] = [] := rfl

@[simp] theorem encodeAll_cons (message : Message) (messages : List Message) :
    encodeAll (message :: messages) = message.encode ++ encodeAll messages :=
  List.flatMap_cons

@[simp] theorem encodeAll_append (messages others : List Message) :
    encodeAll (messages ++ others) = encodeAll messages ++ encodeAll others :=
  List.flatMap_append

section

variable {messages : List Message}

theorem encode_ne_nil {message : Message} (h : message.Encodable) : message.encode ≠ [] := by
  have hlength := length_encode h
  intro hnil
  rw [hnil, List.length_nil] at hlength
  omega

/-- The messages are the blocks of the stream. -/
theorem waiting_iff_awaits {buffer : Bytes} :
    Waiting buffer messages ↔ Framing.Awaits buffer (messages.map Message.encode) := by
  cases messages with
  | nil => rfl
  | cons message messages => rfl

theorem encodeAll_eq_flatten (messages : List Message) :
    encodeAll messages = (messages.map Message.encode).flatten := List.flatMap_def ..

theorem encode_map_ne_nil (h : ∀ message ∈ messages, message.Encodable) :
    ∀ block ∈ messages.map Message.encode, block ≠ [] := by
  intro block hblock
  obtain ⟨message, hmessage, rfl⟩ := List.mem_map.mp hblock
  exact encode_ne_nil (h message hmessage)

theorem waiting_nil (h : ∀ message ∈ messages, message.Encodable) : Waiting [] messages :=
  waiting_iff_awaits.mpr (Framing.awaits_nil (encode_map_ne_nil h))

theorem Waiting.next {buffer : Bytes} (h : Waiting buffer messages)
    (hencodable : ∀ message ∈ messages, message.Encodable) :
    (Decoder.mk buffer).next = (none, ⟨buffer⟩) := by
  cases messages with
  | nil =>
      have hbuffer : buffer = [] := h
      rw [hbuffer]
      rfl
  | cons message messages =>
      obtain ⟨more, hmore, hsplit⟩ := h
      exact next_incomplete (hencodable message List.mem_cons_self) hmore hsplit

theorem Waiting.length_lt {buffer : Bytes} {message : Message}
    (h : Waiting buffer (message :: messages)) : buffer.length < message.encode.length := by
  obtain ⟨more, hmore, hsplit⟩ := h
  have hpos : 0 < more.length := List.length_pos_iff.mpr hmore
  rw [← hsplit, List.length_append]
  omega

theorem Waiting.length_le {buffer : Bytes} (h : Waiting buffer messages)
    (hencodable : ∀ message ∈ messages, message.Encodable) : buffer.length ≤ 65534 := by
  cases messages with
  | nil =>
      have hbuffer : buffer = [] := h
      simp [hbuffer]
  | cons message messages =>
      have hmessage := hencodable message List.mem_cons_self
      have hlt := h.length_lt
      rw [length_encode hmessage] at hlt
      unfold Message.Encodable at hmessage
      omega

/-- The test of `push` before it throws the buffer away. -/
def Decoder.Discards (chunk : Bytes) (decoder : Decoder) : Prop :=
  chunk.length > kMaximumBufferSize - min decoder.buffer.length kMaximumBufferSize

theorem push_of_not_discards {decoder : Decoder} {chunk : Bytes} (h : ¬ decoder.Discards chunk) :
    decoder.push chunk = ⟨decoder.buffer ++ chunk⟩ := if_neg h

/-- No such chunk overflows a buffer that holds less than the longest message. -/
theorem not_discards_of_fits {decoder : Decoder} {chunk : Bytes}
    (hbuffer : decoder.buffer.length ≤ 65534) (hchunk : chunk.length ≤ kMaximumPush) :
    ¬ decoder.Discards chunk := by
  simp only [Decoder.Discards, kMaximumBufferSize, kMaximumPush] at hchunk ⊢
  omega

theorem Waiting.push {buffer : Bytes} (h : Waiting buffer messages)
    (hencodable : ∀ message ∈ messages, message.Encodable) {chunk : Bytes}
    (hchunk : chunk.length ≤ kMaximumPush) :
    (Decoder.mk buffer).push chunk = ⟨buffer ++ chunk⟩ :=
  push_of_not_discards (not_discards_of_fits (h.length_le hencodable) hchunk)

/-- A prefix of a stream consists of whole messages and a part of the next one. -/
theorem cut_encodeAll (h : ∀ message ∈ messages, message.Encodable) {first rest : Bytes}
    (hsplit : first ++ rest = encodeAll messages) :
    ∃ now later tail, messages = now ++ later ∧ first = encodeAll now ++ tail ∧
      tail ++ rest = encodeAll later ∧ Waiting tail later := by
  rw [encodeAll_eq_flatten] at hsplit
  obtain ⟨nowBlocks, laterBlocks, tail, hblocks, hfirst, hrest, hawaits⟩ :=
    Framing.cut_flatten (encode_map_ne_nil h) hsplit
  -- whole blocks are whole messages
  obtain ⟨now, later, rfl, rfl, rfl⟩ := List.map_eq_append_iff.mp hblocks
  exact ⟨now, later, tail, rfl, by rw [hfirst, encodeAll_eq_flatten],
    by rw [hrest, encodeAll_eq_flatten], waiting_iff_awaits.mpr hawaits⟩

theorem eq_nil_of_encodeAll_eq_nil (h : ∀ message ∈ messages, message.Encodable)
    (hnil : encodeAll messages = []) : messages = [] := by
  have hle := length_le_encodeAll h
  rw [hnil, List.length_nil] at hle
  exact List.length_eq_zero_iff.mp (by omega)

theorem length_encodeAll (h : ∀ message ∈ messages, message.Encodable) :
    (encodeAll messages).length = (messages.map Message.size).sum := by
  induction messages with
  | nil => rfl
  | cons message messages ih =>
      rw [encodeAll_cons, List.length_append, length_encode (h message List.mem_cons_self),
        ih fun other hother => h other (List.mem_cons_of_mem _ hother), List.map_cons,
        List.sum_cons]
      rfl

/-- One chunk gives the messages that it completes. -/
theorem Waiting.drain_push {buffer : Bytes} (h : Waiting buffer messages)
    (hencodable : ∀ message ∈ messages, message.Encodable) {chunk rest : Bytes}
    (hchunk : chunk.length ≤ kMaximumPush)
    (hsplit : buffer ++ (chunk ++ rest) = encodeAll messages) :
    ∃ now later tail, messages = now ++ later ∧ buffer ++ chunk = encodeAll now ++ tail ∧
      tail ++ rest = encodeAll later ∧ Waiting tail later ∧
      ((Decoder.mk buffer).push chunk).drain = (now, ⟨tail⟩) := by
  rw [← List.append_assoc] at hsplit
  obtain ⟨now, later, tail, rfl, hcut, htail, hwaiting⟩ := cut_encodeAll hencodable hsplit
  refine ⟨now, later, tail, rfl, hcut, htail, hwaiting, ?_⟩
  rw [h.push hencodable hchunk, hcut]
  refine drain_encodeAll (fun message hmessage => ?_) (hwaiting.next fun message hmessage => ?_)
  · exact hencodable message (List.mem_append_left _ hmessage)
  · exact hencodable message (List.mem_append_right _ hmessage)

end

/-- The messages of a decoder that is given these chunks. -/
def Decoder.feed : List Bytes → Decoder → List Message × Decoder
  | [], decoder => ([], decoder)
  | chunk :: chunks, decoder =>
      let (now, decoder) := (decoder.push chunk).drain
      let (later, decoder) := Decoder.feed chunks decoder
      (now ++ later, decoder)

/-- All the messages of a stream come out, wherever it was cut, and nothing is left. -/
theorem Waiting.feed {messages : List Message} {buffer : Bytes} (h : Waiting buffer messages)
    (hencodable : ∀ message ∈ messages, message.Encodable) {chunks : List Bytes}
    (hchunks : ∀ chunk ∈ chunks, chunk.length ≤ kMaximumPush)
    (hsplit : buffer ++ chunks.flatten = encodeAll messages) :
    (Decoder.mk buffer).feed chunks = (messages, {}) := by
  induction chunks generalizing buffer messages with
  | nil =>
      rw [List.flatten_nil, List.append_nil, encodeAll_eq_flatten] at hsplit
      obtain ⟨hnil, hnone⟩ := (waiting_iff_awaits.mp h).eq_nil hsplit
      rw [hnil, List.map_eq_nil_iff.mp hnone]
      rfl
  | cons chunk chunks ih =>
      rw [List.flatten_cons] at hsplit
      obtain ⟨now, later, tail, rfl, -, htail, hwaiting, hdrain⟩ :=
        h.drain_push hencodable (hchunks chunk List.mem_cons_self) hsplit
      unfold Decoder.feed
      rw [hdrain]
      dsimp only
      rw [ih hwaiting (fun message hmessage => hencodable message (List.mem_append_right _ hmessage))
        (fun other hother => hchunks other (List.mem_cons_of_mem _ hother)) htail]

theorem push_length_le (decoder : Decoder) (chunk : Bytes) :
    (decoder.push chunk).buffer.length ≤ decoder.buffer.length + chunk.length := by
  unfold Decoder.push
  split
  · exact Nat.zero_le _
  · rw [List.length_append]

/-- No more messages come out than bytes went in. -/
theorem feed_size (chunks : List Bytes) (decoder : Decoder) :
    ((decoder.feed chunks).1.map Message.size).sum ≤
      decoder.buffer.length + chunks.flatten.length := by
  induction chunks generalizing decoder with
  | nil => exact Nat.zero_le _
  | cons chunk chunks ih =>
      have hpush := push_length_le decoder chunk
      have hdrain := drainFrom_size (decoder.push chunk).buffer.length (decoder.push chunk)
      have hrest := ih (decoder.push chunk).drain.2
      unfold Decoder.feed
      simp only [List.map_append, List.sum_append, List.flatten_cons, List.length_append]
      unfold Decoder.drain at hrest ⊢
      omega

end Csm
end Iap2
end Aa2acp
