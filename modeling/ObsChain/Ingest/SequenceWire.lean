/-
The `sequence` topic on the wire (`validate_and_extract_multipart`, `parse_sequence_event` and `format_zmq_hash` of
`bitcoin_zmq.rs`).

A message has three frames: the topic, a body and the number of the notification. The body is a hash, a tag, and for a
transaction the number of its mempool change. The hash is shown in the order of its bytes, in lower-case hex digits; numbers
are little-endian. `encode` is the inverse, from an event to its frames.

- `decode_ok_iff`: what is accepted, and as what.
- `sequence_wire_exact`: the accepted frames, and the round trip both ways.
-/
import Mathlib.Tactic
import ObsChain.Core.Bytes
import ObsChain.Ingest.BitcoinZmq

namespace ObsChain

inductive BitcoinSequenceEvent where
  | blockConnected (blockHash : String) (zmqSequence : UInt32)
  | blockDisconnected (blockHash : String) (zmqSequence : UInt32)
  | transactionAdded (txid : String) (mempoolSequence : UInt64) (zmqSequence : UInt32)
  | transactionRemoved (txid : String) (mempoolSequence : UInt64) (zmqSequence : UInt32)
deriving DecidableEq

def BitcoinZmqTopic.asTopicStr : BitcoinZmqTopic → String
  | .rawBlock => "rawblock"
  | .rawTx => "rawtx"
  | .sequence => "sequence"

namespace SequenceWire

open Bytes

/-- two lower-case hex digits for each byte -/
def formatZmqHash (bytes : List UInt8) : String :=
  String.ofList (bytes.flatMap fun b => [Nat.digitChar (b.toNat / 16), Nat.digitChar (b.toNat % 16)])

def validateAndExtractMultipart (frames : List (List UInt8)) (expectedTopic : BitcoinZmqTopic) :
    Except BitcoinZmqError (List UInt8 × UInt32) :=
  match frames with
  | [topic, body, sequence] =>
    match utf8 topic with
    | .error e => .error (.malformedMessage ("Invalid topic UTF-8: " ++ e.display))
    | .ok cs =>
      let topicStr := String.ofList cs
      if topicStr ≠ expectedTopic.asTopicStr then
        .error (.malformedMessage ("Unexpected topic '" ++ topicStr ++ "', expected '" ++ expectedTopic.asTopicStr ++ "'"))
      else if sequence.length ≠ 4 then
        .error (.malformedMessage ("ZMQ sequence frame must be exactly 4 bytes, got " ++ toString sequence.length))
      else .ok (body, UInt32.ofNat (fromLe sequence))
  | _ =>
    .error (.malformedMessage ("Expected exactly 3 multipart frames (topic, body, sequence), got " ++
      toString frames.length))

def parseSequenceEvent (payload : List UInt8) (zmqSequence : UInt32) : Except BitcoinZmqError BitcoinSequenceEvent :=
  if payload.length < 33 then
    .error (.malformedMessage ("Sequence payload too short: " ++ toString payload.length ++ " bytes < 33"))
  else
    let tag := (payload[32]?).getD 0
    let hashDisplay := formatZmqHash (payload.take 32)
    let mempoolSequence := UInt64.ofNat (fromLe ((payload.drop 33).take 8))
    -- the tags are ASCII letters
    match tag.toNat with
    | 67 => -- C
      if payload.length ≠ 33 then
        .error (.malformedMessage ("Block connected 'C' payload must be exactly 33 bytes (32 hash + 1 tag), got " ++
          toString payload.length))
      else .ok (.blockConnected hashDisplay zmqSequence)
    | 68 => -- D
      if payload.length ≠ 33 then
        .error (.malformedMessage ("Block disconnected 'D' payload must be exactly 33 bytes (32 hash + 1 tag), got " ++
          toString payload.length))
      else .ok (.blockDisconnected hashDisplay zmqSequence)
    | 65 => -- A
      if payload.length ≠ 41 then
        .error (.malformedMessage
          ("Transaction added 'A' payload must be exactly 41 bytes (32 hash + 1 tag + 8 mempool seq), got " ++
            toString payload.length))
      else .ok (.transactionAdded hashDisplay mempoolSequence zmqSequence)
    | 82 => -- R
      if payload.length ≠ 41 then
        .error (.malformedMessage
          ("Transaction removed 'R' payload must be exactly 41 bytes (32 hash + 1 tag + 8 mempool seq), got " ++
            toString payload.length))
      else .ok (.transactionRemoved hashDisplay mempoolSequence zmqSequence)
    | other => .error (.invalidSequenceTag other)

/-- both steps, for the topic `sequence` -/
def decode (frames : List (List UInt8)) : Except BitcoinZmqError BitcoinSequenceEvent := do
  let (payload, zmqSequence) ← validateAndExtractMultipart frames .sequence
  parseSequenceEvent payload zmqSequence

end SequenceWire

/-! ## From an event to its frames -/

namespace BitcoinSequenceEvent

/-- the block hash or the transaction id -/
def hash : BitcoinSequenceEvent → String
  | blockConnected blockHash _ | blockDisconnected blockHash _ => blockHash
  | transactionAdded txid _ _ | transactionRemoved txid _ _ => txid

def zmqSequence : BitcoinSequenceEvent → UInt32
  | blockConnected _ seq | blockDisconnected _ seq | transactionAdded _ _ seq | transactionRemoved _ _ seq => seq

/-- what follows the hash in the body -/
def tail : BitcoinSequenceEvent → List UInt8
  | blockConnected _ _ => [67]
  | blockDisconnected _ _ => [68]
  | transactionAdded _ mempoolSequence _ => 65 :: Bytes.toLe 8 mempoolSequence.toNat
  | transactionRemoved _ mempoolSequence _ => 82 :: Bytes.toLe 8 mempoolSequence.toNat

/-- the frames of an event, if its hash is hex -/
def encode (event : BitcoinSequenceEvent) : Option (List (List UInt8)) :=
  (fromHex event.hash).map fun hash =>
    [Bytes.ascii "sequence".toList, hash ++ event.tail, Bytes.toLe 4 event.zmqSequence.toNat]

end BitcoinSequenceEvent

namespace SequenceWire

open Bytes

/-! ## Hex digits -/

def lowerHexDigits : List Char := "0123456789abcdef".toList

/-- 64 lower-case hex digits -/
def IsHash (s : String) : Prop := s.length = 64 ∧ ∀ c ∈ s.toList, c ∈ lowerHexDigits

theorem hexDigit_digitChar : ∀ x < 16, hexDigit (Nat.digitChar x) = some x := by
  decide

theorem lowerHexDigits_eq : lowerHexDigits = (List.range 16).map Nat.digitChar := by
  decide +kernel

theorem digitChar_of_mem {c : Char} (h : c ∈ lowerHexDigits) : ∃ x < 16, Nat.digitChar x = c := by
  rw [lowerHexDigits_eq] at h
  obtain ⟨x, hx, hdigit⟩ := List.mem_map.1 h
  exact ⟨x, List.mem_range.1 hx, hdigit⟩

/-- the bytes are read back -/
theorem fromHex_formatZmqHash (bytes : List UInt8) : fromHex (formatZmqHash bytes) = some bytes := by
  rw [fromHex, formatZmqHash, String.toList_ofList]
  induction bytes with
  | nil => rfl
  | cons b bytes ih =>
    have hb := b.toNat_lt
    have hbyte : UInt8.ofNat (16 * (b.toNat / 16) + b.toNat % 16) = b := by
      rw [Nat.div_add_mod, UInt8.ofNat_toNat]
    rw [List.flatMap_cons, List.cons_append, List.cons_append, List.nil_append, hexPairs,
      hexDigit_digitChar _ (by omega), hexDigit_digitChar _ (by omega), ih]
    simp only [hbyte]

theorem length_formatZmqHash (bytes : List UInt8) : (formatZmqHash bytes).length = 2 * bytes.length := by
  rw [formatZmqHash, ← String.length_toList, String.toList_ofList]
  induction bytes with
  | nil => rfl
  | cons b bytes ih =>
    rw [List.flatMap_cons, List.length_append, ih]
    simp only [List.length_cons, List.length_nil]
    omega

theorem digitChar_mem {x : ℕ} (h : x < 16) : Nat.digitChar x ∈ lowerHexDigits := by
  rw [lowerHexDigits_eq]
  exact List.mem_map.2 ⟨x, List.mem_range.2 h, rfl⟩

/-- 32 bytes are shown as a hash -/
theorem isHash_formatZmqHash {bytes : List UInt8} (h : bytes.length = 32) : IsHash (formatZmqHash bytes) := by
  refine ⟨by rw [length_formatZmqHash, h], ?_⟩
  intro c hc
  rw [formatZmqHash, String.toList_ofList] at hc
  obtain ⟨b, -, hc⟩ := List.mem_flatMap.1 hc
  have hb := b.toNat_lt
  simp only [List.mem_cons, List.not_mem_nil, or_false] at hc
  rcases hc with rfl | rfl
  · exact digitChar_mem (by omega)
  · exact digitChar_mem (by omega)

/-- lower-case digits are the digits of some bytes -/
theorem exists_bytes_of_digits {n : ℕ} {cs : List Char} (hlen : cs.length = 2 * n) (h : ∀ c ∈ cs, c ∈ lowerHexDigits) :
    ∃ bytes : List UInt8, bytes.length = n ∧ formatZmqHash bytes = String.ofList cs := by
  induction n generalizing cs with
  | zero =>
    rw [List.length_eq_zero_iff.1 hlen]
    exact ⟨[], rfl, rfl⟩
  | succ n ih =>
    match cs, hlen with
    | a :: b :: cs, hlen =>
      simp only [List.length_cons] at hlen
      obtain ⟨x, hx, hxa⟩ := digitChar_of_mem (h a List.mem_cons_self)
      obtain ⟨y, hy, hyb⟩ := digitChar_of_mem (h b (List.mem_cons_of_mem a List.mem_cons_self))
      obtain ⟨bytes, hbytes, hformat⟩ := ih (by omega) fun c hc => h c (List.mem_cons_of_mem a (List.mem_cons_of_mem b hc))
      have hbyte : (UInt8.ofNat (16 * x + y)).toNat = 16 * x + y := by
        rw [UInt8.toNat_ofNat']
        omega
      refine ⟨UInt8.ofNat (16 * x + y) :: bytes, by rw [List.length_cons, hbytes], ?_⟩
      have hhigh : (16 * x + y) / 16 = x := by omega
      have hlow : (16 * x + y) % 16 = y := by omega
      rw [formatZmqHash, List.flatMap_cons, hbyte, hhigh, hlow, hxa, hyb]
      rw [formatZmqHash, String.ofList_inj] at hformat
      rw [hformat]
      rfl

/-! ## What is accepted -/

theorem ascii_topic (topic : BitcoinZmqTopic) : ∀ c ∈ topic.asTopicStr.toList, c.toNat < 0x80 := by
  have hall : topic.asTopicStr.toList.all (·.toNat < 0x80) = true := by cases topic <;> decide +kernel
  intro c hc
  exact of_decide_eq_true (List.all_eq_true.1 hall c hc)

/-- the four bytes of the notification's number -/
theorem toLe_zmqSequence {bytes : List UInt8} (h : bytes.length = 4) :
    toLe 4 (UInt32.ofNat (fromLe bytes)).toNat = bytes := by
  have hlt : fromLe bytes < 2 ^ 32 := by simpa [h] using fromLe_lt bytes
  rw [UInt32.toNat_ofNat', Nat.mod_eq_of_lt hlt, ← h, toLe_fromLe]

/-- the frames of a topic with a body and a number -/
theorem validate_ok_iff {frames : List (List UInt8)} {topic : BitcoinZmqTopic} {body : List UInt8} {seq : UInt32} :
    validateAndExtractMultipart frames topic = .ok (body, seq) ↔
      frames = [ascii topic.asTopicStr.toList, body, toLe 4 seq.toNat] := by
  constructor
  · intro h
    unfold validateAndExtractMultipart at h
    split at h
    · next topicBytes body' sequence =>
      split at h
      · cases h
      · next cs hutf8 =>
        dsimp only at h
        split_ifs at h with htopic hlen
        obtain ⟨rfl, rfl⟩ := Prod.mk.inj (Except.ok.inj h)
        rw [not_not] at htopic hlen
        have hcs : cs = topic.asTopicStr.toList := by rw [← htopic, String.toList_ofList]
        rw [hcs, utf8_eq_ascii_iff (ascii_topic topic)] at hutf8
        rw [hutf8, toLe_zmqSequence hlen]
    · cases h
  · rintro rfl
    have hutf8 := (utf8_eq_ascii_iff (ascii_topic topic)).2 rfl
    have hlt : seq.toNat < 256 ^ 4 := seq.toNat_lt
    simp only [validateAndExtractMultipart, hutf8, String.ofList_toList, ne_eq, not_true_eq_false, if_false, length_toLe,
      fromLe_toLe hlt, UInt32.ofNat_toNat]

/-- a payload from its parts -/
theorem exists_parts {payload : List UInt8} (h : ¬ payload.length < 33) :
    ∃ hash tag rest, hash.length = 32 ∧ payload = hash ++ tag :: rest := by
  have hdrop : (payload.drop 32).length ≠ 0 := by
    rw [List.length_drop]
    omega
  obtain ⟨tag, rest, hrest⟩ := List.exists_cons_of_length_pos (Nat.pos_of_ne_zero hdrop)
  refine ⟨payload.take 32, tag, rest, ?_, ?_⟩
  · rw [List.length_take]
    omega
  · rw [← hrest, List.take_append_drop]

/-- the eight bytes of a mempool number -/
theorem toLe_mempoolSequence {bytes : List UInt8} (h : bytes.length = 8) :
    toLe 8 (UInt64.ofNat (fromLe (bytes.take 8))).toNat = bytes := by
  have hlt : fromLe bytes < 2 ^ 64 := by simpa [h] using fromLe_lt bytes
  rw [List.take_of_length_le h.le, UInt64.toNat_ofNat', Nat.mod_eq_of_lt hlt, ← h, toLe_fromLe]

theorem mempoolSequence_toLe (n : UInt64) : UInt64.ofNat (fromLe ((toLe 8 n.toNat).take 8)) = n := by
  have hlt : n.toNat < 256 ^ 8 := n.toNat_lt
  rw [List.take_of_length_le (length_toLe 8 _).le, fromLe_toLe hlt, UInt64.ofNat_toNat]

section

variable {hash : List UInt8} (hlen : hash.length = 32) (tag : UInt8) (rest : List UInt8)

include hlen

theorem tag_of_parts : (hash ++ tag :: rest)[32]? = some tag := by
  rw [← hlen, List.getElem?_append_right le_rfl, Nat.sub_self, List.getElem?_cons_zero]

theorem hash_of_parts : (hash ++ tag :: rest).take 32 = hash := by
  rw [← hlen, List.take_left]

theorem rest_of_parts : (hash ++ tag :: rest).drop 33 = rest := by
  rw [List.drop_append, List.drop_eq_nil_of_le (by omega), hlen]
  rfl

theorem length_of_parts : (hash ++ tag :: rest).length = 33 + rest.length := by
  rw [List.length_append, List.length_cons, hlen]
  omega

end

/-- **What is parsed**: a hash, then the rest of the event. -/
theorem parse_ok_iff {payload : List UInt8} {seq : UInt32} {event : BitcoinSequenceEvent} :
    parseSequenceEvent payload seq = .ok event ↔
      ∃ hash, hash.length = 32 ∧ payload = hash ++ event.tail ∧ event.hash = formatZmqHash hash ∧
        event.zmqSequence = seq := by
  constructor
  · intro h
    by_cases hshort : payload.length < 33
    · rw [parseSequenceEvent, if_pos hshort] at h
      cases h
    obtain ⟨hash, tag, rest, hlen, rfl⟩ := exists_parts hshort
    rw [parseSequenceEvent, if_neg hshort] at h
    simp only [tag_of_parts hlen, Option.getD_some, hash_of_parts hlen, rest_of_parts hlen, length_of_parts hlen] at h
    refine ⟨hash, hlen, ?_⟩
    split at h
    · next htag =>
      split_ifs at h with hrest
      cases h
      obtain rfl : tag = 67 := UInt8.toNat_inj.1 htag
      obtain rfl : rest = [] := List.length_eq_zero_iff.1 (by omega)
      exact ⟨rfl, rfl, rfl⟩
    · next htag =>
      split_ifs at h with hrest
      cases h
      obtain rfl : tag = 68 := UInt8.toNat_inj.1 htag
      obtain rfl : rest = [] := List.length_eq_zero_iff.1 (by omega)
      exact ⟨rfl, rfl, rfl⟩
    · next htag =>
      split_ifs at h with hrest
      cases h
      obtain rfl : tag = 65 := UInt8.toNat_inj.1 htag
      refine ⟨?_, rfl, rfl⟩
      rw [BitcoinSequenceEvent.tail, toLe_mempoolSequence (by omega)]
    · next htag =>
      split_ifs at h with hrest
      cases h
      obtain rfl : tag = 82 := UInt8.toNat_inj.1 htag
      refine ⟨?_, rfl, rfl⟩
      rw [BitcoinSequenceEvent.tail, toLe_mempoolSequence (by omega)]
    · cases h
  · rintro ⟨hash, hlen, rfl, hhash, rfl⟩
    have hlong : ¬ (hash ++ event.tail).length < 33 := by
      cases event <;> simp [BitcoinSequenceEvent.tail, hlen]
    rw [parseSequenceEvent, if_neg hlong]
    cases event <;>
      simp only [BitcoinSequenceEvent.hash] at hhash <;>
      simp [BitcoinSequenceEvent.tail, BitcoinSequenceEvent.zmqSequence, hash_of_parts hlen, rest_of_parts hlen,
        hlen, hhash, mempoolSequence_toLe]

/-- **What is accepted, and as what.** -/
theorem decode_ok_iff {frames : List (List UInt8)} {event : BitcoinSequenceEvent} :
    decode frames = .ok event ↔
      ∃ hash, hash.length = 32 ∧ event.hash = formatZmqHash hash ∧
        frames = [ascii "sequence".toList, hash ++ event.tail, toLe 4 event.zmqSequence.toNat] := by
  constructor
  · intro h
    cases hframes : validateAndExtractMultipart frames .sequence with
    | error e =>
      rw [decode, hframes] at h
      cases h
    | ok parts =>
      obtain ⟨payload, seq⟩ := parts
      rw [decode, hframes] at h
      obtain ⟨hash, hlen, rfl, hhash, rfl⟩ := parse_ok_iff.1 h
      exact ⟨hash, hlen, hhash, validate_ok_iff.1 hframes⟩
  · rintro ⟨hash, hlen, hhash, hframes⟩
    have hvalid : validateAndExtractMultipart frames .sequence = .ok (hash ++ event.tail, event.zmqSequence) :=
      validate_ok_iff.2 hframes
    rw [decode, hvalid]
    exact parse_ok_iff.2 ⟨hash, hlen, rfl, hhash, rfl⟩

/-- three frames: the topic, a hash with a tag and what the tag asks for, and four bytes -/
def WellFormed (frames : List (List UInt8)) : Prop :=
  frames.length = 3 ∧ frames[0]? = some (ascii "sequence".toList) ∧
    (∃ sequence, frames[2]? = some sequence ∧ sequence.length = 4) ∧
    ∃ body, frames[1]? = some body ∧
      ((body.length = 33 ∧ (body[32]? = some 67 ∨ body[32]? = some 68)) ∨
        (body.length = 41 ∧ (body[32]? = some 65 ∨ body[32]? = some 82)))

theorem decode_ok_iff_wellFormed (frames : List (List UInt8)) :
    (∃ event, decode frames = .ok event) ↔ WellFormed frames := by
  constructor
  · intro ⟨event, h⟩
    obtain ⟨hash, hlen, -, rfl⟩ := decode_ok_iff.1 h
    refine ⟨rfl, rfl, ⟨_, rfl, length_toLe 4 _⟩, _, rfl, ?_⟩
    cases event <;> simp [BitcoinSequenceEvent.tail, hlen]
  · rintro ⟨hlen, htopic, ⟨sequence, hsequence, hfour⟩, body, hbody, htag⟩
    have hframes : frames = [ascii "sequence".toList, body, toLe 4 (UInt32.ofNat (fromLe sequence)).toNat] := by
      match frames, hlen with
      | [first, second, third], _ =>
        obtain rfl := Option.some.inj htopic
        obtain rfl := Option.some.inj hbody
        obtain rfl := Option.some.inj hsequence
        rw [toLe_zmqSequence hfour]
    have hlong : ¬ body.length < 33 := by omega
    obtain ⟨hash, tag, rest, hhash, rfl⟩ := exists_parts hlong
    rw [tag_of_parts hhash, length_of_parts hhash] at htag
    have hdecode := fun event => @decode_ok_iff frames event
    rcases htag with ⟨hlength, hc | hd⟩ | ⟨hlength, ha | hr⟩
    · obtain rfl := Option.some.inj hc
      obtain rfl : rest = [] := List.length_eq_zero_iff.1 (by omega)
      exact ⟨.blockConnected (formatZmqHash hash) _, (hdecode _).2 ⟨hash, hhash, rfl, hframes⟩⟩
    · obtain rfl := Option.some.inj hd
      obtain rfl : rest = [] := List.length_eq_zero_iff.1 (by omega)
      exact ⟨.blockDisconnected (formatZmqHash hash) _, (hdecode _).2 ⟨hash, hhash, rfl, hframes⟩⟩
    · obtain rfl := Option.some.inj ha
      rw [← toLe_mempoolSequence (by omega : rest.length = 8)] at hframes
      exact ⟨.transactionAdded (formatZmqHash hash) _ _, (hdecode _).2 ⟨hash, hhash, rfl, hframes⟩⟩
    · obtain rfl := Option.some.inj hr
      rw [← toLe_mempoolSequence (by omega : rest.length = 8)] at hframes
      exact ⟨.transactionRemoved (formatZmqHash hash) _ _, (hdecode _).2 ⟨hash, hhash, rfl, hframes⟩⟩

/-- **The wire format is parsed exactly.** What is accepted, and the round trip both ways. -/
theorem sequence_wire_exact :
    (∀ frames, (∃ event, decode frames = .ok event) ↔ WellFormed frames) ∧
    (∀ frames event, decode frames = .ok event → event.encode = some frames ∧ IsHash event.hash) ∧
    ∀ event : BitcoinSequenceEvent, IsHash event.hash → ∃ frames, event.encode = some frames ∧ decode frames = .ok event := by
  refine ⟨decode_ok_iff_wellFormed, ?_, ?_⟩
  · intro frames event h
    obtain ⟨hash, hlen, hhash, rfl⟩ := decode_ok_iff.1 h
    rw [BitcoinSequenceEvent.encode, hhash, fromHex_formatZmqHash, Option.map_some]
    exact ⟨rfl, isHash_formatZmqHash hlen⟩
  · rintro event ⟨hlen, hdigits⟩
    obtain ⟨hash, hhash, hformat⟩ := exists_bytes_of_digits (n := 32) (by rw [String.length_toList, hlen]) hdigits
    rw [String.ofList_toList] at hformat
    have hframes : event.encode =
        some [ascii "sequence".toList, hash ++ event.tail, toLe 4 event.zmqSequence.toNat] := by
      rw [BitcoinSequenceEvent.encode, ← hformat, fromHex_formatZmqHash, Option.map_some]
    exact ⟨_, hframes, decode_ok_iff.2 ⟨hash, hhash, hformat.symm, rfl⟩⟩

example : formatZmqHash [0x0a, 0xff] = "0aff" ∧ parseSequenceEvent (List.replicate 32 0xaa) 10 =
    .error (.malformedMessage "Sequence payload too short: 32 bytes < 33") := by
  decide +kernel

end SequenceWire

end ObsChain
