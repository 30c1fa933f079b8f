import ZigbeeStack.ByteStreams
import ZigbeeStack.Pack
import ZigbeeStack.Runtime

/-! Messages on the serial line of the radio: their encoding, and how the receive buffer is
searched for the next one. -/
namespace ZigbeeStack
open Bits ByteStreams

inductive RawRadioCommand where
  | prepare | transmit | send | channelClear | on | off | getValue | setValue | getObject
  | setObject | initPendingTable | setPending | ok | err | onPacket
deriving DecidableEq, Repr

def RawRadioCommand.tag : RawRadioCommand → UInt8
  | .prepare => 0
  | .transmit => 1
  | .send => 2
  | .channelClear => 3
  | .on => 4
  | .off => 5
  | .getValue => 6
  | .setValue => 7
  | .getObject => 8
  | .setObject => 9
  | .initPendingTable => 10
  | .setPending => 11
  | .ok => 0x80
  | .err => 0x81
  | .onPacket => 0xC0

/- The arms of the derived conversion, in order. -/
def RawRadioCommand.variants : List RawRadioCommand :=
  [.prepare, .transmit, .send, .channelClear, .on, .off, .getValue, .setValue, .getObject,
    .setObject, .initPendingTable, .setPending, .ok, .err, .onPacket]

instance : ExtEnum RawRadioCommand UInt8 where
  intoTag := RawRadioCommand.tag
  tryFromTag tag :=
    match RawRadioCommand.variants.find? fun command => decide (command.tag = tag) with
    | some command => .ok command
    | none => .error .invalidTag

structure RawRadioMessage where
  commandId : RawRadioCommand
  requestId : UInt16
  data : List UInt8
deriving DecidableEq, Repr

def radioMagicPrefix : List UInt8 := [0x5A, 0x50, 0x42]

/- The length field holds at most `u16::max_value()`; data beyond it is cut off. -/
def genRawRadioMessage [CookieFactory] (msg : RawRadioMessage) (target : List UInt8) :
    List UInt8 :=
  let len := if 0xFFFF < msg.data.length then 0xFFFF else msg.data.length
  let target := CookieFactory.slice radioMagicPrefix target
  let target := CookieFactory.beU8 (ExtEnum.intoTag msg.commandId) target
  let target := CookieFactory.beU16 msg.requestId target
  let target := CookieFactory.beU16 (.ofNat len) target
  CookieFactory.slice (msg.data.take len) target

def RawRadioMessage.into [CookieFactory] (self : RawRadioMessage) : List UInt8 :=
  genRawRadioMessage self []

/- `?` hands the errors of the parsers on; the command is unwrapped before the data is taken. -/
def parseRawRadioMessage [Nom] (input : List UInt8) : Except Panic (Parsed RawRadioMessage) :=
  let header : Except ParseError (List UInt8 × UInt8 × UInt16 × UInt16) := do
    let (input, _) ← Nom.tag radioMagicPrefix input
    let (input, commandId) ← Nom.beU8 input
    let (input, requestId) ← Nom.beU16 input
    let (input, dataLen) ← Nom.beU16 input
    return (input, commandId, requestId, dataLen)
  match header with
  | .error e => .ok (.error e)
  | .ok (input, commandId, requestId, dataLen) =>
    match ExtEnum.tryFromTag commandId with
    | .error _ => .error .unwrap
    | .ok commandId =>
      let message : Except ParseError (List UInt8 × RawRadioMessage) := do
        let (input, data) ← Nom.take dataLen.toNat input
        return (input, ⟨commandId, requestId, data⟩)
      .ok message

section Slices
variable {α : Type} [DecidableEq α]

/- The windows of a slice; their size is not zero here. -/
def windows (slice : List α) (size : Nat) : List (List α) :=
  (List.range (slice.length + 1 - size)).map fun i => (slice.drop i).take size

def findSubsequence (haystack needle : List α) : Option Nat :=
  (windows haystack needle.length).findIdx? fun window => decide (window = needle)

def sliceTo (slice : List α) (stop : Nat) : Except Panic (List α) :=
  if stop ≤ slice.length then .ok (slice.take stop) else .error .bounds

def sliceFrom (slice : List α) (start : Nat) : Except Panic (List α) :=
  if start ≤ slice.length then .ok (slice.drop start) else .error .bounds

def rotateLeft (slice : List α) (mid : Nat) : Except Panic (List α) :=
  if mid ≤ slice.length then .ok (slice.drop mid ++ slice.take mid) else .error .bounds

def rotateRight (slice : List α) (k : Nat) : Except Panic (List α) :=
  if k ≤ slice.length then
    .ok (slice.drop (slice.length - k) ++ slice.take (slice.length - k))
  else .error .bounds

end Slices

/-- The buffer as it is rearranged, how many of its bytes to keep, and the message found. -/
def popRawMessage [Nom] (buffer : List UInt8) :
    Except Panic (List UInt8 × Nat × Option RawRadioMessage) :=
  if buffer.length < radioMagicPrefix.length then .ok (buffer, buffer.length, none)
  else match findSubsequence buffer radioMagicPrefix with
  | none => do
    let buffer ← rotateRight buffer radioMagicPrefix.length
    return (buffer, radioMagicPrefix.length, none)
  | some index => do
    let buffer ← rotateLeft buffer index
    let newLen := buffer.length - index
    let behind := buffer.drop newLen
    let buffer ← sliceTo buffer newLen
    match ← parseRawRadioMessage buffer with
    | .ok (remaining, message) =>
      let buffer ← rotateRight buffer remaining.length
      return (buffer ++ behind, remaining.length, some message)
    | .error .incomplete => return (buffer ++ behind, buffer.length, none)
    | .error .error => .error .explicit

theorem tryFromTag_intoTag (command : RawRadioCommand) :
    ExtEnum.tryFromTag (ExtEnum.intoTag command) = .ok command := by
  cases command <;> rfl

theorem intoTag_of_tryFromTag {tag : UInt8} {command : RawRadioCommand}
    (h : ExtEnum.tryFromTag tag = .ok command) : ExtEnum.intoTag command = tag := by
  simp only [ExtEnum.tryFromTag] at h
  split at h
  · rename_i found
    cases h
    have harm := List.find?_some found
    exact of_decide_eq_true harm
  · cases h

/-! What the search finds, and what rotating an appended slice gives. -/

section Slices
variable {α : Type} [DecidableEq α] {haystack needle : List α}

omit [DecidableEq α] in
theorem rotateLeft_append (xs ys : List α) : rotateLeft (xs ++ ys) xs.length = .ok (ys ++ xs) := by
  simp [rotateLeft]

omit [DecidableEq α] in
theorem rotateRight_append (xs ys : List α) :
    rotateRight (xs ++ ys) ys.length = .ok (ys ++ xs) := by
  simp [rotateRight]

theorem findSubsequence_eq_some {i : Nat} (hn : needle ≠ [])
    (h : FirstAt needle haystack i) : findSubsequence haystack needle = some i := by
  have hpos : 0 < needle.length := List.length_pos_iff.mpr hn
  have hlen := length_le_of_prefix_drop h.1
  rw [findSubsequence, List.findIdx?_eq_some_iff_getElem]
  refine ⟨by simp only [windows, List.length_map, List.length_range]; omega, ?_, fun j hj => ?_⟩
  · simpa [windows, window_eq_iff] using h.1
  · simpa [windows, window_eq_iff] using h.2 j hj

theorem findSubsequence_eq_none (h : ¬ needle <:+: haystack) :
    findSubsequence haystack needle = none := by
  rw [findSubsequence, List.findIdx?_eq_none_iff]
  intro window hw
  obtain ⟨i, -, rfl⟩ := List.mem_map.mp hw
  rw [decide_eq_false_iff_not, window_eq_iff]
  exact fun hocc => h (infix_of_prefix_drop hocc)

end Slices

theorem header_short_or_complete (rest : List UInt8) :
    rest.length < 5 ∨ ∃ tag a b c d body, rest = tag :: a :: b :: c :: d :: body := by
  match rest with
  | tag :: a :: b :: c :: d :: body => exact .inr ⟨tag, a, b, c, d, body, rfl⟩
  | [] | [_] | [_, _] | [_, _, _] | [_, _, _, _] => exact .inl (by simp)

inductive Framing : List UInt8 → Prop where
  | noise {bytes : List UInt8} : ¬ radioMagicPrefix <:+: bytes → Framing bytes
  | short {before rest : List UInt8} : rest.length < 5 →
      FirstAt radioMagicPrefix (before ++ (radioMagicPrefix ++ rest)) before.length →
      Framing (before ++ (radioMagicPrefix ++ rest))
  | header {before body : List UInt8} {tag a b c d : UInt8} :
      FirstAt radioMagicPrefix
        (before ++ (radioMagicPrefix ++ (tag :: a :: b :: c :: d :: body))) before.length →
      Framing (before ++ (radioMagicPrefix ++ (tag :: a :: b :: c :: d :: body)))

theorem framing (bytes : List UInt8) : Framing bytes := by
  by_cases hpre : radioMagicPrefix <:+: bytes
  · obtain ⟨i, hi⟩ := exists_firstAt hpre
    obtain ⟨before, found, rfl, rfl, rest, rfl⟩ := hi.split (by decide)
    rcases header_short_or_complete rest with hr | ⟨tag, a, b, c, d, body, rfl⟩
    · exact .short hr hi
    · exact .header hi
  · exact .noise hpre

section Parsing
variable [Nom] [LawfulNom] {buffer rest body : List UInt8}

theorem parseRawRadioMessage_short (h : rest.length < 5) :
    parseRawRadioMessage (radioMagicPrefix ++ rest) = .ok (.error .incomplete) := by
  rw [parseRawRadioMessage, LawfulNom.tag_append]
  match rest, h with
  | [], _ => simp [LawfulNom.beU8_nil, bind, Except.bind]
  | [_], _ => simp [LawfulNom.beU8_cons, LawfulNom.beU16_short, bind, Except.bind]
  | [_, _], _ => simp [LawfulNom.beU8_cons, LawfulNom.beU16_short, bind, Except.bind]
  | [_, _, _], _ =>
    simp [LawfulNom.beU8_cons, LawfulNom.beU16_cons, LawfulNom.beU16_short, bind, Except.bind]
  | [_, _, _, _], _ =>
    simp [LawfulNom.beU8_cons, LawfulNom.beU16_cons, LawfulNom.beU16_short, bind, Except.bind]

/-- With a complete header the command decides, and then the length. -/
theorem parseRawRadioMessage_header (tag a b c d : UInt8) :
    parseRawRadioMessage (radioMagicPrefix ++ (tag :: a :: b :: c :: d :: body)) =
      match ExtEnum.tryFromTag tag with
      | .error _ => .error .unwrap
      | .ok command => .ok ((Nom.take (UInt16.ofNat (ofBeBytes [c, d])).toNat body).map
          fun (rest, data) => (rest, ⟨command, .ofNat (ofBeBytes [a, b]), data⟩)) := by
  rw [parseRawRadioMessage, LawfulNom.tag_append]
  simp only [ok_bind, LawfulNom.beU8_cons, LawfulNom.beU16_cons]
  rfl

def Pops (buffer kept : List UInt8) (message : Option RawRadioMessage) : Prop :=
  ∃ behind, popRawMessage buffer = .ok (kept ++ behind, kept.length, message) ∧
    kept.length + behind.length = buffer.length

omit [LawfulNom] in
theorem pops_short (h : buffer.length < radioMagicPrefix.length) : Pops buffer buffer none :=
  ⟨[], by rw [popRawMessage, if_pos h, List.append_nil], rfl⟩

omit [LawfulNom] in
theorem pops_absent (hl : radioMagicPrefix.length ≤ buffer.length)
    (h : ¬ radioMagicPrefix <:+: buffer) :
    Pops buffer (buffer.drop (buffer.length - radioMagicPrefix.length)) none := by
  have hlen : (buffer.drop (buffer.length - radioMagicPrefix.length)).length =
      radioMagicPrefix.length := by
    rw [List.length_drop]
    omega
  refine ⟨buffer.take (buffer.length - radioMagicPrefix.length), ?_, ?_⟩
  · rw [popRawMessage, if_neg (Nat.not_lt.mpr hl), findSubsequence_eq_none h, hlen]
    simp only [rotateRight, if_pos hl]
    rfl
  · rw [List.length_drop, List.length_take]
    omega

omit [LawfulNom] in
theorem pops_noise (h : ¬ radioMagicPrefix <:+: buffer) :
    Pops buffer (buffer.drop (buffer.length - radioMagicPrefix.length)) none := by
  rcases Nat.lt_or_ge buffer.length radioMagicPrefix.length with hl | hl
  · rw [Nat.sub_eq_zero_of_le (Nat.le_of_lt hl)]
    exact pops_short hl
  · exact pops_absent hl h

omit [LawfulNom] in
theorem popRawMessage_found {before found : List UInt8}
    (h : FirstAt radioMagicPrefix (before ++ found) before.length) :
    popRawMessage (before ++ found) = (do
      match ← parseRawRadioMessage found with
      | .ok (remaining, message) =>
        let kept ← rotateRight found remaining.length
        return (kept ++ before, remaining.length, some message)
      | .error .incomplete => return (found ++ before, found.length, none)
      | .error .error => .error .explicit) := by
  have hlen := length_le_of_prefix_drop h.1
  rw [List.length_append, Nat.add_sub_cancel_left] at hlen
  rw [popRawMessage, if_neg (by rw [List.length_append]; omega),
    findSubsequence_eq_some (by decide) h]
  simp [rotateLeft_append, sliceTo]

/-! A prefix is found: the header may be short, or its data, or a message is complete. -/
section Found
variable {before data : List UInt8} {tag a b c d : UInt8} {command : RawRadioCommand}

theorem pops_header_short (hr : rest.length < 5)
    (h : FirstAt radioMagicPrefix (before ++ (radioMagicPrefix ++ rest)) before.length) :
    Pops (before ++ (radioMagicPrefix ++ rest)) (radioMagicPrefix ++ rest) none := by
  refine ⟨before, ?_, by rw [Nat.add_comm, ← List.length_append]⟩
  rw [popRawMessage_found h, parseRawRadioMessage_short hr]
  rfl

theorem pops_data_short (hc : ExtEnum.tryFromTag tag = .ok command)
    (hb : body.length < (UInt16.ofNat (ofBeBytes [c, d])).toNat)
    (h : FirstAt radioMagicPrefix
      (before ++ (radioMagicPrefix ++ (tag :: a :: b :: c :: d :: body))) before.length) :
    Pops (before ++ (radioMagicPrefix ++ (tag :: a :: b :: c :: d :: body)))
      (radioMagicPrefix ++ (tag :: a :: b :: c :: d :: body)) none := by
  refine ⟨before, ?_, by rw [Nat.add_comm, ← List.length_append]⟩
  rw [popRawMessage_found h, parseRawRadioMessage_header]
  simp only [hc, LawfulNom.take_short _ _ hb]
  rfl

theorem pops_message (hc : ExtEnum.tryFromTag tag = .ok command)
    (hb : data.length = (UInt16.ofNat (ofBeBytes [c, d])).toNat)
    (h : FirstAt radioMagicPrefix
      (before ++ (radioMagicPrefix ++ (tag :: a :: b :: c :: d :: (data ++ rest))))
      before.length) :
    Pops (before ++ (radioMagicPrefix ++ (tag :: a :: b :: c :: d :: (data ++ rest)))) rest
      (some ⟨command, .ofNat (ofBeBytes [a, b]), data⟩) := by
  have hfound : radioMagicPrefix ++ (tag :: a :: b :: c :: d :: (data ++ rest)) =
      (radioMagicPrefix ++ (tag :: a :: b :: c :: d :: data)) ++ rest := by simp
  refine ⟨radioMagicPrefix ++ (tag :: a :: b :: c :: d :: data) ++ before, ?_, ?_⟩
  · rw [popRawMessage_found h, parseRawRadioMessage_header]
    simp only [hc, ← hb, LawfulNom.take_append, Except.map, ok_bind]
    rw [hfound, rotateRight_append]
    simp only [ok_bind, List.append_assoc]
    rfl
  · rw [hfound]
    simp only [List.length_append]
    omega

theorem popRawMessage_unknown {e : ExtEnumError}
    (hc : (ExtEnum.tryFromTag tag : Except ExtEnumError RawRadioCommand) = .error e)
    (h : FirstAt radioMagicPrefix
      (before ++ (radioMagicPrefix ++ (tag :: a :: b :: c :: d :: body))) before.length) :
    popRawMessage (before ++ (radioMagicPrefix ++ (tag :: a :: b :: c :: d :: body))) =
      .error .unwrap := by
  rw [popRawMessage_found h, parseRawRadioMessage_header]
  simp only [hc]
  rfl

end Found

omit [LawfulNom] in
theorem Pops.returns {kept : List UInt8} {message : Option RawRadioMessage}
    (h : Pops buffer kept message) : ∃ result, popRawMessage buffer = .ok result := by
  obtain ⟨behind, h, -⟩ := h
  exact ⟨_, h⟩

theorem popRawMessage_known {before : List UInt8} {tag a b c d : UInt8} {command : RawRadioCommand}
    (hc : ExtEnum.tryFromTag tag = .ok command)
    (h : FirstAt radioMagicPrefix
      (before ++ (radioMagicPrefix ++ (tag :: a :: b :: c :: d :: body))) before.length) :
    ∃ result, popRawMessage (before ++ (radioMagicPrefix ++ (tag :: a :: b :: c :: d :: body))) =
      .ok result := by
  rcases Nat.lt_or_ge body.length (UInt16.ofNat (ofBeBytes [c, d])).toNat with hb | hb
  · exact (pops_data_short hc hb h).returns
  · obtain ⟨data, rest, rfl, hdata⟩ : ∃ data rest, body = data ++ rest ∧
        data.length = (UInt16.ofNat (ofBeBytes [c, d])).toNat :=
      ⟨_, _, (List.take_append_drop _ body).symm, List.length_take_of_le hb⟩
    exact (pops_message hc hdata h).returns

/-- A buffer is handled unless its first prefix is followed by a complete header whose command
byte is the tag of no command. -/
theorem popRawMessage_returns_iff (buffer : List UInt8) :
    (∃ result, popRawMessage buffer = .ok result) ↔
      ∀ i tag, FirstAt radioMagicPrefix buffer i → i + 8 ≤ buffer.length →
        buffer[i + 3]? = some tag → ∃ command : RawRadioCommand, ExtEnum.intoTag command = tag := by
  cases framing buffer with
  | noise hpre =>
    exact iff_of_true (pops_noise hpre).returns fun i tag hi =>
      absurd (infix_of_prefix_drop hi.1) hpre
  | short hr hi =>
    refine iff_of_true (pops_header_short hr hi).returns fun j tag hj hlen => ?_
    obtain rfl := hj.unique hi
    simp only [List.length_append, radioMagicPrefix, List.length_cons, List.length_nil] at hlen
    omega
  | @header before body tag a b c d hi =>
    have htag : (before ++ (radioMagicPrefix ++ (tag :: a :: b :: c :: d :: body)))[
        before.length + 3]? = some tag := by simp [radioMagicPrefix]
    cases hc : (ExtEnum.tryFromTag tag : Except ExtEnumError RawRadioCommand) with
    | ok command =>
      refine iff_of_true (popRawMessage_known hc hi) fun j tag' hj _ htag' => ?_
      obtain rfl := hj.unique hi
      obtain rfl : tag = tag' := Option.some.inj (htag.symm.trans htag')
      exact ⟨command, intoTag_of_tryFromTag hc⟩
    | error e =>
      refine iff_of_false ?_ fun hknown => ?_
      · rintro ⟨result, hresult⟩
        rw [popRawMessage_unknown hc hi] at hresult
        cases hresult
      · obtain ⟨command, rfl⟩ := hknown _ tag hi (by simp [radioMagicPrefix]) htag
        rw [tryFromTag_intoTag] at hc
        cases hc

end Parsing

theorem popRawMessage_returns_answer :
    ∃ result, @popRawMessage documentedNom [0x5A, 0x50, 0x42, 0x80, 0, 1, 0, 0] = .ok result := by
  refine (@popRawMessage_returns_iff documentedNom documentedNom_lawful _).mpr
    fun i tag _ hlen htag => ?_
  obtain rfl : i = 0 := by simpa using hlen
  exact ⟨.ok, Option.some.inj htag⟩

theorem popRawMessage_panics_at_unknown :
    ¬ ∀ buffer, ∃ result, @popRawMessage documentedNom buffer = .ok result := by
  intro h
  obtain ⟨result, hresult⟩ := h [0x5A, 0x50, 0x42, 0x20, 0, 1, 0, 0]
  have hpanic : @popRawMessage documentedNom [0x5A, 0x50, 0x42, 0x20, 0, 1, 0, 0] =
    .error .unwrap := rfl
  rw [hpanic] at hresult
  cases hresult

end ZigbeeStack
