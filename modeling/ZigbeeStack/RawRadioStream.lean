import ZigbeeStack.RawRadio

/-! Reading the serial line: a source is polled into the receive buffer until a message is found.
The messages come out one by one, however the source splits the bytes. -/
namespace ZigbeeStack
open Bits ByteStreams

inductive Answer where
  | pending
  | failed
  | bytes (data : List UInt8)
deriving DecidableEq, Repr

inductive StreamEvent where
  | read (chunk : List UInt8)
  | returned (result : Poll (Option RawRadioMessage))
deriving DecidableEq, Repr

/-- A source gives its answers one after the other, and the last one for ever. Where a read has
room for less than it has, the other bytes are left to the next read. `log` is newest first. -/
structure Source where
  answers : List Answer
  afterwards : Answer
  log : List StreamEvent
deriving DecidableEq, Repr

namespace Source

def new (answers : List Answer) (afterwards : Answer) : Source := ⟨answers, afterwards, []⟩

def pollRead (self : Source) (room : Nat) : Poll (Except Unit (List UInt8)) × Source :=
  match self.answers.headD self.afterwards with
  | .pending => (.pending, { self with answers := self.answers.tail })
  | .failed => (.ready (.error ()), { self with answers := self.answers.tail })
  | .bytes data =>
    let answers := self.answers.tail
    (.ready (.ok (data.take room)),
      { self with
        answers := if data.length ≤ room then answers else .bytes (data.drop room) :: answers
        log := .read (data.take room) :: self.log })

def returned (self : Source) (result : Poll (Option RawRadioMessage)) : Source :=
  { self with log := .returned result :: self.log }

end Source

structure RawRadioStream where
  buffer : List UInt8
  bufferFilled : Nat
deriving DecidableEq, Repr

namespace RawRadioStream

def bufferSize : Nat := 65535

def new : RawRadioStream := ⟨.replicate bufferSize 0, 0⟩

/- The filled part of the buffer is searched, and rearranged in place. -/
def pop [Nom] (self : RawRadioStream) :
    Except Panic (Option RawRadioMessage × RawRadioStream) := do
  let slice ← sliceTo self.buffer self.bufferFilled
  let (slice, newLength, message) ← popRawMessage slice
  return (message, ⟨slice ++ self.buffer.drop self.bufferFilled, newLength⟩)

def fill (self : RawRadioStream) (chunk : List UInt8) : RawRadioStream :=
  ⟨self.buffer.take self.bufferFilled ++
    (chunk ++ self.buffer.drop (self.bufferFilled + chunk.length)),
    self.bufferFilled + chunk.length⟩

/-- At most `fuel` turns of the loop; without a result the poll has not returned after these. -/
def pollNext [Nom] : Nat → RawRadioStream → Source →
    Except Panic (Option (Poll (Option RawRadioMessage)) × RawRadioStream × Source)
  | 0, self, source => .ok (none, self, source)
  | fuel+1, self, source => do
    match ← self.pop with
    | (some message, self) => return (some (.ready (some message)), self, source)
    | (none, self) =>
      let targetSlice ← sliceFrom self.buffer self.bufferFilled
      if targetSlice.isEmpty then return (some (.ready none), self, source)
      else match source.pollRead targetSlice.length with
      | (.pending, source) => return (some .pending, self, source)
      | (.ready (.error _), source) => return (some (.ready none), self, source)
      | (.ready (.ok chunk), source) => pollNext fuel (self.fill chunk) source

def polls [Nom] (fuel : Nat) : Nat → RawRadioStream → Source →
    Except Panic (Option (RawRadioStream × Source))
  | 0, self, source => .ok (some (self, source))
  | count+1, self, source => do
    match ← pollNext fuel self source with
    | (some result, self, source) => polls fuel count self (source.returned result)
    | (none, _, _) => return none

end RawRadioStream

/-! What travels on the line, and what a stream should make of it. -/

inductive Traffic where
  | quiet (noise : List UInt8)
  | send (noise : List UInt8) (message : RawRadioMessage) (rest : Traffic)
deriving DecidableEq, Repr

namespace Traffic

def noise : Traffic → List UInt8
  | quiet noise => noise
  | send noise _ _ => noise

def bytes [CookieFactory] : Traffic → List UInt8
  | quiet noise => noise
  | send noise message rest => noise ++ (message.into ++ rest.bytes)

def messages : Traffic → List RawRadioMessage
  | quiet _ => []
  | send _ message rest => message :: rest.messages

def arrived [CookieFactory] : Traffic → Nat → List RawRadioMessage
  | quiet _, _ => []
  | send noise message rest, n =>
    let size := (noise ++ message.into).length
    if size ≤ n then message :: rest.arrived (n - size) else []

/- The prefix does not occur in the noise, and the data of the messages is not too long. -/
def Clean : Traffic → Prop
  | quiet noise => ¬ radioMagicPrefix <:+: noise
  | send noise message rest =>
    ¬ radioMagicPrefix <:+: noise ∧ message.data.length ≤ 65527 ∧ rest.Clean

def trim (k : Nat) : Traffic → Traffic
  | quiet noise => quiet (noise.drop k)
  | send noise message rest => send (noise.drop k) message rest

end Traffic

namespace StreamEvent

def received : List StreamEvent → Nat
  | [] => 0
  | read chunk :: log => received log + chunk.length
  | returned _ :: log => received log

def yielded : List StreamEvent → List RawRadioMessage
  | returned (.ready (some message)) :: log => yielded log ++ [message]
  | _ :: log => yielded log
  | [] => []

/-- Nothing is read, and no poll is pending, while a message that has arrived is not yet returned;
no message is returned before it has arrived; the stream does not end. -/
def Prompt [CookieFactory] (traffic : Traffic) : List StreamEvent → Prop
  | [] => True
  | event :: log => Prompt traffic log ∧
    match event with
    | read _ | returned .pending => yielded log = traffic.arrived (received log)
    | returned (.ready (some message)) =>
      yielded log ++ [message] <+: traffic.arrived (received log)
    | returned (.ready none) => False

end StreamEvent

namespace Traffic
variable {t : Traffic} {k : Nat}

theorem trim_messages : (t.trim k).messages = t.messages := by
  cases t <;> rfl

theorem Clean.trim (h : t.Clean) : (t.trim k).Clean := by
  have hdrop {noise : List UInt8} (hn : ¬ radioMagicPrefix <:+: noise) :
      ¬ radioMagicPrefix <:+: noise.drop k :=
    fun hin => hn (hin.trans (List.drop_suffix k noise).isInfix)
  cases t with
  | quiet noise => exact hdrop h
  | send noise m rest => exact ⟨hdrop h.1, h.2⟩

variable [CookieFactory]

theorem trim_bytes (h : k ≤ t.noise.length) : (t.trim k).bytes = t.bytes.drop k := by
  cases t with
  | quiet noise => rfl
  | send noise m rest =>
    have hk : k ≤ noise.length := h
    rw [trim, bytes, bytes, List.drop_append_of_le_length hk]

theorem trim_arrived {n : Nat} (h : k ≤ t.noise.length) :
    (t.trim k).arrived n = t.arrived (n + k) := by
  cases t with
  | quiet noise => rfl
  | send noise m rest =>
    have hk : k ≤ noise.length := h
    have hsize : (noise.drop k ++ m.into).length + k = (noise ++ m.into).length := by
      simp only [List.length_append, List.length_drop]
      omega
    simp only [trim, arrived, ← hsize, Nat.add_le_add_iff_right, Nat.add_sub_add_right]

end Traffic

/-! What a stream finds in its buffer. -/

theorem borderless_radioMagicPrefix : Borderless radioMagicPrefix := by
  intro k hpos hlt
  have hcases : k = 1 ∨ k = 2 := by simp [radioMagicPrefix] at hlt; omega
  rcases hcases with rfl | rfl <;> decide

section Rules
variable [CookieFactory] [LawfulCookieFactory]

theorem RawRadioMessage.into_eq (m : RawRadioMessage) (h : m.data.length ≤ 65535) :
    ∃ a b c d, m.into = radioMagicPrefix ++ (m.commandId.tag :: a :: b :: c :: d :: m.data) ∧
      UInt16.ofNat (ofBeBytes [a, b]) = m.requestId ∧
      (UInt16.ofNat (ofBeBytes [c, d])).toNat = m.data.length := by
  have hpair (x : Nat) (hx : x < 65536) : ∃ a b, toBeBytes 2 x = [a, b] ∧ ofBeBytes [a, b] = x := by
    obtain ⟨a, b, hab⟩ := List.length_eq_two.mp (toBeBytes_length 2 x)
    exact ⟨a, b, hab, by rw [← hab, ofBeBytes_toBeBytes 2 x (by simpa using hx)]⟩
  obtain ⟨a, b, hab, hr⟩ := hpair m.requestId.toNat m.requestId.toNat_lt
  obtain ⟨c, d, hcd, hd⟩ := hpair m.data.length (by omega)
  have hlen : (UInt16.ofNat m.data.length).toNat = m.data.length := by
    simp
    omega
  refine ⟨a, b, c, d, ?_, by rw [hr, UInt16.ofNat_toNat], by rw [hd, hlen]⟩
  simp only [into, genRawRadioMessage, if_neg (Nat.not_lt.mpr h), LawfulCookieFactory.slice_eq,
    LawfulCookieFactory.beU8_eq, LawfulCookieFactory.beU16_eq, hab, hlen, hcd, List.take_length]
  simp [ExtEnum.intoTag]

theorem length_into (m : RawRadioMessage) (h : m.data.length ≤ 65535) :
    m.into.length = m.data.length + 8 := by
  obtain ⟨a, b, c, d, hm, -, -⟩ := m.into_eq h
  rw [hm]
  simp [radioMagicPrefix]

variable [Nom] [LawfulNom] {t : Traffic} {content unread : List UInt8}

structure Waits (t : Traffic) (content : List UInt8) (k : Nat) : Prop where
  noise : k ≤ t.noise.length
  filled : k ≤ content.length
  room : content.length < k + 65535
  arrived : t.arrived content.length = []
  pops : Pops content (content.drop k) none

omit [LawfulNom] in
theorem waits_for_rest (hc : t.Clean) (h : content ++ unread = t.bytes)
    (hpre : ¬ radioMagicPrefix <:+: content) : ∃ k, Waits t content k := by
  have hthree : radioMagicPrefix.length = 3 := rfl
  have hlen := congrArg List.length h
  rw [List.length_append] at hlen
  suffices hk : content.length - 3 ≤ t.noise.length ∧ t.arrived content.length = [] from
    ⟨_, hk.1, Nat.sub_le _ _, by omega, hk.2, pops_noise hpre⟩
  cases t with
  | quiet noise =>
    rw [Traffic.bytes] at hlen
    exact ⟨by rw [Traffic.noise]; omega, rfl⟩
  | send noise m rest =>
    have hlong : m.data.length ≤ 65535 := Nat.le_trans hc.2.1 (by decide)
    have hinto := length_into m hlong
    -- else the prefix of the message would have been found
    have hshort : content.length < noise.length + 3 := by
      obtain ⟨a, b, c, d, hm, -, -⟩ := m.into_eq hlong
      rw [Traffic.bytes, hm, List.append_assoc] at h
      exact Nat.lt_of_not_le fun hl => hpre (infix_of_append h hl)
    refine ⟨by rw [Traffic.noise]; omega, if_neg ?_⟩
    rw [List.length_append]
    omega

omit [LawfulNom] in
/-- A message whose prefix is there, but not all of its bytes. -/
theorem waits_for_message {before r : List UInt8} {m : RawRadioMessage} {rest : Traffic}
    (hfits : m.data.length ≤ 65527) (hshort : r.length < m.data.length + 5)
    (hpops : Pops (before ++ (radioMagicPrefix ++ r)) (radioMagicPrefix ++ r) none) :
    Waits (.send before m rest) (before ++ (radioMagicPrefix ++ r)) before.length := by
  have hlen : (before ++ (radioMagicPrefix ++ r)).length = before.length + (r.length + 3) := by
    simp [radioMagicPrefix]
  have hinto := length_into m (by omega)
  refine ⟨Nat.le_refl _, by omega, by omega, if_neg ?_, by rwa [List.drop_left]⟩
  rw [List.length_append, hlen]
  omega

omit [Nom] [LawfulNom] in
/-- A prefix that is found begins the first message. -/
theorem begins_message {before r : List UInt8} (hc : t.Clean)
    (h : before ++ (radioMagicPrefix ++ r) ++ unread = t.bytes)
    (hi : FirstAt radioMagicPrefix (before ++ (radioMagicPrefix ++ r)) before.length) :
    ∃ m rest a b c d, t = .send before m rest ∧
      m.into = radioMagicPrefix ++ (m.commandId.tag :: a :: b :: c :: d :: m.data) ∧
      UInt16.ofNat (ofBeBytes [a, b]) = m.requestId ∧
      (UInt16.ofNat (ofBeBytes [c, d])).toNat = m.data.length ∧ m.data.length ≤ 65527 ∧
      r ++ unread = m.commandId.tag :: a :: b :: c :: d :: (m.data ++ rest.bytes) := by
  have hall : FirstAt radioMagicPrefix t.bytes before.length :=
    hi.of_prefix (by decide) ⟨unread, h⟩
  cases t with
  | quiet noise => exact absurd (infix_of_prefix_drop hall.1) hc
  | send noise m rest =>
    obtain ⟨a, b, c, d, hm, hid, hdata⟩ := m.into_eq (Nat.le_trans hc.2.1 (by decide))
    rw [Traffic.bytes, hm, List.append_assoc] at h hall
    -- the search stops where the first message begins
    have hpos := hall.unique (borderless_radioMagicPrefix.firstAt hc.1)
    rw [List.append_assoc] at h
    obtain ⟨rfl, hfound⟩ := List.append_inj h hpos
    exact ⟨m, rest, a, b, c, d, rfl, hm, hid, hdata, hc.2.1, by simpa using hfound⟩

/-- More bytes are awaited, or the first message is complete. -/
theorem waits_or_pops (hc : t.Clean) (h : content ++ unread = t.bytes) :
    (∃ k, Waits t content k) ∨
    ∃ noise m rest kept, t = .send noise m rest ∧ content = noise ++ (m.into ++ kept) ∧
      Pops content kept (some m) := by
  cases framing content with
  | noise hpre => exact .inl (waits_for_rest hc h hpre)
  | short hshort hi =>
    obtain ⟨m, rest, a, b, c, d, rfl, -, -, -, hfits, -⟩ := begins_message hc h hi
    exact .inl ⟨_, waits_for_message hfits (by omega) (pops_header_short hshort hi)⟩
  | @header before body tag a b c d hi =>
    obtain ⟨m, rest, a', b', c', d', rfl, hm, hid, hdata, hfits, hr⟩ := begins_message hc h hi
    simp only [List.cons_append, List.cons.injEq] at hr
    obtain ⟨rfl, rfl, rfl, rfl, rfl, hbody⟩ := hr
    have hcmd := tryFromTag_intoTag m.commandId
    rcases Nat.lt_or_ge body.length m.data.length with hb | hb
    · have hpops := pops_data_short hcmd (hdata ▸ hb) hi
      exact .inl ⟨_, waits_for_message hfits (by simp only [List.length_cons]; omega) hpops⟩
    · obtain ⟨kept, rfl⟩ : m.data <+: body :=
        List.prefix_of_prefix_length_le ⟨rest.bytes, rfl⟩ ⟨unread, hbody⟩ hb
      refine .inr ⟨before, m, rest, kept, rfl, by rw [hm]; simp, ?_⟩
      have hpops := pops_message hcmd hdata.symm hi
      rwa [hid] at hpops

end Rules

namespace Source

def dataOf : Answer → List UInt8
  | .bytes data => data
  | _ => []

def unread (self : Source) : List UInt8 := self.answers.flatMap dataOf

def size (self : Source) : Nat := (self.answers.map fun answer => (dataOf answer).length + 1).sum

def Steady (self : Source) : Prop :=
  self.afterwards = .pending ∧ ∀ a ∈ self.answers, a = .pending ∨ ∃ data ≠ [], a = .bytes data

theorem pollRead_cases {self : Source} (h : self.Steady) {room : Nat} (hroom : 0 < room) :
    (∃ self', self.pollRead room = (.pending, self') ∧ self'.Steady ∧ self'.log = self.log ∧
      self'.unread = self.unread ∧ (self'.size < self.size ∨ self.unread = [] ∧ self' = self)) ∨
    ∃ chunk self', self.pollRead room = (.ready (.ok chunk), self') ∧ self'.Steady ∧
      self'.log = .read chunk :: self.log ∧ chunk.length ≤ room ∧
      self.unread = chunk ++ self'.unread ∧ self'.size < self.size := by
  obtain ⟨answers, afterwards, log⟩ := self
  obtain ⟨rfl, hanswers⟩ := h
  match answers, hanswers with
  | [], h => exact .inl ⟨_, rfl, ⟨rfl, h⟩, rfl, rfl, .inr ⟨rfl, rfl⟩⟩
  | .pending :: answers, h =>
    have hrest := fun a ha => h a (List.mem_cons_of_mem _ ha)
    exact .inl ⟨⟨answers, .pending, log⟩, rfl, ⟨rfl, hrest⟩, rfl, rfl, .inl (by simp [size])⟩
  | .failed :: answers, h => simpa using h .failed List.mem_cons_self
  | .bytes data :: answers, h =>
    have hrest := fun a ha => h a (List.mem_cons_of_mem _ ha)
    by_cases hfit : data.length ≤ room
    · refine .inr ⟨data, ⟨answers, .pending, .read data :: log⟩, ?_, ⟨rfl, hrest⟩, rfl, hfit, rfl,
        by simp [size]⟩
      simp [pollRead, hfit, List.take_of_length_le]
    · refine .inr ⟨data.take room,
        ⟨.bytes (data.drop room) :: answers, .pending, .read (data.take room) :: log⟩, ?_,
        ⟨rfl, ?_⟩, rfl, List.length_take_le _ _, ?_, ?_⟩
      · simp [pollRead, hfit]
      · intro a ha
        rcases List.mem_cons.mp ha with rfl | ha
        · refine .inr ⟨data.drop room, ?_, rfl⟩
          rw [Ne, List.drop_eq_nil_iff]
          exact hfit
        · exact hrest a ha
      · simp only [unread, List.flatMap_cons, dataOf]
        rw [← List.append_assoc, List.take_append_drop]
      · simp [size, dataOf]
        omega

end Source

namespace RawRadioStream

def content (self : RawRadioStream) : List UInt8 := self.buffer.take self.bufferFilled

structure Sized (stream : RawRadioStream) : Prop where
  buffer : stream.buffer.length = bufferSize
  filled : stream.bufferFilled ≤ bufferSize

variable {self : RawRadioStream}

theorem Sized.content_length (h : self.Sized) : self.content.length = self.bufferFilled := by
  rw [content, List.length_take, h.buffer, Nat.min_eq_left h.filled]

theorem Sized.new : new.Sized := ⟨List.length_replicate, Nat.zero_le _⟩

theorem Sized.pop [Nom] (h : self.Sized) {kept : List UInt8} {message : Option RawRadioMessage}
    (hp : Pops self.content kept message) :
    ∃ self' : RawRadioStream, self.pop = .ok (message, self') ∧ self'.Sized ∧
      self'.content = kept := by
  obtain ⟨behind, hpop, hlen⟩ := hp
  have hfilled := h.content_length
  have hsize := h.filled
  refine ⟨⟨kept ++ behind ++ self.buffer.drop self.bufferFilled, kept.length⟩, ?_, ⟨?_, ?_⟩, ?_⟩
  · have hslice : sliceTo self.buffer self.bufferFilled = .ok self.content :=
      if_pos (h.buffer ▸ hsize)
    rw [RawRadioStream.pop, hslice, ok_bind, hpop]
    rfl
  · simp only [List.length_append, List.length_drop, h.buffer]
    omega
  · change kept.length ≤ bufferSize
    omega
  · rw [content, List.append_assoc, List.take_left]

theorem Sized.fill (h : self.Sized) {chunk : List UInt8}
    (hc : self.bufferFilled + chunk.length ≤ bufferSize) :
    (self.fill chunk).Sized ∧ (self.fill chunk).content = self.content ++ chunk := by
  have hfilled := h.content_length
  refine ⟨⟨?_, hc⟩, ?_⟩
  · change (self.content ++ _).length = _
    simp only [List.length_append, List.length_drop, h.buffer, hfilled]
    omega
  · change (self.content ++ (chunk ++ _)).take (self.bufferFilled + chunk.length) = _
    rw [← List.append_assoc, List.take_left']
    rw [List.length_append, hfilled]

end RawRadioStream

/-! Following the traffic. -/
open StreamEvent RawRadioStream

structure Follows [CookieFactory] (t : Traffic) (log : List StreamEvent)
    (content unread : List UInt8) (rest : Traffic) : Prop where
  clean : rest.Clean
  bytes : content ++ unread = rest.bytes
  messages : t.messages = yielded log ++ rest.messages
  arrived : ∀ n, t.arrived (received log + n) = yielded log ++ rest.arrived (content.length + n)
  prompt : Prompt t log

namespace Follows
variable [CookieFactory] [Nom] {t rest : Traffic} {log : List StreamEvent}
  {content unread chunk kept noise : List UInt8} {m : RawRadioMessage}

omit [Nom] in
theorem start (hc : t.Clean) : Follows t [] [] t.bytes t :=
  ⟨hc, rfl, rfl, fun _ => by simp [received, yielded], trivial⟩

theorem trim (h : Follows t log content unread rest) {k : Nat} (hw : Waits rest content k) :
    Follows t log (content.drop k) unread (rest.trim k) where
  clean := h.clean.trim
  bytes := by
    rw [Traffic.trim_bytes hw.noise, ← h.bytes, List.drop_append_of_le_length hw.filled]
  messages := by rw [Traffic.trim_messages, h.messages]
  arrived n := by
    have hk : content.length - k + n + k = content.length + n := by
      have hle := hw.filled
      omega
    rw [Traffic.trim_arrived hw.noise, List.length_drop, hk, h.arrived]
  prompt := h.prompt

omit [Nom] in
theorem yielded_eq (h : Follows t log content unread rest) (hw : rest.arrived content.length = []) :
    yielded log = t.arrived (received log) := by
  have harr := h.arrived 0
  rw [Nat.add_zero, Nat.add_zero, hw, List.append_nil] at harr
  exact harr.symm

omit [Nom] in
theorem read (h : Follows t log content (chunk ++ unread) rest)
    (hw : rest.arrived content.length = []) :
    Follows t (.read chunk :: log) (content ++ chunk) unread rest where
  clean := h.clean
  bytes := by rw [List.append_assoc, h.bytes]
  messages := h.messages
  arrived n := by
    rw [received, Nat.add_assoc, h.arrived, List.length_append, Nat.add_assoc]
    rfl
  prompt := ⟨h.prompt, h.yielded_eq hw⟩

omit [Nom] in
theorem pending (h : Follows t log content unread rest) (hw : rest.arrived content.length = []) :
    Follows t (.returned .pending :: log) content unread rest :=
  ⟨h.clean, h.bytes, h.messages, h.arrived, h.prompt, h.yielded_eq hw⟩

omit [Nom] in
theorem yields (h : Follows t log (noise ++ (m.into ++ kept)) unread (.send noise m rest)) :
    Follows t (.returned (.ready (some m)) :: log) kept unread rest where
  clean := h.clean.2.2
  bytes := by
    have hb := h.bytes
    simp only [Traffic.bytes, List.append_assoc, List.append_cancel_left_eq] at hb
    exact hb
  messages := by
    rw [h.messages]
    simp [yielded, Traffic.messages]
  arrived n := by
    have hsize : (noise ++ (m.into ++ kept)).length + n =
        kept.length + n + (noise ++ m.into).length := by
      simp only [List.length_append]
      omega
    have harr := h.arrived n
    rw [hsize, Traffic.arrived, if_pos (Nat.le_add_left _ _), Nat.add_sub_cancel] at harr
    simpa [received, yielded] using harr
  prompt := by
    have harr := h.arrived 0
    have hsize : (noise ++ m.into).length ≤ (noise ++ (m.into ++ kept)).length + 0 := by simp
    rw [Traffic.arrived, if_pos hsize, Nat.add_zero] at harr
    refine ⟨h.prompt, ?_⟩
    rw [harr]
    exact ⟨_, by rw [List.append_assoc]; rfl⟩

end Follows

namespace RawRadioStream
section Polls
variable [CookieFactory] [LawfulCookieFactory] [Nom] [LawfulNom] {t rest : Traffic}
  {self : RawRadioStream} {source : Source}

structure Session [CookieFactory] (t : Traffic) (stream : RawRadioStream) (source : Source)
    (rest : Traffic) : Prop where
  sized : stream.Sized
  steady : source.Steady
  follows : Follows t source.log stream.content source.unread rest

omit [LawfulCookieFactory] [Nom] [LawfulNom] in
theorem messages_eq_nil {t : Traffic} (h : t.arrived t.bytes.length = []) : t.messages = [] := by
  cases t with
  | quiet noise => rfl
  | send noise m rest =>
    have hsize : (noise ++ m.into).length ≤ (Traffic.send noise m rest).bytes.length := by
      rw [Traffic.bytes, ← List.append_assoc]
      exact (List.prefix_append _ _).length_le
    rw [Traffic.arrived, if_pos hsize] at h
    cases h

omit [CookieFactory] [LawfulCookieFactory] [LawfulNom] in
theorem pollNext_waits {self self' : RawRadioStream} (fuel : Nat)
    (hpop : self.pop = .ok (none, self')) (hs : self'.Sized)
    (hroom : 0 < bufferSize - self'.bufferFilled) (source : Source) :
    pollNext (fuel + 1) self source =
      match source.pollRead (bufferSize - self'.bufferFilled) with
      | (.pending, source) => .ok (some .pending, self', source)
      | (.ready (.error _), source) => .ok (some (.ready none), self', source)
      | (.ready (.ok chunk), source) => pollNext fuel (self'.fill chunk) source := by
  have hslice : sliceFrom self'.buffer self'.bufferFilled =
      .ok (self'.buffer.drop self'.bufferFilled) := if_pos (hs.buffer ▸ hs.filled)
  have hlen : (self'.buffer.drop self'.bufferFilled).length = bufferSize - self'.bufferFilled := by
    rw [List.length_drop, hs.buffer]
  have hne : (self'.buffer.drop self'.bufferFilled).isEmpty = false := by
    rw [List.isEmpty_eq_false_iff, Ne, ← List.length_eq_zero_iff, hlen]
    omega
  rw [pollNext, hpop]
  simp only [ok_bind, hslice, hne, hlen]
  rfl

omit [LawfulCookieFactory] [LawfulNom] in
theorem Session.pop_waits (hs : Session t self source rest) {k : Nat}
    (hw : Waits rest self.content k) :
    ∃ self', self.pop = .ok (none, self') ∧ Session t self' source (rest.trim k) ∧
      (rest.trim k).arrived self'.content.length = [] ∧
      0 < bufferSize - self'.bufferFilled := by
  obtain ⟨self', hpop, hsized, hkept⟩ := hs.sized.pop hw.pops
  refine ⟨self', hpop, ⟨hsized, hs.steady, hkept ▸ hs.follows.trim hw⟩, ?_, ?_⟩
  · rw [hkept, Traffic.trim_arrived hw.noise, List.length_drop, Nat.sub_add_cancel hw.filled,
      hw.arrived]
  · have hlen := hsized.content_length
    have hroom := hw.room
    rw [hkept, List.length_drop] at hlen
    rw [bufferSize]
    omega

/-- Every poll returns, without an end of the stream and without a panic. It returns a message, or
comes closer to the end of the source, or everything has been returned. -/
theorem Session.pollNext (fuel : Nat) :
    ∀ {self : RawRadioStream} {source : Source} {rest : Traffic},
    Session t self source rest → source.size < fuel →
    ∃ result self' source' rest',
      RawRadioStream.pollNext fuel self source = .ok (some result, self', source') ∧
      Session t self' (source'.returned result) rest' ∧ source'.size ≤ source.size ∧
      rest'.messages.length ≤ rest.messages.length ∧
      (source'.size + rest'.messages.length < source.size + rest.messages.length ∨
        rest'.messages = []) := by
  induction fuel with
  | zero => exact fun _ hlt => absurd hlt (Nat.not_lt_zero _)
  | succ fuel ih =>
    intro self source rest hs hlt
    rcases waits_or_pops hs.follows.clean hs.follows.bytes with
      ⟨k, hw⟩ | ⟨noise, m, rest, kept, rfl, hcontent, hp⟩
    · obtain ⟨self', hpop, hs', hquiet, hroom⟩ := hs.pop_waits hw
      have hturn := pollNext_waits fuel hpop hs'.sized hroom source
      rw [← Traffic.trim_messages (t := rest) (k := k)]
      rcases source.pollRead_cases hs.steady hroom with
        ⟨source', hread, hsteady, hlog, hunread, hprogress⟩ |
        ⟨chunk, source', hread, hsteady, hlog, hfit, hunread, hsize⟩
      · rw [hread] at hturn
        have hf := hs'.follows.pending hquiet
        rw [← hlog, ← hunread] at hf
        refine ⟨.pending, self', source', rest.trim k, hturn, ⟨hs'.sized, hsteady, hf⟩, ?_⟩
        rcases hprogress with hsize | ⟨hnone, rfl⟩
        · exact ⟨Nat.le_of_lt hsize, Nat.le_refl _, .inl (Nat.add_lt_add_right hsize _)⟩
        · have hbytes := hf.bytes
          rw [hnone, List.append_nil] at hbytes
          exact ⟨Nat.le_refl _, Nat.le_refl _, .inr (messages_eq_nil (hbytes ▸ hquiet))⟩
      · rw [hread] at hturn
        have hfill : self'.bufferFilled + chunk.length ≤ bufferSize := by omega
        obtain ⟨hsized, hcontent⟩ := hs'.sized.fill hfill
        have hf := hs'.follows
        rw [hunread] at hf
        have hf := hf.read hquiet
        rw [← hlog, ← hcontent] at hf
        obtain ⟨result, self₂, source₂, rest₂, hpoll, hs₂, hsize₂, hle₂, hprogress⟩ :=
          ih ⟨hsized, hsteady, hf⟩ (by omega)
        refine ⟨result, self₂, source₂, rest₂, hturn.trans hpoll, hs₂, by omega, hle₂, ?_⟩
        exact hprogress.imp_left fun hlt' => by omega
    · obtain ⟨self', hpop, hsized, hkept⟩ := hs.sized.pop hp
      have hf := hs.follows
      rw [hcontent] at hf
      refine ⟨.ready (some m), self', source, rest, ?_, ⟨hsized, hs.steady, hkept ▸ hf.yields⟩,
        Nat.le_refl _, Nat.le_succ _, .inl (Nat.lt_succ_self _)⟩
      rw [RawRadioStream.pollNext, hpop]
      rfl

/-- Poll after poll the traffic is followed, and after enough of them nothing is left. -/
theorem Session.polls {fuel : Nat} (count : Nat) :
    ∀ {self : RawRadioStream} {source : Source} {rest : Traffic},
    Session t self source rest → source.size < fuel →
    ∃ self' source' rest',
      RawRadioStream.polls fuel count self source = .ok (some (self', source')) ∧
      Session t self' source' rest' ∧ rest'.messages.length ≤ rest.messages.length ∧
      (source.size + rest.messages.length ≤ count → rest'.messages = []) := by
  induction count with
  | zero =>
    intro self source rest hs hlt
    refine ⟨self, source, rest, rfl, hs, Nat.le_refl _, fun hle => ?_⟩
    exact List.length_eq_zero_iff.mp (by omega)
  | succ count ih =>
    intro self source rest hs hlt
    obtain ⟨result, self', source', rest', hpoll, hs', hsize, hle, hprogress⟩ :=
      hs.pollNext fuel hlt
    obtain ⟨self₂, source₂, rest₂, hpolls, hs₂, hle₂, hall⟩ :=
      ih hs' (Nat.lt_of_le_of_lt hsize hlt)
    refine ⟨self₂, source₂, rest₂, ?_, hs₂, Nat.le_trans hle₂ hle, fun hcount => ?_⟩
    · rw [RawRadioStream.polls, hpoll]
      exact hpolls
    · have hsame : (source'.returned result).size = source'.size := rfl
      rcases hprogress with hlt' | hnil
      · exact hall (by omega)
      · rw [hnil] at hle₂
        exact List.length_eq_zero_iff.mp (Nat.le_zero.mp hle₂)

/-- Framing is independent of chunking: a stream neither panics nor ends nor fails to return. It
returns the messages that were sent, in order, each as soon as its last byte has been read, and
after enough polls all of them. -/
theorem framing_independent_of_chunking (traffic : Traffic) (answers : List Answer)
    (hclean : traffic.Clean)
    (hanswers : ∀ a ∈ answers, a = .pending ∨ ∃ data ≠ [], a = .bytes data)
    (hbytes : answers.flatMap Source.dataOf = traffic.bytes) :
    ∃ enough, ∀ fuel ≥ enough, ∀ count, ∃ stream source,
      RawRadioStream.polls fuel count .new (.new answers .pending) = .ok (some (stream, source)) ∧
      Prompt traffic source.log ∧ yielded source.log <+: traffic.messages ∧
      (enough ≤ count → yielded source.log = traffic.messages) := by
  have hnew : RawRadioStream.new.content = [] := rfl
  have hstart : Session traffic .new (.new answers .pending) traffic :=
    ⟨Sized.new, ⟨rfl, hanswers⟩, by
      have hf := Follows.start hclean
      rwa [← hbytes] at hf⟩
  refine ⟨(Source.new answers .pending).size + traffic.messages.length + 1,
    fun fuel hfuel count => ?_⟩
  have hlt : (Source.new answers .pending).size < fuel := by omega
  obtain ⟨stream, source, rest, hpolls, ⟨-, -, hf⟩, -, hall⟩ := hstart.polls count hlt
  refine ⟨stream, source, hpolls, hf.prompt, ⟨rest.messages, hf.messages.symm⟩, fun hcount => ?_⟩
  rw [hf.messages, hall (by omega), List.append_nil]

end Polls

/- Noise that ends like a prefix begins, and a read that stops inside the real one. -/
theorem framing_independent_of_chunking_answer :
    letI := documentedNom
    letI := documentedCookieFactory
    let traffic := Traffic.send [0x5A] ⟨.ok, 1, [7, 8]⟩ (.quiet [0x5A, 0x50])
    let answers := [.bytes [0x5A, 0x5A, 0x50], .pending, .bytes [0x42, 0x80, 0, 1, 0, 2, 7],
      .bytes [8, 0x5A, 0x50]]
    ∃ enough, ∀ fuel ≥ enough, ∀ count, ∃ stream source,
      RawRadioStream.polls fuel count .new (.new answers .pending) = .ok (some (stream, source)) ∧
      Prompt traffic source.log ∧ yielded source.log <+: traffic.messages ∧
      (enough ≤ count → yielded source.log = traffic.messages) := by
  let _ := documentedNom
  let _ := documentedCookieFactory
  have _ := documentedNom_lawful
  have _ := documentedCookieFactory_lawful
  have hlast : ¬ radioMagicPrefix <:+: [0x5A, 0x50] := by decide
  exact framing_independent_of_chunking _ _ ⟨by decide, by decide, hlast⟩ (by simp) rfl

end RawRadioStream
end ZigbeeStack
