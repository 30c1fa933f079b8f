import ZigbeeStack.RawRadioStream

/-! How a stream ends: what decides whether a poll returns once its source has no more bytes, and
which bytes are mistaken for the end of a source that has more. -/
namespace ZigbeeStack
open Bits ByteStreams

structure Header where
  tag : UInt8
  requestId : UInt16
  dataLen : UInt16
deriving DecidableEq, Repr

def headerAt : List UInt8 → Option (Header × List UInt8)
  | tag :: a :: b :: c :: d :: body =>
    some (⟨tag, .ofNat (ofBeBytes [a, b]), .ofNat (ofBeBytes [c, d])⟩, body)
  | _ => none

def firstHeader (bytes : List UInt8) : Option (Header × List UInt8) :=
  (findSubsequence bytes radioMagicPrefix).bind fun i =>
    headerAt (bytes.drop (i + radioMagicPrefix.length))

/- The bytes that the buffer has room for behind a prefix and a header. -/
def dataRoom : Nat := RawRadioStream.bufferSize - 8

def Header.Known (header : Header) : Prop :=
  ∃ command : RawRadioCommand, ExtEnum.intoTag command = header.tag

/-- The data are complete, or there is no room for more of them. -/
def Determined (bytes : List UInt8) : Prop :=
  ∃ r ∈ firstHeader bytes, min r.1.dataLen.toNat dataRoom ≤ r.2.length

section Headers
variable {before rest bytes more body : List UInt8} {header : Header} {k : Nat}

theorem headerAt_short (h : rest.length < 5) : headerAt rest = none := by
  match rest, h with
  | [], _ | [_], _ | [_, _], _ | [_, _, _], _ | [_, _, _, _], _ => rfl

theorem headerAt_eq_some (h : headerAt rest = some (header, body)) :
    ∃ tag a b c d, rest = tag :: a :: b :: c :: d :: body ∧
      header = ⟨tag, .ofNat (ofBeBytes [a, b]), .ofNat (ofBeBytes [c, d])⟩ := by
  rcases header_short_or_complete rest with hr | ⟨tag, a, b, c, d, body', rfl⟩
  · rw [headerAt_short hr] at h
    cases h
  · cases h
    exact ⟨tag, a, b, c, d, rfl, rfl⟩

theorem headerAt_append (h : headerAt rest = some (header, body)) :
    headerAt (rest ++ more) = some (header, body ++ more) := by
  obtain ⟨tag, a, b, c, d, rfl, rfl⟩ := headerAt_eq_some h
  rfl

theorem firstHeader_absent (h : ¬ radioMagicPrefix <:+: bytes) : firstHeader bytes = none := by
  rw [firstHeader, findSubsequence_eq_none h]
  rfl

theorem firstHeader_at {i : Nat} (h : FirstAt radioMagicPrefix bytes i) :
    firstHeader bytes = headerAt (bytes.drop (i + radioMagicPrefix.length)) := by
  rw [firstHeader, findSubsequence_eq_some (by decide) h]
  rfl

theorem firstHeader_found
    (h : FirstAt radioMagicPrefix (before ++ (radioMagicPrefix ++ rest)) before.length) :
    firstHeader (before ++ (radioMagicPrefix ++ rest)) = headerAt rest := by
  rw [firstHeader_at h, ← List.append_assoc, List.drop_left' List.length_append]

theorem firstHeader_append (h : firstHeader bytes = some (header, body)) :
    firstHeader (bytes ++ more) = some (header, body ++ more) := by
  by_cases hpre : radioMagicPrefix <:+: bytes
  · obtain ⟨i, hi⟩ := exists_firstAt hpre
    have hall := hi.of_prefix (by decide) (List.prefix_append bytes more)
    have hlen := length_le_of_prefix_drop hi.1
    have hpos : 0 < radioMagicPrefix.length := by decide
    rw [firstHeader_at hi] at h
    rw [firstHeader_at hall, List.drop_append_of_le_length (by omega)]
    exact headerAt_append h
  · rw [firstHeader_absent hpre] at h
    cases h

/-- Bytes before the first prefix make no difference. -/
theorem firstHeader_drop (hk : ∀ j < k, ¬ radioMagicPrefix <+: bytes.drop j) :
    firstHeader (bytes.drop k) = firstHeader bytes := by
  by_cases hpre : radioMagicPrefix <:+: bytes
  · obtain ⟨i, hi⟩ := exists_firstAt hpre
    have hki : k ≤ i := Nat.le_of_not_lt fun hlt => hk i hlt hi.1
    have hdrop : FirstAt radioMagicPrefix (bytes.drop k) (i - k) := by
      refine ⟨by rw [List.drop_drop, Nat.add_sub_cancel' hki]; exact hi.1, fun j hj => ?_⟩
      rw [List.drop_drop]
      exact hi.2 _ (by omega)
    rw [firstHeader_at hi, firstHeader_at hdrop, List.drop_drop]
    congr 2
    omega
  · have hpre' : ¬ radioMagicPrefix <:+: bytes.drop k :=
      fun h => hpre (h.trans (List.drop_suffix k bytes).isInfix)
    rw [firstHeader_absent hpre, firstHeader_absent hpre']

theorem split_of_firstHeader (h : firstHeader bytes = some (header, body)) :
    ∃ front, bytes = front ++ body ∧ 8 ≤ front.length := by
  cases framing bytes with
  | noise hpre =>
    rw [firstHeader_absent hpre] at h
    cases h
  | short hr hi =>
    rw [firstHeader_found hi, headerAt_short hr] at h
    cases h
  | @header before body' tag a b c d hi =>
    rw [firstHeader_found hi] at h
    cases h
    exact ⟨before ++ (radioMagicPrefix ++ [tag, a, b, c, d]), by simp, by simp [radioMagicPrefix]⟩

structure Awaits [Nom] (content : List UInt8) (k : Nat) : Prop where
  filled : k ≤ content.length
  noise : ∀ more j, j < k → ¬ radioMagicPrefix <+: (content ++ more).drop j
  pops : Pops content (content.drop k) none
  short : ∀ r ∈ firstHeader content, r.2.length < r.1.dataLen.toNat
  headed : ∀ r ∈ firstHeader content, (content.drop k).length = r.2.length + 8
  headless : firstHeader content = none → (content.drop k).length < 8

theorem not_prefix_of_firstAt {content : List UInt8} {i : Nat}
    (hi : FirstAt radioMagicPrefix content i) (more : List UInt8) :
    ∀ j < i, ¬ radioMagicPrefix <+: (content ++ more).drop j :=
  (hi.of_prefix (by decide) (List.prefix_append content more)).2

variable [Nom] {content : List UInt8}

theorem awaits_noise (h : ¬ radioMagicPrefix <:+: content) :
    Awaits content (content.length - radioMagicPrefix.length) where
  filled := Nat.sub_le _ _
  noise more j hj hocc := by
    rw [List.drop_append_of_le_length (by omega)] at hocc
    have hin := List.prefix_of_prefix_length_le hocc (List.prefix_append (content.drop j) more)
      (by rw [List.length_drop]; omega)
    exact h (infix_of_prefix_drop hin)
  pops := pops_noise h
  short r hr := by
    rw [firstHeader_absent h] at hr
    cases hr
  headed r hr := by
    rw [firstHeader_absent h] at hr
    cases hr
  headless _ := by
    have hthree : radioMagicPrefix.length = 3 := rfl
    rw [List.length_drop]
    omega

variable [LawfulNom]

/-- With a known command, more bytes are awaited or a message is found. -/
theorem awaits_or_pops (hknown : ∀ r ∈ firstHeader content, r.1.Known) :
    (∃ k, Awaits content k) ∨
    ∃ header command data kept, firstHeader content = some (header, data ++ kept) ∧
      data.length = header.dataLen.toNat ∧ ExtEnum.intoTag command = header.tag ∧
      Pops content kept (some ⟨command, header.requestId, data⟩) := by
  cases framing content with
  | noise hpre => exact .inl ⟨_, awaits_noise hpre⟩
  | @short before rest hr hi =>
    have hheader := firstHeader_found hi
    have hdrop : (before ++ (radioMagicPrefix ++ rest)).drop before.length =
        radioMagicPrefix ++ rest := List.drop_left
    rw [headerAt_short hr] at hheader
    refine .inl ⟨before.length, by simp, not_prefix_of_firstAt hi,
      by rw [hdrop]; exact pops_header_short hr hi, by simp [hheader], by simp [hheader],
      fun _ => ?_⟩
    rw [hdrop]
    simp only [List.length_append, radioMagicPrefix, List.length_cons, List.length_nil]
    omega
  | @header before body tag a b c d hi =>
    have hheader := firstHeader_found hi
    have hdrop : (before ++ (radioMagicPrefix ++ (tag :: a :: b :: c :: d :: body))).drop
        before.length = radioMagicPrefix ++ (tag :: a :: b :: c :: d :: body) := List.drop_left
    obtain ⟨command, rfl⟩ := hknown _ hheader
    have hcommand := tryFromTag_intoTag command
    rcases Nat.lt_or_ge body.length (UInt16.ofNat (ofBeBytes [c, d])).toNat with hb | hb
    · refine .inl ⟨before.length, by simp, not_prefix_of_firstAt hi,
        by rw [hdrop]; exact pops_data_short hcommand hb hi,
        fun r hr => ?_, fun r hr => ?_, by simp [hheader, headerAt]⟩
      · obtain rfl := Option.some.inj (hheader.symm.trans hr)
        exact hb
      · obtain rfl := Option.some.inj (hheader.symm.trans hr)
        rw [hdrop]
        simp [radioMagicPrefix]
    · obtain ⟨data, kept, rfl, hdata⟩ : ∃ data kept, body = data ++ kept ∧
          data.length = (UInt16.ofNat (ofBeBytes [c, d])).toNat :=
        ⟨_, _, (List.take_append_drop _ body).symm, List.length_take_of_le hb⟩
      exact .inr ⟨_, command, data, kept, hheader, hdata, rfl, pops_message hcommand hdata hi⟩

theorem popRawMessage_unknown_header (hunknown : ¬ ∀ r ∈ firstHeader content, r.1.Known) :
    popRawMessage content = .error .unwrap := by
  cases framing content with
  | noise hpre =>
    rw [firstHeader_absent hpre] at hunknown
    exact absurd (by simp) hunknown
  | short hr hi =>
    rw [firstHeader_found hi, headerAt_short hr] at hunknown
    exact absurd (by simp) hunknown
  | @header before body tag a b c d hi =>
    rw [firstHeader_found hi] at hunknown
    cases hc : (ExtEnum.tryFromTag tag : Except ExtEnumError RawRadioCommand) with
    | ok command =>
      refine absurd (fun r hr => ?_) hunknown
      obtain rfl := Option.some.inj hr
      exact ⟨command, intoTag_of_tryFromTag hc⟩
    | error e => exact popRawMessage_unknown hc hi

end Headers

namespace RawRadioStream
section Turns
variable [Nom] {self self' : RawRadioStream} {source : Source}

theorem pollNext_message {message : RawRadioMessage} (hpop : self.pop = .ok (some message, self'))
    (fuel : Nat) (source : Source) :
    pollNext (fuel + 1) self source = .ok (some (.ready (some message)), self', source) := by
  rw [pollNext, hpop]
  rfl

theorem pollNext_full (hpop : self.pop = .ok (none, self')) (hs : self'.Sized)
    (hfull : self'.bufferFilled = bufferSize) (fuel : Nat) (source : Source) :
    pollNext (fuel + 1) self source = .ok (some (.ready none), self', source) := by
  have hslice : sliceFrom self'.buffer self'.bufferFilled = .ok [] := by
    rw [sliceFrom, if_pos (hs.buffer ▸ hs.filled), hfull, ← hs.buffer, List.drop_length]
  rw [pollNext, hpop]
  simp only [ok_bind, hslice]
  rfl

variable [LawfulNom]

theorem Sized.pop_unknown (hs : self.Sized)
    (hunknown : ¬ ∀ r ∈ firstHeader self.content, r.1.Known) : self.pop = .error .unwrap := by
  have hslice : sliceTo self.buffer self.bufferFilled = .ok self.content :=
    if_pos (hs.buffer ▸ hs.filled)
  rw [RawRadioStream.pop, hslice, ok_bind, popRawMessage_unknown_header hunknown]
  rfl

/-- A turn begins with the noise given up, or with a message taken out. -/
theorem Sized.pop_awaits_or_message (hs : self.Sized)
    (hknown : ∀ r ∈ firstHeader self.content, r.1.Known) :
    (∃ k self', Awaits self.content k ∧ self.pop = .ok (none, self') ∧ self'.Sized ∧
      self'.content = self.content.drop k) ∨
    ∃ header command data self', firstHeader self.content = some (header, data ++ self'.content) ∧
      data.length = header.dataLen.toNat ∧ ExtEnum.intoTag command = header.tag ∧
      self.pop = .ok (some ⟨command, header.requestId, data⟩, self') ∧ self'.Sized := by
  rcases awaits_or_pops hknown with
    ⟨k, hk⟩ | ⟨header, command, data, kept, hheader, hdata, htag, hpops⟩
  · obtain ⟨self', hpop, hs', hkept⟩ := hs.pop hk.pops
    exact .inl ⟨k, self', hk, hpop, hs', hkept⟩
  · obtain ⟨self', hpop, hs', rfl⟩ := hs.pop hpops
    exact .inr ⟨header, command, data, self', hheader, hdata, htag, hpop, hs'⟩

omit [LawfulNom] in
/-- What awaits more bytes has room for them, unless it is settled. -/
theorem room_of_awaits {k : Nat} (hk : Awaits self.content k) (hs : self'.Sized)
    (hkept : self'.content = self.content.drop k) :
    Determined self.content ↔ self'.bufferFilled = bufferSize := by
  have hlen := hs.content_length
  have hsize : dataRoom + 8 = bufferSize := rfl
  rw [hkept] at hlen
  cases hheader : firstHeader self.content with
  | none =>
    refine iff_of_false (fun ⟨r, hr, _⟩ => ?_) fun hfull => ?_
    · rw [hheader] at hr
      cases hr
    · have hshort := hk.headless hheader
      have hbig : 8 < bufferSize := by decide
      omega
  | some r =>
    have hshort := hk.short r hheader
    have hbody := hk.headed r hheader
    have hfilled := hs.filled
    constructor
    · rintro ⟨r', hr', hmin⟩
      obtain rfl := Option.some.inj (hheader.symm.trans hr')
      omega
    · intro hfull
      exact ⟨r, hheader, by omega⟩

omit [LawfulNom] in
theorem room_of_open {k : Nat} (hk : Awaits self.content k) (hs : self'.Sized)
    (hkept : self'.content = self.content.drop k) (hopen : ¬ Determined self.content) :
    0 < bufferSize - self'.bufferFilled := by
  have hfull := mt (room_of_awaits hk hs hkept).mpr hopen
  have hfilled := hs.filled
  omega

end Turns
end RawRadioStream

section Growing
variable {content more : List UInt8}

theorem known_append (hknown : ∀ r ∈ firstHeader (content ++ more), r.1.Known) :
    ∀ r ∈ firstHeader content, r.1.Known :=
  fun r hr => hknown (r.1, r.2 ++ more) (firstHeader_append hr)

theorem known_append_iff {r : Header × List UInt8} (hr : firstHeader content = some r) :
    (∀ r ∈ firstHeader (content ++ more), r.1.Known) ↔ r.1.Known := by
  rw [firstHeader_append hr]
  simp

theorem Determined.append (h : Determined content) : Determined (content ++ more) := by
  obtain ⟨r, hr, hmin⟩ := h
  refine ⟨_, firstHeader_append hr, hmin.trans ?_⟩
  rw [List.length_append]
  exact Nat.le_add_right _ _

theorem Awaits.firstHeader_append [Nom] {k : Nat} (hk : Awaits content k) :
    firstHeader (content.drop k ++ more) = firstHeader (content ++ more) := by
  rw [← List.drop_append_of_le_length hk.filled]
  exact firstHeader_drop (hk.noise more)

end Growing

def Answer.isBytes : Answer → Bool
  | .bytes _ => true
  | _ => false

/-- The bytes that a source delivers before it is pending or fails for the first time. -/
def available (answers : List Answer) : List UInt8 :=
  (answers.takeWhile Answer.isBytes).flatMap Source.dataOf

/-- What makes a poll return at a source that ends after these answers: it is pending or fails
before it ends, or its bytes settle the first message, whose command is known. -/
def Concludes (content : List UInt8) (answers : List Answer) : Prop :=
  (∀ r ∈ firstHeader (content ++ available answers), r.1.Known) ∧
    (Determined (content ++ available answers) ∨ ∃ a ∈ answers, a.isBytes = false)

theorem Concludes.read {content data : List UInt8} {answers : List Answer} :
    Concludes content (.bytes data :: answers) ↔ Concludes (content ++ data) answers := by
  have havailable : available (.bytes data :: answers) = data ++ available answers := rfl
  simp [Concludes, havailable, Answer.isBytes]

theorem Awaits.concludes_iff [Nom] {content : List UInt8} {k : Nat} (hk : Awaits content k)
    (answers : List Answer) : Concludes (content.drop k) answers ↔ Concludes content answers := by
  simp only [Concludes, Determined, hk.firstHeader_append]

namespace RawRadioStream
section Ends
variable [Nom] {self self' : RawRadioStream} {source source' : Source}

def Returns (self : RawRadioStream) (source : Source) : Prop :=
  ∃ fuel result self' source', pollNext fuel self source = .ok (some result, self', source')

theorem returns_of_turn {result : Poll (Option RawRadioMessage)}
    (h : ∀ fuel, pollNext (fuel + 1) self source = .ok (some result, self', source')) :
    Returns self source :=
  ⟨1, result, self', source', h 0⟩

theorem returns_iff_of_turn
    (h : ∀ fuel, pollNext (fuel + 1) self source = pollNext fuel self' source') :
    Returns self source ↔ Returns self' source' := by
  constructor
  · rintro ⟨fuel, result, hfuel⟩
    cases fuel with
    | zero => simp [pollNext] at hfuel
    | succ fuel => exact ⟨fuel, result, h fuel ▸ hfuel⟩
  · rintro ⟨fuel, result, hfuel⟩
    exact ⟨fuel + 1, result, (h fuel).symm ▸ hfuel⟩

variable [LawfulNom]

theorem Sized.not_returns_unknown (hs : self.Sized)
    (hunknown : ¬ ∀ r ∈ firstHeader self.content, r.1.Known) : ¬ Returns self source := by
  rintro ⟨fuel, result, self', source', hfuel⟩
  cases fuel with
  | zero => simp [pollNext] at hfuel
  | succ fuel =>
    rw [pollNext, hs.pop_unknown hunknown] at hfuel
    cases hfuel

/-- Nothing is left to read and nothing can be returned: the loop turns for ever. -/
theorem Sized.spins (fuel : Nat) : ∀ {self : RawRadioStream} {log : List StreamEvent}, self.Sized →
    (∀ r ∈ firstHeader self.content, r.1.Known) → ¬ Determined self.content →
    ∃ self' source', pollNext fuel self ⟨[], .bytes [], log⟩ = .ok (none, self', source') := by
  induction fuel with
  | zero => exact fun _ _ _ => ⟨_, _, rfl⟩
  | succ fuel ih =>
    intro self log hs hknown hopen
    rcases hs.pop_awaits_or_message hknown with
      ⟨k, self', hk, hpop, hs', hkept⟩ | ⟨header, command, data, self', hheader, hdata, -⟩
    · have hroom := room_of_open hk hs' hkept hopen
      obtain ⟨hs'', hcontent⟩ : (self'.fill []).Sized ∧ _ := hs'.fill hs'.filled
      have hfirst : firstHeader (self'.fill []).content = firstHeader self.content := by
        have hsame : firstHeader (self.content.drop k ++ []) = firstHeader (self.content ++ []) :=
          hk.firstHeader_append
        rwa [List.append_nil, List.append_nil, ← hkept, ← List.append_nil self'.content,
          ← hcontent] at hsame
      rw [pollNext_waits fuel hpop hs' hroom]
      simp only [Source.pollRead, List.headD_nil, List.take_nil]
      refine ih hs'' (hfirst ▸ hknown) ?_
      rw [Determined, hfirst]
      exact hopen
    · exact absurd ⟨_, hheader, by simp [hdata]⟩ hopen

theorem Sized.returns_of_settled (hs : self.Sized)
    (hknown : ∀ r ∈ firstHeader self.content, r.1.Known) (h : Determined self.content) :
    Returns self source := by
  rcases hs.pop_awaits_or_message hknown with
    ⟨k, self', hk, hpop, hs', hkept⟩ | ⟨header, command, data, self', -, -, -, hpop, -⟩
  · have hfull := (room_of_awaits hk hs' hkept).mp h
    exact returns_of_turn fun fuel => pollNext_full hpop hs' hfull fuel source
  · exact returns_of_turn fun fuel => pollNext_message hpop fuel source

/-- A turn that reads some bytes, as many as there is room for. -/
theorem Sized.returns_read (hs : self.Sized) {log : List StreamEvent} {data : List UInt8}
    {answers : List Answer} (hknown : ∀ r ∈ firstHeader self.content, r.1.Known)
    (hopen : ¬ Determined self.content) :
    ∃ self' answers' log', self'.Sized ∧
      (Source.mk answers' (.bytes []) log').size <
        (Source.mk (.bytes data :: answers) (.bytes []) log).size ∧
      (Returns self ⟨.bytes data :: answers, .bytes [], log⟩ ↔
        Returns self' ⟨answers', .bytes [], log'⟩) ∧
      (Concludes self.content (.bytes data :: answers) ↔ Concludes self'.content answers') := by
  rcases hs.pop_awaits_or_message hknown with
    ⟨k, kept, hk, hpop, hkept, hcontent⟩ | ⟨header, command, front, self', hheader, hfront, -⟩
  · have hroom := room_of_open hk hkept hcontent hopen
    have hturn := fun fuel => pollNext_waits fuel hpop hkept hroom
      ⟨.bytes data :: answers, .bytes [], log⟩
    rw [← hk.concludes_iff, ← hcontent]
    by_cases hfit : data.length ≤ bufferSize - kept.bufferFilled
    · have hfilled := hkept.filled
      have hroom' : kept.bufferFilled + data.length ≤ bufferSize := by omega
      obtain ⟨hs', hfill⟩ := hkept.fill hroom'
      refine ⟨kept.fill data, answers, .read data :: log, hs', by simp [Source.size], ?_, ?_⟩
      · refine returns_iff_of_turn fun fuel => (hturn fuel).trans ?_
        simp [Source.pollRead, hfit, List.take_of_length_le]
      · rw [hfill, Concludes.read]
    · set room := bufferSize - kept.bufferFilled with hroomEq
      have hfilled := hkept.filled
      have hroom' : kept.bufferFilled + (data.take room).length ≤ bufferSize := by
        rw [List.length_take]
        omega
      obtain ⟨hs', hfill⟩ := hkept.fill hroom'
      refine ⟨kept.fill (data.take room), .bytes (data.drop room) :: answers,
        .read (data.take room) :: log, hs', ?_, ?_, ?_⟩
      · simp [Source.size, Source.dataOf]
        omega
      · refine returns_iff_of_turn fun fuel => (hturn fuel).trans ?_
        simp [Source.pollRead, hfit]
      · rw [hfill, Concludes.read, Concludes.read, List.append_assoc, List.take_append_drop]
  · exact absurd ⟨_, hheader, by simp [hfront]⟩ hopen

theorem Sized.returns_iff (n : Nat) : ∀ {self : RawRadioStream} {answers : List Answer}
    {log : List StreamEvent}, self.Sized → (Source.mk answers (.bytes []) log).size < n →
    (Returns self ⟨answers, .bytes [], log⟩ ↔ Concludes self.content answers) := by
  induction n with
  | zero => exact fun _ hlt => absurd hlt (Nat.not_lt_zero _)
  | succ n ih =>
    intro self answers log hs hlt
    by_cases hknown : ∀ r ∈ firstHeader self.content, r.1.Known
    swap
    · exact iff_of_false (hs.not_returns_unknown hknown) fun h => hknown (known_append h.1)
    by_cases hopen : Determined self.content
    · refine iff_of_true (hs.returns_of_settled hknown hopen) ⟨?_, .inl hopen.append⟩
      obtain ⟨r, hr, -⟩ := hopen
      exact (known_append_iff hr).mpr (hknown r hr)
    · match answers, hlt with
      | [], _ =>
        refine iff_of_false ?_ fun h => ?_
        · rintro ⟨fuel, result, self', source', hfuel⟩
          obtain ⟨self₂, source₂, hspins⟩ : ∃ self' source',
              pollNext fuel self ⟨[], .bytes [], log⟩ = .ok (none, self', source') :=
            Sized.spins fuel hs hknown hopen
          rw [hspins] at hfuel
          cases hfuel
        · rcases h.2 with h | ⟨a, ha, -⟩
          · exact hopen (by simpa [available] using h)
          · cases ha
      | .bytes data :: answers, hlt =>
        obtain ⟨self', answers', log', hs', hsize, hreturns, hconcludes⟩ :=
          hs.returns_read hknown hopen
        rw [hreturns, hconcludes]
        exact ih hs' (by omega)
      | .pending :: answers, _ | .failed :: answers, _ =>
        refine iff_of_true ?_ ⟨by simpa [available, Answer.isBytes] using hknown,
          .inr ⟨_, List.mem_cons_self, rfl⟩⟩
        rcases hs.pop_awaits_or_message hknown with
          ⟨k, kept, hk, hpop, hkept, hcontent⟩ | ⟨_, _, _, self', -, -, -, hpop, -⟩
        · have hroom := room_of_open hk hkept hcontent hopen
          exact returns_of_turn fun fuel => pollNext_waits fuel hpop hkept hroom _
        · exact returns_of_turn fun fuel => pollNext_message hpop fuel _

/-- Whatever is in the buffer, a poll at a source that comes to its end returns exactly when
something before the end makes it; the end itself, a read of no bytes, does not. -/
theorem poll_returns_iff {stream : RawRadioStream} (hs : stream.Sized) (answers : List Answer) :
    Returns stream (.new answers (.bytes [])) ↔ Concludes stream.content answers :=
  hs.returns_iff _ (Nat.lt_succ_self _)

end Ends

theorem poll_returns_iff_answer :
    @Returns documentedNom new
      (.new [.bytes [0x5A, 0x50, 0x42, 0x80], .bytes [0, 1, 0, 1, 7]] (.bytes [])) := by
  let _ := documentedNom
  have _ := documentedNom_lawful
  refine (poll_returns_iff Sized.new _).mpr ⟨fun r hr => ?_, .inl ⟨_, rfl, by decide⟩⟩
  cases hr
  exact ⟨.ok, rfl⟩

theorem poll_never_returns_at_closed_port :
    ¬ ∀ (stream : RawRadioStream) (answers : List Answer), stream.Sized →
      @Returns documentedNom stream (.new answers (.bytes [])) := by
  intro hall
  let _ := documentedNom
  have _ := documentedNom_lawful
  obtain ⟨fuel, result, self', source', hfuel⟩ := hall new [] Sized.new
  have hempty : firstHeader new.content = none := rfl
  have hopen : ¬ Determined new.content := by simp [Determined, hempty]
  obtain ⟨self₂, source₂, hspins⟩ := Sized.spins fuel Sized.new (by simp [hempty]) hopen
  rw [Source.new, hspins] at hfuel
  cases hfuel

end RawRadioStream
end ZigbeeStack
