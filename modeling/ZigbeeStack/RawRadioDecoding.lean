import ZigbeeStack.RawRadioEnds

/-! What a stream makes of arbitrary bytes: the messages that a decoder without a buffer finds in
them, and the announcements that the buffer is too small for. -/
namespace ZigbeeStack
open Bits ByteStreams

def decode (bytes : List UInt8) : List RawRadioMessage :=
  match _hheader : firstHeader bytes with
  | some (header, body) =>
    if header.dataLen.toNat ≤ body.length then
      match ExtEnum.tryFromTag header.tag with
      | .ok command =>
        ⟨command, header.requestId, body.take header.dataLen.toNat⟩ ::
          decode (body.drop header.dataLen.toNat)
      | .error _ => []
    else []
  | none => []
termination_by bytes.length
decreasing_by
  obtain ⟨front, rfl, hfront⟩ := split_of_firstHeader _hheader
  rw [List.length_append, List.length_drop]
  omega

/-- One of the messages announces more data than the buffer has room for, and that many bytes
come. -/
inductive Overlong : List UInt8 → Prop where
  | here {bytes body : List UInt8} {header : Header} : firstHeader bytes = some (header, body) →
      dataRoom < header.dataLen.toNat → dataRoom ≤ body.length → Overlong bytes
  | later {bytes data rest : List UInt8} {header : Header} :
      firstHeader bytes = some (header, data ++ rest) → data.length = header.dataLen.toNat →
      data.length ≤ dataRoom → Overlong rest → Overlong bytes

/-- Behind every prefix, also one that lies in the data of a message, there is a known command. -/
def KnownIds (bytes : List UInt8) : Prop :=
  ∀ i tag, radioMagicPrefix <+: bytes.drop i → bytes[i + radioMagicPrefix.length]? = some tag →
    ∃ command : RawRadioCommand, ExtEnum.intoTag command = tag

section Decode
variable {bytes rest data : List UInt8} {header : Header} {command : RawRadioCommand}

theorem decode_message (h : firstHeader bytes = some (header, data ++ rest))
    (hdata : data.length = header.dataLen.toNat) (hc : ExtEnum.intoTag command = header.tag) :
    decode bytes = ⟨command, header.requestId, data⟩ :: decode rest := by
  have hle : header.dataLen.toNat ≤ (data ++ rest).length := by simp [hdata]
  have htag : ExtEnum.tryFromTag header.tag = .ok command := hc ▸ tryFromTag_intoTag command
  rw [decode, h]
  simp only [hle, if_true, htag, List.take_left' hdata, List.drop_left' hdata]

theorem decode_of_open (h : ¬ Determined bytes) : decode bytes = [] := by
  rw [decode]
  split
  · rename_i header body hheader
    have hshort : ¬ header.dataLen.toNat ≤ body.length :=
      fun hle => h ⟨_, hheader, (Nat.min_le_left _ _).trans hle⟩
    rw [if_neg hshort]
  · rfl

theorem not_overlong_of_open (h : ¬ Determined bytes) : ¬ Overlong bytes := by
  intro hover
  cases hover with
  | here hheader _ hbody => exact h ⟨_, hheader, (Nat.min_le_right _ _).trans hbody⟩
  | later hheader hdata _ _ => exact h ⟨_, hheader, by simp [hdata]⟩

/-- Only what follows the first prefix matters. -/
theorem decode_congr {bytes' : List UInt8} (h : firstHeader bytes' = firstHeader bytes) :
    decode bytes' = decode bytes := by
  rw [decode, decode, h]

theorem Overlong.congr {bytes' : List UInt8} (hover : Overlong bytes)
    (h : firstHeader bytes' = firstHeader bytes) : Overlong bytes' := by
  cases hover with
  | here hheader hlen hbody => exact .here (h.trans hheader) hlen hbody
  | later hheader hdata hle hover => exact .later (h.trans hheader) hdata hle hover

theorem overlong_congr {bytes' : List UInt8} (h : firstHeader bytes' = firstHeader bytes) :
    Overlong bytes' ↔ Overlong bytes :=
  ⟨fun hover => hover.congr h.symm, fun hover => hover.congr h⟩

theorem overlong_message (h : firstHeader bytes = some (header, data ++ rest))
    (hdata : data.length = header.dataLen.toNat) (hle : data.length ≤ dataRoom) :
    Overlong bytes ↔ Overlong rest := by
  refine ⟨fun hover => ?_, .later h hdata hle⟩
  cases hover with
  | here hheader hlen _ =>
    obtain ⟨rfl, -⟩ := Prod.mk.inj (Option.some.inj (h.symm.trans hheader))
    omega
  | later hheader hdata' _ hover =>
    obtain ⟨rfl, hbody⟩ := Prod.mk.inj (Option.some.inj (h.symm.trans hheader))
    obtain ⟨-, rfl⟩ := List.append_inj hbody (hdata.trans hdata'.symm)
    exact hover

theorem KnownIds.suffix {front : List UInt8} (h : KnownIds (front ++ rest)) : KnownIds rest := by
  intro i tag hpre htag
  refine h (front.length + i) tag ?_ ?_
  · rwa [← List.drop_drop, List.drop_left]
  · rwa [Nat.add_assoc, List.getElem?_append_right (Nat.le_add_right _ _), Nat.add_sub_cancel_left]

theorem KnownIds.first (h : KnownIds bytes) : ∀ r ∈ firstHeader bytes, r.1.Known := by
  intro ⟨header, body⟩ hr
  rw [Option.mem_def] at hr
  cases framing bytes with
  | noise hpre =>
    rw [firstHeader_absent hpre] at hr
    cases hr
  | short hshort hi =>
    rw [firstHeader_found hi, headerAt_short hshort] at hr
    cases hr
  | @header before body' tag a b c d hi =>
    rw [firstHeader_found hi] at hr
    cases hr
    exact h before.length tag hi.1 (by simp)

end Decode

/-! Following a stream through the bytes. -/
open StreamEvent

structure Consistent (bytes : List UInt8) (log : List StreamEvent) (rest : List UInt8) : Prop where
  messages : decode bytes = yielded log ++ decode rest
  overlong : Overlong bytes ↔ Overlong rest
  known : KnownIds rest
  ended : .returned (.ready none) ∈ log → Overlong bytes

section Tracking
variable {bytes rest content unread data : List UInt8} {log : List StreamEvent} {header : Header}
  {command : RawRadioCommand}

theorem Consistent.start (h : KnownIds bytes) : Consistent bytes [] bytes := ⟨rfl, .rfl, h, by simp⟩

theorem Consistent.read (h : Consistent bytes log rest) (chunk : List UInt8) :
    Consistent bytes (.read chunk :: log) rest :=
  ⟨h.messages, h.overlong, h.known, by simpa using h.ended⟩

theorem Consistent.pending (h : Consistent bytes log rest) :
    Consistent bytes (.returned .pending :: log) rest :=
  ⟨h.messages, h.overlong, h.known, by simpa using h.ended⟩

theorem Consistent.none (h : Consistent bytes log rest) (hover : Overlong bytes) :
    Consistent bytes (.returned (.ready none) :: log) rest :=
  ⟨h.messages, h.overlong, h.known, fun _ => hover⟩

theorem Consistent.trim [Nom] {k : Nat} (h : Consistent bytes log (content ++ unread))
    (hk : Awaits content k) : Consistent bytes log (content.drop k ++ unread) := by
  have hsame : firstHeader (content.drop k ++ unread) = firstHeader (content ++ unread) :=
    hk.firstHeader_append
  refine ⟨h.messages.trans (congrArg _ (decode_congr hsame).symm),
    h.overlong.trans (overlong_congr hsame).symm, ?_, h.ended⟩
  have hsplit : content ++ unread = content.take k ++ (content.drop k ++ unread) := by
    rw [← List.append_assoc, List.take_append_drop]
  exact (hsplit ▸ h.known).suffix

theorem Consistent.message {kept : List UInt8} (h : Consistent bytes log (content ++ unread))
    (hheader : firstHeader content = some (header, data ++ kept))
    (hdata : data.length = header.dataLen.toNat) (hc : ExtEnum.intoTag command = header.tag)
    (hle : content.length ≤ RawRadioStream.bufferSize) :
    Consistent bytes (.returned (.ready (some ⟨command, header.requestId, data⟩)) :: log)
        (kept ++ unread) ∧
      decode (content ++ unread) =
        ⟨command, header.requestId, data⟩ :: decode (kept ++ unread) := by
  have hall : firstHeader (content ++ unread) = some (header, data ++ kept ++ unread) :=
    firstHeader_append hheader
  rw [List.append_assoc] at hall
  obtain ⟨front, rfl, hfront⟩ := split_of_firstHeader hheader
  have hfits : data.length ≤ dataRoom := by
    simp only [List.length_append] at hle
    rw [dataRoom]
    omega
  have hdecode := decode_message hall hdata hc
  refine ⟨⟨?_, h.overlong.trans (overlong_message hall hdata hfits), ?_, by simpa using h.ended⟩,
    hdecode⟩
  · rw [h.messages, hdecode]
    simp [yielded]
  · have hknown := h.known
    rw [← List.append_assoc, List.append_assoc] at hknown
    exact hknown.suffix

end Tracking

namespace RawRadioStream

structure Following (bytes : List UInt8) (stream : RawRadioStream) (source : Source) : Prop where
  sized : stream.Sized
  steady : source.Steady
  tracks : Consistent bytes source.log (stream.content ++ source.unread)

def rest (self : RawRadioStream) (source : Source) : List UInt8 := self.content ++ source.unread

inductive Outcome (bytes : List UInt8) (self : RawRadioStream) (source : Source)
    (self' : RawRadioStream) (source' : Source) : Poll (Option RawRadioMessage) → Prop where
  | message {m : RawRadioMessage} : decode (self.rest source) = m :: decode (self'.rest source') →
      source'.size ≤ source.size → Outcome bytes self source self' source' (.ready (some m))
  | waits : decode (self.rest source) = decode (self'.rest source') →
      source'.size < source.size → Outcome bytes self source self' source' .pending
  | done : decode (self.rest source) = [] → decode (self'.rest source') = [] → ¬ Overlong bytes →
      source'.size ≤ source.size → Outcome bytes self source self' source' .pending
  | ends : Overlong bytes → source'.size ≤ source.size →
      (decode (self'.rest source')).length ≤ (decode (self.rest source)).length →
      Outcome bytes self source self' source' (.ready none)

section Outcomes
variable {bytes content unread : List UInt8} {self self₁ self' : RawRadioStream}
  {source source₁ source' : Source} {result : Poll (Option RawRadioMessage)}

theorem Outcome.size_le (h : Outcome bytes self source self' source' result) :
    source'.size ≤ source.size := by
  cases h with
  | message _ hle => exact hle
  | waits _ hlt => exact Nat.le_of_lt hlt
  | done _ _ _ hle => exact hle
  | ends _ hle _ => exact hle

theorem Outcome.decode_le (h : Outcome bytes self source self' source' result) :
    (decode (self'.rest source')).length ≤ (decode (self.rest source)).length := by
  cases h with
  | message hm _ => rw [hm]; exact Nat.le_succ _
  | waits hm _ => exact Nat.le_of_eq (hm ▸ rfl)
  | done hm hm' _ _ => rw [hm, hm']
  | ends _ _ hle => exact hle

/-- A turn that only reads does not change what the poll comes to. -/
theorem Outcome.read (h : Outcome bytes self₁ source₁ self' source' result)
    (hdecode : decode (self.rest source) = decode (self₁.rest source₁))
    (hsize : source₁.size < source.size) : Outcome bytes self source self' source' result := by
  cases h with
  | message hm hle => exact .message (hdecode.trans hm) (by omega)
  | waits hm hlt => exact .waits (hdecode.trans hm) (by omega)
  | done hm hm' hno hle => exact .done (hdecode.trans hm) hm' hno (by omega)
  | ends hover hle hm => exact .ends hover (by omega) (hdecode ▸ hm)

/-- What is awaited in a full buffer is longer than the buffer. -/
theorem overlong_of_awaits [Nom] {k : Nat} (hk : Awaits content k) (hfull : Determined content)
    (unread : List UInt8) : Overlong (content ++ unread) := by
  obtain ⟨r, hr, hmin⟩ := hfull
  have hshort := hk.short r hr
  refine .here (firstHeader_append hr) (by omega) ?_
  rw [List.length_append]
  omega

end Outcomes

section Polls
variable [Nom] [LawfulNom] {bytes : List UInt8} {self : RawRadioStream} {source : Source}

/-- Every poll returns. -/
theorem Following.pollNext (fuel : Nat) : ∀ {self : RawRadioStream} {source : Source},
    Following bytes self source → source.size < fuel →
    ∃ result self' source', RawRadioStream.pollNext fuel self source =
        .ok (some result, self', source') ∧ Following bytes self' (source'.returned result) ∧
      source.log <:+ source'.log ∧ Outcome bytes self source self' source' result := by
  induction fuel with
  | zero => exact fun _ hlt => absurd hlt (Nat.not_lt_zero _)
  | succ fuel ih =>
    intro self source hf hlt
    rcases hf.sized.pop_awaits_or_message (known_append hf.tracks.known.first) with
      ⟨k, self', hk, hpop, hs', hkept⟩ |
      ⟨header, command, data, self', hheader, hdata, htag, hpop, hs'⟩
    · have htrim := hf.tracks.trim hk
      have hdecode : decode (self.rest source) = decode (self'.rest source) := by
        rw [rest, rest, hkept]
        exact (decode_congr hk.firstHeader_append).symm
      rw [← hkept] at htrim
      by_cases hopen : Determined self.content
      · -- the buffer is full of one announcement
        have hfull := (room_of_awaits hk hs' hkept).mp hopen
        have hover := hf.tracks.overlong.mpr (overlong_of_awaits hk hopen source.unread)
        exact ⟨.ready none, self', source, pollNext_full hpop hs' hfull fuel source,
          ⟨hs', hf.steady, htrim.none hover⟩, List.suffix_refl _,
          .ends hover (Nat.le_refl _) (Nat.le_of_eq (hdecode ▸ rfl))⟩
      · have hroom := room_of_open hk hs' hkept hopen
        have hturn := pollNext_waits fuel hpop hs' hroom source
        rcases source.pollRead_cases hf.steady hroom with
          ⟨source', hread, hsteady, hlog, hunread, hprogress⟩ |
          ⟨chunk, source', hread, hsteady, hlog, hfit, hunread, hsize⟩
        · rw [hread] at hturn
          rw [← hunread] at htrim
          have hrest : self'.rest source' = self'.rest source := by rw [rest, rest, hunread]
          have hpending := htrim.pending
          rw [← hlog] at hpending
          refine ⟨.pending, self', source', hturn, ⟨hs', hsteady, hpending⟩,
            hlog ▸ List.suffix_refl _, ?_⟩
          rcases hprogress with hsize | ⟨hnone, rfl⟩
          · exact .waits (hdecode.trans (congrArg decode hrest).symm) hsize
          · have hall : self.rest source' = self.content := by
              rw [rest, hnone, List.append_nil]
            have hnil := decode_of_open hopen
            have hno := not_overlong_of_open hopen
            rw [← hall] at hnil hno
            exact .done hnil (hdecode ▸ hnil) (mt hf.tracks.overlong.mp hno) (Nat.le_refl _)
        · rw [hread] at hturn
          have hfits : self'.bufferFilled + chunk.length ≤ bufferSize := by omega
          obtain ⟨hsized, hcontent⟩ := hs'.fill hfits
          have hrest : (self'.fill chunk).rest source' = self'.rest source := by
            rw [rest, rest, hcontent, hunread, List.append_assoc]
          have htracks : Consistent bytes source'.log ((self'.fill chunk).rest source') := by
            rw [hrest, hlog]
            exact htrim.read chunk
          obtain ⟨result, self₂, source₂, hpoll, hf₂, hlog₂, houtcome⟩ :=
            ih ⟨hsized, hsteady, htracks⟩ (by omega)
          have hgrows : source.log <:+ source'.log := hlog ▸ List.suffix_cons _ _
          rw [← hrest] at hdecode
          exact ⟨result, self₂, source₂, hturn.trans hpoll, hf₂, hgrows.trans hlog₂,
            houtcome.read hdecode (by omega)⟩
    · obtain ⟨htracks, hdecode⟩ := hf.tracks.message hheader hdata htag
        (hf.sized.content_length.trans_le hf.sized.filled)
      exact ⟨_, self', source, pollNext_message hpop fuel source, ⟨hs', hf.steady, htracks⟩,
        List.suffix_refl _, .message hdecode (Nat.le_refl _)⟩

/-- Poll after poll the bytes are followed; after enough of them the stream has ended too early, or
all messages are out and no announcement was too long. -/
theorem Following.polls {fuel : Nat} (count : Nat) :
    ∀ {self : RawRadioStream} {source : Source}, Following bytes self source → source.size < fuel →
    ∃ self' source', RawRadioStream.polls fuel count self source = .ok (some (self', source')) ∧
      Following bytes self' source' ∧ source.log <:+ source'.log ∧
      (decode (self'.rest source')).length ≤ (decode (self.rest source)).length ∧
      (source.size + (decode (self.rest source)).length < count →
        .returned (.ready none) ∈ source'.log ∨
          decode (self'.rest source') = [] ∧ ¬ Overlong bytes) := by
  induction count with
  | zero =>
    exact fun hf _ => ⟨_, _, rfl, hf, List.suffix_refl _, Nat.le_refl _,
      fun h => absurd h (Nat.not_lt_zero _)⟩
  | succ count ih =>
    intro self source hf hlt
    obtain ⟨result, self', source', hpoll, hf', hgrows, houtcome⟩ := hf.pollNext fuel hlt
    have hsize := houtcome.size_le
    have hsame : (source'.returned result).size = source'.size := rfl
    have hrest : self'.rest (source'.returned result) = self'.rest source' := rfl
    obtain ⟨self₂, source₂, hpolls, hf₂, hgrows₂, hle₂, hall⟩ := ih hf' (by omega)
    rw [hsame, hrest] at hall
    rw [hrest] at hle₂
    refine ⟨self₂, source₂, ?_, hf₂, hgrows.trans ((List.suffix_cons _ _).trans hgrows₂),
      hle₂.trans houtcome.decode_le, fun hcount => ?_⟩
    · rw [RawRadioStream.polls, hpoll]
      exact hpolls
    · cases houtcome with
      | message hm _ =>
        rw [hm, List.length_cons] at hcount
        exact hall (by omega)
      | waits hm _ =>
        rw [hm] at hcount
        exact hall (by omega)
      | done _ hm' hno _ =>
        rw [hm', List.length_nil, Nat.le_zero, List.length_eq_zero_iff] at hle₂
        exact .inr ⟨hle₂, hno⟩
      | ends _ _ _ => exact .inl (hgrows₂.mem List.mem_cons_self)

variable {answers : List Answer}

omit [Nom] [LawfulNom] in
theorem Following.start (hanswers : ∀ a ∈ answers, a = .pending ∨ ∃ data ≠ [], a = .bytes data)
    (hknown : KnownIds (answers.flatMap Source.dataOf)) :
    Following (answers.flatMap Source.dataOf) .new (.new answers .pending) :=
  ⟨Sized.new, ⟨rfl, hanswers⟩, .start hknown⟩

/-- Every poll returns and none ends the stream; messages come out in order, and after enough polls
all that are in the bytes have come out. -/
def NeverEnds (answers : List Answer) : Prop :=
  ∃ enough, ∀ fuel ≥ enough, ∀ count, ∃ stream source,
    RawRadioStream.polls fuel count .new (.new answers .pending) = .ok (some (stream, source)) ∧
    .returned (.ready none) ∉ source.log ∧
    yielded source.log <+: decode (answers.flatMap Source.dataOf) ∧
    (enough ≤ count → yielded source.log = decode (answers.flatMap Source.dataOf))

/-- An announcement that is too long ends the stream. -/
theorem not_neverEnds (hanswers : ∀ a ∈ answers, a = .pending ∨ ∃ data ≠ [], a = .bytes data)
    (hknown : KnownIds (answers.flatMap Source.dataOf))
    (hover : Overlong (answers.flatMap Source.dataOf)) : ¬ NeverEnds answers := by
  rintro ⟨enough, hnever⟩
  have hstart := Following.start hanswers hknown
  set most := (Source.new answers .pending).size +
    (decode (rest .new (.new answers .pending))).length with hmost
  set fuel := max enough (most + 1) with hfuel
  obtain ⟨stream, source, hpolls, hno, -⟩ := hnever fuel (Nat.le_max_left _ _) (most + 1)
  have hsize : (Source.new answers .pending).size < fuel := by omega
  obtain ⟨stream', source', hpolls', -, -, -, hall⟩ := hstart.polls (most + 1) hsize
  obtain ⟨-, rfl⟩ := Prod.mk.inj (Option.some.inj (Except.ok.inj (hpolls.symm.trans hpolls')))
  rcases hall (Nat.lt_succ_self most) with hends | ⟨-, hfits⟩
  · exact hno hends
  · exact hfits hover

/-- However the bytes of a source are split, the stream ends while the source does not exactly when
more data are announced and sent than the buffer has room for. -/
theorem never_ends_iff (hanswers : ∀ a ∈ answers, a = .pending ∨ ∃ data ≠ [], a = .bytes data)
    (hknown : KnownIds (answers.flatMap Source.dataOf)) :
    NeverEnds answers ↔ ¬ Overlong (answers.flatMap Source.dataOf) := by
  refine ⟨fun hnever hover => not_neverEnds hanswers hknown hover hnever, fun hover => ?_⟩
  have hstart := Following.start hanswers hknown
  refine ⟨(Source.new answers .pending).size +
    (decode (rest .new (.new answers .pending))).length + 1, fun fuel hfuel count => ?_⟩
  have hsize : (Source.new answers .pending).size < fuel := by omega
  obtain ⟨stream, source, hpolls, hf, -, -, hall⟩ := hstart.polls count hsize
  have hno := mt hf.tracks.ended hover
  have hmessages := hf.tracks.messages
  refine ⟨stream, source, hpolls, hno, ⟨_, hmessages.symm⟩, fun hcount => ?_⟩
  rcases hall (by omega) with hends | ⟨hnil, -⟩
  · exact absurd hends hno
  · rw [rest] at hnil
    rw [hmessages, hnil, List.append_nil]

end Polls
end RawRadioStream

section Sent
variable [CookieFactory] [LawfulCookieFactory] {noise : List UInt8} {m : RawRadioMessage}

theorem firstHeader_send (hnoise : ¬ radioMagicPrefix <:+: noise) (hlen : m.data.length ≤ 65535)
    (rest : List UInt8) :
    ∃ header, firstHeader (noise ++ (m.into ++ rest)) = some (header, m.data ++ rest) ∧
      ExtEnum.intoTag m.commandId = header.tag ∧ header.requestId = m.requestId ∧
      m.data.length = header.dataLen.toNat := by
  obtain ⟨a, b, c, d, hm, hid, hdata⟩ := m.into_eq hlen
  have hfirst : FirstAt radioMagicPrefix (noise ++ (radioMagicPrefix ++
      m.commandId.tag :: a :: b :: c :: d :: (m.data ++ rest))) noise.length :=
    borderless_radioMagicPrefix.firstAt hnoise
  refine ⟨⟨m.commandId.tag, .ofNat (ofBeBytes [a, b]), .ofNat (ofBeBytes [c, d])⟩, ?_, rfl, hid,
    hdata.symm⟩
  rw [hm, List.append_assoc]
  exact firstHeader_found hfirst

/-- Every message that is encoded is found after noise without a prefix. -/
theorem decode_send (hnoise : ¬ radioMagicPrefix <:+: noise) (hlen : m.data.length ≤ 65535)
    (rest : List UInt8) : decode (noise ++ (m.into ++ rest)) = m :: decode rest := by
  obtain ⟨header, hheader, htag, hid, hdata⟩ := firstHeader_send hnoise hlen rest
  rw [decode_message hheader hdata htag, hid]

theorem overlong_send (hnoise : ¬ radioMagicPrefix <:+: noise) (hlen : m.data.length ≤ 65535)
    (rest : List UInt8) :
    Overlong (noise ++ (m.into ++ rest)) ↔ 65527 < m.data.length ∨ Overlong rest := by
  obtain ⟨header, hheader, -, -, hdata⟩ := firstHeader_send hnoise hlen rest
  have hroom : dataRoom = 65527 := rfl
  rcases Nat.lt_or_ge 65527 m.data.length with hlong | hfits
  · refine iff_of_true (.here hheader (by omega) ?_) (.inl hlong)
    rw [List.length_append]
    omega
  · rw [overlong_message hheader hdata hfits]
    exact ⟨.inr, fun h => h.resolve_left (Nat.not_lt.mpr hfits)⟩

end Sent

namespace RawRadioStream

/- A message that would just fit, if it were not for its header. -/
def longest : RawRadioMessage := ⟨.ok, 0, List.replicate 65535 0⟩

theorem into_of_length {data : List UInt8} (h : data.length = 65535) :
    @RawRadioMessage.into documentedCookieFactory ⟨.ok, 0, data⟩ =
      0x5A :: ([0x50, 0x42, 0x80, 0, 0, 0xFF, 0xFF] ++ data) := by
  simp only [RawRadioMessage.into, genRawRadioMessage, h]
  rw [if_neg (by decide), ← h, List.take_length, h]
  rfl

theorem knownIds_of_letter {bytes : List UInt8} (hletter : 0x5A ∉ bytes)
    (htag : ∀ tag, bytes[2]? = some tag →
      ∃ command : RawRadioCommand, ExtEnum.intoTag command = tag) :
    KnownIds (0x5A :: bytes) := by
  rintro i tag ⟨more, hmore⟩ hi
  have hfirst : (0x5A :: bytes)[i]? = some 0x5A := by
    have hget := congrArg (·[0]?) hmore
    simpa [radioMagicPrefix] using hget.symm
  cases i with
  | zero => exact htag tag hi
  | succ i =>
    have hmem := List.mem_of_getElem? (List.getElem?_cons_succ.symm.trans hfirst)
    exact absurd hmem hletter

theorem knownIds_longest : KnownIds (@RawRadioMessage.into documentedCookieFactory longest) := by
  rw [longest, into_of_length List.length_replicate]
  refine knownIds_of_letter ?_ fun tag htag => ⟨.ok, Option.some.inj htag⟩
  rw [List.mem_append, List.mem_replicate]
  decide

theorem never_ends_iff_answer :
    @NeverEnds documentedNom
        [.bytes [0x5A, 0x50, 0x42, 0x80], .pending, .bytes [0, 1, 0, 1, 7]] ↔
      ¬ Overlong [0x5A, 0x50, 0x42, 0x80, 0, 1, 0, 1, 7] := by
  let _ := documentedNom
  have _ := documentedNom_lawful
  exact never_ends_iff (by simp)
    (knownIds_of_letter (by decide) fun tag htag => ⟨.ok, Option.some.inj htag⟩)

/-- A message that can be encoded fills the buffer before it is complete. -/
theorem longest_message_ends_stream :
    ¬ ∀ answers : List Answer, (∀ a ∈ answers, a = .pending ∨ ∃ data ≠ [], a = .bytes data) →
      KnownIds (answers.flatMap Source.dataOf) → @NeverEnds documentedNom answers := by
  intro hall
  let _ := documentedNom
  let _ := documentedCookieFactory
  have _ := documentedNom_lawful
  have _ := documentedCookieFactory_lawful
  have hbytes : [Answer.bytes longest.into].flatMap Source.dataOf = longest.into :=
    List.append_nil _
  have hlen : longest.data.length = 65535 := List.length_replicate
  have hanswers : ∀ a ∈ [Answer.bytes longest.into],
      a = .pending ∨ ∃ data ≠ [], a = .bytes data := by
    intro a ha
    obtain rfl := List.mem_singleton.mp ha
    refine .inr ⟨longest.into, ?_, rfl⟩
    rw [longest, into_of_length List.length_replicate]
    exact List.cons_ne_nil _ _
  have hknown := knownIds_longest
  have hover : Overlong longest.into := by
    have hsend : Overlong ([] ++ (longest.into ++ [])) ↔ _ :=
      overlong_send (by decide) (by omega) []
    rw [List.nil_append, List.append_nil] at hsend
    exact hsend.mpr (.inl (by omega))
  rw [← hbytes] at hknown hover
  exact not_neverEnds hanswers hknown hover (hall _ hanswers hknown)

end RawRadioStream
end ZigbeeStack
