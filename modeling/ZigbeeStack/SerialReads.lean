import ZigbeeStack.SerialProtocol

/-! The first serial driver read by read: what it finds, where it panics, and how the driver that
took its place compares. -/
namespace ZigbeeStack.SerialProtocol
open Bits ByteStreams

structure Drained (bytes rest : List UInt8) (found : List Command) (state : DecoderState)
    (src : List UInt8) : Prop where
  state_at : At src state rest
  items : frames.items bytes = found ++ frames.items rest
  unread : frames.unread bytes = frames.unread rest
  settled : frames.next rest = none ∨
    ∃ command, frames.next rest = some (command, []) ∧ command.data = []
  last : rest = [] → ∀ command ∈ found.getLast?, command.data ≠ []

section Reads
variable {src bytes rest : List UInt8} {state : DecoderState}

theorem next_of_short (h : Short bytes) : frames.next bytes = none := by
  cases hnext : frames.next bytes with
  | none => rfl
  | some next =>
    obtain ⟨header, hheader, -⟩ := firstCommand_eq_some hnext
    obtain ⟨front, rfl, hfront⟩ := split_of_firstHeader hheader
    simp only [Short, List.length_append] at h
    omega

theorem eq_nil_of_items {xs : List UInt8} (hitems : frames.items xs = [])
    (hunread : frames.unread xs = frames.unread []) : xs = [] := by
  rw [Incremental.Decoder.unread_of_items hitems] at hunread
  rw [hunread]
  exact Incremental.Decoder.unread_done rfl

theorem Drained.cons {command : Command} {found : List Command}
    (hnext : frames.next bytes = some (command, rest)) (hmore : rest ≠ [] ∨ command.data ≠ [])
    {rest' : List UInt8} (h : Drained rest rest' found state src) :
    Drained bytes rest' (command :: found) state src where
  state_at := h.state_at
  items := by rw [Incremental.Decoder.items_next hnext, h.items, List.cons_append]
  unread := (Incremental.Decoder.unread_next hnext).trans h.unread
  settled := h.settled
  last := by
    rintro rfl
    cases found with
    | cons first later => simpa using h.last rfl
    | nil =>
      have hrest : rest = [] :=
        eq_nil_of_items (h.items.trans (Incremental.Decoder.items_done rfl)) h.unread
      simpa using hmore.resolve_left (not_not.mpr hrest)

theorem drain_found {self self' : Codec} {command : Command} {count : Nat}
    (h : self.decode src = .ok (some command, self', rest)) :
    self.drain (count + 1) src =
      (self'.drain count rest).map fun out => (command :: out.1, out.2) := by
  rw [Codec.drain, h]
  simp only [bind, Except.bind]
  cases Codec.drain count self' rest <;> rfl

/-- The codec is asked often enough. -/
theorem drain_cases (count : Nat) : ∀ {src bytes : List UInt8} {state : DecoderState},
    At src state bytes →
    (src = bytes ∧ src.length < count) ∨ src.length + 1 < count →
    (Short (frames.unread bytes) ∧ Codec.drain count ⟨state⟩ src = .error .bounds) ∨
      (¬ Short (frames.unread bytes) ∧ ∃ found state' src' rest,
        Codec.drain count ⟨state⟩ src = .ok (found, ⟨state'⟩, src') ∧
          Drained bytes rest found state' src') := by
  induction count with
  | zero =>
    intro src bytes state h hcount
    omega
  | succ count ih =>
    intro src bytes state h hcount
    obtain ⟨hshort, herror⟩ | ⟨hshort, out, hok, hdecoded⟩ := decode_cases h
    · refine .inl ⟨?_, ?_⟩
      · rwa [Incremental.Decoder.unread_done (next_of_short hshort)]
      · rw [Codec.drain, herror]
        rfl
    · cases hdecoded with
      | @found command rest hnext hmore hrest =>
        have hfuel : rest.length < count := by
          obtain ⟨rfl, hlt⟩ | hlt := hcount
          · have hshrinks := frames.shrinks hnext
            omega
          · omega
        rw [Incremental.Decoder.unread_next hnext]
        obtain ⟨hshort, herror⟩ | ⟨hshort, found, state', src', rest', hdrain, hdrained⟩ :=
          ih (.new rest) (.inl ⟨rfl, hfuel⟩)
        · refine .inl ⟨hshort, (drain_found hok).trans ?_⟩
          exact congrArg (Except.map _) herror
        · refine .inr ⟨hshort, command :: found, state', src', rest', (drain_found hok).trans ?_,
            hdrained.cons hnext hmore⟩
          exact congrArg (Except.map _) hdrain
      | @awaits state' rest hat hnext =>
        refine .inr ⟨?_, [], state', rest, bytes, ?_, ⟨hat, rfl, rfl, .inl hnext, by simp⟩⟩
        · rwa [Incremental.Decoder.unread_done hnext]
        · rw [Codec.drain, hok]
          rfl
      | @held state' command hat hnext hempty =>
        refine .inr ⟨?_, [], state', [], bytes, ?_,
          ⟨hat, rfl, rfl, .inr ⟨command, hnext, hempty⟩, by simp⟩⟩
        · rw [Incremental.Decoder.unread_next hnext, Incremental.Decoder.unread_done rfl]
          simp [Short]
        · rw [Codec.drain, hok]
          rfl

theorem At.read (h : At src state bytes) (chunk : List UInt8) :
    At (src ++ chunk) state (bytes ++ chunk) := by
  cases h with
  | @magic noise hnoise hkept =>
    rw [List.append_assoc]
    refine .magic (fun more j hj => ?_) fun hne => ?_
    · rw [← List.append_assoc, List.append_assoc]
      exact hnoise (chunk ++ more) j hj
    · have hlen := hkept hne
      rw [List.length_append]
      omega
  | @header _ before hstate hlength hfirst =>
    have hall := hfirst.of_prefix (by decide) (List.prefix_append _ chunk)
    simp only [List.append_assoc] at hall ⊢
    exact .header hstate hlength hall

theorem Drained.append {chunk more rest' src' : List UInt8} {found later : List Command}
    {state' : DecoderState} (h : Drained (bytes ++ chunk) rest found state src)
    (h' : Drained (rest ++ more) rest' later state' src') :
    Drained (bytes ++ (chunk ++ more)) rest' (found ++ later) state' src' where
  state_at := h'.state_at
  items := by
    rw [← List.append_assoc, Incremental.Decoder.items_append, h.items, h.unread,
      List.append_assoc, ← Incremental.Decoder.items_append, h'.items, List.append_assoc]
  unread := by
    rw [← List.append_assoc, Incremental.Decoder.unread_append_congr h.unread, h'.unread]
  settled := h'.settled
  last := by
    rintro rfl command hcommand
    cases later with
    | cons first rest => exact h'.last rfl command (by simpa using hcommand)
    | nil =>
      have hnil : rest ++ more = [] :=
        eq_nil_of_items (h'.items.trans (Incremental.Decoder.items_done rfl)) h'.unread
      rw [List.append_nil] at hcommand
      exact h.last (List.append_eq_nil_iff.mp hnil).1 command hcommand

/-- A read fails where it leaves one or two bytes behind the last complete command. -/
theorem reads_cases (chunks : List (List UInt8)) :
    ∀ {src bytes : List UInt8} {state : DecoderState}, Drained bytes bytes [] state src →
    ((∃ k < chunks.length, Short (frames.unread (bytes ++ (chunks.take (k + 1)).flatten))) ∧
      Codec.reads ⟨state⟩ src chunks = .error .bounds) ∨
    ((∀ k < chunks.length, ¬ Short (frames.unread (bytes ++ (chunks.take (k + 1)).flatten))) ∧
      ∃ found state' src' rest, Codec.reads ⟨state⟩ src chunks = .ok (found, ⟨state'⟩, src') ∧
        Drained (bytes ++ chunks.flatten) rest found state' src') := by
  induction chunks with
  | nil =>
    intro src bytes state h
    refine .inr ⟨fun k hk => absurd hk (Nat.not_lt_zero _), [], state, src, bytes, rfl, ?_⟩
    rwa [List.flatten_nil, List.append_nil]
  | cons chunk chunks ih =>
    intro src bytes state h
    obtain ⟨hshort, herror⟩ | ⟨hshort, found, state', src', rest, hdrain, hdrained⟩ :=
      drain_cases ((src ++ chunk).length + 2) (h.state_at.read chunk) (.inr (Nat.lt_succ_self _))
    · refine .inl ⟨⟨0, Nat.zero_lt_succ _, by simpa using hshort⟩, ?_⟩
      rw [Codec.reads, herror]
      rfl
    · have hrest : Drained rest rest [] state' src' :=
        ⟨hdrained.state_at, rfl, rfl, hdrained.settled, by simp⟩
      have hunread (more : List UInt8) :
          frames.unread (bytes ++ (chunk ++ more)) = frames.unread (rest ++ more) := by
        rw [← List.append_assoc, Incremental.Decoder.unread_append_congr hdrained.unread]
      obtain ⟨⟨k, hk, hshort'⟩, herror⟩ | ⟨hshort', later, state'', src'', rest', hreads,
        hdrained'⟩ := ih hrest
      · refine .inl ⟨⟨k + 1, by simpa using hk, ?_⟩, ?_⟩
        · rwa [List.take_succ_cons, List.flatten_cons, hunread]
        · rw [Codec.reads, hdrain]
          simp only [bind, Except.bind, herror]
      · refine .inr ⟨fun k hk => ?_, found ++ later, state'', src'', rest', ?_,
          hdrained.append hdrained'⟩
        · rw [List.take_succ_cons, List.flatten_cons, hunread]
          cases k with
          | zero => simpa [hdrained.unread] using hshort
          | succ k =>
            exact hshort' k (by simpa using hk)
        · rw [Codec.reads, hdrain]
          simp only [bind, Except.bind, hreads]
          rfl

end Reads

def EndsEmpty (bytes : List UInt8) : Prop :=
  frames.unread bytes = [] ∧ ∃ command ∈ (frames.items bytes).getLast?, command.data = []

def FindsAll (bytes : List UInt8) (found : List Command) : Prop :=
  (¬ EndsEmpty bytes → found = frames.items bytes) ∧
    (EndsEmpty bytes → ∃ command, command.data = [] ∧ frames.items bytes = found ++ [command])

theorem Drained.found_eq {bytes rest src : List UInt8} {found : List Command}
    {state : DecoderState} (h : Drained bytes rest found state src) : FindsAll bytes found := by
  obtain hnext | ⟨command, hnext, hempty⟩ := h.settled
  · have hitems : frames.items bytes = found := by
      rw [h.items, Incremental.Decoder.items_done hnext, List.append_nil]
    have hunread := h.unread
    rw [Incremental.Decoder.unread_done hnext] at hunread
    refine ⟨fun _ => hitems.symm, fun hends => ?_⟩
    obtain ⟨hnil, command, hlast, hempty⟩ := hends
    rw [hitems] at hlast
    exact absurd hempty (h.last (hunread.symm.trans hnil) command hlast)
  · have hitems : frames.items bytes = found ++ [command] := by
      rw [h.items, Incremental.Decoder.items_next hnext, Incremental.Decoder.items_done rfl]
    have hunread : frames.unread bytes = [] := by
      rw [h.unread, Incremental.Decoder.unread_next hnext, Incremental.Decoder.unread_done rfl]
    refine ⟨fun hends => absurd ⟨hunread, command, ?_, hempty⟩ hends,
      fun _ => ⟨command, hempty, hitems⟩⟩
    simp [hitems]

theorem drained_new : Drained [] [] [] .waitingForMagic [] :=
  ⟨.new [], rfl, rfl, .inl rfl, by simp⟩

theorem reads_new (chunks : List (List UInt8)) :
    ((∃ k ≤ chunks.length, Short (frames.unread (chunks.take k).flatten)) ∧
      Codec.reads .new [] chunks = .error .bounds) ∨
    ((∀ k ≤ chunks.length, ¬ Short (frames.unread (chunks.take k).flatten)) ∧
      ∃ found codec src, Codec.reads .new [] chunks = .ok (found, codec, src) ∧
        FindsAll chunks.flatten found) := by
  obtain ⟨⟨k, hk, hshort⟩, herror⟩ | ⟨hshort, found, state, src, rest, hreads, hdrained⟩ :=
    reads_cases chunks drained_new
  · exact .inl ⟨⟨k + 1, hk, hshort⟩, herror⟩
  · refine .inr ⟨fun k hk => ?_, found, _, src, hreads, hdrained.found_eq⟩
    cases k with
    | zero =>
      rw [List.take_zero, List.flatten_nil, Incremental.Decoder.unread_done rfl]
      decide
    | succ k => exact hshort k hk

/-- The codec panics exactly if some read ends one or two bytes behind a command, or behind the
start. Otherwise it finds all the commands in the bytes, however these are split; only a command
without data that the bytes end with is kept for later. -/
theorem reads_panic_or_find_all (chunks : List (List UInt8)) :
    ((∃ panic, Codec.reads .new [] chunks = .error panic) ↔
      ∃ k ≤ chunks.length, Short (frames.unread (chunks.take k).flatten)) ∧
    ∀ found codec src, Codec.reads .new [] chunks = .ok (found, codec, src) →
      FindsAll chunks.flatten found := by
  obtain ⟨hshort, herror⟩ | ⟨hshort, found, codec, src, hreads, hall⟩ := reads_new chunks
  · refine ⟨⟨fun _ => hshort, fun _ => ⟨_, herror⟩⟩, fun found codec src h => ?_⟩
    cases herror.symm.trans h
  · refine ⟨⟨fun ⟨panic, h⟩ => ?_, fun ⟨k, hk, h⟩ => absurd h (hshort k hk)⟩,
      fun found' codec' src' h => ?_⟩
    · cases hreads.symm.trans h
    · cases hreads.symm.trans h
      exact hall

/-! The driver that took its place. -/
open StreamEvent

/- Two answers with data, whose parts share a read, and one without that the first driver keeps. -/
def answered : List (List UInt8) :=
  [[0x5A, 0x50, 0x42, 0x80, 0, 1, 0, 2, 7],
    [8, 0x5A, 0x50, 0x42, 0x80, 0, 2, 0, 1, 9, 0x5A, 0x50, 0x42], [0x80, 0, 3, 0, 0]]

def firstAnswer : List UInt8 := [0x5A, 0x50, 0x42, 0x80, 0, 1, 0, 2, 7, 8]
def secondAnswer : List UInt8 := [0x5A, 0x50, 0x42, 0x80, 0, 2, 0, 1, 9]
def thirdAnswer : List UInt8 := [0x5A, 0x50, 0x42, 0x80, 0, 3, 0, 0]

theorem answered_flatten : answered.flatten = firstAnswer ++ (secondAnswer ++ thirdAnswer) := rfl

end ZigbeeStack.SerialProtocol
