import ZigbeeStack.Incremental
import ZigbeeStack.RawRadioDecoding

/-! The codec of the first serial driver, a state machine that takes the read buffer apart, and what
a call of it makes of the bytes. -/
namespace ZigbeeStack.SerialProtocol
open Bits ByteStreams

structure Command where
  commandId : UInt8
  requestId : UInt16
  data : List UInt8
deriving DecidableEq, Repr

inductive DecoderState where
  | waitingForMagic
  | waitingForCommandId
  | waitingForRequestId (commandId : UInt8)
  | waitingForLength (commandId : UInt8) (requestId : UInt16)
  | waitingForData (commandId : UInt8) (requestId : UInt16) (length : Nat)
deriving DecidableEq, Repr

structure Codec where
  decoderState : DecoderState
deriving DecidableEq, Repr

def magicPrefix : List UInt8 := [0x5A, 0x50, 0x42]

namespace Codec

def new : Codec := ⟨.waitingForMagic⟩

/- One turn of the loop: whether to keep going, what it found, and what it leaves. Without a prefix
   the last bytes stay, and where there are fewer the subtraction or the advance fails. -/
def turn (self : Codec) (src : List UInt8) :
    Except Panic (Bool × Option Command × Codec × List UInt8) :=
  match self.decoderState with
  | .waitingForMagic =>
    match findSubsequence src magicPrefix with
    | some magicOffset => do
      let src ← sliceFrom src (magicOffset + magicPrefix.length)
      return (true, none, ⟨.waitingForCommandId⟩, src)
    | none =>
      if src.length < magicPrefix.length then .error .bounds
      else do
        let src ← sliceFrom src (src.length - magicPrefix.length)
        return (false, none, ⟨.waitingForMagic⟩, src)
  | .waitingForCommandId =>
    match src with
    | commandId :: src => return (true, none, ⟨.waitingForRequestId commandId⟩, src)
    | [] => return (false, none, self, src)
  | .waitingForRequestId commandId =>
    match src with
    | a :: b :: src =>
      return (true, none, ⟨.waitingForLength commandId (.ofNat (ofBeBytes [a, b]))⟩, src)
    | src => return (false, none, self, src)
  | .waitingForLength commandId requestId =>
    match src with
    | a :: b :: src =>
      let length := (UInt16.ofNat (ofBeBytes [a, b])).toNat
      return (true, none, ⟨.waitingForData commandId requestId length⟩, src)
    | src => return (false, none, self, src)
  | .waitingForData commandId requestId length =>
    if src.length < length then return (false, none, self, src)
    else return (true, some ⟨commandId, requestId, src.take length⟩, ⟨.waitingForMagic⟩,
      src.drop length)

/- The loop goes on as long as nothing is found and there are bytes. -/
def turns : Nat → Codec → List UInt8 → Except Panic (Option Command × Codec × List UInt8)
  | 0, self, src => .ok (none, self, src)
  | count + 1, self, src =>
    if src.isEmpty then .ok (none, self, src)
    else do
      match ← self.turn src with
      | (true, none, self, src) => turns count self src
      | (_, retval, self, src) => return (retval, self, src)

def decode (self : Codec) (src : List UInt8) : Except Panic (Option Command × Codec × List UInt8) :=
  turns 5 self src

/- The codec is asked until it has nothing more. A command takes some of the buffer, except for one
   that only waits for the next byte. -/
def drain : Nat → Codec → List UInt8 → Except Panic (List Command × Codec × List UInt8)
  | 0, self, src => .ok ([], self, src)
  | count + 1, self, src => do
    match ← self.decode src with
    | (some command, self, src) =>
      let (commands, self, src) ← drain count self src
      return (command :: commands, self, src)
    | (none, self, src) => return ([], self, src)

def reads : Codec → List UInt8 → List (List UInt8) →
    Except Panic (List Command × Codec × List UInt8)
  | self, src, [] => .ok ([], self, src)
  | self, src, chunk :: chunks => do
    let src := src ++ chunk
    let (found, self, src) ← self.drain (src.length + 2) src
    let (later, self, src) ← reads self src chunks
    return (found ++ later, self, src)

end Codec

/-! What the bytes hold, apart from how they are read. -/

def firstCommand (bytes : List UInt8) : Option (Command × List UInt8) :=
  (firstHeader bytes).bind fun (header, body) =>
    if header.dataLen.toNat ≤ body.length then
      some (⟨header.tag, header.requestId, body.take header.dataLen.toNat⟩,
        body.drop header.dataLen.toNat)
    else none

section Bytes
variable {bytes rest : List UInt8} {header : Header} {command : Command}

theorem firstCommand_header (data : List UInt8)
    (h : firstHeader bytes = some (header, data ++ rest))
    (hdata : data.length = header.dataLen.toNat) :
    firstCommand bytes = some (⟨header.tag, header.requestId, data⟩, rest) := by
  simp [firstCommand, h, ← hdata]

theorem firstCommand_eq_some (h : firstCommand bytes = some (command, rest)) :
    ∃ header, firstHeader bytes = some (header, command.data ++ rest) ∧
      command.data.length = header.dataLen.toNat ∧
      command = ⟨header.tag, header.requestId, command.data⟩ := by
  obtain ⟨⟨header, body⟩, hheader, h⟩ := Option.bind_eq_some_iff.mp h
  simp only at h
  split at h
  · rename_i hle
    cases h
    exact ⟨header, by rw [List.take_append_drop]; exact hheader, List.length_take_of_le hle, rfl⟩
  · cases h

theorem firstCommand_awaits
    (h : ∀ r ∈ firstHeader bytes, r.2.length < r.1.dataLen.toNat) : firstCommand bytes = none := by
  cases hheader : firstHeader bytes with
  | none => simp [firstCommand, hheader]
  | some r =>
    have hlt := h r hheader
    simp [firstCommand, hheader, Nat.not_le.mpr hlt]

end Bytes

def frames : Incremental.Decoder Command UInt8 where
  next := firstCommand
  shrinks h := by
    obtain ⟨header, hheader, -⟩ := firstCommand_eq_some h
    obtain ⟨front, rfl, hfront⟩ := split_of_firstHeader hheader
    simp only [List.length_append]
    omega
  stable h more := by
    obtain ⟨header, hheader, hdata, heq⟩ := firstCommand_eq_some h
    have hall : firstHeader (_ ++ more) = _ := firstHeader_append hheader
    rw [List.append_assoc] at hall
    rw [firstCommand_header _ hall hdata, ← heq]

/-! The states of the decoder, as places in the bytes. -/

def DecoderState.seen : DecoderState → List UInt8
  | .waitingForMagic | .waitingForCommandId => []
  | .waitingForRequestId commandId => [commandId]
  | .waitingForLength commandId requestId => commandId :: toBeBytes 2 requestId.toNat
  | .waitingForData commandId requestId length =>
    commandId :: (toBeBytes 2 requestId.toNat ++ toBeBytes 2 length)

inductive At (src : List UInt8) : DecoderState → List UInt8 → Prop
  | magic {noise : List UInt8}
      (hnoise : ∀ more j, j < noise.length → ¬ radioMagicPrefix <+: (noise ++ src ++ more).drop j)
      (hkept : noise ≠ [] → 3 ≤ src.length) : At src .waitingForMagic (noise ++ src)
  | header {state : DecoderState} {before : List UInt8} (hstate : state ≠ .waitingForMagic)
      (hlength : ∀ commandId requestId length,
        state = .waitingForData commandId requestId length → length < 65536)
      (hfirst : FirstAt radioMagicPrefix (before ++ (radioMagicPrefix ++ (state.seen ++ src)))
        before.length) :
      At src state (before ++ (radioMagicPrefix ++ (state.seen ++ src)))

def Short (bytes : List UInt8) : Prop := bytes.length = 1 ∨ bytes.length = 2

instance (bytes : List UInt8) : Decidable (Short bytes) := by
  unfold Short
  infer_instance

inductive Decoded (src bytes : List UInt8) : Option Command × Codec × List UInt8 → Prop
  | found {command : Command} {rest : List UInt8} (hnext : frames.next bytes = some (command, rest))
      (hmore : rest ≠ [] ∨ command.data ≠ []) (hrest : rest.length ≤ src.length) :
      Decoded src bytes (some command, .new, rest)
  | awaits {state : DecoderState} {rest : List UInt8} (hat : At rest state bytes)
      (hnext : frames.next bytes = none) : Decoded src bytes (none, ⟨state⟩, rest)
  | held {state : DecoderState} {command : Command} (hat : At [] state bytes)
      (hnext : frames.next bytes = some (command, [])) (hempty : command.data = []) :
      Decoded src bytes (none, ⟨state⟩, [])

section Turns
variable {src bytes : List UInt8}

theorem At.new (src : List UInt8) : At src .waitingForMagic src :=
  @At.magic src [] (fun _ _ h => absurd h (Nat.not_lt_zero _)) (fun h => absurd rfl h)

theorem toBeBytes_pair (a b : UInt8) :
    toBeBytes 2 (UInt16.ofNat (ofBeBytes [a, b])).toNat = [a, b] := by
  have hlt : ofBeBytes [a, b] < 2 ^ 16 := by simpa using ofBeBytes_lt [a, b]
  rw [UInt16.toNat_ofNat_of_lt' hlt]
  exact toBeBytes_ofBeBytes rfl

theorem ofBeBytes_pair {n : Nat} (hn : n < 65536) :
    ∃ a b, toBeBytes 2 n = [a, b] ∧ ofBeBytes [a, b] = n := by
  obtain ⟨a, b, hab⟩ := List.length_eq_two.mp (toBeBytes_length 2 n)
  exact ⟨a, b, hab, hab ▸ ofBeBytes_toBeBytes 2 n (by simpa using hn)⟩

theorem headerAt_seen {commandId : UInt8} {requestId : UInt16} {length : Nat}
    (hlength : length < 65536) :
    headerAt ((DecoderState.waitingForData commandId requestId length).seen ++ src) =
      some (⟨commandId, requestId, .ofNat length⟩, src) := by
  obtain ⟨a, b, hab, hid⟩ := ofBeBytes_pair requestId.toNat_lt
  obtain ⟨c, d, hcd, rfl⟩ := ofBeBytes_pair hlength
  rw [DecoderState.seen, hab, hcd]
  simp only [headerAt, List.cons_append, List.nil_append, hid, UInt16.ofNat_toNat]

theorem At.advance (front : List UInt8) {rest : List UInt8} {state state' : DecoderState}
    (h : At (front ++ rest) state bytes) (hmagic : state ≠ .waitingForMagic)
    (hseen : state'.seen = state.seen ++ front) (hstate : state' ≠ .waitingForMagic)
    (hlength : ∀ commandId requestId length,
      state' = .waitingForData commandId requestId length → length < 65536) :
    At rest state' bytes := by
  cases h with
  | magic _ _ => exact absurd rfl hmagic
  | @header _ before _ _ hfirst =>
    rw [← List.append_assoc state.seen, ← hseen] at hfirst ⊢
    exact .header hstate hlength hfirst

theorem At.header_short {state : DecoderState} (h : At src state bytes)
    (hstate : state ≠ .waitingForMagic) (hshort : state.seen.length + src.length < 5) :
    frames.next bytes = none := by
  cases h with
  | magic _ _ => exact absurd rfl hstate
  | header _ _ hfirst =>
    refine firstCommand_awaits fun r hr => ?_
    rw [firstHeader_found hfirst, headerAt_short (by simpa using hshort)] at hr
    cases hr

theorem turns_stay {count : Nat} {state : DecoderState} (h : At src state bytes)
    (hstate : state ≠ .waitingForMagic) (hshort : state.seen.length + src.length < 5)
    (hturn : src ≠ [] → Codec.turn ⟨state⟩ src = .ok (false, none, ⟨state⟩, src)) :
    ∃ out, Codec.turns (count + 1) ⟨state⟩ src = .ok out ∧ Decoded src bytes out := by
  refine ⟨(none, ⟨state⟩, src), ?_, .awaits h (h.header_short hstate hshort)⟩
  by_cases hempty : src = []
  · simp [Codec.turns, hempty]
  · have hne : src.isEmpty = false := by simpa using hempty
    simp [Codec.turns, hne, hturn hempty, bind, Except.bind, pure, Except.pure]

theorem turns_data (count : Nat) {commandId : UInt8} {requestId : UInt16} {length : Nat}
    (h : At src (.waitingForData commandId requestId length) bytes) :
    ∃ out, Codec.turns (count + 1) ⟨.waitingForData commandId requestId length⟩ src = .ok out ∧
      Decoded src bytes out := by
  have hat := h
  cases h with
  | @header _ before _ hlength hfirst =>
    have hlt := hlength _ _ _ rfl
    have hheader := (firstHeader_found hfirst).trans (headerAt_seen hlt)
    have hnat : (UInt16.ofNat length).toNat = length := UInt16.toNat_ofNat_of_lt' hlt
    by_cases hempty : src = []
    · subst hempty
      refine ⟨_, rfl, ?_⟩
      by_cases hzero : length = 0
      · subst hzero
        exact .held hat (firstCommand_header [] hheader rfl) rfl
      · refine .awaits hat (firstCommand_awaits fun r hr => ?_)
        cases hheader.symm.trans hr
        simp only [hnat, List.length_nil]
        omega
    · have hne : src.isEmpty = false := by simpa using hempty
      by_cases hshort : src.length < length
      · refine ⟨(none, ⟨.waitingForData commandId requestId length⟩, src), ?_, ?_⟩
        · simp [Codec.turns, hne, Codec.turn, hshort, bind, Except.bind, pure, Except.pure]
        · refine .awaits hat (firstCommand_awaits fun r hr => ?_)
          cases hheader.symm.trans hr
          simpa only [hnat] using hshort
      · refine ⟨(some ⟨commandId, requestId, src.take length⟩, .new, src.drop length), ?_, ?_⟩
        · simp [Codec.turns, hne, Codec.turn, hshort, bind, Except.bind, pure, Except.pure,
            Codec.new]
        · have hdata : (src.take length).length = (UInt16.ofNat length).toNat := by
            rw [hnat]
            exact List.length_take_of_le (Nat.le_of_not_lt hshort)
          have hsplit := List.take_append_drop length src
          have hfound := firstCommand_header (src.take length)
            (hheader.trans (by rw [hsplit])) hdata
          refine .found hfound ?_ (by simp)
          by_contra hnot
          obtain ⟨hdrop, htake⟩ := not_or.mp hnot
          rw [not_not] at hdrop htake
          rw [hdrop, List.append_nil] at hsplit
          exact hempty (hsplit.symm.trans htake)

theorem Decoded.mono {src' : List UInt8} {out : Option Command × Codec × List UInt8}
    (h : Decoded src' bytes out) (hle : src'.length ≤ src.length) : Decoded src bytes out := by
  cases h with
  | found hnext hmore hrest => exact .found hnext hmore (hrest.trans hle)
  | awaits hat hnext => exact .awaits hat hnext
  | held hat hnext hempty => exact .held hat hnext hempty

theorem turns_length (count : Nat) {commandId : UInt8} {requestId : UInt16}
    (h : At src (.waitingForLength commandId requestId) bytes) :
    ∃ out, Codec.turns (count + 2) ⟨.waitingForLength commandId requestId⟩ src = .ok out ∧
      Decoded src bytes out := by
  match src, h with
  | [], h | [_], h => exact turns_stay h (by simp) (by simp [DecoderState.seen]) fun _ => rfl
  | a :: b :: rest, h =>
    have hnext : At rest (.waitingForData commandId requestId
        (UInt16.ofNat (ofBeBytes [a, b])).toNat) bytes := by
      refine At.advance [a, b] h (by simp) ?_ (by simp) ?_
      · simp only [DecoderState.seen, toBeBytes_pair, List.cons_append]
      · intro _ _ _ heq
        cases heq
        exact UInt16.toNat_lt _
    obtain ⟨out, hout, hdecoded⟩ := turns_data count hnext
    exact ⟨out, hout, hdecoded.mono (by simp; omega)⟩

theorem turns_requestId (count : Nat) {commandId : UInt8}
    (h : At src (.waitingForRequestId commandId) bytes) :
    ∃ out, Codec.turns (count + 3) ⟨.waitingForRequestId commandId⟩ src = .ok out ∧
      Decoded src bytes out := by
  match src, h with
  | [], h | [_], h => exact turns_stay h (by simp) (by simp [DecoderState.seen]) fun _ => rfl
  | a :: b :: rest, h =>
    have hnext : At rest (.waitingForLength commandId (.ofNat (ofBeBytes [a, b]))) bytes := by
      refine At.advance [a, b] h (by simp) ?_ (by simp) (by simp)
      simp only [DecoderState.seen, toBeBytes_pair, List.cons_append, List.nil_append]
    obtain ⟨out, hout, hdecoded⟩ := turns_length count hnext
    exact ⟨out, hout, hdecoded.mono (by simp; omega)⟩

theorem turns_commandId (count : Nat) (h : At src .waitingForCommandId bytes) :
    ∃ out, Codec.turns (count + 4) ⟨.waitingForCommandId⟩ src = .ok out ∧
      Decoded src bytes out := by
  match src, h with
  | [], h => exact turns_stay h (by simp) (by simp [DecoderState.seen]) fun _ => rfl
  | commandId :: rest, h =>
    have hnext : At rest (.waitingForRequestId commandId) bytes :=
      At.advance [commandId] h (by simp) rfl (by simp) (by simp)
    obtain ⟨out, hout, hdecoded⟩ := turns_requestId count hnext
    exact ⟨out, hout, hdecoded.mono (by simp)⟩

theorem firstAt_noise {noise : List UInt8} {k : Nat}
    (hnoise : ∀ more j, j < noise.length → ¬ radioMagicPrefix <+: (noise ++ src ++ more).drop j)
    (h : FirstAt radioMagicPrefix src k) : FirstAt radioMagicPrefix (noise ++ src)
      (noise.length + k) := by
  refine ⟨by simpa [← List.drop_drop] using h.1, fun j hj hocc => ?_⟩
  rcases Nat.lt_or_ge j noise.length with hlt | hge
  · exact hnoise [] j hlt (by simpa using hocc)
  · obtain ⟨i, rfl⟩ := Nat.exists_eq_add_of_le hge
    refine h.2 i (by omega) ?_
    simpa [← List.drop_drop] using hocc

theorem absent_noise {noise : List UInt8}
    (hnoise : ∀ more j, j < noise.length → ¬ radioMagicPrefix <+: (noise ++ src ++ more).drop j)
    (habsent : ¬ radioMagicPrefix <:+: src) : frames.next (noise ++ src) = none := by
  have hdrop := @firstHeader_drop (noise ++ src) noise.length
    fun j hj => by simpa using hnoise [] j hj
  rw [List.drop_left, firstHeader_absent habsent] at hdrop
  exact firstCommand_awaits fun r hr => by cases hdrop.trans hr

theorem At.give_up {noise : List UInt8}
    (hnoise : ∀ more j, j < noise.length → ¬ radioMagicPrefix <+: (noise ++ src ++ more).drop j)
    (habsent : ¬ radioMagicPrefix <:+: src) (hlen : 3 ≤ src.length) :
    At (src.drop (src.length - 3)) .waitingForMagic (noise ++ src) := by
  have hsplit : noise ++ src =
      noise ++ src.take (src.length - 3) ++ src.drop (src.length - 3) := by
    rw [List.append_assoc, List.take_append_drop]
  rw [hsplit]
  refine .magic (fun more j hj hocc => ?_) fun _ => by rw [List.length_drop]; omega
  rw [← hsplit] at hocc
  rcases Nat.lt_or_ge j noise.length with hlt | hge
  · exact hnoise more j hlt hocc
  ·
    obtain ⟨i, rfl⟩ := Nat.exists_eq_add_of_le hge
    rw [List.length_append, List.length_take] at hj
    rw [List.append_assoc, ← List.drop_drop, List.drop_left,
      List.drop_append_of_le_length (by omega)] at hocc
    refine habsent (infix_of_prefix_drop (i := i) ?_)
    refine List.prefix_of_prefix_length_le hocc (List.prefix_append _ _) ?_
    rw [List.length_drop]
    simp only [radioMagicPrefix, List.length_cons, List.length_nil]
    omega

/-- The first turn looks for a prefix, and fails where there are bytes, but not enough. -/
theorem turns_magic (count : Nat) (h : At src .waitingForMagic bytes) :
    if Short bytes then Codec.turns (count + 5) .new src = .error .bounds
    else ∃ out, Codec.turns (count + 5) .new src = .ok out ∧ Decoded src bytes out := by
  cases h with
  | header hstate _ _ => exact absurd rfl hstate
  | @magic noise hnoise hkept =>
    by_cases hpre : radioMagicPrefix <:+: src
    · obtain ⟨k, hk⟩ := exists_firstAt hpre
      obtain ⟨before, found, rfl, rfl, rest, rfl⟩ := hk.split (by decide)
      have hall := firstAt_noise hnoise hk
      have hbytes : noise ++ (before ++ (radioMagicPrefix ++ rest)) =
          (noise ++ before) ++ (radioMagicPrefix ++
            (DecoderState.waitingForCommandId.seen ++ rest)) := by
        simp [DecoderState.seen]
      have hat : At rest .waitingForCommandId
          (noise ++ (before ++ (radioMagicPrefix ++ rest))) := by
        rw [← List.length_append] at hall
        rw [hbytes] at hall ⊢
        exact .header (by simp) (by simp) hall
      rw [if_neg (by simp [Short, radioMagicPrefix]; omega)]
      obtain ⟨out, hout, hdecoded⟩ := turns_commandId count hat
      refine ⟨out, ?_, hdecoded.mono (by simp; omega)⟩
      have hne : (before ++ (radioMagicPrefix ++ rest)).isEmpty = false := by
        simp [radioMagicPrefix]
      have hfind : findSubsequence (before ++ (radioMagicPrefix ++ rest)) magicPrefix =
          some before.length := findSubsequence_eq_some (by decide) hk
      have hslice : sliceFrom (before ++ (radioMagicPrefix ++ rest))
          (before.length + magicPrefix.length) = .ok rest := by
        rw [← List.append_assoc, sliceFrom, if_pos (by simp [magicPrefix, radioMagicPrefix]),
          List.drop_left' (by simp [magicPrefix, radioMagicPrefix])]
      have hturn : Codec.turn .new (before ++ (radioMagicPrefix ++ rest)) =
          .ok (true, none, ⟨.waitingForCommandId⟩, rest) := by
        simp only [Codec.turn, Codec.new, hfind, hslice]
        rfl
      rw [Codec.turns, hne, hturn]
      exact hout
    · have hnone := absent_noise hnoise hpre
      have hfind : findSubsequence src magicPrefix = none := findSubsequence_eq_none hpre
      rcases Nat.lt_or_ge src.length 3 with hlt | hge
      · have hnil : noise = [] := by
          by_contra hne
          exact absurd (hkept hne) (Nat.not_le.mpr hlt)
        subst hnil
        by_cases hempty : src = []
        · subst hempty
          exact ⟨_, rfl, .awaits (.new []) hnone⟩
        · have hne : src.isEmpty = false := by simpa using hempty
          have hpos := List.length_pos_iff.mpr hempty
          rw [if_pos (by simp only [Short, List.nil_append]; omega)]
          have hturn : Codec.turn .new src = .error .bounds := by
            simp only [Codec.turn, Codec.new, hfind]
            exact if_pos hlt
          rw [Codec.turns, hne, hturn]
          rfl
      · have hne : src.isEmpty = false := by
          rw [List.isEmpty_eq_false_iff_exists_mem]
          exact List.exists_mem_of_length_pos (by omega)
        rw [if_neg (by simp only [Short, List.length_append]; omega)]
        refine ⟨(none, .new, src.drop (src.length - 3)), ?_,
          .awaits (.give_up hnoise hpre hge) hnone⟩
        have hturn : Codec.turn .new src =
            .ok (false, none, .new, src.drop (src.length - 3)) := by
          have hlong : ¬ src.length < magicPrefix.length := Nat.not_lt.mpr hge
          simp only [Codec.turn, Codec.new, hfind]
          rw [if_neg hlong, sliceFrom, if_pos (Nat.sub_le _ _)]
          rfl
        rw [Codec.turns, hne, hturn]
        rfl

/-- The codec panics with one or two bytes before it, and does what it should with all others. -/
theorem decode_cases {state : DecoderState} (h : At src state bytes) :
    (Short bytes ∧ Codec.decode ⟨state⟩ src = .error .bounds) ∨
      (¬ Short bytes ∧ ∃ out, Codec.decode ⟨state⟩ src = .ok out ∧ Decoded src bytes out) := by
  have hlong (hstate : state ≠ .waitingForMagic) : ¬ Short bytes := by
    cases h with
    | magic _ _ => exact absurd rfl hstate
    | header _ _ _ =>
      simp only [Short, List.length_append, radioMagicPrefix, List.length_cons, List.length_nil]
      omega
  cases state with
  | waitingForMagic =>
    have hmagic := turns_magic 0 h
    split at hmagic
    · rename_i hshort
      exact .inl ⟨hshort, hmagic⟩
    · rename_i hshort
      exact .inr ⟨hshort, hmagic⟩
  | waitingForCommandId => exact .inr ⟨hlong (by simp), turns_commandId 1 h⟩
  | waitingForRequestId commandId => exact .inr ⟨hlong (by simp), turns_requestId 2 h⟩
  | waitingForLength commandId requestId => exact .inr ⟨hlong (by simp), turns_length 3 h⟩
  | waitingForData commandId requestId length => exact .inr ⟨hlong (by simp), turns_data 4 h⟩

end Turns

end ZigbeeStack.SerialProtocol
