import ZigbeeStack.RadioValues

/-! The start of the MAC: what `MacData::new` asks of the radio, one request at a time, and the PIB
that it makes of the answers. -/
namespace ZigbeeStack
open Radio Runs

/-! The waits of `SyncRadio`. Each takes one response from the stream and gives the result if it
is the answer that it waits for; its loop lets all others go by. -/
namespace SyncRadio

def getParamResult (token : UniqueKey) :
    Radio.RadioResponse → Option (Except RadioError RadioParamValue)
  | .getParam responseToken _ result => if token = responseToken then some result else none
  | _ => none

def setParamResult (token : UniqueKey) : Radio.RadioResponse → Option (Except RadioError Unit)
  | .setParam responseToken _ result =>
    if token = responseToken then some (result.map fun _ => ()) else none
  | _ => none

def setPowerResult (token : UniqueKey) : Radio.RadioResponse → Option (Except RadioError Unit)
  | .setPower responseToken _ result => if token = responseToken then some result else none
  | _ => none

end SyncRadio

inductive StartUpStage where
  | longAddress
  | txPowerMax (extendedAddress : ExtendedAddress)
  | channel (extendedAddress : ExtendedAddress) (maxTxPower : UInt16)
  | rxMode (extendedAddress : ExtendedAddress) (maxTxPower currentChannel : UInt16)
  | power (extendedAddress : ExtendedAddress) (maxTxPower currentChannel : UInt16)
deriving DecidableEq, Repr

inductive StartUp where
  | sending (stage : StartUpStage)
  | waiting (stage : StartUpStage) (token : UniqueKey)
  | started (pib : PIB)
  | panicked (panic : Panic)
deriving DecidableEq, Repr

namespace StartUpStage

def request (token : UniqueKey) : StartUpStage → Radio.RadioRequest
  | .longAddress => .getParam token .longAddress .u64
  | .txPowerMax _ => .getParam token .txPowerMax .u16
  | .channel _ _ => .getParam token .channel .u16
  | .rxMode _ _ _ => .setParam token .rxMode (RadioRxMode.mk true true false).toValue
  | .power _ _ _ => .setPower token true

/- `get_param` takes no notice of a request that cannot be sent; the other two unwrap. -/
def unsent (token : UniqueKey) : StartUpStage → StartUp
  | .rxMode _ _ _ | .power _ _ _ => .panicked .unwrap
  | stage => .waiting stage token

/-- What comes of one response. `bsn` and `dsn` are the random numbers of the new PIB. -/
def receive (token : UniqueKey) (response : Radio.RadioResponse) (bsn dsn : UInt8) :
    StartUpStage → StartUp
  | .longAddress =>
    match SyncRadio.getParamResult token response with
    | none => .waiting .longAddress token
    | some result =>
      match result.bind RadioParamValue.tryIntoU64 with
      | .ok extendedAddress => .sending (.txPowerMax ⟨extendedAddress⟩)
      | .error _ => .panicked .unwrap
  | .txPowerMax extendedAddress =>
    match SyncRadio.getParamResult token response with
    | none => .waiting (.txPowerMax extendedAddress) token
    | some result =>
      match result.bind RadioParamValue.tryIntoU16 with
      | .ok maxTxPower => .sending (.channel extendedAddress maxTxPower)
      | .error _ => .panicked .unwrap
  | .channel extendedAddress maxTxPower =>
    match SyncRadio.getParamResult token response with
    | none => .waiting (.channel extendedAddress maxTxPower) token
    | some result =>
      match result.bind RadioParamValue.tryIntoU16 with
      | .ok currentChannel => .sending (.rxMode extendedAddress maxTxPower currentChannel)
      | .error _ => .panicked .unwrap
  | .rxMode extendedAddress maxTxPower currentChannel =>
    match SyncRadio.setParamResult token response with
    | none => .waiting (.rxMode extendedAddress maxTxPower currentChannel) token
    | some (.ok ()) => .sending (.power extendedAddress maxTxPower currentChannel)
    | some (.error _) => .panicked .unwrap
  | .power extendedAddress maxTxPower currentChannel =>
    match SyncRadio.setPowerResult token response with
    | none => .waiting (.power extendedAddress maxTxPower currentChannel) token
    | some (.ok ()) => .started (.new extendedAddress currentChannel maxTxPower bsn dsn)
    | some (.error _) => .panicked .unwrap

end StartUpStage

namespace StartUp

structure World where
  requests : Sink Radio.RadioRequest
  task : StartUp
deriving DecidableEq

/- What the stream of responses gives: its end, over and over, a packet, or what the driver makes
of an answer of the radio to a request. -/
inductive Received where
  | closed
  | packet (packet : RadioPacket)
  | answer (request : Radio.RadioRequest) (answer : Answered)
deriving DecidableEq

def Received.response : Received → Option Radio.RadioResponse
  | .closed => none
  | .packet p => some (.onPacket p)
  | .answer request a => some (request.intoRaw.2.2 a)

inductive Event where
  | send (token : UniqueKey)
  | receive (received : Received) (bsn dsn : UInt8)
  | dropRequests
deriving DecidableEq

def World.start : World := ⟨.new, .sending .longAddress⟩

def step (w : World) : Event → Option (World × Unit)
  | .send token =>
    match w.task with
    | .sending stage =>
      match w.requests.send (stage.request token) with
      | .ok requests => some (⟨requests, .waiting stage token⟩, ())
      | .error _ => some ({ w with task := stage.unsent token }, ())
    | _ => none
  | .receive received bsn dsn =>
    match w.task with
    | .waiting stage token =>
      match received.response with
      | some response => some ({ w with task := stage.receive token response bsn dsn }, ())
      | none => some (w, ())
    | _ => none
  | .dropRequests => some ({ w with requests := w.requests.close }, ())

end StartUp

def Radio.RadioRequest.token : Radio.RadioRequest → UniqueKey
  | .setParam token _ _ | .getParam token _ _ | .initPendingDataTable token | .setPower token _
  | .sendPacket token _ | .setPendingShort token _ _ | .setPendingExtended token _ _ => token

namespace StartUp

/- Tokens are new, and the driver answers what it was asked, at any time and any number of times. -/
def Rely (_ : History World Event Unit) (w : World) : Event → Prop
  | .send token => token ∉ w.requests.items.map Radio.RadioRequest.token
  | .receive (.answer request _) _ _ => request ∈ w.requests.items
  | _ => True

instance (h : History World Event Unit) (w : World) (e : Event) : Decidable (Rely h w e) := by
  unfold Rely
  split <;> infer_instance

def heard (t : Transition World Event Unit) : Option Answered :=
  match t.before.task, t.event with
  | .waiting stage token, .receive (.answer request answer) _ _ =>
    if request = stage.request token then some answer else none
  | _, _ => none

def answers (h : History World Event Unit) : List Answered := (h.filterMap heard).reverse

def requestsOf (tokens : List UniqueKey) : List Radio.RadioRequest :=
  List.zipWith (fun request token => request token)
    [(.getParam · .longAddress .u64), (.getParam · .txPowerMax .u16), (.getParam · .channel .u16),
      (.setParam · .rxMode (RadioRxMode.mk true true false).toValue), (.setPower · true)] tokens

end StartUp

structure RadioInfo where
  longAddress : UInt64
  txPowerMax : UInt16
  channel : UInt16

def RadioInfo.answers (info : RadioInfo) : List Answered :=
  [.ok ([0, 0] ++ valueBytes (.u64 info.longAddress)),
    .ok ([0, 0] ++ valueBytes (.u16 info.txPowerMax)),
    .ok ([0, 0] ++ valueBytes (.u16 info.channel)), .ok [0, 0], .ok [0, 1]]

def RadioInfo.pib (info : RadioInfo) (bsn dsn : UInt8) : PIB :=
  .new ⟨info.longAddress⟩ info.channel info.txPowerMax bsn dsn

namespace SyncRadio
variable {request : Radio.RadioRequest} {token : UniqueKey} {answer : Answered}

theorem getParamResult_other (h : request.token ≠ token) :
    getParamResult token (request.intoRaw.2.2 answer) = none := by
  cases request with
  | getParam responseToken _ _ => exact if_neg (Ne.symm h)
  | _ => rfl

theorem setParamResult_other (h : request.token ≠ token) :
    setParamResult token (request.intoRaw.2.2 answer) = none := by
  cases request with
  | setParam responseToken _ _ => exact if_neg (Ne.symm h)
  | _ => rfl

theorem setPowerResult_other (h : request.token ≠ token) :
    setPowerResult token (request.intoRaw.2.2 answer) = none := by
  cases request with
  | setPower responseToken _ => exact if_neg (Ne.symm h)
  | _ => rfl

end SyncRadio

/-- An answer to a get is a value of the type that was asked for, or the parser refuses it. -/
theorem Radio.getParam_cases (paramType : RadioParamType) (answer : Answered) :
    (∃ value : RadioParamValue, value.paramType = paramType ∧
      answer = .ok ([0, 0] ++ valueBytes value) ∧
      unpackResultGetParam paramType answer = .ok value) ∨
    (∃ e, unpackResultGetParam paramType answer = .error e) ∧
      ∀ value : RadioParamValue, value.paramType = paramType →
        answer ≠ .ok ([0, 0] ++ valueBytes value) := by
  cases h : unpackResultGetParam paramType answer with
  | ok value =>
    obtain ⟨htype, hanswer⟩ := unpackResultGetParam_eq_ok.mp h
    exact .inl ⟨value, htype.symm, hanswer, rfl⟩
  | error e =>
    refine .inr ⟨⟨e, rfl⟩, fun value htype hanswer => ?_⟩
    cases h.symm.trans (unpackResultGetParam_eq_ok.mpr ⟨htype.symm, hanswer⟩)

namespace StartUpStage

def position : StartUpStage → Nat
  | .longAddress => 0
  | .txPowerMax _ => 1
  | .channel _ _ => 2
  | .rxMode _ _ _ => 3
  | .power _ _ _ => 4

def info : StartUpStage → RadioInfo
  | .longAddress => ⟨0, 0, 0⟩
  | .txPowerMax extendedAddress => ⟨extendedAddress.value, 0, 0⟩
  | .channel extendedAddress maxTxPower => ⟨extendedAddress.value, maxTxPower, 0⟩
  | .rxMode extendedAddress maxTxPower currentChannel
  | .power extendedAddress maxTxPower currentChannel =>
    ⟨extendedAddress.value, maxTxPower, currentChannel⟩

def answers (stage : StartUpStage) : List Answered := stage.info.answers.take stage.position

theorem answers_length (stage : StartUpStage) : stage.answers.length = stage.position := by
  cases stage <;> rfl

/-- A good answer to the request of a stage. -/
theorem good_answer {stage : StartUpStage} {answer : Answered} {info : RadioInfo}
    (h : stage.answers ++ [answer] <+: info.answers) :
    info.answers[stage.position]? = some answer := by
  obtain ⟨later, hlater⟩ := h
  rw [← hlater, ← answers_length]
  simp

def Heard (stage : StartUpStage) (answer : Answered) (bsn dsn : UInt8) : StartUp → Prop
  | .sending stage' =>
    stage'.answers = stage.answers ++ [answer] ∧ stage'.position = stage.position + 1
  | .waiting _ _ => False
  | .started pib =>
    stage.position = 4 ∧ ∃ info : RadioInfo, stage.answers ++ [answer] = info.answers ∧
      pib = info.pib bsn dsn
  | .panicked _ => ∀ info : RadioInfo, ¬ stage.answers ++ [answer] <+: info.answers

variable {stage : StartUpStage} {token : UniqueKey}

theorem receive_own (answer : Answered) (bsn dsn : UInt8) :
    stage.Heard answer bsn dsn
      (stage.receive token ((stage.request token).intoRaw.2.2 answer) bsn dsn) := by
  cases stage with
  | longAddress =>
    have hraw : ((longAddress.request token).intoRaw.2.2 answer) =
        .getParam token .longAddress (unpackResultGetParam .u64 answer) := rfl
    simp only [hraw, receive, SyncRadio.getParamResult, if_pos]
    rcases getParam_cases .u64 answer with ⟨value, htype, rfl, hok⟩ | ⟨⟨e, herr⟩, hbad⟩
    · cases value with
      | u64 x =>
        rw [hok]
        exact ⟨rfl, rfl⟩
      | u16 _ | u32 _ => cases htype
    · rw [herr]
      intro info hgood
      exact hbad (.u64 info.longAddress) rfl (Option.some.inj (good_answer hgood)).symm
  | txPowerMax a =>
    have hraw : (((txPowerMax a).request token).intoRaw.2.2 answer) =
        .getParam token .txPowerMax (unpackResultGetParam .u16 answer) := rfl
    simp only [hraw, receive, SyncRadio.getParamResult, if_pos]
    rcases getParam_cases .u16 answer with ⟨value, htype, rfl, hok⟩ | ⟨⟨e, herr⟩, hbad⟩
    · cases value with
      | u16 x =>
        rw [hok]
        exact ⟨rfl, rfl⟩
      | u32 _ | u64 _ => cases htype
    · rw [herr]
      intro info hgood
      exact hbad (.u16 info.txPowerMax) rfl (Option.some.inj (good_answer hgood)).symm
  | channel a p =>
    have hraw : (((channel a p).request token).intoRaw.2.2 answer) =
        .getParam token .channel (unpackResultGetParam .u16 answer) := rfl
    simp only [hraw, receive, SyncRadio.getParamResult, if_pos]
    rcases getParam_cases .u16 answer with ⟨value, htype, rfl, hok⟩ | ⟨⟨e, herr⟩, hbad⟩
    · cases value with
      | u16 x =>
        rw [hok]
        exact ⟨rfl, rfl⟩
      | u32 _ | u64 _ => cases htype
    · rw [herr]
      intro info hgood
      exact hbad (.u16 info.channel) rfl (Option.some.inj (good_answer hgood)).symm
  | rxMode a p c =>
    have hraw : (((rxMode a p c).request token).intoRaw.2.2 answer) =
        .setParam token .rxMode
          (unpackResultSetParam (RadioRxMode.mk true true false).toValue answer) := rfl
    simp only [hraw, receive, SyncRadio.setParamResult, if_pos]
    cases hset : unpackResultSetParam (RadioRxMode.mk true true false).toValue answer with
    | ok value =>
      obtain ⟨-, rfl⟩ := unpackResultSetParam_eq_ok.mp hset
      exact ⟨rfl, rfl⟩
    | error e =>
      intro info hgood
      have hanswer := Option.some.inj (good_answer hgood)
      cases hset.symm.trans (unpackResultSetParam_eq_ok.mpr ⟨rfl, hanswer.symm⟩)
  | power a p c =>
    have hraw : (((power a p c).request token).intoRaw.2.2 answer) =
        .setPower token true (unpackResultOnlyRetval 1 answer) := rfl
    simp only [hraw, receive, SyncRadio.setPowerResult, if_pos]
    cases hset : unpackResultOnlyRetval 1 answer with
    | ok _ =>
      obtain rfl := unpackResultOnlyRetval_eq_ok.mp hset
      exact ⟨rfl, ⟨a.value, p, c⟩, rfl, rfl⟩
    | error e =>
      intro info hgood
      have hanswer := Option.some.inj (good_answer hgood)
      cases hset.symm.trans (unpackResultOnlyRetval_eq_ok.mpr hanswer.symm)

/-- An answer to another request goes by. -/
theorem receive_other {request : Radio.RadioRequest} (h : request.token ≠ token)
    (answer : Answered) (bsn dsn : UInt8) :
    stage.receive token (request.intoRaw.2.2 answer) bsn dsn = .waiting stage token := by
  cases stage with
  | longAddress => rw [receive, SyncRadio.getParamResult_other h]
  | txPowerMax a => rw [receive, SyncRadio.getParamResult_other h]
  | channel a p => rw [receive, SyncRadio.getParamResult_other h]
  | rxMode a p c => rw [receive, SyncRadio.setParamResult_other h]
  | power a p c => rw [receive, SyncRadio.setPowerResult_other h]

theorem receive_packet (packet : RadioPacket) (bsn dsn : UInt8) :
    stage.receive token (.onPacket packet) bsn dsn = .waiting stage token := by
  cases stage <;> rfl

end StartUpStage

namespace StartUp
open StartUpStage

theorem requestsOf_snoc {stage : StartUpStage} {tokens : List UniqueKey} {token : UniqueKey}
    (h : tokens.length = stage.position) :
    requestsOf (tokens ++ [token]) = requestsOf tokens ++ [stage.request token] := by
  match stage, tokens, h with
  | .longAddress, [], _ => rfl
  | .txPowerMax _, [_], _ => rfl
  | .channel _ _, [_, _], _ => rfl
  | .rxMode _ _ _, [_, _, _], _ => rfl
  | .power _ _ _, [_, _, _, _], _ => rfl

theorem requestsOf_tokens {tokens : List UniqueKey} (h : tokens.length ≤ 5) :
    (requestsOf tokens).map Radio.RadioRequest.token = tokens := by
  match tokens, h with
  | [], _ => rfl
  | [_], _ => rfl
  | [_, _], _ => rfl
  | [_, _, _], _ => rfl
  | [_, _, _, _], _ => rfl
  | [_, _, _, _, _], _ => rfl

theorem position_lt (stage : StartUpStage) : stage.position < 5 := by
  cases stage <;> simp [position]

def Follows (tokens : List UniqueKey) (heard : List Answered) (closed : Bool) : StartUp → Prop
  | .sending stage => heard = stage.answers ∧ tokens.length = stage.position
  | .waiting stage token => heard = stage.answers ∧
    ((∃ before, tokens = before ++ [token] ∧ before.length = stage.position) ∨
      closed = true ∧ token ∉ tokens ∧ tokens.length = stage.position)
  | .started pib => tokens.length = 5 ∧
    ∃ (info : RadioInfo) (bsn dsn : UInt8), heard = info.answers ∧ pib = info.pib bsn dsn
  | .panicked _ => tokens.length ≤ heard.length + 1 ∧ tokens.length ≤ 5 ∧
    (closed = true ∨ ∀ info : RadioInfo, ¬ heard <+: info.answers)

theorem Follows.length_le {tokens : List UniqueKey} {heard : List Answered} {closed : Bool}
    {task : StartUp} (h : task.Follows tokens heard closed) :
    tokens.length ≤ 5 ∧ tokens.length ≤ heard.length + 1 := by
  cases task with
  | sending stage =>
    obtain ⟨rfl, hlen⟩ := h
    have := position_lt stage
    rw [answers_length]
    omega
  | waiting stage token =>
    obtain ⟨rfl, hwait⟩ := h
    have := position_lt stage
    rw [answers_length]
    rcases hwait with ⟨before, rfl, hlen⟩ | ⟨-, -, hlen⟩
    · simp only [List.length_append, List.length_cons, List.length_nil]
      omega
    · omega
  | started pib =>
    obtain ⟨hlen, info, bsn, dsn, rfl, -⟩ := h
    have : info.answers.length = 5 := rfl
    omega
  | panicked panic => exact ⟨h.2.1, h.1⟩

/-- Closing the channel takes nothing back. -/
theorem Follows.close {tokens : List UniqueKey} {heard : List Answered} {closed : Bool}
    {task : StartUp} (h : task.Follows tokens heard closed) :
    task.Follows tokens heard true := by
  cases task with
  | sending stage => exact h
  | waiting stage token => exact ⟨h.1, h.2.imp_right fun hc => ⟨rfl, hc.2⟩⟩
  | started pib => exact h
  | panicked panic => exact ⟨h.1, h.2.1, .inl rfl⟩

/-- After an answer to its own request the task is where the answers say. -/
theorem Follows.hear {stage : StartUpStage} {before : List UniqueKey} {token : UniqueKey}
    {closed : Bool} (hlen : before.length = stage.position) (answer : Answered) (bsn dsn : UInt8) :
    (stage.receive token ((stage.request token).intoRaw.2.2 answer) bsn dsn).Follows
      (before ++ [token]) (stage.answers ++ [answer]) closed := by
  have hown : stage.Heard answer bsn dsn
      (stage.receive token ((stage.request token).intoRaw.2.2 answer) bsn dsn) :=
    receive_own answer bsn dsn
  have hcount : (before ++ [token]).length = stage.position + 1 := by simp [hlen]
  generalize stage.receive token ((stage.request token).intoRaw.2.2 answer) bsn dsn = task at hown
  cases task with
  | sending stage' => exact ⟨hown.1.symm, hcount.trans hown.2.symm⟩
  | waiting stage' token' => exact hown.elim
  | started pib =>
    obtain ⟨hlast, info, hanswers, hpib⟩ := hown
    exact ⟨by omega, info, bsn, dsn, hanswers, hpib⟩
  | panicked panic =>
    have := position_lt stage
    refine ⟨?_, by omega, .inr hown⟩
    rw [hcount, List.length_append, answers_length]
    simp

/-- While the task waits, a request that was sent is its own or has another token. -/
theorem Follows.own_or_other {stage : StartUpStage} {token : UniqueKey} {tokens : List UniqueKey}
    {past : List Answered} {closed : Bool}
    (h : (StartUp.waiting stage token).Follows tokens past closed) (hnodup : tokens.Nodup)
    {request : Radio.RadioRequest} (hmem : request ∈ requestsOf tokens) :
    (request = stage.request token ∧
      ∃ before, tokens = before ++ [token] ∧ before.length = stage.position) ∨
    request.token ≠ token := by
  have hlen := h.length_le.1
  obtain ⟨-, ⟨before, rfl, hpos⟩ | ⟨-, hno, -⟩⟩ := h
  · rw [requestsOf_snoc hpos, List.mem_append, List.mem_singleton] at hmem
    rcases hmem with hbefore | rfl
    · refine .inr fun heq => ?_
      have hlen' : before.length ≤ 5 := by simp at hlen; omega
      have hin : token ∈ before := by
        rw [← requestsOf_tokens hlen', ← heq]
        exact List.mem_map_of_mem hbefore
      exact (List.nodup_append.mp hnodup).2.2 token hin token (by simp) rfl
    · exact .inl ⟨rfl, before, rfl, hpos⟩
  · refine .inr fun heq => hno ?_
    rw [← requestsOf_tokens hlen, ← heq]
    exact List.mem_map_of_mem hmem

def Inv (w : World) (heard : List Answered) : Prop :=
  ∃ tokens : List UniqueKey, tokens.Nodup ∧ w.requests.items = requestsOf tokens ∧
    w.task.Follows tokens heard w.requests.closed

theorem answers_cons (t : Transition World Event Unit) (h : History World Event Unit) :
    answers (t :: h) = answers h ++ (heard t).toList := by
  unfold answers
  rw [List.filterMap_cons]
  cases heard t <;> simp

theorem Inv.send {w w' : World} {heard : List Answered} {token : UniqueKey} {o : Unit}
    (hi : Inv w heard) (hnew : token ∉ w.requests.items.map Radio.RadioRequest.token)
    (hs : step w (.send token) = some (w', o)) : Inv w' heard := by
  obtain ⟨tokens, hnodup, hitems, htask⟩ := hi
  rw [hitems, requestsOf_tokens htask.length_le.1] at hnew
  obtain ⟨⟨closed, items⟩, task⟩ := w
  cases task with
  | sending stage =>
    obtain ⟨hheard, hlen⟩ := htask
    cases closed with
    | false =>
      cases hs
      refine ⟨tokens ++ [token], hnodup.append (by simp) (by simpa using hnew), ?_, hheard,
        .inl ⟨tokens, rfl, hlen⟩⟩
      exact (congrArg (· ++ [stage.request token]) hitems).trans (requestsOf_snoc hlen).symm
    | true =>
      cases hs
      refine ⟨tokens, hnodup, hitems, ?_⟩
      have hwait : (StartUp.waiting stage token).Follows tokens heard true :=
        ⟨hheard, .inr ⟨rfl, hnew, hlen⟩⟩
      have hpanic : (StartUp.panicked .unwrap).Follows tokens heard true := by
        have := position_lt stage
        refine ⟨?_, by omega, .inl rfl⟩
        rw [hheard, answers_length]
        omega
      cases stage with
      | rxMode a p c => exact hpanic
      | power a p c => exact hpanic
      | _ => exact hwait
  | _ => cases hs

theorem Inv.receive {w w' : World} {past : List Answered} {received : Received}
    {bsn dsn : UInt8} {o : Unit} (hi : Inv w past)
    (hrely : ∀ request answer, received = .answer request answer → request ∈ w.requests.items)
    (hs : step w (.receive received bsn dsn) = some (w', o)) :
    Inv w' (past ++ (heard ⟨w, .receive received bsn dsn, o, w'⟩).toList) := by
  obtain ⟨tokens, hnodup, hitems, htask⟩ := hi
  obtain ⟨⟨closed, items⟩, task⟩ := w
  cases task with
  | waiting stage token =>
    cases received with
    | closed =>
      cases hs
      exact ⟨tokens, hnodup, hitems, by simpa [heard] using htask⟩
    | packet p =>
      simp only [step, Received.response, receive_packet] at hs
      cases hs
      exact ⟨tokens, hnodup, hitems, by simpa [heard] using htask⟩
    | answer request answer =>
      have hmem : request ∈ requestsOf tokens := hitems ▸ hrely request answer rfl
      simp only [step, Received.response] at hs
      cases hs
      rcases htask.own_or_other hnodup hmem with ⟨rfl, before, rfl, hlen⟩ | hother
      · obtain ⟨rfl, -⟩ := htask
        refine ⟨before ++ [token], hnodup, hitems, ?_⟩
        simp only [heard, if_pos, Option.toList_some]
        exact .hear hlen answer bsn dsn
      · have hne : request ≠ stage.request token := by
          rintro rfl
          exact hother (by cases stage <;> rfl)
        refine ⟨tokens, hnodup, hitems, ?_⟩
        simpa only [heard, if_neg hne, Option.toList_none, List.append_nil,
          receive_other hother] using htask
  | _ => cases hs

theorem inv_of_run {h : History World Event Unit} {w : World} (hr : Run step Rely .start h w) :
    Inv w (answers h) := by
  have hstart : Inv .start (answers []) := ⟨[], List.nodup_nil, rfl, rfl, rfl⟩
  refine hr.invariant (P := fun h w => Inv w (answers h)) hstart ?_
  intro h w e w' o _ hi hrely hs
  rw [answers_cons]
  cases e with
  | send token =>
    have hnone : heard ⟨w, .send token, o, w'⟩ = none := by
      unfold heard
      split
      · rename_i hevent
        cases hevent
      · rfl
    rw [hnone, Option.toList_none, List.append_nil]
    exact hi.send hrely hs
  | receive received bsn dsn =>
    refine hi.receive (fun request answer hreceived => ?_) hs
    subst hreceived
    exact hrely
  | dropRequests =>
    have hnone : heard ⟨w, .dropRequests, o, w'⟩ = none := by
      unfold heard
      split
      · rename_i hevent
        cases hevent
      · rfl
    rw [hnone, Option.toList_none, List.append_nil]
    obtain ⟨tokens, hnodup, hitems, htask⟩ := hi
    cases hs
    exact ⟨tokens, hnodup, hitems, htask.close⟩

/-- The start asks the radio one thing after the other, each once it has the answer to the one
before. It ends with the PIB of a radio that gave these answers, or else because an answer was bad
or the driver was gone; and until then fewer than five answers have come, all of them good. -/
theorem start_up_outcome {h : History World Event Unit} {w : World}
    (hr : Run step Rely .start h w) :
    (∃ tokens : List UniqueKey, tokens.Nodup ∧ tokens.length ≤ (answers h).length + 1 ∧
      w.requests.items = requestsOf tokens) ∧
    match w.task with
    | .started pib => w.requests.items.length = 5 ∧ ∃ (info : RadioInfo) (bsn dsn : UInt8),
      answers h = info.answers ∧ pib = info.pib bsn dsn
    | .panicked _ =>
      w.requests.closed = true ∨ ∀ info : RadioInfo, ¬ answers h <+: info.answers
    | _ => (answers h).length < 5 ∧ ∃ info : RadioInfo, answers h <+: info.answers := by
  obtain ⟨tokens, hnodup, hitems, htask⟩ := inv_of_run hr
  refine ⟨⟨tokens, hnodup, htask.length_le.2, hitems⟩, ?_⟩
  have hgood (stage : StartUpStage) (hheard : answers h = stage.answers) :
      (answers h).length < 5 ∧ ∃ info : RadioInfo, answers h <+: info.answers := by
    rw [hheard]
    refine ⟨?_, stage.info, List.take_prefix _ _⟩
    rw [answers_length]
    exact position_lt stage
  cases hw : w.task with
  | sending stage =>
    rw [hw] at htask
    exact hgood stage htask.1
  | waiting stage token =>
    rw [hw] at htask
    exact hgood stage htask.1
  | started pib =>
    rw [hw] at htask
    obtain ⟨hlen, hinfo⟩ := htask
    refine ⟨?_, hinfo⟩
    rw [hitems, ← hlen, ← congrArg List.length (requestsOf_tokens hlen.le), List.length_map]
  | panicked panic =>
    rw [hw] at htask
    exact htask.2.2

def goodStart : List Event :=
  [.send ⟨0⟩, .receive (.packet ⟨[], 0, 0⟩) 0 0,
    .receive (.answer (.getParam ⟨0⟩ .longAddress .u64) (.ok [0, 0, 0, 0, 0, 0, 0, 0, 0, 7])) 0 0,
    .send ⟨1⟩,
    .receive (.answer (.getParam ⟨0⟩ .longAddress .u64) (.ok [0, 0, 0, 0, 0, 0, 0, 0, 0, 7])) 0 0,
    .receive (.answer (.getParam ⟨1⟩ .txPowerMax .u16) (.ok [0, 0, 0, 9])) 0 0,
    .send ⟨2⟩, .receive (.answer (.getParam ⟨2⟩ .channel .u16) (.ok [0, 0, 0, 11])) 0 0,
    .send ⟨3⟩, .receive (.answer (.setParam ⟨3⟩ .rxMode (.u16 3)) (.ok [0, 0])) 0 0,
    .send ⟨4⟩, .receive (.answer (.setPower ⟨4⟩ true) (.ok [0, 1])) 4 5]

def afterStart : History World Event Unit × World := replay step Rely .start goodStart

theorem afterStart_run : Run step Rely .start afterStart.1 afterStart.2 := run_replay goodStart

theorem start_up_outcome_good : afterStart.2.task = .started (.new ⟨7⟩ 11 9 4 5) ∧
    ∃ tokens : List UniqueKey, tokens.Nodup ∧ tokens.length ≤ (answers afterStart.1).length + 1 ∧
      afterStart.2.requests.items = requestsOf tokens :=
  ⟨by decide, (start_up_outcome afterStart_run).1⟩

end StartUp
end ZigbeeStack
