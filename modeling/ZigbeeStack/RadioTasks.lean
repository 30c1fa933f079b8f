import ZigbeeStack.Radio

/-! The two tasks of the radio driver and the radio behind its port: every response goes to the
request that the radio answered. -/
namespace ZigbeeStack.Radio
open Runs

/- A message on its way, with the request it is about. The radio sees the message only. -/
structure Carried where
  message : RawRadioMessage
  request : RadioRequest
deriving DecidableEq, Repr

inductive RequestTask where
  | next
  | lock (commandId : RawRadioCommand) (data : List UInt8) (parser : RadioResponseParser)
      (request : RadioRequest)
  | send (carried : Carried)

/-- Where `radio_response_task` waits: for a message, for the map, or for its responses to be
taken. A response is sent while the map is locked, a packet is not. -/
inductive ResponseTask where
  | next
  | lock (message : RawRadioMessage) (request : Option RadioRequest)
  | sendResponse (response : RadioResponse) (request : Option RadioRequest)
  | sendPacket (packet : RadioPacket)

structure RadioService where
  responsemap : HashMap.Map UInt16 RadioResponseParser
  requestTask : RequestTask
  responseTask : ResponseTask
  port : List Carried
  received : List Carried
  incoming : List (RawRadioMessage × Option RadioRequest)

def ResponseTask.dispatch (message : RawRadioMessage) (request : Option RadioRequest) :
    ResponseTask :=
  match message.commandId with
  | .ok | .err => .lock message request
  | .onPacket =>
    match message.data.reverse with
    | linkQuality :: rssi :: data => .sendPacket ⟨data.reverse, rssi, linkQuality⟩
    | _ => .next
  | _ => .next

def answeredBy (message : RawRadioMessage) : Answered :=
  if message.commandId = .ok then .ok message.data else .error (.rawError message.data)

inductive Event where
  | request (request : RadioRequest)
  | register (requestId : UInt16)
  | send (written : Bool)
  | transmit (arrives : Bool)
  | answer (index : Nat) (good : Bool) (data : List UInt8)
  | report (message : RawRadioMessage)
  | next
  | remove
  | responded
deriving DecidableEq, Repr

inductive Output where
  | none
  | issued (request : RadioRequest) (requestId : UInt16)
  | answered (request : RadioRequest) (requestId : UInt16)
  | response (response : RadioResponse) (request : Option RadioRequest)
  | packet (packet : RadioPacket)

namespace RadioService

def new : RadioService := ⟨∅, .next, .next, [], [], []⟩

def locked (self : RadioService) : Bool :=
  match self.responseTask with
  | .sendResponse _ _ => true
  | _ => false

/-- One step of a task or of the radio; `none` if it cannot happen. The id of a request is drawn
again until it is not in the map. What is written to the port is received once or lost. -/
def step (self : RadioService) : Event → Option (RadioService × Output)
  | .request request =>
    match self.requestTask with
    | .next =>
      let (commandId, data, parser) := request.intoRaw
      some ({ self with requestTask := .lock commandId data parser request }, .none)
    | _ => none
  | .register requestId =>
    match self.requestTask with
    | .lock commandId data parser request =>
      if self.locked ∨ HashMap.get self.responsemap requestId ≠ none then none
      else some
        ({ self with
          responsemap := HashMap.set self.responsemap requestId parser
          requestTask := .send ⟨⟨commandId, requestId, data⟩, request⟩ },
          .issued request requestId)
    | _ => none
  | .send written =>
    match self.requestTask with
    | .send carried =>
      some
        ({ self with
          requestTask := .next
          port := if written then self.port ++ [carried] else self.port }, .none)
    | _ => none
  | .transmit arrives =>
    match self.port with
    | carried :: port =>
      some
        ({ self with
          port := port
          received := if arrives then self.received ++ [carried] else self.received }, .none)
    | [] => none
  | .answer index good data =>
    match self.received[index]? with
    | some carried =>
      let message := ⟨if good then .ok else .err, carried.message.requestId, data⟩
      some
        ({ self with
          received := self.received.eraseIdx index
          incoming := self.incoming ++ [(message, some carried.request)] }, .none)
    | none => none
  | .report message => some ({ self with incoming := self.incoming ++ [(message, none)] }, .none)
  | .next =>
    match self.responseTask, self.incoming with
    | .next, (message, request) :: incoming =>
      some
        ({ self with responseTask := ResponseTask.dispatch message request, incoming := incoming },
          .none)
    | _, _ => none
  | .remove =>
    match self.responseTask with
    | .lock message request =>
      match HashMap.get self.responsemap message.requestId with
      | some parser =>
        some
          ({ self with
            responsemap := HashMap.remove self.responsemap message.requestId
            responseTask := .sendResponse (parser (answeredBy message)) request },
            match request with
            | some request => .answered request message.requestId
            | none => .none)
      | none => some ({ self with responseTask := .next }, .none)
    | _ => none
  | .responded =>
    match self.responseTask with
    | .sendResponse response request =>
      some ({ self with responseTask := .next }, .response response request)
    | .sendPacket packet => some ({ self with responseTask := .next }, .packet packet)
    | _ => none

end RadioService

abbrev Step := Transition RadioService Event Output
abbrev Past := History RadioService Event Output

/- The radio answers what it has received, each message at most once; what it sends besides is no
answer. -/
def Rely (_ : Past) (_ : RadioService) : Event → Prop
  | .report message => message.commandId ≠ .ok ∧ message.commandId ≠ .err
  | _ => True

def issued (t : Step) : Option (RadioRequest × UInt16) :=
  match t.output with
  | .issued request requestId => some (request, requestId)
  | _ => none

def responded (t : Step) : Option (RadioResponse × Option RadioRequest) :=
  match t.output with
  | .response response request => some (response, request)
  | _ => none

def unanswered : Past → List (RadioRequest × UInt16)
  | [] => []
  | t :: h =>
    match t.output with
    | .issued request requestId => (request, requestId) :: unanswered h
    | .answered request requestId => (unanswered h).erase (request, requestId)
    | _ => unanswered h

/-! Where the requests without an answer are. -/

def Carried.pair (carried : Carried) : RadioRequest × UInt16 :=
  (carried.request, carried.message.requestId)

def IsAnswer (message : RawRadioMessage) : Prop :=
  message.commandId = .ok ∨ message.commandId = .err

def answerPair (x : RawRadioMessage × Option RadioRequest) : Option (RadioRequest × UInt16) :=
  x.2.map fun request => (request, x.1.requestId)

def RequestTask.pairs : RequestTask → List (RadioRequest × UInt16)
  | .send carried => [carried.pair]
  | _ => []

def ResponseTask.pairs : ResponseTask → List (RadioRequest × UInt16)
  | .lock message request => (answerPair (message, request)).toList
  | _ => []

/- Those that are somewhere between the two tasks. -/
def flying (s : RadioService) : List (RadioRequest × UInt16) :=
  s.requestTask.pairs ++ (s.port.map Carried.pair ++ (s.received.map Carried.pair ++
    (s.incoming.filterMap answerPair ++ s.responseTask.pairs)))

def Known (message : RawRadioMessage) (request : Option RadioRequest) : Prop :=
  IsAnswer message → ∃ r, request = some r

def RequestTask.Sound : RequestTask → Prop
  | .lock _ _ parser request => parser = request.intoRaw.2.2
  | _ => True

def ResponseTask.Sound : ResponseTask → Prop
  | .lock message request => IsAnswer message ∧ ∃ r, request = some r
  | .sendResponse response request => ∃ r, request = some r ∧ Answers r response
  | _ => True

/-- The map holds the parsers of the requests without an answer, no two under one id, and each of
them is at most once on its way. -/
structure Inv (h : Past) (s : RadioService) : Prop where
  ids : ((unanswered h).map Prod.snd).Nodup
  map : ∀ requestId parser, HashMap.get s.responsemap requestId = some parser ↔
    ∃ request, (request, requestId) ∈ unanswered h ∧ parser = request.intoRaw.2.2
  flying : ∀ x, (flying s).count x ≤ (unanswered h).count x
  known : ∀ x ∈ s.incoming, Known x.1 x.2
  requestTask : s.requestTask.Sound
  responseTask : s.responseTask.Sound

section Rules
variable {h : Past} {s s' : RadioService} {t : Step} {o : Output}

theorem Inv.start : Inv [] .new where
  ids := List.nodup_nil
  map _ _ := by simp [RadioService.new, HashMap.get, unanswered]
  flying _ := by simp [Radio.flying, RadioService.new, RequestTask.pairs, ResponseTask.pairs]
  known _ hx := by cases hx
  requestTask := trivial
  responseTask := trivial

/-- Moving things about between the tasks. -/
theorem Inv.move (hi : Inv h s) (ht : unanswered (t :: h) = unanswered h)
    (hmap : s'.responsemap = s.responsemap)
    (hfly : ∀ x, (Radio.flying s').count x ≤ (Radio.flying s).count x)
    (hk : ∀ x ∈ s'.incoming, Known x.1 x.2) (hq : s'.requestTask.Sound)
    (hp : s'.responseTask.Sound) : Inv (t :: h) s' where
  ids := ht ▸ hi.ids
  map := by rw [ht, hmap]; exact hi.map
  flying x := by rw [ht]; exact Nat.le_trans (hfly x) (hi.flying x)
  known := hk
  requestTask := hq
  responseTask := hp

theorem Inv.register (hi : Inv h s) {commandId : RawRadioCommand} {data : List UInt8}
    {parser : RadioResponseParser} {request : RadioRequest} {requestId : UInt16}
    (htask : s.requestTask = .lock commandId data parser request)
    (hid : HashMap.get s.responsemap requestId = none) :
    Inv (⟨s, .register requestId, .issued request requestId,
        { s with
          responsemap := HashMap.set s.responsemap requestId parser
          requestTask := .send ⟨⟨commandId, requestId, data⟩, request⟩ }⟩ :: h)
      { s with
        responsemap := HashMap.set s.responsemap requestId parser
        requestTask := .send ⟨⟨commandId, requestId, data⟩, request⟩ } := by
  have hnew : ∀ r, (r, requestId) ∉ unanswered h := fun r hr => by
    rw [(hi.map requestId _).mpr ⟨r, hr, rfl⟩] at hid
    cases hid
  have hparser : parser = request.intoRaw.2.2 := by
    have hsound := hi.requestTask
    rwa [htask] at hsound
  refine ⟨?_, fun id p => ?_, fun x => ?_, hi.known, trivial, hi.responseTask⟩
  · simp only [unanswered, List.map_cons, List.nodup_cons]
    refine ⟨fun hmem => ?_, hi.ids⟩
    obtain ⟨x, hx, rfl⟩ := List.mem_map.mp hmem
    exact hnew x.1 hx
  · rw [HashMap.get_set]
    simp only [unanswered, List.mem_cons, Prod.mk.injEq]
    split
    · subst id
      constructor
      · intro hp
        exact ⟨request, .inl ⟨rfl, rfl⟩, hparser ▸ (Option.some.inj hp).symm⟩
      · rintro ⟨r, ⟨rfl, -⟩ | hr, rfl⟩
        · rw [hparser]
        · exact absurd hr (hnew r)
    · rename_i hne
      rw [hi.map]
      simp [hne]
  · have hx := hi.flying x
    simp only [Radio.flying, htask, RequestTask.pairs, unanswered, List.count_append,
      List.count_cons, List.count_nil, Carried.pair] at hx ⊢
    omega

/-- The parser under the id of an answer is that of the request it is about. -/
theorem Inv.parser (hi : Inv h s) {message : RawRadioMessage} {request : Option RadioRequest}
    (htask : s.responseTask = .lock message request) :
    ∃ r, request = some r ∧ (r, message.requestId) ∈ unanswered h ∧
      HashMap.get s.responsemap message.requestId = some r.intoRaw.2.2 := by
  have hsound := hi.responseTask
  rw [htask] at hsound
  obtain ⟨-, r, rfl⟩ := hsound
  have hcount := hi.flying (r, message.requestId)
  simp only [Radio.flying, htask, ResponseTask.pairs, answerPair, Option.map_some,
    Option.toList_some, List.count_append, List.count_cons_self] at hcount
  have hmem : (r, message.requestId) ∈ unanswered h := List.count_pos_iff.mp (by omega)
  exact ⟨r, rfl, hmem, (hi.map _ _).mpr ⟨r, hmem, rfl⟩⟩

theorem mem_erase_of_ids {l : List (RadioRequest × UInt16)} (hn : (l.map Prod.snd).Nodup)
    {x y : RadioRequest × UInt16} (hx : x ∈ l) : y ∈ l.erase x ↔ y ∈ l ∧ y.2 ≠ x.2 := by
  rw [(List.Nodup.of_map _ hn).mem_erase_iff]
  constructor
  · rintro ⟨hne, hy⟩
    exact ⟨hy, fun hid => hne (List.inj_on_of_nodup_map hn hy hx hid)⟩
  · rintro ⟨hy, hid⟩
    exact ⟨fun heq => hid (heq ▸ rfl), hy⟩

theorem Inv.remove (hi : Inv h s) {message : RawRadioMessage} {request : Option RadioRequest}
    {r : RadioRequest} (htask : s.responseTask = .lock message request)
    (hr : (r, message.requestId) ∈ unanswered h) (hreq : request = some r)
    (hs' : s' = { s with
      responsemap := HashMap.remove s.responsemap message.requestId
      responseTask := .sendResponse (r.intoRaw.2.2 (answeredBy message)) request })
    (ht : t.output = .answered r message.requestId) : Inv (t :: h) s' := by
  subst hs' hreq
  have hunanswered : unanswered (t :: h) = (unanswered h).erase (r, message.requestId) := by
    simp only [unanswered, ht]
  refine ⟨?_, fun id p => ?_, fun x => ?_, hi.known, hi.requestTask,
    ⟨r, rfl, r.parser_answers _⟩⟩
  · rw [hunanswered]
    exact hi.ids.sublist (List.erase_sublist.map _)
  · rw [hunanswered, HashMap.get_remove]
    simp only [mem_erase_of_ids hi.ids hr]
    split
    · rename_i hid
      simp [hid]
    · rename_i hid
      rw [hi.map]
      simp [hid]
  · have hx := hi.flying x
    simp only [Radio.flying, htask, ResponseTask.pairs, answerPair, Option.map_some,
      Option.toList_some, List.count_append, List.count_cons, List.count_nil, hunanswered,
      List.count_erase] at hx ⊢
    omega

theorem count_eraseIdx {l : List Carried} {index : Nat} {carried : Carried}
    (hget : l[index]? = some carried) (x : RadioRequest × UInt16) :
    (l.map Carried.pair).count x =
      [carried.pair].count x + ((l.eraseIdx index).map Carried.pair).count x := by
  obtain ⟨hlt, rfl⟩ := List.getElem?_eq_some_iff.mp hget
  have hperm := (List.getElem_cons_eraseIdx_perm hlt).map Carried.pair
  rw [← hperm.count_eq, List.map_cons, List.count_cons, List.count_singleton, Nat.add_comm]

theorem count_answerPair (m : RawRadioMessage × Option RadioRequest)
    (l : List (RawRadioMessage × Option RadioRequest)) (x : RadioRequest × UInt16) :
    ((m :: l).filterMap answerPair).count x =
      (answerPair m).toList.count x + (l.filterMap answerPair).count x := by
  cases hm : answerPair m with
  | none => simp [hm]
  | some pair => simp [hm, List.count_cons, Nat.add_comm]

theorem dispatch_cases (message : RawRadioMessage) (request : Option RadioRequest) :
    (IsAnswer message ∧ ResponseTask.dispatch message request = .lock message request) ∨
      ((ResponseTask.dispatch message request).pairs = [] ∧
        (ResponseTask.dispatch message request).Sound) := by
  simp only [ResponseTask.dispatch]
  split
  · exact .inl ⟨.inl ‹_›, rfl⟩
  · exact .inl ⟨.inr ‹_›, rfl⟩
  · split
    · exact .inr ⟨rfl, trivial⟩
    · exact .inr ⟨rfl, trivial⟩
  · exact .inr ⟨rfl, trivial⟩

inductive Stepped (s : RadioService) : Event → RadioService → Output → Prop
  | request {request : RadioRequest} (htask : s.requestTask = .next) :
      Stepped s (.request request)
        { s with requestTask :=
            .lock request.intoRaw.1 request.intoRaw.2.1 request.intoRaw.2.2 request } .none
  | register {requestId : UInt16} {commandId : RawRadioCommand} {data : List UInt8}
      {parser : RadioResponseParser} {request : RadioRequest}
      (htask : s.requestTask = .lock commandId data parser request) (hopen : s.locked = false)
      (hfree : HashMap.get s.responsemap requestId = none) :
      Stepped s (.register requestId)
        { s with
          responsemap := HashMap.set s.responsemap requestId parser
          requestTask := .send ⟨⟨commandId, requestId, data⟩, request⟩ }
        (.issued request requestId)
  | send {written : Bool} {carried : Carried} (htask : s.requestTask = .send carried) :
      Stepped s (.send written)
        { s with
          requestTask := .next
          port := if written then s.port ++ [carried] else s.port } .none
  | transmit {arrives : Bool} {carried : Carried} {port : List Carried}
      (hport : s.port = carried :: port) :
      Stepped s (.transmit arrives)
        { s with
          port := port
          received := if arrives then s.received ++ [carried] else s.received } .none
  | answer {index : Nat} {good : Bool} {data : List UInt8} {carried : Carried}
      (hget : s.received[index]? = some carried) :
      Stepped s (.answer index good data)
        { s with
          received := s.received.eraseIdx index
          incoming := s.incoming ++
            [(⟨if good then .ok else .err, carried.message.requestId, data⟩,
              some carried.request)] } .none
  | report (message : RawRadioMessage) :
      Stepped s (.report message) { s with incoming := s.incoming ++ [(message, none)] } .none
  | next {message : RawRadioMessage} {request : Option RadioRequest}
      {incoming : List (RawRadioMessage × Option RadioRequest)} (htask : s.responseTask = .next)
      (hin : s.incoming = (message, request) :: incoming) :
      Stepped s .next
        { s with responseTask := ResponseTask.dispatch message request, incoming := incoming }
        .none
  | remove {message : RawRadioMessage} {request : RadioRequest} {parser : RadioResponseParser}
      (htask : s.responseTask = .lock message (some request))
      (hget : HashMap.get s.responsemap message.requestId = some parser) :
      Stepped s .remove
        { s with
          responsemap := HashMap.remove s.responsemap message.requestId
          responseTask := .sendResponse (parser (answeredBy message)) (some request) }
        (.answered request message.requestId)
  | removeUnasked {message : RawRadioMessage} {parser : RadioResponseParser}
      (htask : s.responseTask = .lock message none)
      (hget : HashMap.get s.responsemap message.requestId = some parser) :
      Stepped s .remove
        { s with
          responsemap := HashMap.remove s.responsemap message.requestId
          responseTask := .sendResponse (parser (answeredBy message)) none } .none
  | forget {message : RawRadioMessage} {request : Option RadioRequest}
      (htask : s.responseTask = .lock message request)
      (hget : HashMap.get s.responsemap message.requestId = none) :
      Stepped s .remove { s with responseTask := .next } .none
  | responded {response : RadioResponse} {request : Option RadioRequest}
      (htask : s.responseTask = .sendResponse response request) :
      Stepped s .responded { s with responseTask := .next } (.response response request)
  | packet {packet : RadioPacket} (htask : s.responseTask = .sendPacket packet) :
      Stepped s .responded { s with responseTask := .next } (.packet packet)

theorem stepped {e : Event} (hs : s.step e = some (s', o)) : Stepped s e s' o := by
  cases e with
  | request request =>
    simp only [RadioService.step] at hs
    split at hs
    · cases hs
      exact .request ‹_›
    · cases hs
  | register requestId =>
    simp only [RadioService.step] at hs
    split at hs
    · split at hs
      · cases hs
      · rename_i htask hfree
        obtain ⟨hopen, hfree⟩ := not_or.mp hfree
        cases hs
        exact .register htask (Bool.eq_false_iff.mpr hopen) (not_not.mp hfree)
    · cases hs
  | send written =>
    simp only [RadioService.step] at hs
    split at hs
    · cases hs
      exact .send ‹_›
    · cases hs
  | transmit arrives =>
    simp only [RadioService.step] at hs
    split at hs
    · cases hs
      exact .transmit ‹_›
    · cases hs
  | answer index good data =>
    simp only [RadioService.step] at hs
    split at hs
    · cases hs
      exact .answer ‹_›
    · cases hs
  | report message =>
    cases hs
    exact .report message
  | next =>
    simp only [RadioService.step] at hs
    split at hs
    · cases hs
      exact .next ‹_› ‹_›
    · cases hs
  | remove =>
    simp only [RadioService.step] at hs
    split at hs
    · rename_i message request htask
      split at hs
      · cases request
        all_goals cases hs
        · exact .removeUnasked htask ‹_›
        · exact .remove htask ‹_›
      · cases hs
        exact .forget htask ‹_›
    · cases hs
  | responded =>
    simp only [RadioService.step] at hs
    split at hs
    · cases hs
      exact .responded ‹_›
    · cases hs
      exact .packet ‹_›
    · cases hs

/-- A message that comes off the queue goes where its response is made, or nowhere. -/
theorem Inv.next (hi : Inv h s) (ht : unanswered (t :: h) = unanswered h)
    {message : RawRadioMessage} {request : Option RadioRequest}
    {incoming : List (RawRadioMessage × Option RadioRequest)} (htask : s.responseTask = .next)
    (hin : s.incoming = (message, request) :: incoming) :
    Inv (t :: h) { s with
      responseTask := ResponseTask.dispatch message request
      incoming := incoming } := by
  have hknown := hi.known
  rw [hin] at hknown
  obtain ⟨hfirst, hrest⟩ := List.forall_mem_cons.mp hknown
  rcases dispatch_cases message request with ⟨hans, hd⟩ | ⟨hd, hsound⟩
  · refine hi.move ht rfl (fun x => ?_) hrest hi.requestTask ?_
    · simp only [Radio.flying, htask, hin, hd, ResponseTask.pairs, List.count_append,
        count_answerPair, List.count_nil]
      omega
    · rw [hd]
      exact ⟨hans, hfirst hans⟩
  · refine hi.move ht rfl (fun x => ?_) hrest hi.requestTask hsound
    simp only [Radio.flying, htask, hin, hd, List.count_append, count_answerPair,
      List.count_nil]
    omega

/-- A step keeps the invariant. -/
theorem Inv.step {e : Event} (hi : Inv h s) (hr : Rely h s e) (hs : s.step e = some (s', o)) :
    Inv (⟨s, e, o, s'⟩ :: h) s' := by
  cases stepped hs with
  | request htask =>
    refine hi.move rfl rfl (fun x => ?_) hi.known rfl hi.responseTask
    simp only [Radio.flying, htask, RequestTask.pairs]
    exact Nat.le_refl _
  | register htask _ hfree => exact hi.register htask hfree
  | @send written carried htask =>
    refine hi.move rfl rfl (fun x => ?_) hi.known trivial hi.responseTask
    cases written
    · simp only [Radio.flying, htask, RequestTask.pairs, List.count_append, List.count_nil,
        Bool.false_eq_true, if_false]
      omega
    · simp only [Radio.flying, htask, RequestTask.pairs, List.count_append, List.count_nil,
        List.map_append, List.map_cons, List.map_nil, if_true]
      omega
  | @transmit arrives carried port hport =>
    refine hi.move rfl rfl (fun x => ?_) hi.known hi.requestTask hi.responseTask
    cases arrives
    · simp only [Radio.flying, hport, List.map_cons, List.count_append, List.count_cons,
        Bool.false_eq_true, if_false]
      omega
    · simp only [Radio.flying, hport, List.map_cons, List.count_append, List.count_cons,
        List.count_nil, List.map_append, List.map_nil, if_true]
      omega
  | @answer index good data carried hget =>
    refine hi.move rfl rfl (fun x => ?_) (List.forall_mem_append.mpr ⟨hi.known, ?_⟩)
      hi.requestTask hi.responseTask
    · have hcount := count_eraseIdx hget x
      have hanswer : ([(⟨if good then .ok else .err, carried.message.requestId, data⟩,
          some carried.request)] : List (RawRadioMessage × Option RadioRequest)).filterMap
          answerPair = [carried.pair] := rfl
      simp only [Radio.flying, List.count_append, List.filterMap_append, hanswer]
      omega
    · exact List.forall_mem_singleton.mpr fun _ => ⟨_, rfl⟩
  | report message =>
    refine hi.move rfl rfl (fun x => ?_) (List.forall_mem_append.mpr ⟨hi.known, ?_⟩)
      hi.requestTask hi.responseTask
    · have hnone : [(message, none)].filterMap answerPair = [] := rfl
      simp only [Radio.flying, List.filterMap_append, hnone, List.append_nil]
      exact Nat.le_refl _
    · exact List.forall_mem_singleton.mpr fun hans => absurd hans (not_or.mpr hr)
  | next htask hin => exact hi.next rfl htask hin
  | remove htask hget =>
    obtain ⟨r, hreq, hr, hparser⟩ := hi.parser htask
    cases hreq
    cases hget.symm.trans hparser
    exact hi.remove htask hr rfl rfl rfl
  | removeUnasked htask hget =>
    obtain ⟨r, hreq, -⟩ := hi.parser htask
    cases hreq
  | forget htask hget =>
    obtain ⟨r, -, -, hparser⟩ := hi.parser htask
    cases hget.symm.trans hparser
  | responded htask =>
    refine hi.move rfl rfl (fun x => ?_) hi.known hi.requestTask trivial
    simp [Radio.flying, htask, ResponseTask.pairs]
  | packet htask =>
    refine hi.move rfl rfl (fun x => ?_) hi.known hi.requestTask trivial
    simp [Radio.flying, htask, ResponseTask.pairs]

theorem inv_of_run (hr : Run RadioService.step Rely .new h s) : Inv h s :=
  hr.invariant .start fun _ _ _ _ _ _ hi hrely hs => hi.step hrely hs

def ResponseTask.made : ResponseTask → List RadioRequest
  | .sendResponse _ request => request.toList
  | _ => []

theorem dispatch_made (message : RawRadioMessage) (request : Option RadioRequest) :
    (ResponseTask.dispatch message request).made = [] := by
  simp only [ResponseTask.dispatch]
  split
  · rfl
  · rfl
  · split <;> rfl
  · rfl

def issuedRequests (h : Past) : List RadioRequest := (h.filterMap issued).map Prod.fst
def respondedRequests (h : Past) : List RadioRequest :=
  (h.filterMap responded).filterMap Prod.snd

/-- Every request with an id has its response, or waits for it. -/
theorem accounted_of_run (hr : Run RadioService.step Rely .new h s) (r : RadioRequest) :
    (respondedRequests h).count r + s.responseTask.made.count r +
      ((unanswered h).map Prod.fst).count r = (issuedRequests h).count r := by
  induction hr with
  | start => rfl
  | @next h s s' e o hrun hrely hs ih =>
    -- most steps neither give an id nor make or send a response
    have hstay (ho : o = .none) (hmade : s'.responseTask.made = s.responseTask.made) :
        (respondedRequests (⟨s, e, o, s'⟩ :: h)).count r + s'.responseTask.made.count r +
          ((unanswered (⟨s, e, o, s'⟩ :: h)).map Prod.fst).count r =
        (issuedRequests (⟨s, e, o, s'⟩ :: h)).count r := by
      subst ho
      rw [hmade]
      exact ih
    cases stepped hs with
    | request | send | transmit | answer | report => exact hstay rfl rfl
    | register =>
      simp only [respondedRequests, issuedRequests, unanswered, List.filterMap_cons, responded,
        issued, List.map_cons, List.count_cons] at ih ⊢
      omega
    | next htask _ => exact hstay rfl (by rw [htask]; exact dispatch_made _ _)
    | remove htask hget =>
      obtain ⟨r', hreq, hmem, -⟩ := (inv_of_run hrun).parser htask
      cases hreq
      have hcount := ((List.perm_cons_erase hmem).map Prod.fst).count_eq r
      rw [htask] at ih
      simp only [respondedRequests, issuedRequests, unanswered, List.filterMap_cons, responded,
        issued, ResponseTask.made, Option.toList_some, List.count_cons, List.count_nil,
        List.map_cons] at ih hcount ⊢
      omega
    | removeUnasked htask =>
      obtain ⟨r', hreq, -⟩ := (inv_of_run hrun).parser htask
      cases hreq
    | forget htask => exact hstay rfl (by rw [htask]; rfl)
    | @responded response request htask =>
      rw [htask] at ih
      cases request
      all_goals
        simp only [respondedRequests, issuedRequests, unanswered, List.filterMap_cons, responded,
          issued, ResponseTask.made, Option.toList_some, Option.toList_none, List.count_cons,
          List.count_nil] at ih ⊢
        omega
    | packet htask =>
      rw [htask] at ih
      exact ih

theorem task_of_response {e : Event} {response : RadioResponse} {request : Option RadioRequest}
    (hs : s.step e = some (s', .response response request)) :
    s.responseTask = .sendResponse response request := by
  generalize ho : Output.response response request = o at hs
  cases stepped hs with
  | responded htask =>
    cases ho
    exact htask
  | _ => cases ho

theorem responded_eq_some {response : RadioResponse} {request : Option RadioRequest}
    (ht : responded t = some (response, request)) : t.output = .response response request := by
  simp only [responded] at ht
  split at ht <;> cases ht
  assumption

/-- No two requests without an answer share an id, every response is for the request that the
radio answered, and no request gets more responses than it was issued. -/
theorem responses_reach_requesters (hr : Run RadioService.step Rely .new h s) :
    ((unanswered h).map Prod.snd).Nodup ∧
    (∀ t ∈ h, ∀ response request, responded t = some (response, request) →
      ∃ r, request = some r ∧ Answers r response) ∧
    ∀ r, (respondedRequests h).count r ≤ (issuedRequests h).count r := by
  refine ⟨(inv_of_run hr).ids, fun t ht response request hresp => ?_, fun r => ?_⟩
  · obtain ⟨later, past, rfl⟩ := List.append_of_mem ht
    obtain ⟨hrun, -, hs⟩ := hr.cut
    rw [responded_eq_some hresp] at hs
    have hsound := (inv_of_run hrun).responseTask
    rwa [task_of_response hs] at hsound
  · have hone := accounted_of_run hr r
    omega

end Rules

/-! Two requests, the second one answered first, with an error, while a packet comes in. -/

instance (h : Past) (s : RadioService) (e : Event) : Decidable (Rely h s e) := by
  unfold Rely
  split <;> infer_instance

def crossed : List Event :=
  [.request (.sendPacket ⟨0⟩ [1, 2]), .register 7, .send true, .request (.setPower ⟨1⟩ true),
    .transmit true, .register 9, .send true, .transmit true, .report ⟨.onPacket, 0, [3, 4, 5]⟩,
    .answer 1 false [6], .answer 0 true [0, 0], .next, .responded, .next, .remove, .responded,
    .next, .remove, .responded]

def afterCrossed : Past × RadioService := replay RadioService.step Rely .new crossed

theorem afterCrossed_run : Run RadioService.step Rely .new afterCrossed.1 afterCrossed.2 :=
  run_replay crossed

theorem responses_reach_requesters_crossed :
    respondedRequests afterCrossed.1 = [.sendPacket ⟨0⟩ [1, 2], .setPower ⟨1⟩ true] ∧
      ∀ t ∈ afterCrossed.1, ∀ response request, responded t = some (response, request) →
        ∃ r, request = some r ∧ Answers r response :=
  ⟨by decide, (responses_reach_requesters afterCrossed_run).2.1⟩

end ZigbeeStack.Radio
