import ZigbeeStack.OldFrameRoundTrip
import ZigbeeStack.OldService

/-! Runs of the first MAC: it never fails, it answers its queues for just the frames that they gave
it, and no two devices have one address. -/
namespace ZigbeeStack.OldSrc
open Runs

/-! A call of the queue, as the service makes it. -/

namespace Queue
variable {q : Queue}

theorem onDataRequest_step (h : q.Sound) (d : AddressSpecification) :
    ∃ pending q', q.onDataRequest d = .ok (pending, q') ∧
      step q (.onDataRequest d) = some (q', ⟨[], some pending, none⟩) ∧
      q.Performs (.onDataRequest d) ⟨[], some pending, none⟩ q' ∧
      (pending = false → q'.device d = .idle) := by
  obtain ⟨q', a, hperform, hperforms⟩ := perform_spec h (c := .onDataRequest d) trivial
  obtain ⟨⟨pending, q₁⟩, hcall, hret⟩ := exists_of_bind_ok hperform
  cases hret
  refine ⟨pending, q', hcall, by rw [step, hperform]; rfl, hperforms, fun hpending => ?_⟩
  obtain ⟨⟨q₂, resolution⟩, -, hret⟩ := exists_of_bind_ok hcall
  cases hret
  cases hget : HashMap.get q'.queues d with
  | none =>
    rw [device, hget]
    rfl
  | some state =>
    rw [hget] at hpending
    rw [device, hget]
    cases state with
    | idle => rfl
    | _ => cases hpending

theorem onAck_step (h : q.Sound) (n : UInt8) {order : List AddressSpecification}
    (horder : HashMap.Enumerates order q.queues) :
    ∃ resolutions q', q.onAck n order = .ok (q', resolutions) ∧
      step q (.onAck n order) = some (q', ⟨resolutions, none, none⟩) ∧
      q.Performs (.onAck n order) ⟨resolutions, none, none⟩ q' := by
  obtain ⟨q', a, hperform, hperforms⟩ := perform_spec h (c := .onAck n order) horder
  obtain ⟨⟨q₁, resolutions⟩, hcall, hret⟩ := exists_of_bind_ok hperform
  cases hret
  exact ⟨resolutions, q', hcall, by rw [step, hperform]; rfl, hperforms⟩

theorem enqueue_step (h : q.Sound) (frame : Frame) (receiverOnWhenIdle : Bool) (callback : Nat) :
    ∃ resolution q', q.enqueue frame receiverOnWhenIdle callback = .ok (q', resolution) ∧
      step q (.enqueue frame receiverOnWhenIdle callback) =
        some (q', ⟨resolution.toList, none, none⟩) ∧
      q.Performs (.enqueue frame receiverOnWhenIdle callback)
        ⟨resolution.toList, none, none⟩ q' := by
  obtain ⟨q', a, hperform, hperforms⟩ :=
    perform_spec h (c := .enqueue frame receiverOnWhenIdle callback) trivial
  obtain ⟨⟨q₁, resolution⟩, hcall, hret⟩ := exists_of_bind_ok hperform
  cases hret
  exact ⟨resolution, q', hcall, by rw [step, hperform]; rfl, hperforms⟩

theorem onSendResult_step (h : q.Sound) (d : AddressSpecification) (success : Bool) :
    ∃ resolution q', q.onSendResult d success = .ok (q', resolution) ∧
      step q (.onSendResult d success) = some (q', ⟨resolution.toList, none, none⟩) ∧
      q.Performs (.onSendResult d success) ⟨resolution.toList, none, none⟩ q' := by
  obtain ⟨q', a, hperform, hperforms⟩ := perform_spec h (c := .onSendResult d success) trivial
  obtain ⟨⟨q₁, resolution⟩, hcall, hret⟩ := exists_of_bind_ok hperform
  cases hret
  exact ⟨resolution, q', hcall, by rw [step, hperform]; rfl, hperforms⟩

theorem pollNext_step (h : q.Sound) (cx : Waker) (due : List Nat) :
    ∃ event q' resolutions, q.pollNext cx due = .ok ((event, q'), resolutions) ∧
      step q (.pollNext cx due) = some (q', ⟨resolutions, none, some event⟩) ∧
      q.Performs (.pollNext cx due) ⟨resolutions, none, some event⟩ q' := by
  obtain ⟨q', a, hperform, hperforms⟩ := perform_spec h (c := .pollNext cx due) trivial
  obtain ⟨⟨⟨event, q₁⟩, resolutions⟩, hcall, hret⟩ := exists_of_bind_ok hperform
  cases hret
  exact ⟨event, q', resolutions, hcall, by rw [step, hperform]; rfl, hperforms⟩

end Queue

namespace Mac

inductive Call where
  | packet (packet : List UInt8) (order : List AddressSpecification)
  | pollQueue (cx : Waker) (due : List Nat)
  | pollInflight (results : List (AddressSpecification × Bool))
  | sendBeacon (payload : List UInt8)
  | associate (address : ExtendedAddress) (receiverOnWhenIdle : Bool)
  | sendAssociationResponse (extendedAddress : ExtendedAddress) (callback : Nat)
deriving DecidableEq, Repr

inductive Answer where
  | output (output : Service.Output)
  | beacon (future : Inflight)
  | associated (shortAddress : ShortAddress)

def Answer.resolutions : Answer → List Resolution
  | .output o => o.resolutions
  | _ => []

namespace Service

abbrev Past := History Service Call Answer

/- A poll of the service is a row of these steps: the packets that are there, the events of the
queue, the futures that are ready. -/
def step (s : Service) : Call → Option (Service × Answer)
  | .packet packet order => (s.handlePacket packet order).toOption.map fun r => (r.1, .output r.2)
  | .pollQueue cx due => (s.pollQueue cx due).toOption.map fun r => (r.1, .output r.2)
  | .pollInflight results => (s.pollInflight results).toOption.map fun r => (r.1, .output r.2)
  | .sendBeacon payload => some ((s.sendBeacon payload).2, .beacon (s.sendBeacon payload).1)
  | .associate address receiverOnWhenIdle =>
    (s.associate address receiverOnWhenIdle).map fun r => (r.2, .associated r.1)
  | .sendAssociationResponse extendedAddress callback =>
    (s.sendAssociationResponse extendedAddress callback).toOption.map fun r => (r.1, .output r.2)

/- A frame that could not be written is not sent. -/
def mayYield : Option Inflight → Bool → Bool
  | some (.sending _), _ => true
  | some (.failed _), success => !success
  | none, _ => false

/- A map is visited in some order of its keys, and each future is there once. -/
def Allowed (_ : Past) (s : Service) : Call → Prop
  | .packet _ order => HashMap.Enumerates order s.queue.queues
  | .pollInflight results => (results.map Prod.fst).Nodup ∧
      ∀ r ∈ results, mayYield (HashMap.get s.inflight r.1) r.2
  | _ => True

instance (h : Past) (s : Service) (c : Call) : Decidable (Allowed h s c) :=
  match c with
  | .packet _ order => inferInstanceAs (Decidable (HashMap.Enumerates order s.queue.queues))
  | .pollInflight results => inferInstanceAs (Decidable ((results.map Prod.fst).Nodup ∧
      ∀ r ∈ results, mayYield (HashMap.get s.inflight r.1) r.2))
  | .pollQueue _ _ | .sendBeacon _ | .associate _ _ | .sendAssociationResponse _ _ =>
    .isTrue trivial

/-- The futures are those of the frames that the queue has handed over and has heard nothing of, and
the queue was given frames of one kind only. -/
structure Driven (G : Frame → Prop) (p : Queue.Past) (queue : Queue)
    (inflight : HashMap.Map AddressSpecification Inflight) : Prop where
  run : Run Queue.step Queue.Reported Queue.new p queue
  count : ∀ d, (flow (Queue.handed d) p).length =
    (flow (Queue.reported d) p).length + (HashMap.get inflight d).isSome.toNat
  given : ∀ t ∈ p, ∀ frame receiverOnWhenIdle callback,
    t.event = .enqueue frame receiverOnWhenIdle callback → G frame
  futures : ∀ d future, HashMap.get inflight d = some future →
    ∃ frame ∈ flow (Queue.handed d) p, future = sendFrameNoqueue frame

def Drives (G : Frame → Prop) (calls : List Queue.Call) (told : List Resolution) (queue : Queue)
    (inflight : HashMap.Map AddressSpecification Inflight) : Prop :=
  ∃ p, Driven G p queue inflight ∧ flow (fun t => [t.event]) p = calls ∧
    flow (fun t => t.output.resolutions) p = told

def responseTo (panId : PANID) (source destination : ExtendedAddress) (address : ShortAddress)
    (n : UInt8) : Frame where
  framePending := false
  acknowledgeRequest := true
  sequenceNumber := some n
  destination := .extended panId destination
  source := .extended panId source
  frameType := .command (.associationResponse address .associationSuccessful)
  payload := []

def Tells (panId : PANID) (source : ExtendedAddress)
    (associations : BiMap ShortAddress ExtendedAddress) (frame : Frame) : Prop :=
  ∃ e a n, (a, e) ∈ associations ∧ frame = responseTo panId source e a n

def Slotted {T : Type} [DecidableEq T] (set : MRUSet T) : Prop :=
  ∃ start p, MRUSet.new 8 = .ok start ∧ Run MRUSet.step MRUSet.AnyOrder start p set

def frameCalls (frame : Frame) (order : List AddressSpecification) : List Queue.Call :=
  match frame.frameType with
  | .command .dataRequest => [.onDataRequest frame.source]
  | .ack => (frame.sequenceNumber.map fun n => Queue.Call.onAck n order).toList
  | _ => []

def packetCalls (packet : List UInt8) (order : List AddressSpecification) : List Queue.Call :=
  match Frame.deserialize packet with
  | .error _ => []
  | .ok (_, frame) => frameCalls frame order

def receiverOnWhenIdle (s : Service) (address : AddressSpecification) : Bool :=
  ((s.getNodeinfoForAddrspec address).map (·.receiverOnWhenIdle)).getD true

def responseCalls (s : Service) (e : ExtendedAddress) (callback : Nat) : List Queue.Call :=
  match TwoWayMap.getByRight s.associations e with
  | some a =>
    [.enqueue (responseTo s.panId s.extendedAddress e a s.freshSequenceNumber.1)
      (s.receiverOnWhenIdle (.extended s.panId e)) callback]
  | none => []

def queueCalls (s : Service) : Call → List Queue.Call
  | .packet packet order => packetCalls packet order
  | .pollQueue cx due => [.pollNext cx due]
  | .pollInflight results => results.map fun r => .onSendResult r.1 r.2
  | .sendBeacon _ | .associate _ _ => []
  | .sendAssociationResponse e callback => s.responseCalls e callback

structure Kept (calls : List Queue.Call) (told : List Resolution) (s : Service) : Prop where
  drives : Drives (Tells s.panId s.extendedAddress s.associations) calls told s.queue s.inflight
  short : Slotted s.pendingDataSet.short
  extended : Slotted s.pendingDataSet.extended

section Queues
variable {G : Frame → Prop} {calls : List Queue.Call} {told : List Resolution}
  {queue queue' : Queue} {inflight : HashMap.Map AddressSpecification Inflight}

theorem Drives.mono (h : Drives G calls told queue inflight) {G' : Frame → Prop}
    (hG : ∀ frame, G frame → G' frame) : Drives G' calls told queue inflight := by
  obtain ⟨p, hp, hlog⟩ := h
  exact ⟨p, ⟨hp.run, hp.count, fun t ht _ _ _ heq => hG _ (hp.given t ht _ _ _ heq), hp.futures⟩,
    hlog⟩

theorem Drives.sound (h : Drives G calls told queue inflight) : queue.Sound := by
  obtain ⟨p, hp, -⟩ := h
  exact Queue.run_sound (Queue.run_inOrder hp.run)

theorem Driven.given_next {p : Queue.Past} (h : Driven G p queue inflight) {t : Queue.Step}
    (ht : ∀ frame receiverOnWhenIdle callback,
      t.event = .enqueue frame receiverOnWhenIdle callback → G frame) :
    ∀ t' ∈ t :: p, ∀ frame receiverOnWhenIdle callback,
      t'.event = .enqueue frame receiverOnWhenIdle callback → G frame :=
  List.forall_mem_cons.mpr ⟨ht, h.given⟩

theorem Driven.futures_next {p : Queue.Past} (h : Driven G p queue inflight) (t : Queue.Step)
    {d : AddressSpecification} {future : Inflight} (hf : HashMap.get inflight d = some future) :
    ∃ frame ∈ flow (Queue.handed d) (t :: p), future = sendFrameNoqueue frame := by
  obtain ⟨frame, hmem, heq⟩ := h.futures d future hf
  rw [flow_cons]
  exact ⟨frame, List.mem_append_left _ hmem, heq⟩

theorem Drives.call (h : Drives G calls told queue inflight) {c : Queue.Call} {a : Queue.Answer}
    (hstep : Queue.step queue c = some (queue', a)) (hc : Queue.InOrder [] queue c)
    (hresult : ∀ d success, c ≠ .onSendResult d success) (ha : a.delivered = [])
    (hgiven : ∀ frame receiverOnWhenIdle callback,
      c = .enqueue frame receiverOnWhenIdle callback → G frame) :
    Drives G (calls ++ [c]) (told ++ a.resolutions) queue' inflight := by
  obtain ⟨p, hp, rfl, rfl⟩ := h
  have hmay : Queue.Reported p queue c := by
    cases c with
    | onSendResult d success => exact absurd rfl (hresult d success)
    | _ => exact hc
  refine ⟨_, ⟨hp.run.next hmay hstep, fun d => ?_, hp.given_next hgiven,
    fun d future hf => hp.futures_next _ hf⟩, rfl, rfl⟩
  have hhanded : Queue.handed d ⟨queue, c, a, queue'⟩ = [] := by
    change Queue.framesFor d a.delivered = []
    rw [ha]
    rfl
  obtain hreported | ⟨success, hcall, -⟩ := Queue.reported_cases d ⟨queue, c, a, queue'⟩
  · rw [flow_cons, flow_cons, hhanded, hreported, List.append_nil, List.append_nil]
    exact hp.count d
  · exact absurd hcall (hresult d success)

theorem Drives.handOver (h : Drives G calls told queue inflight) {cx : Waker} {due : List Nat}
    {resolutions : List Resolution} {destination : AddressSpecification} {frame : Frame}
    (hstep : Queue.step queue (.pollNext cx due) =
      some (queue', ⟨resolutions, none, some (.ready (.outgoingFrame destination frame))⟩)) :
    HashMap.get inflight destination = none ∧
      Drives G (calls ++ [.pollNext cx due]) (told ++ resolutions) queue'
        (HashMap.set inflight destination (sendFrameNoqueue frame)) := by
  obtain ⟨p, hp, rfl, rfl⟩ := h
  have hmay : Queue.Reported p queue (.pollNext cx due) := trivial
  have hr' := hp.run.next hmay hstep
  have hhanded (d : AddressSpecification) :
      Queue.handed d ⟨queue, .pollNext cx due, ⟨resolutions, none,
        some (.ready (.outgoingFrame destination frame))⟩, queue'⟩ =
        if destination = d then [frame] else [] := Queue.framesFor_map d destination [frame]
  have hfree : HashMap.get inflight destination = none := by
    have hone := Queue.handed_of_run hr' destination
    have hbefore := hp.count destination
    have hle := Bool.toNat_le (queue'.device destination).sending
    rw [flow_cons, flow_cons, hhanded, if_pos rfl, List.length_append, List.length_append] at hone
    change _ + 1 + _ = _ + 0 + _ at hone
    cases hget : HashMap.get inflight destination with
    | none => rfl
    | some future =>
      rw [hget] at hbefore
      change _ = _ + 1 at hbefore
      omega
  refine ⟨hfree, _, ⟨hr', fun d => ?_, hp.given_next (by simp), fun d future hf => ?_⟩, rfl, rfl⟩
  · rw [flow_cons, flow_cons, hhanded, HashMap.get_set, List.length_append, List.length_append]
    change _ = _ + 0 + _
    have hbefore := hp.count d
    by_cases hd : d = destination
    · subst hd
      rw [hfree] at hbefore
      rw [if_pos rfl, if_pos rfl]
      change _ = _ + 0 at hbefore
      change _ + 1 = _ + 0 + 1
      omega
    · rw [if_neg (Ne.symm hd), if_neg hd]
      exact hbefore
  · rw [HashMap.get_set] at hf
    by_cases hd : d = destination
    · subst hd
      rw [if_pos rfl] at hf
      refine ⟨frame, ?_, (Option.some.inj hf).symm⟩
      rw [flow_cons, hhanded, if_pos rfl]
      exact List.mem_append_right _ (List.mem_singleton.mpr rfl)
    · rw [if_neg hd] at hf
      exact hp.futures_next _ hf

theorem Drives.report (h : Drives G calls told queue inflight) {d : AddressSpecification}
    (hd : (HashMap.get inflight d).isSome) (success : Bool) :
    ∃ resolution queue', queue.onSendResult d success = .ok (queue', resolution) ∧
      queue.Performs (.onSendResult d success) ⟨resolution.toList, none, none⟩ queue' ∧
      Drives G (calls ++ [.onSendResult d success]) (told ++ resolution.toList) queue'
        (HashMap.remove inflight d) := by
  obtain ⟨resolution, queue', hcall, hstep, hperforms⟩ :=
    Queue.onSendResult_step h.sound d success
  obtain ⟨p, hp, rfl, rfl⟩ := h
  have hbefore := hp.count d
  rw [hd, Bool.toNat_true] at hbefore
  have hmay : Queue.Reported p queue (.onSendResult d success) := by
    change _ < _
    omega
  refine ⟨resolution, queue', hcall, hperforms, _, ⟨hp.run.next hmay hstep, fun d' => ?_,
    hp.given_next (by simp), fun d' future hf => ?_⟩, rfl, rfl⟩
  · rw [flow_cons, flow_cons, List.length_append, List.length_append, HashMap.get_remove]
    change _ + 0 = _ + (List.length (List.flatMap _ (if d = d' then _ else []))) + _
    by_cases hd' : d' = d
    · subst hd'
      rw [if_pos rfl, if_pos rfl]
      change _ + 0 = _ + 1 + 0
      omega
    · rw [if_neg (Ne.symm hd'), if_neg hd']
      exact hp.count d'
  · rw [HashMap.get_remove] at hf
    split_ifs at hf
    exact hp.futures_next _ hf

end Queues

theorem Slotted.perform {T : Type} [DecidableEq T] {set : MRUSet T} (h : Slotted set)
    (op : MRUSet.Operation T) : ∃ action set', set.perform op = .ok (action, set') ∧
      Slotted set' ∧ ∀ x, set'.contains x ↔ op = .insert x ∨ (op ≠ .remove x ∧ set.contains x) := by
  obtain ⟨start, p, hnew, hr⟩ := h
  obtain ⟨r, hs, he⟩ := MRUSet.explained (by decide) hnew hr
  obtain ⟨action, set', r', hok, hmoves, hs'⟩ :=
    MRUSet.perform_refines hs (he.slot_left (by decide)) op
  refine ⟨action, set', hok, ⟨start, _, hnew, hr.next (e := op) (o := action) trivial ?_⟩,
    fun x => ?_⟩
  · rw [MRUSet.step, hok]
    rfl
  · rw [hs'.contains_iff, hmoves.order hs.nodup, MRUSet.Operation.mem_reorder hs.nodup,
      hs.contains_iff]

theorem Slotted.hasSlot {T : Type} [DecidableEq T] {set : MRUSet T} (h : Slotted set) {x : T}
    (hx : set.contains x) (hlen : set.len ≤ 8) : (set.hasSlot x).isSome := by
  obtain ⟨start, p, hnew, hr⟩ := h
  have hrecent := MRUSet.mostRecent_of_spares hnew hr fun _ _ _ _ hone => absurd hone (by decide)
  obtain ⟨order, hnodup, hmem, -, hslotted⟩ := hrecent.recent
  obtain ⟨r, hs, -⟩ := MRUSet.explained (by decide) hnew hr
  have hperm : order.Perm r.order := (List.perm_ext_iff_of_nodup hnodup hs.nodup).mpr
    fun y => (hmem y).trans (hs.contains_iff y)
  rw [hslotted, Nat.min_eq_right hlen, hs.len, ← hperm.length_eq, List.take_length]
  exact (hmem x).mpr hx

variable {calls : List Queue.Call} {told : List Resolution}

def called {T : Type} (pendingFrames : Bool) (x : T) : MRUSet.Operation T :=
  if pendingFrames then .insert x else .remove x

theorem called_eq_insert {T : Type} {pendingFrames : Bool} {x y : T} :
    called pendingFrames x = .insert y ↔ pendingFrames = true ∧ x = y := by
  cases pendingFrames <;> simp [called]

theorem called_eq_remove {T : Type} {pendingFrames : Bool} {x y : T} :
    called pendingFrames x = .remove y ↔ pendingFrames = false ∧ x = y := by
  cases pendingFrames <;> simp [called]

theorem setPendingData_spec {s : Service} (h : s.Kept calls told) (address : AddressSpecification)
    (pendingFrames : Bool) :
    ∃ slot set, s.setPendingData address pendingFrames =
        .ok (slot, { s with pendingDataSet := set }) ∧
      Slotted set.short ∧ Slotted set.extended ∧
      (∀ e, s.pendingDataSet.extended.contains e → set.extended.contains e ∨
        pendingFrames = false ∧ ∃ panid, address = .extended panid e) ∧
      (pendingFrames → ∀ panid e, address = .extended panid e → set.extended.contains e) ∧
      ∀ e, set.extended.contains e → (pendingFrames ∧ ∃ panid, address = .extended panid e) ∨
        s.pendingDataSet.extended.contains e ∧ ∀ panid, address ≠ .extended panid e := by
  cases address with
  | none =>
    refine ⟨.none, s.pendingDataSet, ?_, h.short, h.extended, fun e he => .inl he,
      fun _ _ _ heq => by (cases heq), fun e he => .inr ⟨he, by simp⟩⟩
    cases pendingFrames <;> rfl
  | short panid address =>
    obtain ⟨action, set, hok, hset, -⟩ := h.short.perform (called pendingFrames (panid, address))
    refine ⟨.ofShort action, { s.pendingDataSet with short := set }, ?_, hset, h.extended,
      fun e he => .inl he, fun _ _ _ heq => by (cases heq), fun e he => .inr ⟨he, by simp⟩⟩
    unfold setPendingData
    cases pendingFrames with
    | false =>
      change s.pendingDataSet.short.remove _ = _ at hok
      simp only [MRUAddressSet.remove, hok]
      rfl
    | true =>
      change s.pendingDataSet.short.insert _ = _ at hok
      simp only [MRUAddressSet.insert, hok]
      rfl
  | extended panid address =>
    obtain ⟨action, set, hok, hset, hcontains⟩ := h.extended.perform (called pendingFrames address)
    refine ⟨.ofExtended action, { s.pendingDataSet with extended := set }, ?_, h.short, hset,
      fun e he => ?_, fun hpending panid' e heq => ?_, fun e he => ?_⟩
    · unfold setPendingData
      cases pendingFrames with
      | false =>
        change s.pendingDataSet.extended.remove _ = _ at hok
        simp only [MRUAddressSet.remove, hok]
        rfl
      | true =>
        change s.pendingDataSet.extended.insert _ = _ at hok
        simp only [MRUAddressSet.insert, hok]
        rfl
    · by_cases hremove : called pendingFrames address = .remove e
      · obtain ⟨hpending, rfl⟩ := called_eq_remove.mp hremove
        exact .inr ⟨hpending, panid, rfl⟩
      · exact .inl ((hcontains e).mpr (.inr ⟨hremove, he⟩))
    · cases heq
      exact (hcontains address).mpr (.inl (called_eq_insert.mpr ⟨hpending, rfl⟩))
    · obtain hinsert | ⟨hremove, hbefore⟩ := (hcontains e).mp he
      · obtain ⟨hpending, rfl⟩ := called_eq_insert.mp hinsert
        exact .inl ⟨hpending, panid, rfl⟩
      · by_cases hsame : address = e
        · subst hsame
          have hpending : pendingFrames = true := by
            rw [← Bool.not_eq_false]
            exact fun hno => hremove (called_eq_remove.mpr ⟨hno, rfl⟩)
          exact .inl ⟨hpending, panid, rfl⟩
        · exact .inr ⟨hbefore, fun panid' heq => hsame (by cases heq; rfl)⟩

/-! A device that sleeps learns from the set that a frame waits for it. -/

def Local (panId : PANID) : AddressSpecification → Prop
  | .extended panid _ => panid = panId
  | _ => True

structure Announces (panId : PANID) (queue : Queue) (set : MRUSet ExtendedAddress) : Prop where
  within : Queue.Within (Local panId) queue
  waits : ∀ e, ∀ item ∈ (queue.device (.extended panId e)).items,
    item.waitForDatarequest → set.contains e

def Announced (s : Service) : Prop := Announces s.panId s.queue s.pendingDataSet.extended

theorem Announces.call {panId : PANID} {queue queue' : Queue} {set set' : MRUSet ExtendedAddress}
    (h : Announces panId queue set) {c : Queue.Call} {a : Queue.Answer}
    (hperforms : queue.Performs c a queue') (htouched : ∀ d ∈ Queue.touched c, Local panId d)
    (hset : ∀ e, set.contains e →
      set'.contains e ∨ queue'.device (.extended panId e) = .idle)
    (hnew : ∀ e, ∀ item ∈ (Queue.calls (.extended panId e) c).flatMap DeviceQueue.enqueued,
      item.waitForDatarequest → set'.contains e) : Announces panId queue' set' where
  within := (hperforms.within _ htouched h.within).1
  waits e item hitem hwait := by
    have hitems := hperforms.items
      (P := fun item => item.waitForDatarequest → set.contains e ∨ set'.contains e)
      (fun _ _ hp => hp) (fun item hi hw => .inl (h.waits e item hi hw))
      (fun item hi hw => .inr (hnew e item hi hw)) item hitem hwait
    obtain hbefore | hafter := hitems
    · obtain hkept | hidle := hset e hbefore
      · exact hkept
      · rw [hidle] at hitem
        cases hitem
    · exact hafter

theorem Announces.quiet {panId : PANID} {queue queue' : Queue} {set set' : MRUSet ExtendedAddress}
    (h : Announces panId queue set) {c : Queue.Call} {a : Queue.Answer}
    (hperforms : queue.Performs c a queue') (htouched : Queue.touched c = [])
    (hset : ∀ e, set.contains e →
      set'.contains e ∨ queue'.device (.extended panId e) = .idle) :
    Announces panId queue' set' := by
  refine h.call hperforms (by simp [htouched]) hset fun e item hi => ?_
  cases c with
  | onAck n order => cases hi
  | pollNext cx due => cases hi
  | enqueue frame receiverOnWhenIdle callback => cases htouched
  | onSendResult d success => cases htouched
  | onDataRequest d => cases htouched

theorem Drives.isLocal {panId : PANID} {queue : Queue}
    {G : Frame → Prop} {inflight : HashMap.Map AddressSpecification Inflight}
    (h : Drives G calls told queue inflight) (hw : Queue.Within (Local panId) queue)
    {d : AddressSpecification}
    (hd : (HashMap.get inflight d).isSome) : Local panId d := by
  obtain ⟨p, hp, -⟩ := h
  refine hw.2 d fun hidle => ?_
  have hhanded := Queue.handed_of_run hp.run d
  have hbefore := hp.count d
  rw [hd, Bool.toNat_true] at hbefore
  rw [hidle] at hhanded
  change _ = _ + 0 at hhanded
  omega

/-! An address goes when its queue does, but not after an acknowledgement. -/

/- An address that is in the set afterwards has a queue or is to be reported; or it was there before
and is what it was, unless it had its last frame acknowledged. -/
def Passes (queue queue' : Queue) (set set' : MRUSet ExtendedAddress) (acked : Prop) : Prop :=
  ∀ e, set'.contains e → (∃ panid, queue'.Unsettled (.extended panid e)) ∨
    set.contains e ∧ ∀ panid, queue.Unsettled (.extended panid e) →
      queue'.Unsettled (.extended panid e) ∨
        acked ∧ queue.device (.extended panid e) ≠ .idle ∧
          queue'.device (.extended panid e) = .idle

section Passes
variable {queue queue' : Queue} {set set' : MRUSet ExtendedAddress} {acked : Prop}

theorem Passes.refl : Passes queue queue set set acked :=
  fun _ he => .inr ⟨he, fun _ hbefore => .inl hbefore⟩

theorem Passes.trans {queue'' : Queue} {set'' : MRUSet ExtendedAddress}
    (h : Passes queue queue' set set' False) (h' : Passes queue' queue'' set' set'' False) :
    Passes queue queue'' set set'' False := by
  intro e he
  obtain hafter | ⟨hmem, hkept'⟩ := h' e he
  · exact .inl hafter
  have hkept'' {panid : PANID} (hd : queue'.Unsettled (.extended panid e)) :
      queue''.Unsettled (.extended panid e) := by
    obtain hafter | ⟨hfalse, -⟩ := hkept' panid hd
    · exact hafter
    · exact hfalse.elim
  obtain ⟨panid, hd⟩ | ⟨hbefore, hkept⟩ := h e hmem
  · exact .inl ⟨panid, hkept'' hd⟩
  · refine .inr ⟨hbefore, fun panid hd => ?_⟩
    obtain hafter | ⟨hfalse, -⟩ := hkept panid hd
    · exact .inl (hkept'' hafter)
    · exact hfalse.elim

theorem Passes.mono (h : Passes queue queue' set set' acked) {acked' : Prop}
    (hacked : acked → acked') : Passes queue queue' set set' acked' := by
  intro e he
  obtain hafter | ⟨hbefore, hkept⟩ := h e he
  · exact .inl hafter
  · exact .inr ⟨hbefore, fun panid hd => (hkept panid hd).imp_right (And.imp_left hacked)⟩

theorem Passes.call {c : Queue.Call} {a : Queue.Answer} (hperforms : queue.Performs c a queue')
    (hacked : (∃ n order, c = .onAck n order) → acked)
    (hset : ∀ e, set'.contains e → (∃ panid, .extended panid e ∈ Queue.touched c) ∨
      set.contains e ∧ ∀ panid, a.event ≠ some (.ready (.queueFlushed (.extended panid e)))) :
    Passes queue queue' set set' acked := by
  intro e he
  obtain ⟨panid, hd⟩ | ⟨hbefore, hunreported⟩ := hset e he
  · exact .inl ⟨panid, hperforms.leaves _ hd⟩
  · refine .inr ⟨hbefore, fun panid hd => ?_⟩
    obtain hafter | hreported | ⟨hack, hemptied⟩ := hperforms.settles _ hd
    · exact .inl hafter
    · exact absurd hreported (hunreported panid)
    · exact .inr ⟨hacked hack, hemptied⟩

end Passes

def Serves (s s' : Service) (acked : Prop) : Prop :=
  Passes s.queue s'.queue s.pendingDataSet.extended s'.pendingDataSet.extended acked

theorem reportResults_spec {G : Frame → Prop} {queue : Queue}
    {inflight : HashMap.Map AddressSpecification Inflight} (h : Drives G calls told queue inflight)
    {results : List (AddressSpecification × Bool)} (hn : (results.map Prod.fst).Nodup)
    (hready : ∀ r ∈ results, (HashMap.get inflight r.1).isSome) :
    ∃ queue' resolutions, reportResults queue results = .ok (queue', resolutions) ∧
      Drives G (calls ++ results.map fun r => .onSendResult r.1 r.2) (told ++ resolutions) queue'
        (results.foldl (fun inflight r => HashMap.remove inflight r.1) inflight) ∧
      (∀ set, Passes queue queue' set set False) ∧
      ∀ panId set, Announces panId queue set → Announces panId queue' set := by
  induction results generalizing calls told queue inflight with
  | nil =>
    refine ⟨queue, [], rfl, ?_, fun _ => .refl, fun _ _ ha => ha⟩
    rw [List.map_nil, List.append_nil, List.append_nil]
    exact h
  | cons r results ih =>
    obtain ⟨d, success⟩ := r
    rw [List.map_cons, List.nodup_cons] at hn
    obtain ⟨hfirst, hrest⟩ := List.forall_mem_cons.mp hready
    obtain ⟨resolution, queue₁, hcall, hperforms, h₁⟩ := h.report hfirst success
    have hready' : ∀ r ∈ results, (HashMap.get (HashMap.remove inflight d) r.1).isSome := by
      intro r hr
      have hne : r.1 ≠ d := fun heq => hn.1 (heq ▸ List.mem_map.mpr ⟨r, hr, rfl⟩)
      rw [HashMap.get_remove, if_neg hne]
      exact hrest r hr
    obtain ⟨queue₂, resolutions, hcalls, h₂, hpasses, hannounces⟩ := ih h₁ hn.2 hready'
    refine ⟨queue₂, resolution.toList ++ resolutions, ?_, ?_, fun set => ?_, fun panId set ha => ?_⟩
    · rw [reportResults, hcall]
      simp only [ok_bind, hcalls]
      rfl
    · rw [List.map_cons, List.append_cons, ← List.append_assoc]
      exact h₂
    · exact .trans (.call hperforms (by simp) fun e he => .inr ⟨he, by simp⟩) (hpasses set)
    · have hlocal := h.isLocal ha.within hfirst
      refine hannounces panId set (ha.call hperforms (fun d' hd' => ?_) (fun e he => .inl he) ?_)
      · rw [List.mem_singleton.mp hd']
        exact hlocal
      · intro e item hi
        by_cases hd' : d = .extended panId e
        · simp [Queue.calls, hd', DeviceQueue.enqueued] at hi
        · simp [Queue.calls, hd'] at hi

/-! The calls. -/

theorem Kept.quiet {s : Service} (h : s.Kept calls told) : s.Kept (calls ++ []) (told ++ []) := by
  rw [List.append_nil, List.append_nil]
  exact h

theorem frameCalls_of_ne {frame : Frame} (hasks : frame.frameType ≠ .command .dataRequest)
    (hack : frame.frameType ≠ .ack) (order : List AddressSpecification) :
    frameCalls frame order = [] := by
  unfold frameCalls
  split
  case h_1 heq => exact absurd heq hasks
  case h_2 heq => exact absurd heq hack
  case h_3 => rfl

def AsksLocally (panId : PANID) (frame : Frame) : Prop :=
  frame.frameType = .command .dataRequest → Local panId frame.source

theorem Kept.handleFrame {s : Service} (h : s.Kept calls told) (frame : Frame)
    {order : List AddressSpecification} (horder : HashMap.Enumerates order s.queue.queues) :
    ∃ s' output, s.handleFrame frame order = .ok (s', output) ∧
      s'.Kept (calls ++ frameCalls frame order) (told ++ output.resolutions) ∧
      s'.associations = s.associations ∧ s.Serves s' (frame.frameType = .ack) ∧
      (AsksLocally s.panId frame → s.Announced → s'.Announced) := by
  unfold Service.handleFrame
  split
  case h_1 hbeacon =>
    rw [frameCalls_of_ne (by simp [hbeacon]) (by simp [hbeacon])]
    exact ⟨s, _, rfl, h.quiet, rfl, .refl, fun _ ha => ha⟩
  case h_2 hasks =>
    have hcalls : frameCalls frame order = [.onDataRequest frame.source] := by
      rw [frameCalls, hasks]
    rw [hcalls]
    -- what is in a queue that is not empty stays announced
    obtain ⟨pending, queue, hcall, hstep, hperforms, hempty⟩ :=
      Queue.onDataRequest_step h.drives.sound frame.source
    have hdrives := h.drives.call hstep trivial (by simp) rfl (by simp)
    obtain ⟨slot, set, hset, hshort, hextended, hkeeps, -, honly⟩ :=
      setPendingData_spec (s := { s with queue := queue }) ⟨hdrives, h.short, h.extended⟩
        frame.source pending
    refine ⟨{ s with queue := queue, pendingDataSet := set }, ⟨slot, [], none⟩, ?_,
      ⟨hdrives, hshort, hextended⟩, rfl, .call hperforms (by simp) fun e he => ?_,
      fun hlocal ha => ?_⟩
    · simp only [hcall, ok_bind, hset]
      rfl
    · obtain ⟨-, panid, heq⟩ | ⟨hbefore, -⟩ := honly e he
      · exact .inl ⟨panid, List.mem_singleton.mpr heq.symm⟩
      · exact .inr ⟨hbefore, by simp⟩
    · have hsource := hlocal hasks
      refine Announces.call ha hperforms (fun d hd => ?_) (fun e he => ?_) fun e item hi => ?_
      · rw [List.mem_singleton.mp hd]
        exact hsource
      · obtain hkept | ⟨hpending, panid, heq⟩ := hkeeps e he
        · exact .inl hkept
        · rw [heq] at hsource hempty
          cases hsource
          exact .inr (hempty hpending)
      · by_cases hd : frame.source = .extended s.panId e
        · simp [Queue.calls, hd, DeviceQueue.enqueued] at hi
        · simp [Queue.calls, hd] at hi
  case h_3 hjoins =>
    rw [frameCalls_of_ne (by simp [hjoins]) (by simp [hjoins])]
    split
    · exact ⟨s, _, rfl, h.quiet, rfl, .refl, fun _ ha => ha⟩
    · exact ⟨s, _, rfl, h.quiet, rfl, .refl, fun _ ha => ha⟩
  case h_4 hack =>
    have hcalls : frameCalls frame order =
        (frame.sequenceNumber.map fun n => Queue.Call.onAck n order).toList := by
      rw [frameCalls, hack]
    rw [hcalls]
    split
    case h_1 n hn =>
      rw [hn]
      obtain ⟨resolutions, queue, hcall, hstep, hperforms⟩ :=
        Queue.onAck_step h.drives.sound n horder
      refine ⟨{ s with queue := queue }, ⟨.none, resolutions, none⟩, ?_,
        ⟨h.drives.call hstep horder (by simp) rfl (by simp), h.short, h.extended⟩, rfl,
        .call hperforms (fun _ => hack) fun e he => .inr ⟨he, by simp⟩, fun _ ha => ?_⟩
      · simp only [hcall, ok_bind]
        rfl
      · exact Announces.quiet ha hperforms rfl fun e he => .inl he
    case h_2 hn =>
      rw [hn]
      exact ⟨s, _, rfl, h.quiet, rfl, .refl, fun _ ha => ha⟩
  case h_5 hasks _ hack =>
    rw [frameCalls_of_ne hasks hack]
    exact ⟨s, _, rfl, h.quiet, rfl, .refl, fun _ ha => ha⟩

def Reads (packet : List UInt8) (P : Frame → Prop) : Prop :=
  match Frame.deserialize packet with
  | .ok (_, frame) => P frame
  | .error _ => True

def Acks (packet : List UInt8) : Prop :=
  ∃ r, Frame.deserialize packet = .ok r ∧ r.2.frameType = .ack

theorem Kept.handlePacket {s : Service} (h : s.Kept calls told) (packet : List UInt8)
    {order : List AddressSpecification} (horder : HashMap.Enumerates order s.queue.queues) :
    ∃ s' output, s.handlePacket packet order = .ok (s', output) ∧
      s'.Kept (calls ++ packetCalls packet order) (told ++ output.resolutions) ∧
      s'.associations = s.associations ∧ s.Serves s' (Acks packet) ∧
      (Reads packet (AsksLocally s.panId) → s.Announced → s'.Announced) := by
  unfold Service.handlePacket Reads packetCalls
  cases hframe : Frame.deserialize packet with
  | error e => exact ⟨s, _, rfl, h.quiet, rfl, .refl, fun _ ha => ha⟩
  | ok r =>
    obtain ⟨s', output, hcall, hkept, hsame, hserves, hannounced⟩ := h.handleFrame r.2 horder
    exact ⟨s', output, hcall, hkept, hsame, Passes.mono hserves fun hack => ⟨r, hframe, hack⟩,
      hannounced⟩

theorem Kept.pollQueue {s : Service} (h : s.Kept calls told) (cx : Waker) (due : List Nat) :
    ∃ s' output, s.pollQueue cx due = .ok (s', output) ∧
      s'.Kept (calls ++ s.queueCalls (.pollQueue cx due)) (told ++ output.resolutions) ∧
      s'.associations = s.associations ∧ s.Serves s' False ∧ (s.Announced → s'.Announced) := by
  obtain ⟨event, queue, resolutions, hcall, hstep, hperforms⟩ :=
    Queue.pollNext_step h.drives.sound cx due
  unfold Service.pollQueue
  rw [hcall, ok_bind]
  cases event with
  | pending =>
    have hdrives := h.drives.call hstep trivial (by simp) rfl (by simp)
    refine ⟨{ s with queue := queue }, ⟨.none, resolutions, none⟩, rfl,
      ⟨hdrives, h.short, h.extended⟩, rfl,
      .call hperforms (by simp) fun e he => .inr ⟨he, by simp⟩, fun ha => ?_⟩
    exact Announces.quiet ha hperforms rfl fun e he => .inl he
  | ready event =>
    cases event with
    | outgoingFrame destination frame =>
      obtain ⟨-, hdrives⟩ := h.drives.handOver hstep
      refine ⟨{ s with queue := queue, inflight := _ }, ⟨.none, resolutions, none⟩, rfl,
        ⟨hdrives, h.short, h.extended⟩, rfl,
        .call hperforms (by simp) fun e he => .inr ⟨he, by simp⟩, fun ha => ?_⟩
      exact Announces.quiet ha hperforms rfl fun e he => .inl he
    | queueFlushed destination =>
      have hdrives := h.drives.call hstep trivial (by simp) rfl (by simp)
      obtain ⟨slot, set, hset, hshort, hextended, hkeeps, -, honly⟩ :=
        setPendingData_spec (s := { s with queue := queue }) ⟨hdrives, h.short, h.extended⟩
          destination false
      refine ⟨{ s with queue := queue, pendingDataSet := set }, ⟨slot, resolutions, none⟩, ?_,
        ⟨hdrives, hshort, hextended⟩, rfl, .call hperforms (by simp) fun e he => ?_,
        fun ha => ?_⟩
      · simp only [hset, ok_bind]
        rfl
      · obtain ⟨hfalse, -⟩ | ⟨hbefore, hother⟩ := honly e he
        · cases hfalse
        · exact .inr ⟨hbefore, fun panid heq => hother panid (by cases heq; rfl)⟩
      · -- it has nothing left when it is flushed
        obtain ⟨-, hflushed⟩ :=
          hperforms.within _ (fun d hd => absurd hd List.not_mem_nil) ha.within
        obtain ⟨hlocal, hidle⟩ := hflushed destination rfl
        refine Announces.quiet ha hperforms rfl fun e he => ?_
        obtain hkept | ⟨-, panid, heq⟩ := hkeeps e he
        · exact .inl hkept
        · rw [heq] at hlocal hidle
          cases hlocal
          exact .inr hidle

theorem Kept.pollInflight {s : Service} (h : s.Kept calls told)
    {results : List (AddressSpecification × Bool)} (hn : (results.map Prod.fst).Nodup)
    (hready : ∀ r ∈ results, (HashMap.get s.inflight r.1).isSome) :
    ∃ s' output, s.pollInflight results = .ok (s', output) ∧
      s'.Kept (calls ++ s.queueCalls (.pollInflight results)) (told ++ output.resolutions) ∧
      s'.associations = s.associations ∧ s.Serves s' False ∧ (s.Announced → s'.Announced) := by
  obtain ⟨queue, resolutions, hcall, hdrives, hpasses, hannounces⟩ :=
    reportResults_spec h.drives hn hready
  refine ⟨{ s with queue := queue, inflight := _ }, ⟨.none, resolutions, none⟩, ?_,
    ⟨hdrives, h.short, h.extended⟩, rfl, hpasses _, hannounces _ _⟩
  unfold Service.pollInflight
  simp only [hcall, ok_bind]
  rfl

theorem mem_enqueued {d : AddressSpecification} {frame : Frame} {receiverOnWhenIdle : Bool}
    {callback : Nat} {item : DeviceQueueItem}
    (hi : item ∈ (Queue.calls d (.enqueue frame receiverOnWhenIdle callback)).flatMap
      DeviceQueue.enqueued) :
    frame.destination = d ∧ item.waitForDatarequest = !receiverOnWhenIdle := by
  obtain ⟨_, _, _, hcall, hd, rfl⟩ := Queue.enqueue_of_mem hi
  cases hcall
  exact ⟨hd, rfl⟩

theorem Kept.sendFrameQueued {s : Service} (h : s.Kept calls told) {frame : Frame}
    (hframe : Tells s.panId s.extendedAddress s.associations frame) (callback : Nat) :
    ∃ s' output, s.sendFrameQueued frame callback = .ok (s', output) ∧
      s'.Kept (calls ++ [.enqueue frame (s.receiverOnWhenIdle frame.destination) callback])
        (told ++ output.resolutions) ∧
      s'.associations = s.associations ∧ s.Serves s' False ∧
      (Local s.panId frame.destination → s.Announced → s'.Announced) := by
  unfold Service.sendFrameQueued receiverOnWhenIdle
  cases ((s.getNodeinfoForAddrspec frame.destination).map (·.receiverOnWhenIdle)).getD true with
  | true =>
    obtain ⟨resolution, queue, hcall, hstep, hperforms⟩ :=
      Queue.enqueue_step h.drives.sound frame true callback
    have hdrives := h.drives.call hstep trivial (by simp) rfl
      fun _ _ _ heq => by cases heq; exact hframe
    refine ⟨{ s with queue := queue }, ⟨.none, resolution.toList, none⟩, ?_,
      ⟨hdrives, h.short, h.extended⟩, rfl,
      .call hperforms (by simp) fun e he => .inr ⟨he, by simp⟩, fun hlocal ha => ?_⟩
    · simp only [if_true, ok_bind, hcall]
      rfl
    · refine Announces.call ha hperforms (fun d hd => ?_) (fun e he => .inl he)
        fun e item hi hwait => ?_
      · rw [List.mem_singleton.mp hd]
        exact hlocal
      · rw [(mem_enqueued hi).2] at hwait
        cases hwait
  | false =>
    obtain ⟨slot, set, hset, hshort, hextended, hkeeps, hadds, honly⟩ :=
      setPendingData_spec h frame.destination true
    obtain ⟨resolution, queue, hcall, hstep, hperforms⟩ :=
      Queue.enqueue_step h.drives.sound frame false callback
    have hdrives := h.drives.call hstep trivial (by simp) rfl
      fun _ _ _ heq => by cases heq; exact hframe
    refine ⟨{ s with queue := queue, pendingDataSet := set }, ⟨slot, resolution.toList, none⟩, ?_,
      ⟨hdrives, hshort, hextended⟩, rfl, .call hperforms (by simp) fun e he => ?_,
      fun hlocal ha => ?_⟩
    · simp only [Bool.false_eq_true, if_false, hset, ok_bind, hcall]
      rfl
    · obtain ⟨-, panid, heq⟩ | ⟨hbefore, -⟩ := honly e he
      · exact .inl ⟨panid, List.mem_singleton.mpr heq.symm⟩
      · exact .inr ⟨hbefore, by simp⟩
    · refine Announces.call ha hperforms (fun d hd => ?_) (fun e he => .inl ?_)
        fun e item hi _ => hadds rfl s.panId e (mem_enqueued hi).1
      · rw [List.mem_singleton.mp hd]
        exact hlocal
      · obtain hkept | ⟨hfalse, -⟩ := hkeeps e he
        · exact hkept
        · cases hfalse

theorem Kept.sendAssociationResponse {s : Service} (h : s.Kept calls told)
    (extendedAddress : ExtendedAddress) (callback : Nat) :
    ∃ s' output, s.sendAssociationResponse extendedAddress callback = .ok (s', output) ∧
      s'.Kept (calls ++ s.responseCalls extendedAddress callback) (told ++ output.resolutions) ∧
      s'.associations = s.associations ∧ s.Serves s' False ∧
      (s.Announced → s'.Announced) := by
  unfold Service.sendAssociationResponse
  split
  case h_1 shortAddress hget =>
    rw [responseCalls, hget]
    have hmem := TwoWayMap.getByRight_eq_some_iff.mp hget
    obtain ⟨s', output, hcall, hkept, hsame, hserves, hannounced⟩ :=
      Kept.sendFrameQueued (s := s.freshSequenceNumber.2) ⟨h.drives, h.short, h.extended⟩
        ⟨extendedAddress, shortAddress, s.freshSequenceNumber.1, hmem, rfl⟩ callback
    exact ⟨s', output, hcall, hkept, hsame, hserves, hannounced rfl⟩
  case h_2 hget =>
    rw [responseCalls, hget]
    exact ⟨s, _, rfl, h.quiet, rfl, .refl, fun ha => ha⟩

/-! Addresses. -/

section Addresses
variable {associations : BiMap ShortAddress ExtendedAddress} {n : Nat} {retval : UInt16}

theorem succ_toNat (h : retval.toNat + (n + 2) ≤ 65536) :
    (retval + 1).toNat = retval.toNat + 1 := by
  rw [UInt16.toNat_add]
  exact Nat.mod_eq_of_lt (by change _ + 1 < 65536; omega)

theorem findFree_some (hn : retval.toNat + n ≤ 65536) {a : ShortAddress}
    (h : findFree associations n retval = some a) :
    TwoWayMap.getByLeft associations a = none ∧ ∀ b : UInt16, retval.toNat ≤ b.toNat →
      b.toNat < a.value.toNat → (TwoWayMap.getByLeft associations ⟨b⟩).isSome := by
  induction n generalizing retval with
  | zero => cases h
  | succ n ih =>
    rw [findFree] at h
    split at h
    case isTrue htaken =>
      cases n with
      | zero => cases h
      | succ n =>
        have hsucc := succ_toNat hn
        obtain ⟨hfree, hbelow⟩ := ih (by omega) h
        refine ⟨hfree, fun b hle hlt => ?_⟩
        by_cases hb : b = retval
        · rw [hb]
          exact htaken
        · have hne : b.toNat ≠ retval.toNat := fun heq => hb (UInt16.toNat_inj.mp heq)
          exact hbelow b (by omega) hlt
    case isFalse hfree =>
      cases h
      exact ⟨by simpa using hfree, fun b hle hlt => absurd (hle.trans_lt hlt) (lt_irrefl _)⟩

theorem findFree_none (hn : retval.toNat + n ≤ 65536)
    (h : findFree associations n retval = none) (b : UInt16) (hle : retval.toNat ≤ b.toNat)
    (hlt : b.toNat < retval.toNat + n) : (TwoWayMap.getByLeft associations ⟨b⟩).isSome := by
  induction n generalizing retval with
  | zero => omega
  | succ n ih =>
    rw [findFree] at h
    split at h
    case isTrue htaken =>
      by_cases hb : b = retval
      · rw [hb]
        exact htaken
      · have hne : b.toNat ≠ retval.toNat := fun heq => hb (UInt16.toNat_inj.mp heq)
        cases n with
        | zero => omega
        | succ n =>
          have hsucc := succ_toNat hn
          exact ih (by omega) h (by omega) (by omega)
    case isFalse => cases h

end Addresses

structure Gives (s : Service) (e : ExtendedAddress) (a : ShortAddress) : Prop where
  known : ∀ a', TwoWayMap.getByRight s.associations e = some a' → a = a'
  smallest : TwoWayMap.getByRight s.associations e = none →
    TwoWayMap.getByLeft s.associations a = none ∧
      ∀ b : UInt16, b < a.value → (TwoWayMap.getByLeft s.associations ⟨b⟩).isSome

theorem associate_some {s s' : Service} {e : ExtendedAddress} {receiverOnWhenIdle : Bool}
    {a : ShortAddress} (h : s.associate e receiverOnWhenIdle = some (a, s')) :
    s.Gives e a ∧ (a, e) ∈ s'.associations ∧ (∀ p ∈ s.associations, p ∈ s'.associations) ∧
      s'.queue = s.queue ∧ s'.inflight = s.inflight ∧ s'.pendingDataSet = s.pendingDataSet ∧
      s'.panId = s.panId ∧ s'.extendedAddress = s.extendedAddress := by
  unfold Service.associate at h
  cases hknown : TwoWayMap.getByRight s.associations e with
  | some left =>
    simp only [hknown] at h
    cases h
    refine ⟨⟨fun a' ha => Option.some.inj (hknown.symm.trans ha), fun hnone => ?_⟩,
      TwoWayMap.getByRight_eq_some_iff.mp hknown, fun p hp => hp, rfl, rfl, rfl, rfl, rfl⟩
    rw [hknown] at hnone
    cases hnone
  | none =>
    simp only [hknown] at h
    obtain ⟨a', hfind, heq⟩ := Option.bind_eq_some_iff.mp h
    cases heq
    obtain ⟨hfree, hbelow⟩ := findFree_some (by decide) hfind
    refine ⟨⟨fun a' ha => ?_, fun _ => ⟨hfree, fun b hb => hbelow b (Nat.zero_le _) hb⟩⟩, ?_,
      fun p hp => ?_, rfl, rfl, rfl, rfl, rfl⟩
    · rw [hknown] at ha
      cases ha
    · exact TwoWayMap.mem_insert.mpr (.inl rfl)
    · refine TwoWayMap.mem_insert.mpr (.inr ⟨hp, fun hleft => ?_, fun hright => ?_⟩)
      · have hsome := TwoWayMap.getByLeft_eq_some_iff.mpr (show (a, p.2) ∈ s.associations from
          hleft ▸ hp)
        change TwoWayMap.getByLeft s.associations a = none at hfree
        rw [hfree] at hsome
        cases hsome
      · have hsome := TwoWayMap.getByRight_eq_some_iff.mpr (show (p.1, e) ∈ s.associations from
          hright ▸ hp)
        rw [hknown] at hsome
        cases hsome

theorem associate_none {s : Service} {e : ExtendedAddress} {receiverOnWhenIdle : Bool}
    (h : s.associate e receiverOnWhenIdle = none) (b : UInt16) :
    (TwoWayMap.getByLeft s.associations ⟨b⟩).isSome := by
  unfold Service.associate at h
  cases hknown : TwoWayMap.getByRight s.associations e with
  | some left =>
    simp only [hknown] at h
    cases h
  | none =>
    simp only [hknown] at h
    cases hfind : findFree s.associations 65536 0 with
    | some a =>
      change (findFree s.associations 65536 0 >>= _) = none at h
      rw [hfind] at h
      cases h
    | none => exact findFree_none (by decide) hfind b (Nat.zero_le _) (by
        change _ < 0 + 65536
        have hlt := b.toNat_lt
        omega)

/-! Runs. -/

/- No device of another network asks for frames. -/
def Own (s : Service) : Call → Prop
  | .packet packet _ => Reads packet (AsksLocally s.panId)
  | _ => True

structure Takes (calls : List Queue.Call) (told : List Resolution) (s : Service) (c : Call)
    (a : Answer) (s' : Service) : Prop where
  kept : s'.Kept (calls ++ s.queueCalls c) (told ++ a.resolutions)
  associations : ∀ p ∈ s.associations, p ∈ s'.associations
  announced : Own s c → s.Announced → s'.Announced
  serves : s.Serves s' (∃ packet order, c = .packet packet order ∧ Acks packet)
  gives : ∀ e receiverOnWhenIdle shortAddress, c = .associate e receiverOnWhenIdle →
    a = .associated shortAddress → s.Gives e shortAddress ∧ (shortAddress, e) ∈ s'.associations

theorem Kept.takes {s s' : Service} {c : Call} {a : Answer}
    (h : s'.Kept (calls ++ s.queueCalls c) (told ++ a.resolutions))
    (hsame : s'.associations = s.associations)
    (hannounced : Own s c → s.Announced → s'.Announced)
    (hserves : s.Serves s' (∃ packet order, c = .packet packet order ∧ Acks packet))
    (hc : ∀ e receiverOnWhenIdle, c ≠ .associate e receiverOnWhenIdle) :
    s.Takes calls told c a s' where
  kept := h
  associations _ hp := hsame.symm ▸ hp
  announced := hannounced
  serves := hserves
  gives e receiverOnWhenIdle _ heq _ := absurd heq (hc e receiverOnWhenIdle)

theorem yields_isSome {future : Option Inflight} {success : Bool}
    (h : mayYield future success) : future.isSome := by
  cases future with
  | none => cases h
  | some future => rfl

/-- A call succeeds, but for one that looks for an address where none is free. -/
theorem step_spec {s : Service} (h : s.Kept calls told) {c : Call} (hc : Allowed [] s c) :
    (∃ s' a, step s c = some (s', a) ∧ s.Takes calls told c a s') ∨
      ∃ e receiverOnWhenIdle, c = .associate e receiverOnWhenIdle ∧ step s c = none ∧
        ∀ b, (TwoWayMap.getByLeft s.associations ⟨b⟩).isSome := by
  cases c with
  | packet packet order =>
    obtain ⟨s', output, hcall, hkept, hsame, hserves, hannounced⟩ := h.handlePacket packet hc
    exact .inl ⟨s', .output output, by rw [step, hcall]; rfl,
      hkept.takes hsame hannounced (Passes.mono hserves fun hack => ⟨_, _, rfl, hack⟩)
        (by simp)⟩
  | pollQueue cx due =>
    obtain ⟨s', output, hcall, hkept, hsame, hserves, hannounced⟩ := h.pollQueue cx due
    exact .inl ⟨s', .output output, by rw [step, hcall]; rfl,
      hkept.takes hsame (fun _ => hannounced) (Passes.mono hserves False.elim) (by simp)⟩
  | pollInflight results =>
    obtain ⟨s', output, hcall, hkept, hsame, hserves, hannounced⟩ :=
      h.pollInflight hc.1 fun r hr => yields_isSome (hc.2 r hr)
    exact .inl ⟨s', .output output, by rw [step, hcall]; rfl,
      hkept.takes hsame (fun _ => hannounced) (Passes.mono hserves False.elim) (by simp)⟩
  | sendBeacon payload =>
    have hkept : (s.sendBeacon payload).2.Kept calls told := ⟨h.drives, h.short, h.extended⟩
    exact .inl ⟨_, .beacon _, rfl,
      Kept.takes (s := s) hkept.quiet rfl (fun _ ha => ha) Passes.refl (by simp)⟩
  | associate e receiverOnWhenIdle =>
    cases hcall : s.associate e receiverOnWhenIdle with
    | none =>
      exact .inr ⟨e, receiverOnWhenIdle, rfl, by rw [step, hcall]; rfl, associate_none hcall⟩
    | some r =>
      obtain ⟨shortAddress, s'⟩ := r
      obtain ⟨hgives, hmem, hassociations, hqueue, hinflight, hset, hpan, hextended⟩ :=
        associate_some hcall
      refine .inl ⟨s', .associated shortAddress, by rw [step, hcall]; rfl, Kept.quiet ⟨?_, ?_, ?_⟩,
        hassociations, fun _ ha => ?_, ?_, ?_⟩
      · rw [hqueue, hinflight, hpan, hextended]
        exact h.drives.mono fun frame ⟨e', a', n, hmem', heq⟩ =>
          ⟨e', a', n, hassociations _ hmem', heq⟩
      · rw [hset]
        exact h.short
      · rw [hset]
        exact h.extended
      · rw [Announced, hpan, hqueue, hset]
        exact ha
      · rw [Serves, hqueue, hset]
        exact Passes.refl
      · intro e' _ shortAddress' heq ha
        cases heq
        cases ha
        exact ⟨hgives, hmem⟩
  | sendAssociationResponse extendedAddress callback =>
    obtain ⟨s', output, hcall, hkept, hsame, hserves, hannounced⟩ :=
      h.sendAssociationResponse extendedAddress callback
    exact .inl ⟨s', .output output, by rw [step, hcall]; rfl,
      hkept.takes hsame (fun _ => hannounced) (Passes.mono hserves False.elim) (by simp)⟩

theorem takes_of_step {s s' : Service} (h : s.Kept calls told) {past : Past} {c : Call}
    {a : Answer} (hc : Allowed past s c) (hstep : step s c = some (s', a)) :
    s.Takes calls told c a s' := by
  obtain ⟨s₁, a₁, hok, htakes⟩ | ⟨_, _, _, hnone, _⟩ := step_spec h (c := c) hc
  · rw [hok] at hstep
    cases hstep
    exact htakes
  · rw [hnone] at hstep
    cases hstep

section Runs
variable {extendedAddress : ExtendedAddress} {shortAddress : ShortAddress} {panId : PANID}
  {start s : Service} {h : Past}

theorem kept_new (hnew : new extendedAddress shortAddress panId = .ok start) :
    start.Kept [] [] ∧ (shortAddress, extendedAddress) ∈ start.associations := by
  obtain ⟨set, hset, hret⟩ := exists_of_bind_ok hnew
  obtain ⟨short, hshort, hrest⟩ := exists_of_bind_ok hset
  obtain ⟨extended, hextended, heq⟩ := exists_of_bind_ok hrest
  cases heq
  cases hret
  refine ⟨⟨⟨[], ⟨.start, fun d => rfl, fun t ht => absurd ht List.not_mem_nil,
    fun d future hf => by cases hf⟩, rfl, rfl⟩, ⟨short, [], hshort, .start⟩,
    ⟨extended, [], hextended, .start⟩⟩, ?_⟩
  exact TwoWayMap.mem_insert.mpr (.inl rfl)

theorem run_kept (hnew : new extendedAddress shortAddress panId = .ok start)
    (hr : Run step Allowed start h s) :
    s.Kept (flow (fun t => t.before.queueCalls t.event) h)
      (flow (fun t => t.output.resolutions) h) := by
  refine hr.invariant (P := fun h s => s.Kept (flow (fun t => t.before.queueCalls t.event) h)
    (flow (fun t => t.output.resolutions) h)) (kept_new hnew).1 ?_
  exact fun _ _ _ _ _ _ hkept hc hstep => (takes_of_step hkept hc hstep).kept

/-- In every run of the service, with an executor that takes its tasks and a radio bridge whose
writer runs, no call fails, but for a device that wants an address when none is left; the calls that
it makes of its queues, in their order and with what they bring, are a run of the queues in which a
result comes only for a frame that is out; the radio never has two frames for one destination, and
it has one or one waits just if the queue of the destination is sending. So no future is ever
replaced by another. -/
theorem service_never_fails (hnew : new extendedAddress shortAddress panId = .ok start)
    (hr : Run step Allowed start h s) :
    (∀ d, (HashMap.get s.inflight d).isSome.toNat +
      (Queue.framesFor d s.queue.outgoing).length = (s.queue.device d).sending.toNat) ∧
    (∃ p, Run Queue.step Queue.Reported Queue.new p s.queue ∧
      flow (fun t => [t.event]) p = flow (fun t => t.before.queueCalls t.event) h ∧
      flow (fun t => t.output.resolutions) p = flow (fun t => t.output.resolutions) h) ∧
    ∀ c, Allowed h s c → (step s c).isSome ∨ ∃ e receiverOnWhenIdle,
      c = .associate e receiverOnWhenIdle ∧
        ∀ b, (TwoWayMap.getByLeft s.associations ⟨b⟩).isSome := by
  have hkept := run_kept hnew hr
  obtain ⟨p, hp, hlog⟩ := hkept.drives
  refine ⟨fun d => ?_, ⟨p, hp.run, hlog⟩, fun c hc => ?_⟩
  · have hhanded := Queue.handed_of_run hp.run d
    have hd := hp.count d
    omega
  · obtain ⟨s', a, hok, -⟩ | ⟨e, receiverOnWhenIdle, heq, -, htaken⟩ := step_spec hkept (c := c) hc
    · exact .inl (by rw [hok]; rfl)
    · exact .inr ⟨e, receiverOnWhenIdle, heq, htaken⟩

/-- In every run each frame with the radio is bytes that are read back as the response that tells a
device of the network the address that it has, and that no other has. -/
theorem futures_carry_given_address (hnew : new extendedAddress shortAddress panId = .ok start)
    (hr : Run step Allowed start h s) {d : AddressSpecification} {future : Inflight}
    (hfuture : HashMap.get s.inflight d = some future) :
    ∃ e a n packet, d = .extended s.panId e ∧ TwoWayMap.getByRight s.associations e = some a ∧
      (∀ e', TwoWayMap.getByRight s.associations e' = some a → e' = e) ∧ future = .sending packet ∧
      Frame.deserialize packet = .ok ([], responseTo s.panId s.extendedAddress e a n) := by
  obtain ⟨p, hp, -⟩ := (run_kept hnew hr).drives
  obtain ⟨frame, hmem, rfl⟩ := hp.futures d future hfuture
  obtain ⟨t, ht, _, _, hcall, hdestination⟩ :=
    Queue.enqueued_of_handed (Queue.run_inOrder hp.run) hmem
  obtain ⟨e, a, n, hassociation, rfl⟩ := hp.given t ht _ _ _ hcall
  obtain ⟨packet, hwrite, hread⟩ :=
    frame_read_back (f := responseTo s.panId s.extendedAddress e a n) rfl
  refine ⟨e, a, n, packet, hdestination.symm, TwoWayMap.getByRight_eq_some_iff.mpr hassociation,
    fun e' he' => ?_, ?_, hread⟩
  · exact TwoWayMap.right_unique (TwoWayMap.getByRight_eq_some_iff.mp he') hassociation
  · change (responseTo s.panId s.extendedAddress e a n).serializeTo [] = _ at hwrite
    rw [sendFrameNoqueue, hwrite]

/- Everything is allowed but a request from another network. -/
def OwnOnly (h : Past) (s : Service) (c : Call) : Prop := Allowed h s c ∧ Own s c

theorem announced_new (hnew : new extendedAddress shortAddress panId = .ok start) :
    start.Announced := by
  obtain ⟨set, -, hret⟩ := exists_of_bind_ok hnew
  cases hret
  exact ⟨⟨fun d hd => absurd hd List.not_mem_nil, fun d hbusy => absurd rfl hbusy⟩,
    fun e item hi => absurd hi List.not_mem_nil⟩

/-- In every run in which no device of another network asks for frames, a device that sleeps is in
the set of those that are told of waiting frames as long as a frame for it waits for its request,
and has a slot of the radio unless there are more than eight of them. -/
theorem sleepers_announced (hnew : new extendedAddress shortAddress panId = .ok start)
    (hr : Run step OwnOnly start h s) {e : ExtendedAddress} {item : DeviceQueueItem}
    (hitem : item ∈ (s.queue.device (.extended s.panId e)).items)
    (hwait : item.waitForDatarequest) : s.pendingDataSet.contains (.extended s.panId e) ∧
      (s.pendingDataSet.extended.len ≤ 8 → (s.pendingDataSet.extended.hasSlot e).isSome) := by
  have hinvariant : (∃ calls told, s.Kept calls told) ∧ s.Announced := by
    refine hr.invariant (P := fun _ s => (∃ calls told, s.Kept calls told) ∧ s.Announced)
      ⟨⟨[], [], (kept_new hnew).1⟩, announced_new hnew⟩ ?_
    rintro h s c s' a - ⟨⟨calls, told, hkept⟩, hannounced⟩ hc hstep
    have htakes := takes_of_step hkept hc.1 hstep
    exact ⟨⟨_, _, htakes.kept⟩, htakes.announced hc.2 hannounced⟩
  obtain ⟨⟨calls, told, hkept⟩, hannounced⟩ := hinvariant
  have hcontains := hannounced.waits e item hitem hwait
  exact ⟨hcontains, hkept.extended.hasSlot hcontains⟩

/- An acknowledgement took the last frame, and no other has come since. -/
def Acknowledged (h : Past) (d : AddressSpecification) : Prop :=
  ∃ later past u, h = later ++ u :: past ∧
    (∃ packet order, u.event = .packet packet order ∧ Acks packet) ∧
    u.before.queue.device d ≠ .idle ∧ u.after.queue.device d = .idle ∧
    ∀ t ∈ later, t.after.queue.device d = .idle

theorem Acknowledged.later {d : AddressSpecification} (hd : Acknowledged h d)
    {t : Transition Service Call Answer} (hidle : t.after.queue.device d = .idle) :
    Acknowledged (t :: h) d := by
  obtain ⟨later, past, u, rfl, hack, hbefore, hafter, hsince⟩ := hd
  exact ⟨t :: later, past, u, rfl, hack, hbefore, hafter,
    List.forall_mem_cons.mpr ⟨hidle, hsince⟩⟩

/-- In every run an address is in the set of those that are told of waiting frames only as long as
its queue holds one or is still to be reported as flushed, or else after an acknowledgement has
taken the last one: that is not reported, and the address stays. -/
theorem unsettled_or_acknowledged_of_announced
    (hnew : new extendedAddress shortAddress panId = .ok start)
    (hr : Run step Allowed start h s) {e : ExtendedAddress}
    (he : s.pendingDataSet.extended.contains e) : ∃ panid,
      s.queue.device (.extended panid e) ≠ .idle ∨ .extended panid e ∈ s.queue.flushed ∨
        Acknowledged h (.extended panid e) := by
  have hstanding : ∃ panid, s.queue.Unsettled (.extended panid e) ∨
      Acknowledged h (.extended panid e) := by
    induction hr generalizing e with
    | start =>
      obtain ⟨set, hset, hret⟩ := exists_of_bind_ok hnew
      obtain ⟨short, -, hrest⟩ := exists_of_bind_ok hset
      obtain ⟨extended, hextended, heq⟩ := exists_of_bind_ok hrest
      cases heq
      cases hret
      cases hextended
      cases he
    | @next h s s' c a hrun hc hstep ih =>
      have htakes := takes_of_step (run_kept hnew hrun) hc hstep
      obtain ⟨panid, hd⟩ | ⟨hbefore, hkept⟩ := htakes.serves e he
      · exact ⟨panid, .inl hd⟩
      obtain ⟨panid, hd⟩ := ih hbefore
      refine ⟨panid, ?_⟩
      obtain hd | hd := hd
      · obtain hafter | ⟨hack, hbusy, hidle⟩ := hkept panid hd
        · exact .inl hafter
        · exact .inr ⟨[], h, _, rfl, hack, hbusy, hidle, fun t ht => absurd ht List.not_mem_nil⟩
      · by_cases hidle : s'.queue.device (.extended panid e) = .idle
        · exact .inr (hd.later hidle)
        · exact .inl (.inl hidle)
  obtain ⟨panid, hd⟩ := hstanding
  exact ⟨panid, or_assoc.mp hd⟩

/- A device that sleeps joins: it asks for the answer, which goes out and is acknowledged. -/
def freeSlots (T : Type) : MRUSet T := ⟨∅, ∅, ∅, ∅, none, none, List.range 8⟩

def coordinator : Service where
  sequenceNumber := 0
  panId := ⟨0x1234⟩
  shortAddress := ⟨0⟩
  extendedAddress := ⟨1⟩
  associations := TwoWayMap.insert TwoWayMap.empty ⟨0⟩ ⟨1⟩
  nodeinfo := ∅
  queue := .new
  inflight := ∅
  pendingDataSet := ⟨freeSlots _, freeSlots _⟩

theorem new_coordinator : new ⟨1⟩ ⟨0⟩ ⟨0x1234⟩ = .ok coordinator := rfl

def joiner : AddressSpecification := .extended ⟨0x1234⟩ ⟨7⟩

def joining : List Call :=
  [.associate ⟨7⟩ false, .sendAssociationResponse ⟨7⟩ 0,
    .packet [0x63, 0xc8, 1, 0x34, 0x12, 0, 0, 7, 0, 0, 0, 0, 0, 0, 0, 4] [joiner],
    .pollQueue 0 [], .pollInflight [(joiner, true)], .packet [2, 0, 1] [joiner]]

def joinedUntil (n : Nat) : Past × Service := replay step Allowed coordinator (joining.take n)

def joiningCalls : List Queue.Call :=
  [.enqueue (responseTo ⟨0x1234⟩ ⟨1⟩ ⟨7⟩ ⟨1⟩ 1) false 0, .onDataRequest joiner, .pollNext 0 [],
    .onSendResult joiner true, .onAck 1 [joiner]]

theorem service_never_fails_joined :
    ((HashMap.get (joinedUntil 4).2.inflight joiner).isSome ∧
      (HashMap.get (joinedUntil 4).2.inflight joiner).isSome.toNat +
        (Queue.framesFor joiner (joinedUntil 4).2.queue.outgoing).length =
          ((joinedUntil 4).2.queue.device joiner).sending.toNat) ∧
    ∃ p, Run Queue.step Queue.Reported Queue.new p (joinedUntil 6).2.queue ∧
      flow (fun t => [t.event]) p = joiningCalls ∧
      (flow (fun t => t.output.resolutions) p).map (fun r => (r.item.callback, r.result)) =
        [(0, .ok ())] := by
  have hsent := (service_never_fails new_coordinator (run_replay (joining.take 4))).1 joiner
  obtain ⟨-, ⟨p, hrun, hcalls, htold⟩, -⟩ :=
    service_never_fails new_coordinator (run_replay (joining.take 6))
  have hjoining : flow (fun t => t.before.queueCalls t.event) (joinedUntil 6).1 = joiningCalls := by
    decide
  refine ⟨⟨by decide, hsent⟩, p, hrun, hcalls.trans hjoining, ?_⟩
  rw [htold]
  decide

theorem futures_carry_given_address_joined :
    ∃ future, HashMap.get (joinedUntil 4).2.inflight joiner = some future ∧
      ∃ e a n packet, joiner = .extended (joinedUntil 4).2.panId e ∧
        TwoWayMap.getByRight (joinedUntil 4).2.associations e = some a ∧
        (∀ e', TwoWayMap.getByRight (joinedUntil 4).2.associations e' = some a → e' = e) ∧
        future = .sending packet ∧ Frame.deserialize packet =
          .ok ([], responseTo (joinedUntil 4).2.panId (joinedUntil 4).2.extendedAddress e a n) := by
  have hsome : (HashMap.get (joinedUntil 4).2.inflight joiner).isSome := by decide
  obtain ⟨future, hfuture⟩ := Option.isSome_iff_exists.mp hsome
  exact ⟨future, hfuture,
    futures_carry_given_address new_coordinator (run_replay (joining.take 4)) hfuture⟩

theorem unsettled_or_acknowledged_of_announced_joined :
    ((joinedUntil 6).2.queue.device joiner).items = [] ∧ ∃ panid,
      (joinedUntil 6).2.queue.device (.extended panid ⟨7⟩) ≠ .idle ∨
        .extended panid ⟨7⟩ ∈ (joinedUntil 6).2.queue.flushed ∨
          Acknowledged (joinedUntil 6).1 (.extended panid ⟨7⟩) :=
  ⟨by decide, unsettled_or_acknowledged_of_announced new_coordinator
    (run_replay (joining.take 6)) (by decide)⟩

theorem run_associations (hnew : new extendedAddress shortAddress panId = .ok start)
    (hr : Run step Allowed start h s) : (shortAddress, extendedAddress) ∈ s.associations ∧
      ∀ t ∈ h, ∀ e receiverOnWhenIdle a, t.event = .associate e receiverOnWhenIdle →
        t.output = .associated a → t.before.Gives e a ∧ (a, e) ∈ s.associations := by
  induction hr with
  | start => exact ⟨(kept_new hnew).2, fun t ht => absurd ht List.not_mem_nil⟩
  | @next h s s' c a hrun hc hstep ih =>
    have htakes := takes_of_step (run_kept hnew hrun) hc hstep
    refine ⟨htakes.associations _ ih.1, fun t ht e receiverOnWhenIdle a' hcall hanswer => ?_⟩
    obtain rfl | ht := List.mem_cons.mp ht
    · exact htakes.gives e receiverOnWhenIdle a' hcall hanswer
    · obtain ⟨hgives, hmem⟩ := ih.2 t ht e receiverOnWhenIdle a' hcall hanswer
      exact ⟨hgives, htakes.associations _ hmem⟩

/-- In every run a device that asks for an address gets the one it has, else the smallest that is
free; two devices never have one address, nor does a device have that of the coordinator. -/
theorem addresses_unique (hnew : new extendedAddress shortAddress panId = .ok start)
    (hr : Run step Allowed start h s) {t : Transition Service Call Answer} (ht : t ∈ h)
    {e : ExtendedAddress} {receiverOnWhenIdle : Bool} {a : ShortAddress}
    (hcall : t.event = .associate e receiverOnWhenIdle) (hanswer : t.output = .associated a) :
    t.before.Gives e a ∧ (a = shortAddress ↔ e = extendedAddress) ∧
      ∀ t' ∈ h, ∀ e' receiverOnWhenIdle' a', t'.event = .associate e' receiverOnWhenIdle' →
        t'.output = .associated a' → (a' = a ↔ e' = e) := by
  obtain ⟨hcoordinator, hgiven⟩ := run_associations hnew hr
  obtain ⟨hgives, hmem⟩ := hgiven t ht e receiverOnWhenIdle a hcall hanswer
  have hiff {a' : ShortAddress} {e' : ExtendedAddress} (hmem' : (a', e') ∈ s.associations) :
      a' = a ↔ e' = e := by
    constructor
    · rintro rfl
      exact TwoWayMap.right_unique hmem' hmem
    · rintro rfl
      exact TwoWayMap.left_unique hmem' hmem
  refine ⟨hgives, ⟨fun heq => ((hiff hcoordinator).mp heq.symm).symm, fun heq =>
    ((hiff hcoordinator).mpr heq.symm).symm⟩, fun t' ht' e' _ a' hcall' hanswer' => ?_⟩
  exact hiff (hgiven t' ht' e' _ a' hcall' hanswer').2

end Runs

/- The device gets the first address behind the coordinator's, another one the next, and the first
keeps its own when it asks again. -/
def joined : Service := ((coordinator.associate ⟨7⟩ false).map Prod.snd).getD coordinator

theorem joined_run : Run step Allowed coordinator
    [⟨coordinator, .associate ⟨7⟩ false, .associated ⟨1⟩, joined⟩] joined :=
  .next .start trivial rfl

def bothJoined : Service := ((joined.associate ⟨9⟩ true).map Prod.snd).getD joined

def askedAgain : Service := ((bothJoined.associate ⟨7⟩ true).map Prod.snd).getD bothJoined

def askedAgainPast : Past :=
  [⟨bothJoined, .associate ⟨7⟩ true, .associated ⟨1⟩, askedAgain⟩,
    ⟨joined, .associate ⟨9⟩ true, .associated ⟨2⟩, bothJoined⟩,
    ⟨coordinator, .associate ⟨7⟩ false, .associated ⟨1⟩, joined⟩]

theorem askedAgain_run : Run step Allowed coordinator askedAgainPast askedAgain :=
  .next (.next joined_run trivial rfl) trivial rfl

theorem addresses_unique_askedAgain : bothJoined.Gives ⟨7⟩ ⟨1⟩ ∧
    ((⟨1⟩ : ShortAddress) = ⟨0⟩ ↔ (⟨7⟩ : ExtendedAddress) = ⟨1⟩) ∧
      ∀ t ∈ askedAgainPast, ∀ e receiverOnWhenIdle a, t.event = .associate e receiverOnWhenIdle →
        t.output = .associated a → (a = ⟨1⟩ ↔ e = ⟨7⟩) :=
  addresses_unique new_coordinator askedAgain_run (List.mem_cons_self ..) rfl rfl

def answered : Service :=
  ((joined.sendAssociationResponse ⟨7⟩ 0).toOption.map Prod.fst).getD joined

theorem answered_run : Run step OwnOnly coordinator
    [⟨joined, .sendAssociationResponse ⟨7⟩ 0,
        .output ⟨.setExtendedSlot 0 (some ⟨7⟩), [], none⟩, answered⟩,
      ⟨coordinator, .associate ⟨7⟩ false, .associated ⟨1⟩, joined⟩] answered :=
  .next (.next .start ⟨trivial, trivial⟩ rfl) ⟨trivial, trivial⟩ rfl

theorem sleepers_announced_answered :
    (answered.queue.device joiner).items.length = 1 ∧ answered.pendingDataSet.contains joiner ∧
      (answered.pendingDataSet.extended.hasSlot ⟨7⟩).isSome := by
  refine ⟨by decide, ?_⟩
  have hwaits : ∃ item ∈ (answered.queue.device joiner).items, item.waitForDatarequest := by decide
  obtain ⟨item, hitem, hwait⟩ := hwaits
  have hannounced := sleepers_announced new_coordinator answered_run hitem hwait
  exact ⟨hannounced.1, hannounced.2 (by decide)⟩

end Service
end Mac

end ZigbeeStack.OldSrc
