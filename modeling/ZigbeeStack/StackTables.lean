import ZigbeeStack.StackParameters

/-! The pending tables of the radio mirror those of the MAC, through the driver and over the line,
and across resets of the MAC. -/
namespace ZigbeeStack
open Runs

theorem RadioTables.execute_failed (self : RadioTables) (a : CombinedPendingTableAction) :
    self.execute false self a = self := by
  cases a <;> simp [execute]

namespace PendingMirror
variable {w : World}

/-- The radio gets a command, and none of those that were sent before it any more. -/
theorem Inv.execute_after (hi : Inv w) (before : List CombinedPendingTableAction)
    {a : CombinedPendingTableAction} {rest : List CombinedPendingTableAction}
    (hw : w.inFlight = before ++ a :: rest) (success : Bool) (garbage : RadioTables) :
    ∃ answers, Inv { w with
        radio := w.radio.execute success garbage a
        inFlight := rest
        answers := answers } ∧
      (a, success) ∈ answers ∧ w.answers ⊆ answers ∧
      ∀ answer ∈ answers, answer.1.key ∈ w.keys := by
  induction before generalizing w with
  | nil =>
    refine ⟨_, hi.execute hw success garbage, List.mem_cons_self, List.subset_cons_self _ _, ?_⟩
    simp only [World.keys, hw, List.nil_append, List.map_cons, List.forall_mem_cons]
    exact ⟨List.mem_cons_self, fun answer ha => List.mem_append_right _
      (List.mem_map.mpr ⟨answer, ha, rfl⟩)⟩
  | cons b before ih =>
    have hlost : Inv { w with
        inFlight := before ++ a :: rest
        answers := (b, false) :: w.answers } := by
      have hfailed := hi.execute hw false w.radio
      rw [RadioTables.execute_failed] at hfailed
      exact hfailed
    obtain ⟨answers, hinv, hmem, hsub, hkeys⟩ := ih hlost rfl
    refine ⟨answers, hinv, hmem, fun answer ha => hsub (List.mem_cons_of_mem _ ha),
      fun answer ha => ?_⟩
    have hkey := hkeys answer ha
    simp only [World.keys, hw, List.map_append, List.map_cons, List.mem_append, List.mem_cons,
      List.cons_append] at hkey ⊢
    tauto

/-- Until the initialisation gets to the radio it does not matter what is in its tables. -/
theorem Inv.disturb (hi : Inv w) (hfresh : w.host.isInitialized = false)
    (hinit : ∀ k, w.host.initializing = some k → .init k ∈ w.inFlight) (radio : RadioTables) :
    Inv { w with radio := radio } := by
  obtain ⟨⟨hus, hds⟩, hue, hde⟩ := hi.untouched hfresh
  refine ⟨hi.keys_nodup, ⟨fun i hd _ => ?_, hi.short.current, fun k i hk => ?_⟩,
    ⟨fun i hd _ => ?_, hi.extended.current, fun k i hk => ?_⟩, hi.inits,
    fun k hk => ⟨hfresh, .inl (hinit k hk)⟩, hi.untouched, hi.issued, hi.reported⟩
  · cases (hds i).symm.trans hd
  · cases hus.symm.trans hk
  · cases (hde i).symm.trans hd
  · cases hue.symm.trans hk

/-- An answer to a command of an earlier service is none of the host's business. -/
theorem Inv.reportInitResult_stale (hi : Inv w) {key : UniqueKey} (hkey : key ∉ w.keys)
    (result : Bool) : w.host.reportInitResult key result = w.host := by
  refine if_neg fun hinit => hkey ?_
  obtain ⟨-, hflight | ⟨success, ha, -⟩⟩ := hi.initializing key hinit
  · exact List.mem_append_left _ (List.mem_map.mpr ⟨_, hflight, rfl⟩)
  · exact mem_keys_of_answer ha

theorem Inv.reportUpdateResult_stale (hi : Inv w) {key : UniqueKey} (hkey : key ∉ w.keys)
    (result : Bool) : w.host.reportUpdateResult key result = w.host := by
  have hshort : w.host.short.reportUpdateResult key result = w.host.short :=
    PendingTable.reportUpdateResult_view_of_ne _ _ fun i hu =>
      hkey (waiting_mem_keys shortCommand_key hi.short hu)
  have hextended : w.host.extended.reportUpdateResult key result = w.host.extended :=
    PendingTable.reportUpdateResult_view_of_ne _ _ fun i hu =>
      hkey (waiting_mem_keys extendedCommand_key hi.extended hu)
  rw [CombinedPendingTable.reportUpdateResult, hshort, hextended]

end PendingMirror

inductive CombinedPendingTable.Touches (key : UniqueKey) (c : CombinedPendingTable) :
    CombinedPendingTable → Prop
  | refl : Touches key c c
  | set {c' : CombinedPendingTable} (d : Option FullAddress) (pending : Bool) :
      Touches key c c' → Touches key c (c'.set d pending)
  | polls {c' c'' : CombinedPendingTable} {cx : Waker} : Touches key c c' →
      c'.pollAction cx key = (.pending, c'') → Touches key c c''

namespace DataService
variable {τ : Type} [Sleep τ]

/-- A poll returns a command of its tables, or none. -/
theorem pollAction_tables {s s' : DataService τ} {pib pib' : PIB} {cx : Waker} {key : UniqueKey}
    {rounds : List (List (Option FullAddress × Instant))} {action : Poll DataServiceAction}
    (h : s.pollAction pib cx key rounds = some (action, s', pib')) :
    ∃ c, s.pendingTable.Touches key c ∧
      ((∃ a cx, c.pollAction cx key = (.ready a, s'.pendingTable) ∧
          action = .ready (.ofCombined a)) ∨
        (s'.pendingTable = c ∧ ∀ x, action = .ready x → (MacInput.data x).order = none)) := by
  refine pollAction_rule (P := fun a => s.pendingTable.Touches key a.1.pendingTable)
    (Q := fun b => ∃ c, s.pendingTable.Touches key c ∧
      ((∃ a cx, c.pollAction cx key = (.ready a, b.2.1.pendingTable) ∧
          b.1 = .ready (.ofCombined a)) ∨
        (b.2.1.pendingTable = c ∧ ∀ x, b.1 = .ready x → (MacInput.data x).order = none)))
    (fun a b hs ha => ?_) (fun a b hf ha => ?_) rounds .refl h
  · cases hs with
    | table hp => exact .polls ha hp
    | setPending _ _ => exact .set _ _ ha
    | waits _ _ | empty _ _ | unreported _ _ _ => exact ha
  · cases hf with
    | table hp => exact ⟨_, ha, .inl ⟨_, _, hp, rfl⟩⟩
    | sendFrame _ _ | confirm _ _ _ =>
      refine ⟨_, ha, .inr ⟨rfl, fun x hx => ?_⟩⟩
      cases hx
      rfl
    | pending => exact ⟨_, ha, .inr ⟨rfl, fun x hx => by cases hx⟩⟩

end DataService

def CombinedPendingTableAction.kind : CombinedPendingTableAction → CommandKind
  | .init _ => .initPendingTable
  | .updateShort _ _ _ | .updateExtended _ _ _ => .setPending

def RadioOrder.table (order : RadioOrder) : Option CombinedPendingTableAction :=
  match order.command with
  | .setParam _ _ => none
  | .initTables => some (.init order.key)
  | .setShort index value => some (.updateShort order.key index value)
  | .setExtended index value => some (.updateExtended order.key index value)

namespace RadioOrder

theorem table_completion {order : RadioOrder} {a : CombinedPendingTableAction}
    (h : order.table = some a) (success : Bool) :
    order.completion success = (a.kind, a.key, success) := by
  obtain ⟨key, command⟩ := order
  cases command <;> cases h <;> rfl

theorem run_table {order : RadioOrder} {a : CombinedPendingTableAction} (h : order.table = some a)
    (radio : RadioState) (success : Bool) (garbage : RadioState) :
    (radio.run success garbage order.command).tables =
      radio.tables.execute success garbage.tables a := by
  obtain ⟨key, command⟩ := order
  cases command <;> cases h <;> rfl

theorem run_parameter {order : RadioOrder} (h : order.table = none) (radio : RadioState)
    (success : Bool) (garbage : RadioState) :
    (radio.run success garbage order.command).tables = radio.tables ∧
      order.completion success = (.setParam, order.key, success) := by
  obtain ⟨key, command⟩ := order
  cases command <;> cases h
  exact ⟨rfl, rfl⟩

end RadioOrder

namespace MacData
variable {τ : Type} [Sleep τ] {mac mac' : MacData τ}

inductive TablesPolled (mac mac' : MacData τ) (visit : Visit) : Option RadioOrder → Prop
  | sends {c : CombinedPendingTable} {a : CombinedPendingTableAction} {cx : Waker}
      {order : RadioOrder} : mac.data.pendingTable.Touches visit.key c →
      c.pollAction cx visit.key = (.ready a, mac'.data.pendingTable) → order.table = some a →
      TablesPolled mac mac' visit (some order)
  | keeps {order : Option RadioOrder} :
      mac.data.pendingTable.Touches visit.key mac'.data.pendingTable →
      order.bind (·.table) = none → TablesPolled mac mac' visit order

theorem Polled.tables {visit : Visit} {result : Poll MacInput}
    (h : Polled mac visit result mac') : TablesPolled mac mac' visit (Stack.ordered result) := by
  cases h with
  | @management action management hm => exact .keeps .refl (by cases action <;> rfl)
  | data hm hd =>
    obtain ⟨c, htouches, ⟨a, cx, hp, haction⟩ | ⟨hsame, hnone⟩⟩ := DataService.pollAction_tables hd
    · cases haction
      cases a <;> exact .sends htouches hp rfl
    · refine .keeps (hsame ▸ htouches) ?_
      rw [Stack.ordered, hnone _ rfl]
      rfl
  | @passes management data pib result hm hd harrival =>
    obtain ⟨c, htouches, ⟨a, cx, hp, haction⟩ | ⟨hsame, -⟩⟩ := DataService.pollAction_tables hd
    · cases haction
    · refine .keeps (hsame ▸ htouches) ?_
      cases result with
      | pending => rfl
      | ready input =>
        obtain ⟨arrival, rfl⟩ := harrival input rfl
        rfl

inductive TablesProcessed (mac mac' : MacData τ) : MacInput → Prop
  | keeps {input : MacInput} : mac'.data.pendingTable = mac.data.pendingTable →
      TablesProcessed mac mac' input
  | resets {input : MacInput} : mac'.data.pendingTable = .new → TablesProcessed mac mac' input
  | init {response : RadioResponse} {key : UniqueKey} {success : Bool} :
      response.completion = some (.initPendingTable, key, success) →
      mac'.data.pendingTable = mac.data.pendingTable.reportInitResult key success →
      TablesProcessed mac mac' (.arrival (.radio response))
  | update {response : RadioResponse} {key : UniqueKey} {success : Bool} :
      response.completion = some (.setPending, key, success) →
      mac'.data.pendingTable = mac.data.pendingTable.reportUpdateResult key success →
      TablesProcessed mac mac' (.arrival (.radio response))

theorem Processed.tables {draws : Draws} {input : MacInput}
    (h : Processed mac draws input mac') : TablesProcessed mac mac' input := by
  cases h with
  | sends _ _ hd _ => exact .keeps (by rw [hd])
  | request hrequest =>
    rcases ManagementService.processMlmeRequest_data hrequest with hd | ⟨-, hd⟩
    · exact .keeps (by rw [hd])
    · exact .resets (by rw [hd]; rfl)
  | @response response =>
    cases response with
    | associate deviceAddress fastAssociation status =>
      exact .keeps (mac.data.insert_rest _ _).2
  | mcps _ _ hd =>
    refine .keeps ?_
    rw [hd]
    exact mac.data.processMcpsRequest_pendingTable _ _ _ _
  | @completes response kind key success hc =>
    cases kind with
    | initPendingTable => exact .init hc rfl
    | setPending => exact .update hc rfl
    | setParam | sendPacket => exact .keeps rfl
  | packet _ hd =>
    refine .keeps ?_
    rw [hd]
    exact (mac.data.processFrame_rest _ _).2
  | ignores _ => exact .keeps rfl

end MacData

namespace Stack
open PendingMirror
variable {τ : Type}

structure Mirrored (h : Past τ) (w : Stack τ) (mac : MacData τ) (mirror : World)
    (old current : List CombinedPendingTableAction) : Prop where
  host : mirror.host = mac.data.pendingTable
  radio : mirror.radio = w.radio.tables
  inv : PendingMirror.Inv mirror
  orders : (orders w).filterMap (·.table) = old ++ current
  sent : current.Sublist mirror.inFlight
  before : old ≠ [] → mirror.host.isInitialized = false ∧
    ∀ k, mirror.host.initializing = some k → .init k ∈ mirror.inFlight
  foreign : ∀ a ∈ old, a.key ∉ mirror.keys
  known : ∀ k, k ∈ old.map (·.key) ∨ k ∈ mirror.keys → k ∈ drawn h
  settled : ∀ kind k success, Settled w (kind, k, success) →
    kind = .initPendingTable ∨ kind = .setPending →
    k ∈ drawn h ∧ (k ∈ mirror.keys →
      ∃ a, (a, success) ∈ mirror.answers ∧ a.key = k ∧ a.kind = kind)

def HasMirror (h : Past τ) (w : Stack τ) : Prop :=
  ∀ mac, w.mac.mac = some mac → ∃ mirror old current, Mirrored h w mac mirror old current

theorem hasMirror_start (pib : PIB) (radio : RadioState) :
    HasMirror [] (start pib radio : Stack τ) := by
  intro mac hmac
  cases hmac
  refine ⟨.start radio.tables, [], [], rfl, rfl, inv_start _, rfl, List.Sublist.refl _,
    fun hold => absurd rfl hold, fun a ha => (by cases ha), fun k hk => ?_,
    fun kind k success hs => absurd hs not_settled_start⟩
  rcases hk with hk | hk <;> cases hk

section Steps
variable [Sleep τ] {h : Past τ} {t : Step τ} {mac mac' : MacData τ} {mirror : World}
  {old current : List CombinedPendingTableAction}

omit [Sleep τ] in
theorem table_settled {w w' : Stack τ} (hheard : Heard w w' none) {kind : CommandKind}
    {k : UniqueKey} {success : Bool} (hkind : kind = .initPendingTable ∨ kind = .setPending)
    (hs : Settled w' (kind, k, success)) : Settled w (kind, k, success) := by
  rcases hheard _ (by rcases hkind with rfl | rfl <;> simp) hs with hold | hnew
  · exact hold
  · cases hnew

/-- What the host does to its tables without ordering anything. -/
theorem inv_of_touches (hi : PendingMirror.Inv mirror) {key : UniqueKey} (hnew : key ∉ mirror.keys)
    {c : CombinedPendingTable} (hc : mirror.host.Touches key c) :
    PendingMirror.Inv { mirror with host := c } ∧ c.initializing = mirror.host.initializing ∧
      c.isInitialized = mirror.host.isInitialized := by
  induction hc with
  | refl => exact ⟨hi, rfl, rfl⟩
  | set d pending _ ih =>
    obtain ⟨hinv, hinit, hdone⟩ := ih
    refine ⟨hinv.set d pending, ?_⟩
    match d with
    | none => exact ⟨hinit, hdone⟩
    | some ⟨_, .short _⟩ => exact ⟨hinit, hdone⟩
    | some ⟨_, .extended _⟩ => exact ⟨hinit, hdone⟩
  | @polls c' c'' cx _ hp ih =>
    obtain ⟨hinv, hinit, hdone⟩ := ih
    have hs : PendingMirror.step { mirror with host := c' } (.pollAction cx key) =
        some ({ mirror with host := c'' }, some .pending) := by
      simp only [PendingMirror.step, hp]
    refine ⟨hinv.pollAction hnew hs, ?_⟩
    have hhost := hostPolled c' cx key
    rw [hp] at hhost
    cases hhost with
    | initializing _ => exact ⟨hinit, hdone⟩
    | waits _ _ _ _ => exact ⟨hinit, hdone⟩

/-- A command goes out under a key of its own; if there is something old before it, it is the
command that initialises the tables. -/
theorem inv_of_sends (hi : PendingMirror.Inv mirror) {cx : Waker} {key : UniqueKey}
    (hnew : key ∉ mirror.keys) {a : CombinedPendingTableAction} {c : CombinedPendingTable}
    (hp : mirror.host.pollAction cx key = (.ready a, c)) :
    PendingMirror.Inv { mirror with host := c, inFlight := mirror.inFlight ++ [a] } ∧
      a.key = key ∧ (mirror.host.isInitialized = false → c.isInitialized = false ∧
        ∀ k, c.initializing = some k → .init k ∈ mirror.inFlight ++ [a]) := by
  have hs : PendingMirror.step mirror (.pollAction cx key) =
      some ({ mirror with host := c, inFlight := mirror.inFlight ++ [a] }, some (.ready a)) := by
    simp only [PendingMirror.step, hp]
  refine ⟨hi.pollAction hnew hs, ?_⟩
  have hhost := hostPolled mirror.host cx key
  rw [hp] at hhost
  cases hhost with
  | init _ hfresh =>
    refine ⟨rfl, fun _ => ⟨hfresh, fun k hk => ?_⟩⟩
    cases hk
    simp
  | updateShort hdone _ => exact ⟨rfl, fun hfresh => by cases hdone.symm.trans hfresh⟩
  | updateExtended hdone _ _ => exact ⟨rfl, fun hfresh => by cases hdone.symm.trans hfresh⟩

/-- A poll sends one command at most, under a key that is new. -/
theorem Mirrored.polls (hm : Mirrored h t.before mac mirror old current) {visit : Visit}
    {result : Poll MacInput} (hp : MacData.Polled mac visit result mac')
    (hnew : visit.key ∉ Stack.drawn h) (hgiven : given t = (ordered result).toList)
    (horders : Stack.orders t.after = Stack.orders t.before ++ given t)
    (hheard : Heard t.before t.after none) (hradio : t.after.radio = t.before.radio) :
    ∃ mirror current, Mirrored (t :: h) t.after mac' mirror old current := by
  have hkey : visit.key ∉ mirror.keys := fun hk => hnew (hm.known _ (.inr hk))
  have htables := hp.tables
  generalize hordered : ordered result = order at htables hgiven
  cases htables with
  | @sends c a cx order htouches hpoll horder =>
    rw [← hm.host] at htouches
    obtain ⟨hinv, -, hdone⟩ := inv_of_touches hm.inv hkey htouches
    obtain ⟨hinv, hself, hbefore⟩ := inv_of_sends hinv hkey hpoll
    have hkeys := keys_send mirror mac'.data.pendingTable a
    have hgivenKeys : (given t).map (·.key) = [visit.key] := by
      rw [hgiven, ← hself]
      have hcompletion := RadioOrder.table_completion horder true
      exact congrArg (fun c : CommandKind × UniqueKey × Bool => [c.2.1]) hcompletion
    refine ⟨{ mirror with
        host := mac'.data.pendingTable
        inFlight := mirror.inFlight ++ [a] }, current ++ [a], rfl, ?_, hinv, ?_,
      hm.sent.append (.refl _), fun hold => hbefore (hdone.trans (hm.before hold).1), ?_, ?_, ?_⟩
    · rw [hradio]
      exact hm.radio
    · rw [horders, hgiven, List.filterMap_append, hm.orders, List.append_assoc]
      simp [horder]
    · intro x hx hmem
      have hdrawn := hm.known x.key (.inl (List.mem_map_of_mem hx))
      rcases List.mem_cons.mp (hkeys.mem_iff.mp hmem) with heq | hmem
      · exact hnew (hself ▸ heq ▸ hdrawn)
      · exact hm.foreign x hx hmem
    · intro k hk
      rw [hkeys.mem_iff, List.mem_cons, hself] at hk
      rw [drawn_cons, hgivenKeys]
      rcases hk with hk | rfl | hk
      · exact List.mem_append_right _ (hm.known k (.inl hk))
      · exact List.mem_append_left _ (List.mem_singleton.mpr rfl)
      · exact List.mem_append_right _ (hm.known k (.inr hk))
    · intro kind k success hs hkind
      obtain ⟨hk, hanswer⟩ := hm.settled kind k success (table_settled hheard hkind hs) hkind
      refine ⟨drawn_later hk, fun hmem => ?_⟩
      rcases List.mem_cons.mp (hkeys.mem_iff.mp hmem) with rfl | hmem
      · exact absurd hk (hself ▸ hnew)
      · exact hanswer hmem
  | keeps htouches hnone =>
    rw [← hm.host] at htouches
    obtain ⟨hinv, hinit, hdone⟩ := inv_of_touches hm.inv hkey htouches
    refine ⟨{ mirror with host := mac'.data.pendingTable }, current, rfl, ?_, hinv, ?_, hm.sent,
      fun hold => ?_, hm.foreign, fun k hk => drawn_later (hm.known k hk), ?_⟩
    · rw [hradio]
      exact hm.radio
    · rw [horders, hgiven, List.filterMap_append, hm.orders]
      cases order with
      | none => simp
      | some order =>
        have hnone : order.table = none := hnone
        simp [hnone]
    · obtain ⟨hfresh, hwaits⟩ := hm.before hold
      exact ⟨hdone.trans hfresh, fun k hk => hwaits k (hinit.symm.trans hk)⟩
    · intro kind k success hs hkind
      obtain ⟨hk, hanswer⟩ := hm.settled kind k success (table_settled hheard hkind hs) hkind
      exact ⟨drawn_later hk, hanswer⟩

omit [Sleep τ] in
/-- Something moves on, or is lost. -/
theorem Mirrored.passes (hm : Mirrored h t.before mac mirror old current)
    (hsub : (Stack.orders t.after).Sublist (Stack.orders t.before))
    (hheard : Heard t.before t.after none) (hradio : t.after.radio = t.before.radio) :
    ∃ old' current', old'.Sublist old ∧ Mirrored (t :: h) t.after mac mirror old' current' := by
  have hsub' := hsub.filterMap (·.table)
  rw [hm.orders, List.sublist_append_iff] at hsub'
  obtain ⟨old', current', horders, hold, hcurrent⟩ := hsub'
  refine ⟨old', current', hold, hm.host, hm.radio.trans (by rw [hradio]), hm.inv, horders,
    hcurrent.trans hm.sent, fun hne => hm.before fun hnil => hne ?_,
    fun a ha => hm.foreign a (hold.subset ha), fun k hk => drawn_later (hm.known k ?_), ?_⟩
  · rw [hnil] at hold
    exact List.sublist_nil.mp hold
  · exact hk.imp_left fun hk => (hold.map _).subset hk
  · intro kind k success hs hkind
    obtain ⟨hk, hanswer⟩ := hm.settled kind k success (table_settled hheard hkind hs) hkind
    exact ⟨drawn_later hk, hanswer⟩

omit [Sleep τ] in
/-- An answer to the initialisation comes in. While there is something old before it, it is not the
one that the host waits for. -/
theorem Mirrored.init (hm : Mirrored h t.after mac mirror old current) {key : UniqueKey}
    {success : Bool}
    (hanswer : key ∈ mirror.keys →
      ∃ a, (a, success) ∈ mirror.answers ∧ a.key = key ∧ a.kind = .initPendingTable)
    (hmac : mac'.data.pendingTable = mac.data.pendingTable.reportInitResult key success) :
    ∃ mirror, Mirrored h t.after mac' mirror old current := by
  rw [← hm.host] at hmac
  by_cases hkey : key ∈ mirror.keys
  · obtain ⟨a, ha, rfl, hkind⟩ := hanswer hkey
    cases a with
    | updateShort _ _ _ => cases hkind
    | updateExtended _ _ _ => cases hkind
    | init key =>
      refine ⟨{ mirror with
        host := mirror.host.reportInitResult key success
        reported := key :: mirror.reported }, hmac.symm, hm.radio, hm.inv.reportInitResult ha,
        hm.orders, hm.sent, fun hold => ?_, hm.foreign, hm.known, hm.settled⟩
      obtain ⟨hfresh, hwaits⟩ := hm.before hold
      have hother : mirror.host.initializing ≠ some key := fun hinit =>
        hm.inv.key_answered (hwaits key hinit) ha rfl
      have hsame : mirror.host.reportInitResult key success = mirror.host := if_neg hother
      change (mirror.host.reportInitResult key success).isInitialized = false ∧
        ∀ k, (mirror.host.reportInitResult key success).initializing = some k →
          .init k ∈ mirror.inFlight
      rw [hsame]
      exact ⟨hfresh, hwaits⟩
  · rw [hm.inv.reportInitResult_stale hkey] at hmac
    exact ⟨mirror, hmac.symm, hm.radio, hm.inv, hm.orders, hm.sent, hm.before, hm.foreign,
      hm.known, hm.settled⟩

omit [Sleep τ] in
theorem Mirrored.update (hm : Mirrored h t.after mac mirror old current) {key : UniqueKey}
    {success : Bool}
    (hanswer : key ∈ mirror.keys →
      ∃ a, (a, success) ∈ mirror.answers ∧ a.key = key ∧ a.kind = .setPending)
    (hmac : mac'.data.pendingTable = mac.data.pendingTable.reportUpdateResult key success) :
    ∃ mirror, Mirrored h t.after mac' mirror old current := by
  rw [← hm.host] at hmac
  by_cases hkey : key ∈ mirror.keys
  · obtain ⟨a, ha, rfl, hkind⟩ := hanswer hkey
    have hupdate : ∀ k, a ≠ .init k := by
      rintro k rfl
      cases hkind
    exact ⟨{ mirror with
      host := mirror.host.reportUpdateResult a.key success
      reported := a.key :: mirror.reported }, hmac.symm, hm.radio,
      hm.inv.reportUpdateResult ha hupdate, hm.orders, hm.sent, hm.before, hm.foreign, hm.known,
      hm.settled⟩
  · rw [hm.inv.reportUpdateResult_stale hkey] at hmac
    exact ⟨mirror, hmac.symm, hm.radio, hm.inv, hm.orders, hm.sent, hm.before, hm.foreign,
      hm.known, hm.settled⟩

omit [Sleep τ] in
/-- A data service that starts anew has ordered nothing yet; all that is on its way is old. -/
theorem Mirrored.reset (hm : Mirrored h t.after mac mirror old current)
    (hmac : mac'.data.pendingTable = .new) :
    Mirrored h t.after mac' (.start t.after.radio.tables) (old ++ current) [] := by
  refine ⟨hmac.symm, rfl, inv_start _, by rw [hm.orders, List.append_nil], .refl _,
    fun _ => ⟨rfl, fun k hk => (by cases hk)⟩, fun a _ hk => (by cases hk), fun k hk => ?_, ?_⟩
  · rcases hk with hk | hk
    · rw [List.map_append, List.mem_append] at hk
      refine hm.known k (hk.imp_right fun hk => ?_)
      obtain ⟨a, ha, rfl⟩ := List.mem_map.mp hk
      exact List.mem_append_left _ (List.mem_map.mpr ⟨a, hm.sent.subset ha, rfl⟩)
    · cases hk
  · intro kind k success hs hkind
    exact ⟨(hm.settled kind k success hs hkind).1, fun hk => by cases hk⟩

theorem Mirrored.processes (hm : Mirrored h t.before mac mirror old current) {draws : Draws}
    {input : MacInput} (hmac : t.before.mac = .processing mac input)
    (hp : MacData.Processed mac draws input mac')
    (hsub : (Stack.orders t.after).Sublist (Stack.orders t.before))
    (hheard : Heard t.before t.after none) (hradio : t.after.radio = t.before.radio) :
    ∃ mirror old current, Mirrored (t :: h) t.after mac' mirror old current := by
  obtain ⟨old', current', -, hm'⟩ := hm.passes hsub hheard hradio
  cases hp.tables with
  | keeps hsame =>
    exact ⟨mirror, old', current', hm'.host.trans hsame.symm, hm'.radio, hm'.inv, hm'.orders,
      hm'.sent, hm'.before, hm'.foreign, hm'.known, hm'.settled⟩
  | resets hnew => exact ⟨_, _, _, hm'.reset hnew⟩
  | init hc hinit =>
    obtain ⟨mirror', hm'⟩ := hm'.init (hm.settled _ _ _ (.heard hmac hc) (.inl rfl)).2 hinit
    exact ⟨mirror', old', current', hm'⟩
  | update hc hupdate =>
    obtain ⟨mirror', hm'⟩ := hm'.update (hm.settled _ _ _ (.heard hmac hc) (.inr rfl)).2 hupdate
    exact ⟨mirror', old', current', hm'⟩

omit [Sleep τ] in
theorem table_ran {w w' : Stack τ} {order : RadioOrder} {success : Bool}
    (hheard : Heard w w' (some (order.completion success))) {kind : CommandKind} {k : UniqueKey}
    {s : Bool} (hkind : kind = .initPendingTable ∨ kind = .setPending)
    (hs : Settled w' (kind, k, s)) :
    Settled w (kind, k, s) ∨ order.completion success = (kind, k, s) :=
  (hheard _ (by rcases hkind with rfl | rfl <;> simp) hs).imp_right Option.some.inj

omit [Sleep τ] in
/-- A command for a parameter leaves the tables alone. -/
theorem Mirrored.runs_parameter (hm : Mirrored h t.before mac mirror old current)
    {order : RadioOrder} {success : Bool} {garbage : RadioState} (horder : order.table = none)
    (hqueue : (Stack.orders t.after).filterMap (·.table) = old ++ current)
    (hheard : Heard t.before t.after (some (order.completion success)))
    (hradio : t.after.radio = t.before.radio.run success garbage order.command) :
    Mirrored (t :: h) t.after mac mirror old current := by
  obtain ⟨hsame, hcompletion⟩ := RadioOrder.run_parameter horder t.before.radio success garbage
  refine ⟨hm.host, ?_, hm.inv, hqueue, hm.sent, hm.before, hm.foreign,
    fun k hk => drawn_later (hm.known k hk), fun kind k s hs hkind => ?_⟩
  · rw [hradio, hsame]
    exact hm.radio
  · rcases table_ran hheard hkind hs with hold | hnew
    · obtain ⟨hk, hanswer⟩ := hm.settled kind k s hold hkind
      exact ⟨drawn_later hk, hanswer⟩
    · cases hcompletion.symm.trans hnew
      rcases hkind with hkind | hkind <;> cases hkind

omit [Sleep τ] in
/-- Something old may do anything to the tables, since they will be initialised. -/
theorem Mirrored.runs_old {a : CombinedPendingTableAction}
    (hm : Mirrored h t.before mac mirror (a :: old) current) {order : RadioOrder} {success : Bool}
    (horder : order.table = some a)
    (hqueue : (Stack.orders t.after).filterMap (·.table) = old ++ current)
    (hheard : Heard t.before t.after (some (order.completion success))) :
    Mirrored (t :: h) t.after mac { mirror with radio := t.after.radio.tables } old current := by
  obtain ⟨hfresh, hwaits⟩ := hm.before (List.cons_ne_nil a old)
  refine ⟨hm.host, rfl, hm.inv.disturb hfresh hwaits _, hqueue, hm.sent, fun _ => ⟨hfresh, hwaits⟩,
    fun b hb => hm.foreign b (List.mem_cons_of_mem _ hb),
    fun k hk => drawn_later (hm.known k (hk.imp_left fun hk => List.mem_cons_of_mem _ hk)),
    fun kind k s hs hkind => ?_⟩
  rcases table_ran hheard hkind hs with hold | hnew
  · obtain ⟨hk, hanswer⟩ := hm.settled kind k s hold hkind
    exact ⟨drawn_later hk, hanswer⟩
  · cases (RadioOrder.table_completion horder success).symm.trans hnew
    exact ⟨drawn_later (hm.known a.key (.inl List.mem_cons_self)),
      fun hk => absurd hk (hm.foreign a List.mem_cons_self)⟩

omit [Sleep τ] in
/-- A command of the host is run, and those of the host before it have been lost. -/
theorem Mirrored.runs_current (hm : Mirrored h t.before mac mirror [] current)
    {a : CombinedPendingTableAction} {order : RadioOrder} {success : Bool} {garbage : RadioState}
    (horder : order.table = some a)
    (hqueue : a :: (Stack.orders t.after).filterMap (·.table) = current)
    (hheard : Heard t.before t.after (some (order.completion success)))
    (hradio : t.after.radio = t.before.radio.run success garbage order.command) :
    ∃ mirror current, Mirrored (t :: h) t.after mac mirror [] current := by
  have hsent := hm.sent
  rw [← hqueue] at hsent
  obtain ⟨r₁, r₂, hflight, hmem, hrest⟩ := List.cons_sublist_iff.mp hsent
  obtain ⟨lost, after, rfl⟩ := List.append_of_mem hmem
  have hw : mirror.inFlight = lost ++ a :: (after ++ r₂) := by simp [hflight]
  obtain ⟨answers, hinv, hanswered, hsub, hkeys⟩ :=
    hm.inv.execute_after lost hw success garbage.tables
  have hrun : t.after.radio.tables = mirror.radio.execute success garbage.tables a := by
    rw [hradio, hm.radio]
    exact RadioOrder.run_table horder _ _ _
  rw [← hrun] at hinv
  have hmirror : ∀ k, k ∈ World.keys { mirror with
      radio := t.after.radio.tables
      inFlight := after ++ r₂
      answers := answers } → k ∈ mirror.keys := by
    intro k hk
    rcases List.mem_append.mp hk with hk | hk
    · refine List.mem_append_left _ ?_
      rw [hw]
      simp only [List.map_append, List.map_cons, List.mem_append, List.mem_cons] at hk ⊢
      tauto
    · obtain ⟨answer, ha, rfl⟩ := List.mem_map.mp hk
      exact hkeys answer ha
  refine ⟨{ mirror with
      radio := t.after.radio.tables
      inFlight := after ++ r₂
      answers := answers }, (Stack.orders t.after).filterMap (·.table), hm.host, rfl, hinv, rfl,
    hrest.trans (List.sublist_append_right _ _), fun hne => absurd rfl hne,
    fun a ha => (by cases ha), fun k hk => ?_, fun kind k s hs hkind => ?_⟩
  · rcases hk with hk | hk
    · cases hk
    · exact drawn_later (hm.known k (.inr (hmirror k hk)))
  · rcases table_ran hheard hkind hs with hold | hnew
    · obtain ⟨hk, hanswer⟩ := hm.settled kind k s hold hkind
      refine ⟨drawn_later hk, fun hmem => ?_⟩
      obtain ⟨b, hb, hkey, hkind⟩ := hanswer (hmirror k hmem)
      exact ⟨b, hsub hb, hkey, hkind⟩
    · cases (RadioOrder.table_completion horder success).symm.trans hnew
      have hin : a ∈ mirror.inFlight := by simp [hw]
      exact ⟨drawn_later (hm.known a.key (.inr (List.mem_append_left _
        (List.mem_map_of_mem hin)))), fun _ => ⟨a, hanswered, rfl, rfl⟩⟩

omit [Sleep τ] in
theorem Mirrored.runs (hm : Mirrored h t.before mac mirror old current) {order : RadioOrder}
    {success : Bool} {garbage : RadioState}
    (horders : Stack.orders t.before = order :: Stack.orders t.after)
    (hheard : Heard t.before t.after (some (order.completion success)))
    (hradio : t.after.radio = t.before.radio.run success garbage order.command) :
    ∃ mirror old current, Mirrored (t :: h) t.after mac mirror old current := by
  have hqueue := hm.orders
  rw [horders, List.filterMap_cons] at hqueue
  cases horder : order.table with
  | none =>
    rw [horder] at hqueue
    exact ⟨mirror, old, current, hm.runs_parameter horder hqueue hheard hradio⟩
  | some a =>
    rw [horder] at hqueue
    replace hqueue : a :: (Stack.orders t.after).filterMap (·.table) = old ++ current := hqueue
    cases old with
    | cons b old =>
      obtain ⟨rfl, htail⟩ := List.cons.inj hqueue
      exact ⟨_, old, current, hm.runs_old horder htail hheard⟩
    | nil =>
      obtain ⟨mirror', current', hm'⟩ := hm.runs_current horder hqueue hheard hradio
      exact ⟨mirror', [], current', hm'⟩

theorem HasMirror.step (hm : HasMirror h t.before) (hl : Leads h t) :
    HasMirror (t :: h) t.after := by
  intro mac' hmac'
  cases hl with
  | polls hbefore hafter hp hnew hgiven horders hheard hradio =>
    cases hafter.symm.trans hmac'
    obtain ⟨mirror, old, current, hm⟩ := hm _ (by rw [hbefore]; rfl)
    obtain ⟨mirror', current', hm'⟩ := hm.polls hp hnew hgiven horders hheard hradio
    exact ⟨mirror', old, current', hm'⟩
  | processes hbefore hafter hp hsub hheard hradio =>
    rw [hafter] at hmac'
    cases hmac'
    obtain ⟨mirror, old, current, hm⟩ := hm _ (by rw [hbefore]; rfl)
    exact hm.processes hbefore hp hsub hheard hradio
  | runs hmac horders hheard hradio =>
    obtain ⟨mirror, old, current, hm⟩ := hm mac' (hmac ▸ hmac')
    exact hm.runs horders hheard hradio
  | passes hmac hsub hheard hradio =>
    obtain ⟨mirror, old, current, hm⟩ := hm mac' (hmac ▸ hmac')
    obtain ⟨old', current', -, hm'⟩ := hm.passes hsub hheard hradio
    exact ⟨mirror, old', current', hm'⟩
  | panics hafter =>
    rw [hafter] at hmac'
    cases hmac'

/-- The radio's pending tables mirror the MAC's from end to end, whatever gets lost, and also after
the MAC was reset with commands of the old tables on their way: a slot that is neither dirty nor
waited for has the value in the radio that it has in the MAC. -/
theorem tables_mirrored {pib : PIB} {radio : RadioState} {w : Stack τ}
    (hr : Run Stack.step Rely (start pib radio) h w) {mac : MacData τ}
    (hmac : w.mac.mac = some mac) :
    (∀ i, (mac.data.pendingTable.short.table i).dirty = false →
      (∀ k, mac.data.pendingTable.short.updating ≠ some (k, i)) →
      w.radio.tables.short i = (mac.data.pendingTable.short.table i).value) ∧
    ∀ i, (mac.data.pendingTable.extended.table i).dirty = false →
      (∀ k, mac.data.pendingTable.extended.updating ≠ some (k, i)) →
      w.radio.tables.extended i = (mac.data.pendingTable.extended.table i).value := by
  have hmirror : HasMirror h w :=
    invariant_of_leads (hasMirror_start pib radio) (fun _ _ hm hl => hm.step hl) hr
  obtain ⟨mirror, old, current, hm⟩ := hmirror mac hmac
  rw [← hm.host, ← hm.radio]
  exact ⟨hm.inv.short.synced, hm.inv.extended.synced⟩

end Steps

/- The MAC is reset while it initialises the tables, and the answer to the first command comes when
the second one is on its way. Then a device is sent something. -/
def resetMidway : List Event :=
  let device : FullAddress := ⟨⟨1⟩, .short ⟨2⟩⟩
  let garbage : RadioState := ⟨fun _ => .u16 0, .empty⟩
  [.poll 0 ⟨0⟩ [] [[]] .pending, .process ⟨⟨0⟩, [], 0, 0⟩, .request, .register 7, .send true,
    .poll 0 ⟨1⟩ [] [[]] (.ready (some (.mlme (.request (.reset ⟨false⟩))))),
    .process ⟨⟨0⟩, [], 0, 0⟩, .poll 0 ⟨1⟩ [] [[]] .pending, .process ⟨⟨0⟩, [], 0, 0⟩,
    .transmit true true garbage, .answer 0 true [0, 0], .next, .remove, .request,
    .poll 0 ⟨2⟩ [] [[]] .pending, .process ⟨⟨0⟩, [], 0, 0⟩, .responded, .register 8, .send true,
    .transmit true true garbage, .answer 0 true [0, 0], .next, .remove,
    .poll 0 ⟨2⟩ [] [[]] .pending, .process ⟨⟨0⟩, [], 0, 0⟩, .responded,
    .poll 0 ⟨2⟩ [] [[]]
      (.ready (some (.mcps (.data ⟨.short, some device, [], ⟨⟨9⟩⟩, false, true⟩)))),
    .process ⟨⟨9⟩, [], 0, 0⟩,
    .poll 0 ⟨2⟩ [] [[(some device, 0)], [(some device, 0)]] .pending, .process ⟨⟨0⟩, [], 0, 0⟩,
    .request, .register 7, .send true, .transmit true true garbage, .answer 0 true [0, 0], .next,
    .remove, .poll 0 ⟨3⟩ [] [[(some device, 0)]] .pending, .process ⟨⟨0⟩, [], 0, 0⟩, .responded]

def afterReset : Past SleepTimer × Stack SleepTimer :=
  replay Stack.step Rely (start (PIB.new ⟨1⟩ 11 0 0 0) ⟨fun _ => .u16 0, .empty⟩) resetMidway

theorem afterReset_run : Run Stack.step Rely
    (start (PIB.new ⟨1⟩ 11 0 0 0) ⟨fun _ => .u16 0, .empty⟩) afterReset.1 afterReset.2 :=
  run_replay resetMidway

theorem tables_mirrored_reset : afterReset.2.radio.tables.short 0 = some (⟨1⟩, ⟨2⟩) ∧
    ∃ mac, afterReset.2.mac.mac = some mac ∧
      ∀ i, (mac.data.pendingTable.short.table i).dirty = false →
        (∀ k, mac.data.pendingTable.short.updating ≠ some (k, i)) →
        afterReset.2.radio.tables.short i = (mac.data.pendingTable.short.table i).value := by
  have halive : afterReset.2.mac.mac.isSome = true := by decide
  obtain ⟨mac, hmac⟩ := Option.isSome_iff_exists.mp halive
  exact ⟨by decide, mac, hmac, (tables_mirrored afterReset_run hmac).1⟩

end Stack
end ZigbeeStack
