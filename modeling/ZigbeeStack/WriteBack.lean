import Mathlib.Logic.Function.Basic
import Mathlib.Tactic.Common

/-! Writing a table back to a remote copy. The owner marks the slots it changed as dirty, sends
one slot at a time and waits for the answer. The remote side may take its time and may fail, and
the owner may change a slot again while its command is on the way. -/
namespace WriteBack
variable {ι α κ : Type*}

structure View (ι α κ : Type*) where
  value : ι → α
  dirty : ι → Bool
  updating : Option (κ × ι)

structure Command (ι α κ : Type*) where
  key : κ
  slot : ι
  value : α

/-- The remote copy agrees with the owner except where the owner knows better: `sent` are the
commands on the way, `done` the answers to those that arrived. -/
structure Mirrors (s : View ι α κ) (remote : ι → α) (sent : List (Command ι α κ))
    (done : List (κ × Bool)) : Prop where
  synced : ∀ i, s.dirty i = false → (∀ k, s.updating ≠ some (k, i)) → remote i = s.value i
  current : ∀ c ∈ sent, s.updating = some (c.key, c.slot) ∧
    (s.dirty c.slot = false → c.value = s.value c.slot)
  waiting : ∀ k i, s.updating = some (k, i) → (∃ c ∈ sent, c.key = k) ∨
    ∃ success, (k, success) ∈ done ∧
      (success = true → s.dirty i = false → remote i = s.value i)

namespace Mirrors
variable {s s' : View ι α κ} {remote : ι → α} {sent : List (Command ι α κ)}
  {done : List (κ × Bool)}

/-- While no command is on the way the clean slots decide. -/
theorem of_idle (hidle : s.updating = none)
    (hclean : ∀ i, s.dirty i = false → remote i = s.value i) : Mirrors s remote [] done where
  synced i hd _ := hclean i hd
  current c hc := by cases hc
  waiting k i hk := by cases hidle.symm.trans hk

theorem sent_nil (hm : Mirrors s remote sent done) (hidle : s.updating = none) : sent = [] := by
  refine List.eq_nil_iff_forall_not_mem.mpr fun c hc => ?_
  cases hidle.symm.trans (hm.current c hc).1

theorem remote_eq (hm : Mirrors s remote sent done) (hidle : s.updating = none)
    (hclean : ∀ i, s.dirty i = false) : remote = s.value :=
  funext fun i => hm.synced i (hclean i) (by simp [hidle])

/-- The owner may change its slots at any time, as long as it marks the changed ones. -/
theorem touch (hm : Mirrors s remote sent done) (hupdating : s'.updating = s.updating)
    (hslots : ∀ i, s'.dirty i = false → s.dirty i = false ∧ s'.value i = s.value i) :
    Mirrors s' remote sent done where
  synced i hd hu := by
    obtain ⟨hd, hv⟩ := hslots i hd
    rw [hv]
    exact hm.synced i hd (hupdating ▸ hu)
  current c hc := by
    obtain ⟨hu, hcv⟩ := hm.current c hc
    refine ⟨hupdating.trans hu, fun hd => ?_⟩
    obtain ⟨hd, hv⟩ := hslots c.slot hd
    rw [hv]
    exact hcv hd
  waiting k i hk := by
    refine (hm.waiting k i (hupdating ▸ hk)).imp_right ?_
    rintro ⟨success, hdone, hok⟩
    refine ⟨success, hdone, fun hs hd => ?_⟩
    obtain ⟨hd, hv⟩ := hslots i hd
    rw [hv]
    exact hok hs hd

variable [DecidableEq ι]

/-- Sending a slot makes it clean, and its value is what is on the way. -/
theorem send (hm : Mirrors s remote sent done) (hidle : s.updating = none) (k : κ) (i : ι) :
    Mirrors ⟨s.value, Function.update s.dirty i false, some (k, i)⟩ remote
      (sent ++ [⟨k, i, s.value i⟩]) done where
  synced j hd hu := by
    have hji : j ≠ i := fun h => hu k (by rw [h])
    have hd : Function.update s.dirty i false j = false := hd
    rw [Function.update_of_ne hji] at hd
    exact hm.synced j hd (by simp [hidle])
  current c hc := by
    rw [hm.sent_nil hidle, List.nil_append, List.mem_singleton] at hc
    subst hc
    exact ⟨rfl, fun _ => rfl⟩
  waiting k' j hk := by
    obtain ⟨rfl, -⟩ : k = k' ∧ i = j := by simpa using hk
    exact .inl ⟨⟨k, i, s.value i⟩, by simp, rfl⟩

/-- The remote side runs the oldest command. A failed one leaves anything in its slot. -/
theorem execute {c : Command ι α κ} (hm : Mirrors s remote (c :: sent) done) {success : Bool}
    {x : α} (hx : success = true → x = c.value) :
    Mirrors s (Function.update remote c.slot x) sent ((c.key, success) :: done) := by
  obtain ⟨hu, hcv⟩ := hm.current c List.mem_cons_self
  refine ⟨fun i hd hno => ?_, fun c' hc' => hm.current c' (List.mem_cons_of_mem c hc'), ?_⟩
  · have hi : i ≠ c.slot := fun h => hno c.key (h ▸ hu)
    rw [Function.update_of_ne hi]
    exact hm.synced i hd hno
  · intro k i hk
    obtain ⟨rfl, rfl⟩ : c.key = k ∧ c.slot = i := by simpa using hu.symm.trans hk
    refine .inr ⟨success, List.mem_cons_self, fun hs hd => ?_⟩
    rw [Function.update_self, hx hs]
    exact hcv hd

/-- The answer comes in. The key stands for one command only, so it says what became of it. -/
theorem settle (hm : Mirrors s remote sent done) {k : κ} {i : ι} {success : Bool}
    (hu : s.updating = some (k, i)) (hsent : ∀ c ∈ sent, c.key ≠ k)
    (hdone : ∀ b, (k, b) ∈ done → b = success) :
    Mirrors ⟨s.value, if success then s.dirty else Function.update s.dirty i true, none⟩ remote
      sent done := by
  have hnil : sent = [] := by
    refine List.eq_nil_iff_forall_not_mem.mpr fun c hc => hsent c hc ?_
    obtain ⟨rfl, -⟩ : c.key = k ∧ c.slot = i := by simpa using (hm.current c hc).1.symm.trans hu
    rfl
  subst hnil
  refine .of_idle rfl fun j hd => ?_
  by_cases hji : j = i
  · subst hji
    cases success with
    | false => simp at hd
    | true =>
      obtain ⟨c, hc, -⟩ | ⟨b, hb, hok⟩ := hm.waiting k j hu
      · cases hc
      · exact hok (hdone b hb) (by simpa using hd)
  · refine hm.synced j ?_ (fun k' hk' => ?_)
    · cases success with
      | false => simpa [Function.update_of_ne hji] using hd
      | true => simpa using hd
    · obtain ⟨-, rfl⟩ : k = k' ∧ i = j := by simpa using hu.symm.trans hk'
      exact hji rfl

end Mirrors

structure Register (α κ : Type*) where
  value : α
  dirty : Bool
  updating : Option κ

/-- The remote register agrees with the owner's once that is clean and settled. Commands that the
owner forgot are ahead of the one it waits for. -/
structure Tracks (s : Register α κ) (remote : α) (sent : List (κ × α)) (done : List (κ × Bool)) :
    Prop where
  settled : s.updating = none → s.dirty = false → sent = [] ∧ remote = s.value
  waiting : ∀ k, s.updating = some k →
    (∃ forgotten x, sent = forgotten ++ [(k, x)] ∧ (s.dirty = false → x = s.value)) ∨
      sent = [] ∧ ∃ success, (k, success) ∈ done ∧
        (success = true → s.dirty = false → remote = s.value)

namespace Tracks
variable {s : Register α κ} {remote : α} {sent : List (κ × α)} {done : List (κ × Bool)}

/-- A dirty register that waits for nothing promises nothing. -/
theorem of_dirty (value : α) : Tracks ⟨value, true, none⟩ remote sent done where
  settled _ hd := by cases hd
  waiting k hk := by cases hk

theorem touch (ht : Tracks s remote sent done) (value : α) :
    Tracks ⟨value, true, s.updating⟩ remote sent done where
  settled _ hd := by cases hd
  waiting k hk := by
    rcases ht.waiting k hk with ⟨forgotten, x, hsent, -⟩ | ⟨hsent, success, hdone, -⟩
    · exact .inl ⟨forgotten, x, hsent, fun hd => by cases hd⟩
    · exact .inr ⟨hsent, success, hdone, fun _ hd => by cases hd⟩

theorem send (s : Register α κ) (k : κ) :
    Tracks ⟨s.value, false, some k⟩ remote (sent ++ [(k, s.value)]) done where
  settled hu _ := by cases hu
  waiting k' hk := by
    cases hk
    exact .inl ⟨sent, s.value, rfl, fun _ => rfl⟩

/-- The remote side runs the oldest command for the register. -/
theorem execute {k : κ} {x y : α} (ht : Tracks s remote ((k, x) :: sent) done) {success : Bool}
    (hy : success = true → y = x) : Tracks s y sent ((k, success) :: done) where
  settled hu hd := by cases (ht.settled hu hd).1
  waiting k' hk := by
    rcases ht.waiting k' hk with ⟨forgotten, x', hsent, hx⟩ | ⟨hsent, -⟩
    · cases forgotten with
      | nil =>
        simp only [List.nil_append, List.cons.injEq, Prod.mk.injEq] at hsent
        obtain ⟨⟨rfl, rfl⟩, rfl⟩ := hsent
        exact .inr ⟨rfl, success, List.mem_cons_self, fun hs hd => (hy hs).trans (hx hd)⟩
      | cons c forgotten =>
        obtain ⟨-, rfl⟩ := List.cons.inj hsent
        exact .inl ⟨forgotten, x', rfl, hx⟩
    · cases hsent

/-- It runs a command for another one. -/
theorem done_cons (ht : Tracks s remote sent done) (answer : κ × Bool) :
    Tracks s remote sent (answer :: done) where
  settled := ht.settled
  waiting k hk := by
    refine (ht.waiting k hk).imp_right ?_
    rintro ⟨hsent, success, hdone, hok⟩
    exact ⟨hsent, success, List.mem_cons_of_mem _ hdone, hok⟩

/-- The answer comes in; it is the only one with this key, and its command is not on the way. -/
theorem settle (ht : Tracks s remote sent done) {k : κ} {success : Bool}
    (hu : s.updating = some k) (hsent : ∀ c ∈ sent, c.1 ≠ k)
    (hdone : ∀ b, (k, b) ∈ done → b = success) :
    Tracks ⟨s.value, s.dirty || !success, none⟩ remote sent done where
  settled _ hd := by
    rw [Bool.or_eq_false_iff, Bool.not_eq_false'] at hd
    rcases ht.waiting k hu with ⟨forgotten, x, rfl, -⟩ | ⟨rfl, b, hb, hok⟩
    · exact absurd rfl (hsent (k, x) (by simp))
    · exact ⟨rfl, hok ((hdone b hb).trans hd.2) hd.1⟩
  waiting k' hk := by cases hk

end Tracks
end WriteBack
