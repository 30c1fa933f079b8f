import Mathlib.Data.List.Forall2
import Mathlib.Data.List.Nodup
import Mathlib.Data.List.Range
import ZigbeeStack.PackDerive

/-! Derived codecs take back what they wrote: first the variables that the generated code
introduces, then the fields that it packs and unpacks through them, then the arms. -/
namespace ZigbeeStack.PackDerive

variable {Ty : Type} {El : Ty → Type}

/-! The types that the compiler accepts and their values. -/

def Fields.names : Fields Ty → List Ident
  | .named fields => fields.map Prod.fst
  | _ => []

def Fields.types : Fields Ty → List Ty
  | .named fields => fields.map Prod.snd
  | .unnamed fields => fields
  | .unit => []

def Fields.body : Fields Ty → List (Val El) → Body El
  | .named fields, values => .named fun name => ((fields.map Prod.fst).zip values).lookup name
  | .unnamed _, values => .unnamed values
  | .unit, _ => .unit

def Fields.Makes (fields : Fields Ty) (path : Path) (value : Value El) : Prop :=
  ∃ values : List (Val El), values.map Sigma.fst = fields.types ∧
    value = ⟨path, fields.body values⟩

def DeriveInput.HasValue (input : DeriveInput El) (value : Value El) : Prop :=
  match input.data with
  | .struct fields => fields.Makes (typePath input.ident) value
  | .enum variants => ∃ variant ∈ variants,
      variant.fields.Makes (variantPath input.ident variant.ident) value
  | .union => False

def DeriveInput.WellFormed (input : DeriveInput El) : Prop :=
  match input.data with
  | .struct fields => fields.names.Nodup
  | .enum variants => (variants.map Variant.ident).Nodup ∧
      ∀ variant ∈ variants, variant.fields.names.Nodup
  | .union => True

def Variant.HasTag (variant : Variant El) (t : Ty) (tag : El t) : Prop :=
  (∃ expr, getTagExpr variant = .ok expr ∧ expr t = some tag) ∧
    ∃ pat, getTagPat variant = .ok pat ∧ ∀ x, pat t x = true ↔ x = tag

def DistinctTags (variants : List (Variant El)) (t : Ty) : Prop :=
  (∀ variant ∈ variants, ∃ tag, variant.HasTag t tag) ∧
    variants.Pairwise fun v w => ∀ tag, v.HasTag t tag → ¬ w.HasTag t tag

/-! The names that the macros make up are all different. -/

theorem repr_inj {m n : Nat} (h : m.repr = n.repr) : m = n := by
  have hdigits := congrArg String.toList h
  rw [Nat.toList_repr, Nat.toList_repr] at hdigits
  simpa using congrArg (Nat.ofDigitChars 10 · 0) hdigits

theorem genTemporaryNames_injective : Function.Injective genTemporaryNames :=
  fun _ _ h => repr_inj ((String.append_right_inj _).mp h)

theorem genIgnoredNames_injective : Function.Injective genIgnoredNames :=
  fun _ _ h => repr_inj ((String.append_right_inj _).mp h)

@[simp] theorem takeNames_length (namegen : Nat → Ident) (count : Nat) :
    (takeNames namegen count).length = count := by
  simp [takeNames]

theorem takeNames_nodup {namegen : Nat → Ident} (h : Function.Injective namegen) (count : Nat) :
    (takeNames namegen count).Nodup :=
  List.nodup_range.map h

/-! Constructing and deconstructing go through the same shape and the same names. -/

section Shapes
variable (path : Path) (fields : Fields Ty) (namegen : Nat → Ident)

theorem deconstructFromFields_eq : deconstructFromFields path fields namegen =
    ((constructFromFields path fields namegen).1,
      (constructFromFields path fields namegen).2.2) := by
  cases fields <;> rfl

@[simp] theorem constructFromFields_types :
    (constructFromFields path fields namegen).2.1 = fields.types := by
  cases fields <;> rfl

@[simp] theorem constructFromFields_names :
    (constructFromFields path fields namegen).2.2 = takeNames namegen fields.types.length := by
  cases fields <;> simp [constructFromFields, constructFromNamedFields,
    constructFromUnnamedFields, Fields.types, takeNames]

end Shapes

/-- Looking up each of some distinct names among names paired with values. -/
theorem map_lookup_zip {β : Type} {names : List Ident} {values : List β} (hnd : names.Nodup)
    (hlen : names.length = values.length) :
    names.map (fun name => (names.zip values).lookup name) = values.map some := by
  induction names generalizing values with
  | nil => rw [List.eq_nil_of_length_eq_zero hlen.symm]; rfl
  | cons name names ih =>
    cases values with
    | nil => cases hlen
    | cons value values =>
      obtain ⟨hnot, hnd⟩ := List.nodup_cons.mp hnd
      have htail : names.map (fun x => ((name :: names).zip (value :: values)).lookup x) =
          names.map (fun x => (names.zip values).lookup x) := by
        refine List.map_congr_left fun x hx => ?_
        have hne : x ≠ name := fun h => hnot (h ▸ hx)
        rw [List.zip_cons_cons, List.lookup_cons, beq_eq_false_iff_ne.mpr hne]
      rw [List.map_cons, htail, ih hnd (Nat.succ.inj hlen)]
      simp

/-- Reading a value for each key. -/
theorem mapM_keyed {ι κ γ : Type} (key : ι → κ) (read : ι → Option γ) {xs : List ι}
    {values : List γ} (h : xs.map read = values.map some) :
    xs.mapM (fun x => (read x).map (key x, ·)) = some ((xs.map key).zip values) := by
  induction xs generalizing values with
  | nil => rfl
  | cons x xs ih =>
    cases values with
    | nil => cases h
    | cons value values =>
      obtain ⟨hx, hxs⟩ := List.cons.inj h
      simp [List.mapM_cons, hx, ih hxs]

theorem mapM_env {ι γ : Type} {read : ι → Option γ} {xs : List ι} {values : List γ}
    (h : xs.map read = values.map some) : xs.mapM read = some values := by
  induction xs generalizing values with
  | nil => cases values with
    | nil => rfl
    | cons => cases h
  | cons x xs ih =>
    cases values with
    | nil => cases h
    | cons value values =>
      obtain ⟨hx, hxs⟩ := List.cons.inj h
      simp [List.mapM_cons, hx, ih hxs]

/-- The constructor expression gathers the values of its variables. -/
theorem construct_eval {path : Path} {fields : Fields Ty} {namegen : Nat → Ident}
    {env : Env El} {values : List (Val El)} (htypes : values.map Sigma.fst = fields.types)
    (henv : (takeNames namegen fields.types.length).map env = values.map some) :
    (constructFromFields path fields namegen).1.eval env = some ⟨path, fields.body values⟩ := by
  cases fields with
  | named fields =>
    have hlen : (fields.map Prod.fst).length = (takeNames namegen fields.length).length := by simp
    have hread : ((fields.map Prod.fst).zip (takeNames namegen fields.length)).map
        (fun x => env x.2) = values.map some := by
      refine (List.map_map (l := _) (f := Prod.snd) (g := env)).symm.trans ?_
      rw [List.map_snd_zip hlen.ge]
      simpa [Fields.types] using henv
    simp only [constructFromFields, constructFromNamedFields, Shape.eval,
      mapM_keyed Prod.fst _ hread, List.map_fst_zip hlen.le]
    rfl
  | unnamed fields =>
    have hread : (takeNames namegen fields.length).mapM env = some values := mapM_env henv
    simp only [constructFromFields, constructFromUnnamedFields, Shape.eval, hread]
    rfl
  | unit => rfl

/-- The constructor pattern gives its variables the values in the order of the declaration. -/
theorem construct_bind {path : Path} {fields : Fields Ty} {namegen : Nat → Ident}
    (hgen : Function.Injective namegen) (hnd : fields.names.Nodup) {values : List (Val El)}
    (htypes : values.map Sigma.fst = fields.types) :
    ∃ env, (constructFromFields path fields namegen).1.bind ⟨path, fields.body values⟩ = some env ∧
      (takeNames namegen fields.types.length).map env = values.map some := by
  have hcount : fields.types.length = values.length := by rw [← htypes, List.length_map]
  have hvars := @map_lookup_zip _ _ values (takeNames_nodup hgen fields.types.length)
    (by rw [takeNames_length, hcount])
  cases fields with
  | named fields =>
    have hlen : (fields.map Prod.fst).length = (takeNames namegen fields.length).length := by simp
    have hread : ((fields.map Prod.fst).zip (takeNames namegen fields.length)).map
        (fun x => ((fields.map Prod.fst).zip values).lookup x.1) = values.map some := by
      refine (List.map_map (l := _) (f := Prod.fst)
        (g := fun name => ((fields.map Prod.fst).zip values).lookup name)).symm.trans ?_
      rw [List.map_fst_zip hlen.le]
      exact map_lookup_zip hnd (by simpa [Fields.types] using hcount)
    refine ⟨fun name => ((takeNames namegen fields.length).zip values).lookup name, ?_, ?_⟩
    · simp only [constructFromFields, constructFromNamedFields, Shape.bind, Fields.body,
        if_true, mapM_keyed Prod.snd _ hread, List.map_snd_zip hlen.ge]
      rfl
    · simpa [Fields.types] using hvars
  | unnamed fields =>
    refine ⟨fun name => ((takeNames namegen fields.length).zip values).lookup name, ?_, hvars⟩
    have hheld : (takeNames namegen fields.length).length = values.length := by
      rw [takeNames_length]
      exact hcount
    simp only [constructFromFields, constructFromUnnamedFields, Shape.bind, Fields.body, hheld,
      true_and, if_true]
  | unit =>
    rw [List.eq_nil_of_length_eq_zero hcount.symm]
    exact ⟨fun _ => none, by simp [constructFromFields, Shape.bind, Fields.body], rfl⟩

/-- A constructor pattern matches no value of another constructor. -/
theorem construct_bind_of_ne {path : Path} (fields : Fields Ty) (namegen : Nat → Ident)
    {value : Value El} (hne : path ≠ value.path) :
    (constructFromFields path fields namegen).1.bind value = none := by
  cases fields with
  | named fields =>
    simp only [constructFromFields, constructFromNamedFields, Shape.bind, if_neg hne]
    split <;> rfl
  | unnamed fields =>
    simp only [constructFromFields, constructFromUnnamedFields, Shape.bind, hne, false_and,
      if_false]
    split <;> rfl
  | unit =>
    simp only [constructFromFields, Shape.bind, if_neg hne]
    split <;> rfl

/-! Arms stand in the order of the variants, and the first that matches is the variant's own. -/

theorem mapM_forall₂ {ε α β : Type} {f : α → Except ε β} {xs : List α}
    (h : ∀ x ∈ xs, ∃ y, f x = .ok y) :
    ∃ ys, xs.mapM f = .ok ys ∧ List.Forall₂ (fun x y => f x = .ok y) xs ys := by
  induction xs with
  | nil => exact ⟨[], rfl, .nil⟩
  | cons x xs ih =>
    obtain ⟨y, hy⟩ := h x List.mem_cons_self
    obtain ⟨ys, hys, hall⟩ := ih fun x' hx' => h x' (List.mem_cons_of_mem _ hx')
    exact ⟨y :: ys, by rw [List.mapM_cons, hy, ok_bind, hys]; rfl, .cons hy hall⟩

section Arms
variable {α β γ : Type} {R : α → β → Prop} {xs : List α} {ys : List β}

theorem findSome?_arm (h : List.Forall₂ R xs ys) {f : β → Option γ} {x : α} (hx : x ∈ xs)
    (hit : ∀ y, R x y → (f y).isSome) (miss : ∀ z ∈ xs, z ≠ x → ∀ y, R z y → f y = none) :
    ∃ y, R x y ∧ ys.findSome? f = f y := by
  induction h with
  | nil => cases hx
  | @cons a b as bs hab _ ih =>
    by_cases ha : a = x
    · subst ha
      obtain ⟨found, hfound⟩ := Option.isSome_iff_exists.mp (hit b hab)
      exact ⟨b, hab, by rw [List.findSome?_cons, hfound]⟩
    · have htail : x ∈ as := (List.mem_cons.mp hx).resolve_left (Ne.symm ha)
      obtain ⟨y, hy, hfind⟩ := ih htail fun z hz => miss z (List.mem_cons_of_mem _ hz)
      refine ⟨y, hy, ?_⟩
      rw [List.findSome?_cons, miss a List.mem_cons_self ha b hab]
      exact hfind

theorem find?_arm (h : List.Forall₂ R xs ys) {p : β → Bool} {x : α} (hx : x ∈ xs)
    (hit : ∀ y, R x y → p y = true) (miss : ∀ z ∈ xs, z ≠ x → ∀ y, R z y → p y = false) :
    ∃ y, R x y ∧ ys.find? p = some y := by
  obtain ⟨y, hy, hfind⟩ := findSome?_arm (f := Option.guard p) h hx
    (fun y hy => by simp [Option.guard, hit y hy])
    (fun z hz hne y hy => by simp [Option.guard, miss z hz hne y hy])
  refine ⟨y, hy, ?_⟩
  rw [List.find?_eq_findSome?_guard, hfind, Option.guard, if_pos (hit y hy)]

theorem find?_no_arm (h : List.Forall₂ R xs ys) {p : β → Bool}
    (miss : ∀ z ∈ xs, ∀ y, R z y → p y = false) : ys.find? p = none := by
  induction h with
  | nil => rfl
  | @cons a b as bs hab _ ih =>
    rw [List.find?_cons_of_neg (by simp [miss a List.mem_cons_self b hab])]
    exact ih fun z hz => miss z (List.mem_cons_of_mem _ hz)

end Arms

theorem Variant.HasTag.value {variant : Variant El} {t : Ty} {tag : El t}
    (h : variant.HasTag t tag) {expr : Expr El} (hexpr : getTagExpr variant = .ok expr) :
    expr t = some tag := by
  obtain ⟨⟨expr', hexpr', hvalue⟩, -⟩ := h
  cases hexpr.symm.trans hexpr'
  exact hvalue

theorem Variant.HasTag.unique {variant : Variant El} {t : Ty} {a b : El t}
    (ha : variant.HasTag t a) (hb : variant.HasTag t b) : a = b := by
  obtain ⟨⟨expr, hexpr, hvalue⟩, -⟩ := ha
  exact Option.some.inj (hvalue.symm.trans (hb.value hexpr))

theorem distinctTags_of_nodup {variants : List (Variant El)} {t : Ty} (tagOf : Variant El → El t)
    (htag : ∀ variant ∈ variants, variant.HasTag t (tagOf variant))
    (hnd : (variants.map tagOf).Nodup) : DistinctTags variants t := by
  refine ⟨fun variant hv => ⟨tagOf variant, htag variant hv⟩, ?_⟩
  refine (List.pairwise_map.mp hnd).imp_of_mem fun {v w} hv hw hne tag hvt hwt => hne ?_
  exact ((htag v hv).unique hvt).trans ((htag w hw).unique hwt).symm

theorem DistinctTags.ne {variants : List (Variant El)} {t : Ty} (h : DistinctTags variants t)
    {v w : Variant El} (hv : v ∈ variants) (hw : w ∈ variants) (hne : w ≠ v) {tag : El t}
    (hvt : v.HasTag t tag) : ¬ w.HasTag t tag := by
  have hsymm : Std.Symm fun v w : Variant El => ∀ tag, v.HasTag t tag → ¬ w.HasTag t tag :=
    ⟨fun _ _ hvw tag hwt hvt => hvw tag hvt hwt⟩
  exact h.2.forall hv hw hne.symm tag hvt

theorem unpackArm_ok {name : Ident} {variant : Variant El} {arm : UnpackArm El}
    (h : unpackArm name variant = .ok arm) {t : Ty} {tag : El t} (htag : variant.HasTag t tag) :
    (∀ x, arm.tag t x = true ↔ x = tag) ∧
      arm.body = ⟨(constructFromEnumVariant name variant genTemporaryNames).2.2.zip
          (constructFromEnumVariant name variant genTemporaryNames).2.1,
        (constructFromEnumVariant name variant genTemporaryNames).1⟩ := by
  obtain ⟨-, pat, hpat, hmatch⟩ := htag
  rw [unpackArm, hpat] at h
  cases h
  exact ⟨hmatch, rfl⟩

/-- A value's constructor leads to its variant's arm, and the arm's variables hold the values of
the fields. -/
theorem firstMatch_variant {α : Type} {p : α → Shape} {name : Ident}
    {variants : List (Variant El)} {arms : List α} {R : Variant El → α → Prop}
    {namegen : Nat → Ident} (hgen : Function.Injective namegen)
    (harms : List.Forall₂ R variants arms)
    (hpat : ∀ variant arm, R variant arm →
      p arm = (constructFromEnumVariant name variant namegen).1)
    (hidents : (variants.map Variant.ident).Nodup) {variant : Variant El}
    (hmem : variant ∈ variants) (hnames : variant.fields.names.Nodup) {values : List (Val El)}
    (htypes : values.map Sigma.fst = variant.fields.types) :
    ∃ arm env, R variant arm ∧
      firstMatch p arms ⟨variantPath name variant.ident, variant.fields.body values⟩ =
        some (arm, env) ∧
      (takeNames namegen variant.fields.types.length).map env = values.map some := by
  obtain ⟨env, hbind, hheld⟩ :=
    @construct_bind _ _ (variantPath name variant.ident) _ _ hgen hnames _ htypes
  have hown : ∀ arm, R variant arm → (p arm).bind
      ⟨variantPath name variant.ident, variant.fields.body values⟩ = some env := by
    intro arm harm
    rw [hpat variant arm harm]
    exact hbind
  obtain ⟨arm, harm, hfind⟩ := findSome?_arm (f := fun arm => ((p arm).bind
      ⟨variantPath name variant.ident, variant.fields.body values⟩).map (arm, ·)) harms hmem
    (fun arm harm => by rw [hown arm harm]; rfl)
    (fun w hw hne arm harm => by
      rw [hpat w arm harm]
      have hpath : variantPath name w.ident ≠ variantPath name variant.ident := by
        intro h
        have hident : w.ident = variant.ident := by simpa [variantPath] using h
        exact hne (List.inj_on_of_nodup_map hidents hw hmem hident)
      rw [constructFromEnumVariant, @construct_bind_of_ne _ _ _ w.fields namegen
        ⟨variantPath name variant.ident, variant.fields.body values⟩ hpath]
      rfl)
  refine ⟨arm, env, harm, ?_, hheld⟩
  rw [firstMatch, hfind, hown arm harm]
  rfl

/-! With its tag in order, a variant's arms come out as they should. -/

section Macros
variable {name : Ident} {attributes : List (Attribute El)} {variants : List (Variant El)} {t : Ty}

theorem unwrap_ok {α : Type} (value : α) : unwrap (.ok value : Except SynError α) = .ok value := rfl

theorem unpackArm_exists {variant : Variant El} {tag : El t} (htag : variant.HasTag t tag) :
    ∃ arm, unpackArm name variant = .ok arm := by
  obtain ⟨-, pat, hpat, -⟩ := htag
  rw [unpackArm, hpat]
  exact ⟨_, rfl⟩

theorem packArm_exists {variant : Variant El} {tag : El t} (htag : variant.HasTag t tag) :
    ∃ arm, packArm name variant = .ok arm := by
  obtain ⟨⟨expr, hexpr, -⟩, -⟩ := htag
  rw [packArm, hexpr]
  exact ⟨_, rfl⟩

theorem tagArm_exists {variant : Variant El} {tag : El t} (htag : variant.HasTag t tag) :
    ∃ arm, tagArm name variant = .ok arm := by
  obtain ⟨⟨expr, hexpr, -⟩, -⟩ := htag
  rw [tagArm, hexpr]
  exact ⟨_, rfl⟩

theorem packArm_ok {variant : Variant El} {arm : PackArm El} (h : packArm name variant = .ok arm) :
    arm.toDataArm = dataArm name variant ∧
      ∀ {t : Ty} {tag : El t}, variant.HasTag t tag → arm.tag t = some tag := by
  cases hexpr : getTagExpr variant with
  | error => rw [packArm, hexpr] at h; cases h
  | ok expr =>
    rw [packArm, hexpr] at h
    cases h
    exact ⟨rfl, fun htag => htag.value hexpr⟩

theorem tagArm_ok {variant : Variant El} {arm : TagArm El} (h : tagArm name variant = .ok arm) :
    arm.pat = (constructFromEnumVariant name variant genIgnoredNames).1 ∧
      ∀ {t : Ty} {tag : El t}, variant.HasTag t tag → arm.tag t = some tag := by
  cases hexpr : getTagExpr variant with
  | error => rw [tagArm, hexpr] at h; cases h
  | ok expr =>
    rw [tagArm, hexpr] at h
    cases h
    exact ⟨congrArg Prod.fst (deconstructFromFields_eq _ _ _), fun htag => htag.value hexpr⟩

theorem dataArm_eq (variant : Variant El) : dataArm name variant =
    ⟨(constructFromEnumVariant name variant genTemporaryNames).1,
      takeNames genTemporaryNames variant.fields.types.length⟩ := by
  rw [dataArm, deconstructFromEnumVariant, deconstructFromFields_eq]
  simp only [constructFromFields_names]
  rfl

/-- With a tag type and a tag for each variant no macro panics, and each variant has its arms. -/
theorem implPackForEnum_ok (name : Ident) (htype : getTagType attributes = .ok t)
    (htags : ∀ variant ∈ variants, ∃ tag, variant.HasTag t tag) :
    ∃ unpackArms packArms,
      implPackForEnum name attributes variants = .ok ⟨t, unpackArms, packArms⟩ ∧
      List.Forall₂ (fun v arm => unpackArm name v = .ok arm) variants unpackArms ∧
      List.Forall₂ (fun v arm => packArm name v = .ok arm) variants packArms := by
  obtain ⟨packArms, hpack, hpacks⟩ := mapM_forall₂ (f := packArm name) fun v hv =>
    packArm_exists (htags v hv).choose_spec
  obtain ⟨unpackArms, hunpack, hunpacks⟩ := mapM_forall₂ (f := unpackArm name) fun v hv =>
    unpackArm_exists (htags v hv).choose_spec
  refine ⟨unpackArms, packArms, ?_, hunpacks, hpacks⟩
  rw [implPackForEnum, htype, unwrap_ok, ok_bind, hpack, ok_bind, hunpack]
  rfl

theorem implPackTaggedForEnum_ok (name : Ident) (htype : getTagType attributes = .ok t)
    (htags : ∀ variant ∈ variants, ∃ tag, variant.HasTag t tag) :
    ∃ tagArms unpackArms,
      implPackTaggedForEnum name attributes variants =
        .ok ⟨t, tagArms, unpackArms, variants.map (dataArm name)⟩ ∧
      List.Forall₂ (fun v arm => tagArm name v = .ok arm) variants tagArms ∧
      List.Forall₂ (fun v arm => unpackArm name v = .ok arm) variants unpackArms := by
  obtain ⟨tagArms, htag, htagArms⟩ := mapM_forall₂ (f := tagArm name) fun v hv =>
    tagArm_exists (htags v hv).choose_spec
  obtain ⟨unpackArms, hunpack, hunpacks⟩ := mapM_forall₂ (f := unpackArm name) fun v hv =>
    unpackArm_exists (htags v hv).choose_spec
  refine ⟨tagArms, unpackArms, ?_, htagArms, hunpacks⟩
  rw [implPackTaggedForEnum, htype, unwrap_ok, ok_bind, htag, ok_bind, hunpack]
  rfl

end Macros

/-! Fields are packed and unpacked one after the other. -/

section Codecs
variable [∀ t, Pack (El t)]

structure Carries (values : List (Val El)) (bytes : List UInt8) : Prop where
  packs : ∀ (env : Env El) (names : List Ident) v, names.map env = values.map some →
    runPacks env names (VecPackTarget.mk v) = some (.ok ⟨v ++ bytes⟩)
  unpacks : ∀ (env : Env El) (names : List Ident) rest,
    names.Nodup → names.length = values.length →
    ∃ env', runLets env (names.zip (values.map Sigma.fst)) (bytes ++ rest) = .ok (env', rest) ∧
      names.map env' = values.map some ∧ ∀ x, x ∉ names → env' x = env x

theorem carries_nil : Carries ([] : List (Val El)) [] where
  packs env names v h := by
    rw [List.map_eq_nil_iff.mp h, List.append_nil]
    rfl
  unpacks env names rest _ hlen := by
    rw [List.eq_nil_of_length_eq_zero hlen]
    exact ⟨env, rfl, rfl, fun _ _ => rfl⟩

theorem Carries.cons {value : Val El} {values : List (Val El)} {bytes : List UInt8}
    (hvalue : RoundTrips value.2) (h : Carries values bytes) :
    ∃ first, Carries (value :: values) (first ++ bytes) := by
  obtain ⟨first, hpack, hunpack⟩ := hvalue
  refine ⟨first, ⟨fun env names v hnames => ?_, fun env names rest hnd hlen => ?_⟩⟩
  · cases names with
    | nil => cases hnames
    | cons name names =>
      obtain ⟨hname, hnames⟩ := List.cons.inj hnames
      have htail := h.packs env names (v ++ first) hnames
      simp only [runPacks, hname, Option.bind_eq_bind, Option.bind_some, hpack, htail,
        List.append_assoc]
  · cases names with
    | nil => cases hlen
    | cons name names =>
      obtain ⟨hnot, hnd⟩ := List.nodup_cons.mp hnd
      obtain ⟨env', hrun, hheld, hframe⟩ :=
        h.unpacks (env.set name value) names rest hnd (Nat.succ.inj hlen)
      -- the later variables leave the first one as it was set
      have hname : env' name = some value := by
        rw [hframe name hnot, Env.set, if_pos rfl]
      refine ⟨env', ?_, by rw [List.map_cons, List.map_cons, hname, hheld], fun x hx => ?_⟩
      · simp only [List.map_cons, List.zip_cons_cons, runLets, List.append_assoc, hunpack, ok_bind]
        exact hrun
      · rw [hframe x (List.not_mem_of_not_mem_cons hx), Env.set,
          if_neg (List.ne_of_not_mem_cons hx)]

theorem carries_exists {values : List (Val El)} (h : ∀ value ∈ values, RoundTrips value.2) :
    ∃ bytes, Carries values bytes := by
  induction values with
  | nil => exact ⟨[], carries_nil⟩
  | cons value values ih =>
    obtain ⟨bytes, hbytes⟩ := ih fun x hx => h x (List.mem_cons_of_mem _ hx)
    obtain ⟨first, hfirst⟩ := hbytes.cons (h value List.mem_cons_self)
    exact ⟨first ++ bytes, hfirst⟩

/-- Fields whose types lose nothing hold values that bytes can stand for. -/
theorem Fields.carries {fields : Fields Ty} (h : ∀ t ∈ fields.types, ∀ x : El t, RoundTrips x)
    {values : List (Val El)} (htypes : values.map Sigma.fst = fields.types) :
    ∃ bytes, Carries values bytes :=
  carries_exists fun value hv => h value.1 (htypes ▸ List.mem_map_of_mem hv) value.2

/-- The body of an unpacking arm rebuilds the value from the bytes. -/
theorem Carries.run_construct {path : Path} {fields : Fields Ty} {values : List (Val El)}
    {bytes : List UInt8} (h : Carries values bytes)
    (htypes : values.map Sigma.fst = fields.types) (rest : List UInt8) :
    UnpackBody.run ⟨(constructFromFields path fields genTemporaryNames).2.2.zip
        (constructFromFields path fields genTemporaryNames).2.1,
      (constructFromFields path fields genTemporaryNames).1⟩ (bytes ++ rest) =
      some (.ok (⟨path, fields.body values⟩, rest)) := by
  have hcount : fields.types.length = values.length := by rw [← htypes, List.length_map]
  obtain ⟨env, hrun, hheld, -⟩ := h.unpacks (fun _ => none)
    (takeNames genTemporaryNames fields.types.length) rest
    (takeNames_nodup genTemporaryNames_injective _) (by rw [takeNames_length, hcount])
  rw [htypes] at hrun
  simp only [UnpackBody.run, constructFromFields_names, constructFromFields_types, hrun,
    construct_eval htypes hheld, Option.map_some]

/-- What a derived `Pack` is to do with a value. -/
def PackImpl.RoundTrips (impl : PackImpl El) (value : Value El) : Prop :=
  ∃ bytes, (∀ v, impl.pack value (VecPackTarget.mk v) = some (.ok ⟨v ++ bytes⟩)) ∧
    ∀ rest, impl.unpack (bytes ++ rest) = some (.ok (value, rest))

def TaggedImpl.RoundTrips (impl : TaggedImpl El) (value : Value El) : Prop :=
  ∃ tag bytes, impl.getTag value = some tag ∧
    (∀ v, impl.packData value (VecPackTarget.mk v) = some (.ok ⟨v ++ bytes⟩)) ∧
    ∀ rest, impl.unpackData tag (bytes ++ rest) = some (.ok (value, rest))

theorem implPackForStruct_roundTrips {name : Ident} {fields : Fields Ty}
    (hnd : fields.names.Nodup) (h : ∀ t ∈ fields.types, ∀ x : El t, RoundTrips x)
    {value : Value El} (hvalue : fields.Makes (typePath name) value) :
    (PackImpl.struct (implPackForStruct name fields)).RoundTrips value := by
  obtain ⟨values, htypes, rfl⟩ := hvalue
  obtain ⟨bytes, hbytes⟩ := fields.carries h htypes
  refine ⟨bytes, fun v => ?_, fun rest => hbytes.run_construct htypes rest⟩
  obtain ⟨env, hbind, hheld⟩ :=
    @construct_bind _ _ (typePath name) _ _ genTemporaryNames_injective hnd _ htypes
  simp only [PackImpl.pack, StructImpl.pack, implPackForStruct, deconstructFromFields_eq, hbind,
    Option.bind_eq_bind, Option.bind_some, constructFromFields_names]
  exact hbytes.packs env _ v hheld

section UnpackArms
variable {name : Ident} {variants : List (Variant El)} {arms : List (UnpackArm El)} {t : Ty}

/-- The variant's own tag leads to its own arm. -/
theorem unpackArms_run
    (harms : List.Forall₂ (fun variant arm => unpackArm name variant = .ok arm) variants arms)
    (hdistinct : DistinctTags variants t) {variant : Variant El} (hmem : variant ∈ variants)
    {tag : El t} (htag : variant.HasTag t tag) {values : List (Val El)} {bytes : List UInt8}
    (hbytes : Carries values bytes) (htypes : values.map Sigma.fst = variant.fields.types)
    (rest : List UInt8) :
    runUnpackArms arms tag (bytes ++ rest) =
      some (.ok (⟨variantPath name variant.ident, variant.fields.body values⟩, rest)) := by
  obtain ⟨arm, harm, hfind⟩ := find?_arm (p := fun arm : UnpackArm El => arm.tag t tag) harms hmem
    (fun arm harm => ((unpackArm_ok harm htag).1 tag).mpr rfl)
    (fun w hw hne arm harm => by
      obtain ⟨other, hother⟩ := hdistinct.1 w hw
      rw [Bool.eq_false_iff]
      intro hhit
      have heq : tag = other := ((unpackArm_ok harm hother).1 tag).mp hhit
      exact hdistinct.ne hmem hw hne htag (heq ▸ hother))
  rw [runUnpackArms, hfind]
  simp only [(unpackArm_ok harm htag).2]
  exact hbytes.run_construct htypes rest

/-- A tag of no variant leads to no arm. -/
theorem unpackArms_reject
    (harms : List.Forall₂ (fun variant arm => unpackArm name variant = .ok arm) variants arms)
    (htags : ∀ variant ∈ variants, ∃ tag, variant.HasTag t tag) {tag : El t}
    (hnone : ∀ variant ∈ variants, ¬ variant.HasTag t tag) (data : List UInt8) :
    runUnpackArms arms tag data = some (.error .invalidEnumTag) := by
  have hfind := find?_no_arm (p := fun arm : UnpackArm El => arm.tag t tag) harms
    fun w hw arm harm => by
      obtain ⟨other, hother⟩ := htags w hw
      rw [Bool.eq_false_iff]
      intro hhit
      have heq : tag = other := ((unpackArm_ok harm hother).1 tag).mp hhit
      exact hnone w hw (heq ▸ hother)
  rw [runUnpackArms, hfind]

end UnpackArms

section Enums
variable {name : Ident} {variants : List (Variant El)} {t : Ty}

variable (hidents : (variants.map Variant.ident).Nodup)
  (hnames : ∀ variant ∈ variants, variant.fields.names.Nodup) (hdistinct : DistinctTags variants t)
  (hfields : ∀ variant ∈ variants, ∀ u ∈ variant.fields.types, ∀ x : El u, RoundTrips x)
include hidents hnames hdistinct hfields

theorem enumImpl_roundTrips {unpackArms : List (UnpackArm El)} {packArms : List (PackArm El)}
    (hunpacks : List.Forall₂ (fun v arm => unpackArm name v = .ok arm) variants unpackArms)
    (hpacks : List.Forall₂ (fun v arm => packArm name v = .ok arm) variants packArms)
    (htagType : ∀ tag : El t, RoundTrips tag) {variant : Variant El} (hmem : variant ∈ variants)
    {value : Value El} (hvalue : variant.fields.Makes (variantPath name variant.ident) value) :
    (PackImpl.enum ⟨t, unpackArms, packArms⟩).RoundTrips value := by
  obtain ⟨values, htypes, rfl⟩ := hvalue
  obtain ⟨tag, htag⟩ := hdistinct.1 variant hmem
  obtain ⟨first, hpackTag, hunpackTag⟩ := htagType tag
  obtain ⟨bytes, hbytes⟩ := Fields.carries (hfields variant hmem) htypes
  obtain ⟨arm, env, harm, hfirst, hheld⟩ := firstMatch_variant
    (p := fun arm : PackArm El => arm.pat) genTemporaryNames_injective hpacks
    (fun v arm harm => by rw [(packArm_ok harm).1, dataArm_eq]) hidents hmem
    (hnames variant hmem) htypes
  refine ⟨first ++ bytes, fun v => ?_, fun rest => ?_⟩
  · have hruns := hbytes.packs env _ (v ++ first) hheld
    have hnamesArm : arm.names = takeNames genTemporaryNames variant.fields.types.length := by
      rw [(packArm_ok harm).1, dataArm_eq]
    simp only [PackImpl.pack, EnumImpl.pack, hfirst, Option.bind_eq_bind, Option.bind_some,
      (packArm_ok harm).2 htag, hpackTag, hnamesArm, hruns, List.append_assoc]
  · simp only [PackImpl.unpack, EnumImpl.unpack, List.append_assoc, hunpackTag]
    exact unpackArms_run hunpacks hdistinct hmem htag hbytes htypes rest

theorem taggedImpl_roundTrips {tagArms : List (TagArm El)} {unpackArms : List (UnpackArm El)}
    (htagArms : List.Forall₂ (fun v arm => tagArm name v = .ok arm) variants tagArms)
    (hunpacks : List.Forall₂ (fun v arm => unpackArm name v = .ok arm) variants unpackArms)
    {variant : Variant El} (hmem : variant ∈ variants) {value : Value El}
    (hvalue : variant.fields.Makes (variantPath name variant.ident) value) :
    TaggedImpl.RoundTrips ⟨t, tagArms, unpackArms, variants.map (dataArm name)⟩ value := by
  obtain ⟨values, htypes, rfl⟩ := hvalue
  obtain ⟨tag, htag⟩ := hdistinct.1 variant hmem
  obtain ⟨bytes, hbytes⟩ := Fields.carries (hfields variant hmem) htypes
  obtain ⟨arm, _, harm, hfirstTag, -⟩ := firstMatch_variant (p := TagArm.pat)
    genIgnoredNames_injective htagArms (fun v arm harm => (tagArm_ok harm).1) hidents hmem
    (hnames variant hmem) htypes
  have hdata : List.Forall₂ (fun v arm => arm = dataArm name v) variants
      (variants.map (dataArm name)) := by
    simp [List.forall₂_map_right_iff, List.forall₂_same]
  obtain ⟨_, env, rfl, hfirst, hheld⟩ := firstMatch_variant (p := DataArm.pat)
    genTemporaryNames_injective hdata (fun v arm harm => by rw [harm, dataArm_eq]) hidents hmem
    (hnames variant hmem) htypes
  refine ⟨tag, bytes, ?_, fun v => ?_, fun rest => ?_⟩
  · simp only [TaggedImpl.getTag, hfirstTag, Option.bind_eq_bind, Option.bind_some]
    exact (tagArm_ok harm).2 htag
  · have hruns := hbytes.packs env _ v hheld
    simp only [TaggedImpl.packData, hfirst, Option.bind_eq_bind, Option.bind_some, dataArm_eq,
      hruns]
  · exact unpackArms_run hunpacks hdistinct hmem htag hbytes htypes rest

end Enums

/-- Derived codecs give back what they were given, and reject the tags that no variant has. -/
theorem derived_codecs_inverse (input : DeriveInput El) (hwf : input.WellFormed) :
    (∀ fields, input.data = .struct fields →
      (∀ t ∈ fields.types, ∀ x : El t, RoundTrips x) →
      ∃ impl, implPack input = .ok impl ∧
        ∀ value, input.HasValue value → impl.RoundTrips value) ∧
    ∀ variants t, input.data = .enum variants → getTagType input.attrs = .ok t →
      DistinctTags variants t →
      (∀ variant ∈ variants, ∀ u ∈ variant.fields.types, ∀ x : El u, RoundTrips x) →
      (∀ tag : El t, RoundTrips tag) →
      (∃ impl, implPack input = .ok impl ∧
        (∀ value, input.HasValue value → impl.RoundTrips value) ∧
        ∀ (tag : El t) data rest, (∀ variant ∈ variants, ¬ variant.HasTag t tag) →
          Pack.unpack data = .ok (tag, rest) →
          impl.unpack data = some (.error .invalidEnumTag)) ∧
      ∃ impl, implPackTagged input = .ok impl ∧ impl.tagType = t ∧
        (∀ value, input.HasValue value → impl.RoundTrips value) ∧
        ∀ (tag : El impl.tagType) data,
          (∀ variant ∈ variants, ¬ variant.HasTag impl.tagType tag) →
          impl.unpackData tag data = some (.error .invalidEnumTag) := by
  obtain ⟨attrs, name, data⟩ := input
  refine ⟨?_, ?_⟩
  · rintro fields rfl hfields
    exact ⟨_, rfl, fun value hvalue => implPackForStruct_roundTrips hwf hfields hvalue⟩
  · rintro variants t rfl htype hdistinct hfields htagType
    obtain ⟨hidents, hnames⟩ := hwf
    obtain ⟨unpackArms, packArms, himpl, hunpacks, hpacks⟩ :=
      implPackForEnum_ok name htype hdistinct.1
    obtain ⟨tagArms, taggedArms, htagged, htagArms, htaggeds⟩ :=
      implPackTaggedForEnum_ok name htype hdistinct.1
    refine ⟨⟨.enum ⟨t, unpackArms, packArms⟩, ?_, ?_, ?_⟩, ⟨_, htagged, rfl, ?_, ?_⟩⟩
    · simp only [implPack, himpl, ok_bind]
      rfl
    · rintro value ⟨variant, hmem, hvalue⟩
      exact enumImpl_roundTrips hidents hnames hdistinct hfields hunpacks hpacks htagType hmem
        hvalue
    · intro tag data rest hnone hunpack
      simp only [PackImpl.unpack, EnumImpl.unpack, hunpack]
      exact unpackArms_reject hunpacks hdistinct.1 hnone rest
    · rintro value ⟨variant, hmem, hvalue⟩
      exact taggedImpl_roundTrips hidents hnames hdistinct hfields htagArms htaggeds hmem hvalue
    · intro tag data hnone
      exact unpackArms_reject htaggeds hdistinct.1 hnone data

end Codecs

/-! A struct with named fields, and an enum with each kind of variant and `u16` tags. -/

inductive TestTy where
  | u8
  | u16
  | u32

def TestEl : TestTy → Type
  | .u8 => UInt8
  | .u16 => UInt16
  | .u32 => UInt32

instance : (t : TestTy) → Pack (TestEl t)
  | .u8 => inferInstanceAs (Pack UInt8)
  | .u16 => inferInstanceAs (Pack UInt16)
  | .u32 => inferInstanceAs (Pack UInt32)

instance : (t : TestTy) → DecidableEq (TestEl t)
  | .u8 => inferInstanceAs (DecidableEq UInt8)
  | .u16 => inferInstanceAs (DecidableEq UInt16)
  | .u32 => inferInstanceAs (DecidableEq UInt32)

def TestEl.ofNat (n : Nat) : (t : TestTy) → TestEl t
  | .u8 => UInt8.ofNat n
  | .u16 => UInt16.ofNat n
  | .u32 => UInt32.ofNat n

theorem TestEl.roundTrips : (t : TestTy) → (x : TestEl t) → RoundTrips x
  | .u8 => roundTrips_word (α := UInt8)
  | .u16 => roundTrips_word (α := UInt16)
  | .u32 => roundTrips_word (α := UInt32)

def literalTokens (n : Nat) : Tokens TestEl :=
  { expr := some fun t => some (.ofNat n t), pat := some fun t x => x == .ofNat n t, type := none }

def testVariant (ident : Ident) (tag : Nat) (fields : Fields TestTy) : Variant TestEl :=
  { attrs := [⟨⟨false, ["tag"]⟩, literalTokens tag⟩], ident, fields, discriminant := none }

theorem testVariant_hasTag (ident : Ident) (tag : Nat) (fields : Fields TestTy) (t : TestTy) :
    (testVariant ident tag fields).HasTag t (.ofNat tag t) :=
  ⟨⟨_, rfl, rfl⟩, _, rfl, fun _ => beq_iff_eq⟩

def testVariants : List (Variant TestEl) :=
  [testVariant "A" 12 (.unnamed [.u8]), testVariant "B" 34 (.unnamed [.u16, .u32]),
    testVariant "C" 56 (.named [("a", .u8)]),
    testVariant "D" 78 (.named [("a", .u16), ("b", .u32)]),
    { testVariant "E" 0 .unit with discriminant := some (literalTokens 90) }]

def testEnum : DeriveInput TestEl :=
  { attrs := [⟨⟨false, ["tag_type"]⟩, ⟨none, none, some .u16⟩⟩], ident := "Test",
    data := .enum testVariants }

def testStruct : DeriveInput TestEl :=
  { attrs := [], ident := "TestF", data := .struct (.named [("x", .u8), ("y", .u16), ("z", .u32)]) }

theorem testVariants_distinctTags : DistinctTags testVariants .u16 := by
  have hlast : ({ testVariant "E" 0 .unit with discriminant := some (literalTokens 90) } :
      Variant TestEl).HasTag .u16 (.ofNat 90 .u16) := ⟨⟨_, rfl, rfl⟩, _, rfl, fun _ => beq_iff_eq⟩
  refine distinctTags_of_nodup (fun variant => match variant.ident with
    | "A" => .ofNat 12 .u16
    | "B" => .ofNat 34 .u16
    | "C" => .ofNat 56 .u16
    | "D" => .ofNat 78 .u16
    | _ => .ofNat 90 .u16) ?_ (by decide)
  simp only [testVariants, List.forall_mem_cons, List.not_mem_nil]
  exact ⟨testVariant_hasTag _ _ _ _, testVariant_hasTag _ _ _ _, testVariant_hasTag _ _ _ _,
    testVariant_hasTag _ _ _ _, hlast, fun _ h => h.elim⟩

theorem derived_codecs_inverse_tests :
    (∃ impl, implPack testStruct = .ok impl ∧
      ∀ value, testStruct.HasValue value → impl.RoundTrips value) ∧
    (∃ impl, implPack testEnum = .ok impl ∧
      ∀ value, testEnum.HasValue value → impl.RoundTrips value) ∧
    ∃ impl, implPackTagged testEnum = .ok impl ∧
      ∀ value, testEnum.HasValue value → impl.RoundTrips value := by
  have hstruct : testStruct.WellFormed := by
    change ["x", "y", "z"].Nodup
    decide
  have henum : testEnum.WellFormed := by
    refine ⟨by decide, ?_⟩
    simp only [testVariants, List.forall_mem_cons, List.not_mem_nil]
    exact ⟨by decide, by decide, by decide, by decide, by decide, fun _ h => h.elim⟩
  obtain ⟨⟨packImpl, hpack, hpacks, -⟩, taggedImpl, htagged, -, htaggeds, -⟩ :=
    (derived_codecs_inverse testEnum henum).2 testVariants .u16 rfl rfl testVariants_distinctTags
      (fun _ _ u _ => TestEl.roundTrips u) (TestEl.roundTrips .u16)
  exact ⟨(derived_codecs_inverse testStruct hstruct).1 _ rfl fun t _ => TestEl.roundTrips t,
    ⟨packImpl, hpack, hpacks⟩, taggedImpl, htagged, htaggeds⟩

end ZigbeeStack.PackDerive
