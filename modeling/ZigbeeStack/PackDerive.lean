import ZigbeeStack.Pack

/-! The derive macros of `Pack` and `PackTagged`: what they read of a type's definition, the code
that they generate from it, and what this code does when it runs. The types that fields and tags
may have are `El t` for `t : Ty`; generic parameters are among them. -/
namespace ZigbeeStack.PackDerive

abbrev Ident := String

section Definitions
variable {Ty : Type} (El : Ty → Type)

abbrev Val := (t : Ty) × El t

/-- A constant expression: its value at each type that the compiler can give it. -/
abbrev Expr := (t : Ty) → Option (El t)

/-- A pattern without variables: the values of each type that it matches. -/
abbrev Pat := (t : Ty) → El t → Bool

/-- The tokens in the parentheses of an attribute or behind a variant's equals sign, with what
they parse to as an expression, as a pattern and as a type. -/
structure Tokens where
  expr : Option (Expr El)
  pat : Option (Pat El)
  type : Option Ty

structure Path where
  leadingColon : Bool
  segments : List Ident
deriving DecidableEq, Repr

structure Attribute where
  path : Path
  args : Tokens El

inductive Fields (Ty : Type) where
  | named (named : List (Ident × Ty))
  | unnamed (unnamed : List Ty)
  | unit

structure Variant where
  attrs : List (Attribute El)
  ident : Ident
  fields : Fields Ty
  discriminant : Option (Tokens El)

inductive Data where
  | struct (fields : Fields Ty)
  | enum (variants : List (Variant El))
  | union

structure DeriveInput where
  attrs : List (Attribute El)
  ident : Ident
  data : Data El

end Definitions

variable {Ty : Type} {El : Ty → Type}

inductive SynError where
  | message (text : String)
  | parse
deriving DecidableEq, Repr

inductive MacroPanic where
  | unwrap (error : SynError)
  | notImplemented (text : String)
deriving DecidableEq, Repr

def unwrap {α : Type} (result : Except SynError α) : Except MacroPanic α :=
  result.mapError .unwrap

def parsed {α : Type} (result : Option α) : Except SynError α :=
  match result with
  | some value => .ok value
  | none => .error .parse

def genTemporaryNames (num : Nat) : Ident := "tmp" ++ Nat.repr num

def genIgnoredNames (num : Nat) : Ident := "_ignore" ++ Nat.repr num

def matchPath (path : Path) (name : String) : Bool :=
  if path.leadingColon = false ∧ path.segments.length = 1 then
    match path.segments.head? with
    | some segment => segment == name
    | none => false
  else false

def findSimpleAttribute {α : Type} (parse : Tokens El → Option α) (attrs : List (Attribute El))
    (name : String) : Except SynError α :=
  match attrs.find? fun attr => matchPath attr.path name with
  | some found => parsed (parse found.args)
  | none => .error (.message ("Attribute '" ++ name ++ "' not found"))

def getTagType (attributes : List (Attribute El)) : Except SynError Ty :=
  findSimpleAttribute Tokens.type attributes "tag_type"

def getTagExpr (variant : Variant El) : Except SynError (Expr El) :=
  match variant.discriminant with
  | some discr => parsed discr.expr
  | none => findSimpleAttribute Tokens.expr variant.attrs "tag"

def getTagPat (variant : Variant El) : Except SynError (Pat El) :=
  match variant.discriminant with
  | some discr => parsed discr.pat
  | none => findSimpleAttribute Tokens.pat variant.attrs "tag"

/-! Constructor expressions and constructor patterns have one syntax. -/

inductive Shape where
  | named (path : Path) (fields : List (Ident × Ident))
  | unnamed (path : Path) (elems : List Ident)
  | unit (path : Path)
deriving DecidableEq, Repr

def typePath (name : Ident) : Path := ⟨false, [name]⟩

def variantPath (enumName variantName : Ident) : Path := ⟨false, [enumName, variantName]⟩

def takeNames (namegen : Nat → Ident) (count : Nat) : List Ident := (List.range count).map namegen

def constructFromNamedFields (constructorPath : Path) (fields : List (Ident × Ty))
    (namegen : Nat → Ident) : Shape × List Ty × List Ident :=
  let structNames := fields.map Prod.fst
  let newNames := takeNames namegen fields.length
  let types := fields.map Prod.snd
  (.named constructorPath (structNames.zip newNames), types, newNames)

def constructFromUnnamedFields (constructorPath : Path) (fields : List Ty)
    (namegen : Nat → Ident) : Shape × List Ty × List Ident :=
  let newNames := takeNames namegen fields.length
  (.unnamed constructorPath newNames, fields, newNames)

def constructFromFields (constructorPath : Path) (fields : Fields Ty) (namegen : Nat → Ident) :
    Shape × List Ty × List Ident :=
  match fields with
  | .named f => constructFromNamedFields constructorPath f namegen
  | .unnamed f => constructFromUnnamedFields constructorPath f namegen
  | .unit => (.unit constructorPath, [], [])

def constructFromEnumVariant (enumName : Ident) (variant : Variant El) (namegen : Nat → Ident) :
    Shape × List Ty × List Ident :=
  constructFromFields (variantPath enumName variant.ident) variant.fields namegen

def deconstructFromNamedFields (constructorPath : Path) (fields : List (Ident × Ty))
    (namegen : Nat → Ident) : Shape × List Ident :=
  let structNames := fields.map Prod.fst
  let newNames := takeNames namegen fields.length
  (.named constructorPath (structNames.zip newNames), newNames)

def deconstructFromUnnamedFields (constructorPath : Path) (fields : List Ty)
    (namegen : Nat → Ident) : Shape × List Ident :=
  let newNames := takeNames namegen fields.length
  (.unnamed constructorPath newNames, newNames)

def deconstructFromFields (constructorPath : Path) (fields : Fields Ty) (namegen : Nat → Ident) :
    Shape × List Ident :=
  match fields with
  | .named f => deconstructFromNamedFields constructorPath f namegen
  | .unnamed f => deconstructFromUnnamedFields constructorPath f namegen
  | .unit => (.unit constructorPath, [])

def deconstructFromEnumVariant (enumName : Ident) (variant : Variant El) (namegen : Nat → Ident) :
    Shape × List Ident :=
  deconstructFromFields (variantPath enumName variant.ident) variant.fields namegen

/-! The generated code. -/

/-- `let (name, data) = Type::unpack(data)?;` for each name and its type, then
`Ok((result, data))`. -/
structure UnpackBody (Ty : Type) where
  lets : List (Ident × Ty)
  result : Shape

/-- `tag => body` -/
structure UnpackArm {Ty : Type} (El : Ty → Type) where
  tag : Pat El
  body : UnpackBody Ty

/-- `pat => tag`, with the tag ascribed to the tag type. -/
structure TagArm {Ty : Type} (El : Ty → Type) where
  pat : Shape
  tag : Expr El

/-- `pat =>` and `let target = name.pack(target)?;` for each name, then `Ok(target)`. -/
structure DataArm where
  pat : Shape
  names : List Ident

/-- The same with the tag, ascribed to the tag type, packed before the names. -/
structure PackArm {Ty : Type} (El : Ty → Type) extends DataArm where
  tag : Expr El

structure StructImpl (Ty : Type) where
  unpackBody : UnpackBody Ty
  packBody : DataArm

structure EnumImpl {Ty : Type} (El : Ty → Type) where
  tagType : Ty
  unpackArms : List (UnpackArm El)
  packArms : List (PackArm El)

structure TaggedImpl {Ty : Type} (El : Ty → Type) where
  tagType : Ty
  tagArms : List (TagArm El)
  unpackArms : List (UnpackArm El)
  packArms : List DataArm

inductive PackImpl {Ty : Type} (El : Ty → Type) where
  | struct (impl : StructImpl Ty)
  | enum (impl : EnumImpl El)

def implPackForStruct (name : Ident) (fields : Fields Ty) : StructImpl Ty :=
  let (constructExpr, constructTypes, constructNames) :=
    constructFromFields (typePath name) fields genTemporaryNames
  let (deconstructPat, deconstructNames) :=
    deconstructFromFields (typePath name) fields genTemporaryNames
  { unpackBody := { lets := constructNames.zip constructTypes, result := constructExpr }
    packBody := { pat := deconstructPat, names := deconstructNames } }

def dataArm (name : Ident) (variant : Variant El) : DataArm :=
  let (deconstructPat, names) := deconstructFromEnumVariant name variant genTemporaryNames
  { pat := deconstructPat, names }

def packArm (name : Ident) (variant : Variant El) : Except MacroPanic (PackArm El) := do
  let tag ← unwrap (getTagExpr variant)
  return { dataArm name variant with tag }

def tagArm (name : Ident) (variant : Variant El) : Except MacroPanic (TagArm El) := do
  let tag ← unwrap (getTagExpr variant)
  let (deconstructPat, _) := deconstructFromEnumVariant name variant genIgnoredNames
  return { pat := deconstructPat, tag }

def unpackArm (name : Ident) (variant : Variant El) : Except MacroPanic (UnpackArm El) := do
  let tag ← unwrap (getTagPat variant)
  let (constructExpr, constructTypes, constructNames) :=
    constructFromEnumVariant name variant genTemporaryNames
  return { tag, body := { lets := constructNames.zip constructTypes, result := constructExpr } }

def implPackForEnum (name : Ident) (attributes : List (Attribute El))
    (variants : List (Variant El)) : Except MacroPanic (EnumImpl El) := do
  let tagType ← unwrap (getTagType attributes)
  let packArms ← variants.mapM (packArm name)
  let unpackArms ← variants.mapM (unpackArm name)
  return { tagType, unpackArms, packArms }

def implPackTaggedForEnum (name : Ident) (attributes : List (Attribute El))
    (variants : List (Variant El)) : Except MacroPanic (TaggedImpl El) := do
  let tagType ← unwrap (getTagType attributes)
  let tagArms ← variants.mapM (tagArm name)
  let packArms := variants.map (dataArm name)
  let unpackArms ← variants.mapM (unpackArm name)
  return { tagType, tagArms, unpackArms, packArms }

def implPack (ast : DeriveInput El) : Except MacroPanic (PackImpl El) :=
  match ast.data with
  | .struct fields => .ok (.struct (implPackForStruct ast.ident fields))
  | .enum variants => do return .enum (← implPackForEnum ast.ident ast.attrs variants)
  | .union => .error (.notImplemented "derive(Pack) not (yet) implemented for this type")

def implPackTagged (ast : DeriveInput El) : Except MacroPanic (TaggedImpl El) :=
  match ast.data with
  | .enum variants => implPackTaggedForEnum ast.ident ast.attrs variants
  | _ => .error (.notImplemented "derive(PackTagged) not (yet) implemented for this type")

/-! What the generated code does. A run is `none` where the compiler would not take the code: a
variable without a value, a `match` without an arm for the value. -/

abbrev Env {Ty : Type} (El : Ty → Type) := Ident → Option (Val El)

def Env.set (env : Env El) (name : Ident) (value : Val El) : Env El :=
  fun x => if x = name then some value else env x

inductive Body {Ty : Type} (El : Ty → Type) where
  | named (fields : Ident → Option (Val El))
  | unnamed (elems : List (Val El))
  | unit

structure Value {Ty : Type} (El : Ty → Type) where
  path : Path
  body : Body El

def Shape.eval (env : Env El) : Shape → Option (Value El)
  | .named path fields => do
    let values ← fields.mapM fun field => (env field.2).map (field.1, ·)
    return ⟨path, .named fun name => values.lookup name⟩
  | .unnamed path elems => do
    let values ← elems.mapM env
    return ⟨path, .unnamed values⟩
  | .unit path => some ⟨path, .unit⟩

def Shape.bind (value : Value El) : Shape → Option (Env El)
  | .named path fields =>
    match value.body with
    | .named held =>
      if path = value.path then do
        let values ← fields.mapM fun field => (held field.1).map (field.2, ·)
        return fun name => values.lookup name
      else none
    | _ => none
  | .unnamed path elems =>
    match value.body with
    | .unnamed held =>
      if path = value.path ∧ elems.length = held.length then
        some fun name => (elems.zip held).lookup name
      else none
    | _ => none
  | .unit path =>
    match value.body with
    | .unit => if path = value.path then some fun _ => none else none
    | _ => none

section Run
variable [∀ t, Pack (El t)]

def runLets (env : Env El) : List (Ident × Ty) → List UInt8 →
    Except UnpackError (Env El × List UInt8)
  | [], data => .ok (env, data)
  | (name, type) :: lets, data => do
    let (value, data) ← (Pack.unpack data : Except UnpackError (El type × List UInt8))
    runLets (env.set name ⟨type, value⟩) lets data

def UnpackBody.run (body : UnpackBody Ty) (data : List UInt8) :
    Option (Except UnpackError (Value El × List UInt8)) :=
  match runLets (fun _ => none) body.lets data with
  | .error error => some (.error error)
  | .ok (env, data) => (body.result.eval env).map fun value => .ok (value, data)

def runPacks {T E : Type} [PackTarget T E] (env : Env El) :
    List Ident → T → Option (Except (PackError E) T)
  | [], target => some (.ok target)
  | name :: names, target => do
    let value ← env name
    match Pack.pack value.2 target with
    | .error error => some (.error error)
    | .ok target => runPacks env names target

def firstMatch {α : Type} (pat : α → Shape) (arms : List α) (value : Value El) :
    Option (α × Env El) :=
  arms.findSome? fun arm => ((pat arm).bind value).map (arm, ·)

def runUnpackArms (arms : List (UnpackArm El)) {t : Ty} (tag : El t) (data : List UInt8) :
    Option (Except UnpackError (Value El × List UInt8)) :=
  match arms.find? fun arm => arm.tag t tag with
  | some arm => arm.body.run data
  | none => some (.error .invalidEnumTag)

def StructImpl.unpack (impl : StructImpl Ty) (data : List UInt8) :
    Option (Except UnpackError (Value El × List UInt8)) :=
  impl.unpackBody.run data

def StructImpl.pack {T E : Type} [PackTarget T E] (impl : StructImpl Ty) (value : Value El)
    (target : T) : Option (Except (PackError E) T) := do
  let env ← impl.packBody.pat.bind value
  runPacks env impl.packBody.names target

def EnumImpl.unpack (impl : EnumImpl El) (data : List UInt8) :
    Option (Except UnpackError (Value El × List UInt8)) :=
  match (Pack.unpack data : Except UnpackError (El impl.tagType × List UInt8)) with
  | .error error => some (.error error)
  | .ok (tag, data) => runUnpackArms impl.unpackArms tag data

def EnumImpl.pack {T E : Type} [PackTarget T E] (impl : EnumImpl El) (value : Value El)
    (target : T) : Option (Except (PackError E) T) := do
  let (arm, env) ← firstMatch (fun arm => arm.pat) impl.packArms value
  let tag ← arm.tag impl.tagType
  match Pack.pack tag target with
  | .error error => some (.error error)
  | .ok target => runPacks env arm.names target

def PackImpl.unpack (data : List UInt8) :
    PackImpl El → Option (Except UnpackError (Value El × List UInt8))
  | .struct impl => impl.unpack data
  | .enum impl => impl.unpack data

def PackImpl.pack {T E : Type} [PackTarget T E] (value : Value El) (target : T) :
    PackImpl El → Option (Except (PackError E) T)
  | .struct impl => impl.pack value target
  | .enum impl => impl.pack value target

def TaggedImpl.getTag (impl : TaggedImpl El) (value : Value El) : Option (El impl.tagType) := do
  let (arm, _) ← firstMatch TagArm.pat impl.tagArms value
  arm.tag impl.tagType

def TaggedImpl.unpackData (impl : TaggedImpl El) (tag : El impl.tagType) (data : List UInt8) :
    Option (Except UnpackError (Value El × List UInt8)) :=
  runUnpackArms impl.unpackArms tag data

def TaggedImpl.packData {T E : Type} [PackTarget T E] (impl : TaggedImpl El) (value : Value El)
    (target : T) : Option (Except (PackError E) T) := do
  let (arm, env) ← firstMatch DataArm.pat impl.packArms value
  runPacks env arm.names target

end Run

end ZigbeeStack.PackDerive
