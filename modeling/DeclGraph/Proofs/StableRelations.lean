import DeclGraph.Proofs.ManifestReading

/-!
Relations between the tables that reading passes through. Symbols are entered at a few places only, and links are set at
a few more; a relation that holds across these holds across the whole of reading, however deep types and methods are
nested. Only type parameters are ever constrained, and only the symbols of function pointers have a signature.
-/

namespace DeclGraph.Manifest

/-- A method of which nothing is known but what it gives and takes. -/
structure MereSignature (symbol : MethodSymbol) : Prop where
  defaults : ∀ parameter ∈ symbol.parameters, parameter.defaultType = none
  typeParameters : symbol.typeParameters = []
  body : symbol.body = none
  attributes : symbol.attributes = []

namespace Load

variable {α β : Type} {related : Loading → Loading → Prop}

section Looking

theorem still_find? (key : Key) : Still (find? key) := fun _ _ _ ran => (find?_run.mp ran).2

theorem still_known (id : Document) : Still (known id) := fun _ _ _ ran => (known_run.mp ran).2

theorem still_memberId (owner entry : Document) (index : Nat) : Still (memberId owner entry index) :=
  fun _ _ _ ran => (memberId_run ran).2

theorem still_innerIdOf (id reference : Document) (index : Nat) (kind : ReferenceKind) :
    Still (innerIdOf id reference index kind) := fun _ _ _ ran => (innerIdOf_run.mp ran).2.2

theorem still_symbolAt (ref : TypeRef) : Still (symbolAt ref) := fun _ _ _ ran => (symbolAt_run.mp ran).2

theorem still_checkListed (instead : Option String) : Still (checkListed instead) :=
  fun _ _ _ ran => (checkListed_run.mp ran).2

theorem still_idOf (link : Option TypeRef) : Still (idOf link) := by
  cases link with
  | none => exact still_throw
  | some ref =>
    refine still_bind (still_symbolAt ref) fun symbol => ?_
    split
    · exact still_pure _
    · exact still_throw

theorem still_idsOf (links : List (Option TypeRef)) : Still (idsOf links) := by
  induction links with
  | nil =>
    rw [idsOf]
    exact still_pure []
  | cons link rest ih =>
    rw [idsOf]
    exact still_bind (still_idOf link) fun _ => still_bind ih fun _ => still_pure _

theorem still_resultOf (link : Option TypeRef) : Still (resultOf link) := by
  cases link with
  | none => exact still_pure _
  | some ref => exact still_idOf (some ref)

end Looking

/-- A relation that holds whatever is entered, and whatever links are set except for constraints. -/
structure Stable (related : Loading → Loading → Prop) : Prop where
  refl (loading : Loading) : related loading loading
  trans {before middle after : Loading} (first : related before middle) (second : related middle after) :
    related before after
  entered {loading : Loading} {key : Key} {symbol : TypeSymbol} (free : symbol.constraints = [])
    (unsigned : symbol.signature = none) : related loading (loading.entered key symbol)
  joined (loading : Loading) (method : MethodSymbol) : related loading (loading.joined method)
  /-- A function pointer is entered right after its signature. -/
  signed {loading : Loading} {key : Key} {symbol : TypeSymbol} {method : MethodSymbol} (bare : MereSignature method)
    (free : symbol.constraints = []) (signed : symbol.signature = some loading.table.methods.size) :
    related loading ((loading.joined method).entered key symbol)
  counted (loading : Loading) : related loading { loading with madeUp := loading.madeUp + 1 }
  changed {loading : Loading} {link : Link} {ref : TypeRef} {change : TypeSymbol → TypeSymbol}
    (sets : ∀ symbol, Sets link symbol (change symbol)) : related loading (loading.changed ref change)

structure Lasting (related : Loading → Loading → Prop) : Prop extends Stable related where
  constrained (loading : Loading) (ref : TypeRef) (constraints : List (Option TypeRef)) :
    related loading (loading.changed ref fun symbol => { symbol with constraints })

/-- An operation leads from each table to a related one. -/
def Keeps (related : Loading → Loading → Prop) (op : Load α) : Prop :=
  ∀ before value after, op.run before = .ok (value, after) → related before after

theorem keeps_map {f : α → β} {op : Load α} (keeps : Keeps related op) : Keeps related (f <$> op) := by
  intro before result after ran
  obtain ⟨value, ran, _⟩ := map_run.mp ran
  exact keeps before value after ran

theorem keeps_refuse {defect : Defect} : Keeps related (refuse defect : Load α) := fun _ _ _ ran => absurd ran refuse_run

theorem keeps_throw {fault : Fault} : Keeps related (throw fault : Load α) := fun _ _ _ ran => absurd ran throw_run

namespace Stable

variable (stable : Stable related)
include stable

theorem still {op : Load α} (still : Still op) : Keeps related op := by
  intro before value after ran
  obtain rfl := still before value after ran
  exact stable.refl before

theorem pure (value : α) : Keeps related (pure value : Load α) := stable.still (still_pure value)

theorem bind {first : Load α} {next : α → Load β} (head : Keeps related first)
    (tail : ∀ value, Keeps related (next value)) : Keeps related (first >>= next) := by
  intro before result after ran
  obtain ⟨value, middle, start, rest⟩ := bind_run.mp ran
  exact stable.trans (head before value middle start) (tail value middle result after rest)

theorem mapM {f : α → Load β} (each : ∀ value, Keeps related (f value)) (values : List α) :
    Keeps related (values.mapM f) := by
  induction values with
  | nil =>
    rw [List.mapM_nil]
    exact stable.pure []
  | cons value rest ih =>
    rw [List.mapM_cons]
    exact stable.bind (each value) fun _ => stable.bind ih fun _ => stable.pure _

theorem forM {f : α → Load Unit} (each : ∀ value, Keeps related (f value)) (values : List α) :
    Keeps related (values.forM f) := by
  induction values with
  | nil => exact stable.pure ()
  | cons value rest ih => exact stable.bind (each value) fun _ => ih

theorem enter {key : Key} {symbol : TypeSymbol} (free : symbol.constraints = []) (unsigned : symbol.signature = none) :
    Keeps related (enter key symbol) := by
  intro before ref after ran
  obtain ⟨_, rfl⟩ := enter_run.mp ran
  exact stable.entered free unsigned

theorem enterMethod (symbol : MethodSymbol) : Keeps related (enterMethod symbol) := by
  intro before ref after ran
  obtain ⟨_, rfl⟩ := enterMethod_run.mp ran
  exact stable.joined before symbol

theorem update {link : Link} {ref : TypeRef} {change : TypeSymbol → TypeSymbol}
    (sets : ∀ symbol, Sets link symbol (change symbol)) : Keeps related (update ref change) := by
  intro before _ after ran
  obtain rfl := update_run.mp ran
  exact stable.changed sets

theorem library (id : String) : Keeps related (library id) := by
  refine stable.bind (stable.still (still_find? _)) fun found => ?_
  cases found with
  | some ref => exact stable.pure ref
  | none =>
    dsimp only
    split
    · intro before ref after ran
      obtain ⟨_, _, thrown, _⟩ := bind_run.mp ran
      exact absurd thrown throw_run
    · exact stable.enter rfl rfl

theorem built {symbol : TypeSymbol} (id : String) (free : symbol.constraints = []) (unsigned : symbol.signature = none) :
    Keeps related (built id symbol) := by
  refine stable.bind (stable.still (still_find? _)) fun found => ?_
  cases found with
  | some ref => exact stable.pure ref
  | none => exact stable.enter free unsigned

theorem wrapped (element : Option TypeRef) (kind : TypeKind) (ending : String) (source : Document) :
    Keeps related (wrapped element kind ending source) := by
  cases element with
  | none => exact keeps_refuse
  | some ref => exact stable.bind (stable.still (still_idOf _)) fun id => keeps_map (stable.built _ rfl rfl)

theorem functionPointer (returned : Option TypeRef) (links : List (Option TypeRef)) (id : String) :
    Keeps related (Load.signed returned links id) := by
  intro before link after ran
  obtain ⟨name, _, named, ran⟩ := bind_run.mp ran
  obtain ⟨_, rfl⟩ := makeUp_run.mp named
  obtain ⟨signature, _, stored, ran⟩ := bind_run.mp ran
  obtain ⟨rfl, rfl⟩ := enterMethod_run.mp stored
  obtain ⟨ref, made, _⟩ := map_run.mp ran
  obtain ⟨found, _, asked, made⟩ := bind_run.mp made
  obtain ⟨_, rfl⟩ := find?_run.mp asked
  refine stable.trans (stable.counted before) ?_
  cases found with
  | some ref =>
    obtain ⟨_, rfl⟩ := pure_run.mp made
    exact stable.joined _ _
  | none =>
    obtain ⟨_, rfl⟩ := enter_run.mp made
    exact stable.signed ⟨by simp, rfl, rfl, rfl⟩ rfl rfl

mutual

theorem resolve (reference : Reference) : Keeps related (resolve reference) := by
  match reference with
  | .absent =>
    rw [Load.resolve]
    exact stable.pure none
  | .named id =>
    rw [Load.resolve]
    exact keeps_map (stable.library id)
  | .defective _ =>
    rw [Load.resolve]
    exact keeps_refuse
  | .endless =>
    rw [Load.resolve]
    exact keeps_throw
  | .generic definition instead arguments source =>
    rw [Load.resolve]
    refine stable.bind (resolve definition) fun defined => ?_
    cases defined with
    | none => exact keeps_refuse
    | some ref =>
      exact stable.bind (stable.still (still_checkListed instead)) fun _ => stable.bind (resolveAll arguments) fun _ =>
        stable.bind (stable.still (still_idOf _)) fun _ => stable.bind (stable.still (still_idsOf _)) fun _ =>
          keeps_map (stable.built _ rfl rfl)
  | .array element source =>
    rw [Load.resolve]
    exact stable.bind (resolve element) fun inner => stable.wrapped inner _ _ _
  | .pointer element source =>
    rw [Load.resolve]
    exact stable.bind (resolve element) fun inner => stable.wrapped inner _ _ _
  | .tuple instead elements =>
    rw [Load.resolve]
    exact stable.bind (stable.still (still_checkListed instead)) fun _ => stable.bind (resolveAll elements) fun _ =>
      stable.bind (stable.still (still_idsOf _)) fun _ => keeps_map (stable.built _ rfl rfl)
  | .functionPointer returnType instead parameters =>
    rw [resolve_functionPointer]
    exact stable.bind (resolve returnType) fun _ => stable.bind (stable.still (still_checkListed instead)) fun _ =>
      stable.bind (resolveAll parameters) fun _ => stable.bind (stable.still (still_idsOf _)) fun _ =>
        stable.bind (stable.still (still_resultOf _)) fun _ => stable.functionPointer _ _ _

theorem resolveAll (references : List Reference) : Keeps related (resolveAll references) := by
  match references with
  | [] =>
    rw [Load.resolveAll]
    exact stable.pure []
  | reference :: rest =>
    rw [Load.resolveAll]
    exact stable.bind (resolve reference) fun _ => stable.bind (resolveAll rest) fun _ => stable.pure _

end

theorem typesOf (value : Document) : Keeps related (typesOf value) :=
  stable.bind (stable.still (still_loop value)) fun elements => stable.mapM (fun _ => stable.resolve _) elements

theorem parametersOf (value : Document) : Keeps related (parametersOf value) := by
  rw [parametersOf_eq]
  refine stable.bind (stable.still (still_loop value)) fun elements => stable.mapM (fun entry => ?_) elements
  unfold parameterOf
  split
  · exact stable.bind (stable.resolve _) fun _ => stable.bind (stable.resolve _) fun _ => stable.pure _
  · exact stable.bind (stable.resolve _) fun _ => stable.pure _

theorem referenceEnd (entry : Document) (kind : ReferenceKind) (nested : Option MethodRef) :
    Keeps related (referenceEnd entry kind nested) := stable.bind (stable.resolve _) fun _ => stable.pure _

theorem methodEnd (entry id : Document) (typeParameters : List (Option TypeRef)) (body : Option (List BodyReference)) :
    Keeps related (methodEnd entry id typeParameters body) :=
  stable.bind (stable.resolve _) fun _ => stable.bind (stable.parametersOf _) fun _ =>
    stable.bind (stable.typesOf _) fun _ => stable.enterMethod _

theorem declareParameter (parameter : Document) : Keeps related (declareParameter parameter) := by
  intro before _ after ran
  obtain ⟨_, _, _, _, rfl⟩ := declareParameter_run.mp ran
  exact stable.entered rfl rfl

theorem declareType (host : Host) (entry : Document) : Keeps related (declareType host entry) := by
  intro before _ after ran
  obtain ⟨_, _, _, _, _, _, _, ran⟩ := declareType_run.mp ran
  exact stable.trans (stable.entered rfl rfl) (stable.forM stable.declareParameter _ _ _ _ ran)

end Stable

namespace Lasting

variable (lasting : Lasting related)
include lasting

theorem linkParameter (parameter : Document) : Keeps related (linkParameter parameter) := by
  unfold Load.linkParameter
  split
  · exact lasting.still (still_known _)
  · refine lasting.bind (lasting.still (still_known _)) fun ref => lasting.bind (lasting.typesOf _) fun constraints =>
      lasting.bind (fun before _ after ran => ?_) fun _ => lasting.pure ref
    obtain rfl := update_run.mp ran
    exact lasting.constrained before ref constraints

theorem methodParameters (value : Document) : Keeps related (methodParameters value) := by
  rw [methodParameters_eq]
  refine lasting.bind (lasting.still (still_loop value)) fun elements => lasting.mapM (fun parameter => ?_) elements
  intro before link after ran
  obtain ⟨_, _, _, _, _, entering, linked, _⟩ := methodParameter_run.mp ran
  have linking := lasting.linkParameter parameter _ _ _ linked
  rcases entering with ⟨_, declared⟩ | ⟨_, rfl⟩
  · exact lasting.trans (lasting.declareParameter parameter _ _ _ declared) linking
  · exact linking

theorem bodyReference {fuel : Nat} (methods : ∀ entry id, Keeps related (method fuel entry id)) (entry id : Document)
    (index : Nat) : Keeps related (bodyReference fuel entry id index) := by
  rw [bodyReference_eq]
  split
  · exact keeps_refuse
  · next kind known =>
    split
    · split
      · exact lasting.bind (lasting.still (still_innerIdOf _ _ _ _)) fun given =>
          lasting.bind (keeps_map (methods _ given)) fun _ => lasting.referenceEnd entry kind _
      · exact keeps_refuse
    · exact lasting.referenceEnd entry kind none

theorem method (fuel : Nat) (entry id : Document) : Keeps related (method fuel entry id) := by
  induction fuel generalizing entry id with
  | zero =>
    rw [Load.method]
    exact keeps_throw
  | succ fuel ih =>
    have body : Keeps related (methodBody fuel entry id) := by
      unfold methodBody
      split
      · rw [bodyOf]
        exact keeps_map (lasting.bind (lasting.still (still_loop _)) fun elements =>
          lasting.mapM (fun (pair : Document × Nat) => lasting.bodyReference ih pair.1 id pair.2) _)
      · exact lasting.pure none
    rw [method_succ]
    exact lasting.bind (lasting.methodParameters _) fun typeParameters => lasting.bind body fun references =>
      lasting.methodEnd entry id typeParameters references

theorem member (fuel : Nat) (owner entry : Document) (index : Nat) : Keeps related (member fuel owner entry index) := by
  rw [Load.member]
  split
  · refine lasting.bind (lasting.still (still_memberId owner entry index)) fun id =>
      lasting.bind (lasting.typesOf _) fun attributes => ?_
    dsimp only
    split
    · exact lasting.bind (lasting.resolve _) fun _ => lasting.pure _
    · exact lasting.bind (lasting.resolve _) fun _ => lasting.bind (lasting.parametersOf _) fun _ => lasting.pure _
    · exact lasting.bind (lasting.resolve _) fun _ => lasting.pure _
    · exact keeps_map (lasting.method fuel entry id)
    · refine lasting.bind (lasting.resolve _) fun link => ?_
      cases link with
      | none => exact keeps_refuse
      | some ref => exact lasting.pure _
    · exact keeps_refuse
  · exact keeps_refuse

theorem linked {link : Link} {op : Load α} {ref : TypeRef} {change : α → TypeSymbol → TypeSymbol} {next : Load β}
    (keeps : Keeps related op) (sets : ∀ value symbol, Sets link symbol (change value symbol)) (rest : Keeps related next) :
    Keeps related (op >>= fun value => update ref (change value) >>= fun _ => next) :=
  lasting.bind keeps fun value => lasting.bind (lasting.update (sets value)) fun _ => rest

theorem linkType (fuel : Nat) (entry : Document) : Keeps related (linkType fuel entry) := by
  refine lasting.bind (lasting.still (still_known _)) fun ref => ?_
  refine lasting.linked (lasting.resolve _) sets_base ?_
  refine lasting.linked (lasting.typesOf _) sets_interfaces ?_
  refine lasting.bind (lasting.still (still_loop _)) fun parameters => ?_
  refine lasting.linked (lasting.mapM lasting.linkParameter parameters) (fun _ => sets_typeParameters _) ?_
  refine lasting.linked (lasting.typesOf _) sets_typeArguments ?_
  refine lasting.linked (lasting.typesOf _) sets_attributes ?_
  refine lasting.bind (lasting.still (still_loop _)) fun members => ?_
  exact lasting.bind (lasting.mapM (fun (pair : Document × Nat) => lasting.member fuel _ pair.1 pair.2) _) fun _ =>
    lasting.update (sets_members _)

end Lasting

end Load

end DeclGraph.Manifest
