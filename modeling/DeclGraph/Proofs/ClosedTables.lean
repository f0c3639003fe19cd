import DeclGraph.Proofs.ClosedGenerics
import DeclGraph.Proofs.StableRelations

/-!
The symbol table of a manifest is closed. Symbols are entered while others are already being linked, and some types are
only met in the body of a method, or in the signature of a function pointer. Still every link leads to a symbol of the
table, from there on every further link does, and each type that is reached in this way stands under its own id.
-/

namespace DeclGraph

inductive Target
  | type (ref : TypeRef)
  | method (ref : MethodRef)

namespace SymbolTable

section Links

inductive ParameterLinks (parameter : Parameter) : TypeRef → Prop
  | type {ref : TypeRef} (linked : parameter.type = some ref) : ParameterLinks parameter ref
  | defaultType {ref : TypeRef} (linked : parameter.defaultType = some ref) : ParameterLinks parameter ref

inductive MethodLinks (symbol : MethodSymbol) : Target → Prop
  | result {ref : TypeRef} (linked : symbol.returnType = some ref) : MethodLinks symbol (.type ref)
  | parameter {parameter : Parameter} {ref : TypeRef} (listed : parameter ∈ symbol.parameters)
      (linked : ParameterLinks parameter ref) : MethodLinks symbol (.type ref)
  | typeParameter {ref : TypeRef} (linked : some ref ∈ symbol.typeParameters) : MethodLinks symbol (.type ref)
  | occurrence {reference : BodyReference} {ref : TypeRef} (listed : reference ∈ symbol.body.getD [])
      (linked : reference.type = some ref) : MethodLinks symbol (.type ref)
  | inner {reference : BodyReference} {ref : MethodRef} (listed : reference ∈ symbol.body.getD [])
      (linked : reference.method = some ref) : MethodLinks symbol (.method ref)
  | marked {ref : TypeRef} (linked : some ref ∈ symbol.attributes) : MethodLinks symbol (.type ref)

inductive ShapeLinks : MemberShape → TypeRef → Prop
  | field {ref : TypeRef} : ShapeLinks (.field (some ref)) ref
  | event {ref : TypeRef} : ShapeLinks (.event (some ref)) ref
  | property {ref : TypeRef} {parameters : List Parameter} : ShapeLinks (.property (some ref) parameters) ref
  | parameter {type : Option TypeRef} {parameters : List Parameter} {parameter : Parameter} {ref : TypeRef}
      (listed : parameter ∈ parameters) (linked : ParameterLinks parameter ref) : ShapeLinks (.property type parameters) ref

inductive MemberLinks : Member → Target → Prop
  | shape {symbol : MemberSymbol} {ref : TypeRef} (linked : ShapeLinks symbol.shape ref) :
      MemberLinks (.plain symbol) (.type ref)
  | marked {symbol : MemberSymbol} {ref : TypeRef} (linked : some ref ∈ symbol.attributes) :
      MemberLinks (.plain symbol) (.type ref)
  | method {ref : MethodRef} : MemberLinks (.method ref) (.method ref)
  | nested {ref : TypeRef} : MemberLinks (.nested ref) (.type ref)

inductive TypeLinks (symbol : TypeSymbol) : Target → Prop
  | base {ref : TypeRef} (linked : symbol.base = some ref) : TypeLinks symbol (.type ref)
  | interface {ref : TypeRef} (linked : some ref ∈ symbol.interfaces) : TypeLinks symbol (.type ref)
  | typeParameter {ref : TypeRef} (linked : some ref ∈ symbol.typeParameters) : TypeLinks symbol (.type ref)
  | constraint {ref : TypeRef} (linked : some ref ∈ symbol.constraints) : TypeLinks symbol (.type ref)
  | typeArgument {ref : TypeRef} (linked : some ref ∈ symbol.typeArguments) : TypeLinks symbol (.type ref)
  | definition {ref : TypeRef} (linked : symbol.originalDefinition = some ref) : TypeLinks symbol (.type ref)
  | element {ref : TypeRef} (linked : symbol.element = some ref) : TypeLinks symbol (.type ref)
  | tupleElement {ref : TypeRef} (linked : some ref ∈ symbol.tupleElements) : TypeLinks symbol (.type ref)
  | signature {ref : MethodRef} (linked : symbol.signature = some ref) : TypeLinks symbol (.method ref)
  | member {member : Member} {target : Target} (listed : some member ∈ symbol.members) (linked : MemberLinks member target) :
      TypeLinks symbol target
  | marked {ref : TypeRef} (linked : some ref ∈ symbol.attributes) : TypeLinks symbol (.type ref)

/-- One link of a symbol, from where the symbol stands to where the link leads. -/
inductive Leads (table : SymbolTable) : Target → Target → Prop
  | type {ref : TypeRef} {symbol : TypeSymbol} {target : Target} (found : table.types[ref]? = some symbol)
      (linked : TypeLinks symbol target) : Leads table (.type ref) target
  | method {ref : MethodRef} {symbol : MethodSymbol} {target : Target} (found : table.methods[ref]? = some symbol)
      (linked : MethodLinks symbol target) : Leads table (.method ref) target

end Links

end SymbolTable

namespace Manifest

open Load SymbolTable

section Signatures

variable {loading : Loading}

/-- What stands as the signature of a type is no more than that. -/
def Signed (table : SymbolTable) : Prop :=
  ∀ (ref : TypeRef) (symbol : TypeSymbol) (signature : MethodRef), table.types[ref]? = some symbol →
    symbol.signature = some signature → ∃ method, table.methods[signature]? = some method ∧ MereSignature method

theorem signed_entered (signed : Signed loading.table) {key : Key} {symbol : TypeSymbol}
    (new : ∀ signature, symbol.signature = some signature →
      ∃ method, loading.table.methods[signature]? = some method ∧ MereSignature method) :
    Signed (loading.entered key symbol).table := by
  intro ref found signature there given
  rw [Loading.entered, Array.getElem?_push] at there
  split at there
  · cases there
    exact new signature given
  · exact signed ref found signature there given

theorem signed_joined (signed : Signed loading.table) (method : MethodSymbol) : Signed (loading.joined method).table := by
  intro ref symbol signature there given
  obtain ⟨old, stored, mere⟩ := signed ref symbol signature there given
  exact ⟨old, (grows_joined loading method).methods signature old stored, mere⟩

theorem signed_changed (signed : Signed loading.table) (ref : TypeRef) {change : TypeSymbol → TypeSymbol}
    (kept : ∀ symbol, (change symbol).signature = symbol.signature) : Signed (loading.changed ref change).table := by
  intro other symbol signature there given
  rw [types_changed] at there
  split at there
  · obtain ⟨before, found, rfl⟩ := Option.map_eq_some_iff.mp there
    exact signed other before signature found ((kept before).symm.trans given)
  · exact signed other symbol signature there given

theorem lasting_signed : Lasting fun before after => Signed before.table → Signed after.table where
  refl _ signed := signed
  trans first second signed := second (first signed)
  entered _ unsigned signed := signed_entered signed fun _ given => nomatch unsigned.symm.trans given
  joined _ method signed := signed_joined signed method
  signed {_ _ _ method} mere _ own signed := signed_entered (signed_joined signed method) fun signature given => by
    cases own.symm.trans given
    exact ⟨method, Array.getElem?_push_size, mere⟩
  counted _ signed := signed
  changed sets signed := signed_changed signed _ fun symbol => (sets symbol).frozen.signature
  constrained _ ref _ signed := signed_changed signed ref fun _ => rfl

theorem signed_of_read {host : Host} {types : List Document} {fuel : Nat} {path : String} {middle : Loading}
    {first second : Unit} (entered : (types.forM (declareType host)).run { path } = .ok (first, middle))
    (linked : (types.forM (linkType fuel)).run middle = .ok (second, loading)) : Signed loading.table := by
  have declared := lasting_signed.forM (lasting_signed.declareType host) types _ _ _ entered
  have read := lasting_signed.forM (lasting_signed.linkType fuel) types _ _ _ linked
  exact read (declared fun _ _ _ impossible => nomatch impossible)

end Signatures

section Closed

variable {host : Host} {types : List Document} {loading : Loading}

/-- A method that was read as some entry says, or the signature of a function pointer. -/
inductive Regular (loading : Loading) (ref : MethodRef) : Prop
  | given {depth : Nat} {entry id : Document} (is : MethodIs loading depth entry id ref)
  | signature {method : MethodSymbol} (found : loading.table.methods[ref]? = some method) (mere : MereSignature method)
      (returns : ∀ target, method.returnType = some target → target < loading.table.types.size)
      (takes : ∀ target, some target ∈ method.parameters.map Parameter.type → target < loading.table.types.size)

theorem Regular.found {ref : MethodRef} (regular : Regular loading ref) :
    ∃ method, loading.table.methods[ref]? = some method := by
  cases regular with
  | @given depth _ _ is =>
    cases depth with
    | zero => exact is.elim
    | succ depth =>
      obtain ⟨symbol, found, _⟩ := is
      exact ⟨symbol, found⟩
  | signature found => exact ⟨_, found⟩

def Sound (loading : Loading) : Target → Prop
  | .type ref => ref < loading.table.types.size
  | .method ref => Regular loading ref

section Parts

variable (good : Good host types loading) {ref : TypeRef}
include good

theorem inside_of_stands {reference : Reference} {link : Option TypeRef} (stands : Stands loading.ids reference link)
    (linked : link = some ref) : ref < loading.table.types.size := by
  cases stands with
  | absent => cases linked
  | known _ found _ =>
    cases linked
    exact good.inside found

theorem inside_of_stand {references : List Reference} {links : List (Option TypeRef)}
    (stand : List.Forall₂ (Stands loading.ids) references links) (linked : some ref ∈ links) :
    ref < loading.table.types.size := by
  obtain ⟨_, _, stands⟩ := exists_of_mem_right stand linked
  exact inside_of_stands good stands rfl

theorem inside_of_parameters {parameters : List Document} {links : List (Option TypeRef)}
    (are : List.Forall₂ (ParameterIs loading.ids) parameters links) (linked : some ref ∈ links) :
    ref < loading.table.types.size := by
  obtain ⟨_, _, key, place, _, found, same⟩ := exists_of_mem_right are linked
  cases same
  exact good.inside found

theorem inside_of_takes {entries : List Document} {parameters : List Parameter} {parameter : Parameter}
    (takes : List.Forall₂ (Takes loading.ids) entries parameters) (listed : parameter ∈ parameters)
    (linked : ParameterLinks parameter ref) : ref < loading.table.types.size := by
  obtain ⟨entry, _, takes⟩ := exists_of_mem_right takes listed
  unfold Takes at takes
  split at takes
  · cases linked with
    | type linked => exact inside_of_stands good takes.1 linked
    | defaultType linked => exact inside_of_stands good takes.2 linked
  · cases linked with
    | type linked => exact inside_of_stands good takes.1 linked
    | defaultType linked => cases takes.2.symm.trans linked

theorem sound_of_methodLinks {place : MethodRef} {symbol : MethodSymbol} {target : Target} (regular : Regular loading place)
    (found : loading.table.methods[place]? = some symbol) (linked : MethodLinks symbol target) : Sound loading target := by
  cases regular with
  | @given depth entry id is =>
    cases depth with
    | zero => exact is.elim
    | succ depth =>
      obtain ⟨same, again, looks⟩ := is
      cases found.symm.trans again
      cases linked with
      | result linked => exact inside_of_stands good looks.returnType linked
      | parameter listed linked => exact inside_of_takes good looks.parameters listed linked
      | typeParameter linked => exact inside_of_parameters good looks.typeParameters linked
      | occurrence listed linked =>
        obtain ⟨_, _, _, _, _, stands, _⟩ := exists_of_mem_right looks.body listed
        exact inside_of_stands good stands linked
      | inner listed linked =>
        obtain ⟨_, _, _, _, _, _, brings⟩ := exists_of_mem_right looks.body listed
        split at brings
        · obtain ⟨inner, same, is⟩ := brings
          cases same.symm.trans linked
          exact .given is
        · cases brings.symm.trans linked
      | marked linked => exact inside_of_stand good looks.attributes linked
  | signature again mere returns takes =>
    cases found.symm.trans again
    cases linked with
    | result linked => exact returns _ linked
    | parameter listed linked =>
      cases linked with
      | type linked => exact takes _ (List.mem_map.mpr ⟨_, listed, linked⟩)
      | defaultType linked => cases (mere.defaults _ listed).symm.trans linked
    | typeParameter linked =>
      rw [mere.typeParameters] at linked
      cases linked
    | occurrence listed | inner listed =>
      rw [mere.body] at listed
      cases listed
    | marked linked =>
      rw [mere.attributes] at linked
      cases linked

theorem sound_of_memberLinks {depth : Nat} {owner entry : Document} {index : Nat} {member : Member} {target : Target}
    (is : MemberIs loading depth owner entry index member) (linked : MemberLinks member target) : Sound loading target := by
  cases is with
  | field _ typed marked | event _ typed marked =>
    cases linked with
    | shape linked =>
      cases linked
      exact inside_of_stands good typed rfl
    | marked linked => exact inside_of_stand good marked linked
  | property _ typed takes marked =>
    cases linked with
    | shape linked =>
      cases linked with
      | property => exact inside_of_stands good typed rfl
      | parameter listed linked => exact inside_of_takes good takes listed linked
    | marked linked => exact inside_of_stand good marked linked
  | method _ is =>
    cases linked
    exact .given is
  | nested _ typed _ =>
    cases linked
    exact inside_of_stands good typed rfl

end Parts

section Whole

variable {key : Key} {ref : TypeRef} {fresh symbol : TypeSymbol} {target : Target}

/-- None of the links is set that an entry sets, but for what a type is closed over. -/
structure Unlinked (symbol : TypeSymbol) : Prop where
  base : symbol.base = none
  interfaces : symbol.interfaces = []
  typeParameters : symbol.typeParameters = []
  attributes : symbol.attributes = []
  members : symbol.members = []

theorem Origin.unlinked (origin : Origin host types loading key fresh) : Unlinked fresh := by
  cases origin with
  | built _ _ _ shaped => cases shaped <;> exact ⟨rfl, rfl, rfl, rfl, rfl⟩
  | _ => exact ⟨rfl, rfl, rfl, rfl, rfl⟩

theorem inside_of_origin (good : Good host types loading) (origin : Origin host types loading key fresh)
    (linked : some ref ∈ fresh.originalDefinition :: fresh.element :: (fresh.tupleElements ++ fresh.typeArguments)) :
    ref < loading.table.types.size := by
  cases origin with
  | built _ _ _ shaped =>
    cases shaped with
    | generic defined filled =>
      simp only [List.mem_cons, List.mem_append, List.not_mem_nil, false_or, reduceCtorEq, Option.some.injEq] at linked
      rcases linked with rfl | linked
      · exact inside_of_stands good defined rfl
      · exact inside_of_stand good filled linked
    | array known | pointer known =>
      simp only [List.append_nil, List.mem_cons, List.not_mem_nil, or_false, reduceCtorEq, false_or, Option.some.injEq] at linked
      exact inside_of_stands good known (congrArg some linked.symm)
    | tuple filled =>
      simp only [List.append_nil, List.mem_cons, reduceCtorEq, false_or] at linked
      exact inside_of_stand good filled linked
    | functionPointer => simp at linked
  | _ => simp at linked

theorem regular_of_signature (good : Good host types loading) (signed : Signed loading.table)
    (arises : Arises host types loading key fresh symbol) (found : loading.table.types[ref]? = some symbol)
    {place : MethodRef} (linked : symbol.signature = some place) : Regular loading place := by
  obtain ⟨method, there, mere⟩ := signed ref symbol place found linked
  rw [arises.frozen.signature] at linked
  cases arises.origin with
  | built _ _ _ shaped =>
    cases shaped with
    | functionPointer gives takes stored returns typed =>
      cases linked
      cases stored.symm.trans there
      rw [← typed] at takes
      exact .signature stored mere (fun _ given => inside_of_stands good gives (returns.symm.trans given))
        fun _ listed => inside_of_stand good takes listed
    | _ => cases linked
  | _ => cases linked

theorem sound_of_typeLinks (good : Good host types loading) (signed : Signed loading.table)
    (found : loading.table.types[ref]? = some symbol) (linked : TypeLinks symbol target) : Sound loading target := by
  obtain ⟨key, _, looked⟩ := good.lookup_of_found found
  obtain ⟨fresh, same, again, arises⟩ := good.arises key ref looked
  cases found.symm.trans again
  have unlinked := arises.origin.unlinked
  have made {ref : TypeRef} := @inside_of_origin host types loading key ref fresh good arises.origin
  -- A link is as it was when the symbol was entered, or as the entry says.
  cases linked with
  | base linked =>
    rcases arises.links .base with kept | ⟨_, _, _, is⟩
    · cases (Eq.trans kept unlinked.base).symm.trans linked
    · exact inside_of_stands good is linked
  | interface linked =>
    rcases arises.links .interfaces with kept | ⟨_, _, _, is⟩
    · cases Eq.trans kept unlinked.interfaces ▸ linked
    · exact inside_of_stand good is linked
  | typeParameter linked =>
    rcases arises.links .typeParameters with kept | ⟨_, _, _, is⟩
    · cases Eq.trans kept unlinked.typeParameters ▸ linked
    · exact inside_of_parameters good is linked
  | constraint linked =>
    rcases arises.constraints with none | ⟨_, _, _, _, lists⟩
    · cases none ▸ linked
    · exact inside_of_stand good lists linked
  | typeArgument linked =>
    rcases arises.links .typeArguments with kept | ⟨_, _, _, is⟩
    · exact made (by simp [← show symbol.typeArguments = fresh.typeArguments from kept, linked])
    · exact inside_of_stand good is linked
  | definition linked => exact made (by simp [← linked, arises.frozen.definition])
  | element linked => exact made (by simp [← linked, arises.frozen.element])
  | tupleElement linked => exact made (by simp [← arises.frozen.elements, linked])
  | signature linked => exact regular_of_signature good signed arises found linked
  | member listed linked =>
    rcases arises.links .members with kept | ⟨_, _, _, _, are⟩
    · cases Eq.trans kept unlinked.members ▸ listed
    · obtain ⟨_, _, _, same, is⟩ := exists_of_mem_right are listed
      cases same
      exact sound_of_memberLinks good is linked
  | marked linked =>
    rcases arises.links .attributes with kept | ⟨_, _, _, is⟩
    · cases Eq.trans kept unlinked.attributes ▸ linked
    · exact inside_of_stand good is linked

/-- However many links are followed, they do not lead out of the table. -/
theorem sound_of_reached (good : Good host types loading) (signed : Signed loading.table) {start : Target}
    (sound : Sound loading start) (reached : Relation.ReflTransGen loading.table.Leads start target) :
    Sound loading target := by
  induction reached with
  | refl => exact sound
  | tail _ leads ih =>
    cases leads with
    | type found linked => exact sound_of_typeLinks good signed found linked
    | method found linked => exact sound_of_methodLinks good ih found linked

end Whole

end Closed

section Opening

def InTable (manifest : ManifestUnit) : Target → Prop
  | .type ref => ∃ symbol key, manifest.table.types[ref]? = some symbol ∧ symbol.id.key? = some key
    ∧ manifest.ids.lookup key = some ref
  | .method ref => ∃ symbol, manifest.table.methods[ref]? = some symbol

/-- What holds of the symbols of a manifest, whatever its entries say. -/
structure ClosedTable (manifest : ManifestUnit) : Prop where
  keyed : ∀ key ref, manifest.ids.lookup key = some ref →
    ∃ symbol, manifest.table.types[ref]? = some symbol ∧ symbol.id.key? = some key
  reached : ∀ key start target, manifest.ids.lookup key = some start →
    Relation.ReflTransGen manifest.table.Leads (.type start) target → InTable manifest target
  distinct : ∀ (ref other : TypeRef) (symbol otherSymbol : TypeSymbol), manifest.table.types[ref]? = some symbol →
    manifest.table.types[other]? = some otherSymbol → symbol.id.key? = otherSymbol.id.key? → ref = other
  ends : ∀ (ref : TypeRef) (symbol : TypeSymbol), manifest.table.types[ref]? = some symbol →
    ∃ root, manifest.table.OriginalOf ref root

variable {host : Host} {types : List Document} {loading : Loading}

theorem closedTable_of_good {manifest : ManifestUnit} (good : Good host types loading) (signed : Signed loading.table)
    (table : loading.table = manifest.table) (ids : loading.ids = manifest.ids) : ClosedTable manifest := by
  refine ⟨fun key ref looked => ?_, fun key start target looked reached => ?_,
    fun ref other symbol otherSymbol found also same => ?_, fun ref symbol found => ?_⟩
  · rw [← ids] at looked
    rw [← table]
    exact good.found looked
  · rw [← ids] at looked
    rw [← table] at reached
    have inside : Sound loading (.type start) := good.inside looked
    have sound := sound_of_reached good signed inside reached
    cases target with
    | type ref =>
      have found : loading.table.types[ref]? = some loading.table.types[ref] := Array.getElem?_eq_getElem sound
      obtain ⟨own, keyed, known⟩ := good.lookup_of_found found
      exact ⟨_, own, table ▸ found, keyed, ids ▸ known⟩
    | method ref =>
      obtain ⟨symbol, found⟩ := Regular.found sound
      exact ⟨symbol, table ▸ found⟩
  · rw [← table] at found also
    exact type_unique good found also same
  · rw [← table] at found ⊢
    exact exists_original good (Array.getElem?_eq_some_iff.mp found).1

/-- Each manifest that opens has a closed table: its keys are the ids of the symbols under them, each type that some
chain of links leads to from there is the one that stands under its id, no two types share an id, and going from a type
to what it is closed over comes to an end. -/
theorem opened_table_is_closed {given : Document} {opening opened : World} {unit : CompilationUnit}
    (ran : (openUnit host given).outcome opening = (.ok unit, opened)) :
    ∃ manifest, unit.handle = .manifest manifest ∧ ClosedTable manifest := by
  obtain ⟨data, types, manifest, loading, opened⟩ := exists_opened ran
  obtain ⟨fuel, middle, entered, linked⟩ := opened.run
  exact ⟨manifest, opened.handle,
    closedTable_of_good opened.reading.good (signed_of_read entered linked) opened.table opened.ids⟩

/-- A table with a type that is closed over a closed one. -/
theorem opened_table_is_closed_twice : ∃ manifest,
    (openUnit Saved.sampleHost (.text "u.json")).outcome (writtenWorld (listing (closedField closedOnce))) =
        (.ok ⟨"/w/u.json", "u.json", .manifest manifest⟩, writtenWorld (listing (closedField closedOnce)))
      ∧ ClosedTable manifest := by
  obtain ⟨manifest, loaded⟩ : ∃ manifest, loadWritten (listing (closedField closedOnce)) = .ok manifest :=
    exists_loadWritten (by decide +kernel)
  have once : Json.Plain closedOnce := .object (by simp) (by simp [Json.Plain.text, Json.plain_texts])
  have opens := openUnit_written (plain_closedField once) rfl rfl loaded
  obtain ⟨_, handle, closed⟩ := opened_table_is_closed opens
  cases handle
  exact ⟨manifest, opens, closed⟩

end Opening

end Manifest

end DeclGraph
