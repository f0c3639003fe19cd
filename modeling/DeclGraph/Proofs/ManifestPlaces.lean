import DeclGraph.Proofs.ManifestOrders
import DeclGraph.Proofs.ManifestTable

/-!
Symbol tables of one manifest that was read in different orders. What a walk visits is at a place of the manifest: a
type by its id, a member or a method by its entry. From visits at one place such tables lead to visits at the same
places, so walks over them come to the same files.
-/

namespace DeclGraph.Manifest

open Load SymbolTable

section Places

/-- What a walk can visit, by what the manifest calls it. -/
inductive Place
  | root (key : Key)
  | type (key : Key)
  | member (entry : Document)
  | memberMethod (entry : Document)
  | method (entry : Document)

/-- A visit is at a place of the manifest. -/
inductive At (types : List Document) (loading : Loading) : Place → Visit → Prop
  | root {key : Key} {ref : TypeRef} (found : loading.ids.lookup key = some ref) : At types loading (.root key) (.root ref)
  | type {key : Key} {ref : TypeRef} (found : loading.ids.lookup key = some ref) : At types loading (.type key) (.type ref)
  | member {entry owner : Document} {depth index : Nat} {symbol : MemberSymbol} (within : MemberWithin types entry)
      (is : MemberIs loading depth owner entry index (.plain symbol)) : At types loading (.member entry) (.member symbol)
  | memberMethod {entry id : Document} {depth : Nat} {ref : MethodRef} (within : MemberWithin types entry)
      (kind : (entry.field "kind").text? = some "method") (given : (entry.field "id").ifSet = some id)
      (is : MethodIs loading depth entry id ref) : At types loading (.memberMethod entry) (.memberMethod ref)
  | method {entry id : Document} {depth : Nat} {ref : MethodRef} (within : MethodWithin types entry)
      (given : (entry.field "id").ifSet = some id) (is : MethodIs loading depth entry id ref) :
      At types loading (.method entry) (.method ref)

/-- Two readings of the same types, in whatever order. -/
structure Twins (host : Host) (types others : List Document) (first second : Loading) : Prop where
  same : SameTypes types others
  one : Reading host types first
  two : Reading host others second
  path : second.path = first.path
  clear : Unambiguous types
  otherClear : Unambiguous others
  labelled : Labelled types
  otherLabelled : Labelled others

theorem SameTypes.refl (types : List Document) : SameTypes types types where
  there entry listed := ⟨entry, listed, fun _ _ _ => rfl, Or.inl rfl, Or.inl rfl⟩
  back entry listed := ⟨entry, listed, fun _ _ _ => rfl, Or.inl rfl, Or.inl rfl⟩

variable {host : Host} {types others : List Document} {first second : Loading}

theorem Twins.symm (twins : Twins host types others first second) : Twins host others types second first :=
  ⟨twins.same.symm, twins.two, twins.one, twins.path.symm, twins.otherClear, twins.clear, twins.otherLabelled, twins.labelled⟩

theorem Twins.left (twins : Twins host types others first second) : Twins host types types first first :=
  ⟨.refl types, twins.one, twins.one, rfl, twins.clear, twins.clear, twins.labelled, twins.labelled⟩

/-- Visits of two tables at one place. -/
def Alike (types others : List Document) (first second : Loading) (visit other : Visit) : Prop :=
  ∃ place, At types first place visit ∧ At others second place other

def Covered (types others : List Document) (first second : Loading) (visits more : List Visit) : Prop :=
  ∀ visit ∈ visits, ∃ other ∈ more, Alike types others first second visit other

theorem covered_nil {more : List Visit} : Covered types others first second [] more := by simp [Covered]

theorem covered_append {visits more rest others' : List Visit} (head : Covered types others first second visits more)
    (tail : Covered types others first second rest others') :
    Covered types others first second (visits ++ rest) (more ++ others') := by
  intro visit among
  rcases List.mem_append.mp among with early | late
  · obtain ⟨other, listed, alike⟩ := head visit early
    exact ⟨other, List.mem_append_left _ listed, alike⟩
  · obtain ⟨other, listed, alike⟩ := tail visit late
    exact ⟨other, List.mem_append_right _ listed, alike⟩

theorem covered_flatMap {α β : Type} {values : List α} {results : List β} {f : α → List Visit} {g : β → List Visit}
    (each : ∀ value ∈ values, ∃ result ∈ results, Covered types others first second (f value) (g result)) :
    Covered types others first second (values.flatMap f) (results.flatMap g) := by
  intro visit among
  obtain ⟨value, listed, inside⟩ := List.mem_flatMap.mp among
  obtain ⟨result, also, covered⟩ := each value listed
  obtain ⟨other, there, alike⟩ := covered visit inside
  exact ⟨other, List.mem_flatMap.mpr ⟨result, also, there⟩, alike⟩

theorem covered_entries {α β γ : Type} {P : α → β → Prop} {Q : α → γ → Prop} {entries more : List α} {values : List β}
    {results : List γ} {f : β → List Visit} {g : γ → List Visit} (stand : List.Forall₂ P entries values)
    (also : List.Forall₂ Q more results) (inside : ∀ entry ∈ entries, entry ∈ more)
    (each : ∀ entry ∈ entries, ∀ value result, P entry value → Q entry result →
      Covered types others first second (f value) (g result)) :
    Covered types others first second (values.flatMap f) (results.flatMap g) := by
  refine covered_flatMap fun value listed => ?_
  obtain ⟨entry, among, is⟩ := exists_of_mem_right stand listed
  obtain ⟨result, there, other⟩ := exists_of_mem_left also (inside entry among)
  exact ⟨result, there, each entry among value result is other⟩

end Places

section Links

variable {host : Host} {types others : List Document} {first second loading : Loading}

/-- A link leads to the symbol of a name, or nowhere without a name. -/
inductive Points (ids : Ids) : Option String → Option TypeRef → Prop
  | absent : Points ids none none
  | known {id : String} {ref : TypeRef} (found : ids.lookup (.text id) = some ref) : Points ids (some id) (some ref)

theorem Stands.points {ids : Ids} {reference : Reference} {link : Option TypeRef} (stands : Stands ids reference link) :
    Points ids reference.name? link := by
  cases stands with
  | absent => exact .absent
  | known named found _ =>
    rw [named]
    exact .known found

theorem covered_link {name : Option String} {link other : Option TypeRef} (points : Points first.ids name link)
    (also : Points second.ids name other) : Covered types others first second (visitType link) (visitType other) := by
  cases points with
  | absent => exact covered_nil
  | known found =>
    cases also with
    | known otherFound =>
      intro visit among
      cases List.mem_singleton.mp among
      exact ⟨_, List.mem_singleton_self _, _, .type found, .type otherFound⟩

theorem covered_links {names more : List (Option String)} {links otherLinks : List (Option TypeRef)}
    (points : List.Forall₂ (Points first.ids) names links) (also : List.Forall₂ (Points second.ids) more otherLinks)
    (inside : ∀ id, some id ∈ names → some id ∈ more) :
    Covered types others first second (links.flatMap visitType) (otherLinks.flatMap visitType) := by
  intro visit among
  obtain ⟨link, listed, there⟩ := List.mem_flatMap.mp among
  obtain ⟨name, named, leads⟩ := exists_of_mem_right points listed
  cases leads with
  | absent => cases there
  | known found =>
    obtain ⟨other, otherListed, otherLeads⟩ := exists_of_mem_left also (inside _ named)
    obtain ⟨target, targetIn, alike⟩ := covered_link (.known found) otherLeads visit there
    exact ⟨target, List.mem_flatMap.mpr ⟨other, otherListed, targetIn⟩, alike⟩

theorem points_of_stand {ids : Ids} {references : List Reference} {links : List (Option TypeRef)}
    (stand : List.Forall₂ (Stands ids) references links) :
    List.Forall₂ (Points ids) (references.map Reference.name?) links :=
  List.forall₂_map_left_iff.mpr (stand.imp fun _ _ stands => stands.points)

theorem covered_lists {value other : Document} {links otherLinks : List (Option TypeRef)}
    (inside : ∀ entry ∈ looped value, entry ∈ looped other) (lists : Lists first.ids value links)
    (also : Lists second.ids other otherLinks) :
    Covered types others first second (links.flatMap visitType) (otherLinks.flatMap visitType) :=
  covered_entries lists also (fun reference among => by
    obtain ⟨entry, listed, rfl⟩ := List.mem_map.mp among
    exact List.mem_map_of_mem (inside entry listed)) fun _ _ _ _ stands others => covered_link stands.points others.points

theorem covered_takes {entry : Document} {parameter other : Parameter} (takes : Takes first.ids entry parameter)
    (also : Takes second.ids entry other) :
    Covered types others first second (visitType parameter.type) (visitType other.type)
      ∧ Covered types others first second (visitType parameter.defaultType) (visitType other.defaultType) := by
  unfold Takes at takes also
  cases mapping : entry.entries? with
  | some entries =>
    rw [mapping] at takes also
    exact ⟨covered_link takes.1.points also.1.points, covered_link takes.2.points also.2.points⟩
  | none =>
    rw [mapping] at takes also
    refine ⟨covered_link takes.1.points also.1.points, ?_⟩
    rw [takes.2]
    exact covered_nil

/-- What a type parameter says of its constraints is what its symbol has, or another with its id says so. -/
theorem met_of_within (reading : Load.Reading host types loading) {parameter : Document}
    (within : ParameterWithin types parameter) (constraining : Constraining parameter) : Met types loading parameter := by
  cases within with
  | type listed among => exact (reading.read _ listed).parameters parameter among constraining
  | method within among =>
    obtain ⟨member, ⟨entry, listed, memberIn⟩, kind, under⟩ := within
    exact (reading.read entry listed).methods member memberIn kind _ under parameter among constraining

theorem covered_constraints (twins : Twins host types others first second) {key : Key} {ref otherRef : TypeRef}
    (found : first.ids.lookup key = some ref) (also : second.ids.lookup key = some otherRef) :
    Covered types others first second (first.table.visitConstraints (some ref))
      (second.table.visitConstraints (some otherRef)) := by
  obtain ⟨fresh, symbol, there, arises⟩ := twins.one.good.arises key ref found
  obtain ⟨otherSymbol, otherThere, _⟩ := twins.two.good.found also
  simp only [SymbolTable.visitConstraints, Option.bind_some, there, otherThere]
  rcases arises.constraints with none | ⟨parameter, within, constraining, keyed, lists⟩
  · rw [none]
    exact covered_nil
  · have otherWithin := twins.same.parameterWithin within
    obtain ⟨_, otherKey, place, met, otherKeyed, placed, metThere, constrained⟩ :=
      met_of_within twins.two otherWithin constraining
    cases keyed.symm.trans otherKeyed
    cases also.symm.trans placed
    cases otherThere.symm.trans metThere
    obtain ⟨other, between, constrains, sameKey, otherLists⟩ := constrained
    refine covered_links (points_of_stand lists) (points_of_stand otherLists) fun id named => ?_
    obtain ⟨reference, among, called⟩ := List.mem_map.mp named
    obtain ⟨target, listed, calledToo⟩ := twins.clear.constraints parameter other key within
      (twins.same.symm.parameterWithin between) constraining constrains keyed sameKey reference among id called
    exact List.mem_map.mpr ⟨target, listed, calledToo⟩

theorem covered_parameter (twins : Twins host types others first second) {parameter : Document}
    {link other : Option TypeRef} (is : ParameterIs first.ids parameter link) (also : ParameterIs second.ids parameter other) :
    Covered types others first second (first.table.visitConstraints link) (second.table.visitConstraints other) := by
  obtain ⟨key, ref, keyed, found, rfl⟩ := is
  obtain ⟨otherKey, otherRef, otherKeyed, otherFound, rfl⟩ := also
  cases keyed.symm.trans otherKeyed
  exact covered_constraints twins found otherFound

end Links

section Symbols

variable {host : Host} {types others : List Document} {first second loading : Loading} {key : Key} {ref otherRef : TypeRef}
variable {symbol otherSymbol : TypeSymbol}

structure DeclaredAs (host : Host) (loading : Loading) (entry : Document) (symbol : TypeSymbol) : Prop where
  id : symbol.id = entry.field "id"
  kind : symbol.kind = .named
  external : symbol.external = .bool (entry.field "external").isSet
  definition : symbol.originalDefinition = none
  element : symbol.element = none
  elements : symbol.tupleElements = []
  signature : symbol.signature = none
  file : FileOf host loading.path entry symbol.file
  links : ∀ link : Link, link.Is loading entry symbol

/-- A symbol for which there is no entry. -/
structure Bare (symbol : TypeSymbol) : Prop where
  base : symbol.base = none
  interfaces : symbol.interfaces = []
  typeParameters : symbol.typeParameters = []
  attributes : symbol.attributes = []
  members : symbol.members = []
  file : symbol.file = .null

structure Hollow (symbol : TypeSymbol) : Prop where
  arguments : symbol.typeArguments = []
  element : symbol.element = none
  elements : symbol.tupleElements = []
  signature : symbol.signature = none
  definition : symbol.originalDefinition = none
  outside : symbol.kind = .typeParameter ∨ symbol.kind = .named ∧ symbol.external = .bool true

theorem not_hollow {symbol : TypeSymbol} (named : symbol.kind = .named) (internal : symbol.external.isSet = false) :
    ¬ Hollow symbol := by
  intro hollow
  rcases hollow.outside with parameter | ⟨_, external⟩
  · rw [named] at parameter
    cases parameter
  · rw [external] at internal
    cases internal

def planParts (plan : TypeKind × List (Option String)) : List (Option String) :=
  if plan.1 = .named then plan.2.tail else plan.2

/-- The symbol of a type that is built. -/
structure Composed (loading : Loading) (symbol : TypeSymbol) (plan : TypeKind × List (Option String)) : Prop where
  kind : symbol.kind = plan.1
  external : symbol.external = .bool false
  arguments : List.Forall₂ (Points loading.ids) (if plan.1 = .named then plan.2.tail else []) symbol.typeArguments
  parts : ∃ links, List.Forall₂ (Points loading.ids) (planParts plan) links
    ∧ loading.table.typeParts symbol = links.flatMap visitType
  definition : plan.1.isConstructed = true ∧ symbol.originalDefinition = none ∨ plan.1 = .named ∧ ∃ id place, plan.2.head? = some (some id)
    ∧ loading.ids.lookup (.text id) = some place ∧ symbol.originalDefinition = some place

theorem declaredAs_of_entry (reading : Reading host types loading) {entry : Document} (listed : entry ∈ types)
    (keyed : (entry.field "id").key? = some key) (found : loading.ids.lookup key = some ref)
    (there : loading.table.types[ref]? = some symbol) : DeclaredAs host loading entry symbol := by
  obtain ⟨other, place, name, file, same, otherKeyed, located, placed, stored, frozen⟩ := reading.declared entry listed
  cases keyed.symm.trans otherKeyed
  cases found.symm.trans placed
  cases there.symm.trans stored
  refine ⟨frozen.id, frozen.kind, frozen.external, frozen.definition, frozen.element, frozen.elements, frozen.signature, ?_, fun link => ?_⟩
  · rw [frozen.file]
    exact located
  · obtain ⟨again, also, symbolToo, keyedToo, foundToo, thereToo, is⟩ := (reading.read entry listed).links link
    cases keyed.symm.trans keyedToo
    cases found.symm.trans foundToo
    cases there.symm.trans thereToo
    exact is

theorem Composed.frozen {fresh : TypeSymbol} {plan : TypeKind × List (Option String)} (composed : Composed loading fresh plan)
    (frozen : Frozen fresh symbol) (arguments : symbol.typeArguments = fresh.typeArguments) : Composed loading symbol plan where
  kind := frozen.kind.trans composed.kind
  external := frozen.external.trans composed.external
  arguments := arguments ▸ composed.arguments
  parts := by
    rw [SymbolTable.typeParts, frozen.kind, arguments, frozen.element, frozen.elements, frozen.signature, ← SymbolTable.typeParts]
    exact composed.parts
  definition := by
    rw [frozen.definition]
    exact composed.definition

theorem composed_fresh {id : String} {reference : Reference} {fresh : TypeSymbol} (built : Built loading id reference fresh) :
    ∃ plan, reference.plan? = some plan ∧ Composed loading fresh plan := by
  cases built with
  | generic defined filled =>
    cases defined with
    | known named found _ =>
      have points := points_of_stand filled
      refine ⟨_, rfl, rfl, rfl, points, ⟨_, points, ?_⟩, Or.inr ⟨rfl, _, _, ?_, found, rfl⟩⟩
      · simp [SymbolTable.typeParts, visitType, SymbolTable.signatureParts]
      · rw [named]
        rfl
  | array known =>
    refine ⟨_, rfl, rfl, rfl, .nil, ⟨[_], .cons known.points .nil, ?_⟩, Or.inl ⟨rfl, rfl⟩⟩
    simp [SymbolTable.typeParts, visitType, SymbolTable.signatureParts]
  | pointer known =>
    refine ⟨_, rfl, rfl, rfl, .nil, ⟨[_], .cons known.points .nil, ?_⟩, Or.inl ⟨rfl, rfl⟩⟩
    simp [SymbolTable.typeParts, visitType, SymbolTable.signatureParts]
  | tuple filled =>
    refine ⟨_, rfl, rfl, rfl, .nil, ⟨_, points_of_stand filled, ?_⟩, Or.inl ⟨rfl, rfl⟩⟩
    simp [SymbolTable.typeParts, visitType, SymbolTable.signatureParts]
  | functionPointer gives takes stored returns typed =>
    refine ⟨_, rfl, rfl, rfl, .nil, ⟨_ :: _, .cons gives.points (points_of_stand takes), ?_⟩, Or.inl ⟨rfl, rfl⟩⟩
    rw [← returns, ← typed]
    simp [SymbolTable.typeParts, visitType, SymbolTable.signatureParts, stored, List.flatMap_map]

theorem composed_of_built {id : String} {reference : Reference} {fresh : TypeSymbol}
    (built : Built loading id reference fresh) (frozen : Frozen fresh symbol)
    (arguments : symbol.typeArguments = fresh.typeArguments) :
    ∃ plan, reference.plan? = some plan ∧ Composed loading symbol plan := by
  obtain ⟨plan, planned, composed⟩ := composed_fresh built
  exact ⟨plan, planned, composed.frozen frozen arguments⟩

/-- Where the symbol of a key comes from for which there is no entry. -/
inductive Source (types : List Document) (loading : Loading) (symbol : TypeSymbol) : Key → Prop
  | parameter {parameter : Document} {key : Key} (within : ParameterWithin types parameter)
      (keyed : (parameterId parameter).key? = some key) (hollow : Hollow symbol) : Source types loading symbol key
  | library {id : String} (within : RefersWithin types (.named id)) (hollow : Hollow symbol) :
      Source types loading symbol (.text id)
  | built {id : String} {reference : Reference} {plan : TypeKind × List (Option String)}
      (within : RefersWithin types reference) (named : reference.name? = some id) (planned : reference.plan? = some plan)
      (composed : Composed loading symbol plan) : Source types loading symbol (.text id)

theorem source_of_undeclared (good : Good host types loading) (undeclared : ∀ entry ∈ types, (entry.field "id").key? ≠ some key)
    (found : loading.ids.lookup key = some ref) (there : loading.table.types[ref]? = some symbol) :
    Bare symbol ∧ Source types loading symbol key := by
  obtain ⟨fresh, stored, again, arises⟩ := good.arises key ref found
  cases there.symm.trans again
  have kept (link : Link) : link.Same fresh symbol :=
    (arises.links link).resolve_right fun ⟨entry, listed, keyed, _⟩ => undeclared entry listed keyed
  have frozen := arises.frozen
  have bare : Bare fresh → Bare symbol := fun bare =>
    ⟨Eq.trans (kept .base) bare.base, Eq.trans (kept .interfaces) bare.interfaces,
      Eq.trans (kept .typeParameters) bare.typeParameters, Eq.trans (kept .attributes) bare.attributes,
      Eq.trans (kept .members) bare.members, frozen.file.trans bare.file⟩
  have hollow : Hollow fresh → Hollow symbol := fun hollow =>
    ⟨Eq.trans (kept .typeArguments) hollow.arguments, frozen.element.trans hollow.element, frozen.elements.trans hollow.elements,
      frozen.signature.trans hollow.signature, frozen.definition.trans hollow.definition,
      by rw [frozen.kind, frozen.external]; exact hollow.outside⟩
  cases arises.origin with
  | declared listed set keyed located => exact absurd keyed (undeclared _ listed)
  | parameter within set keyed =>
    exact ⟨bare ⟨rfl, rfl, rfl, rfl, rfl, rfl⟩, .parameter within keyed (hollow ⟨rfl, rfl, rfl, rfl, rfl, Or.inl rfl⟩)⟩
  | library within present =>
    exact ⟨bare ⟨rfl, rfl, rfl, rfl, rfl, rfl⟩,
      .library within (hollow ⟨rfl, rfl, rfl, rfl, rfl, Or.inr ⟨rfl, rfl⟩⟩)⟩
  | built within named present shaped =>
    obtain ⟨plan, planned, composed⟩ := composed_of_built shaped frozen (kept .typeArguments)
    refine ⟨bare ?_, .built within named planned composed⟩
    cases shaped <;> exact ⟨rfl, rfl, rfl, rfl, rfl, rfl⟩

theorem kind_ne_typeParameter {plan : TypeKind × List (Option String)} (composed : Composed loading symbol plan) :
    symbol.kind ≠ .typeParameter := by
  rw [composed.kind]
  rcases composed.definition with ⟨constructed, _⟩ | ⟨named, _⟩
  · intro parameter
    rw [parameter] at constructed
    cases constructed
  · rw [named]
    decide

theorem composed_again (twins : Twins host types others first second) {id : String} {reference : Reference}
    {plan : TypeKind × List (Option String)} (undeclared : ∀ entry ∈ types, (entry.field "id").key? ≠ some (.text id))
    (within : RefersWithin types reference) (named : reference.name? = some id) (planned : reference.plan? = some plan)
    (composed : Composed first symbol plan) (found : first.ids.lookup (.text id) = some ref)
    (there : first.table.types[ref]? = some symbol) (source : Source others second otherSymbol (.text id)) :
    Composed second otherSymbol plan := by
  -- A type parameter of a type would stand under the id in both tables.
  have free : Free types (.text id) := by
    refine ⟨undeclared, fun entry listed parameter among keyed => kind_ne_typeParameter composed ?_⟩
    obtain ⟨other, place, stored, otherKeyed, placed, storedThere, kind⟩ := twins.one.entered entry listed parameter among
    cases keyed.symm.trans otherKeyed
    cases found.symm.trans placed
    cases there.symm.trans storedThere
    exact kind
  cases source with
  | parameter between keyed hollow =>
    exact absurd keyed (twins.clear.parameters reference id _ within named (by rw [planned]; rfl) free
      (twins.same.symm.parameterWithin between))
  | library between hollow =>
    have same := twins.clear.plans reference _ id within (twins.same.symm.refersWithin between) named rfl free
    rw [planned] at same
    cases same
  | built between otherNamed otherPlanned otherComposed =>
    have same := twins.clear.plans reference _ id within (twins.same.symm.refersWithin between) named otherNamed free
    rw [planned, otherPlanned, Option.some.injEq] at same
    rw [same]
    exact otherComposed

theorem undeclared_again (same : SameTypes types others) (undeclared : ∀ entry ∈ types, (entry.field "id").key? ≠ some key) :
    ∀ entry ∈ others, (entry.field "id").key? ≠ some key := by
  intro other listed
  obtain ⟨entry, among, alike⟩ := same.back other listed
  rw [← alike.fields "id" (by decide) (by decide)]
  exact undeclared entry among

/-- The symbols of one key in both tables: of one entry, both without parts, or both built from the same parts. -/
inductive Matched (host : Host) (types others : List Document) (first second : Loading) (symbol otherSymbol : TypeSymbol) : Prop
  | declared {entry other : Document} (listed : entry ∈ types) (also : other ∈ others) (alike : SameEntry entry other)
      (is : DeclaredAs host first entry symbol) (otherIs : DeclaredAs host second other otherSymbol) :
      Matched host types others first second symbol otherSymbol
  | hollow (bare : Bare symbol) (otherBare : Bare otherSymbol) (hollow : Hollow symbol) (otherHollow : Hollow otherSymbol) :
      Matched host types others first second symbol otherSymbol
  | composed {plan : TypeKind × List (Option String)} (bare : Bare symbol) (otherBare : Bare otherSymbol)
      (composed : Composed first symbol plan) (otherComposed : Composed second otherSymbol plan) :
      Matched host types others first second symbol otherSymbol

theorem matched_of_key (twins : Twins host types others first second) (found : first.ids.lookup key = some ref)
    (there : first.table.types[ref]? = some symbol) (otherFound : second.ids.lookup key = some otherRef)
    (otherThere : second.table.types[otherRef]? = some otherSymbol) :
    Matched host types others first second symbol otherSymbol := by
  by_cases declared : ∃ entry ∈ types, (entry.field "id").key? = some key
  · obtain ⟨entry, listed, keyed⟩ := declared
    obtain ⟨other, also, alike⟩ := twins.same.there entry listed
    have otherKeyed : (other.field "id").key? = some key := by rwa [alike.fields "id" (by decide) (by decide)]
    exact .declared listed also alike (declaredAs_of_entry twins.one listed keyed found there)
      (declaredAs_of_entry twins.two also otherKeyed otherFound otherThere)
  · have undeclared : ∀ entry ∈ types, (entry.field "id").key? ≠ some key := fun entry listed keyed =>
      declared ⟨entry, listed, keyed⟩
    have otherUndeclared := undeclared_again twins.same undeclared
    obtain ⟨bare, source⟩ := source_of_undeclared twins.one.good undeclared found there
    obtain ⟨otherBare, otherSource⟩ := source_of_undeclared twins.two.good otherUndeclared otherFound otherThere
    -- Where one of them is built, so is the other.
    cases source with
    | built within named planned composed =>
      exact .composed bare otherBare composed
        (composed_again twins undeclared within named planned composed found there otherSource)
    | parameter within keyed hollow =>
      cases otherSource with
      | built otherWithin named planned composed =>
        exact .composed bare otherBare (composed_again twins.symm otherUndeclared otherWithin named planned composed
          otherFound otherThere (.parameter within keyed hollow)) composed
      | parameter _ _ otherHollow => exact .hollow bare otherBare hollow otherHollow
      | library _ otherHollow => exact .hollow bare otherBare hollow otherHollow
    | library within hollow =>
      cases otherSource with
      | built otherWithin named planned composed =>
        exact .composed bare otherBare (composed_again twins.symm otherUndeclared otherWithin named planned composed
          otherFound otherThere (.library within hollow)) composed
      | parameter _ _ otherHollow => exact .hollow bare otherBare hollow otherHollow
      | library _ otherHollow => exact .hollow bare otherBare hollow otherHollow

end Symbols

section Steps

variable {host : Host} {types others : List Document} {first second loading : Loading}

def memberPlace (entry : Document) : Place :=
  if (entry.field "kind").text? = some "method" then .memberMethod entry
  else if (entry.field "kind").text? = some "nested_type" then
    .root (.text ((Reference.ofDocument (entry.field "type")).name?.getD ""))
  else .member entry

theorem at_memberPlace (labelled : Labelled types) {depth index : Nat} {owner entry : Document} {member : Member}
    (within : MemberWithin types entry) (is : MemberIs loading depth owner entry index member) :
    At types loading (memberPlace entry) (visitOf member) := by
  have whole := is
  cases is with
  | field kind typed marked =>
    rw [memberPlace, if_neg (by simp [kind]), if_neg (by simp [kind])]
    exact .member within whole
  | property kind typed takes marked =>
    rw [memberPlace, if_neg (by simp [kind]), if_neg (by simp [kind])]
    exact .member within whole
  | event kind typed marked =>
    rw [memberPlace, if_neg (by simp [kind]), if_neg (by simp [kind])]
    exact .member within whole
  | method kind is =>
    obtain ⟨id, _, given, _⟩ := labelled.keyed (Or.inl within)
    rw [memberIdOf, given] at is
    rw [memberPlace, if_pos kind]
    exact .memberMethod within kind given is
  | nested kind typed marked =>
    rw [memberPlace, if_neg (by simp [kind]), if_pos kind]
    generalize (Reference.ofDocument (entry.field "type")).name? = name, typed.points = points
    cases points with
    | known found => exact .root found

theorem covered_members (twins : Twins host types others first second) {entry other : Document} (listed : entry ∈ types)
    (also : other ∈ others) (same : SameEntry entry other) {members more : List (Option Member)}
    (are : MembersAre first entry members) (otherAre : MembersAre second other more) :
    Covered types others first second (members.flatMap visitMember) (more.flatMap visitMember) := by
  obtain ⟨depth, each⟩ := are
  obtain ⟨otherDepth, otherEach⟩ := otherAre
  refine covered_flatMap fun given among => ?_
  obtain ⟨⟨member, index⟩, inside, symbol, rfl, is⟩ := exists_of_mem_right each among
  have memberIn := List.fst_mem_of_mem_zipIdx inside
  obtain ⟨place, otherInside⟩ := exists_mem_zipIdx (same.members.perm.mem_iff.mp memberIn)
  obtain ⟨_, there, otherSymbol, rfl, otherIs⟩ := exists_of_mem_left otherEach otherInside
  refine ⟨some otherSymbol, there, fun visit visited => ?_⟩
  obtain ⟨_, same, rfl⟩ := mem_visitMember.mp visited
  cases same
  exact ⟨visitOf otherSymbol, mem_visitMember.mpr ⟨otherSymbol, rfl, rfl⟩, memberPlace member,
    at_memberPlace twins.labelled ⟨entry, listed, memberIn⟩ is,
    at_memberPlace twins.otherLabelled ⟨other, also, List.fst_mem_of_mem_zipIdx otherInside⟩ otherIs⟩

theorem covered_root (twins : Twins host types others first second) {symbol otherSymbol : TypeSymbol}
    (matched : Matched host types others first second symbol otherSymbol) :
    Covered types others first second (first.table.rootParts symbol) (second.table.rootParts otherSymbol) := by
  cases matched with
  | @declared entry other listed also alike is otherIs =>
    -- Only members and interfaces may stand in another order.
    have lists {name : String} (notMembers : name ≠ "members") (notInterfaces : name ≠ "interfaces") :
        ∀ reference ∈ looped (entry.field name), reference ∈ looped (other.field name) := by
      rw [alike.fields name notMembers notInterfaces]
      exact fun _ among => among
    have base : Stands second.ids (.ofDocument (other.field "base")) otherSymbol.base := otherIs.links .base
    have parameters : List.Forall₂ (ParameterIs second.ids) (looped (other.field "type_parameters")) otherSymbol.typeParameters :=
      otherIs.links .typeParameters
    rw [alike.fields "base" (by decide) (by decide)] at base
    refine covered_append (covered_append (covered_append (covered_append (covered_append ?_ ?_) ?_) ?_) ?_) ?_
    · exact covered_link (Stands.points (is.links .base)) base.points
    · exact covered_lists (fun _ among => alike.interfaces.perm.mem_iff.mp among) (is.links .interfaces)
        (otherIs.links .interfaces)
    · refine covered_entries (is.links .typeParameters) parameters (lists (by decide) (by decide)) fun _ _ _ _ => ?_
      exact covered_parameter twins
    · exact covered_lists (lists (by decide) (by decide)) (is.links .typeArguments) (otherIs.links .typeArguments)
    · exact covered_members twins listed also alike (is.links .members) (otherIs.links .members)
    · exact covered_lists (lists (by decide) (by decide)) (is.links .attributes) (otherIs.links .attributes)
  | hollow bare _ hollow _ =>
    simp [rootParts, bare.base, bare.interfaces, bare.typeParameters, bare.members, bare.attributes, hollow.arguments, visitType,
      covered_nil]
  | composed bare otherBare composed otherComposed =>
    simp only [rootParts, bare.base, bare.interfaces, bare.typeParameters, bare.members, bare.attributes, otherBare.base,
      otherBare.interfaces, otherBare.typeParameters, otherBare.members, otherBare.attributes, visitType, Option.map_none,
      Option.toList_none, List.flatMap_nil, List.nil_append, List.append_nil]
    exact covered_links composed.arguments otherComposed.arguments fun _ among => among

theorem covered_type {symbol otherSymbol : TypeSymbol} (matched : Matched host types others first second symbol otherSymbol) :
    Covered types others first second (first.table.typeParts symbol) (second.table.typeParts otherSymbol) := by
  cases matched with
  | @declared entry other listed also alike is otherIs =>
    have arguments : Lists second.ids (other.field "type_arguments") otherSymbol.typeArguments := otherIs.links .typeArguments
    rw [alike.fields "type_arguments" (by decide) (by decide)] at arguments
    have parts : Covered types others first second (symbol.typeArguments.flatMap visitType)
        (otherSymbol.typeArguments.flatMap visitType) :=
      covered_lists (fun _ among => among) (is.links .typeArguments) arguments
    simpa [typeParts, is.kind, is.element, is.elements, is.signature, otherIs.kind, otherIs.element, otherIs.elements,
      otherIs.signature, visitType, signatureParts] using parts
  | hollow bare _ hollow _ =>
    simp [typeParts, hollow.arguments, hollow.element, hollow.elements, hollow.signature, visitType, signatureParts, covered_nil]
  | composed bare otherBare composed otherComposed =>
    obtain ⟨links, leads, parts⟩ := composed.parts
    obtain ⟨otherLinks, otherLeads, otherParts⟩ := otherComposed.parts
    rw [parts, otherParts]
    exact covered_links leads otherLeads fun _ among => among

theorem memberParts_of_is {depth index : Nat} {owner entry : Document} {symbol : MemberSymbol}
    (is : MemberIs loading depth owner entry index (.plain symbol)) : ∃ type parameters attributes,
      Stands loading.ids (.ofDocument (entry.field "type")) type
      ∧ List.Forall₂ (Takes loading.ids)
        (if (entry.field "kind").text? = some "property" then looped (entry.field "parameters") else []) parameters
      ∧ Lists loading.ids (entry.field "attributes") attributes
      ∧ memberParts symbol = visitType type ++ parameters.flatMap (fun parameter => visitType parameter.type)
        ++ attributes.flatMap visitType := by
  cases is with
  | field kind typed marked =>
    rw [if_neg (by simp [kind])]
    exact ⟨_, [], _, typed, .nil, marked, by simp [memberParts]⟩
  | property kind typed takes marked =>
    rw [if_pos kind]
    exact ⟨_, _, _, typed, takes, marked, by simp [memberParts]⟩
  | event kind typed marked =>
    rw [if_neg (by simp [kind])]
    exact ⟨_, [], _, typed, .nil, marked, by simp [memberParts]⟩

theorem covered_member {depth otherDepth index place : Nat} {owner other entry : Document} {symbol otherSymbol : MemberSymbol}
    (is : MemberIs first depth owner entry index (.plain symbol))
    (otherIs : MemberIs second otherDepth other entry place (.plain otherSymbol)) :
    Covered types others first second (memberParts symbol) (memberParts otherSymbol) := by
  obtain ⟨_, _, _, typed, takes, marked, parts⟩ := memberParts_of_is is
  obtain ⟨_, _, _, otherTyped, otherTakes, otherMarked, otherParts⟩ := memberParts_of_is otherIs
  rw [parts, otherParts]
  refine covered_append (covered_append ?_ ?_) ?_
  · exact covered_link typed.points otherTyped.points
  · exact covered_entries takes otherTakes (fun _ among => among) fun _ _ _ _ takes also => (covered_takes takes also).1
  · exact covered_lists (fun _ among => among) marked otherMarked

theorem covered_reference {depth otherDepth index : Nat} {id otherId outer entry : Document} {reference other : BodyReference}
    (twins : Twins host types others first second) (within : MethodWithin types outer)
    (listed : entry ∈ looped (outer.field "body"))
    (occurs : Occurs first.ids (MethodIs first depth) id (entry, index) reference)
    (also : Occurs second.ids (MethodIs second otherDepth) otherId (entry, index) other) :
    Covered types others first second (referenceParts reference) (referenceParts other) := by
  obtain ⟨kind, known, same, typed, method⟩ := occurs
  obtain ⟨otherKind, otherKnown, otherSame, otherTyped, otherMethod⟩ := also
  cases known.symm.trans otherKnown
  have parts : ReferenceKind.ofValue? reference.kind = some kind := by rw [same, ofValue?_word]
  have otherParts : ReferenceKind.ofValue? other.kind = some kind := by rw [otherSame, ofValue?_word]
  intro visit among
  rcases (mem_referenceParts parts).mp among with ⟨kept, target, named, rfl⟩ | ⟨inner, carries, rfl⟩
  · obtain ⟨next, leads, alike⟩ := covered_link typed.points otherTyped.points (.type target) (by simp [named, visitType])
    obtain ⟨otherTarget, otherNamed, rfl⟩ := mem_visitType.mp leads
    exact ⟨.type otherTarget, (mem_referenceParts otherParts).mpr (Or.inl ⟨kept, otherTarget, otherNamed, rfl⟩), alike⟩
  · obtain ⟨carrying, carried⟩ := carries
    rw [parts, Option.some.injEq, Option.some.injEq] at carrying
    rw [if_pos carrying] at method otherMethod
    obtain ⟨_, held, is⟩ := method
    obtain ⟨otherInner, otherHeld, otherIs⟩ := otherMethod
    cases carried.symm.trans held
    have inside : MethodWithin types (innerMethod entry) := within.inner listed ((nests_iff known).mpr carrying)
    -- The method in the body has an id of its own in both tables.
    obtain ⟨given, _, set, _⟩ := twins.labelled.keyed (Or.inr inside)
    rw [innerId, set] at is otherIs
    exact ⟨.method otherInner, (mem_referenceParts otherParts).mpr (Or.inr ⟨otherInner, ⟨by rwa [otherParts, Option.some.injEq,
      Option.some.injEq], otherHeld⟩, rfl⟩), .method (innerMethod entry), .method inside set is,
      .method (twins.same.methodWithin inside) set otherIs⟩

theorem looks_of_is {depth : Nat} {entry id : Document} {ref : MethodRef} (is : MethodIs loading depth entry id ref) :
    ∃ lower symbol, loading.table.methods[ref]? = some symbol ∧ Looks loading.ids (MethodIs loading lower) entry id symbol := by
  cases depth with
  | zero => exact absurd is not_false
  | succ depth =>
    obtain ⟨symbol, stored, looks⟩ := is
    exact ⟨depth, symbol, stored, looks⟩

theorem covered_method {depth otherDepth : Nat} {entry id otherId : Document} {symbol otherSymbol : MethodSymbol}
    (twins : Twins host types others first second) (within : MethodWithin types entry)
    (looks : Looks first.ids (MethodIs first depth) entry id symbol)
    (also : Looks second.ids (MethodIs second otherDepth) entry otherId otherSymbol) :
    Covered types others first second (first.table.methodParts symbol) (second.table.methodParts otherSymbol) := by
  refine covered_append (covered_append (covered_append ?_ ?_) ?_) ?_
  · exact covered_link looks.returnType.points also.returnType.points
  · refine covered_entries looks.parameters also.parameters (fun _ among => among) fun _ _ _ _ takes other => ?_
    exact covered_append (covered_takes takes other).1 (covered_takes takes other).2
  · refine covered_entries looks.typeParameters also.typeParameters (fun _ among => among) fun _ _ _ _ => ?_
    exact covered_parameter twins
  · refine covered_entries looks.body also.body (fun _ among => among) fun entry among _ _ occurs other => ?_
    exact covered_reference twins within (List.fst_mem_of_mem_zipIdx among) occurs other

/-- Visits at one place lead to visits at the same places. -/
theorem covered_step (twins : Twins host types others first second) {place : Place} {visit other : Visit}
    (placed : At types first place visit) (also : At others second place other) :
    Covered types others first second (first.table.partsOf visit) (second.table.partsOf other) := by
  cases placed with
  | root found =>
    cases also with
    | root otherFound =>
      obtain ⟨_, symbol, there, _⟩ := twins.one.good.arises _ _ found
      obtain ⟨_, otherSymbol, otherThere, _⟩ := twins.two.good.arises _ _ otherFound
      simp only [partsOf, there, otherThere, Option.map_some, Option.getD_some]
      exact covered_root twins (matched_of_key twins found there otherFound otherThere)
  | type found =>
    cases also with
    | type otherFound =>
      obtain ⟨_, symbol, there, _⟩ := twins.one.good.arises _ _ found
      obtain ⟨_, otherSymbol, otherThere, _⟩ := twins.two.good.arises _ _ otherFound
      simp only [partsOf, there, otherThere, Option.map_some, Option.getD_some]
      exact covered_type (matched_of_key twins found there otherFound otherThere)
  | member within is =>
    cases also with
    | member _ otherIs => exact covered_member is otherIs
  | @memberMethod _ _ _ ref within kind given is =>
    cases also with
    | @memberMethod _ _ _ otherRef otherWithin _ otherGiven otherIs =>
      obtain ⟨_, symbol, stored, looks⟩ := looks_of_is is
      obtain ⟨_, otherSymbol, otherStored, otherLooks⟩ := looks_of_is otherIs
      simp only [partsOf, stored, otherStored, Option.map_some, Option.getD_some]
      have self : Covered types others first second [.method ref] [.method otherRef] := by
        intro visit among
        cases List.mem_singleton.mp among
        exact ⟨_, List.mem_singleton_self _, _, .method ⟨_, within, kind, .self⟩ given is,
          .method ⟨_, otherWithin, kind, .self⟩ otherGiven otherIs⟩
      exact covered_append self (covered_lists (fun _ among => among) looks.attributes otherLooks.attributes)
  | method within given is =>
    cases also with
    | method _ _ otherIs =>
      obtain ⟨_, symbol, stored, looks⟩ := looks_of_is is
      obtain ⟨_, otherSymbol, otherStored, otherLooks⟩ := looks_of_is otherIs
      simp only [partsOf, stored, otherStored, Option.map_some, Option.getD_some]
      exact covered_method twins within looks otherLooks

end Steps

end DeclGraph.Manifest
