import Mathlib.Logic.Relation
import DeclGraph.Proofs.ManifestContents

/-!
What reading a manifest can do to the symbol table. A new symbol is entered under a new id, a method is added, or a
link of a symbol is set to what an entry of the manifest says. All else follows from these steps: ids and methods stay,
and so does what makes a symbol a declared, a built or a library type.
-/

namespace DeclGraph.Manifest

abbrev Ids := List (Key × TypeRef)

section Meanings

/-- The ids of a reference and of its parts are there. -/
def Present (ids : Ids) (reference : Reference) : Prop :=
  ∀ inner, reference.Inside inner → ∀ id, inner.name? = some id → ∃ ref, ids.lookup (.text id) = some ref

/-- A link is what a reference stands for. -/
inductive Stands (ids : Ids) : Reference → Option TypeRef → Prop
  | absent : Stands ids .absent none
  | known {reference : Reference} {id : String} {ref : TypeRef} (named : reference.name? = some id)
      (found : ids.lookup (.text id) = some ref) (present : Present ids reference) : Stands ids reference (some ref)

def ParameterIs (ids : Ids) (parameter : Document) (link : Option TypeRef) : Prop :=
  ∃ key ref, (parameterId parameter).key? = some key ∧ ids.lookup key = some ref ∧ link = some ref

def Takes (ids : Ids) (entry : Document) (parameter : Parameter) : Prop :=
  match entry.entries? with
  | some _ => Stands ids (.ofDocument (entry.field "type")) parameter.type
    ∧ Stands ids (.ofDocument (entry.field "default")) parameter.defaultType
  | none => Stands ids (.ofDocument entry) parameter.type ∧ parameter.defaultType = none

def Lists (ids : Ids) (value : Document) (links : List (Option TypeRef)) : Prop :=
  List.Forall₂ (Stands ids) (refersIn value) links

def innerId (id reference : Document) (index : Nat) (kind : ReferenceKind) : Document :=
  (((innerMethod reference).field "id").ifSet).getD (.text (id.display ++ "#" ++ kind.word ++ toString index))

/-- What an entry says of a body reference; `nested` relates the method in it. -/
def Occurs (ids : Ids) (nested : Document → Document → MethodRef → Prop) (id : Document) (entry : Document × Nat)
    (reference : BodyReference) : Prop :=
  ∃ kind, ReferenceKind.ofValue? (entry.1.field "kind") = some kind ∧ reference.kind = .text kind.word
    ∧ Stands ids (.ofDocument (entry.1.field "type")) reference.type
    ∧ if kind = .localFunction ∨ kind = .lambda then
        ∃ inner, reference.method = some inner ∧ nested (innerMethod entry.1) (innerId id entry.1 entry.2 kind) inner
      else reference.method = none

/-- What an entry says of a method. -/
structure Looks (ids : Ids) (nested : Document → Document → MethodRef → Prop) (entry given : Document)
    (symbol : MethodSymbol) : Prop where
  id : symbol.id = given
  returnType : Stands ids (.ofDocument (entry.field "return_type")) symbol.returnType
  parameters : List.Forall₂ (Takes ids) (looped (entry.field "parameters")) symbol.parameters
  typeParameters : List.Forall₂ (ParameterIs ids) (looped (entry.field "type_parameters")) symbol.typeParameters
  body : List.Forall₂ (Occurs ids nested given) (looped (entry.field "body")).zipIdx (symbol.body.getD [])
  attributes : Lists ids (entry.field "attributes") symbol.attributes

/-- A method of the table is that of an entry with an id. Methods in its body are looked at down to a depth. -/
def MethodIs (loading : Loading) : Nat → Document → Document → MethodRef → Prop
  | 0, _, _, _ => False
  | depth + 1, entry, id, ref =>
    ∃ symbol, loading.table.methods[ref]? = some symbol ∧ Looks loading.ids (MethodIs loading depth) entry id symbol

/-- The id of a member: the one it gives, or that of its owner with the member's name or number. -/
def memberIdOf (owner entry : Document) (index : Nat) : Document :=
  ((entry.field "id").ifSet).getD
    (.text (owner.display ++ "." ++ (((entry.field "name").ifSet).getD (.nat index)).display))

/-- What an entry says of a member. -/
inductive MemberIs (loading : Loading) (depth : Nat) (owner entry : Document) (index : Nat) : Member → Prop
  | field {type : Option TypeRef} {name : Document} {attributes : List (Option TypeRef)}
      (kind : (entry.field "kind").text? = some "field")
      (typed : Stands loading.ids (.ofDocument (entry.field "type")) type)
      (marked : Lists loading.ids (entry.field "attributes") attributes) :
      MemberIs loading depth owner entry index
        (.plain { id := memberIdOf owner entry index, name, shape := .field type, attributes })
  | property {type : Option TypeRef} {name : Document} {parameters : List Parameter} {attributes : List (Option TypeRef)}
      (kind : (entry.field "kind").text? = some "property")
      (typed : Stands loading.ids (.ofDocument (entry.field "type")) type)
      (takes : List.Forall₂ (Takes loading.ids) (looped (entry.field "parameters")) parameters)
      (marked : Lists loading.ids (entry.field "attributes") attributes) :
      MemberIs loading depth owner entry index
        (.plain { id := memberIdOf owner entry index, name, shape := .property type parameters, attributes })
  | event {type : Option TypeRef} {name : Document} {attributes : List (Option TypeRef)}
      (kind : (entry.field "kind").text? = some "event")
      (typed : Stands loading.ids (.ofDocument (entry.field "type")) type)
      (marked : Lists loading.ids (entry.field "attributes") attributes) :
      MemberIs loading depth owner entry index
        (.plain { id := memberIdOf owner entry index, name, shape := .event type, attributes })
  | method {ref : MethodRef} (kind : (entry.field "kind").text? = some "method")
      (is : MethodIs loading depth entry (memberIdOf owner entry index) ref) :
      MemberIs loading depth owner entry index (.method ref)
  | nested {ref : TypeRef} (kind : (entry.field "kind").text? = some "nested_type")
      (typed : Stands loading.ids (.ofDocument (entry.field "type")) (some ref))
      (marked : ∃ attributes, Lists loading.ids (entry.field "attributes") attributes) :
      MemberIs loading depth owner entry index (.nested ref)

def MembersAre (loading : Loading) (entry : Document) (members : List (Option Member)) : Prop :=
  ∃ depth, List.Forall₂ (fun member given => ∃ symbol, given = some symbol
    ∧ MemberIs loading depth (entry.field "id") member.1 member.2 symbol)
    (looped (entry.field "members")).zipIdx members

theorem Stands.present {ids : Ids} {reference : Reference} {link : Option TypeRef} (stands : Stands ids reference link) :
    Present ids reference := by
  cases stands with
  | known named found present => exact present
  | absent =>
    intro inner inside id named
    rcases Reference.inside_cases inside with rfl | ⟨part, among, _⟩
    · cases named
    · cases among

theorem present_of_parts {ids : Ids} {reference : Reference} {id : String} {ref : TypeRef} (named : reference.name? = some id)
    (found : ids.lookup (.text id) = some ref) (parts : ∀ part ∈ reference.parts, Present ids part) :
    Present ids reference := by
  intro inner inside other called
  rcases Reference.inside_cases inside with rfl | ⟨part, among, within⟩
  · cases named.symm.trans called
    exact ⟨ref, found⟩
  · exact parts part among inner within other called

end Meanings

section Steps

/-- The place that a value spells, seen from the directory of a manifest. -/
def placeOf? (host : Host) (manifest : String) : Document → Option String
  | .scalar (.text path) =>
    if path = "" then none
    else
      some (host.canonical
        (if Path.isAbsolute path then path else Path.joinAll (Path.directory manifest) (Path.segments path)))
  | _ => none

def FileOf (host : Host) (manifest : String) (entry file : Document) : Prop :=
  (entry.field "file").isSet = false ∧ file = .null
    ∨ (entry.field "file").isSet = true ∧ ∃ path, placeOf? host manifest (entry.field "file") = some path ∧ file = .text path

inductive Built (loading : Loading) (id : String) : Reference → TypeSymbol → Prop
  | generic {definition : Reference} {instead : Option String} {arguments : List Reference} {source : Document}
      {ref : TypeRef} {links : List (Option TypeRef)} (defined : Stands loading.ids definition (some ref))
      (filled : List.Forall₂ (Stands loading.ids) arguments links) :
      Built loading id (.generic definition instead arguments source)
        { id := .text id, name := .text id, originalDefinition := some ref, typeArguments := links }
  | array {element : Reference} {source : Document} {ref : TypeRef} (known : Stands loading.ids element (some ref)) :
      Built loading id (.array element source) { id := .text id, name := .text id, kind := .array, element := some ref }
  | pointer {element : Reference} {source : Document} {ref : TypeRef} (known : Stands loading.ids element (some ref)) :
      Built loading id (.pointer element source)
        { id := .text id, name := .text id, kind := .pointer, element := some ref }
  | tuple {instead : Option String} {elements : List Reference} {links : List (Option TypeRef)}
      (filled : List.Forall₂ (Stands loading.ids) elements links) :
      Built loading id (.tuple instead elements)
        { id := .text id, name := .text id, kind := .tuple, tupleElements := links }
  | functionPointer {returnType : Reference} {instead : Option String} {parameters : List Reference}
      {returned : Option TypeRef} {links : List (Option TypeRef)} {ref : MethodRef} {signature : MethodSymbol}
      (gives : Stands loading.ids returnType returned) (takes : List.Forall₂ (Stands loading.ids) parameters links)
      (stored : loading.table.methods[ref]? = some signature) (returns : signature.returnType = returned)
      (typed : signature.parameters.map Parameter.type = links) :
      Built loading id (.functionPointer returnType instead parameters)
        { id := .text id, name := .text id, kind := .functionPointer, signature := some ref }

/-- Where a new symbol can come from. -/
inductive Origin (host : Host) (types : List Document) (loading : Loading) : Key → TypeSymbol → Prop
  | declared {entry : Document} {key : Key} {name file : Document} (listed : entry ∈ types)
      (set : (entry.field "id").isSet = true) (keyed : (entry.field "id").key? = some key)
      (located : FileOf host loading.path entry file) : Origin host types loading key
        { id := entry.field "id", name, file, external := .bool (entry.field "external").isSet }
  | parameter {parameter : Document} {key : Key} {name : Document} (within : ParameterWithin types parameter)
      (set : (parameterId parameter).isSet = true) (keyed : (parameterId parameter).key? = some key) :
      Origin host types loading key { id := parameterId parameter, name, kind := .typeParameter }
  | library {id : String} (within : RefersWithin types (.named id)) (present : id ≠ "") :
      Origin host types loading (.text id) { id := .text id, name := .text id, external := .bool true }
  | built {reference : Reference} {id : String} {symbol : TypeSymbol} (within : RefersWithin types reference)
      (named : reference.name? = some id) (present : id ≠ "") (shaped : Built loading id reference symbol) :
      Origin host types loading (.text id) symbol

structure Frozen (before after : TypeSymbol) : Prop where
  id : after.id = before.id
  file : after.file = before.file
  external : after.external = before.external
  kind : after.kind = before.kind
  definition : after.originalDefinition = before.originalDefinition
  element : after.element = before.element
  elements : after.tupleElements = before.tupleElements
  signature : after.signature = before.signature

/-- The links of a declared type that are set when its entry is read. -/
inductive Link
  | base
  | interfaces
  | typeParameters
  | typeArguments
  | attributes
  | members

namespace Link

def Same (before after : TypeSymbol) : Link → Prop
  | base => after.base = before.base
  | interfaces => after.interfaces = before.interfaces
  | typeParameters => after.typeParameters = before.typeParameters
  | typeArguments => after.typeArguments = before.typeArguments
  | attributes => after.attributes = before.attributes
  | members => after.members = before.members

def Is (loading : Loading) (entry : Document) (symbol : TypeSymbol) : Link → Prop
  | base => Stands loading.ids (.ofDocument (entry.field "base")) symbol.base
  | interfaces => Lists loading.ids (entry.field "interfaces") symbol.interfaces
  | typeParameters =>
    List.Forall₂ (ParameterIs loading.ids) (looped (entry.field "type_parameters")) symbol.typeParameters
  | typeArguments => Lists loading.ids (entry.field "type_arguments") symbol.typeArguments
  | attributes => Lists loading.ids (entry.field "attributes") symbol.attributes
  | members => MembersAre loading entry symbol.members

end Link

structure Follows (loading : Loading) (entry : Document) (before after : TypeSymbol) : Prop where
  frozen : Frozen before after
  constraints : after.constraints = before.constraints
  links : ∀ link : Link, link.Same before after ∨ link.Is loading entry after

def Constrained (types : List Document) (loading : Loading) (key : Key) (constraints : List (Option TypeRef)) : Prop :=
  ∃ parameter, ParameterWithin types parameter ∧ Constraining parameter ∧ (parameterId parameter).key? = some key
    ∧ Lists loading.ids (parameter.field "constraints") constraints

/-- How the links of the symbol of a key can be set. -/
inductive Change (types : List Document) (loading : Loading) (key : Key) : (TypeSymbol → TypeSymbol) → Prop
  | constraints {constraints : List (Option TypeRef)} (constrained : Constrained types loading key constraints) :
      Change types loading key fun symbol => { symbol with constraints }
  | linked {entry : Document} {change : TypeSymbol → TypeSymbol} (listed : entry ∈ types)
      (keyed : (entry.field "id").key? = some key)
      (follows : ∀ symbol, Follows loading entry symbol (change symbol)) : Change types loading key change

structure Fits (loading : Loading) (symbol : MethodSymbol) : Prop where
  parameters : ∀ parameter ∈ symbol.typeParameters, ∃ key ref, loading.ids.lookup key = some ref ∧ parameter = some ref
  kinds : ∀ reference ∈ symbol.body.getD [], (ReferenceKind.ofValue? reference.kind).isSome = true

namespace Loading

def entered (loading : Loading) (key : Key) (symbol : TypeSymbol) : Loading :=
  { loading with
    table := { loading.table with types := loading.table.types.push symbol }
    ids := loading.ids ++ [(key, loading.table.types.size)] }

def joined (loading : Loading) (symbol : MethodSymbol) : Loading :=
  { loading with table := { loading.table with methods := loading.table.methods.push symbol } }

def changed (loading : Loading) (ref : TypeRef) (change : TypeSymbol → TypeSymbol) : Loading :=
  { loading with table := { loading.table with types := loading.table.types.modify ref change } }

end Loading

/-- One step of reading the types of a manifest. -/
inductive Step (host : Host) (types : List Document) (loading : Loading) : Loading → Prop
  | entered {key : Key} {symbol : TypeSymbol} (new : loading.ids.lookup key = none)
      (origin : Origin host types loading key symbol) : Step host types loading (loading.entered key symbol)
  | joined {symbol : MethodSymbol} (fits : Fits loading symbol) : Step host types loading (loading.joined symbol)
  | counted : Step host types loading { loading with madeUp := loading.madeUp + 1 }
  | changed {key : Key} {ref : TypeRef} {change : TypeSymbol → TypeSymbol} (found : loading.ids.lookup key = some ref)
      (allowed : Change types loading key change) : Step host types loading (loading.changed ref change)

abbrev Steps (host : Host) (types : List Document) : Loading → Loading → Prop :=
  Relation.ReflTransGen (Step host types)

end Steps

section Growing

theorem Frozen.refl (symbol : TypeSymbol) : Frozen symbol symbol := ⟨rfl, rfl, rfl, rfl, rfl, rfl, rfl, rfl⟩

theorem Frozen.trans {first second third : TypeSymbol} (one : Frozen first second) (two : Frozen second third) :
    Frozen first third where
  id := two.id.trans one.id
  file := two.file.trans one.file
  external := two.external.trans one.external
  kind := two.kind.trans one.kind
  definition := two.definition.trans one.definition
  element := two.element.trans one.element
  elements := two.elements.trans one.elements
  signature := two.signature.trans one.signature

/-- What stays while a manifest is read. -/
structure Grows (before after : Loading) : Prop where
  path : after.path = before.path
  ids : ∀ key ref, before.ids.lookup key = some ref → after.ids.lookup key = some ref
  methods : ∀ (ref : MethodRef) (symbol : MethodSymbol),
    before.table.methods[ref]? = some symbol → after.table.methods[ref]? = some symbol
  types : ∀ (ref : TypeRef) (symbol : TypeSymbol), before.table.types[ref]? = some symbol →
    ∃ later, after.table.types[ref]? = some later ∧ Frozen symbol later

variable {host : Host} {types : List Document} {before middle after loading : Loading}

theorem Grows.refl (loading : Loading) : Grows loading loading :=
  ⟨rfl, fun _ _ found => found, fun _ _ found => found, fun _ symbol found => ⟨symbol, found, .refl symbol⟩⟩

theorem Grows.trans (first : Grows before middle) (second : Grows middle after) : Grows before after where
  path := second.path.trans first.path
  ids key ref found := second.ids key ref (first.ids key ref found)
  methods ref symbol found := second.methods ref symbol (first.methods ref symbol found)
  types ref symbol found := by
    obtain ⟨later, there, frozen⟩ := first.types ref symbol found
    obtain ⟨last, still, more⟩ := second.types ref later there
    exact ⟨last, still, frozen.trans more⟩

theorem lookup_entered {key other : Key} {symbol : TypeSymbol} : (loading.entered key symbol).ids.lookup other =
    (loading.ids.lookup other).or (if other = key then some loading.table.types.size else none) := by
  rw [Loading.entered, List.lookup_append]
  by_cases same : other = key
  · simp [same]
  · have different : (other == key) = false := by simpa using same
    simp [List.lookup_cons, different, same]

theorem types_changed {ref other : TypeRef} {change : TypeSymbol → TypeSymbol} :
    (loading.changed ref change).table.types[other]? =
      if ref = other then loading.table.types[other]?.map change else loading.table.types[other]? := by
  rw [Loading.changed, Array.getElem?_modify]

theorem frozen_of_change {key : Key} {change : TypeSymbol → TypeSymbol} (allowed : Change types loading key change)
    (symbol : TypeSymbol) : Frozen symbol (change symbol) := by
  cases allowed with
  | constraints constrained => exact ⟨rfl, rfl, rfl, rfl, rfl, rfl, rfl, rfl⟩
  | linked listed keyed follows => exact (follows symbol).frozen

theorem grows_entered (loading : Loading) (key : Key) (symbol : TypeSymbol) : Grows loading (loading.entered key symbol) := by
  refine ⟨rfl, fun other ref found => ?_, fun _ _ found => found, fun ref old found => ?_⟩
  · rw [lookup_entered, found]
    rfl
  · have inside := (Array.getElem?_eq_some_iff.mp found).1
    refine ⟨old, ?_, .refl old⟩
    rw [Loading.entered, Array.getElem?_push, if_neg (Nat.ne_of_lt inside)]
    exact found

theorem grows_joined (loading : Loading) (symbol : MethodSymbol) : Grows loading (loading.joined symbol) := by
  refine ⟨rfl, fun _ _ found => found, fun ref old found => ?_, fun _ old found => ⟨old, found, .refl old⟩⟩
  have inside := (Array.getElem?_eq_some_iff.mp found).1
  rw [Loading.joined, Array.getElem?_push, if_neg (Nat.ne_of_lt inside)]
  exact found

theorem grows_counted (loading : Loading) : Grows loading { loading with madeUp := loading.madeUp + 1 } :=
  ⟨rfl, fun _ _ found => found, fun _ _ found => found, fun _ old found => ⟨old, found, .refl old⟩⟩

theorem grows_changed (loading : Loading) {ref : TypeRef} {change : TypeSymbol → TypeSymbol}
    (frozen : ∀ symbol, Frozen symbol (change symbol)) : Grows loading (loading.changed ref change) := by
  refine ⟨rfl, fun _ _ found => found, fun _ _ found => found, fun other old found => ?_⟩
  rw [types_changed, found]
  split
  · exact ⟨_, rfl, frozen old⟩
  · exact ⟨old, rfl, .refl old⟩

theorem grows_of_step (step : Step host types before after) : Grows before after := by
  cases step with
  | entered => exact grows_entered _ _ _
  | joined => exact grows_joined _ _
  | counted => exact grows_counted _
  | changed _ allowed => exact grows_changed _ (frozen_of_change allowed)

theorem grows_of_steps (steps : Steps host types before after) : Grows before after := by
  induction steps with
  | refl => exact .refl _
  | tail _ step ih => exact ih.trans (grows_of_step step)

theorem Present.grows (grows : Grows before after) {reference : Reference} (present : Present before.ids reference) :
    Present after.ids reference := by
  intro inner inside id named
  obtain ⟨ref, found⟩ := present inner inside id named
  exact ⟨ref, grows.ids _ ref found⟩

theorem Stands.grows (grows : Grows before after) {reference : Reference} {link : Option TypeRef}
    (stands : Stands before.ids reference link) : Stands after.ids reference link := by
  cases stands with
  | absent => exact .absent
  | known named found present => exact .known named (grows.ids _ _ found) (present.grows grows)

theorem Lists.grows (larger : Grows before after) {value : Document} {links : List (Option TypeRef)}
    (lists : Lists before.ids value links) : Lists after.ids value links :=
  lists.imp fun _ _ stands => stands.grows larger

theorem ParameterIs.grows (grows : Grows before after) {parameter : Document} {link : Option TypeRef}
    (is : ParameterIs before.ids parameter link) : ParameterIs after.ids parameter link := by
  obtain ⟨key, ref, keyed, found, same⟩ := is
  exact ⟨key, ref, keyed, grows.ids key ref found, same⟩

theorem Takes.grows (grows : Grows before after) {entry : Document} {parameter : Parameter}
    (takes : Takes before.ids entry parameter) : Takes after.ids entry parameter := by
  unfold Takes at takes ⊢
  split at takes
  · exact ⟨takes.1.grows grows, takes.2.grows grows⟩
  · exact ⟨takes.1.grows grows, takes.2⟩

theorem Occurs.grows (grows : Grows before after) {nested later : Document → Document → MethodRef → Prop}
    (inner : ∀ entry id ref, nested entry id ref → later entry id ref) {id : Document} {entry : Document × Nat}
    {reference : BodyReference} (occurs : Occurs before.ids nested id entry reference) :
    Occurs after.ids later id entry reference := by
  obtain ⟨kind, known, same, stands, brings⟩ := occurs
  refine ⟨kind, known, same, stands.grows grows, ?_⟩
  split at brings
  · next nests =>
    obtain ⟨ref, given, is⟩ := brings
    rw [if_pos nests]
    exact ⟨ref, given, inner _ _ _ is⟩
  · next plain =>
    rw [if_neg plain]
    exact brings

theorem Looks.grows (grows : Grows before after) {nested later : Document → Document → MethodRef → Prop}
    (inner : ∀ entry id ref, nested entry id ref → later entry id ref) {entry id : Document} {symbol : MethodSymbol}
    (looks : Looks before.ids nested entry id symbol) : Looks after.ids later entry id symbol where
  id := looks.id
  returnType := looks.returnType.grows grows
  parameters := looks.parameters.imp fun _ _ takes => takes.grows grows
  typeParameters := looks.typeParameters.imp fun _ _ is => is.grows grows
  body := looks.body.imp fun _ _ occurs => occurs.grows grows inner
  attributes := looks.attributes.grows grows

theorem MethodIs.grows (grows : Grows before after) {depth : Nat} {entry id : Document} {ref : MethodRef}
    (is : MethodIs before depth entry id ref) : MethodIs after depth entry id ref := by
  induction depth generalizing entry id ref with
  | zero => exact is
  | succ depth ih =>
    obtain ⟨symbol, found, looks⟩ := is
    exact ⟨symbol, grows.methods ref symbol found, looks.grows grows fun _ _ _ => ih⟩

theorem MemberIs.grows (grows : Grows before after) {depth : Nat} {owner entry : Document} {index : Nat} {member : Member}
    (is : MemberIs before depth owner entry index member) : MemberIs after depth owner entry index member := by
  cases is with
  | field kind typed marked => exact .field kind (typed.grows grows) (marked.grows grows)
  | property kind typed takes marked =>
    exact .property kind (typed.grows grows) (takes.imp fun _ _ takes => takes.grows grows) (marked.grows grows)
  | event kind typed marked => exact .event kind (typed.grows grows) (marked.grows grows)
  | method kind is => exact .method kind (is.grows grows)
  | nested kind typed marked =>
    obtain ⟨attributes, lists⟩ := marked
    exact .nested kind (typed.grows grows) ⟨attributes, lists.grows grows⟩

theorem MembersAre.grows (grows : Grows before after) {entry : Document} {members : List (Option Member)}
    (are : MembersAre before entry members) : MembersAre after entry members := by
  obtain ⟨depth, each⟩ := are
  refine ⟨depth, each.imp fun entry given stated => ?_⟩
  obtain ⟨symbol, same, is⟩ := stated
  exact ⟨symbol, same, is.grows grows⟩

theorem Link.Is.grows (grows : Grows before after) {link : Link} {entry : Document} {symbol : TypeSymbol}
    (is : link.Is before entry symbol) : link.Is after entry symbol := by
  cases link with
  | base => exact Stands.grows grows is
  | typeParameters => exact List.Forall₂.imp (fun _ _ is => ParameterIs.grows grows is) is
  | members => exact MembersAre.grows grows is
  | interfaces => exact Lists.grows grows is
  | typeArguments => exact Lists.grows grows is
  | attributes => exact Lists.grows grows is

theorem Constrained.grows (grows : Grows before after) {key : Key} {constraints : List (Option TypeRef)}
    (constrained : Constrained types before key constraints) : Constrained types after key constraints := by
  obtain ⟨parameter, within, constraining, keyed, lists⟩ := constrained
  exact ⟨parameter, within, constraining, keyed, lists.grows grows⟩

theorem Built.grows (grows : Grows before after) {id : String} {reference : Reference} {symbol : TypeSymbol}
    (built : Built before id reference symbol) : Built after id reference symbol := by
  cases built with
  | generic defined filled => exact .generic (defined.grows grows) (filled.imp fun _ _ stands => stands.grows grows)
  | array known => exact .array (known.grows grows)
  | pointer known => exact .pointer (known.grows grows)
  | tuple filled => exact .tuple (filled.imp fun _ _ stands => stands.grows grows)
  | functionPointer gives takes stored returns typed =>
    exact .functionPointer (gives.grows grows) (takes.imp fun _ _ stands => stands.grows grows)
      (grows.methods _ _ stored) returns typed

theorem Origin.grows (grows : Grows before after) {key : Key} {symbol : TypeSymbol}
    (origin : Origin host types before key symbol) : Origin host types after key symbol := by
  cases origin with
  | declared listed set keyed located =>
    rw [← grows.path] at located
    exact .declared listed set keyed located
  | parameter within set keyed => exact .parameter within set keyed
  | library within present => exact .library within present
  | built within named present shaped => exact .built within named present (shaped.grows grows)

end Growing

section Good

/-- What the symbol of a key can be. It came from somewhere, and its links are as they were then, or what an entry for
the key says. -/
structure Arises (host : Host) (types : List Document) (loading : Loading) (key : Key) (fresh symbol : TypeSymbol) :
    Prop where
  origin : Origin host types loading key fresh
  frozen : Frozen fresh symbol
  links : ∀ link : Link, link.Same fresh symbol
    ∨ ∃ entry ∈ types, (entry.field "id").key? = some key ∧ link.Is loading entry symbol
  constraints : symbol.constraints = [] ∨ Constrained types loading key symbol.constraints

/-- A symbol table that was read from a manifest, all of it or a first part. -/
structure Good (host : Host) (types : List Document) (loading : Loading) : Prop where
  arises : ∀ key ref, loading.ids.lookup key = some ref →
    ∃ fresh symbol, loading.table.types[ref]? = some symbol ∧ Arises host types loading key fresh symbol
  entered : ∀ ref < loading.table.types.size, ∃ key, loading.ids.lookup key = some ref
  earlier : ∀ (ref : TypeRef) (symbol : TypeSymbol), loading.table.types[ref]? = some symbol →
    ∀ definition, symbol.originalDefinition = some definition → definition < ref
  methods : ∀ symbol ∈ loading.table.methods.toList, Fits loading symbol

variable {host : Host} {types : List Document} {before after loading : Loading} {key : Key} {fresh symbol : TypeSymbol}

theorem Link.Same.trans {link : Link} {first second third : TypeSymbol} (one : link.Same first second)
    (two : link.Same second third) : link.Same first third := by
  cases link with
  | _ => exact Eq.trans two one

theorem Link.Is.of_same {link : Link} {entry : Document} {first second : TypeSymbol} (same : link.Same first second)
    (is : link.Is loading entry first) : link.Is loading entry second := by
  cases link with
  | base => exact (show Stands _ _ second.base from same ▸ is)
  | interfaces => exact (show Lists _ _ second.interfaces from same ▸ is)
  | typeParameters => exact (show List.Forall₂ _ _ second.typeParameters from same ▸ is)
  | typeArguments => exact (show Lists _ _ second.typeArguments from same ▸ is)
  | attributes => exact (show Lists _ _ second.attributes from same ▸ is)
  | members => exact (show MembersAre _ _ second.members from same ▸ is)

theorem Origin.keyed (origin : Origin host types loading key fresh) : fresh.id.key? = some key := by
  cases origin with
  | declared listed set keyed located => exact keyed
  | parameter within set keyed => exact keyed
  | library within present => rfl
  | built within named present shaped => cases shaped <;> rfl

theorem Origin.set (origin : Origin host types loading key fresh) : fresh.id.isSet = true := by
  cases origin with
  | declared listed set keyed located => exact set
  | parameter within set keyed => exact set
  | library within present => simp [Document.isSet, present]
  | built within named present shaped => cases shaped <;> simp [Document.isSet, present]

theorem Origin.constraints (origin : Origin host types loading key fresh) : fresh.constraints = [] := by
  cases origin with
  | built within named present shaped => cases shaped <;> rfl
  | _ => rfl

theorem Arises.grows (grows : Grows before after) (arises : Arises host types before key fresh symbol) :
    Arises host types after key fresh symbol where
  origin := arises.origin.grows grows
  frozen := arises.frozen
  links link := (arises.links link).imp_right fun ⟨entry, listed, keyed, is⟩ => ⟨entry, listed, keyed, is.grows grows⟩
  constraints := arises.constraints.imp_right fun constrained => constrained.grows grows

theorem Arises.changed {change : TypeSymbol → TypeSymbol} (allowed : Change types loading key change)
    (arises : Arises host types loading key fresh symbol) : Arises host types loading key fresh (change symbol) where
  origin := arises.origin
  frozen := arises.frozen.trans (frozen_of_change allowed symbol)
  links link := by
    cases allowed with
    | @constraints constraints constrained =>
      have same : link.Same symbol { symbol with constraints } := by cases link <;> rfl
      rcases arises.links link with kept | ⟨entry, listed, keyed, is⟩
      · exact Or.inl (kept.trans same)
      · exact Or.inr ⟨entry, listed, keyed, is.of_same same⟩
    | linked listed keyed follows =>
      rcases (follows symbol).links link with same | is
      · rcases arises.links link with kept | ⟨entry, among, also, is⟩
        · exact Or.inl (kept.trans same)
        · exact Or.inr ⟨entry, among, also, is.of_same same⟩
      · exact Or.inr ⟨_, listed, keyed, is⟩
  constraints := by
    cases allowed with
    | constraints constrained => exact Or.inr constrained
    | linked listed keyed follows =>
      rw [(follows symbol).constraints]
      exact arises.constraints

theorem Fits.grows (grows : Grows before after) {method : MethodSymbol} (fits : Fits before method) : Fits after method where
  parameters parameter listed := by
    obtain ⟨key, ref, found, same⟩ := fits.parameters parameter listed
    exact ⟨key, ref, grows.ids key ref found, same⟩
  kinds := fits.kinds

theorem good_start (path : String) : Good host types { path } where
  arises := by simp
  entered := by simp
  earlier := by simp
  methods := by simp

namespace Good

variable (good : Good host types loading)
include good

theorem found {ref : TypeRef} (known : loading.ids.lookup key = some ref) :
    ∃ symbol, loading.table.types[ref]? = some symbol ∧ symbol.id.key? = some key := by
  obtain ⟨fresh, symbol, found, arises⟩ := good.arises key ref known
  exact ⟨symbol, found, by rw [arises.frozen.id, arises.origin.keyed]⟩

theorem inside {ref : TypeRef} (known : loading.ids.lookup key = some ref) : ref < loading.table.types.size := by
  obtain ⟨symbol, found, _⟩ := good.found known
  exact (Array.getElem?_eq_some_iff.mp found).1

theorem key_unique {other : Key} {ref : TypeRef} (known : loading.ids.lookup key = some ref)
    (also : loading.ids.lookup other = some ref) : key = other := by
  obtain ⟨symbol, found, keyed⟩ := good.found known
  obtain ⟨same, again, otherKeyed⟩ := good.found also
  cases found.symm.trans again
  exact Option.some.inj (keyed.symm.trans otherKeyed)

theorem lookup_of_found {ref : TypeRef} (found : loading.table.types[ref]? = some symbol) :
    ∃ key, symbol.id.key? = some key ∧ loading.ids.lookup key = some ref := by
  obtain ⟨key, known⟩ := good.entered ref (Array.getElem?_eq_some_iff.mp found).1
  obtain ⟨same, again, keyed⟩ := good.found known
  cases found.symm.trans again
  exact ⟨key, keyed, known⟩

theorem entered_step {symbol : TypeSymbol} (new : loading.ids.lookup key = none)
    (origin : Origin host types loading key symbol) : Good host types (loading.entered key symbol) := by
  have grows : Grows loading (loading.entered key symbol) := grows_of_step (.entered new origin)
  have pushed : (loading.entered key symbol).table.types[loading.table.types.size]? = some symbol := by
    rw [Loading.entered, Array.getElem?_push_size]
  have looked : (loading.entered key symbol).ids.lookup key = some loading.table.types.size := by
    rw [lookup_entered, new]
    simp
  have old {ref : TypeRef} (inside : ref < loading.table.types.size) :
      (loading.entered key symbol).table.types[ref]? = loading.table.types[ref]? := by
    rw [Loading.entered, Array.getElem?_push, if_neg (Nat.ne_of_lt inside)]
  have either {ref : TypeRef} {found : TypeSymbol}
      (listed : (loading.entered key symbol).table.types[ref]? = some found) :
      ref < loading.table.types.size ∨ ref = loading.table.types.size := by
    have bound := (Array.getElem?_eq_some_iff.mp listed).1
    rw [Loading.entered, Array.size_push] at bound
    exact Nat.lt_succ_iff_lt_or_eq.mp bound
  refine ⟨fun other ref found => ?_, fun ref bound => ?_, fun ref found listed definition defined => ?_,
    fun method listed => (good.methods method listed).grows grows⟩
  · cases before : loading.ids.lookup other with
    | some known =>
      cases (grows.ids other known before).symm.trans found
      obtain ⟨fresh, symbol, there, arises⟩ := good.arises other ref before
      exact ⟨fresh, symbol, (old (good.inside before)).trans there, arises.grows grows⟩
    | none =>
      rw [lookup_entered, before] at found
      by_cases same : other = key
      · subst same
        simp only [↓reduceIte, Option.none_or, Option.some.injEq] at found
        subst found
        exact ⟨symbol, symbol, pushed, origin.grows grows, .refl symbol, fun link => Or.inl (by cases link <;> rfl),
          Or.inl origin.constraints⟩
      · simp [same] at found
  · rw [Loading.entered, Array.size_push] at bound
    rcases Nat.lt_succ_iff_lt_or_eq.mp bound with before | rfl
    · obtain ⟨other, known⟩ := good.entered ref before
      exact ⟨other, grows.ids other ref known⟩
    · exact ⟨key, looked⟩
  · rcases either listed with before | rfl
    · exact good.earlier ref found ((old before).symm.trans listed) definition defined
    · cases pushed.symm.trans listed
      -- Only a closed generic has a definition, and it was there before.
      cases origin with
      | built within named present shaped =>
        cases shaped with
        | generic known filled =>
          cases defined
          cases known with
          | known named found present => exact good.inside found
        | _ => cases defined
      | _ => cases defined

theorem changed_step {ref : TypeRef} {change : TypeSymbol → TypeSymbol} (found : loading.ids.lookup key = some ref)
    (allowed : Change types loading key change) : Good host types (loading.changed ref change) := by
  have grows : Grows loading (loading.changed ref change) := grows_of_step (show Step host types loading _ from .changed found allowed)
  refine ⟨fun other place known => ?_, fun place bound => ?_, fun place symbol listed definition defined => ?_,
    fun method listed => (good.methods method listed).grows grows⟩
  · obtain ⟨fresh, symbol, there, arises⟩ := good.arises other place known
    by_cases same : ref = place
    · subst same
      cases good.key_unique found known
      refine ⟨fresh, change symbol, ?_, (arises.changed allowed).grows grows⟩
      rw [types_changed, if_pos rfl, there, Option.map_some]
    · refine ⟨fresh, symbol, ?_, arises.grows grows⟩
      rw [types_changed, if_neg same, there]
  · apply good.entered
    rwa [Loading.changed, Array.size_modify] at bound
  · rw [types_changed] at listed
    split at listed
    · obtain ⟨before, there, rfl⟩ := Option.map_eq_some_iff.mp listed
      rw [(frozen_of_change allowed before).definition] at defined
      exact good.earlier place before there definition defined
    · exact good.earlier place symbol listed definition defined

theorem step (step : Step host types loading after) : Good host types after := by
  have grows := grows_of_step step
  cases step with
  | entered new origin => exact good.entered_step new origin
  | changed found allowed => exact good.changed_step found allowed
  | counted =>
    exact ⟨fun key ref found => by
      obtain ⟨fresh, symbol, there, arises⟩ := good.arises key ref found
      exact ⟨fresh, symbol, there, arises.grows grows⟩, good.entered, good.earlier,
      fun method listed => (good.methods method listed).grows grows⟩
  | @joined symbol fits =>
    refine ⟨fun key ref found => ?_, good.entered, good.earlier, fun method listed => ?_⟩
    · obtain ⟨fresh, symbol, there, arises⟩ := good.arises key ref found
      exact ⟨fresh, symbol, there, arises.grows grows⟩
    · rw [Loading.joined, Array.toList_push] at listed
      rcases List.mem_append.mp listed with old | new
      · exact (good.methods method old).grows grows
      · cases List.mem_singleton.mp new
        exact fits.grows grows

theorem steps (steps : Steps host types loading after) : Good host types after := by
  induction steps with
  | refl => exact good
  | tail _ step ih => exact ih.step step

end Good

end Good

section Lasting

variable {host : Host} {types : List Document} {before after loading : Loading}

def Settled (loading : Loading) (entry : Document) (link : Link) : Prop :=
  ∃ key ref symbol, (entry.field "id").key? = some key ∧ loading.ids.lookup key = some ref
    ∧ loading.table.types[ref]? = some symbol ∧ link.Is loading entry symbol

/-- The constraints of a type parameter are those that it says, or those that another with its id says. Its own have
symbols as well. -/
def Met (types : List Document) (loading : Loading) (parameter : Document) : Prop :=
  (∃ links, Lists loading.ids (parameter.field "constraints") links)
    ∧ ∃ key ref symbol, (parameterId parameter).key? = some key ∧ loading.ids.lookup key = some ref
      ∧ loading.table.types[ref]? = some symbol ∧ Constrained types loading key symbol.constraints

def Apart (types : List Document) : Prop :=
  ∀ entry ∈ types, ∀ other ∈ types, ∀ key, (entry.field "id").key? = some key → (other.field "id").key? = some key →
    entry = other

/-- A step leaves a symbol as it is, or sets its links. -/
theorem symbol_step (step : Step host types before after) {ref : TypeRef} {symbol : TypeSymbol}
    (found : before.table.types[ref]? = some symbol) : after.table.types[ref]? = some symbol
      ∨ ∃ key change, before.ids.lookup key = some ref ∧ Change types before key change
        ∧ after.table.types[ref]? = some (change symbol) := by
  cases step with
  | entered new origin =>
    have inside := (Array.getElem?_eq_some_iff.mp found).1
    rw [Loading.entered, Array.getElem?_push, if_neg (Nat.ne_of_lt inside)]
    exact Or.inl found
  | joined fits => exact Or.inl found
  | counted => exact Or.inl found
  | @changed key place change known allowed =>
    rw [types_changed]
    split
    · next same =>
      subst same
      exact Or.inr ⟨key, change, known, allowed, by rw [found, Option.map_some]⟩
    · exact Or.inl found

theorem settled_step (good : Good host types before) (apart : Apart types) (step : Step host types before after)
    {entry : Document} (listed : entry ∈ types) {link : Link} (settled : Settled before entry link) :
    Settled after entry link := by
  obtain ⟨key, ref, symbol, keyed, known, found, is⟩ := settled
  have grows := grows_of_step step
  rcases symbol_step step found with same | ⟨other, change, also, allowed, later⟩
  · exact ⟨key, ref, symbol, keyed, grows.ids key ref known, same, is.grows grows⟩
  · obtain rfl := good.key_unique known also
    refine ⟨key, ref, change symbol, keyed, grows.ids key ref known, later, Link.Is.grows grows ?_⟩
    cases allowed with
    | constraints constrained => exact is.of_same (by cases link <;> rfl)
    | linked among otherKeyed follows =>
      obtain rfl := apart entry listed _ among key keyed otherKeyed
      exact ((follows symbol).links link).elim (fun same => is.of_same same) id

theorem met_step (good : Good host types before) (step : Step host types before after) {parameter : Document}
    (met : Met types before parameter) : Met types after parameter := by
  obtain ⟨⟨links, lists⟩, key, ref, symbol, keyed, known, found, constrained⟩ := met
  have grows := grows_of_step step
  rcases symbol_step step found with same | ⟨other, change, also, allowed, later⟩
  · exact ⟨⟨links, lists.grows grows⟩, key, ref, symbol, keyed, grows.ids key ref known, same, constrained.grows grows⟩
  · obtain rfl := good.key_unique known also
    refine ⟨⟨links, lists.grows grows⟩, key, ref, change symbol, keyed, grows.ids key ref known, later, Constrained.grows grows ?_⟩
    cases allowed with
    | constraints constrained => exact constrained
    | linked among otherKeyed follows =>
      rw [(follows symbol).constraints]
      exact constrained

theorem settled_steps (good : Good host types before) (apart : Apart types) (steps : Steps host types before after)
    {entry : Document} (listed : entry ∈ types) {link : Link} (settled : Settled before entry link) :
    Settled after entry link := by
  induction steps with
  | refl => exact settled
  | tail earlier step ih => exact settled_step (good.steps earlier) apart step listed ih

theorem met_steps (good : Good host types before) (steps : Steps host types before after) {parameter : Document}
    (met : Met types before parameter) : Met types after parameter := by
  induction steps with
  | refl => exact met
  | tail earlier step ih => exact met_step (good.steps earlier) step ih

end Lasting

end DeclGraph.Manifest
