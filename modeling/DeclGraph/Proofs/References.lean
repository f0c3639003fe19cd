import DeclGraph.Symbol.Traversal

/-!
What a declared type refers to, said without any visits or marks: the types that its head, its members
and its methods name, the same for every type nested in it, and all types that these are built from. The
visits that a walk can come to are then seen to be exactly these: a visit of a type is reached from a
declared type when the declared type refers to it.
-/

namespace DeclGraph.SymbolTable

section Relations

variable (table : SymbolTable)

/-- A type lies inside of a declared type: it is that type, or it is nested in one that does. -/
inductive Encloses (root : TypeRef) : TypeRef → Prop
  | self : Encloses root root
  | nested {outer inner : TypeRef} {symbol : TypeSymbol} (around : Encloses root outer)
      (found : table.types[outer]? = some symbol) (member : some (.nested inner) ∈ symbol.members) :
      Encloses root inner

def HasMember (root : TypeRef) (member : Member) : Prop :=
  ∃ type symbol, table.Encloses root type ∧ table.types[type]? = some symbol ∧ some member ∈ symbol.members

def Carries (reference : BodyReference) (inner : MethodRef) : Prop :=
  (ReferenceKind.ofValue? reference.kind = some .localFunction
    ∨ ReferenceKind.ofValue? reference.kind = some .lambda) ∧ reference.method = some inner

/-- A method of a declared type: a member, or a local function or lambda in the body of one. -/
inductive HasMethod (root : TypeRef) : MethodRef → Prop
  | member {method : MethodRef} (member : table.HasMember root (.method method)) : HasMethod root method
  | inner {method inner : MethodRef} {symbol : MethodSymbol} {reference : BodyReference}
      (outer : HasMethod root method) (found : table.methods[method]? = some symbol)
      (listed : reference ∈ symbol.body.getD []) (carried : Carries reference inner) : HasMethod root inner

def Constrains (parameter : Option TypeRef) (target : TypeRef) : Prop :=
  ∃ ref symbol, parameter = some ref ∧ table.types[ref]? = some symbol ∧ some target ∈ symbol.constraints

inductive HeadNames (symbol : TypeSymbol) : TypeRef → Prop
  | base {target : TypeRef} (named : symbol.base = some target) : HeadNames symbol target
  | interface {target : TypeRef} (named : some target ∈ symbol.interfaces) : HeadNames symbol target
  | constraint {parameter : Option TypeRef} {target : TypeRef} (listed : parameter ∈ symbol.typeParameters)
      (named : table.Constrains parameter target) : HeadNames symbol target
  | argument {target : TypeRef} (named : some target ∈ symbol.typeArguments) : HeadNames symbol target
  | marked {target : TypeRef} (named : some target ∈ symbol.attributes) : HeadNames symbol target

inductive MemberNames (symbol : MemberSymbol) : TypeRef → Prop
  | field {target : TypeRef} (shaped : symbol.shape = .field (some target)) : MemberNames symbol target
  | event {target : TypeRef} (shaped : symbol.shape = .event (some target)) : MemberNames symbol target
  | property {target : TypeRef} {parameters : List Parameter}
      (shaped : symbol.shape = .property (some target) parameters) : MemberNames symbol target
  | parameter {type : Option TypeRef} {parameters : List Parameter} {parameter : Parameter} {target : TypeRef}
      (shaped : symbol.shape = .property type parameters) (listed : parameter ∈ parameters)
      (named : parameter.type = some target) : MemberNames symbol target
  | marked {target : TypeRef} (named : some target ∈ symbol.attributes) : MemberNames symbol target

/-- The types that a method names. A lambda is named by its method, not by the type given with it. -/
inductive MethodNames (symbol : MethodSymbol) : TypeRef → Prop
  | result {target : TypeRef} (named : symbol.returnType = some target) : MethodNames symbol target
  | parameter {parameter : Parameter} {target : TypeRef} (listed : parameter ∈ symbol.parameters)
      (named : parameter.type = some target) : MethodNames symbol target
  | defaultValue {parameter : Parameter} {target : TypeRef} (listed : parameter ∈ symbol.parameters)
      (named : parameter.defaultType = some target) : MethodNames symbol target
  | constraint {parameter : Option TypeRef} {target : TypeRef} (listed : parameter ∈ symbol.typeParameters)
      (named : table.Constrains parameter target) : MethodNames symbol target
  | body {reference : BodyReference} {kind : ReferenceKind} {target : TypeRef}
      (listed : reference ∈ symbol.body.getD []) (known : ReferenceKind.ofValue? reference.kind = some kind)
      (kept : kind ≠ .lambda) (named : reference.type = some target) : MethodNames symbol target

/-- The types that a type is built from. -/
inductive BuiltFrom (symbol : TypeSymbol) : TypeRef → Prop
  | argument {target : TypeRef} (named : some target ∈ symbol.typeArguments) : BuiltFrom symbol target
  | element {target : TypeRef} (named : symbol.element = some target) : BuiltFrom symbol target
  | tuple {target : TypeRef} (named : some target ∈ symbol.tupleElements) : BuiltFrom symbol target
  | result {ref : MethodRef} {method : MethodSymbol} {target : TypeRef} (signed : symbol.signature = some ref)
      (found : table.methods[ref]? = some method) (named : method.returnType = some target) :
      BuiltFrom symbol target
  | parameter {ref : MethodRef} {method : MethodSymbol} {parameter : Parameter} {target : TypeRef}
      (signed : symbol.signature = some ref) (found : table.methods[ref]? = some method)
      (listed : parameter ∈ method.parameters) (named : parameter.type = some target) : BuiltFrom symbol target

/-- The types that a declared type refers to. Nothing is unwrapped from a type parameter. -/
inductive Refers (root : TypeRef) : TypeRef → Prop
  | head {type target : TypeRef} {symbol : TypeSymbol} (inside : table.Encloses root type)
      (found : table.types[type]? = some symbol) (named : table.HeadNames symbol target) : Refers root target
  | member {symbol : MemberSymbol} {target : TypeRef} (member : table.HasMember root (.plain symbol))
      (named : MemberNames symbol target) : Refers root target
  | methodMarked {method : MethodRef} {symbol : MethodSymbol} {target : TypeRef}
      (member : table.HasMember root (.method method)) (found : table.methods[method]? = some symbol)
      (named : some target ∈ symbol.attributes) : Refers root target
  | method {method : MethodRef} {symbol : MethodSymbol} {target : TypeRef} (has : table.HasMethod root method)
      (found : table.methods[method]? = some symbol) (named : table.MethodNames symbol target) :
      Refers root target
  | part {type target : TypeRef} {symbol : TypeSymbol} (whole : Refers root type)
      (found : table.types[type]? = some symbol) (unwrapped : symbol.kind ≠ .typeParameter)
      (built : table.BuiltFrom symbol target) : Refers root target

/-- The visits that a walk over an agenda can come to, if it is never cut short. -/
inductive Reaches (agenda : List Visit) : Visit → Prop
  | start {visit : Visit} (listed : visit ∈ agenda) : Reaches agenda visit
  | step {visit next : Visit} (before : Reaches agenda visit) (listed : next ∈ table.partsOf visit) :
      Reaches agenda next

end Relations

section Parts

variable {table : SymbolTable}

theorem mem_visitType {ref : Option TypeRef} {visit : Visit} :
    visit ∈ visitType ref ↔ ∃ target, ref = some target ∧ visit = .type target := by
  cases ref <;> simp [visitType]

theorem mem_flatMap_visitType {refs : List (Option TypeRef)} {visit : Visit} :
    visit ∈ refs.flatMap visitType ↔ ∃ target, some target ∈ refs ∧ visit = .type target := by
  simp only [List.mem_flatMap, mem_visitType]
  constructor
  · rintro ⟨_, listed, target, rfl, rfl⟩
    exact ⟨target, listed, rfl⟩
  · rintro ⟨target, listed, rfl⟩
    exact ⟨_, listed, target, rfl, rfl⟩

theorem mem_visitMethod {ref : Option MethodRef} {visit : Visit} :
    visit ∈ visitMethod ref ↔ ∃ target, ref = some target ∧ visit = .method target := by
  cases ref <;> simp [visitMethod]

/-- The table is what the symbols promise to be: ids are texts, a file is a text or absent, type
parameters are there, and body references are of a known kind. -/
structure WellTyped (table : SymbolTable) : Prop where
  typeIds : ∀ symbol ∈ table.types.toList, symbol.id.text?.isSome = true
  methodIds : ∀ symbol ∈ table.methods.toList, symbol.id.text?.isSome = true
  memberIds : ∀ symbol ∈ table.types.toList, ∀ member, some (.plain member) ∈ symbol.members →
    member.id.text?.isSome = true
  files : ∀ symbol ∈ table.types.toList, symbol.file.isNull = true ∨ symbol.file.text?.isSome = true
  typeParameters : ∀ symbol ∈ table.types.toList, ∀ parameter ∈ symbol.typeParameters,
    (parameter.bind fun ref => table.types[ref]?).isSome = true
  methodParameters : ∀ symbol ∈ table.methods.toList, ∀ parameter ∈ symbol.typeParameters,
    (parameter.bind fun ref => table.types[ref]?).isSome = true
  kinds : ∀ symbol ∈ table.methods.toList, ∀ reference ∈ symbol.body.getD [],
    (ReferenceKind.ofValue? reference.kind).isSome = true

/-- Type parameters stand in the table, and bodies hold references of known kinds. -/
structure Linked (table : SymbolTable) : Prop where
  typeParameters : ∀ symbol ∈ table.types.toList, ∀ parameter ∈ symbol.typeParameters,
    (parameter.bind fun ref => table.types[ref]?).isSome = true
  methodParameters : ∀ symbol ∈ table.methods.toList, ∀ parameter ∈ symbol.typeParameters,
    (parameter.bind fun ref => table.types[ref]?).isSome = true
  kinds : ∀ symbol ∈ table.methods.toList, ∀ reference ∈ symbol.body.getD [],
    (ReferenceKind.ofValue? reference.kind).isSome = true

theorem WellTyped.linked (typed : table.WellTyped) : table.Linked :=
  ⟨typed.typeParameters, typed.methodParameters, typed.kinds⟩

theorem mem_types {ref : TypeRef} {symbol : TypeSymbol} (found : table.types[ref]? = some symbol) :
    symbol ∈ table.types.toList := Array.mem_toList_iff.mpr (Array.mem_of_getElem? found)

theorem mem_methods {ref : MethodRef} {symbol : MethodSymbol} (found : table.methods[ref]? = some symbol) :
    symbol ∈ table.methods.toList := Array.mem_toList_iff.mpr (Array.mem_of_getElem? found)

theorem mem_visitConstraints {parameter : Option TypeRef}
    (present : (parameter.bind fun ref => table.types[ref]?).isSome = true) {visit : Visit} :
    visit ∈ table.visitConstraints parameter ↔
      ∃ target, table.Constrains parameter target ∧ visit = .type target := by
  obtain ⟨symbol, opened⟩ := Option.isSome_iff_exists.mp present
  obtain ⟨ref, rfl, found⟩ := Option.bind_eq_some_iff.mp opened
  have visits : table.visitConstraints (some ref) = symbol.constraints.flatMap visitType := by
    simp [visitConstraints, found]
  rw [visits, mem_flatMap_visitType]
  constructor
  · rintro ⟨target, listed, rfl⟩
    exact ⟨target, ⟨ref, symbol, rfl, found, listed⟩, rfl⟩
  · rintro ⟨target, ⟨other, otherSymbol, same, otherFound, listed⟩, rfl⟩
    cases same
    cases found.symm.trans otherFound
    exact ⟨target, listed, rfl⟩

theorem mem_flatMap_visitConstraints {parameters : List (Option TypeRef)}
    (present : ∀ parameter ∈ parameters, (parameter.bind fun ref => table.types[ref]?).isSome = true)
    {visit : Visit} :
    visit ∈ parameters.flatMap table.visitConstraints ↔
      ∃ parameter ∈ parameters, ∃ target, table.Constrains parameter target ∧ visit = .type target := by
  rw [List.mem_flatMap]
  constructor
  · rintro ⟨parameter, listed, inside⟩
    exact ⟨parameter, listed, (mem_visitConstraints (present parameter listed)).mp inside⟩
  · rintro ⟨parameter, listed, named⟩
    exact ⟨parameter, listed, (mem_visitConstraints (present parameter listed)).mpr named⟩

def visitOf : Member → Visit
  | .plain symbol => .member symbol
  | .method ref => .memberMethod ref
  | .nested ref => .root ref

theorem mem_visitMember {member : Option Member} {visit : Visit} :
    visit ∈ visitMember member ↔ ∃ given, member = some given ∧ visit = visitOf given := by
  rcases member with _ | (_ | _ | _) <;> simp [visitMember, visitOf]

theorem mem_rootParts (linked : table.Linked) {ref : TypeRef} {symbol : TypeSymbol}
    (found : table.types[ref]? = some symbol) {visit : Visit} :
    visit ∈ table.rootParts symbol ↔ (∃ target, table.HeadNames symbol target ∧ visit = .type target)
      ∨ ∃ member, some member ∈ symbol.members ∧ visit = visitOf member := by
  have parameters := linked.typeParameters symbol (mem_types found)
  have members : visit ∈ symbol.members.flatMap visitMember ↔
      ∃ member, some member ∈ symbol.members ∧ visit = visitOf member := by
    simp only [List.mem_flatMap, mem_visitMember]
    constructor
    · rintro ⟨_, listed, member, rfl, rfl⟩
      exact ⟨member, listed, rfl⟩
    · rintro ⟨member, listed, rfl⟩
      exact ⟨_, listed, member, rfl, rfl⟩
  simp only [rootParts, List.mem_append, mem_visitType, mem_flatMap_visitType,
    mem_flatMap_visitConstraints parameters, members]
  constructor
  · rintro (((((⟨target, named, rfl⟩ | ⟨target, named, rfl⟩) | ⟨parameter, listed, target, named, rfl⟩)
      | ⟨target, named, rfl⟩) | inside) | ⟨target, named, rfl⟩)
    · exact Or.inl ⟨target, .base named, rfl⟩
    · exact Or.inl ⟨target, .interface named, rfl⟩
    · exact Or.inl ⟨target, .constraint listed named, rfl⟩
    · exact Or.inl ⟨target, .argument named, rfl⟩
    · exact Or.inr inside
    · exact Or.inl ⟨target, .marked named, rfl⟩
  · rintro (⟨target, named, rfl⟩ | inside)
    · cases named with
      | base named => exact Or.inl (Or.inl (Or.inl (Or.inl (Or.inl ⟨target, named, rfl⟩))))
      | interface named => exact Or.inl (Or.inl (Or.inl (Or.inl (Or.inr ⟨target, named, rfl⟩))))
      | constraint listed named =>
        exact Or.inl (Or.inl (Or.inl (Or.inr ⟨_, listed, target, named, rfl⟩)))
      | argument named => exact Or.inl (Or.inl (Or.inr ⟨target, named, rfl⟩))
      | marked named => exact Or.inr ⟨target, named, rfl⟩
    · exact Or.inl (Or.inr inside)

theorem mem_memberParts {symbol : MemberSymbol} {visit : Visit} :
    visit ∈ memberParts symbol ↔ ∃ target, MemberNames symbol target ∧ visit = .type target := by
  rw [memberParts, List.mem_append, mem_flatMap_visitType]
  constructor
  · rintro (shape | ⟨target, named, rfl⟩)
    · split at shape
      next type shaped =>
        obtain ⟨target, rfl, rfl⟩ := mem_visitType.mp shape
        exact ⟨target, .field shaped, rfl⟩
      next type shaped =>
        obtain ⟨target, rfl, rfl⟩ := mem_visitType.mp shape
        exact ⟨target, .event shaped, rfl⟩
      next type parameters shaped =>
        rcases List.mem_append.mp shape with own | among
        · obtain ⟨target, rfl, rfl⟩ := mem_visitType.mp own
          exact ⟨target, .property shaped, rfl⟩
        · obtain ⟨parameter, listed, inside⟩ := List.mem_flatMap.mp among
          obtain ⟨target, named, rfl⟩ := mem_visitType.mp inside
          exact ⟨target, .parameter shaped listed named, rfl⟩
      next => cases shape
    · exact ⟨target, .marked named, rfl⟩
  · rintro ⟨target, named, rfl⟩
    cases named with
    | field shaped => exact Or.inl (by simp [shaped, visitType])
    | event shaped => exact Or.inl (by simp [shaped, visitType])
    | property shaped => exact Or.inl (by simp [shaped, visitType])
    | parameter shaped listed named =>
      refine Or.inl ?_
      rw [shaped]
      exact List.mem_append_right _ (List.mem_flatMap.mpr ⟨_, listed, mem_visitType.mpr ⟨target, named, rfl⟩⟩)
    | marked named => exact Or.inr ⟨target, named, rfl⟩

theorem mem_referenceParts {reference : BodyReference} {kind : ReferenceKind}
    (known : ReferenceKind.ofValue? reference.kind = some kind) {visit : Visit} :
    visit ∈ referenceParts reference ↔
      (kind ≠ .lambda ∧ ∃ target, reference.type = some target ∧ visit = .type target)
        ∨ ∃ inner, Carries reference inner ∧ visit = .method inner := by
  -- A known kind is spelled by a text, so the reference passes the test of its kind.
  have text : ∃ word, reference.kind = .text word := by
    have named := List.find?_some known
    simp only [decide_eq_true_eq] at named
    cases given : reference.kind with
    | scalar value => cases value <;> simp_all [Document.text?]
    | _ => simp [given, Document.text?] at named
  obtain ⟨word, given⟩ := text
  have keyed : reference.kind.key? = some (.text word) := by rw [given]; rfl
  rw [referenceParts, keyed, known]
  cases kind <;> simp [Carries, known, mem_visitType, mem_visitMethod, or_comm]

theorem mem_methodParts (linked : table.Linked) {ref : MethodRef} {symbol : MethodSymbol}
    (found : table.methods[ref]? = some symbol) {visit : Visit} :
    visit ∈ table.methodParts symbol ↔ (∃ target, table.MethodNames symbol target ∧ visit = .type target)
      ∨ ∃ reference ∈ symbol.body.getD [], ∃ inner, Carries reference inner ∧ visit = .method inner := by
  have parameters := linked.methodParameters symbol (mem_methods found)
  have kinds := linked.kinds symbol (mem_methods found)
  simp only [methodParts, List.mem_append, mem_visitType, mem_flatMap_visitConstraints parameters,
    List.mem_flatMap]
  constructor
  · rintro (((⟨target, named, rfl⟩ | ⟨parameter, listed, ⟨target, named, rfl⟩ | ⟨target, named, rfl⟩⟩)
      | ⟨parameter, listed, target, named, rfl⟩) | ⟨reference, listed, inside⟩)
    · exact Or.inl ⟨target, .result named, rfl⟩
    · exact Or.inl ⟨target, .parameter listed named, rfl⟩
    · exact Or.inl ⟨target, .defaultValue listed named, rfl⟩
    · exact Or.inl ⟨target, .constraint listed named, rfl⟩
    · obtain ⟨kind, known⟩ := Option.isSome_iff_exists.mp (kinds reference listed)
      rcases (mem_referenceParts known).mp inside with ⟨kept, target, named, rfl⟩ | carried
      · exact Or.inl ⟨target, .body listed known kept named, rfl⟩
      · exact Or.inr ⟨reference, listed, carried⟩
  · rintro (⟨target, named, rfl⟩ | ⟨reference, listed, carried⟩)
    · cases named with
      | result named => exact Or.inl (Or.inl (Or.inl ⟨target, named, rfl⟩))
      | parameter listed named => exact Or.inl (Or.inl (Or.inr ⟨_, listed, Or.inl ⟨target, named, rfl⟩⟩))
      | defaultValue listed named => exact Or.inl (Or.inl (Or.inr ⟨_, listed, Or.inr ⟨target, named, rfl⟩⟩))
      | constraint listed named => exact Or.inl (Or.inr ⟨_, listed, target, named, rfl⟩)
      | body listed known kept named =>
        exact Or.inr ⟨_, listed, (mem_referenceParts known).mpr (Or.inl ⟨kept, target, named, rfl⟩)⟩
    · obtain ⟨kind, known⟩ := Option.isSome_iff_exists.mp (kinds reference listed)
      exact Or.inr ⟨reference, listed, (mem_referenceParts known).mpr (Or.inr carried)⟩

theorem mem_signatureParts {signature : Option MethodRef} {visit : Visit} :
    visit ∈ table.signatureParts signature ↔ ∃ ref method, signature = some ref
      ∧ table.methods[ref]? = some method ∧ ∃ target, visit = .type target
        ∧ (method.returnType = some target ∨ ∃ parameter ∈ method.parameters, parameter.type = some target) := by
  unfold signatureParts
  split
  next missing =>
    constructor
    · exact fun none => nomatch none
    · rintro ⟨ref, method, rfl, found, _⟩
      simp [found] at missing
  next method opened =>
    obtain ⟨ref, rfl, found⟩ := Option.bind_eq_some_iff.mp opened
    rw [List.mem_append, mem_visitType, List.mem_flatMap]
    constructor
    · rintro (⟨target, named, rfl⟩ | ⟨parameter, listed, inside⟩)
      · exact ⟨ref, method, rfl, found, target, rfl, Or.inl named⟩
      · obtain ⟨target, named, rfl⟩ := mem_visitType.mp inside
        exact ⟨ref, method, rfl, found, target, rfl, Or.inr ⟨parameter, listed, named⟩⟩
    · rintro ⟨other, otherMethod, same, otherFound, target, rfl, named⟩
      cases same
      cases found.symm.trans otherFound
      rcases named with named | ⟨parameter, listed, named⟩
      · exact Or.inl ⟨target, named, rfl⟩
      · exact Or.inr ⟨parameter, listed, mem_visitType.mpr ⟨target, named, rfl⟩⟩

theorem mem_typeParts {symbol : TypeSymbol} {visit : Visit} :
    visit ∈ table.typeParts symbol ↔
      symbol.kind ≠ .typeParameter ∧ ∃ target, table.BuiltFrom symbol target ∧ visit = .type target := by
  by_cases parameter : symbol.kind = .typeParameter
  · simp [typeParts, parameter]
  · simp only [typeParts, if_neg parameter, List.mem_append, mem_visitType, mem_flatMap_visitType,
      mem_signatureParts]
    constructor
    · rintro (((⟨target, named, rfl⟩ | ⟨target, named, rfl⟩) | ⟨target, named, rfl⟩)
        | ⟨ref, method, signed, found, target, rfl, named | ⟨parameter, listed, named⟩⟩)
      · exact ⟨parameter, target, .argument named, rfl⟩
      · exact ⟨parameter, target, .element named, rfl⟩
      · exact ⟨parameter, target, .tuple named, rfl⟩
      · exact ⟨parameter, target, .result signed found named, rfl⟩
      · exact ⟨‹_›, target, .parameter signed found listed named, rfl⟩
    · rintro ⟨_, target, named, rfl⟩
      cases named with
      | argument named => exact Or.inl (Or.inl (Or.inl ⟨target, named, rfl⟩))
      | element named => exact Or.inl (Or.inl (Or.inr ⟨target, named, rfl⟩))
      | tuple named => exact Or.inl (Or.inr ⟨target, named, rfl⟩)
      | result signed found named => exact Or.inr ⟨_, _, signed, found, target, rfl, Or.inl named⟩
      | parameter signed found listed named =>
        exact Or.inr ⟨_, _, signed, found, target, rfl, Or.inr ⟨_, listed, named⟩⟩

end Parts

section Visits

variable {table : SymbolTable} {root : TypeRef}

/-- What it means for a declared type that a walk comes to a visit. -/
def Describes (table : SymbolTable) (root : TypeRef) : Visit → Prop
  | .root type => table.Encloses root type
  | .member symbol => table.HasMember root (.plain symbol)
  | .memberMethod method => table.HasMember root (.method method)
  | .method method => table.HasMethod root method
  | .type target => table.Refers root target
  | .fail _ => False

theorem mem_partsOf_root {ref : TypeRef} {next : Visit} :
    next ∈ table.partsOf (.root ref) ↔
      ∃ symbol, table.types[ref]? = some symbol ∧ next ∈ table.rootParts symbol := by
  cases found : table.types[ref]? <;> simp [partsOf, found]

theorem mem_partsOf_memberMethod {ref : MethodRef} {next : Visit} :
    next ∈ table.partsOf (.memberMethod ref) ↔ ∃ symbol, table.methods[ref]? = some symbol
      ∧ (next = .method ref ∨ ∃ target, some target ∈ symbol.attributes ∧ next = .type target) := by
  cases found : table.methods[ref]? <;>
    simp only [partsOf, found, Option.map_none, Option.map_some, Option.getD_none, Option.getD_some,
      List.not_mem_nil, List.mem_cons, mem_flatMap_visitType] <;> simp

theorem mem_partsOf_method {ref : MethodRef} {next : Visit} :
    next ∈ table.partsOf (.method ref) ↔
      ∃ symbol, table.methods[ref]? = some symbol ∧ next ∈ table.methodParts symbol := by
  cases found : table.methods[ref]? <;> simp [partsOf, found]

theorem mem_partsOf_type {ref : TypeRef} {next : Visit} :
    next ∈ table.partsOf (.type ref) ↔
      ∃ symbol, table.types[ref]? = some symbol ∧ next ∈ table.typeParts symbol := by
  cases found : table.types[ref]? <;> simp [partsOf, found]

theorem describes_step (linked : table.Linked) {visit next : Visit} (described : table.Describes root visit)
    (listed : next ∈ table.partsOf visit) : table.Describes root next := by
  cases visit with
  | root ref =>
    obtain ⟨symbol, found, inside⟩ := mem_partsOf_root.mp listed
    rcases (mem_rootParts linked found).mp inside with ⟨target, named, rfl⟩ | ⟨member, among, rfl⟩
    · exact Refers.head described found named
    · cases member with
      | plain member => exact ⟨ref, symbol, described, found, among⟩
      | method method => exact ⟨ref, symbol, described, found, among⟩
      | nested inner => exact Encloses.nested described found among
  | member symbol =>
    obtain ⟨target, named, rfl⟩ := mem_memberParts.mp listed
    exact Refers.member described named
  | memberMethod ref =>
    obtain ⟨symbol, found, rfl | ⟨target, named, rfl⟩⟩ := mem_partsOf_memberMethod.mp listed
    · exact HasMethod.member described
    · exact Refers.methodMarked described found named
  | method ref =>
    obtain ⟨symbol, found, inside⟩ := mem_partsOf_method.mp listed
    rcases (mem_methodParts linked found).mp inside with ⟨target, named, rfl⟩ | ⟨reference, among, inner, carried, rfl⟩
    · exact Refers.method described found named
    · exact HasMethod.inner described found among carried
  | type ref =>
    obtain ⟨symbol, found, inside⟩ := mem_partsOf_type.mp listed
    obtain ⟨unwrapped, target, built, rfl⟩ := mem_typeParts.mp inside
    exact Refers.part described found unwrapped built
  | fail fault => cases listed

theorem describes_of_reaches (linked : table.Linked) {visit : Visit}
    (reached : table.Reaches [.root root] visit) : table.Describes root visit := by
  induction reached with
  | start listed =>
    cases List.mem_singleton.mp listed
    exact Encloses.self
  | step _ listed ih => exact describes_step linked ih listed

theorem reaches_of_encloses (linked : table.Linked) {type : TypeRef} (inside : table.Encloses root type) :
    table.Reaches [.root root] (.root type) := by
  induction inside with
  | self => exact .start List.mem_cons_self
  | nested _ found member ih =>
    refine .step ih (mem_partsOf_root.mpr ⟨_, found, ?_⟩)
    exact (mem_rootParts linked found).mpr (Or.inr ⟨_, member, rfl⟩)

theorem reaches_of_hasMember (linked : table.Linked) {member : Member} (has : table.HasMember root member) :
    table.Reaches [.root root] (visitOf member) := by
  obtain ⟨type, symbol, inside, found, listed⟩ := has
  refine .step (reaches_of_encloses linked inside) (mem_partsOf_root.mpr ⟨symbol, found, ?_⟩)
  exact (mem_rootParts linked found).mpr (Or.inr ⟨member, listed, rfl⟩)

theorem reaches_of_hasMethod (linked : table.Linked) {method : MethodRef} {symbol : MethodSymbol}
    (has : table.HasMethod root method) (found : table.methods[method]? = some symbol) :
    table.Reaches [.root root] (.method method) := by
  induction has generalizing symbol with
  | member member =>
    exact .step (reaches_of_hasMember linked member)
      (mem_partsOf_memberMethod.mpr ⟨symbol, found, Or.inl rfl⟩)
  | inner _ outerFound listed carried ih =>
    refine .step (ih outerFound) (mem_partsOf_method.mpr ⟨_, outerFound, ?_⟩)
    exact (mem_methodParts linked outerFound).mpr (Or.inr ⟨_, listed, _, carried, rfl⟩)

theorem reaches_of_refers (linked : table.Linked) {target : TypeRef} (refers : table.Refers root target) :
    table.Reaches [.root root] (.type target) := by
  induction refers with
  | head inside found named =>
    refine .step (reaches_of_encloses linked inside) (mem_partsOf_root.mpr ⟨_, found, ?_⟩)
    exact (mem_rootParts linked found).mpr (Or.inl ⟨_, named, rfl⟩)
  | member member named =>
    exact .step (reaches_of_hasMember linked member) (mem_memberParts.mpr ⟨_, named, rfl⟩)
  | methodMarked member found named =>
    exact .step (reaches_of_hasMember linked member)
      (mem_partsOf_memberMethod.mpr ⟨_, found, Or.inr ⟨_, named, rfl⟩⟩)
  | method has found named =>
    refine .step (reaches_of_hasMethod linked has found) (mem_partsOf_method.mpr ⟨_, found, ?_⟩)
    exact (mem_methodParts linked found).mpr (Or.inl ⟨_, named, rfl⟩)
  | part _ found unwrapped built ih =>
    refine .step ih (mem_partsOf_type.mpr ⟨_, found, ?_⟩)
    exact mem_typeParts.mpr ⟨unwrapped, _, built, rfl⟩

/-- A walk comes to the visit of a type exactly when the declared type refers to it. -/
theorem reaches_type_iff (linked : table.Linked) {target : TypeRef} :
    table.Reaches [.root root] (.type target) ↔ table.Refers root target :=
  ⟨describes_of_reaches linked, reaches_of_refers linked⟩

end Visits

end DeclGraph.SymbolTable
