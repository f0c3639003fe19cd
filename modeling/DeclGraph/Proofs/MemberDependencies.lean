import DeclGraph.Proofs.ManifestBuilds

/-!
Every member of a manifest type counts, as long as it has an id of its own: the file of each type that a field, an
event, a property or a method names is among the dependencies of the type. A member whose id another member has can be
passed over.
-/

namespace DeclGraph

theorem index_eq_of_nodup_filterMap {α β : Type} {f : α → Option β} {list : List α} (distinct : (list.filterMap f).Nodup)
    {i j : Nat} {a b : α} {value : β} (first : list[i]? = some a) (second : list[j]? = some b) (here : f a = some value)
    (there : f b = some value) : i = j := by
  have apart := List.pairwise_iff_getElem.mp (List.pairwise_filterMap.mp distinct)
  obtain ⟨iLt, rfl⟩ := List.getElem?_eq_some_iff.mp first
  obtain ⟨jLt, rfl⟩ := List.getElem?_eq_some_iff.mp second
  rcases Nat.lt_trichotomy i j with before | same | after
  · exact absurd rfl (apart i j iLt jLt before value here value there)
  · exact same
  · exact absurd rfl (apart j i jLt iLt after value there value here)

namespace SymbolTable

section Sharing

variable {table : SymbolTable} {root : TypeRef}

def memberId? (table : SymbolTable) : Member → Option Document
  | .plain symbol => some symbol.id
  | .method ref => (table.methods[ref]?).map (·.id)
  | .nested _ => none

/-- Of the members of a declared type and of the types in it, one at most has this id, and so has one at most of the
methods. -/
structure Unshared (table : SymbolTable) (root : TypeRef) (key : Key) : Prop where
  members : ∀ member other, table.HasMember root member → table.HasMember root other →
    (table.memberId? member).bind Document.key? = some key → (table.memberId? other).bind Document.key? = some key →
    member = other
  methods : ∀ method other, table.HasMethod root method → table.HasMethod root other →
    ((table.methods[method]?).map (·.id)).bind Document.key? = some key →
    ((table.methods[other]?).map (·.id)).bind Document.key? = some key → method = other

def TypesApart (table : SymbolTable) : Prop :=
  ∀ (ref other : TypeRef) (symbol otherSymbol : TypeSymbol), table.types[ref]? = some symbol →
    table.types[other]? = some otherSymbol → symbol.id.key? = otherSymbol.id.key? → ref = other

/-- A member names a type: as its own, as what it gives or as what it takes. -/
inductive Names (table : SymbolTable) (target : TypeRef) : Member → Prop
  | plain {symbol : MemberSymbol} (named : MemberNames symbol target) : Names table target (.plain symbol)
  | method {ref : MethodRef} {symbol : MethodSymbol} (found : table.methods[ref]? = some symbol)
      (named : table.MethodNames symbol target) : Names table target (.method ref)

def memberKeys (table : SymbolTable) : List Key :=
  (table.types.toList.flatMap fun symbol => symbol.members.filterMap id).filterMap fun member =>
    (table.memberId? member).bind Document.key?

def methodKeys (table : SymbolTable) : List Key := table.methods.toList.filterMap fun symbol => symbol.id.key?

theorem unshared_of_nodup (members : table.memberKeys.Nodup) (methods : table.methodKeys.Nodup) (key : Key) :
    table.Unshared root key where
  members member other has also keyed otherKeyed := by
    have listed {member : Member} (has : table.HasMember root member) :
        member ∈ table.types.toList.flatMap fun symbol => symbol.members.filterMap id := by
      obtain ⟨_, symbol, _, found, inside⟩ := has
      exact List.mem_flatMap.mpr ⟨symbol, mem_types found, List.mem_filterMap.mpr ⟨_, inside, rfl⟩⟩
    obtain ⟨place, there⟩ := List.mem_iff_getElem?.mp (listed has)
    obtain ⟨otherPlace, otherThere⟩ := List.mem_iff_getElem?.mp (listed also)
    have same := index_eq_of_nodup_filterMap members there otherThere keyed otherKeyed
    exact Option.some.inj (there.symm.trans (same ▸ otherThere))
  methods method other _ _ keyed otherKeyed := by
    obtain ⟨id, stored, keyed⟩ := Option.bind_eq_some_iff.mp keyed
    obtain ⟨symbol, found, rfl⟩ := Option.map_eq_some_iff.mp stored
    obtain ⟨otherId, otherStored, otherKeyed⟩ := Option.bind_eq_some_iff.mp otherKeyed
    obtain ⟨otherSymbol, otherFound, rfl⟩ := Option.map_eq_some_iff.mp otherStored
    rw [← Array.getElem?_toList] at found otherFound
    exact index_eq_of_nodup_filterMap methods found otherFound keyed otherKeyed

theorem alone_of_typed (walkable : table.Walkable) (apart : table.TypesApart) {ref : TypeRef} {symbol : TypeSymbol}
    (found : table.types[ref]? = some symbol) {visit : Visit} (typed : visit = .type ref ∨ visit = .root ref) :
    table.Alone root visit := by
  obtain ⟨key, keyed⟩ := Option.isSome_iff_exists.mp (walkable.typeIds symbol (mem_types found))
  have position {otherRef : TypeRef} {role : Role} {id : Document} (same : id.key? = some key)
      (given : (table.types[otherRef]?).map (fun symbol => (role, symbol.id)) = some (role, id)) : otherRef = ref := by
    obtain ⟨otherSymbol, also, given⟩ := Option.map_eq_some_iff.mp given
    cases given
    exact (apart ref otherRef symbol otherSymbol found also (keyed.trans same.symm)).symm
  intro other _ same
  -- The role tells a visit of a type from all others but the visits of types in the same role.
  rcases typed with rfl | rfl
  · have marked : table.mark? (.type ref) = some (.type, key) := mark?_eq_some.mpr ⟨symbol.id, by simp [markOf, found], keyed⟩
    obtain ⟨id, given, keyed⟩ := mark?_eq_some.mp (same.trans marked)
    have roles := roleOf_markOf given
    cases other with
    | type otherRef => rw [position keyed given]
    | _ => cases roles
  · have marked : table.mark? (.root ref) = some (.root, key) := mark?_eq_some.mpr ⟨symbol.id, by simp [markOf, found], keyed⟩
    obtain ⟨id, given, keyed⟩ := mark?_eq_some.mp (same.trans marked)
    have roles := roleOf_markOf given
    cases other with
    | root otherRef => rw [position keyed given]
    | _ => cases roles

theorem member_of_mark (linked : table.Linked) {visit : Visit} (reached : table.Reaches [.root root] visit) {key : Key}
    (marked : table.mark? visit = some (.member, key)) :
    ∃ member, visit = visitOf member ∧ table.HasMember root member ∧ (table.memberId? member).bind Document.key? = some key := by
  have described := describes_of_reaches linked reached
  obtain ⟨id, given, keyed⟩ := mark?_eq_some.mp marked
  cases visit with
  | member symbol =>
    cases given
    exact ⟨.plain symbol, rfl, described, keyed⟩
  | memberMethod ref =>
    obtain ⟨symbol, found, same⟩ := Option.map_eq_some_iff.mp given
    cases same
    exact ⟨.method ref, rfl, described, by simpa [memberId?, found] using keyed⟩
  | fail fault => cases given
  | _ =>
    obtain ⟨_, _, same⟩ := Option.map_eq_some_iff.mp given
    cases same

theorem method_of_mark (linked : table.Linked) {visit : Visit} (reached : table.Reaches [.root root] visit) {key : Key}
    (marked : table.mark? visit = some (.method, key)) : ∃ method, visit = .method method ∧ table.HasMethod root method
      ∧ ((table.methods[method]?).map (·.id)).bind Document.key? = some key := by
  have described := describes_of_reaches linked reached
  obtain ⟨id, given, keyed⟩ := mark?_eq_some.mp marked
  cases visit with
  | method ref =>
    obtain ⟨symbol, found, same⟩ := Option.map_eq_some_iff.mp given
    cases same
    exact ⟨ref, rfl, described, by simpa [found] using keyed⟩
  | member symbol => cases given
  | fail fault => cases given
  | _ =>
    obtain ⟨_, _, same⟩ := Option.map_eq_some_iff.mp given
    cases same

theorem mark?_visitOf {member : Member} {key : Key} (keyed : (table.memberId? member).bind Document.key? = some key) :
    table.mark? (visitOf member) = some (.member, key) := by
  obtain ⟨id, given, keyed⟩ := Option.bind_eq_some_iff.mp keyed
  cases member with
  | plain symbol =>
    cases given
    exact mark?_eq_some.mpr ⟨symbol.id, rfl, keyed⟩
  | method ref =>
    obtain ⟨symbol, found, rfl⟩ := Option.map_eq_some_iff.mp given
    exact mark?_eq_some.mpr ⟨symbol.id, by simp [visitOf, markOf, found], keyed⟩
  | nested ref => cases given

/-- A member with an id of its own is expanded, and so is each type that it names. -/
theorem mem_dependencies_of_member (walkable : table.Walkable) (apart : table.TypesApart) {symbol : TypeSymbol}
    {member : Member} {key : Key} {target : TypeRef} {path : String} (found : table.types[root]? = some symbol)
    (listed : some member ∈ symbol.members) (keyed : (table.memberId? member).bind Document.key? = some key)
    (unshared : table.Unshared root key) (names : table.Names target member) (declared : table.DeclaredIn target path) :
    ∃ reported, table.dependencies root = .ok reported ∧ .text path ∈ reported := by
  obtain ⟨reported, expanded, ran, expands⟩ := dependencies_expands walkable root
  refine ⟨reported, ran, (expands.files path).mpr (Or.inr ⟨.type target, ?_, typeFile_eq_some.mpr declared⟩)⟩
  have linked := walkable.toLinked
  have has : table.HasMember root member := ⟨root, symbol, .self, found, listed⟩
  have whole : .root root ∈ expanded := mem_expanded_root walkable expands (alone_of_typed walkable apart found (Or.inr rfl)) (by simp [found])
  have marked := mark?_visitOf keyed
  have memberIn : visitOf member ∈ expanded := by
    apply mem_expanded_step walkable expands whole _ _ marked
    · exact mem_partsOf_root.mpr ⟨symbol, found, (mem_rootParts linked found).mpr (Or.inr ⟨member, listed, rfl⟩)⟩
    · intro other reached same
      obtain ⟨given, rfl, also, otherKeyed⟩ := member_of_mark linked reached (same.trans marked)
      rw [unshared.members given member also has otherKeyed keyed]
  -- A type that is declared in a file stands in the table.
  obtain ⟨targetSymbol, there⟩ : ∃ targetSymbol, table.types[target]? = some targetSymbol := by
    obtain ⟨external, asked, internal, _⟩ := declared
    by_contra missing
    rw [externality_of_missing (by simpa [Option.eq_none_iff_forall_ne_some] using missing)] at asked
    cases asked
    cases internal
  have targetAlone : table.Alone root (.type target) := alone_of_typed walkable apart there (Or.inl rfl)
  obtain ⟨targetKey, targetKeyed⟩ := Option.isSome_iff_exists.mp (walkable.typeIds targetSymbol (mem_types there))
  have targetMarked : table.mark? (.type target) = some (.type, targetKey) :=
    mark?_eq_some.mpr ⟨targetSymbol.id, by simp [markOf, there], targetKeyed⟩
  cases names with
  | @plain memberSymbol named =>
    exact mem_expanded_step walkable expands memberIn (mem_memberParts.mpr ⟨target, named, rfl⟩) targetAlone targetMarked
  | @method ref methodSymbol stored named =>
    have methodKeyed : ((table.methods[ref]?).map (·.id)).bind Document.key? = some key := keyed
    have methodMarked : table.mark? (.method ref) = some (.method, key) := by
      rw [stored] at methodKeyed
      exact mark?_eq_some.mpr ⟨methodSymbol.id, by simp [markOf, stored], methodKeyed⟩
    have methodIn : .method ref ∈ expanded := by
      apply mem_expanded_step walkable expands memberIn _ _ methodMarked
      · exact mem_partsOf_memberMethod.mpr ⟨methodSymbol, stored, Or.inl rfl⟩
      · intro other reached same
        obtain ⟨given, rfl, also, otherKeyed⟩ := method_of_mark linked reached (same.trans methodMarked)
        rw [unshared.methods given ref also (.member has) otherKeyed methodKeyed]
    apply mem_expanded_step walkable expands methodIn _ targetAlone targetMarked
    exact mem_partsOf_method.mpr ⟨methodSymbol, stored, (mem_methodParts linked stored).mpr (Or.inl ⟨target, named, rfl⟩)⟩

end Sharing

end SymbolTable

namespace Manifest

open Load

section Mentioning

variable {host : Host} {types : List Document} {loading : Loading}

def parameterType (parameter : Document) : Document :=
  match parameter.entries? with
  | some _ => parameter.field "type"
  | none => parameter

/-- A member of a manifest names a type by its id: as its own, as what it gives or as what it takes. -/
inductive Mentions (member : Document) (id : String) : Prop
  | type {kind : String} (given : (member.field "kind").text? = some kind) (typed : kind ∈ ["field", "event", "property"])
      (named : member.field "type" = .text id) : Mentions member id
  | result (given : (member.field "kind").text? = some "method") (named : member.field "return_type" = .text id) :
      Mentions member id
  | parameter {kind : String} {parameter : Document} (given : (member.field "kind").text? = some kind)
      (takes : kind ∈ ["property", "method"]) (listed : parameter ∈ looped (member.field "parameters"))
      (named : parameterType parameter = .text id) : Mentions member id

theorem stands_text {ids : Ids} {value : Document} {id : String} {link : Option TypeRef} {target : TypeRef}
    (named : value = .text id) (found : ids.lookup (.text id) = some target) (stands : Stands ids (.ofDocument value) link) :
    link = some target := by
  subst named
  cases stands with
  | known given also present =>
    cases given
    rw [← found, also]

theorem type_of_takes {ids : Ids} {entry : Document} {parameter : Parameter} {id : String} {target : TypeRef}
    (named : parameterType entry = .text id) (found : ids.lookup (.text id) = some target)
    (takes : Takes ids entry parameter) : parameter.type = some target := by
  unfold Takes at takes
  unfold parameterType at named
  split at takes
  · next entries mapping =>
    rw [mapping] at named
    exact stands_text named found takes.1
  · next single =>
    rw [single] at named
    exact stands_text named found takes.1

theorem names_of_mentions {depth index : Nat} {owner entry : Document} {member : Member} {id : String} {target : TypeRef}
    (is : MemberIs loading depth owner entry index member) (mentions : Mentions entry id)
    (found : loading.ids.lookup (.text id) = some target) : loading.table.Names target member := by
  have of_kind {kind other : String} (one : (entry.field "kind").text? = some kind)
      (two : (entry.field "kind").text? = some other) : kind = other := Option.some.inj (one.symm.trans two)
  cases is with
  | @field type _ _ kind typed _ =>
    cases mentions with
    | type given _ named => exact .plain (.field (by rw [stands_text named found typed]))
    | result given _ => exact absurd (of_kind kind given) (by decide)
    | parameter given takes _ _ => simp [← of_kind kind given] at takes
  | @event type _ _ kind typed _ =>
    cases mentions with
    | type given _ named => exact .plain (.event (by rw [stands_text named found typed]))
    | result given _ => exact absurd (of_kind kind given) (by decide)
    | parameter given takes _ _ => simp [← of_kind kind given] at takes
  | @property type _ parameters _ kind typed takes _ =>
    cases mentions with
    | type given _ named => exact .plain (.property (by rw [stands_text named found typed]))
    | result given _ => exact absurd (of_kind kind given) (by decide)
    | parameter given _ listed named =>
      obtain ⟨parameter, among, taken⟩ := exists_of_mem_left takes listed
      exact .plain (.parameter rfl among (type_of_takes named found taken))
  | @method ref kind is =>
    cases depth with
    | zero => exact False.elim is
    | succ depth =>
      obtain ⟨symbol, stored, looks⟩ := is
      cases mentions with
      | type given typed _ => simp [← of_kind kind given] at typed
      | result given named => exact .method stored (.result (stands_text named found looks.returnType))
      | parameter given _ listed named =>
        obtain ⟨parameter, among, taken⟩ := exists_of_mem_left looks.parameters listed
        exact .method stored (.parameter among (type_of_takes named found taken))
  | @nested ref kind _ _ =>
    cases mentions with
    | type given typed _ => simp [← of_kind kind given] at typed
    | result given _ => exact absurd (of_kind kind given) (by decide)
    | parameter given takes _ _ => simp [← of_kind kind given] at takes

theorem memberId?_of_is {depth index : Nat} {owner entry : Document} {member : Member} {id : String}
    (is : MemberIs loading depth owner entry index member) (mentions : Mentions entry id) :
    loading.table.memberId? member = some (memberIdOf owner entry index) := by
  cases is with
  | field kind typed marked => rfl
  | property kind typed takes marked => rfl
  | event kind typed marked => rfl
  | method kind is =>
    cases depth with
    | zero => exact False.elim is
    | succ depth =>
      obtain ⟨symbol, stored, looks⟩ := is
      rw [SymbolTable.memberId?, stored, Option.map_some, looks.id]
  | nested kind typed marked =>
    cases mentions with
    | type given typed _ => simp [← Option.some.inj (kind.symm.trans given)] at typed
    | result given _ => exact absurd (Option.some.inj (kind.symm.trans given)) (by decide)
    | parameter given takes _ _ => simp [← Option.some.inj (kind.symm.trans given)] at takes

end Mentioning

section Counting

variable {host : Host}

/-- A type of a manifest comes from the sources and is declared in a file that exists. -/
structure Lies (host : Host) (manifest : ManifestUnit) (tree : FileTree) (entry : Document) (file : String) : Prop where
  internal : (entry.field "external").isSet = false
  placed : placeOf? host manifest.path (entry.field "file") = some file
  there : tree.isFile file = true

/-- The id of a member is its own: no other member of the type or of one in it has it. -/
def OwnId (manifest : ManifestUnit) (entry member : Document) (index : Nat) : Prop :=
  ∀ owner root key, (entry.field "id").key? = some owner → manifest.ids.lookup owner = some root →
    (memberIdOf (entry.field "id") member index).key? = some key → manifest.table.Unshared root key

theorem key_of_listed {table : SymbolTable} {ref : TypeRef} {symbol : TypeSymbol} {member : Member} {id : Document}
    (nameable : Nameable table) (there : table.types[ref]? = some symbol) (listed : some member ∈ symbol.members)
    (given : table.memberId? member = some id) : ∃ key, id.key? = some key := by
  cases member with
  | plain found =>
    cases given
    exact Option.isSome_iff_exists.mp (nameable.members found ⟨symbol, SymbolTable.mem_types there, listed⟩)
  | method ref =>
    obtain ⟨method, stored, rfl⟩ := Option.map_eq_some_iff.mp given
    exact Option.isSome_iff_exists.mp (nameable.methods method (SymbolTable.mem_methods stored))
  | nested ref => cases given

theorem declaredSymbol_eq_ok {manifest : ManifestUnit} {loading : Loading} {entry declared : Document} {key : Key} {root : TypeRef}
    (ids : manifest.ids = loading.ids) (table : manifest.table = loading.table) (is : Declared host loading entry)
    (internal : (entry.field "external").isSet = false) (keyed : (entry.field "id").key? = some key)
    (found : loading.ids.lookup key = some root) (same : declared.key? = (entry.field "id").key?) :
    declaredSymbol manifest declared = .ok (some root) := by
  obtain ⟨other, ref, name, file, symbol, otherKeyed, _, looked, there, frozen⟩ := is
  cases keyed.symm.trans otherKeyed
  cases found.symm.trans looked
  rw [declaredSymbol, same, keyed]
  dsimp only
  rw [ids, table, found, Option.filter_some, there]
  simp [frozen.kind, frozen.external, internal, Document.isSet]

/-- Where a member with an id of its own names a type, the walk from the type that has the member comes to the file of that
type. -/
theorem mem_dependencies_of_mentions {types : List Document} {data : Document} {manifest : ManifestUnit} {loading : Loading}
    {listed : List (String × List Document)} (reading : Reading host types loading)
    (shown : Shown host types data loading manifest listed) (nameable : Nameable manifest.table) {entry member : Document}
    {index : Nat} (entryIn : entry ∈ types) (place : (looped (entry.field "members"))[index]? = some member)
    (own : OwnId manifest entry member index) {other : Document} {tree : FileTree} {file id : String} (otherIn : other ∈ types)
    (named : other.field "id" = .text id) (lies : Lies host manifest tree other file) (mentions : Mentions member id)
    {key : Key} {root : TypeRef} (keyed : (entry.field "id").key? = some key) (found : loading.ids.lookup key = some root) :
    ∃ reported, manifest.table.dependencies root = .ok reported ∧ .text file ∈ reported := by
  obtain ⟨otherKey, target, _, otherKeyed, targetFound, _, _⟩ := (reading.read other otherIn).links .base
  rw [named] at otherKeyed
  cases otherKeyed
  have declared : loading.table.DeclaredIn target file :=
    declaredIn_of_declared (reading.declared other otherIn) (by rw [named]; rfl) targetFound lies.internal
      (shown.path ▸ lies.placed)
  -- The member stands in the table, and it names the other type.
  obtain ⟨also, _, symbol, sameKey, sameRoot, there, depth, each⟩ := (reading.read entry entryIn).links .members
  cases keyed.symm.trans sameKey
  cases found.symm.trans sameRoot
  have pair : (member, index) ∈ (looped (entry.field "members")).zipIdx := List.mem_zipIdx_iff_getElem?.mpr place
  obtain ⟨_, listedIn, memberSymbol, rfl, is⟩ := exists_of_mem_left each pair
  have identified := memberId?_of_is is mentions
  rw [shown.table] at nameable ⊢
  obtain ⟨memberKey, memberKeyed⟩ := key_of_listed nameable there listedIn identified
  have unshared : loading.table.Unshared root memberKey :=
    shown.table ▸ own key root memberKey keyed (shown.ids ▸ found) memberKeyed
  have apart : loading.table.TypesApart := fun ref other symbol otherSymbol => type_unique reading.good
  exact SymbolTable.mem_dependencies_of_member (walkable_of_good reading.good nameable) apart there listedIn
    (by rw [identified]; exact memberKeyed) unshared (names_of_mentions is mentions targetFound) declared

/-- The file of each type that a member names is among the dependencies of the type that has the member, if the id of the
member is its own. -/
theorem members_are_counted {given : Document} {opening opened : World} {unit : CompilationUnit}
    (ran : (openUnit host given).outcome opening = (.ok unit, opened)) : ∃ data types manifest,
      ReadFrom host given opening.tree data ∧ entriesIn data = some types ∧ unit.handle = .manifest manifest
      ∧ ∀ (builder : Builder) (thread : String) (world : World), builder.frontend = frontend host →
        Nameable manifest.table → ∃ markup results after, builder.knownMarkup host world.tree unit = .ok markup
          ∧ (builder.directDependencies host thread unit).outcome world = (.ok results, after)
          ∧ ∀ entry ∈ types, ∀ file, Lies host manifest world.tree entry file → file ∈ manifest.sourceFiles →
            ∀ declared ∈ (manifest.declarations.lookup file).getD [], declared.key? = (entry.field "id").key? →
            ∀ other ∈ types, ∀ otherFile, Lies host manifest world.tree other otherFile → otherFile ≠ file →
            ∀ id, other.field "id" = .text id →
            ∀ member index, (looped (entry.field "members"))[index]? = some member → OwnId manifest entry member index →
              Mentions member id → ∃ result ∈ results, result.file = file ∧ otherFile ∈ result.dependencies
                ∧ (builder.inUnit host world.tree unit markup).Gives ⟨.text file, declared, declared⟩ result := by
  obtain ⟨path, bytes, data, manifest, name, read, loaded, _, opens, rfl⟩ := openUnit_eq_ok.mp ran
  obtain ⟨types, middle, loading, listed, entries, entered, linked, shown⟩ := load_eq_ok.mp loaded
  have reading := (types_reading entered linked).1
  have handle : unit.handle = .manifest manifest := by rw [opens]
  have named : unit.path ≠ "" := by
    rw [opens]
    exact read.path_ne_empty
  refine ⟨data, types, manifest, ⟨path, bytes, read⟩, entries, handle, fun builder thread world uses nameable => ?_⟩
  obtain ⟨markup, progress, calls, journal, known, outcome, covers⟩ :=
    directDependencies_manifest uses reading.good shown handle named nameable thread world
  refine ⟨markup, progress.results, _, known, outcome, ?_⟩
  intro entry entryIn file lies source declared among sameKey other otherIn otherFile otherLies different _ named member index
    place own mentions
  have located := locate_of_placeOf? lies.placed
  obtain ⟨filePresent, canonical⟩ := Host.locate_eq_ok.mp located
  obtain ⟨key, root, _, keyed, found, _⟩ := (reading.read entry entryIn).links .members
  -- The declaration is analysed, so it has a result.
  have declares : (builder.inUnit host world.tree unit markup).Declares manifest.sourceFiles ⟨.text file, declared, declared⟩ :=
    (declares_iff uses handle).mpr ⟨file, source, filePresent, declared, canonical.symm ▸ among, rfl⟩
  have analysed : (builder.inUnit host world.tree unit markup).Analysed ⟨.text file, declared, declared⟩ root file := by
    refine (analysed_iff uses handle).mpr ⟨?_, Builder.Context.standsFor_there ⟨located, lies.there⟩⟩
    exact declaredSymbol_eq_ok shown.ids shown.table (reading.declared entry entryIn) lies.internal keyed found sameKey
  obtain ⟨result, resultIn, rfl, gives⟩ := covers.complete _ declares root file analysed
  refine ⟨result, resultIn, rfl, ?_, gives⟩
  obtain ⟨ref, reported, also, walked, members⟩ := gives
  obtain rfl := (Builder.Context.analysed_unique analysed also).1
  obtain ⟨_, ran, inside⟩ := mem_dependencies_of_mentions reading shown nameable entryIn place own otherIn named otherLies mentions
    keyed found
  rw [symbols_inUnit uses handle, ran] at walked
  cases walked
  have stands : (builder.inUnit host world.tree unit markup).StandsFor (.text otherFile) otherFile :=
    Builder.Context.standsFor_there ⟨locate_of_placeOf? otherLies.placed, otherLies.there⟩
  exact (members otherFile).mpr ⟨different, .text otherFile, inside, stands⟩

end Counting

section Sample

def indexer (id : Option String) (type : String) : Document :=
  .object ((id.map fun id => ("id", .text id)).toList
    ++ [("kind", .text "property"), ("name", .text "Item"), ("type", .text type)])

def typeEntry (name file : String) (members : List Document) : Document :=
  .object [("id", .text name), ("name", .text name), ("file", .text file), ("members", .list members)]

/-- A type with two indexers, which have one name, and the types that they give. -/
def overloads (first second : Option String) : Document :=
  .object [("files", .texts ["a.cs", "b.cs", "c.cs"]), ("types", .list [
    typeEntry "A" "a.cs" [indexer first "B", indexer second "C"], typeEntry "B" "b.cs" [], typeEntry "C" "c.cs" []])]

/-- A manifest, beside the files that it is about. -/
def writtenWorld (data : Document) : World where
  tree := ⟨[(["w"], .directory), (["w", "u.json"], .file (Json.write .plain data).toUTF8),
    (["w", "a.cs"], .file ByteArray.empty), (["w", "b.cs"], .file ByteArray.empty), (["w", "c.cs"], .file ByteArray.empty)]⟩

def loadWritten (data : Document) : Except Fault ManifestUnit :=
  load Saved.sampleHost "/w/u.json" ((Json.write .plain data).toUTF8.size + 1) data

/-- As `loadWritten`, without making the bytes of the text. -/
def loadCounted (data : Document) : Except Fault ManifestUnit :=
  load Saved.sampleHost "/w/u.json" (String.utf8Len (Json.chars .plain 0 data) + 1) data

theorem loadCounted_eq (data : Document) : loadCounted data = loadWritten data := by
  rw [loadCounted, ← String.utf8ByteSize_ofList]
  rfl

def sampleBuilder : Builder := ⟨frontend Saved.sampleHost, [], none⟩

theorem plain_indexer (id : Option String) (type : String) : Json.Plain (indexer id type) := by
  cases id with
  | none => exact .object (by simp) (by simp [Json.Plain.text])
  | some id => exact .object (by simp) (by simp [Json.Plain.text])

theorem plain_typeEntry (name file : String) {members : List Document} (each : ∀ member ∈ members, Json.Plain member) :
    Json.Plain (typeEntry name file members) :=
  .object (by simp) (by simp [Json.Plain.text, Json.Plain.list each])

theorem plain_overloads (first second : Option String) : Json.Plain (overloads first second) := by
  have types : ∀ entry ∈ [typeEntry "A" "a.cs" [indexer first "B", indexer second "C"], typeEntry "B" "b.cs" [],
      typeEntry "C" "c.cs" []], Json.Plain entry := by
    simp [plain_typeEntry, plain_indexer]
  exact .object (by simp) (by simp [Json.plain_texts, Json.Plain.list types])

theorem storedAt_of_located {given : Document} (located : Saved.sampleHost.locateValue given = .ok "/w/u.json")
    {data : Document} (plain : Json.Plain data) (mapping : data.entries?.isSome = true) :
    StoredAt Saved.sampleHost given (writtenWorld data).tree "/w/u.json" (Json.write .plain data).toUTF8 data where
  located := located
  looked := FileTree.look_eq_ok.mpr ⟨["w", "u.json"], by rfl, by rfl⟩
  parsed := documentOf_written plain (by decide) mapping

theorem openUnit_of_located {given : Document} (located : Saved.sampleHost.locateValue given = .ok "/w/u.json")
    {data : Document} {manifest : ManifestUnit} (plain : Json.Plain data) (mapping : data.entries?.isSome = true)
    (unnamed : data.field "name" = .null) (loaded : loadWritten data = .ok manifest) {world : World}
    (same : world.tree = (writtenWorld data).tree) :
    (openUnit Saved.sampleHost given).outcome world = (.ok ⟨"/w/u.json", "u.json", .manifest manifest⟩, world) := by
  have stored := same ▸ storedAt_of_located located plain mapping
  refine openUnit_eq_ok.mpr ⟨_, _, data, manifest, "u.json", stored, loaded, ?_, rfl, rfl⟩
  rw [unnamed]
  exact eq_ok_of_toOption (by decide +kernel)

theorem located_unit : Saved.sampleHost.locateValue (.text "u.json") = .ok "/w/u.json" :=
  eq_ok_of_toOption (by decide +kernel)

theorem storedAt_written {data : Document} (plain : Json.Plain data) (mapping : data.entries?.isSome = true) :
    StoredAt Saved.sampleHost (.text "u.json") (writtenWorld data).tree "/w/u.json" (Json.write .plain data).toUTF8 data :=
  storedAt_of_located located_unit plain mapping

theorem openUnit_written {data : Document} {manifest : ManifestUnit} (plain : Json.Plain data)
    (mapping : data.entries?.isSome = true) (unnamed : data.field "name" = .null) (loaded : loadWritten data = .ok manifest) :
    (openUnit Saved.sampleHost (.text "u.json")).outcome (writtenWorld data) =
      (.ok ⟨"/w/u.json", "u.json", .manifest manifest⟩, writtenWorld data) :=
  openUnit_of_located located_unit plain mapping unnamed loaded rfl

theorem exists_loadWritten {data : Document} (success : (loadCounted data).toOption.isSome = true) :
    ∃ manifest, loadWritten data = .ok manifest := by
  rw [loadCounted_eq] at success
  obtain ⟨manifest, given⟩ := Option.isSome_iff_exists.mp success
  exact ⟨manifest, eq_ok_of_toOption given⟩

theorem holds_of_loadWritten {data : Document} {manifest : ManifestUnit} (check : ManifestUnit → Prop) [DecidablePred check]
    (loaded : loadWritten data = .ok manifest) (computed : (loadCounted data).toOption.any (check ·) = true) :
    check manifest := by
  rw [loadCounted_eq, loaded] at computed
  exact of_decide_eq_true computed

/-- Indexers that have ids of their own both count. -/
theorem members_are_counted_indexers : ∃ unit results after,
    (openUnit Saved.sampleHost (.text "u.json")).outcome (writtenWorld (overloads (some "int") (some "string"))) =
        (.ok unit, writtenWorld (overloads (some "int") (some "string")))
      ∧ (sampleBuilder.directDependencies Saved.sampleHost "t" unit).outcome
        (writtenWorld (overloads (some "int") (some "string"))) = (.ok results, after)
      ∧ ∃ result ∈ results, result.file = "/w/a.cs" ∧ "/w/c.cs" ∈ result.dependencies := by
  obtain ⟨manifest, loaded⟩ : ∃ manifest, loadWritten (overloads (some "int") (some "string")) = .ok manifest :=
    exists_loadWritten (by decide +kernel)
  have path := holds_of_loadWritten (·.path = "/w/u.json") loaded (by decide +kernel)
  have source := holds_of_loadWritten ("/w/a.cs" ∈ ·.sourceFiles) loaded (by decide +kernel)
  have declared := holds_of_loadWritten
    (fun manifest => ((manifest.declarations.lookup "/w/a.cs").getD []).map Document.text? = [some "A"]) loaded (by decide +kernel)
  have nameable := holds_of_loadWritten (fun manifest => Nameable manifest.table) loaded (by decide +kernel)
  have members := holds_of_loadWritten (·.table.memberKeys.Nodup) loaded (by decide +kernel)
  have methods := holds_of_loadWritten (·.table.methodKeys.Nodup) loaded (by decide +kernel)
  have opens := openUnit_written (plain_overloads _ _) rfl rfl loaded
  obtain ⟨data, types, other, read, entries, handle, counted⟩ := members_are_counted opens
  cases handle
  obtain rfl := read.unique ⟨_, _, storedAt_written (plain_overloads _ _) rfl⟩
  cases entries
  obtain ⟨markup, results, after, _, ran, each⟩ :=
    counted sampleBuilder "t" (writtenWorld (overloads (some "int") (some "string"))) rfl nameable
  have first : Lies Saved.sampleHost manifest (writtenWorld (overloads (some "int") (some "string"))).tree
      (typeEntry "A" "a.cs" [indexer (some "int") "B", indexer (some "string") "C"]) "/w/a.cs" :=
    ⟨rfl, by rw [path]; decide +kernel, by decide +kernel⟩
  have last : Lies Saved.sampleHost manifest (writtenWorld (overloads (some "int") (some "string"))).tree
      (typeEntry "C" "c.cs" []) "/w/c.cs" :=
    ⟨rfl, by rw [path]; decide +kernel, by decide +kernel⟩
  obtain ⟨id, among, text⟩ : ∃ id, id ∈ (manifest.declarations.lookup "/w/a.cs").getD [] ∧ id.text? = some "A" :=
    List.mem_map.mp (declared ▸ List.mem_singleton_self (some "A"))
  have same : id.key? = some (.text "A") := by
    rw [Document.text?_eq_some.mp text]
    rfl
  obtain ⟨result, resultIn, here, counts, _⟩ := each _ List.mem_cons_self "/w/a.cs" first source id among same _ (by simp) "/w/c.cs"
    last (by decide) "C" rfl (indexer (some "string") "C") 1 rfl (fun _ _ key _ _ _ => SymbolTable.unshared_of_nodup members methods key)
    (.type rfl (by simp) rfl)
  exact ⟨_, results, after, opens, ran, result, resultIn, here, counts⟩

theorem there_written (data : Document) : ∀ file ∈ ["/w/a.cs", "/w/b.cs", "/w/c.cs"],
    Builder.Context.There Saved.sampleHost (writtenWorld data).tree file := by
  intro file listed
  have located : ∀ file ∈ ["/w/a.cs", "/w/b.cs", "/w/c.cs"], (Saved.sampleHost.locate file).toOption = some file := by
    decide +kernel
  refine ⟨eq_ok_of_toOption (located file listed), FileTree.isFile_iff.mpr ⟨ByteArray.empty, FileTree.look_eq_ok.mpr ?_⟩⟩
  simp only [List.mem_cons, List.not_mem_nil, or_false] at listed
  rcases listed with rfl | rfl | rfl
  · exact ⟨["w", "a.cs"], by rfl, by rfl⟩
  · exact ⟨["w", "b.cs"], by rfl, by rfl⟩
  · exact ⟨["w", "c.cs"], by rfl, by rfl⟩

/-- The first of three source files declares one type, and the walk from it comes to one other file alone. -/
def WalksTo (visits : Nat) (other : String) (manifest : ManifestUnit) : Prop :=
  Nameable manifest.table ∧ manifest.sourceFiles = ["/w/a.cs", "/w/b.cs", "/w/c.cs"]
    ∧ ((manifest.declarations.lookup "/w/a.cs").getD []).map Document.text? = [some "A"]
    ∧ (declaredSymbol manifest (.text "A")).toOption = some (some 0)
    ∧ (manifest.table.walkWithin visits manifest.table.marks [.root 0] []).bind
      (fun result => result.toOption.map (·.map Document.text?)) = some [some other]

instance (visits : Nat) (other : String) (manifest : ManifestUnit) : Decidable (WalksTo visits other manifest) :=
  inferInstanceAs (Decidable (_ ∧ _))

theorem WalksTo.declared {visits : Nat} {other : String} {manifest : ManifestUnit} (walks : WalksTo visits other manifest) :
    (manifest.declarations.lookup "/w/a.cs").getD [] = [.text "A"] := by
  obtain ⟨_, _, declared, _⟩ := walks
  obtain ⟨id, only, text⟩ := List.map_eq_singleton_iff.mp declared
  rw [only, Document.text?_eq_some.mp text]

theorem WalksTo.dependencies {visits : Nat} {other : String} {manifest : ManifestUnit}
    (walks : WalksTo visits other manifest) : manifest.table.dependencies 0 = .ok [.text other] := by
  obtain ⟨_, _, _, _, walked⟩ := walks
  obtain ⟨outcome, ended, given⟩ := Option.bind_eq_some_iff.mp walked
  obtain ⟨files, success, texts⟩ := Option.map_eq_some_iff.mp given
  obtain ⟨value, rfl, text⟩ := List.map_eq_singleton_iff.mp texts
  rw [← Document.text?_eq_some.mp text]
  exact (SymbolTable.walk_of_within ended).trans (eq_ok_of_toOption success)

section Walk

variable {builder : Builder} {data : Document} {manifest : ManifestUnit} {unit : CompilationUnit} {visits : Nat}
  {other : String}

/-- The only declaration that is analysed for the first file is that of the first type. -/
theorem analysed_first_iff (uses : builder.frontend = frontend Saved.sampleHost) (handle : unit.handle = .manifest manifest)
    (walks : WalksTo visits other manifest) {markup : FileSet} {ref : TypeRef} :
    (∃ declaration, (builder.inUnit Saved.sampleHost (writtenWorld data).tree unit markup).Declares manifest.sourceFiles declaration
      ∧ (builder.inUnit Saved.sampleHost (writtenWorld data).tree unit markup).Analysed declaration ref "/w/a.cs")
      ↔ ref = 0 := by
  have only := walks.declared
  obtain ⟨_, sources, _, symbol, _⟩ := walks
  have stands (file : String) (listed : file ∈ ["/w/a.cs", "/w/b.cs", "/w/c.cs"]) :
      (builder.inUnit Saved.sampleHost (writtenWorld data).tree unit markup).StandsFor (.text file) file :=
    Builder.Context.standsFor_there (there_written data file listed)
  have canonical : Saved.sampleHost.canonical "/w/a.cs" = "/w/a.cs" := by decide +kernel
  constructor
  · rintro ⟨declaration, met, also⟩
    obtain ⟨file, listed, _, id, inside, rfl⟩ := (declares_iff uses handle).mp met
    obtain ⟨looked, standsFor⟩ := (analysed_iff uses handle).mp also
    rw [sources] at listed
    obtain rfl : file = "/w/a.cs" := Builder.Context.standsFor_unique (stands file listed) standsFor
    rw [canonical, only, List.mem_singleton] at inside
    subst inside
    exact (Option.some.inj (Except.ok.inj ((eq_ok_of_toOption symbol).symm.trans looked))).symm
  · rintro rfl
    refine ⟨⟨.text "/w/a.cs", .text "A", .text "A"⟩, (declares_iff uses handle).mpr ?_, (analysed_iff uses handle).mpr ?_⟩
    · exact ⟨"/w/a.cs", by simp [sources], by decide, .text "A", by simp [canonical, only], rfl⟩
    · exact ⟨eq_ok_of_toOption symbol, stands _ (by simp)⟩

theorem results_of_walk (uses : builder.frontend = frontend Saved.sampleHost) (loaded : loadWritten data = .ok manifest)
    (handle : unit.handle = .manifest manifest) (named : unit.path ≠ "") (walks : WalksTo visits other manifest)
    (known : other ∈ ["/w/b.cs", "/w/c.cs"]) : ∃ results,
      builder.resultsOf Saved.sampleHost (writtenWorld data).tree unit = .ok results
      ∧ (∃ result ∈ results, result.file = "/w/a.cs")
      ∧ ∀ result ∈ results, result.file = "/w/a.cs" → ∀ next, next ∈ result.dependencies ↔ next = other := by
  obtain ⟨types, middle, loading, listed, entries, entered, linked, shown⟩ := load_eq_ok.mp loaded
  have reading := (types_reading entered linked).1
  have walkable : manifest.table.Walkable := by
    have nameable := walks.1
    rw [shown.table] at nameable ⊢
    exact walkable_of_good reading.good nameable
  obtain ⟨markup, progress, _, found, covers⟩ :=
    resultsOf_manifest uses reading.good shown handle named (writtenWorld data).tree fun markup key ref _ => by
      obtain ⟨reported, expanded, ran, expands⟩ := SymbolTable.dependencies_expands walkable ref
      exact ⟨reported, by rw [symbols_inUnit uses handle, ran], paths_of_expands expands⟩
  obtain ⟨declaration, declares, analysed⟩ := (analysed_first_iff uses handle walks).mpr rfl
  obtain ⟨first, firstIn, here, _⟩ := covers.complete _ declares 0 _ analysed
  refine ⟨progress.results, found, ⟨first, firstIn, here⟩, fun result among here next => ?_⟩
  -- A result for the first file is that of the type declared there, and its walk comes to the other file alone.
  obtain ⟨declaration, met, ref, reported, also, ran, members⟩ := covers.sound result among
  rw [here] at also
  obtain rfl := (analysed_first_iff uses handle walks).mp ⟨declaration, met, also⟩
  rw [symbols_inUnit uses handle, walks.dependencies] at ran
  cases ran
  have stands : (builder.inUnit Saved.sampleHost (writtenWorld data).tree unit markup).StandsFor (.text other) other :=
    Builder.Context.standsFor_there (there_written data other (List.mem_cons_of_mem _ known))
  rw [members, here]
  constructor
  · rintro ⟨_, _, listed, standsNext⟩
    cases List.mem_singleton.mp listed
    exact Builder.Context.standsFor_unique standsNext stands
  · rintro rfl
    refine ⟨?_, _, List.mem_singleton_self _, stands⟩
    rintro rfl
    exact absurd known (by decide)

end Walk

/-- Of two indexers without ids only the first counts: the file of the type that the other gives is left out. -/
theorem indexers_are_taken_for_one : ∃ manifest unit results after,
    (openUnit Saved.sampleHost (.text "u.json")).outcome (writtenWorld (overloads none none)) =
        (.ok unit, writtenWorld (overloads none none)) ∧ unit.handle = .manifest manifest
      ∧ (sampleBuilder.directDependencies Saved.sampleHost "t" unit).outcome (writtenWorld (overloads none none)) =
        (.ok results, after)
      ∧ Lies Saved.sampleHost manifest (writtenWorld (overloads none none)).tree
        (typeEntry "A" "a.cs" [indexer none "B", indexer none "C"]) "/w/a.cs"
      ∧ "/w/a.cs" ∈ manifest.sourceFiles ∧ .text "A" ∈ (manifest.declarations.lookup "/w/a.cs").getD []
      ∧ Lies Saved.sampleHost manifest (writtenWorld (overloads none none)).tree (typeEntry "C" "c.cs" []) "/w/c.cs"
      ∧ Mentions (indexer none "C") "C"
      ∧ ∀ result ∈ results, result.file = "/w/a.cs" → "/w/c.cs" ∉ result.dependencies := by
  obtain ⟨manifest, loaded⟩ : ∃ manifest, loadWritten (overloads none none) = .ok manifest := by
    have success : (loadWritten (overloads none none)).toOption.isSome = true := by decide +kernel
    obtain ⟨manifest, given⟩ := Option.isSome_iff_exists.mp success
    exact ⟨manifest, eq_ok_of_toOption given⟩
  have path := holds_of_loadWritten (·.path = "/w/u.json") loaded (by decide +kernel)
  have walks := holds_of_loadWritten (WalksTo 9 "/w/b.cs") loaded (by decide +kernel)
  obtain ⟨unit, opens, handle, named⟩ : ∃ unit, (openUnit Saved.sampleHost (.text "u.json")).outcome
      (writtenWorld (overloads none none)) = (.ok unit, writtenWorld (overloads none none))
        ∧ unit.handle = .manifest manifest ∧ unit.path ≠ "" :=
    ⟨_, openUnit_written (plain_overloads none none) rfl rfl loaded, rfl, by simp⟩
  obtain ⟨results, found, _, only⟩ :=
    results_of_walk (show sampleBuilder.frontend = _ from rfl) loaded handle named walks (by simp)
  obtain ⟨calls, journal, outcome⟩ := Builder.directDependencies_outcome sampleBuilder Saved.sampleHost "t" unit
    (writtenWorld (overloads none none))
  rw [show (writtenWorld (overloads none none)).tree = _ from rfl, found] at outcome
  have single := walks.declared
  obtain ⟨_, sources, _⟩ := walks
  refine ⟨manifest, unit, results, _, opens, handle, outcome, ⟨rfl, ?_, ?_⟩, ?_, ?_, ⟨rfl, ?_, ?_⟩, ?_, ?_⟩
  · rw [path]
    decide +kernel
  · decide +kernel
  · simp [sources]
  · simp [single]
  · rw [path]
    decide +kernel
  · decide +kernel
  · exact .type rfl (by simp) rfl
  · intro result among here counted
    exact absurd ((only result among here _).mp counted) (by decide)

end Sample

end Manifest

end DeclGraph
