import DeclGraph.Proofs.LinkedParameters
import DeclGraph.Proofs.ReorderedManifests

/-!
What the type parameters of methods are constrained to. All type parameters with one id have one symbol, in whatever method
or type they stand, and what the last of them says counts for all. A method keeps its own constraints just when that says
the same.
-/

namespace DeclGraph.Manifest

open Load

section Entries

variable {host : Host} {types : List Document} {loading : Loading} {given : Document} {tree : FileTree}
variable {unit : CompilationUnit} {data : Document} {manifest : ManifestUnit} {entry : Document} {ref : MethodRef}

/-- The method that an entry of a manifest was read as. -/
inductive MethodOf (types : List Document) (manifest : ManifestUnit) : Document → MethodRef → Prop
  | member {type entry : Document} {key : Key} {place : TypeRef} {symbol : TypeSymbol} {index : Nat} {ref : MethodRef}
      (listed : type ∈ types) (keyed : (type.field "id").key? = some key) (found : manifest.ids.lookup key = some place)
      (there : manifest.table.types[place]? = some symbol) (written : (looped (type.field "members"))[index]? = some entry)
      (kind : (entry.field "kind").text? = some "method") (read : symbol.members[index]? = some (some (.method ref))) :
      MethodOf types manifest entry ref
  | inner {outer reference : Document} {around ref : MethodRef} {symbol : MethodSymbol} {occurrence : BodyReference}
      {index : Nat} (outside : MethodOf types manifest outer around)
      (there : manifest.table.methods[around]? = some symbol)
      (written : (looped (outer.field "body"))[index]? = some reference) (nests : Nests reference)
      (occurs : (symbol.body.getD [])[index]? = some occurrence) (read : occurrence.method = some ref) :
      MethodOf types manifest (innerMethod reference) ref

theorem MethodOf.within (is : MethodOf types manifest entry ref) : MethodWithin types entry := by
  induction is with
  | @member type entry key place symbol index ref listed keyed found there written kind read =>
    exact ⟨entry, ⟨type, listed, List.mem_of_getElem? written⟩, kind, .self⟩
  | inner _ _ written nests _ _ ih => exact ih.inner (List.mem_of_getElem? written) nests

theorem method_of_occurs {ids : Ids} {nested : Document → Document → MethodRef → Prop} {id reference : Document}
    {index : Nat} {occurrence : BodyReference} (nests : Nests reference)
    (occurs : Occurs ids nested id (reference, index) occurrence) :
    ∃ given ref, occurrence.method = some ref ∧ nested (innerMethod reference) given ref := by
  obtain ⟨kind, known, _, _, brings⟩ := occurs
  rw [if_pos ((nests_iff known).mp nests)] at brings
  obtain ⟨ref, same, is⟩ := brings
  exact ⟨_, ref, same, is⟩

theorem MethodOf.is (opened : Opened host given tree unit data types manifest loading)
    (is : MethodOf types manifest entry ref) : ∃ depth id, MethodIs loading depth entry id ref := by
  induction is with
  | member listed keyed found there written kind read =>
    obtain ⟨other, place, symbol, otherKeyed, otherFound, otherThere, depth, each⟩ :=
      (opened.reading.read _ listed).links .members
    cases keyed.symm.trans otherKeyed
    rw [← opened.ids] at found
    cases found.symm.trans otherFound
    rw [← opened.table] at there
    cases there.symm.trans otherThere
    obtain ⟨_, member, _, rfl, isMember⟩ := exists_at_zipIdx each written
    cases read.symm.trans member
    cases isMember with
    | method _ is => exact ⟨depth, _, is⟩
  | inner _ there written nests occurs read ih =>
    obtain ⟨_, _, is⟩ := ih
    obtain ⟨depth, symbol, stored, looks⟩ := looks_of_is is
    rw [opened.table] at stored
    cases there.symm.trans stored
    obtain ⟨_, again, occursAs⟩ := exists_at_zipIdx looks.body written
    cases occurs.symm.trans again
    obtain ⟨given, inner, same, is⟩ := method_of_occurs nests occursAs
    cases read.symm.trans same
    exact ⟨depth, given, is⟩

theorem exists_methodOf (opened : Opened host given tree unit data types manifest loading)
    (within : MethodWithin types entry) : ∃ ref, MethodOf types manifest entry ref := by
  obtain ⟨member, ⟨type, listed, among⟩, kind, under⟩ := within
  induction under with
  | self =>
    obtain ⟨key, place, symbol, keyed, found, there, depth, each⟩ := (opened.reading.read type listed).links .members
    obtain ⟨index, written⟩ := List.mem_iff_getElem?.mp among
    obtain ⟨_, read, _, rfl, is⟩ := exists_at_zipIdx each written
    rw [opened.ids] at found
    rw [opened.table] at there
    cases is with
    | method _ is => exact ⟨_, .member listed keyed found there written kind read⟩
    | _ => simp_all
  | inner _ among nests ih =>
    obtain ⟨around, outside⟩ := ih
    obtain ⟨_, _, is⟩ := outside.is opened
    obtain ⟨_, symbol, stored, looks⟩ := looks_of_is is
    obtain ⟨index, written⟩ := List.mem_iff_getElem?.mp among
    obtain ⟨occurrence, occurs, occursAs⟩ := exists_at_zipIdx looks.body written
    obtain ⟨_, ref, same, _⟩ := method_of_occurs nests occursAs
    rw [opened.table] at stored
    exact ⟨ref, .inner outside stored written nests occurs same⟩

end Entries

section Binding

variable {host : Host} {types : List Document} {loading : Loading} {given : Document} {tree : FileTree}
variable {unit : CompilationUnit} {data : Document} {manifest : ManifestUnit} {parameter : Document}

/-- What a type parameter says of its constraints. One that is an id alone says nothing. -/
def constraintRefs (parameter : Document) : List Reference := refersIn (parameter.field "constraints")

def lastConstraints (key : Key) (parameters : List Document) : List Reference :=
  (lastFor? key parameters).elim [] constraintRefs

theorem within_constraintRefs (within : ParameterWithin types parameter) :
    ∀ reference ∈ constraintRefs parameter, RefersWithin types reference := by
  intro reference among
  by_cases text : ∃ id, parameter = .text id
  · obtain ⟨id, rfl⟩ := text
    cases among
  · exact .constraint within (fun id same => text ⟨id, same⟩) among

/-- The link of a type parameter of a method leads to the symbol of its id, which is constrained to what the last type
parameter with the id says. -/
def BoundTo (host : Host) (types : List Document) (manifest : ManifestUnit) (order : List Document) (parameter : Document)
    (link : Option TypeRef) : Prop :=
  ∃ key place symbol, (parameterId parameter).key? = some key ∧ link = some place
    ∧ manifest.table.types[place]? = some symbol ∧ symbol.id.key? = some key
    ∧ List.Forall₂ (ResolvesTo host types manifest) (lastConstraints key order) symbol.constraints

/-- The link of a type parameter of a method leads to a symbol that is constrained to what the type parameter itself says. -/
def KeepsOwn (host : Host) (types : List Document) (manifest : ManifestUnit) (parameter : Document) (link : Option TypeRef) :
    Prop :=
  ∃ place symbol, link = some place ∧ manifest.table.types[place]? = some symbol
    ∧ List.Forall₂ (ResolvesTo host types manifest) (constraintRefs parameter) symbol.constraints

/-- A type parameter names the same constraints as the last one with its id. -/
def Agrees (order : List Document) (parameter : Document) : Prop :=
  ∀ key, (parameterId parameter).key? = some key →
    (constraintRefs parameter).map Reference.name? = (lastConstraints key order).map Reference.name?

theorem bound_of_is (opened : Opened host given tree unit data types manifest loading) {depth : Nat}
    (ordered : ∀ parameter, ParameterWithin types parameter ↔ parameter ∈ linkingOrder depth types)
    (last : ∀ key, List.Forall₂ (Stands loading.ids) (lastConstraints key (linkingOrder depth types)) (constraintsAt loading key))
    (within : ParameterWithin types parameter) {link : Option TypeRef} (is : ParameterIs loading.ids parameter link) :
    BoundTo host types manifest (linkingOrder depth types) parameter link
      ∧ (KeepsOwn host types manifest parameter link ↔ Agrees (linkingOrder depth types) parameter) := by
  obtain ⟨key, place, keyed, found, rfl⟩ := is
  obtain ⟨symbol, there, called⟩ := opened.reading.good.found found
  have stand := last key
  rw [constraintsAt_of_found found there] at stand
  rw [opened.table] at there
  have lastWithin : ∀ reference ∈ lastConstraints key (linkingOrder depth types), RefersWithin types reference := by
    unfold lastConstraints
    cases known : lastFor? key (linkingOrder depth types) with
    | none => simp
    | some other =>
      exact within_constraintRefs ((ordered other).mpr (List.mem_reverse.mp (List.mem_of_find?_eq_some known)))
  have own : List.Forall₂ (ResolvesTo host types manifest) (constraintRefs parameter) symbol.constraints ↔
      (constraintRefs parameter).map Reference.name? = (lastConstraints key (linkingOrder depth types)).map Reference.name? := by
    rw [resolves_iff_stand opened (within_constraintRefs within)]
    exact stand_iff_names opened (within_constraintRefs within) stand
  refine ⟨⟨key, place, symbol, keyed, rfl, there, called, (resolves_iff_stand opened lastWithin).mpr stand⟩, ?_, ?_⟩
  · rintro ⟨_, other, same, found, resolves⟩ otherKey otherKeyed
    cases same
    cases there.symm.trans found
    cases keyed.symm.trans otherKeyed
    exact own.mp resolves
  · intro agrees
    exact ⟨place, symbol, rfl, there, own.mpr (agrees key keyed)⟩

theorem forall₂_iff_forall {α β : Type} {holds : α → β → Prop} {condition : α → Prop} {values : List α} {links : List β}
    (each : List.Forall₂ (fun value link => holds value link ↔ condition value) values links) :
    List.Forall₂ holds values links ↔ ∀ value ∈ values, condition value := by
  induction each with
  | nil => simp
  | cons head _ ih => rw [List.forall₂_cons, List.forall_mem_cons, head, ih]

/-- Once a manifest is open, the type parameters of each of its methods have the constraints of those that were linked
last under their ids: a method has the constraints of its own entry just when these have the same ids. -/
theorem last_constraints_are_kept {opening after : World} (ran : (openUnit host given).outcome opening = (.ok unit, after)) :
    ∃ data types manifest depth, ReadFrom host given opening.tree data ∧ entriesIn data = some types
      ∧ unit.handle = .manifest manifest
      ∧ (∀ parameter, ParameterWithin types parameter ↔ parameter ∈ linkingOrder depth types)
      ∧ ∀ entry, MethodWithin types entry → (∃ ref, MethodOf types manifest entry ref)
        ∧ ∀ ref, MethodOf types manifest entry ref → ∃ symbol, manifest.table.methods[ref]? = some symbol
          ∧ List.Forall₂ (BoundTo host types manifest (linkingOrder depth types)) (looped (entry.field "type_parameters"))
            symbol.typeParameters
          ∧ (List.Forall₂ (KeepsOwn host types manifest) (looped (entry.field "type_parameters")) symbol.typeParameters ↔
            ∀ parameter ∈ looped (entry.field "type_parameters"), Agrees (linkingOrder depth types) parameter) := by
  obtain ⟨data, types, manifest, loading, opened⟩ := exists_opened ran
  obtain ⟨fuel, middle, entered, linked⟩ := opened.run
  have ordered (parameter : Document) : ParameterWithin types parameter ↔ parameter ∈ linkingOrder fuel types :=
    mem_linkingOrder (types_ran entered linked)
  have last (key : Key) :
      List.Forall₂ (Stands loading.ids) (lastConstraints key (linkingOrder fuel types)) (constraintsAt loading key) := by
    have written := constraintsAt_of_read entered linked (Nat.le_refl fuel) key
    unfold lastConstraints
    split at written
    · next parameter known => rw [known]; exact written
    · next none =>
      rw [none, written]
      exact .nil
  refine ⟨data, types, manifest, fuel, opened.read, opened.entries, opened.handle, ordered, fun entry within =>
    ⟨exists_methodOf opened within, fun ref isOf => ?_⟩⟩
  obtain ⟨_, id, is⟩ := isOf.is opened
  obtain ⟨_, symbol, stored, looks⟩ := looks_of_is is
  have inside : ∀ parameter ∈ looped (entry.field "type_parameters"), ParameterWithin types parameter :=
    fun _ among => .method within among
  have each := ((List.forall₂_and_left _ _).mpr ⟨inside, looks.typeParameters⟩).imp
    fun _ _ both => bound_of_is opened ordered last both.1 both.2
  exact ⟨symbol, opened.table ▸ stored, each.imp fun _ _ both => both.1,
    forall₂_iff_forall (each.imp fun _ _ both => both.2)⟩

end Binding

section Sample

def boundedBy (constraint : String) : Document := .object [("id", .text "T"), ("constraints", .texts [constraint])]

theorem linkingOrder_constrained (depth : Nat) (first second constraint other : String) :
    linkingOrder (depth + 1) (pair (constrained first constraint) (constrained second other)) =
      [boundedBy constraint, boundedBy other] := rfl

/-- Two methods with one type parameter, which they constrain alike. -/
theorem last_constraints_are_kept_alike : ∃ manifest ref symbol,
    (openUnit Saved.sampleHost (.text "u.json")).outcome
        (writtenWorld (listing (pair (constrained "m" "B") (constrained "n" "B")))) =
      (.ok ⟨"/w/u.json", "u.json", .manifest manifest⟩,
        writtenWorld (listing (pair (constrained "m" "B") (constrained "n" "B"))))
      ∧ MethodOf (pair (constrained "m" "B") (constrained "n" "B")) manifest (constrained "m" "B") ref
      ∧ manifest.table.methods[ref]? = some symbol
      ∧ List.Forall₂ (KeepsOwn Saved.sampleHost (pair (constrained "m" "B") (constrained "n" "B")) manifest)
        [boundedBy "B"] symbol.typeParameters := by
  obtain ⟨manifest, loaded⟩ :
      ∃ manifest, loadWritten (listing (pair (constrained "m" "B") (constrained "n" "B"))) = .ok manifest :=
    exists_loadWritten (by decide +kernel)
  have plain : Json.Plain (listing (pair (constrained "m" "B") (constrained "n" "B"))) :=
    plain_listing (plain_pair (plain_constrained "m" "B") (plain_constrained "n" "B"))
  have opens := openUnit_written plain rfl rfl loaded
  obtain ⟨data, types, _, depth, read, entries, handle, ordered, methods⟩ := last_constraints_are_kept opens
  cases handle
  obtain rfl := read.unique ⟨_, _, storedAt_written plain rfl⟩
  cases entries
  have within : MethodWithin (pair (constrained "m" "B") (constrained "n" "B")) (constrained "m" "B") :=
    ⟨_, ⟨_, List.mem_cons_self, List.mem_cons_self⟩, rfl, .self⟩
  have among : boundedBy "B" ∈ looped ((constrained "m" "B").field "type_parameters") := List.mem_cons_self
  obtain ⟨depth, rfl⟩ : ∃ less, depth = less + 1 := by
    cases depth with
    | zero => cases (ordered (boundedBy "B")).mp (.method within among)
    | succ depth => exact ⟨depth, rfl⟩
  rw [linkingOrder_constrained] at methods
  obtain ⟨⟨ref, isOf⟩, each⟩ := methods _ within
  obtain ⟨symbol, stored, _, keeps⟩ := each ref isOf
  refine ⟨manifest, ref, symbol, opens, isOf, stored, keeps.mpr fun parameter listed key keyed => ?_⟩
  obtain rfl := List.mem_singleton.mp listed
  cases keyed
  decide +kernel

/-- Two methods with one type parameter, which they constrain differently: the first has the constraint of the second. -/
theorem own_constraints_are_replaced : ∃ manifest ref symbol,
    (openUnit Saved.sampleHost (.text "u.json")).outcome
        (writtenWorld (listing (pair (constrained "m" "B") (constrained "n" "C")))) =
      (.ok ⟨"/w/u.json", "u.json", .manifest manifest⟩,
        writtenWorld (listing (pair (constrained "m" "B") (constrained "n" "C"))))
      ∧ MethodOf (pair (constrained "m" "B") (constrained "n" "C")) manifest (constrained "m" "B") ref
      ∧ manifest.table.methods[ref]? = some symbol
      ∧ ¬ List.Forall₂ (KeepsOwn Saved.sampleHost (pair (constrained "m" "B") (constrained "n" "C")) manifest)
        [boundedBy "B"] symbol.typeParameters := by
  obtain ⟨manifest, loaded⟩ :
      ∃ manifest, loadWritten (listing (pair (constrained "m" "B") (constrained "n" "C"))) = .ok manifest :=
    exists_loadWritten (by decide +kernel)
  have plain : Json.Plain (listing (pair (constrained "m" "B") (constrained "n" "C"))) :=
    plain_listing (plain_pair (plain_constrained "m" "B") (plain_constrained "n" "C"))
  have opens := openUnit_written plain rfl rfl loaded
  obtain ⟨linked, replaced, named⟩ := holds_of_loadWritten (fun manifest =>
    manifest.table.methods.toList.all (·.typeParameters = [some 3]) = true
      ∧ (manifest.table.types[3]?).map (·.constraints) = some [some 2]
      ∧ ((resolve (.named "B")).run (finished manifest 0)).toOption.map (·.1) = some (some 1)) loaded (by decide +kernel)
  obtain ⟨data, types, _, loading, opened⟩ := exists_opened opens
  cases opened.handle
  obtain rfl := opened.read.unique ⟨_, _, storedAt_written plain rfl⟩
  cases opened.entries
  have within : MethodWithin (pair (constrained "m" "B") (constrained "n" "C")) (constrained "m" "B") :=
    ⟨_, ⟨_, List.mem_cons_self, List.mem_cons_self⟩, rfl, .self⟩
  obtain ⟨ref, isOf⟩ := exists_methodOf opened within
  obtain ⟨_, _, is⟩ := isOf.is opened
  obtain ⟨_, symbol, stored, _⟩ := looks_of_is is
  rw [opened.table] at stored
  refine ⟨manifest, ref, symbol, opens, isOf, stored, fun keeps => ?_⟩
  have same := List.all_eq_true.mp linked symbol (Array.mem_toList_iff.mpr (Array.mem_of_getElem? stored))
  rw [of_decide_eq_true same, List.forall₂_cons] at keeps
  obtain ⟨⟨place, bound, same, there, resolves⟩, _⟩ := keeps
  cases same
  rw [there] at replaced
  have constraints : bound.constraints = [some 2] := Option.some.inj replaced
  rw [constraints] at resolves
  cases resolves with
  | cons head _ =>
    obtain ⟨after, again⟩ := head.again 0
    rw [show (resolve (.named "B")).run (finished manifest 0) = _ from again] at named
    cases named

end Sample

end DeclGraph.Manifest
