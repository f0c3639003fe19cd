import DeclGraph.Proofs.ManifestReferences
import DeclGraph.Proofs.ReorderedManifests
import DeclGraph.Proofs.TypeNames

/-!
The symbols of built types. A reference is resolved to a symbol that is built as the reference says, and to the same symbol
as another reference just when the two are built alike. This needs that no id that is written in the manifest could be
taken for that of a built type, or for a part of one.
-/

namespace DeclGraph.Manifest

open Load

section Transfer

variable {loading : Loading} {ids : Ids} {first second : Reference}

theorem Stands.of_shape {link : Option TypeRef} (stands : Stands ids first link) (same : first.shape = second.shape)
    (present : Present ids second) : Stands ids second link := by
  cases stands with
  | absent =>
    cases second with
    | absent => exact .absent
    | _ => cases same
  | known named found _ =>
    rw [← Reference.name?_shape, same, Reference.name?_shape] at named
    exact .known named found present

theorem stand_of_shapes {references others : List Reference} {links : List (Option TypeRef)}
    (stand : List.Forall₂ (Stands ids) references links) (same : Reference.shapes references = Reference.shapes others)
    (present : ∀ reference ∈ others, Present ids reference) : List.Forall₂ (Stands ids) others links := by
  induction stand generalizing others with
  | nil =>
    cases others with
    | nil => exact .nil
    | cons => cases same
  | cons head _ ih =>
    cases others with
    | nil => cases same
    | cons other rest =>
      obtain ⟨one, more⟩ := List.cons.inj same
      exact .cons (head.of_shape one (present _ List.mem_cons_self))
        (ih more fun _ among => present _ (List.mem_cons_of_mem _ among))

theorem Built.of_shape {id : String} {symbol : TypeSymbol} (built : Built loading id first symbol)
    (same : first.shape = second.shape) (present : ∀ part ∈ second.parts, Present loading.ids part) :
    Built loading id second symbol := by
  cases built with
  | generic defined filled =>
    cases second with
    | generic definition _ arguments _ =>
      obtain ⟨one, _, more, _⟩ := Reference.generic.inj same
      exact .generic (defined.of_shape one (present _ List.mem_cons_self))
        (stand_of_shapes filled more fun _ among => present _ (List.mem_cons_of_mem _ among))
    | _ => cases same
  | array known =>
    cases second with
    | array element _ => exact .array (known.of_shape (Reference.array.inj same).1 (present _ List.mem_cons_self))
    | _ => cases same
  | pointer known =>
    cases second with
    | pointer element _ => exact .pointer (known.of_shape (Reference.pointer.inj same).1 (present _ List.mem_cons_self))
    | _ => cases same
  | tuple filled =>
    cases second with
    | tuple _ elements => exact .tuple (stand_of_shapes filled (Reference.tuple.inj same).2 present)
    | _ => cases same
  | functionPointer gives takes stored returns typed =>
    cases second with
    | functionPointer returnType _ parameters =>
      obtain ⟨one, _, more⟩ := Reference.functionPointer.inj same
      exact .functionPointer (gives.of_shape one (present _ List.mem_cons_self))
        (stand_of_shapes takes more fun _ among => present _ (List.mem_cons_of_mem _ among)) stored returns typed
    | _ => cases same

end Transfer

section Shapes

/-- A symbol is built as a reference says; `resolves` relates the parts of the reference to their symbols. -/
inductive ShapedAs (resolves : Reference → Option TypeRef → Prop) (table : SymbolTable) (symbol : TypeSymbol) :
    Reference → Prop
  | named {id : String} {name file external : Document} {kind : TypeKind} (plain : kind.isConstructed = false)
      (frozen : Frozen { id := .text id, name, file, external, kind } symbol) : ShapedAs resolves table symbol (.named id)
  | generic {id name source : Document} {definition : Reference} {instead : Option String} {arguments : List Reference}
      {ref : TypeRef} (frozen : Frozen { id, name, originalDefinition := some ref } symbol)
      (defined : resolves definition (some ref)) (filled : List.Forall₂ resolves arguments symbol.typeArguments) :
      ShapedAs resolves table symbol (.generic definition instead arguments source)
  | array {id name source : Document} {element : Reference} {ref : TypeRef}
      (frozen : Frozen { id, name, kind := .array, element := some ref } symbol) (known : resolves element (some ref)) :
      ShapedAs resolves table symbol (.array element source)
  | pointer {id name source : Document} {element : Reference} {ref : TypeRef}
      (frozen : Frozen { id, name, kind := .pointer, element := some ref } symbol) (known : resolves element (some ref)) :
      ShapedAs resolves table symbol (.pointer element source)
  | tuple {id name : Document} {instead : Option String} {elements : List Reference} {links : List (Option TypeRef)}
      (frozen : Frozen { id, name, kind := .tuple, tupleElements := links } symbol)
      (filled : List.Forall₂ resolves elements links) : ShapedAs resolves table symbol (.tuple instead elements)
  | functionPointer {id name : Document} {returnType : Reference} {instead : Option String} {parameters : List Reference}
      {ref : MethodRef} {signature : MethodSymbol}
      (frozen : Frozen { id, name, kind := .functionPointer, signature := some ref } symbol)
      (stored : table.methods[ref]? = some signature) (gives : resolves returnType signature.returnType)
      (takes : List.Forall₂ resolves parameters (signature.parameters.map Parameter.type)) :
      ShapedAs resolves table symbol (.functionPointer returnType instead parameters)

theorem shapedAs_of_built {loading : Loading} {id : String} {reference : Reference} {fresh symbol : TypeSymbol}
    {resolves : Reference → Option TypeRef → Prop} (built : Built loading id reference fresh) (frozen : Frozen fresh symbol)
    (filled : symbol.typeArguments = fresh.typeArguments)
    (parts : ∀ part ∈ reference.parts, ∀ link, Stands loading.ids part link → resolves part link) :
    ShapedAs resolves loading.table symbol reference := by
  have all {references : List Reference} {links : List (Option TypeRef)}
      (inside : ∀ part ∈ references, ∀ link, Stands loading.ids part link → resolves part link)
      (stand : List.Forall₂ (Stands loading.ids) references links) : List.Forall₂ resolves references links :=
    ((List.forall₂_and_left _ _).mpr ⟨inside, stand⟩).imp fun _ link both => both.1 link both.2
  cases built with
  | generic defined arguments =>
    obtain ⟨head, tail⟩ := List.forall_mem_cons.mp parts
    have closed : Frozen { id := .text id, name := .text id, originalDefinition := some _ } symbol :=
      ⟨frozen.id, frozen.file, frozen.external, frozen.kind, frozen.definition, frozen.element, frozen.elements,
        frozen.signature⟩
    exact .generic closed (head _ defined) (filled ▸ all tail arguments)
  | array known => exact .array frozen (parts _ List.mem_cons_self _ known)
  | pointer known => exact .pointer frozen (parts _ List.mem_cons_self _ known)
  | tuple elements => exact .tuple frozen (all parts elements)
  | functionPointer gives takes stored returns typed =>
    obtain ⟨head, tail⟩ := List.forall_mem_cons.mp parts
    subst returns typed
    exact .functionPointer frozen stored (head _ gives) (all tail takes)

end Shapes

section Interning

variable {host : Host} {types : List Document} {loading : Loading} {given : Document} {tree : FileTree}
variable {unit : CompilationUnit} {data : Document} {manifest : ManifestUnit}

/-- No id that is written in a manifest could be that of a built type. -/
structure PlainIds (types : List Document) : Prop where
  declared : ∀ entry ∈ types, ∀ id, entry.field "id" = .text id → Reference.PlainId id
  parameters : ∀ parameter, ParameterWithin types parameter → ∀ id, parameterId parameter = .text id → Reference.PlainId id
  references : ∀ id, RefersWithin types (.named id) → Reference.PlainId id

/-- The symbols that the references of a manifest are resolved to. -/
structure Interned (host : Host) (types : List Document) (manifest : ManifestUnit) : Prop where
  /-- Each reference has a symbol, unless there is nothing to refer to. -/
  resolved : ∀ reference, RefersWithin types reference →
    ∃ link, ResolvesTo host types manifest reference link ∧ (link = none ↔ reference = .absent)
  /-- The symbol is built as the reference says. -/
  shaped : ∀ reference ref, RefersWithin types reference → ResolvesTo host types manifest reference (some ref) →
    ∃ symbol, manifest.table.types[ref]? = some symbol
      ∧ ShapedAs (ResolvesTo host types manifest) manifest.table symbol reference
  /-- References have one symbol just when they are built alike. -/
  shared : ∀ first second link other, RefersWithin types first → RefersWithin types second →
    ResolvesTo host types manifest first link → ResolvesTo host types manifest second other →
    (link = other ↔ first.shape = second.shape)

theorem legible_of_within (opened : Opened host given tree unit data types manifest loading) (plain : PlainIds types)
    {reference : Reference} (within : RefersWithin types reference) : reference.Legible where
  ids id inside := by
    have written := within.inside inside
    obtain ⟨ref, found⟩ := present_of_within opened.reading written _ .self id rfl
    exact ⟨plain.references id written, name_of_lookup opened.reading.good found⟩
  parts inner inside := by
    obtain ⟨_, parts⟩ := opened.parts
    exact absent_or_named (within.inside inside) (ran_of_within parts (within.inside inside))

theorem shapedAs_of_within (opened : Opened host given tree unit data types manifest loading) (plain : PlainIds types)
    {reference : Reference} {ref : TypeRef} (within : RefersWithin types reference)
    (resolved : ResolvesTo host types manifest reference (some ref)) : ∃ symbol, manifest.table.types[ref]? = some symbol
      ∧ ShapedAs (ResolvesTo host types manifest) manifest.table symbol reference := by
  have legible := legible_of_within opened plain within
  have good := opened.reading.good
  cases (resolvesTo_iff opened within).mp resolved with
  | @known _ id _ named found present =>
    obtain ⟨fresh, symbol, there, arises⟩ := good.arises _ ref found
    rw [← opened.table]
    refine ⟨symbol, there, ?_⟩
    have frozen := arises.frozen
    -- A symbol that is declared or comes from a library has a plain id, and so it is referred to by that id alone.
    cases origin : arises.origin with
    | declared listed _ keyed _ =>
      have called := key?_eq_text.mp keyed
      rw [called] at frozen
      obtain rfl := Reference.eq_named_of_plain legible named (plain.declared _ listed id called)
      exact .named rfl frozen
    | parameter inside _ keyed =>
      have called := key?_eq_text.mp keyed
      rw [called] at frozen
      obtain rfl := Reference.eq_named_of_plain legible named (plain.parameters _ inside id called)
      exact .named rfl frozen
    | library inside _ =>
      obtain rfl := Reference.eq_named_of_plain legible named (plain.references id inside)
      exact .named rfl frozen
    | built inside also _ shaped =>
      have same := Reference.shape_of_name (legible_of_within opened plain inside) legible also named
      have built := shaped.of_shape same fun part listed => present_of_within opened.reading (.part within listed)
      refine shapedAs_of_built built frozen ?_ fun part listed link stands =>
        (resolvesTo_iff opened (.part within listed)).mpr stands
      rcases arises.links .typeArguments with kept | ⟨entry, listed, keyed, _⟩
      · exact kept
      · obtain rfl := Reference.eq_named_of_plain legible named (plain.declared entry listed id (key?_eq_text.mp keyed))
        cases built

theorem shared_of_within (opened : Opened host given tree unit data types manifest loading) (plain : PlainIds types)
    {first second : Reference} {link other : Option TypeRef} (within : RefersWithin types first)
    (also : RefersWithin types second) (resolved : ResolvesTo host types manifest first link)
    (otherResolved : ResolvesTo host types manifest second other) : link = other ↔ first.shape = second.shape := by
  have stands := (resolvesTo_iff opened within).mp resolved
  have otherStands := (resolvesTo_iff opened also).mp otherResolved
  constructor
  · rintro rfl
    cases stands with
    | absent =>
      cases otherStands with
      | absent => rfl
    | known named found _ =>
      cases otherStands with
      | known otherNamed otherFound _ =>
        have same := Key.text.inj (opened.reading.good.key_unique found otherFound)
        exact Reference.shape_of_name (legible_of_within opened plain within) (legible_of_within opened plain also)
          named (same ▸ otherNamed)
  · intro same
    refine stands.unique otherStands ?_
    rw [← Reference.name?_shape, same, Reference.name?_shape]

/-- In a manifest that opens, where no id that is written could be that of a built type, each reference is resolved to a
symbol that is built as the reference says, and references have one symbol just when they are built alike. -/
theorem built_types_are_interned {opening after : World}
    (ran : (openUnit host given).outcome opening = (.ok unit, after)) : ∃ data types manifest,
      ReadFrom host given opening.tree data ∧ entriesIn data = some types ∧ unit.handle = .manifest manifest
        ∧ (PlainIds types → Interned host types manifest) := by
  obtain ⟨data, types, manifest, loading, opened⟩ := exists_opened ran
  refine ⟨data, types, manifest, opened.read, opened.entries, opened.handle, fun plain => ⟨fun reference within => ?_,
    fun _ _ => shapedAs_of_within opened plain, fun _ _ _ _ => shared_of_within opened plain⟩⟩
  obtain ⟨_, parts⟩ := opened.parts
  obtain ⟨link, stands⟩ := stands_of_within opened.reading within (ran_of_within parts within)
  refine ⟨link, (resolvesTo_iff opened within).mpr stands, ?_⟩
  cases stands with
  | absent => simp
  | known named _ _ =>
    refine ⟨nofun, ?_⟩
    rintro rfl
    cases named

end Interning

section Sample

mutual

def Reference.written : Reference → List String
  | .named id => [id]
  | .generic definition _ arguments _ => written definition ++ writtenAll arguments
  | .array element _ => written element
  | .pointer element _ => written element
  | .tuple _ elements => writtenAll elements
  | .functionPointer returnType _ parameters => written returnType ++ writtenAll parameters
  | _ => []

def Reference.writtenAll : List Reference → List String
  | [] => []
  | reference :: rest => written reference ++ writtenAll rest

end

theorem Reference.mem_writtenAll {references : List Reference} {reference : Reference} {id : String}
    (among : reference ∈ references) (inside : id ∈ reference.written) : id ∈ writtenAll references := by
  induction among with
  | head => exact List.mem_append_left _ inside
  | tail _ _ ih => exact List.mem_append_right _ ih

theorem Reference.written_of_part {outer inner : Reference} {id : String} (listed : inner ∈ outer.parts)
    (inside : id ∈ inner.written) : id ∈ outer.written := by
  cases outer with
  | generic definition instead arguments source => exact mem_writtenAll listed inside
  | array element source => exact List.mem_singleton.mp listed ▸ inside
  | pointer element source => exact List.mem_singleton.mp listed ▸ inside
  | tuple instead elements => exact mem_writtenAll listed inside
  | functionPointer returnType instead parameters => exact mem_writtenAll listed inside
  | _ => cases listed

instance (id : String) : Decidable (Reference.PlainId id) :=
  decidable_of_iff ((id.toList.all fun c => !Reference.marks.contains c) = true ∧ id ≠ "delegate" ∧ id ≠ "void")
    ⟨fun ⟨unmarked, noDelegate, noVoid⟩ => ⟨by simpa using unmarked, noDelegate, noVoid⟩,
      fun plain => ⟨by simpa using plain.unmarked, plain.noDelegate, plain.noVoid⟩⟩

theorem plainIds_of_methodless {types : List Document} (methodless : Methodless types)
    (declared : ∀ entry ∈ types, ∀ id ∈ (entry.field "id").text?, Reference.PlainId id)
    (heads : ∀ entry ∈ types, ∀ reference ∈ headRefs entry, ∀ id ∈ reference.written, Reference.PlainId id)
    (members : ∀ entry ∈ types, ∀ member ∈ looped (entry.field "members"),
      ∀ reference ∈ refersIn (member.field "attributes") ++ memberRefs member, ∀ id ∈ reference.written, Reference.PlainId id) :
    PlainIds types where
  declared entry listed id named := declared entry listed id (by rw [named]; rfl)
  parameters parameter within := absurd within (methodless.not_parameterWithin parameter)
  references id within :=
    methodless.refersWithin heads members (fun _ plain _ listed id inside => plain id (Reference.written_of_part listed inside))
      within id (List.mem_singleton_self id)

def fieldEntry (name : String) (type : Rows Document) : Document :=
  .object [("id", .text name), ("kind", .text "field"), ("type", .object type)]

/-- Rows of an array, twice, a closed generic, and a pointer to a function that gives nothing. -/
def builtEntries : List Document :=
  [typeEntry "A" "a.cs" [
      fieldEntry "x" [("kind", .text "array"), ("element", .object [("kind", .text "array"), ("element", .text "B")])],
      fieldEntry "y" [("kind", .text "array"), ("element", .object [("kind", .text "array"), ("element", .text "B")])],
      fieldEntry "z" [("definition", .text "B"), ("arguments", .texts ["A", "C"])],
      fieldEntry "f" [("kind", .text "function_pointer"), ("parameters", .texts ["A"])]],
    typeEntry "B" "b.cs" []]

theorem plain_fieldEntry (name : String) {type : Rows Document} (distinct : (type.map (·.1)).Nodup)
    (each : ∀ part ∈ type, Json.Plain part.2) : Json.Plain (fieldEntry name type) :=
  .object (by simp) (by simp [Json.Plain.text, Json.Plain.object distinct each])

theorem built_types_are_interned_sample : ∃ manifest,
    (openUnit Saved.sampleHost (.text "u.json")).outcome (writtenWorld (listing builtEntries)) =
        (.ok ⟨"/w/u.json", "u.json", .manifest manifest⟩, writtenWorld (listing builtEntries))
      ∧ PlainIds builtEntries ∧ Interned Saved.sampleHost builtEntries manifest := by
  obtain ⟨manifest, loaded⟩ : ∃ manifest, loadWritten (listing builtEntries) = .ok manifest :=
    exists_loadWritten (by decide +kernel)
  have array : Json.Plain (.object [("kind", .text "array"), ("element", .text "B")]) :=
    .object (by simp) (by simp [Json.Plain.text])
  have plain : Json.Plain (listing builtEntries) := by
    refine plain_listing (List.forall_mem_cons.mpr ⟨plain_typeEntry _ _ ?_, by simp [plain_typeEntry]⟩)
    simp only [List.forall_mem_cons, List.not_mem_nil, false_implies, implies_true, and_true]
    refine ⟨?_, ?_, ?_, ?_⟩
    all_goals exact plain_fieldEntry _ (by simp) (by simp [Json.Plain.text, Json.plain_texts, array])
  have opens := openUnit_written plain rfl rfl loaded
  have ids : PlainIds builtEntries :=
    plainIds_of_methodless ⟨by decide +kernel, by decide +kernel⟩ (by decide +kernel) (by decide +kernel) (by decide +kernel)
  obtain ⟨data, types, other, read, entries, handle, interned⟩ := built_types_are_interned opens
  cases handle
  obtain rfl := read.unique ⟨_, _, storedAt_written plain rfl⟩
  cases entries
  exact ⟨manifest, opens, ids, interned ids⟩

end Sample

end DeclGraph.Manifest
