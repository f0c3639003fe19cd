import DeclGraph.Proofs.ManifestReading
import DeclGraph.Proofs.Reload
import DeclGraph.Proofs.WalkedVisits

/-!
The symbol table of a manifest as something to walk over: its links lead somewhere, no two types share an id, and each
type can say in which file it is declared.
-/

namespace DeclGraph.Manifest

open Load

section Walking

variable {host : Host} {types : List Document} {loading : Loading}

theorem isSome_of_parameterIs (good : Good host types loading) {parameter : Document} {link : Option TypeRef}
    (is : ParameterIs loading.ids parameter link) : (link.bind fun ref => loading.table.types[ref]?).isSome = true := by
  obtain ⟨key, ref, _, found, rfl⟩ := is
  obtain ⟨symbol, there, _⟩ := good.found found
  rw [Option.bind_some, there]
  rfl

theorem Origin.typeParameters {key : Key} {fresh : TypeSymbol} (origin : Origin host types loading key fresh) :
    fresh.typeParameters = [] := by
  cases origin with
  | built within named present shaped => cases shaped <;> rfl
  | _ => rfl

theorem linked_of_good (good : Good host types loading) : loading.table.Linked where
  typeParameters symbol listed parameter among := by
    obtain ⟨ref, there⟩ := List.mem_iff_getElem?.mp listed
    rw [Array.getElem?_toList] at there
    obtain ⟨key, _, found⟩ := good.lookup_of_found there
    obtain ⟨fresh, same, again, arises⟩ := good.arises key ref found
    cases there.symm.trans again
    rcases arises.links .typeParameters with kept | ⟨entry, _, _, is⟩
    · have none : symbol.typeParameters = [] := Eq.trans kept arises.origin.typeParameters
      rw [none] at among
      cases among
    · obtain ⟨given, _, is⟩ := exists_of_mem_right (show List.Forall₂ _ _ symbol.typeParameters from is) among
      exact isSome_of_parameterIs good is
  methodParameters symbol listed parameter among := by
    obtain ⟨key, ref, found, rfl⟩ := (good.methods symbol listed).parameters parameter among
    obtain ⟨there, same, _⟩ := good.found found
    rw [Option.bind_some, same]
    rfl
  kinds symbol listed := (good.methods symbol listed).kinds

theorem type_unique (good : Good host types loading) {ref other : TypeRef} {symbol otherSymbol : TypeSymbol}
    (found : loading.table.types[ref]? = some symbol) (also : loading.table.types[other]? = some otherSymbol)
    (same : symbol.id.key? = otherSymbol.id.key?) : ref = other := by
  obtain ⟨key, keyed, looked⟩ := good.lookup_of_found found
  obtain ⟨otherKey, otherKeyed, otherLooked⟩ := good.lookup_of_found also
  rw [keyed, otherKeyed, Option.some.injEq] at same
  rw [same] at looked
  exact Option.some.inj (looked.symm.trans otherLooked)

theorem locate_of_placeOf? {manifest path : String} {value : Document} (placed : placeOf? host manifest value = some path) :
    host.locate path = .ok path := by
  unfold placeOf? at placed
  split at placed
  · split at placed
    · cases placed
    · cases placed
      exact Saved.locate_canonical host _
  · cases placed

theorem plainFile (good : Good host types loading) {ref : TypeRef} {symbol : TypeSymbol}
    (found : loading.table.types[ref]? = some symbol) :
    symbol.file = .null ∨ ∃ path, symbol.file = .text path ∧ host.locate path = .ok path := by
  obtain ⟨key, _, looked⟩ := good.lookup_of_found found
  obtain ⟨fresh, same, again, arises⟩ := good.arises key ref looked
  cases found.symm.trans again
  rw [arises.frozen.file]
  cases arises.origin with
  | declared listed set keyed located =>
    rcases located with ⟨_, rfl⟩ | ⟨_, path, placed, rfl⟩
    · exact Or.inl rfl
    · exact Or.inr ⟨path, rfl, locate_of_placeOf? placed⟩
  | parameter within set keyed => exact Or.inl rfl
  | library within present => exact Or.inl rfl
  | built within named present shaped => cases shaped <;> exact Or.inl rfl

theorem plain_definitionFile (good : Good host types loading) (ref : TypeRef) :
    loading.table.definitionFile ref = .null
      ∨ ∃ path, loading.table.definitionFile ref = .text path ∧ host.locate path = .ok path := by
  unfold SymbolTable.definitionFile
  split
  · next symbol found => exact plainFile good found
  · exact Or.inl rfl

/-- Definitions come before the types that are closed over them, so asking on comes to an end. -/
theorem externalityWithin_isOk (good : Good host types loading) (steps : Nat) (ref : TypeRef) (enough : ref < steps) :
    ∃ external, loading.table.externalityWithin steps ref = .ok external := by
  induction steps generalizing ref with
  | zero => exact absurd enough (Nat.not_lt_zero ref)
  | succ steps ih =>
    rw [SymbolTable.externalityWithin]
    cases found : loading.table.types[ref]? with
    | none => exact ⟨_, rfl⟩
    | some symbol =>
      dsimp only
      split
      · exact ⟨_, rfl⟩
      · cases defined : symbol.originalDefinition with
        | none => exact ⟨_, rfl⟩
        | some definition =>
          have earlier := good.earlier ref symbol found definition defined
          dsimp only
          rw [if_neg (Nat.ne_of_lt earlier)]
          exact ih definition (Nat.lt_of_lt_of_le earlier (Nat.le_of_lt_succ enough))

theorem externality_isOk (good : Good host types loading) (ref : TypeRef) :
    ∃ external, loading.table.externality ref = .ok external := by
  cases found : loading.table.types[ref]? with
  | none => exact ⟨_, SymbolTable.externality_of_missing found⟩
  | some symbol =>
    exact externalityWithin_isOk good _ ref (Nat.lt_succ_of_lt (Array.getElem?_eq_some_iff.mp found).1)

theorem typeFile_plain (good : Good host types loading) (ref : TypeRef) :
    ∃ file, loading.table.typeFile ref = .ok file ∧ (file = none ∨ ∃ path, path ≠ "" ∧ file = some (.text path)) := by
  obtain ⟨external, asked⟩ := externality_isOk good ref
  refine ⟨_, by rw [SymbolTable.typeFile, asked]; rfl, ?_⟩
  split
  · exact Or.inl rfl
  · rcases plain_definitionFile good ref with none | ⟨path, given, located⟩
    · rw [none]
      exact Or.inl rfl
    · have present := (Host.locate_eq_ok.mp located).1
      rw [given]
      exact Or.inr ⟨path, present, by simp [Document.ifSet, Document.isSet, present]⟩

/-- The ids of methods and members can name something. -/
structure Nameable (table : SymbolTable) : Prop where
  methods : ∀ symbol ∈ table.methods.toList, symbol.id.key?.isSome = true
  members : ∀ symbol, table.Lists (.plain symbol) → symbol.id.key?.isSome = true

theorem nameable_iff {table : SymbolTable} : Nameable table ↔ (∀ symbol ∈ table.methods.toList, symbol.id.key?.isSome = true)
    ∧ ∀ symbol ∈ table.types.toList, ∀ member ∈ symbol.members,
      (match member with | some (.plain symbol) => symbol.id.key?.isSome | _ => true) = true := by
  constructor
  · intro nameable
    refine ⟨nameable.methods, fun symbol listed member inside => ?_⟩
    split
    · next plain => exact nameable.members plain ⟨symbol, listed, inside⟩
    · rfl
  · rintro ⟨methods, members⟩
    exact ⟨methods, fun plain ⟨symbol, listed, inside⟩ => members symbol listed _ inside⟩

instance (table : SymbolTable) : Decidable (Nameable table) := decidable_of_iff' _ nameable_iff

theorem walkable_of_good (good : Good host types loading) (nameable : Nameable loading.table) : loading.table.Walkable where
  toLinked := linked_of_good good
  typeIds symbol listed := by
    obtain ⟨ref, there⟩ := List.mem_iff_getElem?.mp listed
    rw [Array.getElem?_toList] at there
    obtain ⟨key, keyed, _⟩ := good.lookup_of_found there
    rw [keyed]
    rfl
  methodIds := nameable.methods
  memberIds := nameable.members
  files := typeFile_plain good

theorem declaredIn_of_declared {entry : Document} {key : Key} {ref : TypeRef} {path : String}
    (declared : Declared host loading entry) (keyed : (entry.field "id").key? = some key)
    (found : loading.ids.lookup key = some ref) (internal : (entry.field "external").isSet = false)
    (placed : placeOf? host loading.path (entry.field "file") = some path) : loading.table.DeclaredIn ref path := by
  obtain ⟨other, place, name, file, symbol, same, located, looked, there, frozen⟩ := declared
  cases keyed.symm.trans same
  cases found.symm.trans looked
  have text : symbol.file = .text path := by
    rw [frozen.file]
    rcases located with ⟨unset, rfl⟩ | ⟨_, other, given, rfl⟩
    · unfold placeOf? at placed
      split at placed
      · next text spelled =>
        rw [spelled] at unset
        split at placed
        · cases placed
        · next present => simp [Document.isSet, present] at unset
      · cases placed
    · cases placed.symm.trans given
      rfl
  refine ⟨.bool false, ?_, rfl, ?_, (Host.locate_eq_ok.mp (locate_of_placeOf? placed)).1⟩
  · rw [SymbolTable.externality, SymbolTable.externalityWithin]
    simp [there, frozen.kind, frozen.definition, frozen.external, text, internal, externality, TypeKind.isConstructed,
      Document.isSet, Document.isNull]
  · rw [SymbolTable.definitionFile, SymbolTable.definition]
    simp [there, frozen.definition, text]

end Walking

end DeclGraph.Manifest
