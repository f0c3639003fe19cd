import DeclGraph.Proofs.BuiltTypes
import DeclGraph.Proofs.ManifestTable

/-!
The files of closed generics. A type may be closed over one that is itself closed over another, and so on down to an
original. Whether a type is external is asked of the original, while its file is asked of what it is closed over at first
hand. The two agree as long as that is the original.
-/

namespace DeclGraph

theorem Document.eq_null_of_isNull {value : Document} (null : value.isNull = true) : value = .null := by
  unfold Document.isNull at null
  split at null
  · rfl
  · cases null

namespace SymbolTable

variable {table : SymbolTable} {ref root : TypeRef}

/-- The type that another is closed over in the end. A type that is closed over nothing is its own original. -/
inductive OriginalOf (table : SymbolTable) : TypeRef → TypeRef → Prop
  | self {ref : TypeRef} {symbol : TypeSymbol} (found : table.types[ref]? = some symbol)
      (last : symbol.originalDefinition = none) : OriginalOf table ref ref
  | closed {ref definition root : TypeRef} {symbol : TypeSymbol} (found : table.types[ref]? = some symbol)
      (defined : symbol.originalDefinition = some definition) (rest : OriginalOf table definition root) :
      OriginalOf table ref root

theorem OriginalOf.unique {other : TypeRef} (original : table.OriginalOf ref root) (also : table.OriginalOf ref other) :
    root = other := by
  induction original with
  | self found last =>
    cases also with
    | self => rfl
    | closed again defined =>
      cases found.symm.trans again
      cases last.symm.trans defined
  | closed found defined _ ih =>
    cases also with
    | self again last =>
      cases found.symm.trans again
      cases defined.symm.trans last
    | closed again otherwise rest =>
      cases found.symm.trans again
      cases defined.symm.trans otherwise
      exact ih rest

theorem OriginalOf.last (original : table.OriginalOf ref root) :
    ∃ symbol, table.types[root]? = some symbol ∧ symbol.originalDefinition = none := by
  induction original with
  | self found last => exact ⟨_, found, last⟩
  | closed _ _ _ ih => exact ih

theorem definition_of_found {symbol : TypeSymbol} (found : table.types[ref]? = some symbol) :
    table.definition ref = symbol.originalDefinition.getD ref := by
  rw [definition, found]

theorem OriginalOf.definition_eq_iff (original : table.OriginalOf ref root) :
    table.definition ref = root ↔ table.OriginalOf (table.definition ref) (table.definition ref) := by
  have follows : table.OriginalOf (table.definition ref) root := by
    cases original with
    | self found last =>
      rw [definition_of_found found, last]
      exact .self found last
    | closed found defined rest =>
      rw [definition_of_found found, defined]
      exact rest
  constructor
  · intro same
    rwa [← same] at follows
  · exact fun alone => alone.unique follows

theorem externality_of_original (earlier : ∀ (ref : TypeRef) (symbol : TypeSymbol), table.types[ref]? = some symbol →
      ∀ definition, symbol.originalDefinition = some definition → definition < ref)
    (original : table.OriginalOf ref root) {steps : Nat} {external : Document}
    (asked : table.externalityWithin steps ref = .ok external) (internal : external.isSet = false) :
    ∃ symbol, table.types[root]? = some symbol ∧ DeclGraph.externality symbol.external symbol.file = external := by
  induction original generalizing steps with
  | @self ref symbol found last =>
    cases steps with
    | zero => cases asked
    | succ steps =>
      rw [externalityWithin, found] at asked
      dsimp only at asked
      split at asked
      · cases asked
        cases internal
      · rw [last] at asked
        exact ⟨symbol, found, Except.ok.inj asked⟩
  | @closed ref definition root symbol found defined rest ih =>
    cases steps with
    | zero => cases asked
    | succ steps =>
      rw [externalityWithin, found] at asked
      dsimp only at asked
      split at asked
      · cases asked
        cases internal
      · rw [defined] at asked
        dsimp only at asked
        rw [if_neg (Nat.ne_of_lt (earlier ref symbol found definition defined))] at asked
        exact ih asked

theorem typeFile_of_fileless {external : Document} (asked : table.externality ref = .ok external)
    (fileless : table.definitionFile ref = .null) : table.typeFile ref = .ok none := by
  rw [typeFile, asked, fileless]
  simp [Document.ifSet, Document.isSet]

theorem file_of_internal {external file : Document} (internal : (DeclGraph.externality external file).isSet = false) :
    file ≠ .null := by
  rintro rfl
  rw [DeclGraph.externality] at internal
  split at internal
  · next set => exact absurd internal (by rw [set]; decide)
  · cases internal

end SymbolTable

namespace Manifest

open Load

section Files

variable {host : Host} {types : List Document} {loading : Loading}

theorem exists_original (good : Good host types loading) {ref : TypeRef} (inside : ref < loading.table.types.size) :
    ∃ root, loading.table.OriginalOf ref root := by
  induction ref using Nat.strong_induction_on with
  | _ ref ih =>
    have found : loading.table.types[ref]? = some loading.table.types[ref] := Array.getElem?_eq_getElem inside
    cases defined : loading.table.types[ref].originalDefinition with
    | none => exact ⟨ref, .self found defined⟩
    | some definition =>
      have earlier := good.earlier ref _ found definition defined
      obtain ⟨root, rest⟩ := ih definition earlier (Nat.lt_trans earlier inside)
      exact ⟨root, .closed found defined rest⟩

/-- Only a closed generic has a definition, and no entry of a manifest gives it a file. -/
theorem file_of_closed (good : Good host types loading) {ref definition : TypeRef} {symbol : TypeSymbol}
    (found : loading.table.types[ref]? = some symbol) (defined : symbol.originalDefinition = some definition) :
    symbol.file = .null := by
  obtain ⟨key, _, looked⟩ := good.lookup_of_found found
  obtain ⟨fresh, same, again, arises⟩ := good.arises key ref looked
  cases found.symm.trans again
  rw [arises.frozen.definition] at defined
  rw [arises.frozen.file]
  cases arises.origin with
  | built _ _ _ shaped => cases shaped <;> rfl
  | _ => cases defined

/-- A type from the sources and the file that its original is declared in. A reference to the type gives the file if,
and only if, the original is its definition. -/
structure Sourced (host : Host) (table : SymbolTable) (ref root : TypeRef) (path : String) : Prop where
  original : table.OriginalOf ref root
  placed : ∃ symbol, table.types[root]? = some symbol ∧ symbol.file = .text path
  located : host.locate path = .ok path
  told : table.definition ref = root → table.DeclaredIn ref path
  /-- What the type is closed over is itself closed over another, and has no file. -/
  untold : table.definition ref ≠ root → table.definitionFile ref = .null ∧ table.typeFile ref = .ok none

theorem sourced_of_internal (good : Good host types loading) {ref : TypeRef} {symbol : TypeSymbol}
    (found : loading.table.types[ref]? = some symbol) {external : Document}
    (asked : loading.table.externality ref = .ok external) (internal : external.isSet = false) :
    ∃ root path, Sourced host loading.table ref root path := by
  obtain ⟨root, original⟩ := exists_original good (Array.getElem?_eq_some_iff.mp found).1
  obtain ⟨last, there, same⟩ := SymbolTable.externality_of_original good.earlier original asked internal
  have declared := SymbolTable.file_of_internal (same ▸ internal)
  obtain ⟨path, file, located⟩ := (plainFile good there).resolve_left declared
  have present := (Host.locate_eq_ok.mp located).1
  refine ⟨root, path, original, ⟨last, there, file⟩, located, fun agrees => ?_, fun differs => ?_⟩
  · exact ⟨external, asked, internal, by rw [SymbolTable.definitionFile, agrees, there]; exact file, present⟩
  · -- The definition is no original, so it is closed over something and has no file.
    have fileless : loading.table.definitionFile ref = .null := by
      rw [SymbolTable.definitionFile]
      cases middle : loading.table.types[loading.table.definition ref]? with
      | none => rfl
      | some between =>
        cases closed : between.originalDefinition with
        | none => exact absurd (original.definition_eq_iff.mpr (.self middle closed)) differs
        | some further => exact file_of_closed good middle closed
    exact ⟨fileless, SymbolTable.typeFile_of_fileless asked fileless⟩

/-- Each type of a manifest that opens can be asked whether it is external. If it is not, its original is declared in a
file, and a reference to the type gives that file if the type is closed over its original, or over nothing at all. -/
theorem internal_types_are_sourced {given : Document} {opening opened : World} {unit : CompilationUnit}
    (ran : (openUnit host given).outcome opening = (.ok unit, opened)) : ∃ manifest, unit.handle = .manifest manifest
      ∧ ∀ (ref : TypeRef) (symbol : TypeSymbol), manifest.table.types[ref]? = some symbol →
        ∃ external, manifest.table.externality ref = .ok external
          ∧ (external.isSet = false → ∃ root path, Sourced host manifest.table ref root path) := by
  obtain ⟨data, types, manifest, loading, opened⟩ := exists_opened ran
  refine ⟨manifest, opened.handle, fun ref symbol found => ?_⟩
  rw [← opened.table] at found ⊢
  obtain ⟨external, asked⟩ := externality_isOk opened.reading.good ref
  exact ⟨external, asked, sourced_of_internal opened.reading.good found asked⟩

end Files

section Sample

def closedField (definition : Document) : List Document :=
  [typeEntry "A" "a.cs" [fieldEntry "z" [("definition", definition), ("arguments", .texts ["A"])]],
    typeEntry "B" "b.cs" []]

def closedOnce : Document := .object [("definition", .text "B"), ("arguments", .texts ["A"])]

theorem plain_closedField {definition : Document} (plain : Json.Plain definition) :
    Json.Plain (listing (closedField definition)) := by
  have field : Json.Plain (fieldEntry "z" [("definition", definition), ("arguments", .texts ["A"])]) :=
    plain_fieldEntry _ (by simp) (by simp [Json.plain_texts, plain])
  exact plain_listing (by simp [closedField, plain_typeEntry, field])

/-- A type that is closed over a declared one has its file. -/
theorem internal_types_are_sourced_closed : ∃ manifest,
    (openUnit Saved.sampleHost (.text "u.json")).outcome (writtenWorld (listing (closedField (.text "B")))) =
        (.ok ⟨"/w/u.json", "u.json", .manifest manifest⟩, writtenWorld (listing (closedField (.text "B"))))
      ∧ manifest.table.OriginalOf 2 1 ∧ manifest.table.DeclaredIn 2 "/w/b.cs" := by
  obtain ⟨manifest, loaded⟩ : ∃ manifest, loadWritten (listing (closedField (.text "B"))) = .ok manifest :=
    exists_loadWritten (by decide +kernel)
  have opens := openUnit_written (plain_closedField (.text "B")) rfl rfl loaded
  obtain ⟨_, handle, sourced⟩ := internal_types_are_sourced opens
  cases handle
  have there := holds_of_loadWritten (fun manifest => 2 < manifest.table.types.size) loaded (by decide +kernel)
  obtain ⟨external, asked, leads⟩ := sourced 2 _ (Array.getElem?_eq_getElem there)
  have internal := holds_of_loadWritten
    (fun manifest => (manifest.table.externality 2).toOption.map Document.isSet = some false) loaded (by decide +kernel)
  rw [asked] at internal
  obtain ⟨root, path, found⟩ := leads (Option.some.inj internal)
  have definition := holds_of_loadWritten (·.table.definition 2 = 1) loaded (by decide +kernel)
  have file := holds_of_loadWritten (fun manifest => (manifest.table.definitionFile 2).text? = some "/w/b.cs") loaded (by decide +kernel)
  have alone := holds_of_loadWritten
    (fun manifest => (manifest.table.types[1]?).any (·.originalDefinition.isNone) = true) loaded (by decide +kernel)
  obtain ⟨symbol, declared, last⟩ := Option.any_eq_true _ _ |>.mp alone
  have agrees : manifest.table.definition 2 = root := by
    refine found.original.definition_eq_iff.mpr ?_
    rw [definition]
    exact .self declared (Option.isNone_iff_eq_none.mp last)
  obtain ⟨external, _, _, same, present⟩ := found.told agrees
  rw [same] at file
  obtain rfl : path = "/w/b.cs" := Option.some.inj file
  exact ⟨manifest, opens, (agrees.symm.trans definition) ▸ found.original, found.told agrees⟩

/-- A type that is closed over a closed one comes from the sources and has no file. -/
theorem closed_over_closed_has_no_file : ∃ manifest external,
    (openUnit Saved.sampleHost (.text "u.json")).outcome (writtenWorld (listing (closedField closedOnce))) =
        (.ok ⟨"/w/u.json", "u.json", .manifest manifest⟩, writtenWorld (listing (closedField closedOnce)))
      ∧ 3 < manifest.table.types.size ∧ manifest.table.externality 3 = .ok external ∧ external.isSet = false
      ∧ manifest.table.definitionFile 3 = .null ∧ manifest.table.typeFile 3 = .ok none := by
  obtain ⟨manifest, loaded⟩ : ∃ manifest, loadWritten (listing (closedField closedOnce)) = .ok manifest :=
    exists_loadWritten (by decide +kernel)
  have once : Json.Plain closedOnce := .object (by simp) (by simp [Json.Plain.text, Json.plain_texts])
  have opens := openUnit_written (plain_closedField once) rfl rfl loaded
  have inside := holds_of_loadWritten (fun manifest => 3 < manifest.table.types.size) loaded (by decide +kernel)
  have internal := holds_of_loadWritten
    (fun manifest => (manifest.table.externality 3).toOption.map Document.isSet = some false) loaded (by decide +kernel)
  have fileless := holds_of_loadWritten (fun manifest => (manifest.table.definitionFile 3).isNull = true) loaded
    (by decide +kernel)
  obtain ⟨external, given, unset⟩ := Option.map_eq_some_iff.mp internal
  have asked := eq_ok_of_toOption given
  have null := Document.eq_null_of_isNull fileless
  exact ⟨manifest, external, opens, inside, asked, unset, null, SymbolTable.typeFile_of_fileless asked null⟩

end Sample

end Manifest

end DeclGraph
