import DeclGraph.Proofs.MalformedManifests
import DeclGraph.Proofs.YamlValues

/-!
What opening a manifest comes to: a unit, a report of a malformed manifest, or a failure that escapes, as a value is
misplaced or an integer has too many digits.
-/

namespace DeclGraph.Manifest

open Document (Nesting)
open Load (entriesIn Counted Reported)

section Loaded

variable {host : Host} {given data : Document} {path : String} {depth fuel : Nat}

/-- Something of a manifest cannot be written: an integer of too many digits, or the place of a member among too many. -/
def Unwritable (data : Document) : Prop :=
  data.isShowable = false ∨ ∃ types, entriesIn data = some types ∧ ∃ entry ∈ types, ¬ Counted False entry

theorem nested_unwritable (nested : Nesting True depth data) : Nesting (Unwritable data) depth data := by
  refine nested.of_isShowable ?_
  cases shows : data.isShowable with
  | true => exact Or.inl rfl
  | false => exact Or.inr (Or.inl shows)

theorem counted_unwritable {types : List Document} (given : entriesIn data = some types) :
    ∀ entry ∈ types, Counted (Unwritable data) entry := by
  intro entry listed
  by_cases counted : Counted False entry
  · exact fun index inside => (counted index inside).imp_right False.elim
  · exact fun _ _ => Or.inr (Or.inr ⟨types, given, entry, listed, counted⟩)

theorem checks_loaded (nested : Nesting True depth data) (enough : depth ≤ 2 * fuel) :
    Load.Checks (Unwritable data) { path } (Load.unit host fuel data) (Misplaced data) :=
  Load.checks_unit (nested_unwritable nested) enough fun _ => counted_unwritable

theorem clear_of_load {manifest : ManifestUnit} (nested : Nesting True depth data) (enough : depth ≤ 2 * fuel)
    (loaded : load host path fuel data = .ok manifest) (fault : Fault) : ¬ Misplaced data fault := by
  obtain ⟨⟨unit, after⟩, ran, _⟩ := bind_eq_ok.mp loaded
  exact (checks_loaded nested enough).clear unit after ran fault

theorem fails_of_load {fault : Fault} (nested : Nesting True depth data) (enough : depth ≤ 2 * fuel)
    (failed : load host path fuel data = .error fault) : Reported (Unwritable data) fault ∨ Misplaced data fault := by
  rcases bind_eq_error.mp failed with failed | ⟨_, _, failed⟩
  · exact (checks_loaded nested enough).fails fault failed
  · cases failed

theorem fails_of_unitName {fault : Fault} (nested : Nesting True depth data)
    (failed : unitName path (data.field "name") = .error fault) : Unwritable data ∧ fault = .numeral .tooLongToWrite := by
  unfold unitName at failed
  split at failed
  · cases failed
  · next name given =>
    have inner := ((nested_unwritable nested).field "name").ifSet given
    split at failed
    · cases failed
    · next hides =>
      cases failed
      exact ⟨inner.isShowable.resolve_left hides, rfl⟩

end Loaded

section Read

variable {given document data : Document} {path : String} {bytes : ByteArray} {fault : Fault}

theorem unlabelled_of_json (json : ".json".toList.isSuffixOf path.toList = true)
    (read : documentOf given path bytes = .ok document) : document.Unlabelled := by
  rw [documentOf, if_pos json, jsonDocument] at read
  split at read
  · cases read
  · split at read
    · next parsed =>
      cases read
      exact ⟨_, (Json.parse_nested parsed).imp False.elim⟩
    · cases read
    · cases read

/-- What is stored does not nest more mappings than a manifest with so many bytes is read for. -/
theorem nested_documentOf (read : documentOf given path bytes = .ok document) (plain : document.Unlabelled) :
    Nesting True (2 * (bytes.size + 1)) document := by
  unfold documentOf at read
  split at read
  · unfold jsonDocument at read
    split at read
    · cases read
    · next text decoded =>
      split at read
      · next found parsed =>
        cases read
        have short := Text.length_ofBytes decoded
        exact ((Json.parse_nested parsed).imp False.elim).mono (by omega)
      · cases read
      · cases read
  · unfold yamlDocument at read
    split at read
    · next found parsed =>
      cases read
      exact (Yaml.parse_nested parsed plain).mono (by omega)
    · cases read
    · cases read

theorem mappingOf_eq_ok (given : Document) (made : mappingOf given document = .ok data) :
    data = document ∨ data = .map [] := by
  unfold mappingOf at made
  split at made
  · cases made
    exact Or.inr rfl
  · split at made
    · cases made
      exact Or.inl rfl
    · cases made

theorem nested_data (read : documentOf given path bytes >>= mappingOf given = .ok data)
    (plain : ∀ document, documentOf given path bytes = .ok document → document.Unlabelled) :
    Nesting True (2 * (bytes.size + 1)) data := by
  obtain ⟨document, found, made⟩ := bind_eq_ok.mp read
  rcases mappingOf_eq_ok given made with rfl | rfl
  · exact nested_documentOf found (plain _ found)
  · exact .map (by simp) (by simp)

theorem mappingOf_error (failed : mappingOf given document = .error fault) : fault.kind = .malformedManifest := by
  unfold mappingOf at failed
  split at failed
  · cases failed
  · split at failed
    · cases failed
    · cases failed
      rfl

/-- The failures of opening a manifest that are not reported as those of a malformed one: its bytes are no text, a numeral in
it has too many digits, a value is misplaced, or an integer has too many digits to be written. -/
inductive Escapes (given : Document) (path : String) (bytes : ByteArray) : Fault → Prop
  | undecodable {flaw : Text.Flaw} (json : ".json".toList.isSuffixOf path.toList = true)
      (flawed : Text.ofBytes bytes = .error flaw) : Escapes given path bytes (.undecodable flaw)
  | numeral {text : String} {defect : Numeral.Defect} (json : ".json".toList.isSuffixOf path.toList = true)
      (read : Text.ofBytes bytes = .ok text) (refused : Json.parse text = .error (.numeral defect)) :
      Escapes given path bytes (.numeral defect)
  | scalar {fault : Fault} (yaml : ".json".toList.isSuffixOf path.toList = false)
      (refused : Yaml.parse bytes = .error (.unusable fault)) : Escapes given path bytes fault
  | misplaced {data : Document} {fault : Fault} (read : documentOf given path bytes >>= mappingOf given = .ok data)
      (misplaced : Misplaced data fault) : Escapes given path bytes fault
  | unwritable {data : Document} (read : documentOf given path bytes >>= mappingOf given = .ok data)
      (unwritable : Unwritable data) : Escapes given path bytes (.numeral .tooLongToWrite)

theorem documentOf_error (failed : documentOf given path bytes = .error fault) :
    fault.kind = .malformedManifest ∨ Escapes given path bytes fault := by
  unfold documentOf at failed
  split at failed
  · next json =>
    unfold jsonDocument at failed
    split at failed
    · next flaw flawed =>
      cases failed
      exact Or.inr (.undecodable json flawed)
    · next text read =>
      split at failed
      · cases failed
      · cases failed
        exact Or.inl rfl
      · next defect refused =>
        cases failed
        exact Or.inr (.numeral json read refused)
  · next yaml =>
    unfold yamlDocument at failed
    split at failed
    · cases failed
    · next refused =>
      cases failed
      exact Or.inr (.scalar (Bool.eq_false_iff.mpr yaml) refused)
    · cases failed
      exact Or.inl rfl

end Read

section Opened

variable {host : Host} {given : Document} {path : String} {bytes : ByteArray} {opening : World}

/-- Whatever a manifest holds, as long as it does not contain itself: opening it changes nothing. A unit is opened only if
nothing is misplaced, and a failure is that of a malformed manifest unless it escapes. -/
theorem opens_or_reports (located : host.locateValue given = .ok path) (looked : opening.tree.look path = .ok (.file bytes))
    (plain : ∀ document, documentOf given path bytes = .ok document → document.Unlabelled) :
    (∀ unit opened, (openUnit host given).outcome opening = (.ok unit, opened) → opened = opening
      ∧ ∃ data, StoredAt host given opening.tree path bytes data ∧ ∀ fault, ¬ Misplaced data fault)
    ∧ ∀ fault opened, (openUnit host given).outcome opening = (.error fault, opened) → opened = opening
      ∧ (fault.kind = .malformedManifest ∨ Escapes given path bytes fault) := by
  rw [outcome_openUnit located looked]
  constructor
  · intro unit opened opens
    obtain ⟨ran, rfl⟩ := Prod.mk.inj opens
    obtain ⟨data, read, ran⟩ := bind_eq_ok.mp ran
    obtain ⟨manifest, loaded, _⟩ := bind_eq_ok.mp ran
    exact ⟨rfl, data, ⟨located, looked, read⟩, clear_of_load (nested_data read plain) (Nat.le_refl _) loaded⟩
  · intro fault opened fails
    obtain ⟨ran, rfl⟩ := Prod.mk.inj fails
    refine ⟨rfl, ?_⟩
    rcases bind_eq_error.mp ran with unread | ⟨data, read, ran⟩
    · rcases bind_eq_error.mp unread with unread | ⟨document, _, unmade⟩
      · exact documentOf_error unread
      · exact Or.inl (mappingOf_error unmade)
    · rcases bind_eq_error.mp ran with unloaded | ⟨manifest, _, ran⟩
      · rcases fails_of_load (nested_data read plain) (Nat.le_refl _) unloaded with (reported | ⟨long, rfl⟩) | misplaced
        · exact Or.inl reported
        · exact Or.inr (.unwritable read long)
        · exact Or.inr (.misplaced read misplaced)
      · rcases bind_eq_error.mp ran with unnamed | ⟨name, _, done⟩
        · obtain ⟨long, rfl⟩ := fails_of_unitName (nested_data read plain) unnamed
          exact Or.inr (.unwritable read long)
        · cases done

end Opened

section Sample

def interfacing (interfaces : Document) : Document :=
  .object [("types", .list [.object [("id", .text "A"), ("interfaces", interfaces)]])]

theorem plain_interfacing {interfaces : Document} (plain : Json.Plain interfaces) : Json.Plain (interfacing interfaces) := by
  have entry : Json.Plain (.object [("id", .text "A"), ("interfaces", interfaces)]) :=
    .object (by simp) (by simp [plain, Json.Plain.text])
  exact .object (by simp) (by simp [Json.Plain.list (List.forall_mem_singleton.mpr entry)])

theorem opens_or_reports_interfacing :
    Saved.sampleHost.locateValue (.text "u.json") = .ok "/w/u.json"
      ∧ (writtenWorld (interfacing (.nat 5))).tree.look "/w/u.json" =
        .ok (.file (Json.write .plain (interfacing (.nat 5))).toUTF8)
      ∧ (∀ document, documentOf (.text "u.json") "/w/u.json" (Json.write .plain (interfacing (.nat 5))).toUTF8 = .ok document →
        document.Unlabelled)
      ∧ ∀ fault opened,
        (openUnit Saved.sampleHost (.text "u.json")).outcome (writtenWorld (interfacing (.nat 5))) = (.error fault, opened) →
          opened = writtenWorld (interfacing (.nat 5)) ∧ (fault.kind = .malformedManifest
            ∨ Escapes (.text "u.json") "/w/u.json" (Json.write .plain (interfacing (.nat 5))).toUTF8 fault) := by
  have stored := storedAt_written (plain_interfacing (.digit (by decide : 5 < 10))) rfl
  have plain := fun document => @unlabelled_of_json (.text "u.json") document "/w/u.json"
    (Json.write .plain (interfacing (.nat 5))).toUTF8 (by decide)
  exact ⟨stored.located, stored.looked, plain, (opens_or_reports stored.located stored.looked plain).2⟩

/-- A number as the interfaces of a type is no list of them, and the failure that this leads to is no report of a malformed
manifest. -/
theorem misplaced_interfaces_escape : ∃ fault,
    (openUnit Saved.sampleHost (.text "u.json")).outcome (writtenWorld (interfacing (.nat 5))) =
        (.error fault, writtenWorld (interfacing (.nat 5)))
      ∧ fault.kind = .wrongType := by
  have failed : ∃ fault, loadWritten (interfacing (.nat 5)) = .error fault ∧ fault.kind = .wrongType := by
    have computed : (match loadCounted (interfacing (.nat 5)) with
      | .error fault => decide (fault.kind = .wrongType)
      | .ok _ => false) = true := by decide +kernel
    rw [loadCounted_eq] at computed
    cases failed : loadWritten (interfacing (.nat 5)) with
    | ok manifest => exact nomatch failed ▸ computed
    | error fault =>
      rw [failed] at computed
      exact ⟨fault, rfl, of_decide_eq_true computed⟩
  obtain ⟨fault, failed, kind⟩ := failed
  have stored := storedAt_written (plain_interfacing (.digit (by decide : 5 < 10))) rfl
  refine ⟨fault, ?_, kind⟩
  rw [outcome_openUnit stored.located stored.looked]
  exact congrArg (·, writtenWorld (interfacing (.nat 5)))
    (bind_eq_error.mpr (Or.inr ⟨_, stored.parsed, bind_eq_error.mpr (Or.inl failed)⟩))

end Sample

end DeclGraph.Manifest
