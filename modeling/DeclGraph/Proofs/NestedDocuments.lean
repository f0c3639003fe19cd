import Mathlib
import DeclGraph.Proofs.ManifestContents

/-!
Documents that do not contain themselves, by how deep mappings are nested in them. The value of a field is less deep than
its mapping, and the references in such a document can be followed to their end. Everything in it can be shown, unless it
holds integers of too many digits.
-/

namespace DeclGraph

theorem Entries.mem_of_find?_eq_some {entries : Entries} {key : Key} {value : Document}
    (found : entries.find? key = some value) : ∃ name, (name, value) ∈ entries := by
  induction entries with
  | nil => cases found
  | cons entry rest ih =>
    rw [Entries.find?] at found
    split at found
    · cases found
      exact ⟨entry.1, List.mem_cons_self⟩
    · obtain ⟨name, among⟩ := ih found
      exact ⟨name, List.mem_cons_of_mem _ among⟩

theorem Numeral.isTooLong_eq_false {value : Int} {count : Nat} (few : value.natAbs < 10 ^ count)
    (within : count ≤ digitLimit) :
    isTooLong value = false := by
  unfold isTooLong
  generalize digitLimit = limit at within ⊢
  exact decide_eq_false (Nat.not_le.mpr (Nat.lt_of_lt_of_le few (Nat.pow_le_pow_right (Nat.succ_pos 9) within)))

namespace Document

theorem isShowable_byte (byte : UInt8) : (Scalar.int (Int.ofNat byte.toNat)).isShowable = true := by
  have few : (Int.ofNat byte.toNat).natAbs < 10 ^ 3 := Nat.lt_trans byte.toNat_lt (by decide)
  rw [Scalar.isShowable, Numeral.isTooLong_eq_false few (by decide)]
  rfl

theorem showableItems_iff {items : List Document} :
    showableItems items = true ↔ ∀ item ∈ items, item.isShowable = true := by
  induction items with
  | nil => simp [showableItems]
  | cons item rest ih => simp [showableItems, ih]

theorem showableEntries_iff {entries : List (Scalar × Document)} :
    showableEntries entries = true ↔ ∀ entry ∈ entries, entry.1.isShowable = true ∧ entry.2.isShowable = true := by
  induction entries with
  | nil => simp [showableEntries]
  | cons entry rest ih => simp [showableEntries, ih]

theorem filledItems_eq {values : List (Nat × Document)} {items : List Document}
    (each : ∀ item ∈ items, filled values item = item) : filledItems values items = items := by
  induction items with
  | nil => rfl
  | cons item rest ih =>
    rw [filledItems, each item List.mem_cons_self, ih fun other later => each other (List.mem_cons_of_mem _ later)]

theorem filledEntries_eq {values : List (Nat × Document)} {entries : List (Scalar × Document)}
    (each : ∀ entry ∈ entries, filled values entry.2 = entry.2) : filledEntries values entries = entries := by
  induction entries with
  | nil => rfl
  | cons entry rest ih =>
    rw [filledEntries, each entry List.mem_cons_self, ih fun other later => each other (List.mem_cons_of_mem _ later)]

/-- A value that does not contain itself, in which fewer than `depth` mappings stand one in another. Unless `hidden`, all of
it can be shown. -/
inductive Nesting (hidden : Prop) : Nat → Document → Prop
  | scalar {depth : Nat} {value : Scalar} (shown : value.isShowable = true ∨ hidden) :
    Nesting hidden (depth + 1) (.scalar value)
  | list {depth : Nat} {items : List Document} (each : ∀ item ∈ items, Nesting hidden (depth + 1) item) :
      Nesting hidden (depth + 1) (.list items)
  | map {depth : Nat} {entries : List (Scalar × Document)} (keys : ∀ entry ∈ entries, entry.1.isShowable = true ∨ hidden)
      (values : ∀ entry ∈ entries, Nesting hidden depth entry.2) : Nesting hidden (depth + 1) (.map entries)
  | pair {depth : Nat} {first second : Document} (left : Nesting hidden (depth + 1) first)
      (right : Nesting hidden (depth + 1) second) : Nesting hidden (depth + 1) (.pair first second)
  | set {depth : Nat} {members : List Scalar} (shown : ∀ member ∈ members, member.isShowable = true ∨ hidden) :
      Nesting hidden (depth + 1) (.set members)

/-- A value that does not contain itself. -/
def Unlabelled (value : Document) : Prop := ∃ depth, Nesting True depth value

namespace Nesting

variable {hidden : Prop} {depth : Nat} {value : Document}

theorem null : Nesting hidden (depth + 1) .null := .scalar (Or.inl rfl)

theorem text (value : String) : Nesting hidden (depth + 1) (.text value) := .scalar (Or.inl rfl)

theorem pos (nested : Nesting hidden depth value) : 0 < depth := by
  cases nested <;> exact Nat.succ_pos _

theorem mono {more : Nat} (nested : Nesting hidden depth value) (deeper : depth ≤ more) : Nesting hidden more value := by
  induction nested generalizing more with
  | scalar shown =>
    obtain ⟨more, rfl⟩ := Nat.exists_eq_add_of_lt deeper
    exact .scalar shown
  | list _ ih =>
    obtain ⟨more, rfl⟩ := Nat.exists_eq_add_of_lt deeper
    exact .list fun item listed => ih item listed (by omega)
  | map keys _ ih =>
    obtain ⟨more, rfl⟩ := Nat.exists_eq_add_of_lt deeper
    exact .map keys fun entry listed => ih entry listed (by omega)
  | pair _ _ left right =>
    obtain ⟨more, rfl⟩ := Nat.exists_eq_add_of_lt deeper
    exact .pair (left (by omega)) (right (by omega))
  | set shown =>
    obtain ⟨more, rfl⟩ := Nat.exists_eq_add_of_lt deeper
    exact .set shown

theorem isShowable (nested : Nesting hidden depth value) : value.isShowable = true ∨ hidden := by
  by_cases hides : hidden
  · exact Or.inr hides
  · refine Or.inl ?_
    induction nested with
    | scalar shown => exact shown.resolve_right hides
    | list _ ih => exact showableItems_iff.mpr ih
    | map keys _ ih =>
      exact showableEntries_iff.mpr fun entry listed => ⟨(keys entry listed).resolve_right hides, ih entry listed⟩
    | pair _ _ left right =>
      rw [Document.isShowable, left, right]
      rfl
    | set shown => exact List.all_eq_true.mpr fun member listed => (shown member listed).resolve_right hides

theorem imp {other : Prop} (nested : Nesting hidden depth value) (more : hidden → other) : Nesting other depth value := by
  induction nested with
  | scalar shown => exact .scalar (shown.imp_right more)
  | list _ ih => exact .list ih
  | map keys _ ih => exact .map (fun entry listed => (keys entry listed).imp_right more) ih
  | pair _ _ left right => exact .pair left right
  | set shown => exact .set fun member listed => (shown member listed).imp_right more

theorem of_isShowable (nested : Nesting True depth value) (shows : value.isShowable = true ∨ hidden) :
    Nesting hidden depth value := by
  induction nested with
  | scalar => exact .scalar shows
  | list _ ih =>
    exact .list fun item listed => ih item listed (shows.imp_left fun all => showableItems_iff.mp all item listed)
  | map _ _ ih =>
    exact .map (fun entry listed => shows.imp_left fun all => (showableEntries_iff.mp all entry listed).1)
      fun entry listed => ih entry listed (shows.imp_left fun all => (showableEntries_iff.mp all entry listed).2)
  | pair _ _ left right =>
    simp only [Document.isShowable, Bool.and_eq_true] at shows
    exact .pair (left (shows.imp_left And.left)) (right (shows.imp_left And.right))
  | set => exact .set fun member listed => shows.imp_left fun all => List.all_eq_true.mp all member listed

theorem filled (nested : Nesting hidden depth value) (values : List (Nat × Document)) :
    Document.filled values value = value := by
  induction nested with
  | scalar => rfl
  | list _ ih => rw [Document.filled, filledItems_eq ih]
  | map _ _ ih => rw [Document.filled, filledEntries_eq ih]
  | pair _ _ left right => rw [Document.filled, left, right]
  | set => rfl

theorem opened (nested : Nesting hidden depth value) : value.opened = value := by
  cases nested <;> rfl

theorem entries {found : Entries} (nested : Nesting hidden (depth + 1) value) (mapping : value.entries? = some found) :
    ∀ entry ∈ found, (entry.1.isShowable = true ∨ hidden) ∧ Nesting hidden depth entry.2 := by
  rw [entries?, nested.opened] at mapping
  cases nested with
  | map keys values =>
    cases mapping
    exact fun entry listed => ⟨keys entry listed, values entry listed⟩
  | _ => cases mapping

theorem items {found : List Document} (nested : Nesting hidden depth value) (listed : value.items? = some found) :
    ∀ item ∈ found, Nesting hidden depth item := by
  rw [items?, nested.opened] at listed
  cases nested with
  | list each =>
    cases listed
    exact each
  | _ => cases listed

theorem field_of_ne {name : String} (nested : Nesting hidden (depth + 1) value) (there : value.field name ≠ .null) :
    Nesting hidden depth (value.field name) := by
  rw [Document.field] at there ⊢
  split at there
  · next found mapping =>
    rw [Entries.get] at there ⊢
    cases given : found.find? (.text name) with
    | none => exact absurd (by rw [given]; rfl) there
    | some inner =>
      obtain ⟨key, among⟩ := Entries.mem_of_find?_eq_some given
      exact (nested.entries mapping _ among).2
  · exact absurd rfl there

theorem field (nested : Nesting hidden depth value) (name : String) : Nesting hidden depth (value.field name) := by
  obtain ⟨less, rfl⟩ := Nat.exists_eq_add_of_lt nested.pos
  by_cases there : value.field name = .null
  · rw [there]
    exact .null
  · exact (nested.field_of_ne there).mono (by omega)

theorem ifSet {given : Document} (nested : Nesting hidden depth value) (set : value.ifSet = some given) :
    Nesting hidden depth given := by
  rw [Document.ifSet, Option.ite_none_right_eq_some, Option.some.injEq] at set
  exact set.2 ▸ nested

theorem elements {found : List Document} (nested : Nesting hidden depth value) (met : value.elements? = some found) :
    ∀ element ∈ found, Nesting hidden depth element := by
  rw [elements?, nested.opened] at met
  cases nested with
  | @scalar _ value shown =>
    cases value with
    | text value =>
      cases met
      exact List.forall_mem_map.mpr fun c _ => .text _
    | bytes value =>
      cases met
      exact List.forall_mem_map.mpr fun byte _ => .scalar (Or.inl (isShowable_byte byte))
    | _ => cases met
  | list each =>
    cases met
    exact each
  | map keys _ =>
    cases met
    exact List.forall_mem_map.mpr fun entry listed => .scalar (keys entry listed)
  | pair left right =>
    cases met
    exact List.forall_mem_cons.mpr ⟨left, List.forall_mem_singleton.mpr right⟩
  | set shown =>
    cases met
    exact List.forall_mem_map.mpr fun member listed => .scalar (shown member listed)

theorem looped (nested : Nesting hidden depth value) : ∀ element ∈ Manifest.looped value, Nesting hidden depth element := by
  unfold Manifest.looped
  split
  · cases met : value.elements? with
    | none => exact nofun
    | some found => exact nested.elements met
  · exact nofun

end Nesting

end Document

namespace Manifest

open Document (Nesting)

section Methods

variable {hidden : Prop} {depth : Nat}

theorem nested_innerMethod {method reference : Document} (nested : Nesting hidden depth method)
    (listed : reference ∈ looped (method.field "body")) (nests : Nests reference) :
    ∃ less, less + 2 ≤ depth ∧ Nesting hidden less (innerMethod reference) := by
  have kinded : reference.field "kind" ≠ .null := by
    intro absent
    rw [Nests, absent] at nests
    exact absurd nests (by decide)
  have filled : method.field "body" ≠ .null := by
    intro absent
    rw [absent] at listed
    exact nomatch listed
  obtain ⟨first, rfl⟩ := Nat.exists_eq_add_one.mpr nested.pos
  have inner := (nested.field_of_ne filled).looped reference listed
  obtain ⟨second, rfl⟩ := Nat.exists_eq_add_one.mpr inner.pos
  refine ⟨second, Nat.le_refl _, ?_⟩
  unfold innerMethod
  cases given : (reference.field "method").ifSet with
  | none =>
    obtain ⟨_, rfl⟩ := Nat.exists_eq_add_one.mpr (inner.field_of_ne kinded).pos
    exact .map nofun nofun
  | some other =>
    rw [Document.ifSet, Option.ite_none_right_eq_some, Option.some.injEq] at given
    obtain ⟨set, rfl⟩ := given
    refine inner.field_of_ne fun absent => ?_
    rw [absent] at set
    cases set

/-- Each method in the body of another is two mappings less deep, so a method that does not contain itself is followed to its
end with half as much fuel as it is deep. -/
theorem bodiesWithin_of_nested {fuel : Nat} {method : Document} (nested : Nesting hidden depth method) (enough : depth ≤ 2 * fuel) :
    BodiesWithin fuel method := by
  induction fuel generalizing depth method with
  | zero => exact absurd nested.pos (Nat.not_lt.mpr enough)
  | succ fuel ih =>
    intro reference listed nests
    obtain ⟨less, shallower, inner⟩ := nested_innerMethod nested listed nests
    exact ih inner (by omega)

end Methods

section References

variable {hidden : Prop} {depth : Nat}

def Reference.shown : Reference → List Document
  | .generic _ _ _ source | .array _ source | .pointer _ source => [source]
  | .defective defect => defect.values
  | _ => []

/-- A reference that can be followed to its end, and shown unless `hidden`. -/
def Reference.Ends (hidden : Prop) (reference : Reference) : Prop :=
  ∀ inner, reference.Inside inner → inner ≠ .endless ∧ ∀ value ∈ inner.shown, value.isShowable = true ∨ hidden

namespace Reference

theorem Ends.part {reference inner : Reference} (ends : reference.Ends hidden) (listed : inner ∈ reference.parts) :
    inner.Ends hidden :=
  fun other inside => ends other (.trans (.part .self listed) inside)

theorem ends_of_parts {reference : Reference} (ending : reference ≠ .endless)
    (shown : ∀ value ∈ reference.shown, value.isShowable = true ∨ hidden)
    (parts : ∀ part ∈ reference.parts, part.Ends hidden) : reference.Ends hidden := by
  intro inner inside
  rcases inside_cases inside with rfl | ⟨part, listed, within⟩
  · exact ⟨ending, shown⟩
  · exact parts part listed inner within

theorem ends_absent : absent.Ends hidden := ends_of_parts nofun nofun nofun

theorem ends_named (id : String) : (named id).Ends hidden := ends_of_parts nofun nofun nofun

theorem ends_defective {defect : Defect} (shown : ∀ value ∈ defect.values, value.isShowable = true ∨ hidden) :
    (defective defect).Ends hidden :=
  ends_of_parts nofun shown nofun

theorem ends_ofScalar {value : Scalar} (shown : value.isShowable = true ∨ hidden) : (ofScalar value).Ends hidden := by
  unfold ofScalar
  split
  · exact ends_absent
  · exact ends_named _
  · exact ends_defective fun given listed => List.mem_singleton.mp listed ▸ shown

def Part.Ends (hidden : Prop) (part : Part) : Prop :=
  part.one.Ends hidden ∧ ∀ references, part.many = some references → ∀ reference ∈ references, reference.Ends hidden

theorem part_ends {parts : List (Scalar × Part)} (each : ∀ entry ∈ parts, entry.2.Ends hidden) (name : String) :
    (part parts name).Ends hidden := by
  unfold part
  cases found : parts.find? fun entry => entry.1.key = Key.text name with
  | none => exact ⟨ends_absent, nofun⟩
  | some entry => exact each entry (List.mem_of_find?_eq_some found)

theorem listOf_ends {part : Part} (ends : part.Ends hidden) : ∀ reference ∈ (listOf part).2, reference.Ends hidden := by
  unfold listOf
  split
  · split
    · next references many => exact ends.2 references many
    · exact nofun
  · exact nofun

theorem ends_ofParts {source : Document} {parts : List (Scalar × Part)} (shown : source.isShowable = true ∨ hidden)
    (each : ∀ entry ∈ parts, entry.2.Ends hidden) : (ofParts source parts).Ends hidden := by
  have one (name : String) := (part_ends each name).1
  have many (name : String) := listOf_ends (part_ends each name)
  have source : ∀ value ∈ [source], value.isShowable = true ∨ hidden := by simpa using shown
  unfold ofParts
  split
  · exact ends_of_parts nofun source (List.forall_mem_cons.mpr ⟨one _, many _⟩)
  · split
    · exact ends_of_parts nofun source (List.forall_mem_singleton.mpr (one _))
    · exact ends_of_parts nofun source (List.forall_mem_singleton.mpr (one _))
    · exact ends_of_parts nofun nofun (many _)
    · exact ends_of_parts nofun nofun (List.forall_mem_cons.mpr ⟨one _, many _⟩)
    · exact ends_defective source

theorem ends_itemsOf {items : List Document} (each : ∀ item ∈ items, (ofValue [] none item).Ends hidden) :
    ∀ reference ∈ itemsOf [] items, reference.Ends hidden := by
  induction items with
  | nil => exact nofun
  | cons item rest ih =>
    rw [itemsOf]
    exact List.forall_mem_cons.mpr ⟨each item List.mem_cons_self,
      ih fun other later => each other (List.mem_cons_of_mem _ later)⟩

def ValueEnds (hidden : Prop) (value : Document) : Prop := Part.Ends hidden ⟨value, ofValue [] none value, manyOf [] value⟩

theorem ends_partsOf {entries : List (Scalar × Document)} (each : ∀ entry ∈ entries, ValueEnds hidden entry.2) :
    ∀ entry ∈ partsOf [] entries, entry.2.Ends hidden := by
  induction entries with
  | nil => exact nofun
  | cons entry rest ih =>
    rw [partsOf]
    exact List.forall_mem_cons.mpr ⟨each entry List.mem_cons_self,
      ih fun other later => each other (List.mem_cons_of_mem _ later)⟩

theorem valueEnds {value : Document} (nested : Nesting hidden depth value) : ValueEnds hidden value := by
  have shown {given : Document} {depth : Nat} (nested : Nesting hidden depth given) :
      ∀ other ∈ [Document.filled [] given], other.isShowable = true ∨ hidden := by
    rw [nested.filled]
    exact List.forall_mem_singleton.mpr nested.isShowable
  induction nested with
  | @scalar _ value single =>
    refine ⟨ends_ofScalar single, fun references many => ?_⟩
    cases value with
    | text value =>
      cases many
      exact List.forall_mem_map.mpr fun c _ => ends_named _
    | bytes value =>
      cases many
      exact List.forall_mem_map.mpr fun byte _ => ends_ofScalar (Or.inl (Document.isShowable_byte byte))
    | _ => cases many
  | list each ih =>
    refine ⟨ends_defective (shown (.list each)), fun references many => ?_⟩
    cases many
    exact ends_itemsOf fun item listed => (ih item listed).1
  | map keys values ih =>
    refine ⟨ends_ofParts (by simpa using shown (.map keys values)) (ends_partsOf ih), fun references many => ?_⟩
    cases many
    exact List.forall_mem_map.mpr fun entry listed => ends_ofScalar (keys entry listed)
  | pair left right first second =>
    refine ⟨ends_defective (shown (.pair left right)), fun references many => ?_⟩
    cases many
    exact List.forall_mem_cons.mpr ⟨first.1, List.forall_mem_singleton.mpr second.1⟩
  | set members =>
    refine ⟨ends_defective (shown (@Nesting.set hidden 0 _ members)), fun references many => ?_⟩
    cases many
    exact List.forall_mem_map.mpr fun member listed => ends_ofScalar (members member listed)

theorem ends_ofDocument {value : Document} (nested : Nesting hidden depth value) : (ofDocument value).Ends hidden :=
  (valueEnds nested).1

end Reference

end References

end Manifest

end DeclGraph
