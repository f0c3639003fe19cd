import DeclGraph.Proofs.ManifestContents
import Mathlib.Data.List.Forall2
import Mathlib.Data.List.Nodup

/-!
Manifests that list the same types in another order, each with its members and interfaces in any order. They say the
same of each type: what occurs in one occurs in the other, and their members and methods have the same ids.
-/

namespace DeclGraph.Manifest

section Reordering

/-- A list with its items in any order, or the same value again. -/
def Reordered (value other : Document) : Prop :=
  other = value ∨ ∃ items others, value.items? = some items ∧ other.items? = some others ∧ items.Perm others

/-- An entry of a type with its members and interfaces in any order. -/
structure SameEntry (entry other : Document) : Prop where
  fields : ∀ name, name ≠ "members" → name ≠ "interfaces" → other.field name = entry.field name
  members : Reordered (entry.field "members") (other.field "members")
  interfaces : Reordered (entry.field "interfaces") (other.field "interfaces")

def Shuffled (types others : List Document) : Prop :=
  ∃ middle, types.Perm middle ∧ List.Forall₂ SameEntry middle others

/-- Each type of one manifest is one of the other, up to the order of its parts. -/
structure SameTypes (types others : List Document) : Prop where
  there : ∀ entry ∈ types, ∃ other ∈ others, SameEntry entry other
  back : ∀ other ∈ others, ∃ entry ∈ types, SameEntry other entry

theorem Reordered.symm {value other : Document} (reordered : Reordered value other) : Reordered other value := by
  rcases reordered with rfl | ⟨items, others, given, also, perm⟩
  · exact Or.inl rfl
  · exact Or.inr ⟨others, items, also, given, perm.symm⟩

theorem SameEntry.symm {entry other : Document} (same : SameEntry entry other) : SameEntry other entry where
  fields name notMembers notInterfaces := (same.fields name notMembers notInterfaces).symm
  members := same.members.symm
  interfaces := same.interfaces.symm

theorem SameTypes.symm {types others : List Document} (same : SameTypes types others) : SameTypes others types :=
  ⟨same.back, same.there⟩

theorem Shuffled.same {types others : List Document} (shuffled : Shuffled types others) : SameTypes types others := by
  obtain ⟨middle, perm, each⟩ := shuffled
  refine ⟨fun entry listed => ?_, fun other listed => ?_⟩
  · exact exists_of_mem_left each (perm.mem_iff.mp listed)
  · obtain ⟨entry, among, same⟩ := exists_of_mem_right each listed
    exact ⟨entry, perm.mem_iff.mpr among, same.symm⟩

theorem looped_of_items {value : Document} {items : List Document} (given : value.items? = some items) :
    looped value = items ∧ (value.isSet = true → value.elements?.isSome = true) := by
  have listed : value.opened = .list items := by
    unfold Document.items? at given
    split at given
    · next found opened => rw [opened, Option.some.inj given]
    · cases given
  have elements : value.elements? = some items := by rw [Document.elements?, listed]
  refine ⟨?_, fun _ => by rw [elements]; rfl⟩
  rw [looped, elements]
  split
  · rfl
  · next unset =>
    -- Opening a labelled list fills in its items and keeps their number.
    cases value with
    | list own =>
      cases listed
      cases items with
      | nil => rfl
      | cons first rest => exact absurd rfl unset
    | labelled label content =>
      cases content with
      | list own =>
        cases own with
        | nil =>
          cases listed
          rfl
        | cons first rest => exact absurd rfl unset
      | again inner =>
        rw [Document.opened, Document.filled, List.lookup_cons] at listed
        split at listed
        · cases listed
        · cases listed
      | _ => cases listed
    | _ => cases listed

theorem Reordered.perm {value other : Document} (reordered : Reordered value other) : (looped value).Perm (looped other) := by
  rcases reordered with rfl | ⟨items, others, given, also, perm⟩
  · exact List.Perm.refl _
  · rw [(looped_of_items given).1, (looped_of_items also).1]
    exact perm

theorem Reordered.listed {value other : Document} (reordered : Reordered value other)
    (listed : value.isSet = true → value.elements?.isSome = true) : other.isSet = true → other.elements?.isSome = true := by
  rcases reordered with rfl | ⟨_, others, _, also, _⟩
  · exact listed
  · exact (looped_of_items also).2

end Reordering

section Occurring

variable {types others : List Document}

theorem mem_headRefs {entry : Document} {reference : Reference} : reference ∈ headRefs entry ↔
    reference = .ofDocument (entry.field "base") ∨ reference ∈ refersIn (entry.field "interfaces")
      ∨ reference ∈ refersIn (entry.field "type_arguments") ∨ reference ∈ refersIn (entry.field "attributes") := by
  simp [headRefs]

theorem SameEntry.headRefs {entry other : Document} (same : SameEntry entry other) {reference : Reference}
    (among : reference ∈ Manifest.headRefs entry) : reference ∈ Manifest.headRefs other := by
  rw [mem_headRefs] at among ⊢
  rw [same.fields "base" (by decide) (by decide), same.fields "type_arguments" (by decide) (by decide),
    same.fields "attributes" (by decide) (by decide)]
  have interfaces : reference ∈ refersIn (entry.field "interfaces") → reference ∈ refersIn (other.field "interfaces") :=
    (same.interfaces.perm.map _).mem_iff.mp
  exact among.imp_right (Or.imp_left interfaces)

theorem SameTypes.memberWithin (same : SameTypes types others) {member : Document} (within : MemberWithin types member) :
    MemberWithin others member := by
  obtain ⟨entry, listed, among⟩ := within
  obtain ⟨other, also, alike⟩ := same.there entry listed
  exact ⟨other, also, alike.members.perm.mem_iff.mp among⟩

theorem SameTypes.methodWithin (same : SameTypes types others) {method : Document} (within : MethodWithin types method) :
    MethodWithin others method := by
  obtain ⟨member, inside, kind, under⟩ := within
  exact ⟨member, same.memberWithin inside, kind, under⟩

theorem SameTypes.parameterWithin (same : SameTypes types others) {parameter : Document}
    (within : ParameterWithin types parameter) : ParameterWithin others parameter := by
  cases within with
  | @type entry _ listed among =>
    obtain ⟨other, also, alike⟩ := same.there entry listed
    rw [← alike.fields "type_parameters" (by decide) (by decide)] at among
    exact .type also among
  | method within among => exact .method (same.methodWithin within) among

theorem SameTypes.refersWithin (same : SameTypes types others) {reference : Reference}
    (within : RefersWithin types reference) : RefersWithin others reference := by
  induction within with
  | @head entry _ listed among =>
    obtain ⟨other, also, alike⟩ := same.there entry listed
    exact .head also (alike.headRefs among)
  | marked within among => exact .marked (same.memberWithin within) among
  | member within among => exact .member (same.memberWithin within) among
  | method within among => exact .method (same.methodWithin within) among
  | constraint within constraining among => exact .constraint (same.parameterWithin within) constraining among
  | part _ listed ih => exact .part ih listed

end Occurring

section Meaning

/-- What a reference builds a type from: the kind of the type and the ids of its parts. An id alone builds nothing. -/
def Reference.plan? : Reference → Option (TypeKind × List (Option String))
  | .generic definition _ arguments _ => some (.named, definition.name? :: arguments.map name?)
  | .array element _ => some (.array, [element.name?])
  | .pointer element _ => some (.pointer, [element.name?])
  | .tuple _ elements => some (.tuple, elements.map name?)
  | .functionPointer returnType _ parameters => some (.functionPointer, returnType.name? :: parameters.map name?)
  | _ => none

structure Free (types : List Document) (key : Key) : Prop where
  entries : ∀ entry ∈ types, (entry.field "id").key? ≠ some key
  parameters : ∀ entry ∈ types, ∀ parameter ∈ looped (entry.field "type_parameters"), (parameterId parameter).key? ≠ some key

/-- No id of a manifest can be understood in two ways. -/
structure Unambiguous (types : List Document) : Prop where
  /-- References with one id build the same type, or none of them builds any. -/
  plans : ∀ reference other id, RefersWithin types reference → RefersWithin types other → reference.name? = some id →
    other.name? = some id → Free types (.text id) → reference.plan? = other.plan?
  /-- No type parameter of a method has the id of a type that is built. -/
  parameters : ∀ reference id parameter, RefersWithin types reference → reference.name? = some id →
    reference.plan?.isSome = true → Free types (.text id) → ParameterWithin types parameter →
    (parameterId parameter).key? ≠ some (.text id)
  /-- Type parameters with one id are constrained to the same types, where they say what they are constrained to. -/
  constraints : ∀ parameter other key, ParameterWithin types parameter → ParameterWithin types other →
    Constraining parameter → Constraining other → (parameterId parameter).key? = some key →
    (parameterId other).key? = some key → ∀ reference ∈ refersIn (parameter.field "constraints"), ∀ id,
    reference.name? = some id → ∃ also ∈ refersIn (other.field "constraints"), also.name? = some id

theorem SameTypes.free {types others : List Document} (same : SameTypes types others) {key : Key} (free : Free others key) :
    Free types key where
  entries entry listed := by
    obtain ⟨other, also, alike⟩ := same.there entry listed
    rw [← alike.fields "id" (by decide) (by decide)]
    exact free.entries other also
  parameters entry listed parameter among := by
    obtain ⟨other, also, alike⟩ := same.there entry listed
    rw [← alike.fields "type_parameters" (by decide) (by decide)] at among
    exact free.parameters other also parameter among

theorem SameTypes.unambiguous {types others : List Document} (same : SameTypes types others) (clear : Unambiguous types) :
    Unambiguous others where
  plans reference other id within also named otherNamed free :=
    clear.plans reference other id (same.symm.refersWithin within) (same.symm.refersWithin also) named otherNamed (same.free free)
  parameters reference id parameter within named built free among :=
    clear.parameters reference id parameter (same.symm.refersWithin within) named built (same.free free)
      (same.symm.parameterWithin among)
  constraints parameter other key within also :=
    clear.constraints parameter other key (same.symm.parameterWithin within) (same.symm.parameterWithin also)

end Meaning

section Labelling

def givenKey? (entry : Document) : Option Key := ((entry.field "id").ifSet).bind Document.key?

def methodsDown : Nat → Document → List Document
  | 0, _ => []
  | depth + 1, method => method :: (looped (method.field "body")).flatMap fun reference =>
      if Nests reference then methodsDown depth (innerMethod reference) else []

def memberDown (depth : Nat) (member : Document) : List Document :=
  if (member.field "kind").text? = some "method" then methodsDown depth member else [member]

def entriesDown (depth : Nat) (types : List Document) : List Document :=
  types.flatMap fun entry => (looped (entry.field "members")).flatMap (memberDown depth)

/-- Each member and each method has an id of its own, however deep one looks. -/
structure Labelled (types : List Document) : Prop where
  given : ∀ depth, ∀ entry ∈ entriesDown depth types, (givenKey? entry).isSome = true
  distinct : ∀ depth, ((entriesDown depth types).map givenKey?).Nodup

theorem Shuffled.entriesDown {types others : List Document} (shuffled : Shuffled types others) (depth : Nat) :
    (entriesDown depth types).Perm (entriesDown depth others) := by
  obtain ⟨middle, perm, each⟩ := shuffled
  refine (perm.flatMap_right _).trans ?_
  clear perm
  induction each with
  | nil => exact List.Perm.refl _
  | @cons entry other _ _ same _ ih =>
    simp only [Manifest.entriesDown, List.flatMap_cons] at ih ⊢
    exact (same.members.perm.flatMap_right _).append ih

theorem Shuffled.labelled {types others : List Document} (shuffled : Shuffled types others) (labelled : Labelled types) :
    Labelled others where
  given depth entry among := labelled.given depth entry ((shuffled.entriesDown depth).mem_iff.mpr among)
  distinct depth := ((shuffled.entriesDown depth).map _).nodup_iff.mp (labelled.distinct depth)

theorem methodsDown_mono {depth more : Nat} (deeper : depth ≤ more) {method inner : Document}
    (among : inner ∈ methodsDown depth method) : inner ∈ methodsDown more method := by
  induction depth generalizing more method with
  | zero => cases among
  | succ depth ih =>
    obtain ⟨extra, rfl⟩ := Nat.exists_eq_add_of_lt deeper
    rw [methodsDown, List.mem_cons, List.mem_flatMap] at among ⊢
    refine among.imp_right fun ⟨reference, listed, inside⟩ => ⟨reference, listed, ?_⟩
    split at inside
    · next nests =>
      rw [if_pos nests]
      exact ih (Nat.le_add_right _ _) inside
    · cases inside

theorem innerMethod_mem_methodsDown {depth : Nat} {method outer reference : Document}
    (inside : outer ∈ methodsDown depth method) (listed : reference ∈ looped (outer.field "body")) (nests : Nests reference) :
    innerMethod reference ∈ methodsDown (depth + 1) method := by
  induction depth generalizing method with
  | zero => cases inside
  | succ depth ih =>
    rw [methodsDown, List.mem_cons, List.mem_flatMap] at inside
    rw [methodsDown, List.mem_cons, List.mem_flatMap]
    rcases inside with rfl | ⟨first, among, deeper⟩
    · exact Or.inr ⟨reference, listed, by rw [if_pos nests, methodsDown]; exact List.mem_cons_self⟩
    · split at deeper
      · next also => exact Or.inr ⟨first, among, by rw [if_pos also]; exact ih deeper⟩
      · cases deeper

theorem mem_methodsDown {method inner : Document} (under : MethodUnder method inner) :
    ∃ depth, inner ∈ methodsDown depth method := by
  induction under with
  | self => exact ⟨1, List.mem_cons_self⟩
  | inner _ listed nests ih =>
    obtain ⟨depth, inside⟩ := ih
    exact ⟨depth + 1, innerMethod_mem_methodsDown inside listed nests⟩

/-- A member of some type, or a method in the body of one. -/
def EntryWithin (types : List Document) (entry : Document) : Prop := MemberWithin types entry ∨ MethodWithin types entry

variable {types : List Document}

theorem mem_entriesDown {entry : Document} (within : EntryWithin types entry) :
    ∃ least, ∀ depth, least ≤ depth → entry ∈ entriesDown depth types := by
  have listed : ∀ {member : Document}, MemberWithin types member → ∀ depth, entry ∈ memberDown depth member →
      entry ∈ entriesDown depth types := by
    rintro member ⟨type, typeIn, memberIn⟩ depth inside
    exact List.mem_flatMap.mpr ⟨type, typeIn, List.mem_flatMap.mpr ⟨member, memberIn, inside⟩⟩
  have under : ∀ {member : Document}, (member.field "kind").text? = some "method" → MethodUnder member entry →
      ∃ least, ∀ depth, least ≤ depth → entry ∈ memberDown depth member := by
    intro member kind under
    obtain ⟨least, inside⟩ := mem_methodsDown under
    refine ⟨least, fun depth deeper => ?_⟩
    rw [memberDown, if_pos kind]
    exact methodsDown_mono deeper inside
  rcases within with member | ⟨member, within, kind, below⟩
  · by_cases kind : (entry.field "kind").text? = some "method"
    · obtain ⟨least, inside⟩ := under kind .self
      exact ⟨least, fun depth deeper => listed member depth (inside depth deeper)⟩
    · refine ⟨0, fun depth _ => listed member depth ?_⟩
      rw [memberDown, if_neg kind]
      exact List.mem_singleton_self entry
  · obtain ⟨least, inside⟩ := under kind below
    exact ⟨least, fun depth deeper => listed within depth (inside depth deeper)⟩

theorem Labelled.keyed (labelled : Labelled types) {entry : Document} (within : EntryWithin types entry) :
    ∃ id key, (entry.field "id").ifSet = some id ∧ id.key? = some key := by
  obtain ⟨least, inside⟩ := mem_entriesDown within
  obtain ⟨key, given⟩ := Option.isSome_iff_exists.mp (labelled.given least entry (inside least (Nat.le_refl _)))
  obtain ⟨id, set, keyed⟩ := Option.bind_eq_some_iff.mp given
  exact ⟨id, key, set, keyed⟩

theorem Labelled.unique (labelled : Labelled types) {entry other : Document} (within : EntryWithin types entry)
    (also : EntryWithin types other) (same : givenKey? entry = givenKey? other) : entry = other := by
  obtain ⟨least, inside⟩ := mem_entriesDown within
  obtain ⟨otherLeast, otherInside⟩ := mem_entriesDown also
  exact List.inj_on_of_nodup_map (labelled.distinct (least + otherLeast)) (inside _ (Nat.le_add_right _ _))
    (otherInside _ (Nat.le_add_left _ _)) same

end Labelling

end DeclGraph.Manifest
