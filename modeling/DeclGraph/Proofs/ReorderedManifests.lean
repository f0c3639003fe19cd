import DeclGraph.Proofs.ManifestReruns
import DeclGraph.Proofs.MemberDependencies
import DeclGraph.Proofs.OpenedManifests
import DeclGraph.Proofs.ReorderedUnits
import Mathlib.Data.List.Flatten

/-!
Manifests in any order. Where each member and each method has an id of its own and no id can be understood in two ways,
the order of the types, of their members and of their interfaces does not count: the manifest opens all the same, and the
graph of its direct dependencies is the same.
-/

namespace DeclGraph.Manifest

open Load
open Document (Nesting)

section Opening

variable {host : Host} {types others : List Document} {data otherData : Document}

/-- A manifest that says the same as another, with its types in any order, and their members and interfaces too. -/
structure Rearranged (data other : Document) (types others : List Document) : Prop where
  listed : entriesIn data = some types
  otherListed : entriesIn other = some others
  shuffled : Shuffled types others
  rest : ∀ name, name ≠ "types" → other.field name = data.field name

theorem bodiesWithin_members {depth fuel : Nat} (rearranged : Rearranged data otherData types others)
    (nested : Nesting True depth otherData) (enough : depth ≤ 2 * fuel) {member : Document} (within : MemberWithin types member) :
    BodiesWithin fuel member := by
  obtain ⟨entry, listed, inside⟩ := rearranged.shuffled.same.memberWithin within
  have whole : Nesting True depth entry := nested_entriesIn nested rearranged.otherListed entry listed
  exact bodiesWithin_of_nested ((whole.field "members").looped member inside) enough

/-- A manifest that is read is read in any order, with as much fuel or with enough for what it nests. -/
theorem load_again (rearranged : Rearranged data otherData types others) (labelled : Labelled types) (clear : Unambiguous types)
    {path : String} {fuel otherFuel : Nat} (enough : fuel ≤ otherFuel ∨ Nesting True (2 * otherFuel) otherData)
    {manifest : ManifestUnit} (loaded : load host path fuel data = .ok manifest) :
    ∃ first second listed other, Twins host types others first second
      ∧ Shown host types data first manifest listed ∧ Shown host others otherData second other listed
      ∧ SameUnit manifest other ∧ load host path otherFuel otherData = .ok other := by
  obtain ⟨_, middle, first, listed, entries, entered, linked, shown⟩ := load_eq_ok.mp loaded
  cases rearranged.listed.symm.trans entries
  have given (member : Document) (within : MemberWithin types member) : (member.field "id").isSet = true := by
    obtain ⟨id, _, set, _⟩ := labelled.keyed (Or.inl within)
    rw [Document.ifSet, Option.ite_none_right_eq_some] at set
    exact set.1
  have deep : fuel ≤ otherFuel ∨ ∀ member, MemberWithin types member → BodiesWithin otherFuel member :=
    enough.imp_right fun nested _ within => bodiesWithin_members rearranged nested (Nat.le_refl _) within
  obtain ⟨otherMiddle, second, otherEntered, otherLinked⟩ := types_again rearranged.shuffled deep given entered linked
  obtain ⟨one, path⟩ := types_reading entered linked
  obtain ⟨two, otherPath⟩ := types_reading otherEntered otherLinked
  have same := rearranged.shuffled.same
  have twins : Twins host types others first second :=
    { same, one, two
      path := otherPath.trans path.symm
      clear
      otherClear := same.unambiguous clear
      labelled
      otherLabelled := rearranged.shuffled.labelled labelled }
  obtain ⟨other, otherShown, sameUnit⟩ := shown_again twins rearranged.rest shown
  exact ⟨first, second, listed, other, twins, shown, otherShown, sameUnit,
    load_eq_ok.mpr ⟨others, otherMiddle, second, listed, rearranged.otherListed, otherEntered, otherLinked, otherShown⟩⟩

/-- A manifest in another order opens and gives the same graph of direct dependencies, if each of its members and methods
has an id of its own and none of its ids can be understood in two ways. -/
theorem same_graph_in_any_order {given : Document} {opening opened : World} {unit : CompilationUnit}
    (ran : (openUnit host given).outcome opening = (.ok unit, opened)) : ∃ path bytes data types,
      StoredAt host given opening.tree path bytes data ∧ entriesIn data = some types ∧
        (Labelled types → Unambiguous types → ∀ (reopening : World) otherBytes otherData others,
          StoredAt host given reopening.tree path otherBytes otherData →
          (bytes.size ≤ otherBytes.size ∨ ∀ document, documentOf given path otherBytes = .ok document → document.Unlabelled) →
          Rearranged data otherData types others → ∃ otherUnit,
            (openUnit host given).outcome reopening = (.ok otherUnit, reopening)
            ∧ ∀ (builder : Builder) (thread : String) (world otherWorld : World), builder.frontend = frontend host →
              (∀ place, otherWorld.tree.isFile place = world.tree.isFile place) →
              ∃ results otherResults after otherAfter graph otherGraph,
                (builder.directDependencies host thread unit).outcome world = (.ok results, after)
                ∧ (builder.directDependencies host thread otherUnit).outcome otherWorld = (.ok otherResults, otherAfter)
                ∧ Graph.ofDirect host results = .ok graph ∧ Graph.ofDirect host otherResults = .ok otherGraph
                ∧ otherGraph.same graph = true) := by
  obtain ⟨path, bytes, data, manifest, name, stored, loaded, named, opens, rfl⟩ := openUnit_eq_ok.mp ran
  obtain ⟨types, _, _, _, entries, _⟩ := load_eq_ok.mp loaded
  refine ⟨path, bytes, data, types, stored, entries, fun labelled clear reopening otherBytes otherData others also enough
    rearranged => ?_⟩
  -- The fuel comes from the length of the text, which may be shorter in the other order.
  have enough : bytes.size + 1 ≤ otherBytes.size + 1 ∨ Nesting True (2 * (otherBytes.size + 1)) otherData :=
    enough.imp (Nat.add_le_add_right · 1) (nested_data also.parsed)
  obtain ⟨first, second, listed, other, twins, shown, otherShown, same, otherLoaded⟩ :=
    load_again rearranged labelled clear enough loaded
  rw [← rearranged.rest "name" (by decide)] at named
  refine ⟨⟨path, name, .manifest other⟩, openUnit_eq_ok.mpr ⟨path, otherBytes, otherData, other, name, also, otherLoaded, named,
    rfl, rfl⟩, fun builder thread world otherWorld uses trees => ?_⟩
  have parts : Counterparts host builder manifest other unit ⟨path, name, .manifest other⟩ world.tree otherWorld.tree :=
    { uses
      handle := by rw [opens]
      otherHandle := rfl
      same
      path := by rw [opens]
      trees }
  have present : unit.path ≠ "" := by
    rw [opens]
    exact stored.path_ne_empty
  obtain ⟨results, otherResults, found, otherFound, there, back⟩ := results_alike twins parts shown otherShown present
  obtain ⟨graph, otherGraph, made, otherMade, equal⟩ :=
    graphs_alike (spelled_of_resultsOf found) (spelled_of_resultsOf otherFound) there back
  obtain ⟨calls, journal, outcome⟩ := Builder.directDependencies_outcome builder host thread unit world
  obtain ⟨otherCalls, otherJournal, otherOutcome⟩ :=
    Builder.directDependencies_outcome builder host thread ⟨path, name, .manifest other⟩ otherWorld
  rw [found] at outcome
  rw [otherFound] at otherOutcome
  exact ⟨results, otherResults, _, _, graph, otherGraph, outcome, otherOutcome, made, otherMade, equal⟩

end Opening

section Plain

variable {types : List Document}

theorem memberDown_sublist {depth : Nat} {member : Document} (bodyless : looped (member.field "body") = []) :
    (memberDown depth member).Sublist [member] := by
  unfold memberDown
  split
  · cases depth with
    | zero => exact List.nil_sublist _
    | succ depth => rw [methodsDown, bodyless, List.flatMap_nil]
  · exact List.Sublist.refl _

theorem labelled_of_bodyless
    (bodyless : ∀ entry ∈ types, ∀ member ∈ looped (entry.field "members"), looped (member.field "body") = [])
    (given : ∀ member ∈ types.flatMap fun entry => looped (entry.field "members"), (givenKey? member).isSome = true)
    (distinct : ((types.flatMap fun entry => looped (entry.field "members")).map givenKey?).Nodup) : Labelled types := by
  have among (depth : Nat) : (entriesDown depth types).Sublist (types.flatMap fun entry => looped (entry.field "members")) := by
    refine List.Sublist.flatMap_right _ fun entry listed => ?_
    have each : ((looped (entry.field "members")).flatMap (memberDown depth)).Sublist
        ((looped (entry.field "members")).flatMap fun member => [member]) :=
      List.Sublist.flatMap_right _ fun member inside => memberDown_sublist (bodyless entry listed member inside)
    rwa [List.flatMap_singleton'] at each
  exact ⟨fun depth entry inside => given entry ((among depth).subset inside), fun depth => distinct.sublist ((among depth).map _)⟩

def parametersIn (types : List Document) : List Document :=
  types.flatMap fun entry => looped (entry.field "type_parameters")
    ++ (looped (entry.field "members")).flatMap fun member => looped (member.field "type_parameters")

def ownRefs (member : Document) : List Reference :=
  if (member.field "kind").text? = some "method" then methodRefs member
  else refersIn (member.field "attributes") ++ memberRefs member

def writtenRefs (types : List Document) : List Reference :=
  types.flatMap (fun entry => headRefs entry ++ (looped (entry.field "members")).flatMap ownRefs)
    ++ (parametersIn types).flatMap fun parameter => refersIn (parameter.field "constraints")

section Bodyless

variable (bodyless : ∀ entry ∈ types, ∀ member ∈ looped (entry.field "members"), looped (member.field "body") = [])
include bodyless

theorem member_of_methodWithin {method : Document} (within : MethodWithin types method) :
    MemberWithin types method ∧ (method.field "kind").text? = some "method" := by
  obtain ⟨member, ⟨entry, listed, among⟩, kind, under⟩ := within
  obtain rfl | ⟨reference, inBody, _⟩ := methodUnder_cases under
  · exact ⟨⟨entry, listed, among⟩, kind⟩
  · rw [bodyless entry listed member among] at inBody
    cases inBody

theorem mem_parametersIn {parameter : Document} (within : ParameterWithin types parameter) :
    parameter ∈ parametersIn types := by
  cases within with
  | type listed among => exact List.mem_flatMap.mpr ⟨_, listed, List.mem_append_left _ among⟩
  | method within among =>
    obtain ⟨⟨entry, listed, inside⟩, _⟩ := member_of_methodWithin bodyless within
    exact List.mem_flatMap.mpr ⟨entry, listed, List.mem_append_right _ (List.mem_flatMap.mpr ⟨_, inside, among⟩)⟩

omit bodyless in
theorem mem_writtenRefs_member {member : Document} {reference : Reference} (within : MemberWithin types member)
    (among : reference ∈ ownRefs member) : reference ∈ writtenRefs types := by
  obtain ⟨entry, listed, inside⟩ := within
  exact List.mem_append_left _ (List.mem_flatMap.mpr
    ⟨entry, listed, List.mem_append_right _ (List.mem_flatMap.mpr ⟨member, inside, among⟩)⟩)

theorem mem_refs (flat : ∀ outer ∈ writtenRefs types, ∀ inner ∈ outer.parts, inner.parts.isEmpty = true)
    {reference : Reference} (within : RefersWithin types reference) :
    reference ∈ writtenRefs types ++ (writtenRefs types).flatMap Reference.parts := by
  rw [List.mem_append, List.mem_flatMap]
  induction within with
  | head listed among => exact Or.inl (List.mem_append_left _ (List.mem_flatMap.mpr ⟨_, listed, List.mem_append_left _ among⟩))
  | @marked member reference within among =>
    refine Or.inl (mem_writtenRefs_member within ?_)
    by_cases kind : (member.field "kind").text? = some "method"
    · simp [ownRefs, kind, methodRefs, among]
    · simp [ownRefs, kind, among]
  | @member member reference within among =>
    refine Or.inl (mem_writtenRefs_member within ?_)
    by_cases kind : (member.field "kind").text? = some "method"
    · simp [memberRefs, kind] at among
    · simp [ownRefs, kind, among]
  | method within among =>
    obtain ⟨member, kind⟩ := member_of_methodWithin bodyless within
    exact Or.inl (mem_writtenRefs_member member (by rwa [ownRefs, if_pos kind]))
  | constraint within _ among =>
    exact Or.inl (List.mem_append_right _ (List.mem_flatMap.mpr ⟨_, mem_parametersIn bodyless within, among⟩))
  | part _ listed ih =>
    rcases ih with written | ⟨outer, written, inside⟩
    · exact Or.inr ⟨_, written, listed⟩
    · rw [List.isEmpty_iff.mp (flat outer written _ inside)] at listed
      cases listed

end Bodyless

def Separate (reference other : Reference) : Prop :=
  reference.name? = none ∨ reference.name? ≠ other.name? ∨ reference.plan?.isNone ∧ other.plan?.isNone

instance (reference other : Reference) : Decidable (Separate reference other) := inferInstanceAs (Decidable (_ ∨ _ ∨ _))

/-- Where no two references and no two type parameters have one id, each id is understood in one way. -/
theorem unambiguous_of_apart
    (bodyless : ∀ entry ∈ types, ∀ member ∈ looped (entry.field "members"), looped (member.field "body") = [])
    (flat : ∀ outer ∈ writtenRefs types, ∀ inner ∈ outer.parts, inner.parts.isEmpty = true)
    (apart : (writtenRefs types ++ (writtenRefs types).flatMap Reference.parts).Pairwise Separate)
    (free : ∀ reference ∈ writtenRefs types ++ (writtenRefs types).flatMap Reference.parts, reference.plan?.isSome = true →
      ∀ parameter ∈ parametersIn types, (parameterId parameter).key? ≠ reference.name?.map Key.text)
    (distinct : ((parametersIn types).map fun parameter => (parameterId parameter).key?).Nodup) : Unambiguous types := by
  refine ⟨fun reference other id within also named otherNamed _ => ?_, fun reference id parameter within named planned _ inside => ?_,
    fun parameter other key within also _ _ keyed otherKeyed reference among id named => ?_⟩
  · by_cases same : reference = other
    · rw [same]
    · have symmetric : Std.Symm Separate := by
        refine ⟨fun reference other => ?_⟩
        simp only [Separate]
        grind
      rcases apart.forall (mem_refs bodyless flat within) (mem_refs bodyless flat also) same with none | differs | unbuilt
      · cases named.symm.trans none
      · exact absurd (named.trans otherNamed.symm) differs
      · rw [Option.isNone_iff_eq_none.mp unbuilt.1, Option.isNone_iff_eq_none.mp unbuilt.2]
  · have differs := free reference (mem_refs bodyless flat within) planned parameter (mem_parametersIn bodyless inside)
    rwa [named] at differs
  · obtain rfl : parameter = other :=
      List.inj_on_of_nodup_map distinct (mem_parametersIn bodyless within) (mem_parametersIn bodyless also)
        (keyed.trans otherKeyed.symm)
    exact ⟨reference, among, named⟩

end Plain

section Sample

def listing (types : List Document) : Document := .object [("types", .list types)]

/-- A type with two members, and two types for them to refer to. -/
def pair (first second : Document) : List Document :=
  [typeEntry "A" "a.cs" [first, second], typeEntry "B" "b.cs" [], typeEntry "C" "c.cs" []]

def constrained (id constraint : String) : Document :=
  .object [("id", .text id), ("kind", .text "method"), ("name", .text id),
    ("type_parameters", .list [.object [("id", .text "T"), ("constraints", .texts [constraint])]])]

def applied (id definition argument : String) : Document :=
  .object [("id", .text id), ("kind", .text "property"), ("name", .text id),
    ("type", .object [("definition", .text definition), ("arguments", .texts [argument])])]

theorem plain_listing {types : List Document} (each : ∀ entry ∈ types, Json.Plain entry) : Json.Plain (listing types) :=
  .object (by simp) (by simp [Json.Plain.list each])

theorem plain_constrained (id constraint : String) : Json.Plain (constrained id constraint) := by
  have parameter : Json.Plain (.object [("id", .text "T"), ("constraints", .texts [constraint])]) :=
    .object (by simp) (by simp [Json.Plain.text, Json.plain_texts])
  exact .object (by simp) (by simp [Json.Plain.text, Json.Plain.list, parameter])

theorem plain_applied (id definition argument : String) : Json.Plain (applied id definition argument) := by
  have type : Json.Plain (.object [("definition", .text definition), ("arguments", .texts [argument])]) :=
    .object (by simp) (by simp [Json.Plain.text, Json.plain_texts])
  exact .object (by simp) (by simp [Json.Plain.text, type])

theorem plain_pair {first second : Document} (one : Json.Plain first) (two : Json.Plain second) :
    ∀ entry ∈ pair first second, Json.Plain entry := by
  simp [pair, plain_typeEntry, one, two]

theorem field_object (fields : Rows Document) (name : String) : (Document.object fields).field name = (fields.lookup name).getD .null := by
  have found : Entries.find? (fields.map fun field => (.text field.1, field.2)) (.text name) = fields.lookup name := by
    induction fields with
    | nil => rfl
    | cons field rest ih =>
      obtain ⟨key, value⟩ := field
      rw [Rows.lookup_row, List.map_cons, Entries.find?, ih]
      simp [Scalar.key, eq_comm]
  show (Entries.find? (fields.map fun field => (.text field.1, field.2)) (.text name)).getD .null = _
  rw [found]

theorem sameEntry_refl (entry : Document) : SameEntry entry entry := ⟨fun _ _ _ => rfl, Or.inl rfl, Or.inl rfl⟩

theorem sameEntry_swapped (first second : Document) :
    SameEntry (typeEntry "A" "a.cs" [first, second]) (typeEntry "A" "a.cs" [second, first]) where
  fields name notMembers _ := by
    rw [typeEntry, typeEntry, field_object, field_object]
    simp only [Rows.lookup_row, if_neg notMembers]
  members := Or.inr ⟨[first, second], [second, first], rfl, rfl, List.Perm.swap _ _ _⟩
  interfaces := Or.inl rfl

theorem rearranged_listing {types others : List Document} (shuffled : Shuffled types others) :
    Rearranged (listing types) (listing others) types others where
  listed := by cases types <;> rfl
  otherListed := by cases others <;> rfl
  shuffled := shuffled
  rest name other := by
    rw [listing, listing, field_object, field_object, Rows.lookup_row, Rows.lookup_row, if_neg other, if_neg other]

theorem shuffled_members (first second : Document) : Shuffled (pair first second) (pair second first) :=
  ⟨_, List.Perm.refl _, .cons (sameEntry_swapped first second) (.cons (sameEntry_refl _) (.cons (sameEntry_refl _) .nil))⟩

theorem shuffled_types (first second : Document) : Shuffled (pair first second) (pair second first).reverse :=
  ⟨(pair first second).reverse, (List.reverse_perm _).symm,
    .cons (sameEntry_refl _) (.cons (sameEntry_refl _) (.cons (sameEntry_swapped first second) .nil))⟩

theorem isFile_written (data other : Document) (place : String) :
    (writtenWorld data).tree.isFile place = (writtenWorld other).tree.isFile place := by
  -- Only the content of the manifest is different.
  have entry (data : Document) (place : List String) : (writtenWorld data).tree.entry? place =
      if place = ["w", "u.json"] then some (.file (Json.write .plain data).toUTF8) else (writtenWorld .null).tree.entry? place := by
    by_cases here : place = ["w", "u.json"]
    · rw [if_pos here, here]
      rfl
    · rw [if_neg here]
      simp [FileTree.entry?, writtenWorld, List.find?_cons, Ne.symm here]
  have stays (data other : Document) : FileTree.DirectoriesStay (writtenWorld data).tree (writtenWorld other).tree
      ∧ FileTree.FilesStay (writtenWorld data).tree (writtenWorld other).tree := by
    refine ⟨fun place directory => ?_, fun place content there => ?_⟩
    · unfold FileTree.IsDirectoryAt at directory ⊢
      rw [entry] at directory ⊢
      split at directory
      · cases directory
      · next elsewhere => rwa [if_neg elsewhere]
    · rw [entry] at there ⊢
      split at there
      · next here => exact ⟨_, if_pos here⟩
      · next elsewhere => exact ⟨content, by rwa [if_neg elsewhere]⟩
  have either (data other : Document) (there : (writtenWorld data).tree.isFile place = true) :
      (writtenWorld other).tree.isFile place = true :=
    FileTree.isFile_stays (stays data other).1 (stays data other).2 there
  exact Bool.eq_iff_iff.mpr ⟨either data other, either other data⟩

def Builds (types : List Document) (results : List FileDependencies) : Prop := ∃ unit after,
  (openUnit Saved.sampleHost (.text "u.json")).outcome (writtenWorld (listing types)) = (.ok unit, writtenWorld (listing types))
    ∧ (sampleBuilder.directDependencies Saved.sampleHost "t" unit).outcome (writtenWorld (listing types)) = (.ok results, after)

/-- A method with a type parameter, a property of a built type and three types, all of them in the other order. -/
theorem same_graph_in_any_order_reversed : ∃ results otherResults graph otherGraph,
    Builds (pair (constrained "m" "B") (applied "p" "B" "C")) results
      ∧ Builds (pair (applied "p" "B" "C") (constrained "m" "B")).reverse otherResults
      ∧ Graph.ofDirect Saved.sampleHost results = .ok graph ∧ Graph.ofDirect Saved.sampleHost otherResults = .ok otherGraph
      ∧ otherGraph.same graph = true := by
  obtain ⟨manifest, loaded⟩ :
      ∃ manifest, loadWritten (listing (pair (constrained "m" "B") (applied "p" "B" "C"))) = .ok manifest :=
    exists_loadWritten (by decide +kernel)
  have plain : Json.Plain (listing (pair (constrained "m" "B") (applied "p" "B" "C"))) :=
    plain_listing (plain_pair (plain_constrained _ _) (plain_applied _ _ _))
  have otherPlain : Json.Plain (listing (pair (applied "p" "B" "C") (constrained "m" "B")).reverse) :=
    plain_listing fun entry listed => plain_pair (plain_applied _ _ _) (plain_constrained _ _) entry (List.mem_reverse.mp listed)
  have opens := openUnit_written plain rfl rfl loaded
  obtain ⟨path, bytes, data, types, stored, entries, again⟩ := same_graph_in_any_order opens
  obtain ⟨samePath, sameBytes, sameData⟩ := stored.unique (storedAt_written plain rfl)
  rw [samePath, sameBytes, sameData] at again
  rw [sameData] at entries
  obtain rfl := Option.some.inj ((rearranged_listing (shuffled_types _ _)).listed.symm.trans entries)
  have labelled : Labelled (pair (constrained "m" "B") (applied "p" "B" "C")) :=
    labelled_of_bodyless (by decide +kernel) (by decide +kernel) (by decide +kernel)
  have clear : Unambiguous (pair (constrained "m" "B") (applied "p" "B" "C")) :=
    unambiguous_of_apart (by decide +kernel) (by decide +kernel) (by decide +kernel) (by decide +kernel) (by decide +kernel)
  obtain ⟨otherUnit, reopens, builds⟩ := again labelled clear _ _ _ _ (storedAt_written otherPlain rfl)
    (Or.inr fun _ => unlabelled_of_json (by decide +kernel)) (rearranged_listing (shuffled_types _ _))
  obtain ⟨results, otherResults, after, otherAfter, graph, otherGraph, found, otherFound, made, otherMade, equal⟩ :=
    builds sampleBuilder "t" _ _ rfl (isFile_written _ _)
  exact ⟨results, otherResults, graph, otherGraph, ⟨_, after, opens, found⟩, ⟨otherUnit, otherAfter, reopens, otherFound⟩, made,
    otherMade, equal⟩

theorem builds_of_walk {types : List Document} (visits : Nat) (other : String) (plain : Json.Plain (listing types))
    (known : other ∈ ["/w/b.cs", "/w/c.cs"])
    (computed : (loadCounted (listing types)).toOption.any (fun manifest => WalksTo visits other manifest) = true) :
    ∃ results graph, Builds types results ∧ Graph.ofDirect Saved.sampleHost results = .ok graph
      ∧ ∀ next, next ∈ graph.upstream.get "/w/a.cs" ↔ next = other := by
  obtain ⟨manifest, loaded, checked⟩ := Option.any_eq_true _ _ |>.mp computed
  have walks : WalksTo visits other manifest := of_decide_eq_true checked
  have loaded := (loadCounted_eq _).symm.trans (eq_ok_of_toOption loaded)
  have opens := openUnit_written plain rfl rfl loaded
  have handle : (⟨"/w/u.json", "u.json", .manifest manifest⟩ : CompilationUnit).handle = .manifest manifest := rfl
  obtain ⟨results, found, ⟨result, member, here⟩, only⟩ :=
    results_of_walk (show sampleBuilder.frontend = _ from rfl) loaded handle (by simp) walks known
  obtain ⟨calls, journal, outcome⟩ := Builder.directDependencies_outcome sampleBuilder Saved.sampleHost "t"
    ⟨"/w/u.json", "u.json", .manifest manifest⟩ (writtenWorld (listing types))
  rw [found] at outcome
  obtain ⟨graph, made, _, shows⟩ := Graph.ofDirect_of_spelled Saved.sampleHost (spelled_of_resultsOf found)
  refine ⟨results, graph, ⟨_, _, opens, outcome⟩, made, fun next => ?_⟩
  -- The files of results stand under their canonical paths.
  have canonical {file : String} (there : Builder.Context.There Saved.sampleHost (writtenWorld (listing types)).tree file) :
      Saved.sampleHost.canonical file = file := (Host.locate_eq_ok.mp there.1).2
  rw [shows.members]
  constructor
  · rintro ⟨_, given, among, named, dependency, listed, called⟩
    obtain ⟨own, dependencies⟩ := Builder.there_of_resultsOf found given among
    rw [canonical own] at named
    rw [canonical (dependencies dependency listed)] at called
    exact called ▸ (only given among named dependency).mp listed
  · rintro rfl
    obtain ⟨own, dependencies⟩ := Builder.there_of_resultsOf found result member
    have listed := (only result member here next).mpr rfl
    refine ⟨?_, result, member, (canonical own).trans here, next, listed, canonical (dependencies next listed)⟩
    rintro rfl
    exact absurd known (by decide)

/-- The type parameters of two methods have one id: the constraints that are read last count for both methods. -/
theorem last_constraints_count : Labelled (pair (constrained "m" "B") (constrained "n" "C"))
    ∧ Shuffled (pair (constrained "m" "B") (constrained "n" "C")) (pair (constrained "n" "C") (constrained "m" "B"))
    ∧ ∃ results otherResults graph otherGraph, Builds (pair (constrained "m" "B") (constrained "n" "C")) results
      ∧ Builds (pair (constrained "n" "C") (constrained "m" "B")) otherResults
      ∧ Graph.ofDirect Saved.sampleHost results = .ok graph ∧ Graph.ofDirect Saved.sampleHost otherResults = .ok otherGraph
      ∧ otherGraph.same graph = false := by
  obtain ⟨results, graph, found, made, members⟩ := builds_of_walk 9 "/w/c.cs"
    (plain_listing (plain_pair (plain_constrained "m" "B") (plain_constrained "n" "C"))) (by simp) (by decide +kernel)
  obtain ⟨otherResults, otherGraph, otherFound, otherMade, otherMembers⟩ := builds_of_walk 9 "/w/b.cs"
    (plain_listing (plain_pair (plain_constrained "n" "C") (plain_constrained "m" "B"))) (by simp) (by decide +kernel)
  refine ⟨labelled_of_bodyless (by decide +kernel) (by decide +kernel) (by decide +kernel), shuffled_members _ _, results,
    otherResults, graph, otherGraph, found, otherFound, made, otherMade, ?_⟩
  rw [Bool.eq_false_iff]
  intro equal
  rw [Graph.same, Bool.and_eq_true] at equal
  have both := (Graph.get_of_same equal.1 "/w/a.cs" "/w/b.cs").mp ((otherMembers _).mpr rfl)
  exact absurd ((members _).mp both) (by decide)

end Sample

end DeclGraph.Manifest
