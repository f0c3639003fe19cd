import DeclGraph.Manifest.Loader
import DeclGraph.Proofs.Outcomes

/-!
What a manifest says, apart from any symbols: the references and the type parameters that occur in it, and the ids
that references stand for.
-/

namespace DeclGraph.Manifest

namespace Reference

mutual

def name? : Reference → Option String
  | .absent => none
  | .named id => some id
  | .generic definition _ arguments _ =>
    match name? definition, names? arguments with
    | some id, some ids => some (id ++ "<" ++ ",".intercalate ids ++ ">")
    | _, _ => none
  | .array element _ => (name? element).map (· ++ "[]")
  | .pointer element _ => (name? element).map (· ++ "*")
  | .tuple _ elements => (names? elements).map fun ids => "(" ++ ",".intercalate ids ++ ")"
  | .functionPointer returnType _ parameters =>
    (names? parameters).map fun ids =>
      "delegate*<" ++ ",".intercalate (ids ++ [(name? returnType).getD "void"]) ++ ">"
  | .defective _ => none
  | .endless => none

def names? : List Reference → Option (List String)
  | [] => some []
  | reference :: rest =>
    match name? reference, names? rest with
    | some id, some ids => some (id :: ids)
    | _, _ => none

end

def parts : Reference → List Reference
  | .generic definition _ arguments _ => definition :: arguments
  | .array element _ => [element]
  | .pointer element _ => [element]
  | .tuple _ elements => elements
  | .functionPointer returnType _ parameters => returnType :: parameters
  | _ => []

/-- A reference, its parts, the parts of these, and so on. -/
inductive Inside (whole : Reference) : Reference → Prop
  | self : Inside whole whole
  | part {outer inner : Reference} (around : Inside whole outer) (listed : inner ∈ outer.parts) : Inside whole inner

theorem Inside.trans {whole outer inner : Reference} (first : Inside whole outer) (second : Inside outer inner) :
    Inside whole inner := by
  induction second with
  | self => exact first
  | part _ listed ih => exact .part ih listed

theorem inside_cases {whole inner : Reference} (inside : Inside whole inner) :
    inner = whole ∨ ∃ part ∈ whole.parts, Inside part inner := by
  induction inside with
  | self => exact Or.inl rfl
  | part _ listed ih =>
    rcases ih with rfl | ⟨part, among, within⟩
    · exact Or.inr ⟨_, listed, .self⟩
    · exact Or.inr ⟨part, among, .part within listed⟩

end Reference

/-- What a loop over a value meets, if it can be looped over. -/
def looped (value : Document) : List Document :=
  if value.isSet then value.elements?.getD [] else []

def refersIn (value : Document) : List Reference := (looped value).map .ofDocument

def parameterRefs (value : Document) : List Reference :=
  (looped value).flatMap fun entry =>
    match entry.entries? with
    | some _ => [.ofDocument (entry.field "type"), .ofDocument (entry.field "default")]
    | none => [.ofDocument entry]

def parameterId : Document → Document
  | .scalar (.text id) => .text id
  | entry => entry.field "id"

def Constraining (parameter : Document) : Prop := ∀ id, parameter ≠ .text id

def Nests (reference : Document) : Prop :=
  ReferenceKind.ofValue? (reference.field "kind") = some .localFunction
    ∨ ReferenceKind.ofValue? (reference.field "kind") = some .lambda

instance (reference : Document) : Decidable (Nests reference) := inferInstanceAs (Decidable (_ ∨ _))

def innerMethod (reference : Document) : Document := ((reference.field "method").ifSet).getD (.map [])

/-- A method, the methods in its body, those in their bodies, and so on. -/
inductive MethodUnder (method : Document) : Document → Prop
  | self : MethodUnder method method
  | inner {outer reference : Document} (around : MethodUnder method outer)
      (listed : reference ∈ looped (outer.field "body")) (nests : Nests reference) :
      MethodUnder method (innerMethod reference)

theorem MethodUnder.trans {method outer inner : Document} (first : MethodUnder method outer)
    (second : MethodUnder outer inner) : MethodUnder method inner := by
  induction second with
  | self => exact first
  | inner _ listed nests ih => exact .inner ih listed nests

theorem methodUnder_cases {method inner : Document} (under : MethodUnder method inner) :
    inner = method ∨ ∃ reference ∈ looped (method.field "body"), Nests reference ∧
      MethodUnder (innerMethod reference) inner := by
  induction under with
  | self => exact Or.inl rfl
  | @inner outer reference _ listed nests ih =>
    rcases ih with rfl | ⟨first, among, also, within⟩
    · exact Or.inr ⟨reference, listed, nests, .self⟩
    · exact Or.inr ⟨first, among, also, .inner within listed nests⟩

/-- Methods stand in the bodies of one another at most this deep, this one being the first. -/
def BodiesWithin : Nat → Document → Prop
  | 0, _ => False
  | depth + 1, method =>
    ∀ reference ∈ looped (method.field "body"), Nests reference → BodiesWithin depth (innerMethod reference)

theorem BodiesWithin.mono {depth more : Nat} {method : Document} (within : BodiesWithin depth method) (deeper : depth ≤ more) :
    BodiesWithin more method := by
  induction depth generalizing more method with
  | zero => exact within.elim
  | succ depth ih =>
    obtain ⟨more, rfl⟩ := Nat.exists_eq_add_one.mpr (Nat.lt_of_lt_of_le depth.succ_pos deeper)
    exact fun reference listed nests => ih (within reference listed nests) (Nat.le_of_succ_le_succ deeper)

def methodRefs (method : Document) : List Reference :=
  .ofDocument (method.field "return_type") :: parameterRefs (method.field "parameters")
    ++ refersIn (method.field "attributes")
    ++ (looped (method.field "body")).map fun reference => .ofDocument (reference.field "type")

def memberRefs (member : Document) : List Reference :=
  match (member.field "kind").text? with
  | some "field" => [.ofDocument (member.field "type")]
  | some "property" => .ofDocument (member.field "type") :: parameterRefs (member.field "parameters")
  | some "event" => [.ofDocument (member.field "type")]
  | some "nested_type" => [.ofDocument (member.field "type")]
  | _ => []

def headRefs (entry : Document) : List Reference :=
  .ofDocument (entry.field "base") :: refersIn (entry.field "interfaces") ++ refersIn (entry.field "type_arguments")
    ++ refersIn (entry.field "attributes")

section Within

variable (types : List Document)

def MemberWithin (member : Document) : Prop := ∃ entry ∈ types, member ∈ looped (entry.field "members")

/-- A method of some type of a manifest, or one in the body of such a method. -/
def MethodWithin (method : Document) : Prop :=
  ∃ member, MemberWithin types member ∧ (member.field "kind").text? = some "method" ∧ MethodUnder member method

inductive ParameterWithin : Document → Prop
  | type {entry parameter : Document} (listed : entry ∈ types)
      (among : parameter ∈ looped (entry.field "type_parameters")) : ParameterWithin parameter
  | method {method parameter : Document} (within : MethodWithin types method)
      (among : parameter ∈ looped (method.field "type_parameters")) : ParameterWithin parameter

/-- A reference that occurs in a manifest. -/
inductive RefersWithin : Reference → Prop
  | head {entry : Document} {reference : Reference} (listed : entry ∈ types) (among : reference ∈ headRefs entry) :
      RefersWithin reference
  | marked {member : Document} {reference : Reference} (within : MemberWithin types member)
      (among : reference ∈ refersIn (member.field "attributes")) : RefersWithin reference
  | member {member : Document} {reference : Reference} (within : MemberWithin types member)
      (among : reference ∈ memberRefs member) : RefersWithin reference
  | method {method : Document} {reference : Reference} (within : MethodWithin types method)
      (among : reference ∈ methodRefs method) : RefersWithin reference
  | constraint {parameter : Document} {reference : Reference} (within : ParameterWithin types parameter)
      (constraining : Constraining parameter) (among : reference ∈ refersIn (parameter.field "constraints")) :
      RefersWithin reference
  | part {outer inner : Reference} (around : RefersWithin outer) (listed : inner ∈ outer.parts) : RefersWithin inner

namespace RefersWithin

variable {types : List Document} {entry member method : Document}

theorem base (listed : entry ∈ types) : RefersWithin types (.ofDocument (entry.field "base")) :=
  .head listed (by simp [headRefs])

theorem interfaces (listed : entry ∈ types) : ∀ reference ∈ refersIn (entry.field "interfaces"), RefersWithin types reference :=
  fun _ among => .head listed (by simp [headRefs, among])

theorem typeArguments (listed : entry ∈ types) :
    ∀ reference ∈ refersIn (entry.field "type_arguments"), RefersWithin types reference :=
  fun _ among => .head listed (by simp [headRefs, among])

theorem attributes (listed : entry ∈ types) : ∀ reference ∈ refersIn (entry.field "attributes"), RefersWithin types reference :=
  fun _ among => .head listed (by simp [headRefs, among])

theorem memberAttributes (within : MemberWithin types member) :
    ∀ reference ∈ refersIn (member.field "attributes"), RefersWithin types reference :=
  fun _ among => .marked within among

theorem memberType {kind : String} (within : MemberWithin types member) (given : (member.field "kind").text? = some kind)
    (carries : kind ∈ ["field", "property", "event", "nested_type"]) :
    RefersWithin types (.ofDocument (member.field "type")) := by
  refine .member within ?_
  simp only [List.mem_cons, List.not_mem_nil, or_false] at carries
  rcases carries with rfl | rfl | rfl | rfl <;> simp [memberRefs, given]

theorem indices (within : MemberWithin types member) (given : (member.field "kind").text? = some "property") :
    ∀ reference ∈ parameterRefs (member.field "parameters"), RefersWithin types reference :=
  fun _ among => .member within (by simp [memberRefs, given, among])

theorem returnType (within : MethodWithin types method) : RefersWithin types (.ofDocument (method.field "return_type")) :=
  .method within (by simp [methodRefs])

theorem parameters (within : MethodWithin types method) :
    ∀ reference ∈ parameterRefs (method.field "parameters"), RefersWithin types reference :=
  fun _ among => .method within (by simp [methodRefs, among])

theorem methodAttributes (within : MethodWithin types method) :
    ∀ reference ∈ refersIn (method.field "attributes"), RefersWithin types reference :=
  fun _ among => .method within (by simp [methodRefs, among])

theorem occurrence (within : MethodWithin types method) (listed : entry ∈ looped (method.field "body")) :
    RefersWithin types (.ofDocument (entry.field "type")) :=
  .method within (List.mem_append_right _ (List.mem_map.mpr ⟨entry, listed, rfl⟩))

theorem inside {outer inner : Reference} (around : RefersWithin types outer) (inside : outer.Inside inner) :
    RefersWithin types inner := by
  induction inside with
  | self => exact around
  | part _ listed ih => exact .part ih listed

end RefersWithin

/-- A manifest without methods and type parameters. -/
structure Methodless : Prop where
  parameters : ∀ entry ∈ types, looped (entry.field "type_parameters") = []
  members : ∀ entry ∈ types, ∀ member ∈ looped (entry.field "members"), (member.field "kind").text? ≠ some "method"

namespace Methodless

variable {types : List Document} (methodless : Methodless types)
include methodless

theorem not_methodWithin (method : Document) : ¬ MethodWithin types method := by
  rintro ⟨member, ⟨entry, listed, among⟩, kind, _⟩
  exact methodless.members entry listed member among kind

theorem not_parameterWithin (parameter : Document) : ¬ ParameterWithin types parameter := by
  rintro (⟨listed, among⟩ | ⟨within, _⟩)
  · rw [methodless.parameters _ listed] at among
    cases among
  · exact methodless.not_methodWithin _ within

/-- What holds of a reference when it is written, and of its parts when it holds of a reference, holds of all. -/
theorem refersWithin {holds : Reference → Prop} (heads : ∀ entry ∈ types, ∀ reference ∈ headRefs entry, holds reference)
    (members : ∀ entry ∈ types, ∀ member ∈ looped (entry.field "members"),
      ∀ reference ∈ refersIn (member.field "attributes") ++ memberRefs member, holds reference)
    (parts : ∀ outer, holds outer → ∀ inner ∈ outer.parts, holds inner) {reference : Reference}
    (within : RefersWithin types reference) : holds reference := by
  induction within with
  | head listed among => exact heads _ listed _ among
  | marked within among =>
    obtain ⟨entry, listed, inside⟩ := within
    exact members entry listed _ inside _ (List.mem_append_left _ among)
  | member within among =>
    obtain ⟨entry, listed, inside⟩ := within
    exact members entry listed _ inside _ (List.mem_append_right _ among)
  | method within => exact absurd within (methodless.not_methodWithin _)
  | constraint within => exact absurd within (methodless.not_parameterWithin _)
  | part _ listed ih => exact parts _ ih _ listed

end Methodless

end Within

theorem MethodWithin.inner {types : List Document} {outer reference : Document} (within : MethodWithin types outer)
    (listed : reference ∈ looped (outer.field "body")) (nests : Nests reference) :
    MethodWithin types (innerMethod reference) := by
  obtain ⟨member, place, kind, under⟩ := within
  exact ⟨member, place, kind, .inner under listed nests⟩

end DeclGraph.Manifest
