import DeclGraph.Proofs.YamlTokens
import DeclGraph.Yaml.Node

/-!
The mappings among the nodes of a YAML text. Each of them begins with a token of its own, so there are at most two for each
character.
-/

namespace DeclGraph.Yaml

section Running

variable {σ α β : Type} {op : StateT σ (Except Failure) α} {next : α → StateT σ (Except Failure) β} {before after : σ}

theorem run_bind {value : β} : (op >>= next).run before = .ok (value, after) ↔
    ∃ found middle, op.run before = .ok (found, middle) ∧ (next found).run middle = .ok (value, after) := by
  rw [StateT.run_bind, bind_eq_ok]
  constructor
  · rintro ⟨⟨found, middle⟩, ran, rest⟩
    exact ⟨found, middle, ran, rest⟩
  · rintro ⟨found, middle, ran, rest⟩
    exact ⟨(found, middle), ran, rest⟩

theorem run_pure {value found : α} (ran : (pure found : StateT σ (Except Failure) α).run before = .ok (value, after)) :
    found = value ∧ before = after := by
  cases ran
  exact ⟨rfl, rfl⟩

end Running

def NodeContent.isMapping : NodeContent → Bool
  | .mapping _ => true
  | _ => false

def kinds (nodes : Array Node) : List Bool := nodes.toList.map fun node => node.content.isMapping

def mappings (nodes : Array Node) : Nat := (kinds nodes).count true

theorem kinds_push (nodes : Array Node) (node : Node) :
    kinds (nodes.push node) = kinds nodes ++ [node.content.isMapping] := by
  rw [kinds, Array.toList_push, List.map_append, kinds, List.map_singleton]

theorem length_kinds (nodes : Array Node) : (kinds nodes).length = nodes.size := by
  rw [kinds, List.length_map, Array.length_toList]

theorem kinds_setIfInBounds {nodes : Array Node} {number : NodeId} {node : Node}
    (same : ∀ kind, (kinds nodes)[number]? = some kind → node.content.isMapping = kind) :
    kinds (nodes.setIfInBounds number node) = kinds nodes := by
  rw [kinds, Array.toList_setIfInBounds, List.map_set, ← kinds]
  refine List.ext_getElem? fun place => ?_
  rw [List.getElem?_set]
  split
  · next here =>
    subst here
    split
    · next inside =>
      rw [same _ (List.getElem?_eq_getElem inside), List.getElem?_eq_getElem inside]
    · next outside => rw [List.getElem?_eq_none (Nat.le_of_not_lt outside)]
  · rfl

namespace NodeReader

/-- The mappings that were read and those that may still begin. -/
def total (reader : NodeReader) : Nat := mappings reader.nodes + reader.lexer.budget

/-- Nodes were added only, and with at most so many mappings more than tokens allow. -/
structure Spent (before after : NodeReader) (extra : Nat) : Prop where
  kept : kinds before.nodes <+: kinds after.nodes
  total : after.total ≤ before.total + extra

def Spends {α : Type} (extra : Nat) (before : NodeReader) (op : Reading α) : Prop :=
  ∀ value after, op.run before = .ok (value, after) → Spent before after extra

section Spending

variable {α β : Type} {extra more : Nat} {before : NodeReader} {op : Reading α} {next : α → Reading β}

theorem Spent.refl : Spent before before extra := ⟨List.prefix_rfl, Nat.le_add_right _ _⟩

theorem Spent.trans {middle after : NodeReader} (one : Spent before middle extra) (two : Spent middle after more) :
    Spent before after (extra + more) where
  kept := one.kept.trans two.kept
  total := by
    have first := one.total
    have second := two.total
    omega

theorem spends_pure (value : α) : Spends extra before (pure value : Reading α) := by
  intro _ _ ran
  obtain ⟨_, rfl⟩ := run_pure ran
  exact .refl

theorem spends_throw {failure : Failure} : Spends extra before (throw failure : Reading α) := nofun

theorem spends_bind (first : Spends extra before op)
    (rest : ∀ value middle, op.run before = .ok (value, middle) → Spends more middle (next value)) :
    Spends (extra + more) before (op >>= next) := by
  intro value after ran
  obtain ⟨found, middle, begun, ran⟩ := run_bind.mp ran
  exact (first found middle begun).trans (rest found middle begun value after ran)

theorem spends_next (first : Spends 0 before op) (rest : ∀ value middle, Spends extra middle (next value)) :
    Spends extra before (op >>= next) :=
  Nat.zero_add extra ▸ spends_bind first fun value middle _ => rest value middle

theorem spends_before (first : Spends extra before op) (rest : ∀ value middle, Spends 0 middle (next value)) :
    Spends extra before (op >>= next) :=
  spends_bind first fun value middle _ => rest value middle

theorem spends_map {f : α → β} (spends : Spends extra before op) : Spends extra before (f <$> op) := by
  rw [map_eq_pure_bind]
  exact spends_before spends fun value _ => spends_pure (f value)

theorem spends_get {next : NodeReader → Reading β} (rest : Spends extra before (next before)) :
    Spends extra before (get >>= next) := rest

theorem spends_modify {change : NodeReader → NodeReader} {next : PUnit → Reading β}
    (same : ∀ reader, (change reader).nodes = reader.nodes ∧ (change reader).lexer = reader.lexer)
    (rest : ∀ middle, Spends extra middle (next ())) : Spends extra before (modify change >>= next) := by
  refine spends_next (fun _ _ ran => ?_) fun _ => rest
  cases ran
  have unchanged : (change before).total = before.total := by
    unfold total
    rw [(same before).1, (same before).2]
  exact ⟨by simp only [(same before).1, List.prefix_rfl], Nat.le_of_eq unchanged⟩

theorem peek_run {token : Token} {after : NodeReader} (ran : peek.run before = .ok (token, after)) :
    Spent before after 0 ∧ after.lexer.upcoming = token := by
  obtain ⟨reader, _, got, ran⟩ := run_bind.mp ran
  cases got
  obtain ⟨⟨found, lexer⟩, middle, lifted, ran⟩ := run_bind.mp ran
  obtain ⟨⟨_, _⟩, read, same⟩ := bind_eq_ok.mp lifted
  cases same
  obtain ⟨_, last, changed, ran⟩ := run_bind.mp ran
  cases changed
  obtain ⟨rfl, rfl⟩ := run_pure ran
  obtain ⟨within, upcoming⟩ := Lexer.budget_next read
  exact ⟨⟨List.prefix_rfl, Nat.add_le_add_left within _⟩, upcoming⟩

theorem spends_peek {next : Token → Reading β}
    (rest : ∀ token middle, middle.lexer.upcoming = token → Spends extra middle (next token)) :
    Spends extra before (peek >>= next) := by
  refine Nat.zero_add extra ▸ spends_bind (fun token after ran => (peek_run ran).1) fun token middle ran => ?_
  exact rest token middle (peek_run ran).2

/-- Taking a token pays for the mapping that begins with it. -/
theorem spends_advance {next : Unit → Reading β}
    (rest : ∀ middle, Spends (extra + before.lexer.upcoming.opens) middle (next ())) :
    Spends extra before (advance >>= next) := by
  intro value after ran
  obtain ⟨_, middle, taken, ran⟩ := run_bind.mp ran
  cases taken
  have spent := rest _ value after ran
  have paid := Lexer.budget_advance before.lexer
  refine ⟨spent.kept, ?_⟩
  have within := spent.total
  unfold total at within ⊢
  dsimp only at within
  omega

end Spending

section Adding

variable {before after : NodeReader} {anchor : Option String} {tag : Tag} {content : NodeContent}

theorem addAnchored_run {number : NodeId} (ran : (addAnchored anchor tag content).run before = .ok (number, after)) :
    number = before.nodes.size ∧ after.nodes = before.nodes.push ⟨tag, content⟩ ∧ after.lexer = before.lexer := by
  cases anchor with
  | none =>
    cases ran
    exact ⟨rfl, rfl, rfl⟩
  | some name =>
    unfold addAnchored at ran
    obtain ⟨reader, _, got, ran⟩ := run_bind.mp ran
    cases got
    dsimp only at ran
    split at ran
    · cases ran
    · cases ran
      exact ⟨rfl, rfl, rfl⟩

theorem mappings_push (nodes : Array Node) (node : Node) :
    mappings (nodes.push node) = mappings nodes + if node.content.isMapping then 1 else 0 := by
  rw [mappings, kinds_push, List.count_append, List.count_singleton, mappings]
  cases node.content.isMapping <;> rfl

theorem spends_addAnchored : Spends (if content.isMapping then 1 else 0) before (addAnchored anchor tag content) := by
  intro number after ran
  obtain ⟨_, pushed, same⟩ := addAnchored_run ran
  refine ⟨?_, ?_⟩
  · rw [pushed, kinds_push]
    exact List.prefix_append _ _
  · rw [total, pushed, same, mappings_push, total]
    dsimp only
    omega

theorem spends_addFilled {empty : NodeContent} {read : Reading NodeContent} (reads : ∀ middle, Spends 0 middle read)
    (same : ∀ middle filling after, read.run middle = .ok (filling, after) → filling.isMapping = empty.isMapping) :
    Spends (if empty.isMapping then 1 else 0) before (addFilled anchor tag empty read) := by
  intro value after ran
  obtain ⟨number, middle, added, ran⟩ := run_bind.mp ran
  obtain ⟨filling, last, filled, ran⟩ := run_bind.mp ran
  have spent := (spends_addAnchored number middle added).trans (reads middle filling last filled)
  obtain ⟨rfl, pushed, _⟩ := addAnchored_run added
  have there : (kinds last.nodes)[before.nodes.size]? = some empty.isMapping := by
    obtain ⟨others, whole⟩ := (reads middle filling last filled).kept
    rw [← whole, pushed, kinds_push, List.append_assoc, List.getElem?_append_right (Nat.le_of_eq (length_kinds _)),
      length_kinds, Nat.sub_self]
    rfl
  cases ran
  have kept : kinds (last.nodes.setIfInBounds before.nodes.size ⟨tag, filling⟩) = kinds last.nodes :=
    kinds_setIfInBounds fun kind found => (same _ _ _ filled).trans (Option.some.inj (there.symm.trans found))
  refine ⟨?_, ?_⟩
  · rw [kept]
    exact spent.kept
  · rw [total, mappings, kept]
    exact spent.total

theorem spends_addSequence {items : Reading (List NodeId)} (reads : ∀ middle, Spends 0 middle items) :
    Spends 0 before (addSequence anchor tag items) := by
  refine spends_addFilled (fun middle => spends_map (reads middle)) fun _ _ _ ran => ?_
  rw [map_eq_pure_bind] at ran
  obtain ⟨_, _, _, same⟩ := run_bind.mp ran
  cases same
  rfl

theorem spends_addMapping {pairs : Reading (List (NodeId × NodeId))} (reads : ∀ middle, Spends 0 middle pairs) :
    Spends 1 before (addMapping anchor tag pairs) := by
  refine spends_addFilled (fun middle => spends_map (reads middle)) fun _ _ _ ran => ?_
  rw [map_eq_pure_bind] at ran
  obtain ⟨_, _, _, same⟩ := run_bind.mp ran
  cases same
  rfl

theorem spends_addScalar {text : String} : Spends 0 before (addAnchored anchor tag (.scalar text)) := spends_addAnchored

theorem spends_emptyNode : Spends 0 before emptyNode :=
  @spends_addScalar before none .null ""

theorem spends_addBare {tag : Option String} : Spends 0 before (addBare anchor tag) := by
  unfold addBare
  split
  · exact spends_addScalar
  · exact spends_throw

end Adding

section Parts

variable {before : NodeReader} {extra : Nat}

theorem spends_plainAdvance {α : Type} {next : Unit → Reading α} (rest : ∀ middle, Spends 0 middle (next ())) :
    Spends 0 before (advance >>= next) :=
  spends_advance fun middle value after ran => by
    have spent := rest middle value after ran
    exact ⟨spent.kept, Nat.le_trans spent.total (Nat.le_add_right _ _)⟩

theorem spends_properties : Spends 0 before properties := by
  unfold properties
  refine spends_peek fun token middle _ => ?_
  split
  · refine spends_plainAdvance fun middle => spends_peek fun token middle _ => ?_
    split
    · exact spends_plainAdvance fun _ => spends_pure _
    · exact spends_pure _
  · refine spends_plainAdvance fun middle => spends_peek fun token middle _ => ?_
    split
    · exact spends_plainAdvance fun _ => spends_pure _
    · exact spends_pure _
  · exact spends_pure _

theorem spends_fullTag {text : TagText} : Spends 0 before (fullTag text) := by
  unfold fullTag
  split
  · exact spends_pure _
  · refine spends_get ?_
    split
    · exact spends_pure _
    · exact spends_throw

/-- The reading of nodes with some fuel keeps to what tokens allow. -/
structure Keeping (fuel : Nat) : Prop where
  node : ∀ block loose before, Spends 0 before (node block loose fuel)
  content : ∀ block loose anchor tag before, Spends 0 before (content block loose anchor tag fuel)
  blockItems : ∀ before, Spends 0 before (blockItems fuel)
  looseItems : ∀ before, Spends 0 before (looseItems fuel)
  blockPairs : ∀ before, Spends 0 before (blockPairs fuel)
  blockValue : ∀ before, Spends 0 before (blockValue fuel)
  flowItems : ∀ first before, Spends 0 before (flowItems first fuel)
  flowValue : ∀ square before, Spends 0 before (flowValue square fuel)
  flowPairs : ∀ first before, Spends 0 before (flowPairs first fuel)

theorem spends_optional {α : Type} {closes : Bool} {read : Reading NodeId} {next : NodeId → Reading α}
    (reads : ∀ middle, Spends 0 middle read) (rest : ∀ number middle, Spends extra middle (next number)) :
    Spends extra before (if closes then emptyNode >>= next else read >>= next) := by
  split
  · exact spends_next spends_emptyNode rest
  · exact spends_next (reads before) rest

section Levels

variable {fuel : Nat} (ih : Keeping fuel)
include ih

theorem spends_node {block loose : Bool} : Spends 0 before (node block loose (fuel + 1)) := by
  rw [node]
  refine spends_peek fun token middle _ => ?_
  split
  · refine spends_plainAdvance fun middle => spends_get ?_
    split
    · exact spends_pure _
    · exact spends_throw
  · refine spends_next spends_properties fun found middle => ?_
    dsimp only
    split
    · exact ih.content _ _ _ _ _
    · exact spends_next (spends_map spends_fullTag) fun tag middle => ih.content _ _ _ _ _

theorem spends_content {block loose : Bool} {anchor tag : Option String} :
    Spends 0 before (content block loose anchor tag (fuel + 1)) := by
  rw [content]
  refine spends_peek fun token middle upcoming => ?_
  split
  · split
    · exact spends_addSequence fun _ => ih.looseItems _
    · exact spends_addBare
  · exact spends_plainAdvance fun _ => spends_addScalar
  · exact spends_plainAdvance fun _ => spends_addSequence fun _ => ih.flowItems _ _
  · refine spends_advance fun middle => ?_
    rw [upcoming]
    exact spends_addMapping fun _ => ih.flowPairs _ _
  · split
    · exact spends_plainAdvance fun _ => spends_addSequence fun _ => ih.blockItems _
    · exact spends_addBare
  · split
    · refine spends_advance fun middle => ?_
      rw [upcoming]
      exact spends_addMapping fun _ => ih.blockPairs _
    · exact spends_addBare
  · exact spends_addBare

theorem spends_blockItems : Spends 0 before (blockItems (fuel + 1)) := by
  rw [blockItems]
  refine spends_peek fun token middle _ => ?_
  split
  · refine spends_plainAdvance fun middle => spends_peek fun token middle _ => ?_
    exact spends_optional (fun _ => ih.node _ _ _) fun item middle => spends_next (ih.blockItems _) fun _ _ => spends_pure _
  · exact spends_plainAdvance fun _ => spends_pure _
  · exact spends_throw

theorem spends_looseItems : Spends 0 before (looseItems (fuel + 1)) := by
  rw [looseItems]
  refine spends_peek fun token middle _ => ?_
  split
  · refine spends_plainAdvance fun middle => spends_peek fun token middle _ => ?_
    exact spends_optional (fun _ => ih.node _ _ _) fun item middle => spends_next (ih.looseItems _) fun _ _ => spends_pure _
  · exact spends_pure _

theorem spends_blockPairs : Spends 0 before (blockPairs (fuel + 1)) := by
  rw [blockPairs]
  refine spends_peek fun token middle _ => ?_
  split
  · refine spends_plainAdvance fun middle => spends_peek fun token middle _ => ?_
    exact spends_optional (fun _ => ih.node _ _ _) fun name middle => spends_next (ih.blockValue _) fun value middle =>
      spends_next (ih.blockPairs _) fun _ _ => spends_pure _
  · exact spends_plainAdvance fun _ => spends_pure _
  · exact spends_throw

theorem spends_blockValue : Spends 0 before (blockValue (fuel + 1)) := by
  rw [blockValue]
  refine spends_peek fun token middle _ => ?_
  split
  · refine spends_plainAdvance fun middle => spends_peek fun token middle _ => ?_
    split
    · exact spends_emptyNode
    · exact ih.node _ _ _
  · exact spends_emptyNode

theorem spends_flowValue {square : Bool} : Spends 0 before (flowValue square (fuel + 1)) := by
  rw [flowValue]
  refine spends_peek fun token middle _ => ?_
  split
  · refine spends_plainAdvance fun middle => spends_peek fun token middle _ => ?_
    split
    · exact spends_emptyNode
    · exact ih.node _ _ _
  · exact spends_emptyNode

theorem spends_flowItem {more : Reading (List NodeId)} (rest : ∀ middle, Spends 0 middle more) :
    Spends 0 before (do
      match ← peek with
      | .key =>
        advance
        let pair ← addMapping none .map do
          let name ←
            if closesFlowKey true (← peek) then emptyNode else node false false fuel
          return [(name, ← flowValue true fuel)]
        return pair :: (← more)
      | .flowSequenceEnd => advance; pure []
      | _ =>
        let item ← node false false fuel
        return item :: (← more)) := by
  refine spends_peek fun token middle upcoming => ?_
  split
  · refine spends_advance fun middle => ?_
    rw [upcoming]
    refine spends_before (spends_addMapping fun middle => ?_) fun pair middle =>
      spends_next (rest middle) fun _ _ => spends_pure _
    refine spends_peek fun token middle _ => ?_
    exact spends_optional (fun _ => ih.node _ _ _) fun name middle => spends_next (ih.flowValue _ _) fun _ _ => spends_pure _
  · exact spends_plainAdvance fun _ => spends_pure _
  · exact spends_next (ih.node _ _ _) fun item middle => spends_next (rest middle) fun _ _ => spends_pure _

theorem spends_flowItems {first : Bool} : Spends 0 before (flowItems first (fuel + 1)) := by
  rw [flowItems]
  refine spends_peek fun token middle _ => ?_
  split
  · exact spends_plainAdvance fun _ => spends_pure _
  · dsimp only
    split
    · split
      · exact spends_plainAdvance fun _ => spends_flowItem ih fun _ => ih.flowItems _ _
      · exact spends_throw
    · exact spends_flowItem ih fun _ => ih.flowItems _ _

theorem spends_flowPair {more : Reading (List (NodeId × NodeId))} (rest : ∀ middle, Spends 0 middle more) :
    Spends 0 before (do
      match ← peek with
      | .key =>
        advance
        let name ←
          if closesFlowKey false (← peek) then emptyNode else node false false fuel
        let value ← flowValue false fuel
        return (name, value) :: (← more)
      | .flowMappingEnd => advance; pure []
      | _ =>
        let name ← node false false fuel
        let value ← emptyNode
        return (name, value) :: (← more)) := by
  refine spends_peek fun token middle _ => ?_
  split
  · refine spends_plainAdvance fun middle => spends_peek fun token middle _ => ?_
    exact spends_optional (fun _ => ih.node _ _ _) fun name middle => spends_next (ih.flowValue _ _) fun value middle =>
      spends_next (rest middle) fun _ _ => spends_pure _
  · exact spends_plainAdvance fun _ => spends_pure _
  · exact spends_next (ih.node _ _ _) fun name middle => spends_next spends_emptyNode fun value middle =>
      spends_next (rest middle) fun _ _ => spends_pure _

theorem spends_flowPairs {first : Bool} : Spends 0 before (flowPairs first (fuel + 1)) := by
  rw [flowPairs]
  refine spends_peek fun token middle _ => ?_
  split
  · exact spends_plainAdvance fun _ => spends_pure _
  · dsimp only
    split
    · split
      · exact spends_plainAdvance fun _ => spends_flowPair ih fun _ => ih.flowPairs _ _
      · exact spends_throw
    · exact spends_flowPair ih fun _ => ih.flowPairs _ _

end Levels

theorem keeping (fuel : Nat) : Keeping fuel := by
  induction fuel with
  | zero =>
    exact ⟨fun _ _ _ => spends_throw, fun _ _ _ _ _ => spends_throw, fun _ => spends_throw, fun _ => spends_throw,
      fun _ => spends_throw, fun _ => spends_throw, fun _ _ => spends_throw, fun _ _ => spends_throw, fun _ _ => spends_throw⟩
  | succ fuel ih =>
    exact ⟨fun _ _ _ => spends_node ih, fun _ _ _ _ _ => spends_content ih, fun _ => spends_blockItems ih,
      fun _ => spends_looseItems ih, fun _ => spends_blockPairs ih, fun _ => spends_blockValue ih, fun _ _ => spends_flowItems ih,
      fun _ _ => spends_flowValue ih, fun _ _ => spends_flowPairs ih⟩

theorem spends_directives (fuel : Nat) (versioned : Bool) (handles : List (String × String)) :
    Spends 0 before (directives fuel versioned handles) := by
  induction fuel generalizing before versioned handles with
  | zero => exact spends_throw
  | succ fuel ih =>
    rw [directives]
    refine spends_peek fun token middle _ => ?_
    split
    · refine spends_plainAdvance fun middle => ?_
      dsimp only
      split
      · exact spends_throw
      · exact ih _ _
    · refine spends_plainAdvance fun middle => ?_
      dsimp only
      split
      · exact spends_throw
      · exact ih _ _
    · exact spends_plainAdvance fun _ => ih _ _
    · exact spends_pure _

theorem spends_skipEnds (fuel : Nat) : Spends 0 before (skipEnds fuel) := by
  induction fuel generalizing before with
  | zero => exact spends_pure _
  | succ fuel ih =>
    rw [skipEnds]
    refine spends_peek fun token middle _ => ?_
    split
    · exact spends_plainAdvance fun _ => ih
    · exact spends_pure _

theorem spends_explicitContent (fuel : Nat) : Spends 0 before (explicitContent fuel) := by
  refine spends_peek fun token middle _ => ?_
  split
  · exact spends_emptyNode
  · exact spends_emptyNode
  · exact spends_emptyNode
  · exact spends_emptyNode
  · exact (keeping fuel).node _ _ _

theorem spends_finish (fuel : Nat) : Spends 0 before (finish fuel) := by
  refine spends_next (spends_skipEnds fuel) fun _ middle => spends_peek fun token middle _ => ?_
  split
  · exact spends_pure _
  · exact spends_next (spends_directives fuel _ _) fun _ _ => spends_throw

theorem spends_document {fuel : Nat} {read : Reading NodeId} {change : NodeReader → NodeReader}
    (reads : ∀ middle, Spends 0 middle read)
    (same : ∀ reader, (change reader).nodes = reader.nodes ∧ (change reader).lexer = reader.lexer) :
    Spends 0 before (do
      modify change
      let found ← read
      finish fuel
      pure (some found)) :=
  spends_modify same fun middle => spends_next (reads middle) fun _ _ =>
    spends_next (spends_finish fuel) fun _ _ => spends_pure _

theorem spends_stream (fuel : Nat) : Spends 0 before (stream fuel) := by
  refine spends_peek fun token middle _ => ?_
  split
  case h_1 => exact spends_pure _
  case h_2 | h_3 =>
    refine spends_next (spends_directives fuel _ _) fun handles middle => spends_peek fun token middle _ => ?_
    split
    · exact spends_plainAdvance fun middle => spends_document (fun _ => spends_explicitContent fuel) fun _ => ⟨rfl, rfl⟩
    · exact spends_throw
  case h_4 => exact spends_document (fun _ => (keeping fuel).node _ _ _) fun _ => ⟨rfl, rfl⟩

end Parts

end NodeReader

/-- At most two mappings are read for each character. -/
theorem mappings_of_nodesOf {source : Source} {nodes : Array Node} {root : Option NodeId}
    (read : nodesOf source = .ok (nodes, root)) : mappings nodes ≤ 2 * source.chars.length := by
  obtain ⟨⟨found, reader⟩, ran, same⟩ := bind_eq_ok.mp read
  cases same
  have spent := (NodeReader.spends_stream _ _ _ ran).total
  have start := Lexer.budget_start source.chars source.ending
  have none : mappings #[] = 0 := rfl
  unfold NodeReader.total at spent
  dsimp only at spent
  omega

end DeclGraph.Yaml
