import DeclGraph.Proofs.YamlNodes
import DeclGraph.Yaml.Cell

/-!
The cells of the nodes of a YAML text. Merging mappings and building values make no node a mapping, so only the nodes that were
read as mappings have entries in their cells. Of entries with equal keys one is kept, so the keys of a cell are all different.
-/

namespace DeclGraph.Yaml

section Kinds

variable {nodes : Array Node} {number : NodeId}

theorem kinds_modify {change : Node → Node} (same : ∀ node, nodes[number]? = some node →
      (change node).content.isMapping = node.content.isMapping) : kinds (nodes.modify number change) = kinds nodes := by
  rw [kinds, Array.toList_modify, kinds]
  refine List.ext_getElem? fun place => ?_
  rw [List.getElem?_map, List.getElem?_modify, List.getElem?_map, Array.getElem?_toList]
  cases found : nodes[place]? with
  | none => rfl
  | some node =>
    rw [Option.map_eq_map, Option.map_some, Option.map_some, Option.map_some]
    split
    · next here => rw [same node (here ▸ found)]
    · rfl

theorem kinds_of_mapping {pairs : List (NodeId × NodeId)} (content : (nodes.getD number default).content = .mapping pairs) :
    (kinds nodes)[number]? = some true := by
  rw [Array.getD_eq_getD_getElem?] at content
  rw [kinds, List.getElem?_map, Array.getElem?_toList]
  cases found : nodes[number]? with
  | none =>
    rw [found] at content
    cases content
  | some node =>
    rw [found, Option.getD_some] at content
    rw [Option.map_some, content]
    rfl

theorem kinds_at : (kinds nodes)[number]? = nodes[number]?.map fun node => node.content.isMapping := by
  rw [kinds, List.getElem?_map, Array.getElem?_toList]

end Kinds

namespace Merging

def Steady {α : Type} (before : Array Node) (op : Merging α) : Prop :=
  ∀ value after, op.run before = .ok (value, after) → kinds after = kinds before

section Steadiness

variable {α β : Type} {before : Array Node} {op : Merging α} {next : α → Merging β} {number : NodeId}

theorem steady_pure (value : α) : Steady before (pure value : Merging α) := by
  intro _ _ ran
  rw [(run_pure ran).2]

theorem steady_throw {failure : Failure} : Steady before (throw failure : Merging α) := nofun

theorem steady_bind (first : Steady before op)
    (rest : ∀ value middle, kinds middle = kinds before → Steady middle (next value)) : Steady before (op >>= next) := by
  intro value after ran
  obtain ⟨found, middle, begun, ran⟩ := run_bind.mp ran
  have same := first found middle begun
  exact (rest found middle same value after ran).trans same

theorem steady_get {next : Array Node → Merging β} (rest : Steady before (next before)) : Steady before (get >>= next) := rest

theorem steady_nodeAt {next : Node → Merging β} (rest : Steady before (next (before.getD number default))) :
    Steady before (nodeAt number >>= next) := rest

theorem steady_pairsOf : Steady before (pairsOf number) := by
  refine steady_nodeAt ?_
  split
  · exact steady_pure _
  · exact steady_pure _

theorem steady_forM {f : α → Merging Unit} (values : List α) (each : ∀ value before, Steady before (f value)) :
    Steady before (values.forM f) := by
  induction values generalizing before with
  | nil => exact steady_pure ()
  | cons value rest ih => exact steady_bind (each value before) fun _ _ _ => ih

theorem steady_mapM {f : α → Merging β} (values : List α) (each : ∀ value before, Steady before (f value)) :
    Steady before (values.mapM f) := by
  induction values generalizing before with
  | nil =>
    rw [List.mapM_nil]
    exact steady_pure []
  | cons value rest ih =>
    rw [List.mapM_cons]
    exact steady_bind (each value before) fun _ _ _ => steady_bind ih fun _ _ _ => steady_pure _

theorem steady_setContent {pairs : List (NodeId × NodeId)} (isMapping : (kinds before)[number]? = some true) :
    Steady before (setContent number (.mapping pairs)) := by
  rintro _ _ ⟨⟩
  refine kinds_modify fun node found => ?_
  rw [kinds_at, found] at isMapping
  exact (Option.some.inj isMapping).symm

theorem steady_settleKey : Steady before (settleKey number) := by
  rintro _ _ ⟨⟩
  refine kinds_modify fun node _ => ?_
  split <;> rfl

variable {flatten : NodeId → Merging Unit}
  (steady : ∀ before number, (kinds before)[number]? = some true → Steady before (flatten number))
include steady

theorem steady_flattened : Steady before (flattened flatten number) := by
  refine steady_nodeAt ?_
  split
  · next pairs content => exact steady_bind (steady before number (kinds_of_mapping content)) fun _ _ _ => steady_pairsOf
  · exact steady_throw

theorem steady_takenFrom : Steady before (takenFrom flatten number) := by
  refine steady_nodeAt ?_
  split
  · exact steady_flattened steady
  · exact steady_bind (steady_mapM _ fun _ _ => steady_flattened steady) fun _ _ _ => steady_pure _
  · exact steady_throw

theorem steady_takenIn (count : Nat) (isMapping : (kinds before)[number]? = some true) :
    Steady before (takenIn flatten number count) := by
  induction count generalizing before with
  | zero => exact steady_pure []
  | succ count ih =>
    refine steady_bind steady_pairsOf fun pairs middle same => steady_get ?_
    rw [← same] at isMapping
    split
    · exact steady_pure []
    · refine steady_bind (steady_setContent isMapping) fun _ second same => ?_
      rw [← same] at isMapping
      refine steady_bind (steady_takenFrom steady) fun here third same => ?_
      rw [← same] at isMapping
      exact steady_bind (ih isMapping) fun _ _ _ => steady_pure _

end Steadiness

theorem steady_flatten (depth : Nat) {before : Array Node} {number : NodeId}
    (isMapping : (kinds before)[number]? = some true) :
    Steady before (flatten depth number) := by
  induction depth generalizing before number with
  | zero => exact steady_pure ()
  | succ depth ih =>
    refine steady_bind steady_pairsOf fun pairs first same => ?_
    rw [← same] at isMapping
    refine steady_bind (steady_takenIn (fun _ _ => ih) _ isMapping) fun taken second same => ?_
    rw [← same] at isMapping
    refine steady_bind steady_pairsOf fun own third same => ?_
    rw [← same] at isMapping
    refine steady_bind (steady_forM own fun _ _ => steady_settleKey) fun _ last same => ?_
    rw [← same] at isMapping
    exact steady_setContent isMapping

theorem steady_flattenedPairs {before : Array Node} {number : NodeId} (isMapping : (kinds before)[number]? = some true) :
    Steady before (flattenedPairs number) :=
  steady_get (steady_bind (steady_flatten _ isMapping) fun _ _ _ => steady_pairsOf)

end Merging

namespace Build

def keysOf {α : Type} (entries : List (Scalar × α)) : List Key := entries.map fun entry => entry.1.key

/-- Each cell that holds entries belongs to a mapping, and their keys differ. -/
def Sound (state : Building) : Prop :=
  ∀ number entries, state.cells.getD number none = some (.map entries) →
    (entries ≠ [] → (kinds state.nodes)[number]? = some true) ∧ (keysOf entries).Nodup

/-- A step of building keeps nodes and cells in line. -/
structure Kept (before after : Building) : Prop where
  kinds : kinds after.nodes = kinds before.nodes
  sound : Sound before → Sound after

def Keeps {α : Type} (before : Building) (op : Build α) : Prop :=
  ∀ value after, op.run before = .ok (value, after) → Kept before after

section Keeping

variable {α β : Type} {before : Building} {op : Build α} {next : α → Build β} {number : NodeId}

theorem Kept.refl : Kept before before := ⟨rfl, id⟩

theorem Kept.trans {middle after : Building} (one : Kept before middle) (two : Kept middle after) : Kept before after :=
  ⟨two.kinds.trans one.kinds, two.sound ∘ one.sound⟩

theorem keeps_pure (value : α) : Keeps before (pure value : Build α) := by
  intro _ _ ran
  obtain ⟨_, rfl⟩ := run_pure ran
  exact .refl

theorem keeps_throw {failure : Failure} : Keeps before (throw failure : Build α) := nofun

theorem keeps_bind (first : Keeps before op)
    (rest : ∀ value middle, op.run before = .ok (value, middle) → Keeps middle (next value)) :
    Keeps before (op >>= next) := by
  intro value after ran
  obtain ⟨found, middle, begun, ran⟩ := run_bind.mp ran
  exact (first found middle begun).trans (rest found middle begun value after ran)

theorem keeps_next (first : Keeps before op) (rest : ∀ value middle, Keeps middle (next value)) :
    Keeps before (op >>= next) :=
  keeps_bind first fun value middle _ => rest value middle

theorem keeps_get {next : Building → Build β} (rest : Keeps before (next before)) : Keeps before (get >>= next) := rest

theorem keeps_nodeAt {next : Node → Build β} (rest : Keeps before (next (before.nodes.getD number default))) :
    Keeps before (nodeAt number >>= next) := rest

theorem keeps_forM {f : α → Build Unit} (values : List α) (each : ∀ value before, Keeps before (f value)) :
    Keeps before (values.forM f) := by
  induction values generalizing before with
  | nil => exact keeps_pure ()
  | cons value rest ih => exact keeps_next (each value before) fun _ _ => ih

theorem keeps_mapM {f : α → Build β} (values : List α) (each : ∀ value before, Keeps before (f value)) :
    Keeps before (values.mapM f) := by
  induction values generalizing before with
  | nil =>
    rw [List.mapM_nil]
    exact keeps_pure []
  | cons value rest ih =>
    rw [List.mapM_cons]
    exact keeps_next (each value before) fun _ _ => keeps_next ih fun _ _ => keeps_pure _

theorem keeps_setCell {cell : Cell}
    (fits : ∀ entries, cell = .map entries →
      (entries ≠ [] → (kinds before.nodes)[number]? = some true) ∧ (keysOf entries).Nodup) :
    Keeps before (setCell number cell) := by
  rintro _ _ ⟨⟩
  refine ⟨rfl, fun sound other entries found => ?_⟩
  rw [Array.getD_eq_getD_getElem?, Array.getElem?_setIfInBounds] at found
  split at found
  · next here =>
    subst here
    split at found
    · exact fits entries (Option.some.inj found)
    · cases found
  · exact sound other entries (by rw [Array.getD_eq_getD_getElem?]; exact found)

theorem keeps_scalarText (count : Nat) : Keeps before (scalarText count number) := by
  induction count generalizing before number with
  | zero => exact keeps_throw
  | succ count ih =>
    refine keeps_nodeAt ?_
    split
    · exact keeps_pure _
    · exact keeps_throw
    · refine keeps_get ?_
      dsimp only
      split
      · exact ih
      · exact keeps_throw

theorem scalarCell_run {cell : Cell} {after : Building} (ran : (scalarCell number).run before = .ok (cell, after)) :
    Kept before after ∧ ∃ value, cell = .scalar value := by
  obtain ⟨node, _, got, ran⟩ := run_bind.mp ran
  cases got
  dsimp only at ran
  split at ran
  · cases ran
  · obtain ⟨state, _, got, ran⟩ := run_bind.mp ran
    cases got
    obtain ⟨text, middle, read, ran⟩ := run_bind.mp ran
    have kept := keeps_scalarText _ _ _ read
    split at ran
    · cases ran
    · rw [map_eq_pure_bind] at ran
      obtain ⟨value, last, lifted, ran⟩ := run_bind.mp ran
      obtain ⟨_, _, same⟩ := bind_eq_ok.mp lifted
      cases same
      obtain ⟨rfl, rfl⟩ := run_pure ran
      exact ⟨kept, value, rfl⟩

theorem keeps_meet : Keeps before (meet number) := by
  refine keeps_get ?_
  split
  · exact keeps_pure _
  · refine keeps_nodeAt ?_
    split
    · next cell empty =>
      refine keeps_next (keeps_setCell fun entries same => ?_) fun _ middle => keeps_next ?_ fun _ _ => keeps_pure _
      · subst same
        unfold emptyCell? at empty
        split at empty
        all_goals cases empty
        exact ⟨fun filled => absurd rfl filled, .nil⟩
      · rintro _ _ ⟨⟩
        exact ⟨rfl, id⟩
    · refine keeps_bind (fun _ _ ran => (scalarCell_run ran).1) fun cell middle ran => ?_
      obtain ⟨_, value, rfl⟩ := scalarCell_run ran
      exact keeps_next (keeps_setCell nofun) fun _ _ => keeps_pure _

theorem keeps_entriesOf (pairs : List (NodeId × NodeId)) (found : List (Scalar × NodeId)) :
    Keeps before (entriesOf pairs found) := by
  induction pairs generalizing before found with
  | nil => exact keeps_pure _
  | cons pair rest ih =>
    refine keeps_next keeps_meet fun cell middle => ?_
    split
    · exact keeps_next keeps_meet fun _ _ => ih _
    · exact keeps_throw

@[simp] theorem keysOf_cons {α : Type} (entry : Scalar × α) (rest : List (Scalar × α)) :
    keysOf (entry :: rest) = entry.1.key :: keysOf rest := rfl

theorem keysOf_insert (found : List (Scalar × NodeId)) (key : Scalar) (value : NodeId) :
    keysOf (entriesOf.insert found key value)
      = if key.key ∈ keysOf found then keysOf found else keysOf found ++ [key.key] := by
  induction found with
  | nil => rfl
  | cons entry rest ih =>
    rw [entriesOf.insert]
    by_cases same : entry.1.key = key.key
    · simp [same]
    · have differs : key.key ≠ entry.1.key := Ne.symm same
      by_cases known : key.key ∈ keysOf rest
      · simp [same, ih, known]
      · simp [same, differs, ih, known]

theorem nodup_entriesOf {pairs : List (NodeId × NodeId)} {found entries : List (Scalar × NodeId)} {after : Building}
    (distinct : (keysOf found).Nodup) (ran : (entriesOf pairs found).run before = .ok (entries, after)) :
    (keysOf entries).Nodup := by
  induction pairs generalizing before found with
  | nil =>
    obtain ⟨rfl, _⟩ := run_pure ran
    exact distinct
  | cons pair rest ih =>
    obtain ⟨cell, middle, _, ran⟩ := run_bind.mp ran
    split at ran
    · next key =>
      obtain ⟨_, last, _, ran⟩ := run_bind.mp ran
      refine ih ?_ ran
      rw [keysOf_insert]
      split
      · exact distinct
      · next new =>
        rw [← List.concat_eq_append, List.nodup_concat]
        exact ⟨new, distinct⟩
    · cases ran

theorem mappingEntries_run {entries : List (Scalar × NodeId)} {after : Building}
    (ran : (mappingEntries number).run before = .ok (entries, after)) :
    Kept before after ∧ (kinds after.nodes)[number]? = some true ∧ (keysOf entries).Nodup := by
  obtain ⟨node, _, got, ran⟩ := run_bind.mp ran
  cases got
  split at ran
  · next pairs content =>
    have isMapping := kinds_of_mapping content
    obtain ⟨state, _, got, ran⟩ := run_bind.mp ran
    cases got
    obtain ⟨⟨taken, nodes⟩, _, lifted, ran⟩ := run_bind.mp ran
    obtain ⟨⟨_, _⟩, flattened, same⟩ := bind_eq_ok.mp lifted
    cases same
    have steady := Merging.steady_flattenedPairs isMapping _ _ flattened
    obtain ⟨_, middle, changed, ran⟩ := run_bind.mp ran
    cases changed
    have set : Kept before { before with nodes } :=
      ⟨steady, fun sound other entries found => steady ▸ sound other entries found⟩
    have kept := set.trans (keeps_entriesOf _ _ _ _ ran)
    exact ⟨kept, kept.kinds ▸ isMapping, nodup_entriesOf (show (keysOf []).Nodup from .nil) ran⟩
  · cases ran

theorem keeps_onlyPair : Keeps before (onlyPair number) := by
  refine keeps_nodeAt ?_
  split
  · exact keeps_next keeps_meet fun _ _ => keeps_next keeps_meet fun _ _ => keeps_pure _
  · exact keeps_throw

theorem keeps_discard (keeps : Keeps before op) : Keeps before (discard op) := by
  rw [discard, map_const, Function.comp_apply, map_eq_pure_bind]
  exact keeps_next keeps fun _ _ => keeps_pure _

theorem keeps_fill : Keeps before (fill number) := by
  refine keeps_nodeAt ?_
  split
  · exact keeps_next (keeps_forM _ fun _ _ => keeps_discard keeps_meet) fun _ _ => keeps_setCell nofun
  · exact keeps_next (keeps_mapM _ fun _ _ => keeps_onlyPair) fun _ _ => keeps_setCell nofun
  · refine keeps_bind (fun _ _ ran => (mappingEntries_run ran).1) fun entries middle ran => ?_
    refine keeps_setCell fun _ same => ?_
    cases same
    exact (mappingEntries_run ran).2.imp_left fun isMapping _ => isMapping
  · exact keeps_bind (fun _ _ ran => (mappingEntries_run ran).1) fun entries middle ran => keeps_setCell nofun
  · exact keeps_throw

theorem keeps_fillAll (count : Nat) : Keeps before (fillAll count) := by
  induction count generalizing before with
  | zero => exact keeps_pure ()
  | succ count ih =>
    refine keeps_get ?_
    split
    · exact keeps_pure ()
    · refine keeps_next ?_ fun _ _ => keeps_next (keeps_forM _ fun _ _ => keeps_fill) fun _ _ => ih
      rintro _ _ ⟨⟩
      exact ⟨rfl, id⟩

end Keeping

end Build

/-- Only a mapping has entries in its cell, and their keys differ. -/
theorem cells_sound {nodes : Array Node} {root number : NodeId} {cells : Array (Option Cell)}
    (made : cellsOf nodes root = .ok cells) {entries : List (Scalar × NodeId)}
    (found : cells.getD number none = some (.map entries)) :
    (entries ≠ [] → (kinds nodes)[number]? = some true) ∧ (Build.keysOf entries).Nodup := by
  obtain ⟨⟨_, state⟩, ran, same⟩ := bind_eq_ok.mp made
  cases same
  have start : Build.Sound { nodes, cells := Array.replicate nodes.size none } := by
    intro number entries found
    dsimp only at found
    rw [Array.getD_eq_getD_getElem?, Array.getElem?_replicate] at found
    split at found
    · cases found
    · cases found
  have kept := Build.keeps_next Build.keeps_meet (fun _ _ => Build.keeps_fillAll _) _ _ ran
  exact kept.kinds ▸ kept.sound start number entries found

end DeclGraph.Yaml
