import DeclGraph.Proofs.JsonNesting
import DeclGraph.Proofs.YamlCells
import DeclGraph.Yaml.Reader
import Mathlib.Data.List.Perm.Subperm

/-!
How deep mappings are nested in the value of a YAML text that does not contain itself. Mappings that stand one in another are
made of different nodes, of which there are at most two for each character. The keys of a mapping are all different.
-/

namespace DeclGraph.Yaml

section Optional

variable {α β : Type} {f g : α → Option β}

theorem mapM_eq_some {values : List α} {results : List β} :
    values.mapM f = some results ↔ List.Forall₂ (fun value result => f value = some result) values results := by
  induction values generalizing results with
  | nil =>
    rw [List.mapM_nil, List.forall₂_nil_left_iff]
    exact ⟨fun same => (Option.some.inj same).symm, fun same => congrArg some same.symm⟩
  | cons value rest ih =>
    rw [List.mapM_cons, List.forall₂_cons_left_iff]
    simp only [Option.bind_eq_bind, Option.bind_eq_some_iff, Option.pure_def, Option.some.injEq, ih]
    constructor
    · rintro ⟨result, made, others, more, rfl⟩
      exact ⟨result, others, made, more, rfl⟩
    · rintro ⟨result, others, made, more, rfl⟩
      exact ⟨result, made, others, more, rfl⟩

theorem exists_of_mapM {values : List α} {results : List β} (made : values.mapM f = some results) :
    ∀ result ∈ results, ∃ value ∈ values, f value = some result := by
  rw [mapM_eq_some] at made
  induction made with
  | nil => exact nofun
  | cons head _ ih =>
    refine List.forall_mem_cons.mpr ⟨⟨_, List.mem_cons_self, head⟩, fun result among => ?_⟩
    obtain ⟨value, inside, made⟩ := ih result among
    exact ⟨value, List.mem_cons_of_mem _ inside, made⟩

theorem mapM_mono (more : ∀ value result, f value = some result → g value = some result) {values : List α} {results : List β}
    (made : values.mapM f = some results) : values.mapM g = some results :=
  mapM_eq_some.mpr ((mapM_eq_some.mp made).imp more)

end Optional

namespace Cell

def at? (cells : Array (Option Cell)) (number : NodeId) : Cell := (cells.getD number none).getD (.scalar .null)

theorem of_at? {cells : Array (Option Cell)} {number : NodeId} {entries : List (Scalar × NodeId)}
    (cell : at? cells number = .map entries) : cells.getD number none = some (.map entries) := by
  rw [at?] at cell
  cases found : cells.getD number none with
  | none =>
    rw [found] at cell
    cases cell
  | some other =>
    rw [found, Option.getD_some] at cell
    rw [cell]

/-- The value of a node, written out anew wherever it stands. -/
def written (cells : Array (Option Cell)) : Nat → NodeId → Option Document
  | 0, _ => none
  | depth + 1, number => (at? cells number).document (written cells depth)

theorem document_mono {f g : NodeId → Option Document} (more : ∀ part value, f part = some value → g part = some value)
    {cell : Cell} {value : Document} (made : cell.document f = some value) : cell.document g = some value := by
  cases cell with
  | scalar | set => exact made
  | list items =>
    obtain ⟨values, each, same⟩ := Option.map_eq_some_iff.mp made
    exact Option.map_eq_some_iff.mpr ⟨values, mapM_mono more each, same⟩
  | map entries =>
    obtain ⟨values, each, same⟩ := Option.map_eq_some_iff.mp made
    refine Option.map_eq_some_iff.mpr ⟨values, mapM_mono (fun entry value made => ?_) each, same⟩
    obtain ⟨found, made, same⟩ := Option.bind_eq_some_iff.mp made
    exact Option.bind_eq_some_iff.mpr ⟨found, more _ _ made, same⟩
  | pairs items =>
    obtain ⟨values, each, same⟩ := Option.map_eq_some_iff.mp made
    refine Option.map_eq_some_iff.mpr ⟨values, mapM_mono (fun pair value made => ?_) each, same⟩
    obtain ⟨first, one, made⟩ := Option.bind_eq_some_iff.mp made
    obtain ⟨second, two, same⟩ := Option.bind_eq_some_iff.mp made
    exact Option.bind_eq_some_iff.mpr ⟨first, more _ _ one, Option.bind_eq_some_iff.mpr ⟨second, more _ _ two, same⟩⟩

theorem written_succ {cells : Array (Option Cell)} {depth : Nat} {number : NodeId} {value : Document}
    (made : written cells depth number = some value) : written cells (depth + 1) number = some value := by
  induction depth generalizing number value with
  | zero => cases made
  | succ depth ih => exact document_mono (fun _ _ => ih) made

section Keeping

variable {σ α β : Type} {sound : σ → Prop}

/-- With values that are kept, an operation gives what it would give without, at a sufficient depth. -/
def Agrees (sound : σ → Prop) (op : StateT σ Option α) (goal : Nat → Option α) : Prop :=
  ∀ before value after, sound before → op.run before = some (value, after) →
    sound after ∧ ∃ depth, ∀ deeper ≥ depth, goal deeper = some value

theorem agrees_pure (value : α) : Agrees sound (pure value) fun _ => some value := by
  rintro before _ _ start ⟨⟩
  exact ⟨start, 0, fun _ _ => rfl⟩

theorem agrees_bind {op : StateT σ Option α} {goal : Nat → Option α} {next : α → StateT σ Option β} {more : α → Nat → Option β}
    (first : Agrees sound op goal) (rest : ∀ value, Agrees sound (next value) (more value)) :
    Agrees sound (op >>= next) fun depth => goal depth >>= fun value => more value depth := by
  intro before result after start ran
  obtain ⟨⟨value, middle⟩, begun, ran⟩ := Option.bind_eq_some_iff.mp ran
  obtain ⟨between, one, enough⟩ := first before value middle start begun
  obtain ⟨final, two, also⟩ := rest value middle result after between ran
  refine ⟨final, max one two, fun deeper far => ?_⟩
  dsimp only
  rw [enough deeper (Nat.le_trans (Nat.le_max_left _ _) far)]
  exact also deeper (Nat.le_trans (Nat.le_max_right _ _) far)

theorem agrees_map {op : StateT σ Option α} {goal : Nat → Option α} {f : α → β} (agrees : Agrees sound op goal) :
    Agrees sound (f <$> op) fun depth => f <$> goal depth := by
  simp only [map_eq_pure_bind]
  exact agrees_bind agrees fun value => agrees_pure (f value)

theorem agrees_mapM {f : α → StateT σ Option β} {goal : Nat → α → Option β} (values : List α)
    (each : ∀ value, Agrees sound (f value) fun depth => goal depth value) :
    Agrees sound (values.mapM f) fun depth => values.mapM (goal depth) := by
  induction values with
  | nil =>
    simp only [List.mapM_nil]
    exact agrees_pure []
  | cons value rest ih =>
    simp only [List.mapM_cons]
    exact agrees_bind (each value) fun result => agrees_bind ih fun results => agrees_pure _

theorem agrees_document {part : NodeId → StateT σ Option Document} {goal : Nat → NodeId → Option Document}
    (each : ∀ number, Agrees sound (part number) fun depth => goal depth number) (cell : Cell) :
    Agrees sound (cell.document part) fun depth => cell.document (goal depth) := by
  cases cell with
  | scalar value => exact agrees_pure _
  | set members => exact agrees_pure _
  | list items => exact agrees_map (agrees_mapM items each)
  | map entries =>
    exact agrees_map (agrees_mapM entries fun entry => agrees_bind (each entry.2) fun value => agrees_pure (entry.1, value))
  | pairs items =>
    exact agrees_map (agrees_mapM items fun pair =>
      agrees_bind (each pair.1) fun first => agrees_bind (each pair.2) fun second => agrees_pure (Document.pair first second))

end Keeping

section Writing

variable {cells : Array (Option Cell)}

def Known (cells : Array (Option Cell)) (known : Array (Option Document)) : Prop :=
  ∀ number value, known.getD number none = some value → ∃ depth, ∀ deeper ≥ depth, written cells deeper number = some value

theorem known_none (cells : Array (Option Cell)) (size : Nat) : Known cells (Array.replicate size none) := by
  intro number value there
  rw [Array.getD_eq_getD_getElem?, Array.getElem?_replicate] at there
  split at there <;> cases there

theorem known_set {known : Array (Option Document)} {number : NodeId} {value : Document} (start : Known cells known)
    (enough : ∃ depth, ∀ deeper ≥ depth, written cells deeper number = some value) :
    Known cells (known.setIfInBounds number (some value)) := by
  intro other found there
  rw [Array.getD_eq_getD_getElem?, Array.getElem?_setIfInBounds] at there
  split at there
  · next here =>
    subst here
    split at there
    · cases there
      exact enough
    · cases there
  · exact start other found (by rw [Array.getD_eq_getD_getElem?]; exact there)

theorem agrees_plainDocument (depth : Nat) (number : NodeId) :
    Agrees (Known cells) (plainDocument cells depth number) fun depth => written cells depth number := by
  induction depth generalizing number with
  | zero => exact fun _ _ _ _ ran => nomatch ran
  | succ depth ih =>
    intro before value after start ran
    rw [plainDocument, StateT.run_bind] at ran
    obtain ⟨⟨_, _⟩, got, ran⟩ := Option.bind_eq_some_iff.mp ran
    cases got
    dsimp only at ran
    split at ran
    · next found there =>
      cases ran
      exact ⟨start, start number value there⟩
    · obtain ⟨⟨found, middle⟩, made, ran⟩ := Option.bind_eq_some_iff.mp ran
      cases ran
      obtain ⟨kept, few, enough⟩ := agrees_document ih (at? cells number) before value middle start made
      have written : ∃ depth, ∀ deeper ≥ depth, written cells deeper number = some value := by
        refine ⟨few + 1, fun deeper far => ?_⟩
        obtain ⟨less, rfl⟩ := Nat.exists_eq_add_of_lt far
        exact enough (few + less) (Nat.le_add_right _ _)
      exact ⟨known_set kept written, written⟩

theorem length_le_count {places : List Nat} {flags : List Bool} (distinct : places.Nodup)
    (hold : ∀ place ∈ places, flags[place]? = some true) : places.length ≤ flags.count true := by
  have within : places ⊆ (flags.zipIdx.filter (·.1)).map (·.2) := fun place among =>
    List.mem_map.mpr ⟨(true, place), List.mem_filter.mpr ⟨List.mk_mem_zipIdx_iff_getElem?.mpr (hold place among), rfl⟩, rfl⟩
  refine Nat.le_trans (List.subperm_of_subset distinct within).length_le (Nat.le_of_eq ?_)
  rw [List.length_map, ← List.countP_eq_length_filter]
  conv_rhs => rw [← List.zipIdx_map_fst 0 flags, List.count_eq_countP, List.countP_map]
  exact List.countP_congr fun entry _ => by simp

theorem nested_entries {part : NodeId → Option Document} {entries : List (Scalar × NodeId)}
    {values : List (Scalar × Document)} {depth : Nat}
    (each : (entries.mapM fun entry => part entry.2 >>= fun value => pure (entry.1, value)) = some values)
    (inner : entries ≠ [] → ∃ less, less + 1 = depth + 1 ∧ ∀ number value, part number = some value →
      Document.Nesting True less value) :
    Document.Nesting True (depth + 1) (.map values) := by
  by_cases filled : entries = []
  · subst filled
    cases each
    exact .map nofun nofun
  · obtain ⟨less, same, nested⟩ := inner filled
    refine same ▸ .map (fun _ _ => Or.inr trivial) fun value listed => ?_
    obtain ⟨entry, _, made⟩ := exists_of_mapM each value listed
    obtain ⟨found, inside, same⟩ := Option.bind_eq_some_iff.mp made
    cases same
    exact nested _ _ inside

/-- A value that is written out has no more mappings one in another than there are nodes of that kind, apart from those that it
stands in. They are not the node itself, as they need more depth. -/
theorem nested_written {flags : List Bool}
    (sound : ∀ number entries, at? cells number = .map entries → entries ≠ [] → flags[number]? = some true)
    {depth : Nat} {number : NodeId} {value : Document} (made : written cells depth number = some value)
    (around : List NodeId)
    (distinct : around.Nodup) (mappings : ∀ outer ∈ around, flags[outer]? = some true)
    (deeper : ∀ outer ∈ around, written cells depth outer = none) :
    Document.Nesting True (flags.count true - around.length + 1) value := by
  induction depth generalizing number value around with
  | zero => cases made
  | succ depth ih =>
    have shallow : ∀ outer ∈ around, written cells depth outer = none := by
      intro outer among
      cases earlier : written cells depth outer with
      | none => rfl
      | some value => exact nomatch (deeper outer among).symm.trans (written_succ earlier)
    cases earlier : written cells depth number with
    | some other =>
      cases (written_succ earlier).symm.trans made
      exact ih earlier around distinct mappings shallow
    | none =>
      have part {inner : NodeId} {found : Document} (made : written cells depth inner = some found) :
          Document.Nesting True (flags.count true - around.length + 1) found := ih made around distinct mappings shallow
      -- The nodes around need more depth than this one, so it is none of them.
      have outside : number ∉ around := fun among => nomatch made.symm.trans (deeper number among)
      rw [written] at made
      cases cell : at? cells number with
      | scalar value =>
        rw [cell] at made
        cases made
        exact .scalar (Or.inr trivial)
      | set members =>
        rw [cell] at made
        cases made
        exact .set fun _ _ => Or.inr trivial
      | list items =>
        rw [cell] at made
        obtain ⟨values, each, rfl⟩ := Option.map_eq_some_iff.mp made
        refine .list fun item listed => ?_
        obtain ⟨inner, _, made⟩ := exists_of_mapM each item listed
        exact part made
      | pairs items =>
        rw [cell] at made
        obtain ⟨values, each, rfl⟩ := Option.map_eq_some_iff.mp made
        refine .list fun item listed => ?_
        obtain ⟨pair, _, made⟩ := exists_of_mapM each item listed
        obtain ⟨first, one, made⟩ := Option.bind_eq_some_iff.mp made
        obtain ⟨second, two, same⟩ := Option.bind_eq_some_iff.mp made
        cases same
        exact .pair (part one) (part two)
      | map entries =>
        rw [cell] at made
        obtain ⟨values, each, rfl⟩ := Option.map_eq_some_iff.mp made
        refine nested_entries each fun filled => ?_
        have here : flags[number]? = some true := sound number entries cell filled
        have new : (number :: around).Nodup := List.nodup_cons.mpr ⟨outside, distinct⟩
        have all : ∀ outer ∈ number :: around, flags[outer]? = some true := List.forall_mem_cons.mpr ⟨here, mappings⟩
        have few := length_le_count new all
        rw [List.length_cons] at few
        refine ⟨flags.count true - (number :: around).length + 1, by rw [List.length_cons]; omega, fun inner found made => ?_⟩
        exact ih made (number :: around) new all (List.forall_mem_cons.mpr ⟨earlier, shallow⟩)

end Writing

end Cell

namespace Source

theorem length_wholeBlocks (chars : List Char) (position : Nat) : (wholeBlocks chars position).length ≤ chars.length := by
  unfold wholeBlocks
  split
  · exact Nat.zero_le _
  · exact List.length_take_le' _ _

theorem length_checked (source : Source) : source.checked.chars.length ≤ source.chars.length := by
  unfold checked
  split
  · exact Nat.le_refl _
  · exact length_wholeBlocks _ _

theorem length_toList (bytes : ByteArray) : bytes.toList.length = bytes.size := by
  have loop (place : Nat) (taken : List UInt8) :
      (ByteArray.toList.loop bytes place taken).length = (bytes.size - place) + taken.length := by
    induction place, taken using ByteArray.toList.loop.induct bytes with
    | case1 place taken inside ih =>
      rw [ByteArray.toList.loop, if_pos inside, ih, List.length_cons]
      omega
    | case2 place taken outside =>
      rw [ByteArray.toList.loop, if_neg outside, List.length_reverse]
      omega
  exact loop 0 []

theorem length_decodeUntilFlaw (fuel : Nat) (bytes : List UInt8) (position : Nat) :
    (Text.decodeUntilFlaw fuel bytes position).1.length ≤ fuel := by
  induction fuel generalizing bytes position with
  | zero =>
    rw [Text.decodeUntilFlaw]
    exact Nat.le_refl _
  | succ fuel ih =>
    cases bytes with
    | nil => exact Nat.zero_le _
    | cons first rest =>
      rw [Text.decodeUntilFlaw]
      split
      · exact Nat.zero_le _
      · split
        · exact Nat.zero_le _
        · exact Nat.succ_le_succ (ih _ _)

theorem length_decoded (bytes : List UInt8) (limit : Nat) :
    (Text.unifyBreaks (((Text.decodeUntilFlaw bytes.length bytes 0).1.filter fun entry => entry.2 ≤ limit).map (·.1))).length
      ≤ bytes.length := by
  refine Nat.le_trans (Text.length_unifyBreaks _) ?_
  rw [List.length_map]
  exact Nat.le_trans (List.length_filter_le _ _) (length_decodeUntilFlaw _ _ _)

theorem length_ofFaulty (bytes : List UInt8) : (ofFaulty bytes).chars.length ≤ bytes.length :=
  Nat.le_trans (length_wholeBlocks _ _) (length_decoded bytes _)

theorem ofFaulty_of_short {bytes : List UInt8} (short : bytes.length < 2 * blockSize) :
    ∃ flaw, ofFaulty bytes = ⟨[], some (.unusable (.undecodable flaw))⟩ := by
  unfold ofFaulty
  dsimp only
  rw [wholeBlocks, if_pos (Nat.lt_of_le_of_lt (length_decoded bytes _) short)]
  exact ⟨_, rfl⟩

theorem length_ofBytes (bytes : ByteArray) : (ofBytes bytes).chars.length ≤ bytes.size := by
  refine Nat.le_trans (length_checked _) ?_
  split
  · next text read =>
    rw [String.length_toList]
    exact Text.length_ofBytes read
  · exact Nat.le_trans (length_ofFaulty _) (Nat.le_of_eq (length_toList bytes))

theorem ofBytes_of_undecodable {bytes : ByteArray} {flaw : Text.Flaw} (short : bytes.size < 2 * blockSize)
    (flawed : Text.ofBytes bytes = .error flaw) :
    ∃ flaw, ofBytes bytes = ⟨[], some (.unusable (.undecodable flaw))⟩ := by
  rw [← length_toList bytes] at short
  obtain ⟨flaw, faulty⟩ := ofFaulty_of_short short
  rw [ofBytes, flawed]
  dsimp only
  rw [faulty]
  exact ⟨flaw, rfl⟩

end Source

theorem parse_undecodable {bytes : ByteArray} {flaw : Text.Flaw} (short : bytes.size < 2 * Source.blockSize)
    (flawed : Text.ofBytes bytes = .error flaw) : ∃ flaw, parse bytes = .error (.unusable (.undecodable flaw)) := by
  obtain ⟨flaw, source⟩ := Source.ofBytes_of_undecodable short flawed
  have nodes : nodesOf (Source.ofBytes bytes) = .error (.unusable (.undecodable flaw)) := by
    rw [source]
    rfl
  exact ⟨flaw, by rw [parse, nodes]; rfl⟩

section Parsed

variable {nodes : Array Node} {root : NodeId} {cells : Array (Option Cell)}

theorem nested_documentOf (made : cellsOf nodes root = .ok cells) (plain : (Cell.documentOf cells root).Unlabelled) :
    Document.Nesting True (mappings nodes + 1) (Cell.documentOf cells root) := by
  have sound (number : NodeId) (entries : List (Scalar × NodeId)) (cell : Cell.at? cells number = .map entries)
      (filled : entries ≠ []) : (kinds nodes)[number]? = some true :=
    (cells_sound made (Cell.of_at? cell)).1 filled
  unfold Cell.documentOf at plain ⊢
  cases written : (Cell.plainDocument cells (cells.size + 1) root).run (Array.replicate cells.size none) with
  | some result =>
    obtain ⟨value, known⟩ := result
    obtain ⟨_, depth, enough⟩ := Cell.agrees_plainDocument _ _ _ value known (Cell.known_none _ _) written
    exact Cell.nested_written sound (enough depth (Nat.le_refl _)) [] .nil nofun nofun
  | none =>
    rw [written] at plain
    dsimp only at plain ⊢
    rw [Cell.labelledDocument] at plain ⊢
    split at plain
    · exact .scalar (Or.inr trivial)
    · obtain ⟨depth, nested⟩ := plain
      cases nested

/-- The value of a YAML text that does not contain itself has no more mappings one in another than two for each byte. -/
theorem parse_nested {bytes : ByteArray} {document : Document} (read : parse bytes = .ok document)
    (plain : document.Unlabelled) :
    Document.Nesting True (2 * bytes.size + 1) document := by
  obtain ⟨⟨nodes, root⟩, found, read⟩ := bind_eq_ok.mp read
  have few := mappings_of_nodesOf found
  have short := Source.length_ofBytes bytes
  cases root with
  | none =>
    cases read
    exact .null
  | some number =>
    obtain ⟨cells, made, same⟩ := bind_eq_ok.mp read
    cases same
    exact (nested_documentOf made plain).mono (by omega)

end Parsed

section Keys

open Build (keysOf)

theorem keysOf_mapM {part : NodeId → Option Document} {entries : List (Scalar × NodeId)} {values : Entries}
    (each : (entries.mapM fun entry => part entry.2 >>= fun value => pure (entry.1, value)) = some values) :
    keysOf values = keysOf entries := by
  rw [mapM_eq_some] at each
  induction each with
  | nil => rfl
  | cons made _ ih =>
    obtain ⟨_, _, same⟩ := Option.bind_eq_some_iff.mp made
    cases same
    exact congrArg (_ :: ·) ih

theorem keysOf_filledEntries (labels : List (Nat × Document)) (entries : Entries) :
    keysOf (Document.filledEntries labels entries) = keysOf entries := by
  induction entries with
  | nil => rfl
  | cons entry rest ih => exact congrArg (_ :: ·) ih

theorem keysOf_document {part : NodeId → Option Document} {cell : Cell} {document : Document} {entries : Entries}
    (made : cell.document part = some document) (mapping : document.entries? = some entries) :
    ∃ own, cell = .map own ∧ keysOf entries = keysOf own := by
  cases cell with
  | scalar | set =>
    cases made
    cases mapping
  | list | pairs =>
    obtain ⟨values, _, rfl⟩ := Option.map_eq_some_iff.mp made
    cases mapping
  | map own =>
    obtain ⟨values, each, rfl⟩ := Option.map_eq_some_iff.mp made
    cases mapping
    exact ⟨own, rfl, keysOf_mapM each⟩

theorem keysOf_labelled {part : NodeId → Id Document} {cell : Cell} {label : Nat} {entries : Entries}
    (mapping : (Document.labelled label (cell.document part).run).entries? = some entries) :
    ∃ own, cell = .map own ∧ keysOf entries = keysOf own := by
  cases cell with
  | scalar | set | list | pairs => cases mapping
  | map own =>
    cases mapping
    exact ⟨own, rfl, ((keysOf_filledEntries _ _).trans (congrArg keysOf List.idRun_mapM)).trans
      (by simp [keysOf, Function.comp_def])⟩

section Sound

variable {cells : Array (Option Cell)} {number : NodeId} {entries : Entries}
  (sound : ∀ number own, cells.getD number none = some (.map own) → (keysOf own).Nodup)
include sound

theorem nodup_written {depth : Nat} {document : Document} (made : Cell.written cells depth number = some document)
    (mapping : document.entries? = some entries) : (keysOf entries).Nodup := by
  cases depth with
  | zero => cases made
  | succ depth =>
    obtain ⟨own, cell, same⟩ := keysOf_document made mapping
    exact same ▸ sound number own (Cell.of_at? cell)

theorem nodup_labelled {depth : Nat}
    (mapping : (Cell.labelledDocument cells depth [] number).entries? = some entries) : (keysOf entries).Nodup := by
  cases depth with
  | zero => cases mapping
  | succ depth =>
    rw [Cell.labelledDocument] at mapping
    split at mapping
    · cases mapping
    · rw [if_neg List.not_mem_nil] at mapping
      obtain ⟨own, cell, same⟩ := keysOf_labelled mapping
      exact same ▸ sound number own (Cell.of_at? cell)

end Sound

theorem parse_keys {bytes : ByteArray} {document : Document} {entries : Entries} (read : parse bytes = .ok document)
    (mapping : document.entries? = some entries) : (keysOf entries).Nodup := by
  obtain ⟨⟨nodes, root⟩, found, read⟩ := bind_eq_ok.mp read
  cases root with
  | none =>
    cases read
    cases mapping
  | some number =>
    obtain ⟨cells, made, same⟩ := bind_eq_ok.mp read
    cases same
    have sound (number : NodeId) (own : List (Scalar × NodeId)) (cell : cells.getD number none = some (.map own)) :
        (keysOf own).Nodup := (cells_sound made cell).2
    unfold Cell.documentOf at mapping
    split at mapping
    · next value known written =>
      obtain ⟨_, depth, enough⟩ := Cell.agrees_plainDocument _ _ _ value known (Cell.known_none _ _) written
      exact nodup_written sound (enough depth (Nat.le_refl _)) mapping
    · exact nodup_labelled sound mapping

end Keys

end DeclGraph.Yaml
