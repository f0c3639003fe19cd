import DeclGraph.Proofs.FailedOperations
import DeclGraph.Proofs.YamlValues
import DeclGraph.Settings

/-!
What a settings file comes to. Each setting is what the file gives for it, if that is acceptable, and the default
otherwise; what else the file holds and how it is ordered is of no account. Reading fails in two ways only: a scalar or
the bytes cannot be made a value, or what is left out cannot be written into the report.
-/

namespace DeclGraph.Settings

section Parameters

inductive Parameter where
  | cacheDirName
  | graphFileName
  | enableGraphCache
  | maxWorkers
  | markupExtensions
  | logLevel
  deriving DecidableEq

namespace Parameter

def name : Parameter → String
  | cacheDirName => "cache_dir_name"
  | graphFileName => "graph_file_name"
  | enableGraphCache => "enable_graph_cache"
  | maxWorkers => "max_workers"
  | markupExtensions => "markup_extensions"
  | logLevel => "log_level"

theorem name_injective {parameter other : Parameter} (same : parameter.name = other.name) : parameter = other := by
  cases parameter <;> cases other <;> first | rfl | exact absurd same (by decide)

end Parameter

def value (settings : Settings) : Parameter → Document
  | .cacheDirName => .text settings.cacheDirName
  | .graphFileName => .text settings.graphFileName
  | .enableGraphCache => .bool settings.enableGraphCache
  | .maxWorkers => .int settings.maxWorkers
  | .markupExtensions => .texts settings.markupExtensions
  | .logLevel => .text settings.logLevel

structure IsFileName (name : String) : Prop where
  present : name ≠ ""
  noSlash : '/' ∉ name.toList
  noBackslash : '\\' ∉ name.toList
  noNul : '\x00' ∉ name.toList

theorem isName_iff {name : String} : isName name = true ↔ IsFileName name := by
  simp only [isName, Bool.and_eq_true, decide_eq_true_eq, List.all_eq_true]
  constructor
  · rintro ⟨present, plain⟩
    exact ⟨present, fun slash => (plain _ slash).1.1 rfl, fun slash => (plain _ slash).1.2 rfl, fun nul => (plain _ nul).2 rfl⟩
  · rintro ⟨present, noSlash, noBackslash, noNul⟩
    refine ⟨present, fun c member => ⟨⟨?_, ?_⟩, ?_⟩⟩
    · rintro rfl
      exact noSlash member
    · rintro rfl
      exact noBackslash member
    · rintro rfl
      exact noNul member

/-- A value that is acceptable for a setting, and the setting it makes. -/
inductive Gives : Parameter → Document → Document → Prop
  | cacheDirName {name : String} (named : IsFileName name) : Gives .cacheDirName (.text name) (.text name)
  | graphFileName {name : String} (named : IsFileName name) : Gives .graphFileName (.text name) (.text name)
  | enableGraphCache {enabled : Bool} : Gives .enableGraphCache (.bool enabled) (.bool enabled)
  | maxWorkers {count : Int} (natural : 0 ≤ count) : Gives .maxWorkers (.int count) (.int count)
  | markupExtensions {given : Document} {endings : List String} (texts : given.items? = some (endings.map .text))
      (dotted : ∀ ending ∈ endings, ending.toList.head? = some '.') : Gives .markupExtensions given (.texts endings)
  | logLevel {level : String} (known : Text.upper level ∈ logLevels) :
      Gives .logLevel (.text level) (.text (Text.upper level))

theorem map_text_injective {texts others : List String} (same : texts.map Document.text = others.map Document.text) :
    texts = others :=
  List.map_injective_iff.mpr (fun _ _ same => by injection same with same; injection same) same

theorem gives_unique {parameter : Parameter} {given kept other : Document} (gives : Gives parameter given kept)
    (also : Gives parameter given other) : kept = other := by
  cases gives with
  | markupExtensions texts =>
    cases also with
    | markupExtensions others =>
      rw [texts] at others
      exact congrArg _ (map_text_injective (Option.some.inj others))
  | cacheDirName | graphFileName | enableGraphCache | maxWorkers | logLevel =>
    cases also
    rfl

theorem gives_standard (path : String) (parameter : Parameter) :
    Gives parameter (value { path } parameter) (value { path } parameter) := by
  cases parameter with
  | cacheDirName => exact .cacheDirName (isName_iff.mp (show isName ".typedep_graph" = true by decide))
  | graphFileName => exact .graphFileName (isName_iff.mp (show isName "graph.json" = true by decide))
  | enableGraphCache => exact .enableGraphCache
  | maxWorkers => exact .maxWorkers (Int.le_refl 0)
  | markupExtensions =>
    exact .markupExtensions rfl (show ∀ ending ∈ [".razor", ".cshtml"], ending.toList.head? = some '.' by decide)
  | logLevel => exact @Gives.logLevel "INFO" (by decide)

theorem value_injective {settings other : Settings} (path : settings.path = other.path)
    (same : ∀ parameter, settings.value parameter = other.value parameter) : settings = other := by
  have cacheDirName := same .cacheDirName
  have graphFileName := same .graphFileName
  have enableGraphCache := same .enableGraphCache
  have maxWorkers := same .maxWorkers
  have markupExtensions := same .markupExtensions
  have logLevel := same .logLevel
  cases settings
  cases other
  simp only [value, Document.scalar.injEq, Scalar.text.injEq, Scalar.bool.injEq, Scalar.int.injEq, Document.texts,
    Document.list.injEq] at *
  simp only [path, cacheDirName, graphFileName, enableGraphCache, maxWorkers, map_text_injective markupExtensions, logLevel]

end Parameters

section Verdicts

variable {settings changed : Settings} {key : Scalar} {value : Document}

structure Sets (before after : Settings) (parameter : Parameter) (kept : Document) : Prop where
  path : after.path = before.path
  here : after.value parameter = kept
  elsewhere : ∀ other, other ≠ parameter → after.value other = before.value other

theorem mapM_text? {items : List Document} {endings : List String} :
    items.mapM Document.text? = some endings ↔ items = endings.map .text := by
  rw [Yaml.mapM_eq_some]
  constructor
  · intro each
    induction each with
    | nil => rfl
    | @cons item ending _ _ read _ ih =>
      obtain rfl : item = .text ending := by
        unfold Document.text? at read
        split at read <;> cases read
        rfl
      rw [ih, List.map_cons]
  · rintro rfl
    rw [List.forall₂_map_left_iff]
    exact List.forall₂_same.mpr fun _ _ => rfl

/-- What can be said of an entry. -/
inductive Judged (settings : Settings) (key : Scalar) (given : Document) : Verdict → Prop
  | accepted {changed : Settings} {parameter : Parameter} {kept : Document} (named : key = .text parameter.name)
      (gives : Gives parameter given kept) (sets : Sets settings changed parameter kept) :
      Judged settings key given (.accepted changed)
  | invalid (parameter : Parameter) {standard : String} (named : key = .text parameter.name)
      (refused : ∀ kept, ¬ Gives parameter given kept) : Judged settings key given (.invalid standard)
  | unknown (unnamed : ∀ parameter : Parameter, key ≠ .text parameter.name) : Judged settings key given .unknown

def Fits (settings : Settings) (parameter : Parameter) (given : Document) : Prop :=
  Judged settings (.text parameter.name) given (settings.verdict (.text parameter.name) given)

theorem fits_cacheDirName (settings : Settings) (given : Document) : Fits settings .cacheDirName given := by
  rw [Fits]
  simp only [Parameter.name, verdict]
  split
  · split
    · next named =>
      refine .accepted rfl (.cacheDirName (isName_iff.mp named)) ⟨rfl, rfl, ?_⟩
      rintro (_ | _) <;> simp [value]
    · next unnamed =>
      refine .invalid .cacheDirName rfl ?_
      intro kept gives
      cases gives with
      | cacheDirName named => exact unnamed (isName_iff.mpr named)
  · next other =>
    refine .invalid .cacheDirName rfl ?_
    intro kept gives
    cases gives with
    | cacheDirName => exact other _ rfl

theorem fits_graphFileName (settings : Settings) (given : Document) : Fits settings .graphFileName given := by
  rw [Fits]
  simp only [Parameter.name, verdict]
  split
  · split
    · next named =>
      refine .accepted rfl (.graphFileName (isName_iff.mp named)) ⟨rfl, rfl, ?_⟩
      rintro (_ | _) <;> simp [value]
    · next unnamed =>
      refine .invalid .graphFileName rfl ?_
      intro kept gives
      cases gives with
      | graphFileName named => exact unnamed (isName_iff.mpr named)
  · next other =>
    refine .invalid .graphFileName rfl ?_
    intro kept gives
    cases gives with
    | graphFileName => exact other _ rfl

theorem fits_enableGraphCache (settings : Settings) (given : Document) : Fits settings .enableGraphCache given := by
  rw [Fits]
  simp only [Parameter.name, verdict]
  split
  · refine .accepted rfl .enableGraphCache ⟨rfl, rfl, ?_⟩
    rintro (_ | _) <;> simp [value]
  · next other =>
    refine .invalid .enableGraphCache rfl ?_
    intro kept gives
    cases gives with
    | enableGraphCache => exact other _ rfl

theorem fits_maxWorkers (settings : Settings) (given : Document) : Fits settings .maxWorkers given := by
  rw [Fits]
  simp only [Parameter.name, verdict]
  split
  · split
    · next natural =>
      refine .accepted rfl (.maxWorkers natural) ⟨rfl, rfl, ?_⟩
      rintro (_ | _) <;> simp [value]
    · next negative =>
      refine .invalid .maxWorkers rfl ?_
      intro kept gives
      cases gives with
      | maxWorkers natural => exact negative natural
  · next other =>
    refine .invalid .maxWorkers rfl ?_
    intro kept gives
    cases gives with
    | maxWorkers => exact other _ rfl

theorem fits_markupExtensions (settings : Settings) (given : Document) : Fits settings .markupExtensions given := by
  have read {endings : List String} : (given.items?.bind fun items => items.mapM Document.text?) = some endings
      ↔ given.items? = some (endings.map .text) := by
    simp only [Option.bind_eq_some_iff, mapM_text?, exists_eq_right]
  rw [Fits]
  simp only [Parameter.name, verdict]
  split
  · next endings found =>
    split
    · next dotted =>
      refine .accepted rfl (.markupExtensions (read.mp found) fun ending listed => ?_) ⟨rfl, rfl, ?_⟩
      · simpa [isEnding] using List.all_eq_true.mp dotted ending listed
      · rintro (_ | _) <;> simp [value]
    · next undotted =>
      refine .invalid .markupExtensions rfl ?_
      intro kept gives
      cases gives with
      | markupExtensions texts dotted =>
        cases (read.mpr texts).symm.trans found
        exact undotted (List.all_eq_true.mpr fun ending listed => by simpa [isEnding] using dotted ending listed)
  · next none =>
    refine .invalid .markupExtensions rfl ?_
    intro kept gives
    cases gives with
    | markupExtensions texts => exact nomatch (read.mpr texts).symm.trans none

theorem fits_logLevel (settings : Settings) (given : Document) : Fits settings .logLevel given := by
  rw [Fits]
  simp only [Parameter.name, verdict]
  split
  · split
    · next known =>
      refine .accepted rfl (.logLevel known) ⟨rfl, rfl, ?_⟩
      rintro (_ | _) <;> simp [value]
    · next unknown =>
      refine .invalid .logLevel rfl ?_
      intro kept gives
      cases gives with
      | logLevel known => exact unknown known
  · next other =>
    refine .invalid .logLevel rfl ?_
    intro kept gives
    cases gives with
    | logLevel => exact other _ rfl

theorem judged (settings : Settings) (key : Scalar) (given : Document) :
    Judged settings key given (settings.verdict key given) := by
  by_cases known : ∃ parameter : Parameter, key = .text parameter.name
  · obtain ⟨parameter, rfl⟩ := known
    cases parameter with
    | cacheDirName => exact fits_cacheDirName settings given
    | graphFileName => exact fits_graphFileName settings given
    | enableGraphCache => exact fits_enableGraphCache settings given
    | maxWorkers => exact fits_maxWorkers settings given
    | markupExtensions => exact fits_markupExtensions settings given
    | logLevel => exact fits_logLevel settings given
  · have unnamed (parameter : Parameter) : key ≠ .text parameter.name := fun named => known ⟨parameter, named⟩
    have unknown : settings.verdict key given = .unknown := by
      unfold verdict
      split
      · exact absurd rfl (unnamed .cacheDirName)
      · exact absurd rfl (unnamed .graphFileName)
      · exact absurd rfl (unnamed .enableGraphCache)
      · exact absurd rfl (unnamed .maxWorkers)
      · exact absurd rfl (unnamed .markupExtensions)
      · exact absurd rfl (unnamed .logLevel)
      · rfl
    rw [unknown]
    exact .unknown unnamed

end Verdicts

section Entries

open Yaml.Build (keysOf)

variable {standard settings other : Settings} {entries others : Entries}

/-- Each setting is what the entries give for it, if that is acceptable, and the standard one otherwise. -/
structure Settled (standard : Settings) (entries : Entries) (settings : Settings) : Prop where
  path : settings.path = standard.path
  values : ∀ parameter : Parameter,
    (∃ given, (.text parameter.name, given) ∈ entries ∧ Gives parameter given (settings.value parameter))
      ∨ (∀ given kept, (.text parameter.name, given) ∈ entries → ¬ Gives parameter given kept)
        ∧ settings.value parameter = standard.value parameter

theorem settled_nil (standard : Settings) : Settled standard [] standard :=
  ⟨rfl, fun _ => Or.inr ⟨nofun, rfl⟩⟩

theorem settled_cons_of_refused {key : Scalar} {given : Document}
    (refused : ∀ (parameter : Parameter) (kept : Document), key = .text parameter.name → ¬ Gives parameter given kept)
    (rest : Settled standard entries settings) : Settled standard ((key, given) :: entries) settings where
  path := rest.path
  values parameter := by
    rcases rest.values parameter with ⟨found, among, gives⟩ | ⟨none, same⟩
    · exact Or.inl ⟨found, List.mem_cons_of_mem _ among, gives⟩
    · refine Or.inr ⟨fun found kept among gives => ?_, same⟩
      rcases List.mem_cons.mp among with here | later
      · obtain ⟨named, rfl⟩ := Prod.mk.inj here
        exact refused parameter kept named.symm gives
      · exact none found kept later gives

theorem settled_cons_of_gives {changed : Settings} {parameter : Parameter} {given kept : Document}
    (alone : ∀ other, (.text parameter.name, other) ∉ entries) (gives : Gives parameter given kept)
    (sets : Sets standard changed parameter kept) (rest : Settled changed entries settings) :
    Settled standard ((.text parameter.name, given) :: entries) settings where
  path := rest.path.trans sets.path
  values asked := by
    by_cases same : asked = parameter
    · subst same
      rcases rest.values asked with ⟨found, among, _⟩ | ⟨_, still⟩
      · exact absurd among (alone found)
      · exact Or.inl ⟨given, List.mem_cons_self, (still.trans sets.here).symm ▸ gives⟩
    · rcases rest.values asked with ⟨found, among, gives⟩ | ⟨none, still⟩
      · exact Or.inl ⟨found, List.mem_cons_of_mem _ among, gives⟩
      · refine Or.inr ⟨fun found kept among => ?_, still.trans (sets.elsewhere asked same)⟩
        rcases List.mem_cons.mp among with here | later
        · exact absurd (Parameter.name_injective (Scalar.text.inj (Prod.mk.inj here).1)) same
        · exact none found kept later

theorem settled_takeOver (distinct : (keysOf entries).Nodup) : Settled standard entries (standard.takeOver entries).1 := by
  induction entries generalizing standard with
  | nil => exact settled_nil standard
  | cons entry rest ih =>
    obtain ⟨key, given⟩ := entry
    obtain ⟨alone, apart⟩ := List.nodup_cons.mp distinct
    have judged := judged standard key given
    simp only [takeOver]
    cases found : standard.verdict key given with
    | accepted changed =>
      rw [found] at judged
      cases judged with
      | accepted named gives sets =>
        subst named
        exact settled_cons_of_gives (fun other among => alone (List.mem_map.mpr ⟨_, among, rfl⟩)) gives sets (ih apart)
    | invalid =>
      rw [found] at judged
      cases judged with
      | invalid parameter named refused =>
        refine settled_cons_of_refused (fun other kept also gives => ?_) (ih apart)
        obtain rfl := Parameter.name_injective (Scalar.text.inj (named.symm.trans also))
        exact refused kept gives
    | unknown =>
      rw [found] at judged
      cases judged with
      | unknown unnamed => exact settled_cons_of_refused (fun other _ named => absurd named (unnamed other)) (ih apart)

/-- Settings depend on the entries with the names of settings alone, and not on their order. -/
theorem settled_unique (distinct : (keysOf entries).Nodup) (settled : Settled standard entries settings)
    (also : Settled standard others other)
    (alike : ∀ (parameter : Parameter) (given : Document),
      (.text parameter.name, given) ∈ others ↔ (.text parameter.name, given) ∈ entries) : other = settings := by
  refine value_injective (also.path.trans settled.path.symm) fun parameter => ?_
  rcases settled.values parameter with ⟨given, among, gives⟩ | ⟨none, same⟩
  · rcases also.values parameter with ⟨found, member, kept⟩ | ⟨never, _⟩
    · have once := List.inj_on_of_nodup_map distinct ((alike parameter found).mp member) among rfl
      obtain ⟨_, rfl⟩ := Prod.mk.inj once
      exact gives_unique kept gives
    · exact absurd gives (never given _ ((alike parameter given).mpr among))
  · rcases also.values parameter with ⟨found, member, kept⟩ | ⟨_, still⟩
    · exact absurd kept (none found _ ((alike parameter found).mp member))
    · exact still.trans same.symm

end Entries

section Reports

variable {settings : Settings} {key : Scalar} {given : Document} {entries : Entries} {fault : Fault}

/-- An entry that is left out, while the report on it would need an integer with more digits than can be written. -/
def Unwritable (key : Scalar) (given : Document) : Prop :=
  (∀ parameter : Parameter, key ≠ .text parameter.name) ∧ key.isShowable = false
    ∨ ∃ parameter : Parameter, key = .text parameter.name ∧ (∀ kept, ¬ Gives parameter given kept) ∧ given.isShowable = false

theorem shown_eq_error {value : Document} : shown value = .error fault ↔ fault = .numeral .tooLongToWrite ∧ value.isShowable = false := by
  rw [shown]
  cases value.isShowable with
  | true => simp
  | false => simp [eq_comm]

theorem unwritable_named {parameter : Parameter} : Unwritable (.text parameter.name) given ↔
    (∀ kept, ¬ Gives parameter given kept) ∧ given.isShowable = false := by
  constructor
  · rintro (⟨unnamed, _⟩ | ⟨other, named, left⟩)
    · exact absurd rfl (unnamed parameter)
    · obtain rfl := Parameter.name_injective (Scalar.text.inj named)
      exact left
  · exact fun left => Or.inr ⟨parameter, rfl, left⟩

theorem unwritable_unnamed (unnamed : ∀ parameter : Parameter, key ≠ .text parameter.name) :
    Unwritable key given ↔ key.isShowable = false := by
  constructor
  · rintro (⟨_, hidden⟩ | ⟨parameter, named, _⟩)
    · exact hidden
    · exact absurd named (unnamed parameter)
  · exact fun hidden => Or.inl ⟨unnamed, hidden⟩

theorem complaint_eq_error : complaint key given (settings.verdict key given) = some (.error fault) ↔
    fault = .numeral .tooLongToWrite ∧ Unwritable key given := by
  have judged := judged settings key given
  cases found : settings.verdict key given with
  | accepted changed =>
    rw [found] at judged
    obtain @⟨_, parameter, kept, rfl, gives, _⟩ := judged
    rw [unwritable_named]
    exact iff_of_false nofun fun left => left.2.1 kept gives
  | invalid standard =>
    rw [found] at judged
    cases judged with
    | invalid parameter named refused =>
      subst named
      have spelled : shown (.scalar (.text parameter.name)) = .ok parameter.name := rfl
      rw [unwritable_named, complaint, Option.some.injEq, spelled, and_iff_right refused, ← shown_eq_error]
      cases shown given with
      | error => rfl
      | ok => exact iff_of_false nofun nofun
  | unknown =>
    rw [found] at judged
    cases judged with
    | unknown unnamed =>
      rw [unwritable_unnamed unnamed, complaint, Option.some.injEq,
        show key.isShowable = (Document.scalar key).isShowable from rfl, ← shown_eq_error]
      cases shown (.scalar key) with
      | error => rfl
      | ok => exact iff_of_false nofun nofun

theorem reports_takeOver : .error fault ∈ (settings.takeOver entries).2 ↔
    fault = .numeral .tooLongToWrite ∧ ∃ entry ∈ entries, Unwritable entry.1 entry.2 := by
  induction entries generalizing settings with
  | nil => simp [takeOver]
  | cons entry rest ih =>
    simp only [takeOver, List.mem_append, Option.mem_toList, ih, complaint_eq_error, List.exists_mem_cons_iff]
    tauto

theorem outcome_reports (reports : List Report) (world : World) :
    ∃ journal, ((∀ fault, .error fault ∉ reports)
        ∧ (reports.forM fun report => do warn (← Run.ofExcept report)).outcome world = (.ok (), { world with journal }))
      ∨ ∃ fault, .error fault ∈ reports
        ∧ (reports.forM fun report => do warn (← Run.ofExcept report)).outcome world = (.error fault, { world with journal }) := by
  induction reports generalizing world with
  | nil => exact ⟨world.journal, Or.inl ⟨nofun, rfl⟩⟩
  | cons report rest ih =>
    cases report with
    | error fault => exact ⟨world.journal, Or.inr ⟨fault, List.mem_cons_self, rfl⟩⟩
    | ok text =>
      let entry : LogRecord := { channel := Channel.settings, level := .warning, message := text }
      obtain ⟨journal, after⟩ := ih { world with journal := world.journal ++ [entry] }
      refine ⟨journal, after.imp ?_ ?_⟩
      · rintro ⟨fine, ran⟩
        exact ⟨fun fault among => (List.mem_cons.mp among).elim nofun (fine fault), ran⟩
      · rintro ⟨fault, among, ran⟩
        exact ⟨fault, List.mem_cons_of_mem _ among, ran⟩

end Reports

section Files

def entriesIn : Option FileEntry → Entries
  | some (.file bytes) => ((Yaml.parse bytes).toOption.bind Document.entries?).getD []
  | _ => []

/-- The failures that reading a settings file does not turn into defaults: its bytes or a scalar cannot be made a value,
or an entry that is left out cannot be reported. -/
inductive Escapes : Option FileEntry → Fault → Prop
  | unusable {bytes : ByteArray} {fault : Fault} (refused : Yaml.parse bytes = .error (.unusable fault)) :
      Escapes (some (.file bytes)) fault
  | unwritable {file : Option FileEntry} {key : Scalar} {given : Document} (among : (key, given) ∈ entriesIn file)
      (unwritable : Unwritable key given) : Escapes file (.numeral .tooLongToWrite)

theorem not_escapes_of_nothing {file : Option FileEntry} {fault : Fault} (nothing : entriesIn file = [])
    (readable : ∀ bytes, file = some (.file bytes) → Yaml.parse bytes ≠ .error (.unusable fault)) : ¬ Escapes file fault := by
  intro escapes
  cases escapes with
  | unusable refused => exact readable _ rfl refused
  | unwritable among =>
    rw [nothing] at among
    cases among

theorem escapes_unique {file : Option FileEntry} {fault other : Fault} (escapes : Escapes file fault)
    (also : Escapes file other) : fault = other := by
  have unread {bytes : ByteArray} {fault : Fault} (refused : Yaml.parse bytes = .error (.unusable fault)) :
      entriesIn (some (.file bytes)) = [] := by
    simp [entriesIn, refused, Except.toOption]
  cases escapes with
  | unusable refused =>
    cases also with
    | unusable again => exact Yaml.Failure.unusable.inj (Except.error.inj (refused.symm.trans again))
    | unwritable among =>
      rw [unread refused] at among
      cases among
  | unwritable among =>
    cases also with
    | unusable refused =>
      rw [unread refused] at among
      cases among
    | unwritable => rfl

theorem ofDocument_cases (standard : Settings) (document : Document) :
    (document.entries? = none ∧ ∃ message, standard.ofDocument document = (standard, [.ok message]))
      ∨ ∃ entries, document.entries? = some entries ∧ standard.ofDocument document = standard.takeOver entries := by
  rw [ofDocument]
  split
  · next null =>
    refine Or.inl ⟨?_, _, rfl⟩
    unfold Document.isNull at null
    split at null
    · rfl
    · cases null
  · split
    · next entries mapping => exact Or.inr ⟨entries, mapping, rfl⟩
    · next none => exact Or.inl ⟨none, _, rfl⟩

/-- Reading a settings file fails if something escapes, and otherwise settles what the file gives. Only the log is
written. -/
def Ends (run : Run Settings) (standard : Settings) (file : Option FileEntry) (world : World) : Prop :=
  ∃ journal, (∃ fault, Escapes file fault ∧ run.outcome world = (.error fault, { world with journal }))
    ∨ (∀ fault, ¬ Escapes file fault) ∧ ∃ settings, run.outcome world = (.ok settings, { world with journal })
      ∧ Settled standard (entriesIn file) settings

theorem ends_ofBytes (standard : Settings) (bytes : ByteArray) (world : World) :
    Ends (ofBytes standard bytes) standard (some (.file bytes)) world := by
  unfold ofBytes
  cases parsed : Yaml.parse bytes with
  | error failure =>
    have nothing : entriesIn (some (.file bytes)) = [] := by simp [entriesIn, parsed, Except.toOption]
    have other (readable : ∀ fault, failure ≠ .unusable fault) (fault : Fault) : ¬ Escapes (some (.file bytes)) fault := by
      refine not_escapes_of_nothing nothing ?_
      rintro _ ⟨⟩ refused
      exact readable fault (Except.error.inj (parsed.symm.trans refused))
    cases failure with
    | unusable fault => exact ⟨world.journal, Or.inl ⟨fault, .unusable parsed, rfl⟩⟩
    | malformed => exact ⟨_, Or.inr ⟨other (by simp), standard, rfl, nothing ▸ settled_nil standard⟩⟩
    | cutShort => exact ⟨_, Or.inr ⟨other (by simp), standard, rfl, nothing ▸ settled_nil standard⟩⟩
  | ok document =>
    have readable (fault : Fault) : Yaml.parse bytes ≠ .error (.unusable fault) := by simp [parsed]
    rcases ofDocument_cases standard document with ⟨none, message, made⟩ | ⟨entries, mapping, made⟩
    · have nothing : entriesIn (some (.file bytes)) = [] := by simp [entriesIn, parsed, Except.toOption, none]
      simp only [made]
      refine ⟨_, Or.inr ⟨fun fault => not_escapes_of_nothing nothing ?_, standard, rfl, nothing ▸ settled_nil standard⟩⟩
      rintro _ ⟨⟩
      exact readable fault
    · have all : entriesIn (some (.file bytes)) = entries := by simp [entriesIn, parsed, Except.toOption, mapping]
      simp only [made]
      obtain ⟨journal, ⟨fine, ran⟩ | ⟨fault, among, ran⟩⟩ := outcome_reports (standard.takeOver entries).2 world
      · refine ⟨journal, Or.inr ⟨fun fault escapes => ?_, (standard.takeOver entries).1, ?_, ?_⟩⟩
        · cases escapes with
          | unusable refused => exact readable fault refused
          | unwritable among unwritable => exact fine _ (reports_takeOver.mpr ⟨rfl, _, all ▸ among, unwritable⟩)
        · rw [Run.outcome_bind, ran]
          rfl
        · rw [all]
          exact settled_takeOver (Yaml.parse_keys parsed mapping)
      · obtain ⟨rfl, entry, listed, unwritable⟩ := reports_takeOver.mp among
        refine ⟨journal, Or.inl ⟨_, .unwritable (all ▸ listed) unwritable, ?_⟩⟩
        rw [Run.outcome_bind, ran]

theorem ends_load (host : Host) (trail : Path.Trail) {world : World} {file : Option FileEntry}
    (found : world.tree.probe (Path.absolute host.cwd trail.text) = .ok file) :
    Ends (load host trail) { path := trail.text } file world := by
  unfold Ends
  simp only [load, Run.outcome_bind, Run.outcome_tree, Run.outcome_onTree, found]
  cases file with
  | none => exact ⟨_, Or.inr ⟨fun _ => not_escapes_of_nothing rfl nofun, _, rfl, settled_nil _⟩⟩
  | some entry =>
    cases entry with
    | directory => exact ⟨_, Or.inr ⟨fun _ => not_escapes_of_nothing rfl nofun, _, rfl, settled_nil _⟩⟩
    | file bytes => exact ends_ofBytes _ bytes world

/-- The same entries under the names of settings, whatever else there is and in whatever order. -/
def Alike (entries others : Entries) : Prop :=
  ∀ (parameter : Parameter) (given : Document), (.text parameter.name, given) ∈ others ↔ (.text parameter.name, given) ∈ entries

theorem keys_entriesIn (file : Option FileEntry) : (Yaml.Build.keysOf (entriesIn file)).Nodup := by
  unfold entriesIn
  split
  · next bytes =>
    cases parsed : Yaml.parse bytes with
    | error failure => exact .nil
    | ok document =>
      cases mapping : document.entries? with
      | none => simpa [Except.toOption, mapping] using show (Yaml.Build.keysOf ([] : Entries)).Nodup from .nil
      | some entries => simpa [Except.toOption, mapping] using Yaml.parse_keys parsed mapping
  · exact .nil

/-- Reading settings fails for what escapes and for nothing else. It then leaves the files as they are, and gives for
each setting what the file gives for it, if that is acceptable, and the default otherwise, whatever else the file holds
and in whatever order. -/
theorem load_settles (host : Host) (trail : Path.Trail) {world : World} {file : Option FileEntry}
    (found : world.tree.probe (Path.absolute host.cwd trail.text) = .ok file) :
    (∀ fault, (∃ after, (load host trail).outcome world = (.error fault, after)) ↔ Escapes file fault)
      ∧ ((∀ fault, ¬ Escapes file fault) → ∃ settings journal,
        (load host trail).outcome world = (.ok settings, { world with journal })
          ∧ Settled { path := trail.text } (entriesIn file) settings
          ∧ ∀ elsewhere other, elsewhere.tree.probe (Path.absolute host.cwd trail.text) = .ok other →
            (∀ fault, ¬ Escapes other fault) → Alike (entriesIn file) (entriesIn other) →
            ∃ journal, (load host trail).outcome elsewhere = (.ok settings, { elsewhere with journal })) := by
  obtain ⟨journal, ⟨fault, escapes, ran⟩ | ⟨none, settings, ran, settled⟩⟩ := ends_load host trail found
  · refine ⟨fun other => ⟨?_, fun also => ?_⟩, fun none => absurd escapes (none fault)⟩
    · rintro ⟨_, failed⟩
      cases ran.symm.trans failed
      exact escapes
    · obtain rfl := escapes_unique escapes also
      exact ⟨_, ran⟩
  · refine ⟨fun other => ⟨?_, fun escapes => absurd escapes (none other)⟩, fun _ => ⟨settings, journal, ran, settled, ?_⟩⟩
    · rintro ⟨_, failed⟩
      cases ran.symm.trans failed
    · intro elsewhere other there fine alike
      obtain ⟨written, ⟨fault, escapes, _⟩ | ⟨_, final, again, also⟩⟩ := ends_load host trail there
      · exact absurd escapes (fine fault)
      · obtain rfl := settled_unique (keys_entriesIn file) settled also alike
        exact ⟨written, again⟩

def fileWorld (bytes : ByteArray) : World := { tree := ⟨[(["w"], .directory), (["w", "c.yml"], .file bytes)]⟩ }

def sampleTrail : Path.Trail := .ofText "c.yml"

def sampleBytes : ByteArray := "log_level: debug\nzzz: 1\nmax_workers: -2\n".toUTF8

/-- A file with a level in small letters, an unknown entry and one that is not acceptable. -/
theorem load_settles_sample : (∀ fault, ¬ Escapes (some (.file sampleBytes)) fault)
    ∧ ∃ settings journal, (load Saved.sampleHost sampleTrail).outcome (fileWorld sampleBytes)
        = (.ok settings, { fileWorld sampleBytes with journal })
      ∧ Settled { path := "c.yml" } (entriesIn (some (.file sampleBytes))) settings
      ∧ settings.logLevel = "DEBUG" ∧ settings.maxWorkers = 0 := by
  have found : (fileWorld sampleBytes).tree.probe (Path.absolute "/w" "c.yml") = .ok (some (.file sampleBytes)) :=
    eq_ok_of_toOption (by decide +kernel)
  have readable : (Yaml.parse sampleBytes).isOk = true := by decide +kernel
  have writable : ((entriesIn (some (.file sampleBytes))).all fun entry => entry.1.isShowable && entry.2.isShowable) = true := by
    decide +kernel
  have fine (fault : Fault) : ¬ Escapes (some (.file sampleBytes)) fault := by
    intro escapes
    cases escapes with
    | unusable refused =>
      rw [refused] at readable
      cases readable
    | @unwritable _ key given among unwritable =>
      have shows := List.all_eq_true.mp writable _ among
      rw [Bool.and_eq_true] at shows
      rcases unwritable with ⟨_, hidden⟩ | ⟨_, _, _, hidden⟩
      · exact nomatch hidden.symm.trans shows.1
      · exact nomatch hidden.symm.trans shows.2
  obtain ⟨settings, journal, ran, settled, _⟩ := (load_settles Saved.sampleHost sampleTrail found).2 fine
  have given : ((load Saved.sampleHost sampleTrail).outcome (fileWorld sampleBytes)).1.toOption.map
      (fun settings => (settings.logLevel, settings.maxWorkers)) = some ("DEBUG", 0) := by
    decide +kernel
  rw [ran] at given
  obtain ⟨level, workers⟩ := Prod.mk.inj (Option.some.inj given)
  exact ⟨fine, settings, journal, ran, settled, level, workers⟩

/-- A file that is not UTF-8 stops the program, and so does a text that is tagged as an integer. -/
theorem load_stopped :
    (∃ flaw after, (load Saved.sampleHost sampleTrail).outcome (fileWorld ⟨#[0xff]⟩) = (.error (.undecodable flaw), after))
      ∧ ∃ fault after, (load Saved.sampleHost sampleTrail).outcome (fileWorld "max_workers: !!int x\n".toUTF8)
        = (.error fault, after) := by
  constructor
  · have found : (fileWorld ⟨#[0xff]⟩).tree.probe (Path.absolute "/w" "c.yml") = .ok (some (.file ⟨#[0xff]⟩)) :=
      eq_ok_of_toOption (by decide +kernel)
    obtain ⟨first, flawed⟩ : ∃ flaw, Text.ofBytes ⟨#[0xff]⟩ = .error flaw := by
      have noText : String.fromUTF8? ⟨#[0xff]⟩ = none := by decide +kernel
      rw [Text.ofBytes, Text.ofUtf8, noText]
      exact ⟨_, rfl⟩
    obtain ⟨flaw, refused⟩ := Yaml.parse_undecodable (by decide) flawed
    have escapes : Escapes (some (.file ⟨#[0xff]⟩)) (.undecodable flaw) := .unusable refused
    obtain ⟨_, ⟨fault, also, ran⟩ | ⟨fine, _⟩⟩ := ends_load Saved.sampleHost sampleTrail found
    · obtain rfl := escapes_unique escapes also
      exact ⟨flaw, _, ran⟩
    · exact absurd escapes (fine _)
  · have failed : ((load Saved.sampleHost sampleTrail).outcome (fileWorld "max_workers: !!int x\n".toUTF8)).1.isOk = false := by
      decide +kernel
    rcases ran : (load Saved.sampleHost sampleTrail).outcome (fileWorld "max_workers: !!int x\n".toUTF8) with ⟨fault | settings, after⟩
    · exact ⟨fault, after, rfl⟩
    · rw [ran] at failed
      cases failed

end Files

end DeclGraph.Settings
