import DeclGraph.Proofs.Outcomes
import DeclGraph.Yaml.ScalarText

/-!
Reading a scalar of a YAML text never goes back in the text.
-/

namespace DeclGraph.Yaml

namespace Cursor

def Reaches (start after : Cursor) : Prop := after.rest.length ≤ start.rest.length

section Reaching

variable {start middle after cursor : Cursor}

theorem Reaches.refl : start.Reaches start := Nat.le_refl _

theorem Reaches.trans (first : start.Reaches middle) (second : middle.Reaches after) : start.Reaches after :=
  Nat.le_trans second first

theorem rest_next (cursor : Cursor) : cursor.next.rest = cursor.rest.tail := by
  unfold next
  split
  · next ended => rw [ended, List.tail_nil]
  · next c rest more =>
    rw [more, List.tail_cons]
    dsimp only
    split
    · rfl
    · split <;> rfl

theorem reaches_next : cursor.Reaches cursor.next := by
  rw [Reaches, rest_next, List.length_tail]
  exact Nat.sub_le _ _

theorem reaches_forward (count : Nat) : cursor.Reaches (cursor.forward count) := by
  induction count generalizing cursor with
  | zero => exact .refl
  | succ count ih => exact reaches_next.trans ih

theorem reaches_span (test : Char → Bool) : cursor.Reaches (cursor.span test).2 := reaches_forward _

theorem reaches_skip (test : Char → Bool) : cursor.Reaches (cursor.skip test) := reaches_span test

theorem reaches_skipSpaces : cursor.Reaches cursor.skipSpaces := reaches_skip _

theorem reaches_skipComment : cursor.Reaches cursor.skipComment := by
  unfold skipComment
  split
  · exact reaches_skip _
  · exact .refl

theorem reaches_lineBreak {c : Char} {next : Cursor} (broken : cursor.lineBreak? = some (c, next)) : cursor.Reaches next := by
  unfold lineBreak? at broken
  split at broken
  · cases broken
    exact reaches_forward 2
  · split at broken
    · cases broken
      exact reaches_next
    · split at broken
      · cases broken
        exact reaches_next
      · cases broken
  · cases broken

theorem reaches_endOfLine (ended : cursor.endOfLine = .ok after) : cursor.Reaches after := by
  have gap : cursor.Reaches cursor.skipSpaces.skipComment := reaches_skipSpaces.trans reaches_skipComment
  unfold endOfLine at ended
  dsimp only at ended
  split at ended
  · cases ended
    cases broken : cursor.skipSpaces.skipComment.lineBreak? with
    | none => exact gap
    | some found => exact gap.trans (reaches_lineBreak broken)
  · cases ended

end Reaching

end Cursor

/-- Reading from a place, if it succeeds, goes on from there. -/
def Reads {α : Type} (start : Cursor) (result : Except Failure (α × Cursor)) : Prop :=
  ∀ value after, result = .ok (value, after) → start.Reaches after

section Reading

variable {α β : Type} {start middle after cursor : Cursor}

theorem reads_ok {value : α} (reached : start.Reaches after) : Reads start (.ok (value, after)) := by
  rintro _ _ ⟨⟩
  exact reached

theorem reads_error {failure : Failure} : Reads start (.error failure : Except Failure (α × Cursor)) := nofun

theorem Reads.of_reaches {result : Except Failure (α × Cursor)} (reads : Reads middle result)
    (reached : start.Reaches middle) :
    Reads start result :=
  fun value after ran => reached.trans (reads value after ran)

theorem reads_bind {first : Except Failure (α × Cursor)} {next : α × Cursor → Except Failure (β × Cursor)}
    (head : Reads start first) (rest : ∀ value middle, start.Reaches middle → Reads start (next (value, middle))) :
    Reads start (first >>= next) := by
  intro value after ran
  obtain ⟨⟨found, place⟩, begun, ran⟩ := bind_eq_ok.mp ran
  exact rest found place (head found place begun) value after ran

theorem reads_after {first : Except Failure α} {next : α → Except Failure (β × Cursor)}
    (rest : ∀ value, Reads start (next value)) :
    Reads start (first >>= next) := by
  intro value after ran
  obtain ⟨found, _, ran⟩ := bind_eq_ok.mp ran
  exact rest found value after ran

theorem reads_unless {refused : Prop} [Decidable refused] {failure : Failure} {next : Unit → Except Failure (α × Cursor)}
    (rest : Reads start (next ())) : Reads start (if refused then throw failure >>= next else next ()) := by
  split
  · exact reads_error
  · exact rest

end Reading

section Quoted

variable {cursor : Cursor}

theorem reads_quotedBreaks (fuel : Nat) : Reads cursor (quotedBreaks fuel cursor) := by
  induction fuel generalizing cursor with
  | zero => exact reads_error
  | succ fuel ih =>
    rw [quotedBreaks]
    split
    · exact reads_error
    · have blanks : cursor.Reaches (cursor.skip fun c => c = ' ' || c = '\t') := Cursor.reaches_skip _
      dsimp only
      split
      · exact reads_ok blanks
      · next c next broken =>
        have reached := blanks.trans (Cursor.reaches_lineBreak broken)
        exact reads_bind (ih.of_reaches reached) fun more last reached => reads_ok reached

theorem reads_quotedSpaces : Reads cursor (quotedSpaces cursor) := by
  have blanks : cursor.Reaches (cursor.span fun c => c = ' ' || c = '\t').2 := Cursor.reaches_span _
  unfold quotedSpaces
  dsimp only
  split
  · exact reads_error
  · split
    · exact reads_ok blanks
    · next c next broken =>
      have reached := blanks.trans (Cursor.reaches_lineBreak broken)
      exact reads_bind ((reads_quotedBreaks _).of_reaches reached) fun more last reached => reads_ok reached

theorem reads_escapeText : Reads cursor (escapeText cursor) := by
  unfold escapeText
  dsimp only
  split
  · exact reads_ok Cursor.reaches_next
  · split
    · next width _ =>
      split
      · exact reads_after fun image => reads_ok (Cursor.reaches_next.trans (Cursor.reaches_forward width))
      · exact reads_error
    · split
      · next c next broken => exact (reads_quotedBreaks _).of_reaches (Cursor.reaches_lineBreak broken)
      · exact reads_error

theorem reads_quotedRest (double : Bool) (fuel : Nat) : Reads cursor (quotedRest double fuel cursor) := by
  induction fuel generalizing cursor with
  | zero => exact reads_error
  | succ fuel ih =>
    have onward (text : List Char) {next : Cursor} (reached : cursor.Reaches next) :
        Reads cursor (quotedRest double fuel next >>= fun found => pure (text ++ found.1, found.2)) :=
      reads_bind (ih.of_reaches reached) fun _ _ reached => reads_ok reached
    rw [quotedRest]
    dsimp only
    split
    · exact reads_error
    · split
      · exact reads_bind reads_quotedSpaces fun text next reached => onward text reached
      · split
        · split
          · exact reads_ok Cursor.reaches_next
          · split
            · exact reads_bind (reads_escapeText.of_reaches Cursor.reaches_next) fun text next reached => onward text reached
            · exact onward _ Cursor.reaches_next
        · split
          · split
            · exact onward _ (Cursor.reaches_forward 2)
            · exact reads_ok Cursor.reaches_next
          · exact onward _ Cursor.reaches_next

theorem reads_quotedText (double : Bool) : Reads cursor (quotedText double cursor) :=
  (reads_quotedRest double _).of_reaches Cursor.reaches_next

end Quoted

section Block

variable {cursor : Cursor}

theorem reaches_blockHeader {chomping : Chomping} {increment : Option Nat} {after : Cursor}
    (read : blockHeader cursor = .ok (chomping, increment, after)) : cursor.Reaches after := by
  have ends {kind : Chomping} {number : Option Nat} {place : Cursor} (reached : cursor.Reaches place)
      (read : (if isSpaceOrEnd place.peek then pure (kind, number, place) else throw .malformed : Except Failure _) =
        .ok (chomping, increment, after)) : cursor.Reaches after := by
    split at read
    · cases read
      exact reached
    · cases read
  unfold blockHeader at read
  dsimp only at read
  split at read
  · obtain ⟨number, _, read⟩ := bind_eq_ok.mp read
    refine ends ?_ read
    split
    · exact Cursor.reaches_forward 2
    · exact Cursor.reaches_next
  · obtain ⟨number, _, read⟩ := bind_eq_ok.mp read
    split at read
    · exact ends .refl read
    · split at read
      · exact ends (Cursor.reaches_forward 2) read
      · exact ends Cursor.reaches_next read

theorem reaches_blockIndentation (fuel deepest : Nat) : cursor.Reaches (blockIndentation fuel cursor deepest).2.2 := by
  induction fuel generalizing cursor deepest with
  | zero => exact .refl
  | succ fuel ih =>
    rw [blockIndentation]
    split
    · exact Cursor.reaches_next.trans (ih _)
    · split
      · exact .refl
      · next c next broken => exact (Cursor.reaches_lineBreak broken).trans (ih _)

theorem reaches_skipIndent (fuel indent : Nat) : cursor.Reaches (skipIndent fuel indent cursor) := by
  induction fuel generalizing cursor with
  | zero => exact .refl
  | succ fuel ih =>
    rw [skipIndent]
    split
    · exact Cursor.reaches_next.trans ih
    · exact .refl

theorem reaches_blockBreaks (indent fuel : Nat) : cursor.Reaches (blockBreaks indent fuel cursor).2 := by
  induction fuel generalizing cursor with
  | zero => exact .refl
  | succ fuel ih =>
    have indented : cursor.Reaches (skipIndent indent indent cursor) := reaches_skipIndent indent indent
    rw [blockBreaks]
    dsimp only
    split
    · exact indented
    · next c next broken => exact indented.trans ((Cursor.reaches_lineBreak broken).trans ih)

theorem reaches_blockLines (folded : Bool) (chomping : Chomping) (indent fuel : Nat) (breaks : List Char) :
    cursor.Reaches (blockLines folded chomping indent fuel breaks cursor).2 := by
  induction fuel generalizing cursor breaks with
  | zero => exact .refl
  | succ fuel ih =>
    have line : cursor.Reaches (cursor.span fun c => !isBreakOrEnd c).2 := Cursor.reaches_span _
    have ended {place : Cursor} (reached : cursor.Reaches place) (rest : Nat) :
        cursor.Reaches (blockBreaks indent rest place).2 := reached.trans (reaches_blockBreaks indent rest)
    rw [blockLines]
    dsimp only
    split
    · next c next broken =>
      have reached := line.trans (Cursor.reaches_lineBreak broken)
      dsimp only
      split
      · exact (ended reached _).trans (ih _)
      · exact ended reached _
    · dsimp only
      split
      · exact (ended line _).trans (ih _)
      · exact ended line _

theorem reads_blockText (folded : Bool) (parent : Int) : Reads cursor (blockText folded parent cursor) := by
  intro text after read
  obtain ⟨⟨chomping, increment, afterHeader⟩, header, read⟩ := bind_eq_ok.mp read
  obtain ⟨start, line, read⟩ := bind_eq_ok.mp read
  have reached : cursor.Reaches start :=
    Cursor.reaches_next.trans ((reaches_blockHeader header).trans (Cursor.reaches_endOfLine line))
  have ends {breaks : List Char} {indent : Nat} {first : Cursor} (reached : cursor.Reaches first)
      (read : (if first.column = indent ∧ ¬first.rest.isEmpty then
          pure (blockLines folded chomping indent (first.rest.length + 1) breaks first)
        else pure (if chomping = .keep then breaks else [], first) : Except Failure _) = .ok (text, after)) :
      cursor.Reaches after := by
    split at read
    · have lines := reached.trans (reaches_blockLines folded chomping indent (first.rest.length + 1) breaks)
      rw [Except.ok.inj read] at lines
      exact lines
    · cases read
      exact reached
  dsimp only at read
  split at read
  · exact ends (reached.trans (reaches_blockIndentation _ _)) read
  · exact ends (reached.trans (reaches_blockBreaks _ _)) read

end Block

section Plain

variable {cursor : Cursor}

theorem reaches_plainBreaks (fuel : Nat) : cursor.Reaches (plainBreaks fuel cursor).2
    ∧ ∀ breaks last, (plainBreaks fuel cursor).1 = some (breaks, last) → cursor.Reaches last := by
  induction fuel generalizing cursor with
  | zero => exact ⟨.refl, nofun⟩
  | succ fuel ih =>
    rw [plainBreaks]
    split
    · exact ⟨Cursor.reaches_next.trans ih.1, fun breaks last found => Cursor.reaches_next.trans (ih.2 breaks last found)⟩
    · split
      · exact ⟨.refl, by rintro _ _ ⟨⟩; exact .refl⟩
      · next c next broken =>
        have reached := Cursor.reaches_lineBreak broken
        split
        · exact ⟨reached, nofun⟩
        · refine ⟨reached.trans ih.1, fun breaks last found => ?_⟩
          obtain ⟨⟨more, place⟩, later, same⟩ := Option.map_eq_some_iff.mp found
          cases same
          exact reached.trans (ih.2 more last later)

theorem reaches_plainSpaces : cursor.Reaches (plainSpaces cursor).2.2 := by
  have blanks : cursor.Reaches (cursor.span (· = ' ')).2 := Cursor.reaches_span _
  unfold plainSpaces
  dsimp only
  split
  · exact blanks
  · next c next broken =>
    have reached := blanks.trans (Cursor.reaches_lineBreak broken)
    have onward := @reaches_plainBreaks next (next.rest.length + 1)
    split
    · exact reached
    · split
      · next breaks last _ found => exact reached.trans (onward.2 breaks last (by rw [found]))
      · next last found =>
        rw [found] at onward
        exact reached.trans onward.1

theorem reaches_plainRest (inFlow : Bool) (indent : Int) (fuel : Nat) (glue : List Char) (lineEnded : Bool) :
    cursor.Reaches (plainRest inFlow indent fuel glue lineEnded cursor).2.2 := by
  induction fuel generalizing cursor glue lineEnded with
  | zero => exact .refl
  | succ fuel ih =>
    have spaces : cursor.Reaches (plainSpaces (cursor.forward (plainWord inFlow cursor.rest).length)).2.2 :=
      (Cursor.reaches_forward _).trans reaches_plainSpaces
    rw [plainRest]
    dsimp only
    split
    · exact .refl
    · split
      · exact spaces
      · exact spaces.trans (ih _ _)

theorem reaches_plainText (inFlow : Bool) (parent : Int) : cursor.Reaches (plainText inFlow parent cursor).2.2 :=
  reaches_plainRest inFlow _ _ _ _

end Plain

end DeclGraph.Yaml
