import DeclGraph.Text.Case

/-!
What lowering a text keeps. Every character is replaced by at least one character that lowering leaves
as it is, and the slash and the dot neither change nor come from anything else. So lowering twice is
lowering once. A sigma is lowered by the letters around it, but no letter beyond a slash counts, so the names
of a path are lowered one by one.
-/

namespace DeclGraph.Text

/-- Lowering leaves the character as it is, whatever stands around it. -/
def Lowered (c : Char) : Prop := c.toNat ≠ 0x3a3 ∧ lowerChar c = [c]

instance (c : Char) : Decidable (Lowered c) := inferInstanceAs (Decidable (_ ∧ _))

def CaseRun.lowest (run : CaseRun) : Nat := (run.first + run.offset).toNat

def CaseRun.highest (run : CaseRun) : Nat := (run.last + run.offset).toNat

/-- No code point that the run leads to is covered by the other run: they lie apart, or they
interleave. -/
def CaseRun.avoids (run other : CaseRun) : Bool :=
  Nat.blt run.highest other.first || Nat.blt other.last run.lowest
    || ((run.stride == 2 || run.first == run.last) && other.stride == 2
      && (run.lowest + other.first) % 2 == 1)

def CaseRun.staysInText (run : CaseRun) : Bool :=
  decide (0x30 ≤ run.lowest)
    && (decide (run.highest < 0xd800) || (decide (0xdfff < run.lowest) && decide (run.highest < 0x110000)))

def lowerTargets : List CaseRun :=
  lowerSequences.map (fun entry => ⟨entry.1, entry.1, 1, 0⟩) ++ lowerRuns

theorem lower_runs_avoid : lowerRuns.all (fun run => lowerTargets.all run.avoids) = true := by
  decide +kernel

theorem lower_runs_stay : lowerRuns.all CaseRun.staysInText = true := by
  decide +kernel

theorem covers_iff (run : CaseRun) (code : Nat) :
    run.covers code = true ↔
      run.first ≤ code ∧ code ≤ run.last ∧ (code - run.first) % run.stride = 0 := by
  simp [CaseRun.covers, and_assoc]

theorem avoids_uncovered (run other : CaseRun) (code image : Nat) (real : 0 < run.lowest)
    (apart : run.avoids other = true) (covered : run.covers code = true)
    (shifted : (image : Int) = code + run.offset) : other.covers image = false := by
  rw [covers_iff] at covered
  rcases covered with ⟨above, below, inStep⟩
  apply Bool.eq_false_iff.mpr
  intro hit
  rcases (covers_iff other image).mp hit with ⟨otherAbove, otherBelow, otherStep⟩
  simp only [CaseRun.avoids, Bool.or_eq_true, Bool.and_eq_true, Nat.blt_eq, beq_iff_eq] at apart
  simp only [CaseRun.lowest, CaseRun.highest] at apart real
  -- The runs are apart by order in the first two cases and by parity in the others.
  rcases apart with (above | under) | ⟨⟨two | single, otherTwo⟩, odd⟩
  · omega
  · omega
  · rw [two] at inStep
    rw [otherTwo] at otherStep
    omega
  · rw [otherTwo] at otherStep
    omega

theorem char_of_code (code : Nat) (valid : code.isValidChar) : (Char.ofNat code).toNat = code := by
  have built : Char.ofNat code = Char.ofNatAux code valid := dif_pos valid
  rw [built]
  rfl

theorem sigma_covered : lowerTargets.any (fun run => run.covers 0x3a3) = true := by
  decide +kernel

theorem capital_covered : ∀ code < 0x80, 0x41 ≤ code → code ≤ 0x5a →
    lowerTargets.any (fun run => run.covers code) = true := by
  decide +kernel

theorem lowered_of_uncovered (c : Char)
    (uncovered : lowerTargets.any (fun run => run.covers c.toNat) = false) : Lowered c := by
  have clear : ∀ run ∈ lowerTargets, run.covers c.toNat = false := by
    simpa using uncovered
  have noSigma : c.toNat ≠ 0x3a3 := by
    intro sigma
    rw [sigma, sigma_covered] at uncovered
    exact Bool.noConfusion uncovered
  refine ⟨noSigma, ?_⟩
  unfold lowerChar
  by_cases ascii : c.toNat < 0x80
  · have outside : ¬ (c.val ≥ 'A'.val ∧ c.val ≤ 'Z'.val) := by
      rintro ⟨low, high⟩
      rw [capital_covered c.toNat ascii low high] at uncovered
      exact Bool.noConfusion uncovered
    have kept : c.toLower = c := dif_neg outside
    rw [if_pos ascii, kept]
  · have noSequence : lowerSequences.find? (fun entry => entry.1 == c.toNat) = none := by
      apply List.find?_eq_none.mpr
      intro entry member same
      have target := clear ⟨entry.1, entry.1, 1, 0⟩
        (List.mem_append_left _ (List.mem_map.mpr ⟨entry, member, rfl⟩))
      rw [← beq_iff_eq.mp same] at target
      simp [CaseRun.covers] at target
    have noRun : lowerRuns.find? (fun run => run.covers c.toNat) = none := by
      apply List.find?_eq_none.mpr
      intro run member
      rw [clear run (List.mem_append_right _ member)]
      exact Bool.false_ne_true
    simp [ascii, mapCase, noSequence, noRun]

/-- What one character is lowered to: nothing is lost, the result stays as it is, and the marks of a
path are kept apart from all else. -/
structure Image (c : Char) (image : List Char) : Prop where
  present : image ≠ []
  lowered : ∀ d ∈ image, Lowered d
  slash : '/' ∈ image → c = '/'
  dot : '.' ∈ image → c = '.'
  slashKept : c = '/' → image = ['/']
  dotKept : c = '.' → image = ['.']

theorem image_of_beyond (c : Char) (image : List Char) (beyond : 0x80 ≤ c.toNat)
    (present : image ≠ []) (lowered : ∀ d ∈ image, Lowered d) (codes : ∀ d ∈ image, 0x30 ≤ d.toNat) :
    Image c image where
  present := present
  lowered := lowered
  slash member := absurd (codes _ member) (by decide)
  dot member := absurd (codes _ member) (by decide)
  slashKept same := absurd (same ▸ beyond) (by decide)
  dotKept same := absurd (same ▸ beyond) (by decide)

-- The check is a test of a list: deciding a statement about all characters would go through all of them.
theorem image_of_checked (c : Char) (image : List Char) (beyond : 0x80 ≤ c.toNat) (present : image ≠ [])
    (checked : (image.all fun d => decide (Lowered d) && decide (0x30 ≤ d.toNat)) = true) : Image c image := by
  have each := List.all_eq_true.mp checked
  simp only [Bool.and_eq_true, decide_eq_true_eq] at each
  exact image_of_beyond c image beyond present (fun d member => (each d member).1) fun d member => (each d member).2

theorem ascii_image : ∀ code < 0x80, Image (Char.ofNat code) [(Char.ofNat code).toLower] := by
  have facts : ∀ code < 0x80, Lowered (Char.ofNat code).toLower
      ∧ ('/' = (Char.ofNat code).toLower → Char.ofNat code = '/')
      ∧ ('.' = (Char.ofNat code).toLower → Char.ofNat code = '.') := by
    decide +kernel
  intro code small
  rcases facts code small with ⟨lowered, slash, dot⟩
  refine ⟨by simp, by simpa using lowered, by simpa using slash, by simpa using dot, ?_, ?_⟩
  · intro same
    rw [same]
    rfl
  · intro same
    rw [same]
    rfl

theorem run_image (c : Char) (run : CaseRun) (member : run ∈ lowerRuns) (beyond : 0x80 ≤ c.toNat)
    (covered : run.covers c.toNat = true) :
    Image c [Char.ofNat (Int.toNat (Int.ofNat c.toNat + run.offset))] := by
  have stays := List.all_eq_true.mp lower_runs_stay run member
  have avoids := List.all_eq_true.mp (List.all_eq_true.mp lower_runs_avoid run member)
  simp only [CaseRun.staysInText, Bool.and_eq_true, Bool.or_eq_true, decide_eq_true_eq] at stays
  simp only [CaseRun.lowest, CaseRun.highest] at stays
  have bounds := (covers_iff run c.toNat).mp covered
  have valid : (Int.toNat (Int.ofNat c.toNat + run.offset)).isValidChar := by
    simp only [Nat.isValidChar, Int.ofNat_eq_natCast]
    omega
  have code := char_of_code _ valid
  apply image_of_beyond c _ beyond (by simp)
  · intro d same
    rw [List.mem_singleton.mp same]
    apply lowered_of_uncovered
    rw [code]
    apply List.any_eq_false.mpr
    intro other target
    rw [Bool.not_eq_true]
    exact avoids_uncovered run other c.toNat _ (by simp only [CaseRun.lowest]; omega)
      (avoids other target) covered (by simp only [Int.ofNat_eq_natCast]; omega)
  · intro d same
    rw [List.mem_singleton.mp same, code]
    simp only [Int.ofNat_eq_natCast]
    omega

theorem lowerChar_image (c : Char) : Image c (lowerChar c) := by
  unfold lowerChar
  by_cases ascii : c.toNat < 0x80
  · have image := ascii_image c.toNat ascii
    rw [Char.ofNat_toNat] at image
    simpa [ascii] using image
  · have beyond : 0x80 ≤ c.toNat := by omega
    simp only [ascii, ↓reduceIte, mapCase]
    split
    next entry found =>
      have listed : entry = (0x130, [0x69, 0x307]) := by
        simpa [lowerSequences] using List.mem_of_find?_eq_some found
      subst listed
      exact image_of_checked c _ beyond (by simp) (by decide +kernel)
    next noSequence =>
      split
      next run found =>
        exact run_image c run (List.mem_of_find?_eq_some found) beyond
          (List.find?_some (p := fun run : CaseRun => run.covers c.toNat) found)
      next noRun =>
        have lowered : Lowered c := by
          apply lowered_of_uncovered
          apply List.any_eq_false.mpr
          intro run target
          rcases List.mem_append.mp target with sequenced | listed
          · rcases List.mem_map.mp sequenced with ⟨entry, entryMember, rfl⟩
            have different := List.find?_eq_none.mp noSequence entry entryMember
            intro hit
            have bounds := (covers_iff _ _).mp hit
            exact different (beq_iff_eq.mpr (Nat.le_antisymm bounds.1 bounds.2.1))
          · exact List.find?_eq_none.mp noRun run listed
        exact image_of_beyond c [c] beyond (by simp) (by simpa using lowered)
          (by simp only [List.mem_singleton, forall_eq]; omega)

/-- One text is another with each character replaced by an image of it. -/
inductive Lowers : List Char → List Char → Prop where
  | nil : Lowers [] []
  | cons {c image cs ds} : Image c image → Lowers cs ds → Lowers (c :: cs) (image ++ ds)

theorem lowers_lowerFrom (before cs : List Char) : Lowers cs (lowerFrom before cs) := by
  induction cs generalizing before with
  | nil => exact .nil
  | cons c rest ih =>
    unfold lowerFrom
    refine .cons ?_ (ih (c :: before))
    by_cases sigma : c.toNat = 0x3a3
    · have beyond : 0x80 ≤ c.toNat := by omega
      simp only [sigma, ↓reduceIte]
      -- Either form of the small sigma will do.
      split
      · exact image_of_checked c _ beyond (by simp) (by decide +kernel)
      · exact image_of_checked c _ beyond (by simp) (by decide +kernel)
    · simpa only [sigma, ↓reduceIte] using lowerChar_image c

theorem lowers_lowered {cs ds : List Char} (lowers : Lowers cs ds) : ∀ d ∈ ds, Lowered d := by
  induction lowers with
  | nil => simp
  | cons image _ ih =>
    intro d member
    rcases List.mem_append.mp member with inImage | inRest
    · exact image.lowered d inImage
    · exact ih d inRest

theorem lowerFrom_of_lowered (before cs : List Char) (lowered : ∀ c ∈ cs, Lowered c) :
    lowerFrom before cs = cs := by
  induction cs generalizing before with
  | nil => rfl
  | cons c rest ih =>
    have head := lowered c (by simp)
    have tail := ih (c :: before) (fun d member => lowered d (List.mem_cons_of_mem c member))
    simp [lowerFrom, head.1, head.2, tail]

theorem lower_lower (text : String) : lower (lower text) = lower text := by
  have lowered := lowers_lowered (lowers_lowerFrom [] text.toList)
  simp [lower, lowerFrom_of_lowered [] _ lowered]

theorem nearestIsCased_append_slash (cs more : List Char) : nearestIsCased (cs ++ '/' :: more) = nearestIsCased cs := by
  have stops : isCaseIgnorable '/' = false := by decide +kernel
  have plain : isCased '/' = false := by decide +kernel
  unfold nearestIsCased
  rw [List.dropWhile_append]
  cases passed : cs.dropWhile isCaseIgnorable with
  | nil => simp [stops, plain]
  | cons c rest => simp

/-- What lies beyond a slash has no part in how characters are lowered. -/
theorem lowerFrom_beyond_slash (before past cs : List Char) :
    lowerFrom (before ++ '/' :: past) cs = lowerFrom before cs := by
  induction cs generalizing before with
  | nil => rfl
  | cons c rest ih => rw [lowerFrom, lowerFrom, nearestIsCased_append_slash, ← List.cons_append, ih]

theorem lowerFrom_append_slash (before cs rest : List Char) :
    lowerFrom before (cs ++ '/' :: rest) = lowerFrom before cs ++ '/' :: lowerFrom [] rest := by
  induction cs generalizing before with
  | nil =>
    have kept : lowerChar '/' = ['/'] := (lowerChar_image '/').slashKept rfl
    have afresh := lowerFrom_beyond_slash [] before rest
    rw [List.nil_append] at afresh
    simp [lowerFrom, kept, afresh]
  | cons c cs ih =>
    rw [List.cons_append, lowerFrom, lowerFrom, nearestIsCased_append_slash, ih, List.append_assoc]

theorem slash_of_lowers {cs ds : List Char} (lowers : Lowers cs ds) (slash : '/' ∈ ds) : '/' ∈ cs := by
  induction lowers with
  | nil => exact slash
  | cons fits _ ih =>
    rcases List.mem_append.mp slash with here | later
    · exact fits.slash here ▸ List.mem_cons_self
    · exact List.mem_cons_of_mem _ (ih later)

end DeclGraph.Text
