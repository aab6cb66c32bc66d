import DenseMatmul.Selection
import DenseMatmul.Proofs.Texts
/-!
# Selections read from texts

A text names a variant if trimming leaves one of its names, but for the case of ASCII letters, and counts
threads if trimming leaves a numeral of a word that is not zero. A selection is read exactly if each of
the two texts is absent or says something, and then it is what they say (`ofLookup_eq_ok_iff`). The
variant is read first, so it is the one refused if both are bad.
-/

namespace DenseMatmul

/-! ## Variants -/

namespace Variant

/-- The names a variant goes by. -/
def aliases : Variant → List String
  | .reference => ["reference", "naive"]
  | .rowParallel => ["row-parallel", "row_parallel", "parallel"]

/-- The name that is looked up for a text: what trimming leaves of it, with ASCII letters in lower case. -/
def lookedUp (text : String) : String := String.ofList ((Text.trim text.toList).map Char.toLower)

/-- Between blanks and in letters of either case, the text is a name of the variant. -/
def Named (text : String) (v : Variant) : Prop :=
  ∃ core, Text.IsCore core text.toList ∧ String.ofList (core.map Char.toLower) ∈ v.aliases

theorem ofName?_eq_some_iff {name : String} {v : Variant} :
    ofName? name = some v ↔ name ∈ v.aliases := by
  unfold ofName?
  split <;> cases v <;> simp_all [aliases]

theorem named_iff {text : String} {v : Variant} : Named text v ↔ ofName? (lookedUp text) = some v := by
  simp only [Named, ← Text.trim_eq_iff, exists_eq_left', ofName?_eq_some_iff, lookedUp]

theorem ofText_eq_ok_iff {text : String} {v : Variant} : ofText text = .ok v ↔ Named text v := by
  rw [named_iff, lookedUp, ofText]
  split <;> simp_all

theorem ofText_of_unnamed {text : String} (h : ∀ v, ¬ Named text v) :
    ofText text = .error (.invalidArgument (.unknownVariant (lookedUp text))) := by
  have hnone : ofName? (lookedUp text) = none :=
    Option.eq_none_iff_forall_ne_some.2 fun v hv => h v (named_iff.2 hv)
  rw [lookedUp] at hnone ⊢
  simp only [ofText, hnone]

theorem ofText_name (v : Variant) : ofText v.name = .ok v := by
  rw [ofText_eq_ok_iff, named_iff]
  cases v <;> decide

end Variant

/-! ## Numbers of threads -/

namespace Selection

/-- Between blanks, the text is a numeral of a number of threads: at least one, and a word. -/
def Counts (text : String) (threads : Nat) : Prop :=
  ∃ core, Text.IsCore core text.toList ∧ Text.Denotes core threads ∧ 1 ≤ threads ∧ threads < wordLimit

theorem threadsOfText_eq_ok_iff {text : String} {threads : Nat} :
    threadsOfText text = .ok threads ↔ Counts text threads := by
  simp only [Counts, ← Text.trim_eq_iff, exists_eq_left']
  have hword : 0 < wordLimit := by decide
  rw [and_left_comm, ← Text.readNumeral_eq_ok_iff hword]
  unfold threadsOfText
  cases Text.readNumeral wordLimit (Text.trim text.toList) with
  | error cause => simp
  | ok value =>
    cases value with
    | zero =>
      simp only [reduceCtorEq, false_iff]
      rintro ⟨hone, hzero⟩
      obtain rfl := Except.ok.inj hzero
      exact absurd hone (by decide)
    | succ value =>
      simp only [Except.ok.injEq, iff_and_self]
      rintro rfl
      exact Nat.succ_pos _

example : threadsOfText "18446744073709551615" = .ok (wordLimit - 1) := by cbv

example : threadsOfText "18446744073709551616" =
    .error (.invalidArgument (.badThreadCount "18446744073709551616" .tooLarge)) := by cbv

theorem threadsOfText_of_uncounted {text : String} (h : ∀ threads, ¬ Counts text threads) :
    threadsOfText text = .error (.invalidArgument .zeroThreads) ∨
      ∃ cause, threadsOfText text = .error (.invalidArgument (.badThreadCount text cause)) := by
  cases hread : threadsOfText text with
  | ok threads => exact absurd (threadsOfText_eq_ok_iff.1 hread) (h threads)
  | error e =>
    unfold threadsOfText at hread
    split at hread
    · exact .inr ⟨_, hread.symm⟩
    · exact .inl hread.symm
    · cases hread

theorem name_kernel (selection : Selection) : selection.kernel.name = selection.variant.name := by
  obtain ⟨_ | _, threads⟩ := selection <;> rfl

/-! ## Both texts -/

variable {machineThreads : Nat} {lookup : Setting → Option String} {selection : Selection}

/-- Without a text the variant is the reference, and otherwise the one that the text names. -/
def ChoosesVariant : Option String → Variant → Prop
  | none, v => v = .reference
  | some text, v => Variant.Named text v

/-- Without a text there are as many threads as the machine has, and otherwise as many as the text
says. -/
def ChoosesThreads (machineThreads : Nat) : Option String → Nat → Prop
  | none, threads => threads = machineThreads
  | some text, threads => Counts text threads

theorem chosenVariant_eq_ok_iff {text? : Option String} {v : Variant} :
    text?.elim (pure (standard machineThreads).variant) Variant.ofText = .ok v ↔
      ChoosesVariant text? v := by
  cases text? with
  | none => simp [ChoosesVariant, standard, pure, Except.pure, eq_comm]
  | some text => rw [Option.elim_some, Variant.ofText_eq_ok_iff, ChoosesVariant]

theorem chosenThreads_eq_ok_iff {text? : Option String} {threads : Nat} :
    text?.elim (pure (standard machineThreads).maxThreads) threadsOfText = .ok threads ↔
      ChoosesThreads machineThreads text? threads := by
  cases text? with
  | none => simp [ChoosesThreads, standard, pure, Except.pure, eq_comm]
  | some text => rw [Option.elim_some, threadsOfText_eq_ok_iff, ChoosesThreads]

theorem ofLookup_eq (machineThreads : Nat) (lookup : Setting → Option String) :
    ofLookup machineThreads lookup =
      (lookup .variant).elim (pure (standard machineThreads).variant) Variant.ofText >>= fun variant =>
        (lookup .threads).elim (pure (standard machineThreads).maxThreads) threadsOfText >>=
          fun maxThreads => pure { variant, maxThreads } :=
  rfl

theorem ofLookup_eq_ok_iff :
    ofLookup machineThreads lookup = .ok selection ↔
      ChoosesVariant (lookup .variant) selection.variant ∧
        ChoosesThreads machineThreads (lookup .threads) selection.maxThreads := by
  obtain ⟨variant, maxThreads⟩ := selection
  rw [ofLookup_eq, ← @chosenVariant_eq_ok_iff machineThreads, ← chosenThreads_eq_ok_iff]
  cases (lookup .variant).elim (pure (standard machineThreads).variant) Variant.ofText with
  | error e => simp [bind, Except.bind]
  | ok v =>
    cases (lookup .threads).elim (pure (standard machineThreads).maxThreads) threadsOfText with
    | error e => simp [bind, Except.bind]
    | ok threads => simp [bind, Except.bind, pure, Except.pure]

theorem one_le_of_choosesThreads (hmachine : 1 ≤ machineThreads) {text? : Option String}
    {threads : Nat} (h : ChoosesThreads machineThreads text? threads) : 1 ≤ threads := by
  cases text? with
  | none => exact h ▸ hmachine
  | some text =>
    obtain ⟨-, -, -, hone, -⟩ := h
    exact hone

theorem ofLookup_of_unnamed {text : String} (hlookup : lookup .variant = some text)
    (h : ∀ v, ¬ Variant.Named text v) :
    ofLookup machineThreads lookup =
      .error (.invalidArgument (.unknownVariant (Variant.lookedUp text))) := by
  rw [ofLookup_eq, hlookup, Option.elim_some, Variant.ofText_of_unnamed h]
  rfl

theorem ofLookup_of_uncounted {v : Variant} {text : String}
    (hvariant : ChoosesVariant (lookup .variant) v) (hlookup : lookup .threads = some text)
    (h : ∀ threads, ¬ Counts text threads) :
    ofLookup machineThreads lookup = .error (.invalidArgument .zeroThreads) ∨
      ∃ cause, ofLookup machineThreads lookup =
        .error (.invalidArgument (.badThreadCount text cause)) := by
  have hread : ofLookup machineThreads lookup =
      (threadsOfText text >>= fun maxThreads => pure { variant := v, maxThreads }) := by
    rw [ofLookup_eq, chosenVariant_eq_ok_iff.2 hvariant, hlookup]
    rfl
  rw [hread]
  obtain hzero | ⟨cause, hcause⟩ := threadsOfText_of_uncounted h
  · exact .inl (by rw [hzero]; rfl)
  · exact .inr ⟨cause, by rw [hcause]; rfl⟩

/-- A selection is read from the two texts exactly if each is absent or says something, and it is then
what they say. It allows at least one thread, if the machine has one, and the kernel built from it has a
name that the same variant is read from. A variant that is not known is refused by the name that was
looked up, whatever the other text is, and only after a good one is a number of threads refused. -/
theorem lookup_exact (hmachine : 1 ≤ machineThreads) (lookup : Setting → Option String) :
    (∀ selection, ofLookup machineThreads lookup = .ok selection ↔
      ChoosesVariant (lookup .variant) selection.variant ∧
        ChoosesThreads machineThreads (lookup .threads) selection.maxThreads) ∧
    (∀ selection, ofLookup machineThreads lookup = .ok selection → 1 ≤ selection.maxThreads ∧
      ∃ kernel, (selection.build : Logged MatmulError Kernel).result = .ok kernel ∧
        Variant.ofText kernel.name = .ok selection.variant) ∧
    (∀ text, lookup .variant = some text → (∀ v, ¬ Variant.Named text v) →
      ofLookup machineThreads lookup =
        .error (.invalidArgument (.unknownVariant (Variant.lookedUp text)))) ∧
    ∀ v text, ChoosesVariant (lookup .variant) v → lookup .threads = some text →
      (∀ threads, ¬ Counts text threads) →
      ofLookup machineThreads lookup = .error (.invalidArgument .zeroThreads) ∨
        ∃ cause, ofLookup machineThreads lookup =
          .error (.invalidArgument (.badThreadCount text cause)) := by
  refine ⟨fun selection => ofLookup_eq_ok_iff, fun selection h => ⟨?_, selection.kernel, rfl, ?_⟩,
    fun text hlookup h => ofLookup_of_unnamed hlookup h,
    fun v text hvariant hlookup h => ofLookup_of_uncounted hvariant hlookup h⟩
  · exact one_le_of_choosesThreads hmachine (ofLookup_eq_ok_iff.1 h).2
  · rw [name_kernel]
    exact Variant.ofText_name _

/-- Texts with blanks, capital letters, a sign and leading zeros. Then two that are both bad: only ASCII
letters are put in lower case, and no number of threads is zero. -/
theorem lookup_exact_padded :
    let padded : Setting → Option String
      | .variant => some "\tRow_Parallel "
      | .threads => some "\u3000+007\n"
    let bad : Setting → Option String
      | .variant => some " NAÏVE"
      | .threads => some "0"
    1 ≤ 4 ∧ ofLookup 4 padded = .ok ⟨.rowParallel, 7⟩ ∧
      (∃ kernel, ((⟨.rowParallel, 7⟩ : Selection).build : Logged MatmulError Kernel).result = .ok kernel ∧
        Variant.ofText kernel.name = .ok .rowParallel) ∧
      ofLookup 4 bad = .error (.invalidArgument (.unknownVariant "naÏve")) := by
  intro padded bad
  have hvariant : Variant.Named "\tRow_Parallel " .rowParallel :=
    ⟨"Row_Parallel".toList, Text.trim_eq_iff.1 (by decide), by decide⟩
  have hthreads : Counts "\u3000+007\n" 7 :=
    ⟨"+007".toList, Text.trim_eq_iff.1 (by decide),
      ⟨"007".toList, .inr (by decide), by decide, List.all_eq_true.1 (by decide), by decide⟩,
      by decide, by decide⟩
  have hbad : ∀ v, ¬ Variant.Named " NAÏVE" v := by
    intro v hv
    rw [Variant.named_iff] at hv
    revert hv
    cases v <;> decide
  have hname : Variant.lookedUp " NAÏVE" = "naÏve" := by decide
  have hmachine : 1 ≤ 4 := by decide
  obtain ⟨hiff, hmade, -, -⟩ := lookup_exact hmachine padded
  obtain ⟨-, -, hrefused, -⟩ := lookup_exact hmachine bad
  have hread : ofLookup 4 padded = .ok ⟨.rowParallel, 7⟩ := (hiff _).2 ⟨hvariant, hthreads⟩
  refine ⟨hmachine, hread, (hmade _ hread).2, ?_⟩
  rw [hrefused _ rfl hbad, hname]

end Selection

end DenseMatmul
