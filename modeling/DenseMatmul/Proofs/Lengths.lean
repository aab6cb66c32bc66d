import DenseMatmul.Shape
/-!
# Which lengths are refused

A call checks six things of its buffers, for each of A, B and C that its length is a word and then
that the buffer has it. `validate_eq_first` says that the first check to fail decides the error,
`validate_eq_ok_iff_fits` that without one the buffers fit. Sizes of buffers are words, so for them
only the second check of each buffer counts (`fits_iff`).
-/

namespace DenseMatmul.Shape

/-- Whether a check fails, and the error if it does. -/
structure Check where
  fails : Bool
  error : MatmulError

/-- The checks of one buffer: that its length is a word, then that the buffer has it. -/
def operandChecks (buffer : Operand) (rows cols got : Nat) : List Check :=
  [⟨wordLimit ≤ rows * cols, .dimensionOverflow rows cols⟩,
    ⟨got < rows * cols, .bufferTooShort buffer (rows * cols) got⟩]

/-- The checks of a call with buffers of these sizes, in order. -/
def checks (s : Shape) (aSize bSize cSize : Nat) : List Check :=
  operandChecks .a s.m s.k aSize ++ operandChecks .b s.k s.n bSize ++ operandChecks .c s.m s.n cSize

/-- The error of the first check that fails. -/
def refusal (checks : List Check) : Option MatmulError := (checks.find? Check.fails).map Check.error

/-- Buffers of these sizes are long enough, and the lengths needed are words. -/
structure Fits (s : Shape) (aSize bSize cSize : Nat) : Prop where
  a_word : s.m * s.k < wordLimit
  a_le : s.m * s.k ≤ aSize
  b_word : s.k * s.n < wordLimit
  b_le : s.k * s.n ≤ bSize
  c_word : s.m * s.n < wordLimit
  c_le : s.m * s.n ≤ cSize

variable {s : Shape} {aSize bSize cSize : Nat}

theorem refusal_append (xs ys : List Check) :
    refusal (xs ++ ys) = (refusal xs).or (refusal ys) := by
  simp only [refusal, List.find?_append]
  cases xs.find? Check.fails <;> rfl

theorem checkOperand_eq_first (buffer : Operand) (rows cols got : Nat) :
    checkOperand buffer rows cols got =
      (refusal (operandChecks buffer rows cols got)).elim (.ok ()) .error := by
  unfold checkOperand elementCount checkLength refusal operandChecks
  by_cases h : rows * cols < wordLimit
  · by_cases h' : got < rows * cols <;> simp [h, h', bind, Except.bind]
  · simp [List.find?, h, Nat.not_lt.1 h, bind, Except.bind]

theorem validate_eq_first (s : Shape) (aSize bSize cSize : Nat) :
    s.validate aSize bSize cSize = (refusal (s.checks aSize bSize cSize)).elim (.ok ()) .error := by
  simp only [validate, checkOperand_eq_first, checks, refusal_append]
  cases refusal (operandChecks .a s.m s.k aSize) with
  | some e => rfl
  | none =>
    cases refusal (operandChecks .b s.k s.n bSize) with
    | some e => rfl
    | none => rfl

theorem validate_eq_ok_iff_fits :
    s.validate aSize bSize cSize = .ok () ↔ s.Fits aSize bSize cSize := by
  rw [validate_eq_ok_iff]
  exact ⟨fun ⟨⟨h1, h2⟩, ⟨h3, h4⟩, h5, h6⟩ => ⟨h1, h2, h3, h4, h5, h6⟩,
    fun h => ⟨⟨h.a_word, h.a_le⟩, ⟨h.b_word, h.b_le⟩, h.c_word, h.c_le⟩⟩

/-- Buffers whose sizes are words fit as soon as they are long enough. -/
theorem fits_iff (ha : aSize < wordLimit) (hb : bSize < wordLimit) (hc : cSize < wordLimit) :
    s.Fits aSize bSize cSize ↔ s.m * s.k ≤ aSize ∧ s.k * s.n ≤ bSize ∧ s.m * s.n ≤ cSize :=
  ⟨fun h => ⟨h.a_le, h.b_le, h.c_le⟩,
    fun ⟨h1, h2, h3⟩ => ⟨by omega, h1, by omega, h2, by omega, h3⟩⟩

/-- Where the buffers do not fit, the first check that fails gives the error. -/
theorem exists_refusal (h : ¬ s.Fits aSize bSize cSize) :
    ∃ e, refusal (s.checks aSize bSize cSize) = some e ∧ s.validate aSize bSize cSize = .error e := by
  rw [← validate_eq_ok_iff_fits, validate_eq_first] at h
  cases he : refusal (s.checks aSize bSize cSize) with
  | none => rw [he] at h; exact absurd rfl h
  | some e => exact ⟨e, rfl, by rw [validate_eq_first, he]; rfl⟩

/-! ## Exact lengths -/

/-- The lengths of A, B and C. -/
def lengths (s : Shape) : Except MatmulError (Nat × Nat × Nat) :=
  return (← s.aLen, ← s.bLen, ← s.cLen)

theorem checkOperand_exact (buffer : Operand) (rows cols : Nat) :
    checkOperand buffer rows cols (rows * cols) = (elementCount rows cols).map fun _ => () := by
  unfold checkOperand elementCount checkLength
  split
  · simp [bind, Except.bind, Except.map]
  · rfl

/-- Declaring the lengths that are needed is asking for them. -/
theorem validate_exact (s : Shape) :
    (s.validate (s.m * s.k) (s.k * s.n) (s.m * s.n)).map (fun _ => (s.m * s.k, s.k * s.n, s.m * s.n)) =
      s.lengths := by
  have h : ∀ {rows cols n}, elementCount rows cols = .ok n → rows * cols = n :=
    fun hn => (elementCount_eq_ok_iff.1 hn).2
  simp only [validate, checkOperand_exact, lengths, aLen, bLen, cLen]
  cases ha : elementCount s.m s.k with
  | error e => rfl
  | ok _ =>
    cases hb : elementCount s.k s.n with
    | error e => rfl
    | ok _ =>
      cases hc : elementCount s.m s.n with
      | error e => rfl
      | ok _ => rw [h ha, h hb, h hc]; rfl

end DenseMatmul.Shape
