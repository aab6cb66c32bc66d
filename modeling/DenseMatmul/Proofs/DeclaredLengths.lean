import DenseMatmul.Proofs.Channel
import DenseMatmul.Proofs.Handles
/-!
# Calls with declared lengths

A call that declares the lengths of its buffers makes nine checks, one after the other: that no extent
is negative, that no length is less than its matrix needs, and that no buffer of some length is null.
They are a list here (`callChecks`), and `seen_declared` says what they decide: the first one that fails
gives the error, with C as it was, and if none does C holds the product and past it what it held.

Each step of the call makes some of the checks, and a step after checks that pass goes on with the rest
(`afterChecks_bind`). The buffers are borrowed at the lengths declared, which may be more than the
matrices need; the product is that of the whole buffers, since nothing past the matrices bears on it.
-/

namespace DenseMatmul.Boundary

/-! ## Checks in order -/

/-- Whether a check fails, and the error if it does. -/
structure Check where
  fails : Bool
  error : CallError

/-- The error of the first check that fails. -/
def firstError (checks : List Check) : Option CallError := (checks.find? Check.fails).map Check.error

/-- What comes of checks: the error of the first that fails, and `x` if none does. -/
def afterChecks {α : Type} (checks : List Check) (x : α) : Except (Failure CallError) α :=
  match firstError checks with
  | none => .ok x
  | some e => .error (.refused e)

theorem firstError_append (xs ys : List Check) :
    firstError (xs ++ ys) = (firstError xs).or (firstError ys) := by
  simp only [firstError, List.find?_append]
  cases xs.find? Check.fails <;> rfl

theorem firstError_eq_none_iff {checks : List Check} :
    firstError checks = none ↔ ∀ check ∈ checks, check.fails = false := by
  simp [firstError, List.find?_eq_none]

theorem exists_of_firstError {checks : List Check} {e : CallError} (h : firstError checks = some e) :
    ∃ check ∈ checks, check.error = e := by
  obtain ⟨check, hfind, he⟩ := Option.map_eq_some_iff.1 h
  exact ⟨check, List.mem_of_find?_eq_some hfind, he⟩

theorem afterChecks_nil {α : Type} (x : α) : afterChecks [] x = .ok x := rfl

/-- A step that makes checks of its own, after others. -/
theorem afterChecks_bind {α β : Type} {xs ys : List Check} {x : α} {y : β}
    {f : α → Except (Failure CallError) β} (h : f x = afterChecks ys y) :
    afterChecks xs x >>= f = afterChecks (xs ++ ys) y := by
  unfold afterChecks
  rw [firstError_append]
  cases firstError xs with
  | none => exact h
  | some e => rfl

/-! ## The checks of a call -/

section Checks

variable (m n k : Int) (s : Shape) (aLen bLen cLen : Nat) (a b c : Option Buffer)

def signCheck (axis : Axis) (value : Int) : Check :=
  ⟨value < 0, .refused (.invalidArgument (.negativeExtent axis value))⟩

def lengthCheck (buffer : Operand) (required got : Nat) : Check :=
  ⟨got < required, .refused (.bufferTooShort buffer required got)⟩

def nullCheck (pointer : Pointer) (buffer : Option Buffer) (length : Nat) : Check :=
  ⟨buffer = none ∧ length ≠ 0, .nullBuffer pointer⟩

def signChecks : List Check := [signCheck .m m, signCheck .n n, signCheck .k k]

def lengthChecks : List Check :=
  [lengthCheck .a (s.m * s.k) aLen, lengthCheck .b (s.k * s.n) bLen, lengthCheck .c (s.m * s.n) cLen]

def nullChecks : List Check := [nullCheck .a a aLen, nullCheck .b b bLen, nullCheck .c c cLen]

/-- All checks of a call, in order. -/
def callChecks : List Check :=
  signChecks m n k ++ (lengthChecks ⟨m.toNat, n.toNat, k.toNat⟩ aLen bLen cLen ++
    nullChecks aLen bLen cLen a b c)

end Checks

/-- Extents, lengths and buffers that a call accepts. -/
structure Accepted (m n k : Int) (aLen bLen cLen : Nat) (a b c : Option Buffer) : Prop where
  m_nonneg : 0 ≤ m
  n_nonneg : 0 ≤ n
  k_nonneg : 0 ≤ k
  a_le : m * k ≤ aLen
  b_le : k * n ≤ bLen
  c_le : m * n ≤ cLen
  a_null : a = none → aLen = 0
  b_null : b = none → bLen = 0
  c_null : c = none → cLen = 0

variable {m n k : Int} {s : Shape} {aLen bLen cLen : Nat} {a b c : Option Buffer}

theorem toNat_mul_le_iff {x y : Int} {length : Nat} (hx : 0 ≤ x) (hy : 0 ≤ y) :
    x.toNat * y.toNat ≤ length ↔ x * y ≤ length := by
  rw [← Int.ofNat_le, Int.natCast_mul, Int.toNat_of_nonneg hx, Int.toNat_of_nonneg hy]

theorem firstError_signChecks_eq_none_iff :
    firstError (signChecks m n k) = none ↔ 0 ≤ m ∧ 0 ≤ n ∧ 0 ≤ k := by
  simp [firstError_eq_none_iff, signChecks, signCheck]

theorem firstError_lengthChecks_eq_none_iff : firstError (lengthChecks s aLen bLen cLen) = none ↔
    s.m * s.k ≤ aLen ∧ s.k * s.n ≤ bLen ∧ s.m * s.n ≤ cLen := by
  simp [firstError_eq_none_iff, lengthChecks, lengthCheck]

theorem firstError_nullChecks_eq_none_iff : firstError (nullChecks aLen bLen cLen a b c) = none ↔
    (a = none → aLen = 0) ∧ (b = none → bLen = 0) ∧ (c = none → cLen = 0) := by
  simp [firstError_eq_none_iff, nullChecks, nullCheck]

theorem firstError_callChecks_eq_none_iff :
    firstError (callChecks m n k aLen bLen cLen a b c) = none ↔
      Accepted m n k aLen bLen cLen a b c := by
  rw [callChecks, firstError_append, firstError_append, Option.or_eq_none_iff,
    Option.or_eq_none_iff, firstError_signChecks_eq_none_iff, firstError_lengthChecks_eq_none_iff,
    firstError_nullChecks_eq_none_iff]
  constructor
  · rintro ⟨⟨hm, hn, hk⟩, ⟨hla, hlb, hlc⟩, ha, hb, hc⟩
    exact ⟨hm, hn, hk, (toNat_mul_le_iff hm hk).1 hla, (toNat_mul_le_iff hk hn).1 hlb,
      (toNat_mul_le_iff hm hn).1 hlc, ha, hb, hc⟩
  · rintro ⟨hm, hn, hk, hla, hlb, hlc, ha, hb, hc⟩
    exact ⟨⟨hm, hn, hk⟩, ⟨(toNat_mul_le_iff hm hk).2 hla, (toNat_mul_le_iff hk hn).2 hlb,
      (toNat_mul_le_iff hm hn).2 hlc⟩, ha, hb, hc⟩

/-- The check blames the caller, in words that can be handed out. -/
def Check.Blames (check : Check) : Prop :=
  check.error.status = .invalidArgument ∧ Deliverable check.error.message

theorem blames_signCheck (axis : Axis) (value : Int) : (signCheck axis value).Blames :=
  ⟨rfl, deliverable_ofLengths (.negativeExtent ..)⟩

theorem blames_lengthCheck (buffer : Operand) (required got : Nat) :
    (lengthCheck buffer required got).Blames :=
  ⟨rfl, deliverable_ofLengths (.bufferTooShort ..)⟩

theorem blames_nullCheck (pointer : Pointer) (buffer : Option Buffer) (length : Nat) :
    (nullCheck pointer buffer length).Blames :=
  ⟨rfl, deliverable_nullBuffer pointer⟩

theorem blames_of_mem_callChecks {check : Check}
    (h : check ∈ callChecks m n k aLen bLen cLen a b c) : check.Blames := by
  simp only [callChecks, signChecks, lengthChecks, nullChecks, List.mem_append, List.mem_cons,
    List.not_mem_nil, or_false] at h
  rcases h with (rfl | rfl | rfl) | (rfl | rfl | rfl) | rfl | rfl | rfl
  iterate 3 exact blames_signCheck ..
  iterate 3 exact blames_lengthCheck ..
  iterate 3 exact blames_nullCheck ..

/-! ## What the steps of a call check -/

theorem extent_eq (axis : Axis) (value : Int) :
    (Shape.ofSigned.extent axis value).mapError asRefused =
      afterChecks [signCheck axis value] value.toNat := by
  unfold Shape.ofSigned.extent afterChecks firstError signCheck
  by_cases h : 0 ≤ value
  · simp [h]
  · simp [h, Int.not_le.1 h, asRefused]

theorem ofSigned_eq (m n k : Int) : (Shape.ofSigned m n k).mapError asRefused =
    afterChecks (signChecks m n k) ⟨m.toNat, n.toNat, k.toNat⟩ := by
  simp only [Shape.ofSigned, Logged.mapError_bind, extent_eq]
  exact afterChecks_bind (afterChecks_bind (afterChecks_bind (afterChecks_nil _).symm))

/-- The lengths of 32-bit extents are words, so what can fail is that the elements are not there. -/
theorem checkOperand_eq {buffer : Operand} {rows cols : Nat} (hr : rows < 0x80000000)
    (hc : cols < 0x80000000) (got : Nat) : (checkOperand buffer rows cols got).mapError asRefused =
      afterChecks [lengthCheck buffer (rows * cols) got] () := by
  unfold checkOperand checkLength afterChecks firstError lengthCheck
  rw [elementCount_of_lt hr hc]
  by_cases h : got < rows * cols
  · simp [h, bind, Except.bind, asRefused]
  · simp [h, bind, Except.bind]

theorem validate_eq_afterChecks (hm : s.m < 0x80000000) (hn : s.n < 0x80000000)
    (hk : s.k < 0x80000000) : (s.validate aLen bLen cLen).mapError asRefused =
      afterChecks (lengthChecks s aLen bLen cLen) () := by
  simp only [Shape.validate, Logged.mapError_bind, checkOperand_eq hm hk, checkOperand_eq hk hn,
    checkOperand_eq hm hn]
  exact afterChecks_bind (afterChecks_bind rfl)

theorem result_declaredLengths (hm : Int32 m) (hn : Int32 n) (hk : Int32 k) :
    (declaredLengths m n k aLen bLen cLen).result =
      afterChecks (signChecks m n k ++ lengthChecks ⟨m.toNat, n.toNat, k.toNat⟩ aLen bLen cLen)
        (⟨m.toNat, n.toNat, k.toNat⟩, aLen, bLen, cLen) := by
  simp only [declaredLengths, Logged.result_bind, result_refusable, ofSigned_eq]
  refine afterChecks_bind ?_
  rw [validate_eq_afterChecks (toNat_lt_of_int32 hm) (toNat_lt_of_int32 hn) (toNat_lt_of_int32 hk),
    ← List.append_nil (lengthChecks ..)]
  exact afterChecks_bind (afterChecks_nil _).symm

theorem fits_of_firstError (hm : Int32 m) (hn : Int32 n) (hk : Int32 k)
    (h : firstError (lengthChecks ⟨m.toNat, n.toNat, k.toNat⟩ aLen bLen cLen) = none) :
    Shape.Fits ⟨m.toNat, n.toNat, k.toNat⟩ aLen bLen cLen := by
  have hvalidate :
      (Shape.validate ⟨m.toNat, n.toNat, k.toNat⟩ aLen bLen cLen).mapError asRefused = _ :=
    validate_eq_afterChecks (toNat_lt_of_int32 hm) (toNat_lt_of_int32 hn) (toNat_lt_of_int32 hk)
  rw [afterChecks, h] at hvalidate
  exact Shape.validate_eq_ok_iff_fits.1 (Logged.mapError_eq_ok_iff.1 hvalidate)

/-- What is borrowed of a buffer that is null only where it may be. -/
def lent (buffer : Option Buffer) (length : Nat) : Buffer := (buffer.getD #[]).extract 0 length

theorem result_borrow (pointer : Pointer) {buffer : Option Buffer} {length : Nat}
    (h : Holds buffer length) : (borrow pointer buffer length).result =
      afterChecks [nullCheck pointer buffer length] (lent buffer length) := by
  unfold borrow afterChecks firstError nullCheck lent
  by_cases hzero : length = 0
  · simp [hzero]
  · cases buffer with
    | none => simp [hzero]
    | some data =>
      have hslice : data.slice 0 length = .ok (data.extract 0 length) :=
        Buffer.slice_eq_ok_iff.2 ⟨Nat.zero_le _, h data rfl, rfl⟩
      simp [hzero, hslice]

theorem result_borrowAll (ha : Holds a aLen) (hb : Holds b bLen) (hc : Holds c cLen) :
    (do return (← borrow .a a aLen, ← borrow .b b bLen, ← borrow .c c cLen) :
      Logged CallError (Buffer × Buffer × Buffer)).result =
      afterChecks (nullChecks aLen bLen cLen a b c) (lent a aLen, lent b bLen, lent c cLen) := by
  simp only [Logged.result_bind, result_borrow _ ha, result_borrow _ hb, result_borrow _ hc]
  exact afterChecks_bind (afterChecks_bind (afterChecks_bind (afterChecks_nil _).symm))

/-! ## The whole call -/

theorem size_lent {buffer : Option Buffer} {length : Nat} (h : Holds buffer length)
    (hnull : buffer = none → length = 0) : (lent buffer length).size = length := by
  cases buffer with
  | none => simp [lent, hnull rfl]
  | some data =>
    have hsize := h data rfl
    simp [lent, hsize]

theorem lent_place {buffer : Option Buffer} {length place : Nat} (h : place < length) :
    (lent buffer length)[place]? = (buffer.getD #[])[place]? := by
  rw [lent, Array.getElem?_extract]
  split
  · rw [Nat.zero_add]
  · rw [Array.getElem?_eq_none (by omega)]

/-- The product of what is borrowed, given back, is the product of the whole buffers. -/
theorem giveBack_product (ha : s.m * s.k ≤ aLen) (hb : s.k * s.n ≤ bLen) (hc : s.m * s.n ≤ cLen)
    (hholds : Holds c cLen) :
    giveBack (Reference.product s (lent a aLen) (lent b bLen) (lent c cLen)) c =
      c.map (Reference.product s (a.getD #[]) (b.getD #[])) := by
  cases c with
  | none => rfl
  | some data =>
    have hle : cLen ≤ data.size := hholds data rfl
    have hsize : (lent (some data) cLen).size = cLen := size_lent hholds nofun
    have hfront : (Reference.product s (lent a aLen) (lent b bLen) (lent (some data) cLen)).size =
        cLen := (Reference.size_product ..).trans hsize
    have haLent : ∀ place < s.m * s.k, (lent a aLen)[place]? = (a.getD #[])[place]? :=
      fun place hplace => lent_place (by omega)
    have hbLent : ∀ place < s.k * s.n, (lent b bLen)[place]? = (b.getD #[])[place]? :=
      fun place hplace => lent_place (by omega)
    refine congrArg some (Step.eq_fill (by omega) (fun cell hcell => ?_) fun cell hcell => ?_)
    · rw [Array.getElem?_append_left (by omega), Reference.product, Step.fill_of_lt hcell (by omega),
        Reference.element_congr haLent hbLent hcell]
    · rcases Nat.lt_or_ge cell cLen with hlt | hge
      · rw [Array.getElem?_append_left (by omega), Reference.product_past hcell]
        exact lent_place hlt
      · -- Past what was borrowed.
        rw [Array.getElem?_append_right (by omega), hfront, Array.getElem?_extract]
        split
        · rw [Nat.add_sub_cancel' hge]
        · rw [Array.getElem?_eq_none (by omega)]

/-- Once the extents and the lengths have passed, all that can go wrong is that a buffer is null. -/
theorem seen_borrowed (ha : Holds a aLen) (hb : Holds b bLen) (hc : Holds c cLen)
    (hlengths : s.Fits aLen bLen cLen) :
    seen (multiplyBorrowed .reference s aLen bLen cLen a b c) =
      match firstError (nullChecks aLen bLen cLen a b c) with
      | none => (.ok (), c.map (Reference.product s (a.getD #[]) (b.getD #[])))
      | some e => (.error (.refused e), c) := by
  have hborrowed := result_borrowAll ha hb hc
  rw [afterChecks] at hborrowed
  unfold multiplyBorrowed
  dsimp only
  cases hnulls : firstError (nullChecks aLen bLen cLen a b c) with
  | some e =>
    rw [hnulls] at hborrowed
    rw [hborrowed]
    rfl
  | none =>
    obtain ⟨hanull, hbnull, hcnull⟩ := firstError_nullChecks_eq_none_iff.1 hnulls
    have hfits : s.Fits (lent a aLen).size (lent b bLen).size (lent c cLen).size := by
      rwa [size_lent ha hanull, size_lent hb hbnull, size_lent hc hcnull]
    obtain ⟨hresult, hproduct⟩ := Reference.multiplyChecked_of_fits hfits
    rw [hnulls] at hborrowed
    rw [hborrowed]
    change (Except.mapError _ (Reference.multiplyChecked ..).answer.result,
      giveBack (Reference.multiplyChecked ..).c c) = _
    rw [hresult, hproduct, giveBack_product hlengths.a_le hlengths.b_le hlengths.c_le hc]
    rfl

/-- All that can be told of a call follows from its first check that fails. -/
theorem seen_declared (hm : Int32 m) (hn : Int32 n) (hk : Int32 k) (ha : Holds a aLen)
    (hb : Holds b bLen) (hc : Holds c cLen) :
    seen (multiplyWith .reference (declaredLengths m n k aLen bLen cLen) a b c) =
      match firstError (callChecks m n k aLen bLen cLen a b c) with
      | none =>
        (.ok (), c.map (Reference.product ⟨m.toNat, n.toNat, k.toNat⟩ (a.getD #[]) (b.getD #[])))
      | some e => (.error (.refused e), c) := by
  have hresult : (declaredLengths m n k aLen bLen cLen).result = _ :=
    result_declaredLengths hm hn hk
  rw [afterChecks] at hresult
  rw [callChecks, ← List.append_assoc, firstError_append]
  unfold multiplyWith
  cases hfirst : firstError (signChecks m n k ++
      lengthChecks ⟨m.toNat, n.toNat, k.toNat⟩ aLen bLen cLen) with
  | some e =>
    rw [hfirst] at hresult
    rw [hresult]
    rfl
  | none =>
    rw [hfirst] at hresult
    rw [hresult]
    rw [firstError_append, Option.or_eq_none_iff] at hfirst
    exact seen_borrowed ha hb hc (fits_of_firstError hm hn hk hfirst.2)

/-- C after a product: what belongs into the cells of the product, which is zero where there is nothing
to sum, and past them what was there. -/
structure HoldsProduct (s : Shape) (a b old new : Buffer) : Prop where
  size : new.size = old.size
  product : ∀ i < s.m, ∀ j < s.n, new[i * s.n + j]? = some (Reference.dot s a b i j)
  zeros : s.k = 0 → ∀ cell < s.m * s.n, new[cell]? = some .zero
  past : ∀ place, s.m * s.n ≤ place → new[place]? = old[place]?

theorem holdsProduct_product {a b data : Buffer} (h : s.m * s.n ≤ data.size) :
    HoldsProduct s a b data (Reference.product s a b data) where
  size := Reference.size_product ..
  product i hi j hj := Reference.product_place hi hj h
  zeros hk cell hcell := by
    have hzero : Reference.element s a b cell = .zero := by
      rw [Reference.element, Reference.dot, hk, Reference.sumTo]
    rw [Reference.product, Step.fill_of_lt hcell h, hzero]
  past place := Reference.product_past

/-- What comes of a call that declares the lengths of its buffers, where those that are not null have
them. It goes well exactly if all is accepted. Then C holds the product, and the channel of the last
message is left alone. Otherwise the caller is blamed, C is as it was, and the message is that of the
first check that fails, in the order of the signs of M, N and K, the lengths of A, B and C, and the nulls
of these. -/
theorem declared_call_exact (session : Session) (machineThreads : Nat) (hm : Int32 m) (hn : Int32 n)
    (hk : Int32 k) (ha : Holds a aLen) (hb : Holds b bLen) (hc : Holds c cLen) :
    let s : Shape := ⟨m.toNat, n.toNat, k.toNat⟩
    ∃ status after message,
      session.call machineThreads (.multiplyChecked m n k aLen bLen cLen a b c) =
        (.product status after, message) ∧
      (status = .ok ↔ Accepted m n k aLen bLen cLen a b c) ∧
      (status = .ok → message = session.lastError ∧ (c = none → after = none) ∧
        ∀ data, c = some data → ∃ out, after = some out ∧
          HoldsProduct s (a.getD #[]) (b.getD #[]) data out) ∧
      (status ≠ .ok → status = .invalidArgument ∧ after = c ∧
        ∃ e, firstError (callChecks m n k aLen bLen cLen a b c) = some e ∧
          message = some e.message) := by
  intro s
  have hcall := session.call_multiplyChecked machineThreads a b c m n k aLen bLen cLen
  rw [seen_declared hm hn hk ha hb hc] at hcall
  rw [← firstError_callChecks_eq_none_iff]
  cases hfirst : firstError (callChecks m n k aLen bLen cLen a b c) with
  | none =>
    rw [hfirst] at hcall
    refine ⟨.ok, _, _, hcall, by simp, fun _ => ⟨rfl, fun h => by rw [h]; rfl, ?_⟩, by simp⟩
    rintro data rfl
    have haccepted := firstError_callChecks_eq_none_iff.1 hfirst
    have hlength := (toNat_mul_le_iff haccepted.m_nonneg haccepted.n_nonneg).2 haccepted.c_le
    exact ⟨_, rfl, holdsProduct_product (Nat.le_trans hlength (hc data rfl))⟩
  | some e =>
    rw [hfirst] at hcall
    obtain ⟨check, hmem, rfl⟩ := exists_of_firstError hfirst
    obtain ⟨hstatus, hmessage⟩ := blames_of_mem_callChecks hmem
    have htold : told session.lastError (.error (.refused check.error), c) =
        (.product .invalidArgument c, some check.error.message) := by
      rw [told, messageAfter_eq, ← hstatus]
      exact congrArg _ (channelAfter_error hmessage _)
    refine ⟨.invalidArgument, c, _, hcall.trans htold, by simp, by simp, fun _ => ?_⟩
    exact ⟨rfl, rfl, check.error, rfl, rfl⟩

/-- Buffers longer than they have to be, and then a B that is declared too short beside an A that is
null. -/
theorem declared_call_exact_long_and_short :
    let session : Session := { lastError := some "kernel is null" }
    let a : Buffer := #[.one, .one, .nan]
    let b : Buffer := #[.one, .one]
    let c : Buffer := #[.nan, .one]
    (∃ out, session.call 4 (.multiplyChecked 1 1 2 3 2 2 a b c) =
        (.product .ok (some out), some "kernel is null") ∧
      out[0]? = some ⟨0x40000000⟩ ∧ out[1]? = some .one) ∧
    session.call 4 (.multiplyChecked 1 1 2 2 1 2 none b c) =
      (.product .invalidArgument c, some "buffer B too short: need 2 elements, got 1") := by
  intro session a b c
  have hone : Int32 1 := by decide
  have htwo : Int32 2 := by decide
  have holds : ∀ data length, length ≤ data.size → Holds (some data) length := by
    rintro data length hle _ ⟨⟩
    exact hle
  have hnull : Holds none 2 := nofun
  constructor
  · obtain ⟨status, after, message, hcall, hok, hproduct, -⟩ :=
      declared_call_exact session 4 hone hone htwo (holds a 3 (by decide)) (holds b 2 (by decide))
        (holds c 2 (by decide))
    have hstatus : status = .ok :=
      hok.2 ⟨by decide, by decide, by decide, by decide, by decide, by decide, nofun, nofun, nofun⟩
    obtain ⟨rfl, -, hleft⟩ := hproduct hstatus
    obtain ⟨out, rfl, hout⟩ := hleft c rfl
    have hsum : Reference.dot ⟨1, 1, 2⟩ a b 0 0 = ⟨0x40000000⟩ := by decide
    refine ⟨out, hstatus ▸ hcall, ?_, hout.past 1 (by decide)⟩
    rw [← hsum]
    exact hout.product 0 (by decide) 0 (by decide)
  · obtain ⟨status, after, message, hcall, hok, -, hrefused⟩ :=
      declared_call_exact session 4 hone hone htwo hnull (holds b 1 (by decide))
        (holds c 2 (by decide))
    have hstatus : status ≠ .ok := fun h => absurd (hok.1 h).b_le (by decide)
    obtain ⟨rfl, rfl, e, he, rfl⟩ := hrefused hstatus
    obtain rfl : CallError.refused (.bufferTooShort .b 2 1) = e := Option.some.inj he
    exact hcall

end DenseMatmul.Boundary
