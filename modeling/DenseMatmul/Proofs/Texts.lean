import Mathlib.Data.List.DropRight
import DenseMatmul.Text.Blank
import DenseMatmul.Text.Numeral
/-!
# Trimmed texts and numerals

What trimming leaves of a text is the one part of it that has only blanks around it and none at its own
ends (`trim_eq_iff`). A numeral is read digit by digit, and given up at the first one that takes the value
to the limit. The value never falls as digits are appended, so a numeral is read exactly if what all its
digits stand for is below the limit (`readNumeral_eq_ok_iff`).
-/

namespace DenseMatmul.Text

variable {s core : List Char} {limit value : Nat}

/-! ## Trimmed texts -/

/-- All of the text around `core` is blank, and `core` neither begins nor ends with a blank. -/
structure IsCore (core s : List Char) : Prop where
  padded : ∃ before after, s = before ++ core ++ after ∧ (∀ c ∈ before, isBlank c = true) ∧
    ∀ c ∈ after, isBlank c = true
  head : ∀ c ∈ core.head?, isBlank c = false
  last : ∀ c ∈ core.getLast?, isBlank c = false

theorem trim_eq_rdropWhile (s : List Char) : trim s = (s.dropWhile isBlank).rdropWhile isBlank := rfl

theorem head?_dropWhile_isBlank {c : Char} (h : (s.dropWhile isBlank).head? = some c) :
    isBlank c = false := by
  have hstop := List.head?_dropWhile_not isBlank s
  rwa [h] at hstop

theorem isCore_trim (s : List Char) : IsCore (trim s) s where
  padded := by
    refine ⟨s.takeWhile isBlank, (s.dropWhile isBlank).rtakeWhile isBlank, ?_, ?_, ?_⟩
    · rw [trim_eq_rdropWhile, List.append_assoc, List.rdropWhile_append_rtakeWhile,
        List.takeWhile_append_dropWhile]
    · intro c hc
      exact List.mem_takeWhile_imp hc
    · intro c hc
      exact List.mem_rtakeWhile_imp hc
  head := by
    intro c hc
    obtain ⟨after, hafter⟩ := List.rdropWhile_prefix isBlank (s.dropWhile isBlank)
    apply head?_dropWhile_isBlank (s := s)
    rw [← hafter, List.head?_append, ← trim_eq_rdropWhile, hc]
    rfl
  last := by
    intro c hc
    apply head?_dropWhile_isBlank (s := (s.dropWhile isBlank).reverse)
    rwa [trim, List.getLast?_reverse] at hc

theorem dropWhile_padded {before rest : List Char} (hbefore : ∀ c ∈ before, isBlank c = true)
    (hrest : ∀ c ∈ rest.head?, isBlank c = false) : (before ++ rest).dropWhile isBlank = rest := by
  rw [List.dropWhile_append_of_pos hbefore]
  cases rest with
  | nil => rfl
  | cons c rest => exact List.dropWhile_cons_of_neg (by simpa using hrest c rfl)

theorem IsCore.trim_eq (h : IsCore core s) : trim s = core := by
  obtain ⟨⟨before, after, rfl, hbefore, hafter⟩, hhead, hlast⟩ := h
  cases core with
  | nil =>
    have hblank : (before ++ [] ++ after).dropWhile isBlank = [] := by
      rw [List.dropWhile_eq_nil_iff]
      intro c hc
      rw [List.append_nil, List.mem_append] at hc
      exact hc.elim (hbefore c) (hafter c)
    rw [trim, hblank]
    rfl
  | cons first rest =>
    have hfront : (before ++ (first :: rest ++ after)).dropWhile isBlank = first :: rest ++ after :=
      dropWhile_padded hbefore hhead
    have hback : (after.reverse ++ (first :: rest).reverse).dropWhile isBlank =
        (first :: rest).reverse := by
      apply dropWhile_padded
      · intro c hc
        exact hafter c (List.mem_reverse.1 hc)
      · rwa [List.head?_reverse]
    rw [trim, List.append_assoc, hfront, List.reverse_append, hback, List.reverse_reverse]

theorem trim_eq_iff : trim s = core ↔ IsCore core s :=
  ⟨fun h => h ▸ isCore_trim s, IsCore.trim_eq⟩

/-! ## Numerals -/

/-- The text is one or more ASCII digits, after at most one plus sign, and they stand for the value. -/
def Denotes (s : List Char) (value : Nat) : Prop :=
  ∃ digits, (s = digits ∨ s = '+' :: digits) ∧ digits ≠ [] ∧ (∀ c ∈ digits, c.isDigit = true) ∧
    Nat.ofDigitChars 10 digits 0 = value

theorem digit?_eq (c : Char) :
    digit? c = if c.isDigit then some (c.toNat - '0'.toNat) else none := by
  unfold digit?
  refine if_congr ?_ rfl rfl
  rw [Char.isDigit_iff_toNat]
  rfl

theorem le_ofDigitChars (digits : List Char) (start : Nat) :
    start ≤ Nat.ofDigitChars 10 digits start := by
  induction digits generalizing start with
  | nil => exact Nat.le_refl _
  | cons c rest ih =>
    have hrest := ih (10 * start + (c.toNat - '0'.toNat))
    rw [Nat.ofDigitChars_cons]
    omega

theorem readDigits_eq_ok_iff {digits : List Char} {start : Nat} (hstart : start < limit) :
    readDigits limit digits start = .ok value ↔
      (∀ c ∈ digits, c.isDigit = true) ∧ Nat.ofDigitChars 10 digits start = value ∧
        value < limit := by
  -- On the digits, from any value below the limit that was read before them.
  induction digits generalizing start with
  | nil =>
    simp only [readDigits, Except.ok.injEq, List.not_mem_nil, false_imp_iff, forall_const, true_and,
      Nat.ofDigitChars_nil]
    constructor
    · rintro rfl
      exact ⟨rfl, hstart⟩
    · exact And.left
  | cons c rest ih =>
    rw [readDigits, digit?_eq, Nat.ofDigitChars_cons, List.forall_mem_cons]
    by_cases hdigit : c.isDigit = true
    · rw [if_pos hdigit]
      dsimp only
      split
      · rename_i hlt
        simp only [ih hlt, hdigit, true_and]
      · rename_i hge
        simp only [reduceCtorEq, false_iff]
        rintro ⟨-, hvalue, hlt⟩
        have hle := le_ofDigitChars rest (10 * start + (c.toNat - '0'.toNat))
        omega
    · rw [if_neg hdigit]
      simp only [reduceCtorEq, false_iff]
      exact fun h => hdigit h.1.1

theorem denotes_plus_iff {digits : List Char} :
    Denotes ('+' :: digits) value ↔ digits ≠ [] ∧ (∀ c ∈ digits, c.isDigit = true) ∧
      Nat.ofDigitChars 10 digits 0 = value := by
  constructor
  · rintro ⟨digits', rfl | hs, hne, hdigits, hvalue⟩
    · -- The sign itself is no digit.
      exact absurd (hdigits '+' List.mem_cons_self) (by decide)
    · obtain rfl := List.tail_eq_of_cons_eq hs
      exact ⟨hne, hdigits, hvalue⟩
  · rintro ⟨hne, hdigits, hvalue⟩
    exact ⟨digits, .inr rfl, hne, hdigits, hvalue⟩

theorem denotes_unsigned_iff (h : s.head? ≠ some '+') :
    Denotes s value ↔ s ≠ [] ∧ (∀ c ∈ s, c.isDigit = true) ∧ Nat.ofDigitChars 10 s 0 = value := by
  constructor
  · rintro ⟨digits, rfl | rfl, hne, hdigits, hvalue⟩
    · exact ⟨hne, hdigits, hvalue⟩
    · exact absurd rfl h
  · rintro ⟨hne, hdigits, hvalue⟩
    exact ⟨s, .inl rfl, hne, hdigits, hvalue⟩

theorem readNumeral_eq_ok_iff (hlimit : 0 < limit) :
    readNumeral limit s = .ok value ↔ Denotes s value ∧ value < limit := by
  unfold readNumeral
  split
  case h_1 => simp [denotes_unsigned_iff (s := []) nofun]
  case h_2 => simp [denotes_plus_iff]
  case h_3 rest hne =>
    have hrest : rest ≠ [] := fun h => hne (h ▸ rfl)
    rw [readDigits_eq_ok_iff hlimit, denotes_plus_iff]
    simp [hrest, and_assoc]
  case h_4 hempty hsign hplus =>
    have hhead : s.head? ≠ some '+' := by
      intro h
      obtain ⟨rest, rfl⟩ := List.head?_eq_some_iff.1 h
      exact hplus rest rfl
    have hne : s ≠ [] := hempty
    rw [readDigits_eq_ok_iff hlimit, denotes_unsigned_iff hhead]
    simp [hne, and_assoc]

end DenseMatmul.Text
