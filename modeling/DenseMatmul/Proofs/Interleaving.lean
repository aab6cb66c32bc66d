import DenseMatmul.Proofs.Stores
import Mathlib.Logic.Relation
/-!
# Bands side by side

Bands that run at the same time share one buffer. A `Flight` is what there is of them at one moment:
the steps each has still to make, whether one has met a fault, and the buffer. `Next` lets any one
band make its next step, so a chain of `Next` is one order in which single stores can come, and
`Interleaved` holds of every run such a chain can end in. No step reads the buffer.

`interleaved_eq_fill` says that the order cannot show where all bands store the same value at the
same index. `schedules_runAll` says that one band after the other is one of the orders.
-/

namespace DenseMatmul.Step

open Relation

structure Flight where
  /-- What each band has still to do. -/
  pending : List (List Step)
  /-- Whether some band has met a fault. -/
  stopped : Bool
  c : Buffer

namespace Flight

/-- Some band makes its next step. A fault ends the band that meets it, and no other. -/
inductive Next : Flight → Flight → Prop
  | store {before after : List (List Step)} {step : Step} {rest : List Step} {stopped : Bool}
      {c : Buffer} : (run [step] c).result = .ok () →
      Next ⟨before ++ (step :: rest) :: after, stopped, c⟩
        ⟨before ++ rest :: after, stopped, (run [step] c).c⟩
  | fault {before after : List (List Step)} {step : Step} {rest : List Step} {stopped : Bool}
      {c : Buffer} {f : Fault} : (run [step] c).result = .error f →
      Next ⟨before ++ (step :: rest) :: after, stopped, c⟩
        ⟨before ++ [] :: after, true, (run [step] c).c⟩

/-- Every band is through. -/
def Landed (x : Flight) : Prop := ∀ steps ∈ x.pending, steps = []

/-- The run so far. -/
def outcome (x : Flight) : Run := ⟨if x.stopped then .error .bandHalted else .ok (), x.c⟩

/-- The number of steps still to make. -/
def remaining (x : Flight) : Nat := x.pending.flatten.length

/-- No order gets stuck. -/
theorem exists_next {x : Flight} (h : ¬ x.Landed) : ∃ y, Next x y := by
  obtain ⟨pending, stopped, c⟩ := x
  simp only [Landed, Classical.not_forall] at h
  obtain ⟨steps, hmem, hne⟩ := h
  obtain ⟨before, after, rfl⟩ := List.append_of_mem hmem
  obtain ⟨step, rest, rfl⟩ := List.exists_cons_of_ne_nil hne
  cases hr : (run [step] c).result with
  | ok _ => exact ⟨_, .store hr⟩
  | error f => exact ⟨_, .fault hr⟩

/-- No order goes on for ever. -/
theorem Next.remaining_lt {x y : Flight} (h : Next x y) : y.remaining < x.remaining := by
  cases h <;>
    simp only [remaining, List.flatten_append, List.flatten_cons, List.length_append,
      List.length_cons, List.length_nil] <;>
    omega

/-- Whatever the order was so far, it can be brought to an end. -/
theorem exists_landed (x : Flight) : ∃ y, ReflTransGen Next x y ∧ y.Landed := by
  induction hn : x.remaining using Nat.strongRecOn generalizing x with
  | ind n ih =>
    by_cases h : x.Landed
    · exact ⟨x, .refl, h⟩
    · obtain ⟨y, hy⟩ := exists_next h
      obtain ⟨z, hz, hl⟩ := ih y.remaining (hn ▸ hy.remaining_lt) y rfl
      exact ⟨z, .head hy hz, hl⟩

end Flight

/-- Some order of the steps of these lists, each list keeping its own, ends in the run. -/
def Interleaved (lists : List (List Step)) (c : Buffer) (r : Run) : Prop :=
  ∃ x, ReflTransGen Flight.Next ⟨lists, false, c⟩ x ∧ x.Landed ∧ x.outcome = r

/-- `runBands` makes the steps of any lists in some such order. -/
def Schedules (runBands : List (List Step) → Buffer → Run) : Prop :=
  ∀ lists c, Interleaved lists c (runBands lists c)

/-! ## One band after the other -/

namespace Flight

/-- One band makes all its steps while the others wait. -/
theorem next_list (before after : List (List Step)) (steps : List Step) (stopped : Bool)
    (c : Buffer) :
    ReflTransGen Next ⟨before ++ steps :: after, stopped, c⟩
      ⟨before ++ [] :: after, stopped || !(run steps c).result.isOk, (run steps c).c⟩ := by
  induction steps generalizing stopped c with
  | nil =>
    have h : (stopped || !(run [] c).result.isOk) = stopped := by simp [run, Except.isOk, Except.toBool]
    rw [h]
    exact .refl
  | cons step rest ih =>
    rw [run_cons]
    cases hr : (run [step] c).result with
    | ok _ => exact .head (.store hr) (ih stopped _)
    | error f =>
      have h : (stopped || !(Except.error f : Except Fault Unit).isOk) = true := by
        simp [Except.isOk, Except.toBool]
      simp only [h]
      exact .single (.fault hr)

theorem outcome_andThen (pending rest : List (List Step)) (steps : List Step) (stopped : Bool)
    (c : Buffer) :
    (outcome ⟨pending, stopped, c⟩).andThen steps =
      outcome ⟨rest, stopped || !(run steps c).result.isOk, (run steps c).c⟩ := by
  cases hr : run steps c with
  | mk result out =>
    cases stopped <;> cases result <;> simp [outcome, Run.andThen, hr, Except.isOk, Except.toBool]

theorem next_lists (done lists : List (List Step)) (stopped : Bool) (c : Buffer) :
    ∃ x, ReflTransGen Next ⟨done ++ lists, stopped, c⟩ x ∧
      x.pending = done ++ lists.map (fun _ => []) ∧
      x.outcome = lists.foldl Run.andThen (outcome ⟨[], stopped, c⟩) := by
  induction lists generalizing done stopped c with
  | nil => exact ⟨_, .refl, rfl, rfl⟩
  | cons steps lists ih =>
    obtain ⟨x, hx, hp, ho⟩ := ih (done ++ [[]]) (stopped || !(run steps c).result.isOk) (run steps c).c
    refine ⟨x, .trans (next_list done lists steps stopped c) ?_, by simpa using hp, ?_⟩
    · simpa using hx
    · rw [ho, List.foldl_cons, outcome_andThen [] []]

end Flight

theorem schedules_runAll : Schedules runAll := by
  intro lists c
  obtain ⟨x, hx, hp, ho⟩ := Flight.next_lists [] lists false c
  refine ⟨x, hx, fun steps hs => ?_, ho⟩
  rw [hp] at hs
  simp only [List.nil_append, List.mem_map] at hs
  obtain ⟨_, _, rfl⟩ := hs
  rfl

/-! ## Bands that agree on every value -/

/-- The lists store the values of `f`, at every index below `count` and at no other. -/
structure Covers (f : Nat → Single) (count : Nat) (lists : List (List Step)) : Prop where
  writes : ∀ steps ∈ lists, ∀ step ∈ steps, ∃ i < count, step = write f i
  every : ∀ i < count, ∃ steps ∈ lists, write f i ∈ steps

/-- What holds of such bands at every moment: no fault so far, and an index below `count` holds its
value by now or will be stored at. -/
structure Settling (f : Nat → Single) (count : Nat) (old : Buffer) (x : Flight) : Prop where
  running : x.stopped = false
  size : x.c.size = old.size
  writes : ∀ steps ∈ x.pending, ∀ step ∈ steps, ∃ i < count, step = write f i
  settled : ∀ i < count, x.c[i]? = some (f i) ∨ ∃ steps ∈ x.pending, write f i ∈ steps
  past : ∀ i, count ≤ i → x.c[i]? = old[i]?

variable {f : Nat → Single} {count : Nat} {old : Buffer}

theorem write_inj {i j : Nat} (h : write f i = write f j) : i = j := by
  simp only [write, Except.ok.injEq, Store.mk.injEq] at h
  exact h.1

/-- The band that makes a step is the only one whose steps change. -/
theorem mem_others {before after : List (List Step)} {here steps : List Step}
    (h : steps ∈ before ++ here :: after) :
    steps = here ∨ ∀ there, steps ∈ before ++ there :: after := by
  rcases List.mem_append.1 h with hs | hs
  · exact .inr fun _ => List.mem_append.2 (.inl hs)
  · rcases List.mem_cons.1 hs with hs | hs
    · exact .inl hs
    · exact .inr fun _ => List.mem_append.2 (.inr (List.mem_cons_of_mem _ hs))

theorem Settling.store {before after : List (List Step)} {rest : List Step} {c : Buffer} {i : Nat}
    (h : Settling f count old ⟨before ++ (write f i :: rest) :: after, false, c⟩) (hi : i < count)
    (hc : i < c.size) : Settling f count old ⟨before ++ rest :: after, false, c.set i (f i)⟩ where
  running := rfl
  size := by rw [Array.size_set]; exact h.size
  writes := by
    intro steps hs step hstep
    rcases mem_others hs with rfl | hs
    · exact h.writes (write f i :: steps) (by simp) step (List.mem_cons_of_mem _ hstep)
    · exact h.writes steps (hs _) step hstep
  settled := by
    intro j hj
    simp only [Array.getElem?_set]
    by_cases hij : i = j
    · subst hij; simp
    · rw [if_neg hij]
      refine (h.settled j hj).imp id ?_
      rintro ⟨steps, hs, hw⟩
      rcases mem_others hs with rfl | hs
      · -- The store just made was at `i`, so that at `j` is still to come.
        rcases List.mem_cons.1 hw with hw | hw
        · exact absurd (write_inj hw).symm hij
        · exact ⟨rest, by simp, hw⟩
      · exact ⟨steps, hs _, hw⟩
  past j hj := by
    simp only [Array.getElem?_set, if_neg (show ¬ i = j by omega)]
    exact h.past j hj

theorem Settling.next {x y : Flight} (h : Settling f count old x) (hc : count ≤ old.size)
    (hn : Flight.Next x y) : Settling f count old y := by
  -- The step made is a store of `f` in range, so the other constructor cannot apply.
  have hstep : ∀ {before after : List (List Step)} {step : Step} {rest : List Step} {c : Buffer},
      Settling f count old ⟨before ++ (step :: rest) :: after, x.stopped, c⟩ →
      ∃ i < count, ∃ hi : i < c.size, step = write f i ∧ run [step] c = ⟨.ok (), c.set i (f i)⟩ := by
    intro before after step rest c h
    obtain ⟨i, hi, rfl⟩ := h.writes (step :: rest) (by simp) step (by simp)
    have hic : i < c.size := by have := h.size; simp only at this; omega
    exact ⟨i, hi, hic, rfl, run_write hic⟩
  cases hn with
  | store _ =>
    obtain ⟨i, hi, hic, rfl, hr⟩ := hstep h
    have hrun := h.running
    simp only at hrun
    subst hrun
    rw [hr]
    exact h.store hi hic
  | fault hf =>
    obtain ⟨i, hi, hic, rfl, hr⟩ := hstep h
    rw [hr] at hf
    cases hf

theorem Settling.reach {x y : Flight} (h : Settling f count old x) (hc : count ≤ old.size)
    (hxy : ReflTransGen Flight.Next x y) : Settling f count old y := by
  induction hxy with
  | refl => exact h
  | tail _ hn ih => exact ih.next hc hn

theorem Settling.landed {x : Flight} (h : Settling f count old x) (hc : count ≤ old.size)
    (hx : x.Landed) : x.outcome = ⟨.ok (), fill f count old⟩ := by
  have hfill : x.c = fill f count old := by
    refine eq_fill hc (fun i hi => ?_) h.past
    rcases h.settled i hi with hv | ⟨steps, hs, hw⟩
    · exact hv
    · rw [hx steps hs] at hw; cases hw
  rw [Flight.outcome, h.running, hfill]
  rfl

/-- In whatever order the bands run, they leave the values of `f`. -/
theorem interleaved_eq_fill {lists : List (List Step)} {r : Run} (hl : Covers f count lists)
    (hc : count ≤ old.size) (h : Interleaved lists old r) : r = ⟨.ok (), fill f count old⟩ := by
  obtain ⟨x, hx, hland, rfl⟩ := h
  have hs : Settling f count old ⟨lists, false, old⟩ :=
    ⟨rfl, rfl, hl.writes, fun i hi => .inr (hl.every i hi), fun _ _ => rfl⟩
  exact (hs.reach hc hx).landed hc hland

end DenseMatmul.Step
