/-!
# Tables by name

Kernels and matrices are kept in lists under their names, with the newest in front. A name is removed by
leaving out all that goes by it, and a value is put in by removing its name first. What is found under
every name afterwards is one equation for each of the two.
-/

namespace DenseMatmul

variable {α : Type}

theorem lookup_cons_if (name other : String) (value : α) (rest : List (String × α)) :
    ((name, value) :: rest).lookup other = if other = name then some value else rest.lookup other := by
  by_cases h : other = name
  · simp [h]
  · rw [List.lookup_cons, beq_false_of_ne h, if_neg h]

theorem lookup_erased (table : List (String × α)) (name other : String) :
    (table.filter (·.1 != name)).lookup other = if other = name then none else table.lookup other := by
  induction table with
  | nil => simp
  | cons entry rest ih =>
    obtain ⟨key, value⟩ := entry
    by_cases hkey : key = name
    · -- This entry goes, and only under the name removed could it have been found.
      subst hkey
      rw [List.filter_cons_of_neg (by simp), ih, lookup_cons_if]
      split <;> rfl
    · rw [List.filter_cons_of_pos (by simpa using hkey), lookup_cons_if, lookup_cons_if, ih]
      by_cases hother : other = key
      · subst hother
        rw [if_pos rfl, if_neg hkey, if_pos rfl]
      · rw [if_neg hother, if_neg hother]

theorem lookup_inserted (table : List (String × α)) (name other : String) (value : α) :
    ((name, value) :: table.filter (·.1 != name)).lookup other =
      if other = name then some value else table.lookup other := by
  rw [lookup_cons_if, lookup_erased]
  split <;> rfl

end DenseMatmul
