/-! Tables: values indexed by all natural numbers. -/
namespace SurfaceRelay.Table

/-- A table with one value changed. -/
def put {α : Type} (table : Nat → α) (i : Nat) (a : α) : Nat → α :=
  fun j => if j = i then a else table j

theorem put_same {α : Type} (table : Nat → α) (i : Nat) (a : α) : put table i a i = a :=
  if_pos rfl

theorem put_other {α : Type} {table : Nat → α} {i j : Nat} (a : α) (h : j ≠ i) :
    put table i a j = table j :=
  if_neg h

theorem put_put {α : Type} (table : Nat → α) (i : Nat) (a b : α) :
    put (put table i a) i b = put table i b := by
  funext j
  by_cases h : j = i
  · rw [h, put_same, put_same]
  · rw [put_other _ h, put_other _ h, put_other _ h]

/-- Nothing changes when the value was there already. -/
theorem put_of_eq {α : Type} {table : Nat → α} {i : Nat} {a : α} (h : table i = a) :
    put table i a = table := by
  funext j
  by_cases hj : j = i
  · rw [hj, put_same, h]
  · rw [put_other _ hj]

end SurfaceRelay.Table
