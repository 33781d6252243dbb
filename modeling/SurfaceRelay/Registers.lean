/-! Values kept under names, at most one for each name. -/
namespace SurfaceRelay

abbrev Registers (α : Type) := List (String × α)

namespace Registers
variable {α : Type}

def get? (rs : Registers α) (name : String) : Option α := rs.lookup name

def erase (rs : Registers α) (name : String) : Registers α := rs.filter (·.1 != name)

/-- Keeps a value under a name, in place of any earlier one. -/
def put (rs : Registers α) (name : String) (a : α) : Registers α := (name, a) :: rs.erase name

theorem get?_erase_same (rs : Registers α) (name : String) : (rs.erase name).get? name = none := by
  simp only [get?, erase, List.lookup_eq_none_iff, List.mem_filter]
  rintro r ⟨_, h⟩
  simpa [bne_iff_ne, ne_comm, beq_eq_false_iff_ne] using h

theorem get?_put_same (rs : Registers α) (name : String) (a : α) :
    (rs.put name a).get? name = some a := by
  simp [get?, put]

theorem mem_of_get? {rs : Registers α} {name : String} {a : α} (h : rs.get? name = some a) :
    (name, a) ∈ rs := by
  obtain ⟨first, rest, rfl, -⟩ := List.lookup_eq_some_iff.1 h
  simp

/-- Erasing and replacing leave only what was there before, and what was put in. -/
theorem mem_of_mem_erase {rs : Registers α} {name : String} {r : String × α}
    (h : r ∈ rs.erase name) : r ∈ rs := (List.mem_filter.1 h).1

theorem mem_put {rs : Registers α} {name : String} {a : α} {r : String × α}
    (h : r ∈ rs.put name a) : r = (name, a) ∨ r ∈ rs :=
  (List.mem_cons.1 h).imp_right mem_of_mem_erase

end Registers
end SurfaceRelay
