/-! The two sides of a hand-over, and values kept for each of them. -/
namespace SurfaceRelay

inductive Side
  | producer | consumer
deriving DecidableEq, Repr

def Side.letter : Side → String
  | producer => "P"
  | consumer => "C"

/-- A value for each side. -/
structure Both (α : Type) where
  producer : α
  consumer : α

namespace Both
variable {α : Type}

def get (x : Both α) : Side → α
  | .producer => x.producer
  | .consumer => x.consumer

def set (x : Both α) (side : Side) (a : α) : Both α :=
  match side with
  | .producer => { x with producer := a }
  | .consumer => { x with consumer := a }

theorem get_set_same (x : Both α) (side : Side) (a : α) : (x.set side a).get side = a := by
  cases side <;> rfl

theorem get_set_other (x : Both α) {side other : Side} (a : α) (h : other ≠ side) :
    (x.set side a).get other = x.get other := by
  cases side <;> cases other <;> simp_all [get, set]

end Both
end SurfaceRelay
