import SurfaceRelay.Proofs.Requests

/-! What a presenter keeps of its pool.

A presenter does nothing to its pool and its world but operations of the pool, conversions into
views of surfaces the pool has, and notices. A property that all of these keep (`Kept`) is kept
by every move, and so by every run (`Kept.run`). -/
namespace SurfaceRelay

theorem Pool.closed_close {W T K V : Type} (b : Backend W T K V) (x : Pool T K V × W) :
    (close b x).1.closed = true := by
  simp only [close]
  split
  · assumption
  · rfl

namespace Presenter
variable {W F T K V α : Type}

/-- A property of a pool and its world that everything keeps which a presenter does to them. -/
structure Kept (b : Backend W T K V) (convert : Converter W F V) (J : Pool T K V × W → Prop) :
    Prop where
  acquire : (Pool.acquire b).Keeps J
  release : ∀ h, (Pool.release b h).Keeps J
  awaitConsumer : ∀ h, (Pool.awaitConsumer b h).Keeps J
  close : ∀ x, J x → J (Pool.close b x)
  /-- A frame is converted into a view of a surface that the pool has. -/
  convert : ∀ frame {p h view}, p.view? h = some view →
    (convert frame view).Keeps fun w => J (p, w)
  note : ∀ n {p w}, J (p, w) → J (p, b.note n w)

/-- The property, for a presenter with its world. -/
def OnPool (J : Pool T K V × W → Prop) (x : Presenter T K V × W) : Prop := J (x.1.pool, x.2)

variable {b : Backend W T K V} {convert : Converter W F V} {J : Pool T K V × W → Prop}

namespace Kept

/-- What everything keeps that a presenter does to its pool, every request keeps. -/
theorem turn (hJ : Kept b convert J) {x : Pool T K V × W} (hx : J x) (op : Pool.Op) :
    J (Pool.turn b x op).after := by
  have hperform : (Pool.perform b op).Keeps J := by
    cases op with
    | acquire => exact Attempt.keeps_map _ hJ.acquire
    | release h => exact Attempt.keeps_map _ (hJ.release h)
    | awaitConsumer h => exact Attempt.keeps_map _ (hJ.awaitConsumer h)
    | close => exact hJ.close
  exact hperform x hx

/-- Whatever was asked before. -/
theorem tracks (hJ : Kept b convert J) : Tracks b convert fun _ _ => J where
  turn op hx := hJ.turn hx op
  convert frame _ _ hview := hJ.convert frame hview
  dropped _ hx := hJ.note _ hx
  ignored _ _ hx := hJ.note _ hx

theorem make (hJ : Kept b convert J) (m : Move F) : (make b convert m).Keeps (OnPool J) :=
  fun _ hx => hJ.tracks.after m (show OnTrack (fun _ _ => J) [] _ from hx)

theorem run (hJ : Kept b convert J) (moves : List (Move F)) {x : Presenter T K V × W}
    (hx : OnPool J x) : OnPool J (run b convert moves x) :=
  hJ.tracks.run moves (show OnTrack (fun _ _ => J) [] x from hx)

end Kept

/-- Tearing down the pool alone, as letting go of it does, or the presenter with it. -/
theorem after_ending {ending : Move F} (h : ending = .closePool ∨ ending = .close)
    (x : Presenter T K V × W) :
    ((after b convert ending x).1.pool, (after b convert ending x).2) =
      Pool.close b (x.1.pool, x.2) := by
  rcases h with rfl | rfl <;> rfl

theorem closed_after_ending {ending : Move F} (h : ending = .closePool ∨ ending = .close)
    (x : Presenter T K V × W) : (after b convert ending x).1.pool.closed = true := by
  rw [show (after b convert ending x).1.pool = _ from congrArg Prod.fst (after_ending h x)]
  exact Pool.closed_close b _

/-- A release does not tear the pool down. -/
theorem closed_retract (b : Backend W T K V) (x : Presenter T K V × W) :
    (retract b x).1.pool.closed = x.1.pool.closed := by
  simp only [retract]
  split
  · rfl
  · rename_i h _
    have hr := Pool.releasing b h x.1.pool x.2
    generalize Pool.release b h (x.1.pool, x.2) = res at hr
    cases hr <;> rfl

/-- A pool that was torn down stays torn down. -/
theorem closed_kept (b : Backend W T K V) (convert : Converter W F V) :
    Kept b convert fun x => x.1.closed = true where
  acquire := Attempt.keeps_of_leaves fun x hx => by
    have hclosed : Pool.acquire b x = .error .closed x := if_pos hx
    exact hclosed ▸ hx
  release k := Attempt.keeps_of_leaves fun x hx => by
    have hclosed : Pool.release b k x = .error .closed x := if_pos hx
    exact hclosed ▸ hx
  awaitConsumer k := Attempt.keeps_of_leaves fun x hx => by
    have hclosed : Pool.awaitConsumer b k x = .error .closed x := if_pos hx
    exact hclosed ▸ hx
  close x hx := by
    have hclosed : Pool.close b x = x := if_pos hx
    rw [hclosed]
    exact hx
  convert _ _ _ _ _ := Attempt.keeps_of_leaves fun _ hx => hx
  note _ _ _ hx := hx

end Presenter
end SurfaceRelay
