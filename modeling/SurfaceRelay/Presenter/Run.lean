import SurfaceRelay.Presenter

/-! Runs of a presenter.

A move is anything a caller can do with a presenter and its pool: hand-overs made
directly on the pool, presenting and retracting, tearing down, and looking. A run makes
moves one after the other; a move that fails does not end it. -/
namespace SurfaceRelay

namespace Presenter

inductive Move (F : Type)
  | acquire
  | release (h : Handle)
  /-- Acquires a surface and releases it again. -/
  | cycle
  | awaitConsumer (h : Handle)
  | present (frame : F)
  | retract
  /-- Tears down the pool only. -/
  | closePool
  | close
  | phase (h : Handle)
  | images (h : Handle)
  | shown
  | settings

inductive Answer (T V : Type)
  | done
  | surface (h : Handle)
  | phase (p : Option Phase)
  /-- The producer's texture and the consumer's view of a surface. -/
  | images (texture : Option T) (view : Option V)
  | shown (texture : Option T)
  | settings (size : Extent) (capacity : Nat)

variable {W F T K V : Type} (b : Backend W T K V) (convert : Converter W F V)

/-- Acquires a surface and releases it at once. -/
def cycle : Attempt (Pool T K V × W) Handle := do
  let h ← Pool.acquire b
  Pool.release b h
  return h

/-- Makes one move. -/
def make : Move F → Attempt (Presenter T K V × W) (Answer T V)
  | .acquire => .surface <$> onPool (Pool.acquire b)
  | .release h => (fun _ => .done) <$> onPool (Pool.release b h)
  | .cycle => .surface <$> onPool (cycle b)
  | .awaitConsumer h => (fun _ => .done) <$> onPool (Pool.awaitConsumer b h)
  | .present frame => .surface <$> present b convert frame
  | .retract => fun x => .ok .done (retract b x)
  | .closePool => onPool fun x => .ok .done (Pool.close b x)
  | .close => fun x => .ok .done (close b x)
  | .phase h => fun x => .ok (.phase (x.1.pool.phase? h)) x
  | .images h => fun x => .ok (.images (x.1.pool.texture? h) (x.1.pool.view? h)) x
  | .shown => fun x => .ok (.shown x.1.shownTexture?) x
  | .settings => fun x => .ok (.settings x.1.pool.size x.1.pool.capacity) x

/-- The state after one move, whatever its answer. -/
def after (m : Move F) (x : Presenter T K V × W) : Presenter T K V × W :=
  (Attempt.outcome (make b convert m) x).2

/-- The state after a list of moves. -/
def run (moves : List (Move F)) (x : Presenter T K V × W) : Presenter T K V × W :=
  moves.foldl (fun x m => after b convert m x) x

theorem run_append (first rest : List (Move F)) (x : Presenter T K V × W) :
    run b convert (first ++ rest) x = run b convert rest (run b convert first x) :=
  List.foldl_append

end Presenter
end SurfaceRelay
