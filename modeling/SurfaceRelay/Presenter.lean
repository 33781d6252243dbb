import SurfaceRelay.Pool.Handover

/-! Presenting one stream of frames through one pool.

Every frame is presented (a surface is acquired, the frame converted into it, the
writing awaited) and later retracted (the surface is released). Presenting a frame
retracts the one before. A frame that cannot be presented is dropped and counted; the
stream goes on. -/
namespace SurfaceRelay

structure Presenter (T K V : Type) where
  pool : Pool T K V
  /-- The surface on display, if any. -/
  shown : Option Handle
  dropped : Nat

namespace Presenter
variable {W F T K V α : Type}

def ofPool (pool : Pool T K V) : Presenter T K V := ⟨pool, none, 0⟩

/-- The producer's texture of the surface on display. -/
def shownTexture? (s : Presenter T K V) : Option T := s.shown.bind s.pool.texture?

/-- Runs an operation of the pool. -/
def onPool (act : Attempt (Pool T K V × W) α) : Attempt (Presenter T K V × W) α := fun (s, w) =>
  match act (s.pool, w) with
  | .ok a (pool, w) => .ok a ({ s with pool }, w)
  | .error e (pool, w) => .error e ({ s with pool }, w)

variable (b : Backend W T K V) (convert : Converter W F V)

/-- Acquires a surface, converts the frame into it and waits for the writing. -/
def fill (frame : F) : Attempt (Pool T K V × W) Handle := fun s =>
  match Pool.acquire b s with
  | .error e s => .error e s
  | .ok h (p, w) =>
    match p.view? h with
    | none => .error (.staleHandle h) (p, w)
    | some view =>
      match convert frame view w with
      | .error e w => .error e (p, w)
      | .ok _ w =>
        match Pool.awaitConsumer b h (p, w) with
        | .error e s => .error e s
        | .ok _ s => .ok h s

/-- Releases the surface on display, if there is one. -/
def retract : Presenter T K V × W → Presenter T K V × W := fun (s, w) =>
  match s.shown with
  | none => (s, w)
  | some h =>
    match Pool.release b h (s.pool, w) with
    | .ok _ (pool, w) => ({ s with pool, shown := none }, w)
    | .error e (pool, w) => ({ s with pool, shown := none }, b.note (.retractIgnored h e) w)

/-- Puts a frame on display in place of the one before. -/
def present (frame : F) : Attempt (Presenter T K V × W) Handle := fun x =>
  let (s, w) := retract b x
  match fill b convert frame (s.pool, w) with
  | .ok h (pool, w) => .ok h ({ s with pool, shown := some h }, w)
  | .error e (pool, w) =>
    let count := s.dropped + 1
    .error e ({ s with pool, dropped := count }, b.note (.frameDropped count e) w)

/-- Tears the pool down, without releasing what is on display. -/
def close : Presenter T K V × W → Presenter T K V × W := fun (s, w) =>
  let (pool, w) := Pool.close b (s.pool, w)
  ({ s with pool, shown := none }, w)

end Presenter
end SurfaceRelay
