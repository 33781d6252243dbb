import SurfaceRelay.Ring
import SurfaceRelay.Surface

/-! A pool of surfaces.

The pool keeps its surfaces in a ring that grows on demand up to a capacity. The
cursor names the surface that is out, or else the one that goes out next; read from
the cursor, the surfaces that are not out stand in the order in which they were
released. A pool is a plain value: its domains belong to the world it works on. -/
namespace SurfaceRelay

/-- No pool holds more surfaces than this. -/
def maxSurfaces : Nat := 16

/-- A forced wait copies a square of this edge, cut down to the surface. A larger
copy would prove nothing more. -/
def stagingEdge : UInt32 := 16

/-- Any number from 1 to `maxSurfaces` can be the handle of a surface, whether or not a
pool has it. -/
def Handle.ofNumber? (n : Nat) : Option Handle :=
  if 1 ≤ n ∧ n ≤ maxSurfaces then some ⟨n⟩ else none

namespace Pool

/-- What a pool is made with: the extent of every surface, and how many surfaces it
may hold. -/
structure Config where
  size : Extent
  capacity : Nat := maxSurfaces

def Config.withCapacity (c : Config) (capacity : Nat) : Config := { c with capacity }

/-- How a pool has met the demand so far. -/
structure Stats where
  built : Nat := 0
  /-- Times a full ring stalled on the producer. -/
  stalls : Nat := 0
  markersRecorded : Nat := 0
  markerFaults : Nat := 0
deriving DecidableEq, Repr

end Pool

structure Pool (T K V : Type) where
  size : Extent
  capacity : Nat
  ring : Ring (Surface T K V)
  /-- The number of the next surface to be built. -/
  nextHandle : Nat
  stats : Pool.Stats
  /-- The pool was torn down. -/
  closed : Bool

namespace Pool
variable {T K V : Type}

/-- An empty pool. Surfaces must not be empty, and the capacity must be within the
limit; a bad extent is reported before a bad capacity. -/
def make (c : Config) : Except Fault (Pool T K V) :=
  if !c.size.isSolid then
    .error (.config ("surface size must be non-zero, got " ++ c.size.text))
  else if c.capacity = 0 ∨ maxSurfaces < c.capacity then
    .error (.config s!"capacity must be within 1..={maxSurfaces}, got {c.capacity}")
  else
    .ok { size := c.size, capacity := c.capacity, ring := .empty, nextHandle := 1, stats := {}
          closed := false }

/-- The extent of staging resources and of the region a forced wait copies. -/
def stagingSize (p : Pool T K V) : Extent := p.size.clamp stagingEdge

/-- The handles of the surfaces in ring order. -/
def handles (p : Pool T K V) : List Handle := p.ring.slots.map (·.handle)

/-- Where the surface with a handle stands in the ring. -/
def locate? (p : Pool T K V) (h : Handle) : Option Nat := p.ring.locate? (·.handle == h)

/-- The surface with a handle. -/
def find? (p : Pool T K V) (h : Handle) : Option (Surface T K V) := p.ring.find? (·.handle == h)

def phase? (p : Pool T K V) (h : Handle) : Option Phase := (p.find? h).map (·.phase)

/-- The producer's texture of a surface: what the presentation side samples. -/
def texture? (p : Pool T K V) (h : Handle) : Option T := (p.find? h).map (·.texture)

/-- The consumer's view of a surface: what a converter writes. -/
def view? (p : Pool T K V) (h : Handle) : Option V := (p.find? h).map (·.view)

end Pool
end SurfaceRelay
