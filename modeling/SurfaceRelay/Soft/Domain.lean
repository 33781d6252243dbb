import SurfaceRelay.Backend
import SurfaceRelay.Soft.World

/-! What software domains do for a pool, and for anyone else.

Creating and destroying take effect at once. Writes, reads, copies and markers are
accepted into the worker's queue and execute later; what can be refused is refused when
it is handed in. A map executes everything accepted before it. Any domain serves as
producer and as consumer, and domains of one device can open each other's textures. -/
namespace SurfaceRelay.Soft

/-- A completion marker: the count it retires with, 0 when it was never recorded. -/
structure Marker where
  count : Nat
deriving DecidableEq, Repr

/-- Why a software domain refuses an operation. -/
inductive Refusal
  | workerExited
  | diedInMap
  /-- A marker could not be accepted. -/
  | markerLost
  | wrongLength (size : Extent) (got : Nat)
  | regionTooLarge (region : Extent)
  /-- Source and target of a copy show one storage. -/
  | oneStorage (texture staging : Texture)
  | unknownShare (shared : Nat)
  | shareMismatch (shared : Nat) (size : Extent)

/-- What is refused once a worker is dead. -/
def workerExited : Fault := .mapping "timeline worker has exited"

/-- The fault a refusal is reported as. -/
def Refusal.fault : Refusal → Fault
  | workerExited => Soft.workerExited
  | diedInMap => .mapping "timeline worker exited before finishing"
  | markerLost => .marker Soft.workerExited.message
  | wrongLength size got =>
    .conversion s!"expected {size.byteCount} bytes for {size.text}, got {got}"
  | regionTooLarge region => .mapping s!"copy region {region.text} exceeds source or staging"
  | oneStorage texture staging =>
    .mapping s!"texture {texture.id} and staging {staging.id} share pixel storage"
  | unknownShare shared => .allocation s!"unknown share handle {shared}"
  | shareMismatch shared size => .allocation s!"share handle {shared} does not match {size.text}"

variable {α : Type}

def refuse (r : Refusal) : Attempt World α := fun w => .error r.fault w

/-! ### The queue -/

/-- Accepts a command behind everything accepted so far. A dead worker accepts
nothing. -/
def accept (d : Nat) (c : Command) : Attempt World Unit := fun w =>
  let k := w.workers d
  if k.health = .dead then refuse .workerExited w
  else .ok () (w.setWorker d { k with queue := k.queue ++ [c] })

/-- Executes everything accepted so far. A doomed worker dies behind it. -/
def complete (d : Nat) : Attempt World Unit := fun w =>
  match (w.workers d).health with
  | .dead => refuse .workerExited w
  | .doomed => refuse .diedInMap ((w.drain d).die d)
  | .live =>
    let w := w.drain d
    if (w.workers d).health = .dead then refuse .diedInMap w else .ok () w

/-! ### Textures -/

/-- A new texture of a domain that shows a given storage. -/
def addTexture (d : Nat) (size : Extent) (storage : Nat) : Attempt World Texture := fun w =>
  let k := w.workers d
  let v := w.devices k.device
  let id := v.lastId + 1
  let w := w.setWorker d { k with created := k.created + 1 }
  .ok ⟨id, size, storage⟩ (w.setDevice k.device { v with lastId := id })

/-- A new texture with a storage of its own, which holds zeros. -/
def newTexture (d : Nat) (size : Extent) : Attempt World Texture := fun w =>
  let storage := w.storageCount
  addTexture d size storage
    { w.setStorage storage (.blank size) with storageCount := storage + 1 }

/-- Makes a texture's storage known to its device, under the texture's number. -/
def share (d : Nat) (t : Texture) : Attempt World Nat := fun w =>
  let device := (w.workers d).device
  let v := w.devices device
  .ok t.id (w.setDevice device { v with exports := Table.put v.exports t.id (some t.storage) })

/-- Opens a share handle of the domain's device as a new texture. The storage must have
as many bytes as the expected extent. -/
def openShare (d : Nat) (shared : Nat) (size : Extent) : Attempt World Texture := fun w =>
  match (w.devices (w.workers d).device).exports shared with
  | none => refuse (.unknownShare shared) w
  | some storage =>
    if (w.storages storage).length ≠ size.byteCount then refuse (.shareMismatch shared size) w
    else addTexture d size storage w

/-- One resource more was destroyed through the domain. -/
def countDestroyed (d : Nat) : Attempt World Unit := fun w =>
  let k := w.workers d
  .ok () (w.setWorker d { k with destroyed := k.destroyed + 1 })

/-- Destroys a texture, and withdraws the share handle of its number. -/
def freeTexture (d : Nat) (t : Texture) : Attempt World Unit := fun w =>
  let device := (w.workers d).device
  let v := w.devices device
  countDestroyed d (w.setDevice device { v with exports := Table.put v.exports t.id none })

def freeStaging (d : Nat) (_ : Texture) : Attempt World Unit := countDestroyed d

/-! ### Pixels -/

/-- Overwrites a whole texture. -/
def write (d : Nat) (t : Texture) (data : Pixels) : Attempt World Unit := fun w =>
  if data.length ≠ t.size.byteCount then refuse (.wrongLength t.size data.length) w
  else accept d (.write t.storage data) w

/-- Reads a whole texture; its contents arrive at the receiver returned. -/
def read (d : Nat) (t : Texture) : Attempt World Nat := fun w =>
  let receiver := w.receiverCount
  match accept d (.read t.storage receiver) w with
  | .error e w => .error e w
  | .ok _ w =>
    .ok receiver { w.setReceiver receiver .pending with receiverCount := receiver + 1 }

/-- Copies a region that fits both images and joins two storages. -/
def stage (d : Nat) (texture staging : Texture) (region : Extent) :
    Attempt World Unit := fun w =>
  if !(texture.size.covers region && staging.size.covers region) then
    refuse (.regionTooLarge region) w
  else if texture.storage = staging.storage then refuse (.oneStorage texture staging) w
  else accept d (.copy texture staging region) w

/-! ### Markers -/

/-- A marker counts as a resource of the domain but takes no number. -/
def newMarker (d : Nat) : Attempt World Marker := fun w =>
  let k := w.workers d
  .ok ⟨0⟩ (w.setWorker d { k with created := k.created + 1 })

/-- Records a marker under the next count. The count is used up even when the marker
is not accepted, which leaves the marker as it was. -/
def record (d : Nat) (_ : Marker) : Attempt World Marker := fun w =>
  let k := w.workers d
  let count := k.lastCount + 1
  match accept d (.retire count) (w.setWorker d { k with lastCount := count }) with
  | .ok _ w => .ok ⟨count⟩ w
  | .error _ w => refuse .markerLost w

def poll (d : Nat) (m : Marker) : Attempt World (Option Marker) := fun w =>
  .ok (if m.count ≤ (w.workers d).retired then some m else none) w

def freeMarker (d : Nat) (_ : Marker) : Attempt World Unit := countDestroyed d

/-! ### Backends -/

def domain (d : Nat) : SurfaceRelay.Domain World Texture where
  newStaging := newTexture d
  stage := stage d
  blockOn _ := complete d
  freeTexture := freeTexture d
  freeStaging := freeStaging d

def producer (d : Nat) : Producer World Texture Marker where
  toDomain := domain d
  newTexture := newTexture d
  share := share d
  newMarker := newMarker d
  record := .inPlace (record d) id
  poll := poll d
  freeMarker := freeMarker d

def consumer (d : Nat) : Consumer World Texture where
  toDomain := domain d
  openShare := openShare d

/-- A pool's domains: worker `p` produces and worker `c` consumes. Both may be the same
worker. -/
def backend (p c : Nat) : Backend World Texture Marker Texture where
  producer := producer p
  consumer := consumer c
  note _ w := w

/-- Writes the bytes of a frame as they are. -/
def identity (c : Nat) : Converter World Pixels Texture := fun frame view =>
  write c view frame

end SurfaceRelay.Soft
