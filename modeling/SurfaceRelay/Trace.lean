import SurfaceRelay.Backend

/-! Recording a backend.

A recorded backend does what the backend does and keeps, next to its world, every
call with its answer and every notice, in the order in which they happened. Whatever
is said of the trace of a recorded backend is said of every pattern of answers that
two domains can give, because the backend under it is arbitrary. -/
namespace SurfaceRelay

/-- A call that both kinds of domain take, with its answer. -/
inductive ImageCall (T : Type)
  | newStaging (size : Extent) (answer : Except Fault T)
  | stage (texture staging : T) (region : Extent) (answer : Except Fault Unit)
  | blockOn (staging : T) (answer : Except Fault Unit)
  | freeTexture (texture : T) (answer : Except Fault Unit)
  | freeStaging (staging : T) (answer : Except Fault Unit)

inductive ProducerCall (T K : Type)
  | image (call : ImageCall T)
  | newTexture (size : Extent) (answer : Except Fault T)
  | share (texture : T) (answer : Except Fault Nat)
  | newMarker (answer : Except Fault K)
  | record (marker : K) (answer : Except Fault K)
  | poll (marker : K) (answer : Except Fault (Option K))
  | freeMarker (marker : K) (answer : Except Fault Unit)

inductive ConsumerCall (F V : Type)
  | image (call : ImageCall V)
  | openShare (shared : Nat) (size : Extent) (answer : Except Fault V)
  /-- The converter was given a frame to write into a view. -/
  | convert (frame : F) (view : V) (answer : Except Fault Unit)

/-- One line of a trace. -/
inductive Entry (F T K V : Type)
  | producer (call : ProducerCall T K)
  | consumer (call : ConsumerCall F V)
  | notice (notice : Notice)

/-- A world together with what has been recorded of it, oldest entry first. -/
structure Recorded (W E : Type) where
  world : W
  trace : List E

namespace Recorded
variable {W E F T K V α : Type}

def ofWorld (w : W) : Recorded W E := ⟨w, []⟩

/-- Does what `act` does and records its answer. -/
def call (act : Attempt W α) (entry : Except Fault α → E) : Attempt (Recorded W E) α := fun r =>
  match act r.world with
  | .ok a world => .ok a ⟨world, r.trace ++ [entry (.ok a)]⟩
  | .error e world => .error e ⟨world, r.trace ++ [entry (.error e)]⟩

/-- Does what `act` does to a marker, and records the marker that it made, or why it made none. -/
def recording (act : Attempt (K × W) Unit) :
    Attempt (K × Recorded W (Entry F T K V)) Unit := fun (k, r) =>
  match act (k, r.world) with
  | .ok _ (k', world) => .ok () (k', ⟨world, r.trace ++ [.producer (.record k (.ok k'))]⟩)
  | .error e (k', world) => .error e (k', ⟨world, r.trace ++ [.producer (.record k (.error e))]⟩)

def domain (d : Domain W T) (entry : ImageCall T → E) : Domain (Recorded W E) T where
  newStaging size := call (d.newStaging size) (entry ∘ .newStaging size)
  stage texture staging region :=
    call (d.stage texture staging region) (entry ∘ .stage texture staging region)
  blockOn staging := call (d.blockOn staging) (entry ∘ .blockOn staging)
  freeTexture texture := call (d.freeTexture texture) (entry ∘ .freeTexture texture)
  freeStaging staging := call (d.freeStaging staging) (entry ∘ .freeStaging staging)

def producer (p : Producer W T K) : Producer (Recorded W (Entry F T K V)) T K where
  toDomain := domain p.toDomain fun c => .producer (.image c)
  newTexture size := call (p.newTexture size) (.producer ∘ .newTexture size)
  share texture := call (p.share texture) (.producer ∘ .share texture)
  newMarker := call p.newMarker (.producer ∘ .newMarker)
  record := recording p.record
  poll marker := call (p.poll marker) (.producer ∘ .poll marker)
  freeMarker marker := call (p.freeMarker marker) (.producer ∘ .freeMarker marker)

def consumer (c : Consumer W V) : Consumer (Recorded W (Entry F T K V)) V where
  toDomain := domain c.toDomain fun c => .consumer (.image c)
  openShare shared size := call (c.openShare shared size) (.consumer ∘ .openShare shared size)

end Recorded

variable {W F T K V : Type}

/-- The backend, recorded. -/
def Backend.recorded (b : Backend W T K V) : Backend (Recorded W (Entry F T K V)) T K V where
  producer := Recorded.producer b.producer
  consumer := Recorded.consumer b.consumer
  note n r := ⟨b.note n r.world, r.trace ++ [.notice n]⟩

/-- The converter, recorded. -/
def Converter.recorded (convert : Converter W F V) :
    Converter (Recorded W (Entry F T K V)) F V := fun frame view =>
  Recorded.call (convert frame view) (.consumer ∘ .convert frame view)

end SurfaceRelay
