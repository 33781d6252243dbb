import SurfaceRelay.Gl.Context

/-! What GL domains do for a pool, and for anyone else.

An image is a texture and a framebuffer to copy from it or read it back. Texture names
are shared by all contexts of the group; framebuffers belong to the context that made
them. An image opened by share handle does not own its texture. A marker is a sync
object. Every operation resets the bindings it makes. Those on images read the context's error
flag once at their end if they can fail at all; those on markers never read it. -/
namespace SurfaceRelay.Gl

structure Image where
  framebuffer : Nat
  name : Nat
  size : Extent
  /-- The texture is deleted together with the image. -/
  owned : Bool
deriving DecidableEq, Repr

/-- A completion marker: its sync object, 0 when it has none. A marker without a sync
object counts as retired. -/
structure Marker where
  sync : Nat
deriving DecidableEq, Repr

/-- The marker without its sync object. -/
def Marker.cleared (_ : Marker) : Marker := ⟨0⟩

/-- What an image is allocated for. -/
inductive Purpose
  | sharing | staging
deriving DecidableEq, Repr

def Purpose.text : Purpose → String
  | sharing => "shared texture"
  | staging => "staging texture"

/-- Why a GL domain refuses an operation. Error codes are GL's own. -/
inductive Refusal
  | notAllocated (purpose : Purpose) (size : Extent) (code : Nat)
  | notOpened (name code : Nat)
  /-- A share handle that cannot be a GL name. -/
  | notAName (shared : Nat)
  | wrongLength (size : Extent) (got : Nat)
  | notUploaded (code : Nat)
  | notCopied (code : Nat)
  | notRead (code : Nat)
  /-- No sync object could be made. -/
  | notFenced (reported : String)
  /-- A wait ended with a status that says nothing about the sync object. -/
  | waitFailed (status : Nat)

def errorText (code : Nat) : String := "GL error " ++ Bytes.hexLiteral code

def Refusal.fault : Refusal → Fault
  | notAllocated purpose size code =>
    .allocation (purpose.text ++ " " ++ size.text ++ ": " ++ errorText code)
  | notOpened name code =>
    .allocation ("open shared texture " ++ toString name ++ ": " ++ errorText code)
  | notAName shared =>
    .allocation ("share handle " ++ Bytes.hexLiteral shared ++ " is not a GL name")
  | wrongLength size got =>
    .conversion s!"frame is {got} bytes, texture {size.text} needs {size.byteCount}"
  | notUploaded code => .conversion ("glTexSubImage2D: " ++ errorText code)
  | notCopied code => .mapping ("glBlitFramebuffer: " ++ errorText code)
  | notRead code => .mapping ("glReadPixels: " ++ errorText code)
  | notFenced reported => .marker reported
  | waitFailed status => .marker ("glClientWaitSync returned " ++ Bytes.hexLiteral status)

/-- Names are 32-bit words. -/
def nameLimit : Nat := UInt32.size

/-- What the status of a wait says of the sync object: signaled or not. -/
def signaled? (status : Nat) : Option Bool :=
  if status = alreadySignaled ∨ status = conditionSatisfied then some true
  else if status = timeoutExpired then some false
  else none

namespace Group
variable {κ σ : Type} (g : Group κ σ) (k : κ)

/-! ### Pieces of operations, on a context that is current -/

/-- Reads and clears the error flag; a raised flag ends the operation. -/
def check (refusal : Nat → Refusal) : Attempt (World κ σ) Unit := do
  let code ← g.call k .getError
  if code ≠ noError then throw (refusal code).fault

/-- A new framebuffer with a texture attached to it. -/
def attach (name : Nat) : Attempt (World κ σ) Nat := do
  let framebuffer ← g.call k .genFramebuffers
  g.calls k [.bindFramebuffer .both framebuffer, .framebufferTexture name, .bindFramebuffer .both 0]
  return framebuffer

/-- A new texture, with its storage and its framebuffer. -/
def newImage (size : Extent) : Attempt (World κ σ) Image := do
  let name ← g.call k .genTextures
  g.calls k [.bindTexture name, .texImage size, .texParameter .mag, .texParameter .min,
    .bindTexture 0]
  let framebuffer ← g.attach k name
  return { framebuffer, name, size, owned := true }

/-- Deletes the framebuffer of an image, and its texture if the image owns it. -/
def deleteImage (i : Image) : Attempt (World κ σ) Unit :=
  g.calls k (.deleteFramebuffers i.framebuffer ::
    if i.owned then [.deleteTextures i.name] else [])

/-- Checks that an image came about, and deletes it again if not. -/
def keepImage (i : Image) (refusal : Nat → Refusal) : Attempt (World κ σ) Image := do
  let code ← g.call k .getError
  if code = noError then return i
  g.deleteImage k i
  throw (refusal code).fault

/-- Deletes the sync object of a marker, if it has one. -/
def deleteFence (m : Marker) : Attempt (World κ σ) Unit :=
  g.calls k (if m.sync = 0 then [] else [.deleteSync m.sync])

variable [DecidableEq κ]

/-! ### Images -/

def create (purpose : Purpose) (size : Extent) : Attempt (World κ σ) Image := do
  g.enter k
  let i ← g.newImage k size
  g.keepImage k i (.notAllocated purpose size)

/-- Wraps a texture of the group in a framebuffer of this context. -/
def openShare (shared : Nat) (size : Extent) : Attempt (World κ σ) Image := do
  if shared ≥ nameLimit then throw (Refusal.notAName shared).fault
  g.enter k
  let framebuffer ← g.attach k shared
  g.keepImage k { framebuffer, name := shared, size, owned := false } (.notOpened shared)

def destroyImage (i : Image) : Attempt (World κ σ) Unit := do
  g.enter k
  g.deleteImage k i

/-! ### Pixels -/

/-- Uploads a frame that fills an image exactly. -/
def upload (i : Image) (data : List UInt8) : Attempt (World κ σ) Unit := do
  if data.length ≠ i.size.byteCount then throw (Refusal.wrongLength i.size data.length).fault
  g.enter k
  g.calls k [.bindTexture i.name, .texSubImage i.size data, .bindTexture 0]
  g.check k .notUploaded

def stage (i staging : Image) (region : Extent) : Attempt (World κ σ) Unit := do
  g.enter k
  g.calls k [.bindFramebuffer .read i.framebuffer, .bindFramebuffer .draw staging.framebuffer,
    .blitFramebuffer region, .bindFramebuffer .both 0]
  g.check k .notCopied

/-- Reads an image back, which blocks until everything that writes it is done. -/
def blockOn (staging : Image) : Attempt (World κ σ) Unit := do
  g.enter k
  g.calls k [.bindFramebuffer .both staging.framebuffer, .readPixels staging.size,
    .bindFramebuffer .both 0]
  g.check k .notRead

/-! ### Markers -/

/-- Why no sync object came of a call, if the context reports it. Otherwise 0 came of it. -/
def fenceRefusal? (sync : Nat) (gl : σ) : Option Refusal :=
  if sync = 0 then (g.fenceError? k gl).map .notFenced else none

/-- Makes a sync object behind all commands so far. -/
def newFence : Attempt (World κ σ) Nat := do
  let sync ← g.call k .fenceSync
  match g.fenceRefusal? k sync (← get).gl with
  | none => return sync
  | some refusal => throw refusal.fault

/-- Replaces the sync object of a marker by a new one, and flushes, so that it is signaled without
anyone waiting for it. The old one is deleted first, so it is gone also when there is no new one. -/
def record (m : Marker) : Attempt (World κ σ) Marker := do
  g.enter k
  g.deleteFence k m
  let sync ← g.newFence k
  g.calls k [.flush]
  return ⟨sync⟩

/-- Looks at the sync object of a marker without blocking. A signaled one is deleted at
once. -/
def poll (m : Marker) : Attempt (World κ σ) (Option Marker) := do
  g.enter k
  if m.sync = 0 then return some m
  let status ← g.call k (.clientWaitSync m.sync)
  match signaled? status with
  | some true => do
    g.deleteFence k m
    return some ⟨0⟩
  | some false => return none
  | none => throw (Refusal.waitFailed status).fault

def freeMarker (m : Marker) : Attempt (World κ σ) Unit := do
  g.enter k
  g.deleteFence k m

/-! ### Backends -/

def domain : SurfaceRelay.Domain (World κ σ) Image where
  newStaging := g.create k .staging
  stage := g.stage k
  blockOn := g.blockOn k
  freeTexture := g.destroyImage k
  freeStaging := g.destroyImage k

/-- The name of a texture is its share handle. A marker takes nothing to create. -/
def producer : Producer (World κ σ) Image Marker where
  toDomain := g.domain k
  newTexture := g.create k .sharing
  share i := return i.name
  newMarker := return ⟨0⟩
  record := .inPlace (g.record k) Marker.cleared
  poll := g.poll k
  freeMarker := g.freeMarker k

def consumer : Consumer (World κ σ) Image where
  toDomain := g.domain k
  openShare := g.openShare k

/-- A pool between two contexts of the group. -/
def backend (p c : κ) : Backend (World κ σ) Image Marker Image where
  producer := g.producer p
  consumer := g.consumer c
  note := World.note

/-- Uploads frames into the consumer's views. -/
def uploader (c : κ) : Converter (World κ σ) (List UInt8) Image := fun frame view =>
  g.upload c view frame

end Group
end SurfaceRelay.Gl
