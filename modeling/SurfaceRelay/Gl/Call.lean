import SurfaceRelay.Bytes
import SurfaceRelay.Extent

/-! The GL entry points in use, with the arguments that vary.

Everything else about a call is fixed: textures are two-dimensional, RGBA with eight
bits a channel and a single level; filters are linear; regions start at the origin and
are copied without scaling; waits do not block. `text` writes a call with all its raw
arguments, constants as numbers. -/
namespace SurfaceRelay.Gl

/-! ### Constants of GL -/

def texture2D : Nat := 0x0DE1
def framebufferBoth : Nat := 0x8D40
def framebufferRead : Nat := 0x8CA8
def framebufferDraw : Nat := 0x8CA9
def colorAttachment : Nat := 0x8CE0
def rgba8 : Nat := 0x8058
def rgba : Nat := 0x1908
def unsignedByte : Nat := 0x1401
def magFilter : Nat := 0x2800
def minFilter : Nat := 0x2801
def linear : Nat := 0x2601
def nearest : Nat := 0x2600
def colorBuffer : Nat := 0x4000
def commandsComplete : Nat := 0x9117
def alreadySignaled : Nat := 0x911A
def timeoutExpired : Nat := 0x911B
def conditionSatisfied : Nat := 0x911C
def noError : Nat := 0

/-! ### Calls -/

/-- Where a framebuffer is bound. Binding it to both replaces both bindings. -/
inductive Slot
  | both | read | draw
deriving DecidableEq, Repr

def Slot.code : Slot → Nat
  | both => framebufferBoth
  | read => framebufferRead
  | draw => framebufferDraw

inductive Filter
  | mag | min
deriving DecidableEq, Repr

def Filter.code : Filter → Nat
  | mag => magFilter
  | min => minFilter

/-- Name 0 stands for no object. -/
inductive Call
  | genTextures
  | genFramebuffers
  | deleteTextures (name : Nat)
  | deleteFramebuffers (name : Nat)
  | bindTexture (name : Nat)
  | bindFramebuffer (slot : Slot) (name : Nat)
  | texParameter (filter : Filter)
  /-- Gives the bound texture storage, without contents. -/
  | texImage (size : Extent)
  /-- Writes the whole of the bound texture. -/
  | texSubImage (size : Extent) (data : List UInt8)
  /-- Attaches a texture to the bound framebuffer. -/
  | framebufferTexture (name : Nat)
  | blitFramebuffer (region : Extent)
  | readPixels (size : Extent)
  | flush
  | fenceSync
  | clientWaitSync (sync : Nat)
  | deleteSync (sync : Nat)
  | getError
deriving DecidableEq, Repr

namespace Call

def name : Call → String
  | genTextures => "GenTextures"
  | genFramebuffers => "GenFramebuffers"
  | deleteTextures _ => "DeleteTextures"
  | deleteFramebuffers _ => "DeleteFramebuffers"
  | bindTexture _ => "BindTexture"
  | bindFramebuffer .. => "BindFramebuffer"
  | texParameter _ => "TexParameteri"
  | texImage _ => "TexImage2D"
  | texSubImage .. => "TexSubImage2D"
  | framebufferTexture _ => "FramebufferTexture2D"
  | blitFramebuffer _ => "BlitFramebuffer"
  | readPixels _ => "ReadPixels"
  | flush => "Flush"
  | fenceSync => "FenceSync"
  | clientWaitSync _ => "ClientWaitSync"
  | deleteSync _ => "DeleteSync"
  | getError => "GetError"

/-- GL takes sides as signed 32-bit integers. -/
def sideText (n : UInt32) : String := toString n.toInt32.toInt

def arguments : Call → List String
  | genTextures | genFramebuffers => ["1"]
  | deleteTextures name | deleteFramebuffers name => ["1", toString name]
  | bindTexture name => [toString texture2D, toString name]
  | bindFramebuffer slot name => [toString slot.code, toString name]
  | texParameter filter => [toString texture2D, toString filter.code, toString linear]
  | texImage size =>
    [toString texture2D, "0", toString rgba8, sideText size.width, sideText size.height, "0",
      toString rgba, toString unsignedByte, "null"]
  | texSubImage size data =>
    [toString texture2D, "0", "0", "0", sideText size.width, sideText size.height,
      toString rgba, toString unsignedByte, Bytes.text data]
  | framebufferTexture name =>
    [toString framebufferBoth, toString colorAttachment, toString texture2D, toString name, "0"]
  | blitFramebuffer region =>
    ["0", "0", sideText region.width, sideText region.height,
      "0", "0", sideText region.width, sideText region.height,
      toString colorBuffer, toString nearest]
  | readPixels size =>
    ["0", "0", sideText size.width, sideText size.height, toString rgba, toString unsignedByte]
  | flush | getError => []
  | fenceSync => [toString commandsComplete, "0"]
  | clientWaitSync sync => [toString sync, "0", "0"]
  | deleteSync sync => [toString sync]

/-- The call answers with a number that its caller uses. -/
def answers : Call → Bool
  | genTextures | genFramebuffers | fenceSync | clientWaitSync _ | getError => true
  | _ => false

def text (c : Call) (answer : Nat) : String :=
  c.name ++ "(" ++ ",".intercalate c.arguments ++ ")" ++
    if c.answers then "=" ++ toString answer else ""

end Call
end SurfaceRelay.Gl
