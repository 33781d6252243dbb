import SurfaceRelay.Script.Domain
import SurfaceRelay.Trace

/-! The written trace of scripted domains.

A call is written as the letter of its side, its name and its arguments, and then what
it answered, or that it failed. -/
namespace SurfaceRelay.Script

/-- How an answer is written behind a call; a fault shows as a failure only. -/
def ending {α : Type} (text : α → String) : Except Fault α → String
  | .ok a => text a
  | .error _ => " failed"

def line (side : Side) (verb : Verb) (args result : String) : String :=
  s!"{side.letter}.{verb.name}({args}){result}"

/-- A call without an answer of its own. -/
def plain : Except Fault Unit → String := ending fun _ => ""

/-- A call that answers with a new image. -/
def created : Except Fault Image → String := ending fun t => s!"={t.id}"

def imageCallText (side : Side) : ImageCall Image → String
  | .newStaging size answer => line side .newStaging size.text (created answer)
  | .stage t s region answer =>
    line side .stage
      s!"{t.id}:{t.size.text},{s.id}:{s.size.text},{region.text}" (plain answer)
  | .blockOn s answer => line side .blockOn (toString s.id) (plain answer)
  | .freeTexture t answer => line side .freeTexture (toString t.id) (plain answer)
  | .freeStaging s answer => line side .freeStaging (toString s.id) (plain answer)

def producerCallText : ProducerCall Image Marker → String
  | .image call => imageCallText .producer call
  | .newTexture size answer => line .producer .newTexture size.text (created answer)
  | .share t answer =>
    line .producer .share (toString t.id) (ending (fun shared => s!"={shared}") answer)
  | .newMarker answer =>
    line .producer .newMarker "" (ending (fun m : Marker => s!"={m.id}") answer)
  | .record m answer =>
    line .producer .record (toString m.id)
      (ending (fun recorded : Marker => s!"@{recorded.count}") answer)
  | .poll m answer =>
    line .producer .poll s!"{m.id}@{m.count}"
      (ending (fun retired => if retired.isSome then "=ready" else "=not_ready") answer)
  | .freeMarker m answer => line .producer .freeMarker (toString m.id) (plain answer)

def consumerCallText : ConsumerCall Nat Image → String
  | .image call => imageCallText .consumer call
  | .openShare shared size answer =>
    line .consumer .openShare s!"{shared},{size.text}" (created answer)
  | .convert frame view answer => line .consumer .convert s!"{frame},{view.id}" (plain answer)

def entryText : Entry Nat Image Marker Image → String
  | .producer call => producerCallText call
  | .consumer call => consumerCallText call
  | .notice n => n.text

end SurfaceRelay.Script
