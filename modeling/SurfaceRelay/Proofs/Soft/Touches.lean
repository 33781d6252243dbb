import Mathlib.Logic.Relation
import SurfaceRelay.Proofs.Soft.Calls

/-! What a call does to a world.

All calls of a software domain but a map are answered at once (`Prompt`), and no worker executes
anything while they are. What they do comes down to a few small things: something is counted, a
number is given out, a share handle appears or goes, a storage or a receiver is made, a command goes
behind those that a worker has. `World.Touch` is one of these, and `Prompt.touches` says that a call
is a chain of them. So what is to be true after every call has to survive a touch and nothing else,
and no proof of it has to know the calls. -/
namespace SurfaceRelay.Soft
variable {α : Type} {given : List Texture} {w w' : World} {d : Nat}

/-- A call that a domain answers at once, without waiting for its worker, and the textures that it
is given. -/
inductive Prompt : {α : Type} → List Texture → Attempt World α → Prop
  | alive (d : Nat) (r : Refusal) : Prompt [] (Concurrent.alive d r)
  | newTexture (d : Nat) (size : Extent) : Prompt [] (newTexture d size)
  | freeTexture (d : Nat) (t : Texture) : Prompt [t] (freeTexture d t)
  | countDestroyed (d : Nat) : Prompt [] (countDestroyed d)
  | share (d : Nat) (t : Texture) : Prompt [t] (share d t)
  | openShare (d shared : Nat) (size : Extent) : Prompt [] (openShare d shared size)
  | newMarker (d : Nat) : Prompt [] (newMarker d)
  | record (d : Nat) (m : Marker) : Prompt [] (record d m)
  | poll (d : Nat) (m : Marker) : Prompt [] (poll d m)
  | write (d : Nat) (t : Texture) (data : Pixels) : Prompt [t] (write d t data)
  | read (d : Nat) (t : Texture) : Prompt [t] (read d t)
  | stage (d : Nat) (t s : Texture) (region : Extent) : Prompt [t, s] (stage d t s region)

/-- A command about pixels that a domain accepts when it is given these textures. -/
inductive Command.About (given : List Texture) : Command → Prop
  | write {t : Texture} (ht : t ∈ given) {data : Pixels} (hdata : data.length = t.size.byteCount) :
    About given (.write t.storage data)
  | read {t : Texture} (ht : t ∈ given) (receiver : Nat) : About given (.read t.storage receiver)
  | copy {t s : Texture} (ht : t ∈ given) (hs : s ∈ given) {region : Extent}
    (hsource : t.size.covers region = true) (htarget : s.size.covers region = true)
    (hapart : t.storage ≠ s.storage) : About given (.copy t s region)

theorem Command.About.covers {c : Command} (h : c.About given) (source target : Texture)
    (region : Extent) (hc : c = .copy source target region) : target.size.covers region = true := by
  cases h with
  | copy _ _ _ htarget =>
    cases hc
    exact htarget
  | _ => cases hc

theorem Command.About.count {c : Command} (h : c.About given) : c.count? = none := by
  cases h <;> rfl

namespace World

/-- The next count of a worker is used up. -/
def useCount (w : World) (d : Nat) : World :=
  w.setWorker d { w.workers d with lastCount := (w.workers d).lastCount + 1 }

/-- A marker is accepted under the next count. -/
def sign (w : World) (d : Nat) : World :=
  (w.useCount d).push d (.retire ((w.workers d).lastCount + 1))

/-- One thing that a call does to a world. -/
inductive Touch (given : List Texture) (w : World) : World → Prop
  | count (d created destroyed : Nat) :
    w.Touch given (w.setWorker d { w.workers d with created, destroyed })
  | useCount (d : Nat) : w.Touch given (w.useCount d)
  | number (i : Nat) :
    w.Touch given (w.setDevice i { w.devices i with lastId := (w.devices i).lastId + 1 })
  | share (i : Nat) {t : Texture} (ht : t ∈ given) : w.Touch given (w.setDevice i
      { w.devices i with exports := Table.put (w.devices i).exports t.id (some t.storage) })
  | withdraw (i shared : Nat) : w.Touch given (w.setDevice i
      { w.devices i with exports := Table.put (w.devices i).exports shared none })
  | allocate (size : Extent) : w.Touch given (w.allocate (.blank size))
  | openReceiver : w.Touch given w.openReceiver
  | push (d : Nat) {c : Command} (hlive : ¬w.Dead d) (hc : c.About given) :
    w.Touch given (w.push d c)
  | sign (d : Nat) (hlive : ¬w.Dead d) : w.Touch given (w.sign d)

abbrev Touches (given : List Texture) : World → World → Prop := Relation.ReflTransGen (Touch given)

end World

open World (Touches)

/-- A marker is recorded unless the worker is dead. -/
theorem record_cases (d : Nat) (m : Marker) (w : World) :
    record d m w = .ok ⟨(w.workers d).lastCount + 1⟩ (w.sign d) ∧ ¬w.Dead d ∨
      record d m w = .error Refusal.markerLost.fault (w.useCount d) ∧ w.Dead d := by
  have hdead : (w.useCount d).Dead d ↔ w.Dead d := by
    rw [World.Dead, World.useCount, World.workers_setWorker, if_pos rfl, World.Dead]
  simp only [record]
  rcases accept_cases d (.retire ((w.workers d).lastCount + 1))
    (w.setWorker d { w.workers d with lastCount := (w.workers d).lastCount + 1 })
    with ⟨haccept, hlive⟩ | ⟨haccept, hdied⟩ <;> rw [haccept]
  · exact .inl ⟨rfl, fun h => hlive (hdead.2 h)⟩
  · exact .inr ⟨rfl, hdead.1 hdied⟩

theorem touches_accept {c : Command} (hc : c.About given) (d : Nat) (w : World) :
    w.Touches given (Attempt.leaves (accept d c w)) := by
  rcases accept_cases d c w with ⟨haccept, hlive⟩ | ⟨haccept, -⟩ <;> rw [haccept]
  · exact .single (.push d hlive hc)
  · exact .refl

theorem touches_addTexture (d : Nat) (size : Extent) (storage : Nat) (w : World) :
    w.Touches given (Attempt.leaves (addTexture d size storage w)) :=
  .tail (.single (.count d ((w.workers d).created + 1) _)) (.number (w.workers d).device)

theorem touches_openShare (d shared : Nat) (size : Extent) (w : World) :
    w.Touches given (Attempt.leaves (openShare d shared size w)) := by
  simp only [openShare]
  split
  · exact .refl
  · split
    · exact .refl
    · exact touches_addTexture d size _ w

theorem touches_write (d : Nat) (t : Texture) (data : Pixels) (w : World) :
    w.Touches [t] (Attempt.leaves (write d t data w)) := by
  simp only [write]
  split
  · exact .refl
  · rename_i hdata
    exact touches_accept (.write (List.mem_singleton_self t) (Decidable.not_not.1 hdata)) d w

theorem touches_read (d : Nat) (t : Texture) (w : World) :
    w.Touches [t] (Attempt.leaves (read d t w)) := by
  have hread : Command.About [t] (.read t.storage w.receiverCount) :=
    .read (List.mem_singleton_self t) w.receiverCount
  simp only [read]
  rcases accept_cases d (.read t.storage w.receiverCount) w
    with ⟨haccept, hlive⟩ | ⟨haccept, -⟩ <;> rw [haccept]
  · exact .tail (.single (.push d hlive hread)) .openReceiver
  · exact .refl

theorem touches_stage (d : Nat) (t s : Texture) (region : Extent) (w : World) :
    w.Touches [t, s] (Attempt.leaves (stage d t s region w)) := by
  simp only [stage]
  split
  · exact .refl
  · rename_i hcovers
    split
    · exact .refl
    · rename_i hapart
      obtain ⟨hsource, htarget⟩ := Bool.and_eq_true_iff.1 (by simpa using hcovers)
      exact touches_accept (.copy (by simp) (by simp) hsource htarget hapart) d w

/-- **What a call does.** -/
theorem Prompt.touches {act : Attempt World α} (h : Prompt given act) (w : World) :
    w.Touches given (Attempt.leaves (act w)) := by
  cases h with
  | alive d r =>
    simp only [Concurrent.alive]
    split <;> exact .refl
  | newTexture d size => exact .head (.allocate size) (touches_addTexture d size w.storageCount _)
  | freeTexture d t =>
    exact .tail (.single (.withdraw (w.workers d).device t.id)) (.count d _ _)
  | countDestroyed d => exact .single (.count d _ _)
  | share d t => exact .single (.share (w.workers d).device (List.mem_singleton_self t))
  | openShare d shared size => exact touches_openShare d shared size w
  | newMarker d => exact .single (.count d _ _)
  | record d m =>
    rcases record_cases d m w with ⟨hrecord, hlive⟩ | ⟨hrecord, -⟩ <;> rw [hrecord]
    · exact .single (.sign d hlive)
    · exact .single (.useCount d)
  | poll d m => exact .refl
  | write d t data => exact touches_write d t data w
  | read d t => exact touches_read d t w
  | stage d t s region => exact touches_stage d t s region w

end SurfaceRelay.Soft
