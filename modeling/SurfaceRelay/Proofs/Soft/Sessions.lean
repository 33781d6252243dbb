import Mathlib.Logic.Relation
import SurfaceRelay.Proofs.Soft.Onward

/-! What a session does to its world.

Whatever a step of a session asks for, it changes the world in one of five ways, and often enough
in several of them one after the other: an event happens, a worker starts, handles are counted, a
receiver is looked into, or a domain answers a call at once (`World.Change`). The textures that the
call is given are held by the session. So what is to be true in every session only has to survive
these changes (`State.changes_step`). -/
namespace SurfaceRelay.Soft.World
variable {held : Texture → Prop} {w w' : World} {α : Type}

/-- One change of a world, by whoever holds these textures. -/
inductive Change (held : Texture → Prop) (w : World) : World → Prop
  | happen (e : Event) : w.Change held (w.happen e)
  | startWorker (label : String) (device : Nat) :
    w.Change held (w.startWorker label device).2
  | setHandles (d handles : Nat) :
    w.Change held (w.setWorker d { w.workers d with handles })
  | receive (r : Nat) : w.Change held (w.receive r).2
  | prompt {α : Type} {given : List Texture} {act : Attempt World α} (h : Prompt given act)
      (hgiven : ∀ t ∈ given, held t) : w.Change held (Attempt.leaves (act w))

/-- Changes one after the other. -/
abbrev Changes (held : Texture → Prop) : World → World → Prop :=
  Relation.ReflTransGen (Change held)

theorem changes_executeMany (w : World) (d n : Nat) : w.Changes held (w.executeMany d n) := by
  induction n generalizing w with
  | zero => exact .refl
  | succ n ih => exact .head (.happen (.execute d)) (ih (w.executeNext d))

theorem changes_elapse (w : World) (events : List Event) : w.Changes held (w.elapse events) := by
  induction events generalizing w with
  | nil => exact .refl
  | cons e events ih => exact .head (.happen e) (ih (w.happen e))

theorem changes_letGo (w : World) (d : Nat) : w.Changes held (w.letGo d) := by
  have hcounted : w.Change held (w.setWorker d
      { w.workers d with handles := (w.workers d).handles - 1 }) := .setHandles d _
  simp only [letGo]
  split
  · exact .tail (.head hcounted (changes_executeMany _ d _)) (.happen (.kill d))
  · exact .single hcounted

theorem changes_complete (w : World) (d : Nat) :
    w.Changes held (Attempt.leaves (complete d w)) := by
  have hdrained : w.Changes held (w.drain d) := changes_executeMany w d _
  simp only [complete]
  split
  · exact .refl
  · exact hdrained.tail (.happen (.kill d))
  · split <;> exact hdrained

end SurfaceRelay.Soft.World

namespace SurfaceRelay.Session.SoftDomains.State
open SurfaceRelay.Soft
variable {s : State} {α : Type}

/-- The texture is held under some name. -/
def Holds (s : State) (t : Texture) : Prop := ∃ name, s.textures.get? name = some t

theorem world_attempt (s : State) (act : Attempt World α) {next : α → State → Answer × State}
    (hnext : ∀ a s', (next a s').2.world = s'.world) :
    (s.attempt act next).2.world = Attempt.leaves (act s.world) := by
  simp only [State.attempt, Attempt.outcome]
  cases act s.world with
  | ok a w => exact hnext a (s.onWorld w)
  | error e w => rfl

/-- A later state of the session, with what was done to the world in between. -/
def Leads (s s' : State) : Prop := s.world.Changes s.Holds s'.world

namespace Leads

theorem refl (s : State) : s.Leads s := Relation.ReflTransGen.refl

theorem letGo {s' : State} (h : s.Leads s') (name : String) : s.Leads (s'.letGo name) := by
  simp only [State.letGo]
  split
  · exact h
  · exact h.trans (World.changes_letGo _ _)

/-- A call that a step makes. -/
theorem attempt {given : List Texture} {act : Attempt World α} (hact : Prompt given act)
    (hgiven : ∀ t ∈ given, s.Holds t) {next : α → State → Answer × State}
    (hnext : ∀ a s', (next a s').2.world = s'.world) : s.Leads (s.attempt act next).2 := by
  rw [Leads, world_attempt s act hnext]
  exact .single (.prompt hact hgiven)

end Leads

/-- **What a step does to the world.** -/
theorem leads_after (s : State) (x : Step) : s.Leads (s.after x) := by
  have hs := Leads.refl s
  have hnone (t : Texture) (ht : t ∈ []) : s.Holds t := by cases ht
  have hone {t : Texture} {name : String} (ht : s.textures.get? name = some t) :
      ∀ u ∈ [t], s.Holds u := by
    rintro u hu
    exact ⟨name, List.mem_singleton.1 hu ▸ ht⟩
  cases x with
  | start name device => exact (hs.letGo name).tail (.startWorker name device)
  | keep name copy =>
    refine after_withDomain hs fun d => ?_
    have hkept : s.Leads (s.onWorld (s.world.keep d)) := .single (.setHandles d _)
    exact hkept.letGo copy
  | letGo name => exact after_withDomain hs fun _ => hs.letGo name
  | texture d t size =>
    exact after_withDomain hs fun d => .attempt (.newTexture d size) hnone fun _ _ => rfl
  | staging d t size =>
    exact after_withDomain hs fun d => .attempt (.newTexture d size) hnone fun _ _ => rfl
  | openShare d t shared size =>
    exact after_withDomain hs fun d => .attempt (.openShare d shared size) hnone fun _ _ => rfl
  | share d t =>
    exact after_withTexture hs fun d t ht => .attempt (.share d t) (hone ht) fun _ _ => rfl
  | aliasTexture t copy =>
    simp only [after, State.step]
    cases s.textures.get? t <;> exact hs
  | write d t data =>
    exact after_withTexture hs fun d t ht =>
      .attempt (.write d t data) (hone ht) fun _ _ => rfl
  | convert d t data =>
    exact after_withTexture hs fun d t ht =>
      .attempt (.write d t data) (hone ht) fun _ _ => rfl
  | read d t r =>
    exact after_withTexture hs fun d t ht => .attempt (.read d t) (hone ht) fun _ _ => rfl
  | receive r =>
    simp only [after, State.step]
    cases s.reads.get? r with
    | none => exact hs
    | some receiver => exact .single (.receive receiver)
  | forget r =>
    simp only [after, State.step]
    cases s.reads.get? r <;> exact hs
  | copy d t dest region =>
    simp only [after, State.step]
    cases hdest : s.textures.get? dest with
    | none => exact hs
    | some staging =>
      refine after_withTexture hs fun d t ht =>
        .attempt (.stage d t staging region) (fun u hu => ?_) fun _ _ => rfl
      rcases List.mem_cons.1 hu with rfl | hu
      · exact ⟨_, ht⟩
      · exact hone hdest u hu
  | map d t =>
    refine after_withTexture hs fun d _ _ => ?_
    rw [Leads, world_attempt s (complete d) fun _ _ => rfl]
    exact World.changes_complete s.world d
  | freeTexture d t =>
    refine after_withTexture hs fun d texture ht => ?_
    rw [Leads, world_attempt _ (freeTexture d texture) fun _ _ => rfl]
    exact .single (.prompt (.freeTexture d texture) (hone ht))
  | freeStaging d t =>
    refine after_withTexture hs fun d texture _ => ?_
    rw [Leads, world_attempt _ (freeStaging d texture) fun _ _ => rfl]
    exact .single (.prompt (.countDestroyed d) hnone)
  | marker d m =>
    exact after_withDomain hs fun d => .attempt (.newMarker d) hnone fun _ _ => rfl
  | record d m =>
    exact after_withMarker hs fun d m => .attempt (.record d m) hnone fun _ _ => rfl
  | poll d m =>
    exact after_withMarker hs fun d m => .attempt (.poll d m) hnone fun _ _ => rfl
  | freeMarker d m =>
    refine after_withMarker hs fun d m => ?_
    rw [Leads, world_attempt _ (freeMarker d m) fun _ _ => rfl]
    exact .single (.prompt (.countDestroyed d) hnone)
  | advance d limit =>
    exact after_withDomain hs fun d => World.changes_executeMany s.world d _
  | kill d => exact after_withDomain hs fun d => .single (.happen (.kill d))
  | doom d => exact after_withDomain hs fun d => .single (.happen (.doom d))

end SurfaceRelay.Session.SoftDomains.State
