import SurfaceRelay.Proofs.Soft.Onward

/-! What leaves share handles alone.

Of all that is done with software domains only two calls have to do with share handles: one makes
a handle known to its device, the other withdraws the number of a texture that is destroyed.
Everything else leaves the handles of every device as they are, and gives out new numbers at most
(`World.Quiet`). That goes for the other calls (`Discreet`), for maps, for workers that get on or
die, for domains that are cloned or let go, and so for all that an embedder does who neither shares
nor destroys a texture (`Undisturbed`). -/
namespace SurfaceRelay.Soft
variable {w w' w'' : World} {α : Type} {given : List Texture}

/-- No share handle appears or goes, and numbers that were given out stay so. -/
structure World.Quiet (w w' : World) : Prop where
  device : ∀ d, (w'.workers d).device = (w.workers d).device
  exports : ∀ i, (w'.devices i).exports = (w.devices i).exports
  lastId : ∀ i, (w.devices i).lastId ≤ (w'.devices i).lastId

namespace World.Quiet

theorem refl (w : World) : w.Quiet w := ⟨fun _ => rfl, fun _ => rfl, fun _ => Nat.le_refl _⟩

theorem trans (h : w.Quiet w') (h' : w'.Quiet w'') : w.Quiet w'' where
  device d := (h'.device d).trans (h.device d)
  exports i := (h'.exports i).trans (h.exports i)
  lastId i := Nat.le_trans (h.lastId i) (h'.lastId i)

theorem of_devices (hdevice : ∀ d, (w'.workers d).device = (w.workers d).device)
    (hdevices : w'.devices = w.devices) : w.Quiet w' :=
  ⟨hdevice, fun _ => by rw [hdevices], fun _ => Nat.le_of_eq (by rw [hdevices])⟩

theorem progress (h : w.Progress w') : w.Quiet w' := .of_devices h.device h.devices

/-- The books of a worker can be changed. -/
theorem setWorker {d : Nat} {k : Worker} (hk : k.device = (w.workers d).device) :
    w.Quiet (w.setWorker d k) := by
  refine .of_devices (fun e => ?_) rfl
  rw [workers_setWorker]
  split
  · rename_i he
    rw [he, hk]
  · rfl

/-- Numbers can be given out. -/
theorem setDevice {i : Nat} {v : Device} (hexports : v.exports = (w.devices i).exports)
    (hlastId : (w.devices i).lastId ≤ v.lastId) : w.Quiet (w.setDevice i v) := by
  have hdevice (j : Nat) : ((w.setDevice i v).devices j).exports = (w.devices j).exports ∧
      (w.devices j).lastId ≤ ((w.setDevice i v).devices j).lastId := by
    by_cases hj : j = i
    · subst hj
      rw [show (w.setDevice j v).devices j = v from Table.put_same ..]
      exact ⟨hexports, hlastId⟩
    · rw [show (w.setDevice i v).devices j = w.devices j from Table.put_other _ hj]
      exact ⟨rfl, Nat.le_refl _⟩
  exact ⟨fun _ => rfl, fun j => (hdevice j).1, fun j => (hdevice j).2⟩

end World.Quiet

open World (Quiet)

/-! ### Calls -/

/-- Whether it succeeds or fails, the call leaves share handles alone. -/
def Discreet (act : Attempt World α) : Prop := ∀ w : World, w.Quiet (Attempt.leaves (act w))

namespace Discreet
variable {act : Attempt World α}

theorem ok {a : α} (h : Discreet act) (hact : act w = .ok a w') : w.Quiet w' := by
  have hquiet := h w
  rwa [hact] at hquiet

theorem error {e : Fault} (h : Discreet act) (hact : act w = .error e w') : w.Quiet w' := by
  have hquiet := h w
  rwa [hact] at hquiet

/-- No prompt call moves a worker to another device, so it is enough that devices stay the same. -/
theorem of_devices (h : Prompt given act)
    (hdevices : ∀ w, (Attempt.leaves (act w)).devices = w.devices) : Discreet act :=
  fun w => .of_devices (h.onward w).device (hdevices w)

theorem devices_accept (d : Nat) (c : Command) (w : World) :
    (Attempt.leaves (accept d c w)).devices = w.devices := by
  simp only [accept]
  split <;> rfl

theorem alive (d : Nat) (r : Refusal) : Discreet (Concurrent.alive d r) :=
  of_devices (.alive d r) fun w => by
    simp only [Concurrent.alive]
    split <;> rfl

theorem countDestroyed (d : Nat) : Discreet (countDestroyed d) :=
  of_devices (.countDestroyed d) fun _ => rfl

theorem newMarker (d : Nat) : Discreet (newMarker d) := of_devices (.newMarker d) fun _ => rfl

theorem poll (d : Nat) (m : Marker) : Discreet (poll d m) := of_devices (.poll d m) fun _ => rfl

theorem record (d : Nat) (m : Marker) : Discreet (record d m) :=
  of_devices (.record d m) fun w => by
    rcases record_cases d m w with ⟨hrecord, -⟩ | ⟨hrecord, -⟩ <;> rw [hrecord] <;> rfl

theorem write (d : Nat) (t : Texture) (data : Pixels) : Discreet (write d t data) :=
  of_devices (.write d t data) fun w => by
    simp only [Soft.write]
    split
    · rfl
    · exact devices_accept ..

theorem read (d : Nat) (t : Texture) : Discreet (read d t) :=
  of_devices (.read d t) fun w => by
    have haccept := devices_accept d (.read t.storage w.receiverCount) w
    simp only [Soft.read]
    cases hr : accept d (.read t.storage w.receiverCount) w <;> rwa [hr] at haccept

theorem stage (d : Nat) (t s : Texture) (region : Extent) : Discreet (stage d t s region) :=
  of_devices (.stage d t s region) fun w => by
    simp only [Soft.stage]
    split
    · rfl
    · split
      · rfl
      · exact devices_accept ..

/-- A new texture takes a number. -/
theorem addTexture (d : Nat) (size : Extent) (storage : Nat) :
    Discreet (addTexture d size storage) := by
  intro w
  have hcounted : w.Quiet (w.setWorker d _) :=
    .setWorker (k := { w.workers d with created := (w.workers d).created + 1 }) rfl
  exact hcounted.trans (.setDevice rfl (Nat.le_succ _))

theorem newTexture (d : Nat) (size : Extent) : Discreet (newTexture d size) := by
  intro w
  have hallocated : w.Quiet (w.allocate (.blank size)) := .of_devices (fun _ => rfl) rfl
  exact hallocated.trans (addTexture d size w.storageCount _)

theorem openShare (d shared : Nat) (size : Extent) : Discreet (openShare d shared size) := by
  intro w
  simp only [Soft.openShare]
  split
  · exact .refl w
  · split
    · exact .refl w
    · exact addTexture d size _ w

end Discreet

/-! ### Watched domains -/

namespace Watched
variable {x x' : Watched} {act : Attempt World α}

theorem quiet_working (w : World) : Working fun x => w.Quiet x.world where
  reschedule _ _ hx := hx
  happen x e hx := by
    have hworld : (x.happen e).world = x.world.happen e :=
      congrArg Concurrent.world (toConcurrent_happen x e)
    rw [hworld]
    exact hx.trans (.progress (World.progress_happen x.world e))

theorem quiet_yield (x : Watched) : x.world.Quiet x.yield.world :=
  (quiet_working x.world).yield (.refl _)

theorem quiet_call (hact : Discreet act) (w : World) : (call act).Keeps fun x => w.Quiet x.world :=
  (quiet_working w).call_of_entered fun x hx => hx.trans (hact x.world)

theorem quiet_blockOn (d : Nat) (w : World) : (blockOn d).Keeps fun x => w.Quiet x.world :=
  Attempt.keeps_bind (quiet_call (.alive d _) w) fun _ => (quiet_working w).finish d

theorem quiet_drain (d : Nat) (t s : Texture) (region : Extent) (w : World) :
    ((domain d).drain t s region).Keeps fun x => w.Quiet x.world :=
  Attempt.keeps_bind (quiet_call (.stage d t s region) w) fun _ => quiet_blockOn d w

/-! ### Embedders -/

/-- No texture is shared or destroyed. -/
def Deed.discreet : Deed → Bool
  | share .. | freeTexture .. => false
  | newTexture .. | openShare .. | write .. | read .. | copy .. | map .. => true
  | record .. | poll .. | receive .. | happen .. => true

/-- One thing that an embedder does between two requests, or that happens to a worker. -/
inductive Aside (x : Watched) : Watched → Prop
  | deed {deed : Deed} (h : deed.discreet = true) : Aside x (x.perform deed)
  | keep (d : Nat) : Aside x (x.keep d)
  | letGo (d : Nat) : Aside x (x.letGo d)

/-- What may come of a world in which nobody but a pool shares or destroys textures. -/
abbrev Undisturbed : Watched → Watched → Prop := Relation.ReflTransGen Aside

theorem quiet_perform {deed : Deed} (h : deed.discreet = true) (x : Watched) :
    x.world.Quiet (x.perform deed).world := by
  have hcall {α : Type} {act : Attempt World α} (hact : Discreet act) :=
    quiet_call hact x.world x (.refl _)
  cases deed with
  | share | freeTexture => cases h
  | newTexture d size => exact hcall (.newTexture d size)
  | openShare d shared size => exact hcall (.openShare d shared size)
  | write d t data => exact hcall (.write d t data)
  | read d t => exact hcall (.read d t)
  | copy d t s region => exact hcall (.stage d t s region)
  | map d => exact quiet_blockOn d x.world x (.refl _)
  | record d m => exact hcall (.record d m)
  | poll d m => exact hcall (.poll d m)
  | receive r => exact .progress (World.progress_receive x.world r)
  | happen e => exact (quiet_working x.world).happen x e (.refl _)

theorem Aside.quiet (h : x.Aside x') : x.world.Quiet x'.world := by
  cases h with
  | deed h => exact quiet_perform h x
  | keep d => exact (quiet_yield x).trans (.setWorker rfl)
  | letGo d =>
    have hcounted : x.world.Quiet (x.yield.world.setWorker d { x.yield.world.workers d with
        handles := (x.yield.world.workers d).handles - 1 }) :=
      (quiet_yield x).trans (.setWorker rfl)
    simp only [Watched.letGo]
    split
    · refine (quiet_working x.world).happen _ (.kill d) ?_
      exact (quiet_working x.world).executeMany d _ hcounted
    · exact hcounted

theorem Undisturbed.quiet (h : Undisturbed x x') : x.world.Quiet x'.world := by
  induction h with
  | refl => exact .refl _
  | tail _ h ih => exact ih.trans h.quiet

end Watched
end SurfaceRelay.Soft
