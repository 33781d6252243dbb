import SurfaceRelay.Proofs.Soft.Lasting
import SurfaceRelay.Proofs.Soft.Views

/-! What never goes back.

Workers get on, calls are made, embedders do as they like: whatever happens in a world, a worker
stays on its device and a dead one stays dead, storages are only added, and each keeps as many
bytes as it was made with. `World.Onward` says so of two moments. It is proved once for every event
and once for what calls do (`Prompt.onward`), so it lasts through every turn of a pool and through
whatever is done in between (`onward_lasting`). -/
namespace SurfaceRelay.Soft
variable {w w' w'' : World} {α : Type} {given : List Texture}

/-- What a later world has in common with an earlier one. -/
structure World.Onward (w w' : World) : Prop where
  device : ∀ d, (w'.workers d).device = (w.workers d).device
  storageCount : w.storageCount ≤ w'.storageCount
  dead : ∀ d, w.Dead d → w'.Dead d
  fits : w.Fits → w'.Fits
  lengths : w.Fits → ∀ i < w.storageCount, (w'.storages i).length = (w.storages i).length

namespace World.Onward

theorem refl (w : World) : w.Onward w :=
  ⟨fun _ => rfl, Nat.le_refl _, fun _ h => h, id, fun _ _ _ => rfl⟩

theorem trans (h : w.Onward w') (h' : w'.Onward w'') : w.Onward w'' where
  device d := (h'.device d).trans (h.device d)
  storageCount := Nat.le_trans h.storageCount h'.storageCount
  dead d hd := h'.dead d (h.dead d hd)
  fits hw := h'.fits (h.fits hw)
  lengths hw i hi := (h'.lengths (h.fits hw) i (Nat.lt_of_lt_of_le hi h.storageCount)).trans
    (h.lengths hw i hi)

theorem progress (hp : w.Progress w')
    (hlengths : w.Fits → ∀ i, (w'.storages i).length = (w.storages i).length) : w.Onward w' where
  device := hp.device
  storageCount := Nat.le_of_eq hp.storageCount.symm
  dead := hp.dead
  fits hw d source target region hc := hw d source target region (hp.mem hc)
  lengths hw i _ := hlengths hw i

/-! ### Events -/

theorem die (w : World) (d : Nat) : w.Onward (w.die d) :=
  progress (progress_die w d) fun _ => length_die w d

theorem executeNext (w : World) (d : Nat) : w.Onward (w.executeNext d) :=
  progress (progress_executeNext w d) fun hw => length_executeNext hw d

theorem happen (w : World) (event : Event) : w.Onward (w.happen event) := by
  cases event with
  | execute d => exact executeNext w d
  | kill d => exact die w d
  | doom d => exact progress (progress_doom w d) fun _ _ => rfl

/-! ### Calls -/

theorem setDevice (w : World) (i : Nat) (v : Device) : w.Onward (w.setDevice i v) :=
  ⟨fun _ => rfl, Nat.le_refl _, fun _ h => h, id, fun _ _ _ => rfl⟩

/-- Counting what a worker made, or which marker it recorded last. -/
theorem count (w : World) (d created destroyed : Nat) {lastCount : Nat}
    (hcount : (w.workers d).lastCount ≤ lastCount) :
    w.Onward (w.setWorker d { w.workers d with created, destroyed, lastCount }) :=
  progress (progress_setWorker rfl rfl rfl hcount Iff.rfl) fun _ _ => rfl

theorem allocate (w : World) (data : Pixels) : w.Onward (w.allocate data) where
  device _ := rfl
  storageCount := Nat.le_succ _
  dead _ h := h
  fits := id
  lengths _ _ hi := congrArg List.length (storages_allocate w data hi)

/-- A copy that is accepted must lie within its target. -/
theorem push (w : World) (d : Nat) {c : Command}
    (hc : ∀ source target region, c = .copy source target region →
      target.size.covers region = true) : w.Onward (w.push d c) where
  device e := by rw [workers_push]
  storageCount := Nat.le_refl _
  dead e := (dead_push w d e c).2
  fits hw e source target region hmem := by
    rcases mem_push hmem with hmem | ⟨-, hmem⟩
    · exact hw e source target region hmem
    · exact hc source target region hmem.symm
  lengths _ _ _ := rfl

end World.Onward

open World (Onward)

theorem World.Touch.onward (h : w.Touch given w') : w.Onward w' := by
  cases h with
  | count d => exact .count w d _ _ (Nat.le_refl _)
  | useCount d => exact .count w d _ _ (Nat.le_succ _)
  | number i | share i | withdraw i => exact .setDevice w i _
  | allocate size => exact .allocate w _
  | openReceiver => exact ⟨fun _ => rfl, Nat.le_refl _, fun _ h => h, id, fun _ _ _ => rfl⟩
  | push d _ hc => exact .push w d hc.covers
  | sign d =>
    have hcounted : w.Onward (w.useCount d) := .count w d _ _ (Nat.le_succ _)
    exact hcounted.trans (.push _ d fun _ _ _ hc => by cases hc)

/-- The world only moves onward, whether the call succeeds or not. -/
theorem Prompt.onward {act : Attempt World α} (h : Prompt given act) (w : World) :
    w.Onward (Attempt.leaves (act w)) := by
  have htouches := h.touches w
  generalize Attempt.leaves (act w) = w' at htouches ⊢
  induction htouches with
  | refl => exact .refl w
  | tail _ htouch ih => exact ih.trans htouch.onward

/-! ### Watched domains -/

namespace Watched
variable {x x' : Watched}

theorem call_ok {act : Attempt World α} {a : α} (h : call act x = .ok a x') :
    act x.yield.world = .ok a x'.world := by
  simp only [call] at h
  split at h <;> cases h
  assumption

theorem call_error {act : Attempt World α} {e : Fault} (h : call act x = .error e x') :
    act x.yield.world = .error e x'.world := by
  simp only [call] at h
  split at h <;> cases h
  assumption

/-- **The world of watched domains only moves onward.** -/
theorem onward_lasting (w : World) : Lasting fun x => w.Onward x.world where
  reschedule _ _ hx := hx
  happen x e hx := by
    have hworld : (x.happen e).world = x.world.happen e :=
      congrArg Concurrent.world (toConcurrent_happen x e)
    rw [hworld]
    exact hx.trans (.happen x.world e)
  prompt hact x hx := hx.trans (hact.onward x.world)
  receive x r hx := by
    refine hx.trans (.progress (World.progress_receive x.world r) fun _ i => ?_)
    exact congrArg (fun s => (s i).length) (World.storages_receive x.world r)

theorem onward_yield (x : Watched) : x.world.Onward x.yield.world :=
  (onward_lasting x.world).yield (.refl _)

theorem onward_call {act : Attempt World α} (hact : Prompt given act) (w : World) :
    (call act).Keeps fun x => w.Onward x.world := (onward_lasting w).call hact

/-- The world of a pool only moves onward. -/
theorem onward_backend (p c : Nat) (w : World) :
    (backend p c).Keeps fun x => w.Onward x.world := (onward_lasting w).backend p c

/-- So does the world of whatever an embedder does in between. -/
theorem Meanwhile.onward (h : Meanwhile x x') : x.world.Onward x'.world :=
  (onward_lasting x.world).meanwhile h (.refl _)

end Watched
end SurfaceRelay.Soft
