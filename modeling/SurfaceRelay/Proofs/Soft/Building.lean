import SurfaceRelay.Proofs.Soft.Calls
import SurfaceRelay.Proofs.Surface

/-! Calls that give way, on the ledger.

Whatever a call does to the ledger it also does when the workers go on with their work first.
Making a surface adds entries for its storages and changes none that are there; unmaking one
changes none at all. -/
namespace SurfaceRelay.Soft

variable {p c : Nat} {σ : Statuses} {issued : List (Nat × Option Pixels)} {w : World}
  {x : Concurrent} {α : Type}

/-! ### Calls that give way -/

theorem Ledger.elapse (h : Ledger p c σ issued w) (events : List Event) :
    Ledger p c σ issued (w.elapse events) := by
  induction events generalizing w with
  | nil => exact h
  | cons e events ih => exact ih (h.progress (World.progress_happen w e))

theorem Ledger.yield (h : Ledger p c σ issued x.world) : Ledger p c σ issued x.yield.world := by
  simp only [Concurrent.yield]
  split
  · exact h
  · exact h.elapse _

theorem devices_elapse (w : World) (events : List Event) :
    (w.elapse events).devices = w.devices ∧
      ∀ d, ((w.elapse events).workers d).device = (w.workers d).device := by
  induction events generalizing w with
  | nil => exact ⟨rfl, fun _ => rfl⟩
  | cons e events ih =>
    have hfirst := World.progress_happen w e
    obtain ⟨hdevices, hdevice⟩ := ih (w.happen e)
    exact ⟨hdevices.trans hfirst.devices, fun d => (hdevice d).trans (hfirst.device d)⟩

/-- No event changes what is exported, or whose device is whose. -/
theorem devices_yield (x : Concurrent) : x.yield.world.devices = x.world.devices ∧
    ∀ d, (x.yield.world.workers d).device = (x.world.workers d).device := by
  simp only [Concurrent.yield]
  split
  · exact ⟨rfl, fun _ => rfl⟩
  · exact devices_elapse _ _

namespace Concurrent

theorem call_ok {act : Attempt World α} {x x' : Concurrent} {a : α}
    (h : call act x = .ok a x') : act x.yield.world = .ok a x'.world := by
  simp only [call] at h
  split at h
  · rename_i hact
    cases h
    exact hact
  · cases h

theorem call_error {act : Attempt World α} {x x' : Concurrent} {e : Fault}
    (h : call act x = .error e x') : act x.yield.world = .error e x'.world := by
  simp only [call] at h
  split at h
  · cases h
  · rename_i hact
    cases h
    exact hact

/-- A call keeps what the plain call and all events keep. -/
theorem keeps_call {J : World → Prop} {act : Attempt World α}
    (hyield : ∀ x : Concurrent, J x.world → J x.yield.world) (hact : act.Keeps J) :
    (call act).Keeps fun x => J x.world := by
  intro x hx
  have hx := hyield x hx
  simp only [Attempt.outcome, call]
  rcases hr : act x.yield.world with ⟨a, w⟩ | ⟨e, w⟩
  · exact hact.ok hr hx
  · exact hact.error hr hx

end Concurrent

/-- A call keeps the ledger when the plain call does. -/
theorem keeps_call {act : Attempt World α} (hact : act.Keeps (Ledger p c σ issued)) :
    (Concurrent.call act).Keeps fun x => Ledger p c σ issued x.world :=
  Concurrent.keeps_call (fun _ => Ledger.yield) hact

/-- A frame that is converted into a texture the consumer may write is on its way there. -/
theorem identity_ledger (h : Ledger p c σ issued x.world) {t : Texture}
    (ht : σ t.storage = some .writable) (frame : Pixels) :
    (∃ x', Concurrent.identity c frame t x = .ok () x' ∧
      Ledger p c (Table.put σ t.storage (some (.landing frame))) issued x'.world) ∨
    ∃ e x', Concurrent.identity c frame t x = .error e x' ∧ Ledger p c σ issued x'.world := by
  simp only [Concurrent.identity, Concurrent.call]
  rcases write_ledger h.yield ht frame with ⟨w', hwrite, hledger⟩ | ⟨e, hwrite⟩
  · rw [hwrite]
    exact .inl ⟨_, rfl, hledger⟩
  · rw [hwrite]
    exact .inr ⟨_, _, rfl, h.yield⟩

theorem poll_keeps (d : Nat) (m : Marker) : (poll d m).Keeps (Ledger p c σ issued) :=
  Attempt.keeps_of_leaves fun _ h => h

/-- A map keeps the ledger, whether or not it completes. -/
theorem blockOn_keeps (d : Nat) :
    (Concurrent.blockOn d).Keeps fun x => Ledger p c σ issued x.world := by
  have halive (r : Refusal) : (Concurrent.alive d r).Keeps (Ledger p c σ issued) := by
    refine Attempt.keeps_of_leaves fun w h => ?_
    simp only [Concurrent.alive]
    split <;> exact h
  have hcomplete : (complete d).Keeps (Ledger p c σ issued) :=
    Attempt.keeps_of_leaves fun w h => complete_ledger h d
  exact Attempt.keeps_bind (keeps_call (halive _))
    fun _ => keeps_call (Attempt.keeps_bind (halive _) fun _ => hcomplete)

/-- A map that completes leaves its worker alive and with nothing to do. -/
theorem blockOn_idle {d : Nat} {x x' : Concurrent} (hok : Concurrent.blockOn d x = .ok () x') :
    x'.world.queue d = [] ∧ ¬x'.world.Dead d := by
  obtain ⟨_, x₁, -, hrest⟩ := Attempt.bind_ok hok
  obtain ⟨_, w₁, -, hcomplete⟩ := Attempt.bind_ok (Concurrent.call_ok hrest)
  exact complete_idle hcomplete

/-- Draining a domain for a surface keeps the ledger. -/
theorem drain_keeps {d : Nat} {t s : Texture} (hs : σ s.storage = some .scratch)
    (region : Extent) :
    ((Concurrent.domain d).drain t s region).Keeps fun x => Ledger p c σ issued x.world :=
  Attempt.keeps_bind
    (keeps_call (Attempt.keeps_of_leaves fun _ h => stage_ledger h d hs region))
    fun _ => blockOn_keeps d

theorem drain_idle {d : Nat} {t s : Texture} {region : Extent} {x x' : Concurrent}
    (hok : (Concurrent.domain d).drain t s region x = .ok () x') :
    x'.world.queue d = [] ∧ ¬x'.world.Dead d := by
  obtain ⟨_, x₁, -, hblock⟩ := Attempt.bind_ok hok
  exact blockOn_idle hblock

/-! ### Building and destroying -/

/-- The ledger stands, with more entries than these perhaps. -/
def Extends (p c : Nat) (σ : Statuses) (issued : List (Nat × Option Pixels)) (w : World) : Prop :=
  ∃ σ', (∀ i st, σ i = some st → σ' i = some st) ∧ Ledger p c σ' issued w

theorem Ledger.extends (h : Ledger p c σ issued w) : Extends p c σ issued w :=
  ⟨σ, fun _ _ hi => hi, h⟩

/-- An entry for a storage that was not known changes none of the others. -/
theorem extends_put {i : Nat} (hi : σ i = none) (st : Status) {j : Nat} {st' : Status}
    (hj : σ j = some st') : Table.put σ i (some st) j = some st' := by
  rw [Table.put_other _ fun he => by rw [he, hi] at hj; cases hj]
  exact hj

theorem extends_keeps {act : Attempt World α}
    (h : ∀ σ, act.Keeps (Ledger p c σ issued)) :
    (Concurrent.call act).Keeps fun x => Extends p c σ issued x.world := by
  refine Concurrent.keeps_call (fun x hx => ?_) fun w hw => ?_
  · obtain ⟨σ', hle, hx⟩ := hx
    exact ⟨σ', hle, hx.yield⟩
  · obtain ⟨σ', hle, hw⟩ := hw
    exact ⟨σ', hle, h σ' w hw⟩

theorem newTexture_keeps (d : Nat) (size : Extent) :
    (Concurrent.call (newTexture d size)).Keeps fun x => Extends p c σ issued x.world := by
  refine Concurrent.keeps_call (fun x hx => ?_) (Attempt.keeps_of_leaves fun w hw => ?_)
  · obtain ⟨σ', hle, hx⟩ := hx
    exact ⟨σ', hle, hx.yield⟩
  · obtain ⟨σ', hle, hw⟩ := hw
    obtain ⟨t, w', hnew, hnone, hledger⟩ := newTexture_ledger hw .scratch (.inl rfl) d size
    rw [hnew]
    exact ⟨_, fun j st hj => extends_put hnone _ (hle j st hj), hledger⟩

theorem freeTexture_keeps (d : Nat) (t : Texture) :
    (freeTexture d t).Keeps (Ledger p c σ issued) :=
  Attempt.keeps_of_leaves fun _ h => (h.setDevice _ _).count d _ _ _

theorem countDestroyed_keeps (d : Nat) : (countDestroyed d).Keeps (Ledger p c σ issued) :=
  Attempt.keeps_of_leaves fun _ h => h.count d _ _ _

theorem share_keeps (d : Nat) (t : Texture) : (share d t).Keeps (Ledger p c σ issued) := by
  refine Attempt.keeps_of_leaves fun w h => ?_
  obtain ⟨w', hshare, hledger, -⟩ := share_ledger h d t
  rw [hshare]
  exact hledger

theorem newMarker_keeps (d : Nat) : (newMarker d).Keeps (Ledger p c σ issued) :=
  Attempt.keeps_of_leaves fun _ h => h.count d _ _ _

theorem openShare_keeps (d shared : Nat) (size : Extent) :
    (openShare d shared size).Keeps (Ledger p c σ issued) :=
  Attempt.keeps_of_leaves fun _ h => (openShare_ledger h d shared size).1

/-- Making and destroying resources adds entries at most. -/
theorem untouched : Surface.Untouched (Concurrent.backend p c)
    fun x => Extends p c σ issued x.world where
  newTexture size := newTexture_keeps p size
  share t := extends_keeps fun _ => share_keeps p t
  newStaging size := newTexture_keeps p size
  newMarker := extends_keeps fun _ => newMarker_keeps p
  openShare shared size := extends_keeps fun _ => openShare_keeps c shared size
  newViewStaging size := newTexture_keeps c size
  freeTexture t := extends_keeps fun _ => freeTexture_keeps p t
  freeStaging _ := extends_keeps fun _ => countDestroyed_keeps p
  freeMarker _ := extends_keeps fun _ => countDestroyed_keeps p
  freeView v := extends_keeps fun _ => freeTexture_keeps c v
  freeViewStaging _ := extends_keeps fun _ => countDestroyed_keeps c

theorem exported_yield {d shared storage : Nat} (h : Exported d shared storage x.world) :
    Exported d shared storage x.yield.world := by
  obtain ⟨hdevices, hdevice⟩ := devices_yield x
  rw [Exported, hdevices, hdevice]
  exact h

/-- A surface that was built has entries of its own, and its view shows its texture. -/
theorem build_ledger (h : Ledger p c σ issued x.world) {k : Handle} {size stagingSize : Extent}
    {s : Surface Texture Marker Texture} {x' : Concurrent}
    (hb : Surface.build (Concurrent.backend p c) k size stagingSize x = .ok s x') :
    ∃ σ', (∀ i st, σ i = some st → σ' i = some st) ∧ Ledger p c σ' issued x'.world ∧
      s.view.storage = s.texture.storage ∧ σ s.texture.storage = none ∧
      σ' s.texture.storage = some .writable ∧ σ' s.staging.storage = some .scratch ∧
      σ' s.viewStaging.storage = some .scratch := by
  obtain ⟨-, -, -, shared, x₁, x₂, x₃, x₄, x₅, htexture, hshare, hstaging, hmarker, hview,
    hviewStaging⟩ := Surface.build_ok _ k hb
  -- the texture
  obtain ⟨t, w₁, hnew, hnone, h₁⟩ := newTexture_ledger h.yield .writable (.inr rfl) p size
  rw [show newTexture p size _ = _ from Concurrent.call_ok htexture] at hnew
  cases hnew
  obtain ⟨w₂, hshared, h₂, hexported⟩ := share_ledger h₁.yield p s.texture
  rw [show share p s.texture _ = _ from Concurrent.call_ok hshare] at hshared
  cases hshared
  -- the staging resource and the marker
  have hstaging : newTexture p stagingSize _ = _ := Concurrent.call_ok hstaging
  obtain ⟨t, w₃, hnew, hnone₂, h₃⟩ := newTexture_ledger h₂.yield .scratch (.inl rfl) p stagingSize
  have hexported := (newTexture_exported p stagingSize).ok hstaging (exported_yield hexported)
  rw [hstaging] at hnew
  cases hnew
  have h₄ := (keeps_call (newMarker_keeps p)).ok hmarker h₃
  have hmarker : newMarker p _ = _ := Concurrent.call_ok hmarker
  have hexported := (newMarker_exported p).ok hmarker (exported_yield hexported)
  -- the view, and its staging resource
  have h₅ := (keeps_call (openShare_keeps c _ size)).ok hview h₄
  have hview : openShare c s.texture.id size _ = _ := Concurrent.call_ok hview
  have hview : Exported c _ s.view.storage _ := (openShare_ledger h₄.yield c _ size).2 _ _ hview
  have hexported := exported_yield hexported
  rw [Exported, h₄.yield.device, hview, Option.some_inj] at hexported
  obtain ⟨t, w₆, hnew, hnone₆, h₆⟩ := newTexture_ledger h₅.yield .scratch (.inl rfl) c stagingSize
  rw [show newTexture c stagingSize _ = _ from Concurrent.call_ok hviewStaging] at hnew
  cases hnew
  refine ⟨_, fun i st hi => ?_, h₆, hexported, hnone, ?_, ?_, Table.put_same ..⟩
  · exact extends_put hnone₆ _ (extends_put hnone₂ _ (extends_put hnone _ hi))
  · exact extends_put hnone₆ _ (extends_put hnone₂ _ (Table.put_same ..))
  · exact extends_put hnone₆ _ (Table.put_same ..)

end SurfaceRelay.Soft
