import Mathlib.Data.List.Nodup
import SurfaceRelay.Proofs.Soft.Touches
import SurfaceRelay.Session.SoftDomains

/-! Views of one storage.

A share handle stands for a storage and not for a texture, so a texture that is opened has
whatever extent it was opened with, as long as that takes as many bytes as the storage has. No
command ever changes how many bytes these are (`World.Shaped`): a write fills its storage exactly,
and a copy stays within its target (`length_blit`). So textures that show one storage always have
the same number of bytes, and they have the same sides when every texture was opened with the
sides of the one that its storage was made for (`views_agree_in_bytes`). That nothing makes sure of:
a square can be opened as a strip (`square_opened_as_strip`). Bytes are counted without a bound,
as 64-bit words count them below `2 ^ 64` (`Extent.toNat_byteWord`). -/
namespace SurfaceRelay.Soft

/-! ### Commands keep the length of a storage -/

/-- Rows that are copied into an image do not make it longer or shorter. -/
theorem length_copyRows {row fromStride toStride rows : Nat} {source target result : Pixels}
    (h : copyRows row fromStride toStride rows source target = some result)
    (hle : row ≤ toStride) : result.length = target.length := by
  induction rows generalizing source target result with
  | zero =>
    cases h
    rfl
  | succ rows ih =>
    simp only [copyRows, Option.ite_none_right_eq_some] at h
    obtain ⟨⟨hbytes, htarget⟩, h⟩ := h
    obtain ⟨rest, hrest, rfl⟩ := Option.map_eq_some_iff.1 h
    have hlength := ih hrest
    rw [List.length_take] at htarget
    simp only [List.length_append, List.length_drop, List.length_take] at hlength hbytes ⊢
    omega

theorem length_blit {region sourceSize targetSize : Extent} {source target result : Pixels}
    (h : blit region sourceSize targetSize source target = some result)
    (hcovers : targetSize.covers region = true) : result.length = target.length :=
  length_copyRows h (Nat.mul_le_mul_right _ ((Extent.covers_iff ..).1 hcovers).1)

namespace World

/-- Every copy that is still to execute lies within its target. -/
def Fits (w : World) : Prop :=
  ∀ d source target region, .copy source target region ∈ w.queue d →
    target.size.covers region = true

theorem length_execute {w w' : World} {d : Nat} {c : Command} (h : w.execute d c = some w')
    (hfits : ∀ source target region, c = .copy source target region →
      target.size.covers region = true) (i : Nat) :
    (w'.storages i).length = (w.storages i).length := by
  have hput {j : Nat} {x : Pixels} (hx : x.length = (w.storages j).length) :
      ((w.setStorage j x).storages i).length = (w.storages i).length := by
    by_cases hi : i = j
    · subst hi
      rw [show (w.setStorage i x).storages i = x from Table.put_same ..]
      exact hx
    · rw [show (w.setStorage j x).storages i = w.storages i from Table.put_other _ hi]
  cases c with
  | write storage data =>
    obtain ⟨x, hx, rfl⟩ := Option.map_eq_some_iff.1 h
    simp only [Pixels.overwrite, Option.ite_none_right_eq_some, Option.some_inj] at hx
    exact hput (hx.2 ▸ hx.1.symm)
  | read storage receiver =>
    cases h
    rfl
  | copy source target region =>
    obtain ⟨x, hx, rfl⟩ := Option.map_eq_some_iff.1 h
    exact hput (length_blit hx (hfits source target region rfl))
  | retire count =>
    cases h
    rfl

theorem length_die (w : World) (d i : Nat) :
    ((w.die d).storages i).length = (w.storages i).length := by
  obtain ⟨receivers, hdie, -⟩ := die_eq w d
  rw [hdie]
  rfl

theorem length_executeNext {w : World} (hfits : w.Fits) (d i : Nat) :
    ((w.executeNext d).storages i).length = (w.storages i).length := by
  simp only [executeNext]
  cases hq : (w.workers d).queue with
  | nil => rfl
  | cons c rest =>
    dsimp only
    have hcopy (source target : Texture) (region : Extent)
        (hc : c = .copy source target region) : target.size.covers region = true := by
      refine hfits d source target region ?_
      rw [queue, hq, hc]
      exact List.mem_cons_self ..
    split
    · rename_i w' hexec
      exact length_execute hexec hcopy i
    · rw [length_die]
      rfl

theorem storages_receive (w : World) (i : Nat) : (w.receive i).2.storages = w.storages := by
  simp only [receive]
  split <;> rfl

/-! ### Storages keep their length -/

/-- The storages of these textures have the bytes that the textures take, and nothing else is
exported. -/
structure Shaped (made : List Texture) (w : World) : Prop where
  fits : w.Fits
  bytes : ∀ t ∈ made, t.storage < w.storageCount ∧
    (w.storages t.storage).length = t.size.byteCount
  exported : ∀ device shared i, (w.devices device).exports shared = some i →
    ∃ t ∈ made, t.storage = i

variable {made given : List Texture} {w w' : World}

theorem shaped_blank : ({} : World).Shaped [] :=
  ⟨fun _ _ _ _ hc => (by cases hc), fun _ ht => (by cases ht), fun _ _ _ h => (by cases h)⟩

namespace Shaped

/-- What workers do on their own. -/
theorem progress (h : w.Shaped made) (hp : w.Progress w')
    (hlength : ∀ i, (w'.storages i).length = (w.storages i).length) : w'.Shaped made := by
  refine ⟨fun d source target region hc => h.fits d source target region (hp.mem hc),
    fun t ht => ?_, ?_⟩
  · rw [hp.storageCount, hlength]
    exact h.bytes t ht
  · rw [hp.devices]
    exact h.exported

theorem die (h : w.Shaped made) (d : Nat) : (w.die d).Shaped made :=
  h.progress (progress_die w d) (length_die w d)

theorem executeMany (h : w.Shaped made) (d n : Nat) : (w.executeMany d n).Shaped made := by
  induction n generalizing w with
  | zero => exact h
  | succ n ih => exact ih (h.progress (progress_executeNext w d) (length_executeNext h.fits d))

/-- The books of a worker can be changed. -/
theorem setWorker (h : w.Shaped made) {d : Nat} {k : Worker} (hqueue : k.queue = w.queue d) :
    (w.setWorker d k).Shaped made := by
  refine ⟨fun e source target region hc => ?_, h.bytes, h.exported⟩
  rw [queue_setWorker] at hc
  split at hc
  · exact h.fits d source target region (hqueue ▸ hc)
  · exact h.fits e source target region hc

theorem letGo (h : w.Shaped made) (d : Nat) : (w.letGo d).Shaped made := by
  have hkept : (w.setWorker d { w.workers d with handles := (w.workers d).handles - 1 }).Shaped
      made := h.setWorker rfl
  simp only [World.letGo]
  split
  · exact (hkept.executeMany d _).die d
  · exact hkept

theorem startWorker (h : w.Shaped made) (label : String) (device : Nat) :
    (w.startWorker label device).2.Shaped made := by
  refine ⟨fun e source target region hc => ?_, h.bytes, h.exported⟩
  have hqueue : (w.startWorker label device).2.queue e =
      if e = w.workerCount then [] else w.queue e := queue_setWorker w _ e _
  rw [hqueue] at hc
  split at hc
  · cases hc
  · exact h.fits e source target region hc

theorem push (h : w.Shaped made) (d : Nat) {c : Command}
    (hc : ∀ source target region, c = .copy source target region →
      target.size.covers region = true) : (w.push d c).Shaped made := by
  refine ⟨fun e source target region hmem => ?_, h.bytes, h.exported⟩
  rcases mem_push hmem with hmem | ⟨-, hmem⟩
  · exact h.fits e source target region hmem
  · exact hc source target region hmem.symm

/-- The exports of a device may change, as long as nothing unknown is exported. -/
theorem setDevice (h : w.Shaped made) {i : Nat} {v : Device}
    (hv : ∀ shared j, v.exports shared = some j → ∃ t ∈ made, t.storage = j) :
    (w.setDevice i v).Shaped made := by
  refine ⟨h.fits, h.bytes, fun device shared j hj => ?_⟩
  by_cases hi : device = i
  · subst hi
    rw [show (w.setDevice device v).devices device = v from Table.put_same ..] at hj
    exact hv shared j hj
  · rw [show (w.setDevice i v).devices device = w.devices device from Table.put_other _ hi] at hj
    exact h.exported device shared j hj

/-- A new storage may be there for a texture that is made. -/
theorem allocate (h : w.Shaped made) (size : Extent) : (w.allocate (.blank size)).Shaped made := by
  refine ⟨h.fits, fun u hu => ?_, h.exported⟩
  obtain ⟨hlt, hlength⟩ := h.bytes u hu
  exact ⟨Nat.lt_succ_of_lt hlt, by rw [storages_allocate w _ hlt, hlength]⟩

/-- One texture more was made. -/
theorem add (h : w.Shaped made) {t : Texture} (hknown : t.storage < w.storageCount)
    (hlength : (w.storages t.storage).length = t.size.byteCount) : w.Shaped (made ++ [t]) := by
  refine ⟨h.fits, fun u hu => ?_, fun device shared i hi => ?_⟩
  · rcases List.mem_append.1 hu with hu | hu
    · exact h.bytes u hu
    · exact List.mem_singleton.1 hu ▸ ⟨hknown, hlength⟩
  · obtain ⟨u, hu, hui⟩ := h.exported device shared i hi
    exact ⟨u, List.mem_append_left _ hu, hui⟩

/-- What is shared must have been made. -/
theorem touch (h : w.Shaped made) (hgiven : ∀ t ∈ given, ∃ u ∈ made, u.storage = t.storage)
    (htouch : w.Touch given w') : w'.Shaped made := by
  cases htouch with
  | count | useCount => exact h.setWorker rfl
  | number i => exact h.setDevice fun shared j hj => h.exported i shared j hj
  | @share i t ht =>
    refine h.setDevice fun shared j hj => ?_
    by_cases hs : shared = t.id
    · subst hs
      cases (Table.put_same ..).symm.trans hj
      exact hgiven t ht
    · exact h.exported _ shared j ((Table.put_other _ hs).symm.trans hj)
  | withdraw i gone =>
    refine h.setDevice fun shared j hj => ?_
    by_cases hs : shared = gone
    · subst hs
      cases (Table.put_same ..).symm.trans hj
    · exact h.exported _ shared j ((Table.put_other _ hs).symm.trans hj)
  | allocate size => exact h.allocate size
  | openReceiver => exact ⟨h.fits, h.bytes, h.exported⟩
  | push d _ hc => exact h.push d hc.covers
  | sign d =>
    have hcounted : (w.useCount d).Shaped made := h.setWorker rfl
    exact hcounted.push d fun _ _ _ hc => by cases hc

theorem touches (h : w.Shaped made) (hgiven : ∀ t ∈ given, ∃ u ∈ made, u.storage = t.storage)
    (htouches : w.Touches given w') : w'.Shaped made := by
  induction htouches with
  | refl => exact h
  | tail _ htouch ih => exact ih.touch hgiven htouch

end Shaped
end World

/-! ### Calls -/

section
variable {made given : List Texture} {d : Nat}

theorem Prompt.shaped {α : Type} {act : Attempt World α} (h : Prompt given act)
    (hgiven : ∀ t ∈ given, ∃ u ∈ made, u.storage = t.storage) : act.Keeps (World.Shaped made) :=
  Attempt.keeps_of_leaves fun w hw => hw.touches hgiven (h.touches w)

theorem complete_shaped : (complete d).Keeps (World.Shaped made) := by
  refine Attempt.keeps_of_leaves fun w h => ?_
  have hdrained : (w.drain d).Shaped made := h.executeMany d _
  simp only [complete]
  split
  · exact h
  · exact hdrained.die d
  · split
    · exact hdrained
    · exact hdrained

/-- A texture that is made has a storage of its own. -/
theorem newTexture_shaped {w : World} (h : w.Shaped made) (d : Nat) (size : Extent) :
    ∃ t w', newTexture d size w = .ok t w' ∧ w'.Shaped (made ++ [t]) ∧
      ∀ u ∈ made, u.storage ≠ t.storage := by
  let t : Texture :=
    ⟨(w.devices (w.workers d).device).lastId + 1, size, w.storageCount⟩
  have hblank : ((w.allocate (.blank size)).storages w.storageCount).length = size.byteCount := by
    rw [show (w.allocate (.blank size)).storages w.storageCount = .blank size from
      Table.put_same ..]
    exact List.length_replicate
  have hallocated : (w.allocate (.blank size)).Shaped (made ++ [t]) :=
    (h.allocate size).add (Nat.lt_succ_self _) hblank
  have htouches : World.Touches [] _ _ :=
    touches_addTexture d size w.storageCount (w.allocate (.blank size))
  exact ⟨t, _, rfl, hallocated.touches (List.forall_mem_nil _) htouches,
    fun u hu => Nat.ne_of_lt (h.bytes u hu).1⟩

/-- What is opened shows a storage that was made, with as many bytes. -/
theorem openShare_ok {w w' : World} (h : w.Shaped made) {shared : Nat} {size : Extent} {v : Texture}
    (hopen : openShare d shared size w = .ok v w') :
    v.size = size ∧ ∃ t ∈ made, t.storage = v.storage ∧ t.size.byteCount = v.size.byteCount := by
  simp only [openShare] at hopen
  split at hopen
  · cases hopen
  · rename_i storage hstorage
    split at hopen
    · cases hopen
    · rename_i hlength
      cases hopen
      obtain ⟨t, ht, rfl⟩ := h.exported _ shared storage hstorage
      refine ⟨rfl, t, ht, rfl, ?_⟩
      rw [← (h.bytes t ht).2]
      exact Decidable.not_not.1 hlength

/-- A share handle can be opened with any extent of as many bytes as its storage has, and with no
other. -/
theorem openShare_iff {w : World} {shared storage : Nat} (h : Exported d shared storage w)
    (size : Extent) :
    (size.byteCount = (w.storages storage).length →
      ∃ v w', openShare d shared size w = .ok v w' ∧ v.size = size ∧ v.storage = storage) ∧
    (size.byteCount ≠ (w.storages storage).length →
      openShare d shared size w = .error (Refusal.shareMismatch shared size).fault w) := by
  have hexports : (w.devices (w.workers d).device).exports shared = some storage := h
  simp only [openShare, hexports]
  refine ⟨fun hsize => ?_, fun hsize => if_pos (Ne.symm hsize)⟩
  rw [if_neg (by simp [hsize])]
  exact ⟨_, _, rfl, rfl, rfl⟩

end
end SurfaceRelay.Soft

/-! ### Sessions -/

namespace SurfaceRelay.Session.SoftDomains
open SurfaceRelay.Soft

/-- The step makes a texture with a storage of its own. -/
def Step.makes : Step → Bool
  | texture .. | staging .. => true
  | _ => false

/-- The step opens a share handle. -/
def Step.opens : Step → Bool
  | openShare .. => true
  | _ => false

namespace State

/-- The state after a step. A step that names something that does not exist does nothing. -/
def after (s : State) (x : Step) : State := ((s.step x).map (·.2)).getD s

def run (s : State) (steps : List Step) : State := steps.foldl after s

/-- The texture that a step answers. -/
def answered (s : State) (x : Step) : List Texture :=
  match s.step x with
  | some (.ok (.texture t), _) => [t]
  | _ => []

/-- The textures that the steps of one kind answer, in a run. -/
def answers (kind : Step → Bool) : State → List Step → List Texture
  | _, [] => []
  | s, x :: rest => (if kind x then s.answered x else []) ++ answers kind (s.after x) rest

/-- The textures that were made in a run, each with a storage of its own. -/
abbrev made : State → List Step → List Texture := answers Step.makes

/-- The textures that were opened in a run. -/
abbrev opened : State → List Step → List Texture := answers Step.opens

/-! A step that names something that does not exist does nothing. -/

section
variable {s : State} {P : State → Prop}

theorem after_withDomain (h : P s) {d : String} {next : Nat → Except Fault Answer × State}
    (hnext : ∀ k, P (next k).2) : P (((s.withDomain d next).map (·.2)).getD s) := by
  simp only [State.withDomain]
  cases s.domains.get? d with
  | none => exact h
  | some k => exact hnext k

theorem after_withTexture (h : P s) {d name : String}
    {next : Nat → Texture → Except Fault Answer × State}
    (hnext : ∀ k t, s.textures.get? name = some t → P (next k t).2) :
    P (((s.withTexture d name next).map (·.2)).getD s) := by
  simp only [State.withTexture]
  cases s.domains.get? d with
  | none => exact h
  | some k =>
    cases ht : s.textures.get? name with
    | none => exact h
    | some t => exact hnext k t ht

theorem after_withMarker (h : P s) {d name : String}
    {next : Nat → Marker → Except Fault Answer × State} (hnext : ∀ k m, P (next k m).2) :
    P (((s.withMarker d name next).map (·.2)).getD s) := by
  simp only [State.withMarker]
  cases s.domains.get? d with
  | none => exact h
  | some k =>
    cases s.markers.get? name with
    | none => exact h
    | some m => exact hnext k m

end

/-- Every texture that was opened has as many bytes as the one its storage was made for. -/
structure Agreeing (made opened : List Texture) (s : State) : Prop where
  world : s.world.Shaped made
  apart : (made.map (·.storage)).Nodup
  views : ∀ v ∈ opened, ∃ t ∈ made, t.storage = v.storage ∧ t.size.byteCount = v.size.byteCount
  held : ∀ r ∈ s.textures, r.2 ∈ made ∨ r.2 ∈ opened

variable {made opened : List Texture} {s s' : State} {α : Type}

namespace Agreeing

theorem of_textures (h : s.Agreeing made opened) (hw : s'.world.Shaped made)
    (ht : ∀ r ∈ s'.textures, r ∈ s.textures) : s'.Agreeing made opened :=
  ⟨hw, h.apart, h.views, fun r hr => h.held r (ht r hr)⟩

/-- A texture that is held shows a storage that was made, with as many bytes. -/
theorem view (h : s.Agreeing made opened) {name : String} {t : Texture}
    (ht : s.textures.get? name = some t) :
    ∃ u ∈ made, u.storage = t.storage ∧ u.size.byteCount = t.size.byteCount := by
  rcases h.held _ (Registers.mem_of_get? ht) with hmade | hopened
  · exact ⟨t, hmade, rfl, rfl⟩
  · exact h.views t hopened

/-- An operation that neither makes nor opens a texture. -/
theorem attempt (h : s.Agreeing made opened) {act : Attempt World α}
    (hact : act.Keeps (World.Shaped made)) {next : α → State → Answer × State}
    (hnext : ∀ a s', (next a s').2.world = s'.world ∧
      ∀ r ∈ (next a s').2.textures, r ∈ s'.textures) :
    (s.attempt act next).2.Agreeing made opened := by
  have hw := hact.leaves h.world
  simp only [State.attempt, Attempt.outcome]
  rcases hres : act s.world with ⟨a, w⟩ | ⟨e, w⟩ <;> rw [hres] at hw
  · obtain ⟨hworld, htextures⟩ := hnext a (s.onWorld w)
    exact h.of_textures (hworld ▸ hw) htextures
  · exact h.of_textures hw fun _ hr => hr

theorem letGo (h : s.Agreeing made opened) (name : String) :
    (s.letGo name).Agreeing made opened := by
  simp only [State.letGo]
  split
  · exact h
  · exact h.of_textures (h.world.letGo _) fun _ hr => hr

/-- A step that makes or opens a texture puts it under its name. -/
theorem put (h : s.Agreeing made opened) (hw : s'.world.Shaped made) {t : Texture} {name : String}
    (ht : t ∈ made ∨ t ∈ opened) (htextures : s'.textures = s.textures.put name t) :
    s'.Agreeing made opened := by
  refine ⟨hw, h.apart, h.views, fun r hr => ?_⟩
  rw [htextures] at hr
  rcases Registers.mem_put hr with rfl | hr
  · exact ht
  · exact h.held r hr

/-- A texture can go out of a session. -/
theorem erase (h : s.Agreeing made opened) (name : String) :
    { s with textures := s.textures.erase name }.Agreeing made opened :=
  h.of_textures h.world fun _ hr => Registers.mem_of_mem_erase hr

theorem step (h : s.Agreeing made opened) {x : Step} (hmakes : x.makes = false)
    (hopens : x.opens = false) : (s.after x).Agreeing made opened := by
  have hdone {s : State} (h : s.Agreeing made opened) {α : Type} {act : Attempt World α}
      (hact : act.Keeps (World.Shaped made)) :
      (s.attempt act fun _ s => s.done).2.Agreeing made opened :=
    h.attempt hact fun _ _ => ⟨rfl, fun _ hr => hr⟩
  have hnone (t : Texture) (ht : t ∈ []) : ∃ u ∈ made, u.storage = t.storage := by cases ht
  have hone {name : String} {t : Texture} (ht : s.textures.get? name = some t) :
      ∀ v ∈ [t], ∃ u ∈ made, u.storage = v.storage := by
    intro v hv
    obtain ⟨u, hu, hstorage, -⟩ := h.view ht
    exact ⟨u, hu, List.mem_singleton.1 hv ▸ hstorage⟩
  cases x with
  | texture | staging => cases hmakes
  | openShare => cases hopens
  | start name device =>
    exact (h.letGo name).of_textures ((h.letGo name).world.startWorker name device) fun _ hr => hr
  | keep name copy =>
    refine after_withDomain h fun d => ?_
    have hkept : (s.onWorld (s.world.keep d)).Agreeing made opened :=
      h.of_textures (h.world.setWorker rfl) fun _ hr => hr
    exact (hkept.letGo copy).of_textures (hkept.letGo copy).world fun _ hr => hr
  | letGo name => exact after_withDomain h fun _ => h.letGo name
  | share d t =>
    exact after_withTexture h fun d t ht =>
      h.attempt ((Prompt.share d t).shaped (hone ht)) fun _ _ => ⟨rfl, fun _ hr => hr⟩
  | aliasTexture t copy =>
    simp only [after, State.step]
    cases ht : s.textures.get? t with
    | none => exact h
    | some t => exact h.put h.world (h.held _ (Registers.mem_of_get? ht)) rfl
  | write d t data | convert d t data =>
    exact after_withTexture h fun d t ht => hdone h ((Prompt.write d t data).shaped (hone ht))
  | read d t r =>
    exact after_withTexture h fun d t ht =>
      h.attempt ((Prompt.read d t).shaped (hone ht)) fun _ _ => ⟨rfl, fun _ hr => hr⟩
  | receive r =>
    simp only [after, State.step]
    cases s.reads.get? r with
    | none => exact h
    | some receiver =>
      exact h.of_textures (h.world.progress (World.progress_receive s.world receiver) fun i =>
        congrArg (fun storages => (storages i).length) (World.storages_receive s.world receiver))
        fun _ hr => hr
  | forget r =>
    simp only [after, State.step]
    cases s.reads.get? r with
    | none => exact h
    | some receiver => exact h.of_textures h.world fun _ hr => hr
  | copy d t dest region =>
    simp only [after, State.step]
    cases hdest : s.textures.get? dest with
    | none => exact h
    | some staging =>
      refine after_withTexture h fun d t ht => hdone h
        ((Prompt.stage d t staging region).shaped (List.forall_mem_cons.2 ⟨?_, hone hdest⟩))
      exact hone ht t (List.mem_singleton_self t)
  | map d t => exact after_withTexture h fun _ _ _ => hdone h complete_shaped
  | freeTexture d t =>
    exact after_withTexture h fun d texture ht =>
      hdone (h.erase t) ((Prompt.freeTexture d texture).shaped (hone ht))
  | freeStaging d t =>
    exact after_withTexture h fun d _ _ =>
      hdone (h.erase t) ((Prompt.countDestroyed d).shaped hnone)
  | marker d m =>
    exact after_withDomain h fun d =>
      h.attempt ((Prompt.newMarker d).shaped hnone) fun _ _ => ⟨rfl, fun _ hr => hr⟩
  | record d m =>
    exact after_withMarker h fun d m =>
      h.attempt ((Prompt.record d m).shaped hnone) fun _ _ => ⟨rfl, fun _ hr => hr⟩
  | poll d m =>
    exact after_withMarker h fun d m =>
      h.attempt ((Prompt.poll d m).shaped hnone) fun _ _ => ⟨rfl, fun _ hr => hr⟩
  | freeMarker d m =>
    refine after_withMarker h fun d _ => ?_
    exact hdone (s := { s with markers := s.markers.erase m })
      (h.of_textures h.world fun _ hr => hr) ((Prompt.countDestroyed d).shaped hnone)
  | advance d limit =>
    exact after_withDomain h fun k => h.of_textures (h.world.executeMany k _) fun _ hr => hr
  | kill d => exact after_withDomain h fun k => h.of_textures (h.world.die k) fun _ hr => hr
  | doom d => exact after_withDomain h fun k => h.of_textures (h.world.setWorker rfl) fun _ hr => hr

/-- What a step makes has a storage of its own. -/
theorem step_makes (h : s.Agreeing made opened) {x : Step} (hx : x.makes = true) :
    (s.after x).Agreeing (made ++ s.answered x) opened := by
  obtain ⟨d, name, size, hstep⟩ : ∃ d name size, s.step x =
      s.withDomain d fun k => s.attempt (newTexture k size) (putTexture name) := by
    cases x with
    | texture d name size => exact ⟨d, name, size, rfl⟩
    | staging d name size => exact ⟨d, name, size, rfl⟩
    | _ => cases hx
  simp only [after, answered, hstep, State.withDomain]
  cases s.domains.get? d with
  | none =>
    rw [Option.map_none, Option.map_none, Option.getD_none, List.append_nil]
    exact h
  | some k =>
    obtain ⟨t, w', hmake, hw, hapart⟩ := newTexture_shaped h.world k size
    have hattempt : s.attempt (newTexture k size) (putTexture name) =
        (.ok (.texture t), { s with world := w', textures := s.textures.put name t }) := by
      simp only [State.attempt, Attempt.outcome, hmake]
      rfl
    rw [Option.map_some, hattempt]
    refine ⟨hw, ?_, fun v hv => ?_, fun r hr => ?_⟩
    · rw [List.map_append, List.nodup_append]
      refine ⟨h.apart, List.pairwise_singleton .., fun i hi j hj => ?_⟩
      obtain ⟨u, hu, rfl⟩ := List.mem_map.1 hi
      exact List.mem_singleton.1 hj ▸ hapart u hu
    · obtain ⟨u, hu, hviews⟩ := h.views v hv
      exact ⟨u, List.mem_append_left _ hu, hviews⟩
    · rcases Registers.mem_put hr with rfl | hr
      · exact .inl (List.mem_append_right _ (List.mem_singleton_self t))
      · exact (h.held r hr).imp_left (List.mem_append_left _)

/-- What a step opens shows a storage that was made, with as many bytes. -/
theorem step_opens (h : s.Agreeing made opened) {x : Step} (hx : x.opens = true) :
    (s.after x).Agreeing made (opened ++ s.answered x) := by
  obtain ⟨d, name, shared, size, hstep⟩ : ∃ d name shared size, s.step x =
      s.withDomain d fun k => s.attempt (openShare k shared size) (putTexture name) := by
    cases x with
    | openShare d name shared size => exact ⟨d, name, shared, size, rfl⟩
    | _ => cases hx
  simp only [after, answered, hstep, State.withDomain]
  cases s.domains.get? d with
  | none =>
    rw [Option.map_none, Option.map_none, Option.getD_none, List.append_nil]
    exact h
  | some k =>
    have hkept := ((Prompt.openShare k shared size).shaped (List.forall_mem_nil _)).leaves h.world
    rw [Option.map_some]
    simp only [State.attempt, Attempt.outcome]
    rcases hopen : openShare k shared size s.world with ⟨v, w'⟩ | ⟨e, w'⟩ <;> rw [hopen] at hkept
    · obtain ⟨-, hview⟩ := openShare_ok h.world hopen
      refine ⟨hkept, h.apart, fun u hu => ?_, fun r hr => ?_⟩
      · rcases List.mem_append.1 hu with hu | hu
        · exact h.views u hu
        · exact List.mem_singleton.1 hu ▸ hview
      · rcases Registers.mem_put hr with rfl | hr
        · exact .inr (List.mem_append_right _ (List.mem_singleton_self v))
        · exact (h.held r hr).imp_right (List.mem_append_left _)
    · dsimp only
      rw [List.append_nil]
      exact h.of_textures hkept fun _ hr => hr

theorem run (h : s.Agreeing made opened) (steps : List Step) :
    (s.run steps).Agreeing (made ++ State.made s steps) (opened ++ State.opened s steps) := by
  induction steps generalizing s made opened with
  | nil =>
    show s.Agreeing (made ++ []) (opened ++ [])
    rw [List.append_nil, List.append_nil]
    exact h
  | cons x steps ih =>
    have hcons (kind : Step → Bool) : State.answers kind s (x :: steps) =
        (if kind x then s.answered x else []) ++ State.answers kind (s.after x) steps := rfl
    rw [State.made, State.opened, hcons, hcons, ← List.append_assoc, ← List.append_assoc]
    refine ih ?_
    cases hmakes : x.makes with
    | true =>
      have hopens : x.opens = false := by cases x <;> first | rfl | cases hmakes
      simpa [hopens] using h.step_makes hmakes
    | false =>
      cases hopens : x.opens with
      | true => simpa using h.step_opens hopens
      | false => simpa using h.step hmakes hopens

/-- A storage is made for one texture. -/
theorem unique (h : s.Agreeing made opened) {t u : Texture} (ht : t ∈ made) (hu : u ∈ made)
    (hsame : t.storage = u.storage) : t = u := List.inj_on_of_nodup_map h.apart ht hu hsame

/-- Textures that show one storage have the same number of bytes. -/
theorem bytes_agree (h : s.Agreeing made opened) {a b : String} {t u : Texture}
    (ht : s.textures.get? a = some t) (hu : s.textures.get? b = some u)
    (hsame : t.storage = u.storage) : t.size.byteCount = u.size.byteCount := by
  obtain ⟨t', ht', hstorage, hbytes⟩ := h.view ht
  obtain ⟨u', hu', hstorage', hbytes'⟩ := h.view hu
  have heq : t' = u' := h.unique ht' hu' (hstorage.trans (hsame.trans hstorage'.symm))
  rw [← hbytes, ← hbytes', heq]

/-- They have the same sides when everything was opened with the sides of what was made. -/
theorem sides_agree (h : s.Agreeing made opened)
    (hfaithful : ∀ v ∈ opened, ∀ t ∈ made, t.storage = v.storage → t.size = v.size)
    {a b : String} {t u : Texture} (ht : s.textures.get? a = some t)
    (hu : s.textures.get? b = some u) (hsame : t.storage = u.storage) : t.size = u.size := by
  -- what is held has the sides of the texture that its storage was made for
  have horigin {name : String} {t : Texture} (ht : s.textures.get? name = some t) :
      ∃ o ∈ made, o.storage = t.storage ∧ o.size = t.size := by
    obtain ⟨o, ho, hstorage, -⟩ := h.view ht
    rcases h.held _ (Registers.mem_of_get? ht) with hmade | hopened
    · exact ⟨t, hmade, rfl, rfl⟩
    · exact ⟨o, ho, hstorage, hfaithful t hopened o ho hstorage⟩
  obtain ⟨t', ht', hstorage, hsize⟩ := horigin ht
  obtain ⟨u', hu', hstorage', hsize'⟩ := horigin hu
  have heq : t' = u' := h.unique ht' hu' (hstorage.trans (hsame.trans hstorage'.symm))
  rw [← hsize, ← hsize', heq]

end Agreeing

theorem agreeing_blank : ({} : State).Agreeing [] [] :=
  ⟨World.shaped_blank, .nil, fun _ hv => (by cases hv), fun _ hr => (by cases hr)⟩

/-- **Views of one storage agree in their bytes.** After any steps of a session, textures that
show one storage have the same number of bytes. They have the same sides as well if everything
that was opened in the session was opened with the sides of the texture that its storage was made
for. A share handle can be opened with any extent that has as many bytes as a texture with its
storage has, and with no other. This is meant of images with less than `2 ^ 64` bytes, where
comparing byte counts is comparing 64-bit words. -/
theorem views_agree_in_bytes (steps : List Step) :
    let s := ({} : State).run steps
    (∀ a b t u, s.textures.get? a = some t → s.textures.get? b = some u →
      t.storage = u.storage → t.size.byteCount = u.size.byteCount) ∧
    ((∀ v ∈ State.opened {} steps, ∀ t ∈ State.made {} steps, t.storage = v.storage →
        t.size = v.size) →
      ∀ a b t u, s.textures.get? a = some t → s.textures.get? b = some u →
        t.storage = u.storage → t.size = u.size) ∧
    ∀ d k a b t shared size, s.domains.get? d = some k → s.textures.get? a = some t →
      Exported k shared t.storage s.world →
      (size.byteCount = t.size.byteCount → ∃ v s',
        s.step (.openShare d b shared size) = some (.ok (.texture v), s') ∧ v.size = size ∧
          v.storage = t.storage) ∧
      (size.byteCount ≠ t.size.byteCount →
        s.step (.openShare d b shared size) =
          some (.error (Refusal.shareMismatch shared size).fault, s)) := by
  intro s
  have h : s.Agreeing (State.made {} steps) (State.opened {} steps) := agreeing_blank.run steps
  refine ⟨fun _ _ _ _ => h.bytes_agree, fun hfaithful _ _ _ _ => h.sides_agree hfaithful,
    fun d k a b t shared size hd ht hexported => ?_⟩
  obtain ⟨o, ho, hstorage, hbytes⟩ := h.view ht
  have hlength : (s.world.storages t.storage).length = t.size.byteCount := by
    rw [← hstorage, (h.world.bytes o ho).2, hbytes]
  obtain ⟨hopen, hrefuse⟩ := openShare_iff hexported size
  rw [hlength] at hopen hrefuse
  have hstep : s.step (.openShare d b shared size) =
      some (s.attempt (openShare k shared size) (putTexture b)) := by
    simp only [State.step, State.withDomain, hd, Option.map_some]
  rw [hstep]
  refine ⟨fun hsize => ?_, fun hsize => ?_⟩
  · obtain ⟨v, w', hok, hv⟩ := hopen hsize
    simp only [State.attempt, Attempt.outcome, hok]
    exact ⟨v, _, rfl, hv⟩
  · simp only [State.attempt, Attempt.outcome, hrefuse hsize]
    rfl

/-- A square of two by two, shared. -/
def square : List Step := [.start "d" 0, .texture "d" "square" ⟨2, 2⟩, .share "d" "square"]

/-- A view of the square that was opened as a square has its sides. A strip of three pixels is
refused, because the square has four. -/
theorem views_agree_in_bytes_square :
    let s := ({} : State).run (square ++ [.openShare "d" "view" 1 ⟨2, 2⟩])
    (∃ t u, s.textures.get? "square" = some t ∧ s.textures.get? "view" = some u ∧
      t.storage = u.storage ∧ t.size = u.size) ∧
    s.step (.openShare "d" "strip" 1 ⟨3, 1⟩) =
      some (.error (.allocation "share handle 1 does not match 3x1"), s) := by
  obtain ⟨-, hsides, hopen⟩ := views_agree_in_bytes (square ++ [.openShare "d" "view" 1 ⟨2, 2⟩])
  refine ⟨⟨⟨1, ⟨2, 2⟩, 0⟩, ⟨2, ⟨2, 2⟩, 0⟩, rfl, rfl, rfl, ?_⟩, ?_⟩
  · exact hsides (by decide) "square" "view" ⟨1, ⟨2, 2⟩, 0⟩ ⟨2, ⟨2, 2⟩, 0⟩ rfl rfl rfl
  · exact (hopen "d" 0 "square" "strip" ⟨1, ⟨2, 2⟩, 0⟩ 1 ⟨3, 1⟩ rfl rfl rfl).2 (by decide)

/-- **A square opened as a strip.** A share handle of a square of two by two is opened as a strip
of four by one. Both show the same storage, and their rows are not the same. -/
theorem square_opened_as_strip :
    let s := ({} : State).run (square ++ [.openShare "d" "strip" 1 ⟨4, 1⟩])
    ∃ t u, s.textures.get? "square" = some t ∧ s.textures.get? "strip" = some u ∧
      t.storage = u.storage ∧ t.size = ⟨2, 2⟩ ∧ u.size = ⟨4, 1⟩ :=
  ⟨_, _, rfl, rfl, rfl, rfl, rfl⟩

end State
end SurfaceRelay.Session.SoftDomains
