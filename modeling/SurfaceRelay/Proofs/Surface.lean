import SurfaceRelay.Proofs.Attempt
import SurfaceRelay.Surface

/-! Building a surface, seen from outside.

A surface that was built got its five resources from six calls that all succeeded, in the
order of `build_ok`. A build that fails makes calls of the same kinds and destroys again what
it made, so it keeps whatever all of these calls keep (`build_keeps`). -/
namespace SurfaceRelay

/-- The notice is one of a pool. A presenter has two of its own. -/
def Notice.fromPool : Notice → Bool
  | .frameDropped .. | .retractIgnored .. => false
  | _ => true

namespace Surface
variable {W T K V α β : Type}

theorem holding_ok {make : Attempt W α} {undo : α → W → W} {rest : α → Attempt W β} {w w' : W}
    {r : β} (h : holding make undo rest w = .ok r w') :
    ∃ a w₁, make w = .ok a w₁ ∧ rest a w₁ = .ok r w' := by
  simp only [holding] at h
  split at h
  · cases h
  · rename_i a w₁ hmake
    split at h
    · rename_i hrest
      cases h
      exact ⟨a, w₁, hmake, hrest⟩
    · cases h

theorem holding_keeps {J : W → Prop} {make : Attempt W α} {undo : α → W → W}
    {rest : α → Attempt W β} (hmake : make.Keeps J) (hundo : ∀ a w, J w → J (undo a w))
    (hrest : ∀ a, (rest a).Keeps J) : Attempt.Keeps J (holding make undo rest) := by
  intro w hw
  simp only [holding, Attempt.outcome]
  rcases hm : make w with ⟨a, w₁⟩ | ⟨e, w₁⟩
  · have hw₁ := hmake.ok hm hw
    dsimp only
    rcases hr : rest a w₁ with ⟨r, w₂⟩ | ⟨e, w₂⟩
    · exact (hrest a).ok hr hw₁
    · exact hundo a w₂ ((hrest a).error hr hw₁)
  · exact hmake.error hm hw

/-- What was made is taken back when the rest fails. -/
theorem holding_meets {pre fail : W → Prop} {mid lost : α → W → Prop} {post : β → W → Prop}
    {make : Attempt W α} {undo : α → W → W} {rest : α → Attempt W β}
    (hmake : make.Meets pre mid fail) (hundo : ∀ a w, lost a w → fail (undo a w))
    (hrest : ∀ a, (rest a).Meets (mid a) post (lost a)) :
    Attempt.Meets pre (holding make undo rest) post fail := by
  refine Attempt.meets_of_result fun w hw => ?_
  simp only [holding]
  rcases hm : make w with ⟨a, w₁⟩ | ⟨e, w₁⟩
  · have hw₁ := hmake.ok hm hw
    dsimp only
    rcases hr : rest a w₁ with ⟨r, w₂⟩ | ⟨e, w₂⟩
    · exact (hrest a).ok hr hw₁
    · exact hundo a w₂ ((hrest a).error hr hw₁)
  · exact hmake.error hm hw

variable (b : Backend W T K V) (h : Handle)

/-- What a build that succeeds was given. -/
theorem build_ok {size stagingSize : Extent} {w w' : W} {s : Surface T K V}
    (hb : build b h size stagingSize w = .ok s w') :
    s.handle = h ∧ s.phase = .idle ∧ s.armed = false ∧
    ∃ shared w₁ w₂ w₃ w₄ w₅,
      b.producer.newTexture size w = .ok s.texture w₁ ∧
      b.producer.share s.texture w₁ = .ok shared w₂ ∧
      b.producer.newStaging stagingSize w₂ = .ok s.staging w₃ ∧
      b.producer.newMarker w₃ = .ok s.marker w₄ ∧
      b.consumer.openShare shared size w₄ = .ok s.view w₅ ∧
      b.consumer.newStaging stagingSize w₅ = .ok s.viewStaging w' := by
  obtain ⟨texture, w₁, htexture, hb⟩ := holding_ok hb
  obtain ⟨shared, w₂, hshare, hb⟩ := Attempt.bind_ok hb
  obtain ⟨staging, w₃, hstaging, hb⟩ := holding_ok hb
  obtain ⟨marker, w₄, hmarker, hb⟩ := holding_ok hb
  obtain ⟨view, w₅, hview, hb⟩ := holding_ok hb
  obtain ⟨viewStaging, w₆, hviewStaging, hb⟩ := Attempt.bind_ok hb
  cases hb
  exact ⟨rfl, rfl, rfl, shared, w₁, w₂, w₃, w₄, w₅,
    htexture, hshare, hstaging, hmarker, hview, hviewStaging⟩

/-- A property of the world that every call for making or destroying a resource keeps. -/
structure Untouched (J : W → Prop) : Prop where
  newTexture : ∀ size, (b.producer.newTexture size).Keeps J
  share : ∀ t, (b.producer.share t).Keeps J
  newStaging : ∀ size, (b.producer.newStaging size).Keeps J
  newMarker : b.producer.newMarker.Keeps J
  openShare : ∀ shared size, (b.consumer.openShare shared size).Keeps J
  newViewStaging : ∀ size, (b.consumer.newStaging size).Keeps J
  freeTexture : ∀ t, (b.producer.freeTexture t).Keeps J
  freeStaging : ∀ t, (b.producer.freeStaging t).Keeps J
  freeMarker : ∀ k, (b.producer.freeMarker k).Keeps J
  freeView : ∀ v, (b.consumer.freeTexture v).Keeps J
  freeViewStaging : ∀ v, (b.consumer.freeStaging v).Keeps J

variable {b} {J : W → Prop}
  (hnote : ∀ part k e w, J w → J (b.note (.disposalFailed part k e) w))
include hnote

theorem dispose_keeps {part : Part} {destroy : Attempt W Unit} (hd : destroy.Keeps J) {w : W}
    (hw : J w) : J (dispose b h part destroy w) := by
  simp only [dispose]
  split <;> rename_i hw'
  · exact hd.ok hw' hw
  · exact hnote _ _ _ _ (hd.error hw' hw)

theorem build_keeps (hJ : Untouched b J) (size stagingSize : Extent) :
    (build b h size stagingSize).Keeps J := by
  refine holding_keeps (hJ.newTexture size)
    (fun t w hw => dispose_keeps h hnote (hJ.freeTexture t) hw) fun texture => ?_
  refine Attempt.keeps_bind (hJ.share texture) fun shared => ?_
  refine holding_keeps (hJ.newStaging stagingSize)
    (fun t w hw => dispose_keeps h hnote (hJ.freeStaging t) hw) fun staging => ?_
  refine holding_keeps hJ.newMarker
    (fun k w hw => dispose_keeps h hnote (hJ.freeMarker k) hw) fun marker => ?_
  refine holding_keeps (hJ.openShare shared size)
    (fun v w hw => dispose_keeps h hnote (hJ.freeView v) hw) fun view => ?_
  exact Attempt.keeps_bind (hJ.newViewStaging stagingSize) fun _ => Attempt.keeps_pure _

theorem dismantle_keeps (hJ : Untouched b J) (s : Surface T K V) {w : W} (hw : J w) :
    J (s.dismantle b w) := by
  apply dispose_keeps _ hnote (hJ.freeTexture _)
  apply dispose_keeps _ hnote (hJ.freeStaging _)
  apply dispose_keeps _ hnote (hJ.freeMarker _)
  apply dispose_keeps _ hnote (hJ.freeView _)
  exact dispose_keeps _ hnote (hJ.freeViewStaging _) hw

theorem dismantleAll_keeps (hJ : Untouched b J) (surfaces : List (Surface T K V)) {w : W}
    (hw : J w) : J (surfaces.foldl (fun w s => s.dismantle b w) w) := by
  induction surfaces generalizing w with
  | nil => exact hw
  | cons s rest ih => exact ih (dismantle_keeps hnote hJ s hw)

end Surface
end SurfaceRelay
