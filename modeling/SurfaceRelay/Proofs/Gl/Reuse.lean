import SurfaceRelay.Gl.Scripted
import SurfaceRelay.Proofs.Gl.Calls
import SurfaceRelay.Proofs.Pool.Reuse

/-! When a GL surface goes out again, in terms of GL calls.

The marker of a release is the sync object that `fenceSync` gave it. Unless that is null, a
surface goes out again only behind a wait that found it signaled, or behind a blit and a
read-back that both left the error flag clear. When no sync object was made and the context
reports it, only the latter will do. When a null sync object is handed on, the release counts as
recorded all the same, and its marker as retired: such a surface goes out again with no call
made at all (`goes_out_proven_iff_fenced`), whatever the GL still reads of it. -/
namespace SurfaceRelay.Gl
open Pool (Turn turns HandedOutAgain)

variable {κ σ : Type}

/-- A turn of a pool between two contexts. -/
abbrev PoolTurn (κ σ : Type) := Turn (World κ σ) Image Marker Image

/-- The release made a sync object, or was given none. -/
def FenceMade (k : κ) (sync : Nat) (rel : PoolTurn κ σ) : Prop :=
  rel.Shows World.log [.call k .fenceSync sync]

/-- A wait found the sync object signaled. -/
def Signaled (k : κ) (sync : Nat) (acq : PoolTurn κ σ) : Prop :=
  ∃ status, (status = alreadySignaled ∨ status = conditionSatisfied) ∧
    acq.Shows World.log [.call k (.clientWaitSync sync) status]

/-- The surface was copied to its staging image, which was then read back, and the error flag
was clear after either. -/
def ForcedWait (k : κ) (s : Surface Image Marker Image) (acq : PoolTurn κ σ) : Prop :=
  ∃ region blit read, Group.Made k (Group.blitCalls s.texture s.staging region) blit ∧
    Group.Made k (Group.readCalls s.staging) read ∧
    acq.Shows World.log
      (blit ++ [.call k .getError noError] ++ (read ++ [.call k .getError noError]))

/-- No call was made, only a hook may have run. -/
def Silent (acq : PoolTurn κ σ) : Prop :=
  ∃ lines, acq.after.2.log = acq.before.2.log ++ lines ∧ ∀ k c answer, .call k c answer ∉ lines

variable {g : Group κ σ} {k c : κ}

theorem Silent.not_proven {acq : PoolTurn κ σ} (h : Silent acq) (k : κ) (sync : Nat)
    (s : Surface Image Marker Image) : ¬(Signaled k sync acq ∨ ForcedWait k s acq) := by
  obtain ⟨lines, hlog, hnone⟩ := h
  rintro (⟨status, -, hshows⟩ | ⟨region, blit, read, -, -, hshows⟩)
  · exact hnone _ _ _ (hshows.mem hlog (List.mem_singleton_self _))
  · exact hnone k .getError noError (hshows.mem hlog (by simp))

variable [DecidableEq κ]

/-- Judging a surface only adds to the log. -/
theorem declined_log {p p₁ : Pool Image Marker Image} {w w₁ : World κ σ}
    {o : Option (Surface Image Marker Image)} (h : Pool.Declined (g.backend k c) p w o p₁ w₁) :
    ∃ lines, w₁.log = w.log ++ lines := by
  cases h with
  | vacant => exact ⟨[], by simp⟩
  | unarmed => exact ⟨[], by simp⟩
  | pending hc hr ha hpoll =>
    obtain ⟨lines, hlog⟩ := g.poll_grows k _ w
    rw [show g.poll k _ w = _ from hpoll] at hlog
    exact ⟨lines, hlog⟩
  | @unknown s e w' hc hr ha hpoll =>
    obtain ⟨lines, hlog⟩ := g.poll_grows k s.marker w
    rw [show g.poll k s.marker w = _ from hpoll] at hlog
    refine ⟨lines ++ [.notice (.pollFailed s.handle e)], ?_⟩
    show w'.log ++ _ = _
    rw [show w'.log = _ from hlog, List.append_assoc]

/-- Draining the producer for a surface is a forced wait on it. -/
theorem drained_waited {acq : PoolTurn κ σ} {s : Surface Image Marker Image}
    {p₁ : Pool Image Marker Image} {w₁ w₂ : World κ σ}
    (hd : Pool.Declined (g.backend k c) acq.before.1 acq.before.2 (some s) p₁ w₁)
    (hw : (g.producer k).drain s.texture s.staging p₁.stagingSize w₁ = .ok () w₂)
    (hn : acq.after.2 = w₂.note (.underflow p₁.ring.cursor)) : ForcedWait k s acq := by
  obtain ⟨lines, hlines⟩ := declined_log hd
  obtain ⟨w', hstage, hblock⟩ := Pool.drain_ok hw
  obtain ⟨hcurrent, hook, blit, hblit, hlog⟩ := Group.stage_log hstage
  obtain ⟨read, hread, hlog'⟩ := Group.blockOn_log hcurrent hblock
  refine ⟨p₁.stagingSize, blit, read, hblit, hread, lines ++ hook,
    [.notice (.underflow p₁.ring.cursor)], ?_⟩
  rw [hn]
  show w₂.log ++ _ = _
  rw [hlog', hlog, hlines]
  simp only [List.append_assoc]

/-- A release leaves its surface with what `fenceSync` answered. The marker is armed unless that was
null and the context reported it. -/
theorem released_fenced {h : Handle} {rel : PoolTurn κ σ} {s : Surface Image Marker Image}
    (hreleased : Pool.Released (g.backend k c) h rel.before.2 rel.after.2 s) :
    FenceMade k s.marker.sync rel ∧ (s.armed = true ∨
      s.armed = false ∧ s.marker.sync = 0 ∧ ∃ gl, (g.fenceError? k gl).isSome) := by
  cases hreleased with
  | @armed m hh hr ha hrec =>
    exact ⟨Group.record_log_ok (Attempt.inPlace_ok (f := g.record k) hrec), .inl ha⟩
  | @unarmed m e w₁ hh hr ha hrec hnote =>
    obtain ⟨hrec, hcleared⟩ := Attempt.inPlace_error (f := g.record k) hrec
    have hnull : s.marker.sync = 0 := congrArg Marker.sync hcleared
    obtain ⟨hreported, first, last, hlog⟩ := Group.record_log_error hrec
    refine ⟨⟨first, last ++ [.notice (.recordFailed h e)], ?_⟩, .inr ⟨ha, hnull, hreported⟩⟩
    rw [hnote, hnull]
    show w₁.log ++ _ = _
    rw [show w₁.log = _ from hlog]
    simp only [List.append_assoc]

/-- A marker without a sync object counts as retired, and nobody is asked. -/
theorem null_silent {acq : PoolTurn κ σ} {s : Surface Image Marker Image} (ha : s.armed = true)
    (hnull : s.marker.sync = 0) (hreuse : Pool.Reuse (g.backend k c) acq.before s acq.after.2) :
    Silent acq := by
  obtain ⟨w₁, henter⟩ := g.enter_total k acq.before.2
  have hpoll := Group.poll_null hnull henter
  cases hreuse with
  | retired ha' hpoll' =>
    rw [show g.poll k s.marker _ = _ from hpoll'] at hpoll
    cases hpoll
    rcases (Group.enter_log henter).2 with hlog | hlog
    · exact ⟨[], by simpa using hlog, by simp⟩
    · exact ⟨_, hlog, by simp⟩
  | drained hd =>
    cases hd with
    | unarmed hc hr ha' =>
      rw [ha] at ha'
      cases ha'
    | pending hc hr ha' hpoll' =>
      rw [show g.poll k s.marker _ = _ from hpoll'] at hpoll
      cases hpoll
    | unknown hc hr ha' hpoll' =>
      rw [show g.poll k s.marker _ = _ from hpoll'] at hpoll
      cases hpoll

/-- **A released surface goes out again behind a proof that it is unused, exactly if its
release was given a sync object or told that there is none.** Whatever the GL answers: when a
surface goes out for the first time since a release, its marker is what `fenceSync` answered to
that release. If that is not null, then during the acquire a wait on it said that it is signaled,
or a forced wait on the surface completed without an error. If it is null and was handed on, the
acquire made no call. If it is null and the context reported it, the marker is not armed, and a
forced wait completed. -/
theorem goes_out_proven_iff_fenced {cfg : Pool.Config} {p : Pool Image Marker Image}
    (hp : Pool.make cfg = .ok p) (g : Group κ σ) (k c : κ) (w : World κ σ) {ops : List Pool.Op}
    {h : Handle} {rel acq : PoolTurn κ σ}
    (hagain : HandedOutAgain (turns (g.backend k c) (p, w) ops) h rel acq) :
    ∃ s, rel.after.1.find? h = some s ∧ acq.before.1.find? h = some s ∧
      FenceMade k s.marker.sync rel ∧
      (s.armed = true →
        (Signaled k s.marker.sync acq ∨ ForcedWait k s acq ↔ s.marker.sync ≠ 0) ∧
        (s.marker.sync = 0 → Silent acq)) ∧
      (s.armed = false → ForcedWait k s acq ∧ s.marker.sync = 0 ∧
        ∃ gl, (g.fenceError? k gl).isSome) := by
  obtain ⟨s, hrel, hacq, hreleased, hreuse⟩ := hagain.reuse (x := (p, w)) (Pool.inv_make hp)
  obtain ⟨hfence, harmed⟩ := released_fenced hreleased
  refine ⟨s, hrel, hacq, hfence, fun ha => ?_, fun ha => ?_⟩
  · have hsilent : s.marker.sync = 0 → Silent acq := fun hnull => null_silent ha hnull hreuse
    refine ⟨⟨fun hproven hnull => ?_, fun hsync => ?_⟩, hsilent⟩
    · exact (hsilent hnull).not_proven k _ s hproven
    · cases hreuse with
      | retired ha' hpoll =>
        obtain ⟨status, first, last, hstatus, hlog⟩ := Group.poll_retired hsync hpoll
        exact .inl ⟨status, hstatus, first, last, hlog⟩
      | drained hd hw hn => exact .inr (drained_waited hd hw hn)
  · obtain ⟨-, hnull, hreported⟩ := harmed.resolve_left (by simp [ha])
    cases hreuse with
    | retired ha' hpoll =>
      rw [ha] at ha'
      cases ha'
    | drained hd hw hn => exact ⟨drained_waited hd hw hn, hnull, hreported⟩

/-! ### With and without sync objects -/

namespace Scripted

/-- A pool with room for one surface of two by two pixels. -/
def smallPool : Pool Image Marker Image :=
  { size := ⟨2, 2⟩, capacity := 1, ring := .empty, nextHandle := 1, stats := {}, closed := false }

/-- Two contexts with hooks. -/
def hooked : Group Side State := group fun _ => true

/-- A world in which the producer is given null instead of sync objects, or is not. -/
def world (nullFence : Bool) : World Side State :=
  { World.initial with gl := State.initial.setNullFence .producer nullFence }

/-! The only surface goes out, comes back, and goes out again. -/

variable (nullFence : Bool)

def outTurn : PoolTurn Side State :=
  Pool.turn (hooked.backend .producer .consumer) (smallPool, world nullFence) .acquire

def backTurn : PoolTurn Side State :=
  Pool.turn (hooked.backend .producer .consumer) (outTurn nullFence).after (.release ⟨1⟩)

def againTurn : PoolTurn Side State :=
  Pool.turn (hooked.backend .producer .consumer) (backTurn nullFence).after .acquire

theorem small_again :
    HandedOutAgain
      (turns (hooked.backend .producer .consumer) (smallPool, world nullFence)
        [.acquire, .release ⟨1⟩, .acquire]) ⟨1⟩ (backTurn nullFence) (againTurn nullFence) where
  order := ⟨[outTurn nullFence], [], [], rfl, by simp⟩
  released := by rw [backTurn, Pool.turn_release]
  accepted := by cases nullFence <;> decide +kernel
  handedOut := by cases nullFence <;> decide +kernel

/-- With sync objects the second acquire is proven: the first was not signaled, so it waited. -/
theorem goes_out_proven_iff_fenced_small :
    ∃ s, (againTurn false).before.1.find? ⟨1⟩ = some s ∧ s.marker.sync = 1 ∧
      (Signaled .producer 1 (againTurn false) ∨ ForcedWait .producer s (againTurn false)) := by
  have hp : Pool.make ⟨⟨2, 2⟩, 1⟩ = .ok smallPool := rfl
  obtain ⟨s, -, hs, -, harmed, -⟩ := goes_out_proven_iff_fenced hp _ _ _ _ (small_again false)
  have hmarker : ((againTurn false).before.1.find? ⟨1⟩).map (fun s => (s.armed, s.marker.sync)) =
      some (true, 1) := by decide +kernel
  rw [hs, Option.map_some, Option.some_inj, Prod.mk.injEq] at hmarker
  obtain ⟨ha, hsync⟩ := hmarker
  obtain ⟨hiff, -⟩ := harmed ha
  rw [hsync] at hiff
  exact ⟨s, hs, hsync, hiff.2 (by decide)⟩

/-- Without them the surface goes out again at once: nothing was asked and nothing waited for. -/
theorem goes_out_unproven :
    HandedOutAgain
      (turns (hooked.backend .producer .consumer) (smallPool, world true)
        [.acquire, .release ⟨1⟩, .acquire]) ⟨1⟩ (backTurn true) (againTurn true) ∧
      (againTurn true).after.2.log = (againTurn true).before.2.log ∧
      ∀ sync s, ¬(Signaled .producer sync (againTurn true) ∨
        ForcedWait .producer s (againTurn true)) := by
  have hlog : (againTurn true).after.2.log = (againTurn true).before.2.log := by decide +kernel
  refine ⟨small_again true, hlog, fun sync s => ?_⟩
  exact Silent.not_proven ⟨[], by rw [hlog, List.append_nil], by simp⟩ _ _ _

end Scripted
end SurfaceRelay.Gl
