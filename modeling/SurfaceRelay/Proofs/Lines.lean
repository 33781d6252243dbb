import SurfaceRelay.Proofs.Pool.Reuse
import SurfaceRelay.Proofs.Presenter

/-! What an operation asks of the domains.

A line of a trace is a call on one of a few errands, or a notice of a pool or of its presenter
(`Entry.errand`). An operation of a recorded pool only adds lines, and only on errands that it has
a use for (`Extends`): an acquire never records a marker, a release does nothing else, and no
operation of a pool converts a frame or speaks for the presenter. So lines of one kind can be
counted over a run by looking at the operations that add them. -/
namespace SurfaceRelay
variable {W F T K V α : Type}

/-- What a line of a trace is about. -/
inductive Errand
  /-- Making, sharing and destroying what a surface has. -/
  | supply
  /-- Copying into a staging resource and mapping it. -/
  | wait
  | record
  | poll
  | convert
  /-- A notice of the pool. -/
  | report
  /-- A notice of the presenter. -/
  | remark
deriving DecidableEq, Repr

def ImageCall.errand : ImageCall T → Errand
  | stage .. | blockOn .. => .wait
  | newStaging .. | freeTexture .. | freeStaging .. => .supply

def Entry.errand : Entry F T K V → Errand
  | producer (.image call) => call.errand
  | producer (.record ..) => .record
  | producer (.poll ..) => .poll
  | producer (.newTexture ..) | producer (.share ..) | producer (.newMarker _)
  | producer (.freeMarker ..) => .supply
  | consumer (.image call) => call.errand
  | consumer (.openShare ..) => .supply
  | consumer (.convert ..) => .convert
  | notice n => if n.fromPool then .report else .remark

/-- What every line that a call may add keeps, the call keeps. -/
theorem Recorded.call_keeps {E : Type} {J : Recorded W E → Prop} {act : Attempt W α}
    {entry : Except Fault α → E} (h : ∀ a r w, J r → J ⟨w, r.trace ++ [entry a]⟩) :
    (Recorded.call act entry).Keeps J := by
  refine Attempt.keeps_of_leaves fun r hr => ?_
  simp only [Recorded.call]
  rcases act r.world with ⟨a, w⟩ | ⟨e, w⟩
  · exact h _ r w hr
  · exact h _ r w hr

theorem Recorded.recording_keeps {J : Recorded W (Entry F T K V) → Prop}
    {act : Attempt (K × W) Unit}
    (h : ∀ k a r w, J r → J ⟨w, r.trace ++ [.producer (.record k a)]⟩) :
    (Recorded.recording act).Keeps fun x => J x.2 := by
  refine Attempt.keeps_of_leaves fun x hx => ?_
  simp only [Recorded.recording]
  rcases act (x.1, x.2.world) with _ | _
  · exact h _ _ x.2 _ hx
  · exact h _ _ x.2 _ hx

/-- What every line on supply keeps, making and destroying keep. -/
theorem Surface.untouched_of_supply (b : Backend W T K V)
    {J : Recorded W (Entry F T K V) → Prop}
    (h : ∀ (e : Entry F T K V) r w, e.errand = .supply → J r → J ⟨w, r.trace ++ [e]⟩) :
    Surface.Untouched b.recorded J where
  newTexture _ := Recorded.call_keeps fun _ r w => h _ r w rfl
  share _ := Recorded.call_keeps fun _ r w => h _ r w rfl
  newStaging _ := Recorded.call_keeps fun _ r w => h _ r w rfl
  newMarker := Recorded.call_keeps fun _ r w => h _ r w rfl
  openShare _ _ := Recorded.call_keeps fun _ r w => h _ r w rfl
  newViewStaging _ := Recorded.call_keeps fun _ r w => h _ r w rfl
  freeTexture _ := Recorded.call_keeps fun _ r w => h _ r w rfl
  freeStaging _ := Recorded.call_keeps fun _ r w => h _ r w rfl
  freeMarker _ := Recorded.call_keeps fun _ r w => h _ r w rfl
  freeView _ := Recorded.call_keeps fun _ r w => h _ r w rfl
  freeViewStaging _ := Recorded.call_keeps fun _ r w => h _ r w rfl

/-- The trace goes on from `past`, with lines on these errands only. -/
def Extends (errands : List Errand) (past : List (Entry F T K V))
    (r : Recorded W (Entry F T K V)) : Prop :=
  ∃ lines, r.trace = past ++ lines ∧ ∀ e ∈ lines, e.errand ∈ errands

namespace Extends
variable {errands : List Errand} {past : List (Entry F T K V)} {r : Recorded W (Entry F T K V)}

theorem refl (r : Recorded W (Entry F T K V)) : Extends errands r.trace r :=
  ⟨[], (List.append_nil _).symm, fun e he => (by cases he)⟩

theorem grows (h : Extends errands past r) : past <+: r.trace := by
  obtain ⟨lines, hlines, -⟩ := h
  exact ⟨lines, hlines.symm⟩

/-- One more line. -/
theorem snoc (h : Extends errands past r) {w : W} {e : Entry F T K V} (he : e.errand ∈ errands) :
    Extends errands past ⟨w, r.trace ++ [e]⟩ := by
  obtain ⟨lines, hlines, hall⟩ := h
  refine ⟨lines ++ [e], by rw [hlines, List.append_assoc], fun e' he' => ?_⟩
  rcases List.mem_append.1 he' with he' | he'
  · exact hall e' he'
  · exact List.mem_singleton.1 he' ▸ he

theorem call {act : Attempt W α} {entry : Except Fault α → Entry F T K V}
    (he : ∀ a, (entry a).errand ∈ errands) :
    (Recorded.call act entry).Keeps (Extends errands past) :=
  Recorded.call_keeps fun a _ _ hr => hr.snoc (he a)

/-- A wait is a copy and a map, in either domain. -/
theorem drain {I : Type} {d : Domain W I} {entry : ImageCall I → Entry F T K V}
    (he : ∀ call, (entry call).errand = call.errand) (hwait : .wait ∈ errands) (t s : I)
    (region : Extent) :
    ((Recorded.domain d entry).drain t s region).Keeps (Extends errands past) :=
  Attempt.keeps_bind (call fun _ => (he _).symm ▸ hwait) fun _ => call fun _ => (he _).symm ▸ hwait

theorem note {b : Backend W T K V} (hreport : .report ∈ errands) (n : Notice)
    (r : Recorded W (Entry F T K V)) (hn : n.fromPool = true) (h : Extends errands past r) :
    Extends errands past (b.recorded.note n r) := by
  refine h.snoc ?_
  rw [Entry.errand, if_pos hn]
  exact hreport

end Extends

open Extends

section
variable {errands : List Errand} {past : List (Entry F T K V)}

/-- Making and destroying is supply. -/
theorem extends_untouched (b : Backend W T K V) (h : .supply ∈ errands) :
    Surface.Untouched b.recorded (Extends errands past) :=
  Surface.untouched_of_supply b fun _ _ _ he hr => hr.snoc (he ▸ h)

theorem extends_keepsAcquiring (b : Backend W T K V) (hsupply : .supply ∈ errands)
    (hpoll : .poll ∈ errands) (hwait : .wait ∈ errands) :
    b.recorded.KeepsAcquiring (Extends errands past) where
  toUntouched := extends_untouched b hsupply
  poll _ := call fun _ => hpoll
  stage _ _ _ := call fun _ => hwait
  blockOn _ := call fun _ => hwait

end

namespace Pool
variable {b : Backend W T K V} {p : Pool T K V} {r : Recorded W (Entry F T K V)}

theorem Acquiring.errands {x : EStateM.Result Fault (Pool T K V × _) Handle}
    (h : Acquiring b.recorded p r x) :
    Extends [.supply, .poll, .wait, .report] r.trace (Attempt.leaves x).2 :=
  h.world (Extends.note (by decide))
    (extends_keepsAcquiring b (by decide) (by decide) (by decide)) (refl r)

theorem Releasing.errands {k : Handle} {x : EStateM.Result Fault (Pool T K V × _) Unit}
    (h : Releasing b.recorded k p r x) :
    Extends [.record, .report] r.trace (Attempt.leaves x).2 :=
  h.world (Extends.note (by decide))
    (Recorded.recording_keeps fun _ _ _ _ hr => hr.snoc (List.mem_cons_self ..)) (refl r)

theorem Awaiting.errands {k : Handle} {x : EStateM.Result Fault (Pool T K V × _) Unit}
    (h : Awaiting b.recorded k p r x) :
    Extends [.wait, .report] r.trace (Attempt.leaves x).2 :=
  h.world (Extends.note (by decide))
    (Extends.drain (fun _ => rfl) (by decide)) (refl r)

theorem close_errands (b : Backend W T K V) (x : Pool T K V × Recorded W (Entry F T K V)) :
    Extends [.supply, .report] x.2.trace (close b.recorded x).2 :=
  close_world (Extends.note (by decide)) (extends_untouched b (by decide)) (refl x.2)

/-- A trace only grows. -/
theorem trace_turn (x : Pool T K V × Recorded W (Entry F T K V)) (op : Op) :
    x.2.trace <+: (turn b.recorded x op).after.2.trace := by
  cases op with
  | acquire =>
    rw [turn_acquire]
    exact (acquiring b.recorded x.1 x.2).errands.grows
  | release k =>
    rw [turn_release]
    exact (releasing b.recorded k x.1 x.2).errands.grows
  | awaitConsumer k =>
    rw [turn_awaitConsumer]
    exact (awaiting b.recorded k x.1 x.2).errands.grows
  | close => exact (close_errands b x).grows

end Pool
end SurfaceRelay
