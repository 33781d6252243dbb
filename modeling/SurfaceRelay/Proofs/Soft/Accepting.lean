import SurfaceRelay.Proofs.Soft.Touches

/-! What a call adds to a queue.

No call of a software domain executes anything but a map: the others put commands behind those
that the worker has (`Worker.Takes`), and a dead worker takes none. That is one rule for every
such call (`Prompt.takes`), so an account of a queue need not know the calls. -/
namespace SurfaceRelay.Soft
variable {w w' : World} {k k' k'' : Worker} {d e : Nat} {α : Type} {given : List Texture}

/-- The worker took these commands behind what it had: none when it is dead, and markers under
new counts only. -/
structure Worker.Takes (k k' : Worker) (new : List Command) : Prop where
  queue : k'.queue = k.queue ++ new
  dead : k'.health = .dead ↔ k.health = .dead
  refused : k.health = .dead → new = []
  retired : k'.retired = k.retired
  counts : (new.filterMap Command.count?).Pairwise (· < ·)
  above : ∀ n ∈ new.filterMap Command.count?, k.lastCount < n ∧ n ≤ k'.lastCount
  lastCount : k.lastCount ≤ k'.lastCount

namespace Worker

/-- Books can be kept without taking anything. -/
theorem takes_nothing (hqueue : k'.queue = k.queue) (hdead : k'.health = .dead ↔ k.health = .dead)
    (hretired : k'.retired = k.retired) (hcount : k.lastCount ≤ k'.lastCount) : k.Takes k' [] :=
  ⟨by rw [hqueue, List.append_nil], hdead, fun _ => rfl, hretired, .nil,
    fun n hn => (by cases hn), hcount⟩

theorem takes_refl (k : Worker) : k.Takes k [] :=
  takes_nothing rfl Iff.rfl rfl (Nat.le_refl _)

theorem Takes.trans {new new' : List Command} (h : k.Takes k' new) (h' : k'.Takes k'' new') :
    k.Takes k'' (new ++ new') where
  queue := by rw [h'.queue, h.queue, List.append_assoc]
  dead := h'.dead.trans h.dead
  refused hdead := by
    rw [h.refused hdead, h'.refused (h.dead.2 hdead)]
    rfl
  retired := h'.retired.trans h.retired
  counts := by
    rw [List.filterMap_append, List.pairwise_append]
    exact ⟨h.counts, h'.counts, fun n hn m hm =>
      Nat.lt_of_le_of_lt (h.above n hn).2 (h'.above m hm).1⟩
  above n hn := by
    rw [List.filterMap_append, List.mem_append] at hn
    rcases hn with hn | hn
    · exact ⟨(h.above n hn).1, Nat.le_trans (h.above n hn).2 h'.lastCount⟩
    · exact ⟨Nat.lt_of_le_of_lt h.lastCount (h'.above n hn).1, (h'.above n hn).2⟩
  lastCount := Nat.le_trans h.lastCount h'.lastCount

theorem takes_command {c : Command} (hlive : k.health ≠ .dead) (hcount : c.count? = none) :
    k.Takes { k with queue := k.queue ++ [c] } [c] := by
  have hcounts : [c].filterMap Command.count? = [] := by simp [hcount]
  refine ⟨rfl, Iff.rfl, fun hdead => absurd hdead hlive, rfl, hcounts ▸ .nil, fun n hn => ?_,
    Nat.le_refl _⟩
  rw [hcounts] at hn
  cases hn

theorem takes_marker (hlive : k.health ≠ .dead) :
    k.Takes
      { k with
        lastCount := k.lastCount + 1, queue := k.queue ++ [.retire (k.lastCount + 1)] }
      [.retire (k.lastCount + 1)] := by
  refine ⟨rfl, Iff.rfl, fun hdead => absurd hdead hlive, rfl, List.pairwise_singleton .., ?_,
    Nat.le_succ _⟩
  intro n hn
  rw [List.mem_singleton.1 hn]
  exact ⟨Nat.lt_succ_self _, Nat.le_refl _⟩

end Worker

namespace World

theorem push_setWorker (w : World) (d : Nat) (k : Worker) (c : Command) :
    (w.setWorker d k).push d c = w.setWorker d { k with queue := k.queue ++ [c] } := by
  have hk : (w.setWorker d k).workers d = k := Table.put_same ..
  rw [push, setWorker_setWorker, queue, hk]

/-- The worker that a marker is recorded with takes it under its next count. -/
theorem takes_sign (hlive : ¬w.Dead d) :
    (w.workers d).Takes ((w.sign d).workers d) [.retire ((w.workers d).lastCount + 1)] := by
  rw [sign, useCount, push_setWorker, workers_setWorker, if_pos rfl]
  exact Worker.takes_marker hlive

/-- Every worker takes what it takes. -/
def Takes (w w' : World) : Prop := ∀ d, ∃ new, (w.workers d).Takes (w'.workers d) new

theorem takes_refl (w : World) : w.Takes w := fun d => ⟨[], (w.workers d).takes_refl⟩

/-- One worker takes something, and the others nothing. -/
theorem takes_setWorker {new : List Command} (h : (w.workers d).Takes k new) :
    w.Takes (w.setWorker d k) := by
  intro e
  rw [workers_setWorker]
  split
  · rename_i he
    exact ⟨new, he ▸ h⟩
  · exact ⟨[], (w.workers e).takes_refl⟩

theorem Touch.takes (h : w.Touch given w') : w.Takes w' := by
  cases h with
  | count d => exact takes_setWorker (Worker.takes_nothing rfl Iff.rfl rfl (Nat.le_refl _))
  | useCount d => exact takes_setWorker (Worker.takes_nothing rfl Iff.rfl rfl (Nat.le_succ _))
  | number | share | withdraw | allocate | openReceiver => exact w.takes_refl
  | push d hlive hc =>
    have hcount : Command.count? _ = none := hc.count
    exact takes_setWorker (Worker.takes_command hlive hcount)
  | sign d hlive =>
    rw [World.sign, World.useCount, push_setWorker]
    exact takes_setWorker (Worker.takes_marker hlive)

end World

/-- **A call executes nothing.** Whatever it does, workers take commands at most. -/
theorem Prompt.takes {act : Attempt World α} (h : Prompt given act) (w : World) :
    w.Takes (Attempt.leaves (act w)) := by
  have htouches := h.touches w
  generalize Attempt.leaves (act w) = w' at htouches ⊢
  induction htouches with
  | refl => exact w.takes_refl
  | tail _ htouch ih =>
    intro d
    obtain ⟨new, hnew⟩ := ih d
    obtain ⟨new', hnew'⟩ := htouch.takes d
    exact ⟨new ++ new', hnew.trans hnew'⟩

end SurfaceRelay.Soft
