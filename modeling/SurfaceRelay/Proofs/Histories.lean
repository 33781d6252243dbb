import SurfaceRelay.Proofs.Display
import SurfaceRelay.Proofs.Requests

/-! Histories of a presenter whose world moves on by itself.

A `Course` of a presenter is to its moves what a course of a pool is to requests: before every
move the world may move on, by steps of a given kind. What every move carries on with the requests
that it makes, and no step of the world changes, holds around every turn (`Course.tracked`). Frames
are only dropped by presenting, one at a time, so a presenter has dropped as many as it failed to
present (`Course.dropped`). -/
namespace SurfaceRelay.Presenter
variable {W F T K V : Type} {b : Backend W T K V} {convert : Converter W F V} {may : W → W → Prop}

/-- A history that starts from a presenter and its world. -/
inductive Course (b : Backend W T K V) (convert : Converter W F V) (may : W → W → Prop) :
    Presenter T K V × W → List (Turn W F T K V) → Prop
  | done {x} : Course b convert may x []
  | next {s w w' rest} (hmay : may w w') (m : Move F)
      (hrest : Course b convert may (turn b convert (s, w') m).after rest) :
      Course b convert may (s, w) (turn b convert (s, w') m :: rest)

/-- A world that stands still gives the turns of a list of moves. -/
theorem course_turns (x : Presenter T K V × W) (moves : List (Move F)) :
    Course b convert Eq x (turns b convert x moves) := by
  induction moves generalizing x with
  | nil => exact .done
  | cons m moves ih => exact .next rfl m (ih _)

theorem Course.mono {may' : W → W → Prop} (hmay : ∀ w w', may w w' → may' w w')
    {x : Presenter T K V × W} {history : List (Turn W F T K V)}
    (h : Course b convert may x history) : Course b convert may' x history := by
  induction h with
  | done => exact .done
  | next hw m _ ih => exact .next (hmay _ _ hw) m ih

namespace Turn

/-- What the move asked of the pool. -/
def asked (b : Backend W T K V) (convert : Converter W F V) (t : Turn W F T K V) :
    List (Pool.Turn W T K V) := requests b convert t.before t.move

/-- A frame could not be presented. -/
def drops (t : Turn W F T K V) : Bool :=
  match t.move, t.answer with
  | .present _, .error _ => true
  | _, _ => false

theorem drops_iff {t : Turn W F T K V} {frame : F} (hmove : t.move = .present frame) :
    t.drops = true ↔ ∃ e, t.answer = .error e := by
  simp only [drops, hmove]
  cases t.answer with
  | ok a => exact iff_of_false nofun nofun
  | error e => exact iff_of_true rfl ⟨e, rfl⟩

end Turn

/-! ### What holds around every turn -/

section
variable {J : List (Pool.Turn W T K V) → Nat → Pool T K V × W → Prop}

/-- **Around every turn there holds what everything carries on.** -/
theorem Course.tracked (hJ : Tracks b convert J)
    (hmay : ∀ {past n p w w'}, may w w' → J past n (p, w) → J past n (p, w'))
    {first rest : List (Turn W F T K V)} {t : Turn W F T K V}
    {past : List (Pool.Turn W T K V)} {x : Presenter T K V × W} (hx : OnTrack J past x)
    (h : Course b convert may x (first ++ t :: rest)) :
    t = turn b convert t.before t.move ∧
      OnTrack J (past ++ first.flatMap (·.asked b convert)) t.before ∧
      OnTrack J (past ++ first.flatMap (·.asked b convert) ++ t.asked b convert) t.after := by
  induction first generalizing x past with
  | nil =>
    cases h with
    | @next s w w' rest hw m hrest =>
      have hbefore : OnTrack J past (s, w') := hmay hw hx
      rw [List.flatMap_nil, List.append_nil]
      exact ⟨rfl, hbefore, hJ.after m hbefore⟩
  | cons u first ih =>
    cases h with
    | @next s w w' rest hw m hrest =>
      have hbefore : OnTrack J past (s, w') := hmay hw hx
      have hafter := hJ.after m hbefore
      rw [List.flatMap_cons, ← List.append_assoc]
      exact ih hafter hrest

end

/-! ### Frames that were dropped -/

theorem dropped_onPool {α : Type} (act : Attempt (Pool T K V × W) α) (x : Presenter T K V × W) :
    (Attempt.leaves (onPool act x)).1.dropped = x.1.dropped := by
  simp only [onPool]
  split <;> rfl

theorem dropped_retract (x : Presenter T K V × W) : (retract b x).1.dropped = x.1.dropped := by
  simp only [retract]
  split
  · rfl
  · split <;> rfl

/-- Presenting drops the frame when it fails. -/
theorem dropped_present (frame : F) (x : Presenter T K V × W) :
    (turn b convert x (.present frame)).after.1.dropped =
      x.1.dropped + (turn b convert x (.present frame)).drops.toNat := by
  have hretract := dropped_retract (b := b) x
  rw [turn_present]
  simp only [present]
  generalize retract b x = y at hretract ⊢
  rw [← hretract]
  rcases fill b convert frame (y.1.pool, y.2) with ⟨h, z⟩ | ⟨e, z⟩ <;> rfl

theorem dropped_turn (x : Presenter T K V × W) (m : Move F) :
    (turn b convert x m).after.1.dropped = x.1.dropped + (turn b convert x m).drops.toNat := by
  cases m with
  | present frame => exact dropped_present frame x
  | acquire | release | cycle | awaitConsumer =>
    simp only [turn, make, Attempt.outcome_map, dropped_onPool]
    rfl
  | retract => exact dropped_retract x
  | closePool | close | phase | images | shown | settings => rfl

/-- **A presenter has dropped as many frames as it failed to present.** -/
theorem Course.dropped {first rest : List (Turn W F T K V)} {t : Turn W F T K V}
    {x : Presenter T K V × W} (h : Course b convert may x (first ++ t :: rest)) :
    t.after.1.dropped = x.1.dropped + (first ++ [t]).countP (·.drops) := by
  induction first generalizing x with
  | nil =>
    cases h with
    | @next s w w' rest hw m hrest =>
      rw [dropped_turn, List.nil_append, List.countP_singleton]
      cases (turn b convert (s, w') m).drops <;> rfl
  | cons u first ih =>
    cases h with
    | @next s w w' rest hw m hrest =>
      rw [ih hrest, dropped_turn, List.cons_append, List.countP_cons]
      cases (turn b convert (s, w') m).drops <;> simp +arith

end SurfaceRelay.Presenter
