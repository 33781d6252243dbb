import SurfaceRelay.Presenter.Run
import SurfaceRelay.Proofs.Pool.Operations

/-! What a presenter asks of its pool.

A move of a presenter is a few requests to its pool, one behind the other, with a conversion or a
notice of its own in between. `requests` lists those of one move with their answers and the
states around them, `asked` those of a run, so that a history of a presenter can be read as the
history of its pool. A property of that history, of the number of frames that were dropped and of
the pool with its world, which requests, conversions and notices carry on (`Tracks`), holds after
every run (`Tracks.run`). -/
namespace SurfaceRelay.Presenter
variable {W F T K V : Type} (b : Backend W T K V) (convert : Converter W F V)

/-! ### The requests of a move -/

/-- An acquire, and a wait once the frame was converted. -/
def fillRequests (frame : F) (x : Pool T K V × W) : List (Pool.Turn W T K V) :=
  Pool.turn b x .acquire ::
    match Pool.acquire b x with
    | .error .. => []
    | .ok h (p, w) =>
      match p.view? h with
      | none => []
      | some view =>
        match convert frame view w with
        | .error .. => []
        | .ok _ w => [Pool.turn b (p, w) (.awaitConsumer h)]

/-- A release, if something is on display. -/
def retractRequests (x : Presenter T K V × W) : List (Pool.Turn W T K V) :=
  match x.1.shown with
  | none => []
  | some h => [Pool.turn b (x.1.pool, x.2) (.release h)]

/-- An acquire, and a release of what it handed out. -/
def cycleRequests (x : Pool T K V × W) : List (Pool.Turn W T K V) :=
  Pool.turn b x .acquire ::
    match Pool.acquire b x with
    | .error .. => []
    | .ok h y => [Pool.turn b y (.release h)]

/-- What a move asks of the pool. -/
def requests (x : Presenter T K V × W) : Move F → List (Pool.Turn W T K V)
  | .acquire => [Pool.turn b (x.1.pool, x.2) .acquire]
  | .release h => [Pool.turn b (x.1.pool, x.2) (.release h)]
  | .cycle => cycleRequests b (x.1.pool, x.2)
  | .awaitConsumer h => [Pool.turn b (x.1.pool, x.2) (.awaitConsumer h)]
  | .present frame =>
    retractRequests b x ++
      fillRequests b convert frame ((retract b x).1.pool, (retract b x).2)
  | .retract => retractRequests b x
  | .closePool | .close => [Pool.turn b (x.1.pool, x.2) .close]
  | .phase _ | .images _ | .shown | .settings => []

/-- What a list of moves asks of the pool. -/
def asked : Presenter T K V × W → List (Move F) → List (Pool.Turn W T K V)
  | _, [] => []
  | x, m :: rest => requests b convert x m ++ asked (after b convert m x) rest

/-! ### What the history of the pool tells -/

/-- A property of the requests so far, of the number of frames dropped so far, and of a pool with
its world. Everything carries it on that a presenter does. -/
structure Tracks (J : List (Pool.Turn W T K V) → Nat → Pool T K V × W → Prop) : Prop where
  turn : ∀ {past n x} op, J past n x →
    J (past ++ [Pool.turn b x op]) n (Pool.turn b x op).after
  convert : ∀ {past n p} frame {h view}, p.view? h = some view →
    (convert frame view).Keeps fun w => J past n (p, w)
  dropped : ∀ {past n p w} e, J past n (p, w) →
    J past (n + 1) (p, b.note (.frameDropped (n + 1) e) w)
  ignored : ∀ {past n p w} h e, J past n (p, w) → J past n (p, b.note (.retractIgnored h e) w)

/-- The property, for a presenter with its world. -/
def OnTrack (J : List (Pool.Turn W T K V) → Nat → Pool T K V × W → Prop)
    (past : List (Pool.Turn W T K V)) (x : Presenter T K V × W) : Prop :=
  J past x.1.dropped (x.1.pool, x.2)

namespace Tracks
variable {b convert} {J : List (Pool.Turn W T K V) → Nat → Pool T K V × W → Prop}
  {past : List (Pool.Turn W T K V)} {n : Nat}

theorem acquire (hJ : Tracks b convert J) {x : Pool T K V × W} (hx : J past n x) :
    J (past ++ [Pool.turn b x .acquire]) n (Attempt.leaves (Pool.acquire b x)) := by
  have h := hJ.turn .acquire hx
  rwa [show (Pool.turn b x .acquire).after = _ from congrArg Pool.Turn.after
    (Pool.turn_acquire b x)] at h

theorem release (hJ : Tracks b convert J) {x : Pool T K V × W} (hx : J past n x) (h : Handle) :
    J (past ++ [Pool.turn b x (.release h)]) n (Attempt.leaves (Pool.release b h x)) := by
  have h' := hJ.turn (.release h) hx
  rwa [show (Pool.turn b x (.release h)).after = _ from congrArg Pool.Turn.after
    (Pool.turn_release b x h)] at h'

theorem awaitConsumer (hJ : Tracks b convert J) {x : Pool T K V × W} (hx : J past n x)
    (h : Handle) :
    J (past ++ [Pool.turn b x (.awaitConsumer h)]) n
      (Attempt.leaves (Pool.awaitConsumer b h x)) := by
  have h' := hJ.turn (.awaitConsumer h) hx
  rwa [show (Pool.turn b x (.awaitConsumer h)).after = _ from congrArg Pool.Turn.after
    (Pool.turn_awaitConsumer b x h)] at h'

theorem fill (hJ : Tracks b convert J) (frame : F) {x : Pool T K V × W} (hx : J past n x) :
    J (past ++ fillRequests b convert frame x) n
      (Attempt.leaves (Presenter.fill b convert frame x)) := by
  have hacquired := hJ.acquire hx
  simp only [fillRequests, Presenter.fill]
  rcases hacquire : Pool.acquire b x with ⟨h, p, w⟩ | ⟨e, y⟩
  · rw [hacquire] at hacquired
    dsimp only
    cases hview : p.view? h with
    | none => exact hacquired
    | some view =>
      dsimp only
      have hkeeps : (convert frame view).Keeps fun w =>
          J (past ++ [Pool.turn b x .acquire]) n (p, w) := hJ.convert frame hview
      rcases hconvert : convert frame view w with ⟨_, w'⟩ | ⟨e, w'⟩
      · have hawaited := hJ.awaitConsumer (hkeeps.ok hconvert hacquired) h
        rw [List.append_assoc] at hawaited
        dsimp only
        rcases hawait : Pool.awaitConsumer b h (p, w') with ⟨_, y⟩ | ⟨e, y⟩ <;>
          rwa [hawait] at hawaited
      · exact hkeeps.error hconvert hacquired
  · rwa [hacquire] at hacquired

theorem retract (hJ : Tracks b convert J) {x : Presenter T K V × W} (hx : OnTrack J past x) :
    OnTrack J (past ++ retractRequests b x) (retract b x) := by
  simp only [retractRequests, Presenter.retract]
  cases hshown : x.1.shown with
  | none =>
    rw [List.append_nil]
    exact hx
  | some h =>
    have hreleased := hJ.release hx h
    dsimp only
    rcases hrelease : Pool.release b h (x.1.pool, x.2) with ⟨_, y⟩ | ⟨e, y⟩
    · rwa [hrelease] at hreleased
    · rw [hrelease] at hreleased
      exact hJ.ignored h e hreleased

theorem cycle (hJ : Tracks b convert J) {x : Pool T K V × W} (hx : J past n x) :
    J (past ++ cycleRequests b x) n (Attempt.leaves (Presenter.cycle b x)) := by
  have hacquired := hJ.acquire hx
  simp only [cycleRequests, Presenter.cycle, bind, EStateM.bind]
  rcases hacquire : Pool.acquire b x with ⟨h, y⟩ | ⟨e, y⟩
  · rw [hacquire] at hacquired
    have hreleased := hJ.release (x := y) hacquired h
    rw [List.append_assoc] at hreleased
    dsimp only
    rcases hrelease : Pool.release b h y with ⟨_, z⟩ | ⟨e, z⟩ <;> rwa [hrelease] at hreleased
  · rwa [hacquire] at hacquired

/-- Behind the retraction a frame is presented by filling a surface. -/
theorem present_retracted (hJ : Tracks b convert J) (frame : F) {x : Presenter T K V × W}
    (hx : OnTrack J past (Presenter.retract b x)) :
    OnTrack J (past ++ fillRequests b convert frame ((Presenter.retract b x).1.pool,
      (Presenter.retract b x).2)) (Attempt.leaves (present b convert frame x)) := by
  have hfilled := hJ.fill frame hx
  simp only [Presenter.present]
  generalize Presenter.retract b x = y at hfilled ⊢
  rcases hfill : Presenter.fill b convert frame (y.1.pool, y.2) with ⟨h, z⟩ | ⟨e, z⟩
  · rwa [hfill] at hfilled
  · rw [hfill] at hfilled
    exact hJ.dropped e hfilled

theorem present (hJ : Tracks b convert J) (frame : F) {x : Presenter T K V × W}
    (hx : OnTrack J past x) :
    OnTrack J (past ++ requests b convert x (.present frame))
      (Attempt.leaves (present b convert frame x)) := by
  rw [requests, ← List.append_assoc]
  exact hJ.present_retracted frame (hJ.retract hx)

/-- An operation of the pool is no more than that. -/
theorem onPool {α : Type} {act : Attempt (Pool T K V × W) α} {x : Presenter T K V × W}
    (h : J past x.1.dropped (Attempt.leaves (act (x.1.pool, x.2)))) :
    OnTrack J past (Attempt.leaves (Presenter.onPool act x)) := by
  simp only [Presenter.onPool]
  rcases hact : act (x.1.pool, x.2) with ⟨a, y⟩ | ⟨e, y⟩ <;> rwa [hact] at h

theorem after (hJ : Tracks b convert J) (m : Move F) {x : Presenter T K V × W}
    (hx : OnTrack J past x) :
    OnTrack J (past ++ requests b convert x m) (after b convert m x) := by
  cases m with
  | acquire =>
    rw [Presenter.after, make, Attempt.outcome_map]
    exact onPool (hJ.acquire hx)
  | release h =>
    rw [Presenter.after, make, Attempt.outcome_map]
    exact onPool (hJ.release hx h)
  | cycle =>
    rw [Presenter.after, make, Attempt.outcome_map]
    exact onPool (hJ.cycle hx)
  | awaitConsumer h =>
    rw [Presenter.after, make, Attempt.outcome_map]
    exact onPool (hJ.awaitConsumer hx h)
  | present frame =>
    rw [Presenter.after, make, Attempt.outcome_map]
    exact hJ.present frame hx
  | retract => exact hJ.retract hx
  | closePool | close => exact hJ.turn .close hx
  | phase | images | shown | settings =>
    rw [requests, List.append_nil]
    exact hx

theorem run (hJ : Tracks b convert J) (moves : List (Move F)) {x : Presenter T K V × W}
    (hx : OnTrack J past x) :
    OnTrack J (past ++ asked b convert x moves) (run b convert moves x) := by
  induction moves generalizing past x with
  | nil =>
    rw [asked, List.append_nil]
    exact hx
  | cons m moves ih =>
    have h := ih (hJ.after m hx)
    rwa [List.append_assoc] at h

end Tracks
end SurfaceRelay.Presenter
