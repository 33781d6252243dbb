import SurfaceRelay.Proofs.Soft.Retirement

/-! What a completion marker tells.

A marker is a number, and of all that a worker has executed it remembers the highest number that
retired. Still a marker answers for one very command: the signal that was accepted when the marker
was last recorded. Counts are given out in increasing order (`Worker.Clocked`), so a signal that
was executed cannot be overtaken by the retired count of another one, and a signal that was lost
when the worker died, or never accepted, is never reached (`Worker.Square`). What marker `i` was
last recorded under is read off the history (`latest?`), and a poll compares nothing else with what
was executed (`marker_tells_execution`).

Callers take turns on one domain, through however many handles; workers get on, maps are waited for
and workers die in between, as a schedule and the moves have it. -/
namespace SurfaceRelay.Soft

/-! ### The counts of a worker -/

/-- Counts are given out in increasing order, and what was executed has retired. -/
structure Worker.Clocked (k : Worker) (accepted executed : List Command) : Prop where
  increasing : (accepted.filterMap Command.count?).Pairwise (· < ·)
  issued : ∀ n ∈ accepted.filterMap Command.count?, n ≤ k.lastCount
  retired : ∀ n ∈ executed.filterMap Command.count?, n ≤ k.retired

namespace Worker.Clocked

theorem kept : Kept Clocked where
  takes h hk := by
    refine ⟨?_, fun n hn => ?_, fun n hn => hk.retired ▸ h.retired n hn⟩
    · rw [List.filterMap_append, List.pairwise_append]
      exact ⟨h.increasing, hk.counts, fun n hn m hm =>
        Nat.lt_of_le_of_lt (h.issued n hn) (hk.above m hm).1⟩
    · rw [List.filterMap_append, List.mem_append] at hn
      rcases hn with hn | hn
      · exact Nat.le_trans (h.issued n hn) hk.lastCount
      · exact (hk.above n hn).2
  executes {k k' accepted executed c} h hk := by
    refine ⟨h.increasing, hk.lastCount ▸ h.issued, fun n hn => ?_⟩
    rw [hk.retired]
    rw [List.filterMap_append, List.mem_append] at hn
    rcases hn with hn | hn
    · exact Nat.le_trans (h.retired n hn) (Nat.le_max_left ..)
    · obtain ⟨c', hc', hcount⟩ := List.mem_filterMap.1 hn
      rw [List.mem_singleton.1 hc'] at hcount
      rw [hcount]
      exact Nat.le_max_right ..
  dies h := ⟨h.increasing, h.issued, h.retired⟩

theorem of_sound {w : World} (hw : w.Sound) (d : Nat) :
    (w.workers d).Clocked (w.queue d) [] := by
  refine ⟨hw.counts d, fun n hn => ?_, List.forall_mem_nil _⟩
  exact ((Square.of_sound hw d).pending n hn).2

end Worker.Clocked

/-- The books of a worker are right, and these are the first commands that it accepted and
executed. -/
structure Worker.Accounted (accepted₀ executed₀ : List Command) (k : Worker)
    (accepted executed : List Command) : Prop where
  square : ∃ rest, k.Square accepted executed rest
  clocked : k.Clocked accepted executed
  accepted : accepted₀ <+: accepted
  executed : executed₀ <+: executed

theorem Worker.Accounted.kept (accepted₀ executed₀ : List Command) :
    Kept (Accounted accepted₀ executed₀) where
  takes h hk := ⟨Square.kept.takes h.square hk, Clocked.kept.takes h.clocked hk,
    h.accepted.trans (List.prefix_append ..), h.executed⟩
  executes h hk :=
    ⟨Square.kept.executes h.square hk, Clocked.kept.executes h.clocked hk, h.accepted,
    h.executed.trans (List.prefix_append ..)⟩
  dies h := ⟨Square.kept.dies h.square, Clocked.kept.dies h.clocked, h.accepted, h.executed⟩

/-- A dead worker retires nothing any more. -/
def Worker.Stopped (retired : Nat) (k : Worker) (_ _ : List Command) : Prop :=
  k.health = .dead ∧ k.queue = [] ∧ k.retired = retired

theorem Worker.Stopped.kept (retired : Nat) : Kept (Stopped retired) where
  takes := fun ⟨hdead, hempty, hretired⟩ hk => by
    refine ⟨hk.dead.2 hdead, ?_, hk.retired.trans hretired⟩
    rw [hk.queue, hempty, hk.refused hdead]
    rfl
  executes := fun ⟨_, hempty, _⟩ hk => by
    rw [hk.queue] at hempty
    cases hempty
  dies := fun ⟨_, _, hretired⟩ => ⟨rfl, rfl, hretired⟩

/-- A signal has executed when its count has retired, and not before. -/
theorem Worker.Accounted.retired_iff {k : Worker} {accepted executed past : List Command} {n : Nat}
    (h : k.Accounted (past ++ [.retire n]) [] accepted executed) :
    n ≤ k.retired ↔ .retire n ∈ executed := by
  constructor
  · intro hn
    obtain ⟨rest, hsquare⟩ := h.square
    exact (hsquare.executed_of_retired h.accepted hn).subset (by simp)
  · intro hmem
    exact h.clocked.retired n (List.mem_filterMap.2 ⟨_, hmem, rfl⟩)

/-! ### Markers in use -/

/-- A watched world with the markers that were made of one of its domains, in order. -/
structure Marked extends Watched where
  markers : List Marker

namespace Marked

/-- No marker was made yet. -/
def start (w : World) (schedule : List (List Event)) : Marked := ⟨Watched.start w schedule, []⟩

/-- What is done with a domain: with its markers, which go by their numbers, with the handles to it,
and with whatever else there is. -/
inductive Move
  | newMarker
  | record (i : Nat)
  | poll (i : Nat)
  | freeMarker (i : Nat)
  | keep
  | letGo
  | deed (deed : Watched.Deed)

inductive Reply
  | done
  | recorded (count : Nat)
  | polled (retired : Bool)
  | refused (cause : Fault)
deriving DecidableEq

/-- Makes a move with domain `d`. A marker that was not made yet cannot be used. -/
def make (d : Nat) (x : Marked) : Move → Reply × Marked
  | .newMarker =>
    match Watched.call (newMarker d) x.toWatched with
    | .ok m y => (.done, ⟨y, x.markers ++ [m]⟩)
    | .error e y => (.refused e, ⟨y, x.markers⟩)
  | .record i =>
    match x.markers[i]? with
    | none => (.done, x)
    | some m =>
      match Watched.call (record d m) x.toWatched with
      | .ok m' y => (.recorded m'.count, ⟨y, x.markers.set i m'⟩)
      | .error e y => (.refused e, ⟨y, x.markers⟩)
  | .poll i =>
    match x.markers[i]? with
    | none => (.done, x)
    | some m =>
      match Watched.call (poll d m) x.toWatched with
      | .ok m' y => (.polled m'.isSome, ⟨y, x.markers⟩)
      | .error e y => (.refused e, ⟨y, x.markers⟩)
  | .freeMarker i =>
    match x.markers[i]? with
    | none => (.done, x)
    | some m =>
      let (_, y) := Attempt.outcome (Watched.call (freeMarker d m)) x.toWatched
      (.done, { x with toWatched := y })
  | .keep => (.done, { x with toWatched := x.toWatched.keep d })
  | .letGo => (.done, { x with toWatched := x.toWatched.letGo d })
  | .deed deed => (.done, { x with toWatched := x.toWatched.perform deed })

structure Turn where
  move : Move
  reply : Reply
  before : Marked
  after : Marked

def turn (d : Nat) (x : Marked) (move : Move) : Turn :=
  { move, reply := (x.make d move).1, before := x, after := (x.make d move).2 }

def turns (d : Nat) : Marked → List Move → List Turn
  | _, [] => []
  | x, move :: rest => turn d x move :: turns d (turn d x move).after rest

def run (d : Nat) (x : Marked) : List Move → Marked
  | [] => x
  | move :: rest => run d (turn d x move).after rest

/-- The count that a marker was recorded under. -/
def Turn.recorded? (t : Turn) : Option Nat :=
  match t.reply with
  | .recorded n => some n
  | _ => none

/-- The count that marker `i` was recorded under. -/
def Turn.count? (t : Turn) (i : Nat) : Option Nat :=
  match t.move with
  | .record j => if j = i then t.recorded? else none
  | _ => none

/-- The last turn that recorded marker `i`, and the count. There is none before the first. -/
def latest? (i : Nat) (past : List Turn) : Option (Turn × Nat) :=
  (past.filterMap fun t => (t.count? i).map (t, ·)).getLast?

/-! ### Histories -/

theorem latest_snoc (i : Nat) (past : List Turn) (t : Turn) :
    latest? i (past ++ [t]) = ((t.count? i).map (t, ·)).or (latest? i past) := by
  rw [latest?, List.filterMap_append]
  cases h : t.count? i <;> simp [h, latest?]

/-- Turns that do not record a marker do not change what it was recorded under. -/
theorem latest_append {i : Nat} {past more : List Turn} (h : ∀ t ∈ more, t.count? i = none) :
    latest? i (past ++ more) = latest? i past := by
  have hnone : (more.filterMap fun t => (t.count? i).map (t, ·)) = [] :=
    List.filterMap_eq_nil_iff.2 fun t ht => by rw [h t ht]; rfl
  rw [latest?, List.filterMap_append, hnone, List.append_nil, latest?]

open Presentation (twoWorkers)

variable {d : Nat} {x : Marked} {past : List Turn}

/-! ### What a move does -/

/-- Whatever move is made, the account of a worker keeps what its steps keep. -/
theorem of_make {J : Worker → List Command → List Command → Prop} (hJ : Worker.Kept J) {e : Nat}
    (h : x.toWatched.Of J e) (move : Move) : (x.make d move).2.toWatched.Of J e := by
  have hcall {α : Type} {given : List Texture} {act : Attempt World α} (hact : Prompt given act) :
      Watched.Of J e (Attempt.leaves (Watched.call act x.toWatched)) :=
    ((hJ.lasting e).call hact).leaves h
  cases move with
  | newMarker =>
    have hafter := hcall (.newMarker d)
    simp only [make]
    cases hr : Watched.call (newMarker d) x.toWatched <;> rwa [hr] at hafter
  | record i =>
    simp only [make]
    cases x.markers[i]? with
    | none => exact h
    | some m =>
      have hafter := hcall (.record d m)
      dsimp only
      cases hr : Watched.call (record d m) x.toWatched <;> rwa [hr] at hafter
  | poll i =>
    simp only [make]
    cases x.markers[i]? with
    | none => exact h
    | some m => exact hcall (.poll d m)
  | freeMarker i =>
    simp only [make]
    cases x.markers[i]? with
    | none => exact h
    | some m =>
      dsimp only
      rw [Attempt.outcome_eq]
      exact hcall (.countDestroyed d)
  | keep => exact hJ.keep h d
  | letGo => exact hJ.letGo h d
  | deed deed => exact (hJ.lasting e).perform deed h

/-- A move records a marker, whose signal goes behind everything that was accepted, or it records
nothing and at most makes a new marker. -/
theorem make_cases (d : Nat) (x : Marked) (move : Move) :
    (turn d x move).recorded? = none ∧
      ((turn d x move).after.markers = x.markers ∨
        (turn d x move).after.markers = x.markers ++ [⟨0⟩]) ∨
    ∃ i m n, move = .record i ∧ x.markers[i]? = some m ∧ (turn d x move).reply = .recorded n ∧
      (turn d x move).after.markers = x.markers.set i ⟨n⟩ ∧
      (turn d x move).after.accepted d = x.accepted d ++ [.retire n] := by
  cases move with
  | newMarker => exact .inl ⟨rfl, .inr rfl⟩
  | record i =>
    simp only [turn, Turn.recorded?, make]
    cases hm : x.markers[i]? with
    | none => exact .inl ⟨rfl, .inl rfl⟩
    | some m =>
      dsimp only
      cases hr : Watched.call (record d m) x.toWatched with
      | error e y => exact .inl ⟨rfl, .inl rfl⟩
      | ok m' y => exact .inr ⟨i, m, m'.count, rfl, hm, rfl, rfl, Watched.accepted_record hr⟩
  | poll i =>
    simp only [turn, Turn.recorded?, make]
    cases x.markers[i]? <;> exact .inl ⟨rfl, .inl rfl⟩
  | freeMarker i =>
    simp only [turn, Turn.recorded?, make]
    cases x.markers[i]? <;> exact .inl ⟨rfl, .inl rfl⟩
  | keep => exact .inl ⟨rfl, .inl rfl⟩
  | letGo => exact .inl ⟨rfl, .inl rfl⟩
  | deed deed => exact .inl ⟨rfl, .inl rfl⟩

/-! ### What a marker stands for -/

/-- The marker has the count that marker `i` was last recorded under, and the signal of this count
was accepted behind everything that worker `d` had accepted before. -/
def Stands (d : Nat) (past : List Turn) (accepted : List Command) (i : Nat) (m : Marker) : Prop :=
  m.count = 0 ∧ latest? i past = none ∨
  ∃ u, latest? i past = some (u, m.count) ∧ u.before.accepted d ++ [.retire m.count] <+: accepted

theorem Stands.later {accepted accepted' : List Command} {i : Nat} {m : Marker}
    {past' : List Turn} (h : Stands d past accepted i m)
    (hlatest : latest? i past' = latest? i past) (haccepted : accepted <+: accepted') :
    Stands d past' accepted' i m := by
  rcases h with ⟨hzero, hnone⟩ | ⟨u, hu, hpast⟩
  · exact .inl ⟨hzero, hlatest.trans hnone⟩
  · exact .inr ⟨u, hlatest.trans hu, hpast.trans haccepted⟩

/-- What holds of the markers and of the account of their worker. -/
structure Tells (d : Nat) (past : List Turn) (x : Marked) : Prop where
  accounted : x.toWatched.Of (Worker.Accounted [] []) d
  stands : ∀ i m, x.markers[i]? = some m → Stands d past (x.accepted d) i m
  new : ∀ i, x.markers.length ≤ i → latest? i past = none
  recorded : (past.filterMap Turn.recorded?).Sublist ((x.accepted d).filterMap Command.count?)

theorem count_of_quiet {t : Turn} (h : t.recorded? = none) (i : Nat) : t.count? i = none := by
  rw [Turn.count?]
  split
  · rw [h, ite_self]
  · rfl

/-- Moves that record no marker leave what the others stand for. -/
theorem Tells.aside (h : Tells d past x) {t : Turn} (hquiet : t.recorded? = none) {y : Marked}
    (hy : y.toWatched.Of (Worker.Accounted (x.accepted d) []) d)
    (hmarkers : y.markers = x.markers ∨ y.markers = x.markers ++ [⟨0⟩]) :
    Tells d (past ++ [t]) y := by
  have hlatest (i : Nat) : latest? i (past ++ [t]) = latest? i past := by
    rw [latest_snoc, count_of_quiet hquiet]
    rfl
  have hold (i : Nat) (m : Marker) (hm : x.markers[i]? = some m) :
      Stands d (past ++ [t]) (y.accepted d) i m :=
    (h.stands i m hm).later (hlatest i) hy.accepted
  refine ⟨⟨hy.square, hy.clocked, List.nil_prefix, List.nil_prefix⟩, fun i m hm => ?_,
    fun i hi => ?_, ?_⟩
  · rcases hmarkers with hsame | hnew
    · exact hold i m (hsame ▸ hm)
    · rw [hnew] at hm
      rcases Nat.lt_or_ge i x.markers.length with hi | hi
      · rw [List.getElem?_append_left hi] at hm
        exact hold i m hm
      · rw [List.getElem?_append_right hi, List.getElem?_singleton] at hm
        split at hm
        · cases hm
          exact .inl ⟨rfl, (hlatest i).trans (h.new i hi)⟩
        · cases hm
  · rw [hlatest]
    refine h.new i (Nat.le_trans ?_ hi)
    rcases hmarkers with hsame | hnew
    · exact Nat.le_of_eq (congrArg _ hsame.symm)
    · rw [hnew, List.length_append]
      exact Nat.le_add_right ..
  · rw [List.filterMap_append, List.filterMap_cons_none hquiet, List.filterMap_nil, List.append_nil]
    exact h.recorded.trans (hy.accepted.sublist.filterMap _)

/-- A marker that is recorded stands for the signal that was just accepted. -/
theorem Tells.record (h : Tells d past x) {t : Turn} {i n : Nat} {m : Marker}
    (hmove : t.move = .record i) (hreply : t.reply = .recorded n) (hbefore : t.before = x)
    (hm : x.markers[i]? = some m) {y : Marked}
    (hy : y.toWatched.Of (Worker.Accounted (x.accepted d) []) d)
    (hmarkers : y.markers = x.markers.set i ⟨n⟩)
    (haccepted : y.accepted d = x.accepted d ++ [.retire n]) : Tells d (past ++ [t]) y := by
  have hrecorded : t.recorded? = some n := by rw [Turn.recorded?, hreply]
  have hcount (j : Nat) : t.count? j = if i = j then some n else none := by
    rw [Turn.count?, hmove, hrecorded]
  have hi : i < x.markers.length := (List.getElem?_eq_some_iff.1 hm).1
  refine ⟨⟨hy.square, hy.clocked, List.nil_prefix, List.nil_prefix⟩, fun j k hk => ?_,
    fun j hj => ?_, ?_⟩
  · have hlatest := latest_snoc j past t
    rw [hcount] at hlatest
    rw [hmarkers] at hk
    by_cases hj : i = j
    · subst hj
      rw [List.getElem?_set_self hi] at hk
      cases hk
      rw [if_pos rfl] at hlatest
      have hsigned : t.before.accepted d ++ [.retire n] = y.accepted d := by rw [hbefore, haccepted]
      exact .inr ⟨t, hlatest, hsigned ▸ List.prefix_rfl⟩
    · rw [List.getElem?_set_ne hj] at hk
      rw [if_neg hj] at hlatest
      exact (h.stands j k hk).later hlatest hy.accepted
  · rw [hmarkers, List.length_set] at hj
    rw [latest_snoc, hcount, if_neg (by omega)]
    exact h.new j hj
  · rw [List.filterMap_append, List.filterMap_cons_some hrecorded, List.filterMap_nil, haccepted,
      List.filterMap_append]
    exact h.recorded.append (List.Sublist.refl _)

theorem Tells.turn (h : Tells d past x) (move : Move) :
    Tells d (past ++ [Marked.turn d x move]) (Marked.turn d x move).after := by
  have hstart : x.toWatched.Of (Worker.Accounted (x.accepted d) []) d :=
    ⟨h.accounted.square, h.accounted.clocked, List.prefix_rfl, List.nil_prefix⟩
  have hafter := of_make (d := d) (Worker.Accounted.kept _ _) hstart move
  rcases make_cases d x move with
    ⟨hquiet, hmarkers⟩ | ⟨i, m, n, rfl, hm, hreply, hmarkers, haccepted⟩
  · exact h.aside hquiet hafter hmarkers
  · exact h.record rfl hreply rfl hm hafter hmarkers haccepted

theorem Tells.run (moves : List Move) {past : List Turn} {x : Marked} (h : Tells d past x) :
    Tells d (past ++ turns d x moves) (run d x moves) := by
  induction moves generalizing past x with
  | nil =>
    rw [turns, List.append_nil]
    exact h
  | cons move moves ih =>
    rw [turns, List.append_cons]
    exact ih (h.turn move)

theorem tells_start {w : World} (hw : w.Sound) (schedule : List (List Event)) (d : Nat) :
    Tells d [] (start w schedule) where
  accounted := ⟨⟨_, .of_sound hw d⟩, .of_sound hw d, List.nil_prefix, List.nil_prefix⟩
  stands _ _ hm := by cases hm
  new _ _ := rfl
  recorded := List.nil_sublist _

/-! ### What a poll answers -/

/-- A poll compares the marker with what has retired by then. -/
theorem turn_poll {i : Nat} {m : Marker} (hm : x.markers[i]? = some m) :
    (Marked.turn d x (.poll i)).reply =
      .polled (decide (m.count ≤ (x.yield.world.workers d).retired)) ∧
    (Marked.turn d x (.poll i)).after.world = x.yield.world := by
  have hcall : Watched.call (Soft.poll d m) x.toWatched =
      .ok (if m.count ≤ (x.yield.world.workers d).retired then some m else none)
        (x.yield.enter x.yield.world) := rfl
  simp only [Marked.turn, make, hm, hcall]
  refine ⟨?_, rfl⟩
  split <;> rename_i hn <;> simp [hn]

/-- The signal of a marker that was recorded has executed exactly when the marker is found
retired. -/
theorem Tells.poll (h : Tells d past x) {i : Nat} {m : Marker} (hm : x.markers[i]? = some m) :
    ((Marked.turn d x (.poll i)).reply = .polled true ↔
      latest? i past = none ∨ ∃ u n, latest? i past = some (u, n) ∧
        .retire n ∈ (Marked.turn d x (.poll i)).after.executed d) ∧
    ((Marked.turn d x (.poll i)).reply = .polled true → ∀ u n, latest? i past = some (u, n) →
      u.before.accepted d ++ [.retire n] <+: (Marked.turn d x (.poll i)).after.executed d) := by
  obtain ⟨hreply, hworld⟩ := turn_poll (d := d) hm
  rw [hreply, Reply.polled.injEq, decide_eq_true_eq, ← hworld]
  rcases h.stands i m hm with ⟨hzero, hnone⟩ | ⟨u, hu, hpast⟩
  · refine ⟨iff_of_true (hzero ▸ Nat.zero_le _) (.inl hnone), fun _ u n hu => ?_⟩
    rw [hnone] at hu
    cases hu
  · have hbefore :
        x.toWatched.Of (Worker.Accounted (u.before.accepted d ++ [.retire m.count]) []) d :=
      ⟨h.accounted.square, h.accounted.clocked, hpast, List.nil_prefix⟩
    have hafter : (Marked.turn d x (.poll i)).after.toWatched.Of
        (Worker.Accounted (u.before.accepted d ++ [.retire m.count]) []) d :=
      of_make (Worker.Accounted.kept _ _) hbefore (.poll i)
    have hretired := hafter.retired_iff
    refine ⟨hretired.trans ⟨fun hmem => .inr ⟨u, _, hu, hmem⟩, ?_⟩, ?_⟩
    · rintro (hnone | ⟨v, n, hv, hmem⟩)
      · rw [hu] at hnone
        cases hnone
      · rw [hu] at hv
        cases hv
        exact hmem
    · rintro hn v n hv
      rw [hu] at hv
      cases hv
      obtain ⟨rest, hsquare⟩ := hafter.square
      exact hsquare.executed_of_retired hafter.accepted hn

theorem of_run {J : Worker → List Command → List Command → Prop} (hJ : Worker.Kept J) {e : Nat}
    (moves : List Move) {x : Marked} (h : x.toWatched.Of J e) :
    (run d x moves).toWatched.Of J e := by
  induction moves generalizing x with
  | nil => exact h
  | cons move moves ih => exact ih (of_make hJ h move)

/-- Markers that were made stay. -/
theorem length_run (d : Nat) (moves : List Move) (x : Marked) :
    x.markers.length ≤ (run d x moves).markers.length := by
  induction moves generalizing x with
  | nil => exact Nat.le_refl _
  | cons move moves ih =>
    refine Nat.le_trans ?_ (ih (Marked.turn d x move).after)
    rcases make_cases d x move with ⟨-, hmarkers | hmarkers⟩ | ⟨i, m, n, -, -, -, hmarkers, -⟩ <;>
      simp [hmarkers]

/-- A marker that was found retired is found so again until it is recorded anew. -/
theorem Tells.stays (h : Tells d past x) {i : Nat} (hi : i < x.markers.length)
    (hready : (Marked.turn d x (.poll i)).reply = .polled true) {more : List Move}
    (hmore : ∀ u ∈ turns d (Marked.turn d x (.poll i)).after more, u.count? i = none) :
    (Marked.turn d (Marked.run d (Marked.turn d x (.poll i)).after more) (.poll i)).reply =
      .polled true := by
  let t := Marked.turn d x (.poll i)
  let z := Marked.run d t.after more
  have hmarkers : t.after.markers.length = x.markers.length := by
    show (x.make d (.poll i)).2.markers.length = _
    simp only [make]
    cases x.markers[i]? <;> rfl
  have hlength : i < z.markers.length :=
    Nat.lt_of_lt_of_le (hmarkers.symm ▸ hi) (length_run d more t.after)
  have hlatest : latest? i (past ++ [t] ++ turns d t.after more) = latest? i past := by
    rw [latest_append hmore, latest_append]
    intro u hu
    rw [List.mem_singleton.1 hu]
    rfl
  have hexecuted : t.after.executed d <+: (Marked.turn d z (.poll i)).after.executed d := by
    have ht := (h.turn (.poll i)).accounted
    have hstart : t.after.toWatched.Of (Worker.Accounted [] (t.after.executed d)) d :=
      ⟨ht.square, ht.clocked, List.nil_prefix, List.prefix_rfl⟩
    have hkept := Worker.Accounted.kept [] (t.after.executed d)
    exact (of_make hkept (of_run hkept more hstart) (.poll i)).executed
  refine (((h.turn (.poll i)).run more).poll (List.getElem?_eq_getElem hlength)).1.2 ?_
  rw [hlatest]
  refine ((h.poll (List.getElem?_eq_getElem hi)).1.1 hready).imp_right ?_
  rintro ⟨u, n, hu, hmem⟩
  exact ⟨u, n, hu, hexecuted.subset hmem⟩

/-- A marker is refused by nobody but a dead worker, which stands still. -/
theorem stopped_of_refused {x y : Watched} (h : x.Of (Worker.Accounted [] []) d) {m : Marker}
    {e : Fault} (hcall : Watched.call (Soft.record d m) x = .error e y) :
    y.Of (Worker.Stopped (x.yield.world.workers d).retired) d := by
  obtain ⟨rest, hsquare⟩ := (((Worker.Accounted.kept [] []).lasting d).yield h).square
  simp only [Watched.call] at hcall
  rcases record_cases d m x.yield.world with ⟨hrecord, -⟩ | ⟨hrecord, hdead⟩ <;>
    rw [hrecord] at hcall <;> cases hcall
  show Worker.Stopped _ ((x.yield.world.useCount d).workers d) _ _
  rw [World.useCount, World.workers_setWorker, if_pos rfl]
  exact ⟨hdead, hsquare.dead hdead, rfl⟩

theorem record_refused {i : Nat} {e : Fault}
    (h : (Marked.turn d x (.record i)).reply = .refused e) :
    ∃ m y, Watched.call (Soft.record d m) x.toWatched = .error e y ∧
      (Marked.turn d x (.record i)).after = ⟨y, x.markers⟩ := by
  simp only [Marked.turn, make] at h ⊢
  cases hm : x.markers[i]? with
  | none =>
    rw [hm] at h
    cases h
  | some m =>
    rw [hm] at h
    dsimp only at h ⊢
    cases hr : Watched.call (Soft.record d m) x.toWatched with
    | ok m' y =>
      rw [hr] at h
      cases h
    | error e' y =>
      rw [hr] at h
      cases h
      exact ⟨m, y, hr, rfl⟩

/-- After a refusal every marker answers what it would have answered instead. -/
theorem Tells.refused (h : Tells d past x) {i : Nat} {e : Fault}
    (hrefused : (Marked.turn d x (.record i)).reply = .refused e) :
    (Marked.turn d x (.record i)).after.markers = x.markers ∧
    ∀ j, (Marked.turn d (Marked.turn d x (.record i)).after (.poll j)).reply =
      (Marked.turn d x (.poll j)).reply := by
  obtain ⟨m, y, hcall, hafter⟩ := record_refused hrefused
  rw [hafter]
  refine ⟨rfl, fun j => ?_⟩
  cases hj : x.markers[j]? with
  | none => simp only [Marked.turn, make, hj]
  | some k =>
    obtain ⟨-, -, hretired⟩ : y.yield.Of (Worker.Stopped (x.yield.world.workers d).retired) d :=
      ((Worker.Stopped.kept _).lasting d).yield (stopped_of_refused h.accounted hcall)
    rw [(turn_poll (x := ⟨y, x.markers⟩) hj).1, (turn_poll hj).1, ← hretired]

/-- **A marker tells whether its last signal has executed.** Of a software domain that is used
through any number of handles, whatever is submitted to it and to others, with markers that are
made and recorded at any time and any number of times, with a worker that gets on, is waited for or
dies at any time: a poll is always answered, and finds a marker retired exactly when it
was never recorded or the signal that it was last recorded under has executed. Then everything that
was accepted before this signal has executed, and the marker is found retired until it is recorded
anew. Markers are recorded under increasing counts. A marker that cannot be recorded leaves
all markers as they were, and a poll answers what it would have answered instead. -/
theorem marker_tells_execution {w : World} (hw : w.Sound) (schedule : List (List Event)) (d : Nat)
    (moves : List Move) :
    let x := run d (start w schedule) moves
    let past := turns d (start w schedule) moves
    (∀ i < x.markers.length,
      let t := turn d x (.poll i)
      (∃ retired, t.reply = .polled retired) ∧
      (t.reply = .polled true ↔
        latest? i past = none ∨
        ∃ u n, latest? i past = some (u, n) ∧ .retire n ∈ t.after.executed d) ∧
      (t.reply = .polled true → ∀ u n, latest? i past = some (u, n) →
        u.before.accepted d ++ [.retire n] <+: t.after.executed d) ∧
      (t.reply = .polled true → ∀ more, (∀ u ∈ turns d t.after more, u.count? i = none) →
        (turn d (run d t.after more) (.poll i)).reply = .polled true)) ∧
    (past.filterMap Turn.recorded?).Pairwise (· < ·) ∧
    ∀ i e, (turn d x (.record i)).reply = .refused e →
      (turn d x (.record i)).after.markers = x.markers ∧
      ∀ j, (turn d (turn d x (.record i)).after (.poll j)).reply = (turn d x (.poll j)).reply := by
  intro x past
  have h : Tells d past x := (tells_start hw schedule d).run moves
  refine ⟨fun i hi => ?_, ?_, fun i e => h.refused⟩
  · have hm := List.getElem?_eq_getElem hi
    obtain ⟨hretired, hbehind⟩ := h.poll hm
    exact ⟨⟨_, (turn_poll hm).1⟩, hretired, hbehind, fun hready more hmore =>
      h.stays hi hready hmore⟩
  · exact h.accounted.clocked.increasing.sublist h.recorded

/-- Of two markers the first retires. The second is recorded behind it, and lost when the worker
dies. -/
def dying : List Move :=
  [.newMarker, .newMarker, .deed (.newTexture 0 ⟨1, 1⟩),
    .deed (.write 0 ⟨1, ⟨1, 1⟩, 0⟩ [1, 2, 3, 4]), .record 0, .keep, .record 1,
    .deed (.happen (.execute 0)), .deed (.happen (.execute 0)), .deed (.happen (.kill 0))]

/-- The first marker is still found retired when the dead worker has refused to record it anew. -/
theorem marker_tells_execution_dying :
    twoWorkers.Sound ∧
    (turns 0 (start twoWorkers []) dying).filterMap Turn.recorded? = [1, 2] ∧
    (turn 0 (run 0 (start twoWorkers []) dying) (.poll 0)).reply = .polled true ∧
    (∃ u n, latest? 0 (turns 0 (start twoWorkers []) dying) = some (u, n) ∧
      .retire n ∈ (turn 0 (run 0 (start twoWorkers []) dying) (.poll 0)).after.executed 0) ∧
    (turn 0 (run 0 (start twoWorkers []) dying) (.poll 1)).reply = .polled false ∧
    (turn 0 (run 0 (start twoWorkers []) dying) (.record 0)).reply =
      .refused Refusal.markerLost.fault ∧
    (turn 0 (turn 0 (run 0 (start twoWorkers []) dying) (.record 0)).after (.poll 0)).reply =
      .polled true := by
  have hsound : twoWorkers.Sound := (World.sound_blank.startWorker "P" 0).startWorker "C" 0
  obtain ⟨hpoll, -, hrefused⟩ := marker_tells_execution hsound [] 0 dying
  have hready : (turn 0 (run 0 (start twoWorkers []) dying) (.poll 0)).reply = .polled true := by
    decide +kernel
  have hrefusal : (turn 0 (run 0 (start twoWorkers []) dying) (.record 0)).reply =
      .refused Refusal.markerLost.fault := by
    decide +kernel
  have hrecorded : (latest? 0 (turns 0 (start twoWorkers []) dying)).isSome = true := by
    decide +kernel
  refine ⟨hsound, by decide +kernel, hready, ?_, by decide +kernel, hrefusal, ?_⟩
  · refine ((hpoll 0 (by decide +kernel)).2.1.1 hready).resolve_left fun hnone => ?_
    rw [show latest? 0 (turns 0 (start twoWorkers []) dying) = none from hnone] at hrecorded
    cases hrecorded
  · exact ((hrefused 0 _ hrefusal).2 0).trans hready

end Marked
end SurfaceRelay.Soft
