import SurfaceRelay.Proofs.Pool.Reuse
import SurfaceRelay.Proofs.Soft.Lasting
import SurfaceRelay.Proofs.Soft.Presentation

/-! What has executed when a surface goes out again.

A worker executes what it accepted in the order in which it accepted it, so at any time it has
executed a first part of that, which reaches at least to the last marker that retired
(`Worker.Square`). A marker that was found retired therefore has everything ahead of it executed,
also when its worker died since, and a worker that completed a map has executed everything. So a
pool over software domains hands a surface out again only behind all the work that the producer
was given before its release, and waits for the consumer until all the work is done that it was
given before, whatever else the domains are used for, and whichever worker dies when
(`reused_behind_executed`). -/
namespace SurfaceRelay.Soft
variable {w w' : World} {k k' : Worker} {d e : Nat} {α : Type}

/-! ### The books of a worker -/

/-- What the worker has accepted is what it has executed and this, in this order. It is what is
queued, or what was lost when the worker died; its markers have not retired. -/
structure Worker.Square (k : Worker) (accepted executed rest : List Command) : Prop where
  order : accepted = executed ++ rest
  live : k.health ≠ .dead → k.queue = rest
  dead : k.health = .dead → k.queue = []
  counts : (rest.filterMap Command.count?).Pairwise (· < ·)
  pending : ∀ n ∈ rest.filterMap Command.count?, k.retired < n ∧ n ≤ k.lastCount
  retired : k.retired ≤ k.lastCount

variable {accepted executed rest : List Command}

namespace Worker.Square

/-- New commands stand behind all others. -/
theorem takes (h : k.Square accepted executed rest) {new : List Command} (hk : k.Takes k' new) :
    k'.Square (accepted ++ new) executed (rest ++ new) := by
  refine ⟨?_, fun hlive => ?_, fun hdead => ?_, ?_, fun n hn => ?_, ?_⟩
  · rw [h.order, List.append_assoc]
  · rw [hk.queue, h.live fun hdead => hlive (hk.dead.2 hdead)]
  · have hdead := hk.dead.1 hdead
    rw [hk.queue, h.dead hdead, hk.refused hdead, List.append_nil]
  · rw [List.filterMap_append, List.pairwise_append]
    exact ⟨h.counts, hk.counts, fun n hn m hm =>
      Nat.lt_of_le_of_lt (h.pending n hn).2 (hk.above m hm).1⟩
  · rw [hk.retired]
    rw [List.filterMap_append, List.mem_append] at hn
    rcases hn with hn | hn
    · exact ⟨(h.pending n hn).1, Nat.le_trans (h.pending n hn).2 hk.lastCount⟩
    · exact ⟨Nat.lt_of_le_of_lt h.retired (hk.above n hn).1, (hk.above n hn).2⟩
  · rw [hk.retired]
    exact Nat.le_trans h.retired hk.lastCount

/-- What a worker has not executed when it dies is lost. -/
theorem die (h : k.Square accepted executed rest) :
    Worker.Square { k with queue := [], health := .dead } accepted executed rest :=
  ⟨h.order, fun hlive => absurd rfl hlive, fun _ => rfl, h.counts, h.pending, h.retired⟩

/-- The oldest command is executed. -/
theorem execute {c : Command} (h : k.Square accepted executed rest) (hk : k.Executes k' c) :
    k'.Square accepted (executed ++ [c]) k'.queue := by
  have hlive : k.health ≠ .dead := fun hdead => by
    have hempty := h.dead hdead
    rw [hk.queue] at hempty
    cases hempty
  obtain rfl : rest = c :: k'.queue := (h.live hlive).symm.trans hk.queue
  have hpending (n : Nat) (hn : n ∈ k'.queue.filterMap Command.count?) :
      max k.retired (c.count?.getD 0) < n ∧ n ≤ k.lastCount := by
    have hmem : n ∈ (c :: k'.queue).filterMap Command.count? :=
      ((List.sublist_cons_self c k'.queue).filterMap _).subset hn
    obtain ⟨hlt, hle⟩ := h.pending n hmem
    refine ⟨Nat.max_lt.2 ⟨hlt, ?_⟩, hle⟩
    cases hc : c.count? with
    | none => exact Nat.zero_lt_of_lt hlt
    | some m =>
      have hcounts := h.counts
      rw [List.filterMap_cons_some hc] at hcounts
      exact (List.pairwise_cons.1 hcounts).1 n hn
  refine ⟨?_, fun _ => rfl, fun hdead => absurd (hk.health.symm.trans hdead) hlive,
    h.counts.sublist ((List.sublist_cons_self c k'.queue).filterMap _), fun n hn => ?_, ?_⟩
  · rw [h.order, List.append_assoc]
    rfl
  · rw [hk.retired, hk.lastCount]
    exact hpending n hn
  · rw [hk.retired, hk.lastCount]
    refine Nat.max_le.2 ⟨h.retired, ?_⟩
    cases hc : c.count? with
    | none => exact Nat.zero_le _
    | some m =>
      refine (h.pending m ?_).2
      rw [List.filterMap_cons_some hc]
      exact List.mem_cons_self ..

/-- Everything up to a marker that has retired was executed. -/
theorem executed_of_retired (h : k.Square accepted executed rest) {past : List Command} {n : Nat}
    (hpast : past ++ [.retire n] <+: accepted) (hn : n ≤ k.retired) :
    past ++ [.retire n] <+: executed := by
  rw [h.order] at hpast
  rcases List.prefix_or_prefix_of_prefix hpast (List.prefix_append executed rest) with hle | hle
  · exact hle
  · obtain ⟨ahead, hahead⟩ := hle
    rcases List.eq_nil_or_concat ahead with rfl | ⟨init, last, rfl⟩
    · rw [List.append_nil] at hahead
      exact hahead ▸ List.prefix_rfl
    -- otherwise the marker is among what was not executed
    · have hlast : last = .retire n := by
        rw [List.concat_eq_append, ← List.append_assoc] at hahead
        exact (List.append_inj' hahead rfl).2 |> List.singleton_inj.1
      have hrest : init.concat last <+: rest := by
        rw [← hahead] at hpast
        exact (List.prefix_append_right_inj executed).1 hpast
      have hmem : .retire n ∈ rest := hrest.subset (by simp [hlast])
      exact absurd hn (Nat.not_le.2 (h.pending n (List.mem_filterMap.2 ⟨_, hmem, rfl⟩)).1)

/-- A worker that is alive and has nothing to do has executed everything. -/
theorem executed_of_idle (h : k.Square accepted executed rest) (hqueue : k.queue = [])
    (hlive : k.health ≠ .dead) : executed = accepted := by
  rw [h.order, ← h.live hlive, hqueue, List.append_nil]

/-- Every step of a worker keeps its books. -/
theorem kept : Worker.Kept fun k accepted executed => ∃ rest, k.Square accepted executed rest where
  takes := fun ⟨_, h⟩ hk => ⟨_, h.takes hk⟩
  executes := fun ⟨_, h⟩ hk => ⟨_, h.execute hk⟩
  dies := fun ⟨_, h⟩ => ⟨_, h.die⟩

/-- The books are right to start with. -/
theorem of_sound (hw : w.Sound) (d : Nat) :
    (w.workers d).Square (w.queue d) [] (w.queue d) := by
  refine ⟨rfl, fun _ => rfl, hw.dead d, hw.counts d, fun n hn => ?_, hw.retired d⟩
  obtain ⟨c, hc, hn⟩ := List.mem_filterMap.1 hn
  cases c with
  | retire m =>
    cases hn
    exact hw.pending d n hc
  | _ => cases hn

end Worker.Square

/-! ### The account through everything that happens -/

namespace Watched
variable {x : Watched} {past : List Command}

/-- The account of worker `d` is right, and these are the first commands that it accepted. -/
structure Tally (past : List Command) (d : Nat) (x : Watched) : Prop where
  square : ∃ rest, (x.world.workers d).Square (x.accepted d) (x.executed d) rest
  past : past <+: x.accepted d

/-- The account stays right whatever is done. -/
theorem tally_lasting (past : List Command) (d : Nat) : Lasting (Tally past d) := by
  let J (k : Worker) (accepted executed : List Command) : Prop :=
    (∃ rest, k.Square accepted executed rest) ∧ past <+: accepted
  have hkept : Worker.Kept J :=
    { takes := fun h hk =>
        ⟨Worker.Square.kept.takes h.1 hk, h.2.trans (List.prefix_append ..)⟩
      executes := fun h hk => ⟨Worker.Square.kept.executes h.1 hk, h.2⟩
      dies := fun h => ⟨Worker.Square.kept.dies h.1, h.2⟩ }
  have hsame : Tally past d = Of J d :=
    funext fun _ => propext ⟨fun h => ⟨h.square, h.past⟩, fun h => ⟨h.1, h.2⟩⟩
  rw [hsame]
  exact hkept.lasting d

theorem tally_start (hw : w.Sound) (schedule : List (List Event)) (d : Nat) :
    Tally [] d (start w schedule) := ⟨⟨_, .of_sound hw d⟩, List.nil_prefix⟩

/-! ### Markers and maps -/

theorem accepted_elapse (x : Watched) (events : List Event) :
    (x.elapse events).accepted = x.accepted := by
  induction events generalizing x with
  | nil => rfl
  | cons event events ih =>
    refine (ih (x.happen event)).trans ?_
    cases event <;> rfl

theorem accepted_yield (x : Watched) : x.yield.accepted = x.accepted := by
  simp only [yield]
  cases x.schedule with
  | nil => rfl
  | cons events schedule => exact accepted_elapse { x with schedule } events

/-- A marker stands behind everything that was accepted before it was recorded. -/
theorem accepted_record {m m' : Marker} {x' : Watched} (h : call (record d m) x = .ok m' x') :
    x'.accepted d = x.accepted d ++ [.retire m'.count] := by
  rw [← accepted_yield x]
  simp only [call] at h
  rcases record_cases d m x.yield.world with ⟨hrecord, hlive⟩ | ⟨hrecord, -⟩ <;>
    rw [hrecord] at h <;> cases h
  exact accepted_enter (World.takes_sign hlive)

/-- A marker that is found retired has everything that was accepted before it executed. -/
theorem executed_of_poll {m k : Marker} {x' : Watched} (h : Tally (past ++ [.retire m.count]) d x')
    (hpoll : call (poll d m) x = .ok (some k) x') : past <+: x'.executed d := by
  have hfollows := call_follows (poll d m) x
  rw [hpoll] at hfollows
  obtain ⟨-, hretired, hworld⟩ := poll_some (Concurrent.call_ok hfollows)
  rw [← hworld] at hretired
  obtain ⟨rest, hsquare⟩ := h.square
  exact (List.prefix_append ..).trans (hsquare.executed_of_retired h.past hretired)

/-- A map that completes leaves nothing to execute. -/
theorem executed_of_drain {t s : Texture} {region : Extent} {x' : Watched} (h : Tally past d x')
    (hdrain : (domain d).drain t s region x = .ok () x') : past <+: x'.executed d := by
  have hfollows := (domain_follows d).drain t s region x
  rw [hdrain] at hfollows
  obtain ⟨hqueue, hlive⟩ := drain_idle hfollows
  obtain ⟨rest, hsquare⟩ := h.square
  rw [hsquare.executed_of_idle hqueue hlive]
  exact h.past

end Watched

open Pool (Turn Course HandedOutAgain)
open Presentation (smallPool twoWorkers)
open Watched (Meanwhile Tally tally_lasting tally_start executed_of_poll executed_of_drain
  accepted_record)

variable {p c : Nat} {history : List (Turn Watched Texture Marker Texture)}
  {pool : Pool Texture Marker Texture} {schedule : List (List Event)}

/-- A pool together with the account of a worker. -/
def Accountable (past : List Command) (d : Nat) (x : Pool Texture Marker Texture × Watched) : Prop :=
  x.1.Inv ∧ Tally past d x.2

theorem accountable_unmoved (past : List Command) (d : Nat) :
    Pool.Unmoved Meanwhile (Accountable past d) :=
  fun _ _ _ hmay h => ⟨h.1, (tally_lasting past d).meanwhile hmay h.2⟩

theorem accountable_turn (p c : Nat) {past : List Command} {d : Nat}
    {x : Pool Texture Marker Texture × Watched} (op : Pool.Op) (h : Accountable past d x) :
    Accountable past d (Pool.turn (Watched.backend p c) x op).after :=
  ⟨Pool.inv_turn h.1 op, ((tally_lasting past d).backend p c).turn h.2 op⟩

/-- When a released surface goes out again, all that the producer had accepted when it was
released has executed. -/
theorem executed_of_reuse {x : Pool Texture Marker Texture × Watched}
    (hcourse : Course (Watched.backend p c) Meanwhile x history) (hx : Accountable [] p x)
    {h : Handle} {rel acq : Turn Watched Texture Marker Texture}
    (hagain : HandedOutAgain history h rel acq) :
    rel.before.2.accepted p <+: acq.after.2.executed p := by
  obtain ⟨hrel, hbefore, mid, rest, hrest, -⟩ := hagain.parts (accountable_unmoved [] p)
    (fun _ op => accountable_turn p c op) hcourse hx
  obtain ⟨s, -, -, hreleased, hreuse⟩ := hagain.reuse_course hcourse hx.1
  have hstart : Accountable (rel.before.2.accepted p) p rel.before :=
    ⟨hbefore.1, hbefore.2.square, List.prefix_rfl⟩
  have hafter : Accountable (rel.before.2.accepted p) p rel.after := by
    rw [hrel]
    exact accountable_turn p c _ hstart
  -- what is accounted for after the release still is after the acquire
  have hcarry {past : List Command} (hpast : Accountable past p rel.after) :
      Tally past p acq.after.2 := by
    obtain ⟨y, hy, hrest⟩ := hrest.carry (accountable_unmoved past p) hpast fun t _ ht htb => by
      rw [ht]
      exact accountable_turn p c _ htb
    obtain ⟨hacq, hacqbefore, -⟩ := hrest.split (accountable_unmoved past p) hy
    rw [hacq]
    exact (accountable_turn p c _ hacqbefore).2
  cases hreuse with
  | drained hd hw hn =>
    rw [hn]
    refine executed_of_drain ?_ hw
    have htally := hcarry hafter
    rw [hn] at htally
    exact htally
  | @retired k ha hpoll =>
    cases hreleased with
    | unarmed hh hr ha' => rw [ha'] at ha; cases ha
    | armed hh hr ha' hrec =>
      have hcall := Attempt.inPlace_ok (f := fun m => Watched.call (record p m)) hrec
      have hpast : rel.before.2.accepted p ++ [.retire s.marker.count] <+: rel.after.2.accepted p :=
        accepted_record hcall ▸ List.prefix_rfl
      exact executed_of_poll (hcarry ⟨hafter.1, hafter.2.square, hpast⟩) hpoll

/-- **Nothing goes out again ahead of the work it was released behind.** Over software domains,
of one device or of several, or one domain for both sides, with whatever the embedder has them do
besides, with workers that get on or die at any time: when an acquire hands out a surface that
was released and not handed out since, everything that the producer had accepted before this
release has executed; and when a wait for the consumer succeeds, everything that the consumer had
accepted before has executed. -/
theorem reused_behind_executed {config : Pool.Config} (hmake : Pool.make config = .ok pool)
    (hsound : w.Sound)
    (hcourse : Course (Watched.backend p c) Meanwhile (pool, Watched.start w schedule) history) :
    (∀ h rel acq, HandedOutAgain history h rel acq →
      rel.before.2.accepted p <+: acq.after.2.executed p) ∧
    ∀ t ∈ history, ∀ h, t.op = .awaitConsumer h → t.answer = .ok none →
      t.before.2.accepted c <+: t.after.2.executed c := by
  refine ⟨fun h rel acq hagain => executed_of_reuse hcourse
    ⟨Pool.inv_make hmake, tally_start hsound schedule p⟩ hagain, fun t ht h hop hok => ?_⟩
  obtain ⟨hturn, hbefore⟩ := hcourse.before (accountable_unmoved [] c)
    (fun _ op => accountable_turn p c op) ⟨Pool.inv_make hmake, tally_start hsound schedule c⟩ ht
  have hstart : Accountable (t.before.2.accepted c) c t.before :=
    ⟨hbefore.1, hbefore.2.square, List.prefix_rfl⟩
  have hafter := accountable_turn p c t.op hstart
  rw [← hturn] at hafter
  rw [hop, Pool.turn_awaitConsumer] at hturn
  have hawaiting := Pool.awaiting (Watched.backend p c) h t.before.1 t.before.2
  rw [hturn] at hok hafter ⊢
  generalize Pool.awaitConsumer (Watched.backend p c) h t.before = r at hawaiting hok hafter ⊢
  cases hawaiting with
  | closed | stale | failed => cases hok
  | landed hp hf hlanded => exact executed_of_drain hafter.2 hlanded

/-- A surface is written over by its embedder and released. Its worker gets through and dies, and
the surface goes out again all the same. Then its view is written over and waited for. -/
theorem reused_behind_executed_busy :
    ∃ (history : List (Turn Watched Texture Marker Texture))
      (rel acq t : Turn Watched Texture Marker Texture),
      Pool.make { size := ⟨1, 1⟩, capacity := 2 } = .ok smallPool ∧ twoWorkers.Sound ∧
      Course (Watched.backend 0 1) Meanwhile (smallPool, Watched.start twoWorkers []) history ∧
      HandedOutAgain history ⟨1⟩ rel acq ∧
      rel.before.2.accepted 0 = [.write 0 [1, 2, 3, 4]] ∧
      [.write 0 [1, 2, 3, 4]] <+: acq.after.2.executed 0 ∧
      t ∈ history ∧ t.op = .awaitConsumer ⟨1⟩ ∧ t.answer = .ok none ∧
      t.before.2.accepted 1 = [.write 0 [5, 6, 7, 8]] ∧
      [.write 0 [5, 6, 7, 8]] <+: t.after.2.executed 1 := by
  have hmake : Pool.make { size := ⟨1, 1⟩, capacity := 2 } = .ok smallPool := rfl
  have hsound : twoWorkers.Sound := (World.sound_blank.startWorker "P" 0).startWorker "C" 0
  obtain ⟨history, rel, acq, t, hcourse, hagain, haccepted, ht, hop, hok, hviewed⟩ :
      ∃ (history : List (Turn Watched Texture Marker Texture))
        (rel acq t : Turn Watched Texture Marker Texture),
        Course (Watched.backend 0 1) Meanwhile (smallPool, Watched.start twoWorkers []) history ∧
        HandedOutAgain history ⟨1⟩ rel acq ∧
        rel.before.2.accepted 0 = [.write 0 [1, 2, 3, 4]] ∧
        t ∈ history ∧ t.op = .awaitConsumer ⟨1⟩ ∧ t.answer = .ok none ∧
        t.before.2.accepted 1 = [.write 0 [5, 6, 7, 8]] :=
    ⟨_, _, _, _,
      .next ⟨[], rfl⟩ .acquire <|
      .next ⟨[.write 0 ⟨0, ⟨1, 1⟩, 0⟩ [1, 2, 3, 4]], rfl⟩ (.release ⟨1⟩) <|
      .next ⟨[.happen (.execute 0), .happen (.execute 0), .happen (.kill 0)], rfl⟩ .acquire <|
      .next ⟨[.write 1 ⟨0, ⟨1, 1⟩, 0⟩ [5, 6, 7, 8]], rfl⟩ (.awaitConsumer ⟨1⟩) .done,
      ⟨⟨[_], [], [_], rfl, by simp⟩, rfl, rfl, rfl⟩, rfl,
      List.mem_of_getElem? (i := 3) rfl, rfl, rfl, rfl⟩
  obtain ⟨hreuse, hwait⟩ := reused_behind_executed hmake hsound hcourse
  exact ⟨history, rel, acq, t, hmake, hsound, hcourse, hagain, haccepted,
    haccepted ▸ hreuse _ _ _ hagain, ht, hop, hok, hviewed, hviewed ▸ hwait t ht _ hop hok⟩

end SurfaceRelay.Soft
