import SurfaceRelay.Proofs.Pool.Economy
import SurfaceRelay.Proofs.Pool.Outstanding
import SurfaceRelay.Proofs.Display

/-! How much presenting a frame asks of the domains.

Presenting a frame is a release, an acquire, a conversion and a wait for the consumer, one behind
the other, so its lines are those of the four (`Presented`). What was on display before had its
marker recorded by then, if not by this very release then by an earlier one that somebody else
asked for: a surface that went on display is owed to the pool until it is taken back (`Owed`), and
what takes a surface back records its marker (`TakenBack`). -/
namespace SurfaceRelay
variable {W F T K V : Type}

namespace Pool
variable {b : Backend W T K V} {r r₁ : Recorded W (Entry F T K V)}

/-! ### Taking back -/

/-- A surface is taken back by recording its marker. -/
theorem shows_of_returned {x : Pool T K V × Recorded W (Entry F T K V)} {op : Op} {h : Handle}
    (hreturned : (turn b.recorded x op).returned? = some h) :
    ∃ s a, x.1.ring.current? = some s ∧ s.handle = h ∧
      (turn b.recorded x op).Shows Recorded.trace [.producer (.record s.marker a)] := by
  cases op with
  | release k =>
    obtain ⟨rfl, hanswer⟩ := returned_release_iff.1 hreturned
    have hr : Releasing b.recorded k x.1 x.2 (release b.recorded k x) := releasing ..
    rw [turn_release]
    generalize release b.recorded k x = res at hr hanswer
    cases hr with
    | closed | stale => cases hanswer
    | recorded hp hc hh hs hrec =>
      exact ⟨_, _, hc, hh, [], [], recording_ok hrec⟩
    | @unrecorded s e k' r' hp hc hh hs hrec =>
      refine ⟨s, .error e, hc, hh, [], [.notice (.recordFailed s.handle e)], ?_⟩
      show r'.trace ++ _ = _
      rw [recording_error hrec, List.append_assoc]
      rfl
  | _ => cases hreturned

/-- In one of these turns the surface was taken back and its marker recorded, all of it by now. -/
def TakenBack (h : Handle) (past : List (Turn (Recorded W (Entry F T K V)) T K V))
    (r : Recorded W (Entry F T K V)) : Prop :=
  ∃ t ∈ past, t.returned? = some h ∧ t.after.2.trace <+: r.trace ∧
    ∃ s a, t.before.1.ring.current? = some s ∧ s.handle = h ∧
      t.Shows Recorded.trace [.producer (.record s.marker a)]

variable {h : Handle} {past : List (Turn (Recorded W (Entry F T K V)) T K V)}

theorem TakenBack.later (ht : TakenBack h past r) (hr : r.trace <+: r₁.trace) :
    TakenBack h past r₁ := by
  obtain ⟨t, hmem, hreturned, htrace, hshows⟩ := ht
  exact ⟨t, hmem, hreturned, htrace.trans hr, hshows⟩

theorem TakenBack.mono {past' : List (Turn (Recorded W (Entry F T K V)) T K V)}
    (ht : TakenBack h past r) (hsub : past ⊆ past') : TakenBack h past' r := by
  obtain ⟨t, hmem, ht⟩ := ht
  exact ⟨t, hsub hmem, ht⟩

theorem takenBack_turn {x : Pool T K V × Recorded W (Entry F T K V)} {op : Op}
    (hreturned : (turn b.recorded x op).returned? = some h) :
    TakenBack h (past ++ [turn b.recorded x op]) (turn b.recorded x op).after.2 :=
  ⟨_, List.mem_append_right _ (List.mem_singleton_self _), hreturned, List.prefix_rfl,
    shows_of_returned hreturned⟩

/-- The surface was out, and is still, or was taken back, or went down with the pool. -/
def OutOrBack (h : Handle) (past : List (Turn (Recorded W (Entry F T K V)) T K V))
    (x : Pool T K V × Recorded W (Entry F T K V)) : Prop :=
  x.1.Inv ∧ (TakenBack h past x.2 ∨ x.1.closed = true ∨ x.1.out? = some h)

/-- Nothing but the surface that is out is taken back. -/
theorem out_of_returned {x : Pool T K V × W} {b : Backend W T K V} {op : Op}
    (hreturned : (turn b x op).returned? = some h) : x.1.closed = false ∧ x.1.out? = some h := by
  cases op with
  | release k =>
    obtain ⟨rfl, hanswer⟩ := returned_release_iff.1 hreturned
    rw [(releasing b k x.1 x.2).answer] at hanswer
    split at hanswer
    · cases hanswer
    · rename_i hopen
      split at hanswer
      · exact ⟨eq_false_of_ne_true hopen, ‹_›⟩
      · cases hanswer
  | _ => cases hreturned

end Pool

namespace Presenter
open Pool
variable {h : Handle}

/-! ### What was on display -/

theorem inv_kept (b : Backend W T K V) (convert : Converter W F V) :
    Kept b convert fun x => x.1.Inv where
  acquire := Attempt.keeps_of_leaves fun x hinv => (acquiring b x.1 x.2).inv hinv
  release h := Attempt.keeps_of_leaves fun x hinv => (releasing b h x.1 x.2).inv hinv
  awaitConsumer h := Attempt.keeps_of_leaves fun x hinv =>
    (awaiting b h x.1 x.2).pool.symm ▸ hinv
  close x hinv := hinv.close b x.2
  convert _ _ _ _ _ := Attempt.keeps_of_leaves fun _ hinv => hinv
  note _ _ _ hinv := hinv

theorem convert_grows (convert : Converter W F V) (frame : F) (view : V)
    (r : Recorded W (Entry F T K V)) :
    r.trace <+: (Attempt.leaves (Converter.recorded convert frame view r)).trace := by
  simp only [Converter.recorded, Recorded.call]
  cases convert frame view r.world <;> exact List.prefix_append ..

/-- What was taken back stays so. -/
theorem takenBack_tracks (b : Backend W T K V) (convert : Converter W F V) (h : Handle) :
    Tracks (F := F) (T := T) (K := K) b.recorded (Converter.recorded convert)
      fun past _ x => TakenBack h past x.2 where
  turn {_ _ x} op ht := (ht.later (Pool.trace_turn x op)).mono (List.subset_append_left ..)
  convert _ _ _ _ := Attempt.keeps_of_leaves fun _ ht => ht.later (convert_grows ..)
  dropped _ ht := ht.later (List.prefix_append ..)
  ignored _ _ ht := ht.later (List.prefix_append ..)

/-- A surface that is out stays out until it is taken back, or the pool is torn down. -/
theorem out_tracks (b : Backend W T K V) (convert : Converter W F V) (h : Handle) :
    Tracks (F := F) (T := T) (K := K) b.recorded (Converter.recorded convert)
      fun past _ => OutOrBack h past where
  turn {past n x} op hx := by
    obtain ⟨hinv, ht | ho⟩ := hx
    · exact ⟨inv_turn hinv op, .inl ((takenBack_tracks b convert h).turn (n := n) op ht)⟩
    · refine ⟨inv_turn hinv op, ?_⟩
      cases hreturned : (Pool.turn b.recorded x op).returned? with
      | none => exact .inr ((turn_while_out hinv ho op).2 hreturned)
      | some k =>
        obtain ⟨hopen, hk⟩ := out_of_returned hreturned
        obtain rfl : h = k := by
          rcases ho with hclosed | ho
          · rw [hopen] at hclosed
            cases hclosed
          · exact Option.some.inj (ho.symm.trans hk)
        exact .inl (takenBack_turn hreturned)
  convert _ _ _ _ := Attempt.keeps_of_leaves fun _ hx =>
    ⟨hx.1, hx.2.imp_left fun ht => ht.later (convert_grows ..)⟩
  dropped _ hx := ⟨hx.1, hx.2.imp_left fun ht => ht.later (List.prefix_append ..)⟩
  ignored _ _ hx := ⟨hx.1, hx.2.imp_left fun ht => ht.later (List.prefix_append ..)⟩

section
variable {b : Backend W T K V} {convert : Converter W F V}
  {x : Presenter T K V × Recorded W (Entry F T K V)}

/-- What is out and on display is taken back when it goes off display. -/
theorem retract_takesBack (ho : x.1.pool.out? = some h) (hopen : x.1.pool.closed = false)
    (hshown : x.1.shown = some h) :
    TakenBack h (retractRequests b.recorded x) (retract b.recorded x).2 := by
  have hanswer : Attempt.answers (Pool.release b.recorded h (x.1.pool, x.2)) = .ok () := by
    rw [(releasing b.recorded h x.1.pool x.2).answer, hopen, if_neg Bool.false_ne_true, if_pos ho]
  have hreturned : (Pool.turn b.recorded (x.1.pool, x.2) (.release h)).returned? = some h :=
    returned_release_iff.2 ⟨rfl, hanswer⟩
  have htaken : TakenBack h ([] ++ _) _ := takenBack_turn hreturned
  rw [List.nil_append, turn_release, Attempt.eq_ok_of_answers hanswer] at htaken
  rw [retractRequests, retract, hshown]
  dsimp only
  rw [turn_release, Attempt.eq_ok_of_answers hanswer]
  exact htaken

/-- The surface was put on display, and is still, or was taken back, or went down with the pool. -/
def Owed (h : Handle) (past : List (Pool.Turn (Recorded W (Entry F T K V)) T K V))
    (x : Presenter T K V × Recorded W (Entry F T K V)) : Prop :=
  x.1.pool.Inv ∧ (TakenBack h past x.2 ∨ x.1.pool.closed = true ∨
    x.1.pool.out? = some h ∧ x.1.shown = some h)

theorem shown_onPool {α : Type} (act : Attempt (Pool T K V × W) α) (x : Presenter T K V × W) :
    (Attempt.leaves (onPool act x)).1.shown = x.1.shown := by
  simp only [onPool]
  cases act (x.1.pool, x.2) <;> rfl

/-- The move works on the pool, or only looks. -/
def Move.besideDisplay : Move F → Bool
  | present _ | retract | close => false
  | acquire | release _ | cycle | awaitConsumer _ | closePool => true
  | phase _ | images _ | shown | settings => true

/-- Such a move leaves what is on display alone. -/
theorem shown_after {W : Type} {b : Backend W T K V} {convert : Converter W F V} {m : Move F}
    {x : Presenter T K V × W} (hm : m.besideDisplay = true) :
    (after b convert m x).1.shown = x.1.shown := by
  cases m with
  | present | retract | close => cases hm
  | acquire | release | cycle | awaitConsumer =>
    rw [after, make, Attempt.outcome_map]
    exact shown_onPool _ x
  | closePool | phase | images | shown | settings => rfl

namespace Owed
variable {past : List (Pool.Turn (Recorded W (Entry F T K V)) T K V)}

/-- When something else is to be displayed, the surface has been taken back. -/
theorem takenBack (hx : Owed h past x) (hopen : (retract b.recorded x).1.pool.closed = false) :
    TakenBack h (past ++ retractRequests b.recorded x) (retract b.recorded x).2 := by
  have hnow : x.1.pool.closed = false := eq_false_of_ne_true fun hclosed => by
    have hafter : (retract b.recorded x).1.pool.closed = true :=
      (closed_kept b.recorded fun (_ : F) _ => pure ()).make .retract x hclosed
    rw [hopen] at hafter
    cases hafter
  obtain ⟨-, ht | hclosed | ⟨ho, hshown⟩⟩ := hx
  · exact (takenBack_tracks b (fun _ _ => pure ()) h).retract ht
  · rw [hnow] at hclosed
    cases hclosed
  · exact (retract_takesBack ho hnow hshown).mono (List.subset_append_right ..)

/-- A move that leaves the display alone. -/
theorem aside (hx : Owed h past x) {m : Move F} (hm : m.besideDisplay = true) :
    Owed h (past ++ requests b.recorded (Converter.recorded convert) x m)
      (Presenter.after b.recorded (Converter.recorded convert) m x) := by
  have hsame : (Presenter.after b.recorded (Converter.recorded convert) m x).1.shown =
      x.1.shown := shown_after hm
  have hout : OutOrBack h past (x.1.pool, x.2) :=
    ⟨hx.1, hx.2.imp_right fun ho => ho.imp_right And.left⟩
  obtain ⟨hkept, hout⟩ := (out_tracks b convert h).after m hout
  refine ⟨hkept, ?_⟩
  obtain ⟨-, ht | hclosed | ⟨-, hshown⟩⟩ := hx
  · exact .inl ((takenBack_tracks b convert h).after m ht)
  · exact .inr (.inl ((closed_kept _ _).make m x hclosed))
  · exact hout.imp_right fun hout => hout.imp_right fun ho => ⟨ho, hsame.trans hshown⟩

/-- The debt is carried on by every move. -/
theorem after (hx : Owed h past x) (m : Move F) :
    Owed h (past ++ requests b.recorded (Converter.recorded convert) x m)
      (Presenter.after b.recorded (Converter.recorded convert) m x) := by
  have hkept := (inv_kept b.recorded (Converter.recorded convert)).make m x hx.1
  -- what goes off display has been taken back, unless there is no pool any more
  have hretracted : TakenBack h (past ++ retractRequests b.recorded x) (retract b.recorded x).2 ∨
      (retract b.recorded x).1.pool.closed = true := by
    cases hopen : (retract b.recorded x).1.pool.closed with
    | true => exact .inr rfl
    | false => exact .inl (hx.takenBack hopen)
  cases m with
  | present frame =>
    refine ⟨hkept, ?_⟩
    rw [Presenter.after, make, Attempt.outcome_map, requests, ← List.append_assoc]
    exact hretracted.imp ((takenBack_tracks b convert h).present_retracted frame)
      fun hclosed => .inl ((closed_kept b.recorded (Converter.recorded convert)).tracks
        |>.present_retracted frame (show OnTrack _ [] _ from hclosed))
  | retract => exact ⟨hkept, hretracted.imp_right .inl⟩
  | close => exact ⟨hkept, .inr (.inl (closed_after_ending (.inr rfl) x))⟩
  | _ => exact hx.aside rfl

variable (b convert) in
theorem run (hx : Owed h past x) (moves : List (Move F)) :
    Owed h (past ++ asked b.recorded (Converter.recorded convert) x moves)
      (Presenter.run b.recorded (Converter.recorded convert) moves x) := by
  induction moves generalizing past x with
  | nil =>
    rw [asked, List.append_nil]
    exact hx
  | cons m moves ih =>
    rw [asked, ← List.append_assoc]
    exact ih (hx.after m)

end Owed

/-- What was put on display is out, and owed. -/
theorem owed_displayed (hinv : x.1.pool.Inv) {frame : F}
    (hanswer : (turn b.recorded (Converter.recorded convert) x (.present frame)).answer =
      .ok (.surface h)) :
    Owed h [] (turn b.recorded (Converter.recorded convert) x (.present frame)).after := by
  have hinv' : (retract b.recorded x).1.pool.Inv :=
    (inv_kept b.recorded (Converter.recorded convert)).make .retract x hinv
  let q := ((retract b.recorded x).1.pool, (retract b.recorded x).2)
  obtain ⟨hfilled, hout⟩ :=
    (filling b.recorded (Converter.recorded convert) frame (q := q) hinv').inStep hinv'
  rw [turn_present] at hanswer ⊢
  simp only [present] at hanswer ⊢
  rcases hfill : fill b.recorded (Converter.recorded convert) frame q with ⟨k, y⟩ | ⟨e, y⟩
  · rw [hfill] at hanswer hfilled hout
    cases hanswer
    obtain ⟨s, hc, hh, hw⟩ := hout h y rfl
    exact ⟨hfilled, .inr (.inr ⟨out_iff.2 ⟨s, hc, hw, hh⟩, rfl⟩)⟩
  · rw [hfill] at hanswer
    cases hanswer

end

/-! ### One frame -/

/-- The lines of a frame that reaches a surface: its conversion, and the wait behind it. -/
def landing (frame : F) (s : Surface T K V) (region : Extent) : List (Entry F T K V) :=
  [.consumer (.convert frame s.view (.ok ())),
    .consumer (.image (.stage s.view s.viewStaging region (.ok ()))),
    .consumer (.image (.blockOn s.viewStaging (.ok ())))]

variable {b : Backend W T K V} {convert : Converter W F V} {frame : F}

theorem retract_errands (x : Presenter T K V × Recorded W (Entry F T K V)) :
    Extends [.record, .report, .remark] x.2.trace (retract b.recorded x).2 := by
  rw [retract]
  cases x.1.shown with
  | none => exact .refl x.2
  | some h =>
    obtain ⟨lines, hlines, herrands⟩ := (releasing b.recorded h x.1.pool x.2).errands
    have hreleased : Extends [.record, .report, .remark] x.2.trace
        (Attempt.leaves (Pool.release b.recorded h (x.1.pool, x.2))).2 :=
      ⟨lines, hlines, errands_mono (by decide) herrands⟩
    dsimp only
    rcases hrelease : Pool.release b.recorded h (x.1.pool, x.2) with ⟨_, y⟩ | ⟨e, y⟩ <;>
      rw [hrelease] at hreleased
    · exact hreleased
    · refine hreleased.snoc (e := .notice (.retractIgnored h e)) ?_
      simp [Entry.errand, Notice.fromPool]

/-- A wait for the consumer asks the producer for nothing. -/
theorem awaitConsumer_lines {q : Pool T K V × Recorded W (Entry F T K V)} {k : Handle} :
    ∃ lines, (Attempt.leaves (Pool.awaitConsumer b.recorded k q)).2.trace = q.2.trace ++ lines ∧
      lines.countP Entry.mapsTexture = 0 := by
  have ha : Awaiting b.recorded k q.1 q.2 (Pool.awaitConsumer b.recorded k q) := awaiting ..
  generalize Pool.awaitConsumer b.recorded k q = res at ha
  cases ha with
  | closed | stale => exact ⟨[], (List.append_nil _).symm, rfl⟩
  | landed hp hf hw => exact ⟨_, drain_landed hw, rfl⟩
  | @failed s e r hp hf hw =>
    obtain ⟨lines, hlines, hwaited⟩ := drain_failed hw
    refine ⟨lines ++ [.notice (.consumerWaitFailed s.handle e)], ?_, ?_⟩
    · show r.trace ++ _ = _
      rw [hlines, List.append_assoc]
    · cases hwaited <;> rfl

/-- What filling a surface asks for: what an acquire may, and behind it nothing of the producer. A
frame that is shown was converted and has landed. -/
structure Fits (q : Pool T K V × Recorded W (Entry F T K V)) (frame : F)
    (res : EStateM.Result Fault (Pool T K V × Recorded W (Entry F T K V)) Handle)
    (acquired more : List (Entry F T K V)) : Prop where
  lines : (Attempt.leaves res).2.trace = q.2.trace ++ (acquired ++ more)
  sparing : Sparing q.1 acquired
  quiet : more.countP Entry.mapsTexture = 0
  landed : ∀ k y, res = .ok k y → ∃ s, y.1.ring.current? = some s ∧ s.handle = k ∧
    more = landing frame s y.1.stagingSize

theorem Filling.fits {q : Pool T K V × Recorded W (Entry F T K V)} (hinv : q.1.Inv)
    {res : EStateM.Result Fault (Pool T K V × _) Handle}
    (hf : Filling b.recorded (Converter.recorded convert) frame q res) :
    ∃ acquired more, Fits q frame res acquired more := by
  have ha : Acquiring b.recorded q.1 q.2 (Pool.acquire b.recorded q) := acquiring ..
  obtain ⟨acquired, hacquired, hsparing⟩ := ha.sparing hinv
  have hinv' := ha.inv hinv
  cases hf with
  | refused ha =>
    rw [ha] at hacquired
    exact ⟨acquired, [], by rw [List.append_nil]; exact hacquired, hsparing, rfl, nofun⟩
  | @unconverted s p₁ r₁ e r₂ ha hc hs hv =>
    rw [ha] at hacquired
    refine ⟨acquired, [.consumer (.convert frame s.view (.error e))], ?_, hsparing, rfl, nofun⟩
    rw [← List.append_assoc]
    exact (call_error hv).trans (congrArg (· ++ _) hacquired)
  | @lost s p₁ r₁ r₂ e r₃ ha hc hs hv hw =>
    rw [ha] at hacquired
    obtain ⟨lines, hlines, hquiet⟩ :=
      awaitConsumer_lines (b := b) (q := (p₁, r₂)) (k := s.handle)
    rw [hw] at hlines
    refine ⟨acquired, .consumer (.convert frame s.view (.ok ())) :: lines, ?_, hsparing, hquiet,
      nofun⟩
    calc r₃.trace
      _ = r₁.trace ++ [.consumer (.convert frame s.view (.ok ()))] ++ lines :=
        hlines.trans (congrArg (· ++ _) (call_ok hv))
      _ = q.2.trace ++ (acquired ++ .consumer (.convert frame s.view (.ok ())) :: lines) := by
        rw [show r₁.trace = _ from hacquired]
        simp only [List.append_assoc, List.singleton_append]
  | @filled s p₁ r₁ r₂ r₃ ha hc hs hv hw =>
    rw [ha] at hacquired hinv'
    have hlanded : r₃.trace = r₂.trace ++ (landing frame s p₁.stagingSize).tail := by
      have hawaiting : Awaiting b.recorded s.handle p₁ r₂ (.ok () (p₁, r₃)) := hw ▸ awaiting ..
      have hfind : p₁.find? s.handle = some s :=
        hinv'.find?_eq_some.2 ⟨Ring.current?_mem hc, rfl⟩
      cases hawaiting with
      | landed hp hf hw =>
        cases hfind.symm.trans hf
        exact drain_landed hw
    refine ⟨acquired, landing frame s p₁.stagingSize, ?_, hsparing, rfl, ?_⟩
    · calc r₃.trace
        _ = r₁.trace ++ [.consumer (.convert frame s.view (.ok ()))] ++ _ :=
          hlanded.trans (congrArg (· ++ _) (call_ok hv))
        _ = q.2.trace ++ (acquired ++ landing frame s p₁.stagingSize) := by
          rw [show r₁.trace = _ from hacquired]
          simp only [List.append_assoc]
          rfl
    · rintro _ _ ⟨⟩
      exact ⟨s, hc, rfl, rfl⟩

/-- What presenting a frame asks for: a release may be recorded, an acquire asks for what it may,
and the rest is for the consumer. -/
structure Presented (b : Backend (Recorded W (Entry F T K V)) T K V) (frame : F)
    (t : Turn (Recorded W (Entry F T K V)) F T K V)
    (released acquired more : List (Entry F T K V)) : Prop where
  lines : t.after.2.trace = t.before.2.trace ++ (released ++ (acquired ++ more))
  behind : (retract b t.before).2.trace = t.before.2.trace ++ released
  errands : ∀ e ∈ released, e.errand ∈ [.record, .report, .remark]
  sparing : Sparing (retract b t.before).1.pool acquired
  /-- The producer is asked for one map at most. -/
  mapsTexture : (released ++ (acquired ++ more)).countP Entry.mapsTexture ≤ 1
  /-- A frame that goes on display was converted, and then copied and mapped once. -/
  landed : ∀ k, t.answer = .ok (.surface k) →
    (released ++ (acquired ++ more)).countP Entry.mappedView = 1 ∧
      ∃ s, t.after.1.pool.ring.current? = some s ∧ s.handle = k ∧
        more = landing frame s t.after.1.pool.stagingSize

theorem presented {x : Presenter T K V × Recorded W (Entry F T K V)} (hinv : x.1.pool.Inv)
    (frame : F) : ∃ released acquired more, Presented b.recorded frame
      (turn b.recorded (Converter.recorded convert) x (.present frame)) released acquired more := by
  obtain ⟨released, hreleased, herrands⟩ := retract_errands (b := b) x
  let q := ((retract b.recorded x).1.pool, (retract b.recorded x).2)
  have hinv' : q.1.Inv :=
    (inv_kept b.recorded (Converter.recorded convert)).make .retract x hinv
  obtain ⟨acquired, more, hfits⟩ :=
    (filling b.recorded (Converter.recorded convert) frame hinv').fits hinv'
  have hmaps : (released ++ (acquired ++ more)).countP Entry.mapsTexture ≤ 1 := by
    rw [List.countP_append, List.countP_append, hfits.quiet,
      countP_eq_zero herrands (fun _ => Entry.errand_of_mapsTexture) (by decide), Nat.zero_add]
    exact hfits.sparing.countP_mapsTexture
  have hlines : q.2.trace ++ (acquired ++ more) =
      x.2.trace ++ (released ++ (acquired ++ more)) := by
    rw [show q.2.trace = _ from hreleased, List.append_assoc]
  rw [turn_present]
  simp only [present]
  rcases hfill : fill b.recorded (Converter.recorded convert) frame q with ⟨k, y⟩ | ⟨e, y⟩
  · rw [hfill] at hfits
    refine ⟨released, acquired, more, hfits.lines.trans hlines, hreleased, herrands, hfits.sparing,
      hmaps, ?_⟩
    rintro _ ⟨⟩
    obtain ⟨s, hc, hh, rfl⟩ := hfits.landed k y rfl
    refine ⟨?_, s, hc, hh, rfl⟩
    rw [List.countP_append, List.countP_append, hfits.sparing.countP_mappedView,
      countP_eq_zero herrands (fun _ => Entry.errand_of_mappedView) (by decide)]
    rfl
  · rw [hfill] at hfits
    refine ⟨released, acquired,
      more ++ [.notice (.frameDropped ((retract b.recorded x).1.dropped + 1) e)], ?_, hreleased,
      herrands, hfits.sparing, ?_, fun _ h => (by cases h)⟩
    · show y.2.trace ++ _ = _
      rw [show y.2.trace = _ from hfits.lines, hlines]
      simp only [List.append_assoc]
    · rw [← List.append_assoc, ← List.append_assoc, List.countP_append, List.append_assoc]
      exact hmaps

/-- Nothing is filled once the pool was torn down. -/
theorem fill_closed {W : Type} {b : Backend W T K V} {convert : Converter W F V}
    {q : Pool T K V × W} (hclosed : q.1.closed = true) :
    fill b convert frame q = .error .closed q := by
  rw [fill, show Pool.acquire b q = .error .closed q from if_pos hclosed]

/-- A frame goes on display on a pool that stands. -/
theorem open_of_displayed {x : Presenter T K V × Recorded W (Entry F T K V)} {a : Answer T V}
    (hanswer : (turn b.recorded (Converter.recorded convert) x (.present frame)).answer = .ok a) :
    (retract b.recorded x).1.pool.closed = false := by
  refine eq_false_of_ne_true fun hclosed => ?_
  have hfill : fill b.recorded (Converter.recorded convert) frame
      ((retract b.recorded x).1.pool, (retract b.recorded x).2) = .error .closed _ :=
    fill_closed hclosed
  rw [turn_present] at hanswer
  simp only [present, hfill] at hanswer
  cases hanswer

/-- **The work of an operation is bounded.** Whatever the domains and the converter answer, after
any moves of a presenter and its pool: an acquire polls one marker at most, that of a released
surface at the cursor, and then builds below capacity, or waits once for the producer at
capacity, or does nothing more. Presenting a frame asks the producer for one map at most. When it
succeeds the consumer completed one map, which was asked for behind the conversion; and whatever
was on display before had been taken back by then, and its marker recorded. -/
theorem work_is_bounded {c : Config} {p : Pool T K V} (hp : Pool.make c = .ok p)
    (b : Backend W T K V) (convert : Converter W F V) (w : W) (moves : List (Move F)) :
    let start : Presenter T K V × Recorded W (Entry F T K V) := (ofPool p, .ofWorld w)
    let x := run b.recorded (Converter.recorded convert) moves start
    let displays x frame := turn b.recorded (Converter.recorded convert) x (.present frame)
    (∃ lines, (Pool.turn b.recorded (x.1.pool, x.2) .acquire).after.2.trace = x.2.trace ++ lines ∧
      Sparing x.1.pool lines) ∧
    (∀ frame, ∃ released acquired more,
      Presented b.recorded frame (displays x frame) released acquired more) ∧
    ∀ before earlier since k, moves = before ++ .present earlier :: since →
      let t := displays (run b.recorded (Converter.recorded convert) before start) earlier
      t.answer = .ok (.surface k) → ∀ frame a, (displays x frame).answer = .ok a →
        TakenBack k (asked b.recorded (Converter.recorded convert) t.after since ++
          retractRequests b.recorded x) (retract b.recorded x).2 := by
  intro start x displays
  have hinv (moves : List (Move F)) :
      (run b.recorded (Converter.recorded convert) moves start).1.pool.Inv :=
    (inv_kept _ _).run moves (x := start) (inv_make hp)
  refine ⟨?_, presented (hinv moves), ?_⟩
  · rw [turn_acquire]
    exact (acquiring b.recorded x.1.pool x.2).sparing (hinv moves)
  · intro before earlier since k hmoves t hearlier frame a hanswer
    have howed := (owed_displayed (hinv before) hearlier).run b convert since
    have hx : x = run b.recorded (Converter.recorded convert) since t.after := by
      show run _ _ moves start = _
      rw [hmoves, run_append]
      rfl
    rw [List.nil_append, ← hx] at howed
    exact howed.takenBack (open_of_displayed hanswer)

/-- Markers that never retire, and one surface: the second frame waits for the producer, copying
once and mapping once, behind the marker of the first frame. -/
theorem work_is_bounded_stalling :
    ∃ p : Pool Unit Unit Unit, Pool.make ⟨⟨4, 4⟩, 1⟩ = .ok p ∧
      let b : Backend (Recorded Unit (Entry Nat Unit Unit Unit)) Unit Unit Unit :=
        (steady false).recorded
      let convert : Converter (Recorded Unit (Entry Nat Unit Unit Unit)) Nat Unit :=
        Converter.recorded fun _ _ => pure ()
      let start : Presenter Unit Unit Unit × Recorded Unit (Entry Nat Unit Unit Unit) :=
        (ofPool p, .ofWorld ())
      let x := run b convert [.present 1] start
      let t := turn b convert x (.present 2)
      (turn b convert start (.present 1)).answer = .ok (.surface ⟨1⟩) ∧
      t.answer = .ok (.surface ⟨1⟩) ∧
      TakenBack ⟨1⟩ (retractRequests b x) (retract b x).2 ∧
      ∃ released acquired more, Presented b 2 t released acquired more := by
  obtain ⟨p, hp⟩ : ∃ p : Pool Unit Unit Unit, Pool.make ⟨⟨4, 4⟩, 1⟩ = .ok p := ⟨_, rfl⟩
  obtain ⟨-, hpresented, htaken⟩ :=
    work_is_bounded hp (steady false) (fun (_ : Nat) _ => pure ()) () [.present 1]
  have hfirst : (turn (steady false).recorded (Converter.recorded fun _ _ => pure ())
      ((ofPool p, .ofWorld ()) : Presenter Unit Unit Unit × _) (.present 1)).answer =
        .ok (.surface ⟨1⟩) := by
    cases hp
    rfl
  refine ⟨p, hp, hfirst, ?_, htaken [] 1 [] ⟨1⟩ rfl hfirst 2 (.surface ⟨1⟩) ?_, hpresented 2⟩
  all_goals
    cases hp
    rfl

end Presenter
end SurfaceRelay
