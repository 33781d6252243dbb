import SurfaceRelay.Proofs.Lines
import SurfaceRelay.Proofs.Resources.Pool

/-! The order in which resources are destroyed.

A view shows the storage of the texture it was opened from, so it has to be closed before that
texture is destroyed. Two operations of a pool destroy anything: tearing it down takes the surfaces
of the ring apart, one after the other, and an acquire that fails while it builds a surface takes
back what it made. Both go through the parts of a surface in one order (`Part.order`), the second
one through the end of it, and neither stops or changes its course at a call that fails
(`Disposed`).

What becomes of a trace is told by three things: the lines that came to it, what they made, and
what they destroyed (`Account`). A call that makes, a call that destroys and any other call each
change this account in their own way; building and dismantling a surface are chains of these. -/
namespace SurfaceRelay
variable {W F T K V α : Type}

/-- The order in which the parts of a surface are destroyed: its view before its texture, and the
texture last. They are made in the opposite order. -/
def Part.order : List Part :=
  [.consumerStaging, .consumerTexture, .marker, .producerStaging, .producerTexture]

/-- What is destroyed of one surface, in this order. -/
structure Clearance where
  handle : Handle
  resources : List Resource

/-- The resources one by one, each with the handle of its surface. -/
def Clearance.items (c : Clearance) : List (Handle × Resource) := c.resources.map (c.handle, ·)

/-! ### Lines that destroy -/

namespace ImageCall

/-- The answer to a call that destroys. -/
def disposed : ImageCall T → Option (Except Fault Unit)
  | freeTexture _ answer | freeStaging _ answer => some answer
  | _ => none

end ImageCall

namespace Entry

/-- The answer to a call that destroys. -/
def disposed : Line F T K V → Option (Except Fault Unit)
  | producer (.image call) => call.disposed
  | producer (.freeMarker _ answer) => some answer
  | consumer (.image call) => call.disposed
  | _ => none

/-- The line is a call that destroys, or a notice that such a call failed. -/
def isDisposal : Line F T K V → Bool
  | notice (.disposalFailed ..) => true
  | e => e.freed.isSome

theorem isDisposal_of_freed {e : Line F T K V} {r : Resource} (h : e.freed = some r) :
    e.isDisposal = true := by
  cases e with
  | notice n => cases h
  | producer c => exact (congrArg Option.isSome h).trans rfl
  | consumer c => exact (congrArg Option.isSome h).trans rfl

end Entry

/-- The lines that destroy, and the notices of those that failed. -/
def disposals (lines : List (Line F T K V)) : List (Line F T K V) :=
  lines.filter Entry.isDisposal

/-- The lines pass these resources, one after the other, to the calls that destroy them. Whatever a
call answers, the next resource is the next one on the list. Behind a call that failed, and nowhere
else, stands one notice with the resource, the handle of its surface and what the call answered. -/
inductive Disposed : List (Handle × Resource) → List (Line F T K V) → Prop
  | done : Disposed [] []
  | destroyed {h r items e lines} (hfreed : e.freed = some r) (hok : e.disposed = some (.ok ()))
      (hrest : Disposed items lines) : Disposed ((h, r) :: items) (e :: lines)
  | failed {h r items e cause lines} (hfreed : e.freed = some r)
      (herror : e.disposed = some (.error cause)) (hrest : Disposed items lines) :
      Disposed ((h, r) :: items) (e :: .notice (.disposalFailed r.part h cause) :: lines)

theorem Disposed.append {items items' : List (Handle × Resource)} {lines lines' : List _}
    (h : Disposed (F := F) (T := T) (K := K) (V := V) items lines) (h' : Disposed items' lines') :
    Disposed (items ++ items') (lines ++ lines') := by
  induction h with
  | done => exact h'
  | destroyed hfreed hok _ ih => exact .destroyed hfreed hok ih
  | failed hfreed herror _ ih => exact .failed hfreed herror ih

/-! ### What calls do to a trace -/

/-- The trace goes on from `past` with lines that make `new` and destroy `items`. -/
def Account (past : List (Line F T K V)) (new : List Resource) (items : List (Handle × Resource))
    (r : Recorded (Numbered W) (Line F T K V)) : Prop :=
  ∃ lines, r.trace = past ++ lines ∧ made lines = new ∧ Disposed items (disposals lines)

namespace Account
variable {past : List (Line F T K V)} {new : List Resource} {items : List (Handle × Resource)}
  {r : Recorded (Numbered W) (Line F T K V)}

theorem start (r : Recorded (Numbered W) (Line F T K V)) : Account r.trace [] [] r :=
  ⟨[], (List.append_nil _).symm, rfl, .done⟩

/-- More lines. -/
theorem extend (h : Account past new items r) {more : List (Line F T K V)}
    {items' : List (Handle × Resource)} (hitems : Disposed items' (disposals more))
    (w : Numbered W) :
    Account past (new ++ made more) (items ++ items') ⟨w, r.trace ++ more⟩ := by
  obtain ⟨lines, hlines, hnew, hitems₀⟩ := h
  refine ⟨lines ++ more, by rw [hlines, List.append_assoc], ?_, ?_⟩
  · rw [made, List.filterMap_append, ← hnew]
    rfl
  · rw [disposals, List.filter_append]
    exact hitems₀.append hitems

/-- A line that destroys nothing. -/
theorem spare (h : Account past new items r) {e : Line F T K V} (hdisposal : e.isDisposal = false)
    (w : Numbered W) : Account past (new ++ e.made.toList) items ⟨w, r.trace ++ [e]⟩ := by
  have hnone : Disposed [] (disposals [e]) := by
    rw [disposals, List.filter_singleton, hdisposal]
    exact .done
  have hmade : made [e] = e.made.toList := by
    rw [made, List.filterMap_cons, List.filterMap_nil]
    cases e.made <;> rfl
  simpa [hmade] using h.extend hnone w

/-- A line that neither makes nor destroys anything. -/
theorem pass (h : Account past new items r) {e : Line F T K V} (hmade : e.made = none)
    (hdisposal : e.isDisposal = false) (w : Numbered W) :
    Account past new items ⟨w, r.trace ++ [e]⟩ := by
  simpa [hmade] using h.spare hdisposal w

theorem call {act : Attempt (Numbered W) α} {entry : Except Fault α → Line F T K V}
    (hmade : ∀ a, (entry a).made = none) (hdisposal : ∀ a, (entry a).isDisposal = false) :
    (Recorded.call act entry).Keeps (Account past new items) :=
  Recorded.call_keeps fun a _ w hr => hr.pass (hmade a) (hdisposal a) w

/-- What a call makes. -/
theorem make {act : Attempt W α} {entry : Except Fault (Tagged α) → Line F T K V} {part : Part}
    (hmade : ∀ a, (entry (.ok a)).made = some ⟨part, a.number⟩)
    (hnone : ∀ e, (entry (.error e)).made = none)
    (hdisposal : ∀ a, (entry a).isDisposal = false) :
    (Recorded.call (Numbered.make act) entry).Meets (Account past new items)
      (fun a => Account past (new ++ [⟨part, a.number⟩]) items) (Account past new items) := by
  refine Attempt.meets_of_result fun r hr => ?_
  simp only [Recorded.call]
  rcases Numbered.make act r.world with ⟨a, w⟩ | ⟨e, w⟩
  · simpa [hmade] using hr.spare (hdisposal (.ok a)) w
  · exact hr.pass (hnone e) (hdisposal _) w

theorem note {b : Backend W T K V} (h : Account past new items r) {n : Notice}
    (hn : Entry.isDisposal (.notice n : Line F T K V) = false) :
    Account past new items (b.audited.note n r) :=
  h.pass rfl hn _

variable {b : Backend W T K V}

theorem drain {I : Type} {d : Domain W I} {entry : ImageCall (Tagged I) → Line F T K V}
    (texture staging : Part) (hmade : ∀ c, (entry c).made = c.made staging)
    (hdisposal : ∀ c, (entry c).isDisposal = (c.freed texture staging).isSome) (t s : Tagged I)
    (region : Extent) :
    ((Recorded.domain (Numbered.domain d) entry).drain t s region).Keeps
      (Account past new items) :=
  Attempt.keeps_bind (call (fun _ => hmade _) fun _ => hdisposal _) fun _ =>
    call (fun _ => hmade _) fun _ => hdisposal _

end Account

/-! ### Surfaces -/

namespace Surface
variable {past : List (Line F T K V)} {new : List Resource} {items : List (Handle × Resource)}
  {r : Recorded (Numbered W) (Line F T K V)} {b : Backend W T K V}

/-- A recorded call that destroys a resource. -/
inductive Frees (part : Part) (number : Nat) :
    Attempt (Recorded (Numbered W) (Line F T K V)) Unit → Prop
  | call {destroy : Attempt (Numbered W) Unit} {entry : Except Fault Unit → Line F T K V}
      (hfreed : ∀ a, (entry a).freed = some ⟨part, number⟩)
      (hanswer : ∀ a, (entry a).disposed = some a) : Frees part number (Recorded.call destroy entry)

theorem frees_texture (t : Tagged T) :
    Frees .producerTexture t.number ((b.audited (F := F)).producer.freeTexture t) :=
  .call (fun _ => rfl) fun _ => rfl

theorem frees_staging (t : Tagged T) :
    Frees .producerStaging t.number ((b.audited (F := F)).producer.freeStaging t) :=
  .call (fun _ => rfl) fun _ => rfl

theorem frees_marker (k : Tagged K) :
    Frees .marker k.number ((b.audited (F := F)).producer.freeMarker k) :=
  .call (fun _ => rfl) fun _ => rfl

theorem frees_view (v : Tagged V) :
    Frees .consumerTexture v.number ((b.audited (F := F)).consumer.freeTexture v) :=
  .call (fun _ => rfl) fun _ => rfl

theorem frees_viewStaging (v : Tagged V) :
    Frees .consumerStaging v.number ((b.audited (F := F)).consumer.freeStaging v) :=
  .call (fun _ => rfl) fun _ => rfl

variable {h : Handle} {part : Part} {number : Nat}
  {destroy : Attempt (Recorded (Numbered W) (Line F T K V)) Unit}

/-- One resource is destroyed; if the call fails, that is reported. -/
theorem dispose_account (hfrees : Frees part number destroy) (hr : Account past new items r) :
    Account past new (items ++ [(h, ⟨part, number⟩)]) (dispose b.audited h part destroy r) := by
  obtain ⟨hfreed, hanswer⟩ := hfrees
  rename_i destroy entry
  have hmade (a : Except Fault Unit) : (entry a).made = none := (Entry.of_freed (hfreed a)).2
  have hdisposal (a : Except Fault Unit) : (entry a).isDisposal = true :=
    Entry.isDisposal_of_freed (hfreed a)
  simp only [dispose, Recorded.call]
  rcases destroy r.world with ⟨a, w⟩ | ⟨e, w⟩
  · have hone : Disposed [(h, ⟨part, number⟩)] (disposals [entry (.ok a)]) := by
      rw [disposals, List.filter_singleton, hdisposal]
      exact .destroyed (hfreed _) (hanswer _) .done
    simpa [made, hmade] using hr.extend hone w
  · have hone : Disposed [(h, ⟨part, number⟩)]
        (disposals [entry (.error e), .notice (.disposalFailed part h e)]) := by
      rw [disposals, List.filter_cons_of_pos (hdisposal _)]
      exact .failed (hfreed _) (hanswer _) .done
    have hnone : made [entry (.error e), .notice (.disposalFailed part h e)] = [] := by
      rw [made, List.filterMap_cons_none (hmade _)]
      rfl
    have hextend := hr.extend hone (b.numbered.note (.disposalFailed part h e) w)
    rw [hnone, List.append_nil] at hextend
    simpa [Backend.recorded] using hextend

/-- What a surface has, with its handle. -/
def clearance (s : Surface (Tagged T) (Tagged K) (Tagged V)) : Clearance := ⟨s.handle, s.resources⟩

/-- A surface is taken apart in order. -/
theorem dismantle_account (s : Surface (Tagged T) (Tagged K) (Tagged V))
    (hr : Account past new items r) :
    Account past new (items ++ s.clearance.items) (s.dismantle b.audited r) := by
  have hviewStaging := dispose_account (b := b) (h := s.handle)
    (frees_viewStaging (b := b) s.viewStaging) hr
  have hview := dispose_account (b := b) (h := s.handle) (frees_view (b := b) s.view) hviewStaging
  have hmarker := dispose_account (b := b) (h := s.handle) (frees_marker (b := b) s.marker) hview
  have hstaging := dispose_account (b := b) (h := s.handle) (frees_staging (b := b) s.staging)
    hmarker
  have htexture := dispose_account (b := b) (h := s.handle) (frees_texture (b := b) s.texture)
    hstaging
  simp only [List.append_assoc] at htexture
  exact htexture

theorem dismantleAll_account (surfaces : List (Surface (Tagged T) (Tagged K) (Tagged V)))
    (hr : Account past new items r) :
    Account past new (items ++ surfaces.flatMap fun s => s.clearance.items)
      (surfaces.foldl (fun r s => s.dismantle b.audited r) r) := by
  induction surfaces generalizing items r with
  | nil => simpa using hr
  | cons s rest ih => simpa [List.append_assoc] using ih (dismantle_account s hr)

/-- A build failed that still has `kept`. What it made besides is destroyed again, the last
first. -/
def Undone (past : List (Line F T K V)) (h : Handle) (kept : List Resource)
    (r : Recorded (Numbered W) (Line F T K V)) : Prop :=
  ∃ more, (kept ++ more).reverse.map (·.part) <:+ Part.order ∧
    Account past (kept ++ more) (Clearance.items ⟨h, more.reverse⟩) r

variable {kept : List Resource}

/-- At first nothing is taken back. -/
theorem undone_start (hkept : kept.reverse.map (·.part) <:+ Part.order)
    (hr : Account past kept [] r) : Undone past h kept r :=
  ⟨[], by simpa using hkept, by simpa [Clearance.items] using hr⟩

/-- The last of what is left is taken back next. -/
theorem undone_dispose (hfrees : Frees part number destroy)
    (hr : Undone past h (kept ++ [⟨part, number⟩]) r) :
    Undone past h kept (dispose b.audited h part destroy r) := by
  obtain ⟨more, horder, haccount⟩ := hr
  refine ⟨⟨part, number⟩ :: more, by simpa using horder, ?_⟩
  simpa [Clearance.items] using dispose_account (b := b) (h := h) hfrees haccount

/-- What is made next is made by a call that leaves the account alone when it fails. -/
theorem make_undone {act : Attempt W α} {entry : Except Fault (Tagged α) → Line F T K V}
    {part : Part} (hkept : kept.reverse.map (·.part) <:+ Part.order)
    (hmade : ∀ a, (entry (.ok a)).made = some ⟨part, a.number⟩)
    (hnone : ∀ e, (entry (.error e)).made = none)
    (hdisposal : ∀ a, (entry a).isDisposal = false) :
    (Recorded.call (Numbered.make act) entry).Meets (Account past kept [])
      (fun a => Account past (kept ++ [⟨part, a.number⟩]) []) (Undone past h kept) :=
  (Account.make hmade hnone hdisposal).imp (fun _ hr => hr) (fun _ _ hr => hr)
    fun _ hr => undone_start hkept hr

theorem call_undone {act : Attempt (Numbered W) α} {entry : Except Fault α → Line F T K V}
    (hkept : kept.reverse.map (·.part) <:+ Part.order) (hmade : ∀ a, (entry a).made = none)
    (hdisposal : ∀ a, (entry a).isDisposal = false) :
    (Recorded.call act entry).Meets (Account past kept []) (fun _ => Account past kept [])
      (Undone past h kept) where
  ok hact hr := (Account.call hmade hdisposal).ok hact hr
  error hact hr := undone_start hkept ((Account.call hmade hdisposal).error hact hr)

/-- A build that succeeds destroys nothing, and a build that fails destroys what it made, in
order. -/
theorem build_account (size stagingSize : Extent) :
    (build (b.audited (F := F)) h size stagingSize).Meets (Account past [] [])
      (fun s => Account past s.resources.reverse []) (Undone past h []) := by
  refine holding_meets
    (make_undone ⟨Part.order, rfl⟩ (fun _ => rfl) (fun _ => rfl) fun a => by cases a <;> rfl)
    (fun t r hr => undone_dispose (frees_texture t) hr) fun texture => ?_
  refine Attempt.meets_bind (call_undone ⟨Part.order.take 4, rfl⟩ (fun _ => rfl) fun _ => rfl)
    fun shared => ?_
  refine holding_meets
    (make_undone ⟨Part.order.take 4, rfl⟩ (fun _ => rfl) (fun _ => rfl)
      fun a => by cases a <;> rfl)
    (fun t r hr => undone_dispose (frees_staging t) hr) fun staging => ?_
  refine holding_meets
    (make_undone ⟨Part.order.take 3, rfl⟩ (fun _ => rfl) (fun _ => rfl)
      fun a => by cases a <;> rfl)
    (fun k r hr => undone_dispose (frees_marker k) hr) fun marker => ?_
  refine holding_meets
    (make_undone ⟨Part.order.take 2, rfl⟩ (fun _ => rfl) (fun _ => rfl)
      fun a => by cases a <;> rfl)
    (fun v r hr => undone_dispose (frees_view v) hr) fun view => ?_
  exact Attempt.meets_bind
    (make_undone ⟨Part.order.take 1, rfl⟩ (fun _ => rfl) (fun _ => rfl)
      fun a => by cases a <;> rfl)
    fun viewStaging => Attempt.meets_pure fun r hr => hr

end Surface

/-! ### Operations of a pool -/

namespace Pool
variable {p p₁ : Pool (Tagged T) (Tagged K) (Tagged V)} {past : List (Line F T K V)}
  {r r₁ : Recorded (Numbered W) (Line F T K V)} {b : Backend W T K V} {new : List Resource}
  {items : List (Handle × Resource)}

/-- What an operation destroys, when these are the lines that it adds: tearing the pool down
destroys what the surfaces of the ring have, an acquire that fails what it made. -/
def Turn.clearances (t : Turn (Recorded (Numbered W) (Line F T K V)) (Tagged T) (Tagged K)
    (Tagged V)) (lines : List (Line F T K V)) : List Clearance :=
  match t.op, t.answer with
  | .close, _ => t.before.1.ring.slots.map Surface.clearance
  | .acquire, .error _ => [⟨⟨t.before.1.nextHandle⟩, (made lines).reverse⟩]
  | _, _ => []

theorem poll_account (k : Tagged K) :
    (b.audited.producer.poll k).Keeps (Account (F := F) past new items) :=
  Account.call (fun _ => rfl) fun _ => rfl

theorem record_account :
    b.audited.producer.record.Keeps fun x => Account (F := F) past new items x.2 :=
  Recorded.recording_keeps fun _ _ _ w hr => hr.pass rfl rfl w

theorem drainTexture_account (t s : Tagged T) (region : Extent) :
    (b.audited.producer.drain t s region).Keeps (Account (F := F) past new items) :=
  Account.drain .producerTexture .producerStaging (fun _ => rfl) (fun c => by cases c <;> rfl) t s
    region

theorem drainView_account (v s : Tagged V) (region : Extent) :
    (b.audited.consumer.drain v s region).Keeps (Account (F := F) past new items) :=
  Account.drain .consumerTexture .consumerStaging (fun _ => rfl) (fun c => by cases c <;> rfl) v s
    region

theorem Declined.account {o : Option (Surface (Tagged T) (Tagged K) (Tagged V))}
    (hd : Declined b.audited p r o p₁ r₁) (h : Account past new items r) :
    Account past new items r₁ := by
  cases hd with
  | vacant => exact h
  | unarmed => exact h
  | pending hc hr ha hpoll => exact (poll_account _).ok hpoll h
  | unknown hc hr ha hpoll => exact ((poll_account _).error hpoll h).note rfl

/-- An acquire that succeeds destroys nothing. One that fails has made and destroyed again some of
what the next surface was to have. -/
inductive Taken (past : List (Line F T K V)) (p : Pool (Tagged T) (Tagged K) (Tagged V)) :
    EStateM.Result Fault (Pool (Tagged T) (Tagged K) (Tagged V) ×
      Recorded (Numbered W) (Line F T K V)) Handle → Prop
  | ok {h new y} (hnew : new.reverse.map (·.part) <:+ Part.order) (hy : Account past new [] y.2) :
      Taken past p (.ok h y)
  | error {e y new} (hnew : new.reverse.map (·.part) <:+ Part.order)
      (hy : Account past new (Clearance.items ⟨⟨p.nextHandle⟩, new.reverse⟩) y.2) :
      Taken past p (.error e y)

theorem Acquiring.taken {x : EStateM.Result Fault (Pool (Tagged T) (Tagged K) (Tagged V) × _)
    Handle} (ha : Acquiring b.audited p r x) (h : Account past [] [] r) : Taken past p x := by
  have hnone : ([] : List Resource).reverse.map (·.part) <:+ Part.order := List.nil_suffix
  cases ha with
  | closed => exact .error hnone h
  | again => exact .ok hnone h
  | ready hp hc hr ha hpoll => exact .ok hnone ((poll_account _).ok hpoll h)
  | grew hp hd hroom hb =>
    have hbuilt := (Surface.build_account _ _).ok hb (hd.account h)
    exact .ok (by simp [Surface.resources, Part.order]) (hbuilt.note rfl)
  | growthFailed hp hd hroom hb =>
    obtain ⟨new, hnew, haccount⟩ := (Surface.build_account _ _).error hb (hd.account h)
    rw [hd.ring.2.2.2.2.1] at haccount ⊢
    exact .error hnew (haccount.note rfl)
  | stalled hp hd hfull hw =>
    exact .ok hnone (((drainTexture_account _ _ _).ok hw (hd.account h)).note rfl)
  | stallFailed hp hd hfull hw =>
    exact .error hnone (((drainTexture_account _ _ _).error hw (hd.account h)).note rfl)

theorem Releasing.account {k : Handle}
    {x : EStateM.Result Fault (Pool (Tagged T) (Tagged K) (Tagged V) × _) Unit}
    (hr : Releasing b.audited k p r x) (h : Account past new items r) :
    Account past new items (Attempt.leaves x).2 := by
  cases hr with
  | closed => exact h
  | stale => exact h
  | recorded hp hc hh hs hrec => exact record_account.ok hrec h
  | unrecorded hp hc hh hs hrec => exact (record_account.error hrec h).note rfl

theorem Awaiting.account {k : Handle}
    {x : EStateM.Result Fault (Pool (Tagged T) (Tagged K) (Tagged V) × _) Unit}
    (hr : Awaiting b.audited k p r x) (h : Account past new items r) :
    Account past new items (Attempt.leaves x).2 := by
  cases hr with
  | closed => exact h
  | stale => exact h
  | landed hp hf hw => exact (drainView_account _ _ _).ok hw h
  | failed hp hf hw => exact ((drainView_account _ _ _).error hw h).note rfl

theorem close_account {x : Pool (Tagged T) (Tagged K) (Tagged V) × _} (hinv : x.1.Inv)
    (h : Account past [] [] x.2) :
    Account past [] (x.1.ring.slots.flatMap fun s => s.clearance.items)
      (close b.audited x).2 := by
  simp only [close]
  split
  · rename_i hclosed
    rw [hinv.emptied hclosed]
    exact h
  · exact (Surface.dismantleAll_account x.1.ring.slots h).note rfl

/-- The consumer has no room for a staging resource, and the producer never lets go of one. -/
def balky : Backend Unit Unit Unit Unit :=
  { steady true with
    producer := { (steady true).producer with
      freeStaging := fun _ => throw (.allocation "busy") }
    consumer := { (steady true).consumer with
      newStaging := fun _ => throw (.allocation "no memory") } }

/-- An operation with these lines destroyed what it had to, in order. -/
structure Turn.Clears (t : Turn (Recorded (Numbered W) (Line F T K V)) (Tagged T) (Tagged K)
    (Tagged V)) (lines : List (Line F T K V)) : Prop where
  added : t.after.2.trace = t.before.2.trace ++ lines
  /-- One surface after the other. -/
  apart : ((t.clearances lines).map (·.handle)).Nodup
  /-- Of each surface everything from some part on. -/
  inOrder : ∀ c ∈ t.clearances lines, c.resources.map (·.part) <:+ Part.order
  /-- This and nothing else, whatever calls fail. -/
  disposed : Disposed ((t.clearances lines).flatMap Clearance.items) (disposals lines)

variable {x : Pool (Tagged T) (Tagged K) (Tagged V) × Recorded (Numbered W) (Line F T K V)}

/-- An operation that destroys nothing. -/
theorem Turn.clears_nothing {t : Turn (Recorded (Numbered W) (Line F T K V)) (Tagged T) (Tagged K)
    (Tagged V)} (hnone : ∀ lines, t.clearances lines = [])
    (h : Account t.before.2.trace new [] t.after.2) : ∃ lines, t.Clears lines := by
  obtain ⟨lines, hlines, -, hdisposed⟩ := h
  refine ⟨lines, hlines, ?_, ?_, ?_⟩ <;> rw [hnone lines]
  · exact List.nodup_nil
  · exact fun c hc => absurd hc List.not_mem_nil
  · exact hdisposed

theorem clears_acquire (b : Backend W T K V) (x : Pool (Tagged T) (Tagged K) (Tagged V) ×
    Recorded (Numbered W) (Line F T K V)) : ∃ lines, (turn b.audited x .acquire).Clears lines := by
  have htaken : Taken x.2.trace x.1 (acquire b.audited x) :=
    (acquiring b.audited x.1 x.2).taken (.start x.2)
  rw [turn_acquire]
  generalize acquire b.audited x = result at htaken
  cases htaken with
  | ok hnew hy => exact Turn.clears_nothing (fun _ => rfl) hy
  | error hnew hy =>
    obtain ⟨lines, hlines, rfl, hdisposed⟩ := hy
    refine ⟨lines, hlines, List.nodup_singleton _, fun c hc => ?_, ?_⟩
    · rw [List.mem_singleton.1 hc]
      exact hnew
    · simpa [Turn.clearances, Attempt.answers, Except.map] using hdisposed

theorem clears_close (b : Backend W T K V) (hinv : x.1.Inv) :
    ∃ lines, (turn b.audited x .close).Clears lines := by
  obtain ⟨lines, hlines, -, hdisposed⟩ := close_account (b := b) hinv (.start x.2)
  refine ⟨lines, hlines, ?_, ?_, ?_⟩
  · have hhandles : (x.1.ring.slots.map Surface.clearance).map (·.handle) = x.1.handles :=
      List.map_map
    exact hhandles ▸ hinv.handles_nodup
  · intro c hc
    obtain ⟨s, -, rfl⟩ := List.mem_map.1 hc
    exact List.suffix_refl _
  · simpa [Turn.clearances, turn_close, List.flatMap_map] using hdisposed

theorem clears_turn (b : Backend W T K V) (hinv : x.1.Inv) (op : Op) :
    ∃ lines, (turn b.audited x op).Clears lines := by
  cases op with
  | acquire => exact clears_acquire b x
  | release k =>
    have haccount := (releasing b.audited k x.1 x.2).account (.start x.2)
    rw [turn_release]
    exact Turn.clears_nothing (fun _ => rfl) haccount
  | awaitConsumer k =>
    have haccount := (awaiting b.audited k x.1 x.2).account (.start x.2)
    rw [turn_awaitConsumer]
    exact Turn.clears_nothing (fun _ => rfl) haccount
  | close => exact clears_close b hinv

/-- **A view is closed before the storage it shows, and that storage goes last.** Whatever the
domains answer to whatever is asked of a pool, one thing is destroyed after the other: when the pool
is torn down everything that the surfaces of the ring have, surface by surface, and when an acquire
fails everything that it made. Of each surface the parts go in one order, the texture after the
view and after everything else. A call that fails changes nothing of what is destroyed after it;
the failure is reported once, with the resource and the handle of its surface. -/
theorem views_closed_before_storage {c : Config} {p : Pool (Tagged T) (Tagged K) (Tagged V)}
    (hp : make c = .ok p) (b : Backend W T K V) (w : W) (ops : List Op) :
    ∀ t ∈ turns (b.audited (F := F)) (p, .ofWorld ⟨w, 0⟩) ops, ∃ lines, t.Clears lines := by
  intro t ht
  obtain ⟨hsame, hinv⟩ := (course_turns (b := b.audited (F := F)) _ ops).before
    (unmoved_of_pool (J := Inv)) (fun _ op hx => inv_turn hx op) (inv_make hp) ht
  rw [hsame]
  exact clears_turn b hinv t.op

/-- The last part of a surface cannot be made, and one of the four others cannot be destroyed: the
texture is destroyed all the same, after its view. -/
theorem views_closed_before_storage_balky :
    ∃ (p : Pool (Tagged Unit) (Tagged Unit) (Tagged Unit)) (lines : _),
      make ⟨⟨4, 4⟩, 2⟩ = .ok p ∧
      let b : Backend Unit Unit Unit Unit := balky
      let t := turn (b.audited (F := Unit)) (p, .ofWorld ⟨(), 0⟩) .acquire
      t.Clears lines ∧ t.clearances lines = [⟨⟨1⟩, [⟨.consumerTexture, 3⟩, ⟨.marker, 2⟩,
        ⟨.producerStaging, 1⟩, ⟨.producerTexture, 0⟩]⟩] ∧
      .notice (.disposalFailed .producerStaging ⟨1⟩ (.allocation "busy")) ∈ lines := by
  obtain ⟨p, hp⟩ : ∃ p : Pool (Tagged Unit) (Tagged Unit) (Tagged Unit),
      make ⟨⟨4, 4⟩, 2⟩ = .ok p := ⟨_, rfl⟩
  obtain ⟨lines, h⟩ := views_closed_before_storage (F := Unit) hp balky () [.acquire] _
    (List.mem_singleton_self _)
  refine ⟨p, lines, hp, h, ?_⟩
  obtain rfl : _ = lines := h.added
  cases hp
  exact ⟨rfl, List.mem_of_getElem? (i := 9) rfl⟩

end Pool
end SurfaceRelay
