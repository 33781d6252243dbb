import SurfaceRelay.Proofs.Pool.Failure
import SurfaceRelay.Proofs.Pool.Fixtures

/-! Two handles on one image.

A surface is known to both domains: the consumer's view shows what the producer's texture shows
because it was opened with the share handle that this texture was exported under. The calls that
build a surface stand together in the trace (`build_lines`), and a trace only grows, so this can be
said of every surface at any time (`Paired.opened`). That no two surfaces have a resource in common
is read off the books, where everything that is made has a number of its own. -/
namespace SurfaceRelay
variable {W F T K V : Type}

/-- The calls that build a surface with these images: the texture is made and exported, and what
it is exported under is opened as the view. -/
def Fixture.lines (f : Fixture T V) (size stagingSize : Extent) (shared : Nat) (marker : K) :
    List (Entry F T K V) :=
  [.producer (.newTexture size (.ok f.texture)),
    .producer (.share f.texture (.ok shared)),
    .producer (.image (.newStaging stagingSize (.ok f.staging))),
    .producer (.newMarker (.ok marker)),
    .consumer (.openShare shared size (.ok f.view)),
    .consumer (.image (.newStaging stagingSize (.ok f.viewStaging)))]

/-- What is outstanding has numbers of its own. -/
theorem Books.nodup {L : List Resource} {lines : List (Line F T K V)} {n : Nat}
    (h : Books L lines n) : (L.map (·.number)).Nodup := by
  have hmade : ((made lines).map (·.number)).Nodup := h.proper.numbered ▸ List.nodup_range
  have hout : ((outstanding lines).map (·.number)).Nodup :=
    hmade.sublist (List.filter_sublist.map _)
  exact (h.balance.map _).nodup_iff.1 hout

namespace Surface
variable {b : Backend W T K V}

/-- A build that succeeds made these calls and no others. -/
theorem build_lines {h : Handle} {size stagingSize : Extent} {s : Surface T K V}
    {r r' : Recorded W (Entry F T K V)}
    (hb : build b.recorded h size stagingSize r = .ok s r') :
    ∃ shared, r'.trace = r.trace ++ s.fixture.lines size stagingSize shared s.marker := by
  obtain ⟨-, -, -, shared, r₁, r₂, r₃, r₄, r₅, htexture, hshare, hstaging, hmarker, hview,
    hviewStaging⟩ := build_ok _ h hb
  refine ⟨shared, ?_⟩
  rw [Pool.call_ok hviewStaging, Pool.call_ok hview, Pool.call_ok hmarker, Pool.call_ok hstaging,
    Pool.call_ok hshare, Pool.call_ok htexture]
  simp only [List.append_assoc]
  rfl

end Surface

namespace Pool

/-! ### Views are opened by the handles of their textures -/

/-- Everything that the pool has was built by calls of the trace, for these extents. -/
def Opened (size : Extent) (x : Pool T K V × Recorded W (Entry F T K V)) : Prop :=
  x.1.size = size ∧ ∀ f ∈ x.1.fixtures, ∃ shared marker,
    f.lines size (size.clamp stagingEdge) shared marker <:+: x.2.trace

theorem opened_make {c : Config} {p : Pool T K V} (hp : make c = .ok p)
    (r : Recorded W (Entry F T K V)) : Opened c.size (p, r) := by
  obtain ⟨rfl, -⟩ := make_ok hp
  exact ⟨rfl, fun f hf => (by cases hf)⟩

section
variable {b : Backend W T K V}

theorem opened_turn {size : Extent} {x : Pool T K V × Recorded W (Entry F T K V)}
    (hinv : x.1.Inv) (h : Opened size x) (op : Op) : Opened size (turn b.recorded x op).after := by
  have hsize := size_turn (b := b.recorded) x op
  have htrace := trace_turn (b := b) x op
  have hrefitted := refitted_turn (b := b.recorded) hinv op
  generalize (turn b.recorded x op).after = y at hsize htrace hrefitted
  refine ⟨hsize.trans h.1, ?_⟩
  have hold {f : Fixture T V} (hf : f ∈ x.1.fixtures) : ∃ shared marker,
      f.lines size (size.clamp stagingEdge) shared marker <:+: y.2.trace := by
    obtain ⟨shared, marker, hlines⟩ := h.2 f hf
    exact ⟨shared, marker, hlines.trans htrace.isInfix⟩
  cases hrefitted with
  | kept hf => exact fun f hmem => hold (hf ▸ hmem)
  | @built o p₁ r₁ s r₂ p₂ n hd hb hf =>
    intro f hmem
    rcases List.mem_cons.1 (hf.mem_iff.1 hmem) with rfl | hmem
    · obtain ⟨shared, hlines⟩ := Surface.build_lines hb
      rw [stagingSize, h.1] at hlines
      refine ⟨shared, s.marker, r₁.trace, [.notice n], ?_⟩
      rw [← hlines]
      rfl
    · exact hold hmem
  | emptied hf =>
    intro f hmem
    rw [hf] at hmem
    cases hmem

end

/-! ### Nothing is shared between surfaces -/

/-- What holds of a pool and its trace at any time. -/
structure Paired (size : Extent) (x : Pool (Tagged T) (Tagged K) (Tagged V) ×
    Recorded (Numbered W) (Line F T K V)) : Prop where
  /-- The view of every surface was opened, at the extent of the pool, by the share handle of the
  texture that was made for the same surface. -/
  opened : ∀ s ∈ x.1.ring.slots, ∃ shared marker,
    s.fixture.lines size (size.clamp stagingEdge) shared marker <:+: x.2.trace
  /-- No two of all the resources of all the surfaces are the same. -/
  apart : (x.1.resources.map (·.number)).Nodup

/-- Whatever the domains answer, whatever happens in them between two requests: all views are
opened by the share handles of their own textures, all resources are different ones, and the
images that a handle stands for are the same from when it is handed out until the end. -/
theorem paired_course {c : Config} {p : Pool (Tagged T) (Tagged K) (Tagged V)}
    (hp : make c = .ok p) (b : Backend W T K V) (w : W)
    {history : List (Turn (Recorded (Numbered W) (Line F T K V)) (Tagged T) (Tagged K) (Tagged V))}
    (hcourse : Course b.audited Elsewhere (p, .ofWorld ⟨w, 0⟩) history) :
    (∀ t ∈ history, Paired c.size t.after) ∧ SameImages history := by
  refine ⟨fun t ht => ?_, hcourse.sameImages (inv_make hp)⟩
  have hunmoved : Unmoved Elsewhere
      fun x : Pool (Tagged T) (Tagged K) (Tagged V) × Recorded (Numbered W) (Line F T K V) =>
        Accounted x ∧ Opened c.size x := by
    rintro q r r' hmay ⟨haccounted, hopened⟩
    exact ⟨accounted_unmoved q r r' hmay haccounted, hopened.1, hmay.1.symm ▸ hopened.2⟩
  obtain ⟨haccounted, hopened⟩ := hcourse.after hunmoved
    (fun x op h => ⟨accounted_turn b h.1 op, opened_turn h.1.1 h.2 op⟩)
    ⟨accounted_make hp w, opened_make hp _⟩ ht
  exact ⟨fun s hs => hopened.2 _ (fixture_mem hs), haccounted.2.nodup⟩

end Pool
end SurfaceRelay
