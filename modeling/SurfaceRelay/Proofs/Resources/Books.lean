import Mathlib.Data.List.Nodup
import SurfaceRelay.Proofs.Translation
import SurfaceRelay.Side
import SurfaceRelay.Trace

/-! Books of what was made and destroyed.

Two calls of a domain may answer with the same value, so a value alone does not say which
resource is meant. A numbered backend does what a backend does and puts a number on everything
that a call makes, a new number each time (`Backend.numbered_translates`). The lines of its trace
then say which resource they make, which they destroy and which they name.

A trace is `Proper` when every line names only what was made before and not destroyed yet. At
the end of a proper trace that leaves nothing outstanding, every resource was destroyed once and
never named again (`Proper.destroyedOnce`). `Books` keeps a trace together with the list of what
is outstanding; a call changes them in one of three ways, and none of these can be had when the
call names something that is not on the list. -/
namespace SurfaceRelay
variable {W F T K V α : Type}

/-! ### Numbers -/

/-- A value that a call made, with the number it was given. -/
structure Tagged (α : Type) where
  value : α
  number : Nat

/-- A world together with the next number. -/
structure Numbered (W : Type) where
  world : W
  next : Nat

namespace Numbered

def lift (act : Attempt W α) : Attempt (Numbered W) α := fun n =>
  match act n.world with
  | .ok a world => .ok a { n with world }
  | .error e world => .error e { n with world }

/-- Puts the next number on what is made. -/
def make (act : Attempt W α) : Attempt (Numbered W) (Tagged α) := fun n =>
  match act n.world with
  | .ok a world => .ok ⟨a, n.next⟩ ⟨world, n.next + 1⟩
  | .error e world => .error e { n with world }

def domain (d : Domain W T) : Domain (Numbered W) (Tagged T) where
  newStaging size := make (d.newStaging size)
  stage texture staging region := lift (d.stage texture.value staging.value region)
  blockOn staging := lift (d.blockOn staging.value)
  freeTexture texture := lift (d.freeTexture texture.value)
  freeStaging staging := lift (d.freeStaging staging.value)

/-- Does to a numbered marker what `act` does to the marker, and leaves its number. -/
def liftOn (act : Attempt (K × W) Unit) : Attempt (Tagged K × Numbered W) Unit := fun (k, n) =>
  match act (k.value, n.world) with
  | .ok _ (value, world) => .ok () ({ k with value }, { n with world })
  | .error e (value, world) => .error e ({ k with value }, { n with world })

/-- Polling a marker leaves its number. -/
def producer (p : Producer W T K) : Producer (Numbered W) (Tagged T) (Tagged K) where
  toDomain := domain p.toDomain
  newTexture size := make (p.newTexture size)
  share texture := lift (p.share texture.value)
  newMarker := make p.newMarker
  record := liftOn p.record
  poll k := (Option.map fun value => { k with value }) <$> lift (p.poll k.value)
  freeMarker k := lift (p.freeMarker k.value)

def consumer (c : Consumer W V) : Consumer (Numbered W) (Tagged V) where
  toDomain := domain c.toDomain
  openShare shared size := make (c.openShare shared size)

/-- The attempt makes nothing. -/
def MakesNothing (act : Attempt (Numbered W) α) : Prop :=
  ∀ n, (Attempt.outcome act n).2.next = n.next

end Numbered

/-- The backend, with numbers on its resources. -/
def Backend.numbered (b : Backend W T K V) :
    Backend (Numbered W) (Tagged T) (Tagged K) (Tagged V) where
  producer := Numbered.producer b.producer
  consumer := Numbered.consumer b.consumer
  note n s := { s with world := b.note n s.world }

def Converter.numbered (convert : Converter W F V) : Converter (Numbered W) F (Tagged V) :=
  fun frame view => Numbered.lift (convert frame view.value)

/-! Without its numbers, a numbered backend is the backend. -/

namespace Numbered

/-- Forgets the numbers. -/
def plain : Translation (Numbered W) (Tagged T) (Tagged K) (Tagged V) W T K V :=
  ⟨world, Tagged.value, Tagged.value, Tagged.value⟩

theorem make_translates (act : Attempt W α) :
    Attempt.Translates world Tagged.value (make act) act := by
  intro n
  simp only [make]
  cases act n.world <;> rfl

theorem lift_translates (act : Attempt W α) : Attempt.Translates world id (lift act) act := by
  intro n
  simp only [lift]
  cases act n.world <;> rfl

theorem liftOn_translates (act : Attempt (K × W) Unit) :
    Attempt.Translates (Prod.map Tagged.value world) id (liftOn act) act := by
  intro x
  simp only [liftOn, Prod.map]
  rcases act (x.1.value, x.2.world) with _ | _ <;> rfl

theorem poll_translates {p : Producer W T K} (k : Tagged K) :
    Attempt.Translates world (Option.map Tagged.value) ((producer p).poll k) (p.poll k.value) := by
  intro n
  simp only [producer, lift, Functor.map, EStateM.map]
  rcases p.poll k.value n.world with ⟨_ | _, _⟩ | ⟨_, _⟩ <;> rfl

theorem domain_translates (d : Domain W T) : (domain d).Translates world Tagged.value d where
  newStaging _ := make_translates _
  stage _ _ _ := lift_translates _
  blockOn _ := lift_translates _
  freeTexture _ := lift_translates _
  freeStaging _ := lift_translates _

end Numbered

theorem Backend.numbered_translates (b : Backend W T K V) :
    b.numbered.Translates Numbered.plain b where
  producer := Numbered.domain_translates _
  consumer := Numbered.domain_translates _
  newTexture _ := Numbered.make_translates _
  share _ := Numbered.lift_translates _
  newMarker := Numbered.make_translates _
  record := Numbered.liftOn_translates _
  poll k := Numbered.poll_translates k
  freeMarker _ := Numbered.lift_translates _
  openShare _ _ := Numbered.make_translates _
  note _ _ := rfl

/-! ### What a line says of resources -/

/-- The domain whose resource it is. -/
def Part.side : Part → Side
  | producerTexture | producerStaging | marker => .producer
  | consumerTexture | consumerStaging => .consumer

structure Resource where
  part : Part
  number : Nat
deriving DecidableEq, Repr

/-- A line of a trace over numbered resources. -/
abbrev Line (F T K V : Type) := Entry F (Tagged T) (Tagged K) (Tagged V)

namespace ImageCall

/-- The resource that a call made. -/
def made (staging : Part) : ImageCall (Tagged T) → Option Resource
  | newStaging _ (.ok s) => some ⟨staging, s.number⟩
  | _ => none

/-- The resource that was passed to a call for destroying, whatever it answered. -/
def freed (texture staging : Part) : ImageCall (Tagged T) → Option Resource
  | freeTexture t _ => some ⟨texture, t.number⟩
  | freeStaging s _ => some ⟨staging, s.number⟩
  | _ => none

/-- The resources that were passed to a call. -/
def named (texture staging : Part) : ImageCall (Tagged T) → List Resource
  | newStaging .. => []
  | stage t s .. => [⟨texture, t.number⟩, ⟨staging, s.number⟩]
  | blockOn s _ | freeStaging s _ => [⟨staging, s.number⟩]
  | freeTexture t _ => [⟨texture, t.number⟩]

end ImageCall

namespace Entry

def made : Line F T K V → Option Resource
  | producer (.image call) => call.made .producerStaging
  | producer (.newTexture _ (.ok t)) => some ⟨.producerTexture, t.number⟩
  | producer (.newMarker (.ok k)) => some ⟨.marker, k.number⟩
  | consumer (.image call) => call.made .consumerStaging
  | consumer (.openShare _ _ (.ok v)) => some ⟨.consumerTexture, v.number⟩
  | _ => none

def freed : Line F T K V → Option Resource
  | producer (.image call) => call.freed .producerTexture .producerStaging
  | producer (.freeMarker k _) => some ⟨.marker, k.number⟩
  | consumer (.image call) => call.freed .consumerTexture .consumerStaging
  | _ => none

def named : Line F T K V → List Resource
  | producer (.image call) => call.named .producerTexture .producerStaging
  | producer (.share t _) => [⟨.producerTexture, t.number⟩]
  | producer (.record k _) | producer (.poll k _) | producer (.freeMarker k _) =>
    [⟨.marker, k.number⟩]
  | producer (.newTexture ..) | producer (.newMarker _) => []
  | consumer (.image call) => call.named .consumerTexture .consumerStaging
  | consumer (.convert _ v _) => [⟨.consumerTexture, v.number⟩]
  | consumer (.openShare ..) => []
  | notice _ => []

/-- A line that destroys a resource names it and nothing else, and makes none. -/
theorem of_freed {e : Line F T K V} {r : Resource}
    (h : e.freed = some r) : e.named = [r] ∧ e.made = none := by
  rcases e with (c | _ | _ | _ | _ | _ | _) | (c | _ | _) | _
  case producer.image => cases c <;> cases h <;> exact ⟨rfl, rfl⟩
  case consumer.image => cases c <;> cases h <;> exact ⟨rfl, rfl⟩
  all_goals cases h
  exact ⟨rfl, rfl⟩

end Entry

/-! ### What a trace says of resources -/

/-- All resources that were made, the oldest first. -/
def made (lines : List (Line F T K V)) : List Resource :=
  lines.filterMap Entry.made

/-- All resources that were passed to a destroying call. -/
def freed (lines : List (Line F T K V)) : List Resource :=
  lines.filterMap Entry.freed

/-- What was made and not yet passed to a destroying call. -/
def outstanding (lines : List (Line F T K V)) : List Resource :=
  (made lines).filter fun r => r ∉ freed lines

/-- Everything that was made was later passed to one destroying call of its own kind, in its own
domain, and was not named again. -/
def DestroyedOnce (lines : List (Line F T K V)) : Prop :=
  ∀ (i : Nat) (e : Line F T K V) (r : Resource), lines[i]? = some e → e.made = some r →
    ∃ (j : Nat) (f : Line F T K V), i < j ∧ lines[j]? = some f ∧ f.freed = some r ∧
      (∀ (k : Nat) (g : Line F T K V) (r' : Resource),
        lines[k]? = some g → g.freed = some r' → r'.number = r.number → k = j) ∧
      ∀ (k : Nat) (g : Line F T K V) (r' : Resource),
        j < k → lines[k]? = some g → r' ∈ g.named → r'.number ≠ r.number

variable {lines : List (Line F T K V)}
  {e : Line F T K V} {r : Resource} {L : List Resource} {n : Nat}

theorem mem_freed_take {i j : Nat} (he : lines[i]? = some e) (hr : e.freed = some r) (h : i < j) :
    r ∈ freed (lines.take j) :=
  List.mem_filterMap.2 ⟨e, List.mem_of_getElem? (by rw [List.getElem?_take_of_lt h, he]), hr⟩

theorem mem_outstanding : r ∈ outstanding lines ↔ r ∈ made lines ∧ r ∉ freed lines := by
  simp [outstanding]

/-- Every resource has its own number, and no line names what is not outstanding. -/
structure Proper (lines : List (Line F T K V)) : Prop where
  numbered : (made lines).map (·.number) = List.range (made lines).length
  live : ∀ (i : Nat) (e : Line F T K V), lines[i]? = some e →
    ∀ r ∈ e.named, r ∈ outstanding (lines.take i)

namespace Proper

theorem nil : Proper ([] : List (Line F T K V)) :=
  ⟨rfl, fun i e he => (by cases he)⟩

theorem nodup (h : Proper lines) : (made lines).Nodup :=
  List.Nodup.of_map (·.number) (h.numbered ▸ List.nodup_range)

/-- A resource is known by its number. -/
theorem unique (h : Proper lines) {r' : Resource} (hr : r ∈ made lines) (hr' : r' ∈ made lines)
    (he : r.number = r'.number) : r = r' :=
  List.inj_on_of_nodup_map (h.numbered ▸ List.nodup_range) hr hr' he

/-- The next number is new. -/
theorem lt_length (h : Proper lines) (hr : r ∈ made lines) : r.number < (made lines).length := by
  have hmem := List.mem_map_of_mem (f := (·.number)) hr
  rw [h.numbered] at hmem
  exact List.mem_range.1 hmem

theorem named_made (h : Proper lines) {i : Nat} (he : lines[i]? = some e) (hr : r ∈ e.named) :
    r ∈ made lines :=
  ((List.take_sublist i lines).filterMap _).subset (mem_outstanding.1 (h.live i e he r hr)).1

theorem freed_made (h : Proper lines) (hr : r ∈ freed lines) : r ∈ made lines := by
  obtain ⟨e, hmem, hfreed⟩ := List.mem_filterMap.1 hr
  obtain ⟨i, he⟩ := List.getElem?_of_mem hmem
  exact h.named_made he ((Entry.of_freed hfreed).1 ▸ List.mem_singleton_self r)

/-- Nothing is there before it is made. -/
theorem not_made_before (h : Proper lines) {i j : Nat} (he : lines[i]? = some e)
    (hr : e.made = some r) (hj : r ∈ made (lines.take j)) : i < j := by
  by_contra hle
  obtain ⟨hlt, hget⟩ := List.getElem?_eq_some_iff.1 he
  have hbefore : r ∈ made (lines.take i) :=
    ((List.take_sublist_take_left (Nat.le_of_not_lt hle)).filterMap _).subset hj
  have hnodup := h.nodup
  rw [← List.take_append_drop i lines, List.drop_eq_getElem_cons hlt, hget, made,
    List.filterMap_append, List.filterMap_cons_some hr, List.nodup_append] at hnodup
  exact hnodup.2.2 r hbefore r (List.mem_cons_self ..) rfl

/-- With nothing outstanding, everything was destroyed once and not named after that. -/
theorem destroyedOnce (h : Proper lines) (hdone : outstanding lines = []) :
    DestroyedOnce lines := by
  intro i e r he hr
  have hmade : r ∈ made lines := List.mem_filterMap.2 ⟨e, List.mem_of_getElem? he, hr⟩
  have hfreed : r ∈ freed lines := by
    by_contra hnot
    exact List.not_mem_nil (hdone ▸ mem_outstanding.2 ⟨hmade, hnot⟩)
  obtain ⟨f, hf, hfr⟩ := List.mem_filterMap.1 hfreed
  obtain ⟨j, hj⟩ := List.getElem?_of_mem hf
  obtain ⟨hmadej, hfreedj⟩ := mem_outstanding.1
    (h.live j f hj r ((Entry.of_freed hfr).1 ▸ List.mem_singleton_self r))
  -- a line that names the number names this resource, and the resource is not destroyed before
  have hnamed {k : Nat} {g : Line F T K V} {r' : Resource}
      (hg : lines[k]? = some g) (hr' : r' ∈ g.named) (hn : r'.number = r.number) :
      r' = r ∧ k ≤ j := by
    obtain rfl := h.unique (h.named_made hg hr') hmade hn
    refine ⟨rfl, Nat.le_of_not_lt fun hlt => ?_⟩
    exact (mem_outstanding.1 (h.live k g hg r' hr')).2 (mem_freed_take hj hfr hlt)
  refine ⟨j, f, h.not_made_before he hr hmadej, hj, hfr, fun k g r' hg hgr hn => ?_,
    fun k g r' hlt hg hr' hn => ?_⟩
  · obtain ⟨rfl, hle⟩ := hnamed hg ((Entry.of_freed hgr).1 ▸ List.mem_singleton_self r') hn
    exact Nat.le_antisymm hle (Nat.le_of_not_lt fun hlt => hfreedj (mem_freed_take hg hgr hlt))
  · exact Nat.lt_irrefl _ (Nat.lt_of_lt_of_le hlt (hnamed hg hr' hn).2)

/-- A further line may name what is outstanding. -/
theorem live_snoc (h : Proper lines) (he : ∀ r ∈ e.named, r ∈ outstanding lines) :
    ∀ (i : Nat) (e' : Line F T K V), (lines ++ [e])[i]? = some e' →
      ∀ r ∈ e'.named, r ∈ outstanding ((lines ++ [e]).take i) := by
  intro i e' he' r hr
  rcases Nat.lt_or_ge i lines.length with hlt | hge
  · rw [List.getElem?_append_left hlt] at he'
    rw [List.take_append_of_le_length (Nat.le_of_lt hlt)]
    exact h.live i e' he' r hr
  · rw [List.getElem?_append_right hge] at he'
    have hmem := List.mem_of_getElem? he'
    obtain ⟨hlt, -⟩ := List.getElem?_eq_some_iff.1 he'
    have hi : i = lines.length := by
      rw [List.length_singleton] at hlt
      omega
    rw [hi, List.take_left]
    rw [List.mem_singleton.1 hmem] at hr
    exact he r hr

end Proper

/-! ### Books -/

/-- A proper trace, with a list of what is outstanding and with the next number. -/
structure Books (L : List Resource) (lines : List (Line F T K V)) (n : Nat) : Prop where
  proper : Proper lines
  next : n = (made lines).length
  balance : (outstanding lines).Perm L

theorem made_snoc (he : e.made = none) : made (lines ++ [e]) = made lines := by
  simp [made, he]

theorem made_snoc_some (he : e.made = some r) : made (lines ++ [e]) = made lines ++ [r] := by
  simp [made, he]

theorem freed_snoc (he : e.freed = none) : freed (lines ++ [e]) = freed lines := by
  simp [freed, he]

theorem freed_snoc_some (he : e.freed = some r) : freed (lines ++ [e]) = freed lines ++ [r] := by
  simp [freed, he]

namespace Books

theorem nil : Books [] ([] : List (Line F T K V)) 0 := ⟨.nil, rfl, .refl _⟩

theorem perm (h : Books L lines n) {L' : List Resource} (hL : L.Perm L') : Books L' lines n :=
  ⟨h.proper, h.next, h.balance.trans hL⟩

theorem mem_iff (h : Books L lines n) : r ∈ outstanding lines ↔ r ∈ L := h.balance.mem_iff

theorem live (h : Books L lines n) (he : ∀ r ∈ e.named, r ∈ L) :
    ∀ r ∈ e.named, r ∈ outstanding lines := fun r hr => h.mem_iff.2 (he r hr)

/-- A line that makes nothing and destroys nothing may name what is on the list. -/
theorem use (h : Books L lines n) (hm : e.made = none) (hf : e.freed = none)
    (he : ∀ r ∈ e.named, r ∈ L) : Books L (lines ++ [e]) n := by
  have hout : outstanding (lines ++ [e]) = outstanding lines := by
    simp only [outstanding, made_snoc hm, freed_snoc hf]
  refine ⟨⟨?_, h.proper.live_snoc (h.live he)⟩, ?_, hout ▸ h.balance⟩
  · rw [made_snoc hm]
    exact h.proper.numbered
  · rw [made_snoc hm]
    exact h.next

/-- What is made goes on the list. -/
theorem make (h : Books L lines n) {part : Part} (hm : e.made = some ⟨part, n⟩)
    (hf : e.freed = none) (he : e.named = []) :
    Books (⟨part, n⟩ :: L) (lines ++ [e]) (n + 1) := by
  have hnew : (⟨part, n⟩ : Resource) ∉ freed lines := fun hmem =>
    Nat.lt_irrefl _ (h.next ▸ h.proper.lt_length (h.proper.freed_made hmem))
  have hout : outstanding (lines ++ [e]) = outstanding lines ++ [⟨part, n⟩] := by
    simp only [outstanding, made_snoc_some hm, freed_snoc hf, List.filter_append]
    rw [List.filter_cons_of_pos (by simpa using hnew), List.filter_nil]
  refine ⟨⟨?_, h.proper.live_snoc (by simp [he])⟩, ?_, ?_⟩
  · rw [made_snoc_some hm, List.map_append, h.proper.numbered, List.length_append,
      List.length_singleton, List.range_succ, List.map_singleton, ← h.next]
  · rw [made_snoc_some hm, List.length_append, List.length_singleton, ← h.next]
  · rw [hout]
    exact (List.perm_append_singleton _ _).trans (h.balance.cons _)

/-- What is destroyed comes off the list. -/
theorem free (h : Books (r :: L) lines n) (hf : e.freed = some r) : Books L (lines ++ [e]) n := by
  obtain ⟨hnamed, hm⟩ := Entry.of_freed hf
  have hout : outstanding (lines ++ [e]) = (outstanding lines).filter (· ≠ r) := by
    simp only [outstanding, made_snoc hm, freed_snoc_some hf, List.filter_filter]
    refine List.filter_congr fun r' _ => ?_
    simp [and_comm]
  have hnodup : (r :: L).Nodup := h.balance.nodup_iff.1 (h.proper.nodup.filter _)
  have hkept : (r :: L).filter (· ≠ r) = L := by
    rw [List.filter_cons_of_neg (by simp), List.filter_eq_self]
    intro r' hr'
    have hne : r' ≠ r := fun heq => (List.nodup_cons.1 hnodup).1 (heq ▸ hr')
    simpa using hne
  refine ⟨⟨?_, h.proper.live_snoc fun r' hr' => ?_⟩, ?_, ?_⟩
  · rw [made_snoc hm]
    exact h.proper.numbered
  · rw [hnamed, List.mem_singleton] at hr'
    exact h.mem_iff.2 (hr' ▸ List.mem_cons_self ..)
  · rw [made_snoc hm]
    exact h.next
  · rw [hout, ← hkept]
    exact h.balance.filter _

end Books

end SurfaceRelay
