import SurfaceRelay.Gl.Context
import SurfaceRelay.Proofs.Lifecycle

/-! Textures and framebuffers in the log of a share group.

A log says which context made an object and which one deleted it (`reading`), and what every
framebuffer shows (`scene`). Textures are named for the whole group, framebuffers for their
context. What is alive is kept in lots: a texture with all the framebuffers that were made to
show it (`Lot`). As long as no name is given out while it is alive, a `Ledger` of lots is carried
over every line that a GL domain causes: one that uses names of some lot, one that begins a lot or
adds a framebuffer to it, one that takes a framebuffer off, and one that deletes the texture of a
lot without framebuffers. -/
namespace SurfaceRelay.Gl
variable {κ : Type}

/-! ### What a log says -/

inductive Name (κ : Type)
  | texture (n : Nat)
  | framebuffer (k : κ) (n : Nat)
deriving DecidableEq

/-- The texture under a number. Zero stands for none. -/
def Name.texture? (n : Nat) : Option (Name κ) := if n = 0 then none else some (.texture n)

def Name.framebuffer? (k : κ) (n : Nat) : Option (Name κ) :=
  if n = 0 then none else some (.framebuffer k n)

structure Object (κ : Type) where
  /-- The context that made it. -/
  maker : κ
  name : Name κ
deriving DecidableEq

def Object.texture? (k : κ) (n : Nat) : Option (Object κ) := (Name.texture? n).map (Object.mk k)

def Object.framebuffer? (k : κ) (n : Nat) : Option (Object κ) :=
  (Name.framebuffer? k n).map (Object.mk k)

namespace Call

/-- The object that a call makes. -/
def made (k : κ) (answer : Nat) : Call → Option (Object κ)
  | genTextures => Object.texture? k answer
  | genFramebuffers => Object.framebuffer? k answer
  | _ => none

/-- The object that a call deletes: a context deletes what it made itself. -/
def freed (k : κ) : Call → Option (Object κ)
  | deleteTextures n => Object.texture? k n
  | deleteFramebuffers n => Object.framebuffer? k n
  | _ => none

/-- The name that a call mentions. -/
def named (k : κ) : Call → Option (Name κ)
  | bindTexture n | framebufferTexture n | deleteTextures n => Name.texture? n
  | bindFramebuffer _ n | deleteFramebuffers n => Name.framebuffer? k n
  | _ => none

/-- The call makes, deletes and attaches nothing. -/
def plain : Call → Bool
  | genTextures | genFramebuffers | deleteTextures _ | deleteFramebuffers _
  | framebufferTexture _ => false
  | _ => true

end Call

/-- The objects that a line speaks of. -/
def reading (κ : Type) : Reading (Entry κ) (Object κ) (Name κ) where
  name := Object.name
  made
    | .call k c answer => c.made k answer
    | _ => none
  freed
    | .call k c _ => c.freed k
    | _ => none
  named
    | .call k c _ => (c.named k).toList
    | _ => []
  freed_only {e o} h := by
    rcases e with _ | ⟨k, c, answer⟩ | _
    · rfl
    · cases c <;> first | rfl | cases h
    · rfl

theorem texture?_eq_some {k : κ} {n : Nat} {o : Object κ} :
    Object.texture? k n = some o ↔ n ≠ 0 ∧ o = ⟨k, .texture n⟩ := by
  by_cases hn : n = 0 <;> simp [Object.texture?, Name.texture?, hn, eq_comm]

theorem framebuffer?_eq_some {k : κ} {n : Nat} {o : Object κ} :
    Object.framebuffer? k n = some o ↔ n ≠ 0 ∧ o = ⟨k, .framebuffer k n⟩ := by
  by_cases hn : n = 0 <;> simp [Object.framebuffer?, Name.framebuffer?, hn, eq_comm]

/-! ### Lots -/

/-- A texture with the framebuffers that were made for it, in any context. -/
structure Lot (κ : Type) where
  maker : κ
  texture : Nat
  framebuffers : List (κ × Nat)

def Lot.objects (l : Lot κ) : List (Object κ) :=
  l.framebuffers.filterMap (fun x => Object.framebuffer? x.1 x.2) ++
    (Object.texture? l.maker l.texture).toList

/-- All objects of some lots. -/
def objects (L : Multiset (Lot κ)) : Multiset (Object κ) := L.bind fun l => l.objects

/-- The name is in use. -/
def InUse (L : Multiset (Lot κ)) (x : Name κ) : Prop := ∃ o ∈ objects L, o.name = x

/-- The call does nothing but use what is there. -/
structure Call.Uses (k : κ) (L : Multiset (Lot κ)) (c : Call) : Prop where
  plain : c.plain = true
  named : ∀ x ∈ c.named k, InUse L x

theorem Call.Uses.of_none {c : Call} {k : κ} {L : Multiset (Lot κ)} (hplain : c.plain = true)
    (hnone : c.named k = none) : c.Uses k L :=
  ⟨hplain, fun x hx => by rw [hnone] at hx; cases hx⟩

section
variable {L : Multiset (Lot κ)} {l : Lot κ} {k m : κ} {t n : Nat} {fbs : List (κ × Nat)}

@[simp] theorem objects_cons (l : Lot κ) (L : Multiset (Lot κ)) :
    objects (l ::ₘ L) = l.objects + objects L := Multiset.cons_bind ..

/-- A framebuffer more in a lot is an object more. -/
theorem objects_cons_framebuffer : objects (⟨m, t, (k, n) :: fbs⟩ ::ₘ L) =
    (Object.framebuffer? k n).toList + objects (⟨m, t, fbs⟩ ::ₘ L) := by
  have hlot : Lot.objects ⟨m, t, (k, n) :: fbs⟩ =
      (Object.framebuffer? k n).toList ++ Lot.objects ⟨m, t, fbs⟩ := by
    simp only [Lot.objects, List.filterMap_cons]
    cases Object.framebuffer? k n <;> rfl
  rw [objects_cons, objects_cons, hlot, ← Multiset.coe_add, add_assoc]

theorem Lot.mem_objects {o : Object κ} : o ∈ l.objects ↔
    (∃ x ∈ l.framebuffers, Object.framebuffer? x.1 x.2 = some o) ∨
      Object.texture? l.maker l.texture = some o := by
  simp [Lot.objects]

theorem mem_objects {o : Object κ} : o ∈ objects L ↔ ∃ l ∈ L, o ∈ l.objects := by
  simp [objects]

theorem texture_inUse (hl : l ∈ L) : ∀ x ∈ Name.texture? l.texture, InUse L x := fun x hx =>
  ⟨⟨l.maker, x⟩, mem_objects.2 ⟨l, hl, Lot.mem_objects.2
    (.inr (Option.map_eq_some_iff.2 ⟨x, hx, rfl⟩))⟩, rfl⟩

theorem framebuffer_inUse (hl : l ∈ L) (hk : (k, n) ∈ l.framebuffers) :
    ∀ x ∈ Name.framebuffer? k n, InUse L x := fun x hx =>
  ⟨⟨k, x⟩, mem_objects.2 ⟨l, hl, Lot.mem_objects.2
    (.inl ⟨_, hk, Option.map_eq_some_iff.2 ⟨x, hx, rfl⟩⟩)⟩, rfl⟩

end

/-! ### Scenes -/

/-- Which framebuffer is bound for drawing in a context, and which texture a framebuffer of a
context shows. -/
structure Scene (κ : Type) where
  bound : κ → Nat
  shows : κ × Nat → Nat

variable [DecidableEq κ]

def Scene.next (s : Scene κ) : Entry κ → Scene κ
  | .call k .genFramebuffers n => { s with shows := Function.update s.shows (k, n) 0 }
  | .call _ (.bindFramebuffer .read _) _ => s
  | .call k (.bindFramebuffer _ n) _ => { s with bound := Function.update s.bound k n }
  | .call k (.framebufferTexture t) _ =>
    { s with shows := Function.update s.shows (k, s.bound k) t }
  | .call k (.deleteFramebuffers n) _ =>
    { s with bound := if s.bound k = n then Function.update s.bound k 0 else s.bound }
  | _ => s

/-- The scene behind a log. At first nothing is bound and nothing shown. -/
def scene (log : List (Entry κ)) : Scene κ := log.foldl Scene.next ⟨fun _ => 0, fun _ => 0⟩

theorem scene_snoc (log : List (Entry κ)) (e : Entry κ) :
    scene (log ++ [e]) = (scene log).next e := by
  rw [scene, List.foldl_append]
  rfl

/-- No texture is deleted while a framebuffer shows it. -/
def Outlives : List (Entry κ) → Prop :=
  Throughout fun past e => ∀ k n, (reading κ).freed e = some ⟨k, .texture n⟩ →
    ∀ k' fb, ⟨k', .framebuffer k' fb⟩ ∈ (reading κ).alive past → (scene past).shows (k', fb) ≠ n

/-! ### The ledger -/

/-- The log has deleted nothing that is in use, and what is alive stands in lots. -/
structure Ledger (L : Multiset (Lot κ)) (log : List (Entry κ)) : Prop where
  onlyAlive : (reading κ).OnlyAlive log
  outlives : Outlives log
  balance : ((reading κ).alive log : Multiset (Object κ)) = objects L
  /-- A framebuffer shows the texture of its lot, or nothing yet. -/
  shown : ∀ l ∈ L, ∀ x ∈ l.framebuffers, x.2 ≠ 0 →
    (scene log).shows x = 0 ∨ (scene log).shows x = l.texture

variable {L L' : Multiset (Lot κ)} {log : List (Entry κ)} {e : Entry κ} {k m : κ} {t n : Nat}
  {fbs : List (κ × Nat)} {a : Nat}

namespace Ledger

theorem nil : Ledger (0 : Multiset (Lot κ)) [] :=
  ⟨.nil, .nil, rfl, fun l hl => (by simp at hl)⟩

theorem holds (h : Ledger L log) : (reading κ).Holds (objects L) log := ⟨h.onlyAlive, h.balance⟩

/-- Two lots have no name in common. -/
theorem apart {l : Lot κ} (h : Ledger (l ::ₘ L) log) (hfresh : (reading κ).Fresh log)
    {o o' : Object κ} (ho : o ∈ l.objects) (ho' : o' ∈ objects L) : o.name ≠ o'.name := by
  have hnodup : ((objects (l ::ₘ L)).map Object.name).Nodup := h.holds.nodup hfresh
  rw [objects_cons, Multiset.map_add, Multiset.nodup_add] at hnodup
  intro hname
  exact Multiset.disjoint_left.1 hnodup.2.2 (Multiset.mem_map_of_mem _ ho)
    (hname ▸ Multiset.mem_map_of_mem _ ho')

/-- A line that mentions names in use, and changes what is alive as the lots change. -/
theorem step (h : Ledger L log) (hfresh : (reading κ).Fresh log)
    (hnamed : ∀ x ∈ (reading κ).named e, InUse L x)
    (hbalance : ((reading κ).made e).toList + objects L =
      ((reading κ).freed e).toList + objects L')
    (houtlives : ∀ k n, (reading κ).freed e = some ⟨k, .texture n⟩ → ∀ l ∈ L,
      ∀ x ∈ l.framebuffers, x.2 ≠ 0 → (scene log).shows x ≠ n)
    (hshown : ∀ l ∈ L', ∀ x ∈ l.framebuffers, x.2 ≠ 0 →
      ((scene log).next e).shows x = 0 ∨ ((scene log).next e).shows x = l.texture) :
    Ledger L' (log ++ [e]) := by
  have hholds := h.holds.snoc hfresh hnamed hbalance
  refine ⟨hholds.onlyAlive, h.outlives.snoc fun k n hk k' fb hfb => ?_, hholds.balance, ?_⟩
  · obtain ⟨l, hl, hobject⟩ := mem_objects.1 (h.holds.mem_alive.1 hfb)
    rcases Lot.mem_objects.1 hobject with ⟨x, hx, hobject⟩ | hobject
    · obtain ⟨hne, heq⟩ := framebuffer?_eq_some.1 hobject
      cases x
      cases heq
      exact houtlives k n hk l hl _ hx hne
    · cases (texture?_eq_some.1 hobject).2
  · rw [scene_snoc]
    exact hshown

end Ledger

/-- The log is in order, unless some name was given out while it was alive. -/
def InLots (L : Multiset (Lot κ)) (log : List (Entry κ)) : Prop :=
  (reading κ).Fresh log → Ledger L log

namespace InLots

/-- A line that makes, deletes and attaches nothing. -/
theorem use (h : InLots L log) (hm : (reading κ).made e = none) (hf : (reading κ).freed e = none)
    (hs : ∀ s : Scene κ, (s.next e).shows = s.shows)
    (hnamed : ∀ x ∈ (reading κ).named e, InUse L x) : InLots L (log ++ [e]) := by
  intro hfresh
  have hpast := hfresh.before
  refine (h hpast).step hpast hnamed (by rw [hm, hf]) (fun k n hk => ?_) ?_
  · rw [hf] at hk
    cases hk
  · rw [hs]
    exact (h hpast).shown

theorem useCall {c : Call} (h : InLots L log) (hc : c.Uses k L) :
    InLots L (log ++ [.call k c a]) := by
  obtain ⟨hplain, hnamed⟩ := hc
  refine h.use ?_ ?_ (fun s => ?_) fun x hx => hnamed x (Option.mem_toList.1 hx)
  · cases c <;> first | rfl | cases hplain
  · cases c <;> first | rfl | cases hplain
  · cases c with
    | bindFramebuffer slot n => cases slot <;> rfl
    | _ => first | rfl | cases hplain

theorem genTextures (h : InLots L log) :
    InLots (⟨k, n, []⟩ ::ₘ L) (log ++ [.call k .genTextures n]) := by
  intro hfresh
  have hpast := hfresh.before
  refine (h hpast).step hpast (fun x hx => by cases hx) ?_ (fun k n hk => by cases hk) ?_
  · rw [objects_cons]
    exact (zero_add _).symm
  · intro l hl x hx
    rcases Multiset.mem_cons.1 hl with rfl | hmem
    · cases hx
    · exact (h hpast).shown l hmem x hx

/-- A new framebuffer shows nothing yet. -/
theorem genFramebuffers (h : InLots (⟨m, t, fbs⟩ ::ₘ L) log) :
    InLots (⟨m, t, (k, n) :: fbs⟩ ::ₘ L) (log ++ [.call k .genFramebuffers n]) := by
  intro hfresh
  have hpast := hfresh.before
  refine (h hpast).step hpast (fun x hx => by cases hx) ?_ (fun k n hk => by cases hk) ?_
  · rw [objects_cons_framebuffer]
    exact (zero_add _).symm
  · intro l hl x hx hne
    simp only [Scene.next, Function.update_apply]
    split
    · exact .inl rfl
    · rename_i hx'
      rcases Multiset.mem_cons.1 hl with rfl | hmem
      · exact (h hpast).shown _ (Multiset.mem_cons_self ..) x
          ((List.mem_cons.1 hx).resolve_left hx') hne
      · exact (h hpast).shown l (Multiset.mem_cons_of_mem hmem) x hx hne

/-- The texture of a lot is attached to a framebuffer of the lot, which is bound. -/
theorem framebufferTexture (h : InLots (⟨m, t, (k, n) :: fbs⟩ ::ₘ L) log)
    (hbound : (scene log).bound k = n) :
    InLots (⟨m, t, (k, n) :: fbs⟩ ::ₘ L) (log ++ [.call k (.framebufferTexture t) a]) := by
  intro hfresh
  have hpast := hfresh.before
  have hlot := Multiset.mem_cons_self (⟨m, t, (k, n) :: fbs⟩ : Lot κ) L
  refine (h hpast).step hpast (fun x hx => ?_) rfl (fun k n hk => by cases hk) ?_
  · exact texture_inUse hlot x (Option.mem_toList.1 hx)
  · intro l hl x hx hne
    simp only [Scene.next, Function.update_apply, hbound]
    split
    · rename_i hx'
      subst hx'
      refine .inr ?_
      rcases Multiset.mem_cons.1 hl with rfl | hmem
      · rfl
      · -- no other lot has this framebuffer
        have hobject : Object.framebuffer? k n = some ⟨k, .framebuffer k n⟩ :=
          framebuffer?_eq_some.2 ⟨hne, rfl⟩
        have happart := (h hpast).apart hpast
          (Lot.mem_objects.2 (.inl ⟨_, List.mem_cons_self .., hobject⟩))
          (mem_objects.2 ⟨l, hmem, Lot.mem_objects.2 (.inl ⟨_, hx, hobject⟩)⟩)
        exact absurd rfl happart
    · exact (h hpast).shown l hl x hx hne

theorem deleteFramebuffers (h : InLots (⟨m, t, (k, n) :: fbs⟩ ::ₘ L) log) :
    InLots (⟨m, t, fbs⟩ ::ₘ L) (log ++ [.call k (.deleteFramebuffers n) a]) := by
  intro hfresh
  have hpast := hfresh.before
  have hlot := Multiset.mem_cons_self (⟨m, t, (k, n) :: fbs⟩ : Lot κ) L
  refine (h hpast).step hpast (fun x hx => ?_) ?_ (fun k' n' hk => ?_) ?_
  · exact framebuffer_inUse hlot (List.mem_cons_self ..) x (Option.mem_toList.1 hx)
  · rw [objects_cons_framebuffer]
    exact zero_add _
  · cases (framebuffer?_eq_some.1 hk).2
  · intro l hl x hx hne
    rcases Multiset.mem_cons.1 hl with rfl | hmem
    · exact (h hpast).shown _ hlot x (List.mem_cons_of_mem _ hx) hne
    · exact (h hpast).shown l (Multiset.mem_cons_of_mem hmem) x hx hne

/-- The texture of a lot without framebuffers is shown by nothing. -/
theorem deleteTextures (h : InLots (⟨k, n, []⟩ ::ₘ L) log) :
    InLots L (log ++ [.call k (.deleteTextures n) a]) := by
  intro hfresh
  have hpast := hfresh.before
  refine (h hpast).step hpast (fun x hx => ?_) ?_ (fun k' n' hk l hl x hx hne hshows => ?_) ?_
  · exact texture_inUse (Multiset.mem_cons_self _ _) x (Option.mem_toList.1 hx)
  · rw [objects_cons]
    exact zero_add _
  · obtain ⟨hn, heq⟩ := texture?_eq_some.1 hk
    cases heq
    rcases Multiset.mem_cons.1 hl with rfl | hmem
    · cases hx
    · -- another lot would have this texture
      have htexture : l.texture = n := by
        rcases (h hpast).shown l (Multiset.mem_cons_of_mem hmem) x hx hne with hnone | hsome
        · exact absurd (hshows.symm.trans hnone) hn
        · exact hsome.symm.trans hshows
      subst htexture
      have hobject (k : κ) : Object.texture? k l.texture = some ⟨k, .texture l.texture⟩ :=
        texture?_eq_some.2 ⟨hn, rfl⟩
      have happart := (h hpast).apart hpast (Lot.mem_objects.2 (.inr (hobject _)))
        (mem_objects.2 ⟨l, hmem, Lot.mem_objects.2 (.inr (hobject _))⟩)
      exact happart rfl
  · exact fun l hl => (h hpast).shown l (Multiset.mem_cons_of_mem hl)

end InLots
end SurfaceRelay.Gl
