import SurfaceRelay.Proofs.Gl.Operations

/-! What GL calls act on.

Which object a GL call acts on is not among its arguments: it acts on what is bound in its context
when it is made. A context has a texture binding and one framebuffer binding each for reading and
for drawing, and its log tells what they are (`bound`). An operation starts with nothing bound. It
binds what it works on, makes its call and resets the bindings, and none of this depends on whether
a call raises an error. So every call of an operation acts on the object that the operation is
about (`Aims`), and behind every operation nothing is bound again.

What an operation has to go by is what is bound and the names it was given (`Focus`). Where it
stands after some of its calls is `Reaches`; one more call is one step (`Reaches.call`). -/
namespace SurfaceRelay.Gl
variable {κ σ : Type}

/-! ### Bindings -/

/-- What is bound in a context. Zero is no object. -/
structure Bindings where
  texture : Nat
  read : Nat
  draw : Nat
deriving DecidableEq, Repr

namespace Bindings

/-- Nothing is bound. -/
def clear : Bindings := ⟨0, 0, 0⟩

/-- Binding takes effect whether or not it raises an error, and a framebuffer that is bound to both
is bound for reading and for drawing. Only binding changes what is bound: deleting an object is not
taken to reset a binding that was left to it. -/
def after (b : Bindings) : Call → Bindings
  | .bindTexture name => { b with texture := name }
  | .bindFramebuffer .both name => { b with read := name, draw := name }
  | .bindFramebuffer .read name => { b with read := name }
  | .bindFramebuffer .draw name => { b with draw := name }
  | _ => b

end Bindings

/-- What an operation has to go by. -/
structure Focus where
  bindings : Bindings
  /-- The name that it was given last for a new texture. -/
  texture : Option Nat
  /-- The name that it was given last for a new framebuffer. -/
  framebuffer : Option Nat
deriving DecidableEq, Repr

namespace Focus

/-- An operation starts with nothing bound and nothing new. -/
def start : Focus := ⟨.clear, none, none⟩

def after (f : Focus) (answer : Nat) : Call → Focus
  | .genTextures => { f with texture := some answer }
  | .genFramebuffers => { f with framebuffer := some answer }
  | c => { f with bindings := f.bindings.after c }

theorem bindings_after (f : Focus) (answer : Nat) (c : Call) :
    (f.after answer c).bindings = f.bindings.after c := by
  cases c <;> rfl

/-- Only generating calls answer with something to go by. -/
theorem after_of_not_answers (f : Focus) {c : Call} (h : c.answers = false) (answer : Nat) :
    f.after answer c = f.after 0 c := by
  cases c <;> first | rfl | cases h

end Focus

section
variable [DecidableEq κ]

def Bindings.see (k : κ) (b : Bindings) : Entry κ → Bindings
  | .call k' c _ => if k' = k then b.after c else b
  | _ => b

/-- What is bound in a context behind a log. At first nothing is. -/
def bound (k : κ) (log : List (Entry κ)) : Bindings := log.foldl (Bindings.see k) .clear

def Focus.see (k : κ) (f : Focus) : Entry κ → Focus
  | .call k' c answer => if k' = k then f.after answer c else f
  | _ => f

/-- What an operation has to go by behind its first lines. -/
def focus (k : κ) (past lines : List (Entry κ)) : Focus :=
  lines.foldl (Focus.see k) ⟨bound k past, none, none⟩

theorem bound_snoc (k : κ) (log : List (Entry κ)) (e : Entry κ) :
    bound k (log ++ [e]) = (bound k log).see k e := List.foldl_append

theorem focus_snoc (k : κ) (past lines : List (Entry κ)) (e : Entry κ) :
    focus k past (lines ++ [e]) = (focus k past lines).see k e := List.foldl_append

theorem bindings_focus (k : κ) (past lines : List (Entry κ)) :
    (focus k past lines).bindings = bound k (past ++ lines) := by
  induction lines using List.reverseRecOn with
  | nil => rw [List.append_nil]; rfl
  | append_singleton lines e ih =>
    rw [focus_snoc, ← List.append_assoc, bound_snoc, ← ih]
    cases e with
    | call k' c answer =>
      simp only [Focus.see, Bindings.see]
      split
      · exact Focus.bindings_after ..
      · rfl
    | activated | notice => rfl

/-- Lines of other contexts bind nothing in a context. -/
theorem bound_of_elsewhere {k k' : κ} (hne : k' ≠ k) {past lines : List (Entry κ)}
    (h : ∀ e ∈ lines, ∀ k₁ c answer, e = .call k₁ c answer → k₁ = k) :
    bound k' (past ++ lines) = bound k' past := by
  induction lines using List.reverseRecOn with
  | nil => rw [List.append_nil]
  | append_singleton lines e ih =>
    rw [← List.append_assoc, bound_snoc, ih fun e' he' => h e' (List.mem_append_left _ he')]
    cases e with
    | call k₁ c answer =>
      obtain rfl := h _ (List.mem_append_right _ (List.mem_singleton_self _)) k₁ c answer rfl
      exact if_neg hne.symm
    | activated | notice => rfl

end

/-! ### What a call acts on -/

/-- The texture is the one that the operation makes or opens. -/
def Operation.Attaches (op : Operation) (f : Focus) (texture : Nat) : Prop :=
  (∃ size, op = .openShare texture size) ∨ f.texture = some texture

/-- A call of an operation acts on the object that the operation is about. -/
def Aims (op : Operation) (f : Focus) : Call → Prop
  | .texImage size =>
    (op = .newTexture size ∨ op = .newStaging size) ∧ f.texture = some f.bindings.texture
  | .texParameter _ => f.texture = some f.bindings.texture
  | .texSubImage size data =>
    ∃ i, op = .upload i data ∧ size = i.size ∧ f.bindings.texture = i.name
  | .framebufferTexture texture =>
    op.Attaches f texture ∧ f.bindings.read = f.bindings.draw ∧
      f.framebuffer = some f.bindings.draw
  | .blitFramebuffer region =>
    ∃ i staging, op = .stage i staging region ∧ f.bindings.read = i.framebuffer ∧
      f.bindings.draw = staging.framebuffer
  | .readPixels size =>
    ∃ staging, op = .blockOn staging ∧ size = staging.size ∧
      f.bindings.read = staging.framebuffer
  | _ => True

/-- The calls that an operation is for. -/
def Operation.works : Operation → List Call
  | .newTexture size | .newStaging size => [.texImage size]
  | .openShare shared _ => [.framebufferTexture shared]
  | .upload i data => [.texSubImage i.size data]
  | .stage _ _ region => [.blitFramebuffer region]
  | .blockOn staging => [.readPixels staging.size]
  | _ => []

/-- The call binds nothing and acts on nothing that is bound. -/
def Call.aimless : Call → Bool
  | .bindTexture _ | .bindFramebuffer .. | .texImage _ | .texParameter _ | .texSubImage ..
  | .framebufferTexture _ | .blitFramebuffer _ | .readPixels _ => false
  | _ => true

theorem Call.aimless_of_deletes {c : Call} (h : c.deletes = true) : c.aimless = true := by
  cases c <;> first | rfl | cases h

theorem Call.aimless_of_matter {c : Call} (h : c.matter = .fence ∨ c.matter = .error) :
    c.aimless = true := by
  cases c <;> first | rfl | rcases h with h | h <;> cases h

theorem aims_of_aimless (op : Operation) (f : Focus) {c : Call} (h : c.aimless = true) :
    Aims op f c := by
  cases c <;> first | exact True.intro | cases h

theorem Bindings.after_of_aimless (b : Bindings) {c : Call} (h : c.aimless = true) :
    b.after c = b := by
  cases c <;> first | rfl | cases h

/-- Calls that need no answer, one after the other. -/
def Aimed (op : Operation) (f : Focus) : List Call → Prop
  | [] => True
  | c :: rest => c.answers = false ∧ Aims op f c ∧ Aimed op (f.after 0 c) rest

/-! ### On the way -/

variable [DecidableEq κ]

/-- A line of an operation is of its own context, and a call acts on the right object. -/
def Hits (op : Operation) (k : κ) (past before : List (Entry κ)) (e : Entry κ) : Prop :=
  ∀ k' c answer, e = .call k' c answer → k' = k ∧ Aims op (focus k past before) c

/-- Behind `past` the operation made these calls, among others, and has this to go by. -/
def Reaches (op : Operation) (k : κ) (past : List (Entry κ)) (f : Focus) (done : List Call)
    (log : List (Entry κ)) : Prop :=
  ∃ lines, log = past ++ lines ∧ Throughout (Hits op k past) lines ∧ focus k past lines = f ∧
    ∀ c ∈ done, ∃ answer, .call k c answer ∈ lines

namespace Reaches
variable {op : Operation} {k : κ} {past log : List (Entry κ)} {f : Focus} {done : List Call}

theorem start (h : bound k past = .clear) : Reaches op k past .start [] past :=
  ⟨[], (List.append_nil _).symm, .nil, by rw [focus, List.foldl_nil, h]; rfl,
    fun c hc => by cases hc⟩

theorem call (h : Reaches op k past f done log) {c : Call} (haims : Aims op f c) (answer : Nat) :
    Reaches op k past (f.after answer c) (c :: done) (log ++ [.call k c answer]) := by
  obtain ⟨lines, rfl, hhits, rfl, hdone⟩ := h
  refine ⟨lines ++ [.call k c answer], List.append_assoc .., hhits.snoc ?_, ?_, ?_⟩
  · rintro k' c' answer' ⟨⟩
    exact ⟨rfl, haims⟩
  · rw [focus_snoc]
    exact if_pos rfl
  · refine List.forall_mem_cons.2 ⟨⟨answer, by simp⟩, fun c' hc' => ?_⟩
    obtain ⟨answer', hmem⟩ := hdone c' hc'
    exact ⟨answer', List.mem_append_left _ hmem⟩

/-- Fewer calls may be remembered. -/
theorem fewer (h : Reaches op k past f done log) {done' : List Call} (hdone : done' ⊆ done) :
    Reaches op k past f done' log := by
  obtain ⟨lines, hlog, hhits, hfocus, hall⟩ := h
  exact ⟨lines, hlog, hhits, hfocus, fun c hc => hall c (hdone hc)⟩

theorem calls {cs : List Call} {lines : List (Entry κ)} (hmade : Group.Made k cs lines)
    (h : Reaches op k past f done log) (haimed : Aimed op f cs) :
    Reaches op k past (cs.foldl (fun f c => f.after 0 c) f) (cs ++ done) (log ++ lines) := by
  induction hmade generalizing f done log with
  | nil => simpa using h
  | @cons c line cs lines hline hmade ih =>
    obtain ⟨answer, rfl⟩ := hline
    obtain ⟨hanswers, haims, hrest⟩ := haimed
    have hcall := h.call haims answer
    rw [f.after_of_not_answers hanswers] at hcall
    rw [List.append_cons]
    exact (ih hcall hrest).fewer (by simp)

/-- The hook of the context is no call. -/
theorem hook (h : Reaches op k past f done log) :
    Reaches op k past f done (log ++ [.activated k]) := by
  obtain ⟨lines, rfl, hhits, rfl, hdone⟩ := h
  refine ⟨lines ++ [.activated k], List.append_assoc .., hhits.snoc ?_, focus_snoc .., ?_⟩
  · intro k' c answer he
    cases he
  · intro c hc
    obtain ⟨answer, hmem⟩ := hdone c hc
    exact ⟨answer, List.mem_append_left _ hmem⟩

end Reaches

/-- The operation has made its calls, and nothing is bound. -/
def Rests (op : Operation) (k : κ) (past log : List (Entry κ)) : Prop :=
  ∃ f, f.bindings = .clear ∧ Reaches op k past f op.works log

namespace Group
variable (g : Group κ σ) {k : κ} {op : Operation} {past : List (Entry κ)} {f : Focus}
  {done : List Call} {fail : World κ σ → Prop}

/-! ### Pieces of operations -/

theorem enter_reaches : (g.enter k).Meets (fun w => Reaches op k past f done w.log)
    (fun _ w => Reaches op k past f done w.log) fail := by
  refine Attempt.meets_of_result fun w hw => ?_
  obtain ⟨w', henter⟩ := g.enter_total k w
  rw [henter]
  show Reaches op k past f done w'.log
  rcases (enter_log henter).2 with hlog | hlog
  · rwa [hlog]
  · rw [hlog]
    exact hw.hook

theorem call_reaches {c : Call} (haims : Aims op f c) :
    (g.call k c).Meets (fun w => Reaches op k past f done w.log)
      (fun answer w => Reaches op k past (f.after answer c) (c :: done) w.log) fail :=
  call_meets fun _ answer hlog => hlog.call haims answer

theorem calls_reaches {cs : List Call} (haimed : Aimed op f cs) :
    (g.calls k cs).Meets (fun w => Reaches op k past f done w.log)
      (fun _ w => Reaches op k past (cs.foldl (fun f c => f.after 0 c) f) (cs ++ done) w.log)
      fail :=
  calls_meets fun _ _ hmade hlog => hlog.calls hmade haimed

/-- A framebuffer is bound only while the texture is attached to it. -/
theorem attach_reaches {texture : Nat} (hclear : f.bindings = .clear)
    (hattaches : op.Attaches f texture) :
    (g.attach k texture).Meets (fun w => Reaches op k past f done w.log)
      (fun framebuffer w => Reaches op k past { f with framebuffer := some framebuffer }
        (.framebufferTexture texture :: done) w.log) fail := by
  refine Attempt.meets_bind (g.call_reaches trivial) fun framebuffer => ?_
  refine Attempt.meets_bind (g.calls_reaches ?_) fun _ => Attempt.meets_pure fun w hw => ?_
  · exact ⟨rfl, trivial, rfl, ⟨hattaches, rfl, rfl⟩, rfl, trivial, trivial⟩
  · obtain ⟨bindings, texture', framebuffer'⟩ := f
    cases hclear
    refine hw.fewer fun c hc => ?_
    rcases List.mem_cons.1 hc with rfl | hc <;> simp [*]

/-- A texture is bound only while it is given its storage. -/
theorem newImage_reaches {size : Extent} (hop : op = .newTexture size ∨ op = .newStaging size) :
    (g.newImage k size).Meets (fun w => Reaches op k past .start [] w.log)
      (fun _ w => ∃ f, f.bindings = .clear ∧ Reaches op k past f [.texImage size] w.log) fail := by
  refine Attempt.meets_bind (g.call_reaches trivial) fun texture => ?_
  refine Attempt.meets_bind (g.calls_reaches ?_) fun _ => ?_
  · exact ⟨rfl, trivial, rfl, ⟨hop, rfl⟩, rfl, rfl, rfl, rfl, rfl, trivial, trivial⟩
  refine Attempt.meets_bind (g.attach_reaches rfl (.inr rfl)) fun framebuffer => ?_
  exact Attempt.meets_pure fun w hw => ⟨_, rfl, hw.fewer (by simp)⟩

/-- At rest, calls that bind nothing and act on nothing leave things as they are. -/
theorem call_rests {c : Call} (hc : c.aimless = true) :
    (g.call k c).Keeps fun w => Rests op k past w.log := by
  refine Attempt.keeps_of_leaves fun w hw => ?_
  obtain ⟨f, hclear, hreaches⟩ := hw
  refine ⟨_, ?_, (hreaches.call (aims_of_aimless op f hc) _).fewer (List.subset_cons_self ..)⟩
  rw [Focus.bindings_after, Bindings.after_of_aimless _ hc, hclear]

theorem Calling.rests {g : Group κ σ} {w w' : World κ σ}
    (h : g.Calling k (·.aimless = true) w w') (hw : Rests op k past w.log) :
    Rests op k past w'.log :=
  h.keeps (fun _ hc => g.call_rests hc) hw

theorem deleteImage_rests (i : Image) : (g.deleteImage k i).Meets
    (fun w => Rests op k past w.log) (fun _ w => Rests op k past w.log) fail := by
  refine Attempt.meets_of_result fun w hw => ?_
  obtain ⟨w', hdelete, hcalling⟩ := g.deleteImage_calling k i w
  rw [hdelete]
  exact (hcalling.imp fun _ => Call.aimless_of_deletes).rests hw

/-- Whatever the error flag says. -/
theorem check_rests (refusal : Nat → Refusal) : (g.check k refusal).Meets
    (fun w => Rests op k past w.log) (fun _ w => Rests op k past w.log)
    (fun w => Rests op k past w.log) := by
  refine Attempt.meets_of_result fun w hw => ?_
  obtain ⟨code, w₁, hcall, hcheck⟩ := g.check_result k refusal w
  have hw₁ : Rests op k past w₁.log := (g.call_rests rfl).ok hcall hw
  rw [hcheck]
  by_cases hcode : code = noError
  · rw [if_pos hcode]
    exact hw₁
  · rw [if_neg hcode]
    exact hw₁

theorem keepImage_rests (i : Image) (refusal : Nat → Refusal) : (g.keepImage k i refusal).Meets
    (fun w => Rests op k past w.log) (fun _ w => Rests op k past w.log)
    (fun w => Rests op k past w.log) := by
  refine Attempt.meets_of_result fun w hw => ?_
  obtain ⟨code, w₁, w₂, hcall, hcalling, hkeep⟩ := g.keepImage_result k i refusal w
  have hw₁ : Rests op k past w₁.log := (g.call_rests rfl).ok hcall hw
  rw [hkeep]
  by_cases hcode : code = noError
  · rw [if_pos hcode]
    exact hw₁
  · rw [if_neg hcode]
    exact (hcalling.imp fun _ => Call.aimless_of_deletes).rests hw₁

/-! ### Every operation -/

theorem create_rests {purpose : Purpose} {size : Extent}
    (hop : op = .newTexture size ∨ op = .newStaging size) : (g.create k purpose size).Meets
      (fun w => Reaches op k past .start [] w.log) (fun _ w => Rests op k past w.log)
      (fun w => Rests op k past w.log) := by
  have hworks : op.works = [.texImage size] := by rcases hop with rfl | rfl <;> rfl
  refine Attempt.meets_bind g.enter_reaches fun _ => ?_
  refine Attempt.meets_bind (g.newImage_reaches hop) fun i => ?_
  rw [← hworks]
  exact g.keepImage_rests i _

theorem openShare_rests {shared : Nat} {size : Extent} (hname : shared < nameLimit) :
    (g.openShare k shared size).Meets
      (fun w => Reaches (.openShare shared size) k past .start [] w.log)
      (fun _ w => Rests (.openShare shared size) k past w.log)
      (fun w => Rests (.openShare shared size) k past w.log) := by
  rw [openShare, if_neg (Nat.not_le.2 hname)]
  refine Attempt.meets_bind g.enter_reaches fun _ => ?_
  refine Attempt.meets_bind (g.attach_reaches rfl (.inl ⟨size, rfl⟩)) fun framebuffer => ?_
  exact (g.keepImage_rests _ _).imp (fun w hw => ⟨_, rfl, hw⟩) (fun _ _ hw => hw) fun _ hw => hw

/-- An operation that binds what it works on, works, and resets the bindings. -/
theorem working_rests {cs : List Call} {refusal : Nat → Refusal} (haimed : Aimed op .start cs)
    (hclear : (cs.foldl (fun f c => f.after 0 c) Focus.start).bindings = .clear)
    (hworks : op.works ⊆ cs) :
    (do
      g.enter k
      g.calls k cs
      g.check k refusal : Attempt (World κ σ) Unit).Meets
      (fun w => Reaches op k past .start [] w.log) (fun _ w => Rests op k past w.log)
      (fun w => Rests op k past w.log) := by
  refine Attempt.meets_bind g.enter_reaches fun _ => ?_
  refine Attempt.meets_bind (g.calls_reaches haimed) fun _ => ?_
  refine (g.check_rests refusal).imp (fun w hw => ⟨_, hclear, hw.fewer ?_⟩) (fun _ _ hw => hw)
    fun _ hw => hw
  exact List.subset_append_of_subset_left _ hworks

theorem upload_rests {i : Image} {data : List UInt8} (hlength : data.length = i.size.byteCount) :
    (g.upload k i data).Meets (fun w => Reaches (.upload i data) k past .start [] w.log)
      (fun _ w => Rests (.upload i data) k past w.log)
      (fun w => Rests (.upload i data) k past w.log) := by
  rw [upload, if_neg (not_not.2 hlength)]
  refine g.working_rests ?_ rfl (by simp [Operation.works])
  exact ⟨rfl, trivial, rfl, ⟨i, rfl, rfl, rfl⟩, rfl, trivial, trivial⟩

theorem stage_rests (i staging : Image) (region : Extent) : (g.stage k i staging region).Meets
    (fun w => Reaches (.stage i staging region) k past .start [] w.log)
    (fun _ w => Rests (.stage i staging region) k past w.log)
    (fun w => Rests (.stage i staging region) k past w.log) := by
  refine g.working_rests ?_ rfl (by simp [Operation.works])
  exact ⟨rfl, trivial, rfl, trivial, rfl, ⟨i, staging, rfl, rfl, rfl⟩, rfl, trivial, trivial⟩

theorem blockOn_rests (staging : Image) : (g.blockOn k staging).Meets
    (fun w => Reaches (.blockOn staging) k past .start [] w.log)
    (fun _ w => Rests (.blockOn staging) k past w.log)
    (fun w => Rests (.blockOn staging) k past w.log) := by
  refine g.working_rests ?_ rfl (by simp [Operation.works])
  exact ⟨rfl, trivial, rfl, ⟨staging, rfl, rfl, rfl⟩, rfl, trivial, trivial⟩

/-- An operation that only deletes. -/
theorem destroyImage_rests (i : Image) (hworks : op.works = []) : (g.destroyImage k i).Meets
    (fun w => Reaches op k past .start [] w.log) (fun _ w => Rests op k past w.log)
    (fun w => Rests op k past w.log) := by
  refine Attempt.meets_bind g.enter_reaches fun _ => ?_
  exact (g.deleteImage_rests i).imp (fun w hw => ⟨_, rfl, hworks ▸ hw⟩) (fun _ _ hw => hw)
    fun _ hw => hw

/-- Markers have nothing to do with what is bound. -/
theorem fence_rests {w : World κ σ} (hmatter : op.matter = .fence)
    (hstart : Reaches op k w.log .start [] w.log) :
    Rests op k w.log (Attempt.leaves (g.perform k op w)).log := by
  have hworks : op.works = [] := by cases op <;> first | rfl | cases hmatter
  rcases g.perform_leaves k op w with ⟨-, hsame⟩ | ⟨-, w₁, henter, hcalling⟩
  · rw [hsame]
    exact ⟨_, rfl, hworks ▸ hstart⟩
  · have hentered : Reaches op k w.log .start [] w₁.log := by
      rcases (enter_log henter).2 with hlog | hlog
      · rwa [hlog]
      · rw [hlog]
        exact hstart.hook
    refine (hcalling.imp fun c hc => Call.aimless_of_matter ?_).rests ⟨_, rfl, hworks ▸ hentered⟩
    rwa [hmatter] at hc

/-- An operation that touches its context makes its calls, and leaves nothing bound there. -/
theorem perform_rests {w : World κ σ} (htouches : op.touches = true)
    (hclear : bound k w.log = .clear) :
    Rests op k w.log (Attempt.leaves (g.perform k op w)).log := by
  have hstart : Reaches op k w.log .start [] w.log := .start hclear
  cases op with
  | newTexture size =>
    exact (Attempt.leaves_map _ (g.create k .sharing size) w).symm ▸
      (g.create_rests (.inl rfl)).leaves hstart
  | newStaging size =>
    exact (Attempt.leaves_map _ (g.create k .staging size) w).symm ▸
      (g.create_rests (.inr rfl)).leaves hstart
  | openShare shared size =>
    have hname : shared < nameLimit := by
      by_contra hno
      simp [Operation.touches, Operation.refused?, hno] at htouches
    exact (Attempt.leaves_map _ (g.openShare k shared size) w).symm ▸
      (g.openShare_rests hname).leaves hstart
  | upload i data =>
    have hlength : data.length = i.size.byteCount := by
      by_contra hno
      simp [Operation.touches, Operation.refused?, hno] at htouches
    exact (g.upload_rests hlength).leaves hstart
  | stage i staging region => exact (g.stage_rests i staging region).leaves hstart
  | blockOn staging => exact (g.blockOn_rests staging).leaves hstart
  | freeTexture i => exact (g.destroyImage_rests i rfl).leaves hstart
  | freeStaging i => exact (g.destroyImage_rests i rfl).leaves hstart
  | share | newMarker => cases htouches
  | record | poll | freeMarker => exact g.fence_rests rfl hstart

/-! ### Any operations -/

/-- What an operation does with what is bound. -/
structure Tidy (w : World κ σ) (k : κ) (op : Operation) (w' : World κ σ) : Prop where
  /-- All its calls are made on its own context and act on what the operation is about, and the
  calls that it is for are among them. -/
  hits : ∃ lines, w'.log = w.log ++ lines ∧ Throughout (Hits op k w.log) lines ∧
    (op.touches = true → ∀ c ∈ op.works, ∃ answer, .call k c answer ∈ lines)
  /-- Nothing stays bound, in any context. -/
  clear : ∀ k', bound k' w'.log = .clear

theorem perform_tidy (k : κ) (op : Operation) {w : World κ σ}
    (hclear : ∀ k', bound k' w.log = .clear) :
    Tidy w k op (Attempt.leaves (g.perform k op w)) := by
  rcases htouches : op.touches with _ | _
  · rcases g.perform_leaves k op w with ⟨-, hsame⟩ | ⟨hin, -⟩
    · rw [hsame]
      exact ⟨⟨[], (List.append_nil _).symm, .nil, fun hin => by rw [htouches] at hin; cases hin⟩,
        hclear⟩
    · rw [htouches] at hin
      cases hin
  · obtain ⟨f, hf, lines, hlog, hhits, hfocus, hdone⟩ := g.perform_rests htouches (hclear k)
    refine ⟨⟨lines, hlog, hhits, fun _ => hdone⟩, fun k' => ?_⟩
    rw [hlog]
    by_cases hk : k' = k
    · rw [hk, ← bindings_focus, hfocus, hf]
    · rw [bound_of_elsewhere hk fun e he k₁ c answer hcall => ?_, hclear]
      obtain ⟨before, after, rfl⟩ := List.append_of_mem he
      exact (hhits before e after rfl k₁ c answer hcall).1

/-- Nothing is bound behind any operations. -/
theorem run_clear {w : World κ σ} (hclear : ∀ k, bound k w.log = .clear)
    (ops : List (κ × Operation)) (k : κ) : bound k (g.run w ops).log = .clear := by
  induction ops using List.reverseRecOn generalizing k with
  | nil => exact hclear k
  | append_singleton ops x ih =>
    rw [run_snoc]
    exact (g.perform_tidy x.1 x.2 ih).clear k

/-- **Every call acts on its object, and nothing stays bound.** Whatever the driver answers and
whatever errors its calls raise, and whatever operations were performed before on any contexts with
any images: what an operation calls, it calls on its own context. Storage and contents go to the
texture that is being made or uploaded to. A texture is attached to the framebuffer that was just
generated for it. A copy goes from the framebuffer of its source to that of its staging resource,
and pixels are read from the framebuffer of the staging resource that is waited for. Whether the
operation succeeds or fails, all bindings of all contexts are 0 again behind it. -/
theorem bindings_tidy (g : Group κ σ) (gl : σ) (current : Option κ) (ops : List (κ × Operation))
    (k : κ) (op : Operation) :
    let w := g.run ⟨gl, current, []⟩ ops
    Tidy w k op (Attempt.leaves (g.perform k op w)) :=
  g.perform_tidy k op (g.run_clear (fun _ => rfl) ops)

end Group
end SurfaceRelay.Gl
