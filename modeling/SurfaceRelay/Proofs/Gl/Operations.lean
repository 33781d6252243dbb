import SurfaceRelay.Proofs.Gl.Calls
import SurfaceRelay.Proofs.Lifecycle

/-! What an operation of a GL domain can come to.

An `Operation` is anything that can be asked of a domain, with whatever arguments. Some are
answered or refused at once; every other one enters its context first and then makes calls on it
(`Calling`). Those that read the error flag do so once, behind their other calls, and when they
find it raised they fail, and delete what they had made (`Performing`). Everything else about
operations that holds in whatever order they are performed is read off these cases. -/
namespace SurfaceRelay.Gl

/-! ### Calls by what they are about -/

inductive Matter
  /-- Textures, framebuffers and pixels. -/
  | image
  /-- Sync objects, and the flush behind a new one. -/
  | fence
  /-- The error flag. -/
  | error
deriving DecidableEq, Repr

namespace Call

def matter : Call → Matter
  | fenceSync | clientWaitSync _ | deleteSync _ | flush => .fence
  | getError => .error
  | _ => .image

def deletes : Call → Bool
  | deleteTextures _ | deleteFramebuffers _ => true
  | _ => false

theorem matter_of_deletes {c : Call} (h : c.deletes = true) : c.matter = .image := by
  cases c <;> first | rfl | cases h

end Call

/-! ### Operations -/

/-- What can be asked of a domain, with images and markers from anywhere. -/
inductive Operation
  | newTexture (size : Extent)
  | newStaging (size : Extent)
  | openShare (shared : Nat) (size : Extent)
  | share (i : Image)
  | upload (i : Image) (data : List UInt8)
  | stage (i staging : Image) (region : Extent)
  | blockOn (staging : Image)
  | freeTexture (i : Image)
  | freeStaging (i : Image)
  | newMarker
  | record (m : Marker)
  | poll (m : Marker)
  | freeMarker (m : Marker)

namespace Operation

/-- What a domain refuses without a look at its context: a share handle that cannot be a name,
and a frame that does not fill the image. -/
def refused? : Operation → Option Refusal
  | openShare shared _ => if shared ≥ nameLimit then some (.notAName shared) else none
  | upload i data =>
    if data.length ≠ i.size.byteCount then some (.wrongLength i.size data.length) else none
  | _ => none

/-- The operation has to do with the context of its domain. The share handle of an image is its
name, and a marker takes nothing to create. -/
def touches : Operation → Bool
  | share _ | newMarker => false
  | op => op.refused?.isNone

/-- What an operation that checks the error flag makes of a code. -/
def refusal? : Operation → Option (Nat → Refusal)
  | newTexture size => some (.notAllocated .sharing size)
  | newStaging size => some (.notAllocated .staging size)
  | openShare shared _ => some (.notOpened shared)
  | upload .. => some .notUploaded
  | stage .. => some .notCopied
  | blockOn _ => some .notRead
  | _ => none

/-- The operation deletes what it made when it fails. -/
def rollsBack : Operation → Bool
  | newTexture _ | newStaging _ | openShare .. => true
  | _ => false

/-- What the calls of an operation are about. -/
def matter : Operation → Matter
  | record _ | poll _ | freeMarker _ => .fence
  | _ => .image

theorem matter_of_checks {op : Operation} {refusal : Nat → Refusal}
    (h : op.refusal? = some refusal) : op.matter = .image := by
  cases op <;> first | rfl | cases h

/-- A refusal that comes of the error flag says which error it was. -/
theorem message_refusal {op : Operation} {refusal : Nat → Refusal} (h : op.refusal? = some refusal)
    (code : Nat) : ∃ opening, (refusal code).fault.message = opening ++ errorText code := by
  have hopening (kind detail : String) :
      ∃ opening, kind ++ (detail ++ errorText code) = opening ++ errorText code :=
    ⟨kind ++ detail, (String.append_assoc ..).symm⟩
  cases op with
  | newTexture size => cases h; exact hopening "allocation failure: " _
  | newStaging size => cases h; exact hopening "allocation failure: " _
  | openShare shared => cases h; exact hopening "allocation failure: " _
  | upload => cases h; exact hopening "conversion failure: " _
  | stage => cases h; exact hopening "mapping failure: " _
  | blockOn => cases h; exact hopening "mapping failure: " _
  | _ => cases h

end Operation

namespace Group
variable {κ σ : Type}

/-- World `w'` is reached from `w` by calls of a context. -/
inductive Calling (g : Group κ σ) (k : κ) (P : Call → Prop) (w : World κ σ) : World κ σ → Prop
  | refl : Calling g k P w w
  | call {c : Call} {answer : Nat} {w₁ w₂ : World κ σ} (before : Calling g k P w w₁) (allowed : P c)
      (made : g.call k c w₁ = .ok answer w₂) : Calling g k P w w₂

namespace Calling
variable {g : Group κ σ} {k : κ} {P Q : Call → Prop} {w w₁ w₂ : World κ σ}

theorem imp (h : g.Calling k P w w₁) (hPQ : ∀ c, P c → Q c) : g.Calling k Q w w₁ := by
  induction h with
  | refl => exact .refl
  | call _ hc hmade ih => exact .call ih (hPQ _ hc) hmade

theorem trans (h : g.Calling k P w w₁) (h' : g.Calling k P w₁ w₂) : g.Calling k P w w₂ := by
  induction h' with
  | refl => exact h
  | call _ hc hmade ih => exact .call ih hc hmade

theorem single {c : Call} {answer : Nat} (hc : P c) (h : g.call k c w = .ok answer w₁) :
    g.Calling k P w w₁ := .call .refl hc h

/-- What every call keeps is kept. -/
theorem keeps {J : World κ σ → Prop} (h : g.Calling k P w w₁)
    (hcall : ∀ c, P c → (g.call k c).Keeps J) (hw : J w) : J w₁ := by
  induction h with
  | refl => exact hw
  | call _ hc hmade ih => exact (hcall _ hc).ok hmade ih

/-- Calls add their lines, and leave it known which context is current. -/
theorem log (h : g.Calling k P w w₁) : ∃ cs lines, (∀ c ∈ cs, P c) ∧ Made k cs lines ∧
    w₁.log = w.log ++ lines ∧ w₁.current = w.current := by
  induction h with
  | refl => exact ⟨[], [], fun _ hc => (by cases hc), .nil, (List.append_nil _).symm, rfl⟩
  | @call c answer w₁ w₂ _ hc hmade ih =>
    obtain ⟨cs, lines, hcs, hlines, hlog, hcurrent⟩ := ih
    obtain ⟨hlog', hcurrent'⟩ := call_log hmade
    refine ⟨cs ++ [c], lines ++ [.call k c answer], fun c' hc' => ?_, ?_, ?_, ?_⟩
    · rcases List.mem_append.1 hc' with hc' | hc'
      · exact hcs c' hc'
      · exact List.mem_singleton.1 hc' ▸ hc
    · exact List.rel_append hlines (.cons ⟨answer, rfl⟩ .nil)
    · rw [hlog', hlog, List.append_assoc]
    · rw [hcurrent', hcurrent]

end Calling

variable (g : Group κ σ) (k : κ) {P : Call → Prop}

/-! ### Pieces of operations -/

theorem calls_calling {cs : List Call} (hcs : ∀ c ∈ cs, P c) (w : World κ σ) :
    ∃ w', g.calls k cs w = .ok () w' ∧ g.Calling k P w w' := by
  induction cs generalizing w with
  | nil => exact ⟨w, rfl, .refl⟩
  | cons c cs ih =>
    obtain ⟨answer, w₁, hcall⟩ := call_total g k c w
    obtain ⟨w', hcalls, hcalling⟩ := ih (fun c' hc' => hcs c' (List.mem_cons_of_mem _ hc')) w₁
    refine ⟨w', ?_, .trans (.single (hcs c (List.mem_cons_self ..)) hcall) hcalling⟩
    rw [calls, Attempt.bind_of_ok hcall]
    exact hcalls

theorem attach_calling (name : Nat) (w : World κ σ) :
    ∃ n w', g.attach k name w = .ok n w' ∧ g.Calling k (·.matter = .image) w w' := by
  obtain ⟨n, w₁, hgen⟩ := call_total g k .genFramebuffers w
  have himage : ∀ c ∈ [.bindFramebuffer .both n, .framebufferTexture name,
      .bindFramebuffer .both 0], Call.matter c = .image := by simp [Call.matter]
  obtain ⟨w₂, hcalls, hcalling⟩ := g.calls_calling k himage w₁
  refine ⟨n, w₂, ?_, .trans (.single rfl hgen) hcalling⟩
  rw [attach, Attempt.bind_of_ok hgen, Attempt.bind_of_ok hcalls]
  rfl

theorem newImage_calling (size : Extent) (w : World κ σ) :
    ∃ i w', g.newImage k size w = .ok i w' ∧ g.Calling k (·.matter = .image) w w' := by
  obtain ⟨name, w₁, hgen⟩ := call_total g k .genTextures w
  have himage : ∀ c ∈ [.bindTexture name, .texImage size, .texParameter .mag, .texParameter .min,
      .bindTexture 0], Call.matter c = .image := by simp [Call.matter]
  obtain ⟨w₂, hcalls, hcalling⟩ := g.calls_calling k himage w₁
  obtain ⟨n, w₃, hattach, hattaching⟩ := g.attach_calling k name w₂
  refine ⟨⟨n, name, size, true⟩, w₃, ?_, .trans (.single rfl hgen) (.trans hcalling hattaching)⟩
  rw [newImage, Attempt.bind_of_ok hgen, Attempt.bind_of_ok hcalls, Attempt.bind_of_ok hattach]
  rfl

theorem deleteImage_calling (i : Image) (w : World κ σ) :
    ∃ w', g.deleteImage k i w = .ok () w' ∧ g.Calling k (·.deletes = true) w w' := by
  refine g.calls_calling k ?_ w
  cases i.owned <;> simp [Call.deletes]

theorem deleteImage_image (i : Image) (w : World κ σ) :
    ∃ w', g.deleteImage k i w = .ok () w' ∧ g.Calling k (·.matter = .image) w w' := by
  obtain ⟨w', hdelete, hcalling⟩ := g.deleteImage_calling k i w
  exact ⟨w', hdelete, hcalling.imp fun _ => Call.matter_of_deletes⟩

theorem deleteFence_calling (m : Marker) (w : World κ σ) :
    ∃ w', g.deleteFence k m w = .ok () w' ∧ g.Calling k (·.matter = .fence) w w' := by
  refine g.calls_calling k ?_ w
  by_cases hm : m.sync = 0 <;> simp [hm, Call.matter]

/-- A check reads the flag, and fails when it is raised. -/
theorem check_result (refusal : Nat → Refusal) (w : World κ σ) :
    ∃ code w₁, g.call k .getError w = .ok code w₁ ∧ g.check k refusal w =
      if code = noError then .ok () w₁ else .error (refusal code).fault w₁ := by
  obtain ⟨code, w₁, hcall⟩ := call_total g k .getError w
  refine ⟨code, w₁, hcall, ?_⟩
  rw [check, Attempt.bind_of_ok hcall]
  by_cases hcode : code = noError
  · rw [if_pos hcode, if_neg (not_not.2 hcode)]
    rfl
  · rw [if_neg hcode, if_pos hcode]
    rfl

/-- An image is kept when the flag is clear, and deleted again when it is raised. -/
theorem keepImage_result (i : Image) (refusal : Nat → Refusal) (w : World κ σ) :
    ∃ code w₁ w₂, g.call k .getError w = .ok code w₁ ∧ g.Calling k (·.deletes = true) w₁ w₂ ∧
      g.keepImage k i refusal w =
        if code = noError then .ok i w₁ else .error (refusal code).fault w₂ := by
  obtain ⟨code, w₁, hcall⟩ := call_total g k .getError w
  obtain ⟨w₂, hdelete, hcalling⟩ := g.deleteImage_calling k i w₁
  refine ⟨code, w₁, w₂, hcall, hcalling, ?_⟩
  rw [keepImage, Attempt.bind_of_ok hcall]
  by_cases hcode : code = noError
  · rw [if_pos hcode, if_pos hcode]
    rfl
  · rw [if_neg hcode, if_neg hcode, Attempt.bind_of_ok hdelete]
    rfl

/-! ### Every operation -/

variable [DecidableEq κ]

/-- Performs an operation, whatever it makes. -/
def perform : Operation → Attempt (World κ σ) Unit
  | .newTexture size => (fun _ => ()) <$> (g.producer k).newTexture size
  | .newStaging size => (fun _ => ()) <$> (g.producer k).newStaging size
  | .openShare shared size => (fun _ => ()) <$> (g.consumer k).openShare shared size
  | .share i => (fun _ => ()) <$> (g.producer k).share i
  | .upload i data => g.uploader k data i
  | .stage i staging region => (g.producer k).stage i staging region
  | .blockOn staging => (g.producer k).blockOn staging
  | .freeTexture i => (g.producer k).freeTexture i
  | .freeStaging i => (g.producer k).freeStaging i
  | .newMarker => (fun _ => ()) <$> (g.producer k).newMarker
  | .record m => (fun _ => ()) <$> g.record k m
  | .poll m => (fun _ => ()) <$> (g.producer k).poll m
  | .freeMarker m => (g.producer k).freeMarker m

/-- What an operation can come to. -/
inductive Performing (op : Operation) (w : World κ σ) :
    EStateM.Result Fault (World κ σ) Unit → Prop
  | idle (out : op.touches = false) : Performing op w (.ok () w)
  | refused {refusal : Refusal} (out : op.touches = false) (because : op.refused? = some refusal) :
      Performing op w (.error refusal.fault w)
  /-- The operation makes its calls and does not look at the error flag. -/
  | unchecked {w₁ w₂ : World κ σ} (within : op.touches = true) (never : op.refusal? = none)
      (entered : g.enter k w = .ok () w₁) (calling : g.Calling k (·.matter = op.matter) w₁ w₂) :
      Performing op w (.ok () w₂)
  /-- A wait ended with a status that says nothing. -/
  | unclear {m : Marker} {status : Nat} {w₁ w₂ : World κ σ} (polled : op = .poll m)
      (entered : g.enter k w = .ok () w₁)
      (waited : g.call k (.clientWaitSync m.sync) w₁ = .ok status w₂)
      (neither : signaled? status = none) :
      Performing op w (.error (Refusal.waitFailed status).fault w₂)
  /-- No sync object could be made, and the context reported it. -/
  | unfenced {m : Marker} {reported : String} {w₁ w₂ w₃ : World κ σ} (recorded : op = .record m)
      (entered : g.enter k w = .ok () w₁) (calling : g.Calling k (·.matter = .fence) w₁ w₂)
      (null : g.call k .fenceSync w₂ = .ok 0 w₃)
      (why : g.fenceError? k w₃.gl = some reported) :
      Performing op w (.error (Refusal.notFenced reported).fault w₃)
  /-- The error flag was clear behind the calls. -/
  | passed {refusal : Nat → Refusal} {w₁ w₂ w₃ : World κ σ} (within : op.touches = true)
      (checks : op.refusal? = some refusal) (entered : g.enter k w = .ok () w₁)
      (calling : g.Calling k (·.matter = op.matter) w₁ w₂)
      (clear : g.call k .getError w₂ = .ok noError w₃) : Performing op w (.ok () w₃)
  /-- The error flag was raised. -/
  | failed {refusal : Nat → Refusal} {code : Nat} {w₁ w₂ w₃ w₄ : World κ σ}
      (within : op.touches = true) (checks : op.refusal? = some refusal)
      (entered : g.enter k w = .ok () w₁) (calling : g.Calling k (·.matter = op.matter) w₁ w₂)
      (raised : g.call k .getError w₂ = .ok code w₃) (nonzero : code ≠ noError)
      (undone : g.Calling k (·.deletes = true) w₃ w₄) (kept : op.rollsBack = false → w₄ = w₃) :
      Performing op w (.error (refusal code).fault w₄)

namespace Performing
variable {g k} {op : Operation} {w : World κ σ} {refusal : Nat → Refusal}

/-- An operation that makes an image out of what its calls answer, and checks it. -/
theorem making {α : Type} {make : Attempt (World κ σ) α} {image : α → Image}
    (within : op.touches = true) (checks : op.refusal? = some refusal)
    (matter : op.matter = .image) (back : op.rollsBack = true)
    (hmake : ∀ w, ∃ a w', make w = .ok a w' ∧ g.Calling k (·.matter = .image) w w') :
    Performing g k op w (((fun _ => ()) <$> (do
      g.enter k
      let a ← make
      g.keepImage k (image a) refusal)) w) := by
  obtain ⟨w₁, henter⟩ := g.enter_total k w
  obtain ⟨a, w₂, hmade, hcalling⟩ := hmake w₁
  obtain ⟨code, w₃, w₄, hcode, hundone, hkeep⟩ := g.keepImage_result k (image a) refusal w₂
  have hresult : (do
      g.enter k
      let a ← make
      g.keepImage k (image a) refusal : Attempt (World κ σ) Image) w =
        if code = noError then .ok (image a) w₃ else .error (refusal code).fault w₄ := by
    rw [Attempt.bind_of_ok henter, Attempt.bind_of_ok hmade, hkeep]
  rw [← matter] at hcalling
  by_cases hclear : code = noError
  · rw [if_pos hclear] at hresult
    rw [Attempt.map_of_ok _ hresult]
    exact .passed within checks henter hcalling (hclear ▸ hcode)
  · rw [if_neg hclear] at hresult
    rw [Attempt.map_of_error _ hresult]
    exact .failed within checks henter hcalling hcode hclear hundone fun hno => by
      rw [back] at hno
      cases hno

/-- An operation that makes some calls on images, and checks them. -/
theorem checking {cs : List Call} (within : op.touches = true)
    (checks : op.refusal? = some refusal) (matter : op.matter = .image)
    (hcs : ∀ c ∈ cs, c.matter = .image) :
    Performing g k op w ((do
      g.enter k
      g.calls k cs
      g.check k refusal) w) := by
  obtain ⟨w₁, henter⟩ := g.enter_total k w
  obtain ⟨w₂, hcalls, hcalling⟩ := g.calls_calling k hcs w₁
  obtain ⟨code, w₃, hcode, hcheck⟩ := g.check_result k refusal w₂
  rw [Attempt.bind_of_ok henter, Attempt.bind_of_ok hcalls, hcheck]
  rw [← matter] at hcalling
  by_cases hclear : code = noError
  · rw [if_pos hclear]
    exact .passed within checks henter hcalling (hclear ▸ hcode)
  · rw [if_neg hclear]
    exact .failed within checks henter hcalling hcode hclear .refl fun _ => rfl

/-- An operation that enters its context and works there without failing. -/
theorem working {work : Attempt (World κ σ) Unit} (within : op.touches = true)
    (never : op.refusal? = none)
    (hwork : ∀ w, ∃ w', work w = .ok () w' ∧ g.Calling k (·.matter = op.matter) w w') :
    Performing g k op w ((do
      g.enter k
      work) w) := by
  obtain ⟨w₁, henter⟩ := g.enter_total k w
  obtain ⟨w₂, hdone, hcalling⟩ := hwork w₁
  rw [Attempt.bind_of_ok henter, hdone]
  exact .unchecked within never henter hcalling

end Performing

/-- A new recording deletes the sync object that the marker had, and makes another, or fails to
make one. -/
theorem record_performing (m : Marker) (w : World κ σ) :
    Performing g k (.record m) w (((fun _ => ()) <$> g.record k m) w) := by
  obtain ⟨w₁, henter⟩ := g.enter_total k w
  obtain ⟨w₂, hdelete, hdeleting⟩ := g.deleteFence_calling k m w₁
  obtain ⟨sync, w₃, hfence, hnew⟩ := newFence_result g k w₂
  rcases hnew with hok | ⟨rfl, reported, hreported, herror⟩
  · have hfences : ∀ c ∈ [.flush], Call.matter c = .fence := by simp [Call.matter]
    obtain ⟨w₄, hflush, hflushing⟩ := g.calls_calling k hfences w₃
    rw [Attempt.map_of_ok _ (record_fenced henter hdelete hok hflush)]
    exact .unchecked rfl rfl henter (.trans hdeleting (.trans (.single rfl hfence) hflushing))
  · rw [Attempt.map_of_error _ (record_unfenced henter hdelete herror)]
    exact .unfenced rfl henter hdeleting hfence hreported

/-- A poll waits without blocking, unless the marker has no sync object, and deletes what it finds
signaled. -/
theorem poll_performing (m : Marker) (w : World κ σ) :
    Performing g k (.poll m) w (((fun _ => ()) <$> g.poll k m) w) := by
  obtain ⟨w₁, henter⟩ := g.enter_total k w
  by_cases hm : m.sync = 0
  · rw [Attempt.map_of_ok _ (poll_null hm henter)]
    exact .unchecked rfl rfl henter .refl
  obtain ⟨status, w₂, hwait⟩ := call_total g k (.clientWaitSync m.sync) w₁
  have hwaiting : g.Calling k (·.matter = .fence) w₁ w₂ := .single rfl hwait
  have hpoll := poll_waited hm henter hwait
  rcases hstatus : signaled? status with _ | _ | _ <;> rw [hstatus] at hpoll
  · rw [Attempt.map_of_error _ hpoll]
    exact .unclear rfl henter hwait hstatus
  · rw [Attempt.map_of_ok _ hpoll]
    exact .unchecked rfl rfl henter hwaiting
  · obtain ⟨w₃, hdelete, hdeleting⟩ := g.deleteFence_calling k m w₂
    rw [Attempt.map_of_ok _ (hpoll.trans (Attempt.bind_of_ok hdelete))]
    exact .unchecked rfl rfl henter (hwaiting.trans hdeleting)

/-- **Every operation comes to one of these cases.** -/
theorem performing (op : Operation) (w : World κ σ) :
    Performing g k op w (g.perform k op w) := by
  cases op with
  | newTexture size => exact .making rfl rfl rfl rfl (g.newImage_calling k size)
  | newStaging size => exact .making rfl rfl rfl rfl (g.newImage_calling k size)
  | openShare shared size =>
    show Performing g k _ w (((fun _ => ()) <$> g.openShare k shared size) w)
    rw [openShare]
    by_cases hshared : shared ≥ nameLimit
    · rw [if_pos hshared]
      exact .refused (by simp [Operation.touches, Operation.refused?, hshared])
        (by simp [Operation.refused?, hshared])
    · rw [if_neg hshared]
      exact .making (by simp [Operation.touches, Operation.refused?, hshared]) rfl rfl rfl
        (g.attach_calling k shared)
  | share i => exact .idle rfl
  | upload i data =>
    show Performing g k _ w (g.upload k i data w)
    rw [upload]
    by_cases hlength : data.length ≠ i.size.byteCount
    · rw [if_pos hlength]
      exact .refused (by simp [Operation.touches, Operation.refused?, hlength])
        (by simp [Operation.refused?, hlength])
    · rw [if_neg hlength]
      exact .checking (by simp [Operation.touches, Operation.refused?, hlength]) rfl rfl
        (by simp [Call.matter])
  | stage i staging region => exact .checking rfl rfl rfl (by simp [Call.matter])
  | blockOn staging => exact .checking rfl rfl rfl (by simp [Call.matter])
  | freeTexture i => exact .working rfl rfl (g.deleteImage_image k i)
  | freeStaging i => exact .working rfl rfl (g.deleteImage_image k i)
  | newMarker => exact .idle rfl
  | record m => exact g.record_performing k m w
  | poll m => exact g.poll_performing k m w
  | freeMarker m => exact .working rfl rfl (g.deleteFence_calling k m)

/-! ### One operation after the other -/

/-- Performs operations on any contexts, whatever each of them comes to. -/
def run (w : World κ σ) (ops : List (κ × Operation)) : World κ σ :=
  ops.foldl (fun w x => Attempt.leaves (g.perform x.1 x.2 w)) w

theorem run_snoc (w : World κ σ) (ops : List (κ × Operation)) (x : κ × Operation) :
    g.run w (ops ++ [x]) = Attempt.leaves (g.perform x.1 x.2 (g.run w ops)) :=
  List.foldl_append

/-- An operation leaves its context alone, or enters it and makes its calls there. -/
theorem perform_leaves (op : Operation) (w : World κ σ) :
    (op.touches = false ∧ Attempt.leaves (g.perform k op w) = w) ∨
      (op.touches = true ∧ ∃ w₁, g.enter k w = .ok () w₁ ∧
        g.Calling k (fun c => c.matter = op.matter ∨ c.matter = .error) w₁
          (Attempt.leaves (g.perform k op w))) := by
  have hown {w₁ w₂ : World κ σ} (h : g.Calling k (·.matter = op.matter) w₁ w₂) :
      g.Calling k (fun c => c.matter = op.matter ∨ c.matter = .error) w₁ w₂ :=
    h.imp fun _ => Or.inl
  have hperforming := g.performing k op w
  generalize g.perform k op w = result at hperforming ⊢
  cases hperforming with
  | idle hout => exact .inl ⟨hout, rfl⟩
  | refused hout => exact .inl ⟨hout, rfl⟩
  | unchecked hin _ henter hcalling => exact .inr ⟨hin, _, henter, hown hcalling⟩
  | unclear hpoll henter hwait => exact .inr ⟨hpoll ▸ rfl, _, henter, .single (.inl (hpoll ▸ rfl)) hwait⟩
  | unfenced hrecord henter hcalling hnull =>
    subst hrecord
    exact .inr ⟨rfl, _, henter, (hown hcalling).trans (.single (.inl rfl) hnull)⟩
  | passed hin _ henter hcalling hclear =>
    exact .inr ⟨hin, _, henter, (hown hcalling).trans (.single (.inr rfl) hclear)⟩
  | failed hin hchecks henter hcalling hraised _ hundone =>
    have himage : op.matter = .image := Operation.matter_of_checks hchecks
    have hundoing := hown (hundone.imp fun c hc => (Call.matter_of_deletes hc).trans himage.symm)
    exact .inr ⟨hin, _, henter,
      ((hown hcalling).trans (.single (.inr rfl) hraised)).trans hundoing⟩

end Group
end SurfaceRelay.Gl
