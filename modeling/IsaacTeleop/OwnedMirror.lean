/-
The desktop mirror's mailbox and the GPU images it owns.

The render thread runs `on_outputs`, `set_products`, `reset`, `finish_frame` and at last `close`;
the UI thread views, acquires, releases and selects.  Every step below is one section under the
mailbox's lock, or one GPU call that the render thread makes between two of them.

The mapper is a parameter.  All that the mailbox relies on is that a mapper hands over an image
that is not open already; the pool of CUDA allocations the mirror uses is such a mapper.

* `OwnedCudaImagePool.gpuMapper` — the pool as a mapper;
* `step`, `run` — the interleavings of the two threads, with every outcome of the GPU calls;
* `Mirror.Inv` — the invariant: what is mapped is what is open, and nothing retired is in reach of
  the UI;
* `mirror_ownership` — what holds along every run.
-/
import Mathlib

namespace OwnedMirror

def maxMirrorImageBytes : ℤ := 64 * 1024 * 1024

/-! ### Mappers -/

/-- What a call of the mapper comes to.  Images are objects, known by their identity. -/
inductive MapResult
  /-- The Vulkan provider is not ready yet. -/
  | notReady
  | image (gpu : ℕ) (width height : ℤ)
  | raised (error : String)
  /-- `OutputMapCleanupError`, with the map that the caller has to retain. -/
  | cleanupError (gpu : ℕ) (error : String)
  deriving DecidableEq, Repr

/-- The image a call hands to its caller, to be closed by it. -/
def MapResult.handed : MapResult → Option ℕ
  | .image gpu _ _ | .cleanupError gpu _ => some gpu
  | .notReady | .raised _ => none

/-- A GPU mapper.  `Calls` says how the native calls turn out that one call of it makes; `closed`
is the flag of the images, and `created` bounds the objects there are. -/
structure GpuMapper where
  State : Type
  Calls : Type
  new : State
  enable : State → State
  call : State → (closed : ℕ → Bool) → (created : ℕ) → Calls → State × MapResult
  finishFrame : State → Option String
  close : State → (closed : ℕ → Bool) → Calls → State × Option String
  /-- An image that is handed over is a new one, or was closed before. -/
  hands_closed : ∀ s closed created calls gpu,
    (call s closed created calls).2.handed = some gpu → gpu < created → closed gpu = true

/-! ### The pool -/

structure OwnedGpuImage where
  object : ℕ
  width : ℤ
  height : ℤ
  pitch : ℤ
  device : ℕ
  deriving DecidableEq, Repr

/-- What `map_cuda_array_rgba` comes to. -/
inductive SourceMap
  | raised (error : String)
  | cleanupError (cause cleanup : String)
  | mapped (width height : ℤ) (device : ℕ)
  deriving DecidableEq, Repr

/-- How the native calls of one call of the pool turn out, `some` being the error raised. -/
structure CudaCalls where
  sourceMap : SourceMap
  setImageDevice : Option String
  free : Option String
  setDevice : Option String
  mallocPitch : Except String ℤ
  memcpy : Option String
  resetDevice : Option String
  synchronize : Option String
  unmap : Option String
  /-- For the images that `close` frees, in order. -/
  frees : List (Option String)
  deriving Repr

structure OwnedCudaImagePool where
  images : List OwnedGpuImage
  source : Option ℕ
  ready : Bool
  deriving DecidableEq, Repr

namespace OwnedCudaImagePool

def finishFrame (pool : OwnedCudaImagePool) : Option String :=
  match pool.source with
  | some _ => some "mirror still holds a borrowed frame output; retain its owner"
  | none => none

/-- The first closed image, if it has the size and the device of the source.  One that has not is
freed and forgotten. -/
def reuse (images : List OwnedGpuImage) (closed : ℕ → Bool) (width height : ℤ) (device : ℕ)
    (calls : CudaCalls) : List OwnedGpuImage × Except String (Option OwnedGpuImage) :=
  match images.find? (fun item => closed item.object) with
  | none => (images, .ok none)
  | some image =>
    if (image.width, image.height, image.device) ≠ (width, height, device) then
      match calls.setImageDevice <|> calls.free with
      | some error => (images, .error error)
      | none => (images.erase image, .ok none)
    else (images, .ok (some image))

/-- The image to copy into: a reused one, or a new allocation while there are fewer than two. -/
def destination (images : List OwnedGpuImage) (closed : ℕ → Bool) (created : ℕ)
    (width height : ℤ) (device : ℕ) (calls : CudaCalls) :
    List OwnedGpuImage × Except String OwnedGpuImage :=
  match reuse images closed width height device calls with
  | (images, .error error) => (images, .error error)
  | (images, .ok reused) =>
    match calls.setDevice with
    | some error => (images, .error error)
    | none =>
      match reused with
      | some image => (images, .ok image)
      | none =>
        if 2 ≤ images.length then (images, .error "both owned mirror images are in use")
        else
          match calls.mallocPitch with
          | .error error => (images, .error error)
          | .ok pitch =>
            -- The source map is the object before it.
            let image : OwnedGpuImage := ⟨created + 1, width, height, pitch, device⟩
            (images ++ [image], .ok image)

/-- The body of the `try`: the images, whether the source was left busy, and the image copied. -/
def copy (images : List OwnedGpuImage) (closed : ℕ → Bool) (created : ℕ) (width height : ℤ)
    (device : ℕ) (calls : CudaCalls) : List OwnedGpuImage × Bool × Except String OwnedGpuImage :=
  match destination images closed created width height device calls with
  | (images, .error error) => (images, false, .error error)
  | (images, .ok image) =>
    if maxMirrorImageBytes < image.pitch * image.height then
      (images, false, .error "owned mirror allocation exceeds the byte bound")
    else
      match calls.memcpy with
      | some error => (images, true, .error error)
      | none => (images, true, .ok image)

/-- The `finally` part: the error it raises. -/
def unmapSource (busy : Bool) (calls : CudaCalls) : Option String :=
  calls.resetDevice <|> (if busy then calls.synchronize else none) <|> calls.unmap

/-- `__call__`. -/
def call (pool : OwnedCudaImagePool) (closed : ℕ → Bool) (created : ℕ) (calls : CudaCalls) :
    OwnedCudaImagePool × MapResult :=
  if pool.ready = false then (pool, .notReady)
  else
    match pool.finishFrame with
    | some error => (pool, .raised error)
    | none =>
      match calls.sourceMap with
      | .raised error => (pool, .raised error)
      | .cleanupError cause cleanup =>
        ({ pool with source := some created },
          .cleanupError created ("Output map failed: " ++ cause ++ "; cleanup failed: " ++ cleanup))
      | .mapped width height device =>
        match copy pool.images closed created width height device calls with
        | (images, busy, copied) =>
          match unmapSource busy calls, copied with
          | some error, _ => ({ pool with images := images, source := some created }, .raised error)
          | none, .error error => ({ pool with images := images, source := none }, .raised error)
          | none, .ok image =>
            ({ pool with images := images, source := none },
              .image image.object image.width image.height)

/-- The loop of `close` over the images. -/
def freeImages (closed : ℕ → Bool) :
    List OwnedGpuImage → List (Option String) → List OwnedGpuImage × Option String
  | [], _ => ([], none)
  | image :: images, frees =>
    if closed image.object = false then
      (image :: images, some "owned mirror image still has a consumer")
    else
      match frees.headD none with
      | some error => (image :: images, some error)
      | none => freeImages closed images frees.tail

def close (pool : OwnedCudaImagePool) (closed : ℕ → Bool) (calls : CudaCalls) :
    OwnedCudaImagePool × Option String :=
  match pool.finishFrame with
  | some error => (pool, some error)
  | none =>
    match freeImages closed pool.images calls.frees with
    | (images, error) => ({ pool with images := images }, error)

theorem reuse_closed {images : List OwnedGpuImage} {closed : ℕ → Bool} {width height : ℤ}
    {device : ℕ} {calls : CudaCalls} {image : OwnedGpuImage}
    (h : (reuse images closed width height device calls).2 = .ok (some image)) :
    closed image.object = true := by
  unfold reuse at h
  split at h
  · simp at h
  · rename_i found hfound
    have hclosed := List.find?_some hfound
    split at h
    · split at h <;> simp at h
    · obtain rfl : found = image := by simpa using h
      exact hclosed

theorem destination_closed {images : List OwnedGpuImage} {closed : ℕ → Bool} {created : ℕ}
    {width height : ℤ} {device : ℕ} {calls : CudaCalls} {image : OwnedGpuImage}
    (h : (destination images closed created width height device calls).2 = .ok image) :
    closed image.object = true ∨ image.object = created + 1 := by
  unfold destination at h
  split at h
  · simp at h
  · rename_i left reused hreuse
    split at h
    · simp at h
    · cases reused with
      | some found =>
        obtain rfl : found = image := by simpa using h
        exact .inl (reuse_closed (congrArg Prod.snd hreuse))
      | none =>
        simp only at h
        split at h
        · simp at h
        · split at h
          · simp at h
          · obtain rfl := Except.ok.inj h
            exact .inr rfl

theorem copy_closed {images : List OwnedGpuImage} {closed : ℕ → Bool} {created : ℕ}
    {width height : ℤ} {device : ℕ} {calls : CudaCalls} {image : OwnedGpuImage}
    (h : (copy images closed created width height device calls).2.2 = .ok image) :
    closed image.object = true ∨ image.object = created + 1 := by
  unfold copy at h
  split at h
  · simp at h
  · rename_i left found hdestination
    have hfound := destination_closed (congrArg Prod.snd hdestination)
    split at h
    · simp at h
    · split at h
      · simp at h
      · obtain rfl : found = image := by simpa using h
        exact hfound

/-- **The pool leases only images that are closed**: it allocates, or it takes one it got back. -/
theorem call_hands_closed (pool : OwnedCudaImagePool) (closed : ℕ → Bool) (created : ℕ)
    (calls : CudaCalls) (gpu : ℕ) (h : (pool.call closed created calls).2.handed = some gpu)
    (hgpu : gpu < created) : closed gpu = true := by
  unfold call at h
  split at h
  · simp [MapResult.handed] at h
  · split at h
    · simp [MapResult.handed] at h
    · split at h
      · simp [MapResult.handed] at h
      · -- The source whose cleanup failed is a new object.
        simp only [MapResult.handed, Option.some.injEq] at h
        omega
      · rename_i width height device _
        split at h
        rename_i left busy copied hcopy
        split at h
        · simp [MapResult.handed] at h
        · simp [MapResult.handed] at h
        · rename_i image _
          obtain rfl : image.object = gpu := by simpa [MapResult.handed] using h
          have hcopied := copy_closed (congrArg (fun r => r.2.2) hcopy)
          rcases hcopied with hclosed | hnew
          · exact hclosed
          · omega

/-- The pool, as the mirror passes it to its mailbox. -/
def gpuMapper : GpuMapper where
  State := OwnedCudaImagePool
  Calls := CudaCalls
  new := ⟨[], none, false⟩
  enable pool := { pool with ready := true }
  call := call
  finishFrame := finishFrame
  close := close
  hands_closed := call_hands_closed

end OwnedCudaImagePool

/-! ### The mailbox -/

structure MirrorProduct where
  path : String
  label : String
  generation : ℤ
  deriving DecidableEq, Repr

/-- A published frame.  The mailbox has a mapper, so every frame has a GPU image. -/
structure OwnedMirrorFrame where
  sequence : ℕ
  width : ℤ
  height : ℤ
  predictedDisplayTimeNs : ℤ
  product : Option MirrorProduct
  selectionRevision : ℕ
  gpu : ℕ
  deriving DecidableEq, Repr

/-- What a mailbox is made with, and what it uses of Python's floats: the equality of two sensor
times, and `int(sensor_time * 1e9)`, which raises for those that are not finite. -/
structure Config where
  Time : Type
  sameTime : Time → Time → Bool
  toNs : Time → Except String ℤ
  periodNs : ℤ
  mapper : GpuMapper

variable (config : Config)

/-- The output handle and the sensor time of a picture. -/
abbrev Key := ℕ × config.Time

/-- What `on_outputs` read when it was called. -/
structure Call where
  now : ℤ
  product : Option MirrorProduct
  revision : ℕ
  previousKey : Option (Key config)

/-- Who called `_drain_gpu`. -/
inductive Caller
  | onOutputs (call : Call config)
  /-- The second call of `on_outputs`, with `replace_latest`. -/
  | replacing (call : Call config) (key : Key config)
  | close

/-- Where the render thread stands. -/
inductive Render
  | idle
  /-- About to take the lock in `_drain_gpu`. -/
  | draining (caller : Caller config)
  /-- Closing the retired images, outside the lock. -/
  | retiring (caller : Caller config) (retired : List ℕ)
  | looking (call : Call config)
  | mapping (call : Call config) (key : Key config)
  | publishing (call : Call config) (key : Key config) (width height : ℤ) (gpu : ℕ)
  /-- In the exception handler, about to take the lock. -/
  | failing (call : Call config) (error : String)
  | closingMapper

/-- What can be seen of a run. -/
inductive Label
  | mapped (gpu : ℕ)
  /-- A `close` of an image that did not raise. -/
  | closed (gpu : ℕ)
  | published (frame : OwnedMirrorFrame)
  /-- `close()` of the mailbox returned. -/
  | returned
  deriving DecidableEq, Repr

structure Mirror where
  products : List MirrorProduct
  selected : Option MirrorProduct
  revision : ℕ
  sequence : ℕ
  latest : Option OwnedMirrorFrame
  inUse : Option OwnedMirrorFrame
  sourceKey : Option (Key config)
  nextNs : ℤ
  gpuError : Option String
  error : Option String
  mapped : List ℕ
  mapper : config.mapper.State
  render : Render config
  /-- What the UI acquired and has not released. -/
  held : Option OwnedMirrorFrame
  /-- The images whose `closed` is false. -/
  opened : List ℕ
  /-- Every object there is has a smaller identity. -/
  created : ℕ
  trace : List Label

variable {config}

namespace Mirror

/-- A mailbox as constructed. -/
def init (config : Config) : Mirror config where
  products := []
  selected := none
  revision := 0
  sequence := 0
  latest := none
  inUse := none
  sourceKey := none
  nextNs := 0
  gpuError := none
  error := none
  mapped := []
  mapper := config.mapper.new
  render := .idle
  held := none
  opened := []
  created := 0
  trace := []

def closed (s : Mirror config) (gpu : ℕ) : Bool := gpu ∉ s.opened

/-- `(product, revision) == (self._selected, self._revision)`. -/
def current (s : Mirror config) (call : Call config) : Bool :=
  call.product = s.selected ∧ call.revision = s.revision

def invalidate (s : Mirror config) : Mirror config :=
  { s with
    revision := s.revision + 1
    latest := none
    sourceKey := none
    nextNs := 0
    error := none }

/-- The check of `set_products`: paths are absolute and unique, labels are not empty. -/
def validProducts (products : List MirrorProduct) : Bool :=
  (products.map MirrorProduct.path).Nodup ∧
    ∀ p ∈ products, "/".isPrefixOf p.path = true ∧ p.label ≠ ""

/-- The product that stays selected: the one with the same path, or else the first. -/
def reselect (selected : Option MirrorProduct) (products : List MirrorProduct) :
    Option MirrorProduct :=
  products.find? (fun p => selected.any fun q => p.path = q.path) <|> products.head?

def setProducts (products : List MirrorProduct) (s : Mirror config) : Mirror config :=
  if validProducts products = false then s
  else if products = s.products then s
  else if s.selected ∈ products.map some then { s with products := products }
  else invalidate { s with products := products, selected := reselect s.selected products }

def select (product : MirrorProduct) (s : Mirror config) : Mirror config :=
  if product ∉ s.products then s
  else if some product ≠ s.selected then invalidate { s with selected := some product }
  else s

/-- `acquire`; it raises while another frame is in use. -/
def acquire (afterSequence : ℕ) (s : Mirror config) : Mirror config :=
  match s.latest with
  | none => s
  | some image =>
    if image.sequence ≤ afterSequence then s
    else
      match s.inUse with
      | some _ => s
      | none => { s with inUse := some image, held := some image }

/-- `release` of the frame the UI acquired.  It would raise for another one. -/
def release (image : OwnedMirrorFrame) (s : Mirror config) : Mirror config :=
  if s.inUse ≠ some image then s
  else { s with inUse := none, held := none }

/-- The images of the frames `_drain_gpu` keeps. -/
def keep (s : Mirror config) : List ℕ :=
  (s.latest.toList ++ s.inUse.toList).map OwnedMirrorFrame.gpu

/-- Frames are compared by identity; two of them never have the same sequence. -/
def replaceLatest (s : Mirror config) : Mirror config :=
  if s.latest ≠ s.inUse then { s with latest := none } else s

/-- The locked section of `_drain_gpu`. -/
def lockDrain (caller : Caller config) (s : Mirror config) : Mirror config :=
  let s := match caller with
    | .replacing _ _ => s.replaceLatest
    | .onOutputs _ | .close => s
  { s with render := .retiring caller (s.mapped.filter fun m => m ∉ s.keep) }

/-- What a `close` that raises in `_drain_gpu` leads to. -/
def drainRaised (caller : Caller config) (error : String) : Render config :=
  match caller with
  | .onOutputs call | .replacing call _ => .failing call error
  | .close => .idle

/-- An image was closed, and is removed from `_mapped`. -/
def forget (gpu : ℕ) (s : Mirror config) : Mirror config :=
  { s with
    mapped := s.mapped.filter (· ≠ gpu)
    opened := s.opened.filter (· ≠ gpu)
    trace := s.trace ++ [.closed gpu] }

/-- One round of the loop of `_drain_gpu`. -/
def closeImage (caller : Caller config) (gpu : ℕ) (retired : List ℕ) (failure : Option String)
    (s : Mirror config) : Mirror config :=
  match failure with
  | some error => { s with gpuError := some error, render := drainRaised caller error }
  | none => { s.forget gpu with render := .retiring caller retired }

/-- What follows `_drain_gpu`. -/
def drained (caller : Caller config) (s : Mirror config) : Mirror config :=
  match caller with
  | .onOutputs call => { s with render := .looking call }
  | .replacing call key => { s with render := .mapping call key }
  | .close => { s with render := .closingMapper }

/-- The start of `on_outputs`. -/
def beginOutputs (now : ℤ) (s : Mirror config) : Mirror config :=
  let call : Call config := ⟨now, s.selected, s.revision, s.sourceKey⟩
  match s.gpuError with
  | some error => { s with render := .failing call error }
  | none => { s with render := .draining (.onOutputs call) }

def sameKey (key : Key config) (previous : Option (Key config)) : Bool :=
  previous.any fun previous => key.1 = previous.1 && config.sameTime key.2 previous.2

/-- From the pacing test to the comparison of the keys, `result` being what `latest_color` gives
or raises. -/
def look (call : Call config) (result : Except String (Option (Key config)))
    (s : Mirror config) : Mirror config :=
  if call.product = none ∨ call.now < s.nextNs then { s with render := .idle }
  else
    match result with
    | .error error => { s with render := .failing call error }
    | .ok none => { s with render := .idle }
    | .ok (some key) =>
      if sameKey key call.previousKey then { s with render := .idle }
      else { s with render := .draining (.replacing call key) }

/-- An image was handed over: it is open from now on, and in `_mapped`. -/
def retain (gpu : ℕ) (s : Mirror config) : Mirror config :=
  { s with
    mapped := s.mapped ++ [gpu]
    opened := s.opened ++ [gpu]
    created := max s.created (gpu + 1)
    trace := s.trace ++ [.mapped gpu] }

/-- `map_gpu`, and the test of the size. -/
def map (call : Call config) (key : Key config) (calls : config.mapper.Calls)
    (s : Mirror config) : Mirror config :=
  if 2 ≤ s.mapped.length then { s with render := .idle }
  else
    match config.mapper.call s.mapper s.closed s.created calls with
    | (mapper, .notReady) => { s with mapper := mapper, render := .idle }
    | (mapper, .raised error) => { s with mapper := mapper, render := .failing call error }
    | (mapper, .cleanupError gpu error) =>
      { retain gpu { s with mapper := mapper } with
        gpuError := some error
        render := .failing call error }
    | (mapper, .image gpu width height) =>
      { retain gpu { s with mapper := mapper } with
        render :=
          if width ≤ 0 ∨ height ≤ 0 then
            .failing call "mirror output is not bounded contiguous RGBA8"
          else .publishing call key width height gpu }

/-- The locked section that publishes.  The sequence is counted before the time is converted. -/
def publish (call : Call config) (key : Key config) (width height : ℤ) (gpu : ℕ)
    (s : Mirror config) : Mirror config :=
  if s.current call = false then { s with render := .idle }
  else
    let s := { s with sequence := s.sequence + 1 }
    match config.toNs key.2 with
    | .error error => { s with render := .failing call error }
    | .ok ns =>
      let frame : OwnedMirrorFrame :=
        ⟨s.sequence, width, height, ns, call.product, call.revision, gpu⟩
      { s with
        latest := some frame
        sourceKey := some key
        nextNs := call.now + config.periodNs
        error := none
        trace := s.trace ++ [.published frame]
        render := .idle }

/-- The locked section of the exception handler. -/
def fail (call : Call config) (error : String) (s : Mirror config) : Mirror config :=
  if s.current call then
    { s with latest := none, sourceKey := none, error := some error, render := .idle }
  else { s with render := .idle }

/-- The locked section of `close`, which raises while a frame is in use. -/
def beginClose (s : Mirror config) : Mirror config :=
  if s.inUse.isSome then s
  else { s.invalidate with render := .draining .close }

/-- The mapper's `close`, the last call of the mailbox's. -/
def closeMapper (calls : config.mapper.Calls) (s : Mirror config) : Mirror config :=
  match config.mapper.close s.mapper s.closed calls with
  | (mapper, some _) => { s with mapper := mapper, render := .idle }
  | (mapper, none) =>
    { s with mapper := mapper, render := .idle, trace := s.trace ++ [.returned] }

end Mirror

/-! ### The threads -/

/-- What the UI thread does. -/
inductive UiCall
  | view
  | acquire (afterSequence : ℕ)
  | release
  | select (product : MirrorProduct)
  | reportError (error : String)
  | enableGpuCapture
  deriving DecidableEq, Repr

/-- What the render thread calls. -/
inductive RenderCall
  | setProducts (products : List MirrorProduct)
  | reset
  | finishFrame
  | onOutputs (now : ℤ)
  | close
  deriving DecidableEq, Repr

variable (config) in
/-- What the render thread's next step meets: the outcome of the call it makes. -/
inductive Outcome
  /-- A locked section, or the way from one call to the next. -/
  | noCall
  | imageClosed (failure : Option String)
  | color (result : Except String (Option (Key config)))
  | native (calls : config.mapper.Calls)

variable (config) in
inductive Event
  | ui (call : UiCall)
  | render (call : RenderCall)
  | goOn (outcome : Outcome config)

namespace Mirror

def uiStep (s : Mirror config) : UiCall → Mirror config
  | .view => s
  | .acquire afterSequence => s.acquire afterSequence
  | .release =>
    match s.held with
    | none => s
    | some image => s.release image
  | .select product => s.select product
  | .reportError error => { s with error := some error }
  | .enableGpuCapture => { s with mapper := config.mapper.enable s.mapper }

def renderStep (s : Mirror config) : RenderCall → Mirror config
  | .setProducts products => s.setProducts products
  | .reset => s.invalidate
  -- It asks the mapper, and raises or not; nothing changes.
  | .finishFrame => s
  | .onOutputs now => s.beginOutputs now
  | .close => s.beginClose

/-- The next step of the call the render thread is in. -/
def goOn (s : Mirror config) (outcome : Outcome config) : Option (Mirror config) :=
  match s.render, outcome with
  | .draining caller, .noCall => some (s.lockDrain caller)
  | .retiring caller (gpu :: retired), .imageClosed failure =>
    some (s.closeImage caller gpu retired failure)
  | .retiring caller [], .noCall => some (s.drained caller)
  | .looking call, .color result => some (s.look call result)
  | .mapping call key, .native calls => some (s.map call key calls)
  | .publishing call key width height gpu, .noCall =>
    some (s.publish call key width height gpu)
  | .failing call error, .noCall => some (s.fail call error)
  | .closingMapper, .native calls => some (s.closeMapper calls)
  | _, _ => none

def step (s : Mirror config) : Event config → Option (Mirror config)
  | .ui call => some (s.uiStep call)
  | .render call =>
    match s.render with
    | .idle => some (s.renderStep call)
    | _ => none
  | .goOn outcome => s.goOn outcome

def run (s : Mirror config) : List (Event config) → Option (Mirror config)
  | [] => some s
  | event :: events => (s.step event).bind fun s' => s'.run events

/-! ### The invariant -/

/-- The sequence number a label publishes. -/
def sequence? : Label → Option ℕ
  | .published frame => some frame.sequence
  | .mapped _ | .closed _ | .returned => none

theorem sequences_singleton (label : Label) :
    [label].filterMap sequence? = (sequence? label).toList := by
  cases label <;> rfl

/-- What the images, the frames and the trace of a mailbox have in common. -/
structure Owned (s : Mirror config) : Prop where
  opened_eq : s.opened = s.mapped
  nodup : s.mapped.Nodup
  length_le : s.mapped.length ≤ 2
  lt_created : ∀ gpu ∈ s.mapped, gpu < s.created
  keep_mapped : s.keep ⊆ s.mapped
  held_eq : s.held = s.inUse
  counts : ∀ gpu,
    s.trace.count (.mapped gpu) = s.trace.count (.closed gpu) + s.opened.count gpu
  increasing : (s.trace.filterMap sequence?).Pairwise (· < ·)
  sequence_le : ∀ n ∈ s.trace.filterMap sequence?, n ≤ s.sequence

/-- What the render thread may rely on at a place, `keep` being the images the UI can reach. -/
def RenderOk (mapped keep : List ℕ) : Render config → Prop
  | .draining .close => keep = []
  | .retiring caller retired =>
    retired.Nodup ∧ (∀ gpu ∈ retired, gpu ∈ mapped ∧ gpu ∉ keep) ∧
      (caller = .close → keep = [] ∧ mapped ⊆ retired)
  | .publishing _ _ _ _ gpu => gpu ∈ mapped
  | .closingMapper => mapped = []
  | _ => True

structure Inv (s : Mirror config) : Prop extends Owned s where
  render_ok : RenderOk s.mapped s.keep s.render

theorem mem_keep {s : Mirror config} {gpu : ℕ} :
    gpu ∈ s.keep ↔ (∃ frame, s.latest = some frame ∧ frame.gpu = gpu) ∨
      ∃ frame, s.inUse = some frame ∧ frame.gpu = gpu := by
  simp [keep]

theorem inv_init (config : Config) : (init config).Inv where
  opened_eq := rfl
  nodup := List.nodup_nil
  length_le := Nat.zero_le 2
  lt_created := by simp [init]
  keep_mapped := by simp [init, keep]
  held_eq := rfl
  counts := by simp [init]
  increasing := List.Pairwise.nil
  sequence_le := by simp [init]
  render_ok := trivial

/-- The UI reaching less of the images costs the render thread nothing. -/
theorem RenderOk.mono {mapped kept kept' : List ℕ} {render : Render config}
    (h : RenderOk mapped kept render) (hkept : kept' ⊆ kept) : RenderOk mapped kept' render := by
  cases render with
  | draining caller =>
    cases caller with
    | close =>
      have hnil : kept = [] := h
      rw [hnil] at hkept
      exact List.subset_nil.mp hkept
    | onOutputs call => trivial
    | replacing call key => trivial
  | retiring caller retired =>
    obtain ⟨hnodup, hretired, hclose⟩ := h
    refine ⟨hnodup, fun gpu hgpu => ⟨(hretired gpu hgpu).1, fun hk => ?_⟩, fun hcaller => ?_⟩
    · exact (hretired gpu hgpu).2 (hkept hk)
    · obtain ⟨hnil, hall⟩ := hclose hcaller
      rw [hnil] at hkept
      exact ⟨List.subset_nil.mp hkept, hall⟩
  | publishing call key width height gpu => exact h
  | closingMapper => exact h
  | idle | looking call | mapping call key | failing call error => trivial

/-- A step that maps, closes and publishes nothing keeps what is owned, if the UI can reach no
more than before. -/
theorem Owned.of_keep {s s' : Mirror config} (h : s.Owned) (hmapped : s'.mapped = s.mapped)
    (hopened : s'.opened = s.opened) (hcreated : s'.created = s.created)
    (htrace : s'.trace = s.trace) (hsequence : s.sequence ≤ s'.sequence)
    (hheld : s'.held = s'.inUse) (hkeep : s'.keep ⊆ s.keep) : s'.Owned where
  opened_eq := by rw [hopened, hmapped, h.opened_eq]
  nodup := by rw [hmapped]; exact h.nodup
  length_le := by rw [hmapped]; exact h.length_le
  lt_created := by rw [hmapped, hcreated]; exact h.lt_created
  keep_mapped := by rw [hmapped]; exact List.Subset.trans hkeep h.keep_mapped
  held_eq := hheld
  counts := by rw [htrace, hopened]; exact h.counts
  increasing := by rw [htrace]; exact h.increasing
  sequence_le := by
    rw [htrace]
    exact fun n hn => (h.sequence_le n hn).trans hsequence

/-! ### The UI thread -/

/-- A step that leaves the images and the render thread alone. -/
structure Reaches (s s' : Mirror config) : Prop where
  mapped : s'.mapped = s.mapped
  opened : s'.opened = s.opened
  created : s'.created = s.created
  trace : s'.trace = s.trace
  sequence : s'.sequence = s.sequence
  render : s'.render = s.render
  held : s.held = s.inUse → s'.held = s'.inUse
  keep : s'.keep ⊆ s.keep

theorem Reaches.refl (s : Mirror config) : s.Reaches s :=
  ⟨rfl, rfl, rfl, rfl, rfl, rfl, fun h => h, List.Subset.refl _⟩

theorem Inv.reaches {s s' : Mirror config} (h : s.Inv) (hs : s.Reaches s') : s'.Inv where
  toOwned := h.toOwned.of_keep hs.mapped hs.opened hs.created hs.trace hs.sequence.ge
    (hs.held h.held_eq) hs.keep
  render_ok := by
    rw [hs.mapped, hs.render]
    exact h.render_ok.mono hs.keep

/-- Dropping the latest frame leaves the one in use. -/
theorem keep_subset_of_latest_none {s s' : Mirror config} (hlatest : s'.latest = none)
    (hinUse : s'.inUse = s.inUse) : s'.keep ⊆ s.keep := by
  intro gpu hgpu
  rw [mem_keep, hlatest, hinUse] at hgpu
  rw [mem_keep]
  exact .inr (hgpu.resolve_left (by simp))

theorem reaches_invalidate (s : Mirror config) : s.Reaches s.invalidate :=
  ⟨rfl, rfl, rfl, rfl, rfl, rfl, fun h => h, keep_subset_of_latest_none rfl rfl⟩

theorem reaches_setProducts (products : List MirrorProduct) (s : Mirror config) :
    s.Reaches (s.setProducts products) := by
  unfold setProducts
  split
  · exact Reaches.refl s
  · split
    · exact Reaches.refl s
    · split
      · exact ⟨rfl, rfl, rfl, rfl, rfl, rfl, fun h => h, List.Subset.refl _⟩
      · exact ⟨rfl, rfl, rfl, rfl, rfl, rfl, fun h => h, keep_subset_of_latest_none rfl rfl⟩

theorem reaches_select (product : MirrorProduct) (s : Mirror config) :
    s.Reaches (s.select product) := by
  unfold select
  split
  · exact Reaches.refl s
  · split
    · exact ⟨rfl, rfl, rfl, rfl, rfl, rfl, fun h => h, keep_subset_of_latest_none rfl rfl⟩
    · exact Reaches.refl s

/-- The UI acquires what it could reach already. -/
theorem reaches_acquire (afterSequence : ℕ) (s : Mirror config) :
    s.Reaches (s.acquire afterSequence) := by
  unfold acquire
  split
  · exact Reaches.refl s
  · rename_i image hlatest
    split
    · exact Reaches.refl s
    · split
      · exact Reaches.refl s
      · refine ⟨rfl, rfl, rfl, rfl, rfl, rfl, fun _ => rfl, ?_⟩
        intro gpu hgpu
        rw [mem_keep] at hgpu ⊢
        refine .inl ?_
        rcases hgpu with hgpu | ⟨frame, hframe, rfl⟩
        · exact hgpu
        · exact ⟨frame, hlatest.trans hframe, rfl⟩

theorem reaches_release (image : OwnedMirrorFrame) (s : Mirror config) :
    s.Reaches (s.release image) := by
  unfold release
  split
  · exact Reaches.refl s
  · refine ⟨rfl, rfl, rfl, rfl, rfl, rfl, fun _ => rfl, ?_⟩
    intro gpu hgpu
    rw [mem_keep] at hgpu ⊢
    exact .inl (hgpu.resolve_right (by simp))

theorem reaches_uiStep (s : Mirror config) (call : UiCall) : s.Reaches (s.uiStep call) := by
  cases call with
  | view => exact Reaches.refl s
  | acquire afterSequence => exact reaches_acquire afterSequence s
  | release =>
    unfold uiStep
    cases s.held with
    | none => exact Reaches.refl s
    | some image => exact reaches_release image s
  | select product => exact reaches_select product s
  | reportError error =>
    exact ⟨rfl, rfl, rfl, rfl, rfl, rfl, fun h => h, List.Subset.refl _⟩
  | enableGpuCapture =>
    exact ⟨rfl, rfl, rfl, rfl, rfl, rfl, fun h => h, List.Subset.refl _⟩

/-! ### The render thread -/

/-- What holds when a label is added to the trace. -/
def Explained (s : Mirror config) : Label → Prop
  | .mapped gpu => gpu ∉ s.opened
  | .closed gpu => gpu ∈ s.opened ∧ gpu ∉ s.keep
  | .published frame => frame.product = s.selected ∧ frame.selectionRevision = s.revision
  | .returned => s.opened = []

/-- A step keeps the invariant, and it explains what it adds to the trace. -/
structure Keeps (s s' : Mirror config) : Prop where
  inv : s'.Inv
  trace : s'.trace = s.trace ∨ ∃ label, s'.trace = s.trace ++ [label] ∧ s.Explained label

theorem Inv.keeps_reaches {s s' : Mirror config} (h : s.Inv) (hs : s.Reaches s') : s.Keeps s' :=
  ⟨h.reaches hs, .inl hs.trace⟩

theorem Owned.at {s : Mirror config} (h : s.Owned) {render : Render config}
    (hrender : RenderOk s.mapped s.keep render) : ({ s with render := render }).Inv where
  toOwned := h.of_keep rfl rfl rfl rfl le_rfl h.held_eq (List.Subset.refl _)
  render_ok := hrender

/-- Moving on, when the images are left alone. -/
theorem Owned.keeps {s : Mirror config} (h : s.Owned) {render : Render config}
    (hrender : RenderOk s.mapped s.keep render) : s.Keeps { s with render := render } :=
  ⟨h.at hrender, .inl rfl⟩

theorem reaches_replaceLatest (s : Mirror config) : s.Reaches s.replaceLatest := by
  unfold replaceLatest
  split
  · exact ⟨rfl, rfl, rfl, rfl, rfl, rfl, fun h => h, keep_subset_of_latest_none rfl rfl⟩
  · exact Reaches.refl s

/-- What `_drain_gpu` retires is mapped, and out of the UI's reach. -/
theorem Owned.retiring {s : Mirror config} (h : s.Owned) {caller : Caller config}
    (hclose : caller = .close → s.keep = []) :
    RenderOk s.mapped s.keep (.retiring caller (s.mapped.filter fun m => m ∉ s.keep)) := by
  refine ⟨h.nodup.filter _, fun gpu hgpu => ?_, fun hcaller => ⟨hclose hcaller, fun gpu hgpu => ?_⟩⟩
  · simpa using hgpu
  · simp [hclose hcaller, hgpu]

theorem Inv.lockDrain {s : Mirror config} (h : s.Inv) {caller : Caller config}
    (hrender : s.render = .draining caller) : s.Keeps (s.lockDrain caller) := by
  have hok := h.render_ok
  rw [hrender] at hok
  cases caller with
  | onOutputs call => exact h.toOwned.keeps (h.toOwned.retiring (by simp))
  | close => exact h.toOwned.keeps (h.toOwned.retiring fun _ => hok)
  | replacing call key =>
    have hreplaced := reaches_replaceLatest s
    have howned := (h.reaches hreplaced).toOwned
    exact ⟨howned.at (howned.retiring (by simp)), .inl hreplaced.trace⟩

theorem Owned.forget {s : Mirror config} (h : s.Owned) {gpu : ℕ} (hgpu : gpu ∈ s.mapped)
    (hkeep : gpu ∉ s.keep) : (s.forget gpu).Owned where
  opened_eq := by simp only [Mirror.forget, h.opened_eq]
  nodup := h.nodup.filter _
  length_le := (List.length_filter_le _ _).trans h.length_le
  lt_created other hother := h.lt_created other (List.mem_of_mem_filter hother)
  keep_mapped := by
    intro other hother
    have hmem : other ∈ s.keep := hother
    have hne : other ≠ gpu := fun heq => hkeep (heq ▸ hmem)
    simp [Mirror.forget, h.keep_mapped hmem, hne]
  held_eq := h.held_eq
  counts := by
    intro other
    have hcounts := h.counts other
    rw [h.opened_eq] at hcounts
    simp only [Mirror.forget, h.opened_eq, List.count_append]
    by_cases heq : other = gpu
    · subst heq
      -- The forgotten mapping was open once and is now counted as closed.
      have hone : s.mapped.count other = 1 := List.count_eq_one_of_mem h.nodup hgpu
      have hzero : (s.mapped.filter (· ≠ other)).count other = 0 :=
        List.count_eq_zero.mpr (by simp)
      rw [hzero]
      simp
      omega
    · have hsame : (s.mapped.filter (· ≠ gpu)).count other = s.mapped.count other :=
        List.count_filter (by simpa using heq)
      rw [hsame]
      simp [Ne.symm heq, hcounts]
  increasing := by simpa [Mirror.forget, sequences_singleton, sequence?] using h.increasing
  sequence_le := by simpa [Mirror.forget, sequences_singleton, sequence?] using h.sequence_le

theorem Inv.closeImage {s : Mirror config} (h : s.Inv) {caller : Caller config} {gpu : ℕ}
    {retired : List ℕ} (hrender : s.render = .retiring caller (gpu :: retired))
    (failure : Option String) : s.Keeps (s.closeImage caller gpu retired failure) := by
  have hok := h.render_ok
  rw [hrender] at hok
  obtain ⟨hnodup, hretired, hclose⟩ := hok
  have hgpu := hretired gpu List.mem_cons_self
  cases failure with
  | some error =>
    refine ⟨⟨h.toOwned.of_keep rfl rfl rfl rfl le_rfl h.held_eq (List.Subset.refl _), ?_⟩, .inl rfl⟩
    cases caller <;> trivial
  | none =>
    refine ⟨(h.toOwned.forget hgpu.1 hgpu.2).at ?_, .inr ⟨_, rfl, ?_⟩⟩
    · -- The images still to be closed are others than the one just closed.
      obtain ⟨hnew, hrest⟩ := List.nodup_cons.mp hnodup
      refine ⟨hrest, fun other hother => ?_, fun hcaller => ?_⟩
      · have hne : other ≠ gpu := fun heq => hnew (heq ▸ hother)
        have hmem := hretired other (List.mem_cons_of_mem gpu hother)
        exact ⟨by simp [Mirror.forget, hmem.1, hne], hmem.2⟩
      · obtain ⟨hnil, hall⟩ := hclose hcaller
        refine ⟨hnil, fun other hother => ?_⟩
        obtain ⟨hmapped, hne⟩ := List.mem_filter.mp hother
        exact (List.mem_cons.mp (hall hmapped)).resolve_left (by simpa using hne)
    · exact ⟨h.opened_eq ▸ hgpu.1, hgpu.2⟩

theorem Inv.drained {s : Mirror config} (h : s.Inv) {caller : Caller config}
    (hrender : s.render = .retiring caller []) : s.Keeps (s.drained caller) := by
  have hok := h.render_ok
  rw [hrender] at hok
  cases caller with
  | onOutputs call => exact h.toOwned.keeps trivial
  | replacing call key => exact h.toOwned.keeps trivial
  | close => exact h.toOwned.keeps (List.subset_nil.mp (hok.2.2 rfl).2)

theorem Inv.look {s : Mirror config} (h : s.Inv) (call : Call config)
    (result : Except String (Option (Key config))) : s.Keeps (s.look call result) := by
  unfold Mirror.look
  split
  · exact h.toOwned.keeps trivial
  · split
    · exact h.toOwned.keeps trivial
    · exact h.toOwned.keeps trivial
    · split
      · exact h.toOwned.keeps trivial
      · exact h.toOwned.keeps trivial

/-- A mapper hands over nothing that is open. -/
theorem Owned.not_mem_of_handed {s : Mirror config} (h : s.Owned) {calls : config.mapper.Calls}
    {gpu : ℕ}
    (hgpu : (config.mapper.call s.mapper s.closed s.created calls).2.handed = some gpu) :
    gpu ∉ s.mapped := by
  intro hmem
  have hclosed := config.mapper.hands_closed _ _ _ _ _ hgpu (h.lt_created gpu hmem)
  rw [Mirror.closed, h.opened_eq] at hclosed
  simp [hmem] at hclosed

theorem Owned.retain {s : Mirror config} (h : s.Owned) {gpu : ℕ} (hgpu : gpu ∉ s.mapped)
    (hlength : s.mapped.length < 2) : (s.retain gpu).Owned where
  opened_eq := by simp only [Mirror.retain, h.opened_eq]
  nodup := by simpa [Mirror.retain, List.nodup_append, h.nodup] using fun a ha => by grind
  length_le := by simpa [Mirror.retain] using hlength
  lt_created := by
    intro other hother
    simp only [Mirror.retain, List.mem_append, List.mem_singleton] at hother ⊢
    rcases hother with hmem | rfl
    · exact (h.lt_created other hmem).trans_le (le_max_left _ _)
    · exact (Nat.lt_succ_self other).trans_le (le_max_right _ _)
  keep_mapped := fun other hother => List.mem_append_left _ (h.keep_mapped hother)
  held_eq := h.held_eq
  counts := by
    intro other
    have hcounts := h.counts other
    simp only [Mirror.retain, List.count_append]
    -- The new mapping is open once and not closed.
    by_cases heq : other = gpu
    · subst heq
      simp
      omega
    · simp [Ne.symm heq, hcounts]
  increasing := by simpa [Mirror.retain, sequences_singleton, sequence?] using h.increasing
  sequence_le := by simpa [Mirror.retain, sequences_singleton, sequence?] using h.sequence_le

theorem Inv.map {s : Mirror config} (h : s.Inv) (call : Call config) (key : Key config)
    (calls : config.mapper.Calls) : s.Keeps (s.map call key calls) := by
  unfold Mirror.map
  split
  · exact h.toOwned.keeps trivial
  · rename_i hlength
    rw [not_le] at hlength
    have hhanded := @Owned.not_mem_of_handed _ s h.toOwned calls
    -- What the mapper does to itself is of no concern to the images.
    have howned (mapper : config.mapper.State) : ({ s with mapper := mapper }).Owned :=
      h.toOwned.of_keep rfl rfl rfl rfl le_rfl h.held_eq (List.Subset.refl _)
    split
    · rename_i mapper _
      refine ⟨(howned mapper).at ?_, .inl rfl⟩
      trivial
    · rename_i mapper _ _
      refine ⟨(howned mapper).at ?_, .inl rfl⟩
      trivial
    · rename_i mapper gpu error hcall
      have hgpu : gpu ∉ s.mapped := hhanded (by rw [hcall]; rfl)
      have hretained := (howned mapper).retain hgpu hlength
      refine ⟨⟨hretained.of_keep rfl rfl rfl rfl le_rfl hretained.held_eq (List.Subset.refl _),
        trivial⟩, .inr ⟨_, rfl, ?_⟩⟩
      rw [Explained, h.opened_eq]
      exact hgpu
    · rename_i mapper gpu width height hcall
      have hgpu : gpu ∉ s.mapped := hhanded (by rw [hcall]; rfl)
      have hretained := (howned mapper).retain hgpu hlength
      refine ⟨hretained.at ?_, .inr ⟨_, rfl, ?_⟩⟩
      · split
        · trivial
        · simp [RenderOk, Mirror.retain]
      · rw [Explained, h.opened_eq]
        exact hgpu

theorem Inv.publish {s : Mirror config} (h : s.Inv) {call : Call config} {key : Key config}
    {width height : ℤ} {gpu : ℕ} (hrender : s.render = .publishing call key width height gpu) :
    s.Keeps (s.publish call key width height gpu) := by
  have hgpu : gpu ∈ s.mapped := by
    have hok := h.render_ok
    rw [hrender] at hok
    exact hok
  unfold Mirror.publish
  split
  · exact h.toOwned.keeps trivial
  · rename_i hcurrent
    have hselected : call.product = s.selected ∧ call.revision = s.revision := by
      simpa [current] using hcurrent
    simp only
    split
    · -- The number is spent although nothing was published.
      refine ⟨⟨h.toOwned.of_keep rfl rfl rfl rfl (Nat.le_succ _) h.held_eq (List.Subset.refl _),
        trivial⟩, .inl rfl⟩
    · refine ⟨⟨⟨h.opened_eq, h.nodup, h.length_le, h.lt_created, ?_, h.held_eq, ?_, ?_, ?_⟩,
        trivial⟩, .inr ⟨_, rfl, hselected⟩⟩
      · intro other hother
        rw [mem_keep] at hother
        rcases hother with ⟨frame, hframe, rfl⟩ | hinUse
        · obtain rfl := Option.some.inj hframe
          exact hgpu
        · exact h.keep_mapped (mem_keep.mpr (.inr hinUse))
      · intro other
        simpa using h.counts other
      · have hlt : ∀ n ∈ s.trace.filterMap sequence?, n < s.sequence + 1 := fun n hn =>
          Nat.lt_succ_of_le (h.sequence_le n hn)
        simpa [sequences_singleton, sequence?, List.pairwise_append, h.increasing] using hlt
      · intro n hn
        simp only [List.filterMap_append, List.mem_append] at hn
        rcases hn with hold | hnew
        · exact (h.sequence_le n hold).trans (Nat.le_succ _)
        · obtain rfl : n = s.sequence + 1 := by simpa [sequence?] using hnew
          exact le_rfl

theorem Inv.fail {s : Mirror config} (h : s.Inv) (call : Call config) (error : String) :
    s.Keeps (s.fail call error) := by
  unfold Mirror.fail
  split
  · refine ⟨⟨h.toOwned.of_keep rfl rfl rfl rfl le_rfl h.held_eq ?_, trivial⟩, .inl rfl⟩
    exact keep_subset_of_latest_none rfl rfl
  · exact h.toOwned.keeps trivial

theorem Inv.beginClose {s : Mirror config} (h : s.Inv) : s.Keeps s.beginClose := by
  unfold Mirror.beginClose
  split
  · exact ⟨h, .inl rfl⟩
  · rename_i hinUse
    have hnone : s.inUse = none := by simpa using hinUse
    refine ⟨(h.reaches (reaches_invalidate s)).toOwned.at ?_, .inl rfl⟩
    -- With no frame in use and the latest one dropped, the UI can reach nothing.
    simp [RenderOk, keep, invalidate, hnone]

theorem Inv.closeMapper {s : Mirror config} (h : s.Inv) (hrender : s.render = .closingMapper)
    (calls : config.mapper.Calls) : s.Keeps (s.closeMapper calls) := by
  have hnil : s.mapped = [] := by
    have hok := h.render_ok
    rw [hrender] at hok
    exact hok
  unfold Mirror.closeMapper
  split
  · refine ⟨⟨h.toOwned.of_keep rfl rfl rfl rfl le_rfl h.held_eq (List.Subset.refl _), trivial⟩,
      .inl rfl⟩
  · refine ⟨⟨⟨h.opened_eq, h.nodup, h.length_le, h.lt_created, h.keep_mapped, h.held_eq, ?_, ?_,
      ?_⟩, trivial⟩, .inr ⟨_, rfl, h.opened_eq.trans hnil⟩⟩
    · intro gpu
      simpa using h.counts gpu
    · simpa [sequences_singleton, sequence?] using h.increasing
    · simpa [sequences_singleton, sequence?] using h.sequence_le

theorem Inv.renderStep {s : Mirror config} (h : s.Inv) (call : RenderCall) :
    s.Keeps (s.renderStep call) := by
  cases call with
  | setProducts products => exact h.keeps_reaches (reaches_setProducts products s)
  | reset => exact h.keeps_reaches (reaches_invalidate s)
  | finishFrame => exact h.keeps_reaches (Reaches.refl s)
  | onOutputs now =>
    unfold Mirror.renderStep beginOutputs
    simp only
    split
    · exact h.toOwned.keeps trivial
    · exact h.toOwned.keeps trivial
  | close => exact h.beginClose

theorem Inv.goOn {s s' : Mirror config} (h : s.Inv) {outcome : Outcome config}
    (hstep : s.goOn outcome = some s') : s.Keeps s' := by
  unfold Mirror.goOn at hstep
  split at hstep
  · rename_i hrender
    exact Option.some.inj hstep ▸ h.lockDrain hrender
  · rename_i hrender
    exact Option.some.inj hstep ▸ h.closeImage hrender _
  · rename_i hrender
    exact Option.some.inj hstep ▸ h.drained hrender
  · exact Option.some.inj hstep ▸ h.look _ _
  · exact Option.some.inj hstep ▸ h.map _ _ _
  · rename_i hrender
    exact Option.some.inj hstep ▸ h.publish hrender
  · exact Option.some.inj hstep ▸ h.fail _ _
  · rename_i hrender
    exact Option.some.inj hstep ▸ h.closeMapper hrender _
  · simp at hstep

/-- **One step**, of either thread. -/
theorem Inv.step {s s' : Mirror config} (h : s.Inv) {event : Event config}
    (hstep : s.step event = some s') : s.Keeps s' := by
  cases event with
  | ui call => exact Option.some.inj hstep ▸ h.keeps_reaches (reaches_uiStep s call)
  | render call =>
    unfold Mirror.step at hstep
    simp only at hstep
    split at hstep
    · exact Option.some.inj hstep ▸ h.renderStep call
    · simp at hstep
  | goOn outcome => exact h.goOn hstep

theorem Inv.run {events : List (Event config)} {s s' : Mirror config} (h : s.Inv)
    (hrun : s.run events = some s') : s'.Inv := by
  induction events generalizing s with
  | nil => exact Option.some.inj hrun ▸ h
  | cons event events ih =>
    obtain ⟨next, hstep, hrest⟩ := Option.bind_eq_some_iff.mp hrun
    exact ih (h.step hstep).inv hrest

/-- The trace says which label a step added. -/
theorem Keeps.explained {s s' : Mirror config} (h : s.Keeps s') {label : Label}
    (htrace : s'.trace = s.trace ++ [label]) : s.Explained label := by
  rcases h.trace with hsame | ⟨added, hadded, hexplained⟩
  · rw [hsame] at htrace
    simp at htrace
  · have heq : [added] = [label] := List.append_cancel_left (hadded.symm.trans htrace)
    obtain rfl : added = label := by simpa using heq
    exact hexplained


end Mirror

open Mirror

/-- **The images of the mirror**, in every interleaving of the two threads and for every outcome
of the GPU calls.  At most two are open, each as often mapped as closed or once more; a `close`
that succeeds is of an open image that the UI neither holds nor could acquire; when the mailbox's
`close` returns, all are closed; and what is published is numbered upwards and carries the product
and the revision selected at that moment. -/
theorem mirror_ownership (events : List (Event config)) {s : Mirror config}
    (hrun : (init config).run events = some s) :
    s.opened.length ≤ 2 ∧ s.opened.Nodup ∧
      (∀ gpu, s.trace.count (.mapped gpu) =
        s.trace.count (.closed gpu) + s.opened.count gpu) ∧
      (s.trace.filterMap sequence?).Pairwise (· < ·) ∧
      ∀ event s', s.step event = some s' →
        (∀ gpu, s'.trace = s.trace ++ [.closed gpu] →
          gpu ∈ s.opened ∧ (∀ frame, s.held = some frame → frame.gpu ≠ gpu) ∧
            ∀ frame, s.latest = some frame → frame.gpu ≠ gpu) ∧
        (s'.trace = s.trace ++ [.returned] →
          s.opened = [] ∧ ∀ gpu, s.trace.count (.mapped gpu) = s.trace.count (.closed gpu)) ∧
        ∀ frame, s'.trace = s.trace ++ [.published frame] →
          frame.product = s.selected ∧ frame.selectionRevision = s.revision := by
  have hinv : s.Inv := (inv_init config).run hrun
  refine ⟨hinv.opened_eq ▸ hinv.length_le, hinv.opened_eq ▸ hinv.nodup, hinv.counts,
    hinv.increasing, fun event s' hstep => ?_⟩
  have hkeeps := hinv.step hstep
  refine ⟨fun gpu htrace => ?_, fun htrace => ?_, fun frame htrace => hkeeps.explained htrace⟩
  · -- A buffer is closed only if neither the holder nor the latest frame keeps it.
    obtain ⟨hopened, hkeep⟩ := hkeeps.explained htrace
    refine ⟨hopened, fun frame hframe heq => hkeep ?_, fun frame hframe heq => hkeep ?_⟩
    · rw [hinv.held_eq] at hframe
      exact mem_keep.mpr (.inr ⟨frame, hframe, heq⟩)
    · exact mem_keep.mpr (.inl ⟨frame, hframe, heq⟩)
  · have hnil : s.opened = [] := hkeeps.explained htrace
    refine ⟨hnil, fun gpu => ?_⟩
    have hcounts := hinv.counts gpu
    rw [hnil] at hcounts
    simpa using hcounts

/-! ### Two pictures -/

/-- The pool behind a mailbox of 100 frames a second.  A sensor time is a whole number of seconds
here, or `none` when it is infinite. -/
def poolConfig : Config where
  Time := Option ℤ
  sameTime a b := a = b
  toNs
    | none => .error "cannot convert float infinity to integer"
    | some seconds => .ok (seconds * 1000000000)
  periodNs := 10000000
  mapper := OwnedCudaImagePool.gpuMapper

/-- A picture of the size of the camera, with no failing call. -/
def goodCalls : CudaCalls :=
  ⟨.mapped 640 480 0, none, none, none, .ok 2560, none, none, none, none, []⟩

/-- `on_outputs` at a time, up to what it publishes. -/
def picture (now : ℤ) (handle : ℕ) (seconds : ℤ) : List (Event poolConfig) :=
  [.render (.onOutputs now), .goOn .noCall, .goOn .noCall,
    .goOn (.color (.ok (some (handle, some seconds)))), .goOn .noCall, .goOn .noCall,
    .goOn (.native goodCalls), .goOn .noCall]

/-- The UI holds the first picture while the second is published; then all is closed. -/
def twoPictures : List (Event poolConfig) :=
  [.render (.setProducts [⟨"/Left", "Left eye", 0⟩]), .ui .enableGpuCapture] ++
    picture 0 7 1 ++ [.ui (.acquire 0)] ++ picture 20000000 8 2 ++
    [.ui .release, .render .close, .goOn .noCall, .goOn (.imageClosed none),
      .goOn (.imageClosed none), .goOn .noCall]

theorem two_pictures_retired :
    ∃ s s', (init poolConfig).run twoPictures = some s ∧
      s.step (.goOn (.native goodCalls)) = some s' ∧ s'.trace = s.trace ++ [.returned] ∧
      s.opened = [] ∧ ∀ gpu, s.trace.count (.mapped gpu) = s.trace.count (.closed gpu) := by
  have hreturns : (((init poolConfig).run twoPictures).bind fun s =>
      (s.step (.goOn (.native goodCalls))).map fun s' =>
        decide (s'.trace = s.trace ++ [.returned])) = some true := by
    decide +kernel
  obtain ⟨s, hrun, hlast⟩ := Option.bind_eq_some_iff.mp hreturns
  obtain ⟨s', hstep, htrace⟩ := Option.map_eq_some_iff.mp hlast
  have hreturned : s'.trace = s.trace ++ [.returned] := by simpa using htrace
  obtain ⟨_, _, _, _, hsteps⟩ := mirror_ownership twoPictures hrun
  obtain ⟨hopened, hcounts⟩ := (hsteps _ s' hstep).2.1 hreturned
  exact ⟨s, s', hrun, hstep, hreturned, hopened, hcounts⟩

end OwnedMirror
