import SurfaceRelay.Session.GlDomains
import SurfaceRelay.Session.GlPool
import SurfaceRelay.Session.ScriptPool
import SurfaceRelay.Session.SoftDomains
import SurfaceRelay.Session.SoftPool
import SurfaceRelay.Proofs.Attempt
import SurfaceRelay.Proofs.Pool.Operations
import SurfaceRelay.Proofs.Translation
import SurfaceRelay.Proofs.Following
import SurfaceRelay.Proofs.Surface
import SurfaceRelay.Proofs.Pool.Invariant
import SurfaceRelay.Proofs.Pool.Course
import SurfaceRelay.Proofs.Pool.Reuse
import SurfaceRelay.Proofs.Lines
import SurfaceRelay.Proofs.Pool.Fifo
import SurfaceRelay.Proofs.Pool.Bounds
import SurfaceRelay.Proofs.Pool.InOrder
import SurfaceRelay.Proofs.Presenter
import SurfaceRelay.Proofs.Resources.Books
import SurfaceRelay.Proofs.Resources.Surface
import SurfaceRelay.Proofs.Resources.Pool
import SurfaceRelay.Proofs.Pool.Failure
import SurfaceRelay.Proofs.Display
import SurfaceRelay.Proofs.Lifecycle
import SurfaceRelay.Proofs.Pool.Accounts
import SurfaceRelay.Proofs.Gl.Calls
import SurfaceRelay.Proofs.Gl.Reuse
import SurfaceRelay.Proofs.Gl.Objects
import SurfaceRelay.Proofs.Gl.Lifecycle
import SurfaceRelay.Proofs.Soft.Concurrent
import SurfaceRelay.Proofs.Soft.Progress
import SurfaceRelay.Proofs.Soft.Ledger
import SurfaceRelay.Proofs.Soft.Calls
import SurfaceRelay.Proofs.Soft.Pool
import SurfaceRelay.Proofs.Soft.Presentation
import SurfaceRelay.Proofs.Soft.Accepting
import SurfaceRelay.Proofs.Soft.Views
import SurfaceRelay.Proofs.Soft.Watched
import SurfaceRelay.Proofs.Soft.Lasting
import SurfaceRelay.Proofs.Soft.Retirement
import SurfaceRelay.Proofs.Soft.Footprint
import SurfaceRelay.Proofs.Soft.Immediate
import SurfaceRelay.Proofs.Soft.Submitting
import SurfaceRelay.Proofs.Soft.Schedules
import SurfaceRelay.Proofs.Soft.Onward
import SurfaceRelay.Proofs.Soft.Placement
import SurfaceRelay.Proofs.Soft.Aliasing
import SurfaceRelay.Proofs.Soft.Granting
import SurfaceRelay.Proofs.Soft.LiveDomains
import SurfaceRelay.Proofs.Gl.Operations
import SurfaceRelay.Proofs.Gl.Activation
import SurfaceRelay.Proofs.Gl.Errors
import SurfaceRelay.Proofs.Gl.Fences
import SurfaceRelay.Proofs.Gl.Bindings
import SurfaceRelay.Proofs.Requests
import SurfaceRelay.Proofs.Histories
import SurfaceRelay.Proofs.Statistics
import SurfaceRelay.Proofs.Pool.Outstanding
import SurfaceRelay.Proofs.Pool.Economy
import SurfaceRelay.Proofs.Frames
import SurfaceRelay.Proofs.Pool.Contention
import SurfaceRelay.Proofs.Pool.Fixtures
import SurfaceRelay.Proofs.Resources.Pairing
import SurfaceRelay.Proofs.Resources.Disposal
import SurfaceRelay.Proofs.Soft.Markers
import SurfaceRelay.Proofs.Soft.Sessions
import SurfaceRelay.Proofs.Soft.InBounds
import SurfaceRelay.Proofs.Soft.Copying
import SurfaceRelay.Proofs.Soft.Quiet
import SurfaceRelay.Proofs.Soft.Registry
import SurfaceRelay.Proofs.Pool.Lookup
import SurfaceRelay.Proofs.Faults
import SurfaceRelay.Proofs.Bundled
