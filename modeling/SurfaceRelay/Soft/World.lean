import SurfaceRelay.Soft.Pixels
import SurfaceRelay.Table

/-! Software domains: workers that execute queues of commands.

A worker belongs to a device and executes its commands strictly in the order in which
it accepted them, at times of its own. Textures show pixel storages, and several
textures may show the same one. A command holds on to the storages it uses, so a
storage lives on whatever happens to its textures.

The world is given by tables from numbers. An entry that nothing was put into yet has
a blank value, so that every number names something. -/
namespace SurfaceRelay.Soft

/-- A texture or a staging resource. Copies of the value show the same storage. -/
structure Texture where
  id : Nat
  size : Extent
  storage : Nat
deriving DecidableEq, Repr

inductive Command
  /-- Overwrites a storage. -/
  | write (storage : Nat) (data : Pixels)
  /-- Delivers the contents of a storage to a receiver. -/
  | read (storage receiver : Nat)
  /-- Copies the top left region of one texture to another. -/
  | copy (source target : Texture) (region : Extent)
  /-- Retires the marker of this count. -/
  | retire (count : Nat)

/-- What a receiver holds. -/
inductive Receiver
  | pending
  | delivered (data : Pixels)
  /-- Nothing will come any more. -/
  | closed

inductive Health
  | live
  /-- It will die in the middle of the next map, behind the commands before it. -/
  | doomed
  | dead
deriving DecidableEq, Repr

/-- One software domain. -/
structure Worker where
  label : String
  device : Nat
  /-- How many handles to the domain are held. -/
  handles : Nat
  /-- Resources created and destroyed through the domain. -/
  created : Nat := 0
  destroyed : Nat := 0
  /-- Accepted commands that have not executed, oldest first. -/
  queue : List Command := []
  /-- The last count given to a marker, 0 before the first. -/
  lastCount : Nat := 0
  /-- The highest count that has retired. -/
  retired : Nat := 0
  health : Health := .live

/-- Resources created and not yet destroyed. More can be destroyed through a domain
than were created through it; then none count as live. -/
def Worker.live (k : Worker) : Nat := k.created - k.destroyed

structure Device where
  /-- The last number given to a texture. -/
  lastId : Nat := 0
  /-- The storages that can be opened, by share handle. -/
  exports : Nat → Option Nat := fun _ => none

structure World where
  devices : Nat → Device := fun _ => {}
  workers : Nat → Worker := fun _ => { label := "", device := 0, handles := 0 }
  workerCount : Nat := 0
  storages : Nat → Pixels := fun _ => []
  storageCount : Nat := 0
  receivers : Nat → Receiver := fun _ => .closed
  receiverCount : Nat := 0

namespace World

def setWorker (w : World) (d : Nat) (k : Worker) : World :=
  { w with workers := Table.put w.workers d k }

def setStorage (w : World) (i : Nat) (data : Pixels) : World :=
  { w with storages := Table.put w.storages i data }

def setReceiver (w : World) (i : Nat) (r : Receiver) : World :=
  { w with receivers := Table.put w.receivers i r }

def setDevice (w : World) (i : Nat) (v : Device) : World :=
  { w with devices := Table.put w.devices i v }

/-! ### Execution -/

/-- Carries out one command of worker `d`. A write or a copy that does not fit its
storages has no result. -/
def execute (w : World) (d : Nat) : Command → Option World
  | .write storage data => ((w.storages storage).overwrite data).map (w.setStorage storage)
  | .read storage receiver => some (w.setReceiver receiver (.delivered (w.storages storage)))
  | .copy source target region =>
    (blit region source.size target.size (w.storages source.storage)
      (w.storages target.storage)).map (w.setStorage target.storage)
  | .retire count =>
    let k := w.workers d
    some (w.setWorker d { k with retired := max k.retired count })

/-- Closes the receivers of reads that will never execute. -/
def discard (w : World) : List Command → World
  | [] => w
  | .read _ receiver :: rest => (w.setReceiver receiver .closed).discard rest
  | _ :: rest => w.discard rest

/-- The worker dies: what it had accepted is discarded, and it accepts nothing more. -/
def die (w : World) (d : Nat) : World :=
  let k := w.workers d
  (w.setWorker d { k with queue := [], health := .dead }).discard k.queue

/-- Executes the oldest command. A command that cannot be carried out kills its
worker. -/
def executeNext (w : World) (d : Nat) : World :=
  let k := w.workers d
  match k.queue with
  | [] => w
  | c :: rest =>
    let w := w.setWorker d { k with queue := rest }
    match w.execute d c with
    | some w => w
    | none => w.die d

def executeMany (w : World) (d : Nat) : Nat → World
  | 0 => w
  | n + 1 => (w.executeNext d).executeMany d n

/-- Executes everything the worker has accepted. -/
def drain (w : World) (d : Nat) : World := w.executeMany d (w.workers d).queue.length

/-- How many commands a step of at most `limit` commands executes. -/
def pace (w : World) (d : Nat) (limit : Option Nat) : Nat :=
  let queued := (w.workers d).queue.length
  min (limit.getD queued) queued

/-- Lets the worker execute its oldest commands, all of them without a limit. -/
def step (w : World) (d : Nat) (limit : Option Nat) : World := w.executeMany d (w.pace d limit)

/-! ### Devices and handles -/

/-- Starts a worker of a device, with one handle. -/
def startWorker (w : World) (label : String) (device : Nat) : Nat × World :=
  let d := w.workerCount
  (d, { w.setWorker d { label, device, handles := 1 } with workerCount := d + 1 })

/-- One more handle to a domain. -/
def keep (w : World) (d : Nat) : World :=
  let k := w.workers d
  w.setWorker d { k with handles := k.handles + 1 }

/-- One handle to a domain less. With the last one the worker executes what it has
accepted and ends. -/
def letGo (w : World) (d : Nat) : World :=
  let k := w.workers d
  let w := w.setWorker d { k with handles := k.handles - 1 }
  if k.handles ≤ 1 then (w.drain d).die d else w

/-- The worker will die in its next map, unless it is dead already. -/
def doom (w : World) (d : Nat) : World :=
  let k := w.workers d
  w.setWorker d { k with health := if k.health = .dead then .dead else .doomed }

/-- Looks into a receiver without waiting. A delivery can be taken once. -/
def receive (w : World) (i : Nat) : Receiver × World :=
  match w.receivers i with
  | .delivered data => (.delivered data, w.setReceiver i .closed)
  | other => (other, w)

end World
end SurfaceRelay.Soft
