/-
The worker's registry of radios, over the transport it services
(`RadioWorker::AddInterface`), and runs of calls on the two.

The worker keeps the radios it services in a table of its own, as large
as the transport's, and adds a radio to both. The transport's public
calls stay open to everyone: a run interleaves them with the worker's
(`WorkerCall`), so the transport's table can fill up behind the worker's
back.
-/
import EspressioRadio.Transport.Calls

namespace EspressioRadio

variable {b : Bounds} {ρ : Type}

structure RadioWorker (b : Bounds) (ρ : Type) where
  transport : RadioTransport b ρ
  radios : Fin b.maxInterfaces → Option ρ := fun _ => none

/-- What the worker's calls do outside: through the transport, and to
the radio itself. -/
inductive WorkerEvent (ρ : Type) where
  | transport (event : Event ρ)
  /-- `radio.SetReceiver(this)`: its packets come to the worker. -/
  | setReceiver (radio : ρ)
  /-- `radio.SetWorkSignal(this)`: it wakes the worker. -/
  | setWorkSignal (radio : ρ)

/-- A public call of the transport, or the worker's. -/
inductive WorkerCall (ρ : Type) where
  | transport (input : Input ρ)
  | addInterface (radio : ρ) (defaultRoute : Bool)

namespace RadioWorker

variable [DecidableEq ρ] (w : RadioWorker b ρ)

def addInterface (radio : ρ) (defaultRoute : Bool) :
    RadioWorker b ρ × Bool × List (WorkerEvent ρ) :=
  let added := w.transport.addInterface radio defaultRoute
  let attached : List (WorkerEvent ρ) := [.setReceiver radio, .setWorkSignal radio]
  match Fin.find? fun i => w.radios i == some radio with
  | some _ =>
      if !added.2.1 then
        ({ w with transport := added.1 }, false, added.2.2.map .transport)
      else
        ({ w with transport := added.1 }, true, added.2.2.map .transport ++ attached)
  | none =>
      match Fin.find? fun i => (w.radios i).isNone with
      | some i =>
          if !added.2.1 then
            ({ w with transport := added.1 }, false, added.2.2.map .transport)
          else
            ({ transport := added.1, radios := Function.update w.radios i (some radio) },
              true, added.2.2.map .transport ++ attached)
      | none => (w, false, [])

/-- The state one call, the worker's or the transport's, leaves. -/
def after : WorkerCall ρ → RadioWorker b ρ
  | .transport input => { w with transport := w.transport.after input }
  | .addInterface radio defaultRoute => (w.addInterface radio defaultRoute).1

end RadioWorker

/-- A new worker over a new transport. -/
def RadioWorker.create (localNode : RadioNodeId) (defaultHopLimit : UInt8) :
    RadioWorker b ρ :=
  { transport := .create localNode defaultHopLimit }

end EspressioRadio
