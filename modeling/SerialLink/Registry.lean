-- The registry of connections: one for each device identifier.
import SerialLink.Connection.Machine

namespace SerialLink

open Connection (World)

/-- Which connection stands for which identifier, in order of registration. -/
structure Registry where
  entries : List (String × Nat) := []

namespace Registry

def get (r : Registry) (identifier : String) : Option Nat := valueAt? identifier r.entries

/-- The connection of the device's identifier, a new one if there is none yet. -/
def getOrCreate (r : Registry) (w : World) (device : DeviceInfo) (config : ConnectionConfig) :
    Nat × Registry × World :=
  match r.get device.identifier with
  | some number => (number, r, w)
  | none =>
    let (number, w) := w.add (.new device config {})
    (number, { entries := r.entries ++ [(device.identifier, number)] }, w)

/-- Forgets an identifier; its connection has yet to be disconnected. -/
def remove (r : Registry) (identifier : String) : Option Nat × Registry :=
  (r.get identifier, { entries := r.entries.filter fun e => e.1 != identifier })

def numbers (r : Registry) : List Nat := r.entries.map (·.2)

def size (r : Registry) : Nat := r.entries.length

end Registry

/-- A registry, the connections that it made, and who is told of what each of them does. -/
structure Directory (κ : Type) where
  config : ConnectionConfig
  registry : Registry := {}
  world : World := {}
  /-- The consumer of each connection. -/
  consumers : List κ := []

namespace Directory

variable {κ : Type}

/-- The connection of the device's identifier. A new one tells this consumer; one that is there
keeps its own. -/
def getOrCreate (d : Directory κ) (device : DeviceInfo) (consumer : κ) : Nat × Directory κ :=
  match d.registry.get device.identifier with
  | some number => (number, d)
  | none =>
    let (number, registry, world) := d.registry.getOrCreate d.world device d.config
    (number, { d with registry, world, consumers := d.consumers ++ [consumer] })

end Directory

end SerialLink
