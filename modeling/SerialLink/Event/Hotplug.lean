-- Watching for devices that disappear. Each poll compares an enumeration with
-- the last one that succeeded; what is gone was detached.
import SerialLink.Event.Subscribers

namespace SerialLink

/-- How often the watcher looks. -/
structure HotplugConfig where
  pollInterval : Nat
  deriving DecidableEq

/-- Twice a second. -/
def HotplugConfig.standard : HotplugConfig := { pollInterval := 500 }

/-- A watcher: the identifiers of the last successful enumeration, and who wants to know. -/
structure Hotplug (Handler : Type) where
  present : List String
  subscribers : Subscribers Handler := {}
  running : Bool := true

namespace Hotplug

variable {Handler : Type}

/-- Starts with a first enumeration, which has to succeed. -/
def start (found : Except PortError (List String)) : Except PortError (Hotplug Handler) :=
  found.map fun identifiers => { present := identifiers.eraseDups }

def subscribe (w : Hotplug Handler) (deviceId : String) (handler : Handler) :
    Nat × Hotplug Handler :=
  let (id, subscribers) := w.subscribers.insert deviceId handler
  (id, { w with subscribers })

def unsubscribe (w : Hotplug Handler) (id : Nat) : Except PortError Unit × Hotplug Handler :=
  let (result, subscribers) := w.subscribers.remove id
  (result, { w with subscribers })

/-- The identifiers that were present and are not found any more. -/
def gone (w : Hotplug Handler) (identifiers : List String) : List String :=
  w.present.filter fun identifier => !identifiers.contains identifier

/-- Tells the handlers of each identifier that it was detached. -/
def tell {Answer : Type}
    (call : Handler → DeviceEvent → Hotplug Handler → Answer × Hotplug Handler) :
    List String → Hotplug Handler → List Answer × Hotplug Handler
  | [], w => ([], w)
  | identifier :: rest, w =>
    let event := { deviceId := identifier, kind := .detached }
    let (answers, w) :=
      callEach (fun handler w => call handler event w) (w.subscribers.handlersFor identifier) w
    let (more, w) := tell call rest w
    (answers ++ more, w)

/-- One round: a failed enumeration changes nothing; after a successful one the handlers of what
is gone have been told, and what was found is what is present. -/
def poll {Answer : Type} (w : Hotplug Handler) (found : Except PortError (List String))
    (call : Handler → DeviceEvent → Hotplug Handler → Answer × Hotplug Handler) :
    List Answer × Hotplug Handler :=
  match w.running, found with
  | true, .ok identifiers =>
    let (answers, w) := tell call (w.gone identifiers) w
    (answers, { w with present := identifiers.eraseDups })
  | _, _ => ([], w)

/-- Stops the watcher for good. -/
def shutdown (w : Hotplug Handler) : Hotplug Handler := { w with running := false }

end Hotplug

end SerialLink
