-- Who wants to hear of a device. Every subscription gets a number of its own,
-- and an event goes to the subscriptions of its device that stand when the
-- telling begins.
import SerialLink.Port.Error

namespace SerialLink

/-- What can happen to a device. -/
inductive DeviceEventKind
  | permissionGranted | permissionDenied | detached
  deriving DecidableEq

/-- The kind of event by name. -/
def DeviceEventKind.name : DeviceEventKind → String
  | .permissionGranted => "PermissionGranted"
  | .permissionDenied => "PermissionDenied"
  | .detached => "Detached"

def DeviceEventKind.all : List DeviceEventKind := [.permissionGranted, .permissionDenied, .detached]

/-- Something that happened to the device with this identifier. -/
structure DeviceEvent where
  deviceId : String
  kind : DeviceEventKind
  deriving DecidableEq

/-- One subscription: its number, the device it is for, and the handler that is told. -/
structure Subscription (Handler : Type) where
  id : Nat
  deviceId : String
  handler : Handler

/-- The live subscriptions, oldest first, and the last number given out. -/
structure Subscribers (Handler : Type) where
  lastId : Nat := 0
  live : List (Subscription Handler) := []

namespace Subscribers

variable {Handler : Type}

/-- Adds a subscription and tells its number. -/
def insert (s : Subscribers Handler) (deviceId : String) (handler : Handler) :
    Nat × Subscribers Handler :=
  let id := s.lastId + 1
  (id, { lastId := id, live := s.live ++ [{ id, deviceId, handler }] })

/-- Ends the subscription with this number, which must be live. -/
def remove (s : Subscribers Handler) (id : Nat) : Except PortError Unit × Subscribers Handler :=
  if s.live.any fun sub => sub.id == id then
    (.ok (), { s with live := s.live.filter fun sub => sub.id != id })
  else (.error (.subscription s!"unknown subscription {id}"), s)

/-- The handlers of a device. -/
def handlersFor (s : Subscribers Handler) (deviceId : String) : List Handler :=
  (s.live.filter fun sub => sub.deviceId == deviceId).map (·.handler)

/-- Number of live subscriptions. -/
def size (s : Subscribers Handler) : Nat := s.live.length

end Subscribers

/-- Calls `handlers` one after the other on a state that each of them may change, and collects
what they answer. -/
def callEach {Handler State Answer : Type} (call : Handler → State → Answer × State) :
    List Handler → State → List Answer × State
  | [], state => ([], state)
  | handler :: rest, state =>
    let (answer, state) := call handler state
    let (answers, state) := callEach call rest state
    (answer :: answers, state)

/-! ## A source that is told what happens -/

/-- An event source whose events are emitted by its owner. It counts the calls made to it. -/
structure EventSource (Handler : Type) where
  subscribers : Subscribers Handler := {}
  subscribes : Nat := 0
  unsubscribes : Nat := 0

namespace EventSource

variable {Handler : Type}

def subscribe (s : EventSource Handler) (deviceId : String) (handler : Handler) :
    Nat × EventSource Handler :=
  let (id, subscribers) := s.subscribers.insert deviceId handler
  (id, { s with subscribers, subscribes := s.subscribes + 1 })

def unsubscribe (s : EventSource Handler) (id : Nat) :
    Except PortError Unit × EventSource Handler :=
  let (result, subscribers) := s.subscribers.remove id
  (result, { s with subscribers, unsubscribes := s.unsubscribes + 1 })

/-- Number of live subscriptions. -/
def active (s : EventSource Handler) : Nat := s.subscribers.size

/-- Tells the handlers of the event's device. The handlers are those that are live when the emit
begins; what they do to the source on the way changes nothing about who is told. -/
def emit {Answer : Type} (s : EventSource Handler) (event : DeviceEvent)
    (call : Handler → EventSource Handler → Answer × EventSource Handler) :
    List Answer × EventSource Handler :=
  callEach call (s.subscribers.handlersFor event.deviceId) s

end EventSource

end SerialLink
