-- A bench for listeners of device events. Each listener has a number by which
-- its record tells it from others; some unsubscribe a listener when they hear
-- something.
import SerialLink.Event.Hotplug

namespace SerialLink.Bench

/-- A listener: its number, and the subscription that it ends when it is told something. -/
structure Listener where
  number : Nat
  ends : Option Nat := none

/-- What a listener recorded. -/
inductive Hit
  | heard (listener : Nat) (event : DeviceEvent)
  | ended (listener : Nat) (result : Except PortError Unit)

def Hit.listener : Hit → Nat
  | .heard listener _ | .ended listener _ => listener

/-- Records in the order of the listeners' numbers. -/
def inOrder (hits : List Hit) : List Hit :=
  hits.mergeSort fun a b => decide (a.listener ≤ b.listener)

/-- Tells a listener of an event; `unsubscribe` is how it ends a subscription of its source. -/
def Listener.tell {Source : Type} (unsubscribe : Source → Nat → Except PortError Unit × Source)
    (listener : Listener) (event : DeviceEvent) (source : Source) : Hit × Source :=
  match listener.ends with
  | none => (.heard listener.number event, source)
  | some id =>
    let (result, source) := unsubscribe source id
    (.ended listener.number result, source)

/-- Emits an event to the listeners of a source. -/
def hear (source : EventSource Listener) (event : DeviceEvent) :
    List Hit × EventSource Listener :=
  let (hits, source) :=
    source.emit event fun l source => l.tell EventSource.unsubscribe event source
  (inOrder hits, source)

/-- One round of a watcher with listeners. -/
def watch (watcher : Hotplug Listener) (found : Except PortError (List String)) :
    List Hit × Hotplug Listener :=
  let (hits, watcher) :=
    watcher.poll found fun l event watcher => l.tell Hotplug.unsubscribe event watcher
  (inOrder hits, watcher)

end SerialLink.Bench
