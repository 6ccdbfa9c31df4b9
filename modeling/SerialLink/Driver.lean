-- Drivers and the tables that choose one for a device. A table knows products
-- and device classes; the product decides before the class, the first table
-- before the second.
import SerialLink.Device
import SerialLink.Line

namespace SerialLink

/-- The families of serial adapters that are driven. -/
inductive DriverKind
  | cdcAcm | cp21xx | ftdi | ch34x | prolific
  deriving DecidableEq

def DriverKind.name : DriverKind → String
  | .cdcAcm => "CdcAcm"
  | .cp21xx => "Cp21xx"
  | .ftdi => "Ftdi"
  | .ch34x => "Ch34x"
  | .prolific => "Prolific"

def DriverKind.all : List DriverKind := [.cdcAcm, .cp21xx, .ftdi, .ch34x, .prolific]

/-- The line parameters that a driver family starts with. -/
def DriverKind.lineParameters : DriverKind → LineParameters
  | .cdcAcm => .eightNOne 921600
  | .cp21xx | .ftdi | .ch34x | .prolific => .eightNOne 115200

/-! ## Entries under a key -/

/-- Puts `value` under `key`, over what stood there. -/
def putEntry {κ β : Type} [DecidableEq κ] (key : κ) (value : β) : List (κ × β) → List (κ × β)
  | [] => [(key, value)]
  | (k, v) :: rest => if k = key then (key, value) :: rest else (k, v) :: putEntry key value rest

/-- The value under `key`. -/
def valueAt? {κ β : Type} [DecidableEq κ] (key : κ) (entries : List (κ × β)) : Option β :=
  (entries.find? fun e => decide (e.1 = key)).map (·.2)

/-! ## Tables -/

/-- Drivers by vendor and product, and by device class. -/
structure ProbeTable where
  products : List ((UInt16 × UInt16) × DriverKind) := []
  classes : List (UInt8 × DriverKind) := []

namespace ProbeTable

/-- Adds a product; a later entry takes the place of an earlier one. -/
def withProduct (t : ProbeTable) (vendor product : UInt16) (kind : DriverKind) : ProbeTable :=
  { t with products := putEntry (vendor, product) kind t.products }

/-- Adds a device class; a later entry takes the place of an earlier one. -/
def withClass (t : ProbeTable) (deviceClass : UInt8) (kind : DriverKind) : ProbeTable :=
  { t with classes := putEntry deviceClass kind t.classes }

/-- The driver of a device: by its product, else by the class that it reports. -/
def find (t : ProbeTable) (d : DeviceInfo) : Option DriverKind :=
  (valueAt? (d.vendorId, d.productId) t.products).or
    (d.deviceClass.bind fun c => valueAt? c t.classes)

def size (t : ProbeTable) : Nat := t.products.length

/-- Neither a product nor a class is known. -/
def isEmpty (t : ProbeTable) : Bool := t.products.isEmpty && t.classes.isEmpty

end ProbeTable

/-! ## The built-in tables -/

namespace Vendor

def ftdi : UInt16 := 0x0403
def silabs : UInt16 := 0x10C4
def prolific : UInt16 := 0x067B
def qinheng : UInt16 := 0x1A86
def stm : UInt16 := 0x0483

end Vendor

/-- The class of communications devices. -/
def communicationsClass : UInt8 := 0x02

namespace ProbeTable

/-- The products and the class that are known from the start. -/
def builtIn : ProbeTable :=
  (({} : ProbeTable)
    |>.withProduct Vendor.ftdi 0x6001 .ftdi
    |>.withProduct Vendor.ftdi 0x6010 .ftdi
    |>.withProduct Vendor.ftdi 0x6011 .ftdi
    |>.withProduct Vendor.ftdi 0x6014 .ftdi
    |>.withProduct Vendor.ftdi 0x6015 .ftdi
    |>.withProduct Vendor.silabs 0xEA60 .cp21xx
    |>.withProduct Vendor.silabs 0xEA70 .cp21xx
    |>.withProduct Vendor.silabs 0xEA71 .cp21xx
    |>.withProduct Vendor.prolific 0x2303 .prolific
    |>.withProduct Vendor.qinheng 0x7523 .ch34x
    |>.withProduct Vendor.qinheng 0x5523 .ch34x
    |>.withProduct Vendor.stm 0x5740 .cdcAcm
    |>.withClass communicationsClass .cdcAcm)

/-- Products known besides, asked after the built-in ones. -/
def supplementary : ProbeTable := ({} : ProbeTable).withProduct Vendor.silabs 0xEA80 .cp21xx

end ProbeTable

/-! ## Probing -/

/-- Two tables, asked one after the other. -/
structure Prober where
  first : ProbeTable := .builtIn
  second : ProbeTable := .supplementary

/-- The driver of a device: the first table's answer if it has one, else the second's. -/
def Prober.probe (p : Prober) (d : DeviceInfo) : Option DriverKind :=
  (p.first.find d).or (p.second.find d)

/-- The device with the wanted identifier, or the first one that has a driver. -/
def Prober.select (p : Prober) (devices : List DeviceInfo) (wanted : Option String) :
    Option DeviceInfo :=
  match wanted with
  | some identifier => devices.find? fun d => d.identifier == identifier
  | none => devices.find? fun d => (p.probe d).isSome

end SerialLink
