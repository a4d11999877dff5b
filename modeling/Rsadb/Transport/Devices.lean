import Rsadb.Error

/-! Enumerating the attached devices that expose an ADB interface. The identity
of an attachment belongs to the USB library and is a parameter. -/
namespace Rsadb

/-- USB interface class for vendor-specific interfaces. -/
def ADB_CLASS : UInt8 := 0xFF
/-- Subclass assigned to ADB. -/
def ADB_SUBCLASS : UInt8 := 0x42
/-- Protocol number for ADB. -/
def ADB_PROTOCOL : UInt8 := 0x01

/-- One interface of a device. -/
structure InterfaceInfo where
  interfaceNumber : UInt8
  class_ : UInt8
  subclass : UInt8
  protocol : UInt8
  deriving DecidableEq, Repr

/-- A device as the USB library reports it. -/
structure DeviceInfo (DeviceId : Type) where
  id : DeviceId
  interfaces : List InterfaceInfo
  deriving DecidableEq, Repr

/-- An enumerated ADB-capable USB device. -/
structure UsbDeviceInfo (DeviceId : Type) where
  info : DeviceInfo DeviceId
  interfaceNumber : UInt8
  deriving DecidableEq, Repr

/-- The kinds of failures of the USB library that are told apart. -/
inductive ErrorKind where
  | busy
  | permissionDenied
  | disconnected
  | other
  deriving DecidableEq, Repr

/-- A failure of the USB library with its text. -/
structure UsbError where
  kind : ErrorKind
  text : String
  deriving DecidableEq, Repr

variable {DeviceId : Type}

/-- Stable identity for this attachment (changes when re-plugged). -/
def UsbDeviceInfo.id (device : UsbDeviceInfo DeviceId) : DeviceId := device.info.id

/-- Whether a device exposes an ADB interface, and if so which one. -/
def adbInterface (info : DeviceInfo DeviceId) : Option UInt8 :=
  (info.interfaces.find? fun i =>
    i.class_ = ADB_CLASS ∧ i.subclass = ADB_SUBCLASS ∧ i.protocol = ADB_PROTOCOL).map
    InterfaceInfo.interfaceNumber

def mapUsb (e : UsbError) : Error :=
  match e.kind with
  | .busy | .permissionDenied => .claimFailed e.text
  | .disconnected => .disconnected
  | .other => .usb e.text

/-- Enumerate every attached device that exposes an ADB interface, from what the
USB library lists. -/
def list (listed : Except UsbError (List (DeviceInfo DeviceId))) :
    Result (List (UsbDeviceInfo DeviceId)) :=
  match listed with
  | .error e => .error (mapUsb e)
  | .ok devices => .ok (devices.filterMap fun info =>
      (adbInterface info).map fun interfaceNumber => ⟨info, interfaceNumber⟩)

end Rsadb
