import Oseer.IrqHandlers

/-!
# Devices

The list of devices in `kernel/devices.c`: a device is added and initialized, which registers its
handler and enables its line, is opened and closed, and is removed.
-/

namespace Oseer

open InterruptChip LinkedRing

/-- `device_t`, without the functions of the driver. -/
structure Device where
  devName : List UInt8
  irqNum : BitVec 32
  irqHandler : Nat
  callback : Nat
  flags : BitVec 32
  params : Nat

/-- `kdevice_t`, without the queue of its lock. -/
structure Kdevice extends Device where
  isOpen : Bool
  locked : Bool

def DEV_TYPE_NOTSHARED : BitVec 32 := 2

/-- `flags & DEV_TYPE_NOTSHARED`. -/
def Device.NotShared (device : Device) : Prop := device.flags &&& DEV_TYPE_NOTSHARED ≠ 0

instance (device : Device) : Decidable device.NotShared := inferInstanceAs (Decidable (_ ≠ _))

/-- The list `devices`, and the handlers. -/
structure DeviceTable where
  interrupts : Interrupts
  devices : Lists Unit
  kdev : Ptr → Kdevice

namespace DeviceTable

/-- `k_device_add`, where `kmalloc` returns `kdev`. -/
def kDeviceAdd (kdev : Ptr) (dev : Device) (table : DeviceTable) : Option DeviceTable :=
  if kdev = 0 then none
  else
    some { table with
      kdev := Function.update table.kdev kdev
        { dev with isOpen := false, locked := (table.kdev kdev).locked }
      devices := table.devices.listAppend () kdev }

/-- The stores of `k_device_init` into the descriptor, but for `callback`. -/
def configure (flags : BitVec 32) (params : Nat) (device : Kdevice) : Kdevice :=
  { device with
    flags := if flags ≠ 0 then flags else device.flags
    params := if params ≠ 0 then params else device.params
    locked := false }

def setCallback (callback : Nat) (device : Kdevice) : Kdevice :=
  { device with callback := if callback ≠ 0 then callback else device.callback }

/-- `k_device_init`, where the driver's `init` returns `retval`, or zero where there is none, and
`kmalloc` returns `ih`. -/
def kDeviceInit (kdev : Ptr) (flags : BitVec 32) (params callback : Nat) (retval : Int) (ih : Ptr)
    (table : DeviceTable) : Option (Int × DeviceTable) :=
  let device := configure flags params (table.kdev kdev)
  let interrupts :=
    if retval = 0 ∧ device.irqHandler ≠ 0 then
      (table.interrupts.archRegisterInterruptHandler ih device.irqNum device.irqHandler kdev).map
        fun interrupts =>
          { interrupts with pics := i8259IrqEnable device.irqNum interrupts.pics }
    else some table.interrupts
  interrupts.map fun interrupts => (retval, { table with
    interrupts := interrupts
    kdev := Function.update table.kdev kdev (setCallback callback device) })

/-- `k_device_remove`. -/
def kDeviceRemove (kdev : Ptr) (table : DeviceTable) : Option DeviceTable :=
  let device := table.kdev kdev
  let pics := table.interrupts.pics
  let pics := if device.irqNum ≠ -1 then i8259IrqDisable device.irqNum pics else pics
  let interrupts := { table.interrupts with pics := pics }
  let interrupts :=
    if device.irqHandler ≠ 0 then
      interrupts.archUnregisterInterruptHandler device.irqNum device.irqHandler kdev
    else some interrupts
  interrupts.map fun interrupts => { table with
    interrupts := interrupts
    devices := (table.devices.listRemove () FIRST kdev).2 }

/-- The loop of `k_device_open`. -/
def openLoop (name : List UInt8) : Nat → Ptr → DeviceTable → Ptr × DeviceTable
  | 0, _, table => (0, table)
  | fuel + 1, kdev, table =>
    if kdev = 0 then (0, table)
    else
      let device := table.kdev kdev
      if name = device.devName then
        if device.NotShared ∧ device.isOpen then (0, table)
        else (kdev, { table with
          kdev := Function.update table.kdev kdev { device with isOpen := true } })
      else openLoop name fuel (table.devices.listGetNext kdev) table

/-- `k_device_open`. -/
def kDeviceOpen (name : List UInt8) (table : DeviceTable) : Ptr × DeviceTable :=
  openLoop name addressCount (table.devices.listGet () FIRST) table

/-- `k_device_close`. -/
def kDeviceClose (kdev : Ptr) (table : DeviceTable) : DeviceTable :=
  { table with
    kdev := Function.update table.kdev kdev { table.kdev kdev with isOpen := false } }

end DeviceTable

end Oseer
