import UscopeDriver.Bus
import UscopeDriver.Json
import UscopeDriver.Interfaces
import UscopeDriver.Responses

/-!
# The FPGA bridge

`fpga_bridge` is what the deployers talk to. Register writes reach the bus only once a
bitstream is loaded (`fpgaLoaded`), program loads always do. `singleWriteRegister` takes its
arguments as a JSON object.
-/

namespace UscopeDriver

/-- The bridge to the logic. Without a loaded bitstream register accesses are dropped. -/
structure FpgaBridge where
  busses : BusAccessor
  fpgaLoaded : Bool

namespace FpgaBridge

/-- A call on the shared bus accessor. -/
def onBus {α : Type} (m : Exec Failure BusAccessor α) : Exec Failure FpgaBridge α :=
  Exec.zoom (·.busses) (fun b hw => { hw with busses := b }) m

/-- A register write on the bus itself. -/
def writeDirect (addr val : Nat) : Exec Failure FpgaBridge Unit := do
  let loaded ← Exec.gets (·.fpgaLoaded)
  Exec.when (loaded = true) (onBus (BusAccessor.writeRegister [u64 addr] (u32 val)))

/-- A write of `targetAddr` through the peripheral at `proxyAddr`. The target keeps 32 bits. -/
def writeProxied (proxyAddr targetAddr val : Nat) : Exec Failure FpgaBridge Unit := do
  let loaded ← Exec.gets (·.fpgaLoaded)
  Exec.when (loaded = true)
    (onBus (BusAccessor.writeRegister [u32 targetAddr, u64 proxyAddr] (u32 val)))

/-- Without a bitstream nothing is read. -/
def readDirect (random address : Nat) : Exec Failure FpgaBridge Nat := do
  let loaded ← Exec.gets (·.fpgaLoaded)
  if loaded = true then onBus (BusAccessor.readRegister random [u64 address]) else pure 0

/-- Dispatch on the type of the write. It returns `ok` or throws. -/
def singleWriteRegister (pl : Platform) (writeObj : Json) : Exec Failure FpgaBridge Unit := do
  let type ← writeObj.at' "type"
  if type.isString "direct" then
    let address ← (← writeObj.at' "address").getUint64 pl
    let value ← (← writeObj.at' "value").getUint32 pl
    writeDirect address value
  else if type.isString "proxied" then
    let proxyType ← writeObj.at' "proxy_type"
    if proxyType.isString "axis_constant" then
      let proxyAddress ← (← writeObj.at' "proxy_address").getUint64 pl
      let address ← (← writeObj.at' "address").getUint32 pl
      let value ← (← writeObj.at' "value").getUint32 pl
      writeProxied proxyAddress address value
    else throw (.runtimeError "ERROR: Unrecognised write proxy type")
  else throw (.runtimeError "ERROR: Unrecognised register write type")

/-- A program for a core. It is loaded without a bitstream as well. -/
def applyProgram (address : Nat) (program : List Nat) : Exec Failure FpgaBridge Unit :=
  onBus (BusAccessor.loadProgram (u64 address) program)

/-- The bitstream goes to the device of the architecture. -/
def loadBitstream (d : InterfacesDictionary) (load : String → List UInt8 → BitstreamLoad)
    (bitstream : List UInt8) : Exec Failure FpgaBridge ResponseCode := do
  let driver ← Exec.ofExcept d.getFpgaBitstreamIf
  match load driver bitstream with
  | .refused => pure .bitstreamLoadFailed
  | .status status =>
    if status = '0' then pure .bitstreamLoadFailed
    else do
      modify fun hw => { hw with fpgaLoaded := true }
      pure .ok

/-- One tap and its position. -/
def applyTap (address : Nat) (tap : Nat × Nat) : Exec Failure FpgaBridge Unit := do
  writeDirect address tap.1
  writeDirect (address + 4) tap.2

/-- The taps of a filter, one pair of writes each. -/
def applyFilter (address : Nat) (taps : List Nat) : Exec Failure FpgaBridge Unit :=
  forM taps.zipIdx (applyTap address)

/-- The address of the DMA buffer is read from a file. -/
def setScopeData (d : InterfacesDictionary) (file : String → Nat) (addr : Nat) :
    Exec Failure FpgaBridge Unit := do
  let path ← Exec.ofExcept d.getBufferAddressIf
  writeDirect addr (file path)

/-- The record of operations is emptied. -/
def clearOperationsVector : Exec Failure FpgaBridge Unit :=
  onBus BusAccessor.clearOperations

/-- The bus is muted and a new record begins. -/
def disableBusAccess : Exec Failure FpgaBridge Unit := do
  onBus BusAccessor.disableAccess
  onBus BusAccessor.clearOperations

/-- The frequency of a primary clock, as the source stubs it. -/
def getPlClock (_clkN : UInt8) : UInt32 := 99999999

/-- The frequency goes to the file of the clock, as text. -/
def setPlClock (dev : Devices) (clkN : UInt8) (_freq : UInt32) : Except Failure ResponseCode :=
  (dev.ifDict.getClockIf clkN).map fun file =>
    match dev.write file with
    | .notOpened => .driverFileNotFound
    | .notWritten => .driverWriteFailed
    | .written => .ok

/-- The clocks are numbered from 0 to 3. -/
theorem lt_four_of_setPlClock {dev : Devices} {clkN : UInt8} {freq : UInt32} {r : ResponseCode}
    (h : setPlClock dev clkN freq = .ok r) : clkN.toNat < 4 := by
  unfold setPlClock at h
  cases hfile : dev.ifDict.getClockIf clkN with
  | error e => simp [hfile, Except.map] at h
  | ok file => exact InterfacesDictionary.lt_four_of_getClockIf hfile

/-- The mute is set back to what it was before the last muting. -/
def enableBusAccess : Exec Failure FpgaBridge Unit :=
  onBus BusAccessor.enableAccess

end FpgaBridge

end UscopeDriver
