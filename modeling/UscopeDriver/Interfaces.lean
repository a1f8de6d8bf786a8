import UscopeDriver.Machine

/-!
# Device files

The kernel interfaces of the driver by architecture (`interfaces_dictionary`), and what
opening and writing such a file does.
-/

namespace UscopeDriver

/-- The dictionary of the interfaces, with the architecture that selects among them. -/
structure InterfacesDictionary where
  /-- "trap" until an architecture is selected. -/
  arch : String
  deriving DecidableEq, Repr

namespace InterfacesDictionary

/-- The device of the bitstream. -/
def fpgaManagerBitstreamIf : List (String × String) :=
  [("zynq", "/dev/uscope_bitstream"), ("zynqmp", "/dev/uscope_bitstream"),
    ("emulate", "/dev/zero"), ("testing", "/tmp/fpga_bitstream_if")]

/-- The devices of the clocks. -/
def clockIf : List (String × String) :=
  [("zynq", "/sys/devices/soc0/fffc0000.uScope/fclk_"), ("zynqmp", "/sys/devices/platform/fclk"),
    ("emulate", "/dev/zero"), ("testing", "/tmp/clock_if_")]

/-- The files with the address of the DMA buffer. -/
def bufferAddressIf : List (String × String) :=
  [("zynq", "/sys/devices/soc0/fffc0000.uScope/dma_addr"),
    ("zynqmp", "/sys/devices/platform/fffc000000008000.uScope/dma_addr"),
    ("emulate", "/dev/urandom"), ("testing", "/tmp/buffer_addres_if")]

/-- `map.at(arch)` -/
def pathFor (d : InterfacesDictionary) (paths : List (String × String)) :
    Except Failure String :=
  match paths.lookup d.arch with
  | some path => .ok path
  | none => .error .logicError

/-- The device of a clock, of which there are four. -/
def getClockIf (d : InterfacesDictionary) (clockNumber : UInt8) : Except Failure String :=
  if d.arch = "trap" then
    .error (.runtimeError "Attempted access to configuration before architecture selection")
  else if 3 < clockNumber then .error .logicError
  else (d.pathFor clockIf).map fun path =>
    if d.arch = "emulate" then path
    else if d.arch = "zynqmp" then path ++ toString clockNumber ++ "/set_rate"
    else path ++ toString clockNumber

theorem lt_four_of_getClockIf {d : InterfacesDictionary} {clockNumber : UInt8} {path : String}
    (h : d.getClockIf clockNumber = .ok path) : clockNumber.toNat < 4 := by
  unfold getClockIf at h
  by_cases ht : d.arch = "trap"
  · rw [if_pos ht] at h
    cases h
  · by_cases hn : 3 < clockNumber
    · rw [if_neg ht, if_pos hn] at h
      cases h
    · rw [UInt8.lt_iff_toNat_lt] at hn
      exact Nat.lt_succ_of_le (Nat.le_of_not_lt hn)

/-- The file with the address of the DMA buffer. -/
def getBufferAddressIf (d : InterfacesDictionary) : Except Failure String :=
  if d.arch = "trap" then
    .error (.runtimeError "Attempted access to configuration before architecture selection")
  else d.pathFor bufferAddressIf

/-- The device of the bitstream. Here nothing checks that an architecture is selected. -/
def getFpgaBitstreamIf (d : InterfacesDictionary) : Except Failure String :=
  d.pathFor fpgaManagerBitstreamIf

end InterfacesDictionary

/-- How a write to a device file ends. -/
inductive FileWrite where
  | notOpened
  | notWritten
  | written
  deriving DecidableEq, Repr

/-- What the kernel makes of a bitstream : it is refused, or there is a status. -/
inductive BitstreamLoad where
  | refused
  | status (c : Char)
  deriving DecidableEq, Repr

/-- The files as a request finds them. -/
structure Devices where
  ifDict : InterfacesDictionary
  write : String → FileWrite

end UscopeDriver
