import Oseer.Uart

/-!
# The configuration of the serial port

`uart_config` checks the parameters of a port, stores them and programs the chip.  Each of its
tests of a range joins the two bounds by "or", so that all numbers pass, and the setting of the line
is computed but not written to the line control register.
-/

namespace Oseer

/-- `E_INVALID_ARGUMENT`. -/
def E_INVALID_ARGUMENT : Int := 13

def PARITY_NONE : BitVec 8 := 0 <<< 3
def PARITY_ODD : BitVec 8 := 1 <<< 3
def PARITY_EVEN : BitVec 8 := 3 <<< 3
def PARITY_MARK : BitVec 8 := 5 <<< 3
def PARITY_SPACE : BitVec 8 := 7 <<< 3

def STOPBIT_1 : BitVec 8 := 0 <<< 2
def STOPBIT_15 : BitVec 8 := 1 <<< 2

def UART_BYTE : BitVec 8 := 1
def UART_STREAM : BitVec 8 := 2

/-- The registers, counted from the port of the chip. -/
def DLL : Nat := 0
def IER : Nat := 1
def DLM : Nat := 1
def FCR : Nat := 2
def LCR : Nat := 3
def MCR : Nat := 4

def IER_DEFAULT : BitVec 8 := 7
def FCR_ENABLE : BitVec 8 := 0x01
def FCR_CLEAR : BitVec 8 := 0x06
def FCR_BYTE_MODE : BitVec 8 := 0x00
def FCR_STREAM_MODE : BitVec 8 := 0xC0
def FCR_64BYTES : BitVec 8 := 0x20
def LCR_DLAB_ON : BitVec 8 := 0x80
def LCR_DLAB_OFF : BitVec 8 := 0x00
def LCR_BREAK : BitVec 8 := 0x40
def MCR_DEFAULT : BitVec 8 := 0x08

/-- The types of the chip, `UT8250` to `UT16750`. -/
def UT8250 : Nat := 1
def UT16550 : Nat := 3
def UT16750 : Nat := 5

/-- `uart_t`; the members of type `int8` are words of eight bits. -/
structure UartParams where
  speed : BitVec 32
  dataBits : BitVec 8
  parity : BitVec 8
  stopBit : BitVec 8
  mode : BitVec 8
deriving DecidableEq, Repr

/-- `arch_uart_t`. -/
structure ArchUart where
  initialized : Bool
  params : UartParams
  port : Nat
  buffers : Uart

/-- A call of `outb`. -/
structure PortWrite where
  port : Nat
  value : BitVec 8
deriving DecidableEq, Repr

/-- What `uart_config` returns, writes and leaves. -/
structure Configured where
  retval : Int
  writes : List PortWrite
  up : ArchUart

namespace UartParams

/-- The value of `setting` for the line. -/
def lineSetting (uartType : Nat) (params : UartParams) : BitVec 8 :=
  let setting := params.dataBits - 5
  let setting := setting ||| (params.parity ||| params.stopBit ||| LCR_DLAB_OFF)
  if UT16550 ≤ uartType then setting ||| LCR_BREAK else setting

/-- The value of `setting` for the FIFO buffers. -/
def fifoSetting (uartType : Nat) (params : UartParams) : BitVec 8 :=
  let setting := FCR_ENABLE ||| FCR_CLEAR
  let setting := setting ||| if params.mode = UART_BYTE then FCR_BYTE_MODE else FCR_STREAM_MODE
  if uartType = UT16750 then setting ||| FCR_64BYTES else setting

/-- The tests of `uart_config`. -/
def Accepted (params : UartParams) : Prop :=
  (5 ≤ params.dataBits.toInt ∨ params.dataBits.toInt ≤ 8) ∧
    (0 ≤ params.parity.toInt ∨ params.parity.toInt ≤ 7) ∧
    (STOPBIT_1.toInt ≤ params.stopBit.toInt ∨ params.stopBit.toInt ≤ STOPBIT_15.toInt) ∧
    (params.mode = UART_BYTE ∨ params.mode = UART_STREAM)

instance (params : UartParams) : Decidable params.Accepted := inferInstanceAs (Decidable (_ ∧ _))

/-- The parameters are in the ranges that the header gives. -/
def Valid (params : UartParams) : Prop :=
  (5 ≤ params.dataBits.toInt ∧ params.dataBits.toInt ≤ 8) ∧
    params.parity ∈ [PARITY_NONE, PARITY_ODD, PARITY_EVEN, PARITY_MARK, PARITY_SPACE] ∧
    (params.stopBit = STOPBIT_1 ∨ params.stopBit = STOPBIT_15) ∧
    (params.mode = UART_BYTE ∨ params.mode = UART_STREAM)

instance (params : UartParams) : Decidable params.Valid := inferInstanceAs (Decidable (_ ∧ _))

/-- The line control register has the settings of the line. -/
structure Encoded (params : UartParams) (value : BitVec 8) : Prop where
  dataBits : ((value &&& 0x03) + 5 : BitVec 8) = params.dataBits
  parity : value &&& 0x38 = params.parity
  stopBit : value &&& 0x04 = params.stopBit

instance (params : UartParams) (value : BitVec 8) : Decidable (params.Encoded value) :=
  decidable_of_iff (((value &&& 0x03) + 5 : BitVec 8) = params.dataBits ∧
      value &&& 0x38 = params.parity ∧ value &&& 0x04 = params.stopBit)
    ⟨fun all => ⟨all.1, all.2.1, all.2.2⟩, fun encoded =>
      ⟨encoded.dataBits, encoded.parity, encoded.stopBit⟩⟩

end UartParams

/-- The writes of `uart_config` to the ports. -/
def configWrites (uartType : Nat) (params : UartParams) (port : Nat) : List PortWrite :=
  [⟨port + IER, 0⟩] ++
    (if UT8250 < uartType then [⟨port + FCR, params.fifoSetting uartType⟩] else []) ++
    [⟨port + LCR, LCR_DLAB_ON⟩,
      ⟨port + DLL, (params.speed &&& 0xff).setWidth 8⟩,
      ⟨port + DLM, (params.speed.sshiftRight 8).setWidth 8⟩,
      ⟨port + LCR, LCR_DLAB_OFF⟩,
      -- `lineSetting` is computed here and not written
      ⟨port + MCR, MCR_DEFAULT⟩,
      ⟨port + IER, IER_DEFAULT⟩]

/-- `uart_config`. -/
def uartConfig (uartType : Nat) (params : UartParams) (up : ArchUart) : Configured :=
  if params.Accepted then
    { retval := 0
      writes := configWrites uartType params up.port
      up := { up with initialized := true, params := params, buffers := up.buffers.clearBuffers } }
  else ⟨-E_INVALID_ARGUMENT, [], up⟩

/-- The last value written to the line control register with a clear `DLAB`. -/
def lastLine (port : Nat) (writes : List PortWrite) : Option (BitVec 8) :=
  ((writes.filter fun write => write.port = port + LCR ∧ write.value &&& LCR_DLAB_ON = 0).getLast?).map
    PortWrite.value

/-- Wrong parameters are refused and nothing is changed; right ones are programmed. -/
structure Configured.Right (params : UartParams) (up : ArchUart) (configured : Configured) :
    Prop where
  refused : ¬ params.Valid → configured = ⟨-E_INVALID_ARGUMENT, [], up⟩
  programmed : params.Valid →
    ∃ value, lastLine up.port configured.writes = some value ∧ params.Encoded value

section Configuration

variable {uartType : Nat} {params : UartParams} {up : ArchUart}

theorem UartParams.accepted_iff :
    params.Accepted ↔ params.mode = UART_BYTE ∨ params.mode = UART_STREAM := by
  have dataBits : 5 ≤ params.dataBits.toInt ∨ params.dataBits.toInt ≤ 8 := by omega
  have parity : 0 ≤ params.parity.toInt ∨ params.parity.toInt ≤ 7 := by omega
  have stopBit : STOPBIT_1.toInt ≤ params.stopBit.toInt ∨
      params.stopBit.toInt ≤ STOPBIT_15.toInt := by
    have order : STOPBIT_1.toInt ≤ STOPBIT_15.toInt := by decide
    omega
  constructor
  · rintro ⟨-, -, -, mode⟩
    exact mode
  · intro mode
    exact ⟨dataBits, parity, stopBit, mode⟩

theorem UartParams.Valid.accepted (valid : params.Valid) : params.Accepted :=
  accepted_iff.mpr valid.2.2.2

theorem dataBits_mem {word : BitVec 8} (least : 5 ≤ word.toInt) (most : word.toInt ≤ 8) :
    word ∈ ([5, 6, 7, 8] : List (BitVec 8)) := by
  have back : BitVec.ofInt 8 word.toInt = word := BitVec.ofInt_toInt
  have cases : word.toInt = 5 ∨ word.toInt = 6 ∨ word.toInt = 7 ∨ word.toInt = 8 := by omega
  rcases cases with value | value | value | value
  all_goals
    rw [value] at back
    rw [← back]
    decide

-- the forty settings, with and without the bit that the chips from `UT16550` on add
theorem encoded_of_mem : ∀ bits ∈ ([5, 6, 7, 8] : List (BitVec 8)),
    ∀ parity ∈ [PARITY_NONE, PARITY_ODD, PARITY_EVEN, PARITY_MARK, PARITY_SPACE],
    ∀ stop ∈ [STOPBIT_1, STOPBIT_15], ∀ rest ∈ [0, LCR_BREAK],
      let value := (bits - 5 ||| (parity ||| stop ||| LCR_DLAB_OFF)) ||| rest
      (value &&& 0x03) + 5 = bits ∧ value &&& 0x38 = parity ∧ value &&& 0x04 = stop := by
  simp [PARITY_NONE, PARITY_ODD, PARITY_EVEN, PARITY_MARK, PARITY_SPACE, STOPBIT_1, STOPBIT_15,
    LCR_BREAK, LCR_DLAB_OFF]

/-- The setting that is computed for valid parameters encodes them. -/
theorem UartParams.Valid.lineSetting_encoded (valid : params.Valid) :
    params.Encoded (params.lineSetting uartType) := by
  obtain ⟨⟨least, most⟩, parity, stopBit, -⟩ := valid
  have stopBits : params.stopBit ∈ [STOPBIT_1, STOPBIT_15] := by simpa using stopBit
  have fields := encoded_of_mem _ (dataBits_mem least most) _ parity _ stopBits
  unfold lineSetting
  dsimp only
  by_cases modern : UT16550 ≤ uartType
  · rw [if_pos modern]
    obtain ⟨bits, par, stop⟩ := fields LCR_BREAK (by simp)
    exact ⟨bits, par, stop⟩
  · rw [if_neg modern]
    have none : ∀ word : BitVec 8, word ||| 0 = word := fun word => BitVec.or_zero
    obtain ⟨bits, par, stop⟩ := fields 0 (by simp)
    rw [none] at bits par stop
    exact ⟨bits, par, stop⟩

theorem lastLine_configWrites (port : Nat) :
    lastLine port (configWrites uartType params port) = some LCR_DLAB_OFF := by
  unfold lastLine configWrites
  by_cases fifo : UT8250 < uartType
  · rw [if_pos fifo]
    simp [LCR, IER, FCR, DLL, DLM, MCR, LCR_DLAB_ON, LCR_DLAB_OFF]
  · rw [if_neg fifo]
    simp [LCR, IER, DLL, DLM, MCR, LCR_DLAB_ON, LCR_DLAB_OFF]

theorem UartParams.encoded_zero_iff : params.Encoded LCR_DLAB_OFF ↔
    params.dataBits = 5 ∧ params.parity = PARITY_NONE ∧ params.stopBit = STOPBIT_1 := by
  constructor
  · rintro ⟨dataBits, parity, stopBit⟩
    exact ⟨dataBits.symm, parity.symm, stopBit.symm⟩
  · rintro ⟨dataBits, parity, stopBit⟩
    exact ⟨dataBits.symm, parity.symm, stopBit.symm⟩

/-- `uart_config` is right exactly where the mode is refused, and for the parameters that are
programmed by chance. -/
theorem uartConfig_right_iff (uartType : Nat) (params : UartParams) (up : ArchUart) :
    (uartConfig uartType params up).Right params up ↔
      ¬ (params.mode = UART_BYTE ∨ params.mode = UART_STREAM) ∨
        params.dataBits = 5 ∧ params.parity = PARITY_NONE ∧ params.stopBit = STOPBIT_1 := by
  by_cases accepted : params.Accepted
  · have mode := UartParams.accepted_iff.mp accepted
    have result : uartConfig uartType params up =
        ⟨0, configWrites uartType params up.port, { up with
          initialized := true, params := params, buffers := up.buffers.clearBuffers }⟩ :=
      if_pos accepted
    rw [result, or_iff_right (not_not_intro mode), ← UartParams.encoded_zero_iff]
    constructor
    · rintro ⟨refused, programmed⟩
      by_cases valid : params.Valid
      · obtain ⟨value, last, encoded⟩ := programmed valid
        rw [lastLine_configWrites] at last
        obtain rfl := Option.some.inj last
        exact encoded
      · have code := congrArg Configured.retval (refused valid)
        cases code
    · intro encoded
      refine ⟨fun invalid => absurd ?_ invalid, fun _ => ?_⟩
      · obtain ⟨dataBits, parity, stopBit⟩ := UartParams.encoded_zero_iff.mp encoded
        unfold UartParams.Valid
        rw [dataBits, parity, stopBit]
        exact ⟨by decide, by decide, by decide, mode⟩
      · exact ⟨LCR_DLAB_OFF, lastLine_configWrites up.port, encoded⟩
  · have mode := mt UartParams.accepted_iff.mpr accepted
    have result : uartConfig uartType params up = ⟨-E_INVALID_ARGUMENT, [], up⟩ := if_neg accepted
    refine iff_of_true ⟨fun _ => result, fun valid => ?_⟩ (.inl mode)
    exact absurd valid.accepted accepted

/-- Nine data bits are accepted, and the usual eight are not programmed. -/
theorem uartConfig_right_fail : ∃ up : ArchUart,
    ¬ (uartConfig UT16550 ⟨115200, 9, PARITY_NONE, STOPBIT_1, UART_BYTE⟩ up).Right
        ⟨115200, 9, PARITY_NONE, STOPBIT_1, UART_BYTE⟩ up ∧
      ¬ (uartConfig UT16550 ⟨115200, 8, PARITY_NONE, STOPBIT_1, UART_BYTE⟩ up).Right
        ⟨115200, 8, PARITY_NONE, STOPBIT_1, UART_BYTE⟩ up := by
  refine ⟨⟨false, ⟨115200, 8, PARITY_NONE, STOPBIT_1, UART_BYTE⟩, 0x3f8, bootUart⟩, ?_, ?_⟩
  · intro right
    have code := congrArg Configured.retval (right.refused (by decide))
    cases code
  · intro right
    obtain ⟨value, last, encoded⟩ := right.programmed (by decide)
    have isZero : value = 0 := (Option.some.inj last).symm
    exact absurd encoded (by rw [isZero]; decide)

end Configuration

end Oseer
