/-!
# The commands of devices

The flags of `lib/types.h` that programs hand to devices with their data.
-/

namespace Oseer

section Console

/-- The command `PRINTCHAR`. -/
def PRINTCHAR : Nat := 4

/-- The command `CLEAR`. -/
def CLEAR : Nat := 8

/-- The command `GOTOXY`. -/
def GOTOXY : Nat := 16

end Console

section Keyboard

/-- The flag `ONLY_ASCII`. -/
def ONLY_ASCII : Nat := 4

/-- The flag `ONLY_LAST`. -/
def ONLY_LAST : Nat := 8

/-- The flag `CLEAR_BUFFER`. -/
def CLEAR_BUFFER : Nat := 32

end Keyboard

section SerialPort

/-- The flag `UART_SETCONF`. -/
def UART_SETCONF : Nat := 0x40000000

/-- The flag `UART_GETCONF`. -/
def UART_GETCONF : Nat := 0x80000000

end SerialPort

end Oseer
