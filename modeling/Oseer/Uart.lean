import Mathlib.Logic.Relation
import Oseer.Devices
import Oseer.Library.RingBuffer

/-!
# The serial port

The functions of `arch/i386/arch/devices/uart.c` that move bytes through the
two buffers of the serial port.  The hardware is given by its answers: the
bytes that it delivers while a function asks for them, and the number of bytes
that it takes while a function offers them.  The configuration of the chip is
left out.
-/

namespace Oseer

open RingBuffer

/-- `BUFFER_SIZE`. -/
def BUFFER_SIZE : Nat := 256

/-- `INC_MOD` of an index into a buffer. -/
def incMod (x : Nat) : Nat := if x + 1 < BUFFER_SIZE then x + 1 else 0

/-- The buffers of `arch_uart_t`. -/
structure Uart where
  inbuff : Nat → UInt8
  inf : Nat
  inl : Nat
  insz : Nat
  outbuff : Nat → UInt8
  outf : Nat
  outl : Nat
  outsz : Nat

namespace Uart

/-- The end of `uart_config`: the buffers are empty. -/
def clearBuffers (uart : Uart) : Uart :=
  { uart with inf := 0, inl := 0, insz := 0, outf := 0, outl := 0, outsz := 0 }

/-- One round of the loop of `uart_read`. -/
def readByte (byte : UInt8) (uart : Uart) : Uart :=
  let uart := { uart with
    inbuff := Function.update uart.inbuff uart.inl byte
    inl := incMod uart.inl
    insz := uart.insz + 1 }
  if BUFFER_SIZE < uart.insz then { uart with insz := uart.insz - 1, inf := incMod uart.inf }
  else uart

/-- `uart_read`, with the bytes that are read from `RBR`. -/
def uartRead : List UInt8 → Uart → Uart
  | [], uart => uart
  | byte :: bytes, uart => uartRead bytes (uart.readByte byte)

/-- `uart_write`, while the chip finds `THR` empty so many times: the bytes written
to `THR`. -/
def uartWrite : Nat → Uart → List UInt8 × Uart
  | 0, uart => ([], uart)
  | times + 1, uart =>
      if 0 < uart.outsz then
        let rest := uartWrite times { uart with
          outf := incMod uart.outf
          outsz := uart.outsz - 1 }
        (uart.outbuff uart.outf :: rest.1, rest.2)
      else ([], uart)

/-- The bytes that `uart_send` sends: console commands are turned into single
characters. -/
def payload (flags : Nat) (data : List UInt8) : List UInt8 :=
  if flags = PRINTCHAR then [data.headD 0]
  else if flags = CLEAR ∨ flags = GOTOXY then [0x0a]
  else data

/-- The first loop of `uart_send`: the number of bytes left. -/
def fillOut : List UInt8 → Uart → Nat × Uart
  | [], uart => (0, uart)
  | byte :: bytes, uart =>
      if uart.outsz < BUFFER_SIZE then
        fillOut bytes { uart with
          outbuff := Function.update uart.outbuff uart.outl byte
          outl := incMod uart.outl
          outsz := uart.outsz + 1 }
      else (bytes.length + 1, uart)

/-- `uart_send` without `UART_SETCONF`: the number of bytes left, and the bytes written
to `THR`. -/
def uartSend (flags : Nat) (data : List UInt8) (times : Nat) (uart : Uart) :
    Nat × List UInt8 × Uart :=
  let filled := uart.fillOut (payload flags data)
  let written := filled.2.uartWrite times
  (filled.1, written.1, written.2)

/-- The loop of `uart_recv`. -/
def takeIn : Nat → Uart → List UInt8 × Uart
  | 0, uart => ([], uart)
  | size + 1, uart =>
      if 0 < uart.insz then
        let rest := takeIn size { uart with
          inf := incMod uart.inf
          insz := uart.insz - 1 }
        (uart.inbuff uart.inf :: rest.1, rest.2)
      else ([], uart)

/-- `uart_recv` without `UART_GETCONF`: the bytes that the caller gets. -/
def uartRecv (size : Nat) (bytes : List UInt8) (uart : Uart) : List UInt8 × Uart :=
  (uart.uartRead bytes).takeIn size

/-- The bytes that wait in the input buffer. -/
def inQueue (uart : Uart) : List UInt8 :=
  contents BUFFER_SIZE uart.inbuff uart.inf uart.insz

/-- The bytes that wait in the output buffer. -/
def outQueue (uart : Uart) : List UInt8 :=
  contents BUFFER_SIZE uart.outbuff uart.outf uart.outsz

end Uart

/-- The port and a record of all bytes: those written to `THR`, those that sends
accepted, those read from `RBR`, and those that were received. -/
structure UartRun where
  uart : Uart
  written : List UInt8
  accepted : List UInt8
  read : List UInt8
  received : List UInt8

/-- A call of a function of the port.  Interrupts call `uart_read` and `uart_write`. -/
inductive UartStep : UartRun → UartRun → Prop
  | read {run : UartRun} (bytes : List UInt8) :
      UartStep run { run with
        uart := run.uart.uartRead bytes
        read := run.read ++ bytes }
  | write {run : UartRun} {out : List UInt8} {uart : Uart} (times : Nat)
      (result : run.uart.uartWrite times = (out, uart)) :
      UartStep run { run with uart := uart, written := run.written ++ out }
  | send {run : UartRun} {left : Nat} {out : List UInt8} {uart : Uart} (flags : Nat)
      (data : List UInt8) (times : Nat) (noConf : flags &&& UART_SETCONF = 0)
      (result : run.uart.uartSend flags data times = (left, out, uart)) :
      UartStep run { run with
        uart := uart
        written := run.written ++ out
        accepted := run.accepted ++
          (Uart.payload flags data).take ((Uart.payload flags data).length - left) }
  | recv {run : UartRun} {got : List UInt8} {uart : Uart} (size : Nat) (bytes : List UInt8)
      (result : run.uart.uartRecv size bytes = (got, uart)) :
      UartStep run { run with
        uart := uart
        read := run.read ++ bytes
        received := run.received ++ got }

/-- How the bytes that were read reach their reader: they wait in order, and the oldest
one is lost only when more than `BUFFER_SIZE` bytes would wait. -/
inductive Arrives : List UInt8 → List UInt8 → List UInt8 → Prop
  | start : Arrives [] [] []
  | arrive {read received waiting : List UInt8} (byte : UInt8)
      (room : waiting.length < BUFFER_SIZE) (before : Arrives read received waiting) :
      Arrives (read ++ [byte]) received (waiting ++ [byte])
  | lose {read received waiting : List UInt8} {oldest : UInt8} (byte : UInt8)
      (full : (oldest :: waiting).length = BUFFER_SIZE)
      (before : Arrives read received (oldest :: waiting)) :
      Arrives (read ++ [byte]) received (waiting ++ [byte])
  | receive {read received waiting : List UInt8} {oldest : UInt8}
      (before : Arrives read received (oldest :: waiting)) :
      Arrives read (received ++ [oldest]) waiting

section Buffers

variable {uart : Uart} {byte : UInt8} {bytes data read received : List UInt8} {times size : Nat}

/-- The indexes and the counters of both buffers belong together. -/
structure Uart.Sound (uart : Uart) : Prop where
  input : Valid BUFFER_SIZE uart.inf uart.inl uart.insz
  output : Valid BUFFER_SIZE uart.outf uart.outl uart.outsz

theorem incMod_eq {x : Nat} (less : x < BUFFER_SIZE) : incMod x = (x + 1) % BUFFER_SIZE :=
  next_eq less

theorem Uart.Sound.clearBuffers : (uart.clearBuffers).Sound :=
  ⟨Valid.empty (by decide), Valid.empty (by decide)⟩

theorem Uart.Sound.readByte (sound : uart.Sound) (byte : UInt8) :
    (uart.readByte byte).Sound ∧ (uart.readByte byte).outQueue = uart.outQueue ∧
      (uart.readByte byte).inQueue = pushNewest BUFFER_SIZE uart.inQueue byte := by
  have sizeLe := sound.input.size_le
  unfold Uart.readByte
  dsimp only
  rw [incMod_eq sound.input.last_lt, incMod_eq sound.input.first_lt]
  split
  · obtain ⟨valid, pushed⟩ := sound.input.overwrite uart.inbuff byte (by omega)
    exact ⟨⟨valid, sound.output⟩, rfl, pushed⟩
  · obtain ⟨valid, pushed⟩ := sound.input.push uart.inbuff byte (by omega)
    exact ⟨⟨valid, sound.output⟩, rfl, pushed⟩

theorem Arrives.push {waiting : List UInt8} (arrives : Arrives read received waiting) (byte : UInt8)
    (bound : waiting.length ≤ BUFFER_SIZE) :
    Arrives (read ++ [byte]) received (pushNewest BUFFER_SIZE waiting byte) := by
  unfold pushNewest
  split
  · exact arrives.arrive byte ‹_›
  · cases waiting with
    | nil => exact absurd (by decide) ‹¬ ([] : List UInt8).length < BUFFER_SIZE›
    | cons oldest rest => exact arrives.lose byte (Nat.le_antisymm bound (Nat.not_lt.mp ‹_›))

/-- `uart_read` lets bytes arrive. -/
theorem Uart.Sound.uartRead (sound : uart.Sound) (bytes : List UInt8)
    (arrives : Arrives read received uart.inQueue) :
    (uart.uartRead bytes).Sound ∧ (uart.uartRead bytes).outQueue = uart.outQueue ∧
      Arrives (read ++ bytes) received (uart.uartRead bytes).inQueue := by
  induction bytes generalizing uart read with
  | nil =>
      rw [List.append_nil]
      exact ⟨sound, rfl, arrives⟩
  | cons byte bytes ih =>
      obtain ⟨soundNext, sameOut, pushed⟩ := sound.readByte byte
      have bound : uart.inQueue.length ≤ BUFFER_SIZE := by
        unfold Uart.inQueue
        rw [contents_length]
        exact sound.input.size_le
      have arrivesNext := arrives.push byte bound
      rw [← pushed] at arrivesNext
      obtain ⟨soundEnd, sameEnd, arrivesEnd⟩ := ih soundNext arrivesNext
      rw [List.append_assoc] at arrivesEnd
      exact ⟨soundEnd, sameEnd.trans sameOut, arrivesEnd⟩

/-- The loop of `uart_recv` hands over the oldest bytes. -/
theorem Uart.Sound.takeIn (sound : uart.Sound) (size : Nat)
    (arrives : Arrives read received uart.inQueue) :
    (uart.takeIn size).2.Sound ∧ (uart.takeIn size).2.outQueue = uart.outQueue ∧
      Arrives read (received ++ (uart.takeIn size).1) (uart.takeIn size).2.inQueue := by
  induction size generalizing uart received with
  | zero =>
      unfold Uart.takeIn
      rw [List.append_nil]
      exact ⟨sound, rfl, arrives⟩
  | succ size ih =>
      unfold Uart.takeIn
      split
      · obtain ⟨valid, popped⟩ := sound.input.pop uart.inbuff ‹_›
        unfold Uart.inQueue at arrives
        rw [popped] at arrives
        have arrivesNext := arrives.receive
        rw [← incMod_eq sound.input.first_lt] at valid arrivesNext
        have soundNext : Uart.Sound { uart with
            inf := incMod uart.inf
            insz := uart.insz - 1 } := ⟨valid, sound.output⟩
        obtain ⟨soundEnd, sameEnd, arrivesEnd⟩ := ih soundNext arrivesNext
        rw [List.append_assoc] at arrivesEnd
        exact ⟨soundEnd, sameEnd, arrivesEnd⟩
      · rw [List.append_nil]
        exact ⟨sound, rfl, arrives⟩

/-- `uart_write` writes the oldest bytes of the output buffer. -/
theorem Uart.Sound.uartWrite (sound : uart.Sound) (times : Nat) :
    (uart.uartWrite times).2.Sound ∧ (uart.uartWrite times).2.inQueue = uart.inQueue ∧
      uart.outQueue = (uart.uartWrite times).1 ++ (uart.uartWrite times).2.outQueue := by
  induction times generalizing uart with
  | zero => exact ⟨sound, rfl, rfl⟩
  | succ times ih =>
      unfold Uart.uartWrite
      split
      · obtain ⟨valid, popped⟩ := sound.output.pop uart.outbuff ‹_›
        rw [← incMod_eq sound.output.first_lt] at valid popped
        have soundNext : Uart.Sound { uart with
            outf := incMod uart.outf
            outsz := uart.outsz - 1 } := ⟨sound.input, valid⟩
        obtain ⟨soundEnd, sameEnd, split⟩ := ih soundNext
        refine ⟨soundEnd, sameEnd, ?_⟩
        rw [List.cons_append, ← split]
        exact popped
      · exact ⟨sound, rfl, rfl⟩

/-- `uart_send` accepts the first bytes, as many as there is room for. -/
theorem Uart.Sound.fillOut (sound : uart.Sound) (bytes : List UInt8) :
    (uart.fillOut bytes).2.Sound ∧ (uart.fillOut bytes).2.inQueue = uart.inQueue ∧
      (uart.fillOut bytes).1 ≤ bytes.length ∧
      (uart.fillOut bytes).2.outQueue =
        uart.outQueue ++ bytes.take (bytes.length - (uart.fillOut bytes).1) := by
  induction bytes generalizing uart with
  | nil =>
      unfold Uart.fillOut
      rw [List.take_nil, List.append_nil]
      exact ⟨sound, rfl, Nat.le_refl _, rfl⟩
  | cons byte bytes ih =>
      unfold Uart.fillOut
      split
      · have room : uart.outsz < BUFFER_SIZE := ‹_›
        obtain ⟨valid, pushed⟩ := sound.output.push uart.outbuff byte room
        rw [← incMod_eq sound.output.last_lt] at valid
        have soundNext : Uart.Sound { uart with
            outbuff := Function.update uart.outbuff uart.outl byte
            outl := incMod uart.outl
            outsz := uart.outsz + 1 } := ⟨sound.input, valid⟩
        have appended : Uart.outQueue { uart with
            outbuff := Function.update uart.outbuff uart.outl byte
            outl := incMod uart.outl
            outsz := uart.outsz + 1 } = uart.outQueue ++ [byte] := by
          refine pushed.trans ?_
          rw [pushNewest, contents_length, if_pos room]
          rfl
        obtain ⟨soundEnd, sameEnd, less, filled⟩ := ih soundNext
        refine ⟨soundEnd, sameEnd, Nat.le_succ_of_le less, ?_⟩
        rw [filled, appended, List.length_cons, Nat.succ_sub less, List.take_succ_cons,
          List.append_assoc]
        rfl
      · rw [List.length_cons, Nat.sub_self, List.take_zero, List.append_nil]
        exact ⟨sound, rfl, Nat.le_refl _, rfl⟩

end Buffers

section Runs

variable {run run' : UartRun}

/-- What holds in every state of a run. -/
structure UartRun.Sound (run : UartRun) : Prop where
  buffers : run.uart.Sound
  output : run.accepted = run.written ++ run.uart.outQueue
  input : Arrives run.read run.received run.uart.inQueue

/-- Every call keeps the account of the bytes. -/
theorem UartRun.Sound.step (sound : run.Sound) (step : UartStep run run') : run'.Sound := by
  obtain ⟨buffers, output, input⟩ := sound
  cases step with
  | read bytes =>
      obtain ⟨buffers', sameOut, input'⟩ := buffers.uartRead bytes input
      exact ⟨buffers', output.trans (by rw [← sameOut]), input'⟩
  | write times result =>
      obtain ⟨buffers', sameIn, written⟩ := buffers.uartWrite times
      rw [result] at buffers' sameIn written
      dsimp only at buffers' sameIn written
      refine ⟨buffers', ?_, sameIn ▸ input⟩
      dsimp only
      rw [output, written, List.append_assoc]
  | send flags data times _ result =>
      obtain ⟨filledOk, sameFilled, -, filled⟩ := buffers.fillOut (Uart.payload flags data)
      obtain ⟨buffers', sameIn, written⟩ := filledOk.uartWrite times
      unfold Uart.uartSend at result
      simp only [Prod.mk.injEq] at result
      obtain ⟨rfl, rfl, rfl⟩ := result
      refine ⟨buffers', ?_, (sameIn.trans sameFilled) ▸ input⟩
      dsimp only
      rw [output, List.append_assoc, List.append_assoc, ← filled, written]
  | recv size bytes result =>
      obtain ⟨readOk, sameRead, input'⟩ := buffers.uartRead bytes input
      obtain ⟨buffers', sameOut, received⟩ := readOk.takeIn size input'
      unfold Uart.uartRecv at result
      rw [result] at buffers' sameOut received
      dsimp only at buffers' sameOut received
      exact ⟨buffers', output.trans (by rw [sameOut, sameRead]), received⟩

theorem UartRun.Sound.steps (sound : run.Sound)
    (steps : Relation.ReflTransGen UartStep run run') : run'.Sound := by
  induction steps with
  | refl => exact sound
  | tail _ step ih => exact ih.step step

/-- What arrives and is not lost keeps its order. -/
theorem Arrives.sublist {read received waiting : List UInt8}
    (arrives : Arrives read received waiting) : (received ++ waiting).Sublist read := by
  induction arrives with
  | start => exact List.Sublist.refl _
  | arrive byte room before ih =>
      rw [← List.append_assoc]
      exact ih.append_right [byte]
  | @lose read received waiting oldest byte full before ih =>
      rw [← List.append_assoc]
      have dropped : (received ++ waiting).Sublist (received ++ oldest :: waiting) :=
        (List.sublist_cons_self oldest waiting).append_left received
      exact (dropped.trans ih).append_right [byte]
  | receive before ih =>
      rw [List.append_assoc]
      exact ih

/-- The port with empty buffers, and nothing sent or received yet. -/
def UartRun.start (uart : Uart) : UartRun := ⟨uart.clearBuffers, [], [], [], []⟩

/-- In every run of the functions of the serial port, the bytes written to `THR` are a
prefix of the accepted ones, and the output buffer holds the rest; the bytes received
are those read from `RBR`, without the oldest ones of more than `BUFFER_SIZE` that
waited; and the indexes and the counters of both buffers belong together. -/
theorem uart_loses_nothing (uart : Uart)
    (steps : Relation.ReflTransGen UartStep (UartRun.start uart) run) :
    run.accepted = run.written ++ run.uart.outQueue ∧
      Arrives run.read run.received run.uart.inQueue ∧
      (run.received ++ run.uart.inQueue).Sublist run.read ∧
      (run.uart.inf + run.uart.insz) % BUFFER_SIZE = run.uart.inl ∧
      (run.uart.outf + run.uart.outsz) % BUFFER_SIZE = run.uart.outl ∧
      run.uart.insz ≤ BUFFER_SIZE ∧ run.uart.outsz ≤ BUFFER_SIZE := by
  have started : (UartRun.start uart).Sound := ⟨Uart.Sound.clearBuffers, rfl, .start⟩
  obtain ⟨buffers, output, input⟩ := started.steps steps
  exact ⟨output, input, input.sublist, buffers.input.meet, buffers.output.meet,
    buffers.input.size_le, buffers.output.size_le⟩

/-- A port before it is used. -/
def bootUart : Uart := ⟨fun _ => 0, 0, 0, 0, fun _ => 0, 0, 0, 0⟩

/-- Two bytes are sent, one of which the chip takes. -/
theorem uart_loses_nothing_send :
    ∃ run, Relation.ReflTransGen UartStep (UartRun.start bootUart) run ∧
      run.written = [0x61] ∧ run.accepted = run.written ++ run.uart.outQueue := by
  have step : UartStep (UartRun.start bootUart) _ := .send 0 [0x61, 0x62] 1 rfl rfl
  exact ⟨_, .single step, by decide, (uart_loses_nothing bootUart (.single step)).1⟩

end Runs

end Oseer
