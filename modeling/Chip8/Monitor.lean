import Chip8.Call
import Chip8.Notice

/-!
# A machine under observation

A monitor passes requests on to its machine and tells what it saw: its notices
come beside the answer and have no part in what the machine does.
-/

namespace Chip8

structure Monitor where
  machine : Machine
  tracing : Bool
  deriving DecidableEq

structure Report where
  monitor : Monitor
  log : List Notice
  result : Except Failure Answer

namespace Monitor

def settle (monitor : Monitor) (outcome : Except Fault Machine)
    (log : Machine → List Notice) : Report :=
  match outcome with
  | .ok after => ⟨{ monitor with machine := after }, log after, .ok .done⟩
  | .error fault => ⟨monitor, [.fault fault], .error (.fault fault)⟩

/-- The trace leaves out what only continues a wait. -/
def traced (monitor : Monitor) (before : Status) (address word : Int) : List Notice :=
  if monitor.tracing ∧ before = .running then [.executed address word] else []

def waits (before : Status) (address : Int) (after : Machine) : List Notice :=
  match before, after.status with
  | .running, .awaitingKey => [.awaitingKey address]
  | .awaitingKey, .running => [.resumed after.pc.toNat]
  | _, _ => []

def notices (monitor : Monitor) (before : Status) (address word : Int) (after : Machine) :
    List Notice :=
  monitor.traced before address word ++ waits before address after

/-- The program counter has passed the instruction already. -/
def execute (monitor : Monitor) (word : Option Int) : Report :=
  let m := monitor.machine
  let w := m.wordOr word
  monitor.settle (m.execute w) (monitor.notices m.status (m.pc.toNat - 2) w)

def clock (monitor : Monitor) : Report :=
  let m := monitor.machine
  match m.status with
  | .running =>
    monitor.settle m.clock fun after =>
      monitor.notices .running m.pc.toNat after.held.toNat after
  | .awaitingKey =>
    monitor.settle m.clock (monitor.notices .awaitingKey (m.pc.toNat - 2) m.held.toNat)

def clocks (monitor : Monitor) : Nat → Report
  | 0 => ⟨monitor, [], .ok .done⟩
  | n + 1 =>
    let first := monitor.clock
    match first.result with
    | .error _ => first
    | .ok _ =>
      let later := first.monitor.clocks n
      { later with log := first.log ++ later.log }

def respond (monitor : Monitor) : Call → Report
  | .loadRom values =>
    match values.mapM byte? with
    | some rom =>
      monitor.settle (monitor.machine.loadRom rom) fun after => [.loadedRom after.romSize]
    | none => ⟨monitor, [], .error .notAByte⟩
  | .loadFile name (.ok rom) =>
    monitor.settle (monitor.machine.loadRom rom) fun after => [.loadedFile name after.romSize]
  | .loadFile _ (.error cause) => ⟨monitor, [], .error (.unreadable cause)⟩
  | .reset clear =>
    ⟨{ monitor with machine := monitor.machine.reset clear }, [.reset clear], .ok .done⟩
  | .fetch =>
    match monitor.machine.fetch with
    | .ok (after, word) =>
      ⟨{ monitor with machine := after }, [], .ok (.instruction (.ofWord word))⟩
    | .error fault => ⟨monitor, [.fault fault], .error (.fault fault)⟩
  | .execute word => monitor.execute word
  | .clock => monitor.clock
  | .tick => ⟨{ monitor with machine := monitor.machine.tick }, [], .ok .done⟩
  | .frame count =>
    clocks { monitor with machine := monitor.machine.tick } count.toNat
  | .setKey key pressed =>
    match key.keyName? with
    | some name => monitor.settle (monitor.machine.setKey name pressed) fun _ => []
    | none => ⟨monitor, [], .error .tooManyDigits⟩
  | .disassemble programOnly =>
    match monitor.machine.listing programOnly with
    | .ok text => ⟨monitor, [], .ok (.lines text)⟩
    | .error bad => ⟨monitor, [], .error (.badIndex bad)⟩

def respondAll (monitor : Monitor) : List Call → List Report
  | [] => []
  | call :: rest =>
    let report := monitor.respond call
    report :: report.monitor.respondAll rest

end Monitor

end Chip8
