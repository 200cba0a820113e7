import Chip8.Call

/-!
# Requests as steps

A request is a list of pure operations of the machine: a frame is a tick and its
clocks, every other request is one operation. `respond_eq_follow`: a machine
responds to a request by following its steps up to the first that fails, and
that one has no effect.
-/

namespace Chip8

/-- A pure operation: the machine after it and what it answers, or why it fails. -/
abbrev Step := Machine → Except Failure (Machine × Answer)

namespace Step

def ofChange (change : Machine → Except Fault Machine) : Step := fun m =>
  match change m with
  | .ok after => .ok (after, .done)
  | .error fault => .error (.fault fault)

def load (rom : List Byte) : Step := ofChange fun m => m.loadRom rom
def tick : Step := ofChange fun m => .ok m.tick
def clock : Step := ofChange Machine.clock

def fetch : Step := fun m =>
  match m.fetch with
  | .ok (after, word) => .ok (after, .instruction (.ofWord word))
  | .error fault => .error (.fault fault)

def list (programOnly : Bool) : Step := fun m =>
  match m.listing programOnly with
  | .ok text => .ok (m, .lines text)
  | .error bad => .error (.badIndex bad)

end Step

/-- Only a frame is made of more than one operation. -/
def Call.steps : Call → List Step
  | .loadRom bytes =>
    match bytes.mapM byte? with
    | some rom => [.load rom]
    | none => [fun _ => .error .notAByte]
  | .loadFile _ (.ok rom) => [.load rom]
  | .loadFile _ (.error cause) => [fun _ => .error (.unreadable cause)]
  | .reset clear => [.ofChange fun m => .ok (m.reset clear)]
  | .fetch => [.fetch]
  | .execute none => [.ofChange fun m => m.execute m.held.toNat]
  | .execute (some word) => [.ofChange fun m => m.execute word]
  | .clock => [.clock]
  | .tick => [.tick]
  | .frame count => .tick :: List.replicate count.toNat .clock
  | .setKey key pressed =>
    match key.keyName? with
    | some name => [.ofChange fun m => m.setKey name pressed]
    | none => [fun _ => .error .tooManyDigits]
  | .disassemble programOnly => [.list programOnly]

namespace Machine

def follow (m : Machine) (answer : Answer) : List Step → Machine × Except Failure Answer
  | [] => (m, .ok answer)
  | step :: rest =>
    match step m with
    | .ok (after, answer) => after.follow answer rest
    | .error failure => (m, .error failure)

def followAll (m : Machine) : List Call → List (Machine × Except Failure Answer)
  | [] => []
  | call :: rest =>
    let outcome := m.follow .done call.steps
    outcome :: outcome.1.followAll rest

theorem follow_change (m : Machine) (answer : Answer) (change : Machine → Except Fault Machine) :
    m.follow answer [.ofChange change] = m.settle (change m) := by
  rw [follow, Step.ofChange]
  cases change m with
  | ok after => rfl
  | error fault => rfl

theorem follow_clocks (m : Machine) (n : Nat) :
    m.follow .done (List.replicate n .clock) =
      ((m.clocks n).1, match (m.clocks n).2 with
        | .ok () => .ok .done
        | .error fault => .error (.fault fault)) := by
  induction n generalizing m with
  | zero => rfl
  | succ n ih =>
    rw [List.replicate_succ, follow, Step.clock, Step.ofChange, clocks]
    cases m.clock with
    | ok after => exact ih after
    | error fault => rfl

theorem respond_eq_follow (m : Machine) (call : Call) :
    m.respond call = m.follow .done call.steps := by
  cases call with
  | loadRom bytes =>
    rw [respond, Call.steps]
    cases bytes.mapM byte? with
    | some rom => exact (follow_change m .done fun m => m.loadRom rom).symm
    | none => rfl
  | loadFile name contents =>
    cases contents with
    | ok rom => exact (follow_change m .done fun m => m.loadRom rom).symm
    | error cause => rfl
  | reset clear => rfl
  | fetch =>
    rw [respond, Call.steps, follow, Step.fetch]
    cases m.fetch with
    | ok fetched => rfl
    | error fault => rfl
  | execute word =>
    cases word with
    | none => exact (follow_change m .done fun m => m.execute m.held.toNat).symm
    | some word => exact (follow_change m .done fun m => m.execute word).symm
  | clock => exact (follow_change m .done Machine.clock).symm
  | tick => rfl
  | frame count =>
    have hclocks : m.follow .done (Call.frame count).steps =
        m.tick.follow .done (List.replicate count.toNat .clock) := rfl
    rw [hclocks, follow_clocks, respond]
    obtain ⟨after, outcome⟩ := m.tick.clocks count.toNat
    cases outcome with
    | ok _ => rfl
    | error fault => rfl
  | setKey key pressed =>
    rw [respond, Call.steps]
    cases key.keyName? with
    | some name => exact (follow_change m .done fun m => m.setKey name pressed).symm
    | none => rfl
  | disassemble programOnly =>
    rw [respond, Call.steps, follow, Step.list]
    cases m.listing programOnly with
    | ok text => rfl
    | error bad => rfl

end Machine

end Chip8
