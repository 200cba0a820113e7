import Chip8.Proofs.Monitor.Session

/-!
# Levels of the log

A logger of a higher level prints of a session what one for debugging prints, less the
lines below its level; and the lines at the level of an error are the faults that the
host got for an answer, one line for each (`level_filters`). `TellsFaults` is what makes
them so: in the log of a request there is its fault, if it ended with one, and no other.
-/

namespace Chip8

theorem Severity.ofName_name (severity : Severity) : ofName severity.name = severity := by
  cases severity <;> rfl

namespace Logger

variable (logger : Logger) (stamp : String)

def lines (entries : List Entry) : List (Severity × String) :=
  (entries.filter logger.passes).map fun entry => (entry.severity, logger.line stamp entry)

def faultLine (cause : Fault) : Severity × String :=
  (.error, logger.line stamp (.ofSeverity .error cause.message))

theorem faultLine_eq : ∃ start, ∀ cause,
    logger.faultLine stamp cause = (.error, start ++ cause.message ++ "\n") :=
  ⟨(if logger.stamped then stamp else "") ++ logger.label Severity.error.name ++ "[" ++
    logger.name ++ "] ", fun _ => by rw [faultLine, line]; rfl⟩

theorem lines_cons (entry : Entry) (rest : List Entry) :
    logger.lines stamp (entry :: rest) =
      (if logger.passes entry then [(entry.severity, logger.line stamp entry)] else []) ++
        logger.lines stamp rest := by
  simp only [lines, List.filter_cons]
  split
  · rfl
  · rfl

theorem printAll_eq_lines (entries : List Entry) :
    logger.printAll stamp entries = String.join ((logger.lines stamp entries).map Prod.snd) := by
  induction entries with
  | nil => rfl
  | cons entry rest ih =>
    have printed : logger.printAll stamp (entry :: rest) =
        logger.print stamp entry ++ logger.printAll stamp rest := String.join_cons
    rw [printed, ih, print, lines_cons]
    split
    · exact String.join_cons.symm
    · exact String.empty_append

theorem lines_threshold (level : Severity) (entries : List Entry) :
    lines { logger with threshold := level } stamp entries =
      (lines { logger with threshold := .debug } stamp entries).filter
        fun line => level.rank ≤ line.1.rank := by
  have all : entries.filter (passes { logger with threshold := .debug }) = entries :=
    List.filter_eq_self.mpr fun entry _ => decide_eq_true (Nat.zero_le _)
  rw [lines, lines, all, List.filter_map]
  rfl

end Logger

namespace Notice

def fault? : Notice → Option Fault
  | .fault cause => some cause
  | _ => none

theorem severity_entry (notice : Notice) : notice.entry.severity = notice.severity :=
  Severity.ofName_name _

theorem eq_fault {notice : Notice} (h : notice.fault? = some cause) : notice = .fault cause := by
  cases notice with
  | fault other =>
    cases h
    rfl
  | _ => cases h

theorem severity_ne_error {notice : Notice} (h : notice.fault? = none) :
    notice.severity ≠ .error := by
  cases notice with
  | fault => cases h
  | _ => exact nofun

end Notice

def Report.lines (report : Report) (logger : Logger) (stamp : String) :
    List (Severity × String) :=
  logger.lines stamp (report.log.map Notice.entry)

theorem Logger.passes_iff (logger : Logger) (notice : Notice) :
    logger.passes notice.entry = true ↔ logger.threshold.rank ≤ notice.severity.rank := by
  rw [passes, notice.severity_entry, decide_eq_true_eq]

theorem Logger.errors_lines (logger : Logger) (stamp : String) (log : List Notice) :
    (logger.lines stamp (log.map Notice.entry)).filter (·.1 = .error) =
      if logger.threshold.rank ≤ Severity.error.rank then
        (log.filterMap Notice.fault?).map (logger.faultLine stamp)
      else [] := by
  induction log with
  | nil => simp [lines]
  | cons notice rest ih =>
    rw [List.map_cons, lines_cons, List.filter_append, ih, notice.severity_entry]
    cases found : notice.fault? with
    | some cause =>
      obtain rfl := Notice.eq_fault found
      by_cases upTo : logger.threshold.rank ≤ Severity.error.rank
      · have passes := (logger.passes_iff (.fault cause)).mpr upTo
        rw [if_pos passes, if_pos upTo, if_pos upTo, List.filterMap_cons_some found]
        rfl
      · have stopped := mt (logger.passes_iff (.fault cause)).mp upTo
        rw [if_neg stopped, if_neg upTo, if_neg upTo]
        rfl
    | none =>
      have below := Notice.severity_ne_error found
      rw [List.filterMap_cons_none found]
      split
      · simp [below]
      · rfl

namespace Monitor

def TellsFaults (report : Report) : Prop :=
  report.log.filterMap Notice.fault? = (faultOf report.result).toList

variable (monitor : Monitor)

theorem settle_tellsFaults (outcome : Except Fault Machine) {log : Machine → List Notice}
    (harmless : ∀ after, (log after).filterMap Notice.fault? = []) :
    TellsFaults (monitor.settle outcome log) := by
  cases outcome with
  | ok after => exact harmless after
  | error fault => rfl

theorem notices_harmless (before : Status) (address word : Int) (after : Machine) :
    (monitor.notices before address word after).filterMap Notice.fault? = [] := by
  have trace : (monitor.traced before address word).filterMap Notice.fault? = [] := by
    unfold traced
    split
    · rfl
    · rfl
  have wait : (waits before address after).filterMap Notice.fault? = [] := by
    unfold waits
    split
    · rfl
    · rfl
    · rfl
  rw [notices, List.filterMap_append, trace, wait]
  rfl

theorem clock_tellsFaults : TellsFaults monitor.clock := by
  simp only [clock]
  split
  · exact settle_tellsFaults _ _ fun after => notices_harmless ..
  · exact settle_tellsFaults _ _ fun after => notices_harmless ..

theorem clocks_tellsFaults (n : Nat) : TellsFaults (monitor.clocks n) := by
  induction n generalizing monitor with
  | zero => rfl
  | succ n ih =>
    have first := monitor.clock_tellsFaults
    rw [clocks]
    cases result : monitor.clock.result with
    | error failure => exact first
    | ok answer =>
      have harmless : monitor.clock.log.filterMap Notice.fault? = [] := by
        rw [first, result]
        rfl
      have later := ih monitor.clock.monitor
      simp only [TellsFaults, List.filterMap_append, harmless, List.nil_append]
      exact later

theorem Uneventful.tellsFaults (h : Uneventful report) : TellsFaults report := by
  cases h with
  | faulted monitor cause => rfl
  | told faultless host =>
    rw [TellsFaults, faultless]
    refine List.filterMap_eq_nil_iff.mpr fun notice hn => ?_
    have mine := host notice hn
    cases notice with
    | fault => cases mine
    | _ => rfl

theorem respond_tellsFaults (call : Call) : TellsFaults (monitor.respond call) := by
  cases call with
  | execute word => exact settle_tellsFaults _ _ fun after => notices_harmless ..
  | clock => exact clock_tellsFaults _
  | frame count => exact clocks_tellsFaults _ _
  | _ => exact (monitor.respond_uneventful id).tellsFaults

-- ---------------------------------------------------------------------------
-- A session
-- ---------------------------------------------------------------------------

def told (logger : Logger) (stamp : String) (calls : List Call) :
    List (List (Severity × String)) :=
  (monitor.respondAll calls).map fun report => report.lines logger stamp

theorem printed_session (logger : Logger) (stamp : String) (calls : List Call) :
    (monitor.session logger stamp calls).map Exchange.printed =
      (monitor.told logger stamp calls).map fun lines => String.join (lines.map Prod.snd) := by
  rw [session, told, List.map_map, List.map_map]
  exact List.map_congr_left fun report _ => logger.printAll_eq_lines stamp _

theorem told_threshold (logger : Logger) (level : Severity) (stamp : String)
    (calls : List Call) : monitor.told { logger with threshold := level } stamp calls =
      (monitor.told { logger with threshold := .debug } stamp calls).map
        (List.filter fun line => level.rank ≤ line.1.rank) := by
  rw [told, told, List.map_map]
  exact List.map_congr_left fun report _ => logger.lines_threshold stamp level _

theorem respondAll_tellsFaults {report : Report} {calls : List Call}
    (h : report ∈ monitor.respondAll calls) : TellsFaults report := by
  induction calls generalizing monitor with
  | nil => cases h
  | cons call rest ih =>
    rcases List.mem_cons.mp h with rfl | h
    · exact monitor.respond_tellsFaults call
    · exact ih _ h

theorem errors_told (logger : Logger) (stamp : String) (calls : List Call) :
    (monitor.told logger stamp calls).map (List.filter (·.1 = .error)) =
      (monitor.session logger stamp calls).map fun exchange =>
        if logger.threshold.rank ≤ Severity.error.rank then
          (faultOf exchange.result).toList.map (logger.faultLine stamp)
        else [] := by
  rw [told, session, List.map_map, List.map_map]
  refine List.map_congr_left fun report h => ?_
  have faults : report.log.filterMap Notice.fault? = (faultOf report.result).toList :=
    monitor.respondAll_tellsFaults h
  rw [Function.comp_apply, Function.comp_apply, Report.lines, logger.errors_lines, faults]

/-- The text printed for each request is made of lines. At every level these are the
lines of a debugging logger, less those below the level. At every level up to that of an
error, a request that ends with a fault has one line at the level of an error, with the
message of this fault at its end; any other request, whether it succeeds or fails, has
none. -/
theorem level_filters (logger : Logger) (level : Severity) (stamp : String)
    (calls : List Call) :
    let debugging := { logger with threshold := .debug }
    let raised := { logger with threshold := level }
    let text := fun lines : List (Severity × String) => String.join (lines.map Prod.snd)
    (monitor.session debugging stamp calls).map Exchange.printed =
        (monitor.told debugging stamp calls).map text ∧
      (monitor.session raised stamp calls).map Exchange.printed =
        (monitor.told raised stamp calls).map text ∧
      monitor.told raised stamp calls = (monitor.told debugging stamp calls).map
        (List.filter fun line => level.rank ≤ line.1.rank) ∧
      ((monitor.told raised stamp calls).map (List.filter (·.1 = .error)) =
        (monitor.session raised stamp calls).map fun exchange =>
          if level.rank ≤ Severity.error.rank then
            (faultOf exchange.result).toList.map (logger.faultLine stamp)
          else []) ∧
      ∃ start, ∀ cause,
        logger.faultLine stamp cause = (.error, start ++ cause.message ++ "\n") := by
  intro debugging raised text
  exact ⟨monitor.printed_session .., monitor.printed_session .., monitor.told_threshold ..,
    monitor.errors_told raised stamp calls, logger.faultLine_eq stamp⟩

/-- The second clock of the frame returns from nowhere; a byte that is none is no fault. -/
example :
    let m := (Machine.powerOn ⟨0, 0⟩).respondAll [.loadRom [0x60, 0x01, 0x00, 0xEE]]
    told ⟨m, true⟩ ⟨"Test", .error, false, false⟩ "" [.frame 10, .loadRom [256], .tick] =
      [[(.error, "[   ERROR][Test] Stack underflow at PC=0x0204\n")], [], []] := by
  decide +kernel

end Monitor

end Chip8
