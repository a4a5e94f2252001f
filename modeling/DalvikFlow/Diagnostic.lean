import DalvikFlow.Text.Numeral

/-! Messages for whoever reads along, and where they go. -/
namespace DalvikFlow

inductive Severity where
  | debug
  | info
  | warning
  deriving DecidableEq, Repr

namespace Severity

def name : Severity → String
  | debug => "debug"
  | info => "info"
  | warning => "warning"

/-- The level under which a log files a message. -/
def level : Severity → String
  | debug => "DEBUG"
  | info => "INFO"
  | warning => "WARN"

/-- Ascends from the least to the most severe. -/
def rank : Severity → Nat
  | debug => 0
  | info => 1
  | warning => 2

end Severity

structure Diagnostic where
  severity : Severity
  /-- The instruction that the message is about. -/
  address? : Option Nat
  message : String
  deriving DecidableEq, Repr

def Diagnostic.text (d : Diagnostic) : String :=
  match d.address? with
  | some a => "[" ++ Text.address a ++ "] " ++ d.message
  | none => d.message

structure LogLine where
  level : String
  text : String
  deriving DecidableEq, Repr

def Diagnostic.logLine (d : Diagnostic) : LogLine := ⟨d.severity.level, d.text⟩

/-- Keeps what is reported, in order. -/
structure Collector where
  entries : Array Diagnostic

namespace Collector

def empty : Collector := ⟨#[]⟩

def size (c : Collector) : Nat := c.entries.size

def report (c : Collector) (d : Diagnostic) : Collector := ⟨c.entries.push d⟩

def toList (c : Collector) : List Diagnostic := c.entries.toList

/-- What is at least as severe. -/
def atLeast (c : Collector) (s : Severity) : List Diagnostic :=
  c.toList.filter fun d => s.rank ≤ d.severity.rank

/-- Everything, and the collector without it. -/
def take (c : Collector) : List Diagnostic × Collector := (c.toList, empty)

@[simp] theorem toList_report (c : Collector) (d : Diagnostic) :
    (c.report d).toList = c.toList ++ [d] := by
  simp [report, toList]

end Collector

/-- Where a message goes. -/
inductive Sink where
  | collecting
  | logging
  | discarding
  deriving DecidableEq, Repr

/-- What the sinks hold. -/
structure Reports where
  collected : Collector
  logged : Array LogLine

def Reports.empty : Reports := ⟨.empty, #[]⟩

/-- Each sink keeps its own record, and the last one none. -/
def Sink.deliver : Sink → Reports → Diagnostic → Reports
  | collecting, r, d => { r with collected := r.collected.report d }
  | logging, r, d => { r with logged := r.logged.push d.logLine }
  | discarding, r, _ => r

end DalvikFlow
