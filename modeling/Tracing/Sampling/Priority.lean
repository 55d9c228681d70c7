import Tracing.Text.Blank
import Tracing.Text.Integer

/-!
# Sampling priorities

Whether a trace is kept, and whether a user or the tracer said so.
-/

namespace Tracing

open Text

/-- The keep or reject decision for a trace, with its provenance. -/
inductive Priority where
  | userReject | autoReject | autoKeep | userKeep
deriving DecidableEq, Repr, Inhabited

namespace Priority

/-- The number that stands for a priority in headers and tags. -/
def toInt : Priority → Int
  | userReject => -1
  | autoReject => 0
  | autoKeep => 1
  | userKeep => 2

/-- The priority with a given number; numbers outside the range are absent. -/
def ofInt? : Int → Option Priority
  | -1 => some userReject
  | 0 => some autoReject
  | 1 => some autoKeep
  | 2 => some userKeep
  | _ => none

/-- Reads the number of a priority, with blanks around it and an optional sign. -/
def read? (text : List Char) : Option Priority := (Integer.readInt (trim text)).bind ofInt?

def write (p : Priority) : List Char := Integer.writeInt p.toInt

def isKeep : Priority → Bool
  | autoKeep | userKeep => true
  | userReject | autoReject => false

def isUser : Priority → Bool
  | userReject | userKeep => true
  | autoReject | autoKeep => false

/-- The automatic decision for a keep or a reject. -/
def auto (keep : Bool) : Priority := if keep then autoKeep else autoReject

def name : Priority → String
  | userReject => "UserReject"
  | autoReject => "AutoReject"
  | autoKeep => "AutoKeep"
  | userKeep => "UserKeep"

instance : ToString Priority := ⟨fun p => String.ofList p.write⟩

theorem ofInt?_toInt (p : Priority) : ofInt? p.toInt = some p := by cases p <;> rfl

theorem toInt_of_ofInt? {n : Int} {p : Priority} (h : ofInt? n = some p) : p.toInt = n := by
  unfold ofInt? at h
  split at h <;> simp at h <;> subst h <;> rfl

theorem read?_write (p : Priority) : read? p.write = some p := by cases p <;> decide

end Priority

/-- How a sampling decision was made. -/
inductive Mechanism where
  | standard | agentRate | remoteRate | rule | manual
deriving DecidableEq, Repr, Inhabited

namespace Mechanism

/-- The number that stands for a mechanism. -/
def toNat : Mechanism → Nat
  | standard => 0
  | agentRate => 1
  | remoteRate => 2
  | rule => 3
  | manual => 4

/-- The mechanism with a given number. -/
def ofNat? : Nat → Option Mechanism
  | 0 => some standard
  | 1 => some agentRate
  | 2 => some remoteRate
  | 3 => some rule
  | 4 => some manual
  | _ => none

/-- Reads the value of a decision-maker tag: a minus sign and a number, with blanks around them. -/
def ofTag? (text : List Char) : Option Mechanism := do
  let digits ← dropLead? ['-'] (trim text)
  let n ← Integer.readUnsigned digits
  ofNat? n

/-- The value of the decision-maker tag. -/
def toTag (m : Mechanism) : List Char := '-' :: Integer.writeNat m.toNat

def name : Mechanism → String
  | standard => "Default"
  | agentRate => "AgentRate"
  | remoteRate => "RemoteRate"
  | rule => "Rule"
  | manual => "Manual"

theorem ofTag?_toTag (m : Mechanism) : ofTag? m.toTag = some m := by cases m <;> decide

end Mechanism

end Tracing
