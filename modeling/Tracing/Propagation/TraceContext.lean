import Tracing.Log
import Tracing.Propagation.Carrier
import Tracing.Propagation.Context
import Tracing.Text.Hex

/-!
# Trace context headers

Two headers: `traceparent` holds version, ids and the sampled flag in fixed places; the `dd` member of
`tracestate` holds the exact priority, the origin and the propagated tags. The priority of the member
counts only when it agrees with the flag.
-/

namespace Tracing.TraceContext

open Text

def parentHeader : String := "traceparent"
def stateHeader : String := "tracestate"

/-! ### The parent header -/

/-- What the parent header says. -/
structure Parent where
  version : List Char
  traceId : TraceId
  spanId : SpanId
  sampled : Bool
deriving DecidableEq

/-- Why a parent header is refused. -/
inductive ParentError where
  | malformed | forbiddenVersion | extraFields | zeroTraceId | zeroSpanId
deriving DecidableEq, Repr

def ParentError.reason : ParentError → String
  | malformed => "invalid traceparent"
  | forbiddenVersion => "`ff` is an invalid traceparent version"
  | extraFields => "Traceparent with version `00` should contain only 4 values delimited by `-`"
  | zeroTraceId => "`0` value for trace_id is invalid"
  | zeroSpanId => "`0` value for span_id is invalid"

/-- The four fields of a parent header by their places, each with its number, and what follows them. -/
structure ParentFields where
  version : List Char
  traceId : Nat
  spanId : Nat
  flags : Nat
  tail : List Char
deriving DecidableEq

/-- Takes `width` hexadecimal digits off the front of a text. -/
def takeHex (width : Nat) (text : List Char) : Option (List Char × Nat × List Char) :=
  let digits := text.take width
  if digits.length = width then
    (Hex.readNat digits).map fun n => (digits, n, text.drop width)
  else none

/-- Takes a dash off the front of a text. -/
def takeDash : List Char → Option (List Char)
  | '-' :: rest => some rest
  | _ => none

/-- Whether the text behind the four fields is one: nothing, or a dash and anything on the same line. -/
def isTail : List Char → Bool
  | [] => true
  | c :: rest => c == '-' && rest.all (· != '\n')

/-- Splits a parent header into its fields. -/
def readFields (text : List Char) : Option ParentFields := do
  let (version, _, rest) ← takeHex 2 text
  let rest ← takeDash rest
  let (_, traceId, rest) ← takeHex 32 rest
  let rest ← takeDash rest
  let (_, spanId, rest) ← takeHex 16 rest
  let rest ← takeDash rest
  let (_, flags, tail) ← takeHex 2 rest
  if isTail tail then some ⟨version, traceId, spanId, flags, tail⟩ else none

/-- Checks the version: `ff` in one case is forbidden and `00` has nothing behind its fields. -/
def checkVersion (fields : ParentFields) : Except ParentError Unit :=
  if fields.version = ['f', 'f'] ∨ fields.version = ['F', 'F'] then .error .forbiddenVersion
  else if fields.version = ['0', '0'] ∧ fields.tail ≠ [] then .error .extraFields
  else .ok ()

/-- Reads a parent header without its blanks. A version after `00` is read like it and noted. -/
def readParent (text : List Char) : Logged (Except ParentError Parent) :=
  match readFields text with
  | none => return .error .malformed
  | some fields =>
    match checkVersion fields with
    | .error e => return .error e
    | .ok () => do
      if fields.version ≠ ['0', '0'] then
        log .debug ("Unsupported traceparent version " ++ String.ofList fields.version
          ++ ", still attempting to parse")
      if fields.traceId = 0 then return .error .zeroTraceId
      else if fields.spanId = 0 then return .error .zeroSpanId
      else
        return .ok ⟨fields.version, .ofNat fields.traceId, .ofNat fields.spanId, fields.flags % 2 = 1⟩

/-- The text of a parent header. -/
def writeParent (out : Outgoing) : List Char :=
  let sampled := (out.priority.map Priority.isKeep).getD false
  "00-".toList ++ out.traceId.toHex128 ++ '-' :: out.spanId.toHex
    ++ (if sampled then "-01".toList else "-00".toList)

/-! ### The state header -/

/-- What the `dd` member of a state header says. -/
structure State where
  priority : Option Priority
  origin : Option String
  tags : Dict String
deriving DecidableEq

/-- Printable ASCII. -/
def isPrintable (c : Char) : Bool := 0x20 ≤ c.toNat && c.toNat ≤ 0x7e

/-- The character that stands for another inside the member. The equals sign becomes a tilde; what would
end an item or is not printable ASCII is lost. -/
def encodeChar (c : Char) : Char :=
  if c = '=' then '~'
  else if c = ',' ∨ c = ';' ∨ c = '~' then '_'
  else if isPrintable c then c
  else '_'

/-- A value inside the member. -/
def encodeValue (value : List Char) : List Char := value.map encodeChar

/-- The value that was written for a text. -/
def decodeValue (value : List Char) : List Char := value.map fun c => if c = '~' then '=' else c

/-- The text of the first `dd` member. -/
def findMember (text : List Char) : Option (List Char) :=
  ((splitOn ',' text).map trim).findSome? (dropLead? "dd=".toList)

/-- The items of a member; the last value of a key stays. -/
def readItems (member : List Char) : Dict String :=
  .ofList (((splitOn ';' member).filterMap (splitOnce ':')).map fun (k, v) =>
    (String.ofList k, String.ofList v))

/-- The propagated tag that an item stands for; the upper half of the trace id is none. -/
def tagOfItem (item : String × String) : Option (String × String) :=
  match dropLead? "t.".toList item.1.toList with
  | some rest =>
    let key := String.ofList (propagatedLead.toList ++ rest)
    if key = higherBitsTag then none
    else some (key, String.ofList (decodeValue item.2.toList))
  | none => none

/-- The propagated tags of a member, a malformed decision maker left out. -/
def tagsOfItems (items : Dict String) : Dict String :=
  let tags := Dict.ofList (items.entries.filterMap tagOfItem)
  match tags.get? decisionMakerTag with
  | some dm => if isDecisionMaker dm.toList then tags else tags.erase decisionMakerTag
  | none => tags

/-- What the items of a member say. -/
def stateOfItems (items : Dict String) : State where
  priority := (items.get? "s").bind fun s => (Integer.readInt s.toList).bind Priority.ofInt?
  origin := (items.get? "o").map fun o => String.ofList (decodeValue o.toList)
  tags := tagsOfItems items

/-- Reads a state header; one with other characters than printable ASCII is refused. -/
def readState (value : String) : Logged (Option State) :=
  if value.toList.all isPrintable then
    return (findMember value.toList).map fun member => stateOfItems (readItems member)
  else do
    log .debug ("Received invalid tracestate header " ++ value)
    return none

/-- The item for a propagated tag. -/
def itemOfTag (tag : String × String) : Option (List Char) :=
  if tag.1 = higherBitsTag then none
  else (dropLead? propagatedLead.toList tag.1.toList).map fun rest =>
    "t.".toList ++ rest ++ ':' :: encodeValue tag.2.toList

/-- The items of the member for a context: priority, origin, span id, then the tags in the order of
their keys. -/
def stateItems (out : Outgoing) : List (List Char) :=
  (out.priority.map fun p => "s:".toList ++ p.write).toList
    ++ (out.origin.map fun o => "o:".toList ++ encodeValue o.toList).toList
    ++ ["p:".toList ++ out.spanId.toHex]
    ++ out.tags.entries.filterMap itemOfTag

/-- The text of a state header. -/
def writeState (out : Outgoing) : List Char := "dd=".toList ++ joinWith [';'] (stateItems out)

/-! ### Both headers -/

/-- The priority of a context: that of the state header when it agrees with the sampled flag, else the
automatic one after the flag. -/
def agreedPriority (sampled : Bool) (stated : Option Priority) : Priority :=
  match stated with
  | some p => if p.isKeep = sampled then p else .auto sampled
  | none => .auto sampled

/-- The state header of a carrier. -/
def extractState (carrier : Carrier) : Logged (Option State) :=
  match carrier.get? stateHeader with
  | some value => readState value
  | none => do
    log .debug "No `dd` value found in tracestate"
    return none

/-- Reads a context. The parent header is required, the state header adds to it. -/
def extract (carrier : Carrier) : Logged (Option Extracted) :=
  match carrier.get? parentHeader with
  | none => return none
  | some value => do
    match ← readParent (trim value.toList) with
    | .error e =>
      log .debug ("Failed to extract traceparent: "
        ++ (HeaderError.extract e.reason "traceparent").message)
      return none
    | .ok parent =>
      let state ← extractState carrier
      return some {
        traceId := parent.traceId
        parentSpanId := parent.spanId
        priority := some (agreedPriority parent.sampled (state.bind State.priority))
        origin := state.bind State.origin
        tags := (state.map State.tags).getD ∅ }

/-- Writes a context. -/
def inject (out : Outgoing) (carrier : Carrier) : Logged Carrier :=
  let carrier := carrier.set parentHeader (String.ofList (writeParent out))
  return carrier.set stateHeader (String.ofList (writeState out))

end Tracing.TraceContext
