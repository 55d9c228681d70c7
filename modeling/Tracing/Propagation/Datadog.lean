import Tracing.Log
import Tracing.Propagation.Carrier
import Tracing.Propagation.Context
import Tracing.Text.Hex
import Tracing.Text.Integer

/-!
# Datadog headers

One header per field, ids in decimal. The headers for ids carry only the lower half of a trace id; its
upper half travels in the list of propagated tags, a header of at most 512 bytes. A faulty field is absent
and disturbs no other.
-/

namespace Tracing.Datadog

open Text

def traceIdHeader : String := "x-datadog-trace-id"
def parentIdHeader : String := "x-datadog-parent-id"
def priorityHeader : String := "x-datadog-sampling-priority"
def originHeader : String := "x-datadog-origin"
def tagsHeader : String := "x-datadog-tags"

/-- The length in bytes from which on the tags are left out. -/
def maxTagsLength : Nat := 512

/-! ### Reading -/

/-- Reads the lower half of a trace id: a decimal number of 64 bits. Zeros alone are no id. -/
def readTraceId (text : List Char) : Option Nat :=
  if !text.isEmpty && text.all (· == '0') then none else Integer.readBelow (1 <<< 64) text

/-- The first usable trace id of a carrier, or why there is none. -/
def extractTraceId (carrier : Carrier) : Except HeaderError Nat :=
  match carrier.get? traceIdHeader with
  | none => .error (.extract "`trace_id` not found" "datadog")
  | some value =>
    match firstValid readTraceId value.toList with
    | none => .error (.extract "Failed to decode `trace_id`" "datadog")
    | some n => .ok n

/-- The first usable parent id of a carrier. -/
def extractParentId (carrier : Carrier) : Option Nat :=
  (carrier.get? parentIdHeader).bind fun v => firstValid (Integer.readBelow (1 <<< 64)) v.toList

/-- The first usable priority of a carrier. -/
def extractPriority (carrier : Carrier) : Logged (Option Priority) :=
  match carrier.get? priorityHeader with
  | none => return none
  | some value =>
    match firstValid Priority.read? value.toList with
    | some p => return some p
    | none => do
      log .debug (HeaderError.extract "Failed to decode `sampling_priority`" "datadog").message
      return none

/-- The origin of a carrier, without blanks around it; nothing if only blanks are left. -/
def extractOrigin (carrier : Carrier) : Option String :=
  (carrier.get? originHeader).bind fun value =>
    let origin := trim value.toList
    if origin.isEmpty then none else some (String.ofList origin)

/-- Printable ASCII without the comma. -/
def isTagChar (c : Char) : Bool := 0x20 ≤ c.toNat && c.toNat ≤ 0x7e && c != ','

/-- Whether a text is the key of a propagated tag: the common start and at least one character more,
without blanks. -/
def isTagKey (key : List Char) : Bool :=
  match dropLead? propagatedLead.toList key with
  | some rest => !rest.isEmpty && rest.all fun c => isTagChar c && c != ' '
  | none => false

/-- Whether a text is the value of a propagated tag. -/
def isTagValue (value : List Char) : Bool := value.all isTagChar

/-- Reads one `key=value` pair. -/
def readPair (pair : List Char) : Option (String × String) :=
  match splitOnce '=' (trim pair) with
  | some (key, value) =>
    if isTagKey key && isTagValue value then some (String.ofList key, String.ofList value) else none
  | none => none

/-- Reads the pairs of a tag list; the last value of a key stays. -/
def readTags (text : List Char) : Dict String := .ofList ((splitOn ',' text).filterMap readPair)

/-- Reads the upper half of a trace id: 16 characters, hexadecimal digits behind an optional plus sign. -/
def readHigherBits (text : List Char) : Option Nat :=
  if text.length = 16 then
    match text with
    | '+' :: digits => Hex.readNat digits
    | digits => Hex.readNat digits
  else none

/-- Takes a malformed upper half out of the tags. -/
def dropBadHigherBits (tags : Dict String) : Logged (Dict String) :=
  match tags.get? higherBitsTag with
  | some tid =>
    if (readHigherBits tid.toList).isSome then return tags
    else do
      log .warn ("Malformed Trace ID: " ++ tid ++ " Failed to decode trace ID from carrier.")
      return tags.erase higherBitsTag
  | none => return tags

/-- Takes a malformed decision maker out of the tags. -/
def dropBadDecisionMaker (tags : Dict String) : Logged (Dict String) :=
  match tags.get? decisionMakerTag with
  | some dm =>
    if isDecisionMaker dm.toList then return tags
    else do
      log .warn ("Failed to decode `_dd.p.dm`: " ++ dm)
      return tags.erase decisionMakerTag
  | none => return tags

/-- The propagated tags of a carrier, malformed ones left out; none if the header is too long. -/
def extractTags (carrier : Carrier) : Logged (Dict String) :=
  match carrier.get? tagsHeader with
  | none => return ∅
  | some value =>
    if maxTagsLength < value.utf8ByteSize then do
      log .debug (HeaderError.extract "`x-datadog-tags` exceeds 512 bytes" "datadog").message
      return ∅
    else do
      let tags ← dropBadHigherBits (readTags value.toList)
      dropBadDecisionMaker tags

/-- The upper half of the trace id that the tags hold, zero if none. -/
def higherBits (tags : Dict String) : Nat :=
  ((tags.get? higherBitsTag).bind fun tid => readHigherBits tid.toList).getD 0

/-- Reads a context; only a trace id is required. -/
def extract (carrier : Carrier) : Logged (Option Extracted) :=
  match extractTraceId carrier with
  | .error e => do
    log .debug e.message
    return none
  | .ok lower => do
    let parent := (extractParentId carrier).getD 0
    let priority ← extractPriority carrier
    let tags ← extractTags carrier
    let traceId := .ofParts (BitVec.ofNat 64 (higherBits tags)) (BitVec.ofNat 64 lower)
    return some ⟨traceId, .ofNat parent, priority, extractOrigin carrier, tags.erase higherBitsTag⟩

/-! ### Writing -/

/-- Whether a tag is propagated under its own key. -/
def isPropagated (key : String) : Bool :=
  propagatedLead.toList.isPrefixOf key.toList && key != higherBitsTag

/-- The tags that go into the header: the propagated ones, and the upper half of the trace id unless it
is zero. -/
def headerTags (out : Outgoing) : Dict String :=
  let tags := out.tags.filter fun key _ => isPropagated key
  if out.traceId.higher = 0 then tags
  else tags.insert higherBitsTag (String.ofList (Hex.write 16 out.traceId.higher.toNat))

/-- The text of the tag list, in the order of the keys. -/
def writeTags (out : Outgoing) : String :=
  String.ofList (joinWith [','] ((headerTags out).entries.map fun (key, value) =>
    key.toList ++ '=' :: value.toList))

/-- Writes the tag list, unless it is empty or too long. -/
def injectTags (out : Outgoing) (carrier : Carrier) : Logged Carrier :=
  let tags := writeTags out
  if maxTagsLength < tags.utf8ByteSize then do
    log .warn (HeaderError.inject "`x-datadog-tags` exceeds 512 bytes" "datadog").message
    return carrier
  else if tags.isEmpty then return carrier
  else return carrier.set tagsHeader tags

/-- Writes a header if there is a value for it. -/
def setSome (carrier : Carrier) (name : String) : Option String → Carrier
  | some value => carrier.set name value
  | none => carrier

/-- Writes a context. -/
def inject (out : Outgoing) (carrier : Carrier) : Logged Carrier :=
  let carrier := carrier.set traceIdHeader (String.ofList (Integer.writeNat out.traceId.lower.toNat))
  let carrier := carrier.set parentIdHeader (String.ofList (Integer.writeNat out.spanId.toNat))
  let carrier := setSome carrier priorityHeader (out.priority.map toString)
  let carrier := setSome carrier originHeader out.origin
  injectTags out carrier

end Tracing.Datadog
