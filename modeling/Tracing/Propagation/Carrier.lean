import Tracing.Json.Basic
import Tracing.Text.Blank
import Tracing.Text.Case
import Tracing.Text.Split

/-!
# Carriers

What a trace context is written to and read from: the headers of a message, or a JSON object whose string
members serve as headers. Names are looked up and stored in lowercase. A repeated header holds its values
separated by commas; `firstValid` takes the first usable one.
-/

namespace Tracing

open Text

/-- A place for headers. -/
inductive Carrier where
  /-- Headers by name. -/
  | headers (fields : Dict String)
  /-- A JSON value; only an object holds headers, in its string members. -/
  | document (value : Json)

namespace Carrier

/-- The header stored under the lowercase of a name. -/
def get? (carrier : Carrier) (name : String) : Option String :=
  match carrier with
  | headers fields => fields.get? (lowercase name)
  | document value => (value.member? (lowercase name)).bind Json.str?

/-- Stores a header under the lowercase of its name; a JSON value other than an object stays as it is. -/
def set (carrier : Carrier) (name value : String) : Carrier :=
  match carrier with
  | headers fields => headers (fields.insert (lowercase name) value)
  | document (.obj members) => document (.obj (Entries.insert (lowercase name) (.str value) members))
  | document value => document value

def keys : Carrier → List String
  | headers fields => fields.keys
  | document (.obj members) => members.map (·.1)
  | document _ => []

/-- A carrier without headers. -/
def empty : Carrier := headers ∅

end Carrier

/-- The first of the values separated by commas, blanks around them cut, that `read` accepts. -/
def firstValid {α : Type} (read : List Char → Option α) (value : List Char) : Option α :=
  ((splitOn ',' value).map trim).findSome? read

end Tracing
