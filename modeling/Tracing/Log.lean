/-!
# Diagnostics

Everything the tracer does gives its result together with the log events it emitted, oldest first
(`Logged`). A line (`Event.line`) names the program, the level, the scopes the event was emitted in and
its text, with control characters that could drive a terminal made visible.
-/

namespace Tracing

/-- How much an event matters. -/
inductive Level where
  | error | warn | info | debug | trace
deriving DecidableEq, Repr

namespace Level

def name : Level → String
  | error => "ERROR"
  | warn => "WARN"
  | info => "INFO"
  | debug => "DEBUG"
  | trace => "TRACE"

end Level

/-- A scope that an event is emitted in, with the text of its fields. -/
structure Scope where
  name : String
  fields : String := ""
deriving DecidableEq, Repr

/-- One log event. Fields are name and value, written behind the message. -/
structure Event where
  level : Level
  message : String
  fields : List (String × String) := []
  scopes : List Scope := []
deriving DecidableEq, Repr

namespace Event

/-- A character of a message, written so that it cannot drive a terminal. -/
def visible (c : Char) : List Char :=
  if c.toNat = 0x1b ∨ c.toNat = 0x07 ∨ c.toNat = 0x08 ∨ c.toNat = 0x0c ∨ c.toNat = 0x7f then
    '\\' :: 'x' :: [if c.toNat < 16 then '0' else Nat.digitChar (c.toNat / 16), Nat.digitChar (c.toNat % 16)]
  else if 0x80 ≤ c.toNat ∧ c.toNat ≤ 0x9f then
    "\\u\x7b".toList ++ Nat.toDigits 16 c.toNat ++ ['\x7d']
  else [c]

/-- A scope as it stands in front of a message. -/
def scopeText (s : Scope) : String :=
  s.name ++ (if s.fields.isEmpty then "" else "\x7b" ++ s.fields ++ "\x7d") ++ ": "

/-- The line that is logged for an event. -/
def line (e : Event) : String :=
  "DD_TRACE | " ++ e.level.name ++ " | " ++ String.join (e.scopes.map scopeText)
    ++ String.ofList (e.message.toList.flatMap visible)
    ++ String.join (e.fields.map fun f => " " ++ f.1 ++ "=" ++ f.2)

end Event

/-- A result together with the events emitted on the way to it, oldest first. -/
structure Logged (α : Type) where
  value : α
  events : List Event

namespace Logged

variable {α β : Type}

instance : Monad Logged where
  pure a := ⟨a, []⟩
  bind x f :=
    let y := f x.value
    ⟨y.value, x.events ++ y.events⟩

@[simp] theorem value_pure (a : α) : (pure a : Logged α).value = a := rfl
@[simp] theorem events_pure (a : α) : (pure a : Logged α).events = [] := rfl
@[simp] theorem value_bind (x : Logged α) (f : α → Logged β) :
    (x >>= f).value = (f x.value).value := rfl
@[simp] theorem events_bind (x : Logged α) (f : α → Logged β) :
    (x >>= f).events = x.events ++ (f x.value).events := rfl
@[simp] theorem value_map (f : α → β) (x : Logged α) : (f <$> x).value = f x.value := rfl

instance : LawfulMonad Logged :=
  LawfulMonad.mk' Logged (fun _ => by simp [Functor.map]) (fun _ _ => by simp [bind, pure])
    (fun _ _ _ => by simp [bind])

end Logged

/-- Emits one event. -/
def log (level : Level) (message : String) : Logged Unit := ⟨(), [⟨level, message, [], []⟩]⟩

@[simp] theorem value_log (level : Level) (message : String) : (log level message).value = () := rfl

end Tracing
