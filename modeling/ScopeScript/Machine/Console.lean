import ScopeScript.Fault

/-!
# Consoles and native functions

A **native function** takes a list of values and gives back plain data, or
fails. All that it can touch is a **console**: the output, which may refuse to
be written to, and a journal of calls. It sees neither the scripts nor the
trace, so that these cannot make a difference to it.

Two natives are always there: `print` writes its arguments one after the other,
and `println` ends the line as well.
-/

namespace ScopeScript

/-- What native functions can touch. -/
structure Console where
  /-- What has been written. -/
  output : String := ""
  /-- How many more writes succeed, if there is a limit. -/
  allowance : Option Nat := none
  /-- The reason that is given once the limit is reached. -/
  refusal : String := ""
  /-- Calls that native functions chose to note, with their arguments. -/
  journal : Array (String × List Value) := #[]

namespace Console

/-- One write, or the reason why it is refused. -/
def write (c : Console) (text : String) : Except String Console :=
  match c.allowance with
  | none => .ok { c with output := c.output ++ text }
  | some 0 => .error c.refusal
  | some (n + 1) => .ok { c with output := c.output ++ text, allowance := some n }

/-- Writes up to the first one that is refused. What was written before stays. -/
def writeAll (c : Console) : List String → Option String × Console
  | [] => (none, c)
  | text :: rest =>
    match c.write text with
    | .error reason => (some reason, c)
    | .ok c => c.writeAll rest

/-- Notes a call in the journal. -/
def record (c : Console) (name : String) (args : List Value) : Console :=
  { c with journal := c.journal.push (name, args) }

end Console

/-- A function of the host that scripts can call. -/
def Native : Type := List Value → Console → Except Failure Datum × Console

namespace Native

/-- Writes the arguments one by one and then `ending`, as a write of its own. -/
def writing (ending : String) : Native := fun args c =>
  match c.writeAll (args.map Value.display ++ [ending]) with
  | (some reason, c) => (.error (.script { fault := .unwritable reason }), c)
  | (none, c) => (.ok (.value .none), c)

/-- Writes its arguments. -/
def print : Native := writing ""

/-- Writes its arguments and ends the line. -/
def println : Native := writing "\n"

/-- Notes its arguments in the journal, under its own name. -/
def probe (name : String) : Native := fun args c => (.ok .null, c.record name args)

/-- Gives back the same datum always. -/
def constant (d : Datum) : Native := fun _ c => (.ok d, c)

/-- Gives back its arguments as a list. -/
def echo : Native := fun args c => (.ok (.list (args.map Datum.value)), c)

/-- Gives back its first argument, and fails if there is none. -/
def first : Native := fun args c =>
  match args with
  | [] => (.error (.host .outOfRange), c)
  | v :: _ => (.ok (.value v), c)

/-- Always fails. -/
def failing (e : Failure) : Native := fun _ c => (.error e, c)

end Native

end ScopeScript
