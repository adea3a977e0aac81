import ScopeScript.Text.Quoted

/-!
# UTF-8

Files hold octets; a script is the text they encode. Decoding stops at the
first **ill-formed** sequence and says where it is and what is wrong with it:

* an octet that starts no character,
* an octet that cannot continue the character begun before it, or
* the end of the data in the middle of a character.

In the last two cases the fault covers the longest beginning of a character
that is in order, so its extent may be one, two or three octets.
-/

namespace ScopeScript.Text

/-- What is wrong with an ill-formed sequence. -/
inductive Utf8Reason where
  /-- No character starts with this octet. -/
  | badStart
  /-- The octet after the sequence does not continue it. -/
  | badContinuation
  /-- The data ends before the character does. -/
  | cutOff
deriving DecidableEq, Repr

/-- The wording of a reason. -/
def Utf8Reason.message : Utf8Reason → String
  | badStart => "invalid start byte"
  | badContinuation => "invalid continuation byte"
  | cutOff => "unexpected end of data"

/-- An ill-formed sequence in encoded data. -/
structure Utf8Fault where
  /-- Position of its first octet, counted from zero. -/
  start : Nat
  /-- Its first octet. -/
  octet : UInt8
  /-- How many octets it extends over, at least one. -/
  extent : Nat
  /-- What is wrong with it. -/
  reason : Utf8Reason
deriving DecidableEq, Repr

/-- The message for a fault: one octet is shown, several are given by position. -/
def Utf8Fault.message (f : Utf8Fault) : String :=
  let place :=
    if f.extent ≤ 1 then
      "byte 0x" ++ String.ofList (hexDigits 2 f.octet.toNat) ++ " in position " ++ toString f.start
    else
      "bytes in position " ++ toString f.start ++ "-" ++ toString (f.start + f.extent - 1)
  "'utf-8' codec can't decode " ++ place ++ ": " ++ f.reason.message

/-- What the first octet of a character says: the bits it contributes, how many
octets follow, and the range of the second one. -/
def Utf8.lead (b : UInt8) : Option (Nat × Nat × UInt8 × UInt8) :=
  if b < 0x80 then some (b.toNat, 0, 0x80, 0xBF)
  else if b < 0xC2 then none
  else if b < 0xE0 then some (b.toNat - 0xC0, 1, 0x80, 0xBF)
  else if b < 0xF0 then
    some (b.toNat - 0xE0, 2, if b == 0xE0 then 0xA0 else 0x80, if b == 0xED then 0x9F else 0xBF)
  else if b < 0xF5 then
    some (b.toNat - 0xF0, 3, if b == 0xF0 then 0x90 else 0x80, if b == 0xF4 then 0x8F else 0xBF)
  else none

/-- A character that has begun and is not complete. -/
structure Utf8.Begun where
  /-- Position of its first octet. -/
  start : Nat
  /-- Its first octet. -/
  octet : UInt8
  /-- How many of its octets have been read. -/
  seen : Nat
  /-- The bits read so far. -/
  code : Nat
  /-- How many octets are missing, at least one. -/
  owed : Nat
  /-- The least octet that may come next. -/
  least : UInt8
  /-- The greatest octet that may come next. -/
  greatest : UInt8

/-- The fault of a character that cannot be completed. -/
def Utf8.Begun.fault (p : Begun) (reason : Utf8Reason) : Utf8Fault :=
  ⟨p.start, p.octet, p.seen, reason⟩

/-- Decodes the octets from position `pos` on. `done` holds, in reverse, the
characters before, and `begun` the one under way, if any. -/
def Utf8.decodeFrom (pos : Nat) (done : List Char) (begun : Option Utf8.Begun) :
    List UInt8 → Except Utf8Fault (List Char)
  | [] =>
    match begun with
    | none => .ok done.reverse
    | some p => .error (p.fault .cutOff)
  | b :: rest =>
    match begun with
    | none =>
      match Utf8.lead b with
      | none => .error ⟨pos, b, 1, .badStart⟩
      | some (code, 0, _, _) => decodeFrom (pos + 1) (Char.ofNat code :: done) none rest
      | some (code, owed, lo, hi) =>
        decodeFrom (pos + 1) done (some ⟨pos, b, 1, code, owed, lo, hi⟩) rest
    | some p =>
      if p.least ≤ b && b ≤ p.greatest then
        let code := p.code * 64 + (b.toNat - 0x80)
        if p.owed ≤ 1 then decodeFrom (pos + 1) (Char.ofNat code :: done) none rest
        else
          decodeFrom (pos + 1) done
            (some ⟨p.start, p.octet, p.seen + 1, code, p.owed - 1, 0x80, 0xBF⟩) rest
      else .error (p.fault .badContinuation)

/-- The text that the octets encode. -/
def decodeUtf8 (bs : List UInt8) : Except Utf8Fault String :=
  (Utf8.decodeFrom 0 [] none bs).map String.ofList

end ScopeScript.Text
